import RecordFilter.Proofs.Record.Paths

/-! Values and the JSON they are written as. Numbers that are not finite have a text but no JSON, so
paths to them are the only ones at which a value and its JSON answer differently. -/

namespace RecordFilter

def Binary64.IsFinite : Binary64 → Prop
  | finite _ => True
  | _ => False

def Value.Number.IsFinite : Number → Prop
  | integer .. => True
  | float x => x.IsFinite

namespace Record

theorem foldlM_child?_toJson (segments : List Text) (v : Value) :
    segments.foldlM child? (Value.toJson v) = (segments.foldlM child? v).map Value.toJson := by
  refine foldlM_child?_replaceNumbers (fun n segment => ?_) segments v
  cases n.toJson? <;> rfl

theorem text?_toJson_of_not_isFinite {x : Binary64} (infinite : ¬x.IsFinite) :
    text? (Value.toJson (.number (.float x))) = none := by
  cases x with
  | finite x => exact absurd trivial infinite
  | _ => rfl

theorem text?_toJson {node : Value} (finite : ∀ x, node = .number (.float x) → x.IsFinite) :
    text? (Value.toJson node) = text? node := by
  cases node with
  | number n =>
    cases n with
    | integer n range => rfl
    | float x =>
      cases x with
      | finite x => rfl
      | _ => exact (finite _ rfl).elim
  | array items =>
    rw [Value.toJson, text?_replaceNumbers_array, toJson_json]
    rfl
  | object members =>
    rw [Value.toJson, text?_replaceNumbers_object, toJson_json]
    rfl
  | _ => rfl

theorem lookup_of_foldlM {ν : Type} [RecordNumber ν] {record node : Document ν} {path : Text}
    {separator : Char} (h : (path.splitOn separator).foldlM child? record = some node) :
    lookup record path separator = text? node := by
  rw [lookup, h]
  rfl

theorem lookup_toJson {v : Value} {path : Text} {separator : Char}
    (finite : ∀ x, (path.splitOn separator).foldlM child? v = some (.number (.float x)) → x.IsFinite) :
    lookup (Value.toJson v) path separator = lookup v path separator := by
  rw [lookup, lookup, foldlM_child?_toJson]
  cases found : (path.splitOn separator).foldlM child? v with
  | none => rfl
  | some node => exact text?_toJson fun x same => finite x (same ▸ found)

/-- A path to a number that is not finite finds the text of that number in a value and nothing in its
JSON. Every other path finds the same in both. So filters give one verdict on both where all numbers
are finite. -/
theorem toJson_agrees (v : Value) (separator : Char) :
    (∀ path x, (path.splitOn separator).foldlM child? v = some (.number (.float x)) → ¬x.IsFinite →
      lookup v path separator = some x.fieldText ∧
        lookup (Value.toJson v) path separator = none) ∧
    (∀ path, (¬∃ x : Binary64, (path.splitOn separator).foldlM child? v = some (.number (.float x)) ∧
        ¬x.IsFinite) →
      lookup (Value.toJson v) path separator = lookup v path separator) ∧
    ((∀ n ∈ v.numbers, n.IsFinite) →
      ∀ f : Filter, f.holds (Value.toJson v) separator = f.holds v separator) := by
  refine ⟨fun path x found infinite => ⟨lookup_of_foldlM found, ?_⟩, fun path others => ?_, ?_⟩
  · have written := (foldlM_child?_toJson (path.splitOn separator) v).trans (congrArg _ found)
    rw [lookup_of_foldlM written, text?_toJson_of_not_isFinite infinite]
  · refine lookup_toJson fun x found => Classical.byContradiction fun infinite => ?_
    exact others ⟨x, found, infinite⟩
  · intro finite f
    refine Filter.holds_congr (fun path => lookup_toJson fun x found => ?_) f
    exact finite _ (numbers_foldlM_child? found _ (List.mem_singleton_self _))

theorem toJson_agrees_beside_nan :
    let record : Value := .object [(['a'], .array [.number (.float .nan), .number (.integer 7 (by decide))])]
    let finite : Value := .object [(['a'], .array [.number (.float (.finite (.zero true)))])]
    let filter : Filter := .leaf ⟨['a', '.', '0'], .atMost, ['0'], nofun⟩
    (lookup record ['a', '.', '0'] '.' = some ['N', 'a', 'N'] ∧
        lookup (Value.toJson record) ['a', '.', '0'] '.' = none) ∧
      lookup (Value.toJson record) ['a'] '.' = lookup record ['a'] '.' ∧
      lookup record ['a'] '.' = some ['[', 'n', 'u', 'l', 'l', ',', '7', ']'] ∧
      lookup (Value.toJson record) ['a', '.', '1'] '.' = lookup record ['a', '.', '1'] '.' ∧
      (∀ n ∈ finite.numbers, n.IsFinite) ∧
      filter.holds (Value.toJson finite) '.' = filter.holds finite '.' := by
  intro record finite filter
  have others (path : Text) {node : Value} (found : (path.splitOn '.').foldlM child? record = some node)
      (other : ∀ x, node ≠ .number (.float x)) :
      ¬∃ x : Binary64, (path.splitOn '.').foldlM child? record = some (.number (.float x)) ∧
        ¬x.IsFinite := by
    rintro ⟨x, reached, -⟩
    exact other x (Option.some_inj.mp (found.symm.trans reached))
  have all : ∀ n ∈ finite.numbers, n.IsFinite := List.forall_mem_singleton.mpr trivial
  refine ⟨(toJson_agrees record '.').1 _ .nan rfl id, ?_, rfl, ?_, all, ?_⟩
  · exact (toJson_agrees record '.').2.1 _ (others ['a'] rfl fun _ => nofun)
  · exact (toJson_agrees record '.').2.1 _ (others ['a', '.', '1'] rfl fun _ => nofun)
  · exact (toJson_agrees finite '.').2.2 all filter

end Record
end RecordFilter
