import RecordFilter.Proofs.Numeral.Grammar
import RecordFilter.Proofs.Numeral.Value
import RecordFilter.Record

/-! Paths as addresses. Steps joined by the separator lead to the node that is reached step by step, and
a path that finds a text is made of such steps; positions are read from any number of digits. -/

namespace RecordFilter

namespace Text

theorem ofNat_digitsValue_singleton {c : Char} (digit : isDigit c = true) :
    ofNat (digitsValue [c]) = [c] := by
  have all : ['0', '1', '2', '3', '4', '5', '6', '7', '8', '9'].all
      (fun c => ofNat (digitsValue [c]) == [c]) = true := rfl
  exact beq_iff_eq.mp (List.all_eq_true.mp all c (Numeral.Grammar.isDigit_iff_mem.mp digit))

theorem exists_zeros_append {digits : Text} (all : Digits digits) (nonempty : digits ≠ []) :
    ∃ count, digits = List.replicate count '0' ++ ofNat (digitsValue digits) := by
  induction digits using List.reverseRecOn with
  | nil => exact absurd rfl nonempty
  | append_singleton front c ih =>
    obtain ⟨front_digits, last⟩ := digits_append_iff.mp all
    have digit := ofNat_digitsValue_singleton (last c List.mem_cons_self)
    have value : digitsValue (front ++ [c]) = 10 * digitsValue front + digitsValue [c] :=
      digitsValue_append front [c]
    obtain rfl | filled := eq_or_ne front []
    · exact ⟨0, digit.symm⟩
    obtain ⟨count, split⟩ := ih front_digits filled
    obtain zero | positive := Nat.eq_zero_or_pos (digitsValue front)
    · rw [value, zero, Nat.mul_zero, Nat.zero_add, digit]
      rw [zero] at split
      have zeros : front = List.replicate (count + 1) '0' := split.trans List.replicate_succ'.symm
      exact ⟨count + 1, congrArg (· ++ [c]) zeros⟩
    · have small := digitsValue_singleton_le (last c List.mem_cons_self)
      have ten : 1 < 10 := by decide
      have joined : ofNat (digitsValue front) ++ ofNat (digitsValue [c]) =
          ofNat (10 * digitsValue front + digitsValue [c]) :=
        Nat.toDigits_append_toDigits ten positive (by omega)
      rw [digit] at joined
      refine ⟨count, ?_⟩
      rw [value, ← joined, ← List.append_assoc, ← split]

end Text

namespace Record

open Text (Digits)

theorem extendIndex?_eq_some_iff {index next : Nat} {c : Char} :
    extendIndex? index c = some next ↔
      Text.isDigit c = true ∧ 10 * index + (c.toNat - '0'.toNat) = next ∧ next < positions := by
  unfold extendIndex?
  split
  · rename_i digit
    simp only
    split
    · rename_i room
      rw [Option.some_inj]
      exact ⟨fun same => ⟨digit, same, same ▸ room⟩, fun h => h.2.1⟩
    · rename_i full
      refine ⟨nofun, fun ⟨_, same, room⟩ => absurd (same ▸ room) full⟩
  · rename_i other
    exact ⟨nofun, fun h => absurd h.1 other⟩

theorem le_ofDigitChars (digits : Text) (start : Nat) : start ≤ Nat.ofDigitChars 10 digits start := by
  rw [Nat.ofDigitChars_eq_ofDigitChars_zero]
  have scaled := Nat.le_mul_of_pos_left start (show 0 < 10 ^ digits.length from Nat.pow_pos (by decide))
  omega

theorem foldlM_extendIndex?_eq_some_iff {digits : Text} {start i : Nat} (room : start < positions) :
    digits.foldlM extendIndex? start = some i ↔
      Digits digits ∧ Nat.ofDigitChars 10 digits start = i ∧ i < positions := by
  -- A digit never makes a number smaller, so none on the way is beyond the last one.
  induction digits generalizing start with
  | nil =>
    simp only [List.foldlM_nil, Nat.ofDigitChars_nil, pure, Option.some_inj]
    exact ⟨fun same => ⟨Text.digits_nil, same, same ▸ room⟩, fun h => h.2.1⟩
  | cons c digits ih =>
    rw [List.foldlM_cons, Nat.ofDigitChars_cons, Text.digits_cons_iff]
    constructor
    · intro h
      obtain ⟨next, step, rest⟩ := Option.bind_eq_some_iff.mp h
      obtain ⟨digit, rfl, room⟩ := extendIndex?_eq_some_iff.mp step
      obtain ⟨all, value, within⟩ := (ih room).mp rest
      exact ⟨⟨digit, all⟩, value, within⟩
    · rintro ⟨⟨digit, all⟩, value, within⟩
      have room : 10 * start + (c.toNat - '0'.toNat) < positions := by
        have grows := le_ofDigitChars digits (10 * start + (c.toNat - '0'.toNat))
        omega
      exact Option.bind_eq_some_iff.mpr
        ⟨_, extendIndex?_eq_some_iff.mpr ⟨digit, rfl, room⟩, (ih room).mpr ⟨all, value, within⟩⟩

/-- The spellings of a position: its decimal text behind any number of zeros, and perhaps a plus sign. -/
inductive SpellsIndex (i : Nat) : Text → Prop where
  | plain (zeros : Nat) : SpellsIndex i (List.replicate zeros '0' ++ Text.ofNat i)
  | signed (zeros : Nat) : SpellsIndex i ('+' :: (List.replicate zeros '0' ++ Text.ofNat i))

def unsigned : Text → Text
  | '+' :: digits => digits
  | digits => digits

theorem unsigned_of_digits {text : Text} (all : Digits text) : unsigned text = text := by
  unfold unsigned
  split
  · have plus := all '+' List.mem_cons_self
    cases plus
  · rfl

theorem eq_or_eq_of_unsigned {segment digits : Text} (h : unsigned segment = digits) :
    segment = digits ∨ segment = '+' :: digits := by
  unfold unsigned at h
  split at h
  · exact .inr (congrArg _ h)
  · exact .inl h

theorem digits_zeros_append (zeros i : Nat) : Digits (List.replicate zeros '0' ++ Text.ofNat i) :=
  Text.digits_append_iff.mpr ⟨Text.digits_zeros zeros, Text.digits_ofNat i⟩

theorem digitsValue_zeros_append (zeros i : Nat) :
    Text.digitsValue (List.replicate zeros '0' ++ Text.ofNat i) = i := by
  rw [Text.digitsValue_append, Text.digitsValue_zeros, Text.digitsValue_ofNat, Nat.mul_zero, Nat.zero_add]

theorem spellsIndex_iff {i : Nat} {segment : Text} :
    SpellsIndex i segment ↔ ∃ zeros, unsigned segment = List.replicate zeros '0' ++ Text.ofNat i := by
  constructor
  · rintro (zeros | zeros)
    · exact ⟨zeros, unsigned_of_digits (digits_zeros_append zeros i)⟩
    · exact ⟨zeros, rfl⟩
  · rintro ⟨zeros, digits⟩
    obtain rfl | rfl := eq_or_eq_of_unsigned digits
    · exact .plain zeros
    · exact .signed zeros

theorem SpellsIndex.unique {i j : Nat} {segment : Text} (first : SpellsIndex i segment)
    (second : SpellsIndex j segment) : i = j := by
  obtain ⟨zeros, same⟩ := spellsIndex_iff.mp first
  obtain ⟨others, same'⟩ := spellsIndex_iff.mp second
  rw [← digitsValue_zeros_append zeros i, ← same, same', digitsValue_zeros_append]

theorem index?_eq (segment : Text) : index? segment =
    if (unsigned segment).isEmpty then none else (unsigned segment).foldlM extendIndex? 0 := rfl

theorem index?_eq_some_iff {i : Nat} {segment : Text} :
    index? segment = some i ↔ SpellsIndex i segment ∧ i < positions := by
  have first : 0 < positions := by decide
  rw [index?_eq, spellsIndex_iff]
  constructor
  · intro h
    split at h
    · cases h
    rename_i filled
    obtain ⟨all, rfl, within⟩ := (foldlM_extendIndex?_eq_some_iff first).mp h
    exact ⟨Text.exists_zeros_append all fun empty => filled (List.isEmpty_iff.mpr empty), within⟩
  · rintro ⟨⟨zeros, spelled⟩, within⟩
    have filled : ¬(unsigned segment).isEmpty := by
      rw [spelled, List.isEmpty_iff, List.append_eq_nil_iff]
      exact fun empty => Nat.toDigits_ne_nil empty.2
    rw [if_neg filled, foldlM_extendIndex?_eq_some_iff first, spelled]
    exact ⟨digits_zeros_append zeros i, digitsValue_zeros_append zeros i, within⟩

variable {ν : Type}

/-- One step of an address: to the member of a key, or to the item at a position. Lengths of arrays have 64
bits, so no item stands beyond the last position. -/
inductive Step : Document ν → Text → Document ν → Prop where
  | member {members before after : List (Text × Document ν)} {key : Text} {node : Document ν}
      (split : members = before ++ (key, node) :: after) (first : ∀ m ∈ before, m.1 ≠ key) :
      Step (.object members) key node
  | item {items : List (Document ν)} {segment : Text} {i : Nat} {node : Document ν}
      (spelled : SpellsIndex i segment) (within : i < positions) (found : items[i]? = some node) :
      Step (.array items) segment node

theorem child?_eq_some_iff {record node : Document ν} {segment : Text} :
    child? record segment = some node ↔ Step record segment node := by
  constructor
  · intro h
    cases record with
    | object members =>
      obtain ⟨before, after, split, first⟩ := List.lookup_eq_some_iff.mp h
      exact .member split fun m inside same => bne_iff_ne.mp (first m inside) same.symm
    | array items =>
      obtain ⟨i, spelled, found⟩ := Option.bind_eq_some_iff.mp h
      obtain ⟨spelled, within⟩ := index?_eq_some_iff.mp spelled
      exact .item spelled within found
    | _ => cases h
  · rintro (⟨split, first⟩ | ⟨spelled, within, found⟩)
    · exact List.lookup_eq_some_iff.mpr
        ⟨_, _, split, fun m inside => bne_iff_ne.mpr (first m inside).symm⟩
    · exact Option.bind_eq_some_iff.mpr ⟨_, index?_eq_some_iff.mpr ⟨spelled, within⟩, found⟩

theorem child?_eq_none_of_length_le {items : List (Document ν)} {segment : Text} {i : Nat}
    (spelled : SpellsIndex i segment) (behind : items.length ≤ i) : child? (.array items) segment = none := by
  refine Option.bind_eq_none_iff.mpr fun j read => ?_
  obtain rfl := spelled.unique (index?_eq_some_iff.mp read).1
  exact List.getElem?_eq_none behind

inductive Leads : Document ν → List Text → Document ν → Prop where
  | here (record : Document ν) : Leads record [] record
  | on {record child node : Document ν} {segment : Text} {steps : List Text}
      (first : Step record segment child) (rest : Leads child steps node) :
      Leads record (segment :: steps) node

theorem foldlM_child?_eq_some_iff {steps : List Text} {record node : Document ν} :
    steps.foldlM child? record = some node ↔ Leads record steps node := by
  induction steps generalizing record with
  | nil =>
    constructor
    · intro h
      cases h
      exact .here _
    · intro h
      cases h
      rfl
  | cons segment steps ih =>
    rw [List.foldlM_cons]
    constructor
    · intro h
      obtain ⟨child, first, rest⟩ := Option.bind_eq_some_iff.mp h
      exact .on (child?_eq_some_iff.mp first) (ih.mp rest)
    · rintro (_ | ⟨first, rest⟩)
      exact Option.bind_eq_some_iff.mpr ⟨_, child?_eq_some_iff.mpr first, ih.mpr rest⟩

variable [RecordNumber ν]

theorem text?_eq_none_iff {node : Document ν} : text? node = none ↔ node = .null := by
  cases node <;> simp [text?]

theorem lookup_intercalate {record : Document ν} {steps : List Text} {separator : Char}
    (nonempty : steps ≠ []) (clean : ∀ step ∈ steps, separator ∉ step) :
    lookup record (List.intercalate [separator] steps) separator =
      (steps.foldlM child? record).bind text? := by
  rw [lookup, List.splitOn_intercalate separator clean nonempty]
  rfl

/-- Steps joined by a separator that none of them holds find the text of the node that they lead to, or
nothing if it is null. What a path finds is the text of the node that the steps between its separators
lead to. A position at or behind the end of an array finds nothing, whatever follows it. -/
theorem lookup_addresses (record : Document ν) (separator : Char) :
    (∀ steps node, steps ≠ [] → (∀ step ∈ steps, separator ∉ step) → Leads record steps node →
      lookup record (List.intercalate [separator] steps) separator = text? node ∧
        (text? node = none ↔ node = .null)) ∧
    (∀ path found, lookup record path separator = some found →
      ∃ steps node, steps ≠ [] ∧ (∀ step ∈ steps, separator ∉ step) ∧
        path = List.intercalate [separator] steps ∧ Leads record steps node ∧ node ≠ .null ∧
          text? node = some found) ∧
    ∀ steps items segment i rest, (∀ step ∈ steps ++ segment :: rest, separator ∉ step) →
      Leads record steps (.array items) → SpellsIndex i segment → items.length ≤ i →
        lookup record (List.intercalate [separator] (steps ++ segment :: rest)) separator = none := by
  refine ⟨fun steps node nonempty clean leads => ?_, fun path found h => ?_, ?_⟩
  · rw [lookup_intercalate nonempty clean, foldlM_child?_eq_some_iff.mpr leads]
    exact ⟨rfl, text?_eq_none_iff⟩
  · obtain ⟨node, reached, text⟩ := Option.bind_eq_some_iff.mp h
    refine ⟨path.splitOn separator, node, List.splitOn_ne_nil _ _, fun _ => Text.not_mem_of_mem_splitOn,
      (List.intercalate_splitOn separator).symm, foldlM_child?_eq_some_iff.mp reached, ?_, text⟩
    rintro rfl
    cases text
  · intro steps items segment i rest clean leads spelled behind
    have nonempty : steps ++ segment :: rest ≠ [] := List.append_ne_nil_of_right_ne_nil _ (List.cons_ne_nil _ _)
    rw [lookup_intercalate nonempty clean, List.foldlM_append, foldlM_child?_eq_some_iff.mpr leads]
    simp only [bind, Option.bind_some, List.foldlM_cons, child?_eq_none_of_length_le spelled behind,
      Option.bind_none]

theorem lookup_addresses_nested :
    let record : Json := .object [([], .object [(['a', '.', 'b'],
      .array [.null, .object [(['+', '1'], .string ['x'])]])])]
    let steps : List Text := [[], ['a', '.', 'b'], ['+', '0', '1'], ['+', '1']]
    let beyond : Text := '+' :: (List.replicate 2 '0' ++ Text.ofNat 18446744073709551617)
    (steps ≠ [] ∧ (∀ step ∈ steps, '/' ∉ step) ∧ Leads record steps (.string ['x']) ∧
      lookup record "/a.b/+01/+1".toList '/' = some ['x']) ∧
    (Leads record [[], ['a', '.', 'b'], ['0']] .null ∧ lookup record "/a.b/0".toList '/' = none) ∧
    (∃ steps node, steps ≠ [] ∧ (∀ step ∈ steps, '/' ∉ step) ∧
      "/a.b/+01/+1".toList = List.intercalate ['/'] steps ∧ Leads record steps node ∧ node ≠ .null ∧
        text? node = some ['x']) ∧
    lookup record (List.intercalate ['/'] [[], ['a', '.', 'b'], beyond, ['+', '1']]) '/' = none := by
  intro record steps beyond
  obtain ⟨finds, converse, behind⟩ := lookup_addresses record '/'
  have clean : ∀ step ∈ steps, '/' ∉ step := by decide
  have leads : Leads record steps (.string ['x']) := foldlM_child?_eq_some_iff.mp rfl
  have null : Leads record [[], ['a', '.', 'b'], ['0']] .null := foldlM_child?_eq_some_iff.mp rfl
  have found := (finds steps _ (List.cons_ne_nil _ _) clean leads).1
  refine ⟨⟨List.cons_ne_nil _ _, clean, leads, found⟩, ⟨null, ?_⟩, converse _ _ found, ?_⟩
  · exact (finds [[], ['a', '.', 'b'], ['0']] .null (List.cons_ne_nil _ _) (by decide) null).1
  · refine behind [[], ['a', '.', 'b']] _ beyond 18446744073709551617 [['+', '1']] (by decide +kernel)
      (foldlM_child?_eq_some_iff.mp rfl) (.signed 2) ?_
    decide

end Record
end RecordFilter
