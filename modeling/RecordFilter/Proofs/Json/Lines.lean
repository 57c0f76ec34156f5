import RecordFilter.Proofs.Document.Numbers
import RecordFilter.Proofs.Json.NumberText
import RecordFilter.Proofs.Json.StringText

/-! Compact texts take one line each: strings are written without control characters, and nothing else
writes one. -/

namespace RecordFilter

namespace Text

def ControlFree (text : Text) : Prop := ∀ c ∈ text, 0x20 ≤ c.toNat

instance (text : Text) : Decidable (ControlFree text) :=
  List.decidableBAll (fun c : Char => 0x20 ≤ c.toNat) text

theorem controlFree_append_iff {a b : Text} : ControlFree (a ++ b) ↔ ControlFree a ∧ ControlFree b := by
  simp [ControlFree, or_imp, forall_and]

theorem controlFree_cons_iff {c : Char} {text : Text} :
    ControlFree (c :: text) ↔ 0x20 ≤ c.toNat ∧ ControlFree text := by
  simp [ControlFree]

theorem ControlFree.intercalate {separator : Text} {parts : List Text} (joint : ControlFree separator)
    (all : ∀ part ∈ parts, ControlFree part) : ControlFree (List.intercalate separator parts) := by
  intro c member
  obtain inside | ⟨part, among, inside⟩ := mem_intercalate member
  · exact joint c inside
  · exact all part among c inside

theorem Digits.controlFree {digits : Text} (all : Digits digits) : ControlFree digits := by
  intro c member
  have digit := all c member
  simp only [isDigit, Bool.and_eq_true, decide_eq_true_eq, Char.le_def, UInt32.le_iff_toNat_le] at digit
  have lower : 48 ≤ c.toNat := digit.1
  omega

end Text

open Text (ControlFree controlFree_append_iff controlFree_cons_iff)

namespace Numeral

theorem SpellsSign.controlFree {negative : Bool} {sign : Text} (h : SpellsSign negative sign) :
    ControlFree sign := by
  cases h <;> decide

theorem Spells.controlFree {n : Numeral} {text : Text} (h : n.Spells text) : ControlFree text := by
  obtain ⟨negative, whole, fraction, exponent⟩ := n
  obtain ⟨signs, whole, fractions, -, exponents⟩ := h
  simp only at signs whole fractions exponents
  refine controlFree_append_iff.mpr ⟨signs.controlFree, controlFree_append_iff.mpr
    ⟨whole.controlFree, controlFree_append_iff.mpr ⟨?_, ?_⟩⟩⟩
  · cases fractions with
    | absent => exact fun _ => nofun
    | point all => exact controlFree_cons_iff.mpr ⟨by decide, all.controlFree⟩
  · cases exponents with
    | absent => exact fun _ => nofun
    | marked letter signs all =>
      refine controlFree_cons_iff.mpr
        ⟨?_, controlFree_append_iff.mpr ⟨signs.controlFree, all.controlFree⟩⟩
      obtain rfl | rfl := letter <;> decide

end Numeral

namespace Json

theorem Number.controlFree_text (n : Number) : ControlFree n.text := by
  obtain ⟨numeral, plain, spells, -⟩ := n.exists_jsonSpells_text
  exact spells.spells.controlFree

theorem controlFree_escapeChar (c : Char) : ControlFree (escapeChar c) := by
  rcases Reader.escapeChar_cases c with control | rfl | rfl | ⟨above, -, -, same⟩
  · rw [← Char.ofNat_toNat c]
    generalize c.toNat = n at control
    interval_cases n <;> decide
  · decide
  · decide
  · rw [same]
    exact List.forall_mem_singleton.mpr above

theorem controlFree_quote (text : Text) : ControlFree (quote text) := by
  refine controlFree_append_iff.mpr ⟨controlFree_cons_iff.mpr ⟨by decide, fun c member => ?_⟩, by decide⟩
  obtain ⟨raw, -, inside⟩ := List.mem_flatMap.mp member
  exact controlFree_escapeChar raw c inside

theorem controlFree_compact (d : Json) : ControlFree (compact d) := by
  induction d using Document.induct with
  | null =>
    have word : ControlFree nullText := by decide
    exact word
  | boolean b =>
    have words : ∀ b, ControlFree (booleanText b) := by decide
    exact words b
  | number n => exact n.controlFree_text
  | string text => exact controlFree_quote text
  | array items ih =>
    rw [compact_array]
    have parts : ControlFree (List.intercalate [','] (items.map compact)) :=
      .intercalate (by decide) (List.forall_mem_map.mpr ih)
    exact controlFree_append_iff.mpr ⟨controlFree_cons_iff.mpr ⟨by decide, parts⟩, by decide⟩
  | object members ih =>
    rw [compact_object]
    have parts : ControlFree (List.intercalate [',']
        (members.map fun (key, value) => quote key ++ ':' :: compact value)) := by
      refine .intercalate (by decide) (List.forall_mem_map.mpr fun member inside => ?_)
      exact controlFree_append_iff.mpr
        ⟨controlFree_quote member.1, controlFree_cons_iff.mpr ⟨by decide, ih member inside⟩⟩
    exact controlFree_append_iff.mpr ⟨controlFree_cons_iff.mpr ⟨by decide, parts⟩, by decide⟩

theorem splitOn_intercalate_compact {documents : List Json} (nonempty : documents ≠ []) :
    (List.intercalate ['\n'] (documents.map compact)).splitOn '\n' = documents.map compact := by
  refine List.splitOn_intercalate _ (List.forall_mem_map.mpr fun d _ inside => ?_) ?_
  · exact absurd (controlFree_compact d _ inside) (by decide)
  · exact fun empty => nonempty (List.map_eq_nil_iff.mp empty)

end Json
end RecordFilter
