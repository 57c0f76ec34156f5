import Mathlib.Tactic.IntervalCases
import RecordFilter.Json.Printer
import RecordFilter.Json.Reader

/-! The texts of strings. Every character is read back from what is written for it, and a quoted text
from its marks on. -/

namespace RecordFilter.Json.Reader

theorem escapeChar_of_le {c : Char} (above : 0x20 ≤ c.toNat) (mark : c ≠ '"') (slash : c ≠ '\\') :
    escapeChar c = [c] := by
  have controls : c ≠ '\x08' ∧ c ≠ '\x0c' ∧ c ≠ '\n' ∧ c ≠ '\r' ∧ c ≠ '\t' := by
    refine ⟨?_, ?_, ?_, ?_, ?_⟩ <;>
    · rintro rfl
      exact absurd above (by decide)
  obtain ⟨backspace, feed, line, carriage, tab⟩ := controls
  simp only [escapeChar, beq_eq_false_iff_ne.mpr, mark, slash, backspace, feed, line, carriage, tab,
    ne_eq, not_false_eq_true, Bool.false_eq_true, if_false]
  rw [if_neg (by omega), if_neg (by omega)]

theorem escapeChar_cases (c : Char) :
    c.toNat < 0x20 ∨ c = '"' ∨ c = '\\' ∨
      0x20 ≤ c.toNat ∧ c ≠ '"' ∧ c ≠ '\\' ∧ escapeChar c = [c] := by
  by_cases control : c.toNat < 0x20
  · exact .inl control
  by_cases mark : c = '"'
  · exact .inr (.inl mark)
  by_cases slash : c = '\\'
  · exact .inr (.inr (.inl slash))
  have above := Nat.le_of_not_lt control
  exact .inr (.inr (.inr ⟨above, mark, slash, escapeChar_of_le above mark slash⟩))

theorem foldlM_escapeChar (many : Bool) (read : Text) (slot : Slot) (c : Char) :
    (escapeChar c).foldlM (step many) (.string read .plain slot) =
      some (.string (c :: read) .plain slot) := by
  rcases escapeChar_cases c with control | rfl | rfl | ⟨above, mark, slash, same⟩
  · -- Each control character has an escape of its own, with or without digits.
    rw [← Char.ofNat_toNat c]
    generalize c.toNat = n at control
    interval_cases n <;> rfl
  · rfl
  · rfl
  · rw [same]
    simp [step, stepString, mark, slash, above]

theorem foldlM_escaped (many : Bool) (slot : Slot) (text read : Text) :
    (text.flatMap escapeChar).foldlM (step many) (.string read .plain slot) =
      some (.string (text.reverse ++ read) .plain slot) := by
  induction text generalizing read with
  | nil => rfl
  | cons c text ih =>
    rw [List.flatMap_cons, List.foldlM_append, foldlM_escapeChar, List.reverse_cons, List.append_assoc]
    exact ih (c :: read)

theorem foldlM_quoted (many : Bool) (slot : Slot) (text : Text) :
    (text.flatMap escapeChar ++ ['"']).foldlM (step many) (.string [] .plain slot) =
      some (.gap (slot.close text)) := by
  have last : step many (.string (text.reverse ++ []) .plain slot) '"' = some (.gap (slot.close text)) := by
    rw [List.append_nil]
    show some (State.gap (slot.close text.reverse.reverse)) = _
    rw [List.reverse_reverse]
  rw [List.foldlM_append, foldlM_escaped]
  exact last

end RecordFilter.Json.Reader
