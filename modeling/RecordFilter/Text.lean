/-! Text is a list of code points. Core lists already order it by code point and split it at a
separator; this module adds the texts of whole numbers and the size of a text in bytes. -/

namespace RecordFilter

abbrev Text := List Char

namespace Text

def ofNat (n : Nat) : Text := Nat.toDigits 10 n

def ofInt : Int → Text
  | .ofNat n => ofNat n
  | .negSucc n => '-' :: ofNat (n + 1)

def isDigit (c : Char) : Bool := '0' ≤ c && c ≤ '9'

def utf8Size : Text → Nat
  | [] => 0
  | c :: text => c.utf8Size + utf8Size text

def digitsValue (digits : Text) : Nat := Nat.ofDigitChars 10 digits 0

theorem mem_intercalate {c : Char} {separator : Text} {parts : List Text}
    (h : c ∈ List.intercalate separator parts) : c ∈ separator ∨ ∃ part ∈ parts, c ∈ part := by
  induction parts with
  | nil => cases h
  | cons part parts ih =>
    cases parts with
    | nil =>
      rw [List.intercalate_singleton] at h
      exact .inr ⟨part, List.mem_cons_self, h⟩
    | cons next parts =>
      rw [List.intercalate_cons_cons, List.append_assoc, List.mem_append, List.mem_append] at h
      obtain h | h | h := h
      · exact .inr ⟨part, List.mem_cons_self, h⟩
      · exact .inl h
      · exact (ih h).imp_right fun ⟨part, member, inside⟩ => ⟨part, List.mem_cons_of_mem _ member, inside⟩

theorem not_mem_of_mem_splitOn {separator : Char} {text part : Text}
    (h : part ∈ text.splitOn separator) : separator ∉ part := by
  induction text generalizing part with
  | nil =>
    rw [List.splitOn_nil, List.mem_singleton] at h
    rw [h]
    exact List.not_mem_nil
  | cons c text ih =>
    rw [List.splitOn_cons_eq_if_modifyHead] at h
    split at h
    · obtain rfl | h := List.mem_cons.mp h
      · exact List.not_mem_nil
      · exact ih h
    · rename_i other
      obtain ⟨head, rest, split⟩ := List.exists_cons_of_ne_nil (List.splitOn_ne_nil separator text)
      rw [split] at h ih
      rw [List.modifyHead_cons] at h
      obtain rfl | h := List.mem_cons.mp h
      · intro inside
        obtain rfl | inside := List.mem_cons.mp inside
        · exact other (beq_self_eq_true _)
        · exact ih List.mem_cons_self inside
      · exact ih (List.mem_cons_of_mem _ h)

end Text
end RecordFilter
