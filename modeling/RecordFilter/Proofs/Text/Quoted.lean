import Mathlib.Tactic.IntervalCases
import RecordFilter.Text.Quoted

/-! Quoted texts are read back. Every character is known from what is written for it, wherever that
stands, so that two texts with one quotation are the same; and a quotation is one line. -/

namespace RecordFilter.Text.Quoted

def digitValue (c : Char) : Nat :=
  ['0', '1', '2', '3', '4', '5', '6', '7', '8', '9', 'a', 'b', 'c', 'd', 'e', 'f'].idxOf c

def hexValue (digits : Text) : Nat := digits.foldl (fun value c => 16 * value + digitValue c) 0

theorem digitValue_digitChar {n : Nat} (h : n < 16) : digitValue n.digitChar = n := by
  interval_cases n <;> rfl

theorem hexValue_toDigits (n : Nat) : hexValue (Nat.toDigits 16 n) = n := by
  induction n using Nat.strongRecOn with
  | ind n ih =>
    rw [Nat.toDigits_eq_if (by decide)]
    split
    · rename_i small
      exact (Nat.zero_add _).trans (digitValue_digitChar small)
    · have smaller : n / 16 < n := by omega
      have last : n % 16 < 16 := Nat.mod_lt n (by decide)
      have front : hexValue (Nat.toDigits 16 (n / 16)) = n / 16 := ih (n / 16) smaller
      rw [hexValue, List.foldl_append, ← hexValue, front, List.foldl_cons, List.foldl_nil,
        digitValue_digitChar last]
      omega

theorem isAlphanum_of_mem_toDigits {c : Char} {n : Nat} (member : c ∈ Nat.toDigits 16 n) :
    c.isAlphanum := by
  have digit {k : Nat} (small : k < 16) : k.digitChar.isAlphanum := by
    interval_cases k <;> rfl
  induction n using Nat.strongRecOn with
  | ind n ih =>
    rw [Nat.toDigits_eq_if (by decide)] at member
    split at member
    · rename_i small
      rw [List.mem_singleton.mp member]
      exact digit small
    · have smaller : n / 16 < n := by omega
      obtain front | last := List.mem_append.mp member
      · exact ih (n / 16) smaller front
      · rw [List.mem_singleton.mp last]
        exact digit (Nat.mod_lt n (by decide))

def named : List Char := ['\x00', '\t', '\r', '\n', '"', '\\']

theorem encodeChar_of_not_mem {c : Char} (unnamed : c ∉ named) :
    encodeChar c = [c] ∨ encodeChar c = '\\' :: 'u' :: '\x7b' :: Nat.toDigits 16 c.toNat ++ ['\x7d'] := by
  simp only [named, List.mem_cons, List.not_mem_nil, or_false, not_or, ← beq_eq_false_iff_ne] at unnamed
  obtain ⟨null, tab, feed, line, mark, slash⟩ := unnamed
  simp only [encodeChar, null, tab, feed, line, mark, slash, Bool.false_eq_true, if_false]
  split
  · exact .inl rfl
  · exact .inr rfl

def decodeChar? : Text → Option (Char × Text)
  | [] => none
  | '"' :: _ => none
  | '\\' :: '0' :: rest => some ('\x00', rest)
  | '\\' :: 't' :: rest => some ('\t', rest)
  | '\\' :: 'r' :: rest => some ('\r', rest)
  | '\\' :: 'n' :: rest => some ('\n', rest)
  | '\\' :: '"' :: rest => some ('"', rest)
  | '\\' :: '\\' :: rest => some ('\\', rest)
  | '\\' :: 'u' :: '\x7b' :: rest =>
    some (Char.ofNat (hexValue (rest.takeWhile (· != '\x7d'))), (rest.dropWhile (· != '\x7d')).tail)
  | '\\' :: _ => none
  | c :: rest => some (c, rest)

theorem decodeChar?_encodeChar (c : Char) (rest : Text) :
    decodeChar? (encodeChar c ++ rest) = some (c, rest) := by
  by_cases known : c ∈ named
  · simp only [named, List.mem_cons, List.not_mem_nil, or_false] at known
    obtain rfl | rfl | rfl | rfl | rfl | rfl := known <;> rfl
  obtain same | same := encodeChar_of_not_mem known
  · have mark : c ≠ '"' := fun same => known (by rw [same]; decide)
    have slash : c ≠ '\\' := fun same => known (by rw [same]; decide)
    rw [same, List.singleton_append]
    simp [decodeChar?, slash]
  · have free : ∀ d ∈ Nat.toDigits 16 c.toNat, (d != '\x7d') = true := by
      intro d member
      have alphanumeric := isAlphanum_of_mem_toDigits member
      refine bne_iff_ne.mpr ?_
      rintro rfl
      exact absurd alphanumeric (by decide)
    have digits : (Nat.toDigits 16 c.toNat ++ '\x7d' :: rest).takeWhile (· != '\x7d') =
        Nat.toDigits 16 c.toNat := by
      rw [List.takeWhile_append_of_pos free, List.takeWhile_cons_of_neg (by decide), List.append_nil]
    have behind : (Nat.toDigits 16 c.toNat ++ '\x7d' :: rest).dropWhile (· != '\x7d') = '\x7d' :: rest := by
      rw [List.dropWhile_append_of_pos free, List.dropWhile_cons_of_neg (by decide)]
    rw [same, List.append_assoc]
    show some (Char.ofNat (hexValue (List.takeWhile _ (_ ++ '\x7d' :: rest))),
      (List.dropWhile _ (_ ++ '\x7d' :: rest)).tail) = _
    rw [digits, behind, hexValue_toDigits, Char.ofNat_toNat, List.tail_cons]

theorem flatMap_encodeChar_inj {text other rest behind : Text}
    (same : text.flatMap encodeChar ++ '"' :: rest = other.flatMap encodeChar ++ '"' :: behind) :
    text = other ∧ rest = behind := by
  have decode (c : Char) (front back : Text) :
      decodeChar? ((c :: front).flatMap encodeChar ++ '"' :: back) =
        some (c, front.flatMap encodeChar ++ '"' :: back) := by
    rw [List.flatMap_cons, List.append_assoc, decodeChar?_encodeChar]
  induction text generalizing other with
  | nil =>
    cases other with
    | nil => exact ⟨rfl, (List.cons.inj same).2⟩
    | cons d other => cases (congrArg decodeChar? same).trans (decode d other behind)
  | cons c text ih =>
    have read := (decode c text rest).symm.trans (congrArg decodeChar? same)
    cases other with
    | nil => cases read
    | cons d other =>
      obtain ⟨rfl, inner⟩ := Prod.mk.inj (Option.some.inj (read.trans (decode d other behind)))
      obtain ⟨rfl, rfl⟩ := ih inner
      exact ⟨rfl, rfl⟩

theorem encode_injective {text other : Text} (same : encode text = encode other) : text = other :=
  (flatMap_encodeChar_inj (List.cons.inj same).2).1

/-! ### The characters of a quotation -/

def IsEscaping (c : Char) : Prop := c.isAlphanum ∨ c ∈ ['\\', '"', '\x7b', '\x7d']

instance : DecidablePred IsEscaping := fun c =>
  inferInstanceAs (Decidable (c.isAlphanum ∨ c ∈ ['\\', '"', '\x7b', '\x7d']))

theorem encodeChar_cases (c : Char) :
    encodeChar c = [c] ∧ c ∉ named ∨
      ∃ escape, encodeChar c = '\\' :: escape ∧ ∀ d ∈ escape, IsEscaping d := by
  by_cases known : c ∈ named
  · simp only [named, List.mem_cons, List.not_mem_nil, or_false] at known
    obtain rfl | rfl | rfl | rfl | rfl | rfl := known <;>
      exact .inr ⟨_, rfl, List.forall_mem_singleton.mpr (by decide)⟩
  obtain same | same := encodeChar_of_not_mem known
  · exact .inl ⟨same, known⟩
  · refine .inr ⟨_, same, fun d member => ?_⟩
    simp only [List.cons_append, List.append_eq, List.mem_cons, List.mem_append, List.not_mem_nil,
      or_false] at member
    obtain rfl | rfl | digit | rfl := member
    · decide
    · decide
    · exact .inl (isAlphanum_of_mem_toDigits digit)
    · decide

theorem prefix_of_prefix_flatMap_encodeChar {c : Char} {text : Text} (outside : ¬IsEscaping c)
    (h : [c] <+: text.flatMap encodeChar) : [c] <+: text := by
  cases text with
  | nil => exact h
  | cons d text =>
    rw [List.flatMap_cons] at h
    obtain ⟨plain, -⟩ | ⟨escape, escaped, -⟩ := encodeChar_cases d
    · rw [plain] at h
      obtain ⟨rfl, -⟩ := List.cons_prefix_cons.mp h
      exact ⟨text, rfl⟩
    · rw [escaped] at h
      obtain ⟨rfl, -⟩ := List.cons_prefix_cons.mp h
      exact absurd (by decide) outside

theorem line_break_not_mem_encode (text : Text) : '\n' ∉ encode text := by
  have inner (c : Char) : '\n' ∉ encodeChar c := by
    obtain ⟨same, unnamed⟩ | ⟨escape, same, escaping⟩ := encodeChar_cases c
    · rw [same, List.mem_singleton]
      rintro rfl
      exact unnamed (by decide)
    · rw [same, List.mem_cons, not_or]
      exact ⟨by decide, fun member => absurd (escaping _ member) (by decide)⟩
  simp [encode, inner]

end RecordFilter.Text.Quoted
