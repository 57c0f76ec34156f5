import Mathlib.Data.List.Basic
import RecordFilter.Proofs.Predicate.Fragment

/-! The language of wildcard patterns. Placing every piece as early as it fits covers a text
wherever some placement of the pieces does, as the run behind a piece can take up what an earlier
place of the piece leaves over. -/

namespace RecordFilter

namespace Wildcard

def layout (runs pieces : List Text) : Text := (List.zipWith (· ++ ·) runs pieces).flatten

/-- The texts that a pattern stands for: its pieces in order, with any run between neighbours. -/
def Matches (pattern text : Text) : Prop :=
  ∃ first rest runs, pattern.splitOn '%' = first :: rest ∧ runs.length = rest.length ∧
    text = first ++ layout runs rest

theorem layout_cons (run piece : Text) (runs pieces : List Text) :
    layout (run :: runs) (piece :: pieces) = run ++ (piece ++ layout runs pieces) := by
  simp [layout]

theorem exists_layout_of_append {runs pieces : List Text} (nonempty : pieces ≠ [])
    (length : runs.length = pieces.length) (front : Text) :
    ∃ others, others.length = pieces.length ∧
      front ++ layout runs pieces = layout others pieces := by
  obtain ⟨piece, pieces, rfl⟩ := List.exists_cons_of_ne_nil nonempty
  obtain ⟨run, runs, rfl⟩ := List.exists_cons_of_length_eq_add_one length
  refine ⟨(front ++ run) :: runs, length, ?_⟩
  rw [layout_cons, layout_cons, List.append_assoc]

theorem append_of_after? {piece text rest : Text} (h : after? piece text = some rest) :
    ∃ run, text = run ++ (piece ++ rest) := by
  induction text with
  | nil => exact ⟨[], (List.isPrefixOf?_eq_some_iff_append_eq.mp h).symm⟩
  | cons c text ih =>
    rw [after?] at h
    split at h
    · rename_i found
      cases h
      exact ⟨[], (List.isPrefixOf?_eq_some_iff_append_eq.mp found).symm⟩
    · obtain ⟨run, rfl⟩ := ih h
      exact ⟨c :: run, rfl⟩

theorem after?_append (piece rest : Text) : after? piece (piece ++ rest) = some rest := by
  have found : piece.isPrefixOf? (piece ++ rest) = some rest :=
    List.isPrefixOf?_eq_some_iff_append_eq.mpr rfl
  cases text : piece ++ rest with
  | nil => rwa [after?, ← text]
  | cons c remaining => rw [after?, ← text, found]

theorem exists_after?_of_append (run piece rest : Text) :
    ∃ remaining, after? piece (run ++ (piece ++ rest)) = some remaining ∧ rest <:+ remaining := by
  induction run with
  | nil => exact ⟨rest, after?_append piece rest, List.suffix_refl rest⟩
  | cons c run ih =>
    rw [List.cons_append, after?]
    split
    · rename_i remaining found
      have same : piece ++ remaining = c :: (run ++ (piece ++ rest)) :=
        List.isPrefixOf?_eq_some_iff_append_eq.mp found
      have behind : remaining <:+ c :: (run ++ (piece ++ rest)) := ⟨piece, same⟩
      have last : rest <:+ c :: (run ++ (piece ++ rest)) := ⟨c :: (run ++ piece), by simp⟩
      have lengths := congrArg List.length same
      simp only [List.length_append, List.length_cons] at lengths
      exact ⟨remaining, rfl, List.suffix_of_suffix_length_le last behind (by omega)⟩
    · exact ih

theorem coversEnd_iff {pieces : List Text} (nonempty : pieces ≠ []) {text : Text} :
    coversEnd pieces text = true ↔
      ∃ runs, runs.length = pieces.length ∧ text = layout runs pieces := by
  fun_induction coversEnd pieces text with
  | case1 => exact absurd rfl nonempty
  | case2 last text =>
    rw [List.isSuffixOf_iff_suffix]
    constructor
    · rintro ⟨run, rfl⟩
      exact ⟨[run], rfl, by simp [layout]⟩
    · rintro ⟨runs, length, rfl⟩
      obtain ⟨run, rfl⟩ := List.length_eq_one_iff.mp length
      exact ⟨run, by simp [layout]⟩
  | case3 piece pieces text several rest found ih =>
    rw [ih several]
    constructor
    · rintro ⟨runs, length, rfl⟩
      obtain ⟨run, rfl⟩ := append_of_after? found
      exact ⟨run :: runs, by rw [List.length_cons, length, List.length_cons], (layout_cons ..).symm⟩
    · rintro ⟨runs, length, rfl⟩
      obtain ⟨run, runs, rfl⟩ := List.exists_cons_of_length_eq_add_one length
      rw [layout_cons] at found
      obtain ⟨remaining, earliest, front, rfl⟩ :=
        exists_after?_of_append run piece (layout runs pieces)
      cases found.symm.trans earliest
      -- What the earliest place leaves over goes to the run in front of the next piece.
      exact exists_layout_of_append several (Nat.succ.inj length) front
  | case4 piece pieces text several missing =>
    refine ⟨nofun, ?_⟩
    rintro ⟨runs, length, rfl⟩
    obtain ⟨run, runs, rfl⟩ := List.exists_cons_of_length_eq_add_one length
    rw [layout_cons] at missing
    obtain ⟨remaining, earliest, -⟩ := exists_after?_of_append run piece (layout runs pieces)
    cases missing.symm.trans earliest

theorem covers_iff_matches {pattern text : Text} :
    covers pattern text = true ↔ Matches pattern text := by
  obtain ⟨first, rest, split⟩ := List.exists_cons_of_ne_nil (List.splitOn_ne_nil '%' pattern)
  have fixed : Matches pattern text ↔
      ∃ runs, runs.length = rest.length ∧ text = first ++ layout runs rest := by
    simp [Matches, split]
  rw [fixed, covers, pieces, split]
  cases rest with
  | nil =>
    rw [beq_iff_eq]
    constructor
    · rintro rfl
      exact ⟨[], rfl, (List.append_nil first).symm⟩
    · rintro ⟨runs, length, rfl⟩
      rw [List.eq_nil_of_length_eq_zero length, layout, List.zipWith_nil_left, List.flatten_nil,
        List.append_nil]
  | cons second rest =>
    have several : second :: rest ≠ [] := List.cons_ne_nil second rest
    simp only
    split
    · rename_i remaining front
      obtain rfl : first ++ remaining = text := List.isPrefixOf?_eq_some_iff_append_eq.mp front
      rw [coversEnd_iff several]
      simp only [List.append_cancel_left_eq]
    · rename_i missing
      refine ⟨nofun, ?_⟩
      rintro ⟨runs, -, rfl⟩
      rw [List.isPrefixOf?_eq_some_iff_append_eq.mpr rfl] at missing
      cases missing

theorem matches_iff_eq {pattern text : Text} (literal : '%' ∉ pattern) :
    Matches pattern text ↔ text = pattern := by
  rw [← covers_iff_matches, covers, pieces, List.splitOn_eq_singleton literal, beq_iff_eq, eq_comm]

end Wildcard

namespace Predicate

theorem accepts_like {p : Predicate} (like : p.comparison = .like) (value : Text) :
    p.accepts value = Wildcard.covers p.literal value := by
  rw [accepts, like]

theorem accepts_notLike {p : Predicate} (notLike : p.comparison = .notLike) (value : Text) :
    p.accepts value = !Wildcard.covers p.literal value := by
  rw [accepts, notLike]

/-- A predicate with `~~` accepts the texts that its literal stands for, which is the literal alone
where it has no wildcard, and one with `!~` accepts the others. An absent field has no
characters. -/
theorem acceptsField_like_iff_matches {field literal : Text} {p : Predicate}
    (made : make field .like literal = .ok p) :
    (∀ value, p.acceptsField value = true ↔ Wildcard.Matches literal (value.getD [])) ∧
      ('%' ∉ literal → ∀ value, p.acceptsField value = true ↔ value.getD [] = literal) ∧
      ∀ other, ∃ q, make other .notLike literal = .ok q ∧
        ∀ value, q.acceptsField value = !p.acceptsField value := by
  obtain ⟨rfl, like, rfl⟩ := make_eq_ok_iff.mp made
  have language : ∀ value, p.acceptsField value = true ↔
      Wildcard.Matches p.literal (value.getD []) := by
    intro value
    rw [acceptsField, accepts_like like, Wildcard.covers_iff_matches]
  refine ⟨language, fun literal value => ?_, fun other => ?_⟩
  · rw [language, Wildcard.matches_iff_eq literal]
  · have fits : Wildcard.Fits p.literal := p.literal_fits (by rw [like]; rfl)
    refine ⟨⟨other, .notLike, p.literal, fun _ => fits⟩, make_eq_ok_iff.mpr ⟨rfl, rfl, rfl⟩, ?_⟩
    intro value
    rw [acceptsField, acceptsField, accepts_like like, accepts_notLike rfl]

theorem matches_overlapping_pieces :
    make ['f'] .like ['a', '%', 'a'] = .ok ⟨['f'], .like, ['a', '%', 'a'], fun _ => by decide⟩ ∧
      Wildcard.Matches ['a', '%', 'a'] ['a', 'a'] ∧ ¬Wildcard.Matches ['a', '%', 'a'] ['a'] := by
  have made : make ['f'] .like ['a', '%', 'a'] =
      .ok ⟨['f'], .like, ['a', '%', 'a'], fun _ => by decide⟩ := by rfl
  have language := (acceptsField_like_iff_matches made).1
  exact ⟨made, (language (some ['a', 'a'])).mp rfl, fun overlap => by
    cases (language (some ['a'])).mpr overlap⟩

end Predicate
end RecordFilter
