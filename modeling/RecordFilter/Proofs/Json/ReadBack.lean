import RecordFilter.Proofs.Json.Containers
import RecordFilter.Proofs.Json.NumberText

/-! Documents are read back from both of their layouts, if they are regular and there is room for
their arrays and objects. -/

namespace RecordFilter.Json

open Document (Regular)

namespace Reader

variable {many : Bool} {base : Context}

theorem foldlM_numeral {body : Text} {place last : NumberPlace}
    (path : body.foldlM NumberPlace.next? place = some last) (read : Text) :
    body.foldlM (step many) (.number read place base) =
      some (.number (body.reverse ++ read) last base) := by
  induction body generalizing place read with
  | nil =>
    cases path
    rfl
  | cons c body ih =>
    rw [List.foldlM_cons] at path
    obtain ⟨next, first, path⟩ := Option.bind_eq_some_iff.mp path
    rw [List.foldlM_cons, (Steps.numeral first).step_eq, List.reverse_cons, List.append_assoc]
    exact ih path (c :: read)

theorem starts_of_next? {c : Char} {place : NumberPlace} (first : NumberPlace.minus.next? c = some place) :
    Starts base c (.number [c] place base) := by
  simp only [NumberPlace.next?] at first
  split at first
  · obtain rfl := beq_iff_eq.mp ‹_›
    cases first
    exact .zero
  · rename_i nonzero
    split at first <;> cases first
    exact .digit ‹_› fun zero => nonzero (beq_iff_eq.mpr zero)

theorem readsAs_number (n : Number) (room : Nat) : ReadsAs n.text (.number n) room := by
  obtain ⟨numeral, plain, spells, back⟩ := n.exists_jsonSpells_text
  obtain ⟨body, place, text, path, complete, rfl⟩ := NumberPlace.exists_foldlM_of_jsonSpells spells
  have number : numberOf? n.text.reverse place = some n := by
    rw [numberOf?, List.reverse_reverse, spells.spells.ofText?_eq]
    exact back
  intro many opening base opens _
  refine ⟨.number n.text.reverse place base, ?_, .inr ⟨_, place, n, rfl, complete, number, rfl⟩⟩
  rw [text]
  -- A minus sign and the first digit both lead to where the rest of the numeral goes on.
  cases numeral.negative with
  | true =>
    show ('-' :: body).foldlM (step many) _ = some (.number ('-' :: body).reverse place base)
    rw [List.foldlM_cons, opens.step_eq .sign, List.reverse_cons]
    exact foldlM_numeral path ['-']
  | false =>
    show body.foldlM (step many) _ = some (.number body.reverse place base)
    cases body with
    | nil =>
      cases path
      cases complete
    | cons c body =>
      rw [List.foldlM_cons] at path
      obtain ⟨next, first, path⟩ := Option.bind_eq_some_iff.mp path
      rw [List.foldlM_cons, opens.step_eq (starts_of_next? first), List.reverse_cons]
      exact foldlM_numeral path [c]

theorem foldlM_word (meaning : Json) {rest : Text} (nonempty : rest ≠ []) :
    rest.foldlM (step many) (.word rest meaning base) = some (.gap (deliver base meaning true)) := by
  induction rest with
  | nil => exact absurd rfl nonempty
  | cons c rest ih =>
    cases rest with
    | nil => simp [step]
    | cons next rest =>
      rw [List.foldlM_cons, Steps.letter.step_eq]
      exact ih (List.cons_ne_nil _ _)

theorem readsAs_word {c : Char} {rest : Text} {meaning : Json} (nonempty : rest ≠ [])
    (starts : ∀ base, Starts base c (.word rest meaning base)) (room : Nat) :
    ReadsAs (c :: rest) meaning room := by
  intro many opening base opens _
  refine ⟨_, ?_, .inl ⟨true, rfl⟩⟩
  rw [List.foldlM_cons, opens.step_eq (starts base)]
  exact foldlM_word meaning nonempty

theorem readsAs_null (room : Nat) : ReadsAs nullText .null room :=
  readsAs_word (List.cons_ne_nil _ _) (fun _ => .null) room

theorem readsAs_boolean (b : Bool) (room : Nat) : ReadsAs (booleanText b) (.boolean b) room := by
  cases b with
  | true => exact readsAs_word (List.cons_ne_nil _ _) (fun _ => .yes) room
  | false => exact readsAs_word (List.cons_ne_nil _ _) (fun _ => .no) room

theorem readsAs_string (text : Text) (room : Nat) : ReadsAs (quote text) (.string text) room := by
  intro many opening base opens _
  refine ⟨_, ?_, .inl ⟨false, rfl⟩⟩
  rw [quote, List.cons_append, List.foldlM_cons, opens.step_eq .string]
  exact foldlM_quoted many (.value base) text

theorem readsAs_compact {room : Nat} {d : Json} (h : Regular room d) : ReadsAs (compact d) d room := by
  induction h with
  | null => exact readsAs_null _
  | boolean b => exact readsAs_boolean b _
  | number n => exact readsAs_number n _
  | string text => exact readsAs_string text _
  | @array room items _ ih =>
    have parts : List.Forall₂ (fun part d => ReadsAs part d room) (items.map compact) items :=
      List.forall₂_map_left_iff.mpr (List.forall₂_same.mpr ih)
    have whole := readsAs_array parts fun c (inside : c ∈ []) => nomatch inside
    rwa [List.append_nil, ← compact_array] at whole
  | @object room members increasing _ ih =>
    have parts : List.Forall₂ (fun part member => MemberReadsAs part member room)
        (members.map fun (key, value) => quote key ++ ':' :: compact value) members :=
      List.forall₂_map_left_iff.mpr <| List.forall₂_same.mpr fun member inside =>
        ⟨[], compact member.2, fun _ => nofun, rfl, ih member inside⟩
    have whole := readsAs_object parts increasing fun c (inside : c ∈ []) => nomatch inside
    rwa [List.append_nil, ← compact_object] at whole

theorem isSpace_of_mem_newline {depth : Nat} : ∀ c ∈ newline depth, isSpace c = true := by
  refine List.forall_mem_cons.mpr ⟨rfl, fun c member => ?_⟩
  rw [List.eq_of_mem_replicate member]
  rfl

theorem exists_layout_eq (opening closing : Char) (parts : List Text) (depth : Nat) :
    ∃ front blanks, (∀ c ∈ front, isSpace c = true) ∧ (∀ c ∈ blanks, isSpace c = true) ∧
      layout opening closing parts depth =
        opening :: List.intercalate [','] (parts.map (front ++ ·)) ++ blanks ++ [closing] := by
  cases parts with
  | nil => exact ⟨[], [], fun _ => nofun, fun _ => nofun, rfl⟩
  | cons part parts =>
    exact ⟨newline (depth + 1), newline depth, isSpace_of_mem_newline, isSpace_of_mem_newline, rfl⟩

end Reader

open Reader

theorem readsAs_prettyAt {room : Nat} {d : Json} (h : Regular room d) (depth : Nat) :
    ReadsAs (prettyAt d depth) d room := by
  induction h generalizing depth with
  | null => exact readsAs_null _
  | boolean b => exact readsAs_boolean b _
  | number n => exact readsAs_number n _
  | string text => exact readsAs_string text _
  | @array room items _ ih =>
    rw [prettyAt_array]
    obtain ⟨front, blanks, before, behind, same⟩ :=
      exists_layout_eq '[' ']' (items.map (prettyAt · (depth + 1))) depth
    rw [same, List.map_map]
    refine readsAs_array ?_ behind
    exact List.forall₂_map_left_iff.mpr <| List.forall₂_same.mpr fun item inside =>
      (ih item inside (depth + 1)).behind before
  | @object room members increasing _ ih =>
    rw [prettyAt_object]
    obtain ⟨front, blanks, before, behind, same⟩ := exists_layout_eq '\x7b' '\x7d'
      (members.map fun (key, value) => quote key ++ ':' :: ' ' :: prettyAt value (depth + 1)) depth
    rw [same, List.map_map]
    refine readsAs_object ?_ increasing behind
    refine List.forall₂_map_left_iff.mpr <| List.forall₂_same.mpr fun member inside => ?_
    have blank : ∀ c ∈ [' '], isSpace c = true := List.forall_mem_singleton.mpr rfl
    exact ⟨front, ' ' :: prettyAt member.2 (depth + 1), before, rfl,
      (ih member inside (depth + 1)).behind blank⟩

theorem parse_compact {d : Json} (h : Regular maxDepth d) : parse (compact d) = .ok d :=
  (readsAs_compact h).parse_eq (Nat.le_refl maxDepth)

theorem parse_pretty {d : Json} (h : Regular maxDepth d) : parse (pretty d) = .ok d :=
  (readsAs_prettyAt h 0).parse_eq (Nat.le_refl maxDepth)

end RecordFilter.Json
