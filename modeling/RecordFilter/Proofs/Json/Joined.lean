import RecordFilter.Proofs.Json.Containers

/-! Texts of documents put together: between brackets and commas they are one array, and with line
breaks between them a stream of the same documents. -/

namespace RecordFilter.Json

namespace Reader

theorem opens_between (documents : List Json) :
    Opens true (.between documents false) (.stream documents) where
  blank space := by simp [Gap.step, space]
  start space _ := by simp [Gap.step, space]

def HoldsDocuments (documents : List Json) (s : State) : Prop :=
  ∃ last before, documents = last :: before ∧ Settled (.stream before) last s

theorem HoldsDocuments.step_line_break {documents : List Json} {s : State}
    (h : HoldsDocuments documents s) : step true s '\n' = some (.gap (.between documents false)) := by
  obtain ⟨last, before, rfl, settled⟩ := h
  obtain ⟨glued, same⟩ : ∃ glued, step true s '\n' = (deliver _ last glued).step true '\n' :=
    settled.exists_step_eq (next?_eq_none_of_isSpace rfl)
  rw [same]
  rfl

theorem HoldsDocuments.finish_eq {documents : List Json} {s : State} (h : HoldsDocuments documents s) :
    finish s = .ok documents.reverse := by
  obtain ⟨last, before, rfl, settled⟩ := h
  exact settled.finish_eq

end Reader

open Reader

theorem parseStream_lines {texts : List Text} {documents : List Json}
    (read : List.Forall₂ (fun text d => parse text = .ok d) texts documents) (nonempty : texts ≠ []) :
    parseStream (List.intercalate ['\n'] texts) = .ok documents := by
  have separates (before : List Json) (s : State) (done : HoldsDocuments before s) :
      ∃ t, step true s '\n' = some t ∧ t = .gap (.between before false) :=
    ⟨_, done.step_line_break, rfl⟩
  have each : List.Forall₂ (fun text d => ∀ before s, s = .gap (.between before false) →
      ∃ t, text.foldlM (step true) s = some t ∧ HoldsDocuments (d :: before) t) texts documents := by
    refine read.imp fun text d read before s here => ?_
    obtain ⟨t, reached, settled⟩ := exists_settled (opens_between before) read (.inl rfl)
    exact ⟨t, here ▸ reached, d, before, rfl, settled⟩
  obtain ⟨s, reached, done⟩ := exists_foldlM_intercalate
    (fun before s => s = .gap (.between before false)) HoldsDocuments (fun before d => d :: before)
    separates each nonempty rfl
  rw [parseStream, run, reached]
  rw [List.foldl_flip_cons_eq_append', List.append_nil] at done
  exact done.finish_eq.trans (congrArg Except.ok (List.reverse_reverse documents))

theorem parseStream_of_parse {text : Text} {d : Json} (h : parse text = .ok d) :
    parseStream text = .ok [d] := by
  have lines := parseStream_lines (.cons h .nil) (List.cons_ne_nil text [])
  rwa [List.intercalate_singleton] at lines

theorem parseStream_items {texts : List Text} {documents : List Json}
    (read : List.Forall₂ (fun text d => parse text = .ok d) texts documents)
    (shallow : ∀ text ∈ texts, nesting text + 1 ≤ maxDepth) :
    parseStream ('[' :: List.intercalate [','] texts ++ [']']) = .ok [.array documents] := by
  have parts : List.Forall₂ (fun text d => ReadsAs text d 126) texts documents := by
    refine ((List.forall₂_and_left texts documents).mpr ⟨shallow, read⟩).imp fun text d ⟨room, read⟩ => ?_
    exact readsAs_of_parse read (Nat.le_of_succ_le_succ room)
  have whole : ReadsAs ('[' :: List.intercalate [','] texts ++ [] ++ [']']) (.array documents) 127 :=
    readsAs_array parts fun _ => nofun
  rw [List.append_nil] at whole
  exact parseStream_of_parse (whole.parse_eq (Nat.le_refl 127))

end RecordFilter.Json
