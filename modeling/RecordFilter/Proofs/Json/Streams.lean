import Mathlib.Data.List.Induction
import RecordFilter.Proofs.Json.Earlier
import RecordFilter.Proofs.Json.Joined

/-! Streams as documents one after another. A stream is read exactly if it can be cut into texts that are
documents on their own, where nothing but a blank, a quote or a bracket parts a number or a word from what
follows. -/

namespace RecordFilter.Json

def IsDelimited : Json → Prop
  | .string _ | .array _ | .object _ => True
  | _ => False

def Parts (c : Char) : Prop := Reader.isSpace c = true ∨ c = '"' ∨ c = '[' ∨ c = '\x7b'

/-- The text of a document and what follows it do not run into one another. -/
def Apart (d : Json) (text rest : Text) : Prop :=
  d.IsDelimited ∨ (∃ c ∈ text.getLast?, Reader.isSpace c = true) ∨ ∀ c ∈ rest.head?, Parts c

/-- Texts that hold documents one after another, and blanks otherwise. -/
inductive Streams : Text → List Json → Prop where
  | blank {text : Text} (blank : ∀ c ∈ text, Reader.isSpace c = true) : Streams text []
  | document {text rest : Text} {d : Json} {documents : List Json} (first : parse text = .ok d)
      (apart : Apart d text rest) (others : Streams rest documents) :
      Streams (text ++ rest) (d :: documents)

namespace Reader

theorem Gap.Steps.single_or {g : Gap} {c : Char} {s : State} (h : Gap.Steps true g c s) :
    Gap.Steps false g c s ∨ ∃ d documents glued, g = .between (d :: documents) glued ∧
      (glued = false ∨ c = '"' ∨ c = '[' ∨ c = '\x7b') := by
  cases h with
  | @document documents glued _ _ follows apart started =>
    cases documents with
    | nil => exact .inl (.document (.inr rfl) apart started)
    | cons d documents => exact .inr ⟨d, documents, glued, rfl, apart⟩
  | blank space => exact .inl (.blank space)
  | value started => exact .inl (.value started)
  | item started => exact .inl (.item started)
  | noItems => exact .inl .noItems
  | _ => exact .inl (by constructor)

theorem Steps.single_or {s t : State} {c : Char} (h : Steps true s c t) :
    Steps false s c t ∨ ∃ d documents, finish s = .ok (d :: documents).reverse ∧
      (s = .gap (.between (d :: documents) false) ∨ Parts c) := by
  cases h with
  | gap moved =>
    obtain single | ⟨d, documents, glued, rfl, apart⟩ := moved.single_or
    · exact .inl (.gap single)
    · exact .inr ⟨d, documents, rfl, apart.imp (fun free => by rw [free]) .inr⟩
  | string moved => exact .inl (.string moved)
  | numeral goes => exact .inl (.numeral goes)
  | @number read place context c n t ends complete value moved =>
    obtain single | ⟨d, documents, glued, delivered, apart⟩ := moved.single_or
    · exact .inl (.number ends complete value single)
    · cases context with
      | stream earlier =>
        cases delivered
        refine .inr ⟨.number n, documents, ?_, .inr (.inr (apart.resolve_left Bool.noConfusion))⟩
        simp only [finish, complete, if_true, value]
      | _ => cases delivered
  | letter => exact .inl .letter
  | lastLetter => exact .inl .lastLetter

theorem foldlM_step_single_or {text : Text} {s u : State} (h : text.foldlM (step true) s = some u) :
    text.foldlM (step false) s = some u ∨ ∃ front c rest t, text = front ++ c :: rest ∧
      front.foldlM (step false) s = some t ∧ ∃ d documents, finish t = .ok (d :: documents).reverse ∧
        (t = .gap (.between (d :: documents) false) ∨ Parts c) := by
  -- The first step that a reader of one document would not take starts the second one.
  induction text generalizing s with
  | nil => exact .inl h
  | cons c text ih =>
    rw [List.foldlM_cons] at h
    obtain ⟨t, first, rest⟩ := Option.bind_eq_some_iff.mp h
    obtain single | holds := (steps_of_step first).single_or
    · obtain whole | ⟨front, c', rest', t', rfl, before, holds⟩ := ih rest
      · exact .inl (Option.bind_eq_some_iff.mpr ⟨t, single.step_eq, whole⟩)
      · refine .inr ⟨c :: front, c', rest', t', rfl, ?_, holds⟩
        exact Option.bind_eq_some_iff.mpr ⟨t, single.step_eq, before⟩
    · exact .inr ⟨[], c, text, s, rfl, rfl, holds⟩

theorem StringSteps.closes_or_stays {read : Text} {place : StringPlace} {slot : Slot} {c : Char} {t : State}
    (h : StringSteps read slot place c t) :
    t = .gap (slot.close read.reverse) ∨ ∃ after next, t = .string after next slot := by
  cases h with
  | close => exact .inl rfl
  | lastDigit enough value accepted =>
    obtain ⟨after, next, rfl, -⟩ := exists_acceptUnit_eq accepted
    exact .inr ⟨after, next, rfl⟩
  | _ => exact .inr ⟨_, _, rfl⟩

def State.Worded : State → Prop
  | word rest meaning _ => (∀ c ∈ rest, isSpace c = false) ∧ ¬meaning.IsDelimited
  | _ => True

theorem Starts.worded {context : Context} {c : Char} {s : State} (h : Starts context c s) : s.Worded := by
  cases h with
  | yes | no | null => exact ⟨by simp [isSpace], id⟩
  | _ => trivial

theorem Gap.Steps.worded {many : Bool} {g : Gap} {c : Char} {s : State} (h : Gap.Steps many g c s) :
    s.Worded := by
  cases h with
  | document _ _ started | value started | item started => exact started.worded
  | _ => trivial

theorem Steps.worded {many : Bool} {s t : State} {c : Char} (h : Steps many s c t) (worded : s.Worded) :
    t.Worded := by
  cases h with
  | gap moved | number _ _ _ moved => exact moved.worded
  | string moved => obtain rfl | ⟨after, next, rfl⟩ := moved.closes_or_stays <;> trivial
  | letter => exact ⟨(List.forall_mem_cons.mp worded.1).2, worded.2⟩
  | _ => trivial

theorem foldlM_step_worded {many : Bool} {text : Text} {s t : State}
    (h : text.foldlM (step many) s = some t) (worded : s.Worded) : t.Worded := by
  induction text generalizing s with
  | nil =>
    cases h
    exact worded
  | cons c text ih =>
    rw [List.foldlM_cons] at h
    obtain ⟨next, first, rest⟩ := Option.bind_eq_some_iff.mp h
    exact ih rest ((steps_of_step first).worded worded)

/-- The ways to come to a place between documents: by a blank behind whole ones, by the quote or bracket
that ends one, or by the last letter of a word. -/
inductive Arrives (s : State) (c : Char) : List Json → Bool → Prop where
  | blank {documents : List Json} (space : isSpace c = true) (whole : finish s = .ok documents.reverse) :
      Arrives s c documents false
  | delimited {d : Json} {documents : List Json} (closed : IsDelimited d) :
      Arrives s c (d :: documents) false
  | word {d : Json} {documents : List Json} (ends : ¬IsDelimited d) (visible : isSpace c = false) :
      Arrives s c (d :: documents) true

variable {many : Bool} {c : Char} {documents : List Json} {glued : Bool}

theorem Gap.Steps.arrives {g : Gap} (h : Gap.Steps many g c (.gap (.between documents glued))) :
    Arrives (.gap g) c documents glued := by
  generalize reached : State.gap (.between documents glued) = s at h
  cases h with
  | blank space =>
    cases g with
    | between =>
      cases reached
      exact .blank space rfl
    | _ => cases reached
  | document _ _ started | value started | item started => cases started <;> cases reached
  | @noItems outer | @items _ outer | @noMembers outer | @members _ outer =>
    cases outer with
    | stream =>
      cases reached
      exact .delimited trivial
    | _ => cases reached
  | _ => cases reached

theorem Steps.arrives {s : State} (h : Steps many s c (.gap (.between documents glued)))
    (worded : s.Worded) : Arrives s c documents glued := by
  generalize reached : State.gap (.between documents glued) = t at h
  cases h with
  | gap moved =>
    subst reached
    exact moved.arrives
  | @string _ _ slot _ _ moved =>
    obtain rfl | ⟨after, next, rfl⟩ := moved.closes_or_stays
    · cases slot with
      | value context =>
        cases context with
        | stream =>
          cases reached
          exact .delimited trivial
        | _ => cases reached
      | key => cases reached
    · cases reached
  | @number read place context _ n _ ends complete value moved =>
    subst reached
    cases moved.arrives with
    | blank space whole =>
      refine .blank space ?_
      cases context with
      | stream =>
        simp only [finish, complete, if_true, value]
        exact whole
      | _ => cases whole
    | delimited closed => exact .delimited closed
    | word ends visible => exact .word ends visible
  | @lastLetter c meaning context =>
    cases context with
    | stream =>
      cases reached
      exact .word worded.2 (worded.1 c (List.mem_singleton_self c))
    | _ => cases reached
  | numeral | letter => cases reached

theorem exists_gap_of_finish {s : State} (none : finish s = .ok []) :
    ∃ glued, s = .gap (.between [] glued) := by
  obtain whole | ⟨read, place, n, earlier, -, -, -, last⟩ := finish_eq_ok_cases none
  · exact whole
  · exact absurd (List.reverse_eq_nil_iff.mp last.symm) (List.cons_ne_nil _ _)

theorem exists_steps_of_concat {front : Text} {s t : State}
    (h : (front ++ [c]).foldlM (step many) s = some t) :
    ∃ before, front.foldlM (step many) s = some before ∧ Steps many before c t := by
  rw [List.foldlM_append] at h
  obtain ⟨before, reached, last⟩ := Option.bind_eq_some_iff.mp h
  exact ⟨before, reached, steps_of_step ((bind_pure _).symm.trans last)⟩

theorem blank_of_foldlM_step {text : Text}
    (h : text.foldlM (step many) alone = some (.gap (.between [] glued))) :
    ∀ c ∈ text, isSpace c = true := by
  induction text using List.reverseRecOn generalizing glued with
  | nil => nofun
  | append_singleton text c ih =>
    obtain ⟨s, before, last⟩ := exists_steps_of_concat h
    cases last.arrives (foldlM_step_worded before trivial) with
    | blank space whole =>
      obtain ⟨glued, rfl⟩ := exists_gap_of_finish whole
      exact List.forall_mem_append.mpr ⟨ih before, List.forall_mem_singleton.mpr space⟩

theorem Steps.visible {s : State} {read : Text} {place : NumberPlace}
    {context : Context} (h : Steps many s c (.number read place context)) : isSpace c = false := by
  generalize reached : State.number read place context = t at h
  have moves {g : Gap} (moved : Gap.Steps many g c t) : isSpace c = false := by
    cases moved with
    | document _ _ started | value started | item started => exact started.visible.1
    | _ => cases reached
  cases h with
  | gap moved | number _ _ _ moved => exact moves moved
  | numeral goes =>
    rw [← Bool.not_eq_true]
    intro space
    rw [next?_eq_none_of_isSpace space] at goes
    cases goes
  | string moved => obtain rfl | ⟨after, next, rfl⟩ := moved.closes_or_stays <;> cases reached
  | letter | lastLetter => cases reached

theorem Steps.settled_eq_iff {s t : State} {d : Json} (h : Steps many s c t) (worded : s.Worded)
    (settled : Settled (.stream []) d t) :
    t = alone.after [d] ↔ IsDelimited d ∨ isSpace c = true := by
  obtain ⟨glued, rfl⟩ | ⟨read, place, n, rfl, -, -, rfl⟩ := settled
  · cases h.arrives worded with
    | blank space => exact iff_of_true rfl (.inr space)
    | delimited closed => exact iff_of_true rfl (.inl closed)
    | word ends visible =>
      exact iff_of_false nofun (not_or.mpr ⟨ends, Bool.eq_false_iff.mp visible⟩)
  · exact iff_of_false nofun (not_or.mpr ⟨id, Bool.eq_false_iff.mp h.visible⟩)

theorem exists_last_step {front : Text} {s t : State} (h : front.foldlM (step many) s = some t)
    (moved : t ≠ s) (worded : s.Worded) :
    ∃ c ∈ front.getLast?, ∃ before : State, before.Worded ∧ Steps many before c t := by
  induction front using List.reverseRecOn with
  | nil =>
    cases h
    exact absurd rfl moved
  | append_singleton front c _ =>
    obtain ⟨before, reached, last⟩ := exists_steps_of_concat h
    exact ⟨c, List.getLast?_concat, before, foldlM_step_worded reached worded, last⟩

theorem Settled.step_of_parts {d : Json} {t : State} (settled : Settled (.stream []) d t)
    (parts : Parts c) : step true t c = step true (alone.after [d]) c := by
  have ends (place : NumberPlace) : place.next? c = none := by
    obtain space | mark := parts
    · exact next?_eq_none_of_isSpace space place
    · refine next?_of_isMark ?_ place
      obtain rfl | rfl | rfl := mark <;> rfl
  obtain ⟨glued, same⟩ : ∃ glued, step true t c = (deliver (.stream []) d glued).step true c :=
    settled.exists_step_eq ends
  rw [same]
  obtain space | rfl | rfl | rfl := parts
  · simp [alone, State.after, Gap.after, step, deliver, Gap.step, space]
  all_goals cases glued <;> rfl

theorem Settled.ne_alone {d : Json} {t : State} (settled : Settled (.stream []) d t) : t ≠ alone := by
  obtain ⟨glued, rfl⟩ | ⟨read, place, n, rfl, -⟩ := settled <;> nofun

theorem Settled.apart_iff {d : Json} {front rest : Text} {t : State}
    (settled : Settled (.stream []) d t) (reached : front.foldlM (step many) alone = some t) :
    Apart d front rest ↔ t = alone.after [d] ∨ ∀ c ∈ rest.head?, Parts c := by
  obtain ⟨c, last, before, worded, moved⟩ := exists_last_step reached settled.ne_alone trivial
  have behind : (∃ c ∈ front.getLast?, isSpace c = true) ↔ isSpace c = true := by
    simp only [Option.mem_def.mp last, Option.mem_def, Option.some_inj, exists_eq_left']
  rw [moved.settled_eq_iff worded settled, Apart, behind, or_assoc]

theorem Settled.outcome_eq {d : Json} {front rest : Text} {t : State}
    (settled : Settled (.stream []) d t) (reached : front.foldlM (step many) alone = some t)
    (apart : Apart d front rest) :
    outcome (rest.foldlM (step true) t) = (outcome (rest.foldlM (step true) alone)).map (d :: ·) := by
  have fresh : outcome (rest.foldlM (step true) (alone.after [d])) =
      (outcome (rest.foldlM (step true) alone)).map (d :: ·) := by
    rw [foldlM_step_after, outcome_map_after]
    rfl
  obtain rfl | parts := (settled.apart_iff reached).mp apart
  · exact fresh
  · cases rest with
    | nil => exact settled.finish_eq
    | cons c rest =>
      rw [List.foldlM_cons, settled.step_of_parts (parts c rfl), ← List.foldlM_cons, fresh]

theorem eq_nil_or_settled {text : Text} {t : State} {documents : List Json}
    (reached : text.foldlM (step false) alone = some t) (done : finish t = .ok documents) :
    documents = [] ∨ ∃ d, documents = [d] ∧ Settled (.stream []) d t := by
  cases documents with
  | nil => exact .inl rfl
  | cons d rest =>
    have single := onto_alone reached done
    have settled : Settled (.stream []) d (t.onto (.between [] false) (.stream [])) :=
      settled_of_finish single done
    rw [single] at settled
    exact .inr ⟨d, Except.ok.inj (done.symm.trans settled.finish_eq), settled⟩

theorem parse_of_finish {text : Text} {t : State} {d : Json} {documents : List Json}
    (reached : text.foldlM (step false) alone = some t) (done : finish t = .ok (d :: documents)) :
    parse text = .ok d := by
  rw [parse, run_eq_outcome, reached, outcome, done]

end Reader

open Reader

theorem parseStream_document {front rest : Text} {d : Json} (first : parse front = .ok d)
    (apart : Apart d front rest) :
    parseStream (front ++ rest) = (parseStream rest).map (d :: ·) := by
  obtain ⟨t, reached, settled⟩ := exists_settled (opens_between []) first (.inl rfl)
  rw [parseStream_eq_outcome, parseStream_eq_outcome, List.foldlM_append, alone, reached]
  exact settled.outcome_eq reached apart

theorem Streams.parseStream_eq {text : Text} {documents : List Json} (h : Streams text documents) :
    parseStream text = .ok documents := by
  induction h with
  | blank blank =>
    rw [parseStream_eq_outcome, alone, (opens_between []).passes.foldlM_blanks blank]
    rfl
  | document first apart others ih => rw [parseStream_document first apart, ih, Except.map]

theorem streams_of_single {text : Text} {t : State} {documents : List Json}
    (reached : text.foldlM (step false) alone = some t) (done : finish t = .ok documents) :
    Streams text documents := by
  obtain rfl | ⟨d, rfl, -⟩ := eq_nil_or_settled reached done
  · obtain ⟨glued, rfl⟩ := exists_gap_of_finish done
    exact .blank (blank_of_foldlM_step reached)
  · have whole : Streams (text ++ []) [d] :=
      .document (parse_of_finish reached done) (.inr (.inr nofun)) (.blank nofun)
    rwa [List.append_nil] at whole

theorem exists_first {text : Text} {documents : List Json} (h : parseStream text = .ok documents) :
    Streams text documents ∨ ∃ front rest d others, text = front ++ rest ∧ documents = d :: others ∧
      front ≠ [] ∧ parse front = .ok d ∧ Apart d front rest ∧ parseStream rest = .ok others := by
  have ran := h
  rw [parseStream_eq_outcome] at ran
  obtain ⟨u, reached, finished⟩ := exists_of_outcome ran
  obtain whole | ⟨front, c, rest, t, rfl, before, d, earlier, done, apart⟩ :=
    foldlM_step_single_or reached
  · exact .inl (streams_of_single whole finished)
  obtain none | ⟨first, only, settled⟩ := eq_nil_or_settled before done
  · exact absurd (List.reverse_eq_nil_iff.mp none) (List.cons_ne_nil d earlier)
  cases List.reverse_eq_iff.mp only
  have apart : Apart d front (c :: rest) := by
    refine (settled.apart_iff before).mpr (apart.imp_right fun parts => ?_)
    exact fun _ member => Option.some_inj.mp member ▸ parts
  have nonempty : front ≠ [] := by
    rintro rfl
    exact settled.ne_alone (Option.some_inj.mp before).symm
  have first : parse front = .ok d := parse_of_finish before done
  rw [parseStream_document first apart] at h
  cases read : parseStream (c :: rest) with
  | error defect =>
    rw [read] at h
    cases h
  | ok others =>
    rw [read] at h
    cases h
    exact .inr ⟨front, c :: rest, d, others, rfl, rfl, nonempty, first, apart, read⟩

theorem streams_of_parseStream {text : Text} {documents : List Json}
    (h : parseStream text = .ok documents) : Streams text documents := by
  induction size : text.length using Nat.strongRecOn generalizing text documents with
  | ind total ih =>
    obtain whole | ⟨front, rest, d, others, rfl, rfl, nonempty, first, apart, read⟩ := exists_first h
    · exact whole
    · have shorter : rest.length < total := by
        have := List.length_pos_iff.mpr nonempty
        rw [← size, List.length_append]
        omega
      exact .document first apart (ih _ shorter read rfl)

/-- A text is read as a stream of documents exactly if it is one. -/
theorem parseStream_eq_ok_iff {text : Text} {documents : List Json} :
    parseStream text = .ok documents ↔ Streams text documents :=
  ⟨streams_of_parseStream, Streams.parseStream_eq⟩

theorem exists_parseStream_error_iff {text : Text} :
    (∃ defect, parseStream text = .error defect) ↔ ¬∃ documents, Streams text documents := by
  simp only [← parseStream_eq_ok_iff]
  cases parseStream text <;> simp

theorem streams_nil_iff {text : Text} : Streams text [] ↔ ∀ c ∈ text, isSpace c = true := by
  constructor
  · intro h
    cases h
    assumption
  · exact .blank

theorem parseStream_broken {front bad tail : Text} {blank : Char} {documents : List Json}
    {defect : Defect} (whole : Streams front documents) (space : isSpace blank = true)
    (refused : parseStream bad = .error defect)
    (last : tail = [] ∨ defect = .malformed ∧ ∀ c ∈ tail.head?, isSpace c = true) :
    parseStream (front ++ blank :: (bad ++ tail)) = .error defect := by
  have broken : parseStream (bad ++ tail) = .error defect := by
    cases tail with
    | nil => rwa [List.append_nil]
    | cons c tail =>
      obtain ⟨rfl, spaces⟩ := last.resolve_left (List.cons_ne_nil c tail)
      exact parseStream_malformed_separated (spaces c rfl) tail refused
  rw [parseStream_separated space _ whole.parseStream_eq, broken, Except.map]

end RecordFilter.Json
