import RecordFilter.Proofs.Json.Nesting

/-! Reading a document inside another one. The reader takes the same steps as on the document alone,
with the surrounding containers below those of the document, as long as the depth allows it. -/

namespace RecordFilter.Json.Reader

def Context.onto : Context → Context → Context
  | stream _, base => base
  | item items outer, base => item items (outer.onto base)
  | member members key outer, base => member members key (outer.onto base)

theorem Context.depth_onto (context base : Context) :
    (context.onto base).depth = context.depth + base.depth := by
  induction context with
  | stream documents => simp [onto, depth]
  | item items outer ih =>
    simp only [onto, depth, ih]
    omega
  | member members key outer ih =>
    simp only [onto, depth, ih]
    omega

def Gap.onto : Gap → Gap → Context → Gap
  | between [] _, opening, _ => opening
  | between (d :: _) glued, _, base => deliver base d glued
  | value context, _, base => value (context.onto base)
  | firstItem outer, _, base => firstItem (outer.onto base)
  | afterItem items outer, _, base => afterItem items (outer.onto base)
  | firstKey outer, _, base => firstKey (outer.onto base)
  | key members outer, _, base => key members (outer.onto base)
  | colon members name outer, _, base => colon members name (outer.onto base)
  | afterMember members outer, _, base => afterMember members (outer.onto base)

def Slot.onto : Slot → Context → Slot
  | value context, base => value (context.onto base)
  | key members outer, base => key members (outer.onto base)

def State.onto : State → Gap → Context → State
  | gap g, opening, base => gap (g.onto opening base)
  | string read place slot, _, base => string read place (slot.onto base)
  | number read place context, _, base => number read place (context.onto base)
  | word rest meaning context, _, base => word rest meaning (context.onto base)

def State.Fits (s : State) (base : Context) : Prop := base.depth = 0 ∨ s.depth + base.depth ≤ maxDepth

/-- A gap where a document may start in a context: blanks are passed over, and any first character
but the bracket that closes an array is taken for the document's. -/
structure Opens (many : Bool) (opening : Gap) (base : Context) : Prop where
  blank {c : Char} (space : isSpace c = true) : opening.step many c = some (.gap opening)
  start {c : Char} (space : isSpace c = false) (closing : c ≠ ']') :
    opening.step many c = start base c

variable {many : Bool} {opening : Gap} {base : Context}

theorem Opens.step_eq (opens : Opens many opening base) {c : Char} {s : State}
    (started : Starts base c s) : step many (.gap opening) c = some s := by
  obtain ⟨space, closing⟩ := started.visible
  exact (opens.start space closing).trans started.start_eq

theorem onto_deliver (context : Context) (d : Json) (glued : Bool) :
    (deliver context d glued).onto opening base = deliver (context.onto base) d glued := by
  cases context <;> rfl

theorem onto_close (slot : Slot) (text : Text) :
    (slot.close text).onto opening base = (slot.onto base).close text := by
  cases slot with
  | value context => exact onto_deliver context (.string text) false
  | key members outer => rfl

theorem Starts.onto {context : Context} {c : Char} {s : State} (h : Starts context c s)
    (fits : s.Fits base) : Starts (context.onto base) c (s.onto opening base) := by
  have room (below : context.depth < maxDepth)
      (fits : base.depth = 0 ∨ context.depth + 1 + base.depth ≤ maxDepth) :
      (context.onto base).depth < maxDepth := by
    rw [Context.depth_onto]
    omega
  -- Only a new container looks at the context, for how deep it is.
  cases h with
  | array below => exact .array (room below fits)
  | object below => exact .object (room below fits)
  | digit digit nonzero => exact .digit digit nonzero
  | _ => constructor

theorem deliver_step_blank {d : Json} {glued : Bool} {c : Char} (space : isSpace c = true) :
    (deliver base d glued).step many c = some (.gap (deliver base d false)) := by
  cases base <;> simp [deliver, Gap.step, space]

theorem Gap.Steps.onto (opens : Opens many opening base) {g : Gap} {c : Char} {s : State}
    (h : Gap.Steps false g c s) (fits : s.Fits base) :
    (g.onto opening base).step many c = some (s.onto opening base) := by
  cases h with
  | blank space =>
    cases g with
    | between documents glued =>
      cases documents with
      | nil => exact opens.blank space
      | cons d documents => exact deliver_step_blank space
    | _ => exact (Gap.Steps.blank space).step_eq
  | document follows apart started =>
    rcases follows with more | rfl
    · cases more
    · exact opens.step_eq (started.onto fits)
  | value started => exact (Gap.Steps.value (started.onto fits)).step_eq
  | item started => exact (Gap.Steps.item (started.onto fits)).step_eq
  | noItems | items | noMembers | members =>
    simp only [State.onto, onto_deliver]
    rfl
  | _ => rfl

theorem StringSteps.onto {read : Text} {place : StringPlace} {slot : Slot} {c : Char} {s : State}
    (h : StringSteps read slot place c s) :
    StringSteps read (slot.onto base) place c (s.onto opening base) := by
  cases h with
  | close =>
    rw [State.onto, onto_close]
    exact .close
  | plain mark slash above => exact .plain mark slash above
  | letter mark known => exact .letter mark known
  | digit few => exact .digit few
  | lastDigit enough value accepted =>
    obtain ⟨after, next, rfl, -, same⟩ := exists_acceptUnit_eq accepted
    exact .lastDigit enough value (same _)
  | _ => constructor

theorem Steps.onto (opens : Opens many opening base) {s t : State} {c : Char} (h : Steps false s c t)
    (fits : t.Fits base) : step many (s.onto opening base) c = some (t.onto opening base) := by
  cases h with
  | gap moved => exact moved.onto opens fits
  | string moved => exact moved.onto.step_eq
  | numeral goes => exact (Steps.numeral goes).step_eq
  | number ends complete value moved =>
    have delivered := moved.onto opens fits
    rw [onto_deliver] at delivered
    exact (Steps.number ends complete value (gapSteps_of_step delivered)).step_eq
  | letter => exact Steps.letter.step_eq
  | lastLetter =>
    simp only [State.onto, onto_deliver]
    exact Steps.lastLetter.step_eq

theorem foldlM_step_onto (opens : Opens many opening base) {text : Text} {s t : State}
    {documents : List Json} (h : text.foldlM (step false) s = some t) (sound : s.Sound)
    (done : finish t = .ok documents)
    (room : base.depth = 0 ∨ s.quoting.mostOpen s.depth text + base.depth ≤ maxDepth) :
    text.foldlM (step many) (s.onto opening base) = some (t.onto opening base) := by
  induction text generalizing s with
  | nil =>
    cases h
    rfl
  | cons c text ih =>
    rw [List.foldlM_cons] at h ⊢
    obtain ⟨next, first, rest⟩ := Option.bind_eq_some_iff.mp h
    have moved := steps_of_step first
    obtain lost | ⟨⟨quoting, depth⟩, sound⟩ := moved.tracks sound
    · exact absurd done (lost.not_finish rest)
    · rw [Quoting.mostOpen, ← quoting, ← depth] at room
      have reached := next.quoting.le_mostOpen next.depth text
      have fits : next.Fits base := room.imp_right fun below => by omega
      rw [moved.onto opens fits]
      exact ih rest sound (room.imp_right fun below => by omega)

def alone : State := .gap (.between [] false)

theorem opens_alone : Opens false (.between [] false) (.stream []) where
  blank space := by simp [Gap.step, space]
  start space closing := by simp [Gap.step, space]

theorem onto_alone {text : Text} {t : State} {documents : List Json}
    (h : text.foldlM (step false) alone = some t) (done : finish t = .ok documents) :
    t.onto (.between [] false) (.stream []) = t := by
  have same := foldlM_step_onto opens_alone h trivial done (.inl rfl)
  exact Option.some_inj.mp (same.symm.trans h)

def Settled (base : Context) (d : Json) (s : State) : Prop :=
  (∃ glued, s = .gap (deliver base d glued)) ∨
    ∃ read place n, s = .number read place base ∧ place.isComplete = true ∧
      numberOf? read place = some n ∧ d = .number n

theorem settled_of_finish {t : State} {d : Json} {rest : List Json}
    (single : t.onto (.between [] false) (.stream []) = t) (done : finish t = .ok (d :: rest)) :
    Settled base d (t.onto opening base) := by
  cases t with
  | gap g =>
    cases g with
    | between documents glued =>
      cases documents with
      | nil => cases done
      | cons last documents =>
        cases single
        cases done
        exact .inl ⟨glued, rfl⟩
    | _ => cases done
  | string read place slot => cases done
  | word rest meaning context => cases done
  | number read place context =>
    cases context with
    | stream documents =>
      cases single
      simp only [finish] at done
      split at done
      · rename_i complete
        cases number : numberOf? read place with
        | none =>
          rw [number] at done
          cases done
        | some n =>
          rw [number] at done
          cases done
          exact .inr ⟨read, place, n, rfl, complete, number, rfl⟩
      · cases done
    | _ =>
      simp only [finish] at done
      split at done
      · cases number : numberOf? read place <;>
        · rw [number] at done
          cases done
      · cases done

theorem exists_settled (opens : Opens many opening base) {text : Text} {d : Json}
    (h : parse text = .ok d) (room : base.depth = 0 ∨ nesting text + base.depth ≤ maxDepth) :
    ∃ s, text.foldlM (step many) (.gap opening) = some s ∧ Settled base d s := by
  unfold parse run at h
  cases reached : text.foldlM (step false) (.gap (.between [] false)) with
  | none =>
    rw [reached] at h
    cases h
  | some t =>
    rw [reached] at h
    simp only at h
    split at h
    · rename_i document documents done
      cases h
      refine ⟨_, foldlM_step_onto opens reached trivial done room, ?_⟩
      exact settled_of_finish (onto_alone reached done) done
    · cases h
    · cases h

namespace Settled

variable {d : Json} {s : State}

theorem exists_step_eq (settled : Settled base d s) {c : Char}
    (ends : ∀ place : NumberPlace, place.next? c = none) :
    ∃ glued, step many s c = (deliver base d glued).step many c := by
  obtain ⟨glued, rfl⟩ | ⟨read, place, n, rfl, complete, number, rfl⟩ := settled
  · exact ⟨glued, rfl⟩
  · refine ⟨true, ?_⟩
    simp only [step, ends place, complete, if_true, number, Option.bind_some]

theorem finish_eq {documents : List Json} (settled : Settled (.stream documents) d s) :
    finish s = .ok (d :: documents).reverse := by
  obtain ⟨glued, rfl⟩ | ⟨read, place, n, rfl, complete, number, rfl⟩ := settled
  · rfl
  · simp only [finish, complete, if_true, number]

end Settled

end RecordFilter.Json.Reader
