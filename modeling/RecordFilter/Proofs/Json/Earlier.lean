import RecordFilter.Proofs.Json.Containers

/-! Streams in two parts with a blank between them. The documents that were read earlier do not matter to
the reader, so the second part is read, or refused, as if it stood alone. -/

namespace RecordFilter.Json

namespace Reader

def Context.after (earlier : List Json) : Context → Context
  | stream documents => stream (documents ++ earlier)
  | item items outer => item items (outer.after earlier)
  | member members key outer => member members key (outer.after earlier)

def Gap.after (earlier : List Json) : Gap → Gap
  | between documents glued => between (documents ++ earlier) glued
  | value context => value (context.after earlier)
  | firstItem outer => firstItem (outer.after earlier)
  | afterItem items outer => afterItem items (outer.after earlier)
  | firstKey outer => firstKey (outer.after earlier)
  | key members outer => key members (outer.after earlier)
  | colon members name outer => colon members name (outer.after earlier)
  | afterMember members outer => afterMember members (outer.after earlier)

def Slot.after (earlier : List Json) : Slot → Slot
  | value context => value (context.after earlier)
  | key members outer => key members (outer.after earlier)

def State.after (earlier : List Json) : State → State
  | gap g => gap (g.after earlier)
  | string read place slot => string read place (slot.after earlier)
  | number read place context => number read place (context.after earlier)
  | word rest meaning context => word rest meaning (context.after earlier)

variable (earlier : List Json)

theorem depth_after (context : Context) : (context.after earlier).depth = context.depth := by
  induction context with
  | stream documents => rfl
  | item items outer ih => exact congrArg (· + 1) ih
  | member members key outer ih => exact congrArg (· + 1) ih

theorem deliver_after (context : Context) (d : Json) (glued : Bool) :
    deliver (context.after earlier) d glued = (deliver context d glued).after earlier := by
  cases context <;> rfl

theorem close_after (slot : Slot) (text : Text) :
    (slot.after earlier).close text = (slot.close text).after earlier := by
  cases slot with
  | value context => exact deliver_after earlier context (.string text) false
  | key members outer => rfl

theorem start_after (context : Context) (c : Char) :
    start (context.after earlier) c = (start context c).map (State.after earlier) := by
  simp only [start, depth_after, apply_ite (Option.map (State.after earlier)), Option.map_some,
    Option.map_none]
  rfl

theorem gap_step_after (g : Gap) (c : Char) :
    (g.after earlier).step true c = (g.step true c).map (State.after earlier) := by
  cases space : isSpace c with
  | true => cases g <;> simp only [Gap.step, Gap.after, space, if_true] <;> rfl
  | false =>
    simp only [Gap.step, space, Bool.false_eq_true, if_false]
    cases g with
    | between documents glued =>
      have begins := start_after earlier (.stream documents) c
      simp only [Gap.after, Bool.not_true, Bool.false_and, Bool.false_eq_true, if_false]
      split
      · rfl
      · exact begins
    | value context => exact start_after earlier context c
    | firstItem outer =>
      have begins := start_after earlier (.item [] outer) c
      simp only [Gap.after]
      rw [deliver_after]
      split
      · rfl
      · exact begins
    | firstKey outer | afterItem items outer | afterMember members outer =>
      simp only [Gap.after]
      rw [deliver_after]
      repeat' split
      all_goals rfl
    | key members outer | colon members name outer =>
      simp only [Gap.after]
      split <;> rfl

theorem acceptUnit_after (read : Text) (opened : Option Nat) (unit : Nat) (slot : Slot) :
    acceptUnit read opened unit (slot.after earlier) =
      (acceptUnit read opened unit slot).map (State.after earlier) := by
  unfold acceptUnit
  cases opened <;>
  · simp only
    repeat' split
    all_goals rfl

theorem stepString_after (read : Text) (place : StringPlace) (slot : Slot) (c : Char) :
    stepString read place (slot.after earlier) c =
      (stepString read place slot c).map (State.after earlier) := by
  cases place with
  | plain =>
    simp only [stepString, close_after]
    repeat' split
    all_goals rfl
  | escape =>
    simp only [stepString]
    split
    · rfl
    · cases escaped? c <;> rfl
  | hex digits opened =>
    simp only [stepString]
    split
    · rfl
    · cases codeUnit? (digits ++ [c]) with
      | none => rfl
      | some unit => exact acceptUnit_after earlier read opened unit slot
  | partnerEscape opened | partnerMark opened =>
    simp only [stepString]
    split <;> rfl

theorem step_after (s : State) (c : Char) :
    step true (s.after earlier) c = (step true s c).map (State.after earlier) := by
  cases s with
  | gap g => exact gap_step_after earlier g c
  | string read place slot => exact stepString_after earlier read place slot c
  | number read place context =>
    simp only [State.after, step]
    cases place.next? c with
    | some next => rfl
    | none =>
      simp only [deliver_after]
      split
      · cases numberOf? read place with
        | none => rfl
        | some n => exact gap_step_after earlier _ c
      · rfl
  | word rest meaning context =>
    cases rest with
    | nil => rfl
    | cons expected rest =>
      cases rest with
      | nil =>
        simp only [State.after, step, deliver_after]
        split <;> rfl
      | cons next rest =>
        simp only [State.after, step]
        split <;> rfl

theorem foldlM_step_after (text : Text) (s : State) :
    text.foldlM (step true) (s.after earlier) =
      (text.foldlM (step true) s).map (State.after earlier) := by
  induction text generalizing s with
  | nil => rfl
  | cons c text ih =>
    rw [List.foldlM_cons, List.foldlM_cons, step_after]
    cases step true s c with
    | none => rfl
    | some t => exact ih t

theorem finish_after (s : State) :
    finish (s.after earlier) = (finish s).map (earlier.reverse ++ ·) := by
  cases s with
  | gap g =>
    cases g with
    | between documents glued => exact congrArg Except.ok List.reverse_append
    | _ => rfl
  | string read place slot => rfl
  | word rest meaning context => rfl
  | number read place context =>
    simp only [State.after, finish]
    split
    · cases numberOf? read place with
      | none => rfl
      | some n =>
        cases context with
        | stream documents =>
          refine congrArg Except.ok ?_
          rw [← List.cons_append, List.reverse_append]
        | _ => rfl
    · rfl

def outcome : Option State → Except Defect (List Json)
  | some s => finish s
  | none => .error .malformed

theorem exists_of_outcome {s : Option State} {documents : List Json} (h : outcome s = .ok documents) :
    ∃ t, s = some t ∧ finish t = .ok documents := by
  cases s with
  | none => cases h
  | some t => exact ⟨t, rfl, h⟩

theorem outcome_map_after (s : Option State) :
    outcome (s.map (State.after earlier)) = (outcome s).map (earlier.reverse ++ ·) := by
  cases s with
  | none => rfl
  | some s => exact finish_after earlier s

theorem run_eq_outcome (many : Bool) (text : Text) :
    run many text = outcome (text.foldlM (step many) alone) := by
  rw [run, ← alone]
  cases text.foldlM (step many) alone <;> rfl

theorem finish_eq_ok_cases {s : State} {documents : List Json} (done : finish s = .ok documents) :
    (∃ glued, s = .gap (.between documents.reverse glued)) ∨
      ∃ read place n earlier, s = .number read place (.stream earlier) ∧ place.isComplete = true ∧
        numberOf? read place = some n ∧ documents = (.number n :: earlier).reverse := by
  cases s with
  | gap g =>
    cases g with
    | between read glued =>
      cases done
      exact .inl ⟨glued, by rw [List.reverse_reverse]⟩
    | _ => cases done
  | string read place slot => cases done
  | word rest meaning context => cases done
  | number read place context =>
    simp only [finish] at done
    split at done
    · rename_i complete
      split at done
      · rename_i number
        cases done
        exact .inr ⟨read, place, _, _, rfl, complete, number, rfl⟩
      · cases done
      · cases done
    · cases done

theorem step_blank_of_finish {s : State} {documents : List Json} (done : finish s = .ok documents)
    {c : Char} (space : isSpace c = true) : step true s c = some (alone.after documents.reverse) := by
  obtain ⟨glued, rfl⟩ | ⟨read, place, n, earlier, rfl, complete, number, rfl⟩ := finish_eq_ok_cases done
  · simp [step, Gap.step, space, alone, State.after, Gap.after]
  · simp [step, next?_eq_none_of_isSpace space, complete, number, deliver, Gap.step, space, alone,
      State.after, Gap.after]

theorem step_blank_of_malformed {s : State} (refused : finish s = .error .malformed) {c : Char}
    (space : isSpace c = true) : step true s c = none := by
  cases s with
  | gap g => cases g <;> cases refused
  | string read place slot => cases refused
  | word rest meaning context => cases refused
  | number read place context =>
    simp only [finish] at refused
    split at refused
    · rename_i complete
      split at refused
      · cases refused
      · cases refused
      · rename_i number
        simp [step, next?_eq_none_of_isSpace space, complete, number]
    · cases refused

end Reader

open Reader

theorem parseStream_eq_outcome (text : Text) :
    parseStream text = outcome (text.foldlM (step true) alone) := run_eq_outcome true text

section

variable {front : Text} {blank : Char} (space : isSpace blank = true) (rest : Text)
include space

theorem parseStream_separated {documents : List Json} (whole : parseStream front = .ok documents) :
    parseStream (front ++ blank :: rest) = (parseStream rest).map (documents ++ ·) := by
  rw [parseStream_eq_outcome] at whole
  rw [parseStream_eq_outcome, parseStream_eq_outcome, List.foldlM_append]
  obtain ⟨s, reached, done⟩ := exists_of_outcome whole
  simp only [reached, bind, Option.bind_some, List.foldlM_cons, step_blank_of_finish done space]
  rw [foldlM_step_after, outcome_map_after, List.reverse_reverse]

theorem parseStream_malformed_separated (refused : parseStream front = .error .malformed) :
    parseStream (front ++ blank :: rest) = .error .malformed := by
  rw [parseStream_eq_outcome] at refused
  rw [parseStream_eq_outcome, List.foldlM_append]
  cases reached : front.foldlM (step true) alone with
  | none => rfl
  | some s =>
    rw [reached] at refused
    simp only [bind, Option.bind_some, List.foldlM_cons, step_blank_of_malformed refused space,
      Option.bind_none, outcome]

end

end RecordFilter.Json
