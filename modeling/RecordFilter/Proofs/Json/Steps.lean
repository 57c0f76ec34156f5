import RecordFilter.Json.Reader

/-! What one step of the reader can do, for each place where it may stand: one case for each way to go
on, with what the step asks for and where it leads. -/

namespace RecordFilter.Json.Reader

inductive Starts (context : Context) : Char → State → Prop where
  | string : Starts context '"' (.string [] .plain (.value context))
  | array (below : context.depth < maxDepth) : Starts context '[' (.gap (.firstItem context))
  | object (below : context.depth < maxDepth) : Starts context '\x7b' (.gap (.firstKey context))
  | sign : Starts context '-' (.number ['-'] .minus context)
  | zero : Starts context '0' (.number ['0'] .zero context)
  | digit {c : Char} (digit : Text.isDigit c = true) (nonzero : c ≠ '0') :
      Starts context c (.number [c] .whole context)
  | yes : Starts context 't' (.word ['r', 'u', 'e'] (.boolean true) context)
  | no : Starts context 'f' (.word ['a', 'l', 's', 'e'] (.boolean false) context)
  | null : Starts context 'n' (.word ['u', 'l', 'l'] .null context)

theorem eq_or_ne_of_ite_beq {c mark : Char} {taken other : Option State} {s : State}
    (h : (if c == mark then taken else other) = some s) :
    c = mark ∧ taken = some s ∨ c ≠ mark ∧ other = some s := by
  split at h
  · exact .inl ⟨beq_iff_eq.mp ‹_›, h⟩
  · exact .inr ⟨fun same => absurd (beq_iff_eq.mpr same) ‹_›, h⟩

theorem eq_of_ite_beq {c mark : Char} {s t : State}
    (h : (if c == mark then some t else none) = some s) : c = mark ∧ t = s := by
  obtain ⟨same, taken⟩ | ⟨-, other⟩ := eq_or_ne_of_ite_beq h
  · exact ⟨same, Option.some_inj.mp taken⟩
  · cases other

theorem starts_of_start {context : Context} {c : Char} {s : State} (h : start context c = some s) :
    Starts context c s := by
  unfold start at h
  obtain ⟨rfl, taken⟩ | ⟨-, h⟩ := eq_or_ne_of_ite_beq h
  · cases taken
    exact .string
  obtain ⟨rfl, taken⟩ | ⟨-, h⟩ := eq_or_ne_of_ite_beq h
  · split at taken <;> cases taken
    exact .array ‹_›
  obtain ⟨rfl, taken⟩ | ⟨-, h⟩ := eq_or_ne_of_ite_beq h
  · split at taken <;> cases taken
    exact .object ‹_›
  obtain ⟨rfl, taken⟩ | ⟨-, h⟩ := eq_or_ne_of_ite_beq h
  · cases taken
    exact .sign
  obtain ⟨rfl, taken⟩ | ⟨nonzero, h⟩ := eq_or_ne_of_ite_beq h
  · cases taken
    exact .zero
  split at h
  · cases h
    exact .digit ‹_› nonzero
  obtain ⟨rfl, taken⟩ | ⟨-, h⟩ := eq_or_ne_of_ite_beq h
  · cases taken
    exact .yes
  obtain ⟨rfl, taken⟩ | ⟨-, h⟩ := eq_or_ne_of_ite_beq h
  · cases taken
    exact .no
  obtain ⟨rfl, rfl⟩ := eq_of_ite_beq h
  exact .null

theorem ne_of_isDigit {c mark : Char} (digit : Text.isDigit c = true)
    (other : Text.isDigit mark = false) : c ≠ mark := by
  rintro rfl
  exact Bool.noConfusion (other.symm.trans digit)

theorem Starts.start_eq {context : Context} {c : Char} {s : State} (h : Starts context c s) :
    start context c = some s := by
  cases h with
  | array below | object below => exact if_pos below
  | digit digit nonzero =>
    have quote : c ≠ '"' := ne_of_isDigit digit rfl
    have bracket : c ≠ '[' := ne_of_isDigit digit rfl
    have brace : c ≠ '\x7b' := ne_of_isDigit digit rfl
    have minus : c ≠ '-' := ne_of_isDigit digit rfl
    simp [start, quote, bracket, brace, minus, nonzero, digit]
  | _ => rfl

/-- A blank between documents lets them be told apart, elsewhere it changes nothing. -/
def Gap.rested : Gap → Gap
  | between documents _ => between documents false
  | g => g

inductive Gap.Steps (many : Bool) : Gap → Char → State → Prop where
  | blank {g : Gap} {c : Char} (space : isSpace c = true) : Steps many g c (.gap g.rested)
  | document {documents : List Json} {glued : Bool} {c : Char} {s : State}
      (follows : many = true ∨ documents = [])
      (apart : glued = false ∨ c = '"' ∨ c = '[' ∨ c = '\x7b') (started : Starts (.stream documents) c s) :
      Steps many (.between documents glued) c s
  | value {context : Context} {c : Char} {s : State} (started : Starts context c s) :
      Steps many (.value context) c s
  | item {outer : Context} {c : Char} {s : State} (started : Starts (.item [] outer) c s) :
      Steps many (.firstItem outer) c s
  | noItems {outer : Context} : Steps many (.firstItem outer) ']' (.gap (deliver outer (.array []) false))
  | nextItem {items : List Json} {outer : Context} :
      Steps many (.afterItem items outer) ',' (.gap (.value (.item items outer)))
  | items {items : List Json} {outer : Context} :
      Steps many (.afterItem items outer) ']' (.gap (deliver outer (.array items.reverse) false))
  | noMembers {outer : Context} :
      Steps many (.firstKey outer) '\x7d' (.gap (deliver outer (.object []) false))
  | firstKey {outer : Context} : Steps many (.firstKey outer) '"' (.string [] .plain (.key [] outer))
  | key {members : List (Text × Json)} {outer : Context} :
      Steps many (.key members outer) '"' (.string [] .plain (.key members outer))
  | colon {members : List (Text × Json)} {name : Text} {outer : Context} :
      Steps many (.colon members name outer) ':' (.gap (.value (.member members name outer)))
  | nextMember {members : List (Text × Json)} {outer : Context} :
      Steps many (.afterMember members outer) ',' (.gap (.key members outer))
  | members {members : List (Text × Json)} {outer : Context} :
      Steps many (.afterMember members outer) '\x7d' (.gap (deliver outer (.object members) false))

theorem gapSteps_of_document {many : Bool} {documents : List Json} {glued : Bool} {c : Char} {s : State}
    (h : (if !many && !documents.isEmpty then none
      else if glued && !(c == '"' || c == '[' || c == '\x7b') then none
      else start (.stream documents) c) = some s) :
    Gap.Steps many (.between documents glued) c s := by
  split at h
  · cases h
  rename_i follows
  split at h
  · cases h
  rename_i apart
  refine .document ?_ ?_ (starts_of_start h)
  · cases many with
    | true => exact .inl rfl
    | false =>
      cases documents with
      | nil => exact .inr rfl
      | cons d documents => exact absurd rfl follows
  · cases glued with
    | false => exact .inl rfl
    | true =>
      simp only [Bool.true_and, Bool.not_eq_true', Bool.not_eq_false, Bool.or_eq_true, beq_iff_eq,
        or_assoc] at apart
      exact .inr apart

theorem gapSteps_of_step {many : Bool} {g : Gap} {c : Char} {s : State} (h : g.step many c = some s) :
    Gap.Steps many g c s := by
  cases space : isSpace c with
  | true =>
    have rests : s = .gap g.rested := by
      cases g <;>
      · simp only [Gap.step, space, if_true] at h
        exact (Option.some_inj.mp h).symm
    rw [rests]
    exact .blank space
  | false =>
    simp only [Gap.step, space, Bool.false_eq_true, if_false] at h
    cases g with
    | between documents glued => exact gapSteps_of_document h
    | value context => exact .value (starts_of_start h)
    | firstItem outer =>
      obtain ⟨rfl, taken⟩ | ⟨-, h⟩ := eq_or_ne_of_ite_beq h
      · cases taken
        exact .noItems
      · exact .item (starts_of_start h)
    | afterItem items outer =>
      obtain ⟨rfl, taken⟩ | ⟨-, h⟩ := eq_or_ne_of_ite_beq h
      · cases taken
        exact .nextItem
      · obtain ⟨rfl, rfl⟩ := eq_of_ite_beq h
        exact .items
    | firstKey outer =>
      obtain ⟨rfl, taken⟩ | ⟨-, h⟩ := eq_or_ne_of_ite_beq h
      · cases taken
        exact .noMembers
      · obtain ⟨rfl, rfl⟩ := eq_of_ite_beq h
        exact .firstKey
    | key members outer =>
      obtain ⟨rfl, rfl⟩ := eq_of_ite_beq h
      exact .key
    | colon members name outer =>
      obtain ⟨rfl, rfl⟩ := eq_of_ite_beq h
      exact .colon
    | afterMember members outer =>
      obtain ⟨rfl, taken⟩ | ⟨-, h⟩ := eq_or_ne_of_ite_beq h
      · cases taken
        exact .nextMember
      · obtain ⟨rfl, rfl⟩ := eq_of_ite_beq h
        exact .members

theorem Starts.visible {context : Context} {c : Char} {s : State} (h : Starts context c s) :
    isSpace c = false ∧ c ≠ ']' := by
  cases h with
  | digit digit nonzero =>
    have blank : c ≠ ' ' := ne_of_isDigit digit rfl
    have tab : c ≠ '\t' := ne_of_isDigit digit rfl
    have line : c ≠ '\n' := ne_of_isDigit digit rfl
    have carriage : c ≠ '\r' := ne_of_isDigit digit rfl
    exact ⟨by simp [isSpace, blank, tab, line, carriage], ne_of_isDigit digit rfl⟩
  | _ => exact ⟨rfl, by decide⟩

theorem Gap.Steps.step_eq {many : Bool} {g : Gap} {c : Char} {s : State} (h : Gap.Steps many g c s) :
    g.step many c = some s := by
  cases h with
  | blank space => cases g <;> simp [Gap.step, space, Gap.rested]
  | document follows apart started =>
    rename_i documents glued
    have first : (!many && !documents.isEmpty) = false := by
      obtain rfl | rfl := follows <;> simp
    have behind : (glued && !(c == '"' || c == '[' || c == '\x7b')) = false := by
      obtain rfl | rfl | rfl | rfl := apart
      · rfl
      all_goals exact Bool.and_false _
    simp only [Gap.step, started.visible.1, first, behind, Bool.false_eq_true, if_false, started.start_eq]
  | value started =>
    simp only [Gap.step, started.visible.1, Bool.false_eq_true, if_false, started.start_eq]
  | item started =>
    have inside : (c == ']') = false := beq_eq_false_iff_ne.mpr started.visible.2
    simp only [Gap.step, started.visible.1, inside, Bool.false_eq_true, if_false, started.start_eq]
  | _ => rfl

inductive StringSteps (read : Text) (slot : Slot) : StringPlace → Char → State → Prop where
  | close : StringSteps read slot .plain '"' (.gap (slot.close read.reverse))
  | escape : StringSteps read slot .plain '\\' (.string read .escape slot)
  | plain {c : Char} (mark : c ≠ '"') (slash : c ≠ '\\') (above : ¬c.toNat < 0x20) :
      StringSteps read slot .plain c (.string (c :: read) .plain slot)
  | codeUnit : StringSteps read slot .escape 'u' (.string read (.hex [] none) slot)
  | letter {c meaning : Char} (mark : c ≠ 'u') (known : escaped? c = some meaning) :
      StringSteps read slot .escape c (.string (meaning :: read) .plain slot)
  | digit {digits : Text} {opened : Option Nat} {c : Char}
      (few : Text.utf8Size (digits ++ [c]) < awaitedBytes) :
      StringSteps read slot (.hex digits opened) c (.string read (.hex (digits ++ [c]) opened) slot)
  | lastDigit {digits : Text} {opened : Option Nat} {c : Char} {unit : Nat} {s : State}
      (enough : ¬Text.utf8Size (digits ++ [c]) < awaitedBytes) (value : codeUnit? (digits ++ [c]) = some unit)
      (accepted : acceptUnit read opened unit slot = some s) :
      StringSteps read slot (.hex digits opened) c s
  | partnerEscape {opened : Nat} :
      StringSteps read slot (.partnerEscape opened) '\\' (.string read (.partnerMark opened) slot)
  | partnerMark {opened : Nat} :
      StringSteps read slot (.partnerMark opened) 'u' (.string read (.hex [] (some opened)) slot)

theorem stringSteps_of_step {read : Text} {place : StringPlace} {slot : Slot} {c : Char} {s : State}
    (h : stepString read place slot c = some s) : StringSteps read slot place c s := by
  cases place with
  | plain =>
    obtain ⟨rfl, taken⟩ | ⟨mark, h⟩ := eq_or_ne_of_ite_beq h
    · cases taken
      exact .close
    obtain ⟨rfl, taken⟩ | ⟨slash, h⟩ := eq_or_ne_of_ite_beq h
    · cases taken
      exact .escape
    split at h <;> cases h
    exact .plain mark slash ‹_›
  | escape =>
    obtain ⟨rfl, taken⟩ | ⟨mark, h⟩ := eq_or_ne_of_ite_beq h
    · cases taken
      exact .codeUnit
    · obtain ⟨letter, known, rfl⟩ := Option.map_eq_some_iff.mp h
      exact .letter mark known
  | hex digits opened =>
    simp only [stepString] at h
    split at h
    · cases h
      exact .digit ‹_›
    · obtain ⟨unit, value, accepted⟩ := Option.bind_eq_some_iff.mp h
      exact .lastDigit ‹_› value accepted
  | partnerEscape opened =>
    obtain ⟨rfl, rfl⟩ := eq_of_ite_beq h
    exact .partnerEscape
  | partnerMark opened =>
    obtain ⟨rfl, rfl⟩ := eq_of_ite_beq h
    exact .partnerMark

theorem StringSteps.step_eq {read : Text} {place : StringPlace} {slot : Slot} {c : Char} {s : State}
    (h : StringSteps read slot place c s) : stepString read place slot c = some s := by
  cases h with
  | plain mark slash above => simp [stepString, mark, slash, above]
  | letter mark known => simp [stepString, mark, known]
  | digit few => exact if_pos few
  | lastDigit enough value accepted =>
    refine (if_neg enough).trans ?_
    rw [value]
    exact accepted
  | _ => rfl

theorem exists_acceptUnit_eq {read : Text} {opened : Option Nat} {unit : Nat} {slot : Slot} {s : State}
    (h : acceptUnit read opened unit slot = some s) :
    ∃ after place, s = .string after place slot ∧
      (place = .plain ∨ ∃ high, place = .partnerEscape high) ∧
        ∀ other, acceptUnit read opened unit other = some (.string after place other) := by
  unfold acceptUnit at h ⊢
  cases opened with
  | none =>
    simp only at h ⊢
    split at h
    · rename_i high
      cases h
      exact ⟨_, _, rfl, .inr ⟨_, rfl⟩, fun _ => if_pos high⟩
    rename_i high
    split at h <;> cases h
    rename_i low
    exact ⟨_, _, rfl, .inl rfl, fun _ => (if_neg high).trans (if_neg low)⟩
  | some first =>
    simp only at h ⊢
    split at h <;> cases h
    rename_i low
    exact ⟨_, _, rfl, .inl rfl, fun _ => if_pos low⟩

/-- The ways to go on with a character. A number ends before the first character that does not belong
to it, which is then read in the gap behind the number. -/
inductive Steps (many : Bool) : State → Char → State → Prop where
  | gap {g : Gap} {c : Char} {s : State} (moved : Gap.Steps many g c s) : Steps many (.gap g) c s
  | string {read : Text} {place : StringPlace} {slot : Slot} {c : Char} {s : State}
      (moved : StringSteps read slot place c s) : Steps many (.string read place slot) c s
  | numeral {read : Text} {place next : NumberPlace} {context : Context} {c : Char}
      (goes : place.next? c = some next) :
      Steps many (.number read place context) c (.number (c :: read) next context)
  | number {read : Text} {place : NumberPlace} {context : Context} {c : Char} {n : Number} {s : State}
      (ends : place.next? c = none) (complete : place.isComplete = true)
      (value : numberOf? read place = some n)
      (moved : Gap.Steps many (deliver context (.number n) true) c s) :
      Steps many (.number read place context) c s
  | letter {c next : Char} {rest : Text} {meaning : Json} {context : Context} :
      Steps many (.word (c :: next :: rest) meaning context) c (.word (next :: rest) meaning context)
  | lastLetter {c : Char} {meaning : Json} {context : Context} :
      Steps many (.word [c] meaning context) c (.gap (deliver context meaning true))

theorem steps_of_step {many : Bool} {s t : State} {c : Char} (h : step many s c = some t) :
    Steps many s c t := by
  cases s with
  | gap g => exact .gap (gapSteps_of_step h)
  | string read place slot => exact .string (stringSteps_of_step h)
  | number read place context =>
    cases next : place.next? c with
    | some following =>
      simp only [step, next] at h
      cases h
      exact .numeral next
    | none =>
      simp only [step, next] at h
      split at h
      · obtain ⟨n, value, moved⟩ := Option.bind_eq_some_iff.mp h
        exact .number next ‹_› value (gapSteps_of_step moved)
      · cases h
  | word rest meaning context =>
    match rest with
    | [] => cases h
    | [last] =>
      obtain ⟨rfl, rfl⟩ := eq_of_ite_beq h
      exact .lastLetter
    | expected :: next :: rest =>
      obtain ⟨rfl, rfl⟩ := eq_of_ite_beq h
      exact .letter

theorem Steps.step_eq {many : Bool} {s t : State} {c : Char} (h : Steps many s c t) :
    step many s c = some t := by
  cases h with
  | gap moved => exact moved.step_eq
  | string moved => exact moved.step_eq
  | numeral goes => simp only [step, goes]
  | number ends complete value moved =>
    simp only [step, ends, complete, if_true, value, Option.bind_some]
    exact moved.step_eq
  | letter | lastLetter => exact if_pos (beq_self_eq_true c)

end RecordFilter.Json.Reader
