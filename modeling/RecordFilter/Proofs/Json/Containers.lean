import Mathlib.Data.List.Forall2
import RecordFilter.Proofs.Document.Regular
import RecordFilter.Proofs.Json.Embedding
import RecordFilter.Proofs.Json.StringText

/-! Texts put together from the texts of their parts: joined by a separator, behind blanks, and between
the brackets of an array or an object. -/

namespace RecordFilter.Json.Reader

variable {many : Bool} {opening : Gap} {base : Context} {d : Json} {text blanks : Text} {room : Nat}

theorem next?_eq_none_of_isSpace {c : Char} (h : isSpace c = true) (place : NumberPlace) :
    place.next? c = none := by
  simp only [isSpace, Bool.or_eq_true, beq_iff_eq] at h
  obtain ((rfl | rfl) | rfl) | rfl := h <;> cases place <;> rfl

theorem next?_comma (place : NumberPlace) : place.next? ',' = none := by cases place <;> rfl

theorem exists_foldlM_intercalate {σ α β : Type} {next : σ → Char → Option σ} {separator : Char}
    (Ready Done : β → σ → Prop) (push : β → α → β)
    (separates : ∀ gathered s, Done gathered s → ∃ t, next s separator = some t ∧ Ready gathered t)
    {parts : List Text} {values : List α}
    (read : List.Forall₂ (fun part value => ∀ gathered s, Ready gathered s →
      ∃ t, part.foldlM next s = some t ∧ Done (push gathered value) t) parts values)
    (nonempty : parts ≠ []) {gathered : β} {s : σ} (ready : Ready gathered s) :
    ∃ t, (List.intercalate [separator] parts).foldlM next s = some t ∧
      Done (values.foldl push gathered) t := by
  induction read generalizing gathered s with
  | nil => exact absurd rfl nonempty
  | @cons part value parts values first rest ih =>
    obtain ⟨t, reached, done⟩ := first gathered s ready
    cases parts with
    | nil =>
      cases rest
      rw [List.intercalate_singleton]
      exact ⟨t, reached, done⟩
    | cons following parts =>
      obtain ⟨u, separated, ready⟩ := separates _ t done
      obtain ⟨v, joined, done⟩ := ih (List.cons_ne_nil _ _) ready
      refine ⟨v, ?_, done⟩
      rw [List.intercalate_cons_cons, List.append_assoc, List.foldlM_append, reached]
      show (next t separator).bind _ = some v
      rw [separated]
      exact joined

def Passes (many : Bool) (gap : Gap) : Prop :=
  ∀ c, isSpace c = true → gap.step many c = some (.gap gap)

theorem Passes.foldlM_blanks {gap : Gap} (passes : Passes many gap)
    (blank : ∀ c ∈ blanks, isSpace c = true) :
    blanks.foldlM (step many) (.gap gap) = some (.gap gap) := by
  induction blanks with
  | nil => rfl
  | cons c blanks ih =>
    obtain ⟨space, blank⟩ := List.forall_mem_cons.mp blank
    have stays : step many (.gap gap) c = some (.gap gap) := passes c space
    rw [List.foldlM_cons, stays]
    exact ih blank

theorem Opens.passes (opens : Opens many opening base) : Passes many opening := fun _ => opens.blank

/-- The text is read as the document wherever one may start, with room for so many containers. -/
def ReadsAs (text : Text) (d : Json) (room : Nat) : Prop :=
  ∀ (many : Bool) (opening : Gap) (base : Context), Opens many opening base →
    room + base.depth ≤ maxDepth →
      ∃ s, text.foldlM (step many) (.gap opening) = some s ∧ Settled base d s

theorem readsAs_of_parse (h : parse text = .ok d) (shallow : nesting text ≤ room) :
    ReadsAs text d room := fun _ _ _ opens fits =>
  exists_settled opens h (.inr (Nat.le_trans (Nat.add_le_add_right shallow _) fits))

theorem ReadsAs.parse_eq (h : ReadsAs text d room) (fits : room ≤ maxDepth) : parse text = .ok d := by
  obtain ⟨s, reached, settled⟩ := h false _ _ opens_alone fits
  rw [parse, run, reached]
  simp only [settled.finish_eq]
  rfl

theorem ReadsAs.behind (h : ReadsAs text d room) (blank : ∀ c ∈ blanks, isSpace c = true) :
    ReadsAs (blanks ++ text) d room := by
  intro many opening base opens fits
  rw [List.foldlM_append, opens.passes.foldlM_blanks blank]
  exact h many opening base opens fits

def Reaches (many : Bool) (gap : Gap) (s : State) : Prop :=
  ∀ c, (∀ place : NumberPlace, place.next? c = none) → step many s c = gap.step many c

theorem Settled.reaches {s : State} {gap : Gap} (settled : Settled base d s)
    (delivers : ∀ glued, deliver base d glued = gap) : Reaches many gap s := by
  intro c ends
  obtain ⟨glued, same⟩ : ∃ glued, step many s c = (deliver base d glued).step many c :=
    settled.exists_step_eq ends
  rw [same, delivers]

theorem Reaches.foldlM_closing {s : State} {gap : Gap} (reaches : Reaches many gap s)
    (passes : Passes many gap) (blank : ∀ c ∈ blanks, isSpace c = true) {closing : Char}
    (ends : ∀ place : NumberPlace, place.next? closing = none) :
    (blanks ++ [closing]).foldlM (step many) s = gap.step many closing := by
  -- The first blank ends a number that is still open; from there on the gap itself is left.
  induction blanks generalizing s with
  | nil =>
    rw [List.nil_append, List.foldlM_cons, reaches closing ends]
    exact bind_pure _
  | cons c blanks ih =>
    obtain ⟨space, blank⟩ := List.forall_mem_cons.mp blank
    rw [List.cons_append, List.foldlM_cons, reaches c (next?_eq_none_of_isSpace space), passes c space]
    exact ih (fun _ _ => rfl) blank

theorem opens_firstItem (outer : Context) : Opens many (.firstItem outer) (.item [] outer) where
  blank space := by simp [Gap.step, space]
  start space closing := by simp [Gap.step, space, closing]

theorem opens_value (context : Context) : Opens many (.value context) context where
  blank space := by simp [Gap.step, space]
  start space _ := by simp [Gap.step, space]

def AwaitsItem (many : Bool) (outer : Context) (items : List Json) (s : State) : Prop :=
  ∃ opening, s = .gap opening ∧ Opens many opening (.item items outer)

theorem exists_foldlM_items {parts : List Text} {items : List Json} {outer : Context}
    (read : List.Forall₂ (fun part d => ReadsAs part d room) parts items) (nonempty : parts ≠ [])
    (fits : room + 1 + outer.depth ≤ maxDepth) :
    ∃ s, (List.intercalate [','] parts).foldlM (step many) (.gap (.firstItem outer)) = some s ∧
      Reaches many (.afterItem items.reverse outer) s := by
  have separates (gathered : List Json) (s : State) (done : Reaches many (.afterItem gathered outer) s) :
      ∃ t, step many s ',' = some t ∧ AwaitsItem many outer gathered t :=
    ⟨_, done ',' next?_comma, _, rfl, opens_value _⟩
  have each : List.Forall₂ (fun part d => ∀ gathered s, AwaitsItem many outer gathered s →
      ∃ t, part.foldlM (step many) s = some t ∧
        Reaches many (.afterItem (d :: gathered) outer) t) parts items := by
    refine read.imp fun part d read gathered s awaits => ?_
    rcases awaits with ⟨opening, rfl, opens⟩
    have within : room + (Context.item gathered outer).depth ≤ maxDepth := by
      rw [Context.depth]
      omega
    obtain ⟨t, reached, settled⟩ := read many opening _ opens within
    exact ⟨t, reached, settled.reaches fun _ => rfl⟩
  -- The reader gathers the items last first.
  have ready : AwaitsItem many outer [] (.gap (.firstItem outer)) := ⟨_, rfl, opens_firstItem outer⟩
  obtain ⟨s, reached, done⟩ := exists_foldlM_intercalate (AwaitsItem many outer)
    (fun gathered => Reaches many (.afterItem gathered outer)) (fun gathered d => d :: gathered)
    separates each nonempty ready
  rw [List.foldl_flip_cons_eq_append', List.append_nil] at done
  exact ⟨s, reached, done⟩

theorem foldlM_enclosed {bracket closing : Char} {first last : Gap} {parts : Text} {s t : State}
    (bracketed : step many (.gap opening) bracket = some (.gap first))
    (inside : parts.foldlM (step many) (.gap first) = some s) (reaches : Reaches many last s)
    (passes : Passes many last) (blank : ∀ c ∈ blanks, isSpace c = true)
    (ends : isMark closing = true) (closed : last.step many closing = some t) :
    (bracket :: parts ++ blanks ++ [closing]).foldlM (step many) (.gap opening) = some t := by
  rw [List.append_assoc, List.cons_append, List.foldlM_cons, bracketed]
  show (parts ++ (blanks ++ [closing])).foldlM (step many) (.gap first) = some t
  rw [List.foldlM_append, inside]
  show (blanks ++ [closing]).foldlM (step many) s = some t
  rw [reaches.foldlM_closing passes blank (next?_of_isMark ends), closed]

theorem readsAs_array {parts : List Text} {items : List Json}
    (read : List.Forall₂ (fun part d => ReadsAs part d room) parts items)
    (blank : ∀ c ∈ blanks, isSpace c = true) :
    ReadsAs ('[' :: List.intercalate [','] parts ++ blanks ++ [']']) (.array items) (room + 1) := by
  intro many opening base opens fits
  have bracketed := opens.step_eq (.array (by omega))
  refine ⟨.gap (deliver base (.array items) false), ?_, .inl ⟨false, rfl⟩⟩
  -- An empty array closes in the gap where its first item was awaited.
  cases parts with
  | nil =>
    cases read
    exact foldlM_enclosed bracketed rfl (fun _ _ => rfl) (opens_firstItem base).passes blank rfl rfl
  | cons part parts =>
    obtain ⟨s, reached, reaches⟩ := exists_foldlM_items read (List.cons_ne_nil _ _) fits
    have passes : Passes many (.afterItem items.reverse base) := fun c space => by simp [Gap.step, space]
    have closed : (Gap.afterItem items.reverse base).step many ']' =
        some (.gap (deliver base (.array items.reverse.reverse) false)) := rfl
    rw [List.reverse_reverse] at closed
    exact foldlM_enclosed bracketed reached reaches passes blank rfl closed

structure OpensKey (many : Bool) (opening : Gap) (members : List (Text × Json)) (outer : Context) :
    Prop where
  passes : Passes many opening
  quote : opening.step many '"' = some (.string [] .plain (.key members outer))

theorem opensKey_firstKey (outer : Context) : OpensKey many (.firstKey outer) [] outer where
  passes c space := by simp [Gap.step, space]
  quote := rfl

theorem opensKey_key (members : List (Text × Json)) (outer : Context) :
    OpensKey many (.key members outer) members outer where
  passes c space := by simp [Gap.step, space]
  quote := rfl

def AwaitsMember (many : Bool) (outer : Context) (members : List (Text × Json)) (s : State) : Prop :=
  ∃ opening, s = .gap opening ∧ OpensKey many opening members outer

def MemberReadsAs (part : Text) (member : Text × Json) (room : Nat) : Prop :=
  ∃ front body, (∀ c ∈ front, isSpace c = true) ∧ part = front ++ (quote member.1 ++ ':' :: body) ∧
    ReadsAs body member.2 room

theorem MemberReadsAs.exists_foldlM {part : Text} {member : Text × Json} {members : List (Text × Json)}
    {outer : Context} (read : MemberReadsAs part member room)
    (opens : OpensKey many opening members outer) (fits : room + 1 + outer.depth ≤ maxDepth) :
    ∃ s, part.foldlM (step many) (.gap opening) = some s ∧
      Settled (.member members member.1 outer) member.2 s := by
  obtain ⟨front, body, blank, rfl, read⟩ := read
  have within : room + (Context.member members member.1 outer).depth ≤ maxDepth := by
    rw [Context.depth]
    omega
  obtain ⟨s, reached, settled⟩ := read many (.value _) _ (opens_value _) within
  refine ⟨s, ?_, settled⟩
  rw [List.foldlM_append, opens.passes.foldlM_blanks blank]
  show (quote member.1 ++ ':' :: body).foldlM (step many) (.gap opening) = some s
  have quoted : (quote member.1).foldlM (step many) (.gap opening) =
      some (.gap (.colon members member.1 outer)) := by
    have mark : step many (.gap opening) '"' = some (.string [] .plain (.key members outer)) := opens.quote
    rw [quote, List.cons_append, List.foldlM_cons, mark]
    exact foldlM_quoted many _ member.1
  rw [List.foldlM_append, quoted]
  exact reached

theorem exists_foldlM_members {parts : List Text} {members : List (Text × Json)} {outer : Context}
    (read : List.Forall₂ (fun part member => MemberReadsAs part member room) parts members)
    (increasing : Document.Increasing members) (nonempty : parts ≠ [])
    (fits : room + 1 + outer.depth ≤ maxDepth) :
    ∃ s, (List.intercalate [','] parts).foldlM (step many) (.gap (.firstKey outer)) = some s ∧
      Reaches many (.afterMember members outer) s := by
  have separates (gathered : List (Text × Json)) (s : State)
      (done : Reaches many (.afterMember gathered outer) s) :
      ∃ t, step many s ',' = some t ∧ AwaitsMember many outer gathered t :=
    ⟨_, done ',' next?_comma, _, rfl, opensKey_key _ _⟩
  have each : List.Forall₂ (fun part member => ∀ gathered s, AwaitsMember many outer gathered s →
      ∃ t, part.foldlM (step many) s = some t ∧
        Reaches many (.afterMember (Document.insertMember member.1 member.2 gathered) outer) t)
      parts members := by
    refine read.imp fun part member read gathered s awaits => ?_
    rcases awaits with ⟨opening, rfl, opens⟩
    obtain ⟨t, reached, settled⟩ := read.exists_foldlM opens fits
    exact ⟨t, reached, settled.reaches fun _ => rfl⟩
  -- Keys that increase are set in the order in which they are read.
  have ready : AwaitsMember many outer [] (.gap (.firstKey outer)) := ⟨_, rfl, opensKey_firstKey outer⟩
  obtain ⟨s, reached, done⟩ := exists_foldlM_intercalate (AwaitsMember many outer)
    (fun gathered => Reaches many (.afterMember gathered outer))
    (fun gathered (member : Text × Json) => Document.insertMember member.1 member.2 gathered)
    separates each nonempty ready
  rw [Document.foldl_insertMember [] increasing] at done
  exact ⟨s, reached, done⟩

theorem readsAs_object {parts : List Text} {members : List (Text × Json)}
    (read : List.Forall₂ (fun part member => MemberReadsAs part member room) parts members)
    (increasing : Document.Increasing members) (blank : ∀ c ∈ blanks, isSpace c = true) :
    ReadsAs ('\x7b' :: List.intercalate [','] parts ++ blanks ++ ['\x7d']) (.object members)
      (room + 1) := by
  intro many opening base opens fits
  have bracketed := opens.step_eq (.object (by omega))
  refine ⟨.gap (deliver base (.object members) false), ?_, .inl ⟨false, rfl⟩⟩
  cases parts with
  | nil =>
    cases read
    exact foldlM_enclosed bracketed rfl (fun _ _ => rfl) (opensKey_firstKey base).passes blank rfl rfl
  | cons part parts =>
    obtain ⟨s, reached, reaches⟩ := exists_foldlM_members read increasing (List.cons_ne_nil _ _) fits
    have passes : Passes many (.afterMember members base) := fun c space => by simp [Gap.step, space]
    exact foldlM_enclosed bracketed reached reaches passes blank rfl rfl

end RecordFilter.Json.Reader
