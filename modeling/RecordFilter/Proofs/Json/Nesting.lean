import RecordFilter.Proofs.Json.Steps

/-! How deep a JSON text nests, by its brackets alone. Where a text is read to its end, the reader has
as many containers open as the brackets say, those of repeated keys included. -/

namespace RecordFilter.Json

inductive Quoting where
  | outside
  | inside
  | escaped
  deriving DecidableEq

namespace Quoting

def next : Quoting → Char → Quoting
  | outside, c => if c == '"' then inside else outside
  | inside, c => if c == '"' then outside else if c == '\\' then escaped else inside
  | escaped, _ => inside

def count (quoting : Quoting) (depth : Nat) (c : Char) : Nat :=
  match quoting with
  | outside =>
    if c == '[' || c == '\x7b' then depth + 1
    else if c == ']' || c == '\x7d' then depth - 1
    else depth
  | _ => depth

def mostOpen (quoting : Quoting) (depth : Nat) : Text → Nat
  | [] => depth
  | c :: text => max depth (mostOpen (quoting.next c) (quoting.count depth c) text)

theorem le_mostOpen (quoting : Quoting) (depth : Nat) (text : Text) :
    depth ≤ quoting.mostOpen depth text := by
  cases text with
  | nil => exact Nat.le_refl _
  | cons c text => exact Nat.le_max_left _ _

end Quoting

/-- The most arrays and objects that are open at once in a text. Brackets in strings do not count. -/
def nesting (text : Text) : Nat := Quoting.outside.mostOpen 0 text

namespace Reader

def Gap.depth : Gap → Nat
  | between _ _ => 0
  | value context => context.depth
  | firstItem outer | afterItem _ outer | firstKey outer | key _ outer | colon _ _ outer
  | afterMember _ outer => outer.depth + 1

def Slot.depth : Slot → Nat
  | value context => context.depth
  | key _ outer => outer.depth + 1

def State.depth : State → Nat
  | gap g => g.depth
  | string _ _ slot => slot.depth
  | number _ _ context | word _ _ context => context.depth

def StringPlace.quoting : StringPlace → Quoting
  | escape | partnerMark _ => .escaped
  | _ => .inside

def State.quoting : State → Quoting
  | string _ place _ => place.quoting
  | _ => .outside

def isMark (c : Char) : Bool := c == '"' || c == '[' || c == ']' || c == '\x7b' || c == '\x7d'

def State.Sound : State → Prop
  | string _ (.hex digits _) _ => ∀ c ∈ digits, (hexValue? c).isSome
  | word rest _ _ => ∀ c ∈ rest, isMark c = false
  | _ => True

def State.Tracks (s t : State) (c : Char) : Prop :=
  t.quoting = s.quoting.next c ∧ t.depth = s.quoting.count s.depth c

theorem next_outside {c : Char} (h : isMark c = false) : Quoting.outside.next c = .outside := by
  simp_all [isMark, Quoting.next]

theorem count_outside {c : Char} (h : isMark c = false) (depth : Nat) :
    Quoting.outside.count depth c = depth := by
  simp_all [isMark, Quoting.count]

theorem isMark_of_isSpace {c : Char} (h : isSpace c = true) : isMark c = false := by
  simp only [isSpace, Bool.or_eq_true, beq_iff_eq] at h
  obtain ((rfl | rfl) | rfl) | rfl := h <;> rfl

theorem not_isDigit_of_isMark {c : Char} (h : isMark c = true) : Text.isDigit c = false := by
  simp only [isMark, Bool.or_eq_true, beq_iff_eq] at h
  obtain (((rfl | rfl) | rfl) | rfl) | rfl := h <;> rfl

theorem next?_of_isMark {c : Char} (h : isMark c = true) (place : NumberPlace) :
    place.next? c = none := by
  simp only [isMark, Bool.or_eq_true, beq_iff_eq] at h
  obtain (((rfl | rfl) | rfl) | rfl) | rfl := h <;> cases place <;> rfl

theorem depth_deliver (context : Context) (d : Json) (glued : Bool) :
    (deliver context d glued).depth = context.depth := by
  cases context <;> rfl

theorem isMark_of_isDigit {c : Char} (h : Text.isDigit c = true) : isMark c = false := by
  rw [← Bool.not_eq_true]
  intro mark
  rw [not_isDigit_of_isMark mark] at h
  cases h

theorem Starts.tracks {context : Context} {c : Char} {t : State} (h : Starts context c t) :
    t.quoting = Quoting.outside.next c ∧ t.depth = Quoting.outside.count context.depth c ∧ t.Sound := by
  cases h with
  | digit digit nonzero =>
    have plain := isMark_of_isDigit digit
    exact ⟨(next_outside plain).symm, (count_outside plain _).symm, trivial⟩
  | yes | no | null =>
    -- What is left to read of a word holds no mark.
    exact ⟨rfl, rfl, by simp [State.Sound, isMark]⟩
  | _ => exact ⟨rfl, rfl, trivial⟩

theorem Gap.Steps.tracks {many : Bool} {g : Gap} {c : Char} {t : State} (h : Gap.Steps many g c t) :
    (State.gap g).Tracks t c ∧ t.Sound := by
  cases h with
  | blank space =>
    have plain := isMark_of_isSpace space
    have rests : g.rested.depth = g.depth := by cases g <;> rfl
    exact ⟨⟨(next_outside plain).symm, rests.trans (count_outside plain _).symm⟩, trivial⟩
  | document _ _ started | value started | item started =>
    obtain ⟨quoting, depth, sound⟩ := started.tracks
    exact ⟨⟨quoting, depth⟩, sound⟩
  | noItems | items | noMembers | members => exact ⟨⟨rfl, depth_deliver _ _ _⟩, trivial⟩
  | _ => exact ⟨⟨rfl, rfl⟩, trivial⟩

/-- A string in which something else was taken for a hexadecimal digit. The reader goes on, but never
to the end of a document. -/
def State.Lost : State → Prop
  | string _ (.hex digits _) _ => ∃ c ∈ digits, hexValue? c = none
  | _ => False

theorem isSome_hexValue?_of_codeUnit? {digits : Text} {unit : Nat} (h : codeUnit? digits = some unit) :
    ∀ c ∈ digits, (hexValue? c).isSome := by
  have all {digits : Text} {first last : Nat}
      (h : digits.foldlM (fun unit c => (hexValue? c).map fun value => 16 * unit + value) first =
        some last) : ∀ c ∈ digits, (hexValue? c).isSome := by
    induction digits generalizing first with
    | nil => nofun
    | cons digit digits ih =>
      rw [List.foldlM_cons] at h
      obtain ⟨unit, head, tail⟩ := Option.bind_eq_some_iff.mp h
      obtain ⟨value, read, -⟩ := Option.map_eq_some_iff.mp head
      exact List.forall_mem_cons.mpr ⟨read ▸ rfl, ih tail⟩
  unfold codeUnit? at h
  split at h
  · exact all h
  · cases h

theorem State.Lost.step {many : Bool} {s t : State} {c : Char} (lost : s.Lost)
    (h : Steps many s c t) : t.Lost := by
  cases h with
  | string moved =>
    cases moved with
    | digit few =>
      obtain ⟨bad, member, wrong⟩ := lost
      exact ⟨bad, List.mem_append_left _ member, wrong⟩
    | lastDigit enough value accepted =>
      obtain ⟨bad, member, wrong⟩ := lost
      have right := isSome_hexValue?_of_codeUnit? value bad (List.mem_append_left _ member)
      rw [wrong] at right
      cases right
    | _ => cases lost
  | _ => cases lost

theorem State.Lost.not_finish {many : Bool} {s t : State} {text : Text} {documents : List Json}
    (lost : s.Lost) (h : text.foldlM (Reader.step many) s = some t) :
    finish t ≠ .ok documents := by
  induction text generalizing s with
  | nil =>
    cases h
    cases t with
    | string read place slot => nofun
    | _ => cases lost
  | cons c text ih =>
    rw [List.foldlM_cons] at h
    obtain ⟨next, first, rest⟩ := Option.bind_eq_some_iff.mp h
    exact ih (lost.step (steps_of_step first)) rest

theorem depth_close (slot : Slot) (text : Text) : (slot.close text).depth = slot.depth := by
  cases slot with
  | value context => exact depth_deliver context _ _
  | key members outer => rfl

theorem next_inside_of_isSome {c : Char} (h : (hexValue? c).isSome) :
    Quoting.inside.next c = .inside := by
  have quote : c ≠ '"' := by
    rintro rfl
    cases h
  have backslash : c ≠ '\\' := by
    rintro rfl
    cases h
  simp [Quoting.next, quote, backslash]

theorem StringSteps.tracks {read : Text} {place : StringPlace} {slot : Slot} {c : Char} {t : State}
    (sound : (State.string read place slot).Sound) (h : StringSteps read slot place c t) :
    t.Lost ∨ (State.string read place slot).Tracks t c ∧ t.Sound := by
  cases h with
  | close => exact .inr ⟨⟨rfl, depth_close _ _⟩, trivial⟩
  | plain mark slash above =>
    refine .inr ⟨⟨?_, rfl⟩, trivial⟩
    show StringPlace.plain.quoting = Quoting.inside.next c
    simp [Quoting.next, mark, slash, StringPlace.quoting]
  | codeUnit | partnerMark => exact .inr ⟨⟨rfl, rfl⟩, nofun⟩
  | escape | letter mark known | partnerEscape => exact .inr ⟨⟨rfl, rfl⟩, trivial⟩
  | digit few =>
    cases value : hexValue? c with
    | none => exact .inl ⟨c, List.mem_append_right _ (List.mem_singleton_self c), value⟩
    | some value' =>
      have hexadecimal : (hexValue? c).isSome := by rw [value]; rfl
      refine .inr ⟨⟨(next_inside_of_isSome hexadecimal).symm, rfl⟩, ?_⟩
      exact List.forall_mem_append.mpr ⟨sound, List.forall_mem_singleton.mpr hexadecimal⟩
  | lastDigit enough value accepted =>
    have hexadecimal := isSome_hexValue?_of_codeUnit? value c
      (List.mem_append_right _ (List.mem_singleton_self c))
    have inside := (next_inside_of_isSome hexadecimal).symm
    obtain ⟨after, next, rfl, rfl | ⟨high, rfl⟩, -⟩ := exists_acceptUnit_eq accepted
    · exact .inr ⟨⟨inside, rfl⟩, trivial⟩
    · exact .inr ⟨⟨inside, rfl⟩, trivial⟩

theorem Steps.tracks {many : Bool} {s t : State} {c : Char} (sound : s.Sound)
    (h : Steps many s c t) : t.Lost ∨ s.Tracks t c ∧ t.Sound := by
  cases h with
  | gap moved => exact .inr moved.tracks
  | string moved => exact moved.tracks sound
  | @numeral read place _ _ _ goes =>
    have plain : isMark c = false := by
      rw [← Bool.not_eq_true]
      intro mark
      rw [next?_of_isMark mark] at goes
      cases goes
    exact .inr ⟨⟨(next_outside plain).symm, (count_outside plain _).symm⟩, trivial⟩
  | number ends complete value moved =>
    obtain ⟨⟨quoting, depth⟩, sound⟩ := moved.tracks
    rw [State.depth, depth_deliver] at depth
    exact .inr ⟨⟨quoting, depth⟩, sound⟩
  | letter =>
    obtain ⟨plain, later⟩ := List.forall_mem_cons.mp sound
    exact .inr ⟨⟨(next_outside plain).symm, (count_outside plain _).symm⟩, later⟩
  | lastLetter =>
    have plain := List.forall_mem_singleton.mp sound
    refine .inr ⟨⟨(next_outside plain).symm, ?_⟩, trivial⟩
    exact (depth_deliver _ _ _).trans (count_outside plain _).symm

end Reader
end RecordFilter.Json
