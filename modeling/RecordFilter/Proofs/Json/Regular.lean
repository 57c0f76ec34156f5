import RecordFilter.Proofs.Document.Regular
import RecordFilter.Proofs.Json.Steps

/-! What a reader holds is regular at every step: the members of an open object are in order, and a
document fits into the room that the containers around it leave. So is what is read in the end. -/

namespace RecordFilter.Json.Reader

open Document (Regular Increasing)

def Gap.context : Gap → Context
  | between documents _ => .stream documents
  | value context => context
  | firstItem outer => .item [] outer
  | afterItem items outer => .item items outer
  | firstKey outer => .member [] [] outer
  | key members outer => .member members [] outer
  | colon members name outer => .member members name outer
  | afterMember members outer => .member members [] outer

def Slot.context : Slot → Context
  | value context => context
  | key members outer => .member members [] outer

def State.context : State → Context
  | gap g => g.context
  | string _ _ slot => slot.context
  | number _ _ context | word _ _ context => context

def Context.room (context : Context) : Nat := maxDepth - context.depth

def Context.Orderly : Context → Prop
  | stream documents => ∀ d ∈ documents, Regular maxDepth d
  | item items outer =>
    outer.depth < maxDepth ∧ (∀ d ∈ items, Regular (item items outer).room d) ∧ outer.Orderly
  | member members key outer =>
    outer.depth < maxDepth ∧ Increasing members ∧
      (∀ m ∈ members, Regular (member members key outer).room m.2) ∧ outer.Orderly

def State.Orderly : State → Prop
  | word _ meaning context => (∀ room, Regular room meaning) ∧ context.Orderly
  | s => s.context.Orderly

theorem Context.room_succ {outer : Context} (below : outer.depth < maxDepth) :
    maxDepth - (outer.depth + 1) + 1 = outer.room := by
  rw [room]
  omega

theorem orderly_deliver {context : Context} (orderly : context.Orderly) {d : Json}
    (regular : Regular context.room d) (glued : Bool) :
    (deliver context d glued).context.Orderly := by
  cases context with
  | stream documents => exact List.forall_mem_cons.mpr ⟨regular, orderly⟩
  | item items outer =>
    obtain ⟨below, parts, outer⟩ := orderly
    exact ⟨below, List.forall_mem_cons.mpr ⟨regular, parts⟩, outer⟩
  | member members key outer =>
    obtain ⟨below, increasing, parts, outer⟩ := orderly
    refine ⟨below, increasing.insertMember key d, fun m inside => ?_, outer⟩
    obtain rfl | inside := Document.mem_insertMember inside
    · exact regular
    · exact parts m inside

theorem orderly_array {items : List Json} {outer : Context}
    (orderly : (Context.item items outer).Orderly) : Regular outer.room (.array items.reverse) := by
  obtain ⟨below, parts, -⟩ := orderly
  rw [← Context.room_succ below]
  exact .array fun d inside => parts d (List.mem_reverse.mp inside)

theorem orderly_object {members : List (Text × Json)} {key : Text} {outer : Context}
    (orderly : (Context.member members key outer).Orderly) : Regular outer.room (.object members) := by
  obtain ⟨below, increasing, parts, -⟩ := orderly
  rw [← Context.room_succ below]
  exact .object increasing parts

theorem Starts.orderly {context : Context} {c : Char} {s : State} (h : Starts context c s)
    (orderly : context.Orderly) : s.Orderly := by
  cases h with
  | array below => exact ⟨below, fun _ => nofun, orderly⟩
  | object below => exact ⟨below, .nil, fun _ => nofun, orderly⟩
  | yes | no => exact ⟨fun _ => .boolean _, orderly⟩
  | null => exact ⟨fun _ => .null, orderly⟩
  | _ => exact orderly

theorem Gap.Steps.orderly {many : Bool} {g : Gap} {c : Char} {s : State} (h : Gap.Steps many g c s)
    (orderly : g.context.Orderly) : s.Orderly := by
  cases h with
  | blank space => cases g <;> exact orderly
  | document _ _ started | value started | item started => exact started.orderly orderly
  -- A closing bracket delivers what has been gathered to the container around it.
  | noItems | items => exact orderly_deliver orderly.2.2 (orderly_array orderly) false
  | noMembers | members => exact orderly_deliver orderly.2.2.2 (orderly_object orderly) false
  | _ => exact orderly

theorem orderly_close {slot : Slot} (orderly : slot.context.Orderly) (text : Text) :
    (slot.close text).context.Orderly := by
  cases slot with
  | value context => exact orderly_deliver orderly (.string text) false
  | key members outer => exact orderly

theorem StringSteps.orderly {read : Text} {place : StringPlace} {slot : Slot} {c : Char} {s : State}
    (h : StringSteps read slot place c s) (orderly : slot.context.Orderly) : s.Orderly := by
  cases h with
  | close => exact orderly_close orderly _
  | lastDigit enough value accepted =>
    obtain ⟨after, next, rfl, -⟩ := exists_acceptUnit_eq accepted
    exact orderly
  | _ => exact orderly

theorem Steps.orderly {many : Bool} {s t : State} {c : Char} (h : Steps many s c t)
    (orderly : s.Orderly) : t.Orderly := by
  cases h with
  | gap moved => exact moved.orderly orderly
  | string moved => exact moved.orderly orderly
  | numeral goes => exact orderly
  | number ends complete value moved => exact moved.orderly (orderly_deliver orderly (.number _) true)
  | letter => exact orderly
  | lastLetter =>
    obtain ⟨flat, orderly⟩ := orderly
    exact orderly_deliver orderly (flat _) true

theorem foldlM_step_orderly {many : Bool} {text : Text} {s t : State}
    (h : text.foldlM (step many) s = some t) (orderly : s.Orderly) : t.Orderly := by
  induction text generalizing s with
  | nil =>
    cases h
    exact orderly
  | cons c text ih =>
    rw [List.foldlM_cons] at h
    obtain ⟨next, first, rest⟩ := Option.bind_eq_some_iff.mp h
    exact ih rest ((steps_of_step first).orderly orderly)

theorem regular_of_finish {s : State} {documents : List Json} (h : finish s = .ok documents)
    (orderly : s.Orderly) : ∀ d ∈ documents, Regular maxDepth d := by
  cases s with
  | gap g =>
    cases g with
    | between read glued =>
      cases h
      exact fun d inside => orderly d (List.mem_reverse.mp inside)
    | _ => cases h
  | string read place slot => cases h
  | word rest meaning context => cases h
  | number read place context =>
    simp only [finish] at h
    split at h
    · split at h
      · cases h
        refine fun d inside => ?_
        obtain rfl | inside := List.mem_cons.mp (List.mem_reverse.mp inside)
        · exact .number _
        · exact orderly d inside
      · cases h
      · cases h
    · cases h

end Reader

theorem regular_of_parseStream {text : Text} {documents : List Json}
    (h : parseStream text = .ok documents) :
    ∀ d ∈ documents, Document.Regular Reader.maxDepth d := by
  unfold parseStream Reader.run at h
  split at h
  · rename_i s reached
    exact Reader.regular_of_finish h (Reader.foldlM_step_orderly reached fun _ => nofun)
  · cases h

end RecordFilter.Json
