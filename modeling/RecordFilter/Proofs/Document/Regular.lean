import RecordFilter.Document

/-! Regular documents: the keys of every object increase, and arrays and objects nest no deeper than a
given number. Setting a member keeps the keys in order. -/

namespace RecordFilter.Document

variable {ν α : Type}

def Increasing (members : List (Text × α)) : Prop :=
  members.Pairwise fun first second => compare first.1 second.1 = .lt

/-- Documents with room for so many arrays and objects inside one another. -/
inductive Regular : Nat → Document ν → Prop where
  | null {room : Nat} : Regular room null
  | boolean {room : Nat} (b : Bool) : Regular room (boolean b)
  | number {room : Nat} (n : ν) : Regular room (number n)
  | string {room : Nat} (text : Text) : Regular room (string text)
  | array {room : Nat} {items : List (Document ν)} (parts : ∀ item ∈ items, Regular room item) :
      Regular (room + 1) (array items)
  | object {room : Nat} {members : List (Text × Document ν)} (increasing : Increasing members)
      (parts : ∀ member ∈ members, Regular room member.2) : Regular (room + 1) (object members)

theorem mem_insertMember {key : Text} {value : α} {members : List (Text × α)} {member : Text × α}
    (h : member ∈ insertMember key value members) : member = (key, value) ∨ member ∈ members := by
  induction members with
  | nil => exact .inl (List.mem_singleton.mp h)
  | cons first members ih =>
    obtain ⟨k, v⟩ := first
    rw [insertMember] at h
    split at h
    · exact List.mem_cons.mp h
    · exact (List.mem_cons.mp h).imp_right (List.mem_cons_of_mem _)
    · obtain rfl | h := List.mem_cons.mp h
      · exact .inr List.mem_cons_self
      · exact (ih h).imp_right (List.mem_cons_of_mem _)

theorem Increasing.insertMember {members : List (Text × α)} (h : Increasing members) (key : Text)
    (value : α) : Increasing (insertMember key value members) := by
  induction members with
  | nil => exact List.pairwise_singleton _ _
  | cons first members ih =>
    obtain ⟨k, v⟩ := first
    obtain ⟨least, rest⟩ := List.pairwise_cons.mp h
    rw [Document.insertMember]
    split
    · rename_i less
      refine List.pairwise_cons.mpr ⟨List.forall_mem_cons.mpr ⟨less, fun member inside => ?_⟩, h⟩
      exact Std.TransCmp.lt_trans less (least member inside)
    · rename_i same
      obtain rfl := Std.LawfulEqCmp.eq_of_compare same
      exact List.pairwise_cons.mpr ⟨least, rest⟩
    · rename_i greater
      refine List.pairwise_cons.mpr ⟨fun member inside => ?_, ih rest⟩
      obtain rfl | inside := mem_insertMember inside
      · exact Std.OrientedCmp.lt_of_gt greater
      · exact least member inside

theorem insertMember_of_greatest {key : Text} {members : List (Text × α)}
    (greatest : ∀ member ∈ members, compare member.1 key = .lt) (value : α) :
    insertMember key value members = members ++ [(key, value)] := by
  induction members with
  | nil => rfl
  | cons first members ih =>
    obtain ⟨k, v⟩ := first
    obtain ⟨less, rest⟩ := List.forall_mem_cons.mp greatest
    rw [insertMember, Std.OrientedCmp.gt_of_lt less, ih rest, List.cons_append]

theorem foldl_insertMember (before : List (Text × α)) {members : List (Text × α)}
    (h : Increasing (before ++ members)) :
    members.foldl (fun sorted member => insertMember member.1 member.2 sorted) before =
      before ++ members := by
  induction members generalizing before with
  | nil => exact (List.append_nil before).symm
  | cons member members ih =>
    obtain ⟨key, value⟩ := member
    have greatest : ∀ earlier ∈ before, compare earlier.1 key = .lt := fun earlier inside =>
      (List.pairwise_append.mp h).2.2 earlier inside (key, value) List.mem_cons_self
    rw [List.append_cons] at h ⊢
    rw [List.foldl_cons, insertMember_of_greatest greatest]
    exact ih _ h

theorem regular_array_filter {room : Nat} {items : List (Document ν)} (h : Regular room (array items))
    (test : Document ν → Bool) : Regular room (array (items.filter test)) := by
  cases h with
  | array parts => exact .array fun item member => parts item (List.mem_filter.mp member).1

end RecordFilter.Document
