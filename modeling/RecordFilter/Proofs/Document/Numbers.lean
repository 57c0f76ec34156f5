import Mathlib.Data.List.Forall2
import RecordFilter.Document

/-! The numbers in a document, and what replacing them leaves alone. -/

namespace RecordFilter.Document

variable {ν μ α : Type}

@[elab_as_elim]
theorem induct {motive : Document ν → Prop} (null : motive null)
    (boolean : ∀ b, motive (boolean b)) (number : ∀ n, motive (number n))
    (string : ∀ text, motive (string text))
    (array : ∀ items, (∀ item ∈ items, motive item) → motive (array items))
    (object : ∀ members, (∀ member ∈ members, motive member.2) → motive (object members))
    (d : Document ν) : motive d :=
  match d with
  | .null => null
  | .boolean b => boolean b
  | .number n => number n
  | .string text => string text
  | .array items =>
    array items fun item _ => induct null boolean number string array object item
  | .object members =>
    object members fun member _ => induct null boolean number string array object member.2
  termination_by d
  decreasing_by
    · have smaller := List.sizeOf_lt_of_mem ‹item ∈ items›
      simp only [Document.array.sizeOf_spec]
      omega
    · have smaller := List.sizeOf_lt_of_mem ‹member ∈ members›
      obtain ⟨key, value⟩ := member
      simp only [Prod.mk.sizeOf_spec] at smaller
      simp only [Document.object.sizeOf_spec]
      omega

def numbers : Document ν → List ν :=
  fold ⟨[], fun _ => [], fun n => [n], fun _ => [], List.flatten,
    fun members => (members.map Prod.snd).flatten⟩

theorem numbers_array (items : List (Document ν)) :
    (array items).numbers = items.flatMap numbers := by
  rw [numbers, fold_array, List.flatMap]

theorem numbers_object (members : List (Text × Document ν)) :
    (object members).numbers = members.flatMap fun (_, value) => value.numbers := by
  rw [numbers, fold_object, List.flatMap]
  exact congrArg List.flatten List.map_map

theorem replaceNumbers_array (f : ν → Document μ) (items : List (Document ν)) :
    replaceNumbers f (array items) = array (items.map (replaceNumbers f)) :=
  fold_array _ items

theorem replaceNumbers_object (f : ν → Document μ) (members : List (Text × Document ν)) :
    replaceNumbers f (object members) =
      object (members.map fun (key, value) => (key, replaceNumbers f value)) :=
  fold_object _ members

theorem replaceNumbers_congr {f g : ν → Document μ} {d : Document ν}
    (h : ∀ n ∈ d.numbers, f n = g n) : replaceNumbers f d = replaceNumbers g d := by
  induction d using induct with
  | null => rfl
  | boolean b => rfl
  | number n => exact h n (List.mem_singleton_self n)
  | string text => rfl
  | array items ih =>
    rw [numbers_array] at h
    rw [replaceNumbers_array, replaceNumbers_array]
    refine congrArg array (List.map_congr_left fun item member => ih item member fun n inside => ?_)
    exact h n (List.mem_flatMap.mpr ⟨item, member, inside⟩)
  | object members ih =>
    rw [numbers_object] at h
    rw [replaceNumbers_object, replaceNumbers_object]
    refine congrArg object (List.map_congr_left fun member inside => ?_)
    refine congrArg (Prod.mk member.1) (ih member inside fun n within => ?_)
    exact h n (List.mem_flatMap.mpr ⟨member, inside, within⟩)

theorem replaceNumbers_number (d : Document ν) : replaceNumbers number d = d := by
  induction d using induct with
  | null => rfl
  | boolean b => rfl
  | number n => rfl
  | string text => rfl
  | array items ih =>
    rw [replaceNumbers_array, List.map_congr_left ih, List.map_id']
  | object members ih =>
    have same : members.map (fun (key, value) => (key, replaceNumbers number value)) = members := by
      refine (List.map_congr_left fun member inside => ?_).trans (List.map_id' members)
      exact congrArg (Prod.mk member.1) (ih member inside)
    rw [replaceNumbers_object, same]

theorem replaceNumbers_eq_self_iff {f : ν → Document ν} {d : Document ν} :
    replaceNumbers f d = d ↔ ∀ n ∈ d.numbers, f n = number n := by
  refine ⟨fun same => ?_, fun kept => (replaceNumbers_congr kept).trans (replaceNumbers_number d)⟩
  induction d using induct with
  | null | boolean | string => exact fun n inside => absurd inside List.not_mem_nil
  | number n => exact List.forall_mem_singleton.mpr same
  | array items ih =>
    rw [replaceNumbers_array] at same
    intro n inside
    rw [numbers_array] at inside
    obtain ⟨item, member, inside⟩ := List.mem_flatMap.mp inside
    have parts := List.map_inj_left.mp ((array.inj same).trans (List.map_id items).symm)
    exact ih item member (parts item member) n inside
  | object members ih =>
    rw [replaceNumbers_object] at same
    intro n inside
    rw [numbers_object] at inside
    obtain ⟨member, belongs, inside⟩ := List.mem_flatMap.mp inside
    have parts := List.map_inj_left.mp ((object.inj same).trans (List.map_id members).symm)
    exact ih member belongs (Prod.mk.inj (parts member belongs)).2 n inside

/-- The second document is the first one with another document in the place of every number, related to
the number as given; all else is the same. -/
inductive Replaced (R : ν → Document μ → Prop) : Document ν → Document μ → Prop where
  | null : Replaced R null null
  | boolean (b : Bool) : Replaced R (boolean b) (boolean b)
  | number {n : ν} {d : Document μ} (related : R n d) : Replaced R (number n) d
  | string (text : Text) : Replaced R (string text) (string text)
  | array {items : List (Document ν)} {others : List (Document μ)}
      (parts : List.Forall₂ (Replaced R) items others) : Replaced R (array items) (array others)
  | object {members : List (Text × Document ν)} {others : List (Text × Document μ)}
      (keys : members.map Prod.fst = others.map Prod.fst)
      (parts : List.Forall₂ (Replaced R) (members.map Prod.snd) (others.map Prod.snd)) :
      Replaced R (object members) (object others)

theorem replaced_replaceNumbers {R : ν → Document μ → Prop} {f : ν → Document μ}
    (related : ∀ n, R n (f n)) (d : Document ν) : Replaced R d (replaceNumbers f d) := by
  induction d using induct with
  | null => exact .null
  | boolean b => exact .boolean b
  | number n => exact .number (related n)
  | string text => exact .string text
  | array items ih =>
    rw [replaceNumbers_array]
    exact .array (List.forall₂_map_right_iff.mpr (List.forall₂_same.mpr ih))
  | object members ih =>
    rw [replaceNumbers_object]
    refine .object ?_ ?_
    · rw [List.map_map]
      rfl
    · rw [List.map_map, List.forall₂_map_left_iff, List.forall₂_map_right_iff]
      exact List.forall₂_same.mpr ih

theorem replaceNumbers_replaceNumbers {κ : Type} (f : ν → Document μ) (g : μ → Document κ)
    (d : Document ν) :
    replaceNumbers g (replaceNumbers f d) = replaceNumbers (fun n => replaceNumbers g (f n)) d := by
  induction d using induct with
  | null => rfl
  | boolean b => rfl
  | number n => rfl
  | string text => rfl
  | array items ih =>
    rw [replaceNumbers_array, replaceNumbers_array, replaceNumbers_array, List.map_map]
    exact congrArg array (List.map_congr_left ih)
  | object members ih =>
    rw [replaceNumbers_object, replaceNumbers_object, replaceNumbers_object, List.map_map]
    refine congrArg object (List.map_congr_left fun member inside => ?_)
    exact congrArg (Prod.mk member.1) (ih member inside)

end RecordFilter.Document
