import RecordFilter.Proofs.Document.Numbers
import RecordFilter.Record

/-! Paths through a record whose numbers are replaced. Where no number becomes a container, a path
leads to the replacement of the node that it led to before. -/

namespace RecordFilter

open Document (replaceNumbers)

namespace Record

variable {ν μ : Type}

theorem lookup_map {α β : Type} (f : α → β) (members : List (Text × α)) (key : Text) :
    (members.map fun (k, value) => (k, f value)).lookup key = (members.lookup key).map f := by
  induction members with
  | nil => rfl
  | cons member members ih =>
    obtain ⟨k, value⟩ := member
    simp only [List.map_cons, List.lookup_cons, ih]
    split <;> rfl

section
variable {f : ν → Document μ} (scalar : ∀ n segment, child? (f n) segment = none)
include scalar

theorem child?_replaceNumbers (record : Document ν) (segment : Text) :
    child? (replaceNumbers f record) segment = (child? record segment).map (replaceNumbers f) := by
  cases record with
  | number n => exact scalar n segment
  | array items =>
    rw [Document.replaceNumbers_array]
    simp only [child?]
    cases index? segment with
    | none => rfl
    | some i => exact List.getElem?_map ..
  | object members =>
    rw [Document.replaceNumbers_object]
    exact lookup_map _ members segment
  | _ => rfl

theorem foldlM_child?_replaceNumbers (segments : List Text) (record : Document ν) :
    segments.foldlM child? (replaceNumbers f record) =
      (segments.foldlM child? record).map (replaceNumbers f) := by
  induction segments generalizing record with
  | nil => rfl
  | cons segment segments ih =>
    rw [List.foldlM_cons, List.foldlM_cons, child?_replaceNumbers scalar]
    cases child? record segment with
    | none => rfl
    | some child => exact ih child

end

theorem numbers_child? {record node : Document ν} {segment : Text}
    (h : child? record segment = some node) : ∀ n ∈ node.numbers, n ∈ record.numbers := by
  intro n inside
  cases record with
  | array items =>
    obtain ⟨i, -, found⟩ := Option.bind_eq_some_iff.mp h
    rw [Document.numbers_array]
    exact List.mem_flatMap.mpr ⟨node, List.mem_of_getElem? found, inside⟩
  | object members =>
    obtain ⟨before, after, split, -⟩ := List.lookup_eq_some_iff.mp h
    rw [Document.numbers_object, split]
    refine List.mem_flatMap.mpr ⟨(segment, node), ?_, inside⟩
    exact List.mem_append_right _ List.mem_cons_self
  | _ => cases h

theorem numbers_foldlM_child? {segments : List Text} {record node : Document ν}
    (h : segments.foldlM child? record = some node) : ∀ n ∈ node.numbers, n ∈ record.numbers := by
  induction segments generalizing record with
  | nil =>
    cases h
    exact fun n inside => inside
  | cons segment segments ih =>
    rw [List.foldlM_cons] at h
    obtain ⟨child, step, rest⟩ := Option.bind_eq_some_iff.mp h
    exact fun n inside => numbers_child? step n (ih rest n inside)

theorem text?_replaceNumbers_array [RecordNumber μ] (f : ν → Document μ) (items : List (Document ν)) :
    text? (replaceNumbers f (.array items)) =
      some (toJson (replaceNumbers f (.array items))).compact := by
  rw [Document.replaceNumbers_array]
  rfl

theorem text?_replaceNumbers_object [RecordNumber μ] (f : ν → Document μ)
    (members : List (Text × Document ν)) :
    text? (replaceNumbers f (.object members)) =
      some (toJson (replaceNumbers f (.object members))).compact := by
  rw [Document.replaceNumbers_object]
  rfl

theorem toJson_json (j : Json) : toJson j = j := Document.replaceNumbers_number j

end Record

theorem Filter.holds_congr {ν μ : Type} [RecordNumber ν] [RecordNumber μ] {record : Document ν}
    {other : Document μ} {separator : Char}
    (same : ∀ path, Record.lookup record path separator = Record.lookup other path separator)
    (f : Filter) : f.holds record separator = f.holds other separator := by
  have verdicts : (fun p : Predicate => p.holds record separator) =
      fun p => p.holds other separator := by
    funext p
    rw [Predicate.holds, Predicate.holds, same]
  rw [Filter.holds, Filter.holds, verdicts]

end RecordFilter
