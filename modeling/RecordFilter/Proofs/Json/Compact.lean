import Mathlib
import RecordFilter.Json.Printer
import RecordFilter.Proofs.Document.Numbers

/-! Compact JSON texts, part by part. Replacing the numbers of a document changes how often a character
occurs in its text by what it changes in the texts of the numbers. -/

namespace RecordFilter.Json

open Document (replaceNumbers)

theorem count_intercalate (c : Char) (separator : Text) (parts : List Text) :
    (List.intercalate separator parts).count c =
      (parts.map (List.count c)).sum + (parts.length - 1) * separator.count c := by
  induction parts with
  | nil => simp
  | cons part parts ih =>
    cases parts with
    | nil => simp
    | cons next parts =>
      rw [List.intercalate_cons_cons, List.count_append, List.count_append, ih]
      simp only [List.map_cons, List.sum_cons, List.length_cons, Nat.add_sub_cancel, Nat.succ_mul]
      omega

theorem sum_map_flatMap {α β : Type} (f : β → Nat) (g : α → List β) (l : List α) :
    ((l.flatMap g).map f).sum = (l.map fun a => ((g a).map f).sum).sum := by
  rw [List.map_flatMap, List.flatMap, List.sum_flatten, List.map_map]
  rfl

theorem count_intercalate_add {α : Type} (c : Char) (separator : Text) (before after : α → Text)
    (extra : α → Nat) {parts : List α}
    (h : ∀ part ∈ parts, (after part).count c = (before part).count c + extra part) :
    (List.intercalate separator (parts.map after)).count c =
      (List.intercalate separator (parts.map before)).count c + (parts.map extra).sum := by
  have sums : (parts.map fun part => (after part).count c).sum =
      (parts.map fun part => (before part).count c).sum + (parts.map extra).sum := by
    rw [List.map_congr_left h, List.sum_map_add]
  rw [count_intercalate, count_intercalate, List.map_map, List.map_map, List.length_map,
    List.length_map]
  simp only [Function.comp_def, sums]
  omega

theorem count_enclosed (c opening closing : Char) (body : Text) :
    (opening :: body ++ [closing]).count c = body.count c + [opening, closing].count c := by
  simp only [List.cons_append, List.count_cons, List.count_append, List.count_nil]
  omega

theorem count_compact_replaceNumbers (c : Char) {f : Number → Json} {extra : Number → Nat}
    (h : ∀ n, (compact (f n)).count c = n.text.count c + extra n) (d : Json) :
    (compact (replaceNumbers f d)).count c = (compact d).count c + (d.numbers.map extra).sum := by
  induction d using Document.induct with
  | null => rfl
  | boolean b => rfl
  | number n => exact h n
  | string text => rfl
  | array items ih =>
    have parts := count_intercalate_add c [','] compact _ _ ih
    rw [Document.replaceNumbers_array, compact_array, compact_array, Document.numbers_array,
      sum_map_flatMap, List.map_map, count_enclosed, count_enclosed]
    exact (congrArg (· + _) parts).trans (Nat.add_right_comm _ _ _)
  | object members ih =>
    have parts := count_intercalate_add c [',']
      (fun (key, value) => quote key ++ ':' :: compact value)
      (fun (key, value) => quote key ++ ':' :: compact (replaceNumbers f value))
      (fun (_, value) => (value.numbers.map extra).sum) fun member inside => by
        have value := ih member inside
        simp only [List.count_append, List.count_cons, value]
        omega
    rw [Document.replaceNumbers_object, compact_object, compact_object, Document.numbers_object,
      sum_map_flatMap, List.map_map, count_enclosed, count_enclosed]
    exact (congrArg (· + _) parts).trans (Nat.add_right_comm _ _ _)

end RecordFilter.Json
