import RecordFilter.Text

/-! Documents: nested arrays and objects over scalars, for any kind of number. The members of an
object are held in key order, each key once. One fold serves every function on documents. -/

namespace RecordFilter

inductive Document (ν : Type) where
  | null
  | boolean (value : Bool)
  | number (value : ν)
  | string (value : Text)
  | array (items : List (Document ν))
  | object (members : List (Text × Document ν))

namespace Document

variable {ν μ α : Type}

instance : Inhabited (Document ν) := ⟨null⟩

def insertMember (key : Text) (value : α) : List (Text × α) → List (Text × α)
  | [] => [(key, value)]
  | (k, v) :: members =>
    match compare key k with
    | .lt => (key, value) :: (k, v) :: members
    | .eq => (key, value) :: members
    | .gt => (k, v) :: insertMember key value members

def ofMembers (members : List (Text × Document ν)) : Document ν :=
  object (members.foldl (fun sorted (key, value) => insertMember key value sorted) [])

structure Algebra (ν α : Type) where
  null : α
  boolean : Bool → α
  number : ν → α
  string : Text → α
  array : List α → α
  object : List (Text × α) → α

mutual

def fold (f : Algebra ν α) : Document ν → α
  | null => f.null
  | boolean b => f.boolean b
  | number n => f.number n
  | string text => f.string text
  | array items => f.array (foldItems f items)
  | object members => f.object (foldMembers f members)

def foldItems (f : Algebra ν α) : List (Document ν) → List α
  | [] => []
  | item :: items => fold f item :: foldItems f items

def foldMembers (f : Algebra ν α) : List (Text × Document ν) → List (Text × α)
  | [] => []
  | (key, value) :: members => (key, fold f value) :: foldMembers f members

end

theorem foldItems_eq_map (f : Algebra ν α) (items : List (Document ν)) :
    foldItems f items = items.map (fold f) := by
  induction items with
  | nil => rfl
  | cons item items ih => simp [foldItems, ih]

theorem foldMembers_eq_map (f : Algebra ν α) (members : List (Text × Document ν)) :
    foldMembers f members = members.map fun (key, value) => (key, fold f value) := by
  induction members with
  | nil => rfl
  | cons member members ih => simp [foldMembers, ih]

theorem fold_array (f : Algebra ν α) (items : List (Document ν)) :
    fold f (array items) = f.array (items.map (fold f)) := by
  rw [fold, foldItems_eq_map]

theorem fold_object (f : Algebra ν α) (members : List (Text × Document ν)) :
    fold f (object members) = f.object (members.map fun (key, value) => (key, fold f value)) := by
  rw [fold, foldMembers_eq_map]

def replaceNumbers (f : ν → Document μ) : Document ν → Document μ :=
  fold ⟨null, boolean, f, string, array, object⟩

def agrees (same : ν → ν → Bool) : Document ν → Document ν → Bool :=
  fold {
    null := fun | null => true | _ => false
    boolean := fun b => fun | boolean c => b == c | _ => false
    number := fun n => fun | number m => same n m | _ => false
    string := fun s => fun | string t => s == t | _ => false
    array := fun tests => fun
      | array items => tests.length == items.length && (tests.zip items).all fun (p, d) => p d
      | _ => false
    object := fun tests => fun
      | object members =>
        tests.length == members.length &&
          (tests.zip members).all fun ((key, p), (k, d)) => key == k && p d
      | _ => false }

end Document
end RecordFilter
