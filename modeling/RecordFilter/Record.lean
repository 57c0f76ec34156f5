import RecordFilter.Filter
import RecordFilter.Json.Printer
import RecordFilter.Value

/-! Records: documents as filters see them. A path leads to a node, and the node's text is what
predicates judge. -/

namespace RecordFilter

class RecordNumber (ν : Type) where
  fieldText : ν → Text
  toJson? : ν → Option Json.Number

instance : RecordNumber Json.Number where
  fieldText
    | .integer n _ => Text.ofInt n
    | .float x => x.fieldText
  toJson? := some

instance : RecordNumber Value.Number where
  fieldText := Value.Number.fieldText
  toJson? := Value.Number.toJson?

namespace Record

def defaultSeparator : Char := '.'

def positions : Nat := 18446744073709551616

def extendIndex? (index : Nat) (c : Char) : Option Nat :=
  if Text.isDigit c then
    let next := 10 * index + (c.toNat - '0'.toNat)
    if next < positions then some next else none
  else none

def index? (segment : Text) : Option Nat :=
  let digits := match segment with
    | '+' :: digits => digits
    | digits => digits
  if digits.isEmpty then none else digits.foldlM extendIndex? 0

variable {ν : Type} [RecordNumber ν]

def child? (record : Document ν) (segment : Text) : Option (Document ν) :=
  match record with
  | .object members => members.lookup segment
  | .array items => (index? segment).bind fun i => items[i]?
  | _ => none

def toJson : Document ν → Json :=
  Document.replaceNumbers fun n => (RecordNumber.toJson? n).elim .null .number

/-- The text of a node; null has none. Arrays and objects show as compact JSON. -/
def text? : Document ν → Option Text
  | .null => none
  | .boolean b => some (Json.booleanText b)
  | .number n => some (RecordNumber.fieldText n)
  | .string text => some text
  | record => some (toJson record).compact

/-- The text of the node that a path leads to, if there is one and it is not null. -/
def lookup (record : Document ν) (path : Text) (separator : Char) : Option Text := do
  let node ← (path.splitOn separator).foldlM child? record
  text? node

end Record

variable {ν : Type} [RecordNumber ν]

def Predicate.holds (p : Predicate) (record : Document ν) (separator : Char) : Bool :=
  p.acceptsField (Record.lookup record p.field separator)

def Filter.holds (f : Filter) (record : Document ν) (separator : Char) : Bool :=
  f.eval fun p => p.holds record separator

end RecordFilter
