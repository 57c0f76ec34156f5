import RecordFilter.Json

/-! Values: documents built in memory. Whole numbers are signed 64-bit ones, and floating-point
numbers need not be finite. Both ways between values and JSON lose only what the other side lacks. -/

namespace RecordFilter

inductive Value.Number where
  | integer (value : Int)
    (in_range : -9223372036854775808 ≤ value ∧ value < 9223372036854775808)
  | float (value : Binary64)
  deriving DecidableEq

abbrev Value := Document Value.Number

namespace Value

namespace Number

def ofInt? (n : Int) : Option Number :=
  if h : -9223372036854775808 ≤ n ∧ n < 9223372036854775808 then some (integer n h) else none

def nearestFloat (n : Int) : Binary64 :=
  match Finite64.ofInt? n with
  | some x => .finite x
  | none => .infinite (decide (n < 0))

/-- Whole numbers that do not fit become the nearest floating-point number. -/
def ofJson : Json.Number → Number
  | .integer n _ => (ofInt? n).getD (float (nearestFloat n))
  | .float x => float (.finite x)

def toJson? : Number → Option Json.Number
  | integer n h => some (.integer n ⟨h.1, Int.lt_trans h.2 (by decide)⟩)
  | float x => x.finite?.map .float

def fieldText : Number → Text
  | integer n _ => Text.ofInt n
  | float x => x.fieldText

def agrees : Number → Number → Bool
  | integer n _, integer m _ => n == m
  | float x, float y => x.agrees y
  | _, _ => false

end Number

def ofJson : Json → Value := Document.replaceNumbers fun n => .number (.ofJson n)

def toJson : Value → Json := Document.replaceNumbers fun n => (n.toJson?).elim .null .number

def agrees : Value → Value → Bool := Document.agrees Number.agrees

end Value
end RecordFilter
