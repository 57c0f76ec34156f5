import RecordFilter.Binary64.Text
import RecordFilter.Document

/-! JSON documents. A number is a whole number of 64 bits, signed or not, or a finite
floating-point number; so a whole number is at least minus 2 to the 63 and below 2 to the 64. -/

namespace RecordFilter

inductive Json.Number where
  | integer (value : Int)
    (in_range : -9223372036854775808 ≤ value ∧ value < 18446744073709551616)
  | float (value : Finite64)
  deriving DecidableEq

abbrev Json := Document Json.Number

namespace Json.Number

def ofInt? (n : Int) : Option Number :=
  if h : -9223372036854775808 ≤ n ∧ n < 18446744073709551616 then some (integer n h) else none

/-- The number that a numeral stands for, if it has one. A plain numeral, without point and
exponent, is a whole number where that fits; minus zero is not one. -/
def ofNumeral? (plain : Bool) (n : Numeral) : Option Number :=
  let magnitude : Int := n.coefficient
  let whole := if n.negative then -magnitude else magnitude
  let asInteger := if plain && !(n.negative && n.coefficient == 0) then ofInt? whole else none
  asInteger <|> (Finite64.ofNumeral? n).map float

def text : Number → Text
  | integer n _ => Text.ofInt n
  | float x => x.jsonText

def agrees : Number → Number → Bool
  | integer n _, integer m _ => n == m
  | float x, float y => x.units == y.units
  | _, _ => false

end Json.Number
end RecordFilter
