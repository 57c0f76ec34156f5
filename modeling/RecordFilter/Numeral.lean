import RecordFilter.Text

/-! Numerals in plain decimal notation: an optional sign, digits with at most one point among or
around them, and an optional exponent. No digit separators, no other bases, no words. -/

namespace RecordFilter

/-- A numeral, taken apart: its value is `whole.fraction` times ten to the `exponent`. -/
structure Numeral where
  negative : Bool
  whole : Text
  fraction : Text
  exponent : Int
  deriving DecidableEq, Repr

namespace Numeral

def coefficient (n : Numeral) : Nat := Text.digitsValue (n.whole ++ n.fraction)

def power (n : Numeral) : Int := n.exponent - n.fraction.length

def splitSign : Text → Bool × Text
  | '-' :: rest => (true, rest)
  | '+' :: rest => (false, rest)
  | text => (false, text)

def splitDigits (text : Text) : Text × Text :=
  (text.takeWhile Text.isDigit, text.dropWhile Text.isDigit)

def splitFraction : Text → Text × Text
  | '.' :: rest => splitDigits rest
  | text => ([], text)

def exponentOfText? (text : Text) : Option Int :=
  let (negative, rest) := splitSign text
  let (digits, rest) := splitDigits rest
  if digits.isEmpty || !rest.isEmpty then none
  else if negative then some (-(Text.digitsValue digits : Int))
  else some (Text.digitsValue digits)

def ofText? (text : Text) : Option Numeral :=
  let (negative, rest) := splitSign text
  let (whole, rest) := splitDigits rest
  let (fraction, rest) := splitFraction rest
  if whole.isEmpty && fraction.isEmpty then none
  else match rest with
    | [] => some ⟨negative, whole, fraction, 0⟩
    | mark :: rest =>
      if mark == 'e' || mark == 'E' then
        (exponentOfText? rest).map fun exponent => ⟨negative, whole, fraction, exponent⟩
      else none

end Numeral
end RecordFilter
