import RecordFilter.Numeral

/-! Decimal numbers of 96 bits and at most 28 fraction digits, and how a numeral is read as one:
exactly where it fits, rounded where only fraction digits are lost, and not at all otherwise. -/

namespace RecordFilter

structure Decimal where
  negative : Bool
  mantissa : Nat
  scale : Nat
  deriving DecidableEq, Repr

namespace Decimal

def maxMantissa : Nat := Nat.pow 2 96 - 1

def maxScale : Nat := 28

def steps (d : Decimal) : Int :=
  let magnitude : Int := d.mantissa * Nat.pow 10 (maxScale - d.scale)
  if d.negative then -magnitude else magnitude

def order (a b : Decimal) : Ordering := compare a.steps b.steps

abbrev Magnitude := Nat × Nat

/-- One more in the last place. A mantissa that outgrows its bits gives up its last place. -/
def increment : Magnitude → Option Magnitude
  | (mantissa, scale) =>
    if mantissa < maxMantissa then some (mantissa + 1, scale)
    else if scale = 0 then none
    else some ((mantissa + 5) / 10, scale - 1)

/-- Appends fraction digits while they fit; the first one that does not decides the rounding. -/
def appendFraction : Magnitude → Text → Option Magnitude
  | magnitude, [] => some magnitude
  | (mantissa, scale), digit :: digits =>
    let value := Text.digitsValue [digit]
    if scale < maxScale ∧ 10 * mantissa + value ≤ maxMantissa then
      appendFraction (10 * mantissa + value, scale + 1) digits
    else if 5 ≤ value then increment (mantissa, scale)
    else some (mantissa, scale)

def readDigits (whole fraction : Text) : Option Magnitude :=
  let mantissa := Text.digitsValue whole
  if mantissa ≤ maxMantissa then appendFraction (mantissa, 0) fraction else none

/-- Division by `10 ^ places`: the scale grows, and fraction digits beyond the limit are rounded
away first, a half upwards. -/
def shiftDown (places : Nat) : Magnitude → Option Magnitude
  | (mantissa, scale) =>
    if maxScale < places then none
    else if scale + places ≤ maxScale then some (mantissa, scale + places)
    else
      let unit := Nat.pow 10 (scale + places - maxScale)
      some ((2 * mantissa + unit) / (2 * unit), maxScale)

def shiftUp (places : Nat) : Magnitude → Option Magnitude
  | (mantissa, scale) =>
    if places ≤ scale then some (mantissa, scale - places)
    else if maxScale < places then none
    else
      let grown := mantissa * Nat.pow 10 (places - scale)
      if grown ≤ maxMantissa then some (grown, 0) else none

def shift : Int → Magnitude → Option Magnitude
  | .ofNat places => shiftUp places
  | .negSucc places => shiftDown (places + 1)

/-- The exponent moves the point of the digits as they were read, also where some were rounded away. -/
def ofNumeral? (n : Numeral) : Option Decimal := do
  let digits ← readDigits n.whole n.fraction
  let (mantissa, scale) ← shift n.exponent digits
  return ⟨n.negative, mantissa, scale⟩

end Decimal
end RecordFilter
