import RecordFilter.Binary64

/-! The shortest decimal that reads back as a given finite number. For one digit, two digits and so
on, the two neighbours of the number on that decimal grid are read back; the first grid with a hit
wins, and of two hits the nearer one. -/

namespace RecordFilter

inductive Tie where
  | upward
  | even
  deriving DecidableEq, Repr

/-- A decimal magnitude `0.d₁d₂d₃… * 10 ^ point`. -/
structure Significand where
  digits : Text
  point : Int
  deriving DecidableEq, Repr

namespace Significand

def trimZeros (digits : Text) : Text := (digits.reverse.dropWhile (· == '0')).reverse

def ofScientific (coefficient : Nat) (power : Int) : Significand :=
  let digits := Text.ofNat coefficient
  ⟨trimZeros digits, power + digits.length⟩

end Significand

namespace Finite64

def unit : Nat := Nat.pow 2 1074

/-- The position of the point in front of the first digit: the magnitude is less than
`10 ^ leading` and not less than a tenth of it. -/
def leading (x : Finite64) : Int :=
  if unit ≤ x.magnitude then (Text.ofNat (x.magnitude / unit)).length
  else 1 - (Text.ofNat ((unit - 1) / x.magnitude)).length

def inSteps (x : Finite64) : Int → Nat × Nat
  | .ofNat up => (x.magnitude, unit * Nat.pow 10 up)
  | .negSucc down => (x.magnitude * Nat.pow 10 (down + 1), unit)

def readsBack (x : Finite64) (coefficient : Nat) (power : Int) : Bool :=
  ofScientific? x.negative coefficient power == some x

def neighbour? (x : Finite64) (tie : Tie) (power : Int) : Option Nat :=
  let (numerator, denominator) := x.inSteps power
  let below := numerator / denominator
  let twice := 2 * (numerator % denominator)
  let preferBelow :=
    twice < denominator ∨ (twice = denominator ∧ tie = .even ∧ below % 2 = 0)
  match x.readsBack below power, x.readsBack (below + 1) power with
  | true, true => some (if preferBelow then below else below + 1)
  | true, false => some below
  | false, true => some (below + 1)
  | false, false => none

def exact (x : Finite64) : Significand := .ofScientific (x.magnitude * Nat.pow 5 1074) (-1074)

/-- The shortest digits of a number other than zero. Seventeen always suffice. -/
def shortest (x : Finite64) (tie : Tie) : Significand :=
  let grids := (List.range 17).map fun (count : Nat) => x.leading - (count + 1)
  let found := grids.findSome? fun power =>
    (x.neighbour? tie power).map fun coefficient => Significand.ofScientific coefficient power
  found.getD x.exact

end Finite64
end RecordFilter
