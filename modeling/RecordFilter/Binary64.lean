import RecordFilter.Numeral

/-! Binary floating-point numbers of 64 bits, read as mathematics: a finite number is a sign and
its place among the non-negative finite numbers, which stand at whole multiples of `2 ^ -1074`.
Powers are spelled `Nat.pow`, which means the same whatever instances are in scope. -/

namespace RecordFilter

namespace Finite64

def binade : Nat := Nat.pow 2 52

/-- The number of non-negative finite numbers, and so the place that infinity would take. -/
def places : Nat := 2047 * binade

def unitsAt (rank : Nat) : Nat :=
  let shift := rank / binade - 1
  (rank - shift * binade) * Nat.pow 2 shift

def roundHalfEven (numerator denominator : Nat) : Nat :=
  let quotient := numerator / denominator
  let twice := 2 * (numerator % denominator)
  if twice < denominator ∨ (twice = denominator ∧ quotient % 2 = 0) then quotient else quotient + 1

/-- The place nearest to `numerator / denominator` multiples of `2 ^ -1074`, counting on beyond
the finite numbers. -/
def nearestRank (numerator denominator : Nat) : Nat :=
  let shift := (numerator / denominator).log2 - 52
  shift * binade + roundHalfEven numerator (denominator * Nat.pow 2 shift)

end Finite64

structure Finite64 where
  negative : Bool
  rank : Nat
  rank_lt : rank < Finite64.places
  deriving DecidableEq

namespace Finite64

def magnitude (x : Finite64) : Nat := unitsAt x.rank

def units (x : Finite64) : Int := if x.negative then -(x.magnitude : Int) else x.magnitude

def order (x y : Finite64) : Ordering := compare x.units y.units

def zero (negative : Bool) : Finite64 := ⟨negative, 0, by decide⟩

def ofRank? (negative : Bool) (rank : Nat) : Option Finite64 :=
  if h : rank < places then some ⟨negative, rank, h⟩ else none

def ofRatio? (negative : Bool) (numerator denominator : Nat) : Option Finite64 :=
  ofRank? negative (nearestRank (numerator * Nat.pow 2 1074) denominator)

/-- The finite number nearest to `coefficient * 10 ^ power`. The first two tests settle the powers
that leave the range whatever the digits are. -/
def ofScientific? (negative : Bool) (coefficient : Nat) (power : Int) : Option Finite64 :=
  if coefficient = 0 then some (zero negative)
  else match power with
    | .ofNat up =>
      if 310 < up then none else ofRatio? negative (coefficient * Nat.pow 10 up) 1
    | .negSucc down =>
      if coefficient.log2 + 325 ≤ down + 1 then some (zero negative)
      else ofRatio? negative coefficient (Nat.pow 10 (down + 1))

def ofNumeral? (n : Numeral) : Option Finite64 := ofScientific? n.negative n.coefficient n.power

def ofInt? (n : Int) : Option Finite64 := ofScientific? (decide (n < 0)) n.natAbs 0

end Finite64

inductive Binary64 where
  | finite (x : Finite64)
  | infinite (negative : Bool)
  | nan
  deriving DecidableEq

namespace Binary64

def agrees : Binary64 → Binary64 → Bool
  | finite x, finite y => x.units == y.units
  | infinite s, infinite t => s == t
  | _, _ => false

def finite? : Binary64 → Option Finite64
  | finite x => some x
  | _ => none

def ofBits (bits : UInt64) : Binary64 :=
  let negative := decide (Nat.pow 2 63 ≤ bits.toNat)
  let rank := bits.toNat % Nat.pow 2 63
  match Finite64.ofRank? negative rank with
  | some x => finite x
  | none => if rank = Finite64.places then infinite negative else nan

def toBits (x : Binary64) : UInt64 :=
  let signed (negative : Bool) (rank : Nat) := if negative then Nat.pow 2 63 + rank else rank
  UInt64.ofNat <| match x with
    | finite x => signed x.negative x.rank
    | infinite negative => signed negative Finite64.places
    | nan => Finite64.places + Nat.pow 2 51

end Binary64
end RecordFilter
