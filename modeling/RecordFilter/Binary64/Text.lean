import RecordFilter.Binary64.Shortest

/-! The two texts of a floating-point number: the positional one by which fields are compared, and
the one that JSON documents hold. -/

namespace RecordFilter

namespace Significand

def zeros (count : Int) : Text := List.replicate count.toNat '0'

def whole (s : Significand) : Text :=
  if s.point ≤ 0 then ['0'] else s.digits.take s.point.toNat ++ zeros (s.point - s.digits.length)

def fraction (s : Significand) : Text := zeros (-s.point) ++ s.digits.drop s.point.toNat

def positional (s : Significand) : Text :=
  if s.fraction.isEmpty then s.whole else s.whole ++ '.' :: s.fraction

def pointed (s : Significand) : Text :=
  s.whole ++ '.' :: (if s.fraction.isEmpty then ['0'] else s.fraction)

def scientific (s : Significand) : Text :=
  let exponent := s.point - 1
  let sign := if exponent < 0 then '-' else '+'
  let rest := s.digits.drop 1
  s.digits.take 1 ++ (if rest.isEmpty then [] else '.' :: rest)
    ++ 'e' :: sign :: Text.ofNat exponent.natAbs

end Significand

namespace Finite64

def signed (x : Finite64) (text : Text) : Text := if x.negative then '-' :: text else text

/-- Positional whatever the size, without a fraction if there is none to write. -/
def fieldText (x : Finite64) : Text :=
  x.signed (if x.rank = 0 then ['0'] else (x.shortest .upward).positional)

/-- Positional from `1e-5` up to `1e16`, scientific outside, and never like a whole number. -/
def jsonText (x : Finite64) : Text :=
  x.signed <|
    if x.rank = 0 then ['0', '.', '0']
    else
      let s := x.shortest .even
      if -5 < s.point ∧ s.point ≤ 16 then s.pointed else s.scientific

end Finite64

namespace Binary64

def fieldText : Binary64 → Text
  | finite x => x.fieldText
  | infinite false => ['i', 'n', 'f']
  | infinite true => ['-', 'i', 'n', 'f']
  | nan => ['N', 'a', 'N']

end Binary64
end RecordFilter
