import RecordFilter.Binary64
import RecordFilter.Decimal
import RecordFilter.Text.Blank

/-! The order by which fields meet literals: as decimals where both sides are numerals that fit, as
floating-point numbers where they are at least finite there, and as texts otherwise. -/

namespace RecordFilter

namespace LooseOrder

def numeral? (text : Text) : Option Numeral := Numeral.ofText? (Text.trim text)

def decimal? (text : Text) : Option Decimal := (numeral? text).bind Decimal.ofNumeral?

def float? (text : Text) : Option Finite64 := (numeral? text).bind Finite64.ofNumeral?

end LooseOrder

open LooseOrder in
def looseOrder (a b : Text) : Ordering :=
  match decimal? a, decimal? b with
  | some x, some y => x.order y
  | _, _ =>
    match float? a, float? b with
    | some x, some y => x.order y
    | _, _ => compare a b

end RecordFilter
