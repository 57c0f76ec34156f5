import RecordFilter.Text

/-! The connectives that join predicates. -/

namespace RecordFilter

inductive Connective where
  | and
  | or
  deriving DecidableEq, Repr

namespace Connective

def char : Connective → Char
  | and => '&'
  | or => '|'

def symbol (connective : Connective) : Text := [connective.char]

def ofChar? : Char → Option Connective
  | '&' => some and
  | '|' => some or
  | _ => none

def ofSymbol? : Text → Option Connective
  | [c] => ofChar? c
  | _ => none

theorem ofChar?_char (connective : Connective) : ofChar? connective.char = some connective := by
  cases connective <;> rfl

theorem eq_char_of_ofChar? {c : Char} {connective : Connective} (h : ofChar? c = some connective) :
    c = connective.char := by
  unfold ofChar? at h
  split at h
  · cases h
    rfl
  · cases h
    rfl
  · cases h

theorem ofSymbol?_symbol (connective : Connective) :
    ofSymbol? connective.symbol = some connective :=
  ofChar?_char connective

def word : Connective → Text
  | and => ['A', 'N', 'D']
  | or => ['O', 'R']

end Connective
end RecordFilter
