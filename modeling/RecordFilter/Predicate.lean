import RecordFilter.Comparison
import RecordFilter.LooseOrder
import RecordFilter.Wildcard

/-! Predicates: a field path, a comparison and a literal, written one after the other. -/

namespace RecordFilter

inductive FilterError where
  | unbalanced (expression : Text)
  | unknownConnective (token : Text)
  | unknownOperator (fragment : Text)
  | patternTooLarge
  deriving DecidableEq, Repr

namespace FilterError

def knownSymbols : Text := List.intercalate [',', ' '] (Comparison.all.map Comparison.symbol)

def message : FilterError → Text
  | unbalanced expression =>
    "invalid syntax in logical expression: '".toList ++ expression ++ ['\'']
  | unknownConnective token => "invalid logical operator: '".toList ++ token ++ ['\'']
  | unknownOperator fragment =>
    "error creating a filter from ".toList ++ fragment
      ++ ": operator couldn't be determined, use one of [".toList ++ knownSymbols ++ [']']
  | patternTooLarge =>
    "invalid pattern: Compiled regex exceeds size limit of ".toList
      ++ Text.ofNat Wildcard.sizeLimit ++ " bytes.".toList

end FilterError

structure Predicate where
  field : Text
  comparison : Comparison
  literal : Text
  /-- A literal that serves as a pattern is within the size limit of patterns. -/
  literal_fits : comparison.isPattern → Wildcard.Fits literal
  deriving DecidableEq

namespace Predicate

def make (field : Text) (comparison : Comparison) (literal : Text) :
    Except FilterError Predicate :=
  if h : comparison.isPattern → Wildcard.Fits literal then .ok ⟨field, comparison, literal, h⟩
  else .error .patternTooLarge

def text (p : Predicate) : Text := p.field ++ p.comparison.symbol ++ p.literal

/-- Splits a text at the leftmost place where `symbolAt?` finds a symbol. The text already passed
over is given last character first. -/
def splitAtSymbol (symbolAt? : Text → Option (Comparison × Text)) (passed : Text) :
    Text → Option (Text × Comparison × Text)
  | [] => none
  | c :: rest =>
    match symbolAt? (c :: rest) with
    | some (comparison, literal) => some (passed.reverse, comparison, literal)
    | none => splitAtSymbol symbolAt? (c :: passed) rest

/-- The leftmost two-character symbol divides a fragment; only where there is none does a
one-character symbol. -/
def parse (fragment : Text) : Except FilterError Predicate :=
  match splitAtSymbol Comparison.pairAt? [] fragment with
  | some (field, comparison, literal) => make field comparison literal
  | none =>
    match splitAtSymbol Comparison.singleAt? [] fragment with
    | some (field, comparison, literal) => make field comparison literal
    | none => .error (.unknownOperator fragment)

def accepts (p : Predicate) (value : Text) : Bool :=
  match p.comparison with
  | .equal => value == p.literal
  | .notEqual => value != p.literal
  | .atLeast => (looseOrder value p.literal).isGE
  | .atMost => (looseOrder value p.literal).isLE
  | .above => (looseOrder value p.literal).isGT
  | .below => (looseOrder value p.literal).isLT
  | .like => Wildcard.covers p.literal value
  | .notLike => !Wildcard.covers p.literal value

/-- An absent field counts as the empty text. -/
def acceptsField (p : Predicate) (value : Option Text) : Bool := p.accepts (value.getD [])

end Predicate
end RecordFilter
