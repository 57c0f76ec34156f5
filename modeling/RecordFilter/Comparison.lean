import RecordFilter.Text

/-! The comparisons that a predicate can make between a field and its literal, and the symbols
that stand for them. -/

namespace RecordFilter

inductive Comparison where
  | equal
  | notEqual
  | atLeast
  | atMost
  | like
  | notLike
  | above
  | below
  deriving DecidableEq, Repr

namespace Comparison

def all : List Comparison :=
  [equal, notEqual, atLeast, atMost, like, notLike, above, below]

def symbol : Comparison → Text
  | equal => ['=', '=']
  | notEqual => ['!', '=']
  | atLeast => ['>', '=']
  | atMost => ['<', '=']
  | like => ['~', '~']
  | notLike => ['!', '~']
  | above => ['>']
  | below => ['<']

def ofSymbol? (symbol : Text) : Option Comparison :=
  all.find? fun comparison => comparison.symbol == symbol

theorem ofSymbol?_symbol (comparison : Comparison) :
    ofSymbol? comparison.symbol = some comparison := by
  cases comparison <;> rfl

def pairAt? : Text → Option (Comparison × Text)
  | '=' :: '=' :: rest => some (equal, rest)
  | '!' :: '=' :: rest => some (notEqual, rest)
  | '>' :: '=' :: rest => some (atLeast, rest)
  | '<' :: '=' :: rest => some (atMost, rest)
  | '~' :: '~' :: rest => some (like, rest)
  | '!' :: '~' :: rest => some (notLike, rest)
  | _ => none

def singleAt? : Text → Option (Comparison × Text)
  | '>' :: rest => some (above, rest)
  | '<' :: rest => some (below, rest)
  | _ => none

def isPattern : Comparison → Bool
  | like | notLike => true
  | _ => false

def description : Comparison → Text
  | equal => "exact string equality".toList
  | notEqual => "exact string inequality".toList
  | atLeast => "greater than or equal (numeric when both sides are numbers)".toList
  | atMost => "less than or equal (numeric when both sides are numbers)".toList
  | like => "full match against a pattern where % is any run of characters".toList
  | notLike => "negation of ~~".toList
  | above => "greater than (numeric when both sides are numbers)".toList
  | below => "less than (numeric when both sides are numbers)".toList

end Comparison
end RecordFilter
