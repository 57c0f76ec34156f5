import RecordFilter.Text

/-! Wildcard patterns: `%` stands for any run of characters, every other character for itself, and
a pattern has to cover the whole text. The pieces between the wildcards are placed from left to
right, each as early as it fits, and the last one at the end. -/

namespace RecordFilter.Wildcard

def pieces (pattern : Text) : List Text := pattern.splitOn '%'

def after? (piece : Text) : Text → Option Text
  | [] => piece.isPrefixOf? []
  | c :: text =>
    match piece.isPrefixOf? (c :: text) with
    | some rest => some rest
    | none => after? piece text

def coversEnd : List Text → Text → Bool
  | [], text => text.isEmpty
  | [last], text => last.isSuffixOf text
  | piece :: pieces, text =>
    match after? piece text with
    | some rest => coversEnd pieces rest
    | none => false

def covers (pattern text : Text) : Bool :=
  match pieces pattern with
  | [] => false
  | [piece] => piece == text
  | first :: rest =>
    match first.isPrefixOf? text with
    | some text => coversEnd rest text
    | none => false

/-- What a character adds to the bytes of a compiled pattern. Another character than a wildcard is matched by
one state of 30 bytes for each byte of its UTF-8 form, a wildcard by the states that pass over any character
in that form, 1008 bytes together. The sizes are measured: ten mebibytes have room for some 10400 wildcards,
and for some 10100 that have a letter each between them. -/
def charSize (c : Char) : Nat := if c == '%' then 1008 else 30 * c.utf8Size

def size (pattern : Text) : Nat := pattern.foldl (fun total c => total + charSize c) 0

def sizeLimit : Nat := 10485760

/-- Patterns that are compiled to more than ten mebibytes are refused when a predicate is made. -/
def Fits (pattern : Text) : Prop := size pattern ≤ sizeLimit

instance (pattern : Text) : Decidable (Fits pattern) := inferInstanceAs (Decidable (_ ≤ _))

end RecordFilter.Wildcard
