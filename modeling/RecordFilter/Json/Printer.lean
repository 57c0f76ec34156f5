import RecordFilter.Json

/-! JSON texts of documents: a compact layout without blanks, and one with a line for each item and
member. -/

namespace RecordFilter.Json

def hexDigits (n : Nat) : Text := Nat.toDigits 16 n

def escapeChar (c : Char) : Text :=
  if c == '"' then ['\\', '"']
  else if c == '\\' then ['\\', '\\']
  else if c == '\x08' then ['\\', 'b']
  else if c == '\x0c' then ['\\', 'f']
  else if c == '\n' then ['\\', 'n']
  else if c == '\r' then ['\\', 'r']
  else if c == '\t' then ['\\', 't']
  else if c.toNat < 0x10 then ['\\', 'u', '0', '0', '0'] ++ hexDigits c.toNat
  else if c.toNat < 0x20 then ['\\', 'u', '0', '0'] ++ hexDigits c.toNat
  else [c]

def quote (text : Text) : Text := '"' :: text.flatMap escapeChar ++ ['"']

def booleanText : Bool → Text
  | true => ['t', 'r', 'u', 'e']
  | false => ['f', 'a', 'l', 's', 'e']

def nullText : Text := ['n', 'u', 'l', 'l']

def compact : Json → Text :=
  Document.fold {
    null := nullText
    boolean := booleanText
    number := Number.text
    string := quote
    array := fun items => '[' :: List.intercalate [','] items ++ [']']
    object := fun members =>
      '\x7b' :: List.intercalate [','] (members.map fun (key, value) => quote key ++ ':' :: value)
        ++ ['\x7d'] }

theorem compact_array (items : List Json) :
    compact (.array items) = '[' :: List.intercalate [','] (items.map compact) ++ [']'] :=
  Document.fold_array _ items

theorem compact_object (members : List (Text × Json)) :
    compact (.object members) =
      '\x7b' :: List.intercalate [','] (members.map fun (key, value) => quote key ++ ':' :: compact value)
        ++ ['\x7d'] := by
  refine (Document.fold_object _ members).trans ?_
  simp only [List.map_map]
  rfl

def newline (depth : Nat) : Text := '\n' :: List.replicate (2 * depth) ' '

def layout (opening closing : Char) (parts : List Text) (depth : Nat) : Text :=
  if parts.isEmpty then [opening, closing]
  else
    opening :: List.intercalate [','] (parts.map fun part => newline (depth + 1) ++ part)
      ++ newline depth ++ [closing]

def prettyAt : Json → Nat → Text :=
  Document.fold {
    null := fun _ => nullText
    boolean := fun b _ => booleanText b
    number := fun n _ => n.text
    string := fun s _ => quote s
    array := fun items depth => layout '[' ']' (items.map (· (depth + 1))) depth
    object := fun members depth =>
      let parts := members.map fun (key, value) => quote key ++ ':' :: ' ' :: value (depth + 1)
      layout '\x7b' '\x7d' parts depth }

theorem prettyAt_array (items : List Json) (depth : Nat) :
    prettyAt (.array items) depth = layout '[' ']' (items.map (prettyAt · (depth + 1))) depth := by
  refine (congrFun (Document.fold_array _ items) depth).trans ?_
  simp only [List.map_map]
  rfl

theorem prettyAt_object (members : List (Text × Json)) (depth : Nat) :
    prettyAt (.object members) depth = layout '\x7b' '\x7d'
      (members.map fun (key, value) => quote key ++ ':' :: ' ' :: prettyAt value (depth + 1)) depth := by
  refine (congrFun (Document.fold_object _ members) depth).trans ?_
  simp only [List.map_map]
  rfl

def pretty (d : Json) : Text := prettyAt d 0

end RecordFilter.Json
