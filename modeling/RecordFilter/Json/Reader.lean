import RecordFilter.Json

/-! Reading JSON texts, one character at a time. The state says where the reader stands and holds
what is open around it; a step fails where no text that starts like this is well-formed. -/

namespace RecordFilter.Json

inductive Defect where
  | malformed
  | endsEarly
  deriving DecidableEq, Repr

namespace Reader

inductive Context where
  | stream (documents : List Json)
  | item (items : List Json) (outer : Context)
  | member (members : List (Text × Json)) (key : Text) (outer : Context)

namespace Context

def depth : Context → Nat
  | stream _ => 0
  | item _ outer => outer.depth + 1
  | member _ _ outer => outer.depth + 1

end Context

def maxDepth : Nat := 127

inductive Gap where
  /-- Between documents. After a number or a word the next document is `glued` to it until a blank
  or a bracket or a quote comes. -/
  | between (documents : List Json) (glued : Bool)
  | value (context : Context)
  | firstItem (outer : Context)
  | afterItem (items : List Json) (outer : Context)
  | firstKey (outer : Context)
  | key (members : List (Text × Json)) (outer : Context)
  | colon (members : List (Text × Json)) (key : Text) (outer : Context)
  | afterMember (members : List (Text × Json)) (outer : Context)

inductive Slot where
  | value (context : Context)
  | key (members : List (Text × Json)) (outer : Context)

/-- Where in a string the reader stands. A code unit that opens a surrogate pair is held until its
partner has come. -/
inductive StringPlace where
  | plain
  | escape
  | hex (digits : Text) (opened : Option Nat)
  | partnerEscape (opened : Nat)
  | partnerMark (opened : Nat)

inductive NumberPlace where
  | minus
  | zero
  | whole
  | point
  | fraction
  | exponentMark
  | exponentSign
  | exponent
  deriving DecidableEq

inductive State where
  | gap (gap : Gap)
  | string (read : Text) (place : StringPlace) (slot : Slot)
  | number (read : Text) (place : NumberPlace) (context : Context)
  | word (rest : Text) (meaning : Json) (context : Context)

def isSpace (c : Char) : Bool := c == ' ' || c == '\t' || c == '\n' || c == '\r'

def deliver (context : Context) (value : Json) (glued : Bool) : Gap :=
  match context with
  | .stream documents => .between (value :: documents) glued
  | .item items outer => .afterItem (value :: items) outer
  | .member members key outer => .afterMember (Document.insertMember key value members) outer

def start (context : Context) (c : Char) : Option State :=
  if c == '"' then some (.string [] .plain (.value context))
  else if c == '[' then
    if context.depth < maxDepth then some (.gap (.firstItem context)) else none
  else if c == '\x7b' then
    if context.depth < maxDepth then some (.gap (.firstKey context)) else none
  else if c == '-' then some (.number [c] .minus context)
  else if c == '0' then some (.number [c] .zero context)
  else if Text.isDigit c then some (.number [c] .whole context)
  else if c == 't' then some (.word ['r', 'u', 'e'] (.boolean true) context)
  else if c == 'f' then some (.word ['a', 'l', 's', 'e'] (.boolean false) context)
  else if c == 'n' then some (.word ['u', 'l', 'l'] .null context)
  else none

def Gap.step (many : Bool) (gap : Gap) (c : Char) : Option State :=
  if isSpace c then
    match gap with
    | between documents _ => some (.gap (between documents false))
    | gap => some (.gap gap)
  else match gap with
    | between documents glued =>
      if !many && !documents.isEmpty then none
      else if glued && !(c == '"' || c == '[' || c == '\x7b') then none
      else start (.stream documents) c
    | value context => start context c
    | firstItem outer =>
      if c == ']' then some (.gap (deliver outer (.array []) false))
      else start (.item [] outer) c
    | afterItem items outer =>
      if c == ',' then some (.gap (.value (.item items outer)))
      else if c == ']' then some (.gap (deliver outer (.array items.reverse) false))
      else none
    | firstKey outer =>
      if c == '\x7d' then some (.gap (deliver outer (.object []) false))
      else if c == '"' then some (.string [] .plain (.key [] outer))
      else none
    | key members outer =>
      if c == '"' then some (.string [] .plain (.key members outer)) else none
    | colon members name outer =>
      if c == ':' then some (.gap (.value (.member members name outer))) else none
    | afterMember members outer =>
      if c == ',' then some (.gap (.key members outer))
      else if c == '\x7d' then some (.gap (deliver outer (.object members) false))
      else none

def Slot.close (slot : Slot) (text : Text) : Gap :=
  match slot with
  | value context => deliver context (.string text) false
  | key members outer => .colon members text outer

def escaped? : Char → Option Char
  | '"' => some '"'
  | '\\' => some '\\'
  | '/' => some '/'
  | 'b' => some '\x08'
  | 'f' => some '\x0c'
  | 'n' => some '\n'
  | 'r' => some '\r'
  | 't' => some '\t'
  | _ => none

def hexValue? (c : Char) : Option Nat :=
  if Text.isDigit c then some (c.toNat - '0'.toNat)
  else if 'a' ≤ c && c ≤ 'f' then some (c.toNat - 'a'.toNat + 10)
  else if 'A' ≤ c && c ≤ 'F' then some (c.toNat - 'A'.toNat + 10)
  else none

def codeUnit? (digits : Text) : Option Nat :=
  if digits.length = 4 then
    digits.foldlM (fun unit c => (hexValue? c).map fun value => 16 * unit + value) 0
  else none

def isHighSurrogate (unit : Nat) : Bool := 0xD800 ≤ unit && unit < 0xDC00

def isLowSurrogate (unit : Nat) : Bool := 0xDC00 ≤ unit && unit < 0xE000

def acceptUnit (read : Text) (opened : Option Nat) (unit : Nat) (slot : Slot) : Option State :=
  match opened with
  | none =>
    if isHighSurrogate unit then some (.string read (.partnerEscape unit) slot)
    else if isLowSurrogate unit then none
    else some (.string (Char.ofNat unit :: read) .plain slot)
  | some high =>
    if isLowSurrogate unit then
      let c := Char.ofNat (0x10000 + (high - 0xD800) * 0x400 + (unit - 0xDC00))
      some (.string (c :: read) .plain slot)
    else none

/-- Four bytes are awaited before the digits of an escape are judged. -/
def awaitedBytes : Nat := 4

def stepString (read : Text) (place : StringPlace) (slot : Slot) (c : Char) : Option State :=
  match place with
  | .plain =>
    if c == '"' then some (.gap (slot.close read.reverse))
    else if c == '\\' then some (.string read .escape slot)
    else if c.toNat < 0x20 then none
    else some (.string (c :: read) .plain slot)
  | .escape =>
    if c == 'u' then some (.string read (.hex [] none) slot)
    else (escaped? c).map fun c => .string (c :: read) .plain slot
  | .hex digits opened =>
    let digits := digits ++ [c]
    if digits.utf8Size < awaitedBytes then some (.string read (.hex digits opened) slot)
    else (codeUnit? digits).bind fun unit => acceptUnit read opened unit slot
  | .partnerEscape opened =>
    if c == '\\' then some (.string read (.partnerMark opened) slot) else none
  | .partnerMark opened =>
    if c == 'u' then some (.string read (.hex [] (some opened)) slot) else none

def NumberPlace.next? (place : NumberPlace) (c : Char) : Option NumberPlace :=
  let isMark := c == 'e' || c == 'E'
  match place with
  | minus => if c == '0' then some zero else if Text.isDigit c then some whole else none
  | zero => if c == '.' then some point else if isMark then some exponentMark else none
  | whole =>
    if Text.isDigit c then some whole
    else if c == '.' then some point
    else if isMark then some exponentMark
    else none
  | point => if Text.isDigit c then some fraction else none
  | fraction =>
    if Text.isDigit c then some fraction else if isMark then some exponentMark else none
  | exponentMark =>
    if Text.isDigit c then some exponent
    else if c == '+' || c == '-' then some exponentSign
    else none
  | exponentSign => if Text.isDigit c then some exponent else none
  | exponent => if Text.isDigit c then some exponent else none

def NumberPlace.isComplete : NumberPlace → Bool
  | zero | whole | fraction | exponent => true
  | _ => false

def NumberPlace.isPlain : NumberPlace → Bool
  | zero | whole => true
  | _ => false

def numberOf? (read : Text) (place : NumberPlace) : Option Number :=
  (Numeral.ofText? read.reverse).bind (Number.ofNumeral? place.isPlain)

def step (many : Bool) (state : State) (c : Char) : Option State :=
  match state with
  | .gap gap => gap.step many c
  | .string read place slot => stepString read place slot c
  | .number read place context =>
    match place.next? c with
    | some place => some (.number (c :: read) place context)
    | none =>
      if place.isComplete then
        (numberOf? read place).bind fun n => (deliver context (.number n) true).step many c
      else none
  | .word [] _ _ => none
  | .word [last] meaning context =>
    if c == last then some (.gap (deliver context meaning true)) else none
  | .word (expected :: rest) meaning context =>
    if c == expected then some (.word rest meaning context) else none

def finish : State → Except Defect (List Json)
  | .gap (.between documents _) => .ok documents.reverse
  | .number read place context =>
    if place.isComplete then
      match numberOf? read place, context with
      | some n, .stream documents => .ok (.number n :: documents).reverse
      | some _, _ => .error .endsEarly
      | none, _ => .error .malformed
    else .error .endsEarly
  | _ => .error .endsEarly

def run (many : Bool) (text : Text) : Except Defect (List Json) :=
  match text.foldlM (step many) (.gap (.between [] false)) with
  | some state => finish state
  | none => .error .malformed

end Reader

def parse (text : Text) : Except Defect Json :=
  match Reader.run false text with
  | .ok (document :: _) => .ok document
  | .ok [] => .error .endsEarly
  | .error defect => .error defect

def parseStream (text : Text) : Except Defect (List Json) := Reader.run true text

end RecordFilter.Json
