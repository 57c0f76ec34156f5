import RecordFilter.Filter

/-! How filters are read. A text is cut into operands and connectives; `&` binds tighter than `|`,
and both nest to the right, so one pass from the last operand to the first builds the tree. -/

namespace RecordFilter.Filter

def pushToken (c : Char) : List Text → List Text
  | [] => [[c]]
  | fragment :: tokens =>
    if (Connective.ofChar? c).isSome then [] :: [c] :: fragment :: tokens
    else (c :: fragment) :: tokens

def tokens (text : Text) : List Text := text.foldr pushToken [[]]

theorem flatten_pushToken (c : Char) (tokens : List Text) :
    (pushToken c tokens).flatten = c :: tokens.flatten := by
  cases tokens with
  | nil => rfl
  | cons fragment tokens => by_cases h : (Connective.ofChar? c).isSome <;> simp [pushToken, h]

theorem flatten_tokens (text : Text) : (tokens text).flatten = text := by
  induction text with
  | nil => rfl
  | cons c text ih =>
    rw [tokens, List.foldr_cons, flatten_pushToken]
    exact congrArg (c :: ·) ih

def pairTokens : List Text → Option (List (Text × Text) × Text)
  | [] => none
  | [last] => some ([], last)
  | operand :: token :: rest =>
    (pairTokens rest).map fun (pairs, last) => ((operand, token) :: pairs, last)

/-- What has been read of a filter, from its end: the operands up to the next `|`, and the filter
behind that `|`. -/
structure Tail where
  run : Filter
  behind : Option Filter

namespace Tail

def close (t : Tail) : Filter :=
  match t.behind with
  | none => t.run
  | some behind => join .or t.run behind

def push (operand : Filter × Connective) (t : Tail) : Tail :=
  match operand with
  | (f, .and) => ⟨join .and f t.run, t.behind⟩
  | (f, .or) => ⟨f, some t.close⟩

end Tail

def ofChain (chain : List (Filter × Connective)) (last : Filter) : Filter :=
  (chain.foldr Tail.push ⟨last, none⟩).close

def parseConnective (token : Text) : Except FilterError Connective :=
  match Connective.ofSymbol? token with
  | some connective => .ok connective
  | none => .error (.unknownConnective token)

def parseOperand (fragment : Text) : Except FilterError Filter :=
  (Predicate.parse fragment).map leaf

/-- Reads operands and connectives that stand in turn. All connectives are judged before any
operand, and whether operands are missing before what they say. -/
def ofTokens (tokens : List Text) : Except FilterError Filter :=
  match pairTokens tokens with
  | none => .error (.unbalanced tokens.flatten)
  | some ([], last) => parseOperand last
  | some (pairs, last) => do
    let connectives ← pairs.mapM fun (_, token) => parseConnective token
    if pairs.any (fun (operand, _) => operand.isEmpty) || last.isEmpty then
      throw (.unbalanced tokens.flatten)
    let operands ← pairs.mapM fun (operand, _) => parseOperand operand
    return ofChain (operands.zip connectives) (← parseOperand last)

def parse (text : Text) : Except FilterError Filter := ofTokens (tokens text)

end RecordFilter.Filter
