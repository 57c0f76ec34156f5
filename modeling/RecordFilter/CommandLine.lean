import RecordFilter.Check
import RecordFilter.Filter.Outline
import RecordFilter.Reference

/-! The command line: what its arguments ask for, and what a run answers. Reading the arguments
gives nothing where they are not in order. -/

namespace RecordFilter.CommandLine

inductive Command where
  | version
  | check (request : Check)
  | explain (filter : Text)
  | operators
  deriving DecidableEq

structure Given where
  positionals : List Text
  input : Option Text
  pretty : Bool
  syntaxOnly : Bool
  separator : Option Char

namespace Given

def nothing : Given := ⟨[], none, false, false, none⟩

def addPositional (given : Given) (argument : Text) : Given :=
  { given with positionals := argument :: given.positionals }

def setInput (given : Given) (value : Text) : Option Given :=
  if given.input.isSome then none else some { given with input := some value }

def setSeparator (given : Given) (value : Text) : Option Given :=
  match value, given.separator with
  | [c], none => some { given with separator := some c }
  | _, _ => none

def setPretty (given : Given) : Option Given :=
  if given.pretty then none else some { given with pretty := true }

def setSyntaxOnly (given : Given) : Option Given :=
  if given.syntaxOnly then none else some { given with syntaxOnly := true }

end Given

inductive Valued where
  | input
  | separator

def Valued.set (option : Valued) (given : Given) (value : Text) : Option Given :=
  match option with
  | input => given.setInput value
  | separator => given.setSeparator value

abbrev Step := Option (Given × Option Valued)

def Step.done (given : Option Given) : Step := given.map (·, none)

def readLetters (forCheck : Bool) (given : Given) : Text → Step
  | [] => some (given, none)
  | letter :: rest =>
    if letter == 'v' then readLetters forCheck given rest
    else if !forCheck then none
    else if letter == 'p' then
      match given.setPretty with
      | some given => readLetters forCheck given rest
      | none => none
    else if letter == 'i' then
      match rest with
      | [] => some (given, some .input)
      | '=' :: value => Step.done (given.setInput value)
      | value => Step.done (given.setInput value)
    else none

def splitLong (argument : Text) : Text × Option Text :=
  let name := argument.takeWhile (· != '=')
  match argument.dropWhile (· != '=') with
  | [] => (name, none)
  | _ :: value => (name, some value)

def readLong (forCheck : Bool) (given : Given) (argument : Text) : Step :=
  let (name, value) := splitLong argument
  if name == "verbose".toList then
    if value.isSome then none else some (given, none)
  else if !forCheck then none
  else if name == "pretty".toList then
    if value.isSome then none else Step.done given.setPretty
  else if name == "syntax-only".toList then
    if value.isSome then none else Step.done given.setSyntaxOnly
  else if name == "input".toList then
    match value with
    | some value => Step.done (given.setInput value)
    | none => some (given, some .input)
  else if name == "separator".toList then
    match value with
    | some value => Step.done (given.setSeparator value)
    | none => some (given, some .separator)
  else none

def readArgument (forCheck : Bool) (given : Given) : Text → Step
  | '-' :: '-' :: name => readLong forCheck given name
  | '-' :: letter :: letters => readLetters forCheck given (letter :: letters)
  | argument => some (given.addPositional argument, none)

def isValue : Text → Bool
  | '-' :: _ :: _ => false
  | _ => true

/-- The arguments behind a command. After a bare double dash all are positional. -/
def readArguments (forCheck : Bool) (given : Given) : List Text → Option Given
  | [] => some given
  | argument :: rest =>
    if argument == ['-', '-'] then some (rest.foldl Given.addPositional given)
    else
      match readArgument forCheck given argument, rest with
      | none, _ => none
      | some (given, none), rest => readArguments forCheck given rest
      | some (_, some _), [] => none
      | some (given, some option), value :: rest =>
        if isValue value then
          match option.set given value with
          | some given => readArguments forCheck given rest
          | none => none
        else none

def readCheck (arguments : List Text) : Option Command := do
  let given ← readArguments true .nothing arguments
  match given.positionals with
  | [filter] =>
    let separator := given.separator.getD Record.defaultSeparator
    return .check ⟨filter, given.input, given.pretty, given.syntaxOnly, separator⟩
  | _ => none

def readExplain (arguments : List Text) : Option Command := do
  let given ← readArguments false .nothing arguments
  match given.positionals with
  | [filter] => return .explain filter
  | _ => none

def readOperators (arguments : List Text) : Option Command := do
  let given ← readArguments false .nothing arguments
  match given.positionals with
  | [] => return .operators
  | _ => none

/-- Options may stand before the command; asking for the version settles the matter at once. -/
def read : List Text → Option Command
  | [] => none
  | argument :: rest =>
    if argument == "check".toList then readCheck rest
    else if argument == "explain".toList then readExplain rest
    else if argument == "operators".toList then readOperators rest
    else if argument == "--verbose".toList then read rest
    else if argument == "--version".toList then some .version
    else match argument with
      | '-' :: letter :: letters =>
        match (letter :: letters).dropWhile (· == 'v') with
        | [] => read rest
        | 'V' :: _ => some .version
        | _ => none
      | _ => none

structure Outcome where
  exit : Nat
  output : Text
  report : Text
  deriving DecidableEq

namespace Outcome

def success (output : Text) : Outcome := ⟨0, output, []⟩

def failure (error : Check.Error) : Outcome := ⟨1, [], error.message ++ ['\n']⟩

def misuse : Outcome := ⟨2, [], "usage: rowfilter [-v] check|explain|operators ...\n".toList⟩

end Outcome

def decode? (bytes : ByteArray) : Option Text := (String.fromUTF8? bytes).map String.toList

namespace Command

/-- Standard input is read only where no other input is given and one is needed. A terminal is not read and
counts as standard input without a byte, which fails as no input does. -/
def readsInput : Command → Bool
  | check request => request.input.isNone && !request.syntaxOnly
  | _ => false

def withInput (request : Check) (bytes : ByteArray) : Except Check.Error Check :=
  if (check request).readsInput then
    match decode? bytes with
    | some text => .ok { request with input := some text }
    | none => .error .unreadable
  else .ok request

def answer (command : Command) (bytes : ByteArray) : Except Check.Error Text :=
  match command with
  | version => .ok "rowfilter 0.2.0\n".toList
  | operators => .ok Reference.text
  | explain filter => ((Filter.parse filter).mapError .filter).map Filter.outline
  | check request => do
    let request ← withInput request bytes
    let result ← request.run
    return result.render request.pretty ++ ['\n']

def run (command : Command) (bytes : ByteArray) : Outcome :=
  match command.answer bytes with
  | .ok output => .success output
  | .error error => .failure error

end Command

def run (arguments : List Text) (bytes : ByteArray) : Outcome :=
  match read arguments with
  | some command => command.run bytes
  | none => .misuse

end RecordFilter.CommandLine
