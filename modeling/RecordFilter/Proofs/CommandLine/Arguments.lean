import Mathlib.Data.List.Basic
import RecordFilter.CommandLine

/-! Asking for a check on the command line. A request is spelled by a filter and a few options, and
these are read as the request in whatever order they stand. -/

namespace RecordFilter.CommandLine

open List (Perm)

def Undashed (text : Text) : Prop := text.head? ≠ some '-'

instance (text : Text) : Decidable (Undashed text) := inferInstanceAs (Decidable (_ ≠ _))

/-- What may stand behind the command for a check, each in one spelling of those that are read. -/
inductive Part where
  | filter (text : Text)
  | input (text : Text)
  | separator (c : Char)
  | pretty
  | syntaxOnly
  deriving DecidableEq

namespace Part

def spell : Part → List Text
  | filter text => [text]
  | input text => ["--input".toList, text]
  | separator c => ["--separator=".toList ++ [c]]
  | pretty => ["--pretty".toList]
  | syntaxOnly => ["--syntax-only".toList]

def IsClear : Part → Prop
  | filter text | input text => Undashed text
  | separator _ | pretty | syntaxOnly => True

def add (given : Given) : Part → Option Given
  | filter text => some (given.addPositional text)
  | input text => given.setInput text
  | separator c => given.setSeparator [c]
  | pretty => given.setPretty
  | syntaxOnly => given.setSyntaxOnly

end Part

theorem Undashed.isValue {text : Text} (undashed : Undashed text) : isValue text = true := by
  unfold CommandLine.isValue
  split
  · exact absurd rfl undashed
  · rfl

theorem Undashed.readArgument {text : Text} (undashed : Undashed text) (forCheck : Bool) (given : Given) :
    readArgument forCheck given text = Step.done (some (given.addPositional text)) := by
  unfold CommandLine.readArgument
  split
  · exact absurd rfl undashed
  · exact absurd rfl undashed
  · rfl

section Reading
variable {forCheck : Bool} {given : Given} {argument : Text} (notDashes : argument ≠ ['-', '-'])
include notDashes

theorem readArguments_of_done {next : Option Given}
    (step : readArgument forCheck given argument = Step.done next) (rest : List Text) :
    readArguments forCheck given (argument :: rest) =
      next.bind fun given => readArguments forCheck given rest := by
  rw [readArguments.eq_def]
  simp only [beq_iff_eq, notDashes, if_false, step]
  cases next <;> rfl

theorem readArguments_of_valued {option : Valued} {value : Text}
    (step : readArgument forCheck given argument = some (given, some option))
    (ready : isValue value = true) (rest : List Text) :
    readArguments forCheck given (argument :: value :: rest) =
      (option.set given value).bind fun given => readArguments forCheck given rest := by
  rw [readArguments.eq_def]
  simp only [beq_iff_eq, notDashes, if_false, step, ready, if_true]
  cases option.set given value <;> rfl

end Reading

theorem readArguments_spell {part : Part} (clear : part.IsClear) (given : Given) (rest : List Text) :
    readArguments true given (part.spell ++ rest) =
      (part.add given).bind fun given => readArguments true given rest := by
  cases part with
  | filter text =>
    have notDashes : text ≠ ['-', '-'] := fun same => clear (congrArg List.head? same)
    exact readArguments_of_done notDashes (clear.readArgument true given) rest
  | input text =>
    have notDashes : "--input".toList ≠ ['-', '-'] := by decide
    have step : readArgument true given "--input".toList = some (given, some .input) := rfl
    exact readArguments_of_valued notDashes step clear.isValue rest
  | separator c =>
    have notDashes : "--separator=".toList ++ [c] ≠ ['-', '-'] := nofun
    exact readArguments_of_done notDashes rfl rest
  | pretty =>
    have notDashes : "--pretty".toList ≠ ['-', '-'] := by decide
    exact readArguments_of_done notDashes rfl rest
  | syntaxOnly =>
    have notDashes : "--syntax-only".toList ≠ ['-', '-'] := by decide
    exact readArguments_of_done notDashes rfl rest

theorem readArguments_flatMap_spell {parts : List Part} (clear : ∀ part ∈ parts, part.IsClear)
    (given : Given) :
    readArguments true given (parts.flatMap Part.spell) = parts.foldlM Part.add given := by
  induction parts generalizing given with
  | nil =>
    rw [List.flatMap_nil, readArguments]
    rfl
  | cons part parts ih =>
    rw [List.flatMap_cons, readArguments_spell (clear part List.mem_cons_self), List.foldlM_cons]
    have behind : ∀ other ∈ parts, other.IsClear := fun other member => clear other (.tail part member)
    exact congrArg _ (funext (ih behind))

theorem Part.add_right_comm {part other : Part}
    (single : ∀ text another, part = filter text → other = filter another → text = another) (given : Given) :
    (part.add given).bind other.add = (other.add given).bind part.add := by
  obtain ⟨positionals, input, pretty, syntaxOnly, separator⟩ := given
  cases part <;> cases other
  case filter.filter text another => rw [single text another rfl rfl]
  -- Which places are taken decides which parts are refused, now or behind the other part.
  all_goals cases input <;> cases pretty <;> cases syntaxOnly <;> cases separator <;> rfl

theorem foldlM_add_perm {listed others : List Part} (order : Perm listed others)
    (single : ∀ text another, .filter text ∈ listed → .filter another ∈ listed → text = another)
    (given : Given) : listed.foldlM Part.add given = others.foldlM Part.add given := by
  rw [List.foldlM_eq_foldl, List.foldlM_eq_foldl]
  refine order.foldl_eq' (fun part member other member' read => ?_) _
  cases read with
  | none => rfl
  | some given =>
    refine Part.add_right_comm (fun text another => ?_) given
    rintro rfl rfl
    exact single text another member member'

def parts (request : Check) : List Part :=
  .filter request.filter :: (request.input.map .input).toList ++ .separator request.separator ::
    ((if request.pretty then [.pretty] else []) ++ if request.syntaxOnly then [.syntaxOnly] else [])

theorem filter_mem_parts_iff {request : Check} {text : Text} :
    .filter text ∈ parts request ↔ text = request.filter := by
  simp [parts]

theorem input_mem_parts_iff {request : Check} {text : Text} :
    .input text ∈ parts request ↔ text ∈ request.input := by
  simp [parts]

theorem isClear_of_mem_parts {request : Check} (filter : Undashed request.filter)
    (input : ∀ text ∈ request.input, Undashed text) {part : Part} (member : part ∈ parts request) :
    part.IsClear := by
  cases part with
  | filter text => exact filter_mem_parts_iff.mp member ▸ filter
  | input text => exact input text (input_mem_parts_iff.mp member)
  | separator _ | pretty | syntaxOnly => trivial

theorem foldlM_add_parts (request : Check) :
    (parts request).foldlM Part.add .nothing =
      some ⟨[request.filter], request.input, request.pretty, request.syntaxOnly, some request.separator⟩ := by
  obtain ⟨filter, input, pretty, syntaxOnly, separator⟩ := request
  cases input <;> cases pretty <;> cases syntaxOnly <;> rfl

def arguments (listed : List Part) : List Text := "check".toList :: listed.flatMap Part.spell

/-- A request is read back from its parts in any order. -/
theorem read_arguments {request : Check} {listed : List Part} (order : Perm listed (parts request))
    (filter : Undashed request.filter) (input : ∀ text ∈ request.input, Undashed text) :
    read (arguments listed) = some (.check request) := by
  have clear : ∀ part ∈ listed, part.IsClear := fun part member =>
    isClear_of_mem_parts filter input (order.mem_iff.mp member)
  have single : ∀ text another, .filter text ∈ listed → .filter another ∈ listed → text = another := by
    intro text another member member'
    obtain rfl := filter_mem_parts_iff.mp (order.mem_iff.mp member)
    exact (filter_mem_parts_iff.mp (order.mem_iff.mp member')).symm
  have given := readArguments_flatMap_spell clear .nothing
  rw [foldlM_add_perm order single, foldlM_add_parts] at given
  change readCheck (listed.flatMap Part.spell) = _
  rw [readCheck, given]
  rfl

example : arguments (parts ⟨"a==1".toList, some "[]".toList, true, false, '.'⟩) =
    ["check", "a==1", "--input", "[]", "--separator=.", "--pretty"].map String.toList := rfl

end RecordFilter.CommandLine
