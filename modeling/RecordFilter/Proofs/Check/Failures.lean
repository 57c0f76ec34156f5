import RecordFilter.Proofs.Check.Modes
import RecordFilter.Proofs.Json.Streams

/-! When a check fails, and which kind of result it gives otherwise. The filter is judged before the input,
a broken input leaves no result, and which records match has no say in either. -/

namespace RecordFilter.Check

open Json (Streams)
open Json.Reader (isSpace)

inductive Result.Kind where
  | validFilter
  | matched
  | filtered
  | stream
  deriving DecidableEq

def Result.kind : Result → Kind
  | validFilter => .validFilter
  | matched _ => .matched
  | filtered _ => .filtered
  | stream _ => .stream

theorem judge_kind (filter other : Filter) (separator another : Char) (documents : List Json) :
    (judge filter separator documents).map Result.kind =
      (judge other another documents).map Result.kind := by
  match documents with
  | [] => rfl
  | [d] =>
    rw [judge_single, judge_single]
    cases d <;> rfl
  | first :: second :: rest =>
    have several : 2 ≤ (first :: second :: rest).length := Nat.le_add_left 2 rest.length
    rw [judge_several _ _ several, judge_several _ _ several]
    rfl

theorem judge_eq_none_iff (filter : Filter) (separator : Char) {documents : List Json} :
    judge filter separator documents = none ↔ documents = [] := by
  match documents with
  | [] => exact iff_of_true rfl rfl
  | [d] =>
    rw [judge_single]
    exact iff_of_false nofun nofun
  | first :: second :: rest =>
    have several : 2 ≤ (first :: second :: rest).length := Nat.le_add_left 2 rest.length
    rw [judge_several _ _ several]
    exact iff_of_false nofun nofun

theorem run_refused {check : Check} {cause : FilterError}
    (refused : Filter.parse check.filter = .error cause) : check.run = .error (.filter cause) := by
  simp only [run, refused, Except.mapError, bind, Except.bind]

section

variable {check : Check} {filter : Filter} (valid : Filter.parse check.filter = .ok filter)
include valid

theorem run_syntaxOnly (only : check.syntaxOnly = true) : check.run = .ok .validFilter := by
  simp only [run, valid, only, Except.mapError, bind, Except.bind]
  rfl

variable (evaluates : check.syntaxOnly = false)
include evaluates

theorem run_missing (missing : check.input = none) : check.run = .error .noInput := by
  simp only [run, valid, evaluates, missing, Except.mapError, bind, Except.bind]
  rfl

variable {text : Text} (given : check.input = some text)
include given

theorem run_of_text : check.run = (Json.parseStream text).mapError Error.json >>= fun documents =>
    (judge filter check.separator documents).elim (.error .noInput) .ok := by
  simp only [run, valid, evaluates, given]
  cases Json.parseStream text with
  | error defect => rfl
  | ok documents =>
    simp only [Except.mapError, bind, Except.bind]
    cases judge filter check.separator documents <;> rfl

theorem run_eq_json_iff {defect : Json.Defect} :
    check.run = .error (.json defect) ↔ Json.parseStream text = .error defect := by
  rw [run_of_text valid evaluates given]
  cases Json.parseStream text with
  | error other => simp [Except.mapError, bind, Except.bind]
  | ok documents =>
    refine iff_of_false ?_ nofun
    simp only [Except.mapError, bind, Except.bind]
    cases judge filter check.separator documents <;> nofun

theorem run_eq_noInput_iff : check.run = .error .noInput ↔ Json.parseStream text = .ok [] := by
  rw [run_of_text valid evaluates given]
  cases Json.parseStream text with
  | error defect => exact iff_of_false nofun nofun
  | ok documents =>
    simp only [Except.mapError, bind, Except.bind]
    rw [Except.ok.injEq, ← judge_eq_none_iff filter check.separator]
    cases judge filter check.separator documents with
    | none => exact iff_of_true rfl rfl
    | some result => exact iff_of_false nofun nofun

theorem run_map_kind : check.run.map Result.kind =
    (Json.parseStream text).mapError Error.json >>= fun documents =>
      ((judge filter check.separator documents).map Result.kind).elim (.error .noInput) .ok := by
  rw [run_of_text valid evaluates given]
  cases Json.parseStream text with
  | error defect => rfl
  | ok documents =>
    simp only [Except.mapError, bind, Except.bind]
    cases judge filter check.separator documents <;> rfl

end

theorem run_congr_of_syntaxOnly {check other : Check} (only : check.syntaxOnly = true)
    (only' : other.syntaxOnly = true) (filter : other.filter = check.filter) : check.run = other.run := by
  cases valid : Filter.parse check.filter with
  | error cause => rw [run_refused valid, run_refused (filter ▸ valid)]
  | ok tree => rw [run_syntaxOnly valid only, run_syntaxOnly (filter ▸ valid) only']

theorem run_of_blank {check : Check} (missing : check.input = none) :
    ({ check with input := some [] } : Check).run = check.run := by
  set blank : Check := { check with input := some [] }
  cases valid : Filter.parse check.filter with
  | error cause =>
    have refused : blank.run = .error (.filter cause) := run_refused valid
    rw [refused, run_refused valid]
  | ok filter =>
    rcases Bool.eq_false_or_eq_true check.syntaxOnly with only | evaluates
    · exact run_congr_of_syntaxOnly only only rfl
    · have valid' : Filter.parse blank.filter = .ok filter := valid
      have given : blank.input = some [] := rfl
      rw [(run_eq_noInput_iff valid' evaluates given).mpr rfl, run_missing valid evaluates missing]

theorem run_kind {check other : Check} {filter another : Filter}
    (valid : Filter.parse check.filter = .ok filter) (valid' : Filter.parse other.filter = .ok another)
    (input : other.input = check.input) (flag : other.syntaxOnly = check.syntaxOnly) :
    check.run.map Result.kind = other.run.map Result.kind := by
  cases evaluates : check.syntaxOnly with
  | true => rw [run_syntaxOnly valid evaluates, run_syntaxOnly valid' (flag.trans evaluates)]
  | false =>
    have evaluates' := flag.trans evaluates
    cases given : check.input with
    | none => rw [run_missing valid evaluates given, run_missing valid' evaluates' (input.trans given)]
    | some text =>
      have kinds := judge_kind filter another check.separator other.separator
      rw [run_map_kind valid evaluates given, run_map_kind valid' evaluates' (input.trans given)]
      simp only [kinds]

/-- A refused filter is reported whatever the input, and a valid one needs no input where only syntax is
asked for. Otherwise the whole input is read first: none, or blanks only, is no input; a text that is not a
stream of documents is refused whole, with the defect of the part that is broken. Filters and separators are
all alike in this, and lead to results of one kind. -/
theorem run_all_or_nothing (check : Check) :
    (∀ cause, Filter.parse check.filter = .error cause → check.run = .error (.filter cause)) ∧
    ∀ filter, Filter.parse check.filter = .ok filter →
      (check.syntaxOnly = true → check.run = .ok .validFilter) ∧
      (check.syntaxOnly = false →
        (check.input = none → check.run = .error .noInput) ∧
        ∀ text, check.input = some text →
          (check.run = .error .noInput ↔ ∀ c ∈ text, isSpace c = true) ∧
          ((∃ defect, check.run = .error (.json defect)) ↔ ¬∃ documents, Streams text documents) ∧
          ∀ front documents blank bad tail defect, text = front ++ blank :: (bad ++ tail) →
            Streams front documents → isSpace blank = true → Json.parseStream bad = .error defect →
              (tail = [] ∨ defect = .malformed ∧ ∀ c ∈ tail.head?, isSpace c = true) →
                check.run = .error (.json defect)) ∧
      ∀ (other : Check) (another : Filter), Filter.parse other.filter = .ok another →
        other.input = check.input → other.syntaxOnly = check.syntaxOnly →
          check.run.map Result.kind = other.run.map Result.kind := by
  refine ⟨fun cause => run_refused, fun filter valid => ⟨run_syntaxOnly valid, fun evaluates => ?_,
    fun other another valid' => run_kind valid valid'⟩⟩
  refine ⟨run_missing valid evaluates, fun text given => ⟨?_, ?_, ?_⟩⟩
  · rw [run_eq_noInput_iff valid evaluates given, Json.parseStream_eq_ok_iff, Json.streams_nil_iff]
  · simp only [run_eq_json_iff valid evaluates given, Json.exists_parseStream_error_iff]
  · rintro front documents blank bad tail defect rfl whole space refused last
    exact (run_eq_json_iff valid evaluates given).mpr (Json.parseStream_broken whole space refused last)

theorem run_of_broken_end :
    let front : Text := "\x7b\"a\":1\x7d [2]".toList
    let bad : Text := "[3,]".toList
    let input : Text := front ++ '\n' :: (bad ++ [])
    let check : Check := ⟨"a==1".toList, some input, false, false, '.'⟩
    let other : Check := ⟨"b/c<7".toList, some input, true, false, '/'⟩
    let refused : Check := ⟨"a".toList, some input, false, true, '.'⟩
    let idle : Check := ⟨"a==1".toList, some input, false, true, '.'⟩
    check.run = .error (.json .malformed) ∧ check.run.map Result.kind = other.run.map Result.kind ∧
      refused.run = .error (.filter (.unknownOperator "a".toList)) ∧ idle.run = .ok .validFilter := by
  intro front bad input check other refused idle
  let filter : Filter := .leaf ⟨['a'], .equal, ['1'], by decide⟩
  let another : Filter := .leaf ⟨['b', '/', 'c'], .below, ['7'], by decide⟩
  have valid : Filter.parse check.filter = .ok filter := by decide +kernel
  have valid' : Filter.parse other.filter = .ok another := by decide +kernel
  have unknown : Filter.parse refused.filter = .error (.unknownOperator "a".toList) := by decide +kernel
  have whole := Json.streams_of_parseStream (show Json.parseStream front = .ok _ from rfl)
  obtain ⟨-, evaluated, alike⟩ := (run_all_or_nothing check).2 filter valid
  obtain ⟨-, -, broken⟩ := (evaluated rfl).2 input rfl
  refine ⟨broken front _ '\n' bad [] _ rfl whole rfl rfl (.inl rfl), alike other another valid' rfl rfl,
    (run_all_or_nothing refused).1 _ unknown, ?_⟩
  exact ((run_all_or_nothing idle).2 filter valid).1 rfl

end RecordFilter.Check
