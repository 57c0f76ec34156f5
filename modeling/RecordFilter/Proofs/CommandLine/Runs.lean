import RecordFilter.Proofs.Check.Failures
import RecordFilter.Proofs.CommandLine.Arguments

/-! Runs that ask for a check. The records are an argument or come from standard input, with the same
outcome, and that is the answer of the check alone. -/

namespace RecordFilter.CommandLine

open List (Perm)

theorem decode?_eq_some_iff {bytes : ByteArray} {text : Text} :
    decode? bytes = some text ↔ bytes = text.utf8Encode := by
  unfold decode? String.fromUTF8?
  constructor
  · intro decoded
    split at decoded
    · cases decoded
      rw [String.utf8Encode_toList]
      rfl
    · cases decoded
  · rintro rfl
    rw [dif_pos (.intro text rfl)]
    exact congrArg some String.toList_ofList

theorem decode?_eq_none_iff {bytes : ByteArray} :
    decode? bytes = none ↔ ∀ text : Text, bytes ≠ text.utf8Encode := by
  rw [Option.eq_none_iff_forall_ne_some]
  exact forall_congr' fun text => not_congr decode?_eq_some_iff

def Outcome.ofCheck (check : Check) : Outcome :=
  match check.run with
  | .ok result => success (result.render check.pretty ++ ['\n'])
  | .error error => failure error

namespace Command

@[simp] theorem readsInput_check (request : Check) :
    (check request).readsInput = (request.input.isNone && !request.syntaxOnly) := rfl

section Input
variable {request : Check} {bytes : ByteArray}

theorem withInput_of_idle (idle : (check request).readsInput = false) : withInput request bytes = .ok request := by
  rw [withInput, idle]
  rfl

theorem withInput_of_text (reads : (check request).readsInput = true) {text : Text}
    (encoded : bytes = text.utf8Encode) : withInput request bytes = .ok { request with input := some text } := by
  rw [withInput, if_pos reads, decode?_eq_some_iff.mpr encoded]

theorem withInput_of_broken (reads : (check request).readsInput = true)
    (broken : ∀ text : Text, bytes ≠ text.utf8Encode) : withInput request bytes = .error .unreadable := by
  rw [withInput, if_pos reads, decode?_eq_none_iff.mpr broken]

theorem run_of_withInput {ready : Check} (taken : withInput request bytes = .ok ready) :
    (check request).run bytes = .ofCheck ready := by
  simp only [Command.run, answer, taken, Outcome.ofCheck, bind, Except.bind]
  cases ready.run <;> rfl

theorem run_of_unreadable (refused : withInput request bytes = .error .unreadable) :
    (check request).run bytes = .failure .unreadable := by
  simp only [Command.run, answer, refused, bind, Except.bind]

end Input

theorem run_congr {command : Command} (idle : command.readsInput = false) (bytes other : ByteArray) :
    command.run bytes = command.run other := by
  cases command with
  | version | explain _ | operators => rfl
  | check request => rw [run_of_withInput (withInput_of_idle idle), run_of_withInput (withInput_of_idle idle)]

end Command

theorem run_arguments {request : Check} {listed : List Part} (order : Perm listed (parts request))
    (filter : Undashed request.filter) (input : ∀ text ∈ request.input, Undashed text) (bytes : ByteArray) :
    run (arguments listed) bytes = (Command.check request).run bytes := by
  rw [run, read_arguments order filter input]

section Channels
variable {check : Check} {text : Text} (given : check.input = some text)
include given

theorem run_check_of_argument (bytes : ByteArray) : (Command.check check).run bytes = .ofCheck check := by
  have idle : (Command.check check).readsInput = false := by simp [given]
  exact Command.run_of_withInput (Command.withInput_of_idle idle)

theorem run_check_of_standardInput :
    (Command.check { check with input := none }).run text.utf8Encode = .ofCheck check := by
  rcases Bool.eq_false_or_eq_true check.syntaxOnly with only | evaluates
  · -- The text is not read, but the check would not have looked at it either.
    have idle : (Command.check { check with input := none }).readsInput = false := by simp [only]
    have alike : ({ check with input := none } : Check).run = check.run := Check.run_congr_of_syntaxOnly only only rfl
    rw [Command.run_of_withInput (Command.withInput_of_idle idle), Outcome.ofCheck, Outcome.ofCheck, alike]
  · have reads : (Command.check { check with input := none }).readsInput = true := by simp [evaluates]
    rw [Command.run_of_withInput (Command.withInput_of_text reads rfl), ← given]

end Channels

/-- A check without any input is what comes of standard input without a byte. -/
theorem run_check_of_empty {check : Check} (missing : check.input = none) :
    (Command.check check).run .empty = .ofCheck check := by
  rcases Bool.eq_false_or_eq_true check.syntaxOnly with only | evaluates
  · have idle : (Command.check check).readsInput = false := by simp [only]
    exact Command.run_of_withInput (Command.withInput_of_idle idle)
  · have reads : (Command.check check).readsInput = true := by simp [missing, evaluates]
    have taken := Command.withInput_of_text reads List.utf8Encode_nil.symm
    have alike := Check.run_of_blank missing
    rw [Command.run_of_withInput taken, Outcome.ofCheck, Outcome.ofCheck, alike]

/-- A check is asked for in two ways, with the text of its records as an argument or on standard input,
the other arguments in any order. Both have the outcome of the check alone: what it gives in the chosen
layout, or the message of its error. Standard input is read only where a text is lacking and needed, and
bytes that are no text are then reported before the filter is looked at. -/
theorem run_agrees_with_check {check : Check} {text : Text} (given : check.input = some text)
    (filter_undashed : Undashed check.filter) (text_undashed : Undashed text) {direct piped : List Part}
    (direct_order : Perm direct (parts check)) (piped_order : Perm piped (parts { check with input := none })) :
    (∀ bytes, run (arguments direct) bytes = run (arguments piped) text.utf8Encode) ∧
    (∀ result, check.run = .ok result →
      run (arguments piped) text.utf8Encode = ⟨0, result.render check.pretty ++ ['\n'], []⟩) ∧
    (∀ error, check.run = .error error →
      run (arguments piped) text.utf8Encode = ⟨1, [], error.message ++ ['\n']⟩ ∧
        ∀ defect, error = .json defect → "Invalid JSON: ".toList <+: error.message) ∧
    (check.syntaxOnly = true →
      ∀ bytes other, run (arguments piped) bytes = run (arguments piped) other) ∧
    (check.syntaxOnly = false → ∀ bytes, (∀ t : Text, bytes ≠ t.utf8Encode) →
      ∃ wording, run (arguments piped) bytes = ⟨1, [], "IO error: ".toList ++ wording⟩) := by
  have argument : ∀ t ∈ check.input, Undashed t := by
    rw [given]
    rintro t ⟨⟩
    exact text_undashed
  have directly := run_arguments direct_order filter_undashed argument
  have piping := run_arguments piped_order filter_undashed nofun
  have alone : run (arguments piped) text.utf8Encode = .ofCheck check :=
    (piping _).trans (run_check_of_standardInput given)
  refine ⟨fun bytes => ?_, fun result ok => ?_, fun error failed => ⟨?_, ?_⟩, fun only bytes other => ?_,
    fun evaluates bytes broken => ?_⟩
  · rw [directly, run_check_of_argument given, alone]
  · rw [alone, Outcome.ofCheck, ok]
    rfl
  · rw [alone, Outcome.ofCheck, failed]
    rfl
  · rintro defect rfl
    cases defect <;> decide
  · rw [piping, piping]
    exact Command.run_congr (by simp [only]) bytes other
  · have reads : (Command.check { check with input := none }).readsInput = true := by simp [evaluates]
    have refused := Command.withInput_of_broken reads broken
    exact ⟨_, (piping bytes).trans (Command.run_of_unreadable refused)⟩

theorem run_agrees_with_check_of_misleading_texts :
    let text : Text := "[\x7b\"a\":\x7b\"b\":\"--pretty\"\x7d\x7d,1]".toList
    let check : Check := ⟨"a=b==--pretty".toList, some text, false, false, '='⟩
    let direct : List Part := [.separator '=', .input text, .filter check.filter]
    let piped : List Part := [.separator '=', .filter check.filter]
    let refused : Check := ⟨"a".toList, some text, true, false, '.'⟩
    check.input = some text ∧ refused.input = some text ∧ Undashed check.filter ∧ Undashed refused.filter ∧
      Undashed text ∧ Perm direct (parts check) ∧ Perm piped (parts { check with input := none }) ∧
      run (arguments direct) ⟨#[0xff]⟩ = run (arguments piped) text.utf8Encode ∧
      run (arguments piped) text.utf8Encode =
        ⟨0, "[\x7b\"a\":\x7b\"b\":\"--pretty\"\x7d\x7d]\n".toList, []⟩ ∧
      ∃ wording, run (arguments (parts { refused with input := none })) ⟨#[0xff]⟩ =
        ⟨1, [], "IO error: ".toList ++ wording⟩ := by
  intro text check direct piped refused
  have undashed : Undashed check.filter ∧ Undashed refused.filter ∧ Undashed text := by decide
  have direct_order : Perm direct (parts check) := by decide
  have piped_order : Perm piped (parts { check with input := none }) := by decide
  have kept : check.run = .ok (.filtered [.object [(['a'], .object [(['b'], .string "--pretty".toList)])]]) := rfl
  have broken : ∀ t : Text, ⟨#[0xff]⟩ ≠ t.utf8Encode := decode?_eq_none_iff.mp (by decide)
  have given : refused.input = some text := rfl
  obtain ⟨alike, answered, -⟩ :=
    run_agrees_with_check rfl undashed.1 undashed.2.2 direct_order piped_order
  obtain ⟨-, -, -, -, unreadable⟩ :=
    run_agrees_with_check given undashed.2.1 undashed.2.2 (Perm.refl _) (Perm.refl _)
  exact ⟨rfl, rfl, undashed.1, undashed.2.1, undashed.2.2, direct_order, piped_order, alike _,
    answered _ kept, unreadable rfl _ broken⟩

end RecordFilter.CommandLine
