import RecordFilter.CommandLine

/-! The program: arguments and standard input in, both outputs and an exit code out. A terminal on standard
input is left unread. -/

open RecordFilter.CommandLine

def main (arguments : List String) : IO UInt32 := do
  let outcome ← match read (arguments.map String.toList) with
    | none => pure Outcome.misuse
    | some command => do
      let input ← IO.getStdin
      let bytes ← if command.readsInput && !(← input.isTty) then input.readBinToEnd else pure .empty
      pure (command.run bytes)
  (← IO.getStdout).putStr (String.ofList outcome.output)
  (← IO.getStderr).putStr (String.ofList outcome.report)
  return outcome.exit.toUInt32
