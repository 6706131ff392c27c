import OptionPresets.CommandLine.Run

/-!
# OptionPresets.Main

The command line tool: it prints what `OptionPresets.run` answers.
-/

open OptionPresets

def main (args : List String) : IO UInt32 := do
  let outcome := run (.ofList ("jsopt-preset" :: args))
  (← IO.getStdout).putStr outcome.out
  (← IO.getStderr).putStr outcome.err
  return outcome.status
