import OptionPresets.CommandLine.Session
import OptionPresets.Options.Listing
import OptionPresets.Preset.Resolution

/-!
# OptionPresets.CommandLine.Run

The tool as a function from its arguments to what it prints and the status it
ends with. A command line with faults is answered by its faults and the usage
text. Otherwise the first of these that is asked for is printed:

1. the usage text;
2. the version;
3. the level table;
4. the options of the level with its add-ons, all of them or only those that
   differ from the default ones, with the trace on the error stream.

Only in the last case the level has to be known.
-/

namespace OptionPresets

/-! ## fixed texts -/

/-- How the tool is used. -/
def usage : String := Lines.render
  ["Usage: jsopt-preset [options]",
   "Print the compiler options selected by a compilation level.",
   "",
   "  --compilation_level, -O LEVEL  BUNDLE, WHITESPACE_ONLY, SIMPLE_OPTIMIZATIONS",
   "                                 or ADVANCED_OPTIMIZATIONS (default SIMPLE)",
   "  --use_types_for_optimization   Enable type-based optimizations",
   "  --assume_function_wrapper      Output is wrapped in a function",
   "  --debug                        Readable names, keep assertions",
   "  --changed                      Print only options that differ from defaults",
   "  --trace                        Print applied presets to stderr",
   "  --list-levels                  Print levels and their aliases",
   "  -h, --help                     Show this help message",
   "  --version                      Show version information"]

/-- The name of the tool and its version. -/
def versionText : String := Lines.render ["jsopt-preset 0.1.0"]

/-! ## running -/

/-- What a run prints on its two streams, and its exit status. -/
structure Outcome where
  status : UInt32
  out : String
  err : String
  deriving DecidableEq, Repr

/-- Resolve the level and print the options. An unknown level is reported without the usage
text. -/
def Settings.answerOptions (s : Settings) : Outcome :=
  let r := resolve s.level s.addOns (if s.trace then some "" else none)
  let trace := r.trace.getD ""
  match r.options with
  | .error e => ⟨1, "", trace ++ e.diagnostic.render⟩
  | .ok o => ⟨0, if s.changedOnly then Options.renderChanges {} o else o.render, trace⟩

/-- Answer a command line without faults. -/
def Settings.answer (s : Settings) : Outcome :=
  if s.help then ⟨0, usage, ""⟩
  else if s.version then ⟨0, versionText, ""⟩
  else if s.listLevels then ⟨0, Level.table, ""⟩
  else s.answerOptions

/-- Answer what has been read. Any fault wins over all settings. -/
def Session.answer (s : Session) : Outcome :=
  if s.ok then s.settings.answer else ⟨1, "", s.log.render ++ usage⟩

/-- Run the tool on its arguments, of which the first is its own name. -/
def run (argv : Arguments) : Outcome := (Session.parse {} (argv.drop 1)).answer

end OptionPresets
