import OptionPresets.CommandLine.Arguments
import OptionPresets.CommandLine.Token
import OptionPresets.Diagnostic.Log
import OptionPresets.Preset.Request

/-!
# OptionPresets.CommandLine.Session

Reading a command line collects settings and, for every token that makes no
sense, an error. A faulty token changes no setting, and reading goes on behind
it, so one session reports all faults of a command line. A session can go on
with more arguments; it stays failed once an error has been reported.

The level is kept as text, because it is resolved only after the whole command
line has been read.
-/

namespace OptionPresets

/-! ## settings -/

/-- What a command line asks for. -/
structure Settings where
  /-- The level as it was written. -/
  level : String := "SIMPLE_OPTIMIZATIONS"
  addOns : AddOns := {}
  /-- Print only the options that differ from the default ones. -/
  changedOnly : Bool := false
  /-- Print the steps that were carried out. -/
  trace : Bool := false
  /-- Print the level table in place of options. -/
  listLevels : Bool := false
  help : Bool := false
  version : Bool := false
  deriving DecidableEq, Repr

/-- The settings after a flag. A flag only ever turns something on. -/
def Flag.enable : Flag → Settings → Settings
  | .useTypes, s => { s with addOns.useTypes := true }
  | .functionWrapper, s => { s with addOns.functionWrapper := true }
  | .debug, s => { s with addOns.debug := true }
  | .changed, s => { s with changedOnly := true }
  | .trace, s => { s with trace := true }
  | .listLevels, s => { s with listLevels := true }
  | .help, s => { s with help := true }
  | .shortHelp, s => { s with help := true }
  | .version, s => { s with version := true }

/-! ## faults -/

/-- Why a token makes no sense. -/
inductive UsageError where
  /-- A level flag has no value. -/
  | missingLevel (flag : String)
  /-- An argument looks like a flag and is none. -/
  | unknownOption (arg : String)
  /-- There are no arguments but flags and their values. -/
  | unexpectedArgument (arg : String)
  deriving DecidableEq, Repr

/-- The report about a fault is about the flag or argument as it was written. -/
def UsageError.diagnostic : UsageError → Diagnostic
  | missingLevel flag => .error flag "missing level name"
  | unknownOption arg => .error arg "unknown option"
  | unexpectedArgument arg => .error arg "unexpected argument"

namespace Token

/-- The fault of a token, if it has one. An unknown argument counts as a flag if it starts with
a hyphen. -/
def fault? : Token → Option UsageError
  | flag _ => none
  | level _ _ => none
  | assignedLevel _ => none
  | missingLevel f => some (.missingLevel f.text)
  | emptyLevel => some (.missingLevel LevelFlag.long.text)
  | unknown arg =>
    if arg.toList.head? = some '-' then some (.unknownOption arg)
    else some (.unexpectedArgument arg)

/-- The settings after a token. Of several levels the last one stands. -/
def update : Token → Settings → Settings
  | flag f, s => f.enable s
  | level _ value, s => { s with level := value }
  | assignedLevel value, s => { s with level := value }
  | missingLevel _, s => s
  | emptyLevel, s => s
  | unknown _, s => s

end Token

/-! ## sessions -/

/-- The settings read so far and the faults found so far. -/
@[ext]
structure Session where
  settings : Settings := {}
  log : Diagnostic.Log := {}
  deriving DecidableEq, Repr

namespace Session

/-- Whether no error has been reported. -/
def ok (s : Session) : Bool := s.log.clean

/-- Put a diagnostic on record. -/
def report (s : Session) (d : Diagnostic) : Session := { s with log := s.log.report d }

/-- Take a token: change the settings, or put its fault on record. -/
def take (s : Session) (t : Token) : Session where
  settings := t.update s.settings
  log := match t.fault? with
    | some e => s.log.report e.diagnostic
    | none => s.log

/-- Take tokens in order. -/
def takeAll (s : Session) (ts : List Token) : Session := ts.foldl take s

theorem takeAll_append (s : Session) (ts us : List Token) :
    s.takeAll (ts ++ us) = (s.takeAll ts).takeAll us := by
  simp [takeAll]

/-! ## reading one token -/

/-- What became of the argument at a position. -/
inductive Reading where
  /-- No flag that is known; it is left to the caller. -/
  | notMatched
  | parsed
  /-- A flag without the value that it needs. -/
  | malformed
  deriving DecidableEq, Repr

/-- The result of reading one token: the position of the last argument that it took, and the
session after it. -/
structure Progress where
  reading : Reading
  position : Int
  session : Session
  deriving DecidableEq, Repr

/-- Read the token at a position. Only a level value moves the position, and an argument that is
no flag changes nothing. -/
def readAt (s : Session) (args : Arguments) (i : Int) : Progress :=
  match Token.read (args.textAt i) (args.get? (i + 1)) with
  | .unknown _ => ⟨.notMatched, i, s⟩
  | .missingLevel f => ⟨.malformed, i, s.take (.missingLevel f)⟩
  | .emptyLevel => ⟨.malformed, i, s.take .emptyLevel⟩
  | token => ⟨.parsed, i + token.extra, s.take token⟩

/-! ## reading to the end -/

/-- Read the token at a position and put on record an argument that is no flag. -/
def advance (s : Session) (args : Arguments) (i : Int) : Progress :=
  let p := s.readAt args i
  match p.reading with
  | .notMatched => { p with session := p.session.take (.unknown (args.textAt p.position)) }
  | .parsed | .malformed => p

/-- Whatever is at a position, it is taken as the token that it begins. -/
theorem advance_eq (s : Session) (args : Arguments) (i : Int) :
    ∃ r, s.advance args i =
      ⟨r, i + (Token.read (args.textAt i) (args.get? (i + 1))).extra,
        s.take (Token.read (args.textAt i) (args.get? (i + 1)))⟩ := by
  unfold advance readAt
  rcases Token.read_eq_unknown_or (args.textAt i) (args.get? (i + 1)) with h | h
  · rw [h]
    exact ⟨.notMatched, by simp [Token.extra]⟩
  · cases ht : Token.read (args.textAt i) (args.get? (i + 1)) with
    | unknown arg => exact absurd ht (h arg)
    | missingLevel | emptyLevel => exact ⟨.malformed, by simp [Token.extra]⟩
    | flag | level | assignedLevel => exact ⟨.parsed, rfl⟩

/-- Reading never moves back. -/
theorem le_position_advance (s : Session) (args : Arguments) (i : Int) :
    i ≤ (s.advance args i).position := by
  obtain ⟨r, h⟩ := s.advance_eq args i
  rw [h]
  simp only
  omega

/-- Read the arguments from a position to their end, token by token. -/
def parseFrom (s : Session) (args : Arguments) (i : Int) : Session :=
  if i < args.size then
    (s.advance args i).session.parseFrom args ((s.advance args i).position + 1)
  else s
termination_by (args.size - i).toNat
decreasing_by
  have := s.le_position_advance args i
  omega

/-- Read arguments to their end. -/
def parse (s : Session) (args : Arguments) : Session := s.parseFrom args 0

end Session

end OptionPresets
