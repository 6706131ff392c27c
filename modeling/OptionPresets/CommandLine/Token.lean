/-!
# OptionPresets.CommandLine.Token

A command line is a sequence of tokens. Most tokens are one argument; a level
flag that stands alone takes the next argument with it, whatever that
argument looks like:

```
--debug --compilation_level --trace -O=x        flag, level with value, unknown
```

`Token.scan` cuts arguments into tokens from left to right, and `Token.args` writes
a token as arguments again. Nothing is lost in between (`flatMap_args_scan`).
-/

namespace OptionPresets

/-! ## flags -/

/-- The flags without a value. -/
inductive Flag where
  | useTypes
  | functionWrapper
  | debug
  | changed
  | trace
  | listLevels
  | help
  /-- The short form of `help`. -/
  | shortHelp
  | version
  deriving DecidableEq, Repr

namespace Flag

/-- The flag as it is written. -/
def text : Flag → String
  | useTypes => "--use_types_for_optimization"
  | functionWrapper => "--assume_function_wrapper"
  | debug => "--debug"
  | changed => "--changed"
  | trace => "--trace"
  | listLevels => "--list-levels"
  | help => "--help"
  | shortHelp => "-h"
  | version => "--version"

/-- Every flag. -/
def all : List Flag :=
  [useTypes, functionWrapper, debug, changed, trace, listLevels, help, shortHelp, version]

/-- The flag that an argument is, if it is one. -/
def ofText? (arg : String) : Option Flag := all.find? (·.text = arg)

/-- Every flag is recognised. -/
@[simp] theorem ofText?_text (f : Flag) : ofText? f.text = some f := by
  cases f <;> decide

/-- An argument is a flag exactly if it is written like it. -/
theorem ofText?_eq_some_iff {arg : String} {f : Flag} : ofText? arg = some f ↔ arg = f.text := by
  constructor
  · intro hf
    have := List.find?_some hf
    simp_all
  · rintro rfl
    exact ofText?_text f

end Flag

/-- The flags that set the level and take their value from the next argument. -/
inductive LevelFlag where
  | long
  | short
  deriving DecidableEq, Repr

namespace LevelFlag

/-- The flag as it is written. -/
def text : LevelFlag → String
  | long => "--compilation_level"
  | short => "-O"

/-- The level flag that an argument is, if it is one. -/
def ofText? (arg : String) : Option LevelFlag := [long, short].find? (·.text = arg)

/-- Every level flag is recognised. -/
@[simp] theorem ofText?_text (f : LevelFlag) : ofText? f.text = some f := by
  cases f <;> decide

/-- An argument is a level flag exactly if it is written like it. -/
theorem ofText?_eq_some_iff {arg : String} {f : LevelFlag} :
    ofText? arg = some f ↔ arg = f.text := by
  constructor
  · intro hf
    have := List.find?_some hf
    simp_all
  · rintro rfl
    exact ofText?_text f

/-- What stands before a value in the same argument. -/
def lead : String := "--compilation_level="

/-- The value that stands in the same argument as the long flag, if the argument has that form. -/
def assigned? (arg : String) : Option String :=
  if lead.toList <+: arg.toList then some (String.ofList (arg.toList.drop lead.toList.length))
  else none

/-- An argument has the form exactly if it is the flag, an equals sign and the value. -/
theorem assigned?_eq_some_iff {arg value : String} :
    assigned? arg = some value ↔ arg = lead ++ value := by
  unfold assigned?
  constructor
  · intro h
    split at h
    · next hp =>
      obtain ⟨rest, hr⟩ := hp
      rw [← hr, List.drop_left, Option.some.injEq] at h
      rw [← String.toList_inj, String.toList_append, ← hr, ← h, String.toList_ofList]
    · cases h
  · rintro rfl
    rw [String.toList_append, if_pos (List.prefix_append _ _), List.drop_left,
      String.ofList_toList]

end LevelFlag

/-! ## tokens -/

/-- A unit of the command line. -/
inductive Token where
  | flag (f : Flag)
  /-- A level flag with the argument after it. -/
  | level (f : LevelFlag) (value : String)
  /-- The long level flag with a value in the same argument. -/
  | assignedLevel (value : String)
  /-- A level flag with no argument after it. -/
  | missingLevel (f : LevelFlag)
  /-- The long level flag with an equals sign and nothing after it. -/
  | emptyLevel
  /-- Any other argument. -/
  | unknown (arg : String)
  deriving DecidableEq, Repr

namespace Token

/-- The arguments that make up a token. -/
def args : Token → List String
  | flag f => [f.text]
  | level f value => [f.text, value]
  | assignedLevel value => [LevelFlag.lead ++ value]
  | missingLevel f => [f.text]
  | emptyLevel => [LevelFlag.lead]
  | unknown arg => [arg]

/-- The number of arguments that a token takes besides its first. -/
def extra : Token → Nat
  | level _ _ => 1
  | _ => 0

/-- The token that an argument begins, given the argument after it. -/
def read (arg : String) (next? : Option String) : Token :=
  match LevelFlag.ofText? arg with
  | some f =>
    match next? with
    | some value => level f value
    | none => missingLevel f
  | none =>
    match LevelFlag.assigned? arg with
    | some value => if value = "" then emptyLevel else assignedLevel value
    | none =>
      match Flag.ofText? arg with
      | some f => flag f
      | none => unknown arg

/-- An argument that begins no other token is taken as it is. -/
theorem read_eq_unknown_or (arg : String) (next? : Option String) :
    read arg next? = unknown arg ∨ ∀ a, read arg next? ≠ unknown a := by
  unfold read
  split
  · split <;> simp
  · split
    · split <;> simp
    · split <;> simp

/-- Cut arguments into tokens from left to right. -/
def scan : List String → List Token
  | [] => []
  | [arg] => [read arg none]
  | arg :: next :: rest =>
    match read arg (some next) with
    | level f value => level f value :: scan rest
    | token => token :: scan (next :: rest)

/-- A token begins with the argument it was read from, and takes the next one only as a value. -/
theorem args_read (arg : String) (next? : Option String) :
    (read arg next?).args = [arg] ∨
      ∃ f value, next? = some value ∧ read arg next? = level f value ∧ arg = f.text := by
  unfold read
  split
  · next f hf =>
    have hf := LevelFlag.ofText?_eq_some_iff.1 hf
    split
    · next value => exact .inr ⟨f, value, rfl, rfl, hf⟩
    · exact .inl (by rw [args, hf])
  · refine .inl ?_
    split
    · next value hv =>
      have hv := LevelFlag.assigned?_eq_some_iff.1 hv
      split
      · next he => simp [args, hv, he]
      · simp [args, hv]
    · split
      · next f hf => simp [args, Flag.ofText?_eq_some_iff.1 hf]
      · rfl

/-- The tokens of a command line are written as that command line. -/
theorem flatMap_args_scan (xs : List String) : (scan xs).flatMap args = xs := by
  fun_induction scan xs with
  | case1 => rfl
  | case2 arg =>
    rcases args_read arg none with h | ⟨_, _, h, -⟩
    · simp [h]
    · cases h
  | case3 arg next rest f value hr ih =>
    rcases args_read arg (some next) with h | ⟨g, v, hv, hg, ha⟩
    · rw [hr] at h
      simp [args] at h
    · cases hv
      rw [hr] at hg
      cases hg
      simp [args, ih, ha]
  | case4 arg next rest hr ih =>
    rcases args_read arg (some next) with h | ⟨g, v, -, hg, -⟩
    · simp [h, ih]
    · exact absurd hg (hr g v)

end Token

end OptionPresets
