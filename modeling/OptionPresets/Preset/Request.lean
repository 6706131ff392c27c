import OptionPresets.Lines
import OptionPresets.Preset.Primary
import OptionPresets.Preset.AddOn

/-!
# OptionPresets.Preset.Request

A request names a level and the add-ons wanted with it. It is carried out in
steps, in this order:

1. the level itself;
2. the debug add-on, which can so restore assertions that the level removes;
3. the type-based add-on;
4. the add-on for wrapped output.

Each step that is carried out can leave a line in a trace. Keeping a trace
changes nothing else (`options_run`), and the lines depend on the request
alone (`trace_run`).
-/

namespace OptionPresets

/-! ## requests -/

/-- The add-ons wanted with a level. -/
structure AddOns where
  debug : Bool := false
  useTypes : Bool := false
  functionWrapper : Bool := false
  deriving DecidableEq, Repr

/-- A level and the add-ons wanted with it. -/
structure Request where
  level : Level := .simple
  addOns : AddOns := {}
  deriving DecidableEq, Repr

/-- The add-ons in the order in which they run, for a given level. -/
def AddOns.toList (a : AddOns) (level : Level) : List AddOn :=
  (if a.debug then [.debug] else []) ++
  (if a.useTypes then [.typeBased level] else []) ++
  (if a.functionWrapper then [.wrappedOutput level] else [])

/-! ## steps -/

/-- One step of carrying out a request. -/
inductive Step where
  | level (l : Level)
  | addOn (a : AddOn)
  deriving DecidableEq, Repr

/-- Write the options of a step. -/
def Step.apply : Step → Options → Options
  | .level l, o => l.apply o
  | .addOn a, o => a.apply o

/-- The trace line of a step, without its newline. Add-ons do not repeat the level. -/
def Step.line : Step → String
  | .level l => "[preset] compilation level " ++ l.name
  | .addOn .debug => "[preset] debug options"
  | .addOn (.typeBased _) => "[preset] type-based optimizations"
  | .addOn (.wrappedOutput _) => "[preset] wrapped output optimizations"

/-- The steps of a request: its level first, then its add-ons. -/
def Request.steps (r : Request) : List Step :=
  .level r.level :: (r.addOns.toList r.level).map .addOn

/-- The text that a request leaves in a trace. -/
def Request.trace (r : Request) : String := Lines.render (r.steps.map Step.line)

/-! ## carrying out a request -/

/-- The options written so far and, if one is kept, the trace so far. -/
structure Configuration where
  options : Options := {}
  trace : Option String := none
  deriving DecidableEq, Repr

/-- Carry out a step and note it in the trace. -/
def Configuration.perform (c : Configuration) (s : Step) : Configuration where
  options := s.apply c.options
  trace := c.trace.map (· ++ s.line ++ "\n")

/-- Carry out the steps of a request in order. -/
def Request.run (r : Request) (c : Configuration) : Configuration :=
  r.steps.foldl .perform c

/-- The options that a request makes of given ones. -/
def Request.configure (r : Request) (o : Options) : Options := (r.run ⟨o, none⟩).options

/-- Steps write the options one after the other, whether or not a trace is kept. -/
theorem Configuration.options_foldl (ss : List Step) (c : Configuration) :
    (ss.foldl perform c).options = ss.foldl (fun o s => s.apply o) c.options := by
  induction ss generalizing c with
  | nil => rfl
  | cons s ss ih => exact ih (c.perform s)

/-- Steps add their lines to a trace that is kept. -/
theorem Configuration.trace_foldl (ss : List Step) (c : Configuration) :
    (ss.foldl perform c).trace = c.trace.map (· ++ Lines.render (ss.map Step.line)) := by
  induction ss generalizing c with
  | nil => cases c with
    | mk o t => cases t <;> simp
  | cons s ss ih =>
    rw [List.foldl_cons, ih]
    cases ht : c.trace <;> simp [perform, ht, String.append_assoc]

/-- The options do not depend on the trace. -/
theorem Request.options_run (r : Request) (c : Configuration) :
    (r.run c).options = r.configure c.options := by
  simp only [configure, run, Configuration.options_foldl]

/-- The request alone decides what is added to a trace. -/
theorem Request.trace_run (r : Request) (c : Configuration) :
    (r.run c).trace = c.trace.map (· ++ r.trace) :=
  Configuration.trace_foldl r.steps c

end OptionPresets
