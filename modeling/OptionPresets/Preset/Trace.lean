import OptionPresets.Preset.Request

/-!
# OptionPresets.Preset.Trace

Reading a trace back. The first line names the level, which the lines of the
add-ons do not repeat, so they are read for the level of the first line:

```
[preset] compilation level SIMPLE_OPTIMIZATIONS
[preset] debug options
[preset] wrapped output optimizations
```

The steps read from the trace of a request are the steps that were carried
out (`Request.readTrace_trace`), and no other text is read as these steps
(`Step.render_of_readTrace`).
-/

namespace OptionPresets

/-- The level that the first line of a trace names. -/
def Level.ofTraceLine? (line : String) : Option Level :=
  Level.all.find? fun l => "[preset] compilation level " ++ l.name = line

/-- The add-on that a later line names, at the level of the first line. -/
def AddOn.ofTraceLine? (level : Level) (line : String) : Option AddOn :=
  match line with
  | "[preset] debug options" => some .debug
  | "[preset] type-based optimizations" => some (.typeBased level)
  | "[preset] wrapped output optimizations" => some (.wrappedOutput level)
  | _ => none

namespace Step

/-- The steps that the lines of a trace name. -/
def ofTraceLines? : List String → Option (List Step)
  | [] => none
  | first :: rest =>
    (Level.ofTraceLine? first).bind fun l =>
      (rest.mapM (AddOn.ofTraceLine? l)).map fun as => .level l :: as.map .addOn

/-- The steps that a trace names, if every line of it names one. -/
def readTrace (text : String) : Option (List Step) :=
  (Lines.read text).bind ofTraceLines?

end Step

/-! ## reading what was written -/

/-- A trace line is one line. -/
theorem Step.newline_not_mem_line (s : Step) : '\n' ∉ s.line.toList := by
  cases s with
  | level l => cases l <;> decide
  | addOn a => cases a <;> dsimp only [line] <;> decide

/-- The line of a level names the level. -/
theorem Level.ofTraceLine?_line (l : Level) : Level.ofTraceLine? (Step.level l).line = some l := by
  cases l <;> decide

/-- The line of an add-on names the add-on, at the level it was run for. -/
theorem AddOn.ofTraceLine?_line {a : AddOn} {addOns : AddOns} {l : Level}
    (h : a ∈ addOns.toList l) : AddOn.ofTraceLine? l (Step.addOn a).line = some a := by
  simp only [AddOns.toList, List.mem_append, List.mem_ite_nil_right, List.mem_singleton] at h
  rcases h with (⟨-, rfl⟩ | ⟨-, rfl⟩) | ⟨-, rfl⟩ <;> rfl

/-- The trace of a request is made of the lines of its steps. -/
theorem Request.read_trace (r : Request) : Lines.read r.trace = some (r.steps.map Step.line) := by
  refine Lines.read_render fun line hm => ?_
  obtain ⟨s, -, rfl⟩ := List.mem_map.1 hm
  exact s.newline_not_mem_line

/-- The trace of a request names the steps that were carried out. -/
theorem Request.readTrace_trace (r : Request) : Step.readTrace r.trace = some r.steps := by
  have ha : ((r.addOns.toList r.level).map fun a => (Step.addOn a).line).mapM
      (AddOn.ofTraceLine? r.level) = some (r.addOns.toList r.level) :=
    Lines.mapM_map fun _ hm => AddOn.ofTraceLine?_line hm
  rw [Step.readTrace, r.read_trace, Request.steps, List.map_cons, List.map_map]
  simp only [Option.bind_some, Step.ofTraceLines?, Level.ofTraceLine?_line]
  exact congrArg _ ha

/-! ## writing what was read -/

/-- Only the line of a level names it. -/
theorem Level.line_of_ofTraceLine? {line : String} {l : Level}
    (h : Level.ofTraceLine? line = some l) : (Step.level l).line = line := by
  have hl := List.find?_some h
  exact of_decide_eq_true hl

/-- Only the line of an add-on names it. -/
theorem AddOn.line_of_ofTraceLine? {l : Level} {line : String} {a : AddOn}
    (h : AddOn.ofTraceLine? l line = some a) : (Step.addOn a).line = line := by
  unfold AddOn.ofTraceLine? at h
  split at h <;> cases h <;> rfl

/-- Only the lines of steps name them. -/
theorem Step.map_line_of_ofTraceLines? {lines : List String} {ss : List Step}
    (h : Step.ofTraceLines? lines = some ss) : ss.map line = lines := by
  cases lines with
  | nil => cases h
  | cons first rest =>
    obtain ⟨l, hl, h⟩ := Option.bind_eq_some_iff.1 h
    obtain ⟨as, has, rfl⟩ := Option.map_eq_some_iff.1 h
    have hrest : as.map (fun a => (Step.addOn a).line) = rest :=
      Lines.map_of_mapM (fun _ _ => AddOn.line_of_ofTraceLine?) has
    rw [List.map_cons, List.map_map, Level.line_of_ofTraceLine? hl]
    exact congrArg _ hrest

/-- Steps are named by no other text than their lines. -/
theorem Step.render_of_readTrace {text : String} {ss : List Step}
    (h : Step.readTrace text = some ss) : Lines.render (ss.map line) = text := by
  obtain ⟨lines, hlines, hss⟩ := Option.bind_eq_some_iff.1 h
  rw [Step.map_line_of_ofTraceLines? hss, Lines.render_of_read hlines]

end OptionPresets
