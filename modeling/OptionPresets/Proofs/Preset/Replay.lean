import OptionPresets.Preset.Trace
import OptionPresets.Proofs.Preset.Order

/-!
# OptionPresets.Proofs.Preset.Replay

A trace tells all that a request has done. It can be replayed on a record, line by
line, with nothing to remember but the level that the first line has named:

```
[preset] compilation level SIMPLE_OPTIMIZATIONS   apply the level
[preset] wrapped output optimizations             apply the add-on for that level
```

A replay comes to the record of the request (`Request.replay_trace`), and the
request itself can be read from the trace and from no other text
(`Request.ofTrace?_eq_some_iff`). So requests are told apart by their traces, also
if they do the same to every record.
-/

namespace OptionPresets

/-! ## replays -/

/-- What a replay has come to: the level, once a line has named it, and the options. -/
structure Replay where
  level? : Option Level
  options : Options

/-- Replay a line. The first line applies the level that it names, and any other line applies the
add-on that it names, for the level of the first line. -/
def Replay.line? (c : Replay) (line : String) : Option Replay :=
  match c.level? with
  | none => (Level.ofTraceLine? line).map fun l => ⟨some l, l.apply c.options⟩
  | some l => (AddOn.ofTraceLine? l line).map fun a => ⟨some l, a.apply c.options⟩

/-- Replay the lines of a trace in order, if each of them names something to apply. -/
def Options.replay (text : String) (o : Options) : Option Options :=
  (Lines.read text).bind fun lines => (lines.foldlM Replay.line? ⟨none, o⟩).map (·.options)

namespace Replay

/-- The line of a level replays the level. -/
theorem line?_level (l : Level) (o : Options) :
    line? ⟨none, o⟩ (Step.level l).line = some ⟨some l, l.apply o⟩ := by
  dsimp only [line?]
  rw [Level.ofTraceLine?_line]
  rfl

/-- The line of an add-on replays the add-on, if it was run for the level of the first line. -/
theorem line?_addOn {l : Level} {a : AddOn}
    (h : AddOn.ofTraceLine? l (Step.addOn a).line = some a) (o : Options) :
    line? ⟨some l, o⟩ (Step.addOn a).line = some ⟨some l, a.apply o⟩ := by
  dsimp only [line?]
  rw [h]
  rfl

/-- Behind the first line a trace replays its add-ons in order. -/
theorem foldlM_addOns {l : Level} {as : List AddOn}
    (h : ∀ a ∈ as, AddOn.ofTraceLine? l (Step.addOn a).line = some a) (o : Options) :
    (as.map fun a => (Step.addOn a).line).foldlM line? ⟨some l, o⟩ =
      some ⟨some l, AddOn.applyAll as o⟩ := by
  induction as generalizing o with
  | nil => rfl
  | cons a as ih =>
      rw [List.forall_mem_cons] at h
      rw [List.map_cons, List.foldlM_cons, line?_addOn h.1]
      exact ih h.2 (a.apply o)

end Replay

namespace Request

/-- To replay the trace of a request is to carry out the request. -/
theorem replay_trace (r : Request) (o : Options) : o.replay r.trace = some (r.configure o) := by
  have haddOns := Replay.foldlM_addOns
    (fun a (ha : a ∈ r.addOns.toList r.level) => AddOn.ofTraceLine?_line ha) (r.level.apply o)
  rw [Options.replay, read_trace, steps, List.map_cons, List.map_map, Option.bind_some,
    List.foldlM_cons, Replay.line?_level, configure_eq_applyAll]
  exact congrArg (Option.map (·.options)) haddOns

/-! ## requests read from traces -/

/-- The request that is carried out in the given steps, if there is one. -/
def ofSteps? : List Step → Option Request
  | .level l :: ss =>
    (some ⟨l, .addOn .debug ∈ ss, .addOn (.typeBased l) ∈ ss, .addOn (.wrappedOutput l) ∈ ss⟩).filter
      fun r => r.steps = .level l :: ss
  | _ => none

/-- The request that has left a trace, if one has. -/
def ofTrace? (text : String) : Option Request := (Step.readTrace text).bind ofSteps?

theorem ofSteps?_steps (r : Request) : ofSteps? r.steps = some r := by
  obtain ⟨l, d, t, w⟩ := r
  cases l <;> cases d <;> cases t <;> cases w <;> rfl

/-- A request is found by its steps and by no others. -/
theorem ofSteps?_eq_some_iff {ss : List Step} {r : Request} :
    ofSteps? ss = some r ↔ r.steps = ss := by
  constructor
  · intro h
    unfold ofSteps? at h
    split at h
    · exact of_decide_eq_true (Option.filter_eq_some_iff.1 h).2
    · contradiction
  · rintro rfl
    exact ofSteps?_steps r

/-- A request is read from its trace and from no other text. -/
theorem ofTrace?_eq_some_iff {text : String} {r : Request} :
    ofTrace? text = some r ↔ r.trace = text := by
  constructor
  · intro h
    obtain ⟨ss, hread, hss⟩ := Option.bind_eq_some_iff.1 h
    rw [trace, ofSteps?_eq_some_iff.1 hss]
    exact Step.render_of_readTrace hread
  · rintro rfl
    rw [ofTrace?, readTrace_trace]
    exact ofSteps?_steps r

/-- Requests with the same trace are the same. -/
theorem trace_inj {r r' : Request} : r.trace = r'.trace ↔ r = r' := by
  constructor
  · intro h
    have hr : ofTrace? r'.trace = some r := ofTrace?_eq_some_iff.2 h
    rw [ofTrace?_eq_some_iff.2 rfl] at hr
    exact (Option.some.inj hr).symm
  · rintro rfl
    rfl

/-! ## the law of the trace -/

/-- Types are not used below the advanced level, whether they are asked for or not. -/
theorem configure_useTypes {r : Request} (h : r.level ≠ .advanced) (b : Bool) (o : Options) :
    configure { r with addOns.useTypes := b } o = r.configure o := by
  have hwrites : (AddOns.toList { r.addOns with useTypes := b } r.level).flatMap AddOn.writes =
      (r.addOns.toList r.level).flatMap AddOn.writes := by
    obtain ⟨l, d, t, w⟩ := r
    cases l with
    | advanced => exact absurd rfl h
    | bundle | whitespaceOnly | simple =>
        cases d <;> cases t <;> cases w <;> cases b <;> rfl
  rw [configure_eq_applyAll, configure_eq_applyAll, AddOn.applyAll_eq_assignAll,
    AddOn.applyAll_eq_assignAll, hwrites]

/-- A trace is a faithful log that changes nothing. With or without it a request makes the same
record, and what the request adds to it does not depend on the record or on what the trace held
before. This text replays to the record of the request on any record, and of all requests only this
one is read from it. So requests that leave the same trace are the same, though below the advanced
level two that differ in the use of types make the same of every record. -/
theorem trace_faithful (r : Request) :
    (∀ (o : Options) (t : String), (r.run ⟨o, some t⟩).options = (r.run ⟨o, none⟩).options) ∧
    (∀ (o : Options) (t : String), (r.run ⟨o, some t⟩).trace = some (t ++ r.trace)) ∧
    (∀ (o : Options) (t : Option String), o.replay r.trace = some (r.run ⟨o, t⟩).options) ∧
    (∀ text, ofTrace? text = some r ↔ r.trace = text) ∧
    (∀ (r' : Request) (o o' : Options) (t : String),
      (r.run ⟨o, some t⟩).trace = (r'.run ⟨o', some t⟩).trace ↔ r = r') ∧
    (r.level ≠ .advanced → ∀ (b : Bool) (o : Options),
      configure { r with addOns.useTypes := b } o = r.configure o) := by
  refine ⟨?_, ?_, ?_, ?_, ?_, ?_⟩
  · intro o t
    rw [options_run, options_run]
  · intro o t
    exact r.trace_run ⟨o, some t⟩
  · intro o t
    rw [options_run]
    exact r.replay_trace o
  · intro text
    exact ofTrace?_eq_some_iff
  · intro r' o o' t
    rw [trace_run, trace_run, Option.map_some, Option.map_some, Option.some.injEq,
      String.append_right_inj]
    exact trace_inj
  · exact configure_useTypes

/-- A wrapper with types asked for at the simple level, where they are not used. -/
theorem trace_faithful_unused_types :
    (Request.level ⟨.simple, false, true, true⟩ ≠ .advanced ∧
      ∀ o : Options, configure ⟨.simple, false, false, true⟩ o =
        configure ⟨.simple, false, true, true⟩ o) ∧
    ∀ o : Options, (Request.run ⟨.simple, false, true, true⟩ ⟨o, some ""⟩).trace ≠
      (Request.run ⟨.simple, false, false, true⟩ ⟨o, some ""⟩).trace := by
  obtain ⟨-, -, -, -, hinj, htypes⟩ := trace_faithful ⟨.simple, false, true, true⟩
  have hlevel : Request.level ⟨.simple, false, true, true⟩ ≠ .advanced := by decide
  refine ⟨⟨hlevel, htypes hlevel false⟩, fun o he => ?_⟩
  exact absurd ((hinj ⟨.simple, false, false, true⟩ o o "").1 he) (by decide)

end Request

end OptionPresets
