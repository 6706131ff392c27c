import OptionPresets.Proofs.Preset.LastWriter

/-!
# OptionPresets.Proofs.Preset.Overwrite

No operation looks at the record that it writes. A run of operations has a
footprint, the settings that some operation of it writes (`written`), and this is
all there is to know about where the run starts from:

* on its footprint a run leaves values that do not depend on the record;
* off its footprint it leaves the record alone.

So a run makes up for everything that one of its own operations has done before
it. In particular doing an operation twice is doing it once, and an operation can
be left out if it is done again later.
-/

namespace OptionPresets

/-! ## footprints of assignments -/

namespace Options

open Assignment

variable {as bs : List Assignment} {s : Setting}

/-- What assignments leave in a setting that they are about does not depend on the record. -/
theorem get_assignAll_of_mem (h : s ∈ targets as) (o p : Options) :
    (o.assignAll as).get s = (p.assignAll as).get s := by
  obtain ⟨v, hv⟩ := exists_lastValue? h
  rw [get_assignAll, get_assignAll, hv, Option.getD_some, Option.getD_some]

/-- A setting that assignments are not about keeps its value. -/
theorem get_assignAll_of_not_mem (h : s ∉ targets as) (o : Options) :
    (o.assignAll as).get s = o.get s := by
  rw [get_assignAll, lastValue?_of_not_mem h, Option.getD_none]

/-- Assignments hide earlier ones to the same settings. -/
theorem assignAll_assignAll_of_subset (h : targets as ⊆ targets bs) (o : Options) :
    (o.assignAll as).assignAll bs = o.assignAll bs := by
  refine eq_of_get_eq fun s => ?_
  by_cases hs : s ∈ targets bs
  · exact get_assignAll_of_mem hs (o.assignAll as) o
  · have ha : s ∉ targets as := fun hm => hs (h hm)
    rw [get_assignAll_of_not_mem hs, get_assignAll_of_not_mem hs, get_assignAll_of_not_mem ha]

end Options

/-! ## operations -/

/-- Something that can be done to a record: a setter, a preset or a whole request. -/
inductive Operation where
  | skipTransformations
  | setRenaming (vars : VariableRenaming) (properties : PropertyRenaming)
  | setWarning (group : WarningGroup) (level : ReportLevel)
  | preset (st : Step)
  /-- Carry out a request, and go on with a trace if one is kept. -/
  | configure (r : Request) (trace : Option String)
  deriving DecidableEq, Repr

namespace Operation

/-- The record after an operation. -/
def apply : Operation → Options → Options
  | skipTransformations, o => o.skipTransformations
  | setRenaming vars properties, o => o.setRenaming vars properties
  | setWarning group level, o => o.setWarning group level
  | preset st, o => st.apply o
  | configure r trace, o => (r.run ⟨o, trace⟩).options

/-- The record after a run of operations. -/
def applyAll (w : List Operation) (o : Options) : Options := w.foldl (fun o x => x.apply o) o

/-! ## what operations write -/

/-- What an operation writes. -/
def writes : Operation → List Assignment
  | skipTransformations => [⟨.skipAllPasses, true⟩]
  | setRenaming vars properties => [⟨.variableRenaming, vars⟩, ⟨.propertyRenaming, properties⟩]
  | setWarning .globalThis level => [⟨.globalThisWarning, some level⟩]
  | preset st => st.writes
  | configure r _ => r.writeLists.flatten

/-- An operation does nothing but its assignments. -/
theorem apply_eq_assignAll (x : Operation) (o : Options) : x.apply o = o.assignAll x.writes := by
  cases x with
  | skipTransformations => rfl
  | setRenaming vars properties => rfl
  | setWarning group level => cases group; rfl
  | preset st => exact st.apply_eq_assignAll o
  | configure r trace =>
      rw [apply, Request.run, Configuration.options_foldl, Step.foldl_apply,
        Request.map_writes_steps, writes]

/-- A run does nothing but the assignments of its operations, in order. -/
theorem applyAll_eq_assignAll (w : List Operation) (o : Options) :
    applyAll w o = o.assignAll (w.flatMap writes) :=
  Options.foldl_eq_assignAll apply_eq_assignAll w o

/-- The settings that some operation of a run writes. -/
def written (w : List Operation) : List Setting :=
  w.flatMap fun x => Assignment.targets x.writes

/-- The footprint of a run is what its assignments are about. -/
theorem targets_flatMap_writes (w : List Operation) :
    Assignment.targets (w.flatMap writes) = written w :=
  List.map_flatMap

theorem targets_writes_subset {x : Operation} {w : List Operation} (h : x ∈ w) :
    Assignment.targets x.writes ⊆ written w :=
  fun _ hs => List.mem_flatMap.2 ⟨x, h, hs⟩

/-! ## runs from different records -/

section

variable {w : List Operation} {s : Setting}

/-- On its footprint a run leaves the same values whatever record it starts from. -/
theorem get_applyAll_of_mem (h : s ∈ written w) (o p : Options) :
    (applyAll w o).get s = (applyAll w p).get s := by
  rw [← targets_flatMap_writes] at h
  rw [applyAll_eq_assignAll, applyAll_eq_assignAll]
  exact Options.get_assignAll_of_mem h o p

/-- Off its footprint a run leaves the record alone. -/
theorem get_applyAll_of_not_mem (h : s ∉ written w) (o : Options) :
    (applyAll w o).get s = o.get s := by
  rw [← targets_flatMap_writes] at h
  rw [applyAll_eq_assignAll]
  exact Options.get_assignAll_of_not_mem h o

/-- A run hides an operation of its own that was done before it. -/
theorem applyAll_apply_of_mem {x : Operation} (h : x ∈ w) (o : Options) :
    applyAll w (x.apply o) = applyAll w o := by
  have hsub : Assignment.targets x.writes ⊆ Assignment.targets (w.flatMap writes) := by
    rw [targets_flatMap_writes]
    exact targets_writes_subset h
  rw [applyAll_eq_assignAll, applyAll_eq_assignAll, apply_eq_assignAll]
  exact Options.assignAll_assignAll_of_subset hsub o

end

/-- A run never reads the record: from any two records it leaves the same values on its footprint
and the values that were there off its footprint, and it makes up for whatever one of its own
operations has done before it. -/
theorem applyAll_overwrites (w : List Operation) :
    (∀ o p : Options,
      (∀ s ∈ written w, (applyAll w o).get s = (applyAll w p).get s) ∧
      ∀ s ∉ written w, (applyAll w o).get s = o.get s ∧ (applyAll w p).get s = p.get s) ∧
    ∀ x ∈ w, ∀ o : Options, applyAll w (x.apply o) = applyAll w o := by
  refine ⟨fun o p => ⟨?_, ?_⟩, ?_⟩
  · intro s hs
    exact get_applyAll_of_mem hs o p
  · intro s hs
    exact ⟨get_applyAll_of_not_mem hs o, get_applyAll_of_not_mem hs p⟩
  · intro x hx o
    exact applyAll_apply_of_mem hx o

/-- Debugging and the advanced level disagree about assertions, and still a run of the two hides a
debugging step before it. -/
theorem applyAll_overwrites_debug :
    (Setting.removeClosureAsserts ∈ written [preset (.addOn .debug), preset (.level .advanced)] ∧
      Setting.skipAllPasses ∉ written [preset (.addOn .debug), preset (.level .advanced)] ∧
      preset (.addOn .debug) ∈ [preset (.addOn .debug), preset (.level .advanced)]) ∧
    applyAll [preset (.addOn .debug), preset (.level .advanced)] ((preset (.addOn .debug)).apply {}) =
      applyAll [preset (.addOn .debug), preset (.level .advanced)] {} :=
  ⟨by decide, (applyAll_overwrites _).2 _ (by decide) {}⟩

end Operation

end OptionPresets
