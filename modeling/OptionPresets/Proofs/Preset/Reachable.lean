import OptionPresets.Proofs.Preset.Profile

/-!
# OptionPresets.Proofs.Preset.Reachable

The records that presets can make of the default one. A record is `Reachable` if
some calls lead to it, in any order and with any levels, be it single presets or
whole requests. `Consistent` says what the fields of such a record have to do
with each other:

* some fields are never touched, or never given their strongest value;
* one scope governs inlining, renaming and the removal of variables;
* the safe, the advanced and the type-based switches are each on or off
  together;
* what the advanced level leaves behind depends on what ran after it.

These conditions are exact (`reachable_iff_consistent`): a record that meets
them is reached by the recipe of its profile, so nothing more can be said of
the fields of all reachable records.
-/

namespace OptionPresets

/-! ## calls -/

/-- A call that writes presets into a record. -/
inductive Call where
  | preset (st : Step)
  | configure (r : Request)
  deriving DecidableEq, Repr

/-- The record after a call. -/
def Call.apply : Call → Options → Options
  | .preset st, o => st.apply o
  | .configure r, o => r.configure o

/-- The record can be made of the default one by calls. -/
def Reachable (o : Options) : Prop :=
  ∃ cs : List Call, cs.foldl (fun o c => c.apply o) {} = o

/-- The steps that a call takes. -/
def Call.steps : Call → List Step
  | .preset st => [st]
  | .configure r => r.steps

/-- Calls do nothing but their steps. -/
theorem Call.foldl_apply (cs : List Call) (o : Options) :
    cs.foldl (fun o c => c.apply o) o = (cs.flatMap steps).foldl (fun o st => st.apply o) o := by
  induction cs generalizing o with
  | nil => rfl
  | cons c cs ih =>
      rw [List.foldl_cons, ih, List.flatMap_cons, List.foldl_append]
      cases c with
      | preset st => rfl
      | configure r => rw [apply, steps, Request.configure, Request.run, Configuration.options_foldl]

/-! ## switches that go together -/

namespace Options

/-- The switches of the optimizations that every optimizing level turns on. -/
def safeSwitches (o : Options) : List Bool :=
  [o.closurePass, o.naming.labelRenaming, o.localPasses.foldConstants,
   o.localPasses.coalesceVariableNames, o.localPasses.collapseVariableDeclarations,
   o.localPasses.convertToDottedProperties, o.localPasses.optimizeArgumentsArray,
   o.localPasses.collapseObjectLiterals, o.localPasses.protectHiddenSideEffects,
   o.deadCode.removeUnreachableCode, o.deadCode.deadAssignmentElimination]

/-- The switches that only the advanced level turns on and nothing turns off again. -/
def advancedSwitches (o : Options) : List Bool :=
  [o.checks.checkTypes, o.localPasses.extractPrototypeMemberDeclarations,
   o.localPasses.computeFunctionSideEffects, o.localPasses.assumeStrictThis,
   o.deadCode.removeUnusedPrototypeProperties, o.deadCode.removeUnusedClassProperties,
   o.deadCode.smartNameRemoval, o.deadCode.removeAbstractMethods, o.crossChunk.codeMotion,
   o.crossChunk.methodMotion, o.calls.devirtualizeMethods, o.calls.optimizeCalls,
   o.calls.optimizeESClassConstructors]

/-- The switches of the optimizations that rely on types. -/
def typedSwitches (o : Options) : List Bool :=
  [o.typeBased.disambiguateProperties, o.typeBased.ambiguateProperties,
   o.typeBased.inlineProperties, o.typeBased.useTypesForLocalOptimization]

end Options

/-! ## what presets keep consistent -/

/-- What the fields of a record that presets have made have to do with each other. -/
structure Consistent (o : Options) : Prop where
  /-- Properties keep their names. -/
  propertyRenaming_eq : o.naming.properties = .off
  rewriteFunctionExpressions_eq : o.localPasses.rewriteFunctionExpressions = false
  assumeClosures_eq : o.inlining.assumeClosuresOnlyCaptureReferences = false
  /-- Inputs are at most sorted. -/
  dependencyMode_ne_prune : o.dependencyMode ≠ .prune
  globalThis_ne_error : o.checks.warnings.globalThis ≠ some .error
  /-- One scope governs inlining, the removal of variables and renaming. -/
  functionInlining_eq : o.inlining.functions = o.inlining.vars
  removeUnusedVariables_eq : o.deadCode.removeUnusedVariables = o.inlining.vars
  variableRenaming_eq : o.naming.vars = o.inlining.vars.renaming
  constantVars_of_all : o.inlining.vars = .all → o.inlining.constantVars = true
  collapseFunctions_of_all :
    o.inlining.vars = .all → o.localPasses.collapseAnonymousFunctions = true
  collapseProperties_of_all : o.inlining.vars = .all → o.collapseProperties ≠ .none
  all_of_warning : o.checks.warnings.globalThis = some .warning → o.inlining.vars = .all
  /-- Names are made readable exactly if assertions are kept. -/
  generatePseudoNames_eq : o.naming.generatePseudoNames = !o.deadCode.removeJ2clAsserts
  /-- Safe optimizations run exactly if the inputs are sorted. -/
  safe_eq : ∀ b ∈ o.safeSwitches, b = decide (o.dependencyMode = .sortOnly)
  globalThis_isSome :
    o.checks.warnings.globalThis.isSome = decide (o.dependencyMode = .sortOnly)
  /-- The inputs are sorted exactly after one of the levels that optimize. -/
  sortOnly_iff : o.dependencyMode = .sortOnly ↔
    o.replaceIdGenerators = false ∨ o.checks.checkSymbols = true
  advanced_eq : ∀ b ∈ o.advancedSwitches, b = o.checks.checkSymbols
  typed_eq : ∀ b ∈ o.typedSwitches, b = o.typeBased.disambiguateProperties
  simple_of_off : o.checks.warnings.globalThis = some .off → o.replaceIdGenerators = false
  advanced_of_warning :
    o.checks.warnings.globalThis = some .warning → o.checks.checkSymbols = true
  off_of_local : o.inlining.vars = .localOnly → o.checks.warnings.globalThis = some .off
  scope_eq_none_iff : o.inlining.vars = .none ↔
    o.checks.warnings.globalThis = none ∧ o.collapseProperties = .none
  /-- Collapsing names goes together with inlining constants and collapsing functions. -/
  constantVars_eq : o.inlining.constantVars = decide (o.collapseProperties ≠ .none)
  collapseFunctions_eq :
    o.localPasses.collapseAnonymousFunctions = decide (o.collapseProperties ≠ .none)
  collapses_of_advanced : o.checks.checkSymbols = true → o.collapseProperties ≠ .none
  advanced_of_collapsing : o.collapseProperties = .all → o.checks.checkSymbols = true
  /-- Under the override of the simple level only a wrapper makes the scope global. -/
  moduleExport_of_off : o.checks.warnings.globalThis = some .off → o.inlining.vars = .all →
    o.collapseProperties = .moduleExport
  collapsing_of_reserves : o.exports.reserveRawExports = true → o.collapseProperties = .all
  advanced_of_dropsAsserts :
    o.deadCode.removeClosureAsserts = true → o.checks.checkSymbols = true
  /-- Only debugging brings assertions back. -/
  dropsAsserts_of_advanced : o.checks.checkSymbols = true →
    o.naming.generatePseudoNames = false → o.deadCode.removeClosureAsserts = true

/-! ## profiles and consistency -/

/-- The inputs of the record with a profile are sorted if a level has optimized it. -/
theorem Profile.sortOnly_options_iff (p : Profile) :
    p.options.dependencyMode = .sortOnly ↔ p.optimized = true := by
  rw [options]
  cases p.optimized <;> simp

theorem Profile.decide_sortOnly_options (p : Profile) :
    decide (p.options.dependencyMode = .sortOnly) = p.optimized := by
  rw [Bool.eq_iff_iff, decide_eq_true_iff, sortOnly_options_iff]

/-- The record with a coherent profile is consistent. -/
theorem Profile.Coherent.consistent {p : Profile} (h : p.Coherent) : Consistent p.options where
  propertyRenaming_eq := rfl
  rewriteFunctionExpressions_eq := rfl
  assumeClosures_eq := rfl
  dependencyMode_ne_prune := by
    show (if p.optimized then DependencyMode.sortOnly else .none) ≠ .prune
    cases p.optimized <;> decide
  globalThis_ne_error := h.override_ne_error
  functionInlining_eq := rfl
  removeUnusedVariables_eq := rfl
  variableRenaming_eq := rfl
  constantVars_of_all := fun hs => decide_eq_true (h.collapses_of_all hs)
  collapseFunctions_of_all := fun hs => decide_eq_true (h.collapses_of_all hs)
  collapseProperties_of_all := h.collapses_of_all
  all_of_warning := h.all_of_warning
  generatePseudoNames_eq := (Bool.not_not p.debug).symm
  safe_eq := by
    rw [decide_sortOnly_options]
    simp [Options.safeSwitches, options]
  globalThis_isSome := by
    rw [decide_sortOnly_options]
    exact h.override_isSome
  sortOnly_iff := by
    rw [sortOnly_options_iff]
    simp [optimized, options]
  advanced_eq := by simp [Options.advancedSwitches, options]
  typed_eq := by simp [Options.typedSwitches, options]
  simple_of_off := by
    intro ho
    simp [options, h.simple_of_off ho]
  advanced_of_warning := h.advanced_of_warning
  off_of_local := h.off_of_local
  scope_eq_none_iff := h.scope_eq_none_iff
  constantVars_eq := rfl
  collapseFunctions_eq := rfl
  collapses_of_advanced := h.collapses_of_advanced
  advanced_of_collapsing := h.advanced_of_collapsing
  moduleExport_of_off := h.moduleExport_of_off
  collapsing_of_reserves := h.collapsing_of_reserves
  advanced_of_dropsAsserts := h.advanced_of_dropsAsserts
  dropsAsserts_of_advanced := h.dropsAsserts_of_advanced

/-- The profile of a record. -/
def Options.profile (o : Options) : Profile where
  skipped := o.skipAllPasses
  simple := !o.replaceIdGenerators
  advanced := o.checks.checkSymbols
  debug := o.naming.generatePseudoNames
  typed := o.typeBased.disambiguateProperties
  override := o.checks.warnings.globalThis
  scope := o.inlining.vars
  collapsing := o.collapseProperties
  dropsAsserts := o.deadCode.removeClosureAsserts
  reserves := o.exports.reserveRawExports

namespace Consistent

variable {o : Options} (h : Consistent o)

include h

theorem optimized_profile : o.profile.optimized = decide (o.dependencyMode = .sortOnly) := by
  have hs := h.sortOnly_iff
  cases hr : o.replaceIdGenerators <;> cases ha : o.checks.checkSymbols <;>
    simp [Options.profile, Profile.optimized, hr, ha, hs]

theorem coherent_profile : o.profile.Coherent where
  override_ne_error := h.globalThis_ne_error
  override_isSome := h.globalThis_isSome.trans h.optimized_profile.symm
  simple_of_off := by
    intro ho
    rw [Options.profile, h.simple_of_off ho]
    rfl
  advanced_of_warning := h.advanced_of_warning
  all_of_warning := h.all_of_warning
  off_of_local := h.off_of_local
  scope_eq_none_iff := h.scope_eq_none_iff
  collapses_of_all := h.collapseProperties_of_all
  collapses_of_advanced := h.collapses_of_advanced
  advanced_of_collapsing := h.advanced_of_collapsing
  moduleExport_of_off := h.moduleExport_of_off
  collapsing_of_reserves := h.collapsing_of_reserves
  advanced_of_dropsAsserts := h.advanced_of_dropsAsserts
  dropsAsserts_of_advanced := h.dropsAsserts_of_advanced

/-- A consistent record is the record with its profile. -/
theorem options_profile : o.profile.options = o := by
  have hopt := h.optimized_profile
  have hmode : (if o.profile.optimized then .sortOnly else .none) = o.dependencyMode := by
    rw [hopt]
    have hne := h.dependencyMode_ne_prune
    cases hm : o.dependencyMode with
    | none | sortOnly => rfl
    | prune => exact absurd hm hne
  have hasserts : (!o.naming.generatePseudoNames) = o.deadCode.removeJ2clAsserts := by
    rw [h.generatePseudoNames_eq, Bool.not_not]
  have hsafe : ∀ b ∈ o.safeSwitches, o.profile.optimized = b := by
    intro b hb
    rw [hopt, h.safe_eq b hb]
  have hadv : ∀ b ∈ o.advancedSwitches, o.checks.checkSymbols = b := by
    intro b hb
    exact (h.advanced_eq b hb).symm
  have htyp : ∀ b ∈ o.typedSwitches, o.typeBased.disambiguateProperties = b := by
    intro b hb
    exact (h.typed_eq b hb).symm
  simp only [Options.safeSwitches, Options.advancedSwitches, Options.typedSwitches,
    List.forall_mem_cons] at hsafe hadv htyp
  obtain ⟨hs1, hs2, hs3, hs4, hs5, hs6, hs7, hs8, hs9, hs10, hs11, -⟩ := hsafe
  obtain ⟨ha1, ha2, ha3, ha4, ha5, ha6, ha7, ha8, ha9, ha10, ha11, ha12, ha13, -⟩ := hadv
  obtain ⟨-, ht2, ht3, ht4, -⟩ := htyp
  apply Options.ext
  · rfl
  · exact hmode
  · exact hs1
  · exact Bool.not_not o.replaceIdGenerators
  · exact Options.Checks.ext rfl ha1 rfl
  · exact Options.Naming.ext h.variableRenaming_eq.symm h.propertyRenaming_eq.symm hs2 rfl
  · exact Options.Inlining.ext rfl h.functionInlining_eq.symm h.constantVars_eq.symm
      h.assumeClosures_eq.symm
  · exact Options.LocalPasses.ext hs3 hs4 hs5 hs6 hs7 hs8 hs9 ha2 h.collapseFunctions_eq.symm
      h.rewriteFunctionExpressions_eq.symm ha3 ha4
  · rfl
  · exact Options.DeadCode.ext hs10 hs11 h.removeUnusedVariables_eq.symm ha5 ha6 ha7 ha8 rfl
      hasserts
  · exact Options.CrossChunk.ext ha9 ha10
  · exact Options.Calls.ext ha11 ha12 ha13
  · exact Options.TypeBased.ext rfl ht2 ht3 ht4
  · rfl

end Consistent

/-! ## reachable records -/

/-- Calls from the default record lead to the record with a coherent profile. -/
theorem Call.exists_profile (cs : List Call) :
    ∃ p : Profile, p.Coherent ∧ cs.foldl (fun o c => c.apply o) {} = p.options := by
  refine ⟨(cs.flatMap steps).foldl Profile.step {}, Profile.Coherent.of_default.foldl_step _, ?_⟩
  rw [foldl_apply, ← Profile.options_default, Profile.foldl_apply_options]

/-- Every coherent profile is that of a record that calls lead to. -/
theorem Profile.Coherent.reachable {p : Profile} (h : p.Coherent) : Reachable p.options := by
  refine ⟨p.recipe.map .preset, ?_⟩
  rw [Call.foldl_apply, List.flatMap_map, ← options_default]
  have hs : p.recipe.flatMap (fun st => (Call.preset st).steps) = p.recipe := by
    simp [Call.steps]
  rw [hs, foldl_apply_options, h.foldl_recipe]

/-- The records that presets can make of the default one are exactly the consistent ones. -/
theorem reachable_iff_consistent (o : Options) : Reachable o ↔ Consistent o := by
  constructor
  · rintro ⟨cs, rfl⟩
    obtain ⟨p, hp, ho⟩ := Call.exists_profile cs
    rw [ho]
    exact hp.consistent
  · intro h
    rw [← h.options_profile]
    exact h.coherent_profile.reachable

end OptionPresets
