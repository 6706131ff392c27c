import OptionPresets.Options.Setting
import OptionPresets.Preset.Primary
import OptionPresets.Preset.AddOn

/-!
# OptionPresets.Preset.Writes

The presets as lists of assignments: for every level and every add-on, which
settings it writes and with what values.

* `Options.get_assignAll` — of several assignments to a setting the last one stands;
* `Level.apply_eq_assignAll`, `AddOn.apply_eq_assignAll` — carrying out its list is what a preset
  does to any record, so questions about what a preset touches are questions about its list.
-/

namespace OptionPresets

/-! ## assignments -/

/-- A value for one setting. -/
structure Assignment where
  setting : Setting
  value : setting.Value

namespace Assignment

/-- The value that an assignment gives to a setting, if it is about that setting. -/
def value? (a : Assignment) (s : Setting) : Option s.Value :=
  if h : a.setting = s then some (h ▸ a.value) else none

/-- The value that a list of assignments leaves in a setting, if it is about that setting: the
value of the last one that is. -/
def lastValue? : List Assignment → (s : Setting) → Option s.Value
  | [], _ => none
  | a :: as, s => (lastValue? as s).or (a.value? s)

end Assignment

namespace Options

/-- Carry out an assignment. -/
def assign (o : Options) (a : Assignment) : Options := o.set a.setting a.value

/-- Carry out assignments in order, so that the last one to a setting stands. -/
def assignAll (as : List Assignment) (o : Options) : Options := as.foldl assign o

@[simp] theorem assignAll_nil (o : Options) : assignAll [] o = o := rfl

@[simp] theorem assignAll_cons (a : Assignment) (as : List Assignment) (o : Options) :
    assignAll (a :: as) o = assignAll as (o.assign a) := rfl

theorem assignAll_append (as bs : List Assignment) (o : Options) :
    assignAll (as ++ bs) o = assignAll bs (assignAll as o) := by
  simp [assignAll]

/-- An assignment changes the setting it is about. -/
theorem get_assign (o : Options) (a : Assignment) (s : Setting) :
    (o.assign a).get s = (a.value? s).getD (o.get s) := by
  unfold assign Assignment.value?
  split
  · next h =>
    subst h
    simp
  · next h => exact get_set_of_ne o (Ne.symm h) a.value

/-- The last assignment to a setting decides its value, and without one it keeps the value it
had. -/
theorem get_assignAll (o : Options) (as : List Assignment) (s : Setting) :
    (o.assignAll as).get s = (Assignment.lastValue? as s).getD (o.get s) := by
  induction as generalizing o with
  | nil => rfl
  | cons a as ih =>
    rw [assignAll_cons, ih, get_assign, Assignment.lastValue?]
    cases Assignment.lastValue? as s <;> rfl

end Options

/-! ## the written settings of the levels -/

/-- What a level writes. -/
def Level.writes : Level → List Assignment
  | .bundle => []
  | .whitespaceOnly => [⟨.skipAllPasses, true⟩]
  | .simple =>
    [⟨.dependencyMode, .sortOnly⟩,
     ⟨.replaceIdGenerators, false⟩,
     ⟨.closurePass, true⟩,
     ⟨.variableRenaming, .localOnly⟩,
     ⟨.propertyRenaming, .off⟩,
     ⟨.variableInlining, .localOnly⟩,
     ⟨.functionInlining, .localOnly⟩,
     ⟨.assumeClosuresOnlyCaptureReferences, false⟩,
     ⟨.globalThisWarning, some .off⟩,
     ⟨.foldConstants, true⟩,
     ⟨.coalesceVariableNames, true⟩,
     ⟨.deadAssignmentElimination, true⟩,
     ⟨.collapseVariableDeclarations, true⟩,
     ⟨.convertToDottedProperties, true⟩,
     ⟨.labelRenaming, true⟩,
     ⟨.removeUnreachableCode, true⟩,
     ⟨.optimizeArgumentsArray, true⟩,
     ⟨.collapseObjectLiterals, true⟩,
     ⟨.protectHiddenSideEffects, true⟩,
     ⟨.removeUnusedVariables, .localOnly⟩]
  | .advanced =>
    [⟨.dependencyMode, .sortOnly⟩,
     ⟨.checkSymbols, true⟩,
     ⟨.checkTypes, true⟩,
     ⟨.closurePass, true⟩,
     ⟨.foldConstants, true⟩,
     ⟨.coalesceVariableNames, true⟩,
     ⟨.deadAssignmentElimination, true⟩,
     ⟨.extractPrototypeMemberDeclarations, true⟩,
     ⟨.collapseVariableDeclarations, true⟩,
     ⟨.convertToDottedProperties, true⟩,
     ⟨.labelRenaming, true⟩,
     ⟨.removeUnreachableCode, true⟩,
     ⟨.optimizeArgumentsArray, true⟩,
     ⟨.collapseObjectLiterals, true⟩,
     ⟨.protectHiddenSideEffects, true⟩,
     ⟨.removeClosureAsserts, true⟩,
     ⟨.removeAbstractMethods, true⟩,
     ⟨.reserveRawExports, true⟩,
     ⟨.variableRenaming, .all⟩,
     ⟨.propertyRenaming, .off⟩,
     ⟨.removeUnusedPrototypeProperties, true⟩,
     ⟨.removeUnusedClassProperties, true⟩,
     ⟨.collapseAnonymousFunctions, true⟩,
     ⟨.collapseProperties, .all⟩,
     ⟨.globalThisWarning, some .warning⟩,
     ⟨.rewriteFunctionExpressions, false⟩,
     ⟨.smartNameRemoval, true⟩,
     ⟨.constantVars, true⟩,
     ⟨.functionInlining, .all⟩,
     ⟨.assumeClosuresOnlyCaptureReferences, false⟩,
     ⟨.variableInlining, .all⟩,
     ⟨.computeFunctionSideEffects, true⟩,
     ⟨.assumeStrictThis, true⟩,
     ⟨.removeUnusedVariables, .all⟩,
     ⟨.codeMotion, true⟩,
     ⟨.methodMotion, true⟩,
     ⟨.devirtualizeMethods, true⟩,
     ⟨.optimizeCalls, true⟩,
     ⟨.optimizeESClassConstructors, true⟩]

/-- Applying a level carries out its assignments. -/
theorem Level.apply_eq_assignAll (l : Level) (o : Options) : l.apply o = o.assignAll l.writes := by
  refine Options.eq_of_get_eq fun s => ?_
  rw [Options.get_assignAll]
  cases l <;> cases s <;> rfl

/-! ## the written settings of the add-ons -/

/-- What an add-on writes. -/
def AddOn.writes : AddOn → List Assignment
  | .debug =>
    [⟨.generatePseudoNames, true⟩,
     ⟨.removeClosureAsserts, false⟩,
     ⟨.removeJ2clAsserts, false⟩]
  | .typeBased .advanced =>
    [⟨.disambiguateProperties, true⟩,
     ⟨.ambiguateProperties, true⟩,
     ⟨.inlineProperties, true⟩,
     ⟨.useTypesForLocalOptimization, true⟩]
  | .typeBased _ => []
  | .wrappedOutput .simple =>
    [⟨.reserveRawExports, false⟩,
     ⟨.variableRenaming, .all⟩,
     ⟨.collapseProperties, .moduleExport⟩,
     ⟨.collapseAnonymousFunctions, true⟩,
     ⟨.constantVars, true⟩,
     ⟨.functionInlining, .all⟩,
     ⟨.variableInlining, .all⟩,
     ⟨.removeUnusedVariables, .all⟩]
  | .wrappedOutput _ => [⟨.reserveRawExports, false⟩]

/-- Applying an add-on carries out its assignments. -/
theorem AddOn.apply_eq_assignAll (a : AddOn) (o : Options) : a.apply o = o.assignAll a.writes := by
  refine Options.eq_of_get_eq fun s => ?_
  rw [Options.get_assignAll]
  cases a with
  | debug => cases s <;> rfl
  | typeBased l => cases l <;> cases s <;> rfl
  | wrappedOutput l => cases l <;> cases s <;> rfl

end OptionPresets
