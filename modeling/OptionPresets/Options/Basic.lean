import OptionPresets.Options.Value

/-!
# OptionPresets.Options.Basic

The options of one compilation: a record in which every field switches one
capability on or sets how far it may go. The fields are grouped by concern and
independent of each other. By default everything is off, apart from
`replaceIdGenerators` and `removeJ2clAsserts`.
-/

namespace OptionPresets

namespace Options

/-- For every group of findings the report level that overrides its built-in one, if any does. -/
@[ext]
structure Warnings where
  globalThis : Option ReportLevel := none
  deriving DecidableEq, Repr

/-- Semantic checks. -/
@[ext]
structure Checks where
  checkSymbols : Bool := false
  checkTypes : Bool := false
  warnings : Warnings := {}
  deriving DecidableEq, Repr

/-- Renaming of identifiers. -/
@[ext]
structure Naming where
  vars : VariableRenaming := .off
  properties : PropertyRenaming := .off
  labelRenaming : Bool := false
  /-- Write readable names in place of short ones. -/
  generatePseudoNames : Bool := false
  deriving DecidableEq, Repr

/-- Substitution of definitions for their uses. -/
@[ext]
structure Inlining where
  vars : Reach := .none
  functions : Reach := .none
  constantVars : Bool := false
  assumeClosuresOnlyCaptureReferences : Bool := false
  deriving DecidableEq, Repr

/-- Optimizations that look at one piece of code at a time. -/
@[ext]
structure LocalPasses where
  foldConstants : Bool := false
  coalesceVariableNames : Bool := false
  collapseVariableDeclarations : Bool := false
  convertToDottedProperties : Bool := false
  optimizeArgumentsArray : Bool := false
  collapseObjectLiterals : Bool := false
  protectHiddenSideEffects : Bool := false
  extractPrototypeMemberDeclarations : Bool := false
  collapseAnonymousFunctions : Bool := false
  rewriteFunctionExpressions : Bool := false
  computeFunctionSideEffects : Bool := false
  assumeStrictThis : Bool := false
  deriving DecidableEq, Repr

/-- Removal of code that has no effect. -/
@[ext]
structure DeadCode where
  removeUnreachableCode : Bool := false
  deadAssignmentElimination : Bool := false
  removeUnusedVariables : Reach := .none
  removeUnusedPrototypeProperties : Bool := false
  removeUnusedClassProperties : Bool := false
  smartNameRemoval : Bool := false
  removeAbstractMethods : Bool := false
  removeClosureAsserts : Bool := false
  removeJ2clAsserts : Bool := true
  deriving DecidableEq, Repr

/-- Motion of code between output chunks. -/
@[ext]
structure CrossChunk where
  codeMotion : Bool := false
  methodMotion : Bool := false
  deriving DecidableEq, Repr

/-- Optimizations of call sites. -/
@[ext]
structure Calls where
  devirtualizeMethods : Bool := false
  /-- Drop unused parameters and return values. -/
  optimizeCalls : Bool := false
  optimizeESClassConstructors : Bool := false
  deriving DecidableEq, Repr

/-- Optimizations that rely on types. -/
@[ext]
structure TypeBased where
  disambiguateProperties : Bool := false
  ambiguateProperties : Bool := false
  inlineProperties : Bool := false
  useTypesForLocalOptimization : Bool := false
  deriving DecidableEq, Repr

/-- Treatment of the names that form the public interface. -/
@[ext]
structure Exports where
  reserveRawExports : Bool := false
  deriving DecidableEq, Repr

end Options

/-- The options of one compilation. -/
@[ext]
structure Options where
  /-- Run no transformation: only blanks and comments are removed. -/
  skipAllPasses : Bool := false
  dependencyMode : DependencyMode := .none
  /-- Recognise the calls `goog.provide` and `goog.require`. -/
  closurePass : Bool := false
  /-- Replace calls of id generators by constants, which takes knowledge of the whole program. -/
  replaceIdGenerators : Bool := true
  checks : Options.Checks := {}
  naming : Options.Naming := {}
  inlining : Options.Inlining := {}
  localPasses : Options.LocalPasses := {}
  collapseProperties : Collapsing := .none
  deadCode : Options.DeadCode := {}
  crossChunk : Options.CrossChunk := {}
  calls : Options.Calls := {}
  typeBased : Options.TypeBased := {}
  exports : Options.Exports := {}
  deriving DecidableEq, Repr

namespace Options

/-! ## writing several fields at once -/

/-- Run no transformation. -/
def skipTransformations (o : Options) : Options := { o with skipAllPasses := true }

/-- Set how variables and properties are renamed. -/
def setRenaming (vars : VariableRenaming) (properties : PropertyRenaming) (o : Options) :
    Options :=
  { o with naming.vars := vars, naming.properties := properties }

/-! ## report levels -/

/-- The report level that overrides the built-in one of a group, if any does. -/
def warning? (group : WarningGroup) (o : Options) : Option ReportLevel :=
  match group with
  | .globalThis => o.checks.warnings.globalThis

/-- Override the report level of a group. -/
def setWarning (group : WarningGroup) (level : ReportLevel) (o : Options) : Options :=
  match group with
  | .globalThis => { o with checks.warnings.globalThis := some level }

/-- An override is found again. -/
@[simp] theorem warning?_setWarning (group : WarningGroup) (level : ReportLevel) (o : Options) :
    (o.setWarning group level).warning? group = some level := by
  cases group; rfl

end Options

end OptionPresets
