import OptionPresets.Level
import OptionPresets.Options.Basic

/-!
# OptionPresets.Preset.AddOn

Add-ons refine the options that a level has written. Two of them depend on
the level: types are used by the advanced level only, and a wrapped output
only gives the simple level more to do, since the advanced one does all of it
anyway. An add-on runs after the level it refines, because the later write to
a field wins.
-/

namespace OptionPresets

/-- A refinement of a compilation level. -/
inductive AddOn where
  /-- Keep the output readable and its assertions in place, at any level. -/
  | debug
  /-- Use type information. -/
  | typeBased (level : Level)
  /-- The output is wrapped in a function, so its global names meet no other script. -/
  | wrappedOutput (level : Level)
  deriving DecidableEq, Repr

namespace Options

/-- Write readable names and keep all assertions. -/
def applyDebug (o : Options) : Options :=
  { o with
    naming.generatePseudoNames := true
    deadCode.removeClosureAsserts := false
    deadCode.removeJ2clAsserts := false }

/-- Turn on the optimizations that rely on types, which only the advanced level has. -/
def applyTypeBased (level : Level) (o : Options) : Options :=
  match level with
  | .advanced =>
    { o with
      typeBased.disambiguateProperties := true
      typeBased.ambiguateProperties := true
      typeBased.inlineProperties := true
      typeBased.useTypesForLocalOptimization := true }
  | .bundle | .whitespaceOnly | .simple => o

/-- Raw exports need no protection inside a wrapper. The simple level may treat its global
variables as local ones there, but still leaves properties alone. -/
def applyWrappedOutput (level : Level) (o : Options) : Options :=
  match level with
  | .simple =>
    { o with
      naming.vars := .all
      inlining.vars := .all
      inlining.functions := .all
      inlining.constantVars := true
      localPasses.collapseAnonymousFunctions := true
      collapseProperties := .moduleExport
      deadCode.removeUnusedVariables := .all
      exports.reserveRawExports := false }
  | .bundle | .whitespaceOnly | .advanced => { o with exports.reserveRawExports := false }

end Options

/-- Write the options of an add-on. -/
def AddOn.apply : AddOn → Options → Options
  | .debug, o => o.applyDebug
  | .typeBased level, o => o.applyTypeBased level
  | .wrappedOutput level, o => o.applyWrappedOutput level

end OptionPresets
