import OptionPresets.Level
import OptionPresets.Options.Basic

/-!
# OptionPresets.Preset.Primary

What each compilation level writes into the options of its caller. A level
gives values to the fields it is about and leaves all others as they are, so
one level can be applied over another:

* bundling writes nothing;
* the whitespace level only turns the transformations off, which no other
  level undoes;
* the simple and the advanced level each write a list of their own. The
  advanced list repeats the safe optimizations of the simple one and does not
  build on it.
-/

namespace OptionPresets

namespace Options

/-- Optimizations that keep every global name, and so are right even if nothing is exported. -/
def applySimple (o : Options) : Options :=
  { o with
    dependencyMode := .sortOnly
    -- replacing id generators takes knowledge of the whole program
    replaceIdGenerators := false
    closurePass := true
    checks.warnings.globalThis := some .off
    naming.vars := .localOnly
    naming.properties := .off
    naming.labelRenaming := true
    inlining.vars := .localOnly
    inlining.functions := .localOnly
    inlining.assumeClosuresOnlyCaptureReferences := false
    localPasses.foldConstants := true
    localPasses.coalesceVariableNames := true
    localPasses.collapseVariableDeclarations := true
    localPasses.convertToDottedProperties := true
    localPasses.optimizeArgumentsArray := true
    localPasses.collapseObjectLiterals := true
    localPasses.protectHiddenSideEffects := true
    deadCode.removeUnreachableCode := true
    deadCode.deadAssignmentElimination := true
    deadCode.removeUnusedVariables := .localOnly }

/-- Optimizations that are right only if every name used from outside is exported. -/
def applyAdvanced (o : Options) : Options :=
  { o with
    dependencyMode := .sortOnly
    closurePass := true
    checks.checkSymbols := true
    checks.checkTypes := true
    checks.warnings.globalThis := some .warning
    naming.vars := .all
    -- renaming properties would also rename those of the host environment
    naming.properties := .off
    naming.labelRenaming := true
    inlining.vars := .all
    inlining.functions := .all
    inlining.constantVars := true
    inlining.assumeClosuresOnlyCaptureReferences := false
    localPasses.foldConstants := true
    localPasses.coalesceVariableNames := true
    localPasses.collapseVariableDeclarations := true
    localPasses.convertToDottedProperties := true
    localPasses.optimizeArgumentsArray := true
    localPasses.collapseObjectLiterals := true
    localPasses.protectHiddenSideEffects := true
    localPasses.extractPrototypeMemberDeclarations := true
    localPasses.collapseAnonymousFunctions := true
    localPasses.rewriteFunctionExpressions := false
    localPasses.computeFunctionSideEffects := true
    localPasses.assumeStrictThis := true
    collapseProperties := .all
    deadCode.removeUnreachableCode := true
    deadCode.deadAssignmentElimination := true
    deadCode.removeUnusedVariables := .all
    deadCode.removeUnusedPrototypeProperties := true
    deadCode.removeUnusedClassProperties := true
    deadCode.smartNameRemoval := true
    deadCode.removeAbstractMethods := true
    deadCode.removeClosureAsserts := true
    crossChunk.codeMotion := true
    crossChunk.methodMotion := true
    calls.devirtualizeMethods := true
    calls.optimizeCalls := true
    calls.optimizeESClassConstructors := true
    exports.reserveRawExports := true }

end Options

/-- Write the options that define a level. -/
def Level.apply : Level → Options → Options
  | .bundle, o => o
  | .whitespaceOnly, o => o.skipTransformations
  | .simple, o => o.applySimple
  | .advanced, o => o.applyAdvanced

end OptionPresets
