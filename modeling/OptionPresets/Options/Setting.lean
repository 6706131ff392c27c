import OptionPresets.Options.Basic

/-!
# OptionPresets.Options.Setting

A setting names one field of the options record. Each has a kind of value, a
dotted name under which it is printed, and a place in the record that can be
read and written:

* `get_set_self`, `get_set_of_ne` — writing a setting changes that setting and no other;
* `eq_of_get_eq` — the settings cover the record, so two records with equal settings are equal;
* `ofName?_eq_some_iff` — names are unambiguous.

Everything that speaks of "every option" (printing, comparing, assigning by
name) goes through this table and needs no list of its own.
-/

namespace OptionPresets

/-- One field of the options record. -/
inductive Setting where
  | skipAllPasses
  | dependencyMode
  | closurePass
  | replaceIdGenerators
  | checkSymbols
  | checkTypes
  | globalThisWarning
  | variableRenaming
  | propertyRenaming
  | labelRenaming
  | generatePseudoNames
  | variableInlining
  | functionInlining
  | constantVars
  | assumeClosuresOnlyCaptureReferences
  | foldConstants
  | coalesceVariableNames
  | collapseVariableDeclarations
  | convertToDottedProperties
  | optimizeArgumentsArray
  | collapseObjectLiterals
  | protectHiddenSideEffects
  | extractPrototypeMemberDeclarations
  | collapseAnonymousFunctions
  | rewriteFunctionExpressions
  | computeFunctionSideEffects
  | assumeStrictThis
  | collapseProperties
  | removeUnreachableCode
  | deadAssignmentElimination
  | removeUnusedVariables
  | removeUnusedPrototypeProperties
  | removeUnusedClassProperties
  | smartNameRemoval
  | removeAbstractMethods
  | removeClosureAsserts
  | removeJ2clAsserts
  | codeMotion
  | methodMotion
  | devirtualizeMethods
  | optimizeCalls
  | optimizeESClassConstructors
  | disambiguateProperties
  | ambiguateProperties
  | inlineProperties
  | useTypesForLocalOptimization
  | reserveRawExports
  deriving DecidableEq, Repr

namespace Setting

/-! ## kinds of value -/

/-- What kind of value a setting holds. -/
inductive Kind where
  | toggle
  | dependencyMode
  /-- A report level that may stay at the built-in one. -/
  | override
  | variableRenaming
  | propertyRenaming
  | reach
  | collapsing
  deriving DecidableEq, Repr

namespace Kind

/-- The values of a kind. -/
@[reducible] def Value : Kind → Type
  | toggle => Bool
  | dependencyMode => DependencyMode
  | override => Option ReportLevel
  | variableRenaming => VariableRenaming
  | propertyRenaming => PropertyRenaming
  | reach => Reach
  | collapsing => Collapsing

instance (k : Kind) : DecidableEq k.Value := by
  cases k <;> exact inferInstance

/-- The printed form of a value. A report level that is not overridden prints as `default`. -/
def text : (k : Kind) → k.Value → String
  | toggle, v => if v then "true" else "false"
  | dependencyMode, v => v.text
  | override, none => "default"
  | override, some v => v.text
  | variableRenaming, v => v.text
  | propertyRenaming, v => v.text
  | reach, v => v.text
  | collapsing, v => v.text

/-- Values of a kind that print alike are the same. -/
theorem text_inj {k : Kind} {a b : k.Value} : k.text a = k.text b ↔ a = b := by
  cases k with
  | toggle => cases a <;> cases b <;> decide
  | dependencyMode => exact DependencyMode.text_inj
  | override =>
    cases a with
    | none => cases b with
      | none => simp
      | some b => cases b <;> decide
    | some a => cases b with
      | none => cases a <;> decide
      | some b => simpa [text] using ReportLevel.text_inj
  | variableRenaming => exact VariableRenaming.text_inj
  | propertyRenaming => exact PropertyRenaming.text_inj
  | reach => exact Reach.text_inj
  | collapsing => exact Collapsing.text_inj

end Kind

/-- The kind of value that a setting holds; most settings are switches. -/
def kind : Setting → Kind
  | .dependencyMode => .dependencyMode
  | .globalThisWarning => .override
  | .variableRenaming => .variableRenaming
  | .propertyRenaming => .propertyRenaming
  | .variableInlining => .reach
  | .functionInlining => .reach
  | .collapseProperties => .collapsing
  | .removeUnusedVariables => .reach
  | _ => .toggle

/-- The values that a setting can hold. -/
abbrev Value (s : Setting) : Type := s.kind.Value

/-! ## the table -/

/-- A place in the options record: the name it is printed under, and how it is read and written. -/
structure Field (α : Type) where
  name : String
  get : Options → α
  set : α → Options → Options

/-- The place of every setting. -/
def field : (s : Setting) → Field s.Value
  | .skipAllPasses => ⟨"skipAllPasses", (·.skipAllPasses), fun v o => { o with skipAllPasses := v }⟩
  | .dependencyMode =>
    ⟨"dependencyMode", (·.dependencyMode), fun v o => { o with dependencyMode := v }⟩
  | .closurePass => ⟨"closurePass", (·.closurePass), fun v o => { o with closurePass := v }⟩
  | .replaceIdGenerators =>
    ⟨"replaceIdGenerators", (·.replaceIdGenerators), fun v o => { o with replaceIdGenerators := v }⟩
  | .checkSymbols =>
    ⟨"checks.checkSymbols", (·.checks.checkSymbols), fun v o => { o with checks.checkSymbols := v }⟩
  | .checkTypes =>
    ⟨"checks.checkTypes", (·.checks.checkTypes), fun v o => { o with checks.checkTypes := v }⟩
  | .globalThisWarning =>
    ⟨"checks.warnings." ++ WarningGroup.globalThis.text, (·.checks.warnings.globalThis),
      fun v o => { o with checks.warnings.globalThis := v }⟩
  | .variableRenaming =>
    ⟨"renaming.variables", (·.naming.vars), fun v o => { o with naming.vars := v }⟩
  | .propertyRenaming =>
    ⟨"renaming.properties", (·.naming.properties), fun v o => { o with naming.properties := v }⟩
  | .labelRenaming =>
    ⟨"renaming.labelRenaming", (·.naming.labelRenaming),
      fun v o => { o with naming.labelRenaming := v }⟩
  | .generatePseudoNames =>
    ⟨"renaming.generatePseudoNames", (·.naming.generatePseudoNames),
      fun v o => { o with naming.generatePseudoNames := v }⟩
  | .variableInlining =>
    ⟨"inlining.variables", (·.inlining.vars), fun v o => { o with inlining.vars := v }⟩
  | .functionInlining =>
    ⟨"inlining.functions", (·.inlining.functions), fun v o => { o with inlining.functions := v }⟩
  | .constantVars =>
    ⟨"inlining.constantVars", (·.inlining.constantVars),
      fun v o => { o with inlining.constantVars := v }⟩
  | .assumeClosuresOnlyCaptureReferences =>
    ⟨"inlining.assumeClosuresOnlyCaptureReferences",
      (·.inlining.assumeClosuresOnlyCaptureReferences),
      fun v o => { o with inlining.assumeClosuresOnlyCaptureReferences := v }⟩
  | .foldConstants =>
    ⟨"local.foldConstants", (·.localPasses.foldConstants),
      fun v o => { o with localPasses.foldConstants := v }⟩
  | .coalesceVariableNames =>
    ⟨"local.coalesceVariableNames", (·.localPasses.coalesceVariableNames),
      fun v o => { o with localPasses.coalesceVariableNames := v }⟩
  | .collapseVariableDeclarations =>
    ⟨"local.collapseVariableDeclarations", (·.localPasses.collapseVariableDeclarations),
      fun v o => { o with localPasses.collapseVariableDeclarations := v }⟩
  | .convertToDottedProperties =>
    ⟨"local.convertToDottedProperties", (·.localPasses.convertToDottedProperties),
      fun v o => { o with localPasses.convertToDottedProperties := v }⟩
  | .optimizeArgumentsArray =>
    ⟨"local.optimizeArgumentsArray", (·.localPasses.optimizeArgumentsArray),
      fun v o => { o with localPasses.optimizeArgumentsArray := v }⟩
  | .collapseObjectLiterals =>
    ⟨"local.collapseObjectLiterals", (·.localPasses.collapseObjectLiterals),
      fun v o => { o with localPasses.collapseObjectLiterals := v }⟩
  | .protectHiddenSideEffects =>
    ⟨"local.protectHiddenSideEffects", (·.localPasses.protectHiddenSideEffects),
      fun v o => { o with localPasses.protectHiddenSideEffects := v }⟩
  | .extractPrototypeMemberDeclarations =>
    ⟨"local.extractPrototypeMemberDeclarations", (·.localPasses.extractPrototypeMemberDeclarations),
      fun v o => { o with localPasses.extractPrototypeMemberDeclarations := v }⟩
  | .collapseAnonymousFunctions =>
    ⟨"local.collapseAnonymousFunctions", (·.localPasses.collapseAnonymousFunctions),
      fun v o => { o with localPasses.collapseAnonymousFunctions := v }⟩
  | .rewriteFunctionExpressions =>
    ⟨"local.rewriteFunctionExpressions", (·.localPasses.rewriteFunctionExpressions),
      fun v o => { o with localPasses.rewriteFunctionExpressions := v }⟩
  | .computeFunctionSideEffects =>
    ⟨"local.computeFunctionSideEffects", (·.localPasses.computeFunctionSideEffects),
      fun v o => { o with localPasses.computeFunctionSideEffects := v }⟩
  | .assumeStrictThis =>
    ⟨"local.assumeStrictThis", (·.localPasses.assumeStrictThis),
      fun v o => { o with localPasses.assumeStrictThis := v }⟩
  | .collapseProperties =>
    ⟨"collapseProperties", (·.collapseProperties), fun v o => { o with collapseProperties := v }⟩
  | .removeUnreachableCode =>
    ⟨"deadCode.removeUnreachableCode", (·.deadCode.removeUnreachableCode),
      fun v o => { o with deadCode.removeUnreachableCode := v }⟩
  | .deadAssignmentElimination =>
    ⟨"deadCode.deadAssignmentElimination", (·.deadCode.deadAssignmentElimination),
      fun v o => { o with deadCode.deadAssignmentElimination := v }⟩
  | .removeUnusedVariables =>
    ⟨"deadCode.removeUnusedVariables", (·.deadCode.removeUnusedVariables),
      fun v o => { o with deadCode.removeUnusedVariables := v }⟩
  | .removeUnusedPrototypeProperties =>
    ⟨"deadCode.removeUnusedPrototypeProperties", (·.deadCode.removeUnusedPrototypeProperties),
      fun v o => { o with deadCode.removeUnusedPrototypeProperties := v }⟩
  | .removeUnusedClassProperties =>
    ⟨"deadCode.removeUnusedClassProperties", (·.deadCode.removeUnusedClassProperties),
      fun v o => { o with deadCode.removeUnusedClassProperties := v }⟩
  | .smartNameRemoval =>
    ⟨"deadCode.smartNameRemoval", (·.deadCode.smartNameRemoval),
      fun v o => { o with deadCode.smartNameRemoval := v }⟩
  | .removeAbstractMethods =>
    ⟨"deadCode.removeAbstractMethods", (·.deadCode.removeAbstractMethods),
      fun v o => { o with deadCode.removeAbstractMethods := v }⟩
  | .removeClosureAsserts =>
    ⟨"deadCode.removeClosureAsserts", (·.deadCode.removeClosureAsserts),
      fun v o => { o with deadCode.removeClosureAsserts := v }⟩
  | .removeJ2clAsserts =>
    ⟨"deadCode.removeJ2clAsserts", (·.deadCode.removeJ2clAsserts),
      fun v o => { o with deadCode.removeJ2clAsserts := v }⟩
  | .codeMotion =>
    ⟨"crossChunk.codeMotion", (·.crossChunk.codeMotion),
      fun v o => { o with crossChunk.codeMotion := v }⟩
  | .methodMotion =>
    ⟨"crossChunk.methodMotion", (·.crossChunk.methodMotion),
      fun v o => { o with crossChunk.methodMotion := v }⟩
  | .devirtualizeMethods =>
    ⟨"calls.devirtualizeMethods", (·.calls.devirtualizeMethods),
      fun v o => { o with calls.devirtualizeMethods := v }⟩
  | .optimizeCalls =>
    ⟨"calls.optimizeCalls", (·.calls.optimizeCalls), fun v o => { o with calls.optimizeCalls := v }⟩
  | .optimizeESClassConstructors =>
    ⟨"calls.optimizeESClassConstructors", (·.calls.optimizeESClassConstructors),
      fun v o => { o with calls.optimizeESClassConstructors := v }⟩
  | .disambiguateProperties =>
    ⟨"typeBased.disambiguateProperties", (·.typeBased.disambiguateProperties),
      fun v o => { o with typeBased.disambiguateProperties := v }⟩
  | .ambiguateProperties =>
    ⟨"typeBased.ambiguateProperties", (·.typeBased.ambiguateProperties),
      fun v o => { o with typeBased.ambiguateProperties := v }⟩
  | .inlineProperties =>
    ⟨"typeBased.inlineProperties", (·.typeBased.inlineProperties),
      fun v o => { o with typeBased.inlineProperties := v }⟩
  | .useTypesForLocalOptimization =>
    ⟨"typeBased.useTypesForLocalOptimization", (·.typeBased.useTypesForLocalOptimization),
      fun v o => { o with typeBased.useTypesForLocalOptimization := v }⟩
  | .reserveRawExports =>
    ⟨"exports.reserveRawExports", (·.exports.reserveRawExports),
      fun v o => { o with exports.reserveRawExports := v }⟩

/-- The dotted name of a setting. -/
def name (s : Setting) : String := s.field.name

/-- The report level of a group of findings is named after the group. -/
theorem name_globalThisWarning : globalThisWarning.name = "checks.warnings.globalThis" := rfl

/-! ## all settings -/

/-- Every setting, in the order in which options are printed. -/
def all : List Setting :=
  [.skipAllPasses, .dependencyMode, .closurePass, .replaceIdGenerators, .checkSymbols, .checkTypes,
   .globalThisWarning, .variableRenaming, .propertyRenaming, .labelRenaming, .generatePseudoNames,
   .variableInlining, .functionInlining, .constantVars, .assumeClosuresOnlyCaptureReferences,
   .foldConstants, .coalesceVariableNames, .collapseVariableDeclarations,
   .convertToDottedProperties, .optimizeArgumentsArray, .collapseObjectLiterals,
   .protectHiddenSideEffects, .extractPrototypeMemberDeclarations, .collapseAnonymousFunctions,
   .rewriteFunctionExpressions, .computeFunctionSideEffects, .assumeStrictThis,
   .collapseProperties, .removeUnreachableCode, .deadAssignmentElimination, .removeUnusedVariables,
   .removeUnusedPrototypeProperties, .removeUnusedClassProperties, .smartNameRemoval,
   .removeAbstractMethods, .removeClosureAsserts, .removeJ2clAsserts, .codeMotion, .methodMotion,
   .devirtualizeMethods, .optimizeCalls, .optimizeESClassConstructors, .disambiguateProperties,
   .ambiguateProperties, .inlineProperties, .useTypesForLocalOptimization, .reserveRawExports]

theorem mem_all (s : Setting) : s ∈ all := by cases s <;> decide

/-- No name is printed twice. -/
theorem nodup_names : (all.map name).Nodup := by decide +kernel

/-- The setting with a given dotted name, if there is one. -/
def ofName? (text : String) : Option Setting := all.find? (·.name = text)

/-- A name that no two members of a list share finds its member. -/
theorem find?_name {l : List Setting} (hl : (l.map name).Nodup) {s : Setting} (hs : s ∈ l) :
    l.find? (·.name = s.name) = some s := by
  induction l with
  | nil => cases hs
  | cons t l ih =>
    obtain ⟨ht, hl⟩ := List.nodup_cons.1 hl
    rcases List.mem_cons.1 hs with rfl | hs
    · simp
    · have hne : t.name ≠ s.name := fun he => ht (he ▸ List.mem_map_of_mem hs)
      simp [hne, ih hl hs]

/-- Each setting is found under its own name. -/
@[simp] theorem ofName?_name (s : Setting) : ofName? s.name = some s :=
  find?_name nodup_names (mem_all s)

/-- A setting is found under a name exactly if it is its own. -/
theorem ofName?_eq_some_iff {text : String} {s : Setting} :
    ofName? text = some s ↔ s.name = text := by
  constructor
  · intro h
    simpa using List.find?_some h
  · rintro rfl
    exact ofName?_name s

/-- Settings with the same name are the same. -/
theorem name_inj {s t : Setting} : s.name = t.name ↔ s = t := by
  constructor
  · intro h
    have hs := ofName?_name s
    rw [h, ofName?_name t] at hs
    exact (Option.some.inj hs).symm
  · rintro rfl
    rfl

end Setting

/-! ## reading and writing by setting -/

namespace Options

/-- The value of a setting. -/
def get (o : Options) (s : Setting) : s.Value := s.field.get o

/-- Give a setting a value. -/
def set (o : Options) (s : Setting) (v : s.Value) : Options := s.field.set v o

/-- A setting holds what was written to it. -/
@[simp] theorem get_set_self (o : Options) (s : Setting) (v : s.Value) : (o.set s v).get s = v := by
  cases s <;> rfl

/-- Writing a setting leaves every other setting alone. -/
theorem get_set_of_ne (o : Options) {s t : Setting} (h : t ≠ s) (v : s.Value) :
    (o.set s v).get t = o.get t := by
  cases s <;> cases t <;> first | rfl | exact absurd rfl h

/-- The settings cover the record. -/
theorem eq_of_get_eq {o p : Options} (h : ∀ s, o.get s = p.get s) : o = p := by
  apply Options.ext
  · exact h .skipAllPasses
  · exact h .dependencyMode
  · exact h .closurePass
  · exact h .replaceIdGenerators
  · exact Checks.ext (h .checkSymbols) (h .checkTypes) (Warnings.ext (h .globalThisWarning))
  · exact Naming.ext (h .variableRenaming) (h .propertyRenaming) (h .labelRenaming)
      (h .generatePseudoNames)
  · exact Inlining.ext (h .variableInlining) (h .functionInlining) (h .constantVars)
      (h .assumeClosuresOnlyCaptureReferences)
  · exact LocalPasses.ext (h .foldConstants) (h .coalesceVariableNames)
      (h .collapseVariableDeclarations)
      (h .convertToDottedProperties) (h .optimizeArgumentsArray) (h .collapseObjectLiterals)
      (h .protectHiddenSideEffects) (h .extractPrototypeMemberDeclarations)
      (h .collapseAnonymousFunctions) (h .rewriteFunctionExpressions)
      (h .computeFunctionSideEffects) (h .assumeStrictThis)
  · exact h .collapseProperties
  · exact DeadCode.ext (h .removeUnreachableCode) (h .deadAssignmentElimination)
      (h .removeUnusedVariables)
      (h .removeUnusedPrototypeProperties) (h .removeUnusedClassProperties) (h .smartNameRemoval)
      (h .removeAbstractMethods) (h .removeClosureAsserts) (h .removeJ2clAsserts)
  · exact CrossChunk.ext (h .codeMotion) (h .methodMotion)
  · exact Calls.ext (h .devirtualizeMethods) (h .optimizeCalls) (h .optimizeESClassConstructors)
  · exact TypeBased.ext (h .disambiguateProperties) (h .ambiguateProperties) (h .inlineProperties)
      (h .useTypesForLocalOptimization)
  · exact Exports.ext (h .reserveRawExports)

end Options

end OptionPresets
