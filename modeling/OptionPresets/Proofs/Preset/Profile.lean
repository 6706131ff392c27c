import OptionPresets.Preset.Request

/-!
# OptionPresets.Proofs.Preset.Profile

The records that presets can leave behind look alike: most fields go together,
because the same presets write them. A `Profile` is what is left to choose, ten
values for the whole record, and `Profile.options` is the record with that
profile.

Presets act on profiles as they act on records (`apply_options`), so what can
happen to records by presets is what can happen to profiles. Not every profile
occurs: `Coherent` lists what the values of one have to do with each other, and
it is exact. It holds of the default profile and each step keeps it
(`Coherent.step`), and a coherent profile can be read as a recipe for itself
(`Coherent.foldl_recipe`).
-/

namespace OptionPresets

/-! ## profiles -/

/-- The renaming of variables that goes with a scope. -/
def Reach.renaming : Reach → VariableRenaming
  | .none => .off
  | .localOnly => .localOnly
  | .all => .all

/-- What presets have left of their work in a record. -/
structure Profile where
  /-- The whitespace level has been applied. -/
  skipped : Bool := false
  /-- The simple level has been applied. -/
  simple : Bool := false
  /-- The advanced level has been applied. -/
  advanced : Bool := false
  /-- The debug add-on has been applied. -/
  debug : Bool := false
  /-- The type-based add-on has been applied at the advanced level. -/
  typed : Bool := false
  override : Option ReportLevel := none
  scope : Reach := .none
  collapsing : Collapsing := .none
  dropsAsserts : Bool := false
  reserves : Bool := false
  deriving DecidableEq, Repr

namespace Profile

/-- The simple or the advanced level has been applied. -/
def optimized (p : Profile) : Bool := p.simple || p.advanced

/-- Some names are collapsed. -/
def collapses (p : Profile) : Bool := p.collapsing ≠ .none

/-- The record with a profile. -/
def options (p : Profile) : Options where
  skipAllPasses := p.skipped
  dependencyMode := if p.optimized then .sortOnly else .none
  closurePass := p.optimized
  replaceIdGenerators := !p.simple
  checks :=
    { checkSymbols := p.advanced
      checkTypes := p.advanced
      warnings := ⟨p.override⟩ }
  naming :=
    { vars := p.scope.renaming
      properties := .off
      labelRenaming := p.optimized
      generatePseudoNames := p.debug }
  inlining :=
    { vars := p.scope
      functions := p.scope
      constantVars := p.collapses
      assumeClosuresOnlyCaptureReferences := false }
  localPasses :=
    { foldConstants := p.optimized
      coalesceVariableNames := p.optimized
      collapseVariableDeclarations := p.optimized
      convertToDottedProperties := p.optimized
      optimizeArgumentsArray := p.optimized
      collapseObjectLiterals := p.optimized
      protectHiddenSideEffects := p.optimized
      extractPrototypeMemberDeclarations := p.advanced
      collapseAnonymousFunctions := p.collapses
      rewriteFunctionExpressions := false
      computeFunctionSideEffects := p.advanced
      assumeStrictThis := p.advanced }
  collapseProperties := p.collapsing
  deadCode :=
    { removeUnreachableCode := p.optimized
      deadAssignmentElimination := p.optimized
      removeUnusedVariables := p.scope
      removeUnusedPrototypeProperties := p.advanced
      removeUnusedClassProperties := p.advanced
      smartNameRemoval := p.advanced
      removeAbstractMethods := p.advanced
      removeClosureAsserts := p.dropsAsserts
      removeJ2clAsserts := !p.debug }
  crossChunk := ⟨p.advanced, p.advanced⟩
  calls := ⟨p.advanced, p.advanced, p.advanced⟩
  typeBased := ⟨p.typed, p.typed, p.typed, p.typed⟩
  exports := ⟨p.reserves⟩

/-! ## presets on profiles -/

/-- What a step does to a profile. -/
def step (p : Profile) : Step → Profile
  | .level .bundle => p
  | .level .whitespaceOnly => { p with skipped := true }
  | .level .simple => { p with simple := true, override := some .off, scope := .localOnly }
  | .level .advanced =>
    { p with
      advanced := true
      override := some .warning
      scope := .all
      collapsing := .all
      dropsAsserts := true
      reserves := true }
  | .addOn .debug => { p with debug := true, dropsAsserts := false }
  | .addOn (.typeBased .advanced) => { p with typed := true }
  | .addOn (.typeBased _) => p
  | .addOn (.wrappedOutput .simple) =>
    { p with scope := .all, collapsing := .moduleExport, reserves := false }
  | .addOn (.wrappedOutput _) => { p with reserves := false }

/-- The default record has the default profile. -/
theorem options_default : ({} : Profile).options = {} := rfl

/-- A step does to the record with a profile what it does to the profile. -/
theorem apply_options (st : Step) (p : Profile) : st.apply p.options = (p.step st).options := by
  cases st with
  | level l =>
      cases l with
      | bundle | whitespaceOnly | simple => rfl
      | advanced => simp [Step.apply, Level.apply, Options.applyAdvanced, options, step, optimized,
          collapses, Reach.renaming]
  | addOn a =>
      cases a with
      | debug => rfl
      | typeBased l => cases l <;> rfl
      | wrappedOutput l => cases l <;> rfl

/-- Steps in order do to the record with a profile what they do to the profile. -/
theorem foldl_apply_options (ss : List Step) (p : Profile) :
    ss.foldl (fun o st => st.apply o) p.options = (ss.foldl step p).options := by
  induction ss generalizing p with
  | nil => rfl
  | cons st ss ih => rw [List.foldl_cons, List.foldl_cons, apply_options, ih]

/-! ## the profiles that occur -/

/-- How the values of a profile that occurs depend on each other. -/
structure Coherent (p : Profile) : Prop where
  override_ne_error : p.override ≠ some .error
  override_isSome : p.override.isSome = p.optimized
  simple_of_off : p.override = some .off → p.simple = true
  advanced_of_warning : p.override = some .warning → p.advanced = true
  all_of_warning : p.override = some .warning → p.scope = .all
  off_of_local : p.scope = .localOnly → p.override = some .off
  scope_eq_none_iff : p.scope = .none ↔ p.override = none ∧ p.collapsing = .none
  collapses_of_all : p.scope = .all → p.collapsing ≠ .none
  collapses_of_advanced : p.advanced = true → p.collapsing ≠ .none
  advanced_of_collapsing : p.collapsing = .all → p.advanced = true
  /-- The simple level, if it ran last, narrows the scope, and only a wrapper widens it again. -/
  moduleExport_of_off : p.override = some .off → p.scope = .all → p.collapsing = .moduleExport
  /-- Raw exports are reserved as long as no wrapper has been declared. -/
  collapsing_of_reserves : p.reserves = true → p.collapsing = .all
  advanced_of_dropsAsserts : p.dropsAsserts = true → p.advanced = true
  /-- Only debugging brings assertions back. -/
  dropsAsserts_of_advanced : p.advanced = true → p.debug = false → p.dropsAsserts = true

namespace Coherent

variable {p : Profile}

theorem of_default : ({} : Profile).Coherent := by
  constructor <;> decide

/-! ## steps keep profiles coherent -/

theorem step_simple (h : p.Coherent) : (p.step (.level .simple)).Coherent :=
  { h with
    override_ne_error := nofun
    override_isSome := rfl
    simple_of_off := fun _ => rfl
    advanced_of_warning := nofun
    all_of_warning := nofun
    off_of_local := fun _ => rfl
    scope_eq_none_iff := ⟨nofun, nofun⟩
    collapses_of_all := nofun
    moduleExport_of_off := nofun }

theorem step_advanced (h : p.Coherent) : (p.step (.level .advanced)).Coherent :=
  { h with
    override_ne_error := nofun
    override_isSome := (Bool.or_true p.simple).symm
    simple_of_off := nofun
    advanced_of_warning := fun _ => rfl
    all_of_warning := fun _ => rfl
    off_of_local := nofun
    scope_eq_none_iff := ⟨nofun, nofun⟩
    collapses_of_all := nofun
    collapses_of_advanced := nofun
    advanced_of_collapsing := fun _ => rfl
    moduleExport_of_off := nofun
    collapsing_of_reserves := fun _ => rfl
    advanced_of_dropsAsserts := fun _ => rfl
    dropsAsserts_of_advanced := fun _ _ => rfl }

theorem step_debug (h : p.Coherent) : (p.step (.addOn .debug)).Coherent :=
  { h with
    advanced_of_dropsAsserts := nofun
    dropsAsserts_of_advanced := nofun }

theorem step_wrapped (h : p.Coherent) : (p.step (.addOn (.wrappedOutput .simple))).Coherent :=
  { h with
    all_of_warning := fun _ => rfl
    off_of_local := nofun
    scope_eq_none_iff := ⟨nofun, nofun⟩
    collapses_of_all := nofun
    collapses_of_advanced := nofun
    advanced_of_collapsing := nofun
    moduleExport_of_off := fun _ _ => rfl
    collapsing_of_reserves := nofun }

theorem unreserve (h : p.Coherent) : ({ p with reserves := false } : Profile).Coherent :=
  { h with collapsing_of_reserves := nofun }

/-- Each step keeps a profile coherent. -/
theorem step (h : p.Coherent) (st : Step) : (p.step st).Coherent := by
  cases st with
  | level l =>
      cases l with
      | bundle => exact h
      | whitespaceOnly => exact { h with }
      | simple => exact h.step_simple
      | advanced => exact h.step_advanced
  | addOn a =>
      cases a with
      | debug => exact h.step_debug
      | typeBased l =>
          cases l with
          | advanced => exact { h with }
          | bundle | whitespaceOnly | simple => exact h
      | wrappedOutput l =>
          cases l with
          | simple => exact h.step_wrapped
          | bundle | whitespaceOnly | advanced => exact h.unreserve

/-- Whatever steps are taken, the profile stays coherent. -/
theorem foldl_step (h : p.Coherent) (ss : List Step) : (ss.foldl Profile.step p).Coherent := by
  induction ss generalizing p with
  | nil => exact h
  | cons st ss ih => exact ih (h.step st)

end Coherent

/-! ## a recipe for each of them -/

/-- Levels and wrappers in an order that leads to the override, the scope and the collapsing of a
profile. -/
def levels (p : Profile) : List Step :=
  match p.override with
  | some .off =>
    -- the simple level has the last word on the override, and a wrapper may come on either side
    (if p.advanced then [.level .advanced] else []) ++
    (if p.collapsing = .moduleExport then
      if p.scope = .all then [.level .simple, .addOn (.wrappedOutput .simple)]
      else [.addOn (.wrappedOutput .simple), .level .simple]
    else [.level .simple])
  | some .warning =>
    (if p.simple then [.level .simple] else []) ++ [.level .advanced] ++
    (if p.collapsing = .moduleExport then [.addOn (.wrappedOutput .simple)] else [])
  | some .error | none =>
    if p.collapsing = .moduleExport then [.addOn (.wrappedOutput .simple)] else []

/-- Steps that lead to a profile. Debugging comes first, before assertions are dropped, and once
more at the end where they are kept. -/
def recipe (p : Profile) : List Step :=
  (if p.debug then [.addOn .debug] else []) ++ p.levels ++
  (if p.reserves then [] else [.addOn (.wrappedOutput .bundle)]) ++
  (if p.debug && !p.dropsAsserts then [.addOn .debug] else []) ++
  (if p.typed then [.addOn (.typeBased .advanced)] else []) ++
  (if p.skipped then [.level .whitespaceOnly] else [])

/-- The profile that the levels of a recipe lead to, before the other add-ons have their say. -/
theorem Coherent.foldl_levels {p : Profile} (h : p.Coherent) (d : Bool) :
    p.levels.foldl Profile.step { debug := d } =
      { simple := p.simple
        advanced := p.advanced
        debug := d
        override := p.override
        scope := p.scope
        collapsing := p.collapsing
        dropsAsserts := p.advanced
        reserves := p.collapsing = .all } := by
  obtain ⟨skipped, simple, advanced, debug, typed, override, scope, collapsing, drops, reserves⟩ := p
  cases override with
  | none =>
      have ho : (simple || advanced) = false := h.override_isSome.symm
      obtain ⟨rfl, rfl⟩ := Bool.or_eq_false_iff.1 ho
      cases collapsing with
      | none =>
          obtain rfl := h.scope_eq_none_iff.2 ⟨rfl, rfl⟩
          rfl
      | moduleExport =>
          cases scope with
          | none => exact absurd (h.scope_eq_none_iff.1 rfl).2 nofun
          | localOnly => exact absurd (h.off_of_local rfl) nofun
          | all => rfl
      | all => exact absurd (h.advanced_of_collapsing rfl) nofun
  | some l =>
      cases l with
      | off =>
          obtain rfl := h.simple_of_off rfl
          cases scope with
          | none => exact absurd (h.scope_eq_none_iff.1 rfl).1 nofun
          | localOnly =>
              cases collapsing with
              | none =>
                  cases advanced with
                  | true => exact absurd rfl (h.collapses_of_advanced rfl)
                  | false => rfl
              | moduleExport => cases advanced <;> rfl
              | all =>
                  obtain rfl := h.advanced_of_collapsing rfl
                  rfl
          | all =>
              obtain rfl := h.moduleExport_of_off rfl rfl
              cases advanced <;> rfl
      | warning =>
          obtain rfl := h.advanced_of_warning rfl
          obtain rfl := h.all_of_warning rfl
          cases collapsing with
          | none => exact absurd rfl (h.collapses_of_advanced rfl)
          | moduleExport | all => cases simple <;> rfl
      | error => exact absurd rfl h.override_ne_error

section

variable (p : Profile) (b : Bool)

theorem foldl_debug :
    (if b then [Step.addOn .debug] else []).foldl step p =
      { p with debug := p.debug || b, dropsAsserts := p.dropsAsserts && !b } := by
  cases b <;> simp [step]

theorem foldl_unreserve :
    (if b then [] else [Step.addOn (.wrappedOutput .bundle)]).foldl step p =
      { p with reserves := p.reserves && b } := by
  cases b <;> simp [step]

theorem foldl_typed :
    (if b then [Step.addOn (.typeBased .advanced)] else []).foldl step p =
      { p with typed := p.typed || b } := by
  cases b <;> simp [step]

theorem foldl_skipped :
    (if b then [Step.level .whitespaceOnly] else []).foldl step p =
      { p with skipped := p.skipped || b } := by
  cases b <;> simp [step]

end

namespace Coherent

variable {p : Profile} (h : p.Coherent)

include h

/-- Assertions are dropped exactly at the advanced level without debugging after it. -/
theorem dropsAsserts_eq : (p.advanced && !(p.debug && !p.dropsAsserts)) = p.dropsAsserts := by
  cases hd : p.dropsAsserts with
  | true =>
      rw [h.advanced_of_dropsAsserts hd, Bool.not_true, Bool.and_false]
      rfl
  | false =>
      cases ha : p.advanced with
      | false => rfl
      | true =>
          cases hdebug : p.debug with
          | true => rfl
          | false =>
              have hd' := h.dropsAsserts_of_advanced ha hdebug
              rw [hd] at hd'
              contradiction

theorem reserves_eq : (decide (p.collapsing = .all) && p.reserves) = p.reserves := by
  cases hr : p.reserves with
  | true => rw [h.collapsing_of_reserves hr]; rfl
  | false => rw [Bool.and_false]

/-- Following the recipe of a coherent profile leads from the default profile to it. -/
theorem foldl_recipe : p.recipe.foldl Profile.step {} = p := by
  have hd : (if p.debug then [Step.addOn .debug] else []).foldl Profile.step {} =
      { debug := p.debug } := by
    rw [foldl_debug, Bool.false_or, Bool.false_and]
  have hdebug : (p.debug || p.debug && !p.dropsAsserts) = p.debug := by
    rw [Bool.or_and_distrib_left, Bool.or_self]
    cases p.debug <;> rfl
  rw [recipe]
  simp only [List.foldl_append, hd, h.foldl_levels, foldl_debug, foldl_unreserve, foldl_typed,
    foldl_skipped, hdebug, h.dropsAsserts_eq, h.reserves_eq, Bool.false_or]

end Coherent

end Profile

end OptionPresets
