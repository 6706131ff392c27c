import OptionPresets.Proofs.Preset.Overwrite
import Mathlib.Data.List.Induction
import Mathlib.Logic.Nontrivial.Basic

/-!
# OptionPresets.Proofs.Preset.Accumulation

Levels applied one after the other. A setting is left as the last level that writes
it leaves it (`Level.get_applyAll`), so what a sequence of levels comes to depends on
which of them write the same settings:

1. the whitespace level has one setting to itself, and so has the simple level;
2. all other settings that the simple level writes are written by the advanced
   level too.

Of the two levels that optimize the later one therefore hides the earlier one, but
for the settings of rule 1 and for what the advanced level alone writes. Nothing else
accumulates (`Level.applyAll_hides`).
-/

namespace OptionPresets

open Assignment (targets)

/-! ## settings that a level fixes -/

instance Setting.Kind.nontrivial_value (k : Setting.Kind) : Nontrivial k.Value where
  exists_pair_ne := by
    cases k with
    | toggle => exact ⟨false, true, by decide⟩
    | dependencyMode => exact ⟨.none, .prune, by decide⟩
    | override => exact ⟨none, some .off, by decide⟩
    | variableRenaming => exact ⟨.off, .all, by decide⟩
    | propertyRenaming => exact ⟨.off, .allUnquoted, by decide⟩
    | reach => exact ⟨.none, .all, by decide⟩
    | collapsing => exact ⟨.none, .all, by decide⟩

/-- Records that agree on all settings but the first are equal once it is set. -/
theorem Options.eq_of_get_eq_of_ne_skipAllPasses {o : Options} (p : Options) {b : Bool}
    (hb : o.skipAllPasses = b) (h : ∀ s ≠ .skipAllPasses, o.get s = p.get s) :
    o = { p with skipAllPasses := b } := by
  refine eq_of_get_eq fun s => ?_
  by_cases hs : s = .skipAllPasses
  · subst hs
    exact hb
  · rw [h s hs]
    exact (get_set_of_ne p hs b).symm

namespace Level

/-- Whatever a setting held, the level gives it the value `v`. -/
def Fixes (l : Level) (s : Setting) (v : s.Value) : Prop := ∀ o : Options, (l.apply o).get s = v

variable {l : Level} {s : Setting}

/-- What a level leaves in a setting that it writes does not depend on the record. -/
theorem get_apply_of_mem (h : s ∈ targets l.writes) (o p : Options) :
    (l.apply o).get s = (l.apply p).get s := by
  rw [apply_eq_assignAll, apply_eq_assignAll]
  exact Options.get_assignAll_of_mem h o p

/-- A level leaves the settings alone that it does not write. -/
theorem get_apply_of_not_mem (h : s ∉ targets l.writes) (o : Options) :
    (l.apply o).get s = o.get s := by
  rw [apply_eq_assignAll]
  exact Options.get_assignAll_of_not_mem h o

/-- A level fixes exactly the settings that it writes. -/
theorem exists_fixes_iff : (∃ v, l.Fixes s v) ↔ s ∈ targets l.writes := by
  constructor
  · rintro ⟨v, hv⟩
    by_contra hs
    obtain ⟨w, hw⟩ := exists_ne v
    -- a record with another value keeps that value
    have hget := hv (({} : Options).set s w)
    rw [get_apply_of_not_mem hs, Options.get_set_self] at hget
    exact hw hget
  · intro hs
    exact ⟨(l.apply {}).get s, fun o => get_apply_of_mem hs o {}⟩

/-! ## who writes what -/

/-- The levels that have a list of optimizations to write. -/
def optimizes : Level → Bool
  | simple | advanced => true
  | bundle | whitespaceOnly => false

/-- The settings to which the simple and the advanced level give different values. -/
def contested : List Setting :=
  [.variableRenaming, .variableInlining, .functionInlining, .removeUnusedVariables,
   .globalThisWarning]

/-- One setting belongs to the whitespace level, all others to levels that optimize. -/
theorem optimizes_of_mem (hs : s ≠ .skipAllPasses) (h : s ∈ targets l.writes) :
    l.optimizes = true := by
  cases l with
  | bundle => cases h
  | whitespaceOnly => exact absurd (List.mem_singleton.1 h) hs
  | simple | advanced => rfl

theorem eq_whitespaceOnly_of_mem (h : .skipAllPasses ∈ targets l.writes) : l = .whitespaceOnly := by
  revert h
  cases l <;> decide

theorem eq_simple_of_mem (h : .replaceIdGenerators ∈ targets l.writes) : l = .simple := by
  revert h
  cases l <;> decide

/-- What the simple level writes the advanced level writes too, with one exception. -/
theorem mem_targets_advanced_iff (h : s ∈ targets simple.writes) :
    s ∈ targets advanced.writes ↔ s ≠ .replaceIdGenerators := by
  revert s
  decide

/-- A setting is contested exactly if it shows which of the two levels has been applied. -/
theorem mem_contested_iff : s ∈ contested ↔
    s ∈ targets simple.writes ∧ s ∈ targets advanced.writes ∧
      (simple.apply {}).get s ≠ (advanced.apply {}).get s := by
  cases s <;> decide

/-! ## sequences of levels -/

/-- The record after levels that are applied in order. -/
def applyAll (ls : List Level) (o : Options) : Options := ls.foldl (fun o l => l.apply o) o

theorem applyAll_concat (ls : List Level) (l : Level) (o : Options) :
    applyAll (ls ++ [l]) o = l.apply (applyAll ls o) := by
  simp [applyAll]

/-- The last of the levels that writes a setting. -/
def lastWriter? (ls : List Level) (s : Setting) : Option Level :=
  (ls.filter fun l => s ∈ targets l.writes).getLast?

/-- The last of the levels that optimizes. -/
def lastOptimizing? (ls : List Level) : Option Level := (ls.filter optimizes).getLast?

/-- A setting is left as the last level that writes it leaves it, and as it was without one. -/
theorem get_applyAll (ls : List Level) (o : Options) (s : Setting) :
    (applyAll ls o).get s = ((lastWriter? ls s).elim o (·.apply o)).get s := by
  induction ls using List.reverseRecOn with
  | nil => rfl
  | append_singleton ls l ih =>
      rw [applyAll_concat, lastWriter?, List.filter_append]
      by_cases hs : s ∈ targets l.writes
      · rw [List.filter_cons_of_pos (by simpa using hs), List.filter_nil, List.getLast?_concat]
        exact get_apply_of_mem hs (applyAll ls o) o
      · rw [List.filter_cons_of_neg (by simpa using hs), List.filter_nil, List.append_nil,
          ← lastWriter?, ← ih]
        exact get_apply_of_not_mem hs (applyAll ls o)

section

variable {ls : List Level}

theorem lastWriter?_eq_none (h : ∀ k ∈ ls, s ∉ targets k.writes) : lastWriter? ls s = none := by
  rw [lastWriter?, List.getLast?_eq_none_iff, List.filter_eq_nil_iff]
  simpa using h

/-- A setting that no level writes is kept. -/
theorem get_applyAll_of_not_mem (h : ∀ k ∈ ls, s ∉ targets k.writes) (o : Options) :
    (applyAll ls o).get s = o.get s := by
  rw [get_applyAll, lastWriter?_eq_none h]
  rfl

/-- A setting that a single level writes shows whether that level has been applied. -/
theorem get_applyAll_of_sole (hl : s ∈ targets l.writes)
    (h : ∀ k ∈ ls, s ∈ targets k.writes → k = l) (o : Options) :
    (applyAll ls o).get s = if l ∈ ls then (l.apply o).get s else o.get s := by
  by_cases hm : l ∈ ls
  · have hne : (ls.filter fun k => s ∈ targets k.writes) ≠ [] :=
      List.ne_nil_of_mem (List.mem_filter.2 ⟨hm, decide_eq_true hl⟩)
    obtain ⟨hk, hw⟩ := List.mem_filter.1 (List.getLast_mem hne)
    rw [get_applyAll, lastWriter?, List.getLast?_eq_some_getLast hne, h _ hk (of_decide_eq_true hw),
      if_pos hm]
    rfl
  · have hn : ∀ k ∈ ls, s ∉ targets k.writes := fun k hk hw => hm (h k hk hw ▸ hk)
    rw [get_applyAll_of_not_mem hn, if_neg hm]

/-- The last level that optimizes has the last word on the settings that it writes. -/
theorem get_applyAll_of_lastOptimizing (h : lastOptimizing? ls = some l) (hs : s ∈ targets l.writes)
    (hne : s ≠ .skipAllPasses) (o : Options) : (applyAll ls o).get s = (l.apply o).get s := by
  have hfilter : (ls.filter fun k => s ∈ targets k.writes) =
      (ls.filter optimizes).filter fun k => s ∈ targets k.writes := by
    rw [List.filter_filter]
    refine List.filter_congr fun k _ => ?_
    by_cases hk : s ∈ targets k.writes
    · simp [hk, optimizes_of_mem hne hk]
    · simp [hk]
  obtain ⟨ks, hks⟩ := List.getLast?_eq_some_iff.1 h
  rw [get_applyAll, lastWriter?, hfilter, hks, List.filter_append,
    List.filter_cons_of_pos (by simpa using hs), List.filter_nil, List.getLast?_concat]
  rfl

end

/-! ## what accumulates -/

section

variable (ls : List Level) (o : Options)

/-- Only the whitespace level turns the transformations off, and nothing turns them on again. -/
theorem skipAllPasses_applyAll :
    (applyAll ls o).skipAllPasses = (o.skipAllPasses || whitespaceOnly ∈ ls) := by
  have h : (applyAll ls o).skipAllPasses = if whitespaceOnly ∈ ls then true else o.skipAllPasses :=
    get_applyAll_of_sole (s := .skipAllPasses) List.mem_cons_self
      (fun _ _ => eq_whitespaceOnly_of_mem) o
  rw [h]
  split <;> simp [*]

/-- Only the simple level stops the replacement of id generators, and nothing takes it up again. -/
theorem replaceIdGenerators_applyAll :
    (applyAll ls o).replaceIdGenerators = (o.replaceIdGenerators && simple ∉ ls) := by
  have h : (applyAll ls o).replaceIdGenerators =
      if simple ∈ ls then false else o.replaceIdGenerators :=
    get_applyAll_of_sole (s := .replaceIdGenerators) (by decide) (fun _ _ => eq_simple_of_mem) o
  rw [h]
  split <;> simp [*]

variable {ls} {s : Setting} (hs : s ≠ .skipAllPasses)

include hs

/-- Behind the advanced level nothing is seen of the simple one but its own setting. -/
theorem get_applyAll_of_advanced (h : lastOptimizing? ls = some advanced)
    (hne : s ≠ .replaceIdGenerators) : (applyAll ls o).get s = (advanced.apply o).get s := by
  by_cases ha : s ∈ targets advanced.writes
  · exact get_applyAll_of_lastOptimizing h ha hs o
  · have hn : ∀ k : Level, s ∉ targets k.writes := by
      intro k hk
      cases k with
      | bundle | whitespaceOnly => cases optimizes_of_mem hs hk
      | simple => exact ha ((mem_targets_advanced_iff hk).2 hne)
      | advanced => exact ha hk
    rw [get_applyAll_of_not_mem fun k _ => hn k, get_apply_of_not_mem ha]

/-- Behind the simple level the settings are seen that only the advanced one writes. -/
theorem get_applyAll_of_simple (h : lastOptimizing? ls = some simple) :
    (applyAll ls o).get s =
      (simple.apply (if advanced ∈ ls then advanced.apply o else o)).get s := by
  by_cases hw : s ∈ targets simple.writes
  · rw [get_applyAll_of_lastOptimizing h hw hs]
    exact get_apply_of_mem hw _ _
  · have hsole : ∀ k : Level, s ∈ targets k.writes → k = advanced := by
      intro k hk
      cases k with
      | bundle | whitespaceOnly => cases optimizes_of_mem hs hk
      | simple => exact absurd hk hw
      | advanced => rfl
    rw [get_apply_of_not_mem hw]
    by_cases ha : s ∈ targets advanced.writes
    · rw [get_applyAll_of_sole ha fun k _ => hsole k]
      split <;> rfl
    · have hn : ∀ k : Level, s ∉ targets k.writes := fun k hk => ha (hsole k hk ▸ hk)
      rw [get_applyAll_of_not_mem fun k _ => hn k]
      split
      · exact (get_apply_of_not_mem ha o).symm
      · rfl

/-- Without a level that optimizes everything is kept. -/
theorem get_applyAll_of_none (h : lastOptimizing? ls = none) : (applyAll ls o).get s = o.get s := by
  rw [lastOptimizing?, List.getLast?_eq_none_iff, List.filter_eq_nil_iff] at h
  exact get_applyAll_of_not_mem (fun k hk hw => h k hk (optimizes_of_mem hs hw)) o

end

/-- Of the levels that are applied to a record the last one that optimizes hides the others, with
few exceptions: transformations that were skipped once stay skipped, the simple level leaves id
generators alone for good, and what the advanced level alone writes is seen behind the simple one.
This is because the advanced level writes all other settings of the simple level too, and all of
them alike but the contested ones. -/
theorem applyAll_hides (ls : List Level) (o : Options) :
    (lastOptimizing? ls = some advanced → applyAll ls o =
      { advanced.apply o with
        skipAllPasses := o.skipAllPasses || whitespaceOnly ∈ ls
        replaceIdGenerators := o.replaceIdGenerators && simple ∉ ls }) ∧
    (lastOptimizing? ls = some simple → applyAll ls o =
      { simple.apply (if advanced ∈ ls then advanced.apply o else o) with
        skipAllPasses := o.skipAllPasses || whitespaceOnly ∈ ls }) ∧
    (lastOptimizing? ls = none → applyAll ls o =
      { o with skipAllPasses := o.skipAllPasses || whitespaceOnly ∈ ls }) ∧
    (∀ s, (∃ v, simple.Fixes s v) → ((∃ v, advanced.Fixes s v) ↔ s ≠ .replaceIdGenerators)) ∧
    ∀ s, (∃ v w, simple.Fixes s v ∧ advanced.Fixes s w ∧ v ≠ w) ↔ s ∈ contested := by
  have hskip := skipAllPasses_applyAll ls o
  refine ⟨?_, ?_, ?_, ?_, ?_⟩
  · intro h
    refine Options.eq_of_get_eq_of_ne_skipAllPasses
      { advanced.apply o with replaceIdGenerators := o.replaceIdGenerators && simple ∉ ls } hskip
      fun s hs => ?_
    by_cases hne : s = .replaceIdGenerators
    · subst hne
      exact replaceIdGenerators_applyAll ls o
    · rw [get_applyAll_of_advanced o hs h hne]
      exact (Options.get_set_of_ne (advanced.apply o) hne _).symm
  · intro h
    exact Options.eq_of_get_eq_of_ne_skipAllPasses _ hskip fun s hs => get_applyAll_of_simple o hs h
  · intro h
    exact Options.eq_of_get_eq_of_ne_skipAllPasses o hskip fun s hs => get_applyAll_of_none o hs h
  · intro s hs
    rw [exists_fixes_iff] at hs ⊢
    exact mem_targets_advanced_iff hs
  · intro s
    rw [mem_contested_iff, ← exists_fixes_iff, ← exists_fixes_iff]
    constructor
    · rintro ⟨v, w, hv, hw, hne⟩
      rw [hv {}, hw {}]
      exact ⟨⟨v, hv⟩, ⟨w, hw⟩, hne⟩
    · rintro ⟨⟨v, hv⟩, ⟨w, hw⟩, hne⟩
      rw [hv {}, hw {}] at hne
      exact ⟨v, w, hv, hw, hne⟩

/-- Levels back and forth: everything that is ever left behind is left behind by one of these. -/
theorem applyAll_hides_back_and_forth :
    (lastOptimizing? [advanced, whitespaceOnly, simple, advanced, bundle] = some advanced ∧
      applyAll [advanced, whitespaceOnly, simple, advanced, bundle] {} =
        { advanced.apply {} with skipAllPasses := true, replaceIdGenerators := false }) ∧
    (lastOptimizing? [simple, advanced, whitespaceOnly, simple] = some simple ∧
      applyAll [simple, advanced, whitespaceOnly, simple] {} =
        { simple.apply (advanced.apply {}) with skipAllPasses := true }) ∧
    (lastOptimizing? [bundle, whitespaceOnly] = none ∧
      applyAll [bundle, whitespaceOnly] {} = { skipAllPasses := true }) ∧
    simple.Fixes .dependencyMode .sortOnly ∧ ∃ v, advanced.Fixes .dependencyMode v := by
  have hlast : lastOptimizing? [advanced, whitespaceOnly, simple, advanced, bundle] =
    some advanced := rfl
  have hlast' : lastOptimizing? [simple, advanced, whitespaceOnly, simple] = some simple := rfl
  have hnone : lastOptimizing? [bundle, whitespaceOnly] = none := rfl
  have hfixes : simple.Fixes .dependencyMode .sortOnly := fun _ => rfl
  obtain ⟨-, -, -, hshared, -⟩ := applyAll_hides [] {}
  exact ⟨⟨hlast, (applyAll_hides _ {}).1 hlast⟩, ⟨hlast', (applyAll_hides _ {}).2.1 hlast'⟩,
    ⟨hnone, (applyAll_hides _ {}).2.2.1 hnone⟩, hfixes, (hshared _ ⟨_, hfixes⟩).2 (by decide)⟩

end Level

end OptionPresets
