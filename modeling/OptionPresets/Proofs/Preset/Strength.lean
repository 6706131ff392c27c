import OptionPresets.Proofs.Preset.Accumulation
import OptionPresets.Proofs.Preset.Order

/-!
# OptionPresets.Proofs.Preset.Strength

How far a record goes. The values of a setting stand on a scale, from the weakest to
the strongest, and one record goes at most as far as another if this holds in every
setting.

With the same add-ons the simple level goes at most as far as the advanced one, with
a single exception: function expressions are rewritten at the caller's wish at the
simple level and never at the advanced level
(`Request.simple_atMost_advanced`). The two lists of the levels are compared once,
and then each add-on is done on both sides. An add-on for wrapped output catches up
on the simple side only, but the advanced side is never behind what it writes there
(`Options.Capable`).
-/

namespace OptionPresets

open Assignment (targets)

/-! ## scales -/

namespace Setting.Kind

/-- The values of a kind from the weakest to the strongest. A report level that is not overridden
may be any, so it has no place on the scale. -/
def scale : (k : Kind) → List k.Value
  | toggle => [false, true]
  | dependencyMode => [.none, .sortOnly, .prune]
  | override => [some .off, some .warning, some .error]
  | variableRenaming => [.off, .localOnly, .all]
  | propertyRenaming => [.off, .allUnquoted]
  | reach => [.none, .localOnly, .all]
  | collapsing => [.none, .moduleExport, .all]

/-- The value `v` is `w`, or weaker than `w`. -/
def AtMost (k : Kind) (v w : k.Value) : Prop := v = w ∨ [v, w].Sublist k.scale

instance (k : Kind) (v w : k.Value) : Decidable (k.AtMost v w) :=
  inferInstanceAs (Decidable (_ ∨ _))

/-- The value `w` ends the scale, and no value is missing there. -/
def Strongest (k : Kind) (w : k.Value) : Prop := k ≠ .override ∧ k.scale.getLast? = some w

instance (k : Kind) (w : k.Value) : Decidable (k.Strongest w) :=
  inferInstanceAs (Decidable (_ ∧ _))

/-- Only report levels can be off the scale. -/
theorem mem_scale {k : Kind} (h : k ≠ .override) (v : k.Value) : v ∈ k.scale := by
  cases k with
  | override => exact absurd rfl h
  | toggle | dependencyMode | variableRenaming | propertyRenaming | reach | collapsing =>
      cases v <;> decide

/-- No value goes further than the strongest. -/
theorem Strongest.atMost {k : Kind} {w : k.Value} (h : k.Strongest w) (v : k.Value) :
    k.AtMost v w := by
  obtain ⟨vs, hvs⟩ := List.getLast?_eq_some_iff.1 h.2
  have hv : v ∈ k.scale := mem_scale h.1 v
  rw [hvs, List.mem_append, List.mem_singleton] at hv
  rcases hv with hv | rfl
  · right
    rw [hvs]
    exact (List.singleton_sublist.2 hv).append (List.Sublist.refl [w])
  · exact .inl rfl

theorem false_atMost (b : Bool) : toggle.AtMost false b := by
  cases b <;> decide

theorem atMost_false_iff {b : Bool} : toggle.AtMost b false ↔ b = false := by
  cases b <;> decide

end Setting.Kind

/-! ## records -/

namespace Options

/-- In one setting the record `o` goes at most as far as `p`. -/
def AtMostAt (s : Setting) (o p : Options) : Prop := s.kind.AtMost (o.get s) (p.get s)

/-- The record `o` goes at most as far as `p`. -/
def AtMost (o p : Options) : Prop := ∀ s, AtMostAt s o p

variable {s : Setting} {o p : Options} {as : List Assignment}

/-- What is assigned to both records is equal afterwards. -/
theorem AtMostAt.assignAll (h : AtMostAt s o p) (as : List Assignment) :
    AtMostAt s (o.assignAll as) (p.assignAll as) := by
  by_cases hs : s ∈ targets as
  · exact .inl (get_assignAll_of_mem hs o p)
  · rw [AtMostAt, get_assignAll_of_not_mem hs, get_assignAll_of_not_mem hs]
    exact h

/-- The record that goes further may be given the strongest values. -/
theorem AtMostAt.assignAll_right (h : AtMostAt s o p)
    (hw : ∀ a ∈ as, a.setting.kind.Strongest a.value) : AtMostAt s o (p.assignAll as) := by
  rw [AtMostAt, get_assignAll]
  cases hv : Assignment.lastValue? as s with
  | none => exact h
  | some v => exact (hw _ (Assignment.mem_of_lastValue? hv)).atMost (o.get s)

/-- The other record may be given what the one that goes further has already. -/
theorem AtMostAt.of_mem (hs : s ∈ targets as)
    (hw : ∀ a ∈ as, a.setting.kind.AtMost a.value (p.get a.setting)) (o : Options) :
    AtMostAt s (o.assignAll as) p := by
  obtain ⟨v, hv⟩ := Assignment.exists_lastValue? hs
  rw [AtMostAt, get_assignAll, hv, Option.getD_some]
  exact hw _ (Assignment.mem_of_lastValue? hv)

end Options

open Options (AtMostAt AtMost)

/-! ## the two levels that optimize -/

namespace Level

variable {s : Setting}

/-- Where both levels write, the simple one writes at most what the advanced one writes. -/
theorem simple_atMost_of_mem (hw : s ∈ targets simple.writes) (ha : s ∈ targets advanced.writes) :
    s.kind.AtMost ((simple.apply {}).get s) ((advanced.apply {}).get s) := by
  revert hw ha
  cases s <;> decide

/-- What only the advanced level writes is as strong as can be, with one exception. -/
theorem strongest_of_not_mem (hs : s ≠ .rewriteFunctionExpressions)
    (ha : s ∈ targets advanced.writes) (hw : s ∉ targets simple.writes) :
    s.kind.Strongest ((advanced.apply {}).get s) := by
  revert hs ha hw
  cases s <;> decide

/-- Without add-ons the simple level goes at most as far as the advanced one. -/
theorem simple_atMostAt_advanced (hs : s ≠ .rewriteFunctionExpressions) (o : Options) :
    AtMostAt s (simple.apply o) (advanced.apply o) := by
  by_cases hw : s ∈ targets simple.writes
  · by_cases hne : s = .replaceIdGenerators
    · subst hne
      exact Setting.Kind.false_atMost o.replaceIdGenerators
    · have ha : s ∈ targets advanced.writes := (mem_targets_advanced_iff hw).2 hne
      rw [AtMostAt, get_apply_of_mem hw o {}, get_apply_of_mem ha o {}]
      exact simple_atMost_of_mem hw ha
  · by_cases ha : s ∈ targets advanced.writes
    · rw [AtMostAt, get_apply_of_mem ha o {}]
      exact (strongest_of_not_mem hs ha hw).atMost ((simple.apply o).get s)
    · left
      rw [get_apply_of_not_mem hw, get_apply_of_not_mem ha]

end Level

/-! ## add-ons on both sides -/

/-- The same add-on for another level. -/
def AddOn.forLevel (l : Level) : AddOn → AddOn
  | debug => debug
  | typeBased _ => typeBased l
  | wrappedOutput _ => wrappedOutput l

theorem AddOns.map_forLevel (a : AddOns) (l m : Level) :
    (a.toList l).map (.forLevel m) = a.toList m := by
  obtain ⟨d, t, w⟩ := a
  cases d <;> cases t <;> cases w <;> rfl

/-- An add-on leaves the settings alone that it does not write. -/
theorem AddOn.get_apply_of_not_mem {a : AddOn} {s : Setting} (h : s ∉ targets a.writes)
    (o : Options) : (a.apply o).get s = o.get s := by
  rw [apply_eq_assignAll]
  exact Options.get_assignAll_of_not_mem h o

namespace Options

variable {o p : Options}

/-- A record that is not behind anything that a wrapper lets the simple level do. -/
def Capable (p : Options) : Prop :=
  ∀ a ∈ (AddOn.wrappedOutput .simple).writes, a.setting.kind.AtMost a.value (p.get a.setting)

/-- The advanced level does already what a wrapper lets the simple level do. -/
theorem Capable.of_advanced (o : Options) : Capable (Level.advanced.apply o) := by
  intro a ha
  have hwrites : ∀ a ∈ (AddOn.wrappedOutput .simple).writes,
      a.setting ∈ targets Level.advanced.writes ∧
        a.setting.kind.AtMost a.value ((Level.advanced.apply {}).get a.setting) := by
    decide
  obtain ⟨hmem, hle⟩ := hwrites a ha
  rw [Level.get_apply_of_mem hmem o {}]
  exact hle

/-- No add-on of the advanced level takes this back. -/
theorem Capable.step (h : Capable p) (x : AddOn) : Capable ((x.forLevel .advanced).apply p) := by
  -- raw exports are the one thing that an add-on touches here, and a wrapper needs none
  refine List.forall_mem_cons.2 ⟨Setting.Kind.false_atMost _, fun a ha => ?_⟩
  have hdisjoint : a.setting ∉ targets (x.forLevel .advanced).writes := by
    revert a
    cases x <;> dsimp only [AddOn.forLevel] <;> decide
  rw [AddOn.get_apply_of_not_mem hdisjoint]
  exact h a (List.mem_cons_of_mem _ ha)

/-- What a wrapper writes for the simple level is at most what such a record has there. -/
theorem Capable.atMostAt (h : Capable p) {s : Setting}
    (hs : s ∈ targets (AddOn.wrappedOutput .simple).writes) (o : Options) :
    AtMostAt s ((AddOn.wrappedOutput .simple).apply o) p := by
  rw [AddOn.apply_eq_assignAll]
  exact .of_mem hs h o

/-- The record `p` of the advanced level is ahead of the record `o` of the simple level, and stays
ahead with whatever add-ons there are. -/
structure Ahead (o p : Options) : Prop where
  atMost : ∀ s ≠ .rewriteFunctionExpressions, AtMostAt s o p
  capable : Capable p

theorem Ahead.of_levels (o : Options) : Ahead (Level.simple.apply o) (Level.advanced.apply o) where
  atMost _ hs := Level.simple_atMostAt_advanced hs o
  capable := .of_advanced o

/-- An add-on on both sides keeps the advanced side ahead. -/
theorem Ahead.step (h : Ahead o p) (x : AddOn) :
    Ahead ((x.forLevel .simple).apply o) ((x.forLevel .advanced).apply p) where
  capable := h.capable.step x
  atMost s hs := by
    have hle : AtMostAt s o p := h.atMost s hs
    cases x with
    | debug =>
        dsimp only [AddOn.forLevel]
        rw [AddOn.apply_eq_assignAll, AddOn.apply_eq_assignAll]
        exact hle.assignAll AddOn.debug.writes
    | typeBased l =>
        have hstrongest : ∀ a ∈ (AddOn.typeBased .advanced).writes,
            a.setting.kind.Strongest a.value := by decide
        dsimp only [AddOn.forLevel]
        rw [AddOn.apply_eq_assignAll (.typeBased .advanced)]
        exact hle.assignAll_right hstrongest
    | wrappedOutput l =>
        have hcapable : Capable ((AddOn.wrappedOutput .advanced).apply p) :=
          h.capable.step (.wrappedOutput l)
        dsimp only [AddOn.forLevel]
        by_cases hw : s ∈ targets (AddOn.wrappedOutput .simple).writes
        · exact hcapable.atMostAt hw o
        · have ha : s ∉ targets (AddOn.wrappedOutput .advanced).writes := by
            intro ha
            obtain rfl := List.mem_singleton.1 ha
            exact hw List.mem_cons_self
          rw [AtMostAt, AddOn.get_apply_of_not_mem hw, AddOn.get_apply_of_not_mem ha]
          exact hle

/-- Add-ons on both sides, however many and in whatever order, keep the advanced side ahead. -/
theorem Ahead.run (h : Ahead o p) (xs : List AddOn) :
    Ahead (AddOn.applyAll (xs.map (.forLevel .simple)) o)
      (AddOn.applyAll (xs.map (.forLevel .advanced)) p) := by
  induction xs generalizing o p with
  | nil => exact h
  | cons x xs ih => exact ih (h.step x)

end Options

/-! ## requests -/

/-- Add-ons leave the settings alone that are not in their table. -/
theorem AddOn.get_applyAll_of_not_mem {s : Setting} (h : s ∉ targets table) (as : List AddOn)
    (o : Options) : (applyAll as o).get s = o.get s := by
  rw [applyAll_eq_assignAll]
  refine Options.get_assignAll_of_not_mem (fun hs => h ?_) o
  obtain ⟨x, hx, rfl⟩ := List.mem_map.1 hs
  obtain ⟨a, -, ha⟩ := List.mem_flatMap.1 hx
  exact List.mem_map_of_mem (a.writes_subset_table ha)

namespace Request

/-- Where no add-on writes, a request does what its level does. -/
theorem get_configure_of_not_mem {s : Setting} (h : s ∉ targets AddOn.table) (r : Request)
    (o : Options) : (r.configure o).get s = (r.level.apply o).get s := by
  rw [configure_eq_applyAll]
  exact AddOn.get_applyAll_of_not_mem h _ _

/-- With the same add-ons the record of the advanced level is ahead of that of the simple level. -/
theorem ahead_configure (a : AddOns) (o : Options) :
    Options.Ahead (configure ⟨.simple, a⟩ o) (configure ⟨.advanced, a⟩ o) := by
  have h := (Options.Ahead.of_levels o).run (a.toList .simple)
  rw [a.map_forLevel, a.map_forLevel] at h
  rw [configure_eq_applyAll, configure_eq_applyAll]
  exact h

/-- Whatever the record and the add-ons, the simple level goes at most as far as the advanced one in
all settings but one: the simple level keeps the rewriting of function expressions, which the
advanced level turns off, so in that setting it goes further exactly if the caller asked for it. Of
the two overrides one is off and the other a warning. And all that a wrapper adds to any record, as
it does for the simple level, the advanced level has at least to the same degree, with a wrapper or
without. -/
theorem simple_atMost_advanced (a : AddOns) (o : Options) :
    (∀ s ≠ .rewriteFunctionExpressions,
      AtMostAt s (configure ⟨.simple, a⟩ o) (configure ⟨.advanced, a⟩ o)) ∧
    ((configure ⟨.simple, a⟩ o).localPasses.rewriteFunctionExpressions =
        o.localPasses.rewriteFunctionExpressions ∧
      (configure ⟨.advanced, a⟩ o).localPasses.rewriteFunctionExpressions = false) ∧
    (AtMost (configure ⟨.simple, a⟩ o) (configure ⟨.advanced, a⟩ o) ↔
      o.localPasses.rewriteFunctionExpressions = false) ∧
    ((configure ⟨.simple, a⟩ o).warning? .globalThis = some .off ∧
      (configure ⟨.advanced, a⟩ o).warning? .globalThis = some .warning) ∧
    ∀ (p : Options) (s : Setting), ((AddOn.wrappedOutput .simple).apply p).get s ≠ p.get s →
      AtMostAt s ((AddOn.wrappedOutput .simple).apply p) (configure ⟨.advanced, a⟩ o) := by
  have hrewrite (l : Level) := get_configure_of_not_mem
    (by decide : Setting.rewriteFunctionExpressions ∉ targets AddOn.table) ⟨l, a⟩ o
  have hwarning (l : Level) := get_configure_of_not_mem
    (by decide : Setting.globalThisWarning ∉ targets AddOn.table) ⟨l, a⟩ o
  have hahead := ahead_configure a o
  refine ⟨hahead.atMost, ⟨hrewrite .simple, hrewrite .advanced⟩, ?_,
    ⟨hwarning .simple, hwarning .advanced⟩, ?_⟩
  · have hiff : AtMostAt .rewriteFunctionExpressions (configure ⟨.simple, a⟩ o)
        (configure ⟨.advanced, a⟩ o) ↔ o.localPasses.rewriteFunctionExpressions = false := by
      rw [AtMostAt, hrewrite .simple, hrewrite .advanced]
      exact Setting.Kind.atMost_false_iff
    constructor
    · intro h
      exact hiff.1 (h .rewriteFunctionExpressions)
    · intro h s
      by_cases hs : s = .rewriteFunctionExpressions
      · subst hs
        exact hiff.2 h
      · exact hahead.atMost s hs
  · intro p s hs
    have hw : s ∈ targets (AddOn.wrappedOutput .simple).writes := by
      by_contra hn
      exact hs (AddOn.get_apply_of_not_mem hn p)
    exact hahead.capable.atMostAt hw p

/-- With all add-ons on both sides the collapsing of properties is still at most that of the
advanced level. The wish to have function expressions rewritten is all that can put the simple level
in front, and what a wrapper collapses is collapsed by the advanced level without a wrapper. -/
theorem simple_atMost_advanced_all_addOns :
    (Setting.collapseProperties ≠ .rewriteFunctionExpressions ∧
      AtMostAt .collapseProperties (configure ⟨.simple, true, true, true⟩ {})
        (configure ⟨.advanced, true, true, true⟩ {})) ∧
    ¬ AtMost
      (configure ⟨.simple, true, true, true⟩ { localPasses.rewriteFunctionExpressions := true })
      (configure ⟨.advanced, true, true, true⟩ { localPasses.rewriteFunctionExpressions := true }) ∧
    AtMost (configure ⟨.simple, true, true, true⟩ {})
      (configure ⟨.advanced, true, true, true⟩ {}) ∧
    ((AddOn.wrappedOutput .simple).apply (Level.simple.apply {})).get .collapseProperties ≠
      (Level.simple.apply {}).get .collapseProperties ∧
    AtMostAt .collapseProperties ((AddOn.wrappedOutput .simple).apply (Level.simple.apply {}))
      (configure ⟨.advanced, true, true, false⟩ {}) := by
  obtain ⟨hle, -, hall, -, -⟩ := simple_atMost_advanced ⟨true, true, true⟩ {}
  obtain ⟨-, -, hall', -, -⟩ :=
    simple_atMost_advanced ⟨true, true, true⟩ { localPasses.rewriteFunctionExpressions := true }
  obtain ⟨-, -, -, -, hwrapper⟩ := simple_atMost_advanced ⟨true, true, false⟩ {}
  have hne : ((AddOn.wrappedOutput .simple).apply (Level.simple.apply {})).get .collapseProperties ≠
      (Level.simple.apply {}).get .collapseProperties := by decide
  exact ⟨⟨by decide, hle _ (by decide)⟩, fun h => absurd (hall'.1 h) (by decide), hall.2 rfl, hne,
    hwrapper _ _ hne⟩

end Request

end OptionPresets
