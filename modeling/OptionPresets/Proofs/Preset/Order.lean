import OptionPresets.Proofs.Preset.LastWriter
import Mathlib.Data.List.Nodup

/-!
# OptionPresets.Proofs.Preset.Order

When the order of presets matters. A list of assignments that never gives one
setting two values is `Unambiguous`: such a list can be carried out in any order,
and as often as one likes, with the same result (`assignAll_congr`).

* All add-ons write from one table that is about each setting once, so add-ons
  are never ambiguous among themselves.
* A level and an add-on are ambiguous exactly in the pairs of `Clashes`, where the
  later of the two has its way.
-/

namespace OptionPresets

/-! ## unambiguous assignments -/

namespace Assignment

variable {as bs : List Assignment}

/-- No setting is given two values. -/
def Unambiguous (as : List Assignment) : Prop :=
  ∀ a ∈ as, ∀ b ∈ as, a.setting = b.setting → a = b

/-- A list that is about each setting at most once is unambiguous. -/
theorem Unambiguous.of_nodup (h : (targets as).Nodup) : Unambiguous as :=
  fun _ ha _ hb he => List.inj_on_of_nodup_map h ha hb he

/-- Fewer assignments are not more ambiguous. -/
theorem Unambiguous.subset (h : Unambiguous bs) (hs : as ⊆ bs) : Unambiguous as :=
  fun a ha b hb he => h a (hs ha) b (hs hb) he

/-- An unambiguous list leaves in a setting the one value that it has for it. -/
theorem Unambiguous.lastValue?_eq_some_iff (h : Unambiguous as) {s : Setting} {v : s.Value} :
    lastValue? as s = some v ↔ ⟨s, v⟩ ∈ as := by
  constructor
  · exact mem_of_lastValue?
  · intro hm
    obtain ⟨w, hw⟩ := exists_lastValue? (List.mem_map_of_mem hm : s ∈ targets as)
    have heq := h _ hm _ (mem_of_lastValue? hw) rfl
    cases heq
    exact hw

end Assignment

open Assignment in
/-- The order of unambiguous assignments, and how often each is made, does not matter. -/
theorem Options.assignAll_congr {as bs : List Assignment} (h : Unambiguous as)
    (hm : ∀ a, a ∈ as ↔ a ∈ bs) (o : Options) : o.assignAll as = o.assignAll bs := by
  have hb : Unambiguous bs := h.subset fun a ha => (hm a).2 ha
  refine eq_of_get_eq fun s => ?_
  have hl : lastValue? as s = lastValue? bs s := by
    ext v
    rw [h.lastValue?_eq_some_iff, hb.lastValue?_eq_some_iff, hm]
  rw [get_assignAll, get_assignAll, hl]

/-! ## add-ons among themselves -/

namespace AddOn

/-- The record after add-ons that are applied in order. -/
def applyAll (as : List AddOn) (o : Options) : Options := as.foldl (fun o a => a.apply o) o

/-- Add-ons do nothing but their assignments. -/
theorem applyAll_eq_assignAll (as : List AddOn) (o : Options) :
    applyAll as o = o.assignAll (as.flatMap writes) :=
  Options.foldl_eq_assignAll apply_eq_assignAll as o

/-- What add-ons write at the levels that they have most to do at. -/
def table : List Assignment :=
  debug.writes ++ (typeBased .advanced).writes ++ (wrappedOutput .simple).writes

/-- Every add-on writes from the table. -/
theorem writes_subset_table (a : AddOn) : a.writes ⊆ table := by
  intro x hx
  rw [table, List.mem_append, List.mem_append]
  cases a with
  | debug => exact .inl (.inl hx)
  | typeBased l =>
      cases l with
      | advanced => exact .inl (.inr hx)
      | bundle | whitespaceOnly | simple => cases hx
  | wrappedOutput l =>
      cases l with
      | simple => exact .inr hx
      | bundle | whitespaceOnly | advanced =>
          obtain rfl := List.mem_singleton.1 hx
          exact .inr List.mem_cons_self

theorem unambiguous_table : Assignment.Unambiguous table :=
  .of_nodup (by decide)

/-- Whatever add-ons are applied, they never write different values to one setting. -/
theorem unambiguous_flatMap_writes (as : List AddOn) :
    Assignment.Unambiguous (as.flatMap writes) := by
  refine unambiguous_table.subset fun x hx => ?_
  obtain ⟨a, -, ha⟩ := List.mem_flatMap.1 hx
  exact a.writes_subset_table ha

/-- Lists of the same add-ons do the same, in whatever order and with whatever repetitions. -/
theorem applyAll_congr {as bs : List AddOn} (h : ∀ a, a ∈ as ↔ a ∈ bs) (o : Options) :
    applyAll as o = applyAll bs o := by
  rw [applyAll_eq_assignAll, applyAll_eq_assignAll]
  refine Options.assignAll_congr (unambiguous_flatMap_writes as) (fun x => ?_) o
  simp only [List.mem_flatMap, h]

end AddOn

/-- A request applies its level and then its add-ons. -/
theorem Request.configure_eq_applyAll (r : Request) (o : Options) :
    r.configure o = AddOn.applyAll (r.addOns.toList r.level) (r.level.apply o) := by
  rw [configure, run, Configuration.options_foldl, steps, List.foldl_cons, List.foldl_map]
  rfl

/-! ## a level and an add-on -/

/-- The pairs of a level and an add-on that write different values to some setting. -/
inductive Clashes : Level → AddOn → Prop
  /-- Debugging keeps the assertions that the advanced level removes. -/
  | debug : Clashes .advanced .debug
  /-- A wrapper gives up the raw exports that the advanced level reserves. -/
  | wrappedOutput (l : Level) : Clashes .advanced (.wrappedOutput l)
  /-- A wrapper extends to global names what the simple level does to local ones. -/
  | wrappedSimple : Clashes .simple (.wrappedOutput .simple)

/-- Otherwise the two write to different settings. -/
theorem nodup_targets_of_not_clashes {l : Level} {a : AddOn} (h : ¬ Clashes l a) :
    (Assignment.targets (l.writes ++ a.writes)).Nodup := by
  cases a with
  | debug =>
      cases l with
      | advanced => exact absurd .debug h
      | bundle | whitespaceOnly | simple => decide
  | typeBased m => cases l <;> cases m <;> decide
  | wrappedOutput m =>
      cases l with
      | advanced => exact absurd (.wrappedOutput m) h
      | simple =>
          cases m with
          | simple => exact absurd .wrappedSimple h
          | bundle | whitespaceOnly | advanced => decide
      | bundle | whitespaceOnly => cases m <;> decide

/-- If they do not clash, it does not matter which of a level and an add-on comes first. -/
theorem apply_comm_of_not_clashes {l : Level} {a : AddOn} (h : ¬ Clashes l a) (o : Options) :
    a.apply (l.apply o) = l.apply (a.apply o) := by
  have hu := Assignment.Unambiguous.of_nodup (nodup_targets_of_not_clashes h)
  rw [l.apply_eq_assignAll, a.apply_eq_assignAll, l.apply_eq_assignAll, a.apply_eq_assignAll,
    ← Options.assignAll_append, ← Options.assignAll_append]
  refine Options.assignAll_congr hu (fun x => ?_) o
  rw [List.mem_append, List.mem_append, or_comm]

/-- If they clash, the default record already shows which of them came last. -/
theorem Clashes.apply_ne {l : Level} {a : AddOn} (h : Clashes l a) :
    a.apply (l.apply {}) ≠ l.apply (a.apply {}) := by
  cases h with
  | debug => decide
  | wrappedOutput m => cases m <;> decide
  | wrappedSimple => decide

/-! ## the law of order -/

/-- Add-ons may come in any order and be repeated, also within a request. A level may change places
with an add-on exactly if the two do not clash. -/
theorem preset_order :
    (∀ (as bs : List AddOn) (o : Options), (∀ a, a ∈ as ↔ a ∈ bs) →
      AddOn.applyAll as o = AddOn.applyAll bs o) ∧
    (∀ (r : Request) (as : List AddOn) (o : Options), as.Perm (r.addOns.toList r.level) →
      AddOn.applyAll as (r.level.apply o) = r.configure o) ∧
    (∀ (l : Level) (a : AddOn),
      (∀ o : Options, a.apply (l.apply o) = l.apply (a.apply o)) ↔ ¬ Clashes l a) ∧
    ∀ (l : Level) (a : AddOn), Clashes l a →
      ∃ o : Options, a.apply (l.apply o) ≠ l.apply (a.apply o) := by
  refine ⟨?_, ?_, ?_, ?_⟩
  · intro as bs o h
    exact AddOn.applyAll_congr h o
  · intro r as o h
    rw [r.configure_eq_applyAll]
    exact AddOn.applyAll_congr (fun _ => h.mem_iff) (r.level.apply o)
  · intro l a
    constructor
    · intro hcomm hc
      exact hc.apply_ne (hcomm {})
    · exact apply_comm_of_not_clashes
  · intro l a hc
    exact ⟨{}, hc.apply_ne⟩

/-- The law where there is most to order: debugging twice around a wrapper, a request for the
simple level that asks for both, and the wrapper against that level. -/
theorem preset_order_wrapped :
    ((∀ a, a ∈ [AddOn.debug, .wrappedOutput .simple, .debug] ↔
        a ∈ [AddOn.wrappedOutput .simple, .debug]) ∧
      AddOn.applyAll [.debug, .wrappedOutput .simple, .debug] {} =
        AddOn.applyAll [.wrappedOutput .simple, .debug] {}) ∧
    ([AddOn.wrappedOutput .simple, .debug].Perm (AddOns.toList ⟨true, false, true⟩ .simple) ∧
      AddOn.applyAll [.wrappedOutput .simple, .debug] (Level.simple.apply {}) =
        Request.configure ⟨.simple, true, false, true⟩ {}) ∧
    (¬ Clashes .simple .debug ∧
      AddOn.debug.apply (Level.simple.apply {}) = Level.simple.apply (AddOn.debug.apply {})) ∧
    Clashes .simple (.wrappedOutput .simple) ∧
      ∃ o : Options, (AddOn.wrappedOutput .simple).apply (Level.simple.apply o) ≠
        Level.simple.apply ((AddOn.wrappedOutput .simple).apply o) := by
  obtain ⟨hsame, hrequest, hcomm, hclash⟩ := preset_order
  have hmem : ∀ a, a ∈ [AddOn.debug, .wrappedOutput .simple, .debug] ↔
      a ∈ [AddOn.wrappedOutput .simple, .debug] := by
    intro a
    simp only [List.mem_cons, List.not_mem_nil, or_false]
    tauto
  have hperm : [AddOn.wrappedOutput .simple, .debug].Perm
      (AddOns.toList ⟨true, false, true⟩ .simple) := by decide
  have hne : ¬ Clashes .simple .debug := nofun
  exact ⟨⟨hmem, hsame _ _ {} hmem⟩, ⟨hperm, hrequest ⟨.simple, true, false, true⟩ _ {} hperm⟩,
    ⟨hne, (hcomm .simple .debug).2 hne {}⟩, .wrappedSimple, hclash _ _ .wrappedSimple⟩

end OptionPresets
