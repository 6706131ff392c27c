import OptionPresets.Preset.Request
import OptionPresets.Preset.Writes

/-!
# OptionPresets.Proofs.Preset.LastWriter

Carrying out a request is writing lists of constants over each other: the list
of its level, then the lists of the add-ons that it asks for. `LastWritten`
says what such lists leave in a setting without running anything:

* the value in the last list that has the setting, or
* the value that was there before, if no list has it.

`Request.options_run_iff` states this of every record and every request, and
as the settings cover the record, it fixes the result.
-/

namespace OptionPresets

/-! ## lists of assignments -/

namespace Assignment

/-- The settings that a list of assignments is about. -/
def targets (as : List Assignment) : List Setting := as.map (·.setting)

@[simp] theorem targets_cons (a : Assignment) (as : List Assignment) :
    targets (a :: as) = a.setting :: targets as := rfl

@[simp] theorem value?_self (s : Setting) (v : s.Value) : value? ⟨s, v⟩ s = some v := by
  simp [value?]

theorem value?_of_ne {a : Assignment} {s : Setting} (h : a.setting ≠ s) : a.value? s = none := by
  rw [value?, dif_neg h]

/-- A list leaves no value in the settings that it is not about. -/
theorem lastValue?_of_not_mem {as : List Assignment} {s : Setting} (h : s ∉ targets as) :
    lastValue? as s = none := by
  induction as with
  | nil => rfl
  | cons a as ih =>
      rw [targets_cons, List.mem_cons, not_or] at h
      rw [lastValue?, ih h.2, value?_of_ne (Ne.symm h.1)]
      rfl

/-- Of two lists the later one decides, if it is about the setting. -/
theorem lastValue?_append (as bs : List Assignment) (s : Setting) :
    lastValue? (as ++ bs) s = (lastValue? bs s).or (lastValue? as s) := by
  induction as with
  | nil => simp [lastValue?]
  | cons a as ih => rw [List.cons_append, lastValue?, ih, lastValue?, Option.or_assoc]

/-- What a list leaves in a setting is the value of one of its assignments. -/
theorem mem_of_lastValue? {as : List Assignment} {s : Setting} {v : s.Value}
    (h : lastValue? as s = some v) : ⟨s, v⟩ ∈ as := by
  induction as with
  | nil => cases h
  | cons a as ih =>
      rw [lastValue?, Option.or_eq_some_iff] at h
      rcases h with h | ⟨-, h⟩
      · exact List.mem_cons_of_mem a (ih h)
      · obtain ⟨t, w⟩ := a
        by_cases ht : t = s
        · subst ht
          rw [value?_self, Option.some.injEq] at h
          rw [h]
          exact List.mem_cons_self
        · rw [value?_of_ne ht] at h
          contradiction

/-- A list leaves some value in each setting that it is about. -/
theorem exists_lastValue? {as : List Assignment} {s : Setting} (h : s ∈ targets as) :
    ∃ v, lastValue? as s = some v := by
  induction as with
  | nil => cases h
  | cons a as ih =>
      rw [lastValue?]
      cases hl : lastValue? as s with
      | some v => exact ⟨v, rfl⟩
      | none =>
          rcases List.mem_cons.1 h with rfl | hs
          · exact ⟨a.value, value?_self a.setting a.value⟩
          · obtain ⟨v, hv⟩ := ih hs
            rw [hl] at hv
            contradiction

/-- A list that is about each setting at most once leaves there the value that it has for it. -/
theorem lastValue?_of_mem {as : List Assignment} {s : Setting} {v : s.Value}
    (hn : (targets as).Nodup) (h : ⟨s, v⟩ ∈ as) : lastValue? as s = some v := by
  induction as with
  | nil => cases h
  | cons a as ih =>
      obtain ⟨ha, hn⟩ := List.nodup_cons.1 hn
      rw [lastValue?]
      rcases List.mem_cons.1 h with rfl | h
      · rw [lastValue?_of_not_mem ha, Option.none_or, value?_self]
      · rw [ih hn h, Option.some_or]

end Assignment

/-- Things that do nothing but their assignments, carried out in order, do nothing but all of these
assignments in order. -/
theorem Options.foldl_eq_assignAll {α : Type} {apply : α → Options → Options}
    {writes : α → List Assignment} (h : ∀ x o, apply x o = o.assignAll (writes x)) (xs : List α)
    (o : Options) : xs.foldl (fun o x => apply x o) o = o.assignAll (xs.flatMap writes) := by
  induction xs generalizing o with
  | nil => rfl
  | cons x xs ih => rw [List.foldl_cons, ih, h, ← assignAll_append, List.flatMap_cons]

/-! ## the lists are unambiguous -/

theorem Level.nodup_targets (l : Level) : (Assignment.targets l.writes).Nodup := by
  cases l <;> decide

theorem AddOn.nodup_targets (a : AddOn) : (Assignment.targets a.writes).Nodup := by
  cases a with
  | debug => decide
  | typeBased l => cases l <;> decide
  | wrappedOutput l => cases l <;> decide

/-! ## the last list that has a setting -/

open Assignment in
/-- What lists of assignments leave in a setting that held `old`, when they are carried out one
after the other. -/
inductive LastWritten (s : Setting) (old : s.Value) : List (List Assignment) → s.Value → Prop
  | kept {lists : List (List Assignment)} (h : ∀ as ∈ lists, s ∉ targets as) :
      LastWritten s old lists old
  | written (before : List (List Assignment)) {as : List Assignment}
      (after : List (List Assignment)) {v : s.Value} (hm : ⟨s, v⟩ ∈ as)
      (h : ∀ bs ∈ after, s ∉ targets bs) : LastWritten s old (before ++ as :: after) v

namespace LastWritten

variable {s : Setting} {old v : s.Value} {lists : List (List Assignment)}

/-- Lists that are not about a setting are not about it together. -/
theorem lastValue?_flatten_of_not_mem (h : ∀ as ∈ lists, s ∉ Assignment.targets as) :
    Assignment.lastValue? lists.flatten s = none := by
  induction lists with
  | nil => rfl
  | cons as lists ih =>
      rw [List.forall_mem_cons] at h
      rw [List.flatten_cons, Assignment.lastValue?_append, ih h.2,
        Assignment.lastValue?_of_not_mem h.1]
      rfl

/-- The lists, carried out as one, leave what the last of them that has the setting says. -/
theorem eq_getD (hn : ∀ as ∈ lists, (Assignment.targets as).Nodup) (h : LastWritten s old lists v) :
    v = (Assignment.lastValue? lists.flatten s).getD old := by
  cases h with
  | kept h => rw [lastValue?_flatten_of_not_mem h, Option.getD_none]
  | written before after hm h =>
      have ha := hn _ (List.mem_append_right before List.mem_cons_self)
      rw [List.flatten_append, List.flatten_cons, Assignment.lastValue?_append,
        Assignment.lastValue?_append, lastValue?_flatten_of_not_mem h,
        Assignment.lastValue?_of_mem ha hm]
      rfl

/-- Either some list has the last word on a setting or all of them leave it alone. -/
theorem exists_lastWritten (s : Setting) (old : s.Value) (lists : List (List Assignment)) :
    ∃ v, LastWritten s old lists v := by
  induction lists with
  | nil => exact ⟨old, .kept nofun⟩
  | cons as lists ih =>
      obtain ⟨v, h⟩ := ih
      cases h with
      | written before after hm h => exact ⟨v, .written (as :: before) after hm h⟩
      | kept h =>
          by_cases hs : s ∈ Assignment.targets as
          · obtain ⟨⟨t, v⟩, ha, rfl⟩ := List.mem_map.1 hs
            exact ⟨v, .written [] lists ha h⟩
          · exact ⟨old, .kept (List.forall_mem_cons.2 ⟨hs, h⟩)⟩

/-- What is last written is what carrying out the lists as one leaves. -/
theorem iff_eq_getD (hn : ∀ as ∈ lists, (Assignment.targets as).Nodup) :
    LastWritten s old lists v ↔ v = (Assignment.lastValue? lists.flatten s).getD old := by
  constructor
  · exact eq_getD hn
  · intro hv
    obtain ⟨w, hw⟩ := exists_lastWritten s old lists
    rw [hv, ← eq_getD hn hw]
    exact hw

end LastWritten

/-! ## requests -/

/-- What a step writes. -/
def Step.writes : Step → List Assignment
  | .level l => l.writes
  | .addOn a => a.writes

theorem Step.apply_eq_assignAll (st : Step) (o : Options) : st.apply o = o.assignAll st.writes := by
  cases st with
  | level l => exact l.apply_eq_assignAll o
  | addOn a => exact a.apply_eq_assignAll o

/-- Steps that are applied in order carry out their lists in order. -/
theorem Step.foldl_apply (ss : List Step) (o : Options) :
    ss.foldl (fun o st => st.apply o) o = o.assignAll (ss.map writes).flatten := by
  rw [Options.foldl_eq_assignAll apply_eq_assignAll, List.flatMap_def]

namespace Request

/-- The lists that a request asks for: that of its level, then that of the debug add-on, then that
of the type-based add-on, then that of the add-on for wrapped output. -/
def writeLists (r : Request) : List (List Assignment) :=
  [r.level.writes] ++
  (if r.addOns.debug then [AddOn.debug.writes] else []) ++
  (if r.addOns.useTypes then [(AddOn.typeBased r.level).writes] else []) ++
  (if r.addOns.functionWrapper then [(AddOn.wrappedOutput r.level).writes] else [])

/-- The steps of a request write its lists. -/
theorem map_writes_steps (r : Request) : r.steps.map Step.writes = r.writeLists := by
  obtain ⟨l, d, t, w⟩ := r
  cases d <;> cases t <;> cases w <;> rfl

/-- No list of a request has a setting twice. -/
theorem nodup_targets (r : Request) :
    ∀ as ∈ r.writeLists, (Assignment.targets as).Nodup := by
  intro as ha
  rw [← map_writes_steps] at ha
  obtain ⟨st, -, rfl⟩ := List.mem_map.1 ha
  cases st with
  | level l => exact l.nodup_targets
  | addOn a => exact a.nodup_targets

/-- Carrying out a request, with a trace or without one, gives the only record in which every
setting has the value that the lists of the request last write to it, and the caller's value if
none of them has it. -/
theorem options_run_iff (r : Request) (c : Configuration) (p : Options) :
    (r.run c).options = p ↔
      ∀ s : Setting, LastWritten s (c.options.get s) r.writeLists (p.get s) := by
  have hrun : (r.run c).options = c.options.assignAll r.writeLists.flatten := by
    rw [run, Configuration.options_foldl, Step.foldl_apply, map_writes_steps]
  have hget (s : Setting) : LastWritten s (c.options.get s) r.writeLists (p.get s) ↔
      p.get s = (r.run c).options.get s := by
    rw [LastWritten.iff_eq_getD r.nodup_targets, hrun, Options.get_assignAll]
  constructor
  · rintro rfl s
    exact (hget s).2 rfl
  · intro h
    exact (Options.eq_of_get_eq fun s => (hget s).1 (h s)).symm

end Request

end OptionPresets
