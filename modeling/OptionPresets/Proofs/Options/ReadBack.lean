import OptionPresets.Proofs.CommandLine.Answer
import OptionPresets.Proofs.Options.Faithful
import OptionPresets.Proofs.Preset.LastWriter

/-!
# OptionPresets.Proofs.Options.ReadBack

What is printed about records can be read back.

1. A printed listing is read as its entries: no name has a blank, and neither
   names nor values have a newline.
2. The changes from one record to another are assignments
   (`assignAll_differences`), and the printed changes are the entries of these
   assignments. So they are a patch: put into the listing of the old record,
   they give the listing of the new one (`overwriteAll_changes`).

As values that print alike are the same, a text also fixes the record behind
it: a listing by itself, the changes together with the record they start from.
-/

namespace OptionPresets

/-! ## names and values fit on a line -/

namespace Setting

theorem gaps_not_mem_name (s : Setting) : ' ' ∉ s.name.toList ∧ '\n' ∉ s.name.toList := by
  -- a literal is rewritten to its characters, which is faster than to decode its bytes
  cases s with
  | globalThisWarning =>
      rw [name_globalThisWarning, String.toList_ofList]
      decide
  | _ =>
      rw [name, field, String.toList_ofList]
      decide

theorem nodup_all : all.Nodup :=
  List.Pairwise.of_map name (fun _ _ hne he => hne (congrArg name he)) nodup_names

theorem Kind.newline_not_mem_text (k : Kind) (v : k.Value) : '\n' ∉ (k.text v).toList := by
  cases k with
  | toggle | dependencyMode | variableRenaming | propertyRenaming | reach | collapsing =>
      cases v <;> decide
  | override =>
      cases v with
      | none => decide
      | some level => cases level <;> decide

end Setting

namespace Options

theorem newline_not_mem_line (o : Options) (s : Setting) : '\n' ∉ (o.entry s).line.toList := by
  have hname := s.gaps_not_mem_name.2
  have hvalue := s.kind.newline_not_mem_text (o.get s)
  simp [Entry.line, entry, hname, hvalue]

/-! ## reading entries -/

/-- The lines of any settings of a record are read back as their entries. -/
theorem readEntries_map_entry (o : Options) (ss : List Setting) :
    Entry.readEntries (Entry.renderEntries (ss.map o.entry)) = some (ss.map o.entry) := by
  apply Entry.readEntries_renderEntries
  · intro e he
    obtain ⟨s, -, rfl⟩ := List.mem_map.1 he
    exact s.gaps_not_mem_name.1
  · intro e he
    obtain ⟨s, -, rfl⟩ := List.mem_map.1 he
    exact o.newline_not_mem_line s

theorem readEntries_render (o : Options) : Entry.readEntries o.render = some o.listing :=
  o.readEntries_map_entry Setting.all

theorem readEntries_renderChanges (before after : Options) :
    Entry.readEntries (renderChanges before after) = some (changes before after) := by
  rw [renderChanges, changes_eq]
  exact after.readEntries_map_entry _

/-- A listing belongs to one record only. -/
theorem listing_inj {a b : Options} : a.listing = b.listing ↔ a = b := by
  constructor
  · intro h
    refine eq_of_get_eq fun s => ?_
    have he : a.entry s = b.entry s := List.map_inj_left.1 h s (Setting.mem_all s)
    exact Setting.Kind.text_inj.1 (congrArg Entry.value he)
  · rintro rfl
    rfl

theorem render_inj {a b : Options} : a.render = b.render ↔ a = b := by
  constructor
  · intro h
    have hread := a.readEntries_render
    rw [h, readEntries_render, Option.some.injEq] at hread
    exact (listing_inj.1 hread).symm
  · rintro rfl
    rfl

/-! ## lines of a listing -/

theorem read_render (o : Options) : Lines.read o.render = some (o.listing.map Entry.line) := by
  refine Lines.read_render fun line hl => ?_
  obtain ⟨e, he, rfl⟩ := List.mem_map.1 hl
  obtain ⟨s, -, rfl⟩ := List.mem_map.1 he
  exact o.newline_not_mem_line s

theorem line_entry_inj {a b : Options} {s t : Setting} :
    (a.entry s).line = (b.entry t).line ↔ a.entry s = b.entry t := by
  constructor
  · intro h
    have hread := Entry.ofLine?_line (e := a.entry s) s.gaps_not_mem_name.1
    rw [h, Entry.ofLine?_line t.gaps_not_mem_name.1, Option.some.injEq] at hread
    exact hread.symm
  · intro h
    rw [h]

/-- Another record has the line of a setting if it has the value of the setting. -/
theorem line_mem_listing_iff {a b : Options} {s : Setting} :
    (b.entry s).line ∈ a.listing.map Entry.line ↔ a.get s = b.get s := by
  constructor
  · intro h
    obtain ⟨e, he, hline⟩ := List.mem_map.1 h
    obtain ⟨t, -, rfl⟩ := List.mem_map.1 he
    have hentry : a.entry t = b.entry s := line_entry_inj.1 hline
    obtain rfl : t = s := Setting.name_inj.1 (congrArg Entry.name hentry)
    exact Setting.Kind.text_inj.1 (congrArg Entry.value hentry)
  · intro h
    have hentry : a.entry s = b.entry s := by rw [entry, entry, h]
    rw [← hentry]
    exact List.mem_map_of_mem (List.mem_map_of_mem (Setting.mem_all s))

/-- The printed changes are the new lines of the new listing. -/
theorem renderChanges_eq_filter (before after : Options) :
    renderChanges before after = Lines.render
      ((after.listing.map Entry.line).filter fun line => line ∉ before.listing.map Entry.line) := by
  have hnew : (Setting.all.filter fun s => before.get s ≠ after.get s) =
      Setting.all.filter fun s => (after.entry s).line ∉ before.listing.map Entry.line := by
    refine List.filter_congr fun s _ => ?_
    simp only [line_mem_listing_iff, ne_eq]
  have hlines : after.listing.map Entry.line = Setting.all.map fun s => (after.entry s).line :=
    List.map_map
  rw [renderChanges, Entry.renderEntries, changes_eq, hnew, hlines, List.filter_map, List.map_map]
  rfl

/-! ## changes as assignments -/

/-- The assignments that lead from one record to another: the settings that differ, with their
new values. -/
def differences (before after : Options) : List Assignment :=
  (Setting.all.filter fun s => before.get s ≠ after.get s).map fun s => ⟨s, after.get s⟩

/-- Of the settings only those that differ are assigned. -/
theorem targets_differences (before after : Options) :
    Assignment.targets (differences before after) =
      Setting.all.filter fun s => before.get s ≠ after.get s := by
  simp [Assignment.targets, differences, Function.comp_def]

/-- The differences lead to the other record. -/
theorem assignAll_differences (before after : Options) :
    before.assignAll (differences before after) = after := by
  refine eq_of_get_eq fun s => ?_
  rw [get_assignAll]
  by_cases h : before.get s = after.get s
  · have hs : s ∉ Assignment.targets (differences before after) := by
      simp [targets_differences, h]
    rw [Assignment.lastValue?_of_not_mem hs, Option.getD_none, h]
  · have hn : (Assignment.targets (differences before after)).Nodup := by
      rw [targets_differences]
      exact Setting.nodup_all.filter _
    have hs : ⟨s, after.get s⟩ ∈ differences before after := by
      refine List.mem_map.2 ⟨s, ?_, rfl⟩
      simp [h, Setting.mem_all]
    rw [Assignment.lastValue?_of_mem hn hs, Option.getD_some]

end Options

/-! ## changes as a patch -/

namespace Entry

/-- A listing in which an entry has taken the place of the entry of its name. -/
def overwrite (listing : List Entry) (e : Entry) : List Entry :=
  listing.map fun old => if old.name = e.name then e else old

/-- A listing overwritten by entries one after the other. -/
def overwriteAll (listing : List Entry) (es : List Entry) : List Entry := es.foldl overwrite listing

@[simp] theorem overwriteAll_nil (listing : List Entry) : overwriteAll listing [] = listing := rfl

@[simp] theorem overwriteAll_cons (listing : List Entry) (e : Entry) (es : List Entry) :
    overwriteAll listing (e :: es) = overwriteAll (overwrite listing e) es := rfl

end Entry

namespace Options

/-- Assigning settings in the record is overwriting their entries in its listing. -/
theorem overwriteAll_listing (o p : Options) (ss : List Setting) :
    Entry.overwriteAll o.listing (ss.map p.entry) =
      (o.assignAll (ss.map fun s => ⟨s, p.get s⟩)).listing := by
  induction ss generalizing o with
  | nil => rfl
  | cons s ss ih =>
      have hset : Entry.overwrite o.listing (p.entry s) = (o.assign ⟨s, p.get s⟩).listing :=
        (o.listing_set s (p.get s)).symm
      rw [List.map_cons, List.map_cons, Entry.overwriteAll_cons, hset, assignAll_cons, ih]

/-- The changes, put into the old listing, give the new one. -/
theorem overwriteAll_changes (before after : Options) :
    Entry.overwriteAll before.listing (changes before after) = after.listing := by
  rw [changes_eq, overwriteAll_listing, ← differences, assignAll_differences]

/-- No change repeats what the old listing has under its name. -/
theorem value_ne_of_mem_changes {before after : Options} {e old : Entry}
    (he : e ∈ changes before after) (ho : old ∈ before.listing) (hname : old.name = e.name) :
    old.value ≠ e.value := by
  rw [changes_eq, List.mem_map] at he
  obtain ⟨s, hs, rfl⟩ := he
  obtain ⟨t, -, rfl⟩ := List.mem_map.1 ho
  obtain rfl : t = s := Setting.name_inj.1 hname
  have hne : before.get t ≠ after.get t := of_decide_eq_true (List.mem_filter.1 hs).2
  exact mt Setting.Kind.text_inj.1 hne

/-- The old record and the printed changes fix the new record. -/
theorem renderChanges_inj {before a b : Options} :
    renderChanges before a = renderChanges before b ↔ a = b := by
  constructor
  · intro h
    have hread := readEntries_renderChanges before a
    rw [h, readEntries_renderChanges, Option.some.injEq] at hread
    have hl := overwriteAll_changes before b
    rw [hread, overwriteAll_changes] at hl
    exact listing_inj.1 hl
  · rintro rfl
    rfl

/-! ## what the texts say -/

/-- What the texts that are printed about two records say of them. -/
structure ReadBack (before after : Options) : Prop where
  listing_read : Entry.readEntries before.render = some before.listing
  render_inj : before.render = after.render → before = after
  /-- The lines of the changes are those of the names that differ, none of them repeats an old
  value, and together they are a patch for the old listing. -/
  changes_read : ∃ es, Entry.readEntries (renderChanges before after) = some es ∧
    es.map (·.name) = changedNames before after ∧
    (∀ e ∈ es, ∀ old ∈ before.listing, old.name = e.name → old.value ≠ e.value) ∧
    Entry.overwriteAll before.listing es = after.listing
  /-- The names, taken from the old listing, are those of the changes, taken from the new one. -/
  names_old : changedNames before after = (changes before after).map (·.name)
  changes_inj : ∀ other, renderChanges before after = renderChanges before other → after = other

theorem readBack (before after : Options) : ReadBack before after where
  listing_read := before.readEntries_render
  render_inj := render_inj.1
  changes_read := ⟨changes before after, readEntries_renderChanges before after,
    names_changes before after,
    fun _ he _ ho hname => value_ne_of_mem_changes he ho hname, overwriteAll_changes before after⟩
  names_old := (names_changes before after).symm
  changes_inj := fun _ => renderChanges_inj.1

/-- What is printed about any two records is read back, and the output that is confined to changes
holds, with the default options, all of the full output for the same settings. -/
theorem texts_read_back :
    (∀ before after : Options, ReadBack before after) ∧
    ∀ (s : Settings) (l : Level), s.level ∈ l.aliases →
      ∃ es, Entry.readEntries { s with changedOnly := true }.answerOptions.out = some es ∧
        Entry.readEntries { s with changedOnly := false }.answerOptions.out =
          some (Entry.overwriteAll ({} : Options).listing es) := by
  refine ⟨readBack, fun s l hl => ?_⟩
  have hchanged := Settings.answerOptions_of_mem_aliases (s := { s with changedOnly := true }) hl
  have hfull := Settings.answerOptions_of_mem_aliases (s := { s with changedOnly := false }) hl
  rw [hchanged, hfull]
  refine ⟨_, readEntries_renderChanges {} (Request.configure ⟨l, s.addOns⟩ {}), ?_⟩
  rw [overwriteAll_changes]
  exact readEntries_render _

end Options

end OptionPresets
