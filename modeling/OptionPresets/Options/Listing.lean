import OptionPresets.Lines
import OptionPresets.Options.Setting

/-!
# OptionPresets.Options.Listing

The printed view of an options record: one entry per setting, in the order of
`Setting.all`, written as a line

```
name = value
```

Two records are compared through their listings, entry by entry. No name
contains a blank, so cutting a line at its first ` = ` gives the entry back
(`ofLine?_line`), and a printed listing is read back as its entries
(`readEntries_renderEntries`).
-/

namespace OptionPresets

/-! ## entries -/

/-- A setting in print: its dotted name and its value. -/
structure Entry where
  name : String
  value : String
  deriving DecidableEq, Repr

namespace Entry

/-- The line of an entry, without its newline. -/
def line (e : Entry) : String := e.name ++ " = " ++ e.value

/-- Cut characters at their first ` = `, which belongs to neither part. -/
def cut : List Char → Option (List Char × List Char)
  | [] => none
  | ' ' :: '=' :: ' ' :: cs => some ([], cs)
  | c :: cs => (cut cs).map fun (name, value) => (c :: name, value)

/-- A part without blanks is cut off whole. -/
theorem cut_append {name : List Char} (h : ' ' ∉ name) (value : List Char) :
    cut (name ++ ' ' :: '=' :: ' ' :: value) = some (name, value) := by
  induction name with
  | nil => rfl
  | cons c name ih =>
    have hc : c ≠ ' ' := fun he => h (he ▸ List.mem_cons_self)
    have hn : ' ' ∉ name := fun hm => h (List.mem_cons_of_mem _ hm)
    rw [List.cons_append, cut, ih hn]
    · rfl
    · exact fun _ he => absurd he hc

/-- The entry that a line writes, if it has a ` = `. -/
def ofLine? (text : String) : Option Entry :=
  (cut text.toList).map fun (name, value) => ⟨String.ofList name, String.ofList value⟩

/-- The line of an entry is read back as the entry. -/
theorem ofLine?_line {e : Entry} (h : ' ' ∉ e.name.toList) : ofLine? e.line = some e := by
  have hs : " = ".toList = [' ', '=', ' '] := rfl
  simp [ofLine?, line, String.toList_append, hs, cut_append h]

/-! ## lists of entries -/

/-- One line per entry. -/
def renderEntries (es : List Entry) : String := Lines.render (es.map line)

/-- The entries that the lines of a text write, if every line writes one. -/
def readEntries (text : String) : Option (List Entry) :=
  (Lines.read text).bind (·.mapM ofLine?)

/-- Entries that fit on a line each are read back from their text. -/
theorem readEntries_renderEntries {es : List Entry} (hn : ∀ e ∈ es, ' ' ∉ e.name.toList)
    (hl : ∀ e ∈ es, '\n' ∉ e.line.toList) : readEntries (renderEntries es) = some es := by
  have hr : Lines.read (renderEntries es) = some (es.map line) := by
    refine Lines.read_render fun l hm => ?_
    obtain ⟨e, he, rfl⟩ := List.mem_map.1 hm
    exact hl e he
  rw [readEntries, hr]
  exact Lines.mapM_map fun e he => ofLine?_line (hn e he)

end Entry

namespace Options

/-! ## the listing of a record -/

/-- The entry of one setting. -/
def entry (o : Options) (s : Setting) : Entry := ⟨s.name, s.kind.text (o.get s)⟩

/-- The entries of all settings, in listing order. -/
def listing (o : Options) : List Entry := Setting.all.map o.entry

/-- The names in a listing do not depend on the record. -/
@[simp] theorem names_listing (o : Options) :
    o.listing.map (·.name) = Setting.all.map Setting.name := by
  simp [listing, entry]

/-- The printed listing. -/
def render (o : Options) : String := Entry.renderEntries o.listing

/-! ## differences -/

/-- The entries of `after` whose value is another than that at the same place in `before`. -/
def changes (before after : Options) : List Entry :=
  ((before.listing.zip after.listing).filter fun (old, new) => old.value ≠ new.value).map (·.2)

/-- Comparing listings entry by entry compares the records setting by setting. -/
theorem changes_eq (before after : Options) :
    changes before after =
      (Setting.all.filter fun s => before.get s ≠ after.get s).map after.entry := by
  simp only [changes, listing]
  induction Setting.all with
  | nil => rfl
  | cons s ss ih =>
    simp only [List.map_cons, List.zip_cons_cons, List.filter_cons, entry]
    by_cases h : before.get s = after.get s
    · simpa [h] using ih
    · simpa [h, Setting.Kind.text_inj, entry] using ih

/-- The names in `before` at which the value is another than that at the same place in `after`. -/
def changedNames (before after : Options) : List String :=
  ((before.listing.zip after.listing).filter fun (old, new) => old.value ≠ new.value).map
    (·.1.name)

/-- The names are those of the changes, though they are taken from the other listing. -/
theorem names_changes (before after : Options) :
    (changes before after).map (·.name) = changedNames before after := by
  -- both listings go over the settings together
  rw [changedNames, changes, listing, listing, List.zip_map', List.filter_map, List.map_map,
    List.map_map, List.map_map]
  rfl

/-- Whether no setting differs. -/
def same (a b : Options) : Bool := (changedNames a b).isEmpty

/-- The changed entries, one line each, with their new values. -/
def renderChanges (before after : Options) : String :=
  Entry.renderEntries (changes before after)

end Options

end OptionPresets
