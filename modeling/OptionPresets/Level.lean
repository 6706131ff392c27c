import OptionPresets.Lines

/-!
# OptionPresets.Level

The four compilation levels and their spellings. A level has one name and may
have a short form; both are matched letter for letter, and no spelling stands
for two levels. The spellings live in one table, in which the name of a level
comes before its short form:

* `ofAlias?_eq_some_iff` — a text is read as a level exactly if it is one of the level's aliases;
* `head?_aliases` — the name of a level is its first alias, so it is always read back
  (`ofAlias?_name`).
-/

namespace OptionPresets

/-- How much of a program a compilation may change, from nothing to everything that is not
exported. -/
inductive Level where
  | bundle
  | whitespaceOnly
  | simple
  | advanced
  deriving DecidableEq, Repr

namespace Level

/-- The levels from the mildest to the strongest. -/
def all : List Level := [.bundle, .whitespaceOnly, .simple, .advanced]

theorem mem_all (l : Level) : l ∈ all := by cases l <;> decide

/-! ## spellings -/

/-- Every spelling with the level it stands for, the name of a level before its short form. -/
def spellings : List (String × Level) :=
  [("BUNDLE", .bundle),
   ("WHITESPACE_ONLY", .whitespaceOnly),
   ("WHITESPACE", .whitespaceOnly),
   ("SIMPLE_OPTIMIZATIONS", .simple),
   ("SIMPLE", .simple),
   ("ADVANCED_OPTIMIZATIONS", .advanced),
   ("ADVANCED", .advanced)]

/-- The name under which a level appears in print. -/
def name : Level → String
  | .bundle => "BUNDLE"
  | .whitespaceOnly => "WHITESPACE_ONLY"
  | .simple => "SIMPLE_OPTIMIZATIONS"
  | .advanced => "ADVANCED_OPTIMIZATIONS"

/-- The spellings of a level, in table order. -/
def aliases (l : Level) : List String :=
  (spellings.filter (·.2 = l)).map (·.1)

/-- The level that a text spells, if it spells one. Letter case counts. -/
def ofAlias? (text : String) : Option Level := spellings.lookup text

/-- A text is read as a level exactly if it is one of that level's aliases. -/
theorem ofAlias?_eq_some_iff {text : String} {l : Level} :
    ofAlias? text = some l ↔ text ∈ l.aliases := by
  constructor
  · intro h
    obtain ⟨xs, ys, hs, -⟩ := List.lookup_eq_some_iff.1 h
    refine List.mem_map.2 ⟨(text, l), List.mem_filter.2 ⟨?_, by simp⟩, rfl⟩
    rw [hs]
    exact List.mem_append_right xs List.mem_cons_self
  · revert text
    cases l <;> decide

/-- The name of a level is the first of its aliases. -/
theorem head?_aliases (l : Level) : l.aliases.head? = some l.name := by
  cases l <;> decide

/-- A level is read back from its name. -/
@[simp] theorem ofAlias?_name (l : Level) : ofAlias? l.name = some l := by
  cases l <;> decide

/-! ## the level table -/

/-- One line per level: its aliases, with blanks between them. -/
def table : String := Lines.render (all.map fun l => " ".intercalate l.aliases)

end Level

end OptionPresets
