import OptionPresets.Preset.Resolution

/-!
# OptionPresets.Proofs.Preset.Spelling

Which texts stand for a level, and what becomes of all the others.

* The printed level table is the list of spellings: its words are the aliases of
  the levels, so whoever can read the table knows every text that is accepted
  (`Level.words_table`).
* A text is resolved by the level that it spells, whichever spelling it is.
* Any other text comes back in an error that quotes it, so no two of them
  are reported alike (`UnknownLevel.render_diagnostic_inj`).
-/

namespace OptionPresets

/-! ## words -/

namespace Lines

/-- Words are kept apart by blanks and newlines. -/
def isGap (c : Char) : Bool := c = ' ' || c = '\n'

/-- The words of a text: what stands between gaps, unless that is nothing. -/
def words (text : String) : List String :=
  ((text.toList.splitOnP isGap).filter (· ≠ [])).map String.ofList

/-- A text that is a word by itself. -/
def IsWord (text : String) : Prop := text.toList ≠ [] ∧ ∀ c ∈ text.toList, isGap c = false

-- the search goes over the characters of the text, not over all that there are
instance (text : String) : Decidable (IsWord text) :=
  @instDecidableAnd _ _ inferInstance (List.decidableBAll _ _)

@[simp] theorem words_empty : words "" = [] := by simp [words]

theorem IsWord.words_eq {w : String} (h : IsWord w) : words w = [w] := by
  rw [words, List.splitOnP_eq_singleton h.2]
  simp [h.1]

/-- No word goes across a gap. -/
theorem words_append_gap {gap : String} {c : Char} (hg : gap.toList = [c]) (hc : isGap c = true)
    (a b : String) : words (a ++ gap ++ b) = words a ++ words b := by
  simp only [words, String.toList_append, hg, List.append_assoc, List.singleton_append]
  rw [List.splitOnP_append_cons _ _ hc, List.filter_append, List.map_append]

/-- Words with blanks between them are read as these words. -/
theorem words_intercalate {ws : List String} (h : ∀ w ∈ ws, IsWord w) :
    words (" ".intercalate ws) = ws := by
  induction ws with
  | nil => simp
  | cons w ws ih =>
      rw [List.forall_mem_cons] at h
      cases ws with
      | nil => rw [String.intercalate_singleton, h.1.words_eq]
      | cons v vs =>
          rw [String.intercalate_cons_cons, words_append_gap rfl rfl, h.1.words_eq, ih h.2]
          rfl

/-- The words of lines are those of each line. -/
theorem words_render (ls : List String) : words (render ls) = ls.flatMap words := by
  induction ls with
  | nil => simp
  | cons l ls ih => rw [render_cons, words_append_gap rfl rfl, ih, List.flatMap_cons]

end Lines

/-! ## the spellings of a level -/

namespace Level

theorem isWord_of_mem_aliases {l : Level} : ∀ w ∈ l.aliases, Lines.IsWord w := by
  cases l <;> decide

/-- The words of the level table are the aliases of the levels. -/
theorem words_table : Lines.words table = all.flatMap aliases := by
  rw [table, Lines.words_render, List.flatMap_map]
  simp only [Lines.words_intercalate isWord_of_mem_aliases]

theorem mem_words_table_iff {text : String} :
    text ∈ Lines.words table ↔ ∃ l : Level, text ∈ l.aliases := by
  simp [words_table, mem_all]

/-- No text spells two levels. -/
theorem eq_of_mem_aliases {text : String} {l m : Level} (hl : text ∈ l.aliases)
    (hm : text ∈ m.aliases) : l = m := by
  rw [← ofAlias?_eq_some_iff] at hl hm
  rw [hl] at hm
  exact Option.some.inj hm

theorem ofAlias?_eq_none_iff {text : String} :
    ofAlias? text = none ↔ ∀ l : Level, text ∉ l.aliases := by
  simp only [Option.eq_none_iff_forall_ne_some, ne_eq, ofAlias?_eq_some_iff]

end Level

/-! ## errors about unknown levels -/

namespace UnknownLevel

theorem diagnostic_inj {a b : UnknownLevel} : a.diagnostic = b.diagnostic ↔ a = b := by
  obtain ⟨a⟩ := a
  obtain ⟨b⟩ := b
  simp [diagnostic, Diagnostic.error]

/-- The printed line quotes the text between fixed parts, so it belongs to no other text. -/
theorem render_diagnostic_inj {a b : UnknownLevel} :
    a.diagnostic.render = b.diagnostic.render ↔ a = b := by
  obtain ⟨a⟩ := a
  obtain ⟨b⟩ := b
  simp [diagnostic, Diagnostic.error, Diagnostic.render]

end UnknownLevel

/-! ## resolving any text -/

/-- How a text is taken for a level. -/
structure Level.Spelled (text : String) : Prop where
  ofAlias?_iff : ∀ l : Level, ofAlias? text = some l ↔ text ∈ l.aliases
  unambiguous : ∀ l m : Level, text ∈ l.aliases → text ∈ m.aliases → l = m
  /-- The printed table has every text that is accepted, and no other word. -/
  accepted_iff : (∃ l, ofAlias? text = some l) ↔ text ∈ Lines.words table

theorem Level.spelled (text : String) : Level.Spelled text where
  ofAlias?_iff := fun _ => ofAlias?_eq_some_iff
  unambiguous := fun _ _ => eq_of_mem_aliases
  accepted_iff := by simp only [ofAlias?_eq_some_iff, mem_words_table_iff]

/-- What resolving a text gives, for any add-ons and with or without a trace. -/
structure Resolves (text : String) (addOns : AddOns) (trace : Option String) : Prop where
  succeeds_iff : (∃ o, (resolve text addOns trace).options = .ok o) ↔
    ∃ l : Level, text ∈ l.aliases
  of_mem : ∀ l : Level, text ∈ l.aliases →
    (resolve text addOns trace).options = .ok (Request.run ⟨l, addOns⟩ ⟨{}, trace⟩).options ∧
    (resolve text addOns trace).trace = (Request.run ⟨l, addOns⟩ ⟨{}, trace⟩).trace
  /-- The spelling of a level makes no difference. -/
  congr : ∀ (l : Level) (other : String), text ∈ l.aliases → other ∈ l.aliases →
    resolve text addOns trace = resolve other addOns trace
  /-- A text that spells no level is quoted in an error, and leaves no trace. -/
  of_not_mem : (∀ l : Level, text ∉ l.aliases) → ∃ e,
    (resolve text addOns trace).options = .error e ∧
    e.diagnostic.severity = .error ∧ e.diagnostic.origin = "--compilation_level" ∧
    e.diagnostic.message = "unknown compilation level '" ++ text ++ "'" ∧
    (resolve text addOns trace).trace = trace
  /-- Two such texts are told apart by their errors, and by what is printed of these. -/
  ne_of_ne : ∀ (other : String) (addOns' : AddOns) (trace' : Option String) (e e' : UnknownLevel),
    text ≠ other → (resolve text addOns trace).options = .error e →
    (resolve other addOns' trace').options = .error e' →
    e.diagnostic ≠ e'.diagnostic ∧ e.diagnostic.render ≠ e'.diagnostic.render

section

variable {text : String} {addOns : AddOns} {trace : Option String}

/-- Resolving fails for texts that spell no level, with an error about the text. -/
theorem options_resolve_eq_error_iff {e : UnknownLevel} :
    (resolve text addOns trace).options = .error e ↔
      (∀ l : Level, text ∉ l.aliases) ∧ e = ⟨text⟩ := by
  rw [← Level.ofAlias?_eq_none_iff]
  cases hl : Level.ofAlias? text with
  | none => simp [resolve_of_ofAlias?_eq_none hl, eq_comm]
  | some l => simp [resolve_of_mem_aliases (Level.ofAlias?_eq_some_iff.1 hl)]

theorem exists_options_resolve_iff :
    (∃ o, (resolve text addOns trace).options = .ok o) ↔ ∃ l : Level, text ∈ l.aliases := by
  simp only [← Level.ofAlias?_eq_some_iff]
  cases hl : Level.ofAlias? text with
  | none => simp [resolve_of_ofAlias?_eq_none hl]
  | some l => simp [resolve_of_mem_aliases (Level.ofAlias?_eq_some_iff.1 hl)]

end

theorem resolves (text : String) (addOns : AddOns) (trace : Option String) :
    Resolves text addOns trace where
  succeeds_iff := exists_options_resolve_iff
  of_mem := by
    intro l hl
    rw [resolve_of_mem_aliases hl, Request.options_run, Request.trace_run]
    exact ⟨rfl, rfl⟩
  congr := by
    intro l other hl ho
    rw [resolve_of_mem_aliases hl, resolve_of_mem_aliases ho]
  of_not_mem := by
    intro hn
    rw [resolve_of_ofAlias?_eq_none (Level.ofAlias?_eq_none_iff.2 hn)]
    exact ⟨⟨text⟩, rfl, rfl, rfl, rfl, rfl⟩
  ne_of_ne := by
    intro other addOns' trace' e e' hne he he'
    obtain ⟨-, rfl⟩ := options_resolve_eq_error_iff.1 he
    obtain ⟨-, rfl⟩ := options_resolve_eq_error_iff.1 he'
    have hu : (⟨text⟩ : UnknownLevel) ≠ ⟨other⟩ := fun h => hne (UnknownLevel.mk.inj h)
    exact ⟨mt UnknownLevel.diagnostic_inj.1 hu, mt UnknownLevel.render_diagnostic_inj.1 hu⟩

/-- The name of a level is its first alias; a text is accepted exactly if the level table has it as
a word, is then resolved by its level, and otherwise fails with an error of its own. -/
theorem Level.spellings_resolve :
    (∀ l : Level, l.aliases.head? = some l.name) ∧
    ∀ text, Level.Spelled text ∧ ∀ addOns trace, Resolves text addOns trace :=
  ⟨Level.head?_aliases, fun text => ⟨Level.spelled text, resolves text⟩⟩

end OptionPresets
