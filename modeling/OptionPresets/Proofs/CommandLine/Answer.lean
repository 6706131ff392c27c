import OptionPresets.Proofs.CommandLine.Meaning
import OptionPresets.Proofs.CommandLine.Printed

/-!
# OptionPresets.Proofs.CommandLine.Answer

What the tool answers to a whole command line. `Answers ts o` states it of the
tokens alone: which of them decide the exit status, which of the two streams
gets what, and what wins over what.

1. An erroneous token wins over everything else, also over a request for help.
2. Without one, a request for a fixed text wins over the level, which is then
   not even looked up.
3. Otherwise the last level decides. If no level is spelled like that, the
   report about it is all that is printed.

Each of the two streams is given by its lines, which are written out in
`Proofs.CommandLine.Printed`. The scanner is dealt with in
`Proofs.CommandLine.Meaning`; here a run is the answer to the settings and the
complaints that the tokens leave (`run_of_segments`).
-/

namespace OptionPresets

/-! ## what decides the answer -/

/-- The texts that spell a level. -/
def Level.texts : List String :=
  ["BUNDLE", "WHITESPACE_ONLY", "WHITESPACE", "SIMPLE_OPTIMIZATIONS", "SIMPLE",
   "ADVANCED_OPTIMIZATIONS", "ADVANCED"]

namespace Token

/-- No token is erroneous. -/
def Clean (ts : List Token) : Prop := ∀ t ∈ ts, t.complaint? = none

def AsksForHelp (ts : List Token) : Prop := .flag .help ∈ ts ∨ .flag .shortHelp ∈ ts

/-- A text is asked for that does not depend on the level. -/
def AsksForText (ts : List Token) : Prop :=
  AsksForHelp ts ∨ .flag .version ∈ ts ∨ .flag .listLevels ∈ ts

/-- The text of the level: the last one that is given, and the simple level without one. -/
def levelText (ts : List Token) : String := (lastLevel? ts).getD "SIMPLE_OPTIMIZATIONS"

/-- The add-ons that have a flag among the tokens. -/
def addOns (ts : List Token) : AddOns where
  debug := ts.contains (.flag .debug)
  useTypes := ts.contains (.flag .useTypes)
  functionWrapper := ts.contains (.flag .functionWrapper)

end Token

open Token in
/-- What is printed and returned for a command line of these tokens. -/
structure Answers (ts : List Token) (o : Outcome) : Prop where
  status_eq_zero_iff :
    o.status = 0 ↔ Clean ts ∧ (AsksForText ts ∨ levelText ts ∈ Level.texts)
  status_eq_one_iff :
    o.status = 1 ↔ ¬ (Clean ts ∧ (AsksForText ts ∨ levelText ts ∈ Level.texts))
  of_not_clean : ¬ Clean ts →
    o.Prints [] ((ts.filterMap complaint?).map Diagnostic.errorLine ++ usageLines)
  of_help : Clean ts → AsksForHelp ts → o.Prints usageLines []
  of_version : Clean ts → ¬ AsksForHelp ts → .flag .version ∈ ts →
    o.Prints ["jsopt-preset 0.1.0"] []
  of_listLevels : Clean ts → ¬ AsksForHelp ts → .flag .version ∉ ts → .flag .listLevels ∈ ts →
    o.Prints Level.tableLines []
  of_unknown_level : Clean ts → ¬ AsksForText ts → levelText ts ∉ Level.texts →
    o.Prints []
      ["--compilation_level: error: unknown compilation level '" ++ levelText ts ++ "'"]
  of_level : Clean ts → ¬ AsksForText ts → ∀ l : Level, levelText ts ∈ l.aliases →
    o.Prints
      (if .flag .changed ∈ ts then
        Options.linesUnlike {} (Request.configure ⟨l, addOns ts⟩ {})
      else (Request.configure ⟨l, addOns ts⟩ {}).lines)
      (if .flag .trace ∈ ts then Request.traceLines ⟨l, addOns ts⟩ else [])

/-! ## the levels that are known -/

namespace Level

/-- A text that spells a level is one of the seven. -/
theorem mem_texts_iff {text : String} : text ∈ texts ↔ ∃ l : Level, text ∈ l.aliases := by
  constructor
  · revert text
    have hs : ∀ text ∈ texts, (ofAlias? text).isSome := by decide
    intro text ht
    obtain ⟨l, hl⟩ := Option.isSome_iff_exists.1 (hs text ht)
    exact ⟨l, ofAlias?_eq_some_iff.1 hl⟩
  · rintro ⟨l, hl⟩
    revert text
    cases l <;> decide

end Level

/-- The report about an unknown level is one line. -/
theorem UnknownLevel.render_diagnostic (text : String) :
    (UnknownLevel.diagnostic ⟨text⟩).render =
      "--compilation_level: error: unknown compilation level '" ++ text ++ "'\n" := by
  apply String.toList_inj.1
  simp [UnknownLevel.diagnostic, Diagnostic.error, Diagnostic.render, Severity.text]

/-! ## answering settings -/

namespace Settings

/-- Under a known level the options are printed, and the trace if it is wanted. -/
theorem answerOptions_of_mem_aliases {s : Settings} {l : Level} (h : s.level ∈ l.aliases) :
    s.answerOptions =
      ⟨0, if s.changedOnly then Options.renderChanges {} (Request.configure ⟨l, s.addOns⟩ {})
        else (Request.configure ⟨l, s.addOns⟩ {}).render,
        if s.trace then Request.trace ⟨l, s.addOns⟩ else ""⟩ := by
  rw [answerOptions, resolve_of_mem_aliases h]
  cases s.trace <;> simp

/-- Under an unknown level only the report about it is printed. -/
theorem answerOptions_of_not_mem {s : Settings} (h : s.level ∉ Level.texts) :
    s.answerOptions =
      ⟨1, "", "--compilation_level: error: unknown compilation level '" ++ s.level ++ "'\n"⟩ := by
  have hn : Level.ofAlias? s.level = none := by
    cases hl : Level.ofAlias? s.level with
    | none => rfl
    | some l => exact absurd (Level.mem_texts_iff.2 ⟨l, Level.ofAlias?_eq_some_iff.1 hl⟩) h
  rw [answerOptions, resolve_of_ofAlias?_eq_none hn]
  cases s.trace <;> simp [UnknownLevel.render_diagnostic]

/-- Reading from the default settings, a switch is on if it has a flag among the tokens. -/
theorem given_default (ts : List Token) :
    ({} : Settings).given ts =
      { level := Token.levelText ts
        addOns := Token.addOns ts
        changedOnly := ts.contains (.flag .changed)
        trace := ts.contains (.flag .trace)
        listLevels := ts.contains (.flag .listLevels)
        help := ts.contains (.flag .help) || ts.contains (.flag .shortHelp)
        version := ts.contains (.flag .version) } := by
  simp only [given, Token.levelText, Token.addOns, Bool.false_or]

section

variable {ts : List Token}

theorem help_given_iff : (({} : Settings).given ts).help = true ↔ Token.AsksForHelp ts := by
  rw [given_default, Token.AsksForHelp, Bool.or_eq_true, List.contains_iff_mem,
    List.contains_iff_mem]

theorem version_given_iff : (({} : Settings).given ts).version = true ↔ .flag .version ∈ ts := by
  rw [given_default, List.contains_iff_mem]

theorem listLevels_given_iff :
    (({} : Settings).given ts).listLevels = true ↔ .flag .listLevels ∈ ts := by
  rw [given_default, List.contains_iff_mem]

end

end Settings

/-! ## running -/

section

variable {argv : Arguments} {ts : List Token} (h : Token.Segments (argv.toList.drop 1) ts)

include h

/-- A run answers to the settings and the complaints of its tokens. -/
theorem run_of_segments :
    run argv =
      Session.answer
        ⟨({} : Settings).given ts, Diagnostic.Log.reportAll {} (ts.filterMap Token.complaint?)⟩ := by
  rw [← Arguments.toList_drop] at h
  rw [run, Session.parse_of_segments h]
  congr 1
  exact Session.ext (Session.settings_takeAll {} ts) (Session.log_takeAll {} ts)

/-- Faults are all that is answered, with the usage text behind them. -/
theorem run_of_not_clean (hc : ¬ Token.Clean ts) :
    run argv =
      ⟨1, "", Diagnostic.Log.renderEntries (ts.filterMap Token.complaint?) ++ usage⟩ := by
  have hne : ts.filterMap Token.complaint? ≠ [] := fun he => hc (Token.complaints_eq_nil_iff.1 he)
  have hpos := List.length_pos_iff.2 hne
  rw [run_of_segments h, Session.answer, if_neg, Diagnostic.Log.render,
    Diagnostic.Log.entries_reportAll]
  · rfl
  · rw [Session.ok, Diagnostic.Log.clean_iff, Diagnostic.Log.errors_reportAll,
      Token.countP_error_complaints]
    simp only
    omega

/-- Without faults the settings are answered. -/
theorem run_of_clean (hc : Token.Clean ts) : run argv = (({} : Settings).given ts).answer := by
  rw [run_of_segments h, Token.complaints_eq_nil_iff.2 hc]
  rfl

theorem run_of_help (hc : Token.Clean ts) (hh : Token.AsksForHelp ts) :
    run argv = ⟨0, usage, ""⟩ := by
  rw [run_of_clean h hc, Settings.answer, if_pos (Settings.help_given_iff.2 hh)]

theorem run_of_version (hc : Token.Clean ts) (hh : ¬ Token.AsksForHelp ts)
    (hv : .flag .version ∈ ts) : run argv = ⟨0, versionText, ""⟩ := by
  have hh' := mt Settings.help_given_iff.1 hh
  rw [run_of_clean h hc, Settings.answer, if_neg hh', if_pos (Settings.version_given_iff.2 hv)]

theorem run_of_listLevels (hc : Token.Clean ts) (hh : ¬ Token.AsksForHelp ts)
    (hv : .flag .version ∉ ts) (hl : .flag .listLevels ∈ ts) :
    run argv = ⟨0, Level.table, ""⟩ := by
  have hh' := mt Settings.help_given_iff.1 hh
  have hv' := mt Settings.version_given_iff.1 hv
  have hl' := Settings.listLevels_given_iff.2 hl
  rw [run_of_clean h hc, Settings.answer, if_neg hh', if_neg hv', if_pos hl']

/-- If no fixed text is asked for, the answer is up to the level. -/
theorem run_of_not_asksForText (hc : Token.Clean ts) (ht : ¬ Token.AsksForText ts) :
    run argv = (({} : Settings).given ts).answerOptions := by
  obtain ⟨hh, ht⟩ := not_or.1 ht
  obtain ⟨hv, hl⟩ := not_or.1 ht
  have hh' := mt Settings.help_given_iff.1 hh
  have hv' := mt Settings.version_given_iff.1 hv
  have hl' := mt Settings.listLevels_given_iff.1 hl
  rw [run_of_clean h hc, Settings.answer, if_neg hh', if_neg hv', if_neg hl']

theorem run_of_unknown_level (hc : Token.Clean ts) (ht : ¬ Token.AsksForText ts)
    (hn : Token.levelText ts ∉ Level.texts) :
    run argv =
      ⟨1, "", "--compilation_level: error: unknown compilation level '" ++ Token.levelText ts ++
        "'\n"⟩ := by
  rw [run_of_not_asksForText h hc ht, Settings.given_default]
  exact Settings.answerOptions_of_not_mem hn

theorem run_of_level (hc : Token.Clean ts) (ht : ¬ Token.AsksForText ts) {l : Level}
    (hl : Token.levelText ts ∈ l.aliases) :
    run argv =
      ⟨0, if .flag .changed ∈ ts then
          Options.renderChanges {} (Request.configure ⟨l, Token.addOns ts⟩ {})
        else (Request.configure ⟨l, Token.addOns ts⟩ {}).render,
        if .flag .trace ∈ ts then Request.trace ⟨l, Token.addOns ts⟩ else ""⟩ := by
  rw [run_of_not_asksForText h hc ht, Settings.given_default,
    Settings.answerOptions_of_mem_aliases hl]
  simp only [List.contains_iff_mem]

/-- A fixed text is all that is printed, and the run succeeds. -/
theorem exists_run_of_asksForText (hc : Token.Clean ts) (ht : Token.AsksForText ts) :
    ∃ text, run argv = ⟨0, text, ""⟩ := by
  by_cases hh : Token.AsksForHelp ts
  · exact ⟨usage, run_of_help h hc hh⟩
  · by_cases hv : .flag .version ∈ ts
    · exact ⟨versionText, run_of_version h hc hh hv⟩
    · have hl : .flag .listLevels ∈ ts := (ht.resolve_left hh).resolve_left hv
      exact ⟨Level.table, run_of_listLevels h hc hh hv hl⟩

theorem err_of_asksForText (hc : Token.Clean ts) (ht : Token.AsksForText ts) :
    (run argv).err = "" := by
  obtain ⟨text, hrun⟩ := exists_run_of_asksForText h hc ht
  rw [hrun]

/-! ## the exit status -/

/-- A run succeeds on a command line without faults that asks for a fixed text or gives a level
that is known. -/
theorem status_eq_zero (hc : Token.Clean ts)
    (ha : Token.AsksForText ts ∨ Token.levelText ts ∈ Level.texts) : (run argv).status = 0 := by
  by_cases ht : Token.AsksForText ts
  · obtain ⟨text, hrun⟩ := exists_run_of_asksForText h hc ht
    rw [hrun]
  · obtain ⟨l, hl⟩ := Level.mem_texts_iff.1 (ha.resolve_left ht)
    rw [run_of_level h hc ht hl]

/-- Any other run fails. -/
theorem status_eq_one
    (ha : ¬ (Token.Clean ts ∧ (Token.AsksForText ts ∨ Token.levelText ts ∈ Level.texts))) :
    (run argv).status = 1 := by
  by_cases hc : Token.Clean ts
  · obtain ⟨ht, hn⟩ := not_or.1 fun hor => ha ⟨hc, hor⟩
    rw [run_of_unknown_level h hc ht hn]
  · rw [run_of_not_clean h hc]

/-! ## the answer as a whole -/

/-- A run answers its command line by the rules. -/
theorem answers_of_segments : Answers ts (run argv) where
  status_eq_zero_iff := by
    constructor
    · intro h0
      by_cases ha : Token.Clean ts ∧ (Token.AsksForText ts ∨ Token.levelText ts ∈ Level.texts)
      · exact ha
      · rw [status_eq_one h ha] at h0
        contradiction
    · rintro ⟨hc, ha⟩
      exact status_eq_zero h hc ha
  status_eq_one_iff := by
    constructor
    · rintro h1 ⟨hc, ha⟩
      rw [status_eq_zero h hc ha] at h1
      contradiction
    · exact status_eq_one h
  of_not_clean := by
    intro hc
    rw [run_of_not_clean h hc,
      Diagnostic.Log.renderEntries_of_errors fun _ => Token.severity_of_mem_complaints, usage_eq,
      ← Lines.render_append]
    exact Outcome.prints_render 1 [] _
  of_help := by
    intro hc hh
    rw [run_of_help h hc hh, usage_eq]
    exact Outcome.prints_render 0 usageLines []
  of_version := by
    intro hc hh hv
    rw [run_of_version h hc hh hv, versionText]
    exact Outcome.prints_render 0 _ []
  of_listLevels := by
    intro hc hh hv hl
    rw [run_of_listLevels h hc hh hv hl, Level.table_eq]
    exact Outcome.prints_render 0 Level.tableLines []
  of_unknown_level := by
    intro hc ht hn
    rw [run_of_unknown_level h hc ht hn]
    refine ⟨rfl, ?_⟩
    -- the report ends in one text for the quote and the newline
    simp [String.append_assoc]
  of_level := by
    intro hc ht l hl
    rw [run_of_level h hc ht hl, Options.renderChanges_eq, Options.render_eq, Request.trace_eq,
      ← apply_ite Lines.render, ← Lines.render_nil, ← apply_ite Lines.render]
    exact Outcome.prints_render 0 _ _

end

/-- Whatever arguments the tool is run with, those behind its own name have one segmentation into
tokens, and the run answers these tokens. -/
theorem run_answers (argv : Arguments) :
    ∃ ts, Token.Segments (argv.toList.drop 1) ts ∧
      (∀ us, Token.Segments (argv.toList.drop 1) us → us = ts) ∧ Answers ts (run argv) := by
  obtain ⟨ts, h⟩ := Token.exists_segments (argv.toList.drop 1)
  refine ⟨ts, h, ?_, answers_of_segments h⟩
  intro us hus
  rw [← hus.scan_eq, h.scan_eq]

end OptionPresets
