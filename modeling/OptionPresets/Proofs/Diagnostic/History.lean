import OptionPresets.Proofs.CommandLine.Concatenation

/-!
# OptionPresets.Proofs.Diagnostic.History

A log over a whole history, in which diagnostics are reported and arguments are
read in any order. Reading reports as well, one error for each token that is
erroneous, so every event is known by its diagnostics (`Event.diagnostics`), and
the log after a history records those of its events one after the other:

```
event           report a   parse --debug   parse -x --foo   report b
diagnostics     a                          x, foo           b
entries         a                          x, foo           b
```

The tallies are kept apart from the entries. That they count what is recorded
is an invariant (`Records`), which a report keeps (`Records.report`) and so a
history does (`Records.after`). This is why a tally can tell whether an error is
on record, whoever reported it (`ok_parse_iff`).
-/

namespace OptionPresets

/-! ## events -/

/-- What can happen to a log. -/
inductive Event where
  | report (d : Diagnostic)
  /-- Arguments are read, whatever the settings are up to then. -/
  | parse (settings : Settings) (args : Arguments)

namespace Event

/-- The log after an event. -/
def apply : Event → Diagnostic.Log → Diagnostic.Log
  | report d, log => log.report d
  | parse settings args, log => (Session.parse ⟨settings, log⟩ args).log

/-- What is reported in an event. -/
def diagnostics : Event → List Diagnostic
  | report d => [d]
  | parse _ args => (Token.scan args.toList).filterMap Token.complaint?

/-- An event reports its diagnostics and does nothing else to a log. -/
theorem apply_eq_reportAll (e : Event) (log : Diagnostic.Log) :
    e.apply log = log.reportAll e.diagnostics := by
  cases e with
  | report d => rfl
  | parse settings args => exact Session.log_parse ⟨settings, log⟩ args

end Event

namespace Diagnostic.Log

/-! ## what is on record -/

/-- A log records diagnostics: it stores them in order, tallies them and prints them one after the
other. -/
structure Records (log : Log) (ds : List Diagnostic) : Prop where
  entries_eq : log.entries = ds
  errors_eq : log.errors = ds.countP (·.severity = .error)
  warnings_eq : log.warnings = ds.countP (·.severity = .warning)
  render_eq : log.render = String.join (ds.map Diagnostic.render)

/-- Nothing is on record before the first report. -/
theorem records_empty : Records {} [] := ⟨rfl, rfl, rfl, rfl⟩

/-- A report adds one diagnostic to those on record. -/
theorem Records.report {log : Log} {ds : List Diagnostic} (h : Records log ds) (d : Diagnostic) :
    Records (log.report d) (ds ++ [d]) where
  entries_eq := by rw [entries_report, h.entries_eq]
  errors_eq := by
    rw [Log.report, h.errors_eq, List.countP_append, List.countP_singleton]
    simp only [decide_eq_true_eq]
  warnings_eq := by
    rw [Log.report, h.warnings_eq, List.countP_append, List.countP_singleton]
    simp only [decide_eq_true_eq]
  render_eq := by
    rw [render_report, h.render_eq, List.map_append, String.join_append]
    simp

theorem Records.reportAll {log : Log} {ds : List Diagnostic} (h : Records log ds)
    (es : List Diagnostic) : Records (log.reportAll es) (ds ++ es) := by
  induction es generalizing log ds with
  | nil =>
      rw [List.append_nil]
      exact h
  | cons e es ih =>
      rw [reportAll_cons, List.append_cons]
      exact ih (h.report e)

/-- Errors, warnings and notes are all there is. -/
theorem countP_severities (ds : List Diagnostic) :
    ds.countP (·.severity = .error) + ds.countP (·.severity = .warning) +
      ds.countP (·.severity = .note) = ds.length := by
  induction ds with
  | nil => rfl
  | cons d ds ih =>
      rw [List.countP_cons, List.countP_cons, List.countP_cons, List.length_cons]
      cases d.severity <;> simp <;> omega

/-- The tallies and the notes make up the entries. -/
theorem Records.length_eq {log : Log} {ds : List Diagnostic} (h : Records log ds) :
    log.errors + log.warnings + log.entries.countP (·.severity = .note) = log.entries.length := by
  rw [h.errors_eq, h.warnings_eq, h.entries_eq, countP_severities]

/-- The tally of errors tells whether one is on record. -/
theorem Records.clean_iff {log : Log} {ds : List Diagnostic} (h : Records log ds) :
    log.clean ↔ ∀ d ∈ ds, d.severity ≠ .error := by
  rw [Log.clean_iff, h.errors_eq, List.countP_eq_zero]
  simp only [decide_eq_true_eq, ne_eq]

/-! ## histories -/

/-- The log after events, one after the other. -/
def after (log : Log) (es : List Event) : Log := es.foldl (fun log e => e.apply log) log

/-- After a history the diagnostics of its events are on record. -/
theorem Records.after {log : Log} {ds : List Diagnostic} (h : Records log ds) (es : List Event) :
    Records (log.after es) (ds ++ es.flatMap Event.diagnostics) := by
  induction es generalizing log ds with
  | nil =>
      rw [List.flatMap_nil, List.append_nil]
      exact h
  | cons e es ih =>
      have hstep : Records (e.apply log) (ds ++ e.diagnostics) := by
        rw [e.apply_eq_reportAll]
        exact h.reportAll e.diagnostics
      rw [List.flatMap_cons, ← List.append_assoc]
      exact ih hstep

/-- From an empty log on, a log records its history. -/
theorem records_after (es : List Event) :
    Records (after {} es) (es.flatMap Event.diagnostics) :=
  records_empty.after es

/-- Reading arguments after a history succeeds exactly if there is no error among what has been
reported before and what is reported then. -/
theorem ok_parse_iff (es : List Event) (settings : Settings) (args : Arguments) :
    (Session.parse ⟨settings, after {} es⟩ args).ok ↔
      ∀ d ∈ es.flatMap Event.diagnostics ++ (Event.parse settings args).diagnostics,
        d.severity ≠ .error := by
  have hrecords := (records_after es).reportAll (Event.parse settings args).diagnostics
  rw [← Event.apply_eq_reportAll] at hrecords
  exact hrecords.clean_iff

/-- After any history the log records exactly what was reported, in order, and tallies it; reading
arguments adds errors only; what is printed only grows at its end; and once an error is on record
no arguments are read with success. -/
theorem history_recorded (es : List Event) :
    Records (after {} es) (es.flatMap Event.diagnostics) ∧
    (after {} es).errors + (after {} es).warnings +
      (after {} es).entries.countP (·.severity = .note) = (after {} es).entries.length ∧
    (∀ (settings : Settings) (args : Arguments),
      ∀ d ∈ (Event.parse settings args).diagnostics, d.severity = .error) ∧
    (∀ more : List Event, (after {} (es ++ more)).render = (after {} es).render ++
      String.join ((more.flatMap Event.diagnostics).map Diagnostic.render)) ∧
    ∀ (more : List Event) (settings : Settings) (args : Arguments),
      (∃ d ∈ (after {} es).entries, d.severity = .error) →
        (Session.parse ⟨settings, after {} (es ++ more)⟩ args).ok = false := by
  have hrecords := records_after es
  refine ⟨hrecords, hrecords.length_eq, ?_, ?_, ?_⟩
  · intro settings args d hd
    exact Token.severity_of_mem_complaints hd
  · intro more
    rw [(records_after (es ++ more)).render_eq, hrecords.render_eq, List.flatMap_append,
      List.map_append, String.join_append]
  · rintro more settings args ⟨d, hd, hseverity⟩
    rw [hrecords.entries_eq] at hd
    rw [← Bool.not_eq_true, ok_parse_iff, List.flatMap_append]
    intro hnone
    exact hnone d (List.mem_append_left _ (List.mem_append_left _ hd)) hseverity

/-- A faulty line between a warning and a note is on record, and not even an empty command line is
read with success behind it. -/
theorem history_recorded_faulty_line :
    (after {} [.report ⟨.warning, "a", "b"⟩, .parse {} (.ofList ["--debug", "-x"])]).entries =
      [⟨.warning, "a", "b"⟩, ⟨.error, "-x", "unknown option"⟩] ∧
    (∃ d ∈ (after {} [.report ⟨.warning, "a", "b"⟩,
      .parse {} (.ofList ["--debug", "-x"])]).entries, d.severity = .error) ∧
    (Session.parse ⟨{}, after {} ([.report ⟨.warning, "a", "b"⟩,
      .parse {} (.ofList ["--debug", "-x"])] ++ [.report ⟨.note, "", "c"⟩])⟩
        (.ofList [])).ok = false := by
  obtain ⟨hrecords, -, -, -, hfailed⟩ :=
    history_recorded [.report ⟨.warning, "a", "b"⟩, .parse {} (.ofList ["--debug", "-x"])]
  have hentries : (after {} [.report ⟨.warning, "a", "b"⟩,
      .parse {} (.ofList ["--debug", "-x"])]).entries =
      [⟨.warning, "a", "b"⟩, ⟨.error, "-x", "unknown option"⟩] := by
    rw [hrecords.entries_eq]
    decide
  have herror : ∃ d ∈ (after {} [.report ⟨.warning, "a", "b"⟩,
      .parse {} (.ofList ["--debug", "-x"])]).entries, d.severity = .error := by
    rw [hentries]
    exact ⟨⟨.error, "-x", "unknown option"⟩, by decide, rfl⟩
  exact ⟨hentries, herror, hfailed [.report ⟨.note, "", "c"⟩] {} (.ofList []) herror⟩

end Diagnostic.Log

end OptionPresets
