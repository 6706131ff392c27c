import OptionPresets.Diagnostic

/-!
# OptionPresets.Diagnostic.Log

The log of a run collects its diagnostics in the order in which they are
reported, and tallies errors and warnings as they come in; notes are kept but
not tallied. The tallies are what decides whether a run goes on, so that the
decision does not walk the entries.
-/

namespace OptionPresets.Diagnostic

/-- The diagnostics reported so far, with the number of errors and of warnings among them. -/
structure Log where
  entries : List Diagnostic := []
  errors : Nat := 0
  warnings : Nat := 0
  deriving DecidableEq, Repr

namespace Log

/-- Append a diagnostic and count it under its severity. -/
def report (log : Log) (d : Diagnostic) : Log where
  entries := log.entries ++ [d]
  errors := log.errors + if d.severity = .error then 1 else 0
  warnings := log.warnings + if d.severity = .warning then 1 else 0

@[simp] theorem entries_report (log : Log) (d : Diagnostic) :
    (log.report d).entries = log.entries ++ [d] := rfl

@[simp] theorem errors_report_error (log : Log) (origin message : String) :
    (log.report (.error origin message)).errors = log.errors + 1 := rfl

@[simp] theorem warnings_report_error (log : Log) (origin message : String) :
    (log.report (.error origin message)).warnings = log.warnings := rfl

/-- Report diagnostics one after the other. -/
def reportAll (log : Log) (ds : List Diagnostic) : Log := ds.foldl report log

@[simp] theorem reportAll_nil (log : Log) : log.reportAll [] = log := rfl

@[simp] theorem reportAll_cons (log : Log) (d : Diagnostic) (ds : List Diagnostic) :
    log.reportAll (d :: ds) = (log.report d).reportAll ds := rfl

/-- Diagnostics are kept in the order in which they are reported, and none is lost. -/
theorem entries_reportAll (log : Log) (ds : List Diagnostic) :
    (log.reportAll ds).entries = log.entries ++ ds := by
  induction ds generalizing log with
  | nil => simp
  | cons d ds ih => rw [reportAll_cons, ih, entries_report, List.append_assoc,
      List.singleton_append]

/-- The tally of errors grows by the errors that are reported. -/
theorem errors_reportAll (log : Log) (ds : List Diagnostic) :
    (log.reportAll ds).errors = log.errors + ds.countP (·.severity = .error) := by
  induction ds generalizing log with
  | nil => simp
  | cons d ds ih =>
    rw [reportAll_cons, ih, List.countP_cons]
    simp only [report, decide_eq_true_eq]
    omega

/-- The tally of warnings grows by the warnings that are reported. -/
theorem warnings_reportAll (log : Log) (ds : List Diagnostic) :
    (log.reportAll ds).warnings = log.warnings + ds.countP (·.severity = .warning) := by
  induction ds generalizing log with
  | nil => simp
  | cons d ds ih =>
    rw [reportAll_cons, ih, List.countP_cons]
    simp only [report, decide_eq_true_eq]
    omega

/-- No error has been reported. -/
def clean (log : Log) : Bool := log.errors == 0

@[simp] theorem clean_iff {log : Log} : log.clean ↔ log.errors = 0 := by simp [clean]

/-! ## printing -/

/-- The printed lines of diagnostics, one after the other. -/
def renderEntries : List Diagnostic → String
  | [] => ""
  | d :: ds => d.render ++ renderEntries ds

/-- Every stored diagnostic in report order. -/
def render (log : Log) : String := renderEntries log.entries

/-- Printing goes diagnostic by diagnostic, so printed texts append like the entries. -/
theorem renderEntries_append (xs ys : List Diagnostic) :
    renderEntries (xs ++ ys) = renderEntries xs ++ renderEntries ys := by
  induction xs with
  | nil => simp [renderEntries]
  | cons x xs ih => simp [renderEntries, ih, String.append_assoc]

/-- A report adds its own line to the end of the printed text. -/
theorem render_report (log : Log) (d : Diagnostic) :
    (log.report d).render = log.render ++ d.render := by
  simp [render, renderEntries_append, renderEntries]

end Log

end OptionPresets.Diagnostic
