import OptionPresets.CommandLine.Run
import OptionPresets.Proofs.Options.Faithful

/-!
# OptionPresets.Proofs.CommandLine.Printed

What the tool prints, as lines: a stream that prints `[l₁, …, lₙ]` holds

```
l₁ ++ "\n" ++ … ++ lₙ ++ "\n"
```

and nothing else (`Outcome.Prints`). All lines are written out here, so that an
answer can be told without the printers:

* the usage text and the level table;
* the line of an error (`Diagnostic.errorLine`);
* the line of a field, with the words for its values (`Row.line`);
* the lines of a trace (`Request.traceLines`).

With each of them comes the equation that says that its printer prints these
lines.
-/

namespace OptionPresets

/-! ## lines on two streams -/

/-- On the two streams these lines are printed, each with a newline at its end. -/
def Outcome.Prints (o : Outcome) (out err : List String) : Prop :=
  o.out = String.join (out.map (· ++ "\n")) ∧ o.err = String.join (err.map (· ++ "\n"))

theorem Outcome.prints_render (status : UInt32) (out err : List String) :
    (⟨status, Lines.render out, Lines.render err⟩ : Outcome).Prints out err :=
  ⟨Lines.render_eq_join out, Lines.render_eq_join err⟩

/-! ## fixed texts -/

/-- What the usage text says. -/
def usageLines : List String :=
  ["Usage: jsopt-preset [options]",
   "Print the compiler options selected by a compilation level.",
   "",
   "  --compilation_level, -O LEVEL  BUNDLE, WHITESPACE_ONLY, SIMPLE_OPTIMIZATIONS",
   "                                 or ADVANCED_OPTIMIZATIONS (default SIMPLE)",
   "  --use_types_for_optimization   Enable type-based optimizations",
   "  --assume_function_wrapper      Output is wrapped in a function",
   "  --debug                        Readable names, keep assertions",
   "  --changed                      Print only options that differ from defaults",
   "  --trace                        Print applied presets to stderr",
   "  --list-levels                  Print levels and their aliases",
   "  -h, --help                     Show this help message",
   "  --version                      Show version information"]

theorem usage_eq : usage = Lines.render usageLines := rfl

namespace Level

/-- What the level table says: the name of a level, and its short form if there is one. -/
def tableLines : List String :=
  ["BUNDLE", "WHITESPACE_ONLY WHITESPACE", "SIMPLE_OPTIMIZATIONS SIMPLE",
   "ADVANCED_OPTIMIZATIONS ADVANCED"]

/-- The table has a line for each level. -/
theorem table_eq : table = Lines.render tableLines := by
  have hl : all.map (fun l => " ".intercalate l.aliases) = tableLines := by decide
  rw [table, hl]

end Level

/-! ## errors -/

namespace Diagnostic

/-- The line of an error: the text it is about, if there is one, and the message. -/
def errorLine (d : Diagnostic) : String :=
  if d.origin = "" then "error: " ++ d.message else d.origin ++ ": error: " ++ d.message

theorem render_of_error {d : Diagnostic} (h : d.severity = .error) :
    d.render = d.errorLine ++ "\n" := by
  apply String.toList_inj.1
  rw [render, errorLine, h]
  split <;> simp [Severity.text]

/-- Errors are printed as their lines, in order. -/
theorem Log.renderEntries_of_errors {ds : List Diagnostic} (h : ∀ d ∈ ds, d.severity = .error) :
    renderEntries ds = Lines.render (ds.map errorLine) := by
  induction ds with
  | nil => rfl
  | cons d ds ih =>
      rw [renderEntries, render_of_error (h d List.mem_cons_self),
        ih fun e he => h e (List.mem_cons_of_mem d he), List.map_cons, Lines.render_cons]

end Diagnostic

/-! ## options -/

namespace Setting.Kind

/-- The word for a value. -/
def word : (k : Kind) → k.Value → String
  | toggle, false => "false"
  | toggle, true => "true"
  | dependencyMode, .none => "none"
  | dependencyMode, .sortOnly => "sort-only"
  | dependencyMode, .prune => "prune"
  | override, none => "default"
  | override, some .off => "off"
  | override, some .warning => "warning"
  | override, some .error => "error"
  | variableRenaming, .off => "off"
  | variableRenaming, .localOnly => "local"
  | variableRenaming, .all => "all"
  | propertyRenaming, .off => "off"
  | propertyRenaming, .allUnquoted => "all-unquoted"
  | reach, .none => "none"
  | reach, .localOnly => "local-only"
  | reach, .all => "all"
  | collapsing, .none => "none"
  | collapsing, .moduleExport => "module-export"
  | collapsing, .all => "all"

theorem text_eq_word (k : Kind) (v : k.Value) : k.text v = k.word v := by
  cases k with
  | toggle | dependencyMode | variableRenaming | propertyRenaming | reach | collapsing =>
      cases v <;> rfl
  | override =>
      cases v with
      | none => rfl
      | some level => cases level <;> rfl

end Setting.Kind

/-- The line of a field: the path to it and the word for what it holds. -/
def Row.line (r : Row) : String := r.name ++ " = " ++ r.kind.word r.value

theorem Row.line_entry (r : Row) : r.entry.line = r.line := by
  rw [Entry.line, Row.line, ← Setting.Kind.text_eq_word, Row.entry]

namespace Options

/-- The lines of a record, one for each field. -/
def lines (o : Options) : List String := o.rows.map Row.line

/-- The lines of those fields that hold something else than in another record. -/
def linesUnlike (before after : Options) : List String :=
  (after.rows.filter fun r => r ∉ before.rows).map Row.line

theorem render_eq (o : Options) : o.render = Lines.render o.lines := by
  rw [render, Entry.renderEntries, listing_eq_map_rows, List.map_map, lines]
  exact congrArg _ (List.map_congr_left fun r _ => r.line_entry)

theorem renderChanges_eq (before after : Options) :
    renderChanges before after = Lines.render (linesUnlike before after) := by
  have hnew : (Setting.all.filter fun s => after.row s ∉ before.rows) =
      Setting.all.filter fun s => before.get s ≠ after.get s :=
    List.filter_congr fun s _ => by simp only [row_mem_rows_iff, ne_eq]
  have hline : Entry.line ∘ after.entry = Row.line ∘ after.row :=
    funext fun s => (after.row s).line_entry
  rw [renderChanges, Entry.renderEntries, changes_eq, List.map_map, linesUnlike,
    after.rows_eq_map_row, List.filter_map, List.map_map, hline, ← hnew]
  rfl

end Options

/-! ## traces -/

namespace Request

/-- The lines of a trace: the level by its name, and the add-ons in the order in which they run. -/
def traceLines (r : Request) : List String :=
  ["[preset] compilation level " ++ r.level.name] ++
  (if r.addOns.debug then ["[preset] debug options"] else []) ++
  (if r.addOns.useTypes then ["[preset] type-based optimizations"] else []) ++
  (if r.addOns.functionWrapper then ["[preset] wrapped output optimizations"] else [])

theorem map_line_steps (r : Request) : r.steps.map Step.line = r.traceLines := by
  obtain ⟨l, debug, useTypes, functionWrapper⟩ := r
  cases debug <;> cases useTypes <;> cases functionWrapper <;> rfl

theorem trace_eq (r : Request) : r.trace = Lines.render r.traceLines := by
  rw [trace, map_line_steps]

end Request

end OptionPresets
