import OptionPresets.CommandLine.Session
import OptionPresets.Proofs.CommandLine.Segments

/-!
# OptionPresets.Proofs.CommandLine.Meaning

What a command line means, told from its tokens as a whole and not token by
token:

* the level is the value of the last level token that has one (`Token.level?`);
* a switch is on if it was on before or one of its flags is among the tokens;
* the log gains one error per erroneous token, in token order
  (`Token.complaint?`).

A session reads by position, and how far it moves depends on what it finds
there. `parse_of_segments` ties that loop to the tokens: along a segmentation
the session takes exactly its tokens, wherever it starts from. What the tokens
do is then an induction over a list of tokens.
-/

namespace OptionPresets

/-! ## the loop over positions -/

namespace Arguments

theorem drop_succ_of_drop_eq_cons {args : Arguments} {i : Nat} {arg : String} {xs : List String}
    (h : args.toList.drop i = arg :: xs) : args.toList.drop (i + 1) = xs := by
  rw [← List.tail_drop, h, List.tail_cons]

/-- What a reader finds at a position at which arguments are left. -/
theorem of_drop_eq_cons {args : Arguments} {i : Nat} {arg : String} {xs : List String}
    (h : args.toList.drop i = arg :: xs) :
    (i : Int) < args.size ∧ args.textAt i = arg ∧ args.get? (i + 1) = xs.head? := by
  have hlt : i < args.toList.length := by
    have hl := congrArg List.length h
    rw [List.length_drop, List.length_cons] at hl
    omega
  have harg : args.toList[i] = arg := by
    rw [List.drop_eq_getElem_cons hlt] at h
    injection h
  refine ⟨?_, ?_, ?_⟩
  · rw [size_eq_length]
    omega
  · rw [textAt, get?_natCast, List.getElem?_eq_getElem hlt, harg, Option.getD_some]
  · have hc : ((i : Int) + 1) = ((i + 1 : Nat) : Int) := by omega
    rw [hc, get?_natCast, ← drop_succ_of_drop_eq_cons h, List.head?_drop]

/-- No position is left behind the arguments. -/
theorem size_le_of_drop_eq_nil {args : Arguments} {i : Nat} (h : args.toList.drop i = []) :
    args.size ≤ i := by
  rw [size_eq_length]
  exact List.drop_eq_nil_iff.1 h

end Arguments

namespace Session

/-- At an argument, reading takes the token that it begins and goes on behind it. -/
theorem parseFrom_of_drop_eq_cons {args : Arguments} {i : Nat} {arg : String} {xs : List String}
    (h : args.toList.drop i = arg :: xs) (s : Session) :
    s.parseFrom args i =
      (s.take (Token.read arg xs.head?)).parseFrom args
        ((i + (Token.read arg xs.head?).extra + 1 : Nat)) := by
  obtain ⟨hlt, htext, hnext⟩ := Arguments.of_drop_eq_cons h
  obtain ⟨r, ha⟩ := s.advance_eq args i
  rw [htext, hnext] at ha
  rw [parseFrom, if_pos hlt, ha]
  simp only [Int.natCast_add, Int.cast_ofNat_Int]

/-- Along a segmentation of the arguments that are left, reading takes exactly its tokens. -/
theorem parseFrom_of_segments {args : Arguments} (h : Token.Segments xs ts) :
    ∀ (s : Session) (i : Nat), args.toList.drop i = xs → s.parseFrom args i = s.takeAll ts := by
  induction h with
  | nil =>
      intro s i hi
      have hle := Arguments.size_le_of_drop_eq_nil hi
      rw [parseFrom, if_neg (by omega)]
      rfl
  | flag f h ih =>
      intro s i hi
      have hd := Arguments.drop_succ_of_drop_eq_cons hi
      rw [parseFrom_of_drop_eq_cons hi, Token.read_flag]
      exact ih _ _ hd
  | level f value h ih =>
      intro s i hi
      have hd := Arguments.drop_succ_of_drop_eq_cons hi
      have hd' := Arguments.drop_succ_of_drop_eq_cons hd
      rw [parseFrom_of_drop_eq_cons hi, List.head?_cons, Token.read_level]
      exact ih _ _ hd'
  | assignedLevel hv h ih =>
      intro s i hi
      have hd := Arguments.drop_succ_of_drop_eq_cons hi
      rw [parseFrom_of_drop_eq_cons hi, Token.read_assignedLevel hv]
      exact ih _ _ hd
  | missingLevel f =>
      intro s i hi
      have hd := Arguments.drop_succ_of_drop_eq_cons hi
      have hle := Arguments.size_le_of_drop_eq_nil hd
      have he : (Token.missingLevel f).extra = 0 := rfl
      rw [parseFrom_of_drop_eq_cons hi, List.head?_nil, Token.read_missingLevel, he, parseFrom,
        if_neg (by omega)]
      rfl
  | emptyLevel h ih =>
      intro s i hi
      have hd := Arguments.drop_succ_of_drop_eq_cons hi
      rw [parseFrom_of_drop_eq_cons hi, Token.read_emptyLevel]
      exact ih _ _ hd
  | unknown ha h ih =>
      intro s i hi
      have hd := Arguments.drop_succ_of_drop_eq_cons hi
      rw [parseFrom_of_drop_eq_cons hi, Token.read_unknown ha]
      exact ih _ _ hd

/-- A session takes the tokens that the arguments are cut into. -/
theorem parse_of_segments {args : Arguments} (h : Token.Segments args.toList ts) (s : Session) :
    s.parse args = s.takeAll ts :=
  parseFrom_of_segments h s 0 rfl

end Session

/-! ## what tokens ask for -/

namespace Token

/-- The level that a token carries; only a well-formed level token carries one. -/
def level? : Token → Option String
  | level _ value => some value
  | assignedLevel value => some value
  | flag _ | missingLevel _ | emptyLevel | unknown _ => none

/-- The level of the last level token that carries one. -/
def lastLevel? (ts : List Token) : Option String := (ts.filterMap level?).getLast?

/-- A later level replaces the level of the first token. -/
theorem getD_lastLevel?_cons (t : Token) (ts : List Token) (l : String) :
    (lastLevel? (t :: ts)).getD l = (lastLevel? ts).getD (t.level?.getD l) := by
  unfold lastLevel?
  cases h : t.level? with
  | none => rw [List.filterMap_cons_none h, Option.getD_none]
  | some v => rw [List.filterMap_cons_some h, List.getLast?_cons, Option.getD_some, Option.getD_some]

/-- The error that an erroneous token is reported with. -/
def complaint? : Token → Option Diagnostic
  | flag _ | level _ _ | assignedLevel _ => none
  | missingLevel f => some ⟨.error, f.text, "missing level name"⟩
  | emptyLevel => some ⟨.error, "--compilation_level", "missing level name"⟩
  | unknown arg =>
    if "-".toList <+: arg.toList then some ⟨.error, arg, "unknown option"⟩
    else some ⟨.error, arg, "unexpected argument"⟩

/-- A token that is not understood is reported as it was written. -/
theorem fault?_eq (t : Token) : t.fault?.map UsageError.diagnostic = t.complaint? := by
  cases t with
  | flag | level | assignedLevel | missingLevel | emptyLevel => rfl
  | unknown arg =>
      have hp : "-".toList <+: arg.toList ↔ arg.toList.head? = some '-' := by
        have hd : "-".toList = ['-'] := rfl
        rw [hd]
        cases arg.toList with
        | nil => simp
        | cons c cs => simp [eq_comm]
      rw [fault?, complaint?]
      simp only [hp]
      split <;> rfl

/-- All complaints are errors. -/
theorem severity_of_complaint? {t : Token} {d : Diagnostic} (h : t.complaint? = some d) :
    d.severity = .error := by
  cases t with
  | flag | level | assignedLevel => cases h
  | missingLevel | emptyLevel => cases h; rfl
  | unknown arg =>
      rw [complaint?] at h
      split at h <;> cases h <;> rfl

end Token

/-- The settings that are asked for by tokens, whatever their order: the last level, and every
switch that has a flag among them. -/
def Settings.given (s : Settings) (ts : List Token) : Settings where
  level := (Token.lastLevel? ts).getD s.level
  addOns :=
    { debug := s.addOns.debug || ts.contains (.flag .debug)
      useTypes := s.addOns.useTypes || ts.contains (.flag .useTypes)
      functionWrapper := s.addOns.functionWrapper || ts.contains (.flag .functionWrapper) }
  changedOnly := s.changedOnly || ts.contains (.flag .changed)
  trace := s.trace || ts.contains (.flag .trace)
  listLevels := s.listLevels || ts.contains (.flag .listLevels)
  help := s.help || ts.contains (.flag .help) || ts.contains (.flag .shortHelp)
  version := s.version || ts.contains (.flag .version)

namespace Settings

theorem given_nil (s : Settings) : s.given [] = s := by
  simp [given, Token.lastLevel?]

/-- The settings asked for by several tokens build on those after the first one. -/
theorem given_cons (s : Settings) (t : Token) (ts : List Token) :
    s.given (t :: ts) = (t.update s).given ts := by
  have hl := Token.getD_lastLevel?_cons t ts s.level
  cases t with
  | flag f =>
      cases f <;> simp [given, hl, Token.update, Flag.enable, Token.level?, Bool.or_assoc]
  | level | assignedLevel | missingLevel | emptyLevel | unknown =>
      simp [given, hl, Token.update, Token.level?]

end Settings

/-! ## what a session makes of them -/

namespace Session

/-- Taking tokens leaves the settings that they ask for. -/
theorem settings_takeAll (s : Session) (ts : List Token) :
    (s.takeAll ts).settings = s.settings.given ts := by
  induction ts generalizing s with
  | nil => exact (Settings.given_nil s.settings).symm
  | cons t ts ih =>
      rw [takeAll, List.foldl_cons, ← takeAll, ih, Settings.given_cons]
      rfl

/-- Taking tokens puts their complaints on record, in order. -/
theorem log_takeAll (s : Session) (ts : List Token) :
    (s.takeAll ts).log = s.log.reportAll (ts.filterMap Token.complaint?) := by
  induction ts generalizing s with
  | nil => rfl
  | cons t ts ih =>
      rw [takeAll, List.foldl_cons, ← takeAll, ih]
      have hc := Token.fault?_eq t
      cases hf : t.fault? with
      | none =>
          rw [hf, Option.map_none] at hc
          rw [List.filterMap_cons_none hc.symm, take, hf]
      | some e =>
          rw [hf, Option.map_some] at hc
          rw [List.filterMap_cons_some hc.symm, Diagnostic.Log.reportAll_cons, take, hf]

end Session

namespace Token

/-- Of the complaints about tokens every one is an error. -/
theorem severity_of_mem_complaints {ts : List Token} {d : Diagnostic}
    (h : d ∈ ts.filterMap complaint?) : d.severity = .error := by
  obtain ⟨t, -, ht⟩ := List.mem_filterMap.1 h
  exact severity_of_complaint? ht

/-- Each complaint counts as one error. -/
theorem countP_error_complaints (ts : List Token) :
    (ts.filterMap complaint?).countP (·.severity = .error) = (ts.filterMap complaint?).length := by
  rw [List.countP_eq_length]
  intro d hd
  exact decide_eq_true (severity_of_mem_complaints hd)

/-- No complaint is a mere warning. -/
theorem countP_warning_complaints (ts : List Token) :
    (ts.filterMap complaint?).countP (·.severity = .warning) = 0 := by
  rw [List.countP_eq_zero]
  intro d hd
  rw [severity_of_mem_complaints hd]
  decide

/-- There is nothing to complain about exactly if no token is erroneous. -/
theorem complaints_eq_nil_iff {ts : List Token} :
    ts.filterMap complaint? = [] ↔ ∀ t ∈ ts, t.complaint? = none :=
  List.filterMap_eq_nil_iff

end Token

namespace Session

/-! ## the meaning of a command line -/

/-- From any session, a command line has one segmentation, and reading it leaves the settings that
its tokens ask for and one error for each of them that is erroneous. -/
theorem parse_eq_meaning (start : Session) (args : Arguments) :
    ∃ ts, Token.Segments args.toList ts ∧ (∀ us, Token.Segments args.toList us → us = ts) ∧
      (start.parse args).settings = start.settings.given ts ∧
      (start.parse args).log.entries = start.log.entries ++ ts.filterMap Token.complaint? ∧
      (start.parse args).log.errors =
        start.log.errors + (ts.filterMap Token.complaint?).length ∧
      (start.parse args).log.warnings = start.log.warnings ∧
      ((start.parse args).ok ↔ start.log.errors = 0 ∧ ∀ t ∈ ts, t.complaint? = none) := by
  obtain ⟨ts, h⟩ := Token.exists_segments args.toList
  have hlog : (start.parse args).log = start.log.reportAll (ts.filterMap Token.complaint?) := by
    rw [parse_of_segments h, log_takeAll]
  have herrors : (start.parse args).log.errors =
      start.log.errors + (ts.filterMap Token.complaint?).length := by
    rw [hlog, Diagnostic.Log.errors_reportAll, Token.countP_error_complaints]
  refine ⟨ts, h, ?_, ?_, ?_, herrors, ?_, ?_⟩
  · intro us hus
    rw [← hus.scan_eq, h.scan_eq]
  · rw [parse_of_segments h, settings_takeAll]
  · rw [hlog, Diagnostic.Log.entries_reportAll]
  · rw [hlog, Diagnostic.Log.warnings_reportAll, Token.countP_warning_complaints, Nat.add_zero]
  · rw [ok, Diagnostic.Log.clean_iff, herrors, Nat.add_eq_zero_iff, List.length_eq_zero_iff,
      Token.complaints_eq_nil_iff]

end Session

end OptionPresets
