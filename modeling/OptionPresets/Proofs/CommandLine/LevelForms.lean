import OptionPresets.Proofs.CommandLine.Answer
import OptionPresets.Proofs.CommandLine.Concatenation

/-!
# OptionPresets.Proofs.CommandLine.LevelForms

The three forms in which a command line can give the level:

```
--compilation_level VALUE        -O VALUE        --compilation_level=VALUE
```

Two of them take two arguments and one takes one, but each is written for a
token that can stand anywhere (`complete_token`), and to a session the three
tokens are the same (`take_token`). So the forms can be put for each other on any
command line.

The empty value is the exception, and the only one: in an argument of its own
it is a level like any other text, behind the equals sign it is a fault
(`EmptyValue`).
-/

namespace OptionPresets

/-! ## the forms -/

/-- A form in which the level is given. -/
inductive LevelForm where
  /-- The value is the argument after a level flag. -/
  | separate (f : LevelFlag)
  /-- The value stands behind an equals sign. -/
  | assigned
  deriving DecidableEq, Repr

namespace LevelForm

/-- A value written in a form. -/
def args (value : String) : LevelForm → List String
  | separate f => [f.text, value]
  | assigned => [LevelFlag.lead ++ value]

/-- The token that a written value is read as. -/
def token (value : String) : LevelForm → Token
  | separate f => .level f value
  | assigned => if value = "" then .emptyLevel else .assignedLevel value

theorem args_token (value : String) (a : LevelForm) : (a.token value).args = a.args value := by
  cases a with
  | separate f => rfl
  | assigned =>
      rw [token, args]
      split
      · next hv => rw [hv, String.append_empty, Token.args]
      · rfl

theorem complete_token (value : String) (a : LevelForm) : (a.token value).Complete := by
  cases a with
  | separate f => exact .level f value
  | assigned =>
      rw [token]
      split
      · exact .emptyLevel
      · next hv => exact .assignedLevel hv

/-- To a session the forms are the same, unless the level is empty. -/
theorem take_token {value : String} (hv : value ≠ "") (s : Session) (a : LevelForm) :
    s.take (a.token value) = { s with settings.level := value } := by
  cases a with
  | separate f => rfl
  | assigned =>
      rw [token, if_neg hv]
      rfl

end LevelForm

section

variable {xs ys : List String} (hx : Token.Ended xs) {value : String} (a : LevelForm)

include hx

/-- A level in any form is taken as one token, between the arguments before it and those behind
it. -/
theorem Session.parse_levelForm {args : Arguments} (h : args.toList = xs ++ a.args value ++ ys)
    (s : Session) :
    s.parse args = ((s.parse (.ofList xs)).take (a.token value)).parse (.ofList ys) := by
  rw [List.append_assoc, ← a.args_token] at h
  exact parse_insert hx (a.complete_token value) h s

theorem Token.segments_levelForm {argv : Arguments} {tool : String}
    (h : argv.toList = tool :: (xs ++ a.args value ++ ys)) :
    Segments (argv.toList.drop 1) (scan xs ++ a.token value :: scan ys) := by
  rw [h, List.drop_one, List.tail_cons, List.append_assoc, ← a.args_token]
  exact hx.segments_insert (a.complete_token value) ys

end

/-! ## the report about a missing level -/

/-- Texts that are equal have the same characters, also where they are written out. -/
theorem chars_eq_of_append_eq {cs ds : List Char} {text text' : String}
    (h : String.ofList cs ++ text = String.ofList ds ++ text') :
    cs ++ text.toList = ds ++ text'.toList := by
  have hchars := congrArg String.toList h
  rwa [String.toList_append, String.toList_append, String.toList_ofList, String.toList_ofList]
    at hchars

theorem Request.trace_eq_append (r : Request) :
    ∃ text, r.trace = "[preset] compilation level " ++ text := by
  rw [trace, steps, List.map_cons, Lines.render_cons, String.append_assoc]
  exact ⟨_, String.append_assoc⟩

/-- A run without faults prints nothing on the error stream that starts like the report about a
missing level. -/
theorem err_ne_missingLevel {argv : Arguments} {ts : List Token}
    (h : Token.Segments (argv.toList.drop 1) ts) (hc : Token.Clean ts) (text : String) :
    (run argv).err ≠ "--compilation_level: error: missing level name\n" ++ text := by
  have hne : "" ≠ "--compilation_level: error: missing level name\n" ++ text := by
    intro he
    exact absurd (String.append_eq_empty_iff.1 he.symm).1 (by decide)
  by_cases ht : Token.AsksForText ts
  · rw [err_of_asksForText h hc ht]
    exact hne
  · by_cases hl : Token.levelText ts ∈ Level.texts
    · obtain ⟨l, hl⟩ := Level.mem_texts_iff.1 hl
      rw [run_of_level h hc ht hl]
      dsimp only
      split
      · intro he
        obtain ⟨rest, htrace⟩ := Request.trace_eq_append ⟨l, Token.addOns ts⟩
        rw [htrace] at he
        cases chars_eq_of_append_eq he
      · exact hne
    · -- both are reports about the level, and part behind the severity
      intro he
      rw [run_of_unknown_level h hc ht hl, String.append_assoc] at he
      cases chars_eq_of_append_eq he

namespace Diagnostic

theorem length_render_pos (d : Diagnostic) : 0 < d.render.length := by
  rw [render, String.length_append]
  exact Nat.lt_add_left _ (by decide)

/-- One diagnostic more is seen in print. -/
theorem Log.renderEntries_append_cons_ne (xs ys : List Diagnostic) (d : Diagnostic) :
    renderEntries (xs ++ d :: ys) ≠ renderEntries (xs ++ ys) := by
  intro h
  have hlength := congrArg String.length h
  have hpos := d.length_render_pos
  rw [renderEntries_append, renderEntries_append, renderEntries, String.length_append,
    String.length_append, String.length_append] at hlength
  omega

end Diagnostic

/-! ## the empty value -/

/-- What two command lines come to that give an empty level behind `xs` and before `ys`: the
first in an argument of its own, the second behind the equals sign. -/
structure EmptyValue (start : Session) (xs ys : List String) (args args' : Arguments) : Prop where
  /-- The empty text is taken as the level. -/
  accepted : start.parse args =
    Session.parse { start.parse (.ofList xs) with settings.level := "" } (.ofList ys)
  /-- The level is missing. -/
  missing : start.parse args' =
    ((start.parse (.ofList xs)).report ⟨.error, "--compilation_level", "missing level name"⟩).parse
      (.ofList ys)
  errors_eq : (start.parse args').log.errors = (start.parse args).log.errors + 1
  entries_ne : (start.parse args').log.entries ≠ (start.parse args).log.entries

section

variable {xs ys : List String}

theorem emptyValue (hx : Token.Ended xs) (f : LevelFlag) {args args' : Arguments}
    (h : args.toList = xs ++ (LevelForm.separate f).args "" ++ ys)
    (h' : args'.toList = xs ++ LevelForm.assigned.args "" ++ ys) (start : Session) :
    EmptyValue start xs ys args args' := by
  have haccepted := Session.parse_levelForm hx (.separate f) h start
  have hmissing := Session.parse_levelForm hx .assigned h' start
  refine ⟨haccepted, hmissing, ?_, ?_⟩
  · rw [haccepted, hmissing, Session.log_parse, Session.log_parse, Diagnostic.Log.errors_reportAll,
      Diagnostic.Log.errors_reportAll]
    exact Nat.add_right_comm _ 1 _
  · intro he
    rw [haccepted, hmissing, Session.log_parse, Session.log_parse, Diagnostic.Log.entries_reportAll,
      Diagnostic.Log.entries_reportAll] at he
    have hlog := List.append_cancel_right he
    exact absurd (congrArg List.length hlog) (by simp [Session.take, Token.fault?, LevelForm.token])

/-- An empty level behind the equals sign is complained about in its place. -/
theorem Token.complaints_emptyLevel (us vs : List Token) :
    (us ++ .emptyLevel :: vs).filterMap complaint? =
      us.filterMap complaint? ++
        ⟨.error, "--compilation_level", "missing level name"⟩ :: vs.filterMap complaint? := by
  rw [List.filterMap_append]
  rfl

/-- A run fails on an empty level behind the equals sign, and shows so on the error stream. -/
theorem run_emptyValue (hx : Token.Ended xs) (f : LevelFlag) {tool tool' : String}
    {argv argv' : Arguments}
    (h : argv.toList = tool :: (xs ++ (LevelForm.separate f).args "" ++ ys))
    (h' : argv'.toList = tool' :: (xs ++ LevelForm.assigned.args "" ++ ys)) :
    (run argv').status = 1 ∧ (run argv').err ≠ (run argv).err := by
  have hs : Token.Segments (argv.toList.drop 1) (Token.scan xs ++ .level f "" :: Token.scan ys) :=
    Token.segments_levelForm hx (.separate f) h
  have ha : Token.Segments (argv'.toList.drop 1) (Token.scan xs ++ .emptyLevel :: Token.scan ys) :=
    Token.segments_levelForm hx .assigned h'
  have hn : ¬ Token.Clean (Token.scan xs ++ .emptyLevel :: Token.scan ys) := by
    intro hc
    cases hc .emptyLevel (List.mem_append_right _ List.mem_cons_self)
  rw [run_of_not_clean ha hn, Token.complaints_emptyLevel]
  refine ⟨rfl, ?_⟩
  by_cases hc : Token.Clean (Token.scan xs ++ .level f "" :: Token.scan ys)
  · -- the report is the only one
    have hnil := Token.complaints_eq_nil_iff.2 hc
    rw [Token.complaints_append_cons rfl, List.filterMap_append, List.append_eq_nil_iff] at hnil
    rw [hnil.1, hnil.2]
    exact (err_ne_missingLevel hs hc _).symm
  · rw [run_of_not_clean hs hc, Token.complaints_append_cons rfl, List.filterMap_append]
    exact mt (String.append_left_inj _).1 (Diagnostic.Log.renderEntries_append_cons_ne _ _ _)

end

/-! ## the forms on a command line -/

namespace LevelForm

/-- Behind arguments that have ended and before any others, a level can be given in any form, and
neither reading nor the tool makes a difference, unless the level is empty. The empty level is
accepted in an argument of its own and missing behind the equals sign, and then reading reports,
and the tool prints, different things in every case. -/
theorem interchangeable {xs : List String} (hx : Token.Ended xs) (ys : List String) :
    (∀ value ≠ "", ∀ a b : LevelForm,
      (∀ (start : Session) (args args' : Arguments),
        args.toList = xs ++ a.args value ++ ys → args'.toList = xs ++ b.args value ++ ys →
          (start.parse args).settings = (start.parse args').settings ∧
          (start.parse args).log = (start.parse args').log ∧
          (start.parse args).ok = (start.parse args').ok) ∧
      ∀ (tool tool' : String) (argv argv' : Arguments),
        argv.toList = tool :: (xs ++ a.args value ++ ys) →
        argv'.toList = tool' :: (xs ++ b.args value ++ ys) → run argv = run argv') ∧
    ∀ f : LevelFlag,
      (∀ (start : Session) (args args' : Arguments),
        args.toList = xs ++ (separate f).args "" ++ ys →
        args'.toList = xs ++ assigned.args "" ++ ys → EmptyValue start xs ys args args') ∧
      ∀ (tool tool' : String) (argv argv' : Arguments),
        argv.toList = tool :: (xs ++ (separate f).args "" ++ ys) →
        argv'.toList = tool' :: (xs ++ assigned.args "" ++ ys) →
          (run argv').status = 1 ∧ (run argv').err ≠ (run argv).err := by
  have hparse : ∀ value ≠ "", ∀ (a b : LevelForm) (start : Session) (args args' : Arguments),
      args.toList = xs ++ a.args value ++ ys → args'.toList = xs ++ b.args value ++ ys →
        start.parse args = start.parse args' := by
    intro value hv a b start args args' h h'
    rw [Session.parse_levelForm hx a h, Session.parse_levelForm hx b h', take_token hv,
      take_token hv]
  constructor
  · intro value hv a b
    constructor
    · intro start args args' h h'
      rw [hparse value hv a b start args args' h h']
      exact ⟨rfl, rfl, rfl⟩
    · intro tool tool' argv argv' h h'
      have hd : (argv.drop 1).toList = xs ++ a.args value ++ ys := by
        rw [Arguments.toList_drop, h, List.drop_one, List.tail_cons]
      have hd' : (argv'.drop 1).toList = xs ++ b.args value ++ ys := by
        rw [Arguments.toList_drop, h', List.drop_one, List.tail_cons]
      rw [run, run, hparse value hv a b {} _ _ hd hd']
  · intro f
    exact ⟨fun start _ _ h h' => emptyValue hx f h h' start,
      fun _ _ _ _ h h' => run_emptyValue hx f h h'⟩

/-- A level that looks like a flag, and the empty one, behind a flag and before another. -/
theorem interchangeable_behind_debug :
    Token.Ended ["--debug"] ∧
    run (.ofList ["tool", "--debug", "-O", "--help", "--trace"]) =
      run (.ofList ["tool", "--debug", "--compilation_level=--help", "--trace"]) ∧
    (run (.ofList ["tool", "--debug", "--compilation_level=", "--trace"])).err ≠
      (run (.ofList ["tool", "--debug", "-O", "", "--trace"])).err := by
  have hx : Token.Ended ["--debug"] := ⟨_, .flag .debug .nil, by simp⟩
  obtain ⟨hforms, hempty⟩ := interchangeable hx ["--trace"]
  exact ⟨hx,
    (hforms "--help" (by decide) (separate .short) assigned).2 "tool" "tool" _ _ (by decide)
      (by decide),
    ((hempty .short).2 "tool" "tool" _ _ (by decide) (by decide)).2⟩

end LevelForm

end OptionPresets
