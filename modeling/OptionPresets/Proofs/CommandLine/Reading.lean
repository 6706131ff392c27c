import OptionPresets.Proofs.CommandLine.Segments
import OptionPresets.Proofs.CommandLine.Suffixes

/-!
# OptionPresets.Proofs.CommandLine.Reading

What one call of the reader can do. It looks at the text at its position and, only
behind a level flag, at the next one; `Reads` lists what it makes of them:

```
text                     next       result       position   session
a flag                              parsed       i          one switch on
--compilation_level=v               parsed       i          level v
a level flag             a text v   parsed       i + 1      level v
a level flag             none       malformed    i          one error
--compilation_level=                malformed    i          one error
any other                           not matched  i          as before
```

All that is said about a call is read off this table (`Session.reads`): a call
that fails leaves the settings alone, one that succeeds leaves the log alone and
changes one setting at most, and the position moves only onto an argument
(`Contained`). The one sum that a call forms fits into a word, because a level
flag is an argument and the count of arguments is a word (`readAt?_eq_some`).
-/

namespace OptionPresets

/-! ## fields of the settings -/

namespace Settings

/-- A setting that is on or off. -/
inductive Switch where
  | debug
  | useTypes
  | functionWrapper
  | changedOnly
  | trace
  | listLevels
  | help
  | version
  deriving DecidableEq, Repr

/-- Whether a switch is on. -/
def Switch.isOn : Switch → Settings → Bool
  | debug, s => s.addOns.debug
  | useTypes, s => s.addOns.useTypes
  | functionWrapper, s => s.addOns.functionWrapper
  | changedOnly, s => s.changedOnly
  | trace, s => s.trace
  | listLevels, s => s.listLevels
  | help, s => s.help
  | version, s => s.version

/-- A field of the settings. -/
inductive Field where
  | level
  | switch (w : Switch)
  deriving DecidableEq, Repr

/-- Two settings differ in a field. -/
def Field.Differs : Field → Settings → Settings → Prop
  | level, s, t => s.level ≠ t.level
  | switch w, s, t => w.isOn s ≠ w.isOn t

theorem Field.not_differs_self (f : Field) (s : Settings) : ¬ f.Differs s s := by
  cases f <;> exact fun h => h rfl

/-- The fields are all there is to settings. -/
theorem eq_of_not_differs {s t : Settings} (h : ∀ f : Field, ¬ f.Differs s t) : s = t := by
  have hl : s.level = t.level := Decidable.of_not_not (h .level)
  have hs (w : Switch) : w.isOn s = w.isOn t := Decidable.of_not_not (h (.switch w))
  obtain ⟨l, ⟨d, u, f⟩, c, tr, ll, he, v⟩ := s
  obtain ⟨l', ⟨d', u', f'⟩, c', tr', ll', he', v'⟩ := t
  obtain rfl : l = l' := hl
  obtain rfl : d = d' := hs .debug
  obtain rfl : u = u' := hs .useTypes
  obtain rfl : f = f' := hs .functionWrapper
  obtain rfl : c = c' := hs .changedOnly
  obtain rfl : tr = tr' := hs .trace
  obtain rfl : ll = ll' := hs .listLevels
  obtain rfl : he = he' := hs .help
  obtain rfl : v = v' := hs .version
  rfl

end Settings

/-- The switch that a flag turns on. -/
def Flag.switch : Flag → Settings.Switch
  | .useTypes => .useTypes
  | .functionWrapper => .functionWrapper
  | .debug => .debug
  | .changed => .changedOnly
  | .trace => .trace
  | .listLevels => .listLevels
  | .help | .shortHelp => .help
  | .version => .version

/-- A flag turns its switch on and touches no other. -/
theorem Flag.isOn_enable (f : Flag) (w : Settings.Switch) (s : Settings) :
    w.isOn (f.enable s) = (w.isOn s || decide (f.switch = w)) := by
  cases f <;> cases w <;> simp [Flag.enable, Flag.switch, Settings.Switch.isOn]

theorem Flag.level_enable (f : Flag) (s : Settings) : (f.enable s).level = s.level := by
  cases f <;> rfl

/-- A flag changes no field but its switch. -/
theorem Flag.eq_switch_of_differs {f : Flag} {s : Settings} {g : Settings.Field}
    (h : g.Differs s (f.enable s)) : g = .switch f.switch := by
  cases g with
  | level => exact absurd (f.level_enable s).symm h
  | switch w =>
      by_cases hw : f.switch = w
      · rw [hw]
      · rw [Settings.Field.Differs, f.isOn_enable, decide_eq_false hw, Bool.or_false] at h
        contradiction

/-- A new level changes no other field. -/
theorem Settings.eq_level_of_differs {s : Settings} {value : String} {g : Settings.Field}
    (h : g.Differs s { s with level := value }) : g = .level := by
  cases g with
  | level => rfl
  | switch w => cases w <;> exact absurd rfl h

/-! ## what is at a position -/

theorem Token.plain_empty : Token.Plain "" where
  ne_flag f := by cases f <;> decide
  ne_levelFlag f := by cases f <;> decide
  ne_assigned value h := by
    have hl : LevelFlag.lead.length + value.length = 0 := by
      rw [← String.length_append, ← h]
      rfl
    have : LevelFlag.lead.length = 20 := rfl
    omega

namespace Arguments

/-- Where there is a text that is not empty, there is an argument. -/
theorem inside_of_textAt_ne {a : Arguments} {i : Int} (h : a.textAt i ≠ "") : a.Inside i :=
  Decidable.byContradiction fun hn => h (textAt_of_not_inside hn)

/-- There are no more arguments than are counted. -/
theorem lt_count_of_inside {a : Arguments} {i : Int} (h : a.Inside i) : i < a.count := by
  obtain ⟨h0, hlt⟩ := h
  unfold size at hlt
  split at hlt <;> omega

/-- The position behind an argument fits if the count does. -/
theorem fits_succ_of_inside {a : Arguments} (hc : Word.Fits a.count) {i : Int} (h : a.Inside i) :
    Word.Fits (i + 1) := by
  have hlt := lt_count_of_inside h
  obtain ⟨h0, -⟩ := h
  unfold Word.Fits at hc ⊢
  omega

end Arguments

namespace Session

/-- What reading at a position comes to, by the text there and the one behind it. -/
inductive Reads (s : Session) (args : Arguments) (i : Int) : Progress → Prop
  | flag (f : Flag) (h : args.textAt i = f.text) :
      Reads s args i ⟨.parsed, i, { s with settings := f.enable s.settings }⟩
  | assignedLevel {value : String} (hv : value ≠ "")
      (h : args.textAt i = LevelFlag.lead ++ value) :
      Reads s args i ⟨.parsed, i, { s with settings.level := value }⟩
  | level (f : LevelFlag) (h : args.textAt i = f.text) (hn : args.Inside (i + 1)) :
      Reads s args i ⟨.parsed, i + 1, { s with settings.level := args.textAt (i + 1) }⟩
  | missingLevel (f : LevelFlag) (h : args.textAt i = f.text) (hn : ¬ args.Inside (i + 1)) :
      Reads s args i ⟨.malformed, i, s.report (.error f.text "missing level name")⟩
  | emptyLevel (h : args.textAt i = LevelFlag.lead) :
      Reads s args i ⟨.malformed, i,
        s.report (.error "--compilation_level" "missing level name")⟩
  | unknown (h : Token.Plain (args.textAt i)) : Reads s args i ⟨.notMatched, i, s⟩

variable {s : Session} {args : Arguments} {i : Int} {p : Progress}

/-- A row of the table says what reading comes to. -/
theorem Reads.readAt_eq (h : Reads s args i p) : s.readAt args i = p := by
  cases h with
  | flag f h =>
      rw [readAt, h, Token.read_flag]
      simp only [Token.extra, Int.cast_ofNat_Int, Int.add_zero]
      rfl
  | assignedLevel hv h =>
      rw [readAt, h, Token.read_assignedLevel hv]
      simp only [Token.extra, Int.cast_ofNat_Int, Int.add_zero]
      rfl
  | level f h hn =>
      rw [readAt, h, Arguments.get?_of_inside hn, Token.read_level]
      rfl
  | missingLevel f h hn =>
      rw [readAt, h, Arguments.get?_of_not_inside hn, Token.read_missingLevel]
      rfl
  | emptyLevel h =>
      rw [readAt, h, Token.read_emptyLevel]
      rfl
  | unknown h => rw [readAt, Token.read_unknown h]

/-- No position has two rows. -/
theorem Reads.unique {q : Progress} (h : Reads s args i p) (h' : Reads s args i q) : p = q := by
  rw [← h.readAt_eq, h'.readAt_eq]

/-- Every position has a row. -/
theorem reads (s : Session) (args : Arguments) (i : Int) : Reads s args i (s.readAt args i) := by
  have hrow : ∃ p, Reads s args i p := by
    obtain ⟨f, h⟩ | ⟨f, h⟩ | ⟨value, h⟩ | h := Token.forms (args.textAt i)
    · exact ⟨_, .flag f h⟩
    · by_cases hn : args.Inside (i + 1)
      · exact ⟨_, .level f h hn⟩
      · exact ⟨_, .missingLevel f h hn⟩
    · by_cases hv : value = ""
      · rw [hv, String.append_empty] at h
        exact ⟨_, .emptyLevel h⟩
      · exact ⟨_, .assignedLevel hv h⟩
    · exact ⟨_, .unknown h⟩
  obtain ⟨p, hp⟩ := hrow
  rw [hp.readAt_eq]
  exact hp

/-- Reading needs no more of the arguments than the two texts and whether there is a second one. -/
theorem Reads.congr {args' : Arguments} (htext : args'.textAt i = args.textAt i)
    (hnext : args'.textAt (i + 1) = args.textAt (i + 1))
    (hin : args'.Inside (i + 1) ↔ args.Inside (i + 1)) (h : Reads s args i p) :
    Reads s args' i p := by
  cases h with
  | flag f h => exact .flag f (htext.trans h)
  | assignedLevel hv h => exact .assignedLevel hv (htext.trans h)
  | level f h hn =>
      rw [← hnext]
      exact .level f (htext.trans h) (hin.2 hn)
  | missingLevel f h hn => exact .missingLevel f (htext.trans h) (fun hn' => hn (hin.1 hn'))
  | emptyLevel h => exact .emptyLevel (htext.trans h)
  | unknown h =>
      rw [← htext] at h
      exact .unknown h

/-! ## in words -/

/-- A level flag is an argument. -/
theorem inside_of_levelFlag {f : LevelFlag} (h : args.textAt i = f.text) : args.Inside i := by
  apply Arguments.inside_of_textAt_ne
  rw [h]
  cases f <;> decide

/-- In words reading comes to the same. -/
theorem readAt?_eq_some (hc : Word.Fits args.count) (s : Session) (i : Int) :
    s.readAt? args i = some (s.readAt args i) := by
  unfold readAt? readAt Token.read
  cases hl : LevelFlag.ofText? (args.textAt i) with
  | some f =>
      have hi := inside_of_levelFlag (LevelFlag.ofText?_eq_some_iff.1 hl)
      have hadd : Word.add? i 1 = some (i + 1) :=
        Word.ofInt?_of_fits (Arguments.fits_succ_of_inside hc hi)
      simp only [hadd, Option.map_some]
      -- the test against the size is a test for an argument, as the next position is not negative
      by_cases hn : args.Inside (i + 1)
      · rw [if_neg (Int.not_le.2 hn.2), Arguments.get?_of_inside hn]
        rfl
      · have h0 : 0 ≤ i + 1 := Int.le_trans hi.1 (Int.le_of_lt (Int.lt_succ i))
        have hle : (args.size : Int) ≤ i + 1 := Int.not_lt.1 fun hlt => hn ⟨h0, hlt⟩
        rw [if_pos hle, Arguments.get?_of_not_inside hn]
  | none =>
      cases hv : LevelFlag.assigned? (args.textAt i) with
      | some value =>
          by_cases he : value = ""
          · simp [he]
          · simp [he, Token.extra]
      | none =>
          cases hf : Flag.ofText? (args.textAt i) with
          | some f => simp [Token.extra]
          | none => rfl

/-! ## what a call leaves alone -/

/-- What holds of a call at the position `i` that comes to `p`. -/
structure Contained (s : Session) (args : Arguments) (i : Int) (p : Progress) : Prop where
  /-- Outside the arguments nothing is matched. -/
  outside : ¬ args.Inside i → p.reading = .notMatched
  notMatched_iff : p.reading = .notMatched ↔ Token.Plain (args.textAt i)
  of_notMatched : p.reading = .notMatched → p.position = i ∧ p.session = s
  malformed_iff : p.reading = .malformed ↔
    args.textAt i = LevelFlag.lead ∨
      ∃ f : LevelFlag, args.textAt i = f.text ∧ ¬ args.Inside (i + 1)
  /-- One error is reported and nothing else is changed. -/
  of_malformed : p.reading = .malformed → p.position = i ∧ p.session.settings = s.settings ∧
    ∃ d : Diagnostic, d.severity = .error ∧ p.session.log = s.log.report d
  /-- At most one field is changed, and a switch is only ever turned on. -/
  of_parsed : p.reading = .parsed → p.session.log = s.log ∧
    (p.session.settings = s.settings ∨ ∃ f : Settings.Field,
      f.Differs s.settings p.session.settings ∧
        ∀ g : Settings.Field, g.Differs s.settings p.session.settings → g = f) ∧
    ∀ w : Settings.Switch, w.isOn s.settings → w.isOn p.session.settings
  /-- The position moves behind a level flag that has a value, and nowhere else. -/
  moved_iff : p.position ≠ i ↔
    ∃ f : LevelFlag, args.textAt i = f.text ∧ args.Inside (i + 1)
  of_moved : p.position ≠ i → p.reading = .parsed ∧ p.position = i + 1 ∧
    p.position < args.size ∧ p.session.settings.level = args.textAt p.position

section

variable (h : Reads s args i p)

include h

theorem Reads.notMatched_iff : p.reading = .notMatched ↔ Token.Plain (args.textAt i) := by
  constructor
  · intro hr
    cases h with
    | flag | assignedLevel | level | missingLevel | emptyLevel => cases hr
    | unknown hp => exact hp
  · intro hp
    rw [h.unique (.unknown hp)]

theorem Reads.malformed_iff : p.reading = .malformed ↔ args.textAt i = LevelFlag.lead ∨
    ∃ f : LevelFlag, args.textAt i = f.text ∧ ¬ args.Inside (i + 1) := by
  constructor
  · intro hr
    cases h with
    | flag | assignedLevel | level | unknown => cases hr
    | missingLevel f hf hn => exact .inr ⟨f, hf, hn⟩
    | emptyLevel he => exact .inl he
  · rintro (he | ⟨f, hf, hn⟩)
    · rw [h.unique (.emptyLevel he)]
    · rw [h.unique (.missingLevel f hf hn)]

theorem Reads.moved_iff : p.position ≠ i ↔
    ∃ f : LevelFlag, args.textAt i = f.text ∧ args.Inside (i + 1) := by
  constructor
  · intro hm
    cases h with
    | flag | assignedLevel | missingLevel | emptyLevel | unknown => exact absurd rfl hm
    | level f hf hn => exact ⟨f, hf, hn⟩
  · rintro ⟨f, hf, hn⟩
    rw [h.unique (.level f hf hn)]
    exact Int.ne_of_gt (Int.lt_succ i)

/-- Of two fields that a call changes one is the other. -/
theorem Reads.differs_unique {f g : Settings.Field}
    (hf : f.Differs s.settings p.session.settings) (hg : g.Differs s.settings p.session.settings) :
    f = g := by
  cases h with
  | flag => rw [Flag.eq_switch_of_differs hf, Flag.eq_switch_of_differs hg]
  | assignedLevel | level =>
      rw [Settings.eq_level_of_differs hf, Settings.eq_level_of_differs hg]
  | missingLevel | emptyLevel | unknown => exact absurd hf (Settings.Field.not_differs_self f _)

/-- A call changes nothing in the settings or exactly one field. -/
theorem Reads.settings_eq_or : p.session.settings = s.settings ∨ ∃ f : Settings.Field,
    f.Differs s.settings p.session.settings ∧
      ∀ g : Settings.Field, g.Differs s.settings p.session.settings → g = f := by
  by_cases hd : ∃ f : Settings.Field, f.Differs s.settings p.session.settings
  · obtain ⟨f, hf⟩ := hd
    exact .inr ⟨f, hf, fun g hg => h.differs_unique hg hf⟩
  · exact .inl (Settings.eq_of_not_differs (not_exists.1 hd)).symm

/-- A switch that is on stays on. -/
theorem Reads.isOn_of_isOn {w : Settings.Switch} (hw : w.isOn s.settings) :
    w.isOn p.session.settings := by
  cases h with
  | flag f =>
      rw [f.isOn_enable, hw, Bool.true_or]
  | assignedLevel | level | missingLevel | emptyLevel | unknown => cases w <;> exact hw

theorem Reads.contained : Contained s args i p where
  outside hn := by
    rw [h.notMatched_iff, Arguments.textAt_of_not_inside hn]
    exact Token.plain_empty
  notMatched_iff := h.notMatched_iff
  of_notMatched hr := by
    cases h with
    | flag | assignedLevel | level | missingLevel | emptyLevel => cases hr
    | unknown => exact ⟨rfl, rfl⟩
  malformed_iff := h.malformed_iff
  of_malformed hr := by
    cases h with
    | flag | assignedLevel | level | unknown => cases hr
    | missingLevel | emptyLevel => exact ⟨rfl, rfl, _, rfl, rfl⟩
  of_parsed hr := by
    refine ⟨?_, h.settings_eq_or, fun w hw => h.isOn_of_isOn hw⟩
    cases h with
    | flag | assignedLevel | level => rfl
    | missingLevel | emptyLevel | unknown => cases hr
  moved_iff := h.moved_iff
  of_moved hm := by
    cases h with
    | flag | assignedLevel | missingLevel | emptyLevel | unknown => exact absurd rfl hm
    | level f hf hn => exact ⟨rfl, rfl, hn.2, rfl⟩

end

end Session

end OptionPresets
