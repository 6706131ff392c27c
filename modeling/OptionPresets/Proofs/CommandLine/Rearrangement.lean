import OptionPresets.CommandLine.Run
import OptionPresets.Proofs.CommandLine.Meaning

/-!
# OptionPresets.Proofs.CommandLine.Rearrangement

Command lines that say the same. Tokens that are written as arguments are cut
into the same tokens again (`segments_spell`), although a level flag takes
whatever argument comes next: it brings its own with it. So changes to a command
line can be judged by its tokens. Without a change of meaning

1. tokens can be put in another order, if the erroneous ones keep theirs and the
   level given last stays the last one;
2. a flag can be repeated;
3. a level can be left out if another one is given later.

`Rearranged` is what can be done by such changes. Each of them keeps the three things
that a session takes from its tokens (`Alike`): the last level, the flags that occur,
and the complaints in their order.
-/

namespace OptionPresets

namespace Token

/-! ## tokens in writing -/

/-- A token that can stand anywhere on a command line, and is read there as it was written. -/
inductive Complete : Token → Prop
  | flag (f : Flag) : Complete (.flag f)
  | level (f : LevelFlag) (value : String) : Complete (.level f value)
  | assignedLevel {value : String} (hv : value ≠ "") : Complete (.assignedLevel value)
  | emptyLevel : Complete .emptyLevel
  | unknown {arg : String} (ha : Plain arg) : Complete (.unknown arg)

/-- An argument that is read as an unknown token has no other form. -/
theorem Plain.of_read {arg : String} (h : read arg none = unknown arg) : Plain arg where
  ne_flag := by
    rintro f rfl
    rw [read_flag] at h
    contradiction
  ne_levelFlag := by
    rintro f rfl
    rw [read_missingLevel] at h
    contradiction
  ne_assigned := by
    rintro value rfl
    rw [read_assigned] at h
    split at h <;> contradiction

/-- The arguments of all tokens, one after the other. -/
def spell (ts : List Token) : List String := ts.flatMap args

/-- A complete token is read from its own arguments, whatever follows them. -/
theorem Complete.segments_cons {t : Token} (ht : t.Complete) (h : Segments xs ts) :
    Segments (t.args ++ xs) (t :: ts) := by
  cases ht with
  | flag f => exact .flag f h
  | level f value => exact .level f value h
  | assignedLevel hv => exact .assignedLevel hv h
  | emptyLevel => exact .emptyLevel h
  | unknown ha => exact .unknown ha h

/-- Complete tokens are read back from their arguments, whatever follows them. -/
theorem segments_spell_append {ts : List Token} (h : ∀ t ∈ ts, t.Complete) {ys : List String}
    {us : List Token} (hy : Segments ys us) : Segments (spell ts ++ ys) (ts ++ us) := by
  induction ts with
  | nil => exact hy
  | cons t ts ih =>
      rw [List.forall_mem_cons] at h
      rw [spell, List.flatMap_cons, List.append_assoc]
      exact h.1.segments_cons (ih h.2)

/-- Complete tokens are read back from their arguments. -/
theorem segments_spell {ts : List Token} (h : ∀ t ∈ ts, t.Complete) : Segments (spell ts) ts := by
  have hs := segments_spell_append h .nil
  rwa [List.append_nil, List.append_nil] at hs

/-! ## changes that keep the meaning -/

/-- The tokens that carry a level. -/
def levels (ts : List Token) : List Token := ts.filter fun t => t.level?.isSome

/-- The tokens that are erroneous. -/
def erroneous (ts : List Token) : List Token := ts.filter fun t => t.complaint?.isSome

/-- The tokens can be changed into each other by changes that keep their meaning. -/
inductive Rearranged : List Token → List Token → Prop
  /-- Another order, but the same one of the erroneous tokens and the same level at the end. -/
  | reordered {ts us : List Token} (hp : ts.Perm us) (he : erroneous ts = erroneous us)
      (hl : (levels ts).getLast? = (levels us).getLast?) : Rearranged ts us
  /-- A flag that occurs elsewhere. -/
  | repeated (f : Flag) (xs ys : List Token) (h : .flag f ∈ xs ++ ys) :
      Rearranged (xs ++ .flag f :: ys) (xs ++ ys)
  /-- A level before another level. -/
  | superseded {t : Token} (ht : t.level?.isSome) (xs : List Token) {ys : List Token}
      (hy : levels ys ≠ []) : Rearranged (xs ++ t :: ys) (xs ++ ys)
  | symm {ts us : List Token} (h : Rearranged ts us) : Rearranged us ts
  | trans {ts us vs : List Token} (h : Rearranged ts us) (h' : Rearranged us vs) :
      Rearranged ts vs

/-! ## what a session takes from its tokens -/

/-- Tokens that give a session the same to do. -/
structure Alike (ts us : List Token) : Prop where
  lastLevel?_eq : lastLevel? ts = lastLevel? us
  mem_flag_iff : ∀ f : Flag, .flag f ∈ ts ↔ .flag f ∈ us
  complaints_eq : ts.filterMap complaint? = us.filterMap complaint?

/-- The last level is carried by the last of the tokens that carry one. -/
theorem lastLevel?_eq_bind (ts : List Token) :
    lastLevel? ts = (levels ts).getLast?.bind level? := by
  rw [lastLevel?, levels, List.getLast?_filterMap, List.getLast?_filter]
  induction ts.reverse with
  | nil => rfl
  | cons t us ih =>
      cases ht : t.level? with
      | none => simp [ht, ih]
      | some v => simp [ht]

/-- Before another level, a token has no say about the level. -/
theorem lastLevel?_cons_of_levels {ys : List Token} (hy : levels ys ≠ []) (t : Token) :
    lastLevel? (t :: ys) = lastLevel? ys := by
  obtain ⟨u, hu⟩ := Option.isSome_iff_exists.1 (List.getLast?_isSome.2 hy)
  have hlast : (levels (t :: ys)).getLast? = some u := by
    rw [levels, List.filter_cons, ← levels]
    split
    · rw [List.getLast?_cons, hu, Option.getD_some]
    · exact hu
  rw [lastLevel?_eq_bind, lastLevel?_eq_bind, hlast, hu]

/-- Of two groups of tokens the later one decides the level, if it carries one. -/
theorem lastLevel?_append (xs ys : List Token) :
    lastLevel? (xs ++ ys) = (lastLevel? ys).or (lastLevel? xs) := by
  rw [lastLevel?, List.filterMap_append, List.getLast?_append, ← lastLevel?, ← lastLevel?]

/-- A token that is not erroneous adds no complaint. -/
theorem complaints_append_cons {t : Token} (ht : t.complaint? = none) (xs ys : List Token) :
    (xs ++ t :: ys).filterMap complaint? = (xs ++ ys).filterMap complaint? := by
  rw [List.filterMap_append, List.filterMap_cons_none ht, List.filterMap_append]

/-- Only the erroneous tokens are complained about. -/
theorem filterMap_complaint?_erroneous (ts : List Token) :
    (erroneous ts).filterMap complaint? = ts.filterMap complaint? := by
  rw [erroneous, List.filterMap_filter]
  congr 1
  funext t
  cases t.complaint? <;> rfl

namespace Alike

variable {ts us vs xs ys : List Token}

theorem symm (h : Alike ts us) : Alike us ts where
  lastLevel?_eq := h.lastLevel?_eq.symm
  mem_flag_iff f := (h.mem_flag_iff f).symm
  complaints_eq := h.complaints_eq.symm

theorem trans (h : Alike ts us) (h' : Alike us vs) : Alike ts vs where
  lastLevel?_eq := h.lastLevel?_eq.trans h'.lastLevel?_eq
  mem_flag_iff f := (h.mem_flag_iff f).trans (h'.mem_flag_iff f)
  complaints_eq := h.complaints_eq.trans h'.complaints_eq

theorem of_perm (hp : ts.Perm us) (he : erroneous ts = erroneous us)
    (hl : (levels ts).getLast? = (levels us).getLast?) : Alike ts us where
  lastLevel?_eq := by rw [lastLevel?_eq_bind, lastLevel?_eq_bind, hl]
  mem_flag_iff _ := hp.mem_iff
  complaints_eq := by
    rw [← filterMap_complaint?_erroneous ts, ← filterMap_complaint?_erroneous us, he]

theorem of_repeated {f : Flag} (h : .flag f ∈ xs ++ ys) :
    Alike (xs ++ .flag f :: ys) (xs ++ ys) where
  lastLevel?_eq := by
    have hcons : lastLevel? (.flag f :: ys) = lastLevel? ys := rfl
    rw [lastLevel?_append, hcons, lastLevel?_append]
  mem_flag_iff g := by
    rw [List.mem_append, List.mem_cons, or_left_comm, ← List.mem_append]
    constructor
    · rintro (hg | hg)
      · rw [hg]
        exact h
      · exact hg
    · exact .inr
  complaints_eq := complaints_append_cons rfl xs ys

theorem of_superseded {t : Token} (ht : t.level?.isSome) (hy : levels ys ≠ []) :
    Alike (xs ++ t :: ys) (xs ++ ys) where
  lastLevel?_eq := by
    rw [lastLevel?_append, lastLevel?_cons_of_levels hy t, lastLevel?_append]
  mem_flag_iff f := by
    have hne : .flag f ≠ t := by
      rintro rfl
      cases ht
    rw [List.mem_append, List.mem_cons, or_iff_right hne, List.mem_append]
  complaints_eq := by
    cases t with
    | flag | level | assignedLevel => exact complaints_append_cons rfl xs ys
    | missingLevel | emptyLevel | unknown => cases ht

end Alike

/-- Each change keeps what a session takes from the tokens, so any number of changes does. -/
theorem Rearranged.alike {ts us : List Token} (h : Rearranged ts us) : Alike ts us := by
  induction h with
  | reordered hp he hl => exact .of_perm hp he hl
  | repeated f xs ys h => exact .of_repeated h
  | superseded ht xs hy => exact .of_superseded ht hy
  | symm h ih => exact ih.symm
  | trans h h' ih ih' => exact ih.trans ih'

end Token

/-! ## sessions over tokens that are alike -/

theorem Settings.given_congr {ts us : List Token} (h : Token.Alike ts us) (s : Settings) :
    s.given ts = s.given us := by
  have hflag (f : Flag) : ts.contains (.flag f) = us.contains (.flag f) := by
    rw [Bool.eq_iff_iff, List.contains_iff_mem, List.contains_iff_mem]
    exact h.mem_flag_iff f
  simp only [given, h.lastLevel?_eq, hflag]

theorem Session.takeAll_congr {ts us : List Token} (h : Token.Alike ts us) (s : Session) :
    s.takeAll ts = s.takeAll us := by
  apply Session.ext
  · rw [settings_takeAll, settings_takeAll, Settings.given_congr h]
  · rw [log_takeAll, log_takeAll, h.complaints_eq]

/-! ## the same command line in other words -/

namespace Token

/-- From any session, a command line whose tokens are rearranged is read with the same settings,
the same log and the same success, and the tool answers it in the same way. -/
theorem Rearranged.parse_eq_and_run_eq {ts us : List Token} (h : Rearranged ts us)
    (hts : ∀ t ∈ ts, t.Complete) (hus : ∀ t ∈ us, t.Complete) :
    (∀ (start : Session) (xs ys : Arguments), xs.toList = spell ts → ys.toList = spell us →
      (start.parse xs).settings = (start.parse ys).settings ∧
      (start.parse xs).log = (start.parse ys).log ∧
      (start.parse xs).ok = (start.parse ys).ok) ∧
    ∀ (xs ys : Arguments) (tool tool' : String), xs.toList = tool :: spell ts →
      ys.toList = tool' :: spell us → run xs = run ys := by
  have hparse : ∀ (start : Session) (xs ys : Arguments), xs.toList = spell ts →
      ys.toList = spell us → start.parse xs = start.parse ys := by
    intro start xs ys hxs hys
    have hx : Segments xs.toList ts := hxs ▸ segments_spell hts
    have hy : Segments ys.toList us := hys ▸ segments_spell hus
    rw [Session.parse_of_segments hx, Session.parse_of_segments hy]
    exact Session.takeAll_congr h.alike start
  constructor
  · intro start xs ys hxs hys
    rw [hparse start xs ys hxs hys]
    exact ⟨rfl, rfl, rfl⟩
  · intro xs ys tool tool' hxs hys
    have hx : (xs.drop 1).toList = spell ts := by
      rw [Arguments.toList_drop, hxs]
      rfl
    have hy : (ys.drop 1).toList = spell us := by
      rw [Arguments.toList_drop, hys]
      rfl
    rw [run, run, hparse {} _ _ hx hy]

/-- A level that swallows a flag is left out before another level, a flag is no longer repeated,
and the two faults stay in order. -/
theorem rearranged_faulty_line :
    (Rearranged
        [.flag .debug, .level .short "--debug", .unknown "x", .flag .debug, .emptyLevel,
          .assignedLevel "BUNDLE"]
        [.unknown "x", .assignedLevel "BUNDLE", .emptyLevel, .flag .debug] ∧
      (∀ t ∈ [flag .debug, level .short "--debug", unknown "x", flag .debug, emptyLevel,
          assignedLevel "BUNDLE"], t.Complete) ∧
      ∀ t ∈ [unknown "x", assignedLevel "BUNDLE", emptyLevel, flag .debug], t.Complete) ∧
    (Session.parse {} (.ofList ["--debug", "-O", "--debug", "x", "--debug",
        "--compilation_level=", "--compilation_level=BUNDLE"])).log =
      (Session.parse {} (.ofList ["x", "--compilation_level=BUNDLE", "--compilation_level=",
        "--debug"])).log ∧
    run (.ofList ["tool", "--debug", "-O", "--debug", "x", "--debug", "--compilation_level=",
        "--compilation_level=BUNDLE"]) =
      run (.ofList ["tool", "x", "--compilation_level=BUNDLE", "--compilation_level=",
        "--debug"]) := by
  have hx : Plain "x" := .of_read (by decide)
  have hb : "BUNDLE" ≠ "" := by decide
  have hflag : Rearranged
      [.flag .debug, .level .short "--debug", .unknown "x", .flag .debug, .emptyLevel,
        .assignedLevel "BUNDLE"]
      [.level .short "--debug", .unknown "x", .flag .debug, .emptyLevel,
        .assignedLevel "BUNDLE"] :=
    .repeated .debug [] _ (by decide)
  have hlevel : Rearranged
      [.level .short "--debug", .unknown "x", .flag .debug, .emptyLevel, .assignedLevel "BUNDLE"]
      [.unknown "x", .flag .debug, .emptyLevel, .assignedLevel "BUNDLE"] :=
    .superseded rfl [] (by decide)
  have horder : Rearranged
      [.unknown "x", .flag .debug, .emptyLevel, .assignedLevel "BUNDLE"]
      [.unknown "x", .assignedLevel "BUNDLE", .emptyLevel, .flag .debug] :=
    .reordered (by decide) (by decide) (by decide)
  have h := (hflag.trans hlevel).trans horder
  have hts : ∀ t ∈ [flag .debug, level .short "--debug", unknown "x", flag .debug, emptyLevel,
      assignedLevel "BUNDLE"], t.Complete := by
    simp only [List.forall_mem_cons]
    exact ⟨.flag _, .level _ _, .unknown hx, .flag _, .emptyLevel, .assignedLevel hb, nofun⟩
  have hus : ∀ t ∈ [unknown "x", assignedLevel "BUNDLE", emptyLevel, flag .debug],
      t.Complete := by
    simp only [List.forall_mem_cons]
    exact ⟨.unknown hx, .assignedLevel hb, .emptyLevel, .flag _, nofun⟩
  obtain ⟨hparse, hrun⟩ := h.parse_eq_and_run_eq hts hus
  exact ⟨⟨h, hts, hus⟩, (hparse {} _ _ (by decide) (by decide)).2.1,
    hrun _ _ "tool" "tool" (by decide) (by decide)⟩

end Token

end OptionPresets
