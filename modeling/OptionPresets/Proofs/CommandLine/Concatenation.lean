import OptionPresets.Proofs.CommandLine.Rearrangement

/-!
# OptionPresets.Proofs.CommandLine.Concatenation

Arguments put behind other arguments. The one token that can reach across the
seam is a level flag, which takes the first of the arguments behind it. So
arguments are `Ended` if no level flag among them is left without a value, and
then

* the tokens of a concatenation are the tokens of its parts (`Ended.scan_append`),
  and this holds of no other arguments (`ended_iff`);
* a session reads a concatenation as it reads the parts one after the other
  (`Session.parse_append`), and takes a token that is put in between in its place
  (`Session.parse_insert`).

All other arguments are `Unfinished`: at their end, behind arguments that have
ended, a level flag waits for its value. Read at once with the arguments behind
it, the flag takes the first of them; read in two parts, the flag is an error
and that argument begins a token of its own (`Torn`).
-/

namespace OptionPresets

namespace Token

/-- The arguments end where a token ends, so that whatever is put behind them begins another. -/
def Ended (xs : List String) : Prop := ∃ ts, Segments xs ts ∧ ∀ f, .missingLevel f ∉ ts

/-- A token that is not complete is a level flag without a value. -/
theorem Segments.complete_or {xs : List String} {ts : List Token} (h : Segments xs ts) :
    ∀ t ∈ ts, t.Complete ∨ ∃ f, t = .missingLevel f := by
  induction h with
  | nil => exact List.forall_mem_nil _
  | flag f h ih => exact List.forall_mem_cons.2 ⟨.inl (.flag f), ih⟩
  | level f value h ih => exact List.forall_mem_cons.2 ⟨.inl (.level f value), ih⟩
  | assignedLevel hv h ih => exact List.forall_mem_cons.2 ⟨.inl (.assignedLevel hv), ih⟩
  | missingLevel f => exact List.forall_mem_singleton.2 (.inr ⟨f, rfl⟩)
  | emptyLevel h ih => exact List.forall_mem_cons.2 ⟨.inl .emptyLevel, ih⟩
  | unknown ha h ih => exact List.forall_mem_cons.2 ⟨.inl (.unknown ha), ih⟩

/-- Tokens are written as the arguments that they were cut from. -/
theorem Segments.spell_eq {xs : List String} {ts : List Token} (h : Segments xs ts) :
    spell ts = xs := by
  rw [← h.scan_eq]
  exact flatMap_args_scan xs

/-- Behind arguments that have ended, tokens are those that the other arguments have by
themselves. -/
theorem Segments.append {xs ys : List String} {us vs : List Token} (h : Segments xs us)
    (hm : ∀ f, .missingLevel f ∉ us) (h' : Segments ys vs) :
    Segments (xs ++ ys) (us ++ vs) := by
  have hc : ∀ t ∈ us, t.Complete := by
    intro t ht
    obtain hc | ⟨f, rfl⟩ := h.complete_or t ht
    · exact hc
    · exact absurd ht (hm f)
  rw [← h.spell_eq]
  exact segments_spell_append hc h'

/-- A level flag finds no value only if no argument is left. -/
theorem Segments.eq_nil_of_missingLevel {xs : List String} {us vs : List Token} {f : LevelFlag}
    (h : Segments xs (us ++ .missingLevel f :: vs)) : vs = [] := by
  generalize hts : us ++ .missingLevel f :: vs = ts at h
  induction h generalizing us with
  | nil => simp at hts
  | missingLevel g =>
      cases us with
      | nil => exact (List.cons.inj hts).2
      | cons u us => simp at hts
  | flag g h ih | level g value h ih | assignedLevel hv h ih | emptyLevel h ih | unknown ha h ih =>
      cases us with
      | nil => simp at hts
      | cons u us => exact ih (List.cons.inj hts).2

theorem Ended.scan_append {xs : List String} (hx : Ended xs) (ys : List String) :
    scan (xs ++ ys) = scan xs ++ scan ys := by
  obtain ⟨us, h, hm⟩ := hx
  rw [(h.append hm (segments_scan ys)).scan_eq, h.scan_eq]

/-- Arguments have ended exactly if everything that can be put behind them is cut into tokens on
its own. -/
theorem ended_iff {xs : List String} :
    Ended xs ↔ ∀ ys, scan (xs ++ ys) = scan xs ++ scan ys := by
  constructor
  · exact Ended.scan_append
  · intro h
    refine ⟨scan xs, segments_scan xs, fun f hf => ?_⟩
    -- a flag that still waits for a value would have an argument left behind it
    obtain ⟨us, vs, hs⟩ := List.append_of_mem hf
    have hy := segments_iff.2 (h [""]).symm
    rw [hs, List.append_assoc, List.cons_append] at hy
    have hnil := hy.eq_nil_of_missingLevel
    simp [scan] at hnil

/-- A complete token is read as it was written, in its place behind arguments that have ended. -/
theorem Ended.segments_insert {xs : List String} (hx : Ended xs) {t : Token} (ht : t.Complete)
    (ys : List String) : Segments (xs ++ (t.args ++ ys)) (scan xs ++ t :: scan ys) := by
  rw [← (ht.segments_cons (segments_scan ys)).scan_eq, ← hx.scan_append]
  exact segments_scan _

/-! ## flags that wait for a value -/

/-- Cut into tokens, the arguments leave a level flag without a value at their end. -/
def Unfinished (f : LevelFlag) (xs : List String) : Prop :=
  ∃ ts, Segments xs (ts ++ [.missingLevel f])

/-- Arguments have not ended exactly if some level flag waits for a value behind them. -/
theorem not_ended_iff {xs : List String} : ¬ Ended xs ↔ ∃ f, Unfinished f xs := by
  constructor
  · intro hn
    have hm : ∃ f, .missingLevel f ∈ scan xs :=
      Classical.byContradiction fun hm => hn ⟨scan xs, segments_scan xs, not_exists.1 hm⟩
    obtain ⟨f, hf⟩ := hm
    obtain ⟨us, vs, hs⟩ := List.append_of_mem hf
    have h := segments_scan xs
    rw [hs] at h
    obtain rfl := h.eq_nil_of_missingLevel
    exact ⟨f, us, h⟩
  · rintro ⟨f, ts, h⟩ ⟨us, hu, hm⟩
    rw [← hu.scan_eq, h.scan_eq] at hm
    exact hm f (List.mem_append_right ts List.mem_cons_self)

/-- A flag that waits for a value is the last argument, and those before it have ended. -/
theorem Unfinished.exists_ended {f : LevelFlag} {xs : List String} (h : Unfinished f xs) :
    ∃ ys, Ended ys ∧ xs = ys ++ [f.text] := by
  obtain ⟨ts, h⟩ := h
  have hm : ∀ g, .missingLevel g ∉ ts := by
    intro g hg
    obtain ⟨us, vs, rfl⟩ := List.append_of_mem hg
    rw [List.append_assoc, List.cons_append] at h
    have hnil := h.eq_nil_of_missingLevel
    simp at hnil
  have hc : ∀ t ∈ ts, t.Complete := by
    intro t ht
    obtain hc | ⟨g, rfl⟩ := h.complete_or t (List.mem_append_left _ ht)
    · exact hc
    · exact absurd ht (hm g)
  refine ⟨spell ts, ⟨ts, segments_spell hc, hm⟩, ?_⟩
  rw [← h.spell_eq, spell, List.flatMap_append]
  rfl

end Token

namespace Session

/-- A session takes the tokens of its arguments, and sees nothing else of them. -/
theorem parse_eq_takeAll (s : Session) (args : Arguments) :
    s.parse args = s.takeAll (Token.scan args.toList) :=
  parse_of_segments (Token.segments_scan args.toList) s

theorem parse_congr {args args' : Arguments} (h : args.toList = args'.toList) (s : Session) :
    s.parse args = s.parse args' := by
  rw [parse_eq_takeAll, parse_eq_takeAll, h]

theorem log_parse (s : Session) (args : Arguments) :
    (s.parse args).log =
      s.log.reportAll ((Token.scan args.toList).filterMap Token.complaint?) := by
  rw [parse_eq_takeAll, log_takeAll]

theorem parse_ofList {xs : List String} {ts : List Token} (h : Token.Segments xs ts) (s : Session) :
    s.parse (.ofList xs) = s.takeAll ts := by
  rw [parse_eq_takeAll, Arguments.toList_ofList, h.scan_eq]

/-- What is reported about arguments does not depend on what was read before them. -/
theorem entries_parse (s : Session) (args : Arguments) :
    (s.parse args).log.entries = s.log.entries ++ (parse {} args).log.entries := by
  rw [log_parse, log_parse, Diagnostic.Log.entries_reportAll, Diagnostic.Log.entries_reportAll,
    List.nil_append]

/-- A level flag and a value by themselves set the level and leave no diagnostic. -/
theorem parse_level (s : Session) (f : LevelFlag) (value : String) :
    s.parse (.ofList [f.text, value]) = { s with settings.level := value } :=
  parse_ofList (.level f value .nil) s

section

variable {xs ys : List String} (hx : Token.Ended xs) {args : Arguments}

include hx

/-- Arguments that have ended can be read before the arguments that follow them. -/
theorem parse_append (h : args.toList = xs ++ ys) (s : Session) :
    s.parse args = (s.parse (.ofList xs)).parse (.ofList ys) := by
  simp only [parse_eq_takeAll, h, Arguments.toList_ofList, hx.scan_append, takeAll_append]

/-- A complete token among other arguments is taken between them. -/
theorem parse_insert {t : Token} (ht : t.Complete) (h : args.toList = xs ++ (t.args ++ ys))
    (s : Session) : s.parse args = ((s.parse (.ofList xs)).take t).parse (.ofList ys) := by
  have hs : Token.scan (t.args ++ ys) = t :: Token.scan ys :=
    (ht.segments_cons (Token.segments_scan ys)).scan_eq
  rw [parse_append hx h, parse_eq_takeAll _ (.ofList (t.args ++ ys)),
    parse_eq_takeAll _ (.ofList ys), Arguments.toList_ofList, Arguments.toList_ofList, hs]
  rfl

/-- Arguments at whose end a level flag waits for a value can be read before the flag, which is
then reported. -/
theorem parse_concat_levelFlag (f : LevelFlag) (h : args.toList = xs ++ [f.text]) (s : Session) :
    s.parse args = (s.parse (.ofList xs)).report ⟨.error, f.text, "missing level name"⟩ := by
  rw [parse_append hx h]
  exact parse_ofList (.missingLevel f) _

/-- A level flag among other arguments is read together with the argument behind it. -/
theorem parse_insert_level (f : LevelFlag) (value : String)
    (h : args.toList = xs ++ f.text :: value :: ys) (s : Session) :
    s.parse args =
      ((s.parse (.ofList xs)).parse (.ofList [f.text, value])).parse (.ofList ys) := by
  rw [parse_insert hx (.level f value) h, parse_level]
  rfl

end

end Session

/-! ## reading in two parts -/

/-- What the arguments `whole` come to, read at once and read in the parts `first` and `second`, if
the first part leaves the level flag `f` without a value and the second begins with `value`. -/
structure Torn (start : Session) (first second whole : Arguments) (f : LevelFlag) (value : String)
    (rest : List String) : Prop where
  /-- The flag is the last argument of the first part. -/
  first_eq : first.toList = first.toList.dropLast ++ [f.text]
  /-- At once, the flag is read together with the value. -/
  whole_eq : start.parse whole =
    ((start.parse (.ofList first.toList.dropLast)).parse (.ofList [f.text, value])).parse
      (.ofList rest)
  pair_eq : ∀ s : Session, s.parse (.ofList [f.text, value]) = { s with settings.level := value }
  /-- Nothing is reported about the flag. -/
  entries_whole : (start.parse whole).log.entries =
    (start.parse (.ofList first.toList.dropLast)).log.entries ++
      (Session.parse {} (.ofList rest)).log.entries
  /-- In two parts, the flag sets nothing. -/
  parts_eq : (start.parse first).parse second =
    ((start.parse (.ofList first.toList.dropLast)).report
      ⟨.error, f.text, "missing level name"⟩).parse (.ofList (value :: rest))
  /-- One error is reported about the flag. -/
  entries_parts : ((start.parse first).parse second).log.entries =
    (start.parse (.ofList first.toList.dropLast)).log.entries ++
      ⟨.error, f.text, "missing level name"⟩ ::
        (Session.parse {} (.ofList (value :: rest))).log.entries

namespace Session

/-- An unfinished first part is torn from the value that its flag waits for. -/
theorem torn {first second whole : Arguments} (h : whole.toList = first.toList ++ second.toList)
    {f : LevelFlag} (hf : Token.Unfinished f first.toList) {value : String} {rest : List String}
    (hs : second.toList = value :: rest) (start : Session) :
    Torn start first second whole f value rest := by
  obtain ⟨ys, hy, hfirst⟩ := hf.exists_ended
  have hlast : first.toList.dropLast = ys := by rw [hfirst, List.dropLast_concat]
  have hwhole : whole.toList = ys ++ f.text :: value :: rest := by
    rw [h, hfirst, hs, List.append_assoc, List.singleton_append]
  have hparts : (start.parse first).parse second =
      ((start.parse (.ofList ys)).report ⟨.error, f.text, "missing level name"⟩).parse
        (.ofList (value :: rest)) := by
    rw [parse_concat_levelFlag hy f hfirst]
    exact parse_congr (hs.trans (Arguments.toList_ofList _).symm) _
  constructor
  · rw [hlast, hfirst]
  · rw [hlast]
    exact parse_insert_level hy f value hwhole start
  · exact fun s => s.parse_level f value
  · rw [hlast, parse_insert_level hy f value hwhole, parse_level, entries_parse]
  · rw [hlast, hparts]
  · rw [hlast, hparts, entries_parse, report, Diagnostic.Log.entries_report, List.append_assoc,
      List.singleton_append]

/-- Reading arguments in two parts is reading them at once, unless a level flag waits for a value
at the end of the first part. Such a flag takes the first argument behind it if they are read at
once, and otherwise is reported and takes nothing. -/
theorem parse_parts_eq_unless_torn (start : Session) {first second whole : Arguments}
    (h : whole.toList = first.toList ++ second.toList) :
    ((∀ f, ¬ Token.Unfinished f first.toList) →
      ((start.parse first).parse second).settings = (start.parse whole).settings ∧
      ((start.parse first).parse second).log = (start.parse whole).log ∧
      ((start.parse first).parse second).ok = (start.parse whole).ok) ∧
    ∀ (f : LevelFlag) (value : String) (rest : List String),
      Token.Unfinished f first.toList → second.toList = value :: rest →
        Torn start first second whole f value rest := by
  constructor
  · intro hn
    have hx : Token.Ended first.toList :=
      Classical.byContradiction fun hx => not_exists.2 hn (Token.not_ended_iff.1 hx)
    have heq : (start.parse first).parse second = start.parse whole := by
      rw [parse_append hx h, parse_congr (Arguments.toList_ofList first.toList)]
      exact parse_congr (Arguments.toList_ofList second.toList).symm _
    rw [heq]
    exact ⟨rfl, rfl, rfl⟩
  · intro f value rest hf hs
    exact torn h hf hs start

/-- A level flag that takes another one as its value waits for nothing. Without that value it waits,
and what comes next would be a fault by itself. -/
theorem parse_parts_behind_debug :
    ((∀ f, ¬ Token.Unfinished f ["--debug", "-O", "-O"]) ∧
      ((parse {} (.ofList ["--debug", "-O", "-O"])).parse (.ofList ["--trace"])).ok =
        (parse {} (.ofList ["--debug", "-O", "-O", "--trace"])).ok) ∧
    Token.Unfinished .short ["--debug", "-O"] ∧
      Torn {} (.ofList ["--debug", "-O"]) (.ofList ["--compilation_level=", "-O"])
        (.ofList ["--debug", "-O", "--compilation_level=", "-O"]) .short "--compilation_level="
        ["-O"] := by
  have hended : Token.Ended ["--debug", "-O", "-O"] :=
    ⟨_, .flag .debug (.level .short "-O" .nil), by simp⟩
  have hn : ∀ f, ¬ Token.Unfinished f ["--debug", "-O", "-O"] :=
    fun f hf => Token.not_ended_iff.2 ⟨f, hf⟩ hended
  have hf : Token.Unfinished .short ["--debug", "-O"] :=
    ⟨[.flag .debug], .flag .debug (.missingLevel .short)⟩
  have hwhole : (Arguments.ofList ["--debug", "-O", "-O", "--trace"]).toList =
      (Arguments.ofList ["--debug", "-O", "-O"]).toList ++ (Arguments.ofList ["--trace"]).toList :=
    rfl
  have hwhole' : (Arguments.ofList ["--debug", "-O", "--compilation_level=", "-O"]).toList =
      (Arguments.ofList ["--debug", "-O"]).toList ++
        (Arguments.ofList ["--compilation_level=", "-O"]).toList := rfl
  exact ⟨⟨hn, ((parse_parts_eq_unless_torn {} hwhole).1 hn).2.2⟩, hf,
    (parse_parts_eq_unless_torn {} hwhole').2 _ _ _ hf rfl⟩

end Session

end OptionPresets
