import OptionPresets.Proofs.CommandLine.Meaning
import OptionPresets.Proofs.CommandLine.Reading

/-!
# OptionPresets.Proofs.CommandLine.Turns

The loop over the arguments, turn by turn. A turn calls the reader once, at the
position behind the one at which the turn before it stopped, and puts an argument
that is no flag on record:

```
arguments   --debug   -O   x   y   -O
turn        1         2    2   3   4
```

`Turns` is this loop as a relation, in words: it has a derivation only if the
loop comes to an end and every position on the way fits into a word. It always
has one, and only one (`exists_turns`, `Turns.unique`).

The positions that the turns take, each its own and that of a value behind it,
are those of all arguments in order (`Turns.taken_eq`). So an argument is asked
about once or is the value of one level flag, and never both.
-/

namespace OptionPresets

/-! ## positions from one on -/

/-- The positions of the arguments from a position on, in order. -/
def Arguments.positionsFrom (a : Arguments) (i : Int) : List Int :=
  (List.range' i.toNat (a.size - i.toNat)).map Int.ofNat

namespace Arguments

theorem positionsFrom_of_inside {a : Arguments} {i : Int} (h : a.Inside i) :
    a.positionsFrom i = i :: a.positionsFrom (i + 1) := by
  obtain ⟨h0, hlt⟩ := h
  obtain ⟨n, rfl⟩ := Int.eq_ofNat_of_zero_le h0
  have hsize : a.size - n = (a.size - (n + 1)) + 1 := by omega
  have hsucc : ((n : Int) + 1).toNat = n + 1 := rfl
  rw [positionsFrom, positionsFrom, hsucc, Int.toNat_natCast, hsize, List.range'_succ,
    List.map_cons]
  rfl

theorem positionsFrom_of_size_le {a : Arguments} {i : Int} (h : a.size ≤ i) :
    a.positionsFrom i = [] := by
  have hsize : a.size - i.toNat = 0 := by omega
  rw [positionsFrom, hsize]
  rfl

/-- The positions of all arguments are in ascending order. -/
theorem pairwise_positionsFrom (a : Arguments) (i : Int) :
    (a.positionsFrom i).Pairwise (· < ·) := by
  refine List.Pairwise.map _ ?_ List.pairwise_lt_range'
  intro m n h
  exact Int.ofNat_lt.2 h

theorem mem_positionsFrom_zero {a : Arguments} {k : Int} :
    k ∈ a.positionsFrom 0 ↔ a.Inside k := by
  simp only [positionsFrom, List.mem_map, List.mem_range'_1, Inside]
  constructor
  · rintro ⟨n, hn, rfl⟩
    simp only [Int.ofNat_eq_natCast]
    omega
  · rintro ⟨h0, hlt⟩
    exact ⟨k.toNat, by omega, Int.toNat_of_nonneg h0⟩

end Arguments

namespace Session

/-! ## one turn -/

variable {s t : Session} {args : Arguments} {i : Int}

theorem advance?_eq_some (hc : Word.Fits args.count) (s : Session) (i : Int) :
    s.advance? args i = some (s.advance args i) := by
  rw [advance?, readAt?_eq_some hc]
  rfl

theorem reading_advance (s : Session) (args : Arguments) (i : Int) :
    (s.advance args i).reading = (s.readAt args i).reading := by
  unfold advance
  simp only
  split <;> rfl

theorem position_advance (s : Session) (args : Arguments) (i : Int) :
    (s.advance args i).position = (s.readAt args i).position := by
  unfold advance
  simp only
  split <;> rfl

/-- A turn takes the token that begins at its position. -/
theorem session_advance (s : Session) (args : Arguments) (i : Int) :
    (s.advance args i).session = s.take (Token.read (args.textAt i) (args.get? (i + 1))) := by
  obtain ⟨r, h⟩ := s.advance_eq args i
  rw [h]

/-- A call succeeds exactly if there is nothing to complain about. -/
theorem reading_eq_parsed_iff : (s.readAt args i).reading = .parsed ↔
    (Token.read (args.textAt i) (args.get? (i + 1))).complaint? = none := by
  unfold readAt
  cases Token.read (args.textAt i) (args.get? (i + 1)) with
  | flag | level | assignedLevel | missingLevel | emptyLevel => simp [Token.complaint?]
  | unknown arg =>
      simp only [Token.complaint?]
      split <;> simp

/-- Taking a token reports its complaint, if there is one. -/
theorem log_take (s : Session) (token : Token) :
    (s.take token).log = s.log.reportAll token.complaint?.toList := by
  rw [← Token.fault?_eq, take]
  cases token.fault? <;> rfl

/-! ## the loop -/

/-- What one turn did: where it called the reader, with what result, and the position at which it
stopped. -/
structure Turn where
  start : Int
  reading : Reading
  stop : Int
  deriving DecidableEq, Repr

namespace Turn

/-- The position of the value that a turn took, if it took one. -/
def values (turn : Turn) : List Int := if turn.stop = turn.start then [] else [turn.stop]

/-- All positions of a turn. -/
def taken (turn : Turn) : List Int := turn.start :: turn.values

/-- What a turn reported about the argument at its start. -/
def complaint? (args : Arguments) (turn : Turn) : Option Diagnostic :=
  (Token.read (args.textAt turn.start) (args.get? (turn.start + 1))).complaint?

end Turn

/-- From a session and a position on, the loop makes these turns and leaves that session. -/
inductive Turns (args : Arguments) : Session → Int → List Turn → Session → Prop
  | done {s : Session} {i : Int} (h : ¬ i < args.size) : Turns args s i [] s
  | turn {s s' t : Session} {i j k : Int} {r : Reading} {ts : List Turn} (h : i < args.size)
      (hread : s.advance? args i = some ⟨r, k, s'⟩) (hnext : Word.add? k 1 = some j)
      (rest : Turns args s' j ts t) : Turns args s i (⟨i, r, k⟩ :: ts) t

/-- What one turn comes to, if the count of the arguments fits. -/
theorem eq_of_advance? (hc : Word.Fits args.count) {k : Int} {r : Reading}
    (h : s.advance? args i = some ⟨r, k, t⟩) :
    r = (s.readAt args i).reading ∧ k = (s.readAt args i).position ∧
      t = s.take (Token.read (args.textAt i) (args.get? (i + 1))) := by
  rw [advance?_eq_some hc, Option.some.injEq] at h
  rw [← reading_advance, ← position_advance, ← session_advance, h]
  exact ⟨rfl, rfl, rfl⟩

/-- Reading stops at its own position or at the value right behind it. -/
theorem position_readAt (hi : args.Inside i) (s : Session) :
    args.Inside (s.readAt args i).position ∧
      ((s.readAt args i).position = i ∨ (s.readAt args i).position = i + 1) := by
  have hcontained := (s.reads args i).contained
  by_cases hm : (s.readAt args i).position = i
  · rw [hm]
    exact ⟨hi, .inl rfl⟩
  · obtain ⟨-, hnext, hlt, -⟩ := hcontained.of_moved hm
    have h0 := hi.1
    exact ⟨⟨by omega, hlt⟩, .inr hnext⟩

/-- The loop goes one way only. -/
theorem Turns.unique {ts us : List Turn} {u : Session} (h : Turns args s i ts t)
    (h' : Turns args s i us u) : us = ts ∧ u = t := by
  induction h generalizing us with
  | done hn =>
      cases h' with
      | done => exact ⟨rfl, rfl⟩
      | turn hlt => contradiction
  | turn hlt hread hnext rest ih =>
      cases h' with
      | done hn => contradiction
      | turn hlt' hread' hnext' rest' =>
          rw [hread] at hread'
          cases hread'
          rw [hnext] at hnext'
          cases hnext'
          obtain ⟨rfl, rfl⟩ := ih rest'
          exact ⟨rfl, rfl⟩

section

variable (hc : Word.Fits args.count)

include hc

/-- The loop comes to an end, with the session that the arguments are read to. -/
theorem exists_turns (s : Session) (h0 : 0 ≤ i) :
    ∃ ts, Turns args s i ts (s.parseFrom args i) := by
  -- The loop is followed as it runs. A turn stops at an argument, so the position behind it fits.
  fun_induction parseFrom s args i with
  | case1 s i hlt ih =>
      have hi : args.Inside i := ⟨h0, hlt⟩
      obtain ⟨hstop, -⟩ := position_readAt hi s
      rw [← position_advance] at hstop
      obtain ⟨ts, hts⟩ := ih (by have := hstop.1; omega)
      exact ⟨_, .turn hlt (advance?_eq_some hc s i)
        (Word.ofInt?_of_fits (Arguments.fits_succ_of_inside hc hstop)) hts⟩
  | case2 s i hn => exact ⟨[], .done hn⟩

/-! ## what the turns take -/

/-- The positions of the turns are those of the arguments that are left, in order. -/
theorem Turns.taken_eq {ts : List Turn} (h : Turns args s i ts t) (h0 : 0 ≤ i) :
    ts.flatMap Turn.taken = args.positionsFrom i := by
  induction h with
  | done hn =>
      rw [Arguments.positionsFrom_of_size_le (Int.not_lt.1 hn)]
      rfl
  | @turn s _ _ i _ _ _ ts hlt hread hnext rest ih =>
      have hi : args.Inside i := ⟨h0, hlt⟩
      obtain ⟨-, rfl, -⟩ := eq_of_advance? hc hread
      obtain ⟨-, rfl⟩ := Word.ofInt?_eq_some_iff.1 hnext
      -- a turn that takes no value stops where it started, any other one behind that
      obtain ⟨hstop, heq | heq⟩ := position_readAt hi s
      · rw [List.flatMap_cons, ih (by omega), heq, Arguments.positionsFrom_of_inside hi]
        simp [Turn.taken, Turn.values]
      · rw [heq] at hstop
        have hne : i + 1 ≠ i := by omega
        rw [List.flatMap_cons, ih (by omega), heq, Arguments.positionsFrom_of_inside hi,
          Arguments.positionsFrom_of_inside hstop]
        simp [Turn.taken, Turn.values, hne]

/-- The turns report about the arguments at their starts, in order, and nothing else. -/
theorem Turns.log_eq {ts : List Turn} (h : Turns args s i ts t) :
    t.log = s.log.reportAll (ts.filterMap (Turn.complaint? args)) := by
  induction h with
  | done => rfl
  | @turn s _ _ i _ k r ts hlt hread hnext rest ih =>
      obtain ⟨-, -, rfl⟩ := eq_of_advance? hc hread
      have htake := log_take s (Token.read (args.textAt i) (args.get? (i + 1)))
      change _ = s.log.reportAll (Turn.complaint? args ⟨i, r, k⟩).toList at htake
      rw [ih, htake]
      cases hcomplaint : Turn.complaint? args ⟨i, r, k⟩ with
      | none =>
          rw [List.filterMap_cons_none hcomplaint]
          rfl
      | some d =>
          rw [List.filterMap_cons_some hcomplaint]
          rfl

/-- Every turn is a call of the reader. -/
theorem Turns.exists_readAt {ts : List Turn} (h : Turns args s i ts t) {turn : Turn}
    (hturn : turn ∈ ts) : ∃ s' : Session,
      turn.reading = (s'.readAt args turn.start).reading ∧
      turn.stop = (s'.readAt args turn.start).position := by
  induction h with
  | done => contradiction
  | @turn s _ _ _ _ _ _ _ hlt hread hnext rest ih =>
      rcases List.mem_cons.1 hturn with rfl | hmem
      · obtain ⟨hr, hk, -⟩ := eq_of_advance? hc hread
        exact ⟨s, hr, hk⟩
      · exact ih hmem

end

namespace Turn

/-- Each position that is taken is the start of a turn or that of a value. -/
theorem count_taken (ts : List Turn) (k : Int) :
    (ts.flatMap taken).count k = (ts.map start).count k + (ts.flatMap values).count k := by
  induction ts with
  | nil => rfl
  | cons turn ts ih =>
      rw [List.flatMap_cons, List.flatMap_cons, List.map_cons, taken, List.cons_append,
        List.count_cons, List.count_cons, List.count_append, List.count_append, ih]
      omega

/-- The starts of turns are among the positions taken. -/
theorem starts_sublist (ts : List Turn) : (ts.map start).Sublist (ts.flatMap taken) := by
  induction ts with
  | nil => exact List.Sublist.slnil
  | cons turn ts ih =>
      rw [List.map_cons, List.flatMap_cons, taken, List.cons_append]
      exact (ih.trans (List.sublist_append_right _ _)).cons_cons _

end Turn

/-- What the turns of a loop over all arguments come to. -/
structure Visits (args : Arguments) (s : Session) (ts : List Turn) (t : Session) : Prop where
  /-- No position is asked about twice, and none after a later one. -/
  ascending : (ts.map Turn.start).Pairwise (· < ·)
  /-- An argument is asked about once or is the value of one turn. -/
  once : ∀ k : Int, (ts.map Turn.start).count k + (ts.flatMap Turn.values).count k =
    if args.Inside k then 1 else 0
  /-- Only level flags take values, each the argument behind it. -/
  values : ∀ turn ∈ ts, turn.values ≠ [] → turn.reading = .parsed ∧
    turn.values = [turn.start + 1] ∧ ∃ f : LevelFlag, args.textAt turn.start = f.text
  /-- There is one complaint about the start of each turn whose call did not succeed. -/
  complaint : ∀ turn ∈ ts, turn.complaint? args = none ↔ turn.reading = .parsed
  log_eq : t.log = s.log.reportAll (ts.filterMap (Turn.complaint? args))

theorem Turns.visits (hc : Word.Fits args.count) {ts : List Turn} (h : Turns args s 0 ts t) :
    Visits args s ts t where
  ascending := by
    have hsub := Turn.starts_sublist ts
    rw [h.taken_eq hc (Int.le_refl 0)] at hsub
    exact (args.pairwise_positionsFrom 0).sublist hsub
  once k := by
    have hnodup : (args.positionsFrom 0).Nodup :=
      (args.pairwise_positionsFrom 0).imp fun hlt => Int.ne_of_lt hlt
    rw [← Turn.count_taken, h.taken_eq hc (Int.le_refl 0), hnodup.count]
    simp only [Arguments.mem_positionsFrom_zero]
  values turn hturn hne := by
    obtain ⟨s', hreading, hstop⟩ := h.exists_readAt hc hturn
    have hcontained := (s'.reads args turn.start).contained
    have hmoved : turn.stop ≠ turn.start := by
      intro heq
      rw [Turn.values, if_pos heq] at hne
      contradiction
    rw [Turn.values, if_neg hmoved, hreading]
    rw [hstop] at hmoved ⊢
    obtain ⟨hparsed, hnext, -, -⟩ := hcontained.of_moved hmoved
    obtain ⟨f, hf, -⟩ := hcontained.moved_iff.1 hmoved
    exact ⟨hparsed, by rw [hnext], f, hf⟩
  complaint turn hturn := by
    obtain ⟨s', hreading, -⟩ := h.exists_readAt hc hturn
    rw [hreading, reading_eq_parsed_iff, Turn.complaint?]
  log_eq := h.log_eq hc

/-- A call of the reader changes what its result says and nothing else, looks no further than the
next argument, and forms no position that does not fit. So the loop over the arguments comes to an
end, in one way, and asks about each argument once unless it is the value of a level flag. -/
theorem calls_contained {args : Arguments} (hc : Word.Fits args.count) (s : Session) :
    (∀ i : Int, s.readAt? args i = some (s.readAt args i) ∧
      Contained s args i (s.readAt args i) ∧
      ∀ args' : Arguments, args'.textAt i = args.textAt i →
        args'.textAt (i + 1) = args.textAt (i + 1) →
        (args'.Inside (i + 1) ↔ args.Inside (i + 1)) → s.readAt args' i = s.readAt args i) ∧
    ∃ ts, Turns args s 0 ts (s.parse args) ∧
      (∀ us t, Turns args s 0 us t → us = ts ∧ t = s.parse args) ∧
      Visits args s ts (s.parse args) := by
  constructor
  · intro i
    have hreads := s.reads args i
    refine ⟨readAt?_eq_some hc s i, hreads.contained, ?_⟩
    intro args' htext hnext hin
    exact (hreads.congr htext hnext hin).readAt_eq
  · obtain ⟨ts, hts⟩ := exists_turns hc s (Int.le_refl 0)
    exact ⟨ts, hts, fun us t h => hts.unique h, hts.visits hc⟩

/-- A level flag behind another flag takes the one behind it, and each of the three is asked about
or taken once. At the greatest position there is nothing to match and no next position to form. -/
theorem calls_contained_behind_debug :
    Word.Fits (Arguments.ofList ["--debug", "-O", "-O"]).count ∧
    Contained {} (.ofList ["--debug", "-O", "-O"]) 1
      (readAt {} (.ofList ["--debug", "-O", "-O"]) 1) ∧
    (readAt {} (.ofList ["--debug", "-O", "-O"]) 1).position = 2 ∧
    readAt? {} (.ofList ["--debug", "-O", "-O"]) 2147483647 = some ⟨.notMatched, 2147483647, {}⟩ ∧
    ∃ ts, Turns (.ofList ["--debug", "-O", "-O"]) {} 0 ts
        (parse {} (.ofList ["--debug", "-O", "-O"])) ∧
      ∀ k ∈ [0, 1, 2], (ts.map Turn.start).count k + (ts.flatMap Turn.values).count k = 1 := by
  have hc : Word.Fits (Arguments.ofList ["--debug", "-O", "-O"]).count := by decide
  obtain ⟨hcalls, ts, hts, -, hvisits⟩ := calls_contained hc {}
  obtain ⟨-, hone, -⟩ := hcalls 1
  obtain ⟨hwords, hlast, -⟩ := hcalls 2147483647
  have hmoved := hone.of_moved (hone.moved_iff.2 ⟨.short, by decide, by decide⟩)
  have hplain := hlast.notMatched_iff.1 (hlast.outside (by decide))
  rw [(Reads.unknown hplain).readAt_eq] at hwords
  refine ⟨hc, hone, hmoved.2.1, hwords, ts, hts, ?_⟩
  intro k hk
  have hinside : (Arguments.ofList ["--debug", "-O", "-O"]).Inside k := by
    revert hk k
    decide
  rw [hvisits.once k, if_pos hinside]

end Session

end OptionPresets
