import OptionPresets.CommandLine.Session

/-!
# OptionPresets.CommandLine.Word

Counts and positions are integers in this library. Where arguments come from,
they are words of 32 bits, and a sum or difference that a word cannot hold has
no meaning. This module does the work of `CommandLine.Arguments` and
`CommandLine.Session` once more in words: each sum and difference is formed where
it is needed, and the result is missing if one of them does not fit.

If the count of the arguments fits, there is a result, and it is the one in
integers: `Arguments.drop?_eq_some` for a drop, and `Session.readAt?_eq_some` of
`Proofs.CommandLine.Reading` for a call of the reader.
-/

namespace OptionPresets

/-! ## words -/

namespace Word

/-- A word holds the number. -/
def Fits (n : Int) : Prop := -2147483648 ≤ n ∧ n ≤ 2147483647

instance (n : Int) : Decidable (Fits n) := inferInstanceAs (Decidable (_ ∧ _))

/-- The number as a word, if a word holds it. -/
def ofInt? (n : Int) : Option Int := if Fits n then some n else none

theorem ofInt?_of_fits {n : Int} (h : Fits n) : ofInt? n = some n := if_pos h

theorem ofInt?_eq_some_iff {m n : Int} : ofInt? m = some n ↔ Fits m ∧ m = n := by
  simp [ofInt?]

/-- The sum of two words. -/
def add? (m n : Int) : Option Int := ofInt? (m + n)

/-- The difference of two words. -/
def sub? (m n : Int) : Option Int := ofInt? (m - n)

end Word

/-! ## arguments -/

namespace Arguments

/-- The arguments after the first `n`. The difference is only formed if there are more than `n`. -/
def drop? (a : Arguments) (n : Nat) : Option Arguments :=
  if a.count ≤ n then some empty
  else
    match h : Word.sub? a.count n with
    | none => none
    | some count => some
        { count := count
          texts := a.texts.map (·.drop n)
          count_le := by
            intro ts hts
            obtain ⟨-, hcount⟩ := Word.ofInt?_eq_some_iff.1 h
            obtain ⟨us, hus, rfl⟩ := Option.map_eq_some_iff.1 hts
            have := a.count_le us hus
            rw [List.length_drop]
            omega }

/-- A suffix is taken in words if the count fits. -/
theorem drop?_eq_some {a : Arguments} (h : Word.Fits a.count) (n : Nat) :
    a.drop? n = some (a.drop n) := by
  unfold drop? drop
  by_cases hn : a.count ≤ n
  · rw [if_pos hn, dif_pos hn]
  · have hfits : Word.Fits (a.count - n) := by
      unfold Word.Fits at h ⊢
      omega
    rw [if_neg hn, dif_neg hn]
    split
    · next hsub =>
      rw [Word.sub?, Word.ofInt?_of_fits hfits] at hsub
      contradiction
    · next count hsub =>
      obtain ⟨-, rfl⟩ := Word.ofInt?_eq_some_iff.1 hsub
      rfl

end Arguments

/-! ## sessions -/

namespace Session

/-- Read the token at a position. The next position is only formed behind a level flag. -/
def readAt? (s : Session) (args : Arguments) (i : Int) : Option Progress :=
  match LevelFlag.ofText? (args.textAt i) with
  | some f => (Word.add? i 1).map fun next =>
      if (args.size : Int) ≤ next then ⟨.malformed, i, s.take (.missingLevel f)⟩
      else ⟨.parsed, next, s.take (.level f (args.textAt next))⟩
  | none => some <|
      match LevelFlag.assigned? (args.textAt i) with
      | some value =>
          if value = "" then ⟨.malformed, i, s.take .emptyLevel⟩
          else ⟨.parsed, i, s.take (.assignedLevel value)⟩
      | none =>
          match Flag.ofText? (args.textAt i) with
          | some f => ⟨.parsed, i, s.take (.flag f)⟩
          | none => ⟨.notMatched, i, s⟩

/-- Read the token at a position and put on record an argument that is no flag. -/
def advance? (s : Session) (args : Arguments) (i : Int) : Option Progress :=
  (s.readAt? args i).map fun p =>
    match p.reading with
    | .notMatched => { p with session := p.session.take (.unknown (args.textAt p.position)) }
    | .parsed | .malformed => p

end Session

end OptionPresets
