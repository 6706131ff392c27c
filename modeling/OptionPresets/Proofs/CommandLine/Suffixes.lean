import Mathlib.Algebra.Ring.Nat
import OptionPresets.CommandLine.Word

/-!
# OptionPresets.Proofs.CommandLine.Suffixes

What is left of arguments from which more and more is dropped from the front.
Neither how the count came to be nor whether there is a vector matters: behind
any drops that add up to `n`, the arguments are a suffix of the old ones.

```
position in the suffix      0   1   …   size - 1
position in the arguments   n  n+1  …   n + size - 1
```

A position outside the suffix finds nothing (`Follows.textAt_outside`), also a
negative one for which the old arguments hold a text at `n + i`. In words, no
difference that is formed on the way overflows (`dropAll?_eq_some`).
-/

namespace OptionPresets

namespace Arguments

/-- Arguments are their count and their vector. -/
theorem eq_of_count_of_texts {a b : Arguments} (hc : a.count = b.count) (ht : a.texts = b.texts) :
    a = b := by
  obtain ⟨count, texts, _⟩ := a
  obtain ⟨count', texts', _⟩ := b
  cases hc
  cases ht
  rfl

/-! ## positions -/

/-- A position at which there is an argument. -/
def Inside (a : Arguments) (i : Int) : Prop := 0 ≤ i ∧ i < a.size

instance (a : Arguments) (i : Int) : Decidable (a.Inside i) :=
  inferInstanceAs (Decidable (_ ∧ _))

theorem not_inside_of_neg (a : Arguments) {i : Int} (h : i < 0) : ¬ a.Inside i := by
  rintro ⟨h0, -⟩
  omega

theorem inside_natCast {a : Arguments} {i : Nat} : a.Inside i ↔ i < a.toList.length := by
  rw [Inside, size_eq_length]
  omega

/-- An argument is found exactly inside the arguments, and is the text at its position. -/
theorem get?_eq (a : Arguments) (i : Int) :
    (a.Inside i ∧ a.get? i = some (a.textAt i)) ∨ (¬ a.Inside i ∧ a.get? i = none) := by
  by_cases hneg : i < 0
  · exact .inr ⟨a.not_inside_of_neg hneg, a.get?_of_neg hneg⟩
  · obtain ⟨n, rfl⟩ := Int.eq_ofNat_of_zero_le (Int.not_lt.1 hneg)
    by_cases hn : n < a.toList.length
    · refine .inl ⟨inside_natCast.2 hn, ?_⟩
      rw [textAt, get?_natCast, List.getElem?_eq_getElem hn, Option.getD_some]
    · refine .inr ⟨fun h => hn (inside_natCast.1 h), ?_⟩
      rw [get?_natCast]
      exact List.getElem?_eq_none (Nat.le_of_not_lt hn)

theorem get?_of_inside {a : Arguments} {i : Int} (h : a.Inside i) :
    a.get? i = some (a.textAt i) := by
  obtain ⟨-, hget⟩ | ⟨hn, -⟩ := a.get?_eq i
  · exact hget
  · exact absurd h hn

theorem get?_of_not_inside {a : Arguments} {i : Int} (h : ¬ a.Inside i) : a.get? i = none := by
  obtain ⟨hi, -⟩ | ⟨-, hget⟩ := a.get?_eq i
  · exact absurd hi h
  · exact hget

/-- Outside the arguments every text is empty. -/
theorem textAt_of_not_inside {a : Arguments} {i : Int} (h : ¬ a.Inside i) : a.textAt i = "" := by
  rw [textAt, get?_of_not_inside h, Option.getD_none]

/-- There are no arguments exactly if their number is zero. -/
theorem isEmpty_iff_size {a : Arguments} : a.isEmpty ↔ a.size = 0 := by
  rw [isEmpty_iff, size_eq_length, List.length_eq_zero_iff]

/-! ## one drop -/

/-- Nothing is left if there are no more arguments than are dropped. -/
theorem drop_of_count_le {a : Arguments} {n : Nat} (h : a.count ≤ n) : a.drop n = empty :=
  dif_pos h

theorem count_drop_of_lt {a : Arguments} {n : Nat} (h : n < a.count) :
    (a.drop n).count = a.count - n := by
  rw [drop, dif_neg (Int.not_le.2 h)]

theorem texts_drop_of_lt {a : Arguments} {n : Nat} (h : n < a.count) :
    (a.drop n).texts = a.texts.map (·.drop n) := by
  rw [drop, dif_neg (Int.not_le.2 h)]

/-- A count that fits still fits after a drop. -/
theorem fits_count_drop {a : Arguments} (h : Word.Fits a.count) (n : Nat) :
    Word.Fits (a.drop n).count := by
  by_cases hn : a.count ≤ n
  · rw [drop_of_count_le hn]
    decide
  · rw [count_drop_of_lt (Int.not_le.1 hn)]
    unfold Word.Fits at h ⊢
    omega

/-- Two drops are one, up to the count and the vector. -/
theorem drop_drop (a : Arguments) (m n : Nat) : (a.drop m).drop n = a.drop (m + n) := by
  by_cases hm : a.count ≤ m
  · have hmn : a.count ≤ (m + n : Nat) := by omega
    rw [drop_of_count_le hm, drop_of_count_le hmn]
    exact drop_of_count_le (Int.natCast_nonneg n)
  · -- the first drop leaves something; the second may still take all of it
    have hcount := count_drop_of_lt (Int.not_le.1 hm)
    by_cases hmn : a.count ≤ (m + n : Nat)
    · have hn : (a.drop m).count ≤ n := by omega
      rw [drop_of_count_le hn, drop_of_count_le hmn]
    · have hn : n < (a.drop m).count := by omega
      apply eq_of_count_of_texts
      · rw [count_drop_of_lt hn, count_drop_of_lt (Int.not_le.1 hmn)]
        omega
      · rw [texts_drop_of_lt hn, texts_drop_of_lt (Int.not_le.1 hm),
          texts_drop_of_lt (Int.not_le.1 hmn), Option.map_map]
        congr 1
        funext ts
        exact List.drop_drop

/-! ## one drop after another -/

/-- Drop from the front as often as there are numbers, each time as many as the number says. -/
def dropAll (a : Arguments) (ns : List Nat) : Arguments := ns.foldl drop a

/-- The same in words. -/
def dropAll? (a : Arguments) (ns : List Nat) : Option Arguments := ns.foldlM drop? a

/-- In words, no difference overflows if the first count fits. -/
theorem dropAll?_eq_some {a : Arguments} (h : Word.Fits a.count) (ns : List Nat) :
    a.dropAll? ns = some (a.dropAll ns) := by
  induction ns generalizing a with
  | nil => rfl
  | cons n ns ih =>
      rw [dropAll?, List.foldlM_cons, drop?_eq_some h]
      exact ih (fits_count_drop h n)

/-! ## suffixes -/

/-- The arguments `b` are what is left of `a` behind its first `n`. -/
structure Follows (a : Arguments) (n : Nat) (b : Arguments) : Prop where
  size_eq : b.size = a.size - n
  isEmpty_iff : b.isEmpty ↔ b.size = 0
  textAt_inside : ∀ i : Int, b.Inside i → b.textAt i = a.textAt (n + i)
  textAt_outside : ∀ i : Int, ¬ b.Inside i → b.textAt i = ""

theorem Follows.refl (a : Arguments) : Follows a 0 a where
  size_eq := (Nat.sub_zero a.size).symm
  isEmpty_iff := isEmpty_iff_size
  textAt_inside i _ := by rw [Int.natCast_zero, Int.zero_add]
  textAt_outside _ hi := textAt_of_not_inside hi

/-- What is left behind some arguments and then some more is left behind all of them. -/
theorem Follows.drop {a b : Arguments} {m : Nat} (h : Follows a m b) (n : Nat) :
    Follows a (m + n) (b.drop n) where
  size_eq := by
    rw [size_drop, h.size_eq, Nat.sub_sub]
  isEmpty_iff := isEmpty_iff_size
  textAt_inside i hi := by
    obtain ⟨h0, hlt⟩ := hi
    obtain ⟨k, rfl⟩ := Int.eq_ofNat_of_zero_le h0
    have hinside : b.Inside (n + k : Nat) := by
      rw [size_drop] at hlt
      exact ⟨by omega, by omega⟩
    rw [textAt_drop, h.textAt_inside _ hinside]
    congr 1
    omega
  textAt_outside _ hi := textAt_of_not_inside hi

/-- After any drops the arguments follow as many as have been dropped together. -/
theorem Follows.dropAll {a b : Arguments} {m : Nat} (h : Follows a m b) (ns : List Nat) :
    Follows a (m + ns.sum) (b.dropAll ns) := by
  induction ns generalizing b m with
  | nil => exact h
  | cons n ns ih =>
      rw [List.sum_cons, ← Nat.add_assoc]
      exact ih (h.drop n)

/-- Dropping from the front any number of times leaves the suffix behind as many arguments as have
been dropped together, and no word overflows on the way. Two drops in a row are one. -/
theorem dropAll_follows {a : Arguments} (h : Word.Fits a.count) (ns : List Nat) :
    a.dropAll? ns = some (a.dropAll ns) ∧ Follows a ns.sum (a.dropAll ns) ∧
      ∀ m n : Nat, (a.drop m).drop n = a.drop (m + n) := by
  have hfollows := (Follows.refl a).dropAll ns
  rw [Nat.zero_add] at hfollows
  exact ⟨dropAll?_eq_some h ns, hfollows, a.drop_drop⟩

/-- Behind two of three arguments a negative position finds nothing, where the old arguments hold a
text. The least count there is loses nothing to a drop. -/
theorem dropAll_follows_one_by_one :
    (Word.Fits (ofList ["tool", "-O", "x"]).count ∧
      (ofList ["tool", "-O", "x"]).dropAll? [1, 0, 1] =
        some ((ofList ["tool", "-O", "x"]).dropAll [1, 0, 1]) ∧
      ((ofList ["tool", "-O", "x"]).dropAll [1, 0, 1]).size = 1 ∧
      ((ofList ["tool", "-O", "x"]).dropAll [1, 0, 1]).textAt 0 = "x" ∧
      ((ofList ["tool", "-O", "x"]).dropAll [1, 0, 1]).textAt (-1) = "" ∧
      (ofList ["tool", "-O", "x"]).textAt 1 = "-O") ∧
    Word.Fits (-2147483648) ∧
      (⟨-2147483648, none, nofun⟩ : Arguments).dropAll? [0, 1] =
        some ((⟨-2147483648, none, nofun⟩ : Arguments).dropAll [0, 1]) := by
  have hfits : Word.Fits (ofList ["tool", "-O", "x"]).count := by decide
  obtain ⟨hwords, hfollows, -⟩ := dropAll_follows hfits [1, 0, 1]
  have hsize : ((ofList ["tool", "-O", "x"]).dropAll [1, 0, 1]).size = 1 := hfollows.size_eq
  have hleast : Word.Fits (⟨-2147483648, none, nofun⟩ : Arguments).count := by decide
  refine ⟨⟨hfits, hwords, hsize, ?_, ?_, rfl⟩, hleast, (dropAll_follows hleast [0, 1]).1⟩
  · exact hfollows.textAt_inside 0 (by rw [Inside, hsize]; decide)
  · exact hfollows.textAt_outside (-1) (not_inside_of_neg _ (by decide))

end Arguments

end OptionPresets
