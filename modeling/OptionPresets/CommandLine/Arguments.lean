/-!
# OptionPresets.CommandLine.Arguments

The arguments of a program in the form in which a program receives them: a
count and a vector of texts. The vector may be missing, and the count may be
zero or negative, in which case there are no arguments whatever the vector
holds; a count never exceeds the vector it comes with.

A suffix is taken by `drop`, which never looks past the count. Reading outside
the arguments gives the empty text, so a reader need not test its positions:

* `size_drop` — dropping takes away as many arguments as there are to take;
* `textAt_drop` — the arguments that remain are the later ones, in order;
* `toList_drop` — as a list of texts, a suffix is a suffix.
-/

namespace OptionPresets

/-- A count of arguments and the texts they are taken from. -/
structure Arguments where
  count : Int
  texts : Option (List String)
  count_le : ∀ ts, texts = some ts → count ≤ ts.length

namespace Arguments

/-- The arguments with the given texts. -/
def ofList (ts : List String) : Arguments where
  count := ts.length
  texts := some ts
  count_le := by rintro _ ⟨⟩; exact Int.le_refl _

/-- No arguments at all. -/
def empty : Arguments := ⟨0, none, nofun⟩

/-! ## reading -/

/-- Whether there are no arguments. -/
def isEmpty (a : Arguments) : Bool := a.count ≤ 0 || a.texts.isNone

/-- The number of arguments. -/
def size (a : Arguments) : Nat := if a.isEmpty then 0 else a.count.toNat

/-- The argument at a position, if the position is among the arguments. -/
def get? (a : Arguments) (i : Int) : Option String :=
  if 0 ≤ i ∧ i < a.count then a.texts.bind (·[i.toNat]?) else none

/-- The argument at a position, and the empty text at every other position. -/
def textAt (a : Arguments) (i : Int) : String := (a.get? i).getD ""

/-- The texts of the arguments. -/
def toList (a : Arguments) : List String := (a.texts.getD []).take a.count.toNat

/-! ## suffixes -/

/-- The arguments after the first `n`. -/
def drop (a : Arguments) (n : Nat) : Arguments :=
  if h : a.count ≤ n then empty
  else
    { count := a.count - n
      texts := a.texts.map (·.drop n)
      count_le := by
        intro ts hts
        obtain ⟨us, hus, rfl⟩ := Option.map_eq_some_iff.1 hts
        have := a.count_le us hus
        rw [List.length_drop]
        omega }

/-! ## the list view -/

@[simp] theorem toList_ofList (ts : List String) : (ofList ts).toList = ts := by
  simp [toList, ofList]

@[simp] theorem toList_empty : empty.toList = [] := rfl

/-- The number of arguments is the length of their list. -/
theorem size_eq_length (a : Arguments) : a.size = a.toList.length := by
  obtain ⟨count, texts, hle⟩ := a
  cases texts with
  | none => simp [size, isEmpty, toList]
  | some ts =>
    have := hle ts rfl
    by_cases h : count ≤ 0
    · simp [size, isEmpty, toList, h, Int.toNat_of_nonpos h]
    · simp only [size, isEmpty, toList, h, decide_false, Option.isNone_some, Bool.or_self,
        Bool.false_eq_true, if_false, Option.getD_some, List.length_take]
      omega

/-- There are no arguments exactly if their list is empty. -/
theorem isEmpty_iff {a : Arguments} : a.isEmpty ↔ a.toList = [] := by
  rw [← List.length_eq_zero_iff, ← size_eq_length, size]
  cases h : a.isEmpty with
  | true => simp
  | false =>
    obtain ⟨hc, -⟩ : ¬ a.count ≤ 0 ∧ a.texts.isNone = false := by simpa [isEmpty] using h
    have : a.count.toNat ≠ 0 := by omega
    simpa using this

/-- The argument at a position is the one in the list. -/
theorem get?_natCast (a : Arguments) (i : Nat) : a.get? i = a.toList[i]? := by
  obtain ⟨count, texts, hle⟩ := a
  cases texts with
  | none => simp [get?, toList]
  | some ts =>
    simp only [get?, toList, Option.bind_some, Option.getD_some, Int.toNat_natCast,
      List.getElem?_take]
    by_cases h : (i : Int) < count
    · rw [if_pos ⟨by omega, h⟩, if_pos (by omega)]
    · rw [if_neg (by omega), if_neg (by omega)]

/-- No argument has a negative position. -/
theorem get?_of_neg (a : Arguments) {i : Int} (h : i < 0) : a.get? i = none := by
  rw [get?, if_neg (by omega)]

/-- A suffix of the arguments is a suffix of their list. -/
@[simp] theorem toList_drop (a : Arguments) (n : Nat) : (a.drop n).toList = a.toList.drop n := by
  obtain ⟨count, texts, hle⟩ := a
  by_cases h : count ≤ n
  · have hl : (List.take count.toNat (texts.getD [])).length ≤ n := by
      rw [List.length_take]
      omega
    rw [drop, dif_pos h, toList_empty, toList, List.drop_eq_nil_of_le hl]
  · have hn : (count - n).toNat = count.toNat - n := by omega
    cases texts with
    | none => simp [drop, h, toList]
    | some ts => simp [drop, h, toList, hn, List.drop_take]

/-- Dropping takes away as many arguments as there are to take. -/
theorem size_drop (a : Arguments) (n : Nat) : (a.drop n).size = a.size - n := by
  simp [size_eq_length]

/-- The arguments that remain are the later ones, in order. -/
theorem textAt_drop (a : Arguments) (n i : Nat) : (a.drop n).textAt i = a.textAt (n + i : Nat) := by
  simp only [textAt, get?_natCast, toList_drop, List.getElem?_drop]

end Arguments

end OptionPresets
