import OptionPresets.CommandLine.Token

/-!
# OptionPresets.Proofs.CommandLine.Segments

Which tokens a command line consists of, said without a scanner. The relation
`Segments xs ts` lists the forms that a token can have at the front of the
arguments `xs`; the only form that looks further than one argument is a level
flag, which takes whatever comes next.

The forms cover every argument (`forms`), so there is a segmentation. They also
exclude each other: away from a level with its value, a scan is the token of the
first argument in front of the scan of the others (`scan_cons`), so scanning
finds every segmentation, and there is only one (`segments_iff`).
-/

namespace OptionPresets

namespace Token

/-! ## the forms of a token -/

/-- An argument of no form that the tool knows. -/
structure Plain (arg : String) : Prop where
  ne_flag : ∀ f : Flag, arg ≠ f.text
  ne_levelFlag : ∀ f : LevelFlag, arg ≠ f.text
  ne_assigned : ∀ value : String, arg ≠ LevelFlag.lead ++ value

/-- Cut from left to right, the arguments are these tokens. -/
inductive Segments : List String → List Token → Prop
  | nil : Segments [] []
  | flag (f : Flag) (h : Segments xs ts) : Segments (f.text :: xs) (.flag f :: ts)
  /-- A level flag takes the next argument with it, whatever that is. -/
  | level (f : LevelFlag) (value : String) (h : Segments xs ts) :
      Segments (f.text :: value :: xs) (.level f value :: ts)
  | assignedLevel {value : String} (hv : value ≠ "") (h : Segments xs ts) :
      Segments ((LevelFlag.lead ++ value) :: xs) (.assignedLevel value :: ts)
  /-- Only at the end a level flag finds no argument to take. -/
  | missingLevel (f : LevelFlag) : Segments [f.text] [.missingLevel f]
  | emptyLevel (h : Segments xs ts) : Segments (LevelFlag.lead :: xs) (.emptyLevel :: ts)
  | unknown {arg : String} (ha : Plain arg) (h : Segments xs ts) :
      Segments (arg :: xs) (.unknown arg :: ts)

/-- The forms cover every argument. -/
theorem forms (arg : String) :
    (∃ f : Flag, arg = f.text) ∨ (∃ f : LevelFlag, arg = f.text) ∨
      (∃ value, arg = LevelFlag.lead ++ value) ∨ Plain arg := by
  by_cases hf : ∃ f : Flag, arg = f.text
  · exact .inl hf
  · by_cases hl : ∃ f : LevelFlag, arg = f.text
    · exact .inr (.inl hl)
    · by_cases hv : ∃ value, arg = LevelFlag.lead ++ value
      · exact .inr (.inr (.inl hv))
      · exact .inr (.inr (.inr ⟨not_exists.1 hf, not_exists.1 hl, not_exists.1 hv⟩))

/-- Every command line has a segmentation. -/
theorem exists_segments : (xs : List String) → ∃ ts, Segments xs ts
  | [] => ⟨[], .nil⟩
  | arg :: xs => by
      obtain ⟨ts, h⟩ := exists_segments xs
      obtain ⟨f, rfl⟩ | ⟨f, rfl⟩ | ⟨value, rfl⟩ | ha := forms arg
      · exact ⟨_, .flag f h⟩
      · cases xs with
        | nil => exact ⟨_, .missingLevel f⟩
        | cons value rest =>
            obtain ⟨us, hr⟩ := exists_segments rest
            exact ⟨_, .level f value hr⟩
      · by_cases hv : value = ""
        · rw [hv, String.append_empty]
          exact ⟨_, .emptyLevel h⟩
        · exact ⟨_, .assignedLevel hv h⟩
      · exact ⟨_, .unknown ha h⟩

/-! ## the forms exclude each other -/

theorem assigned?_flag (f : Flag) : LevelFlag.assigned? f.text = none := by
  cases f <;> decide

theorem assigned?_levelFlag (f : LevelFlag) : LevelFlag.assigned? f.text = none := by
  cases f <;> decide

theorem levelFlag_flag (f : Flag) : LevelFlag.ofText? f.text = none := by
  cases f <;> decide

/-- A level flag with a value behind an equals sign is not the level flag alone. -/
theorem levelFlag_assigned (value : String) :
    LevelFlag.ofText? (LevelFlag.lead ++ value) = none := by
  cases h : LevelFlag.ofText? (LevelFlag.lead ++ value) with
  | none => rfl
  | some f =>
      have hf : f.text = LevelFlag.lead ++ value := (LevelFlag.ofText?_eq_some_iff.1 h).symm
      have hn := assigned?_levelFlag f
      rw [LevelFlag.assigned?_eq_some_iff.2 hf] at hn
      contradiction

/-! ## reading each form -/

theorem read_flag (f : Flag) (next? : Option String) : read f.text next? = flag f := by
  simp [read, levelFlag_flag, assigned?_flag]

theorem read_level (f : LevelFlag) (value : String) :
    read f.text (some value) = level f value := by
  simp [read]

theorem read_missingLevel (f : LevelFlag) : read f.text none = missingLevel f := by
  simp [read]

theorem read_assigned (value : String) (next? : Option String) :
    read (LevelFlag.lead ++ value) next? =
      if value = "" then emptyLevel else assignedLevel value := by
  have ha : LevelFlag.assigned? (LevelFlag.lead ++ value) = some value :=
    LevelFlag.assigned?_eq_some_iff.2 rfl
  simp only [read, levelFlag_assigned, ha]

theorem read_assignedLevel {value : String} (hv : value ≠ "") (next? : Option String) :
    read (LevelFlag.lead ++ value) next? = assignedLevel value := by
  rw [read_assigned, if_neg hv]

theorem read_emptyLevel (next? : Option String) : read LevelFlag.lead next? = emptyLevel := by
  have h := read_assigned "" next?
  rw [String.append_empty, if_pos rfl] at h
  exact h

theorem read_unknown {arg : String} (ha : Plain arg) (next? : Option String) :
    read arg next? = unknown arg := by
  have hl : LevelFlag.ofText? arg = none := by
    cases h : LevelFlag.ofText? arg with
    | none => rfl
    | some f => exact absurd (LevelFlag.ofText?_eq_some_iff.1 h) (ha.ne_levelFlag f)
  have hs : LevelFlag.assigned? arg = none := by
    cases h : LevelFlag.assigned? arg with
    | none => rfl
    | some value => exact absurd (LevelFlag.assigned?_eq_some_iff.1 h) (ha.ne_assigned value)
  have hf : Flag.ofText? arg = none := by
    cases h : Flag.ofText? arg with
    | none => rfl
    | some f => exact absurd (Flag.ofText?_eq_some_iff.1 h) (ha.ne_flag f)
  simp only [read, hl, hs, hf]

/-! ## scanning -/

/-- Unless the first argument takes the second one, it is scanned on its own. -/
theorem scan_cons {arg : String} {xs : List String}
    (h : ∀ f value, read arg xs.head? ≠ level f value) :
    scan (arg :: xs) = read arg xs.head? :: scan xs := by
  cases xs with
  | nil => rfl
  | cons next rest =>
      rw [List.head?_cons] at h ⊢
      rw [scan]
      split
      · next f value hr => exact absurd hr (h f value)
      · rfl

theorem scan_level (f : LevelFlag) (value : String) (xs : List String) :
    scan (f.text :: value :: xs) = level f value :: scan xs := by
  rw [scan, read_level]

/-- Scanning finds every segmentation. -/
theorem Segments.scan_eq (h : Segments xs ts) : scan xs = ts := by
  induction h with
  | nil => rfl
  | flag f h ih => rw [scan_cons (by simp [read_flag]), read_flag, ih]
  | level f value h ih => rw [scan_level, ih]
  | assignedLevel hv h ih =>
      rw [scan_cons (by simp [read_assignedLevel hv]), read_assignedLevel hv, ih]
  | missingLevel f => rw [scan, read_missingLevel]
  | emptyLevel h ih => rw [scan_cons (by simp [read_emptyLevel]), read_emptyLevel, ih]
  | unknown ha h ih => rw [scan_cons (by simp [read_unknown ha]), read_unknown ha, ih]

/-- A command line has one segmentation, the one that scanning finds. -/
theorem segments_iff : Segments xs ts ↔ ts = scan xs := by
  constructor
  · intro h
    exact h.scan_eq.symm
  · rintro rfl
    obtain ⟨us, h⟩ := exists_segments xs
    rw [h.scan_eq]
    exact h

theorem segments_scan (xs : List String) : Segments xs (scan xs) := segments_iff.2 rfl

end Token

end OptionPresets
