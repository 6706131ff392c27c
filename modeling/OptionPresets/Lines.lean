/-!
# OptionPresets.Lines

Texts made of newline-terminated lines, the shape of everything the tool
prints:

```
render [l₁, …, lₙ] = l₁ ++ "\n" ++ … ++ lₙ ++ "\n"
```

`read` cuts such a text back into its lines and refuses a text whose last
line is not terminated. A line is any text without a newline, and on those
the two are inverse to each other (`read_render`, `render_of_read`). This module
depends only on the Lean 4 core library.
-/

namespace OptionPresets.Lines

/-! ## writing lines -/

/-- Write every line and end it with a newline, so an empty list of lines is the empty text. -/
def render : List String → String
  | [] => ""
  | line :: rest => line ++ "\n" ++ render rest

@[simp] theorem render_nil : render [] = "" := rfl

@[simp] theorem render_cons (line : String) (rest : List String) :
    render (line :: rest) = line ++ "\n" ++ render rest := rfl

/-- The text is the lines, each with its newline, one after the other. -/
theorem render_eq_join (lines : List String) :
    render lines = String.join (lines.map (· ++ "\n")) := by
  induction lines with
  | nil => rfl
  | cons line lines ih => rw [render_cons, ih, List.map_cons, String.join_cons]

/-- Lines written one list after the other are the lines of both lists. -/
theorem render_append (xs ys : List String) : render (xs ++ ys) = render xs ++ render ys := by
  induction xs with
  | nil => simp
  | cons x xs ih => simp [ih, String.append_assoc]

/-! ## reading lines -/

/-- Cut characters at their newlines. The characters after the last newline would be an
unterminated line, so there must be none. -/
def cut : List Char → Option (List (List Char))
  | [] => some []
  | c :: cs =>
    if c = '\n' then (cut cs).map ([] :: ·)
    else
      match cut cs with
      | some (line :: rest) => some ((c :: line) :: rest)
      | _ => none

/-- A line without newlines, once terminated, is cut off whole. -/
theorem cut_append {line : List Char} (h : '\n' ∉ line) (cs : List Char) :
    cut (line ++ '\n' :: cs) = (cut cs).map (line :: ·) := by
  induction line with
  | nil => simp [cut]
  | cons c line ih =>
    have hc : c ≠ '\n' := fun he => h (he ▸ List.mem_cons_self)
    have hl : '\n' ∉ line := fun hm => h (List.mem_cons_of_mem _ hm)
    simp only [List.cons_append, cut, if_neg hc, ih hl]
    cases cut cs <;> rfl

/-- The lines of a text, or nothing if its last line has no newline. -/
def read (text : String) : Option (List String) :=
  (cut text.toList).map (·.map String.ofList)

@[simp] theorem read_empty : read "" = some [] := rfl

/-- Reading takes a terminated line off the front of any text. -/
theorem read_cons {line : String} (h : '\n' ∉ line.toList) (text : String) :
    read (line ++ "\n" ++ text) = (read text).map (line :: ·) := by
  have hn : "\n".toList = ['\n'] := rfl
  simp only [read, String.toList_append, hn, List.append_assoc, List.singleton_append,
    cut_append h, Option.map_map]
  cases cut text.toList <;> simp

/-- What is written as lines is read back as the same lines. -/
theorem read_render {ls : List String} (h : ∀ l ∈ ls, '\n' ∉ l.toList) :
    read (render ls) = some ls := by
  induction ls with
  | nil => rfl
  | cons l ls ih =>
    rw [render_cons, read_cons (h l List.mem_cons_self),
      ih fun x hx => h x (List.mem_cons_of_mem _ hx)]
    rfl

/-- Characters that can be cut are the lines, each with its newline. -/
theorem flatMap_of_cut {cs : List Char} {lines : List (List Char)} (h : cut cs = some lines) :
    lines.flatMap (· ++ ['\n']) = cs := by
  induction cs generalizing lines with
  | nil =>
    cases h
    rfl
  | cons c cs ih =>
    rw [cut] at h
    split at h
    · next hc =>
      obtain ⟨rest, hrest, rfl⟩ := Option.map_eq_some_iff.1 h
      rw [List.flatMap_cons, ih hrest, hc]
      rfl
    · split at h
      · next line rest hcut =>
        cases h
        have htail : (line ++ ['\n']) ++ rest.flatMap (· ++ ['\n']) = cs := ih hcut
        rw [List.flatMap_cons, List.cons_append, List.cons_append, htail]
      · contradiction

/-- A text that can be read is what its lines are written as. -/
theorem render_of_read {text : String} {ls : List String} (h : read text = some ls) :
    render ls = text := by
  obtain ⟨lines, hlines, rfl⟩ := Option.map_eq_some_iff.1 h
  have hrender (lines : List (List Char)) :
      (render (lines.map String.ofList)).toList = lines.flatMap (· ++ ['\n']) := by
    induction lines with
    | nil => rfl
    | cons line lines ih => simp [ih]
  apply String.toList_inj.1
  rw [hrender, flatMap_of_cut hlines]

/-! ## lines that stand for something -/

/-- If the line of each item is read back as the item, so are the lines of a list of items. -/
theorem mapM_map {write : α → String} {ofLine? : String → Option α} {items : List α}
    (h : ∀ a ∈ items, ofLine? (write a) = some a) :
    (items.map write).mapM ofLine? = some items := by
  induction items with
  | nil => rfl
  | cons a items ih =>
    have ha := h a List.mem_cons_self
    have hs := ih fun x hx => h x (List.mem_cons_of_mem _ hx)
    simp [ha, hs]

/-- If only the line of an item is read as that item, then only the lines of a list of items are
read as those items. -/
theorem map_of_mapM {write : α → String} {ofLine? : String → Option α}
    (h : ∀ line a, ofLine? line = some a → write a = line) {ls : List String} {items : List α}
    (hm : ls.mapM ofLine? = some items) : items.map write = ls := by
  induction ls generalizing items with
  | nil =>
    cases hm
    rfl
  | cons line ls ih =>
    rw [List.mapM_cons] at hm
    obtain ⟨a, ha, hm⟩ := Option.bind_eq_some_iff.1 hm
    obtain ⟨as, has, hm⟩ := Option.bind_eq_some_iff.1 hm
    cases hm
    rw [List.map_cons, h line a ha, ih has]

end OptionPresets.Lines
