set_option autoImplicit false

namespace WordExport.Text

/-- Cuts a text at its line feeds. There is one more line than line feeds. -/
def lines : List Char → List (List Char)
  | [] => [[]]
  | c :: cs =>
    if c = '\n' then [] :: lines cs
    else
      match lines cs with
      | line :: below => (c :: line) :: below
      | [] => [[c]]

theorem lines_ne_nil (cs : List Char) : lines cs ≠ [] := by
  cases cs with
  | nil => simp [lines]
  | cons c cs =>
    simp only [lines]
    split
    · simp
    · split <;> simp

theorem intercalate_lines (cs : List Char) : List.intercalate ['\n'] (lines cs) = cs := by
  induction cs with
  | nil => rfl
  | cons c cs ih =>
    simp only [lines]
    split
    · next feed => rw [List.intercalate_cons_of_ne_nil (lines_ne_nil cs), ih, feed]; rfl
    · split
      · next line below cut => rw [List.intercalate_cons_cons_left, ← cut, ih]
      · next cut => exact absurd cut (lines_ne_nil cs)

theorem feed_not_mem_of_mem_lines {cs line : List Char} (isLine : line ∈ lines cs) :
    '\n' ∉ line := by
  induction cs generalizing line with
  | nil =>
    rw [lines, List.mem_singleton] at isLine
    simp [isLine]
  | cons c cs ih =>
    simp only [lines] at isLine
    split at isLine
    · rcases List.mem_cons.mp isLine with rfl | isLater
      · exact List.not_mem_nil
      · exact ih isLater
    · next noFeed =>
      split at isLine
      · next first below cut =>
        rw [cut] at ih
        rcases List.mem_cons.mp isLine with rfl | isLater
        · have plain := ih (List.mem_cons_self (a := first))
          simp only [List.mem_cons, not_or]
          exact ⟨fun same => noFeed same.symm, plain⟩
        · exact ih (List.mem_cons_of_mem _ isLater)
      · next cut => exact absurd cut (lines_ne_nil cs)

end WordExport.Text
