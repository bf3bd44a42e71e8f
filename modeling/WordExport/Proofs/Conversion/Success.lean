import WordExport.Conversion.Basic

set_option autoImplicit false

namespace WordExport.Conversion

variable {α β γ : Type}

theorem pure_eq_ok {value : α} {noted : Noted α} :
    (Pure.pure value : Conversion α) = .ok noted ↔ noted = { value } := by
  constructor
  · intro success
    exact (Except.ok.inj success).symm
  · rintro rfl
    rfl

theorem fail_ne_ok {error : Error} {noted : Noted α} : (fail error : Conversion α) ≠ .ok noted := by
  intro success
  cases success

/-- A sequence succeeds exactly where both steps do, with the footnotes of the first step before
those of the second. -/
theorem bind_eq_ok {first : Conversion α} {next : α → Conversion β} {noted : Noted β} :
    first >>= next = .ok noted ↔
      ∃ earlier later, first = .ok earlier ∧ next earlier.value = .ok later ∧
        noted = ⟨later.value, earlier.definitions ++ later.definitions,
          earlier.references ++ later.references⟩ := by
  rcases first with fault | earlier
  · constructor
    · intro success
      cases success
    · rintro ⟨_, _, success, -⟩
      cases success
  · change Conversion.bind (.ok earlier) next = .ok noted ↔ _
    rcases step : next earlier.value with fault | later
    · simp only [Conversion.bind, step]
      constructor
      · intro success
        cases success
      · rintro ⟨_, _, same, success, -⟩
        cases same
        rw [step] at success
        cases success
    · simp only [Conversion.bind, step]
      constructor
      · intro success
        cases success
        exact ⟨earlier, later, rfl, step, rfl⟩
      · rintro ⟨_, _, same, success, rfl⟩
        cases same
        rw [step] at success
        cases success
        rfl

/-- Two steps whose values are joined succeed exactly where both do. -/
theorem join_eq_ok {first : Conversion α} {second : Conversion β} {join : α → β → γ}
    {noted : Noted γ} :
    (first >>= fun value => second >>= fun next => Pure.pure (join value next)) = .ok noted ↔
      ∃ earlier later, first = .ok earlier ∧ second = .ok later ∧
        noted = ⟨join earlier.value later.value, earlier.definitions ++ later.definitions,
          earlier.references ++ later.references⟩ := by
  simp only [bind_eq_ok, pure_eq_ok]
  constructor
  · rintro ⟨earlier, _, succeeds, ⟨later, _, follows, rfl, rfl⟩, rfl⟩
    exact ⟨earlier, later, succeeds, follows, by simp only [List.append_nil]⟩
  · rintro ⟨earlier, later, succeeds, follows, rfl⟩
    exact ⟨earlier, _, succeeds, ⟨later, _, follows, rfl, rfl⟩, by simp only [List.append_nil]⟩

end WordExport.Conversion
