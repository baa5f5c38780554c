/-
  The characters in the texts of numbers.

  A natural number is written in digits, and no number is written with a dollar sign,
  whatever its layout.
-/
import HpcBlueprint.Number

namespace HpcBlueprint

theorem not_mem_natText {c : Char} (h : c.isDigit = false) (n : Nat) :
    c ∉ (toString n).toList := by
  intro hmem
  rw [Nat.toString_eq_repr, Nat.toList_repr] at hmem
  rw [Nat.isDigit_of_mem_toDigits (by decide) (by decide) hmem] at h
  cases h

theorem dollar_not_mem_natText (n : Nat) : '$' ∉ (toString n).toList :=
  not_mem_natText (by decide) n

theorem dollar_not_mem_intText (n : Int) : '$' ∉ (toString n).toList := by
  cases n with
  | ofNat n => exact dollar_not_mem_natText n
  | negSucc n =>
      have htext : (toString (Int.negSucc n)).toList = '-' :: (toString (n + 1)).toList := by
        rw [Int.toString_eq_repr, Int.repr, String.toList_append]
        rfl
      rw [htext, List.mem_cons, not_or]
      exact ⟨by decide, dollar_not_mem_natText (n + 1)⟩

theorem FloatLayout.dollar_not_mem_digits (layout : FloatLayout) (d : Nat) (e : Int) :
    '$' ∉ (layout.digits d e).toList := by
  have hds : '$' ∉ Nat.toDigits 10 d := by
    rw [← Nat.toList_repr]
    exact dollar_not_mem_natText d
  have hzeros : ∀ n, '$' ∉ (zeros n).toList := by
    intro n h
    rw [zeros, String.toList_ofList, List.mem_replicate] at h
    exact absurd h.2 (by decide)
  have hpoint : '$' ∉ ".0".toList ∧ '$' ∉ ".".toList ∧ '$' ∉ "0.".toList ∧ '$' ∉ "e".toList := by
    decide
  obtain ⟨hzero, hdot, hlead, hexp⟩ := hpoint
  have hexponent : ∀ n : Int, '$' ∉ ("e" ++ toString n).toList := by
    intro n
    rw [String.toList_append, List.mem_append, not_or]
    exact ⟨hexp, dollar_not_mem_intText n⟩
  -- the layouts differ in where digits, zeros and the point stand; `hds` is all that is
  -- needed of the digits
  unfold digits
  extract_lets ds point positional
  clear_value positional point
  change '$' ∉ ds at hds
  split
  · split
    · simp only [String.toList_append, String.toList_ofList, List.mem_append, not_or]
      exact ⟨⟨hds, hzeros _⟩, hzero⟩
    · split
      · simp only [String.toList_append, String.toList_ofList, List.mem_append, not_or]
        exact ⟨⟨fun h => hds (List.mem_of_mem_take h), hdot⟩,
          fun h => hds (List.mem_of_mem_drop h)⟩
      · simp only [String.toList_append, String.toList_ofList, List.mem_append, not_or]
        exact ⟨⟨hlead, hzeros _⟩, hds⟩
  · cases hcases : ds with
    | nil => exact hexponent _
    | cons c rest =>
        rw [hcases, List.mem_cons, not_or] at hds
        cases rest with
        | nil =>
            simp only [String.toList_append, String.toList_ofList, List.mem_append, not_or,
              List.mem_singleton] at hds ⊢
            exact ⟨hds.1, hexponent _⟩
        | cons c' rest =>
            simp only [String.toList_append, String.toList_ofList, List.mem_append, not_or,
              List.mem_cons] at hds ⊢
            exact ⟨⟨hds.1, by decide, hds.2⟩, hexponent _⟩

/-- No number is written with a dollar sign. -/
theorem Number.dollar_not_mem_text (n : Number) : '$' ∉ n.text.toList := by
  cases n with
  | int n => exact dollar_not_mem_intText n
  | float x =>
      have hsign : '$' ∉ (if x.isNegative then "-" else "").toList := by split <;> decide
      simp only [text, FloatLayout.render]
      split
      · decide
      · split
        · rw [String.toList_append, List.mem_append, not_or]
          exact ⟨hsign, by decide⟩
        · split
          · rw [String.toList_append, List.mem_append, not_or]
            exact ⟨hsign, by decide⟩
          · rw [String.toList_append, List.mem_append, not_or]
            exact ⟨hsign, FloatLayout.dollar_not_mem_digits _ _ _⟩

end HpcBlueprint
