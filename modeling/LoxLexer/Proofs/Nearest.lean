import Mathlib

/-! Rounding to the nearest point of an ascending grid, where on a tie the point of even rank is
taken.  The point is told from the midpoints on both sides of it, and from there it follows that no
point is nearer and that rounding keeps the order. -/

namespace LoxLexer

variable {grid : ℕ → ℚ} {v w a b : ℚ} {n m : ℕ}

/-- The number lies between the midpoints on both sides of the point of this rank.  A midpoint
belongs to its even side. -/
structure Rounds (grid : ℕ → ℚ) (v : ℚ) (n : ℕ) : Prop where
  below : ∀ m, n = m + 1 → grid m + grid n ≤ 2 * v ∧ (grid m + grid n = 2 * v → Even n)
  above : 2 * v ≤ grid n + grid (n + 1) ∧ (2 * v = grid n + grid (n + 1) → Even n)

theorem abs_sub_right_le_iff (h : a < b) : |v - b| ≤ |v - a| ↔ a + b ≤ 2 * v := by
  rcases abs_cases (v - b) with ⟨hb, hbsign⟩ | ⟨hb, hbsign⟩ <;>
    rcases abs_cases (v - a) with ⟨ha, hasign⟩ | ⟨ha, hasign⟩ <;>
      rw [hb, ha] <;> constructor <;> intro <;> linarith

theorem abs_sub_left_le_iff (h : a < b) : |v - a| ≤ |v - b| ↔ 2 * v ≤ a + b := by
  rcases abs_cases (v - b) with ⟨hb, hbsign⟩ | ⟨hb, hbsign⟩ <;>
    rcases abs_cases (v - a) with ⟨ha, hasign⟩ | ⟨ha, hasign⟩ <;>
      rw [hb, ha] <;> constructor <;> intro <;> linarith

namespace Rounds

section

variable (hgrid : StrictMono grid)

include hgrid

theorem self (n : ℕ) : Rounds grid (grid n) n where
  below m hm := by
    have hlt := hgrid (Nat.lt_of_lt_of_eq (Nat.lt_succ_self m) hm.symm)
    exact ⟨by linarith, fun heq => absurd heq (by linarith)⟩
  above := by
    have hlt := hgrid (Nat.lt_succ_self n)
    exact ⟨by linarith, fun heq => absurd heq (by linarith)⟩

theorem le_of_le (h : Rounds grid v n) (hm : Rounds grid w m) (hvw : v ≤ w) : n ≤ m := by
  by_contra hlt
  obtain ⟨k, rfl⟩ : ∃ k, n = k + 1 := Nat.exists_eq_add_one.2 (Nat.zero_lt_of_lt (Nat.not_le.1 hlt))
  have hmk : m ≤ k := Nat.le_of_lt_succ (Nat.not_le.1 hlt)
  obtain ⟨hbelow, hbelowEven⟩ := h.below k rfl
  obtain ⟨habove, haboveEven⟩ := hm.above
  have hlow := hgrid.monotone hmk
  have hhigh := hgrid.monotone (Nat.succ_le_succ hmk)
  -- Both numbers are the midpoint between `k` and `k + 1`, of which only one side is even.
  rcases Nat.eq_or_lt_of_le hmk with rfl | hlt
  · have hodd := hbelowEven (by linarith)
    have heven := haboveEven (by linarith)
    exact Nat.even_add_one.1 hodd heven
  · have := hgrid hlt
    linarith

theorem unique (h : Rounds grid v n) (hm : Rounds grid v m) : n = m :=
  Nat.le_antisymm (h.le_of_le hgrid hm le_rfl) (hm.le_of_le hgrid h le_rfl)

theorem abs_sub_le (h : Rounds grid v n) (m : ℕ) : |v - grid n| ≤ |v - grid m| := by
  rcases Nat.lt_trichotomy m n with hlt | rfl | hlt
  · obtain ⟨k, rfl⟩ : ∃ k, n = k + 1 := Nat.exists_eq_add_one.2 (Nat.zero_lt_of_lt hlt)
    have hmono := hgrid.monotone (Nat.le_of_lt_succ hlt)
    rw [abs_sub_right_le_iff (hgrid hlt)]
    linarith [(h.below k rfl).1]
  · exact le_rfl
  · have hmono := hgrid.monotone (Nat.succ_le_of_lt hlt)
    rw [abs_sub_left_le_iff (hgrid hlt)]
    linarith [h.above.1]

theorem even_of_abs_sub_le (h : Rounds grid v n) (hne : m ≠ n)
    (hle : |v - grid m| ≤ |v - grid n|) : Even n := by
  rcases Nat.lt_or_gt_of_ne hne with hlt | hlt
  · obtain ⟨k, rfl⟩ : ∃ k, n = k + 1 := Nat.exists_eq_add_one.2 (Nat.zero_lt_of_lt hlt)
    have hmono := hgrid.monotone (Nat.le_of_lt_succ hlt)
    rw [abs_sub_left_le_iff (hgrid hlt)] at hle
    obtain ⟨hbelow, heven⟩ := h.below k rfl
    exact heven (by linarith)
  · have hmono := hgrid.monotone (Nat.succ_le_of_lt hlt)
    rw [abs_sub_right_le_iff (hgrid hlt)] at hle
    obtain ⟨habove, heven⟩ := h.above
    exact heven (by linarith)

end

end Rounds

end LoxLexer
