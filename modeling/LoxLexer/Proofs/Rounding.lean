import LoxLexer.Number.Magnitude
import LoxLexer.Proofs.Nearest

namespace LoxLexer.Magnitude

variable {num den k r n : ℕ}

def grid (n : ℕ) : ℚ := unitsOfRank n

theorem binade_pos : 0 < binade := by decide

theorem even_binade : Even binade := by decide

theorem cast_div_eq (num : ℕ) (hden : 0 < den) :
    (num / den : ℚ) = (num / den : ℕ) + (num % den : ℕ) / den := by
  have hden : (den : ℚ) ≠ 0 := by positivity
  field_simp
  exact_mod_cast (Nat.div_add_mod num den).symm

theorem rounds_roundDiv (num : ℕ) (hden : 0 < den) :
    Rounds (fun n => n) (num / den) (roundDiv num den) := by
  have hv := cast_div_eq num hden
  have hpos : (0 : ℚ) < den := by exact_mod_cast hden
  have hrest : (0 : ℚ) ≤ ((num % den : ℕ) : ℚ) / den ∧ ((num % den : ℕ) : ℚ) / den < 1 := by
    refine ⟨by positivity, ?_⟩
    rw [div_lt_one hpos]
    exact_mod_cast Nat.mod_lt num hden
  have hhalf : 2 * (((num % den : ℕ) : ℚ) / den) ≤ 1 ↔ 2 * (num % den) ≤ den := by
    rw [← mul_div_assoc, div_le_one hpos]
    exact_mod_cast Iff.rfl
  have htie : 2 * (((num % den : ℕ) : ℚ) / den) = 1 ↔ 2 * (num % den) = den := by
    rw [← mul_div_assoc, div_eq_one_iff_eq hpos.ne']
    exact_mod_cast Iff.rfl
  rw [hv]
  generalize ((num % den : ℕ) : ℚ) / den = part at *
  unfold roundDiv
  dsimp only
  split
  · next h =>
    constructor
    · intro m hm
      rw [hm]
      push_cast
      exact ⟨by linarith, fun heq => absurd heq (by linarith)⟩
    · have hle : 2 * part ≤ 1 := hhalf.2 (by omega)
      push_cast
      refine ⟨by linarith, fun heq => Nat.even_iff.2 ?_⟩
      have := htie.1 (by linarith)
      omega
  · next h =>
    constructor
    · intro m hm
      obtain rfl : num / den = m := Nat.succ_injective hm
      have hle : 1 ≤ 2 * part := by
        by_contra hlt
        have := hhalf.1 (by linarith)
        have := htie.2 (by omega)
        linarith
      push_cast
      refine ⟨by linarith, fun heq => Nat.even_iff.2 ?_⟩
      have := htie.1 (by linarith)
      omega
    · push_cast
      exact ⟨by linarith, fun heq => absurd heq (by linarith)⟩

theorem unitsOfRank_add (hk : k = 0 ∨ binade ≤ r) (hr : r ≤ 2 * binade) :
    unitsOfRank (k * binade + r) = r * 2 ^ k := by
  have hpos := binade_pos
  rcases Nat.lt_or_ge r binade with hlt | hge
  · obtain rfl := hk.resolve_right (Nat.not_le.2 hlt)
    simp [unitsOfRank, hlt]
  · have hnot : ¬ k * binade + r < binade := by omega
    rw [unitsOfRank, if_neg hnot]
    rcases Nat.eq_or_lt_of_le hr with rfl | hlt
    · have hsum : k * binade + 2 * binade = (k + 2) * binade := by ring
      rw [hsum, Nat.mul_div_cancel _ hpos, Nat.mul_mod_left, Nat.pow_eq]
      have hexponent : k + 2 - 1 = k + 1 := rfl
      rw [hexponent, pow_succ]
      ring
    · have hsum : k * binade + r = (k + 1) * binade + (r - binade) := by
        rw [Nat.add_mul]
        omega
      have hsmall : r - binade < binade := by omega
      have hdiv : (k * binade + r) / binade = k + 1 := by
        rw [hsum, Nat.mul_comm, Nat.mul_add_div hpos, Nat.div_eq_of_lt hsmall, Nat.add_zero]
      have hmod : (k * binade + r) % binade = r - binade := by
        rw [hsum, Nat.mul_comm, Nat.mul_add_mod, Nat.mod_eq_of_lt hsmall]
      rw [hdiv, hmod, Nat.add_sub_cancel, Nat.pow_eq, Nat.add_sub_cancel' hge]

theorem exists_eq_add (n : ℕ) :
    ∃ k r, n = k * binade + r ∧ (k = 0 ∨ binade ≤ r) ∧ r < 2 * binade := by
  have hsplit := Nat.div_add_mod' n binade
  have hsmall := Nat.mod_lt n binade_pos
  rcases Nat.eq_zero_or_pos (n / binade) with hzero | hpos
  · rw [hzero, Nat.zero_mul, Nat.zero_add] at hsplit
    exact ⟨0, n, by omega, .inl rfl, by omega⟩
  · obtain ⟨k, hk⟩ : ∃ k, n / binade = k + 1 := Nat.exists_eq_add_one.2 hpos
    rw [hk, Nat.add_mul, Nat.one_mul] at hsplit
    exact ⟨k, binade + n % binade, by omega, .inr (by omega), by omega⟩

theorem grid_add (hk : k = 0 ∨ binade ≤ r) (hr : r ≤ 2 * binade) :
    grid (k * binade + r) = r * 2 ^ k := by
  rw [grid, unitsOfRank_add hk hr]
  push_cast
  rfl

theorem strictMono_grid : StrictMono grid := by
  refine strictMono_nat_of_lt_succ fun n => ?_
  obtain ⟨k, r, rfl, hk, hr⟩ := exists_eq_add n
  have hnext : k = 0 ∨ binade ≤ r + 1 := hk.imp_right Nat.le_succ_of_le
  rw [Nat.add_assoc, grid_add hk hr.le, grid_add hnext hr]
  push_cast
  linarith [pow_pos (by norm_num : (0 : ℚ) < 2) k]

/-- A number is rounded by rounding its significand, also where this goes up into the next binade or
where the neighbour below lies in the binade before. -/
theorem rounds_grid_add {v : ℚ} (h : Rounds (fun n => n) v r) (hlow : k = 0 ∨ (binade : ℚ) ≤ v)
    (hhigh : v < 2 * binade) : Rounds grid (v * 2 ^ k) (k * binade + r) := by
  have hcast : StrictMono (fun n : ℕ => (n : ℚ)) := Nat.strictMono_cast
  have hr : r ≤ 2 * binade := h.le_of_le hcast (.self hcast _) (by push_cast; exact hhigh.le)
  have hk : k = 0 ∨ binade ≤ r :=
    hlow.imp_right fun hlow => Rounds.le_of_le hcast (.self hcast _) h hlow
  have hpos : (0 : ℚ) < 2 ^ k := by positivity
  have heven : Even r → Even (k * binade + r) := (even_binade.mul_left k).add
  constructor
  · intro m hm
    rw [grid_add hk hr]
    cases r with
    | zero =>
      obtain rfl : k = 0 := hk.resolve_right (Nat.not_le.2 binade_pos)
      omega
    | succ s =>
      obtain rfl : k * binade + s = m := by omega
      by_cases hs : k = 0 ∨ binade ≤ s
      · rw [grid_add hs (by omega)]
        obtain ⟨hbelow, htie⟩ := h.below s rfl
        refine ⟨by nlinarith, fun heq => heven (htie ?_)⟩
        have hscaled : ((s : ℚ) + (s + 1 : ℕ)) * 2 ^ k = 2 * v * 2 ^ k := by linarith
        exact mul_right_cancel₀ hpos.ne' hscaled
      · have hstart : s + 1 = binade := by omega
        have hge : (binade : ℚ) ≤ v := hlow.resolve_left (not_or.1 hs).1
        have hless := strictMono_grid (Nat.lt_succ_self (k * binade + s))
        rw [Nat.succ_eq_add_one, Nat.add_assoc, grid_add hk hr, hstart] at hless
        rw [hstart]
        exact ⟨by nlinarith, fun heq => absurd heq (by nlinarith)⟩
  · rw [grid_add hk hr]
    rcases Nat.eq_or_lt_of_le hr with rfl | hlt
    · have hless := strictMono_grid (Nat.lt_succ_self (k * binade + 2 * binade))
      rw [grid_add hk hr] at hless
      push_cast at hless ⊢
      exact ⟨by nlinarith, fun heq => absurd heq (by nlinarith)⟩
    · rw [Nat.add_assoc, grid_add (hk.imp_right Nat.le_succ_of_le) hlt]
      obtain ⟨habove, htie⟩ := h.above
      refine ⟨by nlinarith, fun heq => heven (htie ?_)⟩
      have hscaled : 2 * v * 2 ^ k = ((r : ℚ) + (r + 1 : ℕ)) * 2 ^ k := by linarith
      exact mul_right_cancel₀ hpos.ne' hscaled

theorem lt_of_log2 (q : ℕ) : q < 2 * binade * 2 ^ (q.log2 - 52) := by
  have hbinade : 2 * binade = 2 ^ 53 := rfl
  rw [hbinade, ← pow_add]
  exact Nat.lt_log2_self.trans_le (Nat.pow_le_pow_right (by decide) (by omega))

theorem le_of_log2 {q : ℕ} (h : q.log2 - 52 ≠ 0) : binade * 2 ^ (q.log2 - 52) ≤ q := by
  have hbinade : binade = 2 ^ 52 := rfl
  have hne : q ≠ 0 := by
    rintro rfl
    exact h rfl
  rw [hbinade, ← pow_add, Nat.add_sub_cancel' (by omega)]
  exact Nat.log2_self_le hne

theorem rounds_nearestRank (num : ℕ) (hden : 0 < den) :
    Rounds grid (num / den) (nearestRank num den) := by
  unfold nearestRank
  dsimp only
  have hhigh := lt_of_log2 (num / den)
  have hlow := fun h => le_of_log2 (q := num / den) h
  generalize (num / den).log2 - 52 = k at *
  have hpos : 0 < den * 2 ^ k := by positivity
  have hscaled : (num / den : ℚ) = num / (den * 2 ^ k : ℕ) * 2 ^ k := by
    have : (den : ℚ) ≠ 0 := by positivity
    push_cast
    field_simp
  rw [Nat.div_lt_iff_lt_mul hden, mul_assoc, mul_comm (2 ^ k)] at hhigh
  rw [hscaled]
  refine rounds_grid_add (rounds_roundDiv num hpos) ?_ ?_
  · refine (Nat.eq_zero_or_pos k).imp_right fun hk => ?_
    have hle := hlow hk.ne'
    rw [Nat.le_div_iff_mul_le hden, mul_assoc, mul_comm (2 ^ k)] at hle
    rw [le_div_iff₀ (by exact_mod_cast hpos)]
    exact_mod_cast hle
  · rw [div_lt_iff₀ (by exact_mod_cast hpos)]
    exact_mod_cast hhigh

end LoxLexer.Magnitude
