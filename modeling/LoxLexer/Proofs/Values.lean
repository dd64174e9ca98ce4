import LoxLexer.Number.Decimal
import LoxLexer.Proofs.Rounding

namespace LoxLexer

/-- A finite binary64 value: a significand of at most 53 binary digits at one of the exponents. -/
def IsFinite (q : ℚ) : Prop :=
  ∃ m e : ℤ, |m| < 2 ^ 53 ∧ -1074 ≤ e ∧ e ≤ 971 ∧ q = m * 2 ^ e

namespace Magnitude

def significand (x : Magnitude) : ℕ :=
  if x.rank < binade then x.rank else binade + x.rank % binade

def exponent (x : Magnitude) : ℤ := (x.rank / binade - 1 : ℕ) - 1074

def value (x : Magnitude) : ℚ := x.significand * 2 ^ x.exponent

def unitsPerOne : ℚ := 2 ^ 1074

/-- The magnitude to which a number is rounded.  Ranks above that of infinity, which the grid has as
well, stand for infinity. -/
def IsRounded (v : ℚ) (x : Magnitude) : Prop :=
  ∃ n, Rounds grid (v * unitsPerOne) n ∧ x = ofRank n

structure IsNearest (v : ℚ) (x : Magnitude) : Prop where
  isFinite : IsFinite x.value
  le : ∀ q, IsFinite q → |v - x.value| ≤ |v - q|
  even : ∀ q, IsFinite q → q ≠ x.value → |v - q| = |v - x.value| → Even x.significand

variable {x y : Magnitude} {v w q : ℚ} {m j n : ℕ}

theorem unitsPerOne_pos : 0 < unitsPerOne := by
  unfold unitsPerOne
  positivity

theorem two_zpow_mul_unitsPerOne (e : ℤ) : 2 ^ e * unitsPerOne = 2 ^ (e + 1074) := by
  rw [unitsPerOne, ← zpow_natCast 2 1074, ← zpow_add₀ (by norm_num)]
  norm_num

theorem value_mul_unitsPerOne (x : Magnitude) : x.value * unitsPerOne = grid x.rank := by
  have hunits : x.value * unitsPerOne = x.significand * 2 ^ (x.rank / binade - 1) := by
    rw [value, mul_assoc, two_zpow_mul_unitsPerOne, exponent, sub_add_cancel, zpow_natCast]
  rw [hunits, grid, unitsOfRank, significand]
  split
  · next h =>
    rw [Nat.div_eq_of_lt h]
    simp
  · push_cast [Nat.pow_eq]
    rfl

theorem even_significand_iff (x : Magnitude) : Even x.significand ↔ Even x.rank := by
  have hbinade : binade % 2 = 0 := by decide
  unfold significand
  split
  · exact Iff.rfl
  · have hmod : x.rank % binade % 2 = x.rank % 2 :=
      Nat.mod_mod_of_dvd _ (Nat.dvd_of_mod_eq_zero hbinade)
    rw [Nat.even_iff, Nat.even_iff]
    omega

theorem grid_zero : grid 0 = 0 := by decide +kernel

theorem grid_one : grid 1 = 1 := by decide +kernel

theorem grid_infinityRank : grid infinityRank = 2 ^ 1024 * unitsPerOne := by
  have hrank : infinityRank = 2046 * binade + binade := by decide
  have hbinade : (binade : ℚ) = 2 ^ 52 := by exact_mod_cast rfl
  rw [hrank, grid_add (.inr le_rfl) (by decide), hbinade, unitsPerOne, ← pow_add, ← pow_add]

theorem grid_pred_infinityRank : grid (infinityRank - 1) = (2 ^ 1024 - 2 ^ 971) * unitsPerOne := by
  have hrank : infinityRank - 1 = 2045 * binade + (2 * binade - 1) := by decide
  have hlast : ((2 * binade - 1 : ℕ) : ℚ) = 2 ^ 53 - 1 := by
    rw [Nat.cast_sub (by decide)]
    norm_num [binade]
  rw [hrank, grid_add (.inr (by decide)) (Nat.sub_le _ _), hlast, unitsPerOne, sub_mul, sub_mul,
    ← pow_add, ← pow_add, ← pow_add, one_mul]

theorem grid_pred_add_grid_infinityRank :
    grid (infinityRank - 1) + grid infinityRank = 2 * ((2 ^ 1024 - 2 ^ 970) * unitsPerOne) := by
  have hdouble : (2 : ℚ) ^ 971 = 2 * 2 ^ 970 := pow_succ' 2 970
  have hmean : ∀ a b c : ℚ, (a - 2 * b) * c + a * c = 2 * ((a - b) * c) := by
    intro a b c
    ring
  rw [grid_pred_infinityRank, grid_infinityRank, hdouble]
  exact hmean _ _ _

theorem exists_grid_eq (hm : m ≤ 2 * binade) : ∃ n, grid n = m * 2 ^ j := by
  induction j generalizing m with
  | zero =>
    refine ⟨0 * binade + m, ?_⟩
    rw [grid_add (.inl rfl) hm]
  | succ j ih =>
    rcases Nat.lt_or_ge m binade with hlt | hge
    · obtain ⟨n, hn⟩ := ih (m := 2 * m) (by omega)
      refine ⟨n, hn.trans ?_⟩
      push_cast
      ring
    · exact ⟨_, grid_add (.inr hge) hm⟩

theorem rank_ofRank_of_lt (h : n < infinityRank) : (ofRank n).rank = n := Nat.min_eq_left h.le

theorem ofRank_rank (x : Magnitude) : ofRank x.rank = x := by
  obtain ⟨rank, hrank⟩ := x
  simp [ofRank, hrank]

theorem ofRank_eq_infinity_iff : ofRank n = infinity ↔ infinityRank ≤ n := by
  simp [ofRank, infinity]

theorem rank_lt_of_ne_infinity (h : x ≠ infinity) : x.rank < infinityRank :=
  Nat.lt_of_le_of_ne x.rank_le fun hrank => h (by rw [← x.ofRank_rank, hrank]; rfl)

theorem value_nonneg (x : Magnitude) : 0 ≤ x.value := by
  unfold value
  positivity

theorem value_zero : zero.value = 0 := by
  have : zero.significand = 0 := by decide
  rw [value, this, Nat.cast_zero, zero_mul]

theorem isRounded_value (x : Magnitude) : IsRounded x.value x :=
  ⟨x.rank, by rw [value_mul_unitsPerOne]; exact .self strictMono_grid _, x.ofRank_rank.symm⟩

theorem IsRounded.unique (hx : IsRounded v x) (hy : IsRounded v y) : x = y := by
  obtain ⟨n, hn, rfl⟩ := hx
  obtain ⟨m, hm, rfl⟩ := hy
  rw [hn.unique strictMono_grid hm]

theorem IsRounded.rank_le_rank (hx : IsRounded v x) (hy : IsRounded w y) (h : v ≤ w) :
    x.rank ≤ y.rank := by
  obtain ⟨n, hn, rfl⟩ := hx
  obtain ⟨m, hm, rfl⟩ := hy
  have hle : n ≤ m :=
    hn.le_of_le strictMono_grid hm (mul_le_mul_of_nonneg_right h unitsPerOne_pos.le)
  exact min_le_min_right _ hle

theorem IsRounded.eq_infinity_iff (h : IsRounded v x) :
    x = infinity ↔ 2 ^ 1024 - 2 ^ 970 ≤ v := by
  obtain ⟨n, hn, rfl⟩ := h
  rw [ofRank_eq_infinity_iff]
  have hmiddle := grid_pred_add_grid_infinityRank
  generalize (2 : ℚ) ^ 1024 - 2 ^ 970 = limit at *
  constructor
  · intro hle
    obtain ⟨m, rfl⟩ : ∃ m, n = m + 1 :=
      Nat.exists_eq_add_one.2 (Nat.lt_of_lt_of_le (by decide) hle)
    have hbelow := (hn.below m rfl).1
    have hlow := strictMono_grid.monotone (Nat.sub_le_of_le_add hle)
    have hhigh := strictMono_grid.monotone hle
    exact le_of_mul_le_mul_right (by linarith) unitsPerOne_pos
  · intro hle
    have hrounds : Rounds grid (limit * unitsPerOne) infinityRank := by
      constructor
      · intro m hm
        obtain rfl : m = infinityRank - 1 := by omega
        exact ⟨hmiddle.le, fun _ => by decide⟩
      · have hlow := strictMono_grid (Nat.sub_one_lt (by decide : infinityRank ≠ 0))
        have hhigh := strictMono_grid (Nat.lt_add_one infinityRank)
        exact ⟨by linarith, fun _ => by decide⟩
    exact hrounds.le_of_le strictMono_grid hn (mul_le_mul_of_nonneg_right hle unitsPerOne_pos.le)

theorem IsRounded.eq_zero_iff (h : IsRounded v x) : x = zero ↔ v ≤ 2 ^ (-1075 : ℤ) := by
  obtain ⟨n, hn, rfl⟩ := h
  have hhalf : 2 ^ (-1075 : ℤ) * unitsPerOne = 1 / 2 := by
    rw [two_zpow_mul_unitsPerOne]
    norm_num
  have hrank : ofRank n = zero ↔ n = 0 := by
    have : infinityRank ≠ 0 := by decide
    simp [ofRank, zero, this]
  rw [hrank, ← mul_le_mul_iff_left₀ unitsPerOne_pos, hhalf]
  constructor
  · rintro rfl
    have habove := hn.above.1
    rw [grid_zero, grid_one] at habove
    linarith
  · intro hle
    have hrounds : Rounds grid (1 / 2) 0 := by
      constructor
      · intro m hm
        cases hm
      · rw [grid_zero, grid_one]
        norm_num
    exact Nat.le_zero.1 (hn.le_of_le strictMono_grid hrounds hle)

theorem exists_value_eq (hm : m ≤ 2 ^ 53) (hlt : m < 2 ^ n) (hn : n + j ≤ 1024 + 1074) :
    ∃ x, x ≠ infinity ∧ x.value * unitsPerOne = m * 2 ^ j := by
  obtain ⟨rank, hrank⟩ := exists_grid_eq (j := j) (show m ≤ 2 * binade from hm)
  have hbelow : grid rank < grid infinityRank := by
    calc grid rank = m * 2 ^ j := hrank
      _ < 2 ^ n * 2 ^ j := mul_lt_mul_of_pos_right (by exact_mod_cast hlt) (by positivity)
      _ = 2 ^ (n + j) := (pow_add 2 n j).symm
      _ ≤ 2 ^ (1024 + 1074) := pow_le_pow_right₀ (by norm_num) hn
      _ = 2 ^ 1024 * unitsPerOne := pow_add 2 1024 1074
      _ = grid infinityRank := grid_infinityRank.symm
  have hfinite := strictMono_grid.lt_iff_lt.1 hbelow
  refine ⟨ofRank rank, ?_, ?_⟩
  · intro hinfinity
    exact absurd (ofRank_eq_infinity_iff.1 hinfinity) (Nat.not_le.2 hfinite)
  · rw [value_mul_unitsPerOne, rank_ofRank_of_lt hfinite, hrank]

theorem IsRounded.value_of_natCast (h : IsRounded (n : ℚ) x) (hn : n ≤ 2 ^ 53) :
    x.value = n := by
  have hlt : n < 2 ^ 54 := Nat.lt_of_le_of_lt hn (by norm_num)
  obtain ⟨y, -, hvalue⟩ := exists_value_eq (j := 1074) hn hlt (by norm_num)
  have hsame : y.value = n := mul_right_cancel₀ unitsPerOne_pos.ne' hvalue
  rw [h.unique (hsame ▸ y.isRounded_value), hsame]

theorem isFinite_value (hx : x ≠ infinity) : IsFinite x.value := by
  have hrank := rank_lt_of_ne_infinity hx
  have hdiv : x.rank / binade < 2047 := Nat.div_lt_of_lt_mul (by rwa [mul_comm])
  have hsignificand : x.significand < 2 ^ 53 := by
    have hmod := Nat.mod_lt x.rank binade_pos
    have hbinade : binade + binade = 2 ^ 53 := rfl
    unfold significand
    split <;> omega
  refine ⟨x.significand, x.exponent, ?_, ?_, ?_, by rw [value, Int.cast_natCast]⟩
  · rw [abs_of_nonneg (Int.natCast_nonneg _)]
    exact_mod_cast hsignificand
  · unfold exponent
    omega
  · unfold exponent
    omega

theorem exists_value_of_isFinite (h : IsFinite q) : ∃ x, x ≠ infinity ∧ x.value = |q| := by
  obtain ⟨m, e, hm, hlow, hhigh, rfl⟩ := h
  obtain ⟨j, hj⟩ := Int.eq_ofNat_of_zero_le (by omega : 0 ≤ e + 1074)
  have hnat : m.natAbs < 2 ^ 53 := by
    rw [Int.abs_eq_natAbs] at hm
    exact_mod_cast hm
  obtain ⟨x, hx, hvalue⟩ := exists_value_eq hnat.le hnat (by omega : 53 + j ≤ 1024 + 1074)
  refine ⟨x, hx, mul_right_cancel₀ unitsPerOne_pos.ne' ?_⟩
  have habs : |(m : ℚ) * 2 ^ e| = m.natAbs * 2 ^ e := by
    rw [abs_mul, abs_of_pos (by positivity : (0 : ℚ) < 2 ^ e), Nat.cast_natAbs, Int.cast_abs]
  rw [hvalue, habs, mul_assoc, two_zpow_mul_unitsPerOne, hj, zpow_natCast]

theorem abs_sub_mul_unitsPerOne (v : ℚ) (x : Magnitude) :
    |v - x.value| * unitsPerOne = |v * unitsPerOne - grid x.rank| := by
  rw [← value_mul_unitsPerOne, ← sub_mul, abs_mul, abs_of_pos unitsPerOne_pos]

theorem IsRounded.rounds_rank (h : IsRounded v x) (hx : x ≠ infinity) :
    Rounds grid (v * unitsPerOne) x.rank := by
  obtain ⟨n, hn, rfl⟩ := h
  rwa [rank_ofRank_of_lt (Nat.not_le.1 fun hle => hx (ofRank_eq_infinity_iff.2 hle))]

theorem IsRounded.abs_sub_le (h : IsRounded v x) (hx : x ≠ infinity) (y : Magnitude) :
    |v - x.value| ≤ |v - y.value| := by
  refine le_of_mul_le_mul_right ?_ unitsPerOne_pos
  rw [abs_sub_mul_unitsPerOne, abs_sub_mul_unitsPerOne]
  exact (h.rounds_rank hx).abs_sub_le strictMono_grid y.rank

theorem IsRounded.even_significand (h : IsRounded v x) (hx : x ≠ infinity)
    (hne : y.value ≠ x.value) (hnear : |v - y.value| ≤ |v - x.value|) : Even x.significand := by
  have hrank : y.rank ≠ x.rank := fun hsame => hne (by
    rw [← y.ofRank_rank, hsame, x.ofRank_rank])
  have hscaled := mul_le_mul_of_nonneg_right hnear unitsPerOne_pos.le
  rw [abs_sub_mul_unitsPerOne, abs_sub_mul_unitsPerOne] at hscaled
  rw [even_significand_iff]
  exact (h.rounds_rank hx).even_of_abs_sub_le strictMono_grid hrank hscaled

theorem IsRounded.isNearest (h : IsRounded v x) (hv : 0 ≤ v) (hx : x ≠ infinity) :
    IsNearest v x := by
  -- A negative value is no nearer than its opposite.
  have habs : ∀ q : ℚ, |v - (|q|)| ≤ |v - q| := fun q => by
    simpa [abs_of_nonneg hv] using abs_abs_sub_abs_le_abs_sub v q
  refine ⟨isFinite_value hx, fun q hq => ?_, fun q hq hne hnear => ?_⟩
  · obtain ⟨y, -, hy⟩ := exists_value_of_isFinite hq
    exact (h.abs_sub_le hx y).trans (hy ▸ habs q)
  · obtain ⟨y, -, hy⟩ := exists_value_of_isFinite hq
    refine h.even_significand hx (fun hsame => hne ?_) (hy ▸ (habs q).trans hnear.le)
    -- Only zero is as far from its opposite as from itself.
    rcases abs_choice q with hq | hq
    · rw [← hq, ← hy, hsame]
    · obtain rfl : q = -x.value := by rw [← hsame, hy, hq, neg_neg]
      have hzero := h.abs_sub_le hx zero
      have hpos := x.value_nonneg
      rw [value_zero, sub_zero, abs_of_nonneg hv] at hzero
      rw [sub_neg_eq_add, abs_of_nonneg (by linarith)] at hnear
      rcases abs_cases (v - x.value) with ⟨heq, -⟩ | ⟨heq, -⟩ <;> linarith

end Magnitude

end LoxLexer
