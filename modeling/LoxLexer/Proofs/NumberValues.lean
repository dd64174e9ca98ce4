import LoxLexer.Proofs.Decimals
import LoxLexer.Proofs.NumberTokens

namespace LoxLexer

open Grammar Text

namespace Magnitude

def size (x : Magnitude) : WithTop ℚ := if x = infinity then ⊤ else x.value

structure Stands (v : ℚ) (x : Magnitude) : Prop where
  nearest : v < 2 ^ 1024 - 2 ^ 970 → x ≠ infinity ∧ IsNearest v x
  infinite : 2 ^ 1024 - 2 ^ 970 ≤ v → x = infinity
  eq_zero_iff : x = zero ↔ v ≤ 2 ^ (-1075 : ℤ)
  exact : ∀ n : ℕ, n ≤ 2 ^ 53 → v = n → x ≠ infinity ∧ x.value = n

variable {v w : ℚ} {x y : Magnitude}

theorem two_pow_le_limit : (2 : ℚ) ^ 970 ≤ 2 ^ 1024 - 2 ^ 970 := by
  rw [le_sub_iff_add_le, ← two_mul, ← pow_succ']
  exact pow_le_pow_right₀ (by norm_num) (by norm_num)

theorem IsRounded.stands (h : IsRounded v x) (hv : 0 ≤ v) : Stands v x := by
  refine ⟨fun hlt => ?_, h.eq_infinity_iff.2, h.eq_zero_iff, ?_⟩
  · have hx : x ≠ infinity := fun hx => absurd (h.eq_infinity_iff.1 hx) (not_le.2 hlt)
    exact ⟨hx, h.isNearest hv hx⟩
  · rintro n hn rfl
    refine ⟨fun hx => ?_, h.value_of_natCast hn⟩
    have hbelow : (n : ℚ) < 2 ^ 970 := by
      calc (n : ℚ) ≤ 2 ^ 53 := by exact_mod_cast hn
        _ < 2 ^ 970 := pow_lt_pow_right₀ (by norm_num) (by norm_num)
    exact absurd (two_pow_le_limit.trans (h.eq_infinity_iff.1 hx)) (not_le.2 hbelow)

theorem IsRounded.size_le_size (hx : IsRounded v x) (hy : IsRounded w y) (h : v ≤ w) :
    x.size ≤ y.size := by
  have hrank := hx.rank_le_rank hy h
  unfold size
  split
  · next hinfinity =>
    have : y = infinity := by
      rw [hinfinity] at hrank
      rw [← y.ofRank_rank]
      exact ofRank_eq_infinity_iff.2 hrank
    rw [if_pos this]
  · split
    · exact le_top
    · refine WithTop.coe_le_coe.2 (le_of_mul_le_mul_right ?_ unitsPerOne_pos)
      rw [value_mul_unitsPerOne, value_mul_unitsPerOne]
      exact strictMono_grid.monotone hrank

end Magnitude

namespace Number

def valueOf (text : List Char) : ℚ :=
  let whole := text.takeWhile (· ≠ '.')
  let fraction := (text.dropWhile (· ≠ '.')).tail
  numeralValue whole + numeralValue fraction / 10 ^ fraction.length

/-- Zeros in front, and zeros behind the point, do not change what a text spells. -/
inductive Pads (text : List Char) : List Char → Prop
  | same : Pads text text
  | front {more} : Pads text more → Pads text ('0' :: more)
  | point {more} : '.' ∉ more → Pads text more → Pads text (more ++ ['.', '0'])
  | back {more} : '.' ∈ more → Pads text more → Pads text (more ++ ['0'])

variable {text digits more : List Char}

theorem valueOf_append_point (h : '.' ∉ text) (digits : List Char) :
    valueOf (text ++ '.' :: digits) =
      numeralValue text + numeralValue digits / 10 ^ digits.length := by
  have hpos : ∀ c ∈ text, decide (c ≠ '.') = true := fun c hc =>
    decide_eq_true fun hsame => h (hsame ▸ hc)
  rw [valueOf, List.takeWhile_append_of_pos hpos, List.dropWhile_append_of_pos hpos]
  simp

theorem valueOf_of_not_mem (h : '.' ∉ text) : valueOf text = numeralValue text := by
  have hpos : ∀ c ∈ text, decide (c ≠ '.') = true := fun c hc =>
    decide_eq_true fun hsame => h (hsame ▸ hc)
  rw [valueOf, List.takeWhile_eq_self_iff.2 hpos, List.dropWhile_eq_nil_iff.2 hpos]
  simp [numeralValue]

theorem valueOf_nonneg (text : List Char) : 0 ≤ valueOf text := by
  unfold valueOf
  positivity

theorem point_not_mem_of_isNumeral (h : IsNumeral text) : '.' ∉ text :=
  fun hmem => absurd (h.2 _ hmem) (by decide)

theorem valueOf_of_pads (h : Pads text more) : valueOf more = valueOf text := by
  induction h with
  | same => rfl
  | @front more _ ih =>
    have hzero : ∀ digits, numeralValue ('0' :: digits) = numeralValue digits := fun _ => rfl
    rw [← ih]
    simp [valueOf, hzero]
  | @point more hnot _ ih =>
    have hzero : numeralValue ['0'] = 0 := rfl
    rw [valueOf_append_point hnot, ← ih, valueOf_of_not_mem hnot, hzero]
    simp
  | @back more hmem _ ih =>
    obtain ⟨whole, fraction, rfl, hwhole⟩ := List.eq_append_cons_of_mem hmem
    have hzero : numeralValue ['0'] = 0 := rfl
    rw [← ih, List.append_assoc, List.cons_append, valueOf_append_point hwhole,
      valueOf_append_point hwhole, numeralValue_append, hzero, List.length_append]
    simp [pow_succ', mul_div_mul_left]

theorem isUnit_of_pads (h : Pads text more) (htext : IsUnit .number text) :
    IsUnit .number more := by
  have hzero : IsDigit '0' := by decide
  induction h with
  | same => exact htext
  | front _ ih =>
    cases ih with
    | whole h => exact .whole ⟨by simp, List.forall_mem_cons.2 ⟨hzero, h.2⟩⟩
    | fraction h hdigits =>
      exact .fraction ⟨by simp, List.forall_mem_cons.2 ⟨hzero, h.2⟩⟩ hdigits
  | point hnot _ ih =>
    cases ih with
    | whole h => exact .fraction h ⟨by simp, by simpa using hzero⟩
    | fraction => exact absurd (by simp) hnot
  | back hmem _ ih =>
    cases ih with
    | whole h => exact absurd hmem (point_not_mem_of_isNumeral h)
    | fraction h hdigits =>
      rw [List.append_assoc, List.cons_append]
      exact .fraction h (hdigits.concat hzero)

theorem value_whole (h : IsNumeral text) :
    Decimal.value ⟨numeralValue text, 0⟩ = valueOf text := by
  simp [valueOf_of_not_mem (point_not_mem_of_isNumeral h), Decimal.value]

theorem value_fraction (h : IsNumeral text) (digits : List Char) :
    Decimal.value ⟨numeralValue (text ++ digits), -digits.length⟩ =
      valueOf (text ++ '.' :: digits) := by
  rw [valueOf_append_point (point_not_mem_of_isNumeral h), Decimal.value, numeralValue_append,
    zpow_neg, zpow_natCast]
  push_cast
  field_simp

theorem exists_isRounded (h : IsUnit .number text) :
    ∃ x, Binary64.ofText? text = some (.signed false x) ∧ x.IsRounded (valueOf text) := by
  cases h with
  | whole h => exact ⟨_, ofText?_whole h, value_whole h ▸ Decimal.isRounded_magnitude _⟩
  | @fraction text digits h hdigits =>
    exact ⟨_, ofText?_fraction h hdigits, value_fraction h digits ▸ Decimal.isRounded_magnitude _⟩

end Number

namespace Lexer

open Number Magnitude

variable {text source : List Char} {value : Binary64} {t : Token}

theorem answer_scan_of_isNumeralOf (h : IsNumeralOf text value) :
    (scan text).answer =
      .ok [⟨.number, text, some (.number value), 1⟩, ⟨.endOfInput, [], none, 1⟩] := by
  obtain ⟨hunit, hvalue, -⟩ := h
  have hanswer := answer_scan_of_isUnit (s := ⟨.number, text⟩) hunit
  have hlines : text.count '\n' = 0 := List.count_eq_zero.2 fun hmem =>
    absurd (mem_numberParts_of_isUnit hunit hmem) (by decide)
  rw [hlines, Segment.token?, hvalue] at hanswer
  exact hanswer

theorem exists_isNumeralOf_of_mem_body (ht : t ∈ (scan source).body) (hkind : t.kind = .number) :
    ∃ value, IsNumeralOf t.lexeme value ∧ t.literal = some (.number value) := by
  obtain ⟨s, line, hs, htoken⟩ := exists_unit_of_mem_body ht
  exact Segment.exists_isNumeralOf_of_token? hs htoken hkind

theorem exists_isRounded_of_mem_body (ht : t ∈ (scan source).body) (hkind : t.kind = .number) :
    IsUnit .number t.lexeme ∧ ∃ x, t.literal = some (.number (.signed false x)) ∧
      IsRounded (valueOf t.lexeme) x := by
  obtain ⟨value, ⟨hunit, hvalue, -⟩, hliteral⟩ := exists_isNumeralOf_of_mem_body ht hkind
  obtain ⟨x, hx, hrounded⟩ := exists_isRounded hunit
  obtain rfl := Option.some.inj (hvalue.symm.trans hx)
  exact ⟨hunit, x, hliteral, hrounded⟩

/-- The literal of a number is the finite value nearest to the number that its lexeme spells, or
infinity where that is beyond the range.  So it keeps the order, and zeros that do not count make
no difference. -/
theorem literal_stands_for_lexeme (ht : t ∈ (scan source).body) (hkind : t.kind = .number) :
    ∃ x, t.literal = some (.number (.signed false x)) ∧ Stands (valueOf t.lexeme) x ∧
      (∀ other, ∀ u ∈ (scan other).body, u.kind = .number →
        valueOf t.lexeme ≤ valueOf u.lexeme →
          ∃ y, u.literal = some (.number (.signed false y)) ∧ x.size ≤ y.size) ∧
      ∀ more, Pads t.lexeme more →
        (scan more).answer =
          .ok [⟨.number, more, t.literal, 1⟩, ⟨.endOfInput, [], none, 1⟩] := by
  obtain ⟨hunit, x, hliteral, hrounded⟩ := exists_isRounded_of_mem_body ht hkind
  refine ⟨x, hliteral, hrounded.stands (valueOf_nonneg _), fun other u hu hnumber hle => ?_,
    fun more hpads => ?_⟩
  · obtain ⟨-, y, hy, hother⟩ := exists_isRounded_of_mem_body hu hnumber
    exact ⟨y, hy, hrounded.size_le_size hother hle⟩
  · have hmore := isUnit_of_pads hpads hunit
    obtain ⟨y, hy, hother⟩ := exists_isRounded hmore
    rw [valueOf_of_pads hpads] at hother
    obtain rfl := hrounded.unique hother
    rw [hliteral]
    exact answer_scan_of_isNumeralOf ⟨hmore, hy, _, rfl⟩

theorem literal_stands_for_lexeme_at_tie :
    let x := ofRank (1076 * binade)
    let t : Token := ⟨.number, "9007199254740993".toList, some (.number (.signed false x)), 1⟩
    t ∈ (scan "9007199254740993;".toList).body ∧ valueOf t.lexeme = 2 ^ 53 + 1 ∧
      x.value = 2 ^ 53 ∧ IsNearest (2 ^ 53 + 1) x ∧
      let padded := "09007199254740993.0".toList
      (scan padded).answer =
        .ok [⟨.number, padded, t.literal, 1⟩, ⟨.endOfInput, [], none, 1⟩] := by
  intro x t
  have ht : t ∈ (scan "9007199254740993;".toList).body := by decide +kernel
  have hvalue : valueOf t.lexeme = 2 ^ 53 + 1 := by decide +kernel
  obtain ⟨y, hliteral, hstands, -, hpads⟩ := literal_stands_for_lexeme ht rfl
  obtain rfl : x = y := by simpa [t] using hliteral
  have hbelow : valueOf t.lexeme < 2 ^ 1024 - 2 ^ 970 := by
    calc valueOf t.lexeme = 2 ^ 53 + 1 := hvalue
      _ < 2 ^ 970 := lt_of_lt_of_le (b := 2 ^ 54) (by norm_num)
          (pow_le_pow_right₀ (by norm_num) (by norm_num))
      _ ≤ 2 ^ 1024 - 2 ^ 970 := two_pow_le_limit
  refine ⟨ht, hvalue, by decide +kernel, hvalue ▸ (hstands.nearest hbelow).2, hpads _ ?_⟩
  exact .point (by decide) (.front .same)

end Lexer

end LoxLexer
