import LoxLexer.Number.Printing
import LoxLexer.Proofs.NumberValues
import LoxLexer.Token.Printing

/-! What is printed for a number is read back as the number.  The shortest decimal is found by
trying which decimals have the magnitude, and each of the ways to write it out keeps its value. -/

namespace LoxLexer

open Grammar Text

namespace Magnitude

variable {x : Magnitude} {d : Decimal} {e : ℤ}

theorem roundDiv_eq_or (num den : ℕ) :
    roundDiv num den = num / den ∨ roundDiv num den = num / den + 1 := by
  unfold roundDiv
  dsimp only
  split
  · exact .inl rfl
  · exact .inr rfl

theorem magnitude_of_onGrid? (h : x.onGrid? e = some d) : d.magnitude = x := by
  have hround := roundDiv_eq_or (x.gridNumerator e) (gridDenominator e)
  unfold onGrid? at h
  dsimp only at h
  split at h
  · next hlow =>
    split at h
    · next hhigh =>
      obtain rfl := Option.some.inj h
      rcases hround with hround | hround
      · rw [hround, hlow]
      · rw [hround, hhigh]
    · exact Option.some.inj h ▸ hlow
  · split at h
    · next hhigh => exact Option.some.inj h ▸ hhigh
    · cases h

/-- Ten is twice five, so a number of units has as many decimal places as it has binary ones. -/
theorem mul_five_pow_mul_ten_zpow (units n : ℕ) :
    (units : ℚ) * 5 ^ n * 10 ^ (-n : ℤ) * 2 ^ n = units := by
  have hten : (10 : ℚ) ^ n = 5 ^ n * 2 ^ n := by
    rw [← mul_pow]
    norm_num
  rw [zpow_neg, zpow_natCast, hten]
  field_simp

theorem value_exact (x : Magnitude) : x.exact.value = x.value := by
  have hpow : ∀ b n : ℕ, ((Nat.pow b n : ℕ) : ℚ) = b ^ n := Nat.cast_pow
  refine mul_right_cancel₀ unitsPerOne_pos.ne' ?_
  rw [value_mul_unitsPerOne]
  simp only [exact, Decimal.value, Nat.cast_mul, hpow, unitsPerOne]
  exact mul_five_pow_mul_ten_zpow x.units 1074

/-- Even where no grid had a hit the shortest decimal would have the magnitude. -/
theorem magnitude_shortest (x : Magnitude) : x.shortest.magnitude = x := by
  have hnormalize : ∀ d : Decimal, d.magnitude = x → d.normalize.magnitude = x := fun d hd => by
    rw [Decimal.magnitude_eq_of_value_eq d.value_normalize, hd]
  unfold shortest
  refine hnormalize _ ?_
  cases hfind : (List.range 17).findSome? fun (n : ℕ) => x.onGrid? (x.scale - (n + 1)) with
  | none => exact Decimal.magnitude_of_value_eq x.value_exact
  | some d =>
    obtain ⟨n, -, hn⟩ := List.exists_of_findSome?_eq_some hfind
    exact magnitude_of_onGrid? hn

end Magnitude

namespace Number

inductive Writes : List Char → ℚ → Prop
  | positional {whole fraction} : IsNumeral whole → IsNumeral fraction →
      Writes (whole ++ '.' :: fraction) (valueOf (whole ++ '.' :: fraction))
  | scientific {mantissa} (e : ℤ) : IsUnit .number mantissa →
      Writes (mantissa ++ exponentText e) (valueOf mantissa * 10 ^ e)

variable {c : Char} {text digits more whole fraction : List Char} {v : ℚ} {d : Decimal}

theorem Writes.text_cases (h : Writes text v) :
    (∃ mantissa e, IsUnit .number mantissa ∧ text = mantissa ++ exponentText e) ∨
      ∃ whole fraction, IsNumeral whole ∧ IsNumeral fraction ∧ text = whole ++ '.' :: fraction := by
  cases h with
  | positional h hfraction => exact .inr ⟨_, _, h, hfraction, rfl⟩
  | scientific e h => exact .inl ⟨_, e, h, rfl⟩

theorem isNumeral_numeral (n : ℕ) : IsNumeral (numeral n) :=
  ⟨Nat.toDigits_ne_nil, fun _ hc =>
    isDigit_iff.1 (Nat.isDigit_of_mem_toDigits (by decide) (by decide) hc)⟩

theorem isNumeral_append (h : IsNumeral digits) (hmore : ∀ c ∈ more, IsDigit c) :
    IsNumeral (digits ++ more) :=
  ⟨by simp [h.1], List.forall_mem_append.2 ⟨h.2, hmore⟩⟩

theorem isDigit_of_mem_replicate (n : ℕ) : ∀ c ∈ List.replicate n '0', IsDigit c := by
  intro c hc
  rw [List.eq_of_mem_replicate hc]
  decide

theorem numeralValue_append_replicate (digits : List Char) (n : ℕ) :
    numeralValue (digits ++ List.replicate n '0') = 10 ^ n * numeralValue digits := by
  rw [numeralValue, Nat.ofDigitChars_append, Nat.ofDigitChars_replicate_zero]
  rfl

theorem numeralValue_replicate_append (n : ℕ) (digits : List Char) :
    numeralValue (List.replicate n '0' ++ digits) = numeralValue digits := by
  have hzero := numeralValue_append_replicate [] n
  rw [List.nil_append] at hzero
  rw [numeralValue_append, hzero]
  simp [numeralValue]

theorem writes_append (h : IsNumeral whole) (hfraction : IsNumeral fraction) :
    Writes (whole ++ '.' :: fraction)
      (Decimal.value ⟨numeralValue (whole ++ fraction), -fraction.length⟩) :=
  value_fraction h fraction ▸ .positional h hfraction

theorem writes_positional (h : IsNumeral digits) (point : ℤ) :
    Writes (positional digits point)
      (Decimal.value ⟨numeralValue digits, point - digits.length⟩) := by
  unfold positional
  split
  · next hpoint =>
    let zeros := List.replicate (-point).toNat '0'
    have hfraction : IsNumeral (zeros ++ digits) :=
      ⟨by simp [h.1], List.forall_mem_append.2 ⟨isDigit_of_mem_replicate _, h.2⟩⟩
    have hwrites := writes_append (by decide : IsNumeral ['0']) hfraction
    have hvalue : numeralValue (['0'] ++ (zeros ++ digits)) = numeralValue digits :=
      numeralValue_replicate_append ((-point).toNat + 1) digits
    have hexponent : -((zeros ++ digits).length : ℤ) = point - digits.length := by
      simp only [zeros, List.length_append, List.length_replicate]
      omega
    rwa [hvalue, hexponent] at hwrites
  · split
    · next hpos hinside =>
      have htake : IsNumeral (digits.take point.toNat) :=
        ⟨by simp [h.1]; omega, fun c hc => h.2 c (List.mem_of_mem_take hc)⟩
      have hdrop : IsNumeral (digits.drop point.toNat) :=
        ⟨by simpa using hinside, fun c hc => h.2 c (List.mem_of_mem_drop hc)⟩
      have hwrites := writes_append htake hdrop
      have hexponent : -((digits.drop point.toNat).length : ℤ) = point - digits.length := by
        rw [List.length_drop]
        omega
      rwa [List.take_append_drop, hexponent] at hwrites
    · next hpos hbeyond =>
      let n := point.toNat - digits.length
      have hwhole := isNumeral_append h (isDigit_of_mem_replicate n)
      have hwrites := writes_append hwhole (by decide : IsNumeral ['0'])
      have hvalue : numeralValue (digits ++ List.replicate n '0' ++ ['0']) =
          10 ^ (n + 1) * numeralValue digits := by
        rw [List.append_assoc, ← List.replicate_succ', numeralValue_append_replicate]
      have hexponent : ((n + 1 : ℕ) : ℤ) + -(['0'].length : ℤ) = point - digits.length := by
        rw [List.length_singleton]
        omega
      rw [hvalue, Decimal.value_ten_pow_mul, hexponent] at hwrites
      rwa [List.append_assoc] at hwrites ⊢

theorem writes_scientific (h : IsNumeral digits) (point : ℤ) :
    Writes (scientific digits point)
      (Decimal.value ⟨numeralValue digits, point - digits.length⟩) := by
  unfold scientific
  split
  · next c d rest =>
    obtain ⟨hc, hrest⟩ := List.forall_mem_cons.1 h.2
    have hwhole : IsNumeral [c] := ⟨by simp, by simpa using hc⟩
    have hwrites := Writes.scientific (point - 1) (.fraction hwhole ⟨by simp, hrest⟩)
    have hexponent : -((d :: rest).length : ℤ) + (point - 1) = point - (c :: d :: rest).length := by
      simp only [List.length_cons]
      omega
    rw [← value_fraction hwhole, Decimal.value_mul_ten_zpow, hexponent] at hwrites
    exact hwrites
  · next hshort =>
    have hwrites := Writes.scientific (point - 1) (.whole h)
    have hlength : digits.length = 1 := by
      obtain ⟨c, rest, rfl, -⟩ := h.exists_cons
      cases rest with
      | nil => rfl
      | cons d rest => exact absurd rfl (hshort c d rest)
    rw [← value_whole h, Decimal.value_mul_ten_zpow, zero_add] at hwrites
    rwa [hlength]

theorem writes_toText (d : Decimal) : Writes d.toText d.value := by
  have hdigits := isNumeral_numeral d.digits
  have hvalue : ∀ point, point = (numeral d.digits).length + d.exponent →
      Decimal.value ⟨numeralValue (numeral d.digits), point - (numeral d.digits).length⟩ =
        d.value := by
    rintro point rfl
    rw [numeralValue_numeral, add_sub_cancel_left]
  unfold Decimal.toText
  dsimp only
  split
  · exact hvalue _ rfl ▸ writes_positional hdigits _
  · exact hvalue _ rfl ▸ writes_scientific hdigits _

theorem isNumeral_exponentDigits (n : ℕ) : IsNumeral (exponentDigits n) := by
  have h := isNumeral_numeral n
  unfold exponentDigits
  split
  · exact ⟨by simp, List.forall_mem_cons.2 ⟨by decide, h.2⟩⟩
  · exact h

theorem numeralValue_exponentDigits (n : ℕ) : numeralValue (exponentDigits n) = n := by
  have hzero : numeralValue ('0' :: numeral n) = numeralValue (numeral n) := rfl
  unfold exponentDigits
  split
  · rw [hzero, numeralValue_numeral]
  · exact numeralValue_numeral n

theorem exponent?_exponentText (e : ℤ) : exponent? (exponentText e) = some e := by
  have hdigits := isNumeral_exponentDigits e.natAbs
  have hall : (exponentDigits e.natAbs).all Char.isDigit = true :=
    List.all_eq_true.2 fun c hc => isDigit_iff.2 (hdigits.2 c hc)
  unfold exponentText
  split
  · next hneg =>
    simp [exponent?, takeSign, hdigits.1, hall, numeralValue_exponentDigits, abs_of_neg hneg]
  · next hnonneg =>
    simp [exponent?, takeSign, hdigits.1, hall, numeralValue_exponentDigits,
      abs_of_nonneg (not_lt.1 hnonneg)]

theorem Writes.exists_decimal? (h : Writes text v) :
    ∃ d, decimal? text = some d ∧ d.value = v := by
  cases h with
  | @positional whole fraction h hfraction =>
    exact ⟨_, decimal?_fraction h hfraction, value_fraction h fraction⟩
  | @scientific mantissa e h =>
    have htail : ∀ c ∈ (exponentText e).head?, c = 'e' := by
      rintro c ⟨⟩
      rfl
    cases h with
    | whole h =>
      refine ⟨_, (decimal?_whole_append h htail).trans (by rw [exponent?_exponentText]; rfl), ?_⟩
      rw [← value_whole h, Decimal.value_mul_ten_zpow, zero_add]
    | @fraction whole fraction h hfraction =>
      refine ⟨⟨numeralValue (whole ++ fraction), e - fraction.length⟩, ?_, ?_⟩
      · rw [List.append_assoc, List.cons_append, decimal?_fraction_append h hfraction htail,
          exponent?_exponentText]
        rfl
      · rw [← value_fraction h, Decimal.value_mul_ten_zpow, neg_add_eq_sub]

theorem mem_decimalParts_of_isUnit (h : IsUnit .number text) (hc : c ∈ text) :
    c ∈ decimalParts :=
  List.mem_append_left _ (mem_numberParts_of_isUnit h hc)

theorem mem_decimalParts_of_mem_exponentText (e : ℤ) (hc : c ∈ exponentText e) :
    c ∈ decimalParts := by
  have hdigits : ∀ d ∈ exponentDigits e.natAbs, d ∈ decimalParts := fun d hd =>
    mem_decimalParts_of_isUnit (.whole (isNumeral_exponentDigits _)) hd
  unfold exponentText at hc
  rcases List.mem_cons.1 hc with rfl | hc
  · decide
  · rcases List.mem_cons.1 hc with rfl | hc
    · split <;> decide
    · exact hdigits c hc

theorem Writes.mem_decimalParts (h : Writes text v) (hc : c ∈ text) : c ∈ decimalParts := by
  cases h with
  | positional h hfraction => exact mem_decimalParts_of_isUnit (.fraction h hfraction) hc
  | scientific e h =>
    rcases List.mem_append.1 hc with hc | hc
    · exact mem_decimalParts_of_isUnit h hc
    · exact mem_decimalParts_of_mem_exponentText e hc

theorem exists_cons_of_isUnit (h : IsUnit .number text) :
    ∃ c rest, text = c :: rest ∧ IsDigit c := by
  cases h with
  | whole h =>
    obtain ⟨c, rest, rfl, hc, -⟩ := h.exists_cons
    exact ⟨c, rest, rfl, hc⟩
  | fraction h =>
    obtain ⟨c, rest, rfl, hc, -⟩ := h.exists_cons
    exact ⟨c, _, rfl, hc⟩

theorem Writes.exists_cons (h : Writes text v) : ∃ c rest, text = c :: rest ∧ IsDigit c := by
  cases h with
  | positional h hfraction => exact exists_cons_of_isUnit (.fraction h hfraction)
  | scientific e h =>
    obtain ⟨c, rest, rfl, hc⟩ := exists_cons_of_isUnit h
    exact ⟨c, _, rfl, hc⟩

theorem Writes.ofText? (h : Writes text d.value) :
    Binary64.ofText? text = some (.signed false d.magnitude) ∧
      Binary64.ofText? ('-' :: text) = some (.signed true d.magnitude) := by
  obtain ⟨e, hdecimal, hvalue⟩ := h.exists_decimal?
  obtain ⟨c, rest, rfl, hc⟩ := h.exists_cons
  have hparts : ∀ d ∈ c :: rest, d ∈ decimalParts := fun _ hd => h.mem_decimalParts hd
  have hsigned : ∀ d ∈ '-' :: c :: rest, d ∈ decimalParts :=
    List.forall_mem_cons.2 ⟨by decide, hparts⟩
  have hminus : takeSign ('-' :: c :: rest) = (true, c :: rest) := rfl
  rw [ofText?_of_decimalParts hparts, takeSign_of_isDigit hc, ofText?_of_decimalParts hsigned,
    hminus, hdecimal, Decimal.magnitude_eq_of_value_eq hvalue.symm]
  exact ⟨rfl, rfl⟩

end Number

namespace Magnitude

open Number

theorem toText_cases (x : Magnitude) :
    x = infinity ∧ x.toText = "inf".toList ∨
      ∃ d : Decimal, d.magnitude = x ∧ Writes x.toText d.value := by
  unfold toText
  split
  · next hzero =>
    have hwrites := writes_append (by decide : IsNumeral ['0']) (by decide : IsNumeral ['0'])
    exact .inr ⟨_, by rw [hzero]; rfl, hwrites⟩
  · split
    · next hinfinity => exact .inl ⟨hinfinity, rfl⟩
    · exact .inr ⟨_, x.magnitude_shortest, writes_toText x.shortest⟩

theorem ofText?_toText (x : Magnitude) :
    Binary64.ofText? x.toText = some (.signed false x) ∧
      Binary64.ofText? ('-' :: x.toText) = some (.signed true x) := by
  rcases x.toText_cases with ⟨hinfinity, htext⟩ | ⟨d, hd, hwrites⟩
  · rw [htext, hinfinity]
    decide +kernel
  · exact hd ▸ hwrites.ofText?

end Magnitude

namespace Number

def valueParts : List Char := decimalParts ++ ['i', 'n', 'f', 'a']

end Number

theorem Magnitude.mem_valueParts {c : Char} {x : Magnitude} (hc : c ∈ x.toText) :
    c ∈ Number.valueParts := by
  have hinfinity : "inf".toList ⊆ Number.valueParts := by decide
  rcases x.toText_cases with ⟨-, htext⟩ | ⟨d, -, hwrites⟩
  · exact hinfinity (htext ▸ hc)
  · exact List.mem_append_left _ (hwrites.mem_decimalParts hc)

theorem Binary64.ofText?_toText (x : Binary64) : ofText? x.toText = some x := by
  cases x with
  | notANumber => decide +kernel
  | signed negative x =>
    obtain ⟨hplain, hminus⟩ := x.ofText?_toText
    cases negative with
    | false => exact hplain
    | true => exact hminus

theorem Binary64.toText_injective : Function.Injective toText := fun x y h =>
  Option.some.inj (x.ofText?_toText.symm.trans (h ▸ y.ofText?_toText))

theorem Binary64.mem_valueParts {c : Char} {x : Binary64} (hc : c ∈ x.toText) :
    c ∈ Number.valueParts := by
  cases x with
  | notANumber =>
    have hword : "nan".toList ⊆ Number.valueParts := by decide
    exact hword hc
  | signed negative x =>
    cases negative with
    | false => exact Magnitude.mem_valueParts hc
    | true =>
      rcases List.mem_cons.1 hc with rfl | hc
      · decide
      · exact Magnitude.mem_valueParts hc

theorem Binary64.exists_toText_eq_cons (x : Binary64) :
    ∃ c rest, x.toText = c :: rest ∧ c ∈ Number.valueParts := by
  have hne : x.toText ≠ [] := by
    intro h
    have hread := x.ofText?_toText
    rw [h] at hread
    cases hread
  obtain ⟨c, rest, htext⟩ := List.exists_cons_of_ne_nil hne
  exact ⟨c, rest, htext, mem_valueParts (htext ▸ List.mem_cons_self)⟩

namespace Lexer

open Number

variable {source : List Char} {t : Token}

/-- A number token prints its literal so that it is read back.  Where the text is positional, it is
a number of the language and scanned as one. -/
theorem literal_text_reads_back (ht : t ∈ (scan source).body) (hkind : t.kind = .number) :
    ∃ value : Binary64, t.literal = some (.number value) ∧
      t.toText = "NUMBER(".toList ++ quoted t.lexeme ++ " -> ".toList ++ value.toText ++ [')'] ∧
      Binary64.ofText? value.toText = some value ∧
      (value.toText = "inf".toList ∨
        (∃ mantissa e, IsUnit .number mantissa ∧ value.toText = mantissa ++ exponentText e) ∨
        ∃ whole fraction, IsNumeral whole ∧ IsNumeral fraction ∧
          value.toText = whole ++ '.' :: fraction ∧
          (scan value.toText).answer =
            .ok [⟨.number, value.toText, some (.number value), 1⟩,
              ⟨.endOfInput, [], none, 1⟩]) := by
  obtain ⟨-, x, hliteral, -⟩ := exists_isRounded_of_mem_body ht hkind
  have hread := (Binary64.signed false x).ofText?_toText
  refine ⟨.signed false x, hliteral, ?_, hread, ?_⟩
  · simp [Token.toText, hkind, hliteral, Kind.name, Literal.toText]
  · rcases x.toText_cases with ⟨-, hinfinity⟩ | ⟨d, -, hwrites⟩
    · exact .inl hinfinity
    · refine .inr (hwrites.text_cases.imp_right ?_)
      rintro ⟨whole, fraction, hwhole, hfraction, htext⟩
      have hunit : IsUnit .number x.toText := htext ▸ .fraction hwhole hfraction
      exact ⟨whole, fraction, hwhole, hfraction, htext,
        answer_scan_of_isNumeralOf ⟨hunit, hread, x, rfl⟩⟩

theorem literal_text_reads_back_of_whole :
    let value : Binary64 := .signed false (.ofRank (1026 * Magnitude.binade + 2 ^ 50))
    let t : Token := ⟨.number, "10".toList, some (.number value), 2⟩
    t ∈ (scan "\n10.e".toList).body ∧ t.toText = "NUMBER('10' -> 10.0)".toList ∧
      Binary64.ofText? "10.0".toList = some value ∧
      (scan "10.0".toList).answer =
        .ok [⟨.number, "10.0".toList, some (.number value), 1⟩, ⟨.endOfInput, [], none, 1⟩] := by
  intro value t
  have ht : t ∈ (scan "\n10.e".toList).body := by decide +kernel
  have htext : value.toText = "10.0".toList := by decide +kernel
  obtain ⟨other, hliteral, hprinted, hread, hforms⟩ := literal_text_reads_back ht rfl
  obtain rfl : value = other := by simpa [t] using hliteral
  rw [htext] at hprinted hread hforms
  refine ⟨ht, hprinted.trans (by decide +kernel), hread, ?_⟩
  rcases hforms with hinfinity | ⟨mantissa, e, -, hexponent⟩ | ⟨-, -, -, -, -, hanswer⟩
  · exact absurd hinfinity (by decide)
  · have hmark : 'e' ∈ "10.0".toList := hexponent ▸ by simp [exponentText]
    exact absurd hmark (by decide)
  · exact hanswer

end Lexer

end LoxLexer
