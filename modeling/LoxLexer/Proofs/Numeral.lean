import LoxLexer.Number.Reading
import LoxLexer.Proofs.Grammar

namespace LoxLexer.Number

open Grammar Text

variable {c : Char} {text digits tail : List Char}

def numberParts : List Char := ['0', '1', '2', '3', '4', '5', '6', '7', '8', '9', '.']

theorem mem_numberParts_of_isDigit (h : IsDigit c) : c ∈ numberParts := by
  have hlow : 48 ≤ c.toNat := h.1
  have hhigh : c.toNat ≤ 57 := h.2
  rw [← Char.ofNat_toNat c]
  interval_cases c.toNat <;> decide

theorem mem_numberParts_of_isNumeral (h : IsNumeral text) (hc : c ∈ text) : c ∈ numberParts :=
  mem_numberParts_of_isDigit (h.2 c hc)

def decimalParts : List Char := numberParts ++ ['e', '+', '-']

theorem plain_of_mem_decimalParts (h : c ∈ decimalParts) : plain c = c := by
  fin_cases h <;> decide

theorem isSpace_of_mem_decimalParts (h : c ∈ decimalParts) : isSpace c = false := by
  fin_cases h <;> decide

theorem toLower_of_mem_decimalParts (h : c ∈ decimalParts) : c.toLower = c := by
  fin_cases h <;> decide

theorem map_eq_self {f : Char → Char} (h : ∀ c ∈ text, f c = c) : text.map f = text := by
  rw [List.map_congr_left h, List.map_id']

theorem trim_eq_self (h : ∀ c ∈ text, isSpace c = false) : trim text = text := by
  have hfront : ∀ other : List Char, (∀ c ∈ other, isSpace c = false) →
      other.dropWhile isSpace = other := by
    intro other hother
    exact List.dropWhile_eq_self_iff.2 fun hpos => by simp [hother _ (List.getElem_mem hpos)]
  rw [trim, hfront text h, hfront text.reverse fun c hc => h c (List.mem_reverse.1 hc),
    List.reverse_reverse]

theorem joinGroups_eq_self (h : '_' ∉ text) : joinGroups text = some text := by
  fun_induction joinGroups text with
  | case1 => rfl
  | case2 => simp at h
  | case3 => simp at h
  | case4 => simp at h
  | case5 c rest _ _ ih =>
    rw [ih fun hmem => h (List.mem_cons_of_mem c hmem)]
    rfl

theorem mem_of_mem_takeSign (h : c ∈ (takeSign text).2) : c ∈ text := by
  unfold takeSign at h
  split at h
  · exact List.mem_cons_of_mem _ h
  · exact List.mem_cons_of_mem _ h
  · exact h

/-- All that remains to be read of a text of digits, points, signs and marks of exponents is a
decimal behind a sign. -/
theorem ofText?_of_decimalParts (hparts : ∀ d ∈ text, d ∈ decimalParts) :
    Binary64.ofText? text =
      (decimal? (takeSign text).2).map fun d => .signed (takeSign text).1 d.magnitude := by
  have hplain : text.map plain = text :=
    map_eq_self fun d hd => plain_of_mem_decimalParts (hparts d hd)
  have htrim : trim text = text :=
    trim_eq_self fun d hd => isSpace_of_mem_decimalParts (hparts d hd)
  have hjoin : joinGroups text = some text :=
    joinGroups_eq_self fun hmem => absurd (hparts _ hmem) (by decide)
  have hrest : ∀ d ∈ (takeSign text).2, d ∈ decimalParts := fun d hd =>
    hparts d (mem_of_mem_takeSign hd)
  have hlower : (takeSign text).2.map Char.toLower = (takeSign text).2 :=
    map_eq_self fun d hd => toLower_of_mem_decimalParts (hrest d hd)
  have hword : ∀ word : List Char, 'n' ∈ word → (takeSign text).2 ≠ word := by
    rintro word hmem rfl
    exact absurd (hrest _ hmem) (by decide)
  rw [Binary64.ofText?, hplain, htrim, hjoin, Option.bind_some]
  simp only [unsigned?, hlower, hword "inf".toList (by decide), hword "infinity".toList (by decide),
    hword "nan".toList (by decide), or_self, if_false]

theorem takeSign_of_isDigit (hc : IsDigit c) : takeSign (c :: text) = (false, c :: text) := by
  unfold takeSign
  split
  · next h => exact absurd ((List.cons.inj h).1 ▸ hc) (by decide)
  · next h => exact absurd ((List.cons.inj h).1 ▸ hc) (by decide)
  · rfl

theorem ofText?_of_numberParts (hparts : ∀ d ∈ c :: text, d ∈ numberParts) (hc : IsDigit c) :
    Binary64.ofText? (c :: text) =
      (decimal? (c :: text)).map fun d => .signed false d.magnitude := by
  rw [ofText?_of_decimalParts fun d hd => List.mem_append_left _ (hparts d hd),
    takeSign_of_isDigit hc]

theorem numeralValue_append (text digits : List Char) :
    numeralValue (text ++ digits) =
      10 ^ digits.length * numeralValue text + numeralValue digits := by
  rw [numeralValue, Nat.ofDigitChars_append, Nat.ofDigitChars_eq_ofDigitChars_zero]
  rfl

theorem takeWhile_isDigit_append (htext : ∀ d ∈ text, IsDigit d)
    (htail : ∀ c ∈ tail.head?, ¬ IsDigit c) :
    (text ++ tail).takeWhile Char.isDigit = text ∧
      (text ++ tail).dropWhile Char.isDigit = tail := by
  have hdigits : ∀ d ∈ text, d.isDigit = true := fun d hd => isDigit_iff.2 (htext d hd)
  rw [List.takeWhile_append_of_pos hdigits, List.dropWhile_append_of_pos hdigits]
  cases tail with
  | nil => simp
  | cons c tail =>
    have hc : ¬ c.isDigit = true := mt isDigit_iff.1 (htail c rfl)
    simp [hc]

/-- What may follow the digits of a decimal is an exponent, which the mark tells from digits and
from a point. -/
theorem decimal?_whole_append (h : IsNumeral text) (htail : ∀ c ∈ tail.head?, c = 'e') :
    decimal? (text ++ tail) = (exponent? tail).map fun e => ⟨numeralValue text, e⟩ := by
  obtain ⟨htake, hdrop⟩ := takeWhile_isDigit_append h.2 fun c hc => by
    rw [htail c hc]
    decide
  have hfraction : takeFraction tail = ([], tail) := by
    unfold takeFraction
    split
    · exact absurd (htail '.' rfl) (by decide)
    · rfl
  simp [decimal?, htake, hdrop, hfraction, h.1]

theorem decimal?_fraction_append (h : IsNumeral text) (hdigits : IsNumeral digits)
    (htail : ∀ c ∈ tail.head?, c = 'e') :
    decimal? (text ++ '.' :: (digits ++ tail)) =
      (exponent? tail).map fun e => ⟨numeralValue (text ++ digits), e - digits.length⟩ := by
  have hpoint : ∀ c ∈ ('.' :: (digits ++ tail)).head?, ¬ IsDigit c := by
    rintro c ⟨⟩
    decide
  obtain ⟨htake, hdrop⟩ := takeWhile_isDigit_append h.2 hpoint
  obtain ⟨hmore, hrest⟩ := takeWhile_isDigit_append hdigits.2 fun c hc => by
    rw [htail c hc]
    decide
  simp [decimal?, htake, hdrop, takeFraction, hmore, hrest, h.1]

theorem decimal?_whole (h : IsNumeral text) : decimal? text = some ⟨numeralValue text, 0⟩ := by
  have hdecimal := @decimal?_whole_append _ [] h nofun
  rwa [List.append_nil] at hdecimal

theorem decimal?_fraction (h : IsNumeral text) (hdigits : IsNumeral digits) :
    decimal? (text ++ '.' :: digits) =
      some ⟨numeralValue (text ++ digits), -digits.length⟩ := by
  have hdecimal := @decimal?_fraction_append _ _ [] h hdigits nofun
  rwa [List.append_nil, exponent?, Option.map_some, Int.zero_sub] at hdecimal

theorem ofText?_whole (h : IsNumeral text) :
    Binary64.ofText? text =
      some (.signed false (Decimal.magnitude ⟨numeralValue text, 0⟩)) := by
  obtain ⟨c, rest, rfl, hc, -⟩ := h.exists_cons
  rw [ofText?_of_numberParts (fun d hd => mem_numberParts_of_isNumeral h hd) hc, decimal?_whole h]
  rfl

theorem mem_numberParts_of_isUnit (h : IsUnit .number text) (hc : c ∈ text) :
    c ∈ numberParts := by
  cases h with
  | whole h => exact mem_numberParts_of_isNumeral h hc
  | fraction h hdigits =>
    rcases List.mem_append.1 hc with hc | hc
    · exact mem_numberParts_of_isNumeral h hc
    · rcases List.mem_cons.1 hc with rfl | hc
      · decide
      · exact mem_numberParts_of_isNumeral hdigits hc

theorem ofText?_fraction (h : IsNumeral text) (hdigits : IsNumeral digits) :
    Binary64.ofText? (text ++ '.' :: digits) =
      some (.signed false (Decimal.magnitude ⟨numeralValue (text ++ digits), -digits.length⟩)) := by
  have hparts : ∀ d ∈ text ++ '.' :: digits, d ∈ numberParts := fun _ hd =>
    mem_numberParts_of_isUnit (.fraction h hdigits) hd
  have hdecimal := decimal?_fraction h hdigits
  obtain ⟨c, rest, rfl, hc, -⟩ := h.exists_cons
  rw [List.cons_append] at hparts hdecimal ⊢
  rw [ofText?_of_numberParts hparts hc, hdecimal]
  rfl

theorem ofText?_of_isUnit (h : IsUnit .number text) :
    ∃ x, Binary64.ofText? text = some (.signed false x) := by
  cases h with
  | whole h => exact ⟨_, ofText?_whole h⟩
  | fraction h hdigits => exact ⟨_, ofText?_fraction h hdigits⟩

end LoxLexer.Number
