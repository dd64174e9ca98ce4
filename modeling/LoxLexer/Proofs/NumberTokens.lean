import LoxLexer.Proofs.Run

namespace LoxLexer

open Grammar Segment

def Number.IsNumeralOf (lexeme : List Char) (value : Binary64) : Prop :=
  IsUnit .number lexeme ∧ Binary64.ofText? lexeme = some value ∧ ∃ x, value = .signed false x

variable {c : Char} {text rest : List Char} {s : Segment} {t : Token} {line : Int}

namespace Number

theorem exists_isNumeralOf (h : IsUnit .number text) : ∃ value, IsNumeralOf text value := by
  obtain ⟨x, hx⟩ := ofText?_of_isUnit h
  exact ⟨_, h, hx, _, rfl⟩

/-- Texts beyond the grammar that can be read as a number: with a sign, with an exponent, grouped,
no finite number, beyond ASCII, with white space around it. -/
def widerNumbers : List (List Char) :=
  [['+', '1'], ['-', '0'], ['1', 'e', '5'], ['1', '_', '0'], ['i', 'n', 'f'], ['n', 'a', 'n'],
    ['٣'], [' ', '1', '\n']]

theorem not_isUnit_of_mem_widerNumbers (h : text ∈ widerNumbers) : ¬ IsUnit .number text := by
  have hall : ∀ text ∈ widerNumbers, ∃ c ∈ text, c ∉ numberParts := by
    simp [widerNumbers, numberParts]
  obtain ⟨c, hc, hnot⟩ := hall text h
  exact fun hunit => hnot (mem_numberParts_of_isUnit hunit hc)

theorem exists_value_of_mem_widerNumbers (h : text ∈ widerNumbers) :
    ∃ value, Binary64.ofText? text = some value := by
  have hall : ∀ text ∈ widerNumbers, (Binary64.ofText? text).isSome = true := by decide +kernel
  exact Option.isSome_iff_exists.1 (hall text h)

end Number

theorem Grammar.HasKind.shape_eq_number (h : HasKind s .number) (hunit : IsUnit s.shape s.text) :
    s.shape = .number := by
  cases h with
  | sign =>
    cases hunit with
    | sign hmem =>
      have hall : ∀ p ∈ signs, p.2 ≠ .number := by decide
      exact absurd rfl (hall _ hmem)
  | number => rfl
  | reserved hmem =>
    have hall : ∀ p ∈ reservedWords, p.2 ≠ .number := by decide
    exact absurd rfl (hall _ hmem)

theorem Segment.exists_isNumeralOf_of_token? (h : IsUnit s.shape s.text)
    (ht : s.token? line = some t) (hkind : t.kind = .number) :
    ∃ value, Number.IsNumeralOf t.lexeme value ∧ t.literal = some (.number value) := by
  rcases token?_cases h line with ⟨-, hnone⟩ | ⟨kind, literal, hhas, hsome⟩
  · rw [hnone] at ht
    cases ht
  · obtain rfl := Option.some.inj (hsome.symm.trans ht)
    obtain rfl : kind = .number := hkind
    have hshape := hhas.shape_eq_number h
    obtain ⟨value, hvalue⟩ := Number.exists_isNumeralOf (hshape ▸ h)
    refine ⟨value, hvalue, ?_⟩
    rw [token?, hshape, hvalue.2.1] at hsome
    exact (congrArg Token.literal (Option.some.inj hsome)).symm

namespace Lexer

inductive Reaches (accepts : Bool) (x : Lexer) : Lexer → Prop
  | start : Reaches accepts x x
  | step {y} : Reaches accepts x y → ¬ y.atEnd = true →
      (y.markHere.readUnit accepts).answer = .ok () →
      Reaches accepts x (y.markHere.readUnit accepts).lexer

variable {accepts : Bool} {x y : Lexer}

theorem Reaches.cursor_nonneg (h : Reaches accepts x y) (hc : 0 ≤ x.cursor) : 0 ≤ y.cursor := by
  induction h with
  | start => exact hc
  | @step y _ _ hanswer ih =>
    have hstep := cursor_lt_cursor_readUnit accepts y.markHere
      (rest_ne_nil_of_readUnit accepts y.markHere hanswer)
    exact Int.le_of_lt (Int.lt_of_le_of_lt ih hstep)

theorem readUnit_of_shape_eq_number (hc : 0 ≤ y.cursor) (hrest : y.rest = c :: rest)
    (h : (front c rest).shape = .number) :
    let z := y.markHere.pass (front c rest).text
    y.markHere.readUnit accepts = z.emitNumber ∧ ∃ value, Number.IsNumeralOf z.lexeme value := by
  intro z
  have hlexeme : z.lexeme = (front c rest).text :=
    lexeme_pass_markHere hc (hrest ▸ front_isPrefix c rest)
  refine ⟨?_, ?_⟩
  · simp only [readUnit, rest_markHere, hrest, Lexer.take, h]
    rfl
  · rw [hlexeme]
    have hfault : (front c rest).shape.isFault = false := h ▸ rfl
    exact Number.exists_isNumeralOf (h ▸ (isLongest_front hfault).isUnit)

theorem exists_isNumeralOf_of_mem_tokensFrom {segments : List Segment}
    (h : ∀ s ∈ segments, IsUnit s.shape s.text) (ht : t ∈ tokensFrom line segments)
    (hkind : t.kind = .number) :
    ∃ value, Number.IsNumeralOf t.lexeme value ∧ t.literal = some (.number value) := by
  obtain ⟨s, hs, line, htoken⟩ := exists_of_mem_tokensFrom ht
  exact exists_isNumeralOf_of_token? (h s hs) htoken hkind

/-- No run ends in a defect or for want of a character.  Where the loop comes to a number, it reads
a numeral of the grammar, which has a value without a sign, and each number that the run appends
is one.  That other texts can be read as a number makes no difference. -/
theorem run_reads_numerals (hrun : x.hasRun = false) (hc : 0 ≤ x.cursor) (accepts : Bool) :
    ((∀ d, (x.run accepts).answer ≠ .error (.defect d)) ∧
        (x.run accepts).answer ≠ .error .noCharacter ∧
        (x.run accepts).answer ≠ .error .unaddressable) ∧
      (∀ y c rest, Reaches accepts { x with hasRun := true } y → y.rest = c :: rest →
        (front c rest).shape = .number →
          let z := y.markHere.pass (front c rest).text
          y.markHere.readUnit accepts = z.emitNumber ∧
            ∃ value, Number.IsNumeralOf z.lexeme value) ∧
      (∃ added, (x.run accepts).lexer.tokens = x.tokens ++ added ∧
        ∀ t ∈ added, t.kind = .number →
          ∃ value, Number.IsNumeralOf t.lexeme value ∧ t.literal = some (.number value)) ∧
      ∀ text ∈ Number.widerNumbers,
        ¬ IsUnit .number text ∧ ∃ value, Binary64.ofText? text = some value := by
  obtain ⟨segments, left, hmunches⟩ := exists_munches x.rest
  obtain ⟨ends, htokens, -, hends⟩ := tokens_run accepts hmunches hrun hc
  refine ⟨?_, fun y c rest hreaches hrest hshape => ?_, ⟨_, htokens, fun t ht hkind => ?_⟩, ?_⟩
  · rcases answer_run_eq_ok_or_error accepts hrun hc with ⟨tokens, h⟩ | ⟨d, h⟩
    · rw [h]
      exact ⟨nofun, nofun, nofun⟩
    · rw [h]
      cases accepts <;> exact ⟨nofun, nofun, nofun⟩
  · exact readUnit_of_shape_eq_number (hreaches.cursor_nonneg hc) hrest hshape
  · rcases List.mem_append.1 ht with ht | ht
    · exact exists_isNumeralOf_of_mem_tokensFrom (fun _ => hmunches.isUnit_of_mem) ht hkind
    · rw [hends t ht] at hkind
      cases hkind
  · exact fun text htext => ⟨Number.not_isUnit_of_mem_widerNumbers htext,
      Number.exists_value_of_mem_widerNumbers htext⟩

theorem run_reads_numerals_behind_word :
    let x : Lexer := { source := "a12.50.".toList, mark := 9, cursor := 1, line := -4 }
    x.hasRun = false ∧ 0 ≤ x.cursor ∧ (∀ d, (x.run true).answer ≠ .error (.defect d)) ∧
      ∃ value, Number.IsNumeralOf "12.50".toList value := by
  intro x
  have hc : 0 ≤ x.cursor := by decide
  obtain ⟨⟨hdefect, -⟩, hreads, -⟩ := run_reads_numerals (x := x) rfl hc true
  have hrest : { x with hasRun := true }.rest = '1' :: "2.50.".toList := by decide
  obtain ⟨-, hnumeral⟩ := hreads _ _ _ .start hrest (by decide)
  have hlexeme : ({ x with hasRun := true }.markHere.pass
      (front '1' "2.50.".toList).text).lexeme = "12.50".toList := by decide
  rw [hlexeme] at hnumeral
  exact ⟨rfl, hc, hdefect, hnumeral⟩

end Lexer

end LoxLexer
