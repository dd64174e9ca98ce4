import LoxLexer.Proofs.Effects
import LoxLexer.Proofs.SingleMoves

/-! Reading the rest of a word, of a number or of a string from any state.  The mark need not be
where the unit begins: the token spans from there to the cursor whatever the cursor has passed. -/

namespace LoxLexer

open Grammar Segment Text

namespace Grammar

structure IsLongestFront (language : List Char → Prop) (text front : List Char) : Prop where
  mem : language front
  isPrefix : front <+: text
  longest : ∀ {other}, language other → other <+: text → other.length ≤ front.length

def IsWordTail (text : List Char) : Prop := ∀ c ∈ text, IsLetter c ∨ IsDigit c

inductive IsNumberTail : List Char → Prop
  | whole {text} : (∀ c ∈ text, IsDigit c) → IsNumberTail text
  | fraction {text digits} : (∀ c ∈ text, IsDigit c) → IsNumeral digits →
      IsNumberTail (text ++ '.' :: digits)

variable {language : List Char → Prop} {text front other : List Char}

theorem IsLongestFront.unique (h : IsLongestFront language text front)
    (hother : IsLongestFront language text other) : front = other :=
  (List.prefix_of_prefix_length_le h.isPrefix hother.isPrefix
    (hother.longest h.mem h.isPrefix)).eq_of_length_le (h.longest hother.mem hother.isPrefix)

theorem isLongestFront_wordPrefix (text : List Char) :
    IsLongestFront IsWordTail text (wordPrefix text) where
  mem := fun _ hc => isWordPart_iff_isLetter.1 (List.mem_takeWhile_imp hc)
  isPrefix := wordPrefix_isPrefix text
  longest := by
    rintro other hother ⟨rest, rfl⟩
    rw [wordPrefix_append hother, List.length_append]
    exact Nat.le_add_right _ _

theorem isNumberTail_numberPrefix (text : List Char) : IsNumberTail (numberPrefix text) := by
  have hdigits : ∀ text : List Char, ∀ c ∈ text.takeWhile Char.isDigit, IsDigit c :=
    fun _ _ hc => isDigit_iff.1 (List.mem_takeWhile_imp hc)
  unfold numberPrefix fractionPrefix
  split
  · next rest _ =>
    by_cases hnone : rest.takeWhile Char.isDigit = []
    · rw [if_pos hnone, List.append_nil]
      exact .whole (hdigits text)
    · rw [if_neg hnone]
      exact .fraction (hdigits text) ⟨hnone, hdigits rest⟩
  · rw [List.append_nil]
    exact .whole (hdigits text)

theorem isLongestFront_numberPrefix (text : List Char) :
    IsLongestFront IsNumberTail text (numberPrefix text) where
  mem := isNumberTail_numberPrefix text
  isPrefix := numberPrefix_isPrefix text
  longest := by
    rintro other hother ⟨rest, rfl⟩
    cases hother with
    | whole hdigits =>
      rw [numberPrefix_append hdigits, List.length_append]
      exact Nat.le_add_right _ _
    | @fraction text digits htext hdigits =>
      rw [List.append_assoc, List.cons_append, numberPrefix_append htext,
        numberPrefix_point hdigits]
      simp

end Grammar

namespace Lexer

/-- What lies between the mark and the end of `text`, which is ahead.  There is nothing if the mark
does not lie before that end. -/
def spanned (x : Lexer) (text : List Char) : List Char :=
  (x.source.take (x.cursor + text.length).toNat).drop x.mark.toNat

def innerSpanned (x : Lexer) (text : List Char) : List Char :=
  (x.source.take ((x.cursor + text.length).toNat - 1)).drop (x.mark.toNat + 1)

def extend (x : Lexer) (text : List Char) (kind : Kind) (literal : Option Literal) : Lexer :=
  { x with
    cursor := x.cursor + text.length
    line := x.line + text.count '\n'
    tokens := x.tokens ++ [⟨kind, x.spanned text, literal, x.markLine⟩] }

variable {x : Lexer} {body rest : List Char}

theorem lexeme_pass (hm : 0 ≤ x.mark) (hc : 0 ≤ x.cursor) (text : List Char) :
    (x.pass text).lexeme = x.spanned text :=
  lexeme_of_nonneg (x := x.pass text) hm (cursor_pass_nonneg hc text)

theorem innerLexeme_pass (hm : 0 ≤ x.mark) (hc : 0 ≤ x.cursor) {text : List Char}
    (h : text ≠ []) : (x.pass text).innerLexeme = x.innerSpanned text := by
  have hlength := List.length_pos_iff.2 h
  have hfirst : (x.mark + 1).toNat = x.mark.toNat + 1 := by omega
  have hlast : (x.cursor + text.length - 1).toNat = (x.cursor + text.length).toNat - 1 := by omega
  have hinner : (x.pass text).innerLexeme =
      between x.source (x.mark + 1) (x.cursor + text.length - 1) := rfl
  rw [hinner, between_of_nonneg (by omega) (by omega), hfirst, hlast]
  rfl

theorem emit_pass (hm : 0 ≤ x.mark) (hc : 0 ≤ x.cursor) (text : List Char) (kind : Kind)
    (literal : Option Literal) : (x.pass text).emit kind literal = x.extend text kind literal := by
  rw [emit, lexeme_pass hm hc]
  rfl

theorem readWord_from_mark (hm : 0 ≤ x.mark) (hc : 0 ≤ x.cursor) (accepts : Bool) :
    let text := wordPrefix x.rest
    x.readWord accepts = ⟨.ok (), x.extend text (Kind.ofWord (x.spanned text)) none, []⟩ := by
  intro text
  rw [readWord_of_nonneg hc, emit_pass hm hc, lexeme_pass hm hc]

theorem readNumber_from_mark (hm : 0 ≤ x.mark) (hc : 0 ≤ x.cursor) (accepts : Bool) :
    let text := numberPrefix x.rest
    x.readNumber accepts =
      match Binary64.ofText? (x.spanned text) with
      | some value => ⟨.ok (), x.extend text .number (some (.number value)), []⟩
      | none => ⟨.error (.defect (.malformedNumber (x.spanned text) (x.pass text).line)),
          x.pass text, []⟩ := by
  intro text
  rw [readNumber_of_nonneg hc, emitNumber, lexeme_pass hm hc]
  cases Binary64.ofText? (x.spanned text) with
  | some value => simp only [emit_pass hm hc, text]
  | none => rfl

theorem readString_from_mark (hm : 0 ≤ x.mark) (hc : 0 ≤ x.cursor)
    (h : x.rest = body ++ '"' :: rest) (hbody : '"' ∉ body) (accepts : Bool) :
    let text := body ++ ['"']
    x.readString accepts =
      ⟨.ok (), x.extend text .string (some (.text (x.innerSpanned text))), []⟩ := by
  intro text
  rw [readString_of_closed hc h hbody, emit_pass hm hc, innerLexeme_pass hm hc (by simp)]

/-- From any state, the rest of a unit is read as far as the grammar goes, and a token is appended
for what the mark and the cursor span by then, which may be nothing, or be no such unit. -/
theorem read_rest_of_unit (hm : 0 ≤ x.mark) (hc : 0 ≤ x.cursor)
    (hend : x.cursor ≤ x.source.length) (accepts : Bool) :
    let ahead := x.source.drop x.cursor.toNat
    (∃ text, IsLongestFront IsWordTail ahead text ∧
      x.readWord accepts = ⟨.ok (), x.extend text (Kind.ofWord (x.spanned text)) none, []⟩) ∧
      (∃ text, IsLongestFront IsNumberTail ahead text ∧
        match Binary64.ofText? (x.spanned text) with
        | some value => x.readNumber accepts =
            ⟨.ok (), x.extend text .number (some (.number value)), []⟩
        | none => ∃ e, e.message = "Numeric literal failed to parse".toList ∧
            e.lexeme = x.spanned text ∧ e.line = x.line + text.count '\n' ∧
            x.readNumber accepts = ⟨.error (.defect e), { x with
              cursor := x.cursor + text.length
              line := x.line + text.count '\n' }, []⟩) ∧
      ((∃ body rest, ahead = body ++ '"' :: rest ∧ '"' ∉ body ∧
        let text := body ++ ['"']
        x.readString accepts =
          ⟨.ok (), x.extend text .string (some (.text (x.innerSpanned text))), []⟩) ∨
        '"' ∉ ahead ∧ ∃ d, d.message = "Unterminated string".toList ∧
          d.code = some "L002".toList ∧ d.place = [] ∧ d.line = x.line + ahead.count '\n' ∧
          x.readString accepts = ⟨.error (if accepts then .lexical d else .undelivered), { x with
            cursor := x.source.length
            line := x.line + ahead.count '\n'
            diagnostics := x.diagnostics ++ [d] },
            .report d.toText :: if accepts then [.stopped x.mark d.message] else []⟩) ∧
      ∀ o, (ReadsWord x o ↔ o = x.readWord accepts) ∧
        (ReadsNumber x o ↔ o = x.readNumber accepts) ∧
        (ReadsString accepts x o ↔ o = x.readString accepts) := by
  intro ahead
  have hrest : x.rest = ahead := rest_of_nonneg hc
  rw [← hrest]
  refine ⟨⟨_, isLongestFront_wordPrefix _, readWord_from_mark hm hc accepts⟩,
    ⟨_, isLongestFront_numberPrefix _, ?_⟩, ?_,
    fun o => ⟨readsWord_iff accepts hc, readsNumber_iff accepts hc, readsString_iff accepts hc⟩⟩
  · have hread := readNumber_from_mark hm hc accepts
    cases hvalue : Binary64.ofText? (x.spanned (numberPrefix x.rest)) with
    | some value => exact hread.trans (by rw [hvalue])
    | none => exact ⟨_, rfl, rfl, rfl, hread.trans (by rw [hvalue]; rfl)⟩
  · by_cases hquote : '"' ∈ x.rest
    · obtain ⟨body, rest, hsplit, hbody⟩ := List.eq_append_cons_of_mem hquote
      exact .inl ⟨body, rest, hsplit, hbody, readString_from_mark hm hc hsplit hbody accepts⟩
    · have hcursor : (x.source.length : Int) = x.cursor + x.rest.length := by
        rw [hrest, List.length_drop]
        omega
      refine .inr ⟨hquote, .unterminatedString (x.line + x.rest.count '\n'), rfl, rfl, rfl, rfl, ?_⟩
      rw [readString_of_open hc hquote, hcursor]
      cases accepts <;> rfl

theorem read_rest_of_unit_before_mark :
    let x : Lexer :=
      { source := "7.5\n\x00x".toList, mark := 4, cursor := 1, line := -3, markLine := 8 }
    (0 ≤ x.mark ∧ 0 ≤ x.cursor ∧ x.cursor ≤ x.source.length) ∧
      (x.readWord true).lexer = { x with tokens := [⟨.identifier, [], none, 8⟩] } ∧
      (∃ e, (x.readNumber true).answer = .error (.defect e) ∧ e.lexeme = [] ∧ e.line = -3) ∧
      (x.readNumber true).lexer = { x with cursor := 3 } ∧
      (∃ d, (x.readString true).answer = .error (.lexical d) ∧ d.code = some "L002".toList ∧
        d.line = -2) ∧
      (x.readString true).lexer.cursor = 6 := by
  intro x
  have hx : 0 ≤ x.mark ∧ 0 ≤ x.cursor ∧ x.cursor ≤ x.source.length := by decide
  obtain ⟨⟨word, hword, hreadWord⟩, ⟨number, hnumber, hreadNumber⟩, hstring, -⟩ :=
    read_rest_of_unit hx.1 hx.2.1 hx.2.2 true
  obtain rfl : word = [] :=
    (hword.unique (isLongestFront_wordPrefix _)).trans (by decide +kernel)
  obtain rfl : number = ['.', '5'] :=
    (hnumber.unique (isLongestFront_numberPrefix _)).trans (by decide +kernel)
  have hspanned : x.spanned ['.', '5'] = [] := by decide +kernel
  have hnone : Binary64.ofText? [] = none := by decide +kernel
  rw [hspanned, hnone] at hreadNumber
  obtain ⟨e, -, hlexeme, hline, hdefect⟩ := hreadNumber
  rcases hstring with ⟨body, rest, hsplit, -⟩ | ⟨-, d, -, hcode, -, hplace, hopen⟩
  · have hquote : '"' ∈ x.source.drop x.cursor.toNat := hsplit ▸ List.mem_append_right _ (.head _)
    exact absurd hquote (by decide +kernel)
  · rw [hreadWord, hdefect, hopen]
    exact ⟨hx, by decide +kernel, ⟨e, rfl, hlexeme, hline⟩, rfl,
      ⟨d, rfl, hcode, hplace.trans (by decide +kernel)⟩, rfl⟩

end Lexer

end LoxLexer
