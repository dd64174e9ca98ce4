import LoxLexer.Number.Reading
import LoxLexer.Proofs.Grammar
import LoxLexer.Token.Basic
import LoxLexer.Token.Keyword

namespace LoxLexer

open Grammar

namespace Keyword

variable {word : List Char} {kind : Kind} {entry : List Char × Kind}

theorem mem_table_iff : entry ∈ table ↔ entry ∈ reservedWords := by
  have hperm : table.Perm reservedWords := by decide
  exact hperm.mem_iff

theorem ofWord_of_mem (h : (word, kind) ∈ reservedWords) : Kind.ofWord word = kind := by
  have hall : ∀ p ∈ reservedWords, Kind.ofWord p.1 = p.2 := by decide
  exact hall _ h

theorem ofWord_of_not_mem (h : ∀ kind, (word, kind) ∉ reservedWords) :
    Kind.ofWord word = .identifier := by
  have hnone : table.lookup word = none := by
    refine List.lookup_eq_none_iff.2 fun p hp => ?_
    exact bne_iff_ne.2 fun heq => h p.2 (heq ▸ mem_table_iff.1 hp)
  rw [Kind.ofWord, kind?, hnone, Option.getD_none]

end Keyword

namespace Grammar

/-- A word is reserved only as a whole.  Nothing comes of a gap. -/
inductive HasKind : Segment → Kind → Prop
  | sign {kind text} : HasKind ⟨.sign kind, text⟩ kind
  | string {text} : HasKind ⟨.string, text⟩ .string
  | number {text} : HasKind ⟨.number, text⟩ .number
  | reserved {text kind} : (text, kind) ∈ reservedWords → HasKind ⟨.word, text⟩ kind
  | identifier {text} : (∀ kind, (text, kind) ∉ reservedWords) → HasKind ⟨.word, text⟩ .identifier

variable {s : Segment} {kind other : Kind}

theorem HasKind.shape_ne_gap (h : HasKind s kind) : s.shape ≠ .gap := by
  cases h <;> simp

theorem HasKind.unique (h : HasKind s kind) (hother : HasKind s other) : kind = other := by
  cases h with
  | sign => cases hother; rfl
  | string => cases hother; rfl
  | number => cases hother; rfl
  | reserved hmem =>
    cases hother with
    | reserved hother => rw [← Keyword.ofWord_of_mem hmem, Keyword.ofWord_of_mem hother]
    | identifier hnone => exact absurd hmem (hnone _)
  | identifier hnone =>
    cases hother with
    | reserved hother => exact absurd hother (hnone _)
    | identifier => rfl

theorem HasKind.ne_endOfInput (h : HasKind s kind) (hunit : IsUnit s.shape s.text) :
    kind ≠ .endOfInput := by
  cases h with
  | sign =>
    cases hunit with
    | sign hmem =>
      have hall : ∀ p ∈ signs, p.2 ≠ .endOfInput := by decide
      exact hall _ hmem
  | string => decide
  | number => decide
  | reserved hmem =>
    have hall : ∀ p ∈ reservedWords, p.2 ≠ .endOfInput := by decide
    exact hall _ hmem
  | identifier => decide

end Grammar

namespace Segment

def token? (line : Int) (s : Segment) : Option Token :=
  match s.shape with
  | .gap | .openString | .stray => none
  | .sign kind => some ⟨kind, s.text, none, line⟩
  | .string => some ⟨.string, s.text, some (.text s.text.tail.dropLast), line⟩
  | .number => some ⟨.number, s.text, (Binary64.ofText? s.text).map .number, line⟩
  | .word => some ⟨Kind.ofWord s.text, s.text, none, line⟩

def tokensFrom (line : Int) : List Segment → List Token
  | [] => []
  | s :: segments =>
    (s.token? line).toList ++ tokensFrom (line + s.text.count '\n') segments

def lexemes (segments : List Segment) : List (List Char) :=
  (segments.filter fun s => s.shape ≠ .gap).map Segment.text

variable {s : Segment} {segments : List Segment} {t : Token} {line : Int}

theorem lexemes_cons_of_eq_gap (h : s.shape = .gap) :
    lexemes (s :: segments) = lexemes segments := by
  rw [lexemes, List.filter_cons_of_neg (by simpa using h)]
  rfl

theorem lexemes_cons_of_ne_gap (h : s.shape ≠ .gap) :
    lexemes (s :: segments) = s.text :: lexemes segments := by
  rw [lexemes, List.filter_cons_of_pos (by simpa using h)]
  rfl

theorem token?_cases (h : IsUnit s.shape s.text) (line : Int) :
    s.shape = .gap ∧ s.token? line = none ∨
      ∃ kind literal, HasKind s kind ∧ s.token? line = some ⟨kind, s.text, literal, line⟩ := by
  obtain ⟨shape, text⟩ := s
  cases shape with
  | gap => exact .inl ⟨rfl, rfl⟩
  | sign kind => exact .inr ⟨kind, none, .sign, rfl⟩
  | string => exact .inr ⟨.string, _, .string, rfl⟩
  | openString => cases h
  | number => exact .inr ⟨.number, _, .number, rfl⟩
  | word =>
    refine .inr ⟨Kind.ofWord text, none, ?_, rfl⟩
    by_cases hmem : ∃ kind, (text, kind) ∈ reservedWords
    · obtain ⟨kind, hmem⟩ := hmem
      exact Keyword.ofWord_of_mem hmem ▸ .reserved hmem
    · have hnone := not_exists.1 hmem
      exact Keyword.ofWord_of_not_mem hnone ▸ .identifier hnone
  | stray => cases h

theorem lexeme_tokensFrom (h : ∀ s ∈ segments, IsUnit s.shape s.text) (line : Int) :
    (tokensFrom line segments).map Token.lexeme = lexemes segments := by
  induction segments generalizing line with
  | nil => rfl
  | cons s segments ih =>
    obtain ⟨hs, hsegments⟩ := List.forall_mem_cons.1 h
    rw [tokensFrom, List.map_append, ih hsegments]
    rcases token?_cases hs line with ⟨hgap, htoken⟩ | ⟨kind, literal, hkind, htoken⟩
    · rw [htoken, lexemes_cons_of_eq_gap hgap]
      rfl
    · rw [htoken, lexemes_cons_of_ne_gap hkind.shape_ne_gap]
      rfl

theorem token?_eq_some (h : s.token? line = some t) (other : Int) :
    t.lexeme = s.text ∧ s.token? other = some { t with line := other } := by
  obtain ⟨shape, text⟩ := s
  cases shape with
  | gap => cases h
  | openString => cases h
  | stray => cases h
  | sign =>
    cases h
    exact ⟨rfl, rfl⟩
  | string =>
    cases h
    exact ⟨rfl, rfl⟩
  | number =>
    cases h
    exact ⟨rfl, rfl⟩
  | word =>
    cases h
    exact ⟨rfl, rfl⟩

theorem tokensFrom_append (segments later : List Segment) (line : Int) :
    tokensFrom line (segments ++ later) =
      tokensFrom line segments ++
        tokensFrom (line + (segments.flatMap Segment.text).count '\n') later := by
  induction segments generalizing line with
  | nil => simp [tokensFrom]
  | cons s segments ih =>
    rw [List.cons_append, tokensFrom, ih, tokensFrom, List.flatMap_cons, List.count_append,
      List.append_assoc, Int.natCast_add, Int.add_assoc]

theorem exists_of_mem_tokensFrom (h : t ∈ tokensFrom line segments) :
    ∃ s ∈ segments, ∃ line, s.token? line = some t := by
  induction segments generalizing line with
  | nil => cases h
  | cons s segments ih =>
    rcases List.mem_append.1 h with h | h
    · exact ⟨s, List.mem_cons_self, line, by simpa using h⟩
    · obtain ⟨u, hu, htoken⟩ := ih h
      exact ⟨u, List.mem_cons_of_mem s hu, htoken⟩

theorem kind_ne_endOfInput_of_mem (h : ∀ s ∈ segments, IsUnit s.shape s.text)
    (ht : t ∈ tokensFrom line segments) : t.kind ≠ .endOfInput := by
  obtain ⟨s, hs, line, htoken⟩ := exists_of_mem_tokensFrom ht
  rcases token?_cases (h s hs) line with ⟨-, hnone⟩ | ⟨kind, literal, hkind, hsome⟩
  · rw [hnone] at htoken
    cases htoken
  · obtain rfl := Option.some.inj (hsome.symm.trans htoken)
    exact hkind.ne_endOfInput (h s hs)

/-- Each token comes of a unit, and the tokens on either side of it come of the units there. -/
theorem exists_of_tokensFrom_eq_append {tokens more : List Token}
    (h : tokensFrom line segments = tokens ++ t :: more) :
    ∃ before s after other, segments = before ++ s :: after ∧ tokensFrom line before = tokens ∧
      s.token? other = some t ∧ tokensFrom (other + s.text.count '\n') after = more := by
  induction segments generalizing line tokens with
  | nil => exact absurd h (by simp [tokensFrom])
  | cons s segments ih =>
    rw [tokensFrom] at h
    cases htoken : s.token? line with
    | none =>
      rw [htoken] at h
      obtain ⟨before, u, after, other, rfl, hbefore, hrest⟩ := ih h
      refine ⟨s :: before, u, after, other, rfl, ?_, hrest⟩
      rw [tokensFrom, htoken, hbefore]
      rfl
    | some first =>
      rw [htoken] at h
      cases tokens with
      | nil =>
        obtain ⟨rfl, hmore⟩ := List.cons.inj h
        exact ⟨[], s, segments, line, rfl, rfl, htoken, hmore⟩
      | cons u tokens =>
        obtain ⟨rfl, hrest⟩ := List.cons.inj h
        obtain ⟨before, v, after, other, rfl, hbefore, hlater⟩ := ih hrest
        refine ⟨s :: before, v, after, other, rfl, ?_, hlater⟩
        rw [tokensFrom, htoken, hbefore]
        rfl

end Segment

end LoxLexer
