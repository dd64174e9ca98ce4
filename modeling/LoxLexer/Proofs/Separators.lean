import LoxLexer.Proofs.Standalone

namespace LoxLexer

open Grammar

namespace Grammar

def IsGap (text : List Char) : Prop := ∀ c ∈ text, c ∈ separators

instance : DecidablePred IsGap := List.decidableBAll _

def IsLexeme (text : List Char) : Prop := ∃ shape, shape ≠ .gap ∧ IsUnit shape text

structure Piece where
  lexeme : List Char
  gap : List Char
  isLexeme : IsLexeme lexeme
  isGap : IsGap gap

def render : List Piece → List Char
  | [] => []
  | p :: pieces => p.lexeme ++ (p.gap ++ render pieces)

inductive Merges : List Char → List Char → Prop
  | word {text c rest} : IsUnit .word text → IsLetter c ∨ IsDigit c → Merges text (c :: rest)
  | number {text c rest} : IsUnit .number text → IsDigit c → Merges text (c :: rest)
  | equals {c rest} : c ∈ ['!', '=', '<', '>'] → Merges [c] ('=' :: rest)
  | slash : Merges ['/'] ['/']

/-- The first lexeme runs into what follows it.  A point alone does not make a number go on. -/
inductive Collides : List Piece → Prop
  | two {p q pieces} : p.gap = [] → Merges p.lexeme q.lexeme → Collides (p :: q :: pieces)
  | three {p q r pieces c rest} : p.gap = [] → q.gap = [] → IsNumeral p.lexeme →
      q.lexeme = ['.'] → r.lexeme = c :: rest → IsDigit c → Collides (p :: q :: r :: pieces)

def Spells (text : List Char) (lexemes : List (List Char)) : Prop :=
  ∃ segments, Munches text segments [] ∧ Segment.lexemes segments = lexemes

variable {c : Char} {shape : Shape} {text rest gap : List Char} {p : Piece} {pieces : List Piece}
  {lexemes : List (List Char)}

theorem IsLexeme.ne_nil (h : IsLexeme text) : text ≠ [] := by
  obtain ⟨shape, -, hunit⟩ := h
  exact hunit.ne_nil

theorem IsLexeme.eq_singleton (h : IsLexeme (c :: rest)) (hc : c ∈ ['/', '.']) : rest = [] := by
  obtain ⟨shape, hshape, hunit⟩ := h
  have hdigit : ¬ IsDigit c := by fin_cases hc <;> decide
  have hletter : ¬ IsLetter c := by fin_cases hc <;> decide
  generalize htext : c :: rest = text at hunit
  cases hunit with
  | separator => exact absurd rfl hshape
  | comment => exact absurd rfl hshape
  | sign hmem =>
    have hall : ∀ p ∈ signs, p.1.head? = some '/' ∨ p.1.head? = some '.' → p.1.tail = [] := by
      decide
    have hhead := hall _ hmem
    rw [← htext] at hhead
    simpa using hhead (by simpa using hc)
  | word hd =>
    obtain ⟨rfl, rfl⟩ := List.cons.inj htext
    exact absurd hd hletter
  | whole h =>
    exact absurd (h.2 c (htext ▸ List.mem_cons_self)) hdigit
  | fraction h =>
    obtain ⟨d, body, rfl, hd, -⟩ := h.exists_cons
    obtain rfl := (List.cons.inj htext).1
    exact absurd hd hdigit
  | string =>
    obtain rfl := (List.cons.inj htext).1
    exact absurd hc (by decide)

theorem spells_nil_iff : Spells [] lexemes ↔ lexemes = [] := by
  constructor
  · rintro ⟨segments, h, rfl⟩
    obtain ⟨rfl, -⟩ := h.unique (.stop noUnit_nil)
    rfl
  · rintro rfl
    exact ⟨[], .stop noUnit_nil, rfl⟩

theorem spells_skip_iff (h : IsLongest (gap ++ rest) ⟨.gap, gap⟩) :
    Spells (gap ++ rest) lexemes ↔ Spells rest lexemes := by
  constructor
  · rintro ⟨segments, hmunches, rfl⟩
    obtain ⟨more, rfl, hrest⟩ := hmunches.of_isLongest h rfl
    exact ⟨more, hrest, (Segment.lexemes_cons_of_eq_gap rfl).symm⟩
  · rintro ⟨segments, hmunches, rfl⟩
    exact ⟨_, .take rfl h hmunches, Segment.lexemes_cons_of_eq_gap rfl⟩

theorem spells_take_iff (h : IsLongest (text ++ rest) ⟨shape, text⟩) (hshape : shape ≠ .gap) :
    Spells (text ++ rest) lexemes ↔ ∃ more, lexemes = text :: more ∧ Spells rest more := by
  constructor
  · rintro ⟨segments, hmunches, rfl⟩
    obtain ⟨more, rfl, hrest⟩ := hmunches.of_isLongest h rfl
    exact ⟨_, Segment.lexemes_cons_of_ne_gap hshape, more, hrest, rfl⟩
  · rintro ⟨more, rfl, segments, hmunches, rfl⟩
    exact ⟨_, .take rfl h hmunches, Segment.lexemes_cons_of_ne_gap hshape⟩

theorem spells_gap_append_iff (h : IsGap gap) :
    Spells (gap ++ rest) lexemes ↔ Spells rest lexemes := by
  induction gap with
  | nil => rfl
  | cons c gap ih =>
    obtain ⟨hc, hgap⟩ := List.forall_mem_cons.1 h
    have hskip : IsLongest ([c] ++ (gap ++ rest)) ⟨.gap, [c]⟩ := isLongest_of_mem_separators hc _
    exact (spells_skip_iff hskip).trans (ih hgap)

theorem Spells.sublist (h : Spells text lexemes) : lexemes.flatten.Sublist text := by
  obtain ⟨segments, hmunches, rfl⟩ := h
  rw [hmunches.text_eq, List.append_nil, List.flatMap]
  exact (List.filter_sublist.map _).flatten

theorem count_render (h : c ∉ separators) (pieces : List Piece) :
    (render pieces).count c = (pieces.map Piece.lexeme).flatten.count c := by
  induction pieces with
  | nil => rfl
  | cons p pieces ih =>
    have hgap : p.gap.count c = 0 := List.count_eq_zero.2 fun hmem => h (p.isGap c hmem)
    rw [render, List.map_cons, List.flatten_cons, List.count_append, List.count_append,
      List.count_append, hgap, ih, Nat.zero_add]

theorem count_slash_pos (h : IsUnit .gap text) (hlength : 1 < text.length) :
    0 < text.count '/' := by
  cases h with
  | separator => simp at hlength
  | comment => exact List.count_pos_iff.2 List.mem_cons_self

theorem not_spells_of_extends (h : IsLexeme text) (hext : Extends text rest)
    (hcount : rest.count '/' = lexemes.flatten.count '/') :
    ¬ Spells (text ++ rest) (text :: lexemes) := by
  intro hspells
  have htext := List.length_pos_iff.2 h.ne_nil
  obtain ⟨shape, -, hunit⟩ := h
  obtain ⟨other, more, hne, hlong⟩ := hext.exists_isLongest hunit
  have hmore := List.length_pos_iff.2 hne
  obtain ⟨left, hleft⟩ : ∃ left, text ++ rest = text ++ more ++ left := hlong.exists_append
  rw [hleft] at hlong hspells
  -- A longer gap is a comment.  It hides a slash that the lexemes would still have to show.
  by_cases hgap : other = .gap
  · subst hgap
    have hcut : 0 < (text ++ more).count '/' := by
      apply count_slash_pos hlong.isUnit
      rw [List.length_append]
      omega
    have hle := ((spells_skip_iff hlong).1 hspells).sublist.count_le '/'
    have hsame := congrArg (List.count '/') hleft
    rw [List.count_append, List.count_append] at hsame
    rw [List.flatten_cons, List.count_append] at hle
    omega
  · obtain ⟨_, hsame, -⟩ := (spells_take_iff hlong hgap).1 hspells
    exact hne (List.append_right_eq_self.1 (List.cons.inj hsame).1.symm)

theorem Merges.extends {other : List Char} (h : Merges text other) (rest : List Char) :
    Extends text (other ++ rest) := by
  cases h with
  | word hword hc => exact .word hword hc
  | number hnumber hc => exact .number hnumber hc
  | equals hc => exact .equals hc
  | slash => exact .slash

theorem exists_of_render_eq (hahead : p.gap ++ render pieces = c :: rest) (hc : c ∉ separators) :
    p.gap = [] ∧ ∃ q more tail, pieces = q :: more ∧ q.lexeme = c :: tail ∧
      rest = tail ++ (q.gap ++ render more) := by
  have hgap : p.gap = [] := by
    cases hp : p.gap with
    | nil => rfl
    | cons d gap =>
      rw [hp] at hahead
      have hd := p.isGap d (hp ▸ List.mem_cons_self)
      exact absurd ((List.cons.inj hahead).1 ▸ hd) hc
  rw [hgap, List.nil_append] at hahead
  cases pieces with
  | nil => cases hahead
  | cons q more =>
    obtain ⟨d, tail, hq⟩ := List.exists_cons_of_ne_nil q.isLexeme.ne_nil
    rw [render, hq] at hahead
    obtain ⟨rfl, rfl⟩ := List.cons.inj hahead
    exact ⟨hgap, q, more, tail, rfl, hq, rfl⟩

theorem collides_iff : Collides (p :: pieces) ↔ Extends p.lexeme (p.gap ++ render pieces) := by
  constructor
  · intro h
    cases h with
    | two hgap hmerges =>
      rw [hgap, List.nil_append]
      exact hmerges.extends _
    | three hgap hnext hdigits hpoint hlast hc =>
      rw [hgap, List.nil_append, render, hpoint, hnext, List.nil_append, render, hlast]
      exact .point hdigits hc
  · intro h
    generalize htext : p.lexeme = text at h
    generalize hahead : p.gap ++ render pieces = rest at h
    cases h with
    | comment => cases (htext ▸ p.isLexeme).eq_singleton (by decide)
    | slash =>
      obtain ⟨hgap, q, more, tail, rfl, hq, -⟩ := exists_of_render_eq hahead (by decide)
      obtain rfl := (hq ▸ q.isLexeme).eq_singleton (by decide)
      exact .two hgap (by rw [htext, hq]; exact .slash)
    | equals hc =>
      obtain ⟨hgap, q, more, tail, rfl, hq, -⟩ := exists_of_render_eq hahead (by decide)
      exact .two hgap (by rw [htext, hq]; exact .equals hc)
    | word hword hc =>
      obtain ⟨hgap, q, more, tail, rfl, hq, -⟩ :=
        exists_of_render_eq hahead (hc.elim IsLetter.not_mem_separators IsDigit.not_mem_separators)
      exact .two hgap (by rw [htext, hq]; exact .word hword hc)
    | number hnumber hc =>
      obtain ⟨hgap, q, more, tail, rfl, hq, -⟩ := exists_of_render_eq hahead hc.not_mem_separators
      exact .two hgap (by rw [htext, hq]; exact .number hnumber hc)
    | point hdigits hc =>
      obtain ⟨hgap, q, more, tail, rfl, hq, hrest⟩ := exists_of_render_eq hahead (by decide)
      obtain rfl := (hq ▸ q.isLexeme).eq_singleton (by decide)
      obtain ⟨hnext, r, _, _, rfl, hr, -⟩ := exists_of_render_eq hrest.symm hc.not_mem_separators
      exact .three hgap hnext (htext ▸ hdigits) hq hr hc

theorem spells_render_iff (pieces : List Piece) :
    Spells (render pieces) (pieces.map Piece.lexeme) ↔ ¬ ∃ i, Collides (pieces.drop i) := by
  induction pieces with
  | nil =>
    rw [render, spells_nil_iff]
    refine ⟨fun _ => ?_, fun _ => rfl⟩
    rintro ⟨i, h⟩
    rw [List.drop_nil] at h
    cases h
  | cons p pieces ih =>
    obtain ⟨shape, hshape, hunit⟩ := p.isLexeme
    rw [render, List.map_cons]
    constructor
    · rintro h ⟨i, hi⟩
      have hext : ¬ Extends p.lexeme (p.gap ++ render pieces) := by
        intro hext
        refine not_spells_of_extends p.isLexeme hext ?_ h
        rw [← count_render (by decide), List.count_append, Nat.add_eq_right]
        exact List.count_eq_zero.2 fun hmem => absurd (p.isGap _ hmem) (by decide)
      have hlong := (hunit.isLongest_append_iff _).2 hext
      obtain ⟨_, hsame, hrest⟩ := (spells_take_iff hlong hshape).1 h
      obtain rfl := (List.cons.inj hsame).2
      cases i with
      | zero => exact hext (collides_iff.1 hi)
      | succ i => exact ih.1 ((spells_gap_append_iff p.isGap).1 hrest) ⟨i, hi⟩
    · intro h
      have hext : ¬ Extends p.lexeme (p.gap ++ render pieces) :=
        fun hext => h ⟨0, collides_iff.2 hext⟩
      have hlong := (hunit.isLongest_append_iff _).2 hext
      refine (spells_take_iff hlong hshape).2 ⟨_, rfl, ?_⟩
      exact (spells_gap_append_iff p.isGap).2 (ih.2 fun ⟨i, hi⟩ => h ⟨i + 1, hi⟩)

end Grammar

def Outcome.Returns (o : Outcome (List Token)) (lexemes : List (List Char)) (body : List Token) :
    Prop :=
  ∃ line, o.answer = .ok (body ++ [⟨.endOfInput, [], none, line⟩]) ∧
    body.map Token.lexeme = lexemes

namespace Lexer

variable {source : List Char} {lexemes : List (List Char)} {body : List Token} {t : Token}

theorem exists_munches_of_returns (h : (scan source).Returns lexemes body) :
    ∃ segments, Munches source segments [] ∧ body = Segment.tokensFrom 1 segments := by
  obtain ⟨line, hanswer, -⟩ := h
  obtain ⟨segments, hmunches⟩ := munches_of_answer_eq_ok hanswer
  rw [(scan_of_munches_nil hmunches).1] at hanswer
  exact ⟨segments, hmunches, (List.append_inj_left' (Except.ok.inj hanswer) rfl).symm⟩

theorem exists_returns_iff_spells :
    (∃ body, (scan source).Returns lexemes body) ↔ Spells source lexemes := by
  constructor
  · rintro ⟨body, h⟩
    obtain ⟨segments, hmunches, rfl⟩ := exists_munches_of_returns h
    obtain ⟨line, hanswer, hlexemes⟩ := h
    rw [Segment.lexeme_tokensFrom fun _ => hmunches.isUnit_of_mem] at hlexemes
    exact ⟨segments, hmunches, hlexemes⟩
  · rintro ⟨segments, h, rfl⟩
    exact ⟨_, _, (scan_of_munches_nil h).1, Segment.lexeme_tokensFrom (fun _ => h.isUnit_of_mem) 1⟩

theorem returns_singleton (h : (scan source).Returns lexemes body) (ht : t ∈ body) :
    (scan t.lexeme).Returns [t.lexeme] [{ t with line := 1 }] := by
  obtain ⟨segments, hmunches, rfl⟩ := exists_munches_of_returns h
  rw [← body_scan hmunches] at ht
  exact ⟨1 + t.lexeme.count '\n', answer_lexeme_of_mem_body ht, rfl⟩

/-- Lexemes that are put together with gaps come back just when none of them collides with its
neighbours, and then each is read as it is when it stands alone. -/
theorem returns_render_iff (gap : List Char) (hgap : IsGap gap) (pieces : List Piece) :
    ((∃ body, (scan (gap ++ render pieces)).Returns (pieces.map Piece.lexeme) body) ↔
        ¬ ∃ i, Collides (pieces.drop i)) ∧
      ∀ body, (scan (gap ++ render pieces)).Returns (pieces.map Piece.lexeme) body →
        ∀ t ∈ body, (scan t.lexeme).Returns [t.lexeme] [{ t with line := 1 }] := by
  constructor
  · rw [exists_returns_iff_spells, spells_gap_append_iff hgap, spells_render_iff]
  · intro body h t ht
    exact returns_singleton h ht

theorem not_returns_digit_point_digit :
    let one : Piece := ⟨['1'], [], ⟨.number, by decide, .whole (by decide)⟩, by decide⟩
    let point : Piece := ⟨['.'], [], ⟨.sign .dot, by decide, .sign (by decide)⟩, by decide⟩
    IsGap [' '] ∧ ¬ ∃ body,
      (scan ([' '] ++ render [one, point, one])).Returns [['1'], ['.'], ['1']] body := by
  intro one point
  have hgap : IsGap [' '] := by decide
  refine ⟨hgap, fun h => ?_⟩
  refine (returns_render_iff [' '] hgap [one, point, one]).1.1 h ⟨0, ?_⟩
  exact .three rfl rfl (by decide) rfl rfl (by decide)

end Lexer

end LoxLexer
