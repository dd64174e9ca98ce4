import LoxLexer.Proofs.Run

namespace LoxLexer

open Grammar

namespace Keyword

variable {word : List Char}

theorem contains_iff : contains word = true ↔ ∃ kind, (word, kind) ∈ reservedWords := by
  rw [contains, kind?, List.lookup_isSome_iff]
  constructor
  · rintro ⟨⟨other, kind⟩, hmem, hsame⟩
    obtain rfl := beq_iff_eq.1 hsame
    exact ⟨kind, mem_table_iff.1 hmem⟩
  · rintro ⟨kind, hmem⟩
    exact ⟨_, mem_table_iff.2 hmem, beq_self_eq_true word⟩

theorem isUnit_of_contains (h : contains word = true) : IsUnit .word word := by
  obtain ⟨kind, hmem⟩ := contains_iff.1 h
  have hall : ∀ p ∈ reservedWords, p.1 ≠ [] ∧ ∀ c ∈ p.1, IsLetter c := by
    simp [reservedWords, IsLetter]
  obtain ⟨hne, hletters⟩ := hall _ hmem
  obtain ⟨c, body, rfl⟩ := List.exists_cons_of_ne_nil hne
  obtain ⟨hc, hbody⟩ := List.forall_mem_cons.1 hletters
  exact .word hc fun d hd => .inl (hbody d hd)

theorem isKeyword_ofWord (word : List Char) : (Kind.ofWord word).isKeyword = contains word := by
  by_cases h : ∃ kind, (word, kind) ∈ reservedWords
  · obtain ⟨kind, hmem⟩ := h
    have hall : ∀ p ∈ reservedWords, p.2.isKeyword = true := by decide
    rw [ofWord_of_mem hmem, hall _ hmem, contains_iff.2 ⟨kind, hmem⟩]
  · have hnone : contains word = false := by simpa using mt contains_iff.1 h
    rw [ofWord_of_not_mem (not_exists.1 h), hnone]
    rfl

theorem ofWord_eq_identifier_iff : Kind.ofWord word = .identifier ↔ contains word = false := by
  constructor
  · intro h
    rw [← isKeyword_ofWord, h]
    rfl
  · intro h
    refine ofWord_of_not_mem fun kind hmem => ?_
    rw [contains_iff.2 ⟨kind, hmem⟩] at h
    cases h

end Keyword

theorem Kind.isLiteral_iff (k : Kind) : k.isLiteral = true ↔ k = .string ∨ k = .number := by
  cases k <;> decide

structure Token.IsConsistent (t : Token) : Prop where
  isSome_literal_iff : t.literal.isSome = true ↔ t.isLiteral = true
  isLiteral_iff : t.isLiteral = true ↔ t.kind = .string ∨ t.kind = .number
  string : t.kind = .string →
    ∃ body, '"' ∉ body ∧ t.lexeme = '"' :: (body ++ ['"']) ∧ t.literal = some (.text body)
  isKeyword_iff : t.isKeyword = true ↔ Keyword.contains t.lexeme = true
  kind_of_isKeyword : t.isKeyword = true → t.kind = .ofWord t.lexeme
  isIdentifier_iff : t.isIdentifier = true ↔
    IsUnit .word t.lexeme ∧ Keyword.contains t.lexeme = false

variable {shape : Shape} {text : List Char} {s : Segment} {t u : Token} {line : Int}
  {source other : List Char}

namespace Segment

theorem isConsistent_of_ne_word (h : IsUnit shape t.lexeme) (hshape : shape ≠ .word)
    (hkeyword : t.kind.isKeyword = false) (hidentifier : t.kind ≠ .identifier)
    (hliteral : t.literal.isSome = t.kind.isLiteral)
    (hstring : t.kind = .string →
      ∃ body, '"' ∉ body ∧ t.lexeme = '"' :: (body ++ ['"']) ∧ t.literal = some (.text body)) :
    t.IsConsistent := by
  have hword : ¬ IsUnit .word t.lexeme := fun hword => hshape (shape_unique h hword)
  have hcontains : Keyword.contains t.lexeme ≠ true := fun hmem =>
    hword (Keyword.isUnit_of_contains hmem)
  refine ⟨?_, t.kind.isLiteral_iff, hstring, ?_, ?_, ?_⟩
  · rw [hliteral, Token.isLiteral]
  · simp [Token.isKeyword, hkeyword, hcontains]
  · simp [Token.isKeyword, hkeyword]
  · simp [Token.isIdentifier, hidentifier, hword]

theorem isConsistent_word (h : IsUnit .word text) (line : Int) :
    Token.IsConsistent ⟨.ofWord text, text, none, line⟩ := by
  have hkind : ∀ k : Kind, k.isKeyword = true ∨ k = .identifier →
      k.isLiteral = false ∧ k ≠ .string := by
    intro k
    cases k <;> decide
  have hword : (Kind.ofWord text).isKeyword = true ∨ Kind.ofWord text = .identifier := by
    rw [Keyword.isKeyword_ofWord, Keyword.ofWord_eq_identifier_iff]
    exact Bool.eq_false_or_eq_true _
  obtain ⟨hliteral, hstring⟩ := hkind _ hword
  refine ⟨?_, Kind.isLiteral_iff _, fun h => absurd h hstring, ?_, fun _ => rfl, ?_⟩
  · simp [Token.isLiteral, hliteral]
  · rw [Token.isKeyword, Keyword.isKeyword_ofWord]
  · simp [Token.isIdentifier, Keyword.ofWord_eq_identifier_iff, h]

theorem isConsistent_of_token? (h : IsUnit s.shape s.text) (ht : s.token? line = some t) :
    t.IsConsistent := by
  obtain ⟨shape, text⟩ := s
  cases shape with
  | gap => cases ht
  | openString => cases ht
  | stray => cases ht
  | sign kind =>
    cases ht
    have hall : ∀ p ∈ signs, p.2.isKeyword = false ∧ p.2 ≠ .identifier ∧ p.2.isLiteral = false ∧
        p.2 ≠ .string := by decide
    have hkind : kind.isKeyword = false ∧ kind ≠ .identifier ∧ kind.isLiteral = false ∧
        kind ≠ .string := by
      cases h with
      | sign hmem => exact hall _ hmem
    obtain ⟨hkeyword, hidentifier, hliteral, hstring⟩ := hkind
    exact isConsistent_of_ne_word h (by simp) hkeyword hidentifier hliteral.symm
      fun h => absurd h hstring
  | string =>
    cases ht
    refine isConsistent_of_ne_word h (by simp) rfl nofun rfl fun _ => ?_
    cases h with
    | @string body hbody => exact ⟨body, hbody, rfl, by simp⟩
  | number =>
    cases ht
    obtain ⟨value, hvalue⟩ := Number.ofText?_of_isUnit h
    refine isConsistent_of_ne_word h (by simp) rfl nofun ?_ nofun
    simp [hvalue, Kind.isLiteral]
  | word =>
    cases ht
    exact isConsistent_word h line

end Segment

namespace Lexer

theorem answer_lexeme_of_mem_body (ht : t ∈ (scan source).body) :
    (scan t.lexeme).answer =
      .ok [{ t with line := 1 }, ⟨.endOfInput, [], none, 1 + t.lexeme.count '\n'⟩] := by
  obtain ⟨s, line, hs, htoken⟩ := exists_unit_of_mem_body ht
  obtain ⟨htext, hfirst⟩ := Segment.token?_eq_some htoken 1
  have hanswer := answer_scan_of_isUnit hs
  rw [hfirst, ← htext] at hanswer
  exact hanswer

theorem isConsistent_of_mem_body (ht : t ∈ (scan source).body) : t.IsConsistent := by
  obtain ⟨s, line, hs, htoken⟩ := exists_unit_of_mem_body ht
  exact Segment.isConsistent_of_token? hs htoken

/-- A token is read again from its lexeme, so that the lexeme alone decides on its kind and its
literal, and on what they are called. -/
theorem token_of_lexeme (ht : t ∈ (scan source).body) :
    (scan t.lexeme).answer =
        .ok [{ t with line := 1 }, ⟨.endOfInput, [], none, 1 + t.lexeme.count '\n'⟩] ∧
      (∀ other, ∀ u ∈ (scan other).body, u.lexeme = t.lexeme →
        u.kind = t.kind ∧ u.literal = t.literal) ∧
      t.IsConsistent := by
  have hanswer := answer_lexeme_of_mem_body ht
  refine ⟨hanswer, fun other u hu hlexeme => ?_, isConsistent_of_mem_body ht⟩
  have hsame := answer_lexeme_of_mem_body hu
  rw [hlexeme, hanswer] at hsame
  have htokens := (List.cons.inj (Except.ok.inj hsame)).1
  exact ⟨(congrArg Token.kind htokens).symm, (congrArg Token.literal htokens).symm⟩

theorem token_of_lexeme_string_before_failure :
    let t : Token := ⟨.string, "\"//\n\"".toList, some (.text "//\n".toList), 2⟩
    t ∈ (scan "\n\"//\n\"@".toList).body ∧
      (scan "\"//\n\"".toList).answer =
        .ok [{ t with line := 1 }, ⟨.endOfInput, [], none, 2⟩] := by
  intro t
  have ht : t ∈ (scan "\n\"//\n\"@".toList).body := by decide +kernel
  exact ⟨ht, (token_of_lexeme ht).1⟩

end Lexer

end LoxLexer
