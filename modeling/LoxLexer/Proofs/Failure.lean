import LoxLexer.Proofs.Run

namespace LoxLexer.Lexer

open Grammar

/-- Why a scan stops at a position, what the diagnostic says of it and where the cursor is left. -/
inductive Cause (source : List Char) (start : Nat) (d : Diagnostic) (cursor : Int) : Prop
  | character {c rest} : source.drop start = c :: rest → c ≠ '"' → NoUnit (c :: rest) →
      d.code = some "L001".toList → d.message = "Unexpected character.".toList → d.place = [] →
      d.line = 1 + (source.take start).count '\n' → cursor = start + 1 →
      Cause source start d cursor
  | openString {rest} : source.drop start = '"' :: rest → '"' ∉ rest →
      d.code = some "L002".toList → d.message = "Unterminated string".toList → d.place = [] →
      d.line = 1 + source.count '\n' → cursor = source.length →
      Cause source start d cursor

structure Stopped (source : List Char) (d : Diagnostic) (start : Nat) : Prop where
  mark : (scan source).lexer.mark = start
  /-- What lies before the fault is read as if the source ended there. -/
  before : (scan (source.take start)).answer = .ok ((scan source).lexer.tokens ++
    [⟨.endOfInput, [], none, 1 + (source.take start).count '\n'⟩])
  diagnostics : (scan source).lexer.diagnostics = [d]
  messages : (scan source).messages = [d.toText]
  cause : Cause source start d (scan source).lexer.cursor

variable {source taken rest : List Char} {c : Char} {segments : List Segment}

theorem cause_of_noUnit (h : NoUnit (c :: rest)) (hsource : source = taken ++ c :: rest) :
    Cause source taken.length (.ofNoUnit (1 + taken.count '\n') (c :: rest))
      (taken.length + (Segment.front c rest).text.length) := by
  have hdrop : source.drop taken.length = c :: rest := by rw [hsource, List.drop_left]
  have htake : source.take taken.length = taken := by rw [hsource, List.take_left]
  rcases Segment.front_cases c rest with ⟨hfault, -⟩ | ⟨rfl, hquote, hfront⟩ | ⟨hquote, hfront⟩
  · rw [Segment.noUnit_iff_isFault_front.1 h] at hfault
    cases hfault
  · have hline : 1 + (taken.count '\n' : Int) + (('"' :: rest).count '\n' : Nat) =
        1 + source.count '\n' := by
      rw [hsource, List.count_append]
      omega
    have hcursor : (taken.length : Int) + (('"' :: rest).length : Nat) = source.length := by
      rw [hsource, List.length_append]
      omega
    rw [hfront, hcursor, Diagnostic.ofNoUnit, if_pos List.head?_cons, hline]
    exact .openString hdrop hquote rfl rfl rfl rfl rfl
  · have hhead : (c :: rest).head? ≠ some '"' := by simpa using hquote
    rw [hfront, Diagnostic.ofNoUnit, if_neg hhead]
    exact .character hdrop hquote h rfl rfl rfl (by rw [htake]; rfl) rfl

theorem stopped_of_munches (h : Munches source segments (c :: rest)) :
    ∃ d start, (scan source).answer = .error (.lexical d) ∧ Stopped source d start := by
  have hsource := h.text_eq
  obtain ⟨hanswer, hmessages, hdiagnostics, htokens, hmark, hcursor⟩ := scan_of_munches_cons h
  have htake : source.take (segments.flatMap Segment.text).length =
      segments.flatMap Segment.text := by
    rw [hsource, List.take_left]
  refine ⟨_, _, hanswer, hmark, ?_, hdiagnostics, hmessages, ?_⟩
  · rw [htake, htokens]
    exact (scan_of_munches_nil h.of_taken).1
  · rw [hcursor]
    exact cause_of_noUnit h.noUnit_left hsource

/-- A scan that fails keeps what it has read and reports one diagnostic.  One that succeeds reports
nothing. -/
theorem stopped_or_complete (source : List Char) :
    match (scan source).answer with
    | .ok _ => (scan source).lexer.diagnostics = [] ∧ (scan source).messages = []
    | .error fault => ∃ d start, fault = .lexical d ∧ Stopped source d start := by
  obtain ⟨segments, left, h⟩ := exists_munches source
  cases left with
  | nil =>
    obtain ⟨hanswer, hclean⟩ := scan_of_munches_nil h
    rw [hanswer]
    exact hclean
  | cons c rest =>
    obtain ⟨d, start, hanswer, hstopped⟩ := stopped_of_munches h
    rw [hanswer]
    exact ⟨d, start, rfl, hstopped⟩

end LoxLexer.Lexer
