import LoxLexer.Proofs.Run

namespace LoxLexer

open Grammar

namespace Grammar

/-- How many characters of separators and comments begin a text.  A comment stops before the end of
its line. -/
def gapLength : List Char → Nat
  | [] => 0
  | c :: rest =>
    if c ∈ separators then 1 + gapLength rest
    else if c = '/' ∧ rest.head? = some '/' then
      1 + (rest.takeWhile (· ≠ '\n')).length + gapLength (rest.dropWhile (· ≠ '\n'))
    else 0
termination_by text => text.length
decreasing_by
  · simp
  · have := List.length_dropWhile_le (· ≠ '\n') rest
    simp only [List.length_cons]
    omega

/-- The tokens that a walk through a text meets from an offset on, up to the end of the text. -/
def Placed (source : List Char) : Nat → List Token → Prop
  | offset, [] => offset + gapLength (source.drop offset) = source.length
  | offset, t :: tokens =>
    let start := offset + gapLength (source.drop offset)
    t.lexeme ≠ [] ∧ t.lexeme <+: source.drop start ∧
      t.line = 1 + (source.take start).count '\n' ∧ Placed source (start + t.lexeme.length) tokens

variable {c : Char} {source before text rest gap : List Char} {s : Segment} {tokens : List Token}
  {segments : List Segment} {offset other : Nat}

theorem Placed.congr (h : Placed source offset tokens)
    (hsame : offset + gapLength (source.drop offset) = other + gapLength (source.drop other)) :
    Placed source other tokens := by
  cases tokens with
  | nil => exact hsame.symm.trans h
  | cons t tokens =>
    rw [Placed] at h ⊢
    rwa [← hsame]

theorem gapLength_append (h : IsLongest (gap ++ rest) ⟨.gap, gap⟩) :
    gapLength (gap ++ rest) = gap.length + gapLength rest := by
  have hunit : IsUnit .gap gap := h.isUnit
  cases hunit with
  | separator hc => simp [gapLength, hc]
  | @comment body hbody =>
    have hfront : Segment.ofSlash ('/' :: (body ++ rest)) = ⟨.gap, '/' :: '/' :: body⟩ := h.front_eq
    have hline : Segment.linePrefix ('/' :: (body ++ rest)) = '/' :: body := by
      simpa [Segment.ofSlash, Segment.linePrefix] using hfront
    have hleft : ('/' :: (body ++ rest)).dropWhile (· ≠ '\n') = rest := by
      have hsplit : Segment.linePrefix ('/' :: (body ++ rest)) ++ _ = _ :=
        List.takeWhile_append_dropWhile
      rw [hline] at hsplit
      exact List.append_cancel_left hsplit
    change gapLength ('/' :: '/' :: (body ++ rest)) = _
    rw [gapLength, if_neg (by decide), if_pos ⟨rfl, rfl⟩, hleft]
    change 1 + (Segment.linePrefix _).length + _ = _
    rw [hline]
    simp only [List.length_cons]
    omega

theorem gapLength_eq_zero (h : IsLongest text s) (hs : s.shape ≠ .gap) : gapLength text = 0 := by
  cases text with
  | nil => exact absurd noUnit_nil h.not_noUnit
  | cons c rest =>
    have hfront := h.front_eq
    rw [gapLength, if_neg, if_neg]
    · rintro ⟨rfl, hslash⟩
      obtain ⟨line, rfl⟩ := List.head?_eq_some_iff.1 hslash
      exact hs (hfront ▸ rfl)
    · intro hc
      rw [Segment.front_of_mem_separators hc] at hfront
      exact hs (hfront ▸ rfl)

theorem Munches.placed (h : Munches text segments []) (hsource : source = before ++ text) :
    Placed source before.length (Segment.tokensFrom (1 + before.count '\n') segments) := by
  generalize hleft : [] = left at h
  induction h generalizing before with
  | stop =>
    subst hleft hsource
    simp [Segment.tokensFrom, Placed, gapLength]
  | @take text s rest segments left htext hlong _ ih =>
    have hdrop : source.drop before.length = text := by rw [hsource, List.drop_left]
    have hsplit : source = (before ++ s.text) ++ rest := by
      rw [hsource, htext, List.append_assoc]
    have hrest := ih hsplit hleft
    rw [List.length_append, List.count_append, Int.natCast_add, ← Int.add_assoc] at hrest
    rcases Segment.token?_cases hlong.isUnit (1 + before.count '\n') with
      ⟨hgap, htoken⟩ | ⟨kind, literal, hkind, htoken⟩
    · obtain ⟨shape, gap⟩ := s
      obtain rfl : shape = .gap := hgap
      rw [Segment.tokensFrom, htoken]
      refine hrest.congr ?_
      have hahead : source.drop (before.length + gap.length) = rest := by
        rw [← List.drop_drop, hdrop, htext, List.drop_left]
      rw [hdrop, hahead, htext, gapLength_append (htext ▸ hlong), Nat.add_assoc]
    · rw [Segment.tokensFrom, htoken]
      have hzero : gapLength (source.drop before.length) = 0 := by
        rw [hdrop, gapLength_eq_zero hlong hkind.shape_ne_gap]
      refine ⟨hlong.isUnit.ne_nil, ?_, ?_, ?_⟩
      · rw [hzero, Nat.add_zero, hdrop]
        exact hlong.isPrefix
      · rw [hzero, Nat.add_zero, hsource, List.take_left]
      · rw [hzero, Nat.add_zero]
        exact hrest

end Grammar

namespace Lexer

variable {source : List Char} {tokens : List Token}

/-- A walk through the source meets the tokens in order, and behind the last one it comes to the
end, where the end of the input is put. -/
theorem placed_of_answer_eq_ok (h : (scan source).answer = .ok tokens) :
    ∃ body, tokens = body ++ [⟨.endOfInput, [], none, 1 + source.count '\n'⟩] ∧
      (∀ t ∈ body, t.kind ≠ .endOfInput) ∧ Placed source 0 body := by
  obtain ⟨segments, hmunches⟩ := munches_of_answer_eq_ok h
  rw [(scan_of_munches_nil hmunches).1] at h
  refine ⟨Segment.tokensFrom 1 segments, (Except.ok.inj h).symm, ?_, ?_⟩
  · intro t ht
    obtain ⟨s, hs, line, htoken⟩ := Segment.exists_of_mem_tokensFrom ht
    have hunit := hmunches.isUnit_of_mem hs
    rcases Segment.token?_cases hunit line with ⟨-, hnone⟩ | ⟨kind, literal, hkind, hsome⟩
    · rw [hnone] at htoken
      cases htoken
    · obtain rfl := Option.some.inj (hsome.symm.trans htoken)
      exact hkind.ne_endOfInput hunit
  · have hsource : source = [] ++ source := rfl
    exact hmunches.placed hsource

theorem placed_over_two_lines :
    let source := "a // b\n\"\n\"".toList
    let body : List Token := [⟨.identifier, ['a'], none, 1⟩,
      ⟨.string, ['"', '\n', '"'], some (.text ['\n']), 2⟩]
    (scan source).answer = .ok (body ++ [⟨.endOfInput, [], none, 3⟩]) ∧ Placed source 0 body := by
  intro source body
  have hanswer : (scan source).answer = .ok (body ++ [⟨.endOfInput, [], none, 3⟩]) := by
    decide +kernel
  obtain ⟨_, hbody, -, hplaced⟩ := placed_of_answer_eq_ok hanswer
  obtain rfl := List.append_inj_left' hbody rfl
  exact ⟨hanswer, hplaced⟩

end Lexer

end LoxLexer
