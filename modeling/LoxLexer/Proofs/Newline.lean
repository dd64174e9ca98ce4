import LoxLexer.Proofs.Lookahead

namespace LoxLexer

open Grammar

def Token.shiftLine (n : Int) (t : Token) : Token := { t with line := t.line + n }

def Diagnostic.shiftLine (n : Int) (d : Diagnostic) : Diagnostic := { d with line := d.line + n }

theorem Diagnostic.ofNoUnit_add (line n : Int) (text : List Char) :
    ofNoUnit (line + n) text = (ofNoUnit line text).shiftLine n := by
  unfold ofNoUnit
  split
  · rw [Int.add_right_comm]
    rfl
  · rfl

namespace Segment

theorem token?_add (s : Segment) (line n : Int) :
    s.token? (line + n) = (s.token? line).map (Token.shiftLine n) := by
  obtain ⟨shape, text⟩ := s
  cases shape <;> rfl

theorem tokensFrom_add (segments : List Segment) (line n : Int) :
    tokensFrom (line + n) segments = (tokensFrom line segments).map (Token.shiftLine n) := by
  induction segments generalizing line with
  | nil => rfl
  | cons s segments ih =>
    rw [tokensFrom, tokensFrom, List.map_append, ← ih, token?_add, Option.toList_map,
      Int.add_right_comm]

end Segment

namespace Grammar

variable {text rest left : List Char} {segments later : List Segment}

theorem detached_newline (rest : List Char) : Detached [] ('\n' :: rest) := by
  intro before text h
  rw [List.append_nil]
  rcases h.append_cases with h | rfl | ⟨-, c, tail, hsame, hdigit⟩
  · exact h
  · rw [List.nil_append, List.nil_append] at h
    cases h with
    | comment _ hc => exact absurd rfl hc
    | word _ hc => exact absurd hc (by decide)
    | number _ hc => exact absurd hc (by decide)
  · obtain ⟨rfl, -⟩ := List.cons.inj hsame
    exact absurd hdigit (by decide)

theorem Munches.append_newline (h : Munches text segments []) (hrest : Munches rest later left) :
    Munches (text ++ '\n' :: rest) (segments ++ ⟨.gap, ['\n']⟩ :: later) left := by
  have hnewline : Munches ('\n' :: rest) (⟨.gap, ['\n']⟩ :: later) left :=
    .take rfl (isLongest_of_mem_separators (by decide) rest) hrest
  rw [← List.append_nil segments] at h
  exact h.append (detached_newline rest) hnewline

theorem tokensFrom_append_newline (h : Munches text segments []) (later : List Segment) :
    Segment.tokensFrom 1 (segments ++ ⟨.gap, ['\n']⟩ :: later) =
      Segment.tokensFrom 1 segments ++
        (Segment.tokensFrom 1 later).map (Token.shiftLine (1 + text.count '\n')) := by
  have htext := h.text_eq
  rw [List.append_nil] at htext
  rw [Segment.tokensFrom_append, ← htext, ← Segment.tokensFrom_add, ← Int.add_assoc,
    Int.add_right_comm]
  rfl

end Grammar

namespace Lexer

variable {before after : List Char} {tokens more : List Token} {d : Diagnostic}

theorem scan_append_newline_of_ok (h : (scan before).answer = .ok tokens)
    (hafter : (scan after).answer = .ok more) :
    (scan (before ++ '\n' :: after)).answer =
      .ok ((scan before).body ++ more.map (Token.shiftLine (1 + before.count '\n'))) := by
  obtain ⟨segments, hbefore⟩ := munches_of_answer_eq_ok h
  obtain ⟨later, hrest⟩ := munches_of_answer_eq_ok hafter
  rw [(scan_of_munches_nil hrest).1] at hafter
  obtain rfl := Except.ok.inj hafter
  rw [(scan_of_munches_nil (hbefore.append_newline hrest)).1, body_scan hbefore,
    tokensFrom_append_newline hbefore, List.map_append, List.append_assoc]
  simp [Token.shiftLine]
  omega

theorem scan_append_newline_of_error (h : (scan before).answer = .ok tokens)
    (hafter : (scan after).answer = .error (.lexical d)) :
    let whole := scan (before ++ '\n' :: after)
    let n : Int := 1 + before.count '\n'
    whole.answer = .error (.lexical (d.shiftLine n)) ∧
      whole.lexer.tokens =
        (scan before).body ++ (scan after).lexer.tokens.map (Token.shiftLine n) := by
  intro whole n
  obtain ⟨segments, hbefore⟩ := munches_of_answer_eq_ok h
  obtain ⟨later, c, rest, hrest, hfault⟩ := exists_munches_of_answer_eq_error hafter
  obtain rfl := Fault.lexical.inj hfault
  obtain ⟨hfail, -, -, htokens, -⟩ := scan_of_munches_cons (hbefore.append_newline hrest)
  have hline : 1 + (((segments ++ ⟨.gap, ['\n']⟩ :: later).flatMap
      Segment.text).count '\n' : Int) =
        1 + ((later.flatMap Segment.text).count '\n' : Int) + n := by
    have htext := hbefore.text_eq
    rw [List.append_nil] at htext
    rw [List.flatMap_append, ← htext, List.flatMap_cons]
    simp [n]
    omega
  refine ⟨?_, ?_⟩
  · rw [hfail, hline, Diagnostic.ofNoUnit_add]
  · rw [htokens, (scan_of_munches_cons hrest).2.2.2.1, body_scan hbefore,
      tokensFrom_append_newline hbefore]

/-- Behind a source that scans, a newline begins a source of its own, some lines further down. -/
theorem scan_append_newline (h : ∃ tokens, (scan before).answer = .ok tokens)
    (after : List Char) :
    let whole := scan (before ++ '\n' :: after)
    let n : Int := 1 + before.count '\n'
    match (scan after).answer with
    | .ok tokens => whole.answer = .ok ((scan before).body ++ tokens.map (Token.shiftLine n))
    | .error (.lexical d) =>
      whole.answer = .error (.lexical (d.shiftLine n)) ∧
        whole.lexer.tokens =
          (scan before).body ++ (scan after).lexer.tokens.map (Token.shiftLine n)
    | .error _ => False := by
  intro whole n
  obtain ⟨tokens, hbefore⟩ := h
  cases hafter : (scan after).answer with
  | ok more => exact scan_append_newline_of_ok hbefore hafter
  | error fault =>
    obtain ⟨_, _, _, -, rfl⟩ := exists_munches_of_answer_eq_error hafter
    exact scan_append_newline_of_error hbefore hafter

theorem scan_open_comment_newline :
    let before := "1.//".toList
    let after := "b\n\"".toList
    (∃ tokens, (scan before).answer = .ok tokens) ∧
      (scan (before ++ '\n' :: after)).answer = .error (.lexical (.unterminatedString 3)) ∧
      (scan (before ++ '\n' :: after)).lexer.tokens =
        (scan before).body ++ [⟨.identifier, ['b'], none, 2⟩] := by
  intro before after
  have hbefore : ∃ tokens, (scan before).answer = .ok tokens :=
    ⟨(scan before).lexer.tokens, by decide +kernel⟩
  have hafter : (scan after).answer = .error (.lexical (.unterminatedString 2)) := by
    decide +kernel
  have hpartial : (scan after).lexer.tokens = [⟨.identifier, ['b'], none, 1⟩] := by
    decide +kernel
  have hwhole := scan_append_newline hbefore after
  rw [hafter, hpartial] at hwhole
  exact ⟨hbefore, hwhole⟩

end Lexer

end LoxLexer
