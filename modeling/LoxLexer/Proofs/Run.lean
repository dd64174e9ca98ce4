import LoxLexer.Lexer.Run
import LoxLexer.Proofs.Front
import LoxLexer.Proofs.Numeral
import LoxLexer.Proofs.Tokens

/-! A run over a source in terms of its units: the state passes over one longest unit after the
other, and where no unit begins it stops for good. -/

namespace LoxLexer

open Grammar Text

open Segment

def Diagnostic.ofNoUnit (line : Int) (text : List Char) : Diagnostic :=
  if text.head? = some '"' then .unterminatedString (line + text.count '\n')
  else .unexpectedCharacter line

/-- The tokens that a run leaves, whether or not it succeeds, but for the end of the input. -/
def Outcome.body (o : Outcome (List Token)) : List Token :=
  o.lexer.tokens.filter fun t => t.kind ≠ .endOfInput

namespace Lexer

variable (accepts : Bool) {x : Lexer} {c : Char} {text rest left : List Char} {s : Segment}
  {segments : List Segment}

def absorb (x : Lexer) (s : Segment) : Lexer :=
  { x with
    mark := x.cursor
    markLine := x.line
    cursor := x.cursor + s.text.length
    line := x.line + s.text.count '\n'
    tokens := x.tokens ++ (s.token? x.line).toList }

theorem innerLexeme_pass_markHere (hc : 0 ≤ x.cursor) (h : text <+: x.rest) (hne : text ≠ []) :
    (x.markHere.pass text).innerLexeme = text.tail.dropLast := by
  obtain ⟨tail, h⟩ := h
  have hlength : 0 < text.length := List.length_pos_iff.2 hne
  have hinner : (x.markHere.pass text).innerLexeme = (x.rest.drop 1).take (text.length - 2) := by
    rw [rest_of_nonneg hc]
    simp only [innerLexeme, between, pass, markHere]
    rw [offset_of_nonneg (by omega), offset_of_nonneg (by omega), List.drop_drop]
    congr 1
    · omega
    · congr 1
      omega
  rw [hinner, ← h, List.drop_append_of_le_length hlength, List.drop_one, List.dropLast_eq_take,
    List.take_append_of_le_length (by simp; omega)]
  simp [Nat.sub_sub]

theorem take_markHere (h : IsUnit s.shape s.text) (hc : 0 ≤ x.cursor) (hp : s.text <+: x.rest) :
    x.markHere.take accepts s = ⟨.ok (), x.absorb s, []⟩ := by
  obtain ⟨shape, text⟩ := s
  have hlexeme := lexeme_pass_markHere hc hp
  cases shape with
  | gap => simp [Lexer.take, settle, absorb, token?, pass, markHere]
  | sign kind =>
    simp only [Lexer.take, settle, emit, hlexeme]
    rfl
  | string =>
    have hinner := innerLexeme_pass_markHere hc hp h.ne_nil
    simp only [Lexer.take, settle, emit, hlexeme, hinner]
    rfl
  | openString => cases h
  | number =>
    obtain ⟨value, hvalue⟩ := Number.ofText?_of_isUnit h
    simp only [Lexer.take, settle, emitNumber, emit, hlexeme, hvalue]
    simp [absorb, token?, hvalue, pass, markHere]
  | word =>
    simp only [Lexer.take, settle, emit, hlexeme]
    rfl
  | stray => cases h

theorem readUnit_markHere (h : IsLongest x.rest s) (hc : 0 ≤ x.cursor) :
    x.markHere.readUnit accepts = ⟨.ok (), x.absorb s, []⟩ := by
  have htake := take_markHere accepts h.isUnit hc h.isPrefix
  unfold readUnit
  rw [rest_markHere]
  cases hrest : x.rest with
  | nil => exact absurd (List.prefix_nil.1 (hrest ▸ h.isPrefix)) h.isUnit.ne_nil
  | cons c rest =>
    rw [hrest] at h
    change x.markHere.take accepts (front c rest) = _
    rw [h.front_eq, htake]

theorem sweep_absorb (h : IsLongest x.rest s) (hc : 0 ≤ x.cursor) :
    x.sweep accepts = (x.absorb s).sweep accepts := by
  have hend : ¬ x.atEnd = true := by
    rw [atEnd_iff hc]
    intro hrest
    exact h.not_noUnit (hrest ▸ noUnit_nil)
  have hread := readUnit_markHere accepts h hc
  rw [sweep, dif_neg hend]
  generalize x.markHere.readUnit accepts = step at hread ⊢
  subst hread
  rfl

theorem sweep_of_rest_eq_nil (h : x.rest = []) (hc : 0 ≤ x.cursor) :
    x.sweep accepts = ⟨.ok (), x, []⟩ := by
  rw [sweep, dif_pos ((atEnd_iff hc).2 h)]

theorem sweep_of_noUnit (h : x.rest = c :: rest) (hno : NoUnit (c :: rest)) (hc : 0 ≤ x.cursor) :
    x.sweep accepts =
      (x.markHere.pass (front c rest).text).stop accepts (.ofNoUnit x.line (c :: rest)) := by
  have hend : ¬ x.atEnd = true := by
    rw [atEnd_iff hc, h]
    exact List.cons_ne_nil c rest
  have hread : x.markHere.readUnit accepts =
      (x.markHere.pass (front c rest).text).stop accepts (.ofNoUnit x.line (c :: rest)) := by
    unfold readUnit
    rw [rest_markHere, h]
    change x.markHere.take accepts (front c rest) = _
    rcases front_cases c rest with ⟨hfault, -⟩ | ⟨rfl, -, hfront⟩ | ⟨hne, hfront⟩
    · rw [noUnit_iff_isFault_front.1 hno] at hfault
      cases hfault
    · rw [hfront]
      rfl
    · have hnewline : c ≠ '\n' := by
        rintro rfl
        exact hno _ _ (.separator (by decide)) ⟨rest, rfl⟩
      rw [hfront]
      simp [Lexer.take, settle, pass, markHere, Diagnostic.ofNoUnit, hne, hnewline]
  rw [sweep, dif_neg hend]
  generalize x.markHere.readUnit accepts = step at hread ⊢
  subst hread
  cases accepts <;> rfl

theorem rest_absorb (h : x.rest = s.text ++ rest) : (x.absorb s).rest = rest :=
  rest_pass h

theorem diagnostics_foldl_absorb (segments : List Segment) (x : Lexer) :
    (segments.foldl absorb x).diagnostics = x.diagnostics := by
  induction segments generalizing x with
  | nil => rfl
  | cons s segments ih => rw [List.foldl_cons, ih, absorb]

theorem cursor_foldl_absorb (segments : List Segment) (x : Lexer) :
    (segments.foldl absorb x).cursor = x.cursor + (segments.flatMap Segment.text).length := by
  induction segments generalizing x with
  | nil => simp
  | cons s segments ih =>
    rw [List.foldl_cons, ih, List.flatMap_cons, List.length_append]
    simp only [absorb]
    omega

theorem cursor_foldl_absorb_nonneg (segments : List Segment) (hc : 0 ≤ x.cursor) :
    0 ≤ (segments.foldl absorb x).cursor := by
  rw [cursor_foldl_absorb]
  exact Int.add_nonneg hc (Int.natCast_nonneg _)

theorem line_foldl_absorb (segments : List Segment) (x : Lexer) :
    (segments.foldl absorb x).line = x.line + (segments.flatMap Segment.text).count '\n' := by
  induction segments generalizing x with
  | nil => simp
  | cons s segments ih =>
    rw [List.foldl_cons, ih, List.flatMap_cons, List.count_append]
    simp only [absorb]
    omega

theorem tokens_foldl_absorb (segments : List Segment) (x : Lexer) :
    (segments.foldl absorb x).tokens = x.tokens ++ tokensFrom x.line segments := by
  induction segments generalizing x with
  | nil => simp [tokensFrom]
  | cons s segments ih =>
    rw [List.foldl_cons, ih, tokensFrom]
    simp only [absorb, List.append_assoc]

theorem sweep_foldl_absorb (h : Munches text segments left) (hx : x.rest = text)
    (hc : 0 ≤ x.cursor) :
    x.sweep accepts = (segments.foldl absorb x).sweep accepts ∧
      (segments.foldl absorb x).rest = left := by
  induction h generalizing x with
  | stop => exact ⟨rfl, hx⟩
  | @take text s rest segments left htext hlong _ ih =>
    have hcursor : 0 ≤ (x.absorb s).cursor := by
      simp only [absorb]
      omega
    obtain ⟨hsweep, hrest⟩ := ih (rest_absorb (hx.trans htext)) hcursor
    exact ⟨(sweep_absorb accepts (hx ▸ hlong) hc).trans hsweep, hrest⟩

theorem stop_eq (x : Lexer) (d : Diagnostic) :
    x.stop accepts d =
      ⟨.error (if accepts then .lexical d else .undelivered),
        { x with diagnostics := x.diagnostics ++ [d] },
        .report d.toText :: if accepts then [.stopped x.mark d.message] else []⟩ := by
  cases accepts <;> rfl

theorem run_of_munches_nil (h : Munches x.rest segments []) (hrun : x.hasRun = false)
    (hc : 0 ≤ x.cursor) :
    x.run accepts =
      let y := (segments.foldl absorb { x with hasRun := true }).emitEnd
      ⟨.ok y.tokens, y, [.scanned y.tokens.length y.line]⟩ := by
  obtain ⟨hsweep, hrest⟩ :=
    sweep_foldl_absorb accepts (x := { x with hasRun := true }) h rfl hc
  have hcursor := cursor_foldl_absorb_nonneg (x := { x with hasRun := true }) segments hc
  simp [run, hrun, hsweep, sweep_of_rest_eq_nil accepts hrest hcursor]

theorem run_of_munches_cons (h : Munches x.rest segments (c :: rest)) (hrun : x.hasRun = false)
    (hc : 0 ≤ x.cursor) :
    x.run accepts =
      let y := segments.foldl absorb { x with hasRun := true }
      let d := Diagnostic.ofNoUnit y.line (c :: rest)
      ⟨.error (if accepts then .lexical d else .undelivered),
        { y.markHere.pass (front c rest).text with diagnostics := y.diagnostics ++ [d] },
        .report d.toText :: if accepts then [.stopped y.cursor d.message] else []⟩ := by
  obtain ⟨hsweep, hrest⟩ :=
    sweep_foldl_absorb accepts (x := { x with hasRun := true }) h rfl hc
  have hcursor := cursor_foldl_absorb_nonneg (x := { x with hasRun := true }) segments hc
  simp [run, hrun, hsweep, sweep_of_noUnit accepts hrest h.noUnit_left hcursor, stop_eq]
  exact ⟨rfl, rfl⟩

theorem tokens_run (h : Munches x.rest segments left) (hrun : x.hasRun = false)
    (hc : 0 ≤ x.cursor) :
    ∃ ends : List Token,
      (x.run accepts).lexer.tokens = x.tokens ++ (tokensFrom x.line segments ++ ends) ∧
        ends.length ≤ 1 ∧ ∀ t ∈ ends, t.kind = .endOfInput := by
  have htaken := tokens_foldl_absorb segments { x with hasRun := true }
  cases left with
  | nil =>
    obtain ⟨line, htokens⟩ : ∃ line, (x.run accepts).lexer.tokens =
        x.tokens ++ (tokensFrom x.line segments ++ [⟨.endOfInput, [], none, line⟩]) := by
      rw [run_of_munches_nil accepts h hrun hc]
      simp only [emitEnd, htaken, List.append_assoc]
      exact ⟨_, rfl⟩
    exact ⟨_, htokens, Nat.le_refl 1, by simp⟩
  | cons c rest =>
    refine ⟨[], ?_, Nat.zero_le 1, by simp⟩
    rw [run_of_munches_cons accepts h hrun hc, List.append_nil]
    exact htaken

variable {accepts} in
theorem sweep_of_answer_run_eq_ok {tokens : List Token}
    (h : (x.run accepts).answer = .ok tokens) :
    let swept := { x with hasRun := true }.sweep accepts
    swept.answer = .ok () ∧ tokens = swept.lexer.emitEnd.tokens ∧
      (x.run accepts).lexer = swept.lexer.emitEnd := by
  intro swept
  by_cases hrun : x.hasRun
  · rw [run, if_pos hrun] at h
    cases h
  · rw [run, if_neg hrun] at h ⊢
    cases hanswer : ({ x with hasRun := true }.sweep accepts).answer with
    | error fault =>
      simp only [hanswer] at h
      cases h
    | ok =>
      simp only [hanswer] at h
      exact ⟨rfl, (Except.ok.inj h).symm, by simp only [hanswer, swept]⟩

variable {accepts} in
theorem tokens_of_answer_run_eq_ok {tokens : List Token}
    (h : (x.run accepts).answer = .ok tokens) : (x.run accepts).lexer.tokens = tokens := by
  obtain ⟨-, rfl, hlexer⟩ := sweep_of_answer_run_eq_ok h
  rw [hlexer]

theorem answer_run_eq_ok_or_error (hrun : x.hasRun = false) (hc : 0 ≤ x.cursor) :
    (∃ tokens, (x.run accepts).answer = .ok tokens) ∨
      ∃ d, (x.run accepts).answer = .error (if accepts then .lexical d else .undelivered) := by
  obtain ⟨segments, left, h⟩ := exists_munches x.rest
  cases left with
  | nil => exact .inl ⟨_, congrArg Outcome.answer (run_of_munches_nil accepts h hrun hc)⟩
  | cons c rest => exact .inr ⟨_, congrArg Outcome.answer (run_of_munches_cons accepts h hrun hc)⟩

variable {source : List Char}

theorem scan_of_munches_nil (h : Munches source segments []) :
    (scan source).answer =
        .ok (tokensFrom 1 segments ++ [⟨.endOfInput, [], none, 1 + source.count '\n'⟩]) ∧
      (scan source).lexer.diagnostics = [] ∧ (scan source).messages = [] := by
  have htext := h.text_eq
  rw [List.append_nil] at htext
  rw [scan, run_of_munches_nil true (by rwa [rest_ofSource]) rfl (Int.le_refl 0)]
  refine ⟨?_, ?_, rfl⟩
  · simp only [emitEnd, tokens_foldl_absorb, line_foldl_absorb, ← htext]
    rfl
  · exact diagnostics_foldl_absorb _ _

theorem answer_scan_of_isUnit (h : IsUnit s.shape s.text) :
    (scan s.text).answer =
      .ok ((s.token? 1).toList ++ [⟨.endOfInput, [], none, 1 + s.text.count '\n'⟩]) := by
  have halone : Munches s.text [s] [] :=
    .take (List.append_nil _).symm h.isLongest (.stop noUnit_nil)
  rw [(scan_of_munches_nil halone).1, tokensFrom, tokensFrom, List.append_nil]

theorem scan_of_munches_cons (h : Munches source segments (c :: rest)) :
    let taken := segments.flatMap Segment.text
    let d := Diagnostic.ofNoUnit (1 + taken.count '\n') (c :: rest)
    (scan source).answer = .error (.lexical d) ∧ (scan source).messages = [d.toText] ∧
      (scan source).lexer.diagnostics = [d] ∧ (scan source).lexer.tokens = tokensFrom 1 segments ∧
      (scan source).lexer.mark = taken.length ∧
      (scan source).lexer.cursor = taken.length + (front c rest).text.length := by
  intro taken d
  rw [scan, run_of_munches_cons true (by rwa [rest_ofSource]) rfl (Int.le_refl 0)]
  have hline : (segments.foldl absorb { ofSource source with hasRun := true }).line =
      1 + taken.count '\n' := line_foldl_absorb _ _
  have hcursor : (segments.foldl absorb { ofSource source with hasRun := true }).cursor =
      taken.length := (cursor_foldl_absorb _ _).trans (Int.zero_add _)
  have hdiagnostics :
      (segments.foldl absorb { ofSource source with hasRun := true }).diagnostics = [] :=
    diagnostics_foldl_absorb _ _
  simp only [hline, hdiagnostics, List.nil_append]
  refine ⟨rfl, rfl, rfl, ?_, hcursor, ?_⟩
  · exact tokens_foldl_absorb _ _
  · rw [← hcursor]
    rfl

theorem body_scan (h : Munches source segments left) :
    (scan source).body = tokensFrom 1 segments := by
  have hkeep : (tokensFrom 1 segments).filter (fun t => t.kind ≠ .endOfInput) =
      tokensFrom 1 segments := by
    refine List.filter_eq_self.2 fun t ht => decide_eq_true ?_
    exact kind_ne_endOfInput_of_mem (fun _ => h.isUnit_of_mem) ht
  cases left with
  | nil =>
    rw [scan, run_of_munches_nil true (by rwa [rest_ofSource]) rfl (Int.le_refl 0)]
    simp only [Outcome.body, emitEnd, tokens_foldl_absorb, List.filter_append]
    exact (congrArg (· ++ []) hkeep).trans (List.append_nil _)
  | cons c rest =>
    obtain ⟨-, -, -, htokens, -⟩ := scan_of_munches_cons h
    rw [Outcome.body, htokens, hkeep]

theorem exists_unit_of_mem_body {t : Token} (ht : t ∈ (scan source).body) :
    ∃ (s : Segment) (line : Int), IsUnit s.shape s.text ∧ s.token? line = some t := by
  obtain ⟨segments, left, hmunches⟩ := exists_munches source
  rw [body_scan hmunches] at ht
  obtain ⟨s, hs, line, htoken⟩ := exists_of_mem_tokensFrom ht
  exact ⟨s, line, hmunches.isUnit_of_mem hs, htoken⟩

theorem munches_of_answer_eq_ok {tokens : List Token}
    (h : (scan source).answer = .ok tokens) :
    ∃ segments, Munches source segments [] := by
  obtain ⟨segments, left, hmunches⟩ := exists_munches source
  cases left with
  | nil => exact ⟨segments, hmunches⟩
  | cons c rest =>
    rw [(scan_of_munches_cons hmunches).1] at h
    cases h

theorem eq_body_concat_of_answer_eq_ok {tokens : List Token}
    (h : (scan source).answer = .ok tokens) :
    tokens = (scan source).body ++ [⟨.endOfInput, [], none, 1 + source.count '\n'⟩] := by
  obtain ⟨segments, hmunches⟩ := munches_of_answer_eq_ok h
  rw [(scan_of_munches_nil hmunches).1] at h
  rw [body_scan hmunches]
  exact (Except.ok.inj h).symm

theorem exists_munches_of_answer_eq_error {fault : Fault}
    (h : (scan source).answer = .error fault) :
    ∃ segments c rest, Munches source segments (c :: rest) ∧
      fault = .lexical
        (.ofNoUnit (1 + (segments.flatMap Segment.text).count '\n') (c :: rest)) := by
  obtain ⟨segments, left, hmunches⟩ := exists_munches source
  cases left with
  | nil =>
    rw [(scan_of_munches_nil hmunches).1] at h
    cases h
  | cons c rest =>
    rw [(scan_of_munches_cons hmunches).1] at h
    exact ⟨segments, c, rest, hmunches, (Except.error.inj h).symm⟩

theorem answer_eq_ok_or_error (source : List Char) :
    (∃ tokens, (scan source).answer = .ok tokens) ∨
      ∃ d, (scan source).answer = .error (.lexical d) := by
  cases h : (scan source).answer with
  | ok tokens => exact .inl ⟨tokens, rfl⟩
  | error fault =>
    obtain ⟨_, _, _, -, rfl⟩ := exists_munches_of_answer_eq_error h
    exact .inr ⟨_, rfl⟩

theorem messages_of_answer_eq_ok {tokens : List Token} (h : (scan source).answer = .ok tokens) :
    (scan source).messages = [] := by
  obtain ⟨segments, hmunches⟩ := munches_of_answer_eq_ok h
  exact (scan_of_munches_nil hmunches).2.2

theorem messages_of_answer_eq_error {d : Diagnostic}
    (h : (scan source).answer = .error (.lexical d)) : (scan source).messages = [d.toText] := by
  obtain ⟨segments, c, rest, hmunches, hfault⟩ := exists_munches_of_answer_eq_error h
  obtain rfl := Fault.lexical.inj hfault
  exact (scan_of_munches_cons hmunches).2.1

end Lexer

end LoxLexer
