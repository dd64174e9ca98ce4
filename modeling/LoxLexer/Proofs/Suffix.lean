import LoxLexer.Proofs.Newline

namespace LoxLexer

open Grammar

open Segment

def Fault.shiftLine (n : Int) : Fault → Fault
  | lexical d => lexical (d.shiftLine n)
  | defect d => defect { d with line := d.line + n }
  | alreadyRun => alreadyRun
  | noCharacter => noCharacter
  | unaddressable => unaddressable
  | undelivered => undelivered

namespace Lexer

structure Resumes (x : Lexer) (fresh resumed : Outcome (List Token)) : Prop where
  answer_eq : resumed.answer = match fresh.answer with
    | .ok tokens => .ok (x.tokens ++ tokens.map (Token.shiftLine (x.line - 1)))
    | .error fault => .error (fault.shiftLine (x.line - 1))
  tokens_eq : resumed.lexer.tokens =
    x.tokens ++ fresh.lexer.tokens.map (Token.shiftLine (x.line - 1))
  diagnostics_eq : resumed.lexer.diagnostics =
    x.diagnostics ++ fresh.lexer.diagnostics.map (Diagnostic.shiftLine (x.line - 1))
  cursor_eq : resumed.lexer.cursor = x.cursor + fresh.lexer.cursor
  mark_eq : x.rest ≠ [] → resumed.lexer.mark = x.cursor + fresh.lexer.mark

variable {accepts : Bool} {x : Lexer} {c : Char} {rest : List Char} {segments : List Segment}

theorem mark_foldl_absorb (segments : List Segment) (s : Segment) (x : Lexer) :
    ((segments ++ [s]).foldl absorb x).mark =
      x.cursor + (segments.flatMap Segment.text).length := by
  rw [List.foldl_append, ← cursor_foldl_absorb]
  rfl

theorem tokens_foldl_absorb_shift (segments : List Segment) (x : Lexer) :
    (segments.foldl absorb x).tokens =
      x.tokens ++ (tokensFrom 1 segments).map (Token.shiftLine (x.line - 1)) := by
  rw [tokens_foldl_absorb, ← tokensFrom_add]
  congr 2
  omega

theorem resumes_of_munches_nil (h : Munches x.rest segments []) (hrun : x.hasRun = false)
    (hc : 0 ≤ x.cursor) (accepts : Bool) :
    Resumes x ((ofSource x.rest).run accepts) (x.run accepts) := by
  have hfresh : Munches (ofSource x.rest).rest segments [] := by rwa [rest_ofSource]
  rw [run_of_munches_nil accepts h hrun hc,
    run_of_munches_nil accepts hfresh rfl (Int.le_refl 0)]
  have htokens : (segments.foldl absorb { x with hasRun := true }).emitEnd.tokens = x.tokens ++
      (segments.foldl absorb { ofSource x.rest with hasRun := true }).emitEnd.tokens.map
        (Token.shiftLine (x.line - 1)) := by
    simp only [emitEnd, tokens_foldl_absorb_shift, line_foldl_absorb]
    simp [ofSource, Token.shiftLine, Function.comp_def]
    omega
  refine ⟨congrArg Except.ok htokens, htokens, ?_, ?_, fun hrest => ?_⟩
  · simp only [emitEnd, diagnostics_foldl_absorb, ofSource]
    exact (List.append_nil _).symm
  · simp only [emitEnd, cursor_foldl_absorb, ofSource]
    omega
  · rcases List.eq_nil_or_concat' segments with rfl | ⟨taken, s, rfl⟩
    · exact absurd h.text_eq hrest
    · simp only [emitEnd, mark_foldl_absorb, ofSource]
      omega

theorem resumes_of_munches_cons (h : Munches x.rest segments (c :: rest))
    (hrun : x.hasRun = false) (hc : 0 ≤ x.cursor) (accepts : Bool) :
    Resumes x ((ofSource x.rest).run accepts) (x.run accepts) := by
  have hfresh : Munches (ofSource x.rest).rest segments (c :: rest) := by rwa [rest_ofSource]
  have hd : Diagnostic.ofNoUnit (segments.foldl absorb { x with hasRun := true }).line (c :: rest) =
      (Diagnostic.ofNoUnit (segments.foldl absorb { ofSource x.rest with hasRun := true }).line
        (c :: rest)).shiftLine (x.line - 1) := by
    rw [← Diagnostic.ofNoUnit_add]
    simp only [line_foldl_absorb, ofSource]
    congr 1
    omega
  rw [run_of_munches_cons accepts h hrun hc,
    run_of_munches_cons accepts hfresh rfl (Int.le_refl 0)]
  simp only [hd]
  refine ⟨?_, ?_, ?_, ?_, fun _ => ?_⟩
  · cases accepts <;> rfl
  · simp only [pass, markHere, tokens_foldl_absorb_shift]
    simp [ofSource, Token.shiftLine]
  · simp [diagnostics_foldl_absorb, ofSource]
  · simp only [pass, markHere, cursor_foldl_absorb, ofSource]
    omega
  · simp only [pass, markHere, cursor_foldl_absorb, ofSource]
    omega

theorem diagnostics_run_ofSource (accepts : Bool) (source : List Char) :
    match ((ofSource source).run accepts).answer with
    | .ok _ => ((ofSource source).run accepts).lexer.diagnostics = []
    | .error fault => ∃ d, fault = (if accepts then .lexical d else .undelivered) ∧
      ((ofSource source).run accepts).lexer.diagnostics = [d] := by
  obtain ⟨segments, left, h⟩ := exists_munches (ofSource source).rest
  cases left with
  | nil =>
    rw [run_of_munches_nil accepts h rfl (Int.le_refl 0)]
    exact diagnostics_foldl_absorb _ _
  | cons c rest =>
    rw [run_of_munches_cons accepts h rfl (Int.le_refl 0)]
    exact ⟨_, rfl, congrArg (· ++ [_]) (diagnostics_foldl_absorb _ _)⟩

/-- A run from any state is a run of a fresh lexer over the text ahead, on lines counted from the
line of the state, and behind what the state holds already. -/
theorem resumes_run (hrun : x.hasRun = false) (hc : 0 ≤ x.cursor) (accepts : Bool) :
    let fresh := (ofSource (x.source.drop x.cursor.toNat)).run accepts
    let resumed := x.run accepts
    Resumes x fresh resumed ∧
      match fresh.answer with
      | .ok _ => resumed.lexer.diagnostics = x.diagnostics
      | .error fault => ∃ d, fault = (if accepts then .lexical d else .undelivered) ∧
        resumed.lexer.diagnostics = x.diagnostics ++ [d.shiftLine (x.line - 1)] := by
  rw [← rest_of_nonneg hc]
  intro fresh resumed
  have hresumes : Resumes x fresh resumed := by
    obtain ⟨segments, left, h⟩ := exists_munches x.rest
    cases left with
    | nil => exact resumes_of_munches_nil h hrun hc accepts
    | cons c rest => exact resumes_of_munches_cons h hrun hc accepts
  refine ⟨hresumes, ?_⟩
  have hfresh := diagnostics_run_ofSource accepts x.rest
  rw [hresumes.diagnostics_eq]
  split
  · next h =>
    rw [h] at hfresh
    simp [fresh, hfresh]
  · next fault h =>
    rw [h] at hfresh
    obtain ⟨d, hfault, hd⟩ := hfresh
    exact ⟨d, hfault, by simp [fresh, hd]⟩

theorem resumes_run_behind_newline :
    let x : Lexer := {
      source := "a\nb @".toList
      mark := 7
      cursor := 2
      line := -4
      tokens := [⟨.dot, ['.'], none, 8⟩]
      diagnostics := [.unterminatedString 5] }
    x.hasRun = false ∧ 0 ≤ x.cursor ∧
      (x.run true).answer = .error (.lexical (.unexpectedCharacter (-4))) ∧
      (x.run true).lexer.tokens =
        [⟨.dot, ['.'], none, 8⟩, ⟨.identifier, ['b'], none, -4⟩] ∧
      (x.run true).lexer.diagnostics = [.unterminatedString 5, .unexpectedCharacter (-4)] ∧
      (x.run true).lexer.mark = 4 := by
  intro x
  have hc : 0 ≤ x.cursor := by decide
  obtain ⟨hresumes, -⟩ := resumes_run (x := x) rfl hc true
  have hanswer : ((ofSource "b @".toList).run true).answer =
      .error (.lexical (.unexpectedCharacter 1)) := by decide +kernel
  have htokens : ((ofSource "b @".toList).run true).lexer.tokens =
      [⟨.identifier, ['b'], none, 1⟩] := by decide +kernel
  have hdiagnostics : ((ofSource "b @".toList).run true).lexer.diagnostics =
      [.unexpectedCharacter 1] := by decide +kernel
  have hmark : ((ofSource "b @".toList).run true).lexer.mark = 2 := by decide +kernel
  refine ⟨rfl, hc, ?_, ?_, ?_, ?_⟩
  · rw [hresumes.answer_eq]
    change (match ((ofSource "b @".toList).run true).answer with | .ok _ => _ | .error _ => _) = _
    rw [hanswer]
    rfl
  · exact hresumes.tokens_eq.trans (congrArg (fun tokens => _ ++ List.map _ tokens) htokens)
  · exact hresumes.diagnostics_eq.trans
      (congrArg (fun diagnostics => _ ++ List.map _ diagnostics) hdiagnostics)
  · exact (hresumes.mark_eq (by decide)).trans (congrArg (x.cursor + ·) hmark)

end Lexer

end LoxLexer
