import LoxLexer.Lexer.Request
import Mathlib

/-! What an operation of a lexer does to its state: the cursor passes over text ahead, and one token
or one diagnostic is appended at most.  A run does this again and again. -/

namespace LoxLexer

open Segment Text

/-- Neither are positions and lines set from outside, nor is a newline passed without being
counted. -/
def Request.IsOwn : Request → Prop
  | .place _ => False
  | .accept expected => expected ≠ ['\n']
  | _ => True

namespace Lexer

structure Sound (x : Lexer) : Prop where
  mark_nonneg : 0 ≤ x.mark
  mark_le_cursor : x.mark ≤ x.cursor
  cursor_le_length : x.cursor ≤ x.source.length
  line_eq : x.line = 1 + (x.source.take x.cursor.toNat).count '\n'
  markLine_eq : x.markLine = 1 + (x.source.take x.mark.toNat).count '\n'

structure Grows (x y : Lexer) : Prop where
  source_eq : y.source = x.source
  cursor_le : x.cursor ≤ y.cursor
  line_le : x.line ≤ y.line
  tokens : x.tokens <+: y.tokens
  diagnostics : x.diagnostics <+: y.diagnostics

/-- All that an operation other than a run can do.  A diagnostic that is recorded is handed out as a
message. -/
def Moves {α : Type} (x : Lexer) (o : Outcome α) : Prop :=
  ∃ text token diagnostic, text <+: x.rest ∧
    o.lexer = { x.pass text with
      tokens := x.tokens ++ Option.toList token
      diagnostics := x.diagnostics ++ Option.toList diagnostic } ∧
    o.messages = diagnostic.toList.map Diagnostic.toText

structure Keeps {α : Type} (x : Lexer) (o : Outcome α) : Prop where
  sound : Sound o.lexer
  grows : Grows x o.lexer
  messages_eq : o.lexer.diagnostics.map Diagnostic.toText =
    x.diagnostics.map Diagnostic.toText ++ o.messages

variable {α β : Type} {accepts : Bool} {x y z : Lexer} {s : Segment} {o : Outcome α} {p : Outcome β}
  {text : List Char}

theorem Grows.trans (h : Grows x y) (hy : Grows y z) : Grows x z :=
  ⟨hy.source_eq.trans h.source_eq, Int.le_trans h.cursor_le hy.cursor_le,
    Int.le_trans h.line_le hy.line_le, h.tokens.trans hy.tokens, h.diagnostics.trans hy.diagnostics⟩

theorem Sound.cursor_nonneg (h : Sound x) : 0 ≤ x.cursor :=
  Int.le_trans h.mark_nonneg h.mark_le_cursor

theorem moves_self (answer : Except Fault α) : Moves x ⟨answer, x, []⟩ :=
  ⟨[], none, none, List.nil_prefix, by simp [pass], rfl⟩

theorem Moves.map (h : Moves x o) (f : α → β) : Moves x (o.map f) := h

theorem moves_emit (kind : Kind) (literal : Option Literal) (answer : Except Fault α) :
    Moves x ⟨answer, x.emit kind literal, []⟩ :=
  ⟨[], some _, none, List.nil_prefix, by simp [pass, emit]; rfl, rfl⟩

theorem moves_record (accepts : Bool) (x : Lexer) (d : Diagnostic) :
    Moves x (x.record accepts d) := by
  cases accepts <;> exact ⟨[], none, some d, List.nil_prefix, by simp [pass, record], rfl⟩

theorem moves_stop (accepts : Bool) (x : Lexer) (d : Diagnostic) : Moves x (x.stop accepts d) := by
  cases accepts <;> exact moves_record _ x d

theorem moves_settle (accepts : Bool) (x : Lexer) (shape : Shape) :
    Moves x (x.settle accepts shape) := by
  cases shape with
  | gap => exact moves_self _
  | sign kind => exact moves_emit kind none _
  | string => exact moves_emit .string _ _
  | openString => exact moves_stop accepts x _
  | number =>
    change Moves x x.emitNumber
    unfold emitNumber
    split
    · exact moves_emit .number _ _
    · exact moves_self _
  | word => exact moves_emit _ none _
  | stray => exact moves_stop accepts x _

theorem Moves.of_pass (htext : text <+: x.rest) (h : Moves (x.pass text) o) : Moves x o := by
  obtain ⟨tail, htail⟩ := htext
  obtain ⟨more, token, diagnostic, hmore, hlexer, hmessages⟩ := h
  rw [rest_pass htail.symm] at hmore
  refine ⟨text ++ more, token, diagnostic, ?_, ?_, hmessages⟩
  · rw [← htail]
    exact (List.prefix_append_right_inj text).2 hmore
  · rw [hlexer, pass_pass]
    rfl

theorem moves_take (h : s.text <+: x.rest) : Moves x (x.take accepts s) :=
  (moves_settle accepts _ s.shape).of_pass h

theorem moves_readUnit (accepts : Bool) (x : Lexer) : Moves x (x.readUnit accepts) := by
  unfold readUnit
  split
  · exact moves_self _
  · next c rest hrest => exact moves_take (hrest ▸ front_isPrefix c rest)

theorem moves_takeFrom (hc : 0 ≤ x.cursor) {cut : List Char → Segment}
    (hcut : ∀ text, (cut text).text <+: text) : Moves x (x.takeFrom accepts cut) := by
  rw [takeFrom_of_nonneg accepts x hc]
  exact moves_take (hcut x.rest)

theorem moves_next (x : Lexer) : Moves x x.next := by
  unfold next
  split
  · exact moves_self _
  · next c rest hrest => exact ⟨[c], none, none, hrest ▸ ⟨rest, rfl⟩, by simp [pass], rfl⟩

theorem moves_accept (hc : 0 ≤ x.cursor) {expected : List Char} (h : expected ≠ ['\n']) :
    Moves x (x.accept expected) := by
  unfold accept
  rw [ahead_of_nonneg hc]
  split
  · exact moves_self _
  · exact moves_self _
  · next c rest hrest =>
    split
    · next hsame =>
      have hnone : c ≠ '\n' := fun hc => h (hsame.trans (congrArg (fun c => [c]) hc))
      have htext : [c] <+: x.rest := ⟨rest, (Except.ok.inj hrest).symm⟩
      exact ⟨[c], none, none, htext, by simp [pass, hnone], rfl⟩
    · exact moves_self _

theorem moves_serve (hc : 0 ≤ x.cursor) {r : Request} (hr : r.IsOwn) (hrun : r ≠ .run)
    (accepts : Bool) : Moves x (x.serve accepts r) := by
  cases r with
  | run => exact absurd rfl hrun
  | tokens => exact moves_self _
  | hasDiagnostics => exact moves_self _
  | place p => exact hr.elim
  | accept expected => exact (moves_accept hc hr).map _
  | emit kind literal => exact moves_emit kind literal _
  | record d => exact (moves_record accepts x d).map _
  | readUnit => exact (moves_readUnit accepts x).map _
  | readString => exact (moves_takeFrom hc ofStringBody_isPrefix).map _
  | readNumber => exact (moves_takeFrom hc numberPrefix_isPrefix).map _
  | readWord => exact (moves_takeFrom hc wordPrefix_isPrefix).map _
  | next => exact (moves_next x).map _
  | firstAhead => exact moves_self _
  | secondAhead => exact moves_self _
  | atEnd => exact moves_self _

theorem Moves.keeps (h : Moves x o) (hx : Sound x) : Keeps x o := by
  obtain ⟨text, token, diagnostic, ⟨tail, htext⟩, hlexer, hmessages⟩ := h
  have hc := hx.cursor_nonneg
  rw [rest_of_nonneg hc] at htext
  have hlength := congrArg List.length htext
  rw [List.length_append, List.length_drop] at hlength
  -- What is passed is the source from the cursor on, so that the lines can be counted in it.
  have htaken : x.source.take (x.cursor + text.length).toNat =
      x.source.take x.cursor.toNat ++ text := by
    have hsum : (x.cursor + text.length).toNat = x.cursor.toNat + text.length := by omega
    rw [hsum, List.take_add, ← htext, List.take_left]
  refine ⟨?_, ?_, ?_⟩
  · rw [hlexer]
    refine ⟨hx.mark_nonneg, ?_, ?_, ?_, hx.markLine_eq⟩
    · have := hx.mark_le_cursor
      simp only [pass]
      omega
    · have := hx.cursor_le_length
      simp only [pass]
      omega
    · simp only [pass]
      rw [htaken, List.count_append, hx.line_eq]
      omega
  · rw [hlexer]
    refine ⟨rfl, ?_, ?_, List.prefix_append _ _, List.prefix_append _ _⟩
    · simp only [pass]
      omega
    · simp only [pass]
      omega
  · rw [hlexer, hmessages]
    simp

theorem Keeps.trans (h : Keeps x o) (hp : Keeps o.lexer p) :
    Keeps x { p with notices := o.notices ++ p.notices } where
  sound := hp.sound
  grows := h.grows.trans hp.grows
  messages_eq := by
    have hboth : ({ p with notices := o.notices ++ p.notices } : Outcome β).messages =
        o.messages ++ p.messages := List.filterMap_append
    rw [hboth, hp.messages_eq, h.messages_eq, List.append_assoc]

theorem Keeps.of_eq (h : Keeps y o) (hsource : y.source = x.source) (hcursor : y.cursor = x.cursor)
    (hline : y.line = x.line) (htokens : y.tokens = x.tokens)
    (hdiagnostics : y.diagnostics = x.diagnostics) : Keeps x o where
  sound := h.sound
  grows := ⟨h.grows.source_eq.trans hsource, hcursor ▸ h.grows.cursor_le,
    hline ▸ h.grows.line_le, htokens ▸ h.grows.tokens, hdiagnostics ▸ h.grows.diagnostics⟩
  messages_eq := hdiagnostics ▸ h.messages_eq

theorem Sound.markHere (h : Sound x) : Sound x.markHere :=
  ⟨Int.le_trans h.mark_nonneg h.mark_le_cursor, Int.le_refl _, h.cursor_le_length, h.line_eq,
    h.line_eq⟩

theorem Sound.setRun (h : Sound x) (hasRun : Bool) : Sound { x with hasRun } :=
  ⟨h.mark_nonneg, h.mark_le_cursor, h.cursor_le_length, h.line_eq, h.markLine_eq⟩

theorem keeps_self (h : Sound x) (answer : Except Fault α) : Keeps x ⟨answer, x, []⟩ :=
  (moves_self answer).keeps h

theorem keeps_markHere_readUnit (h : Sound x) (accepts : Bool) :
    Keeps x (x.markHere.readUnit accepts) :=
  ((moves_readUnit accepts x.markHere).keeps h.markHere).of_eq rfl rfl rfl rfl rfl

theorem keeps_sweep (h : Sound x) (accepts : Bool) : Keeps x (x.sweep accepts) := by
  fun_induction sweep accepts x with
  | case1 x hend => exact keeps_self h _
  | case2 x hend step fault hanswer => exact keeps_markHere_readUnit h accepts
  | case3 x hend step hanswer swept ih =>
    have hstep := keeps_markHere_readUnit h accepts
    exact hstep.trans (ih hstep.sound)

theorem moves_emitEnd (answer : Except Fault α) (count : Nat) (line : Int) :
    Moves x ⟨answer, x.emitEnd, [.scanned count line]⟩ :=
  ⟨[], some _, none, List.nil_prefix, by simp [pass, emitEnd]; rfl, rfl⟩

theorem keeps_run (h : Sound x) (accepts : Bool) : Keeps x (x.run accepts) := by
  -- The sweep starts with the flag set, which `of_eq` undoes.
  have hswept := keeps_sweep (h.setRun true) accepts
  unfold run
  split
  · exact keeps_self h _
  · dsimp only
    split
    · exact Keeps.of_eq ⟨hswept.sound, hswept.grows, hswept.messages_eq⟩ rfl rfl rfl rfl rfl
    · exact (hswept.trans ((moves_emitEnd _ _ _).keeps hswept.sound)).of_eq rfl rfl rfl rfl rfl

theorem keeps_serve (h : Sound x) {r : Request} (hr : r.IsOwn) (accepts : Bool) :
    Keeps x (x.serve accepts r) := by
  by_cases hrun : r = .run
  · subst hrun
    have hkeeps := keeps_run h accepts
    exact ⟨hkeeps.sound, hkeeps.grows, hkeeps.messages_eq⟩
  · exact (moves_serve h.cursor_nonneg hr hrun accepts).keeps h

theorem Moves.hasRun_eq (h : Moves x o) : o.lexer.hasRun = x.hasRun := by
  obtain ⟨text, token, diagnostic, -, hlexer, -⟩ := h
  rw [hlexer]
  rfl

theorem hasRun_sweep (accepts : Bool) (x : Lexer) : (x.sweep accepts).lexer.hasRun = x.hasRun := by
  fun_induction sweep accepts x with
  | case1 x hend => rfl
  | case2 x hend step fault hanswer => exact (moves_readUnit accepts x.markHere).hasRun_eq
  | case3 x hend step hanswer swept ih =>
    exact ih.trans (moves_readUnit accepts x.markHere).hasRun_eq

theorem hasRun_run (accepts : Bool) (x : Lexer) : (x.run accepts).lexer.hasRun = true := by
  have hswept := hasRun_sweep accepts { x with hasRun := true }
  unfold run
  split
  · assumption
  · dsimp only
    split <;> exact hswept

theorem hasRun_serve (hc : 0 ≤ x.cursor) {r : Request} (hr : r.IsOwn) (accepts : Bool) :
    (x.serve accepts r).lexer.hasRun = (x.hasRun || r = .run) := by
  by_cases hrun : r = .run
  · subst hrun
    exact (hasRun_run accepts x).trans (by simp)
  · simpa [hrun] using (moves_serve hc hr hrun accepts).hasRun_eq

end Lexer

end LoxLexer
