import LoxLexer.Proofs.Moves

namespace LoxLexer

open Segment Text

def Request.IsReading : Request → Prop
  | .readUnit | .readString | .readNumber | .readWord | .next => True
  | _ => False

def Request.NeedsCharacter (r : Request) : Prop := r = .readUnit ∨ r = .next

namespace Lexer

/-- How an operation can end that has passed over some text up to `x`, depending on whether the sink
takes a message. -/
inductive Settles {α : Type} (x : Lexer) : (Bool → Outcome α) → Prop
  | token (value : α) (token : Option Token) :
      Settles x fun _ => ⟨.ok value, { x with tokens := x.tokens ++ token.toList }, []⟩
  | diagnostic (d : Diagnostic) :
      Settles x fun accepts => ⟨.error (if accepts then .lexical d else .undelivered),
        { x with diagnostics := x.diagnostics ++ [d] },
        .report d.toText :: if accepts then [.stopped x.mark d.message] else []⟩
  | defect : Settles x fun _ => ⟨.error (.defect (.malformedNumber x.lexeme x.line)), x, []⟩

/-- A diagnostic is recorded before its message is handed out: a sink that turns the message down
finds the same state as one that takes it. -/
structure Records (x : Lexer) (r : Request) (d : Diagnostic) : Prop where
  taken : (x.serve true r).answer = .error (.lexical d)
  refused : (x.serve false r).answer = .error .undelivered
  lexer_eq : (x.serve false r).lexer = (x.serve true r).lexer
  diagnostics_eq : ∀ accepts, (x.serve accepts r).lexer.diagnostics = x.diagnostics ++ [d]
  messages_eq : ∀ accepts, (x.serve accepts r).messages = [d.toText]

def Logs {α : Type} (x : Lexer) (o : Outcome α) : Prop :=
  ∃ added, o.lexer.diagnostics = x.diagnostics ++ added ∧
    o.messages = added.map Diagnostic.toText

variable {α β : Type} {x y : Lexer} {r : Request}

section

variable {o : Outcome α}

theorem Logs.map (h : Logs x o) (f : α → β) : Logs x (o.map f) := h

theorem logs_of_eq (h : y.diagnostics = x.diagnostics) (answer : Except Fault α) :
    Logs x ⟨answer, y, []⟩ :=
  ⟨[], h.trans (List.append_nil _).symm, rfl⟩

theorem Moves.logs (h : Moves x o) : Logs x o := by
  obtain ⟨_, _, diagnostic, -, hlexer, hmessages⟩ := h
  exact ⟨diagnostic.toList, by rw [hlexer], hmessages⟩

theorem logs_take (accepts : Bool) (x : Lexer) (s : Segment) : Logs x (x.take accepts s) :=
  (moves_settle accepts (x.pass s.text) s.shape).logs

theorem logs_takeFrom (accepts : Bool) (x : Lexer) (cut : List Char → Segment) :
    Logs x (x.takeFrom accepts cut) := by
  unfold takeFrom
  split
  · exact logs_of_eq rfl _
  · exact logs_take accepts x _

theorem logs_accept (x : Lexer) (expected : List Char) : Logs x (x.accept expected) := by
  unfold accept
  split
  · exact logs_of_eq rfl _
  · exact logs_of_eq rfl _
  · split <;> exact logs_of_eq rfl _

theorem logs_sweep (accepts : Bool) (x : Lexer) : Logs x (x.sweep accepts) := by
  fun_induction sweep accepts x with
  | case1 x hend => exact logs_of_eq rfl _
  | case2 x hend step fault hanswer => exact (moves_readUnit accepts x.markHere).logs
  | case3 x hend step hanswer swept ih =>
    obtain ⟨first, hfirst, htexts⟩ := (moves_readUnit accepts x.markHere).logs
    obtain ⟨later, hlater, hmore⟩ := ih
    refine ⟨first ++ later, ?_, ?_⟩
    · rw [← List.append_assoc]
      exact hlater.trans (congrArg (· ++ later) hfirst)
    · rw [List.map_append, ← htexts, ← hmore]
      exact List.filterMap_append

theorem logs_run (accepts : Bool) (x : Lexer) : Logs x (x.run accepts) := by
  have hswept := logs_sweep accepts { x with hasRun := true }
  unfold run
  split
  · exact logs_of_eq rfl _
  · dsimp only
    split
    · exact hswept
    · obtain ⟨added, hadded, htexts⟩ := hswept
      refine ⟨added, hadded, ?_⟩
      rw [← htexts]
      exact List.filterMap_append.trans (List.append_nil _)

theorem logs_serve (accepts : Bool) (x : Lexer) (r : Request) : Logs x (x.serve accepts r) := by
  cases r with
  | run => exact (logs_run accepts x).map _
  | accept expected => exact (logs_accept x expected).map _
  | record d => exact (moves_record accepts x d).logs.map _
  | readUnit => exact (moves_readUnit accepts x).logs.map _
  | readString => exact (logs_takeFrom accepts x _).map _
  | readNumber => exact (logs_takeFrom accepts x _).map _
  | readWord => exact (logs_takeFrom accepts x _).map _
  | next => exact (moves_next x).logs.map _
  | tokens | hasDiagnostics | place | emit | firstAhead | secondAhead | atEnd =>
    exact logs_of_eq rfl _

end

section

variable {o : Bool → Outcome α}

theorem Settles.map (h : Settles x o) (f : α → β) : Settles x fun accepts => (o accepts).map f := by
  cases h with
  | token value token => exact .token (f value) token
  | diagnostic d => exact .diagnostic d
  | defect => exact .defect

theorem settles_emit (kind : Kind) (literal : Option Literal) (value : α) :
    Settles x fun _ => ⟨.ok value, x.emit kind literal, []⟩ :=
  .token value (some ⟨kind, x.lexeme, literal, x.markLine⟩)

theorem settles_stop (x : Lexer) (d : Diagnostic) : Settles x fun accepts => x.stop accepts d := by
  have h : (fun accepts => x.stop accepts d) = fun accepts =>
      ⟨.error (if accepts then .lexical d else .undelivered),
        { x with diagnostics := x.diagnostics ++ [d] },
        .report d.toText :: if accepts then [.stopped x.mark d.message] else []⟩ := by
    funext accepts
    cases accepts <;> rfl
  rw [h]
  exact .diagnostic d

theorem settles_self (x : Lexer) (value : α) : Settles x fun _ => ⟨.ok value, x, []⟩ := by
  simpa using Settles.token (x := x) value none

theorem settles_settle (x : Lexer) (shape : Shape) :
    Settles x fun accepts => x.settle accepts shape := by
  cases shape with
  | gap => exact settles_self x ()
  | sign kind => exact settles_emit kind none ()
  | string => exact settles_emit .string (some (.text x.innerLexeme)) ()
  | openString => exact settles_stop x (.unterminatedString x.line)
  | number =>
    simp only [settle, emitNumber]
    split
    · next value _ => exact settles_emit .number (some (.number value)) ()
    · exact .defect
  | word => exact settles_emit (Kind.ofWord x.lexeme) none ()
  | stray => exact settles_stop x (.unexpectedCharacter x.line)

theorem settles_take (x : Lexer) (s : Segment) :
    Settles (x.pass s.text) fun accepts => x.take accepts s :=
  settles_settle (x.pass s.text) s.shape

end

theorem rest_eq_nil_iff (hc : 0 ≤ x.cursor) : x.rest = [] ↔ x.source.length ≤ x.cursor :=
  (atEnd_iff hc).symm.trans decide_eq_true_iff

theorem exists_settles_takeFrom (hc : 0 ≤ x.cursor) (cut : List Char → Segment) (reply : Reply) :
    ∃ text, Settles (x.pass text) fun accepts => (x.takeFrom accepts cut).map fun _ => reply := by
  simp only [takeFrom_of_nonneg _ x hc]
  exact ⟨_, (settles_take x (cut x.rest)).map _⟩

theorem serve_cases (hr : r.IsReading) (hc : 0 ≤ x.cursor) :
    (r.NeedsCharacter ∧ x.rest = [] ∧ ∀ accepts, x.serve accepts r = ⟨.error x.missing, x, []⟩) ∨
      ¬ (r.NeedsCharacter ∧ x.rest = []) ∧
        ∃ text, Settles (x.pass text) fun accepts => x.serve accepts r := by
  cases r with
  | readUnit =>
    simp only [serve, readUnit]
    cases hrest : x.rest with
    | nil => exact .inl ⟨.inl rfl, rfl, fun _ => rfl⟩
    | cons c rest => exact .inr ⟨by simp, _, (settles_take x (front c rest)).map _⟩
  | next =>
    simp only [serve, next]
    cases hrest : x.rest with
    | nil => exact .inl ⟨.inr rfl, rfl, fun _ => rfl⟩
    | cons c rest => exact .inr ⟨by simp, [c], (settles_self (x.pass [c]) c).map _⟩
  | readString => exact .inr ⟨by simp [Request.NeedsCharacter], exists_settles_takeFrom hc _ _⟩
  | readNumber => exact .inr ⟨by simp [Request.NeedsCharacter], exists_settles_takeFrom hc _ _⟩
  | readWord => exact .inr ⟨by simp [Request.NeedsCharacter], exists_settles_takeFrom hc _ _⟩
  | _ => exact hr.elim

theorem missing_cases (x : Lexer) : x.missing = .noCharacter ∨ x.missing = .unaddressable := by
  unfold missing
  split
  · exact .inl rfl
  · exact .inr rfl

theorem lexeme_of_nonneg (hm : 0 ≤ x.mark) (hc : 0 ≤ x.cursor) :
    x.lexeme = (x.source.take x.cursor.toNat).drop x.mark.toNat :=
  between_of_nonneg hm hc

/-- What an operation that reads on leaves, for each way in which it can end. -/
theorem serve_of_isReading (hr : r.IsReading) (hm : 0 ≤ x.mark) (hc : 0 ≤ x.cursor)
    (accepts : Bool) :
    let o := x.serve accepts r
    (o.lexer.source = x.source ∧ o.lexer.mark = x.mark ∧ o.lexer.markLine = x.markLine) ∧
      ((∃ fault ∈ [Fault.noCharacter, .unaddressable], o.answer = .error fault) ↔
        r.NeedsCharacter ∧ x.source.length ≤ x.cursor) ∧
      match o.answer with
      | .ok _ => o.lexer.diagnostics = x.diagnostics ∧ o.messages = [] ∧
          ∃ token : Option Token, o.lexer.tokens = x.tokens ++ token.toList
      | .error fault => o.lexer.tokens = x.tokens ∧
          match fault with
          | .noCharacter | .unaddressable => o.lexer = x ∧ o.messages = []
          | .lexical _ | .undelivered => ∃ d, Records x r d
          | .defect e => o.lexer.diagnostics = x.diagnostics ∧ o.messages = [] ∧
              e.message = "Numeric literal failed to parse".toList ∧
              e.lexeme = (x.source.take o.lexer.cursor.toNat).drop x.mark.toNat ∧
              e.line = o.lexer.line
          | .alreadyRun => False := by
  intro o
  rw [← rest_eq_nil_iff hc]
  rcases serve_cases hr hc with ⟨hneeds, hrest, hnothing⟩ | ⟨hnot, text, h⟩
  · have ho : o = ⟨.error x.missing, x, []⟩ := hnothing accepts
    rw [ho]
    refine ⟨⟨rfl, rfl, rfl⟩, ⟨fun _ => ⟨hneeds, hrest⟩, fun _ => ?_⟩, ?_⟩
    · exact ⟨x.missing, by rcases x.missing_cases with h | h <;> simp [h], rfl⟩
    · rcases x.missing_cases with h | h <;> rw [h] <;> exact ⟨rfl, rfl, rfl⟩
  · have hpassed := cursor_pass_nonneg hc text
    generalize hall : (fun accepts => x.serve accepts r) = all at h
    have hserve : ∀ a, x.serve a r = all a := congrFun hall
    cases h with
    | token value token =>
      simp only [o, hserve]
      exact ⟨⟨rfl, rfl, rfl⟩, by simpa using hnot, rfl, rfl, token, rfl⟩
    | diagnostic d =>
      have hrecords : Records x r d := by
        refine ⟨?_, ?_, ?_, ?_, ?_⟩ <;> simp only [hserve]
        · rfl
        · rfl
        · exact fun _ => rfl
        · intro a
          cases a <;> rfl
      simp only [o, hserve]
      refine ⟨⟨rfl, rfl, rfl⟩, ?_, rfl, ?_⟩
      · cases accepts <;> simpa using hnot
      · cases accepts <;> exact ⟨d, hrecords⟩
    | defect =>
      simp only [o, hserve]
      exact ⟨⟨rfl, rfl, rfl⟩, by simpa using hnot, rfl, rfl, rfl, rfl,
        lexeme_of_nonneg (x := x.pass text) hm hpassed, rfl⟩

theorem serve_of_isReading_behind_word :
    let x : Lexer := { source := "x1@".toList, cursor := 1, line := -2 }
    let y : Lexer := { x with cursor := 2 }
    Request.readNumber.IsReading ∧ Request.readUnit.IsReading ∧
      (0 ≤ x.mark ∧ 0 ≤ x.cursor) ∧ (0 ≤ y.mark ∧ 0 ≤ y.cursor) ∧
      (∃ e, (x.serve true .readNumber).answer = .error (.defect e) ∧ e.lexeme = "x1".toList ∧
        e.line = -2) ∧
      (x.serve true .readNumber).lexer.tokens = [] ∧
      (y.serve false .readUnit).answer = .error .undelivered ∧
      (y.serve false .readUnit).lexer.mark = 0 ∧ ∃ d, Records y .readUnit d := by
  intro x y
  obtain ⟨e, hdefect⟩ : ∃ e, (x.serve true .readNumber).answer = .error (.defect e) :=
    ⟨.malformedNumber "x1".toList (-2), by decide +kernel⟩
  have hrefused : (y.serve false .readUnit).answer = .error .undelivered := by decide +kernel
  have hx : 0 ≤ x.mark ∧ 0 ≤ x.cursor := by decide
  have hy : 0 ≤ y.mark ∧ 0 ≤ y.cursor := by decide
  obtain ⟨-, -, hends⟩ := serve_of_isReading (x := x) (r := .readNumber) trivial hx.1 hx.2 true
  obtain ⟨⟨-, hmark, -⟩, -, hrecords⟩ :=
    serve_of_isReading (x := y) (r := .readUnit) trivial hy.1 hy.2 false
  rw [hdefect] at hends
  rw [hrefused] at hrecords
  obtain ⟨htokens, -, -, -, hlexeme, hline⟩ := hends
  exact ⟨trivial, trivial, hx, hy, ⟨e, hdefect, hlexeme.trans (by decide +kernel),
    hline.trans (by decide +kernel)⟩, htokens, hrefused, hmark, hrecords.2⟩

end Lexer

end LoxLexer
