import LoxLexer.Proofs.Moves
import LoxLexer.Proofs.Run

namespace LoxLexer

open Grammar Segment

structure Call where
  request : Request
  accepts : Bool
  deriving DecidableEq

namespace Lexer

/-- Serves one call after the other, also behind a fault. -/
def serveAll (x : Lexer) : List Call → Outcome Unit
  | [] => ⟨.ok (), x, []⟩
  | c :: calls =>
    let served := x.serve c.accepts c.request
    let later := served.lexer.serveAll calls
    { later with notices := served.notices ++ later.notices }

def endsSince (x y : Lexer) : Nat :=
  (y.tokens.drop x.tokens.length).countP fun t => t.kind = .endOfInput

def endsOfRuns (x : Lexer) : List Call → Nat
  | [] => 0
  | c :: calls =>
    let y := (x.serve c.accepts c.request).lexer
    (if c.request = .run then x.endsSince y else 0) + y.endsOfRuns calls

variable {x : Lexer} {calls : List Call}

theorem Sound.ofSource (source : List Char) : Sound (ofSource source) :=
  ⟨Int.le_refl _, Int.le_refl _, Int.natCast_nonneg _, rfl, rfl⟩

theorem keeps_serveAll (hx : Sound x) (h : ∀ c ∈ calls, c.request.IsOwn) :
    Keeps x (x.serveAll calls) := by
  induction calls generalizing x with
  | nil => exact keeps_self hx _
  | cons c calls ih =>
    obtain ⟨hown, hcalls⟩ := List.forall_mem_cons.1 h
    have hserved := keeps_serve hx hown c.accepts
    exact hserved.trans (ih hserved.sound hcalls)

theorem hasRun_serveAll (hx : Sound x) (h : ∀ c ∈ calls, c.request.IsOwn) :
    (x.serveAll calls).lexer.hasRun = (x.hasRun || calls.any fun c => c.request = .run) := by
  induction calls generalizing x with
  | nil => exact (Bool.or_false _).symm
  | cons c calls ih =>
    obtain ⟨hown, hcalls⟩ := List.forall_mem_cons.1 h
    have hlater := ih (keeps_serve hx hown c.accepts).sound hcalls
    rw [hasRun_serve hx.cursor_nonneg hown, Bool.or_assoc] at hlater
    exact hlater

theorem serve_run_of_hasRun (h : x.hasRun = true) (accepts : Bool) :
    x.serve accepts .run = ⟨.error .alreadyRun, x, []⟩ := by
  simp only [serve, run, if_pos h]
  rfl

theorem endsSince_self (x : Lexer) : x.endsSince x = 0 := by
  simp [endsSince]

theorem endsSince_of_tokens_eq {y : Lexer} {tokens : List Token}
    (h : y.tokens = x.tokens ++ tokens) :
    x.endsSince y = tokens.countP fun t => t.kind = .endOfInput := by
  rw [endsSince, h, List.drop_left]

theorem countP_endOfInput_tokensFrom {segments : List Segment} (line : Int)
    (h : ∀ s ∈ segments, IsUnit s.shape s.text) :
    (tokensFrom line segments).countP (fun t => t.kind = .endOfInput) = 0 := by
  refine List.countP_eq_zero.2 fun t ht => ?_
  simpa using kind_ne_endOfInput_of_mem h ht

theorem endsSince_run_le_one (hc : 0 ≤ x.cursor) (accepts : Bool) :
    x.endsSince (x.run accepts).lexer ≤ 1 := by
  cases hrun : x.hasRun with
  | true =>
    rw [run, if_pos hrun, endsSince_self]
    exact Nat.zero_le 1
  | false =>
    obtain ⟨segments, left, h⟩ := exists_munches x.rest
    have hnone := countP_endOfInput_tokensFrom x.line fun _ => h.isUnit_of_mem
    obtain ⟨ends, htokens, hlength, -⟩ := tokens_run accepts h hrun hc
    rw [endsSince_of_tokens_eq htokens, List.countP_append, hnone, Nat.zero_add]
    exact Nat.le_trans List.countP_le_length hlength

theorem endsOfRuns_of_hasRun (hx : Sound x) (hrun : x.hasRun = true)
    (h : ∀ c ∈ calls, c.request.IsOwn) : x.endsOfRuns calls = 0 := by
  induction calls generalizing x with
  | nil => rfl
  | cons c calls ih =>
    obtain ⟨hown, hcalls⟩ := List.forall_mem_cons.1 h
    have hagain : (x.serve c.accepts c.request).lexer.hasRun = true := by
      rw [hasRun_serve hx.cursor_nonneg hown, hrun, Bool.true_or]
    rw [endsOfRuns, ih (keeps_serve hx hown c.accepts).sound hagain hcalls, Nat.add_zero]
    split
    · next hr => rw [hr, serve_run_of_hasRun hrun, endsSince_self]
    · rfl

theorem endsOfRuns_le_one (hx : Sound x) (h : ∀ c ∈ calls, c.request.IsOwn) :
    x.endsOfRuns calls ≤ 1 := by
  induction calls generalizing x with
  | nil => exact Nat.zero_le 1
  | cons c calls ih =>
    obtain ⟨hown, hcalls⟩ := List.forall_mem_cons.1 h
    have hsound := (keeps_serve hx hown c.accepts).sound
    rw [endsOfRuns]
    -- Behind the first run the flag is set, and no other run counts.
    split
    · next hr =>
      have hrun : (x.serve c.accepts c.request).lexer.hasRun = true := by
        rw [hasRun_serve hx.cursor_nonneg hown, hr]
        simp
      rw [endsOfRuns_of_hasRun hsound hrun hcalls, hr]
      exact endsSince_run_le_one hx.cursor_nonneg c.accepts
    · rw [Nat.zero_add]
      exact ih hsound hcalls

/-- Whatever has been asked of a lexer, its positions and lines are right, the next operation moves
it forward only, and it runs once. -/
theorem sound_serveAll (source : List Char) (h : ∀ c ∈ calls, c.request.IsOwn) :
    let served := (ofSource source).serveAll calls
    let x := served.lexer
    x.source = source ∧ Sound x ∧
      (∀ c : Call, c.request.IsOwn → Grows x (x.serve c.accepts c.request).lexer) ∧
      x.diagnostics.map Diagnostic.toText = served.messages ∧
      (x.hasDiagnostics = true ↔ served.messages ≠ []) ∧
      ((∃ c ∈ calls, c.request = .run) →
        ∀ accepts, x.serve accepts .run = ⟨.error .alreadyRun, x, []⟩) ∧
      (ofSource source).endsOfRuns calls ≤ 1 := by
  intro served x
  have hkeeps : Keeps (ofSource source) served := keeps_serveAll (.ofSource source) h
  have hmessages : x.diagnostics.map Diagnostic.toText = served.messages := hkeeps.messages_eq
  refine ⟨hkeeps.grows.source_eq, hkeeps.sound, ?_, hmessages, ?_, ?_, ?_⟩
  · exact fun c hc => (keeps_serve hkeeps.sound hc c.accepts).grows
  · rw [← hmessages]
    simp [hasDiagnostics]
  · rintro ⟨c, hc, hr⟩
    refine serve_run_of_hasRun ?_
    rw [hasRun_serveAll (.ofSource source) h, Bool.or_eq_true]
    exact .inr (List.any_eq_true.2 ⟨c, hc, decide_eq_true hr⟩)
  · exact endsOfRuns_le_one (.ofSource source) h

theorem sound_serveAll_of_stopped_run :
    let calls : List Call :=
      [⟨.next, true⟩, ⟨.accept ['='], true⟩, ⟨.run, false⟩, ⟨.readString, true⟩, ⟨.run, true⟩]
    let served := (ofSource "!=\n@\"".toList).serveAll calls
    let x := served.lexer
    (∀ c ∈ calls, c.request.IsOwn) ∧ Sound x ∧ x.line = 2 ∧ x.markLine = 2 ∧
      x.hasDiagnostics = true ∧
      served.messages = ["[line 2] Error : Unexpected character.".toList] ∧
      x.serve true .run = ⟨.error .alreadyRun, x, []⟩ := by
  intro calls served x
  have hown : ∀ c ∈ calls, c.request.IsOwn := by simp [calls, Request.IsOwn]
  have hmessages : served.messages = ["[line 2] Error : Unexpected character.".toList] := by
    decide +kernel
  obtain ⟨hsource, hsound, -, -, hflag, hagain, -⟩ :=
    sound_serveAll "!=\n@\"".toList hown
  have hmark : x.mark = 3 := by decide +kernel
  have hcursor : x.cursor = 5 := by decide +kernel
  refine ⟨hown, hsound, ?_, ?_, hflag.2 (hmessages.trans_ne (List.cons_ne_nil _ _)), hmessages, ?_⟩
  · rw [hsound.line_eq, hsource, hcursor]
    rfl
  · rw [hsound.markLine_eq, hsource, hmark]
    rfl
  · exact hagain ⟨⟨.run, false⟩, by simp [calls], rfl⟩ true

end Lexer

end LoxLexer
