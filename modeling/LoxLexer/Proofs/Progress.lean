import LoxLexer.Proofs.Moves
import LoxLexer.Proofs.Run
import LoxLexer.Proofs.SingleMoves

namespace LoxLexer

open Segment

namespace Lexer

def Sweeps (accepts : Bool) (n : Nat) (x : Lexer) (o : Outcome Unit) : Prop :=
  Loops (fun x => .ok !x.atEnd) (fun x => x.markHere.readUnit accepts) n x o

/-- What `n` turns do: each takes the cursor forward and appends one token at most. -/
structure Advances (n : Nat) (x : Lexer) (o : Outcome Unit) : Prop where
  source_eq : o.lexer.source = x.source
  cursor_ge : x.cursor + n ≤ o.lexer.cursor
  cursor_le : o.lexer.cursor ≤ max x.cursor x.source.length
  tokens : ∃ added, o.lexer.tokens = x.tokens ++ added ∧ added.length ≤ n

variable {accepts : Bool} {x : Lexer} {n m : Nat} {o p : Outcome Unit}

theorem length_rest (hc : 0 ≤ x.cursor) : x.rest.length = (x.source.length - x.cursor).toNat := by
  rw [rest_of_nonneg hc, List.length_drop]
  omega

theorem Advances.turns_le (h : Advances n x o) : n ≤ (x.source.length - x.cursor).toNat := by
  have hge := h.cursor_ge
  have hle := h.cursor_le
  omega

theorem Advances.cursor_eq (h : Advances n x o) (hle : x.cursor ≤ x.source.length)
    (hend : o.lexer.atEnd = true) : o.lexer.cursor = x.source.length := by
  have hbeyond : (o.lexer.source.length : Int) ≤ o.lexer.cursor := by simpa [atEnd] using hend
  have hwithin := h.cursor_le
  rw [h.source_eq] at hbeyond
  omega

theorem Advances.trans (h : Advances n x o) (hp : Advances m o.lexer p)
    (notices : List Notice) : Advances (m + n) x { p with notices } where
  source_eq := hp.source_eq.trans h.source_eq
  cursor_ge := by
    have hge := h.cursor_ge
    have hmore := hp.cursor_ge
    push_cast
    omega
  cursor_le := by
    have hle := h.cursor_le
    have hmore := hp.cursor_le
    rw [h.source_eq] at hmore
    exact hmore.trans (max_le hle (le_max_right _ _))
  tokens := by
    obtain ⟨first, hfirst, hlength⟩ := h.tokens
    obtain ⟨later, hlater, hmore⟩ := hp.tokens
    refine ⟨first ++ later, by rw [hlater, hfirst, List.append_assoc], ?_⟩
    rw [List.length_append]
    omega

theorem advances_readUnit (hc : 0 ≤ x.cursor) (h : x.cursor < x.source.length) (accepts : Bool) :
    Advances 1 x (x.readUnit accepts) := by
  have hne : x.rest ≠ [] := by
    rw [rest_of_nonneg hc, Ne, List.drop_eq_nil_iff]
    omega
  have hforward := cursor_lt_cursor_readUnit accepts x hne
  obtain ⟨text, token, diagnostic, htext, hlexer, -⟩ := moves_readUnit accepts x
  have hlength := htext.length_le
  rw [length_rest hc] at hlength
  have hcursor : (x.readUnit accepts).lexer.cursor = x.cursor + text.length :=
    congrArg Lexer.cursor hlexer
  refine ⟨source_readUnit accepts x, hforward, ?_, token.toList, congrArg Lexer.tokens hlexer, ?_⟩
  · rw [hcursor]
    omega
  · cases token <;> simp

theorem Sweeps.advances (h : Sweeps accepts n x o) (hc : 0 ≤ x.cursor) : Advances n x o := by
  have hstep : ∀ {x : Lexer}, 0 ≤ x.cursor → (Except.ok !x.atEnd : Except Fault Bool) = .ok true →
      Advances 1 x (x.markHere.readUnit accepts) := by
    intro x hc hgo
    have hbefore : x.cursor < x.source.length := by simpa [atEnd] using hgo
    have hread := advances_readUnit (x := x.markHere) hc hbefore accepts
    exact ⟨hread.source_eq, hread.cursor_ge, hread.cursor_le, hread.tokens⟩
  unfold Sweeps at h
  induction h with
  | stop => exact ⟨rfl, by simp, le_max_left _ _, [], by simp, Nat.zero_le 0⟩
  | blocked hblocked => cases hblocked
  | fail hgo => exact hstep hc hgo
  | again hgo _ _ ih =>
    have hturn := hstep hc hgo
    have hcursor : 0 ≤ (readUnit accepts _).lexer.cursor :=
      hc.trans ((Int.le_add_of_nonneg_right (Int.natCast_nonneg 1)).trans hturn.cursor_ge)
    exact hturn.trans (ih hcursor) _

theorem exists_sweeps (accepts : Bool) (x : Lexer) :
    ∃ n, Sweeps accepts n x (x.sweep accepts) := by
  fun_induction sweep accepts x with
  | case1 x hend => exact ⟨0, .stop (by rw [hend]; rfl)⟩
  | case2 x hend step fault hanswer => exact ⟨1, .fail (by simp [hend]) hanswer⟩
  | case3 x hend step hanswer swept ih =>
    obtain ⟨n, hn⟩ := ih
    exact ⟨n + 1, .again (by simp [hend]) hanswer hn⟩

theorem Sweeps.atEnd (h : Sweeps accepts n x o) (hok : o.answer = .ok ()) :
    o.lexer.atEnd = true := by
  unfold Sweeps at h
  induction h with
  | stop hstop => simpa using hstop
  | blocked => cases hok
  | fail _ hfault => cases hfault.symm.trans hok
  | again _ _ _ ih => exact ih hok

/-- From any state in front of the end, reading a unit ends further on and not beyond the end.
Loops end within the text that is ahead, and a run that succeeds appends no more tokens than there
are characters, and one for the end. -/
theorem reading_advances (hc : 0 ≤ x.cursor) (accepts : Bool) :
    let remaining := (x.source.length - x.cursor).toNat
    (x.cursor < x.source.length →
      (∃ o, ReadsUnit accepts x o) ∧ ∀ o, ReadsUnit accepts x o →
        o = x.readUnit accepts ∧ x.cursor < o.lexer.cursor ∧
          o.lexer.cursor ≤ x.source.length) ∧
      (∃ n ≤ remaining, Sweeps accepts n x (x.sweep accepts)) ∧
      (∀ s, ∃ n ≤ remaining, ∃ y, Passes s n x y) ∧
      ∀ tokens, (x.run accepts).answer = .ok tokens →
        (∃ added, (x.run accepts).lexer.tokens = x.tokens ++ added ∧
          added.length ≤ remaining + 1) ∧
          (x.cursor ≤ x.source.length → (x.run accepts).lexer.cursor = x.source.length) := by
  intro remaining
  refine ⟨fun hlt => ⟨exists_readsUnit accepts hc, fun o ho => ?_⟩, ?_, fun s => ?_,
    fun tokens hanswer => ?_⟩
  · obtain rfl := (readsUnit_iff accepts hc).1 ho
    have hread := advances_readUnit hc hlt accepts
    have hle := hread.cursor_le
    rw [max_eq_right hlt.le] at hle
    exact ⟨rfl, hread.cursor_ge, hle⟩
  · obtain ⟨n, hsweeps⟩ := exists_sweeps accepts x
    exact ⟨n, (hsweeps.advances hc).turns_le, hsweeps⟩
  · refine ⟨_, ?_, x.behind s, passes_behind s hc⟩
    exact (List.takeWhile_prefix _).length_le.trans_eq (length_rest hc)
  · obtain ⟨hok, -, hlexer⟩ := sweep_of_answer_run_eq_ok hanswer
    obtain ⟨n, hsweeps⟩ := exists_sweeps accepts { x with hasRun := true }
    have hadvances := hsweeps.advances hc
    rw [hlexer]
    refine ⟨?_, fun hle => hadvances.cursor_eq hle (hsweeps.atEnd hok)⟩
    obtain ⟨added, hadded, hlength⟩ := hadvances.tokens
    refine ⟨added ++ [_], (congrArg (· ++ [_]) hadded).trans (List.append_assoc _ _ _), ?_⟩
    rw [List.length_append]
    exact Nat.add_le_add_right (hlength.trans hadvances.turns_le) 1

theorem reading_advances_over_comment :
    let x : Lexer := { source := "a=1//\x00".toList, mark := 9, cursor := 1, line := -2 }
    (0 ≤ x.cursor ∧ x.cursor < x.source.length) ∧ x.cursor < (x.readUnit true).lexer.cursor ∧
      (x.readUnit true).lexer.cursor ≤ x.source.length ∧
      (∃ n ≤ 5, Sweeps true n x (x.sweep true)) ∧
      (x.run true).answer.isOk = true ∧ (x.run true).lexer.tokens.length ≤ 6 ∧
      (x.run true).lexer.cursor = 6 := by
  intro x
  have hx : 0 ≤ x.cursor ∧ x.cursor < x.source.length := by decide
  obtain ⟨hunit, hsweeps, -, hrun⟩ := reading_advances hx.1 true
  obtain ⟨⟨o, ho⟩, hreads⟩ := hunit hx.2
  obtain ⟨rfl, hforward, hwithin⟩ := hreads o ho
  have hok : (x.run true).answer.isOk = true := by decide +kernel
  obtain ⟨tokens, hanswer⟩ : ∃ tokens, (x.run true).answer = .ok tokens := by
    cases h : (x.run true).answer with
    | error => cases (congrArg Except.isOk h).symm.trans hok
    | ok tokens => exact ⟨tokens, rfl⟩
  obtain ⟨⟨added, hadded, hlength⟩, hcursor⟩ := hrun tokens hanswer
  refine ⟨hx, hforward, hwithin, hsweeps, hok, ?_, hcursor hx.2.le⟩
  rw [hadded]
  exact hlength

end Lexer

end LoxLexer
