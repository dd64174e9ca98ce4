import LoxLexer.Proofs.Run

namespace LoxLexer

open Grammar

namespace Grammar

inductive Ending
  | complete
  | failed (code : List Char)
  deriving DecidableEq, Repr

inductive Reads : List Char → List (Kind × List Char) → Ending → Prop
  | finish : Reads [] [(.endOfInput, [])] .complete
  | skip {text gap rest items ending} : text = gap ++ rest → IsLongest text ⟨.gap, gap⟩ →
      Reads rest items ending → Reads text items ending
  | token {text s kind rest items ending} : text = s.text ++ rest → IsLongest text s →
      HasKind s kind → Reads rest items ending → Reads text ((kind, s.text) :: items) ending
  | fail {c rest} : NoUnit (c :: rest) →
      Reads (c :: rest) [] (.failed (if c = '"' then "L002".toList else "L001".toList))

end Grammar

def Token.item (t : Token) : Kind × List Char := (t.kind, t.lexeme)

namespace Grammar

variable {text left : List Char} {segments : List Segment} {items more : List (Kind × List Char)}
  {ending others : Ending}

theorem Reads.unique (h : Reads text items ending) (hother : Reads text more others) :
    items = more ∧ ending = others := by
  induction h generalizing more with
  | finish =>
    cases hother with
    | finish => exact ⟨rfl, rfl⟩
    | skip _ hlong => exact absurd noUnit_nil hlong.not_noUnit
    | token _ hlong => exact absurd noUnit_nil hlong.not_noUnit
  | skip htext hlong _ ih =>
    cases hother with
    | finish => exact absurd noUnit_nil hlong.not_noUnit
    | skip hsame hfirst hrest =>
      obtain rfl := congrArg Segment.text (hlong.unique hfirst)
      exact ih (List.append_cancel_left (htext.symm.trans hsame) ▸ hrest)
    | token _ hfirst hkind => exact absurd (hfirst.unique hlong ▸ rfl) hkind.shape_ne_gap
    | fail hno => exact absurd hno hlong.not_noUnit
  | token htext hlong hkind _ ih =>
    cases hother with
    | finish => exact absurd noUnit_nil hlong.not_noUnit
    | skip _ hfirst => exact absurd (hlong.unique hfirst ▸ rfl) hkind.shape_ne_gap
    | token hsame hfirst hsecond hrest =>
      obtain rfl := hlong.unique hfirst
      obtain rfl := hkind.unique hsecond
      obtain ⟨rfl, rfl⟩ := ih (List.append_cancel_left (htext.symm.trans hsame) ▸ hrest)
      exact ⟨rfl, rfl⟩
    | fail hno => exact absurd hno hlong.not_noUnit
  | fail hno =>
    cases hother with
    | skip _ hlong => exact absurd hno hlong.not_noUnit
    | token _ hlong => exact absurd hno hlong.not_noUnit
    | fail => exact ⟨rfl, rfl⟩

theorem Munches.reads (h : Munches text segments left) (line : Int)
    (hleft : Reads left items ending) :
    Reads text ((Segment.tokensFrom line segments).map Token.item ++ items) ending := by
  induction h generalizing line with
  | stop => exact hleft
  | @take text s rest segments left htext hlong _ ih =>
    have hrest := ih (line + s.text.count '\n') hleft
    rcases Segment.token?_cases hlong.isUnit line with
      ⟨hgap, htoken⟩ | ⟨kind, literal, hkind, htoken⟩
    · obtain ⟨shape, gap⟩ := s
      obtain rfl : shape = .gap := hgap
      rw [Segment.tokensFrom, htoken]
      exact .skip htext hlong hrest
    · rw [Segment.tokensFrom, htoken]
      exact .token htext hlong hkind hrest

end Grammar

/-- What is seen of a run apart from literals, lines and messages. -/
def Outcome.Shows (o : Outcome (List Token)) (items : List (Kind × List Char)) (ending : Ending) :
    Prop :=
  match o.answer with
  | .ok tokens => tokens.map Token.item = items ∧ ending = .complete
  | .error (.lexical d) =>
    o.lexer.tokens.map Token.item = items ∧ ∃ code, d.code = some code ∧ ending = .failed code
  | .error _ => False

theorem Outcome.Shows.unique {o : Outcome (List Token)} {items more : List (Kind × List Char)}
    {ending others : Ending} (h : o.Shows items ending) (hother : o.Shows more others) :
    items = more ∧ ending = others := by
  unfold Outcome.Shows at h hother
  split at h
  · next tokens hanswer =>
    rw [hanswer] at hother
    exact ⟨h.1.symm.trans hother.1, h.2.trans hother.2.symm⟩
  · next d hanswer =>
    rw [hanswer] at hother
    obtain ⟨hitems, code, hcode, rfl⟩ := h
    obtain ⟨hmore, other, hsame, rfl⟩ := hother
    rw [hcode] at hsame
    exact ⟨hitems.symm.trans hmore, congrArg Ending.failed (Option.some.inj hsame)⟩
  · exact h.elim

namespace Lexer

theorem exists_reads_and_shows (source : List Char) :
    ∃ items ending, Reads source items ending ∧ (scan source).Shows items ending := by
  obtain ⟨segments, left, h⟩ := exists_munches source
  cases left with
  | nil =>
    refine ⟨_, _, h.reads 1 .finish, ?_⟩
    rw [Outcome.Shows, (scan_of_munches_nil h).1]
    simp [Token.item]
  | cons c rest =>
    obtain ⟨hanswer, -, -, htokens, -⟩ := scan_of_munches_cons h
    refine ⟨_, _, h.reads 1 (.fail h.noUnit_left), ?_⟩
    rw [Outcome.Shows, hanswer]
    refine ⟨by rw [htokens, List.append_nil], _, ?_, rfl⟩
    by_cases hquote : c = '"' <;> simp [Diagnostic.ofNoUnit, hquote] <;> rfl

/-- Every source is read in one way by the grammar, and that is what a scan of it shows. -/
theorem reads_iff_scan (source : List Char) :
    (∃ items ending, Reads source items ending) ∧
      ∀ items ending, Reads source items ending ↔ (scan source).Shows items ending := by
  obtain ⟨items, ending, hreads, hshows⟩ := exists_reads_and_shows source
  refine ⟨⟨items, ending, hreads⟩, fun more others => ⟨fun h => ?_, fun h => ?_⟩⟩
  · obtain ⟨rfl, rfl⟩ := hreads.unique h
    exact hshows
  · obtain ⟨rfl, rfl⟩ := hshows.unique h
    exact hreads

end Lexer

end LoxLexer
