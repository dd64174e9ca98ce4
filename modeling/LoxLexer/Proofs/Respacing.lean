import LoxLexer.Proofs.Separators

/-! Comments and blanks carry no meaning.  A source without its comments, and with other blanks in
place of its blanks, is scanned as before: what is left out in front of a unit does not let the
unit go on, since a comment takes the rest of its line. -/

namespace LoxLexer

open Grammar Segment Text

namespace Grammar

def IsBlankRun (run : List Char) : Prop := run ≠ [] ∧ ∀ c ∈ run, isBlank c = true

instance : DecidablePred IsBlankRun := fun run =>
  have := List.decidableBAll (isBlank · = true) run
  inferInstanceAs (Decidable (_ ∧ _))

def blanks (run : List Char) : List Segment := run.map fun c => ⟨.gap, [c]⟩

/-- The units that stand in place of others: no comment is kept, and a run of blanks is replaced by
another one.  That a run may be replaced in parts allows for nothing more, for the parts are again
a run. -/
inductive Respaces : List Segment → List Segment → Prop
  | nil : Respaces [] []
  | comment {body segments others} : '\n' ∉ body → Respaces segments others →
      Respaces (⟨.gap, '/' :: '/' :: body⟩ :: segments) others
  | blanks (old new) {segments others} : IsBlankRun old → IsBlankRun new →
      Respaces segments others → Respaces (blanks old ++ segments) (blanks new ++ others)
  | newline {segments others} : Respaces segments others →
      Respaces (⟨.gap, ['\n']⟩ :: segments) (⟨.gap, ['\n']⟩ :: others)
  | token {s segments others} : s.shape ≠ .gap → Respaces segments others →
      Respaces (s :: segments) (s :: others)

/-- A source with other gaps.  From where no unit begins it is left as it is. -/
def Respaced (source result : List Char) : Prop :=
  ∃ segments others left, Munches source segments left ∧ Respaces segments others ∧
    result = others.flatMap Segment.text ++ left

variable {c : Char} {shape : Shape} {text rest ahead run body left : List Char} {s : Segment}
  {segments others : List Segment}

theorem mem_separators_iff : c ∈ separators ↔ isBlank c = true ∨ c = '\n' := by
  simp [separators, isBlank]
  grind

theorem IsBlankRun.not_mem_newline (h : IsBlankRun run) : '\n' ∉ run :=
  fun hmem => absurd (h.2 _ hmem) (by decide)

theorem count_newline_comment (h : '\n' ∉ body) : ('/' :: '/' :: body).count '\n' = 0 :=
  List.count_eq_zero.2 (by simpa using h)

@[simp] theorem flatMap_text_blanks (run : List Char) :
    (blanks run).flatMap Segment.text = run := by
  induction run with
  | nil => rfl
  | cons c run ih => exact congrArg (c :: ·) ih

theorem IsBlankRun.isBlank_of_append_eq_cons (h : IsBlankRun run)
    (hahead : (blanks run ++ others).flatMap Segment.text ++ left = c :: ahead) :
    isBlank c = true := by
  obtain ⟨d, tail, rfl⟩ := List.exists_cons_of_ne_nil h.1
  rw [List.flatMap_append, flatMap_text_blanks] at hahead
  obtain rfl := (List.cons.inj hahead).1
  exact h.2 d List.mem_cons_self

theorem tokensFrom_blanks (run : List Char) (line : Int) :
    Segment.tokensFrom line (blanks run) = [] := by
  induction run generalizing line with
  | nil => rfl
  | cons c run ih => exact ih _

theorem munches_blanks_iff (run : List Char) (h : ∀ c ∈ run, isBlank c = true) :
    Munches text (blanks run ++ segments) left ↔
      ∃ rest, text = run ++ rest ∧ Munches rest segments left := by
  induction run generalizing text with
  | nil => simp [blanks]
  | cons c run ih =>
    obtain ⟨hc, hrun⟩ := List.forall_mem_cons.1 h
    constructor
    · intro hmunches
      cases hmunches with
      | take htext _ hmore =>
        obtain ⟨rest, rfl, hrest⟩ := (ih hrun).1 hmore
        exact ⟨rest, htext, hrest⟩
    · rintro ⟨rest, rfl, hrest⟩
      have hsep := mem_separators_iff.2 (.inl hc)
      exact .take rfl (isLongest_of_mem_separators hsep _) ((ih hrun).2 ⟨rest, rfl, hrest⟩)

theorem exists_respaces (h : ∀ s ∈ segments, IsUnit s.shape s.text) :
    ∃ others, Respaces segments others := by
  induction segments with
  | nil => exact ⟨[], .nil⟩
  | cons s segments ih =>
    obtain ⟨hs, hsegments⟩ := List.forall_mem_cons.1 h
    obtain ⟨others, hothers⟩ := ih hsegments
    by_cases hshape : s.shape = .gap
    · obtain ⟨_, text⟩ := s
      obtain rfl := hshape
      cases hs with
      | @separator c hc =>
        rcases mem_separators_iff.1 hc with hblank | rfl
        · have hrun : IsBlankRun [c] := ⟨by simp, by simpa using hblank⟩
          exact ⟨_, .blanks [c] [c] hrun hrun hothers⟩
        · exact ⟨_, .newline hothers⟩
      | comment hbody => exact ⟨_, .comment hbody hothers⟩
    · exact ⟨_, .token hshape hothers⟩

namespace Respaces

theorem exists_cons (h : Respaces segments others) (hmunches : Munches text segments left)
    (hahead : others.flatMap Segment.text ++ left = c :: ahead) (hc : c ∉ separators) :
    ∃ rest, text = c :: rest := by
  induction h generalizing text with
  | nil => exact ⟨ahead, hmunches.text_eq.trans hahead⟩
  | comment hbody _ ih =>
    cases hmunches with
    | take htext hlong hrest =>
      obtain ⟨more, rfl⟩ := ih hrest hahead
      -- The comment would have gone on.
      have hne : c ≠ '\n' := by
        rintro rfl
        exact hc (by decide)
      exact absurd (htext ▸ hlong) (Extends.comment hbody hne).not_isLongest
  | blanks _ _ _ hnew =>
    exact absurd (mem_separators_iff.2 (.inl (hnew.isBlank_of_append_eq_cons hahead))) hc
  | newline =>
    obtain rfl := (List.cons.inj hahead).1
    exact absurd (by decide) hc
  | @token s _ _ _ _ =>
    cases hmunches with
    | take htext hlong _ =>
      obtain ⟨d, tail, hs⟩ := List.exists_cons_of_ne_nil hlong.isUnit.ne_nil
      rw [List.flatMap_cons, hs] at hahead
      obtain rfl := (List.cons.inj hahead).1
      rw [hs] at htext
      exact ⟨_, htext⟩

theorem exists_point (h : Respaces segments others) (hmunches : Munches text segments left)
    (hahead : others.flatMap Segment.text ++ left = '.' :: c :: ahead) (hc : IsDigit c) :
    ∃ rest, text = '.' :: c :: rest := by
  obtain ⟨rest, htext⟩ := h.exists_cons hmunches hahead (by decide)
  cases h with
  | nil => exact ⟨ahead, hmunches.text_eq.trans hahead⟩
  | comment =>
    cases hmunches with
    | take hsame => cases hsame.symm.trans htext
  | blanks _ _ _ hnew => exact absurd (hnew.isBlank_of_append_eq_cons hahead) (by decide)
  | newline => cases hahead
  | @token s segments others hshape hrespaces =>
    cases hmunches with
    | take hsame hlong hrest =>
      obtain ⟨d, tail, hs⟩ := List.exists_cons_of_ne_nil hlong.isUnit.ne_nil
      rw [List.flatMap_cons, hs] at hahead
      obtain rfl := (List.cons.inj hahead).1
      have hlexeme : IsLexeme ('.' :: tail) := hs ▸ ⟨s.shape, hshape, hlong.isUnit⟩
      obtain rfl := hlexeme.eq_singleton (by decide)
      obtain ⟨more, rfl⟩ := hrespaces.exists_cons hrest (List.cons.inj hahead).2
        hc.not_mem_separators
      exact ⟨more, by rw [hsame, hs]; rfl⟩

theorem not_extends (h : Respaces segments others) (hmunches : Munches rest segments left)
    (hunit : IsUnit shape text) (hshape : shape ≠ .gap) (hstop : ¬ Extends text rest) :
    ¬ Extends text (others.flatMap Segment.text ++ left) := by
  intro hext
  apply hstop
  generalize hahead : others.flatMap Segment.text ++ left = ahead at hext
  cases hext with
  | comment hbody => exact absurd (Segment.shape_unique hunit (.comment hbody)) hshape
  | slash =>
    obtain ⟨more, rfl⟩ := h.exists_cons hmunches hahead (by decide)
    exact .slash
  | equals hc =>
    obtain ⟨more, rfl⟩ := h.exists_cons hmunches hahead (by decide)
    exact .equals hc
  | word hword hc =>
    obtain ⟨more, rfl⟩ := h.exists_cons hmunches hahead
      (hc.elim IsLetter.not_mem_separators IsDigit.not_mem_separators)
    exact .word hword hc
  | number hnumber hc =>
    obtain ⟨more, rfl⟩ := h.exists_cons hmunches hahead hc.not_mem_separators
    exact .number hnumber hc
  | point hdigits hc =>
    obtain ⟨more, rfl⟩ := h.exists_point hmunches hahead hc
    exact .point hdigits hc

theorem munches (h : Respaces segments others) (hmunches : Munches text segments left) :
    Munches (others.flatMap Segment.text ++ left) others left := by
  induction h generalizing text with
  | nil => exact .stop hmunches.noUnit_left
  | comment _ _ ih =>
    cases hmunches with
    | take _ _ hrest => exact ih hrest
  | blanks _ _ hold hnew _ ih =>
    obtain ⟨rest, -, hrest⟩ := (munches_blanks_iff _ hold.2).1 hmunches
    rw [List.flatMap_append, flatMap_text_blanks, List.append_assoc]
    exact (munches_blanks_iff _ hnew.2).2 ⟨_, rfl, ih hrest⟩
  | newline _ ih =>
    cases hmunches with
    | take _ _ hrest => exact .take rfl (isLongest_of_mem_separators (by decide) _) (ih hrest)
  | @token s _ others hshape hrespaces ih =>
    cases hmunches with
    | @take _ _ rest _ _ htext hlong hrest =>
      have hstop : ¬ Extends s.text rest :=
        (hlong.isUnit.isLongest_append_iff rest).1 (htext ▸ hlong)
      have hagain := hrespaces.not_extends hrest hlong.isUnit hshape hstop
      rw [List.flatMap_cons, List.append_assoc]
      exact .take rfl ((hlong.isUnit.isLongest_append_iff _).2 hagain) (ih hrest)

theorem count_newline (h : Respaces segments others) :
    (others.flatMap Segment.text).count '\n' = (segments.flatMap Segment.text).count '\n' := by
  induction h with
  | nil => rfl
  | comment hbody _ ih =>
    rw [List.flatMap_cons, List.count_append, count_newline_comment hbody, Nat.zero_add, ih]
  | blanks _ _ hold hnew _ ih =>
    rw [List.flatMap_append, List.flatMap_append, flatMap_text_blanks, flatMap_text_blanks,
      List.count_append, List.count_append, List.count_eq_zero.2 hold.not_mem_newline,
      List.count_eq_zero.2 hnew.not_mem_newline, ih]
  | newline _ ih => simp only [List.flatMap_cons, List.count_append, ih]
  | token _ _ ih => simp only [List.flatMap_cons, List.count_append, ih]

theorem tokensFrom_eq (h : Respaces segments others) (line : Int) :
    Segment.tokensFrom line others = Segment.tokensFrom line segments := by
  induction h generalizing line with
  | nil => rfl
  | comment hbody _ ih =>
    rw [Segment.tokensFrom, count_newline_comment hbody, Int.natCast_zero, Int.add_zero, ih]
    rfl
  | blanks _ _ hold hnew _ ih =>
    rw [Segment.tokensFrom_append, Segment.tokensFrom_append, tokensFrom_blanks,
      tokensFrom_blanks, flatMap_text_blanks, flatMap_text_blanks,
      List.count_eq_zero.2 hold.not_mem_newline, List.count_eq_zero.2 hnew.not_mem_newline, ih]
  | newline _ ih => rw [Segment.tokensFrom, Segment.tokensFrom, ih]
  | token _ _ ih => rw [Segment.tokensFrom, Segment.tokensFrom, ih]

end Respaces

end Grammar

namespace Lexer

variable {source result left : List Char} {segments others : List Segment}

theorem scan_eq_of_munches (h : Munches source segments left) (hother : Munches result others left)
    (htokens : tokensFrom 1 others = tokensFrom 1 segments)
    (hcount : (others.flatMap Segment.text).count '\n' =
      (segments.flatMap Segment.text).count '\n') :
    (scan result).answer = (scan source).answer ∧
      (scan result).lexer.tokens = (scan source).lexer.tokens ∧
      (scan result).lexer.diagnostics = (scan source).lexer.diagnostics := by
  cases left with
  | nil =>
    obtain ⟨hanswer, hdiagnostics, -⟩ := scan_of_munches_nil h
    obtain ⟨hnew, hnewDiagnostics, -⟩ := scan_of_munches_nil hother
    have hsame : (scan result).answer = (scan source).answer := by
      rw [hnew, hanswer, htokens, h.text_eq, hother.text_eq, List.append_nil, List.append_nil,
        hcount]
    have hleft := tokens_of_answer_run_eq_ok (hsame.trans hanswer)
    exact ⟨hsame, hleft.trans (tokens_of_answer_run_eq_ok hanswer).symm,
      hnewDiagnostics.trans hdiagnostics.symm⟩
  | cons c rest =>
    obtain ⟨hanswer, -, hdiagnostics, hleft, -⟩ := scan_of_munches_cons h
    obtain ⟨hnew, -, hnewDiagnostics, hnewLeft, -⟩ := scan_of_munches_cons hother
    rw [hcount] at hnew hnewDiagnostics
    exact ⟨hnew.trans hanswer.symm, hnewLeft.trans (htokens.trans hleft.symm),
      hnewDiagnostics.trans hdiagnostics.symm⟩

/-- Every source can be given other gaps, and then it is scanned to the same end, with the same
tokens, and with one message if it is faulty. -/
theorem scan_of_respaced (source : List Char) :
    (∃ result, Respaced source result) ∧ ∀ result, Respaced source result →
      (scan result).answer = (scan source).answer ∧
        (scan result).lexer.tokens = (scan source).lexer.tokens ∧
        (scan result).lexer.diagnostics = (scan source).lexer.diagnostics ∧
        ((∃ tokens, (scan source).answer = .ok tokens) ∧ (scan source).messages = [] ∧
            (scan result).messages = [] ∨
          ∃ d, (scan source).answer = .error (.lexical d) ∧
            (scan source).messages = [d.toText] ∧ (scan result).messages = [d.toText]) := by
  constructor
  · obtain ⟨segments, left, hmunches⟩ := exists_munches source
    obtain ⟨others, hothers⟩ := exists_respaces fun _ => hmunches.isUnit_of_mem
    exact ⟨_, segments, others, left, hmunches, hothers, rfl⟩
  · rintro result ⟨segments, others, left, hmunches, hothers, rfl⟩
    obtain ⟨hanswer, htokens, hdiagnostics⟩ :=
      scan_eq_of_munches hmunches (hothers.munches hmunches) (hothers.tokensFrom_eq 1)
        hothers.count_newline
    refine ⟨hanswer, htokens, hdiagnostics, ?_⟩
    rcases answer_eq_ok_or_error source with ⟨tokens, h⟩ | ⟨d, h⟩
    · exact .inl ⟨⟨tokens, h⟩, messages_of_answer_eq_ok h,
        messages_of_answer_eq_ok (hanswer.trans h)⟩
    · exact .inr ⟨d, h, messages_of_answer_eq_error h,
        messages_of_answer_eq_error (hanswer.trans h)⟩

theorem scan_of_respaced_comment_in_string :
    Respaced "\"//\" \t//c\n\r1  @ //".toList "\"//\"\r\n 1 @ //".toList ∧
      (scan "\"//\"\r\n 1 @ //".toList).answer =
        (scan "\"//\" \t//c\n\r1  @ //".toList).answer := by
  have hmunches : Munches "\"//\" \t//c\n\r1  @ //".toList
      (⟨.string, "\"//\"".toList⟩ :: (blanks [' ', '\t'] ++ ⟨.gap, "//c".toList⟩ ::
        ⟨.gap, ['\n']⟩ :: (blanks ['\r'] ++ ⟨.number, ['1']⟩ :: (blanks [' ', ' '] ++ []))))
      "@ //".toList := by
    refine .take rfl (isLongest_front rfl) ?_
    refine (munches_blanks_iff [' ', '\t'] (by simp [isBlank])).2 ⟨_, rfl, ?_⟩
    refine .take rfl (isLongest_front rfl) (.take rfl (isLongest_front rfl) ?_)
    refine (munches_blanks_iff ['\r'] (by simp [isBlank])).2 ⟨_, rfl, ?_⟩
    refine .take rfl (isLongest_front rfl) ?_
    refine (munches_blanks_iff [' ', ' '] (by simp [isBlank])).2 ⟨_, rfl, .stop ?_⟩
    exact noUnit_iff_isFault_front.2 rfl
  have hrespaced : Respaced "\"//\" \t//c\n\r1  @ //".toList "\"//\"\r\n 1 @ //".toList := by
    refine ⟨_, ⟨.string, "\"//\"".toList⟩ :: (blanks ['\r'] ++ ⟨.gap, ['\n']⟩ :: (blanks [' '] ++
      ⟨.number, ['1']⟩ :: (blanks [' '] ++ []))), _, hmunches, ?_, rfl⟩
    refine .token (by decide) (.blanks [' ', '\t'] ['\r'] (by decide) (by decide) ?_)
    refine .comment (by decide : '\n' ∉ ['c']) (.newline ?_)
    refine .blanks ['\r'] [' '] (by decide) (by decide) (.token (by decide) ?_)
    exact .blanks [' ', ' '] [' '] (by decide) (by decide) .nil
  exact ⟨hrespaced, ((scan_of_respaced _).2 _ hrespaced).1⟩

end Lexer

end LoxLexer
