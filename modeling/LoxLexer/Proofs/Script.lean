import LoxLexer.Proofs.Newline
import LoxLexer.Proofs.Prompt

namespace LoxLexer.CommandLine

open Grammar Lexer Text

def Invocation.RunsScript (i : Invocation) (fs : FileSystem) (content : List UInt8) : Prop :=
  ∃ a path, Arguments.parse i.arguments = .ok a ∧ a.scripts = [path] ∧
    fs.read path = .ok content

def IsDiagnosed (line : List Char) : Prop := ∃ d, (scan line).answer = .error (.lexical d)

def endText : List Char := "EOF('')".toList

variable {text line : List Char} {lines before after : List (List Char)} {tokens : List Token}
  {d : Diagnostic}

theorem exists_of_not_isDiagnosed (h : ¬ IsDiagnosed line) :
    ∃ tokens, (scan line).answer = .ok tokens :=
  (answer_eq_ok_or_error line).resolve_right h

theorem toText_endOfInput (line : Int) :
    (⟨.endOfInput, [], none, line⟩ : Token).toText = endText := by
  have hquoted : quoted [] = ['\'', '\''] := by decide
  have htext : "EOF".toList ++ ('(' :: ['\'', '\'']) ++ [')'] = endText := by decide
  simp only [Token.toText, hquoted]
  exact htext

theorem toText_unexpectedCharacter (line : Nat) :
    (Diagnostic.unexpectedCharacter line).toText =
      "[line ".toList ++ numeral line ++ "] Error : Unexpected character.".toList := by
  have htext : "] Error : Unexpected character.".toList =
      "] Error ".toList ++ ([] ++ (": ".toList ++ "Unexpected character.".toList)) := by decide
  rw [htext, ← List.append_assoc, ← List.append_assoc, ← List.append_assoc]
  rfl

theorem map_toText_of_answer_eq_ok (h : (scan line).answer = .ok tokens) :
    tokens.map Token.toText = (scan line).body.map Token.toText ++ [endText] := by
  rw [eq_body_concat_of_answer_eq_ok h, List.map_append, List.map_singleton, toText_endOfInput]

theorem scan_of_lines (h : Lines '\n' text lines) (hlines : ∀ line ∈ lines, ¬ IsDiagnosed line) :
    ∃ tokens, (scan text).answer = .ok tokens ∧ tokens.map Token.toText =
      (lines.map fun line => (scan line).body.map Token.toText).flatten ++ [endText] := by
  induction h with
  | done =>
    refine ⟨_, (scan_of_munches_nil (.stop noUnit_nil)).1, ?_⟩
    exact congrArg (fun text => [text]) (toText_endOfInput _)
  | @last line hne hnone =>
    obtain ⟨tokens, htokens⟩ := exists_of_not_isDiagnosed (hlines line List.mem_cons_self)
    refine ⟨tokens, htokens, ?_⟩
    rw [map_toText_of_answer_eq_ok htokens]
    simp
  | @step line text lines hnone _ ih =>
    obtain ⟨hfirst, hrest⟩ := List.forall_mem_cons.1 hlines
    obtain ⟨tokens, htokens⟩ := exists_of_not_isDiagnosed hfirst
    obtain ⟨more, hmore, htexts⟩ := ih hrest
    refine ⟨_, scan_append_newline_of_ok htokens hmore, ?_⟩
    rw [List.map_append, List.map_map, List.map_cons, List.flatten_cons, List.append_assoc,
      ← htexts]
    rfl

theorem scan_of_lines_of_unexpectedCharacter (h : Lines '\n' text (before ++ line :: after))
    (hbefore : ∀ l ∈ before, ¬ IsDiagnosed l)
    (hline : (scan line).answer = .error (.lexical (.unexpectedCharacter 1))) :
    (scan text).answer =
      .error (.lexical (.unexpectedCharacter (before.length + 1 : Nat))) := by
  induction before generalizing text with
  | nil =>
    rw [List.nil_append] at h
    -- If this is not the last line, the failure still stays with what follows it.
    cases h with
    | last => exact hline
    | step => exact (scan_append_of_code hline rfl _).1
  | cons first before ih =>
    obtain ⟨hfirst, hrest⟩ := List.forall_mem_cons.1 hbefore
    obtain ⟨tokens, htokens⟩ := exists_of_not_isDiagnosed hfirst
    generalize hall : first :: before ++ line :: after = lines at h
    cases h with
    | done => cases hall
    | last =>
      have hnil := (List.cons.inj hall).2
      exact absurd (List.append_eq_nil_iff.1 hnil).2 (List.cons_ne_nil _ _)
    | step hnone htext =>
      obtain ⟨rfl, rfl⟩ := List.cons.inj hall
      have hfail := (scan_append_newline_of_error htokens (ih htext hrest)).1
      rw [List.count_eq_zero.2 hnone] at hfail
      exact hfail

theorem Invocation.run_of_runsScript {i : Invocation} {fs : FileSystem} {content : List UInt8}
    (h : i.RunsScript fs content) (level : Log.Level) :
    ∃ logger path, let t := sourceTranscript logger path (ofBytes content)
      (i.run fs level).ending = i.ending t.ending ∧ (i.run fs level).output = t.output := by
  obtain ⟨a, path, hparse, hscripts, hread⟩ := h
  rw [run_of_singleton hparse hscripts, hread]
  exact ⟨i.entrance.logger, path, rfl, rfl⟩

theorem sourceTranscript_of_answer_eq_ok (h : (scan text).answer = .ok tokens)
    (logger path : List Char) :
    (sourceTranscript logger path text).ending = .ok 0 ∧
      (sourceTranscript logger path text).output = asLines (tokens.map Token.toText) := by
  simp [sourceTranscript, h, scanOutput_of_answer_eq_ok h]

theorem sourceTranscript_of_answer_eq_error (h : (scan text).answer = .error (.lexical d))
    (logger path : List Char) :
    (sourceTranscript logger path text).ending = .ok dataStatus ∧
      (sourceTranscript logger path text).output = asLine d.toText := by
  simp [sourceTranscript, h, scanOutput_of_answer_eq_error h]

theorem forall₂_answers_of_not_isDiagnosed (h : ∀ line ∈ lines, ¬ IsDiagnosed line) :
    List.Forall₂ Answers lines
      (lines.map fun line => (scan line).body.map Token.toText ++ [endText]) := by
  induction lines with
  | nil => exact .nil
  | cons line lines ih =>
    obtain ⟨hfirst, hrest⟩ := List.forall_mem_cons.1 h
    obtain ⟨tokens, htokens⟩ := exists_of_not_isDiagnosed hfirst
    have hanswer := Answers.tokens htokens
    rw [map_toText_of_answer_eq_ok htokens] at hanswer
    exact .cons hanswer (ih hrest)

theorem exists_bodies_of_not_isDiagnosed (hlines : Lines '\n' text lines)
    (h : ∀ line ∈ lines, ¬ IsDiagnosed line) (logger path : List Char) :
    ∃ bodies : List (List (List Char)),
      List.Forall₂ Answers lines (bodies.map (· ++ [endText])) ∧
        (promptTranscript none lines).output = prompted (bodies.map (· ++ [endText])) ∧
        (sourceTranscript logger path text).ending = .ok 0 ∧
        (sourceTranscript logger path text).output = asLines (bodies.flatten ++ [endText]) := by
  have hanswers := forall₂_answers_of_not_isDiagnosed h
  obtain ⟨-, hprompt⟩ := promptTranscript_none (fun _ => hlines.not_mem) hanswers
  obtain ⟨tokens, hscan, htexts⟩ := scan_of_lines hlines h
  obtain ⟨hending, houtput⟩ := sourceTranscript_of_answer_eq_ok hscan logger path
  refine ⟨lines.map fun line => (scan line).body.map Token.toText, ?_, ?_, hending, ?_⟩
  · simpa using hanswers
  · rw [hprompt, List.map_map]
    rfl
  · rw [houtput, htexts]

theorem exists_answers_of_unexpectedCharacter (hlines : Lines '\n' text (before ++ line :: after))
    (hbefore : ∀ l ∈ before, ¬ IsDiagnosed l)
    (hline : (scan line).answer = .error (.lexical (.unexpectedCharacter 1)))
    (logger path : List Char) :
    (sourceTranscript logger path text).ending = .ok dataStatus ∧
      (sourceTranscript logger path text).output = asLine ("[line ".toList ++
        numeral (before.length + 1) ++ "] Error : Unexpected character.".toList) ∧
      (promptTranscript none (before ++ line :: after)).ending = .ok 0 ∧
      ∃ first rest, List.Forall₂ Answers before first ∧ List.Forall₂ Answers after rest ∧
        (promptTranscript none (before ++ line :: after)).output = prompted
          (first ++ ["[line 1] Error : Unexpected character.".toList] :: rest) := by
  obtain ⟨first, hfirst⟩ := exists_forall₂_answers before
  obtain ⟨rest, hrest⟩ := exists_forall₂_answers after
  have hanswers := List.rel_append hfirst (.cons (Answers.diagnostic hline) hrest)
  obtain ⟨hgoes, hprompt⟩ := promptTranscript_none (fun _ => hlines.not_mem) hanswers
  have hscan := scan_of_lines_of_unexpectedCharacter hlines hbefore hline
  obtain ⟨hending, houtput⟩ := sourceTranscript_of_answer_eq_error hscan logger path
  rw [toText_unexpectedCharacter] at houtput
  exact ⟨hending, houtput, hgoes, first, rest, hfirst, hrest, hprompt⟩

/-- If no line of a text is diagnosed at the prompt, as a script it gives the same tokens, with one
end instead of one for each line.  If the first line that is has an unexpected character, the script
gives just this diagnostic, with the number of the line, and the prompt goes on. -/
theorem script_and_prompt {fs : FileSystem} {i j : Invocation} {content : List UInt8}
    {lines : List (List Char)} (hscript : i.RunsScript fs content)
    (hprompt : j.Prompts (.bytes content)) (hlimit : j.limit = none)
    (hlines : Lines '\n' (ofBytes content) lines) (level other : Log.Level) :
    let script := i.run fs level
    let prompt := j.run fs other
    ((∀ line ∈ lines, ¬ IsDiagnosed line) →
        ∃ bodies : List (List (List Char)),
          List.Forall₂ Answers lines (bodies.map (· ++ [endText])) ∧
            prompt.output = prompted (bodies.map (· ++ [endText])) ∧
            script.ending.status? = some 0 ∧
            script.output = asLines (bodies.flatten ++ [endText])) ∧
      ∀ before line after d, lines = before ++ line :: after →
        (∀ l ∈ before, ¬ IsDiagnosed l) → (scan line).answer = .error (.lexical d) →
          d.message = "Unexpected character.".toList →
            script.ending.status? = some 65 ∧
              script.output = asLine ("[line ".toList ++ numeral (before.length + 1) ++
                "] Error : Unexpected character.".toList) ∧
              prompt.ending.status? = some 0 ∧
              ∃ first rest, List.Forall₂ Answers before first ∧ List.Forall₂ Answers after rest ∧
                prompt.output = prompted
                  (first ++ ["[line 1] Error : Unexpected character.".toList] :: rest) := by
  intro script prompt
  obtain ⟨logger, path, hscriptEnding, hscriptOutput⟩ :=
    Invocation.run_of_runsScript hscript level
  obtain ⟨hpromptEnding, hpromptOutput⟩ := Invocation.run_of_prompts hprompt fs other
  have hsame : lines = (Input.bytes content).lines := Input.eq_lines hlines
  rw [hlimit, ← hsame] at hpromptEnding hpromptOutput
  rw [hscriptEnding, hscriptOutput, hpromptEnding, hpromptOutput]
  refine ⟨fun hclean => ?_, fun before line after d hsplit hbefore hline hmessage => ?_⟩
  · obtain ⟨bodies, hanswers, hseen, hending, houtput⟩ :=
      exists_bodies_of_not_isDiagnosed hlines hclean logger path
    rw [hending]
    exact ⟨bodies, hanswers, hseen, i.status?_ending 0, houtput⟩
  · subst hsplit
    have hnewline : '\n' ∉ line := hlines.not_mem (by simp)
    obtain rfl : d = .unexpectedCharacter 1 := by
      rcases eq_of_answer_eq_error hnewline hline with rfl | rfl
      · rfl
      · exact absurd hmessage (by decide)
    obtain ⟨hending, houtput, hgoes, hanswers⟩ :=
      exists_answers_of_unexpectedCharacter hlines hbefore hline logger path
    rw [hending, hgoes]
    exact ⟨i.status?_ending dataStatus, houtput, j.status?_ending 0, hanswers⟩

theorem script_stops_on_second_line :
    let content : List UInt8 := [97, 10, 35, 10, 98]
    let fs : FileSystem := .ofFolder ⟨[([['s']], content)], []⟩
    let i : Invocation := { arguments := [['s']] }
    let j : Invocation := { arguments := [], input := .bytes content }
    i.RunsScript fs content ∧ j.Prompts (.bytes content) ∧ j.limit = none ∧
      Lines '\n' (ofBytes content) [['a'], ['#'], ['b']] ∧
      (i.run fs .warning).ending.status? = some 65 ∧
      (i.run fs .warning).output = "[line 2] Error : Unexpected character.\n".toList ∧
      (j.run fs .warning).ending.status? = some 0 := by
  intro content fs i j
  have hscript : i.RunsScript fs content := ⟨⟨false, [['s']]⟩, ['s'], by decide, rfl, by decide⟩
  have hprompt : j.Prompts (.bytes content) := ⟨⟨false, []⟩, rfl, rfl, rfl⟩
  have hlast : Lines '\n' ['b'] [['b']] := .last (by decide) (by decide)
  have hrest : Lines '\n' (['#'] ++ '\n' :: ['b']) [['#'], ['b']] := .step (by decide) hlast
  have hlines : Lines '\n' (['a'] ++ '\n' :: (['#'] ++ '\n' :: ['b'])) [['a'], ['#'], ['b']] :=
    .step (by decide) hrest
  have hfirst : (scan ['a']).answer = .ok (scan ['a']).lexer.tokens := by decide +kernel
  have hclean : ∀ l ∈ [['a']], ¬ IsDiagnosed l := by
    rintro l hl ⟨d, hd⟩
    obtain rfl := List.mem_singleton.1 hl
    rw [hfirst] at hd
    cases hd
  have hline : (scan ['#']).answer = .error (.lexical (.unexpectedCharacter 1)) := by
    decide +kernel
  obtain ⟨hstatus, houtput, hgoes, -⟩ :=
    (script_and_prompt hscript hprompt rfl hlines .warning .warning).2
      [['a']] ['#'] [['b']] _ rfl hclean hline rfl
  exact ⟨hscript, hprompt, rfl, hlines, hstatus, houtput, hgoes⟩

end LoxLexer.CommandLine
