import LoxLexer.Proofs.Script
import LoxLexer.Proofs.Unambiguous

namespace LoxLexer

open Grammar Text

variable {t u : Token} {source other : List Char} {tokens more : List Token}

theorem Token.exists_toText_eq_cons (t : Token) : ∃ c rest, t.toText = c :: rest ∧ c ≠ '[' := by
  obtain ⟨c, name, hname⟩ := List.exists_cons_of_ne_nil t.kind.name_ne_nil
  refine ⟨c, _, t.toText_eq.trans (by rw [hname]; rfl), fun hc => ?_⟩
  exact t.kind.not_mem_name.2.1 (by simp [hname, hc])

theorem Token.toText_ne_toText (t : Token) (d : Diagnostic) : t.toText ≠ d.toText := by
  obtain ⟨c, rest, ht, hc⟩ := t.exists_toText_eq_cons
  rw [ht]
  exact fun hsame => hc (List.cons.inj hsame).1

theorem Token.map_payload_eq_of_map_toText_eq (h : tokens.map toText = more.map toText) :
    tokens.map payload = more.map payload := by
  induction tokens generalizing more with
  | nil => rw [List.map_eq_nil_iff.1 h.symm]
  | cons t tokens ih =>
    obtain ⟨u, more, rfl⟩ : ∃ u rest, more = u :: rest := by
      refine List.exists_cons_of_ne_nil ?_
      rintro rfl
      cases h
    obtain ⟨htext, hrest⟩ := List.cons.inj h
    rw [List.map_cons, List.map_cons, toText_eq_iff.1 htext, ih hrest]

namespace CommandLine

open Lexer

theorem lines_asLines {texts : List (List Char)} (h : ∀ text ∈ texts, '\n' ∉ text) :
    Lines '\n' (asLines texts) texts := by
  induction texts with
  | nil => exact .done
  | cons text texts ih =>
    obtain ⟨htext, htexts⟩ := List.forall_mem_cons.1 h
    rw [asLines_cons, asLine, List.append_assoc]
    exact .step htext (ih htexts)

theorem lines_asLines_toText (tokens : List Token) :
    Lines '\n' (asLines (tokens.map Token.toText)) (tokens.map Token.toText) := by
  refine lines_asLines fun text htext => ?_
  obtain ⟨t, -, rfl⟩ := List.mem_map.1 htext
  exact t.newline_not_mem_toText

theorem asLines_toText_ne (h : (scan source).answer = .ok tokens) (d : Diagnostic) :
    asLines (tokens.map Token.toText) ≠ asLine d.toText := by
  have hne : tokens ≠ [] := by
    rw [eq_body_concat_of_answer_eq_ok h]
    simp
  obtain ⟨t, tokens, rfl⟩ := List.exists_cons_of_ne_nil hne
  obtain ⟨c, rest, ht, hc⟩ := t.exists_toText_eq_cons
  rw [List.map_cons, asLines_cons, ht]
  exact fun hsame => hc (List.cons.inj hsame).1

variable {i j : Invocation} {fs elsewhere : FileSystem} {content contents : List UInt8}

/-- A token is printed on one line, and what a script prints shows whether it scans and which tokens
it has, up to their lines. -/
theorem payload_eq_of_output_eq (hi : i.RunsScript fs content)
    (hj : j.RunsScript elsewhere contents) (level levels : Log.Level)
    (h : (i.run fs level).output = (j.run elsewhere levels).output) :
    let first := i.run fs level
    let second := j.run elsewhere levels
    (∀ t : Token, '\n' ∉ t.toText) ∧
      match (scan (ofBytes content)).answer, (scan (ofBytes contents)).answer with
      | .ok tokens, .ok more =>
        first.ending.status? = some 0 ∧ second.ending.status? = some 0 ∧
          Lines '\n' first.output (tokens.map Token.toText) ∧
          tokens.map Token.payload = more.map Token.payload
      | .error _, .error _ => first.ending.status? = some 65 ∧ second.ending.status? = some 65
      | _, _ => False := by
  intro first second
  refine ⟨Token.newline_not_mem_toText, ?_⟩
  obtain ⟨logger, path, hfirst, hfirstOutput⟩ := Invocation.run_of_runsScript hi level
  obtain ⟨loggers, paths, hsecond, hsecondOutput⟩ := Invocation.run_of_runsScript hj levels
  rw [hfirstOutput, hsecondOutput] at h
  rw [hfirst, hsecond, hfirstOutput]
  rcases answer_eq_ok_or_error (ofBytes content) with ⟨tokens, htokens⟩ | ⟨d, hd⟩
  · obtain ⟨hending, houtput⟩ := sourceTranscript_of_answer_eq_ok htokens logger path
    rcases answer_eq_ok_or_error (ofBytes contents) with ⟨more, hmore⟩ | ⟨e, he⟩
    · obtain ⟨hendings, houtputs⟩ := sourceTranscript_of_answer_eq_ok hmore loggers paths
      rw [houtput, houtputs] at h
      have hlines := lines_asLines_toText tokens
      have htexts := (eq_splitLines hlines).trans
        ((congrArg _ h).trans (eq_splitLines (lines_asLines_toText more)).symm)
      rw [htokens, hmore, hending, hendings, houtput]
      exact ⟨i.status?_ending 0, j.status?_ending 0, hlines,
        Token.map_payload_eq_of_map_toText_eq htexts⟩
    · obtain ⟨-, houtputs⟩ := sourceTranscript_of_answer_eq_error he loggers paths
      rw [houtput, houtputs] at h
      exact absurd h (asLines_toText_ne htokens e)
  · obtain ⟨hending, houtput⟩ := sourceTranscript_of_answer_eq_error hd logger path
    rcases answer_eq_ok_or_error (ofBytes contents) with ⟨more, hmore⟩ | ⟨e, he⟩
    · obtain ⟨-, houtputs⟩ := sourceTranscript_of_answer_eq_ok hmore loggers paths
      rw [houtput, houtputs] at h
      exact absurd h.symm (asLines_toText_ne hmore d)
    · obtain ⟨hendings, -⟩ := sourceTranscript_of_answer_eq_error he loggers paths
      rw [hd, he, hending, hendings]
      exact ⟨i.status?_ending dataStatus, j.status?_ending dataStatus⟩

theorem payload_eq_of_string_on_other_line :
    let content : List UInt8 := [34, 39, 10, 34]
    let contents : List UInt8 := [10, 34, 39, 10, 34]
    let fs : FileSystem := .ofFolder ⟨[([['s']], content), ([['t']], contents)], []⟩
    let i : Invocation := { arguments := [['s']] }
    let j : Invocation := { arguments := [['t']] }
    let tokens : List Token :=
      [⟨.string, "\"'\n\"".toList, some (.text "'\n".toList), 1⟩, ⟨.endOfInput, [], none, 2⟩]
    i.RunsScript fs content ∧ j.RunsScript fs contents ∧
      (i.run fs .warning).output = (j.run fs .warning).output ∧
      (i.run fs .warning).ending.status? = some 0 ∧
      Lines '\n' (i.run fs .warning).output (tokens.map Token.toText) := by
  intro content contents fs i j tokens
  have hi : i.RunsScript fs content := ⟨⟨false, [['s']]⟩, ['s'], by decide, rfl, by decide⟩
  have hj : j.RunsScript fs contents := ⟨⟨false, [['t']]⟩, ['t'], by decide, rfl, by decide⟩
  have hsame : (i.run fs .warning).output = (j.run fs .warning).output := by
    decide +kernel
  have htokens : (scan (ofBytes content)).answer = .ok tokens := by decide +kernel
  have hmore : (scan (ofBytes contents)).answer =
      .ok (tokens.map fun t => { t with line := t.line + 1 }) := by decide +kernel
  have hall := (payload_eq_of_output_eq hi hj .warning .warning hsame).2
  rw [htokens, hmore] at hall
  exact ⟨hi, hj, hsame, hall.1, hall.2.2.1⟩

end CommandLine

end LoxLexer
