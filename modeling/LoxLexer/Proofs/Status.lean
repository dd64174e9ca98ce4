import LoxLexer.Proofs.Printed

namespace LoxLexer.CommandLine

open Lexer Text

namespace Invocation

def IsUninterrupted (i : Invocation) : Prop := ∀ n, i.limit = some n → i.input.lines.length < n

end Invocation

def Scans (source : List Char) : Prop := ∃ tokens, (scan source).answer = .ok tokens

/-- What is written about a script: that it cannot be read, or else all of its tokens or a
diagnostic. -/
inductive Result.Writes (result : Result) (path : List Char) :
    Except ReadFailure (List UInt8) → Prop
  | unreadable {e} : result.output = [] →
      result.errorOutput =
        asLine ("loxscan: cannot read ".toList ++ path ++ ": ".toList ++ e.reason) →
      result.Writes path (.error (.system e))
  | tokens {bytes body line} :
      (scan (ofBytes bytes)).answer = .ok (body ++ [⟨.endOfInput, [], none, line⟩]) →
      (∀ t ∈ body, t.kind ≠ .endOfInput) →
      result.output = asLines ((body ++ [⟨.endOfInput, [], none, line⟩]).map Token.toText) →
      (∀ t : Token, '\n' ∉ t.toText) → result.Writes path (.ok bytes)
  | diagnostic {bytes d} : (scan (ofBytes bytes)).answer = .error (.lexical d) →
      result.output = asLine d.toText → '\n' ∉ d.toText → (∀ t : Token, t.toText ≠ d.toText) →
      result.Writes path (.ok bytes)

variable {i : Invocation} {a : Arguments} {fs : FileSystem} {level : Log.Level}
  {path source : List Char} {bytes : List UInt8} {e : SystemError} {tokens : List Token}
  {d : Diagnostic} {lines : List (List Char)} {n : Nat}

theorem promptTranscript_of_lt (h : lines.length < n) :
    promptTranscript (some n) lines = promptTranscript none lines := by
  induction lines generalizing n with
  | nil =>
    obtain ⟨n, rfl⟩ := Nat.exists_eq_succ_of_ne_zero (Nat.ne_of_gt h)
    rfl
  | cons line lines ih =>
    obtain ⟨n, rfl⟩ := Nat.exists_eq_succ_of_ne_zero (Nat.ne_of_gt (Nat.zero_lt_of_lt h))
    have hlater : promptTranscript ((some (n + 1)).map (· - 1)) lines =
        promptTranscript (none.map (· - 1)) lines := ih (Nat.lt_of_succ_lt_succ h)
    rw [promptTranscript, promptTranscript, hlater]
    · intro h
      cases h
    · intro h
      cases h

theorem Invocation.ending_promptTranscript (i : Invocation) :
    (i.IsUninterrupted ∧ (promptTranscript i.limit i.input.lines).ending = .ok 0) ∨
      (¬ i.IsUninterrupted ∧
        (promptTranscript i.limit i.input.lines).ending = .ok interruptedStatus) := by
  obtain ⟨answers, hanswers⟩ := exists_forall₂_answers i.input.lines
  have hlines : ∀ line ∈ i.input.lines, '\n' ∉ line := fun _ => i.input.lines_content.not_mem
  have hnone := (promptTranscript_none hlines hanswers).1
  unfold IsUninterrupted
  cases hlimit : i.limit with
  | none => exact .inl ⟨by simp, hnone⟩
  | some n =>
    rcases Nat.lt_or_ge i.input.lines.length n with h | h
    · rw [promptTranscript_of_lt h]
      exact .inl ⟨by simpa using h, hnone⟩
    · exact .inr ⟨by simpa using h, (promptTranscript_some hlines hanswers h).1⟩

theorem not_scans_of_answer_eq_error (h : (scan source).answer = .error (.lexical d)) :
    ¬ Scans source := by
  rintro ⟨tokens, htokens⟩
  cases htokens.symm.trans h

theorem read_cases (fs : FileSystem) (hpath : '\x00' ∉ path) :
    (∃ e, fs.read path = .error (.system e)) ∨
      (∃ bytes tokens, fs.read path = .ok bytes ∧ (scan (ofBytes bytes)).answer = .ok tokens) ∨
      ∃ bytes d, fs.read path = .ok bytes ∧
        (scan (ofBytes bytes)).answer = .error (.lexical d) := by
  rcases hread : fs.read path with failure | bytes
  · cases failure with
    | system e => exact .inl ⟨e, rfl⟩
    | embeddedNull => exact absurd ((fs.embeddedNull_iff path).1 hread) hpath
  · rcases answer_eq_ok_or_error (ofBytes bytes) with ⟨tokens, h⟩ | ⟨d, h⟩
    · exact .inr (.inl ⟨bytes, tokens, rfl, h⟩)
    · exact .inr (.inr ⟨bytes, d, rfl, h⟩)

theorem newline_not_mem_toText_of_answer_eq_error
    (h : (scan source).answer = .error (.lexical d)) : '\n' ∉ d.toText := by
  obtain ⟨segments, c, rest, -, hfault⟩ := exists_munches_of_answer_eq_error h
  obtain rfl := Fault.lexical.inj hfault
  unfold Diagnostic.ofNoUnit
  split
  · exact Diagnostic.newline_not_mem_toText List.not_mem_nil
      (by decide : '\n' ∉ "Unterminated string".toList)
  · exact Diagnostic.newline_not_mem_toText List.not_mem_nil
      (by decide : '\n' ∉ "Unexpected character.".toList)

namespace Invocation

theorem ending_eq_ok_iff {m : Nat} : i.ending (.ok m) = i.ending (.ok n) ↔ m = n := by
  refine ⟨fun h => ?_, fun h => h ▸ rfl⟩
  have hstatus := congrArg Ending.status? h
  rw [i.status?_ending, i.status?_ending] at hstatus
  exact Option.some.inj hstatus

theorem ending_ne_broken (i : Invocation) (b : Breakdown) : i.ending (.ok n) ≠ .broken b := by
  intro h
  have hstatus := congrArg Ending.status? h
  rw [i.status?_ending] at hstatus
  cases hstatus

section

variable (hparse : Arguments.parse i.arguments = .ok a)

include hparse

section

variable (hscripts : a.scripts = [path])

include hscripts

theorem run_of_embeddedNull (hpath : '\x00' ∈ path) (fs : FileSystem) (level : Log.Level) :
    i.run fs level = ⟨.broken .embeddedNull, [], [], a.level⟩ := by
  rw [run_of_singleton hparse hscripts, (fs.embeddedNull_iff path).2 hpath]
  rfl

theorem run_of_unreadable (hread : fs.read path = .error (.system e)) (level : Log.Level) :
    i.run fs level = ⟨i.ending (.ok 66), [],
      asLine ("loxscan: cannot read ".toList ++ path ++ ": ".toList ++ e.reason), a.level⟩ := by
  rw [run_of_singleton hparse hscripts, hread]
  simp [scriptTranscript, Transcript.errorOutput, Log.Entry.toText, noInputStatus]

theorem run_of_scans (hread : fs.read path = .ok bytes)
    (hscan : (scan (ofBytes bytes)).answer = .ok tokens) (level : Log.Level) :
    (i.run fs level).ending = i.ending (.ok 0) ∧
      (i.run fs level).output = asLines (tokens.map Token.toText) := by
  obtain ⟨hending, houtput⟩ :=
    sourceTranscript_of_answer_eq_ok hscan i.entrance.logger path
  simp [run_of_singleton hparse hscripts, hread, scriptTranscript, Transcript.after, hending,
    houtput]

theorem run_of_diagnosed (hread : fs.read path = .ok bytes)
    (hscan : (scan (ofBytes bytes)).answer = .error (.lexical d)) (level : Log.Level) :
    (i.run fs level).ending = i.ending (.ok 65) ∧
      (i.run fs level).output = asLine d.toText := by
  obtain ⟨hending, houtput⟩ :=
    sourceTranscript_of_answer_eq_error hscan i.entrance.logger path
  simp [run_of_singleton hparse hscripts, hread, scriptTranscript, Transcript.after, hending,
    houtput, dataStatus]

theorem run_of_not_mem (hpath : '\x00' ∉ path) (fs : FileSystem) (level : Log.Level) :
    let result := i.run fs level
    (result.ending = i.ending (.ok 66) ↔ ∃ e, fs.read path = .error (.system e)) ∧
      (result.ending = i.ending (.ok 0) ↔
        ∃ bytes, fs.read path = .ok bytes ∧ Scans (ofBytes bytes)) ∧
      (result.ending = i.ending (.ok 65) ↔
        ∃ bytes, fs.read path = .ok bytes ∧ ¬ Scans (ofBytes bytes)) ∧
      (∃ status, result.ending = i.ending (.ok status)) ∧ result.Writes path (fs.read path) := by
  intro result
  rcases read_cases fs hpath with
    ⟨e, hread⟩ | ⟨bytes, tokens, hread, hscan⟩ | ⟨bytes, d, hread, hscan⟩
  · have hresult : result = _ := run_of_unreadable hparse hscripts hread level
    have hwrites : result.Writes path (.error (.system e)) :=
      .unreadable (congrArg Result.output hresult) (congrArg Result.errorOutput hresult)
    have hending : result.ending = i.ending (.ok 66) := congrArg Result.ending hresult
    rw [hending, hread]
    refine ⟨?_, ?_, ?_, ⟨66, rfl⟩, hwrites⟩ <;> simp [ending_eq_ok_iff]
  · obtain ⟨hending, houtput⟩ := run_of_scans hparse hscripts hread hscan level
    have hscans : Scans (ofBytes bytes) := ⟨tokens, hscan⟩
    have htokens := eq_body_concat_of_answer_eq_ok hscan
    rw [htokens] at hscan houtput
    have hwrites : result.Writes path (.ok bytes) :=
      .tokens hscan (by simp [Outcome.body]) houtput Token.newline_not_mem_toText
    rw [hending, hread]
    refine ⟨?_, ?_, ?_, ⟨0, rfl⟩, hwrites⟩ <;> simp [ending_eq_ok_iff, hscans]
  · obtain ⟨hending, houtput⟩ := run_of_diagnosed hparse hscripts hread hscan level
    have hscans := not_scans_of_answer_eq_error hscan
    have hwrites : result.Writes path (.ok bytes) := .diagnostic hscan houtput
      (newline_not_mem_toText_of_answer_eq_error hscan) (Token.toText_ne_toText · d)
    rw [hending, hread]
    refine ⟨?_, ?_, ?_, ⟨65, rfl⟩, hwrites⟩ <;> simp [ending_eq_ok_iff, hscans]

end

theorem ending_run_eq_broken_iff (fs : FileSystem) (level : Log.Level) (b : Breakdown) :
    (i.run fs level).ending = .broken b ↔
      b = .embeddedNull ∧ ∃ path, a.scripts = [path] ∧ '\x00' ∈ path := by
  have hno : ∀ {status : Nat}, (i.run fs level).ending = i.ending (.ok status) →
      (i.run fs level).ending ≠ .broken b := fun h => h ▸ i.ending_ne_broken b
  match hscripts : a.scripts with
  | [] =>
    have hending := congrArg Result.ending (run_of_nil hparse hscripts fs level)
    rcases i.ending_promptTranscript with ⟨-, h⟩ | ⟨-, h⟩ <;> simp only [h] at hending <;>
      exact iff_of_false (hno hending) (by simp)
  | [path] =>
    by_cases hpath : '\x00' ∈ path
    · rw [run_of_embeddedNull hparse hscripts hpath]
      simp [hpath, eq_comm]
    · obtain ⟨-, -, -, ⟨status, hending⟩, -⟩ :=
        run_of_not_mem hparse hscripts hpath fs level
      exact iff_of_false (hno hending) (by simp [hpath])
  | _ :: _ :: _ =>
    have hresult := run_of_two_le hparse (by simp [hscripts]) fs level
    exact iff_of_false (hno (congrArg Result.ending hresult)) (by simp)

end

/-- How an invocation ends whose arguments are not refused: without scripts it prompts, one script
is read and scanned, and with more of them nothing is read at all. -/
theorem run_of_accepted (hparse : Arguments.parse i.arguments = .ok a) (fs : FileSystem)
    (level : Log.Level) :
    let result := i.run fs level
    (2 ≤ a.scripts.length →
        ∀ (files : FileSystem) (input : Input) (limit : Option Nat),
          { i with input, limit }.run files level =
            ⟨i.ending (.ok 64), "usage: loxscan [script]\n".toList, [], a.level⟩) ∧
      (∀ path, a.scripts = [path] → '\x00' ∉ path →
        (result.ending = i.ending (.ok 66) ↔ ∃ e, fs.read path = .error (.system e)) ∧
          (result.ending = i.ending (.ok 0) ↔
            ∃ bytes, fs.read path = .ok bytes ∧ Scans (ofBytes bytes)) ∧
          (result.ending = i.ending (.ok 65) ↔
            ∃ bytes, fs.read path = .ok bytes ∧ ¬ Scans (ofBytes bytes)) ∧
          result.Writes path (fs.read path)) ∧
      (a.scripts = [] → i.IsUninterrupted → result.ending = i.ending (.ok 0)) ∧
      ∀ b, result.ending = .broken b ↔
        b = .embeddedNull ∧ ∃ path, a.scripts = [path] ∧ '\x00' ∈ path := by
  intro result
  refine ⟨fun h files input limit => ?_, fun path hscripts hpath => ?_, fun hnil hinput => ?_,
    ending_run_eq_broken_iff hparse fs level⟩
  · exact run_of_two_le (i := { i with input, limit }) hparse h files level
  · obtain ⟨hunreadable, hscans, hnot, -, hwrites⟩ :=
      run_of_not_mem hparse hscripts hpath fs level
    exact ⟨hunreadable, hscans, hnot, hwrites⟩
  · have hending : result.ending = i.ending (promptTranscript i.limit i.input.lines).ending :=
      congrArg Result.ending (run_of_nil hparse hnil fs level)
    rcases i.ending_promptTranscript with ⟨-, h⟩ | ⟨hnot, -⟩
    · rw [hending, h]
    · exact absurd hinput hnot

theorem run_of_accepted_stray_character :
    let fs : FileSystem := .ofFolder ⟨[([['s']], [49, 64])], []⟩
    let i : Invocation := { arguments := [['s']] }
    let j : Invocation := { arguments := [['s'], ['s']], limit := some 0 }
    Arguments.parse i.arguments = .ok ⟨false, [['s']]⟩ ∧
      (i.run fs .warning).ending = .returned 65 ∧
      Arguments.parse j.arguments = .ok ⟨false, [['s'], ['s']]⟩ ∧
      (j.run fs .warning).ending = .returned 64 := by
  intro fs i j
  have hi : Arguments.parse i.arguments = .ok ⟨false, [['s']]⟩ := by decide
  have hj : Arguments.parse j.arguments = .ok ⟨false, [['s'], ['s']]⟩ := by decide
  have hread : fs.read ['s'] = .ok [49, 64] := by decide
  have hscan : (scan (ofBytes [49, 64])).answer = .error (.lexical (.unexpectedCharacter 1)) := by
    decide +kernel
  obtain ⟨-, hscript, -, -⟩ := run_of_accepted hi fs .warning
  obtain ⟨hmisuse, -⟩ := run_of_accepted hj fs .warning
  obtain ⟨-, -, hdiagnosed, -⟩ := hscript ['s'] rfl (by decide)
  exact ⟨hi, hdiagnosed.2 ⟨_, hread, not_scans_of_answer_eq_error hscan⟩, hj,
    congrArg Result.ending (hmisuse (by decide) _ _ (some 0))⟩

end Invocation

end LoxLexer.CommandLine
