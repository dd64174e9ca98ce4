import LoxLexer.CommandLine.Invocation
import LoxLexer.Proofs.Lines
import LoxLexer.Proofs.Run
import LoxLexer.Proofs.SingleLine

namespace LoxLexer.CommandLine

open Grammar Text

/-- What is answered to a line, text by text: its tokens if it scans, and one diagnostic if not. -/
inductive Answers (line : List Char) : List (List Char) → Prop
  | tokens {list} : (Lexer.scan line).answer = .ok list → Answers line (list.map Token.toText)
  | diagnostic {d} : (Lexer.scan line).answer = .error (.lexical d) →
      Answers line ["[line 1] Error : ".toList ++ d.message]

def prompted (answers : List (List (List Char))) : List Char :=
  answers.flatMap (fun texts => promptText ++ asLines texts) ++ promptText

def Invocation.Prompts (i : Invocation) (input : Input) : Prop :=
  ∃ a, Arguments.parse i.arguments = .ok a ∧ a.scripts = [] ∧ i.input = input

def Ending.status? : Ending → Option Nat
  | .returned status | .exited status => some status
  | .broken _ => none

variable {line : List Char} {lines texts : List (List Char)} {answers : List (List (List Char))}
  {d : Diagnostic} {n : Nat}

theorem eq_of_answer_eq_error (hline : '\n' ∉ line)
    (h : (Lexer.scan line).answer = .error (.lexical d)) :
    d = .unexpectedCharacter 1 ∨ d = .unterminatedString 1 := by
  obtain ⟨segments, c, rest, hmunches, hfault⟩ := Lexer.exists_munches_of_answer_eq_error h
  obtain rfl := Fault.lexical.inj hfault
  rw [hmunches.text_eq, List.mem_append, not_or] at hline
  have htaken := List.count_eq_zero.2 hline.1
  have hrest := List.count_eq_zero.2 hline.2
  simp only [Diagnostic.ofNoUnit, htaken, hrest]
  split
  · exact .inr rfl
  · exact .inl rfl

theorem exists_answers (line : List Char) : ∃ texts, Answers line texts := by
  rcases Lexer.answer_eq_ok_or_error line with ⟨tokens, h⟩ | ⟨d, h⟩
  · exact ⟨_, .tokens h⟩
  · exact ⟨_, .diagnostic h⟩

theorem exists_forall₂_answers (lines : List (List Char)) :
    ∃ answers, List.Forall₂ Answers lines answers := by
  induction lines with
  | nil => exact ⟨[], .nil⟩
  | cons line lines ih =>
    obtain ⟨texts, htexts⟩ := exists_answers line
    obtain ⟨answers, hanswers⟩ := ih
    exact ⟨texts :: answers, .cons htexts hanswers⟩

theorem scanOutput_of_answer_eq_ok {tokens : List Token}
    (h : (Lexer.scan line).answer = .ok tokens) :
    scanOutput (Lexer.scan line) = asLines (tokens.map Token.toText) := by
  simp [scanOutput, h, Lexer.messages_of_answer_eq_ok h]

theorem scanOutput_of_answer_eq_error (h : (Lexer.scan line).answer = .error (.lexical d)) :
    scanOutput (Lexer.scan line) = asLine d.toText := by
  simp [scanOutput, h, Lexer.messages_of_answer_eq_error h]

theorem lineTranscript_of_answers (hline : '\n' ∉ line) (h : Answers line texts) :
    (lineTranscript line).ending = .ok 0 ∧ (lineTranscript line).output = asLines texts := by
  cases h with
  | tokens h => simp [lineTranscript, h, scanOutput_of_answer_eq_ok h]
  | @diagnostic d h =>
    have htext : (lineTranscript line).ending = .ok 0 ∧
        (lineTranscript line).output = asLine d.toText := by
      simp [lineTranscript, h, scanOutput_of_answer_eq_error h]
    refine ⟨htext.1, htext.2.trans ?_⟩
    rcases eq_of_answer_eq_error hline h with rfl | rfl <;> rfl

theorem prompted_cons (texts : List (List Char)) (answers : List (List (List Char))) :
    prompted (texts :: answers) = promptText ++ asLines texts ++ prompted answers := by
  simp [prompted]

theorem promptTranscript_none (hlines : ∀ line ∈ lines, '\n' ∉ line)
    (h : List.Forall₂ Answers lines answers) :
    (promptTranscript none lines).ending = .ok 0 ∧
      (promptTranscript none lines).output = prompted answers := by
  induction h with
  | nil => exact ⟨rfl, rfl⟩
  | @cons line texts lines answers hline _ ih =>
    obtain ⟨hfirst, hrest⟩ := List.forall_mem_cons.1 hlines
    obtain ⟨hending, houtput⟩ := lineTranscript_of_answers hfirst hline
    obtain ⟨hlast, hlater⟩ := ih hrest
    rw [promptTranscript]
    · simp only [hending, Transcript.after, houtput, prompted_cons]
      exact ⟨hlast, congrArg _ hlater⟩
    · intro h
      cases h

theorem promptTranscript_some (hlines : ∀ line ∈ lines, '\n' ∉ line)
    (h : List.Forall₂ Answers lines answers) (hn : n ≤ lines.length) :
    (promptTranscript (some n) lines).ending = .ok interruptedStatus ∧
      (promptTranscript (some n) lines).output = prompted (answers.take n) ++ ['\n'] := by
  induction h generalizing n with
  | nil =>
    obtain rfl := Nat.le_zero.1 hn
    exact ⟨rfl, rfl⟩
  | @cons line texts lines answers hline _ ih =>
    cases n with
    | zero => exact ⟨rfl, rfl⟩
    | succ n =>
      obtain ⟨hfirst, hrest⟩ := List.forall_mem_cons.1 hlines
      obtain ⟨hending, houtput⟩ := lineTranscript_of_answers hfirst hline
      obtain ⟨hlast, hlater⟩ := ih hrest (Nat.le_of_succ_le_succ hn)
      rw [promptTranscript]
      · simp only [hending, Transcript.after, houtput, List.take_succ_cons, prompted_cons]
        refine ⟨hlast, ?_⟩
        rw [List.append_assoc _ _ ['\n'], ← hlater]
        rfl
      · intro h
        cases h

theorem Invocation.run_of_prompts {i : Invocation} {input : Input} (h : i.Prompts input)
    (fs : FileSystem) (level : Log.Level) :
    (i.run fs level).ending = i.ending (promptTranscript i.limit input.lines).ending ∧
      (i.run fs level).output = (promptTranscript i.limit input.lines).output := by
  obtain ⟨a, hparse, hscripts, rfl⟩ := h
  rw [run_of_nil hparse hscripts]
  exact ⟨rfl, rfl⟩

theorem Invocation.status?_ending (i : Invocation) (status : Nat) :
    (i.ending (.ok status)).status? = some status := by
  unfold ending
  simp only
  split <;> rfl

end LoxLexer.CommandLine
