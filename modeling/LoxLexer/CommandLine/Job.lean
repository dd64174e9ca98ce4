import LoxLexer.CommandLine.Arguments
import LoxLexer.Log
import LoxLexer.Lexer.Run
import LoxLexer.Sink
import LoxLexer.Source.Failure
import LoxLexer.Text.Bytes
import LoxLexer.Token.Printing

namespace LoxLexer.CommandLine

open Text

def misuseStatus : Nat := 64

def dataStatus : Nat := 65

def noInputStatus : Nat := 66

def interruptedStatus : Nat := 130

inductive Breakdown
  | embeddedNull
  | fault (f : Fault)
  deriving DecidableEq, Repr

structure Transcript where
  ending : Except Breakdown Nat
  output : List Char
  entries : List Log.Entry

namespace Transcript

def after (output : List Char) (entries : List Log.Entry) (t : Transcript) : Transcript :=
  ⟨t.ending, output ++ t.output, entries ++ t.entries⟩

def errorOutput (level : Log.Level) (t : Transcript) : List Char :=
  t.entries.flatMap (Log.Entry.toText level)

end Transcript

def logEntries (notices : List Notice) : List Log.Entry :=
  (notices.filterMap Log.ofNotice?).map .record

def scanOutput (scanned : Outcome (List Token)) : List Char :=
  match scanned.answer with
  | .ok tokens => asLines (scanned.messages ++ tokens.map Token.toText)
  | .error _ => asLines scanned.messages

def sourceTranscript (logger path source : List Char) : Transcript :=
  let scanned := Lexer.scan source
  let output := scanOutput scanned
  let entries := logEntries scanned.notices
  match scanned.answer with
  | .ok _ => ⟨.ok 0, output, entries⟩
  | .error (.lexical _) =>
    ⟨.ok dataStatus, output,
      entries ++ [.record ⟨logger, "Lexical error in ".toList ++ path⟩]⟩
  | .error fault => ⟨.error (.fault fault), output, entries⟩

def scriptTranscript (logger path : List Char) : Except ReadFailure (List UInt8) → Transcript
  | .error .embeddedNull => ⟨.error .embeddedNull, [], []⟩
  | .error (.system e) =>
    ⟨.ok noInputStatus, [],
      [.message (asLine ("loxscan: cannot read ".toList ++ path ++ ": ".toList ++ e.reason))]⟩
  | .ok bytes =>
    let source := ofBytes bytes
    (sourceTranscript logger path source).after [] [.record (Log.sourceRead path source)]

def promptText : List Char := ['>', ' ']

def lineTranscript (line : List Char) : Transcript :=
  let scanned := Lexer.scan line
  let output := scanOutput scanned
  let entries := logEntries scanned.notices
  match scanned.answer with
  | .ok _ | .error (.lexical _) => ⟨.ok 0, output, entries⟩
  | .error fault => ⟨.error (.fault fault), output, entries⟩

/-- Scans line after line.  If there is a limit to the lines that can be read, reading beyond it is
an interruption. -/
def promptTranscript : Option Nat → List (List Char) → Transcript
  | some 0, _ => ⟨.ok interruptedStatus, asLine promptText, []⟩
  | _, [] => ⟨.ok 0, promptText, []⟩
  | limit, line :: rest =>
    let first := lineTranscript line
    match first.ending with
    | .ok _ =>
      (promptTranscript (limit.map (· - 1)) rest).after (promptText ++ first.output) first.entries
    | .error b => ⟨.error b, promptText ++ first.output, first.entries⟩

inductive Job
  | misuse
  | script (path : List Char)
  | prompt
  deriving DecidableEq, Repr

def Arguments.job (a : Arguments) : Job :=
  match a.scripts with
  | [] => .prompt
  | [path] => .script path
  | _ => .misuse

def misuseTranscript : Transcript := ⟨.ok misuseStatus, misuseText, []⟩

namespace Arguments

variable {a : Arguments}

theorem job_of_nil (h : a.scripts = []) : a.job = .prompt := by
  simp [job, h]

theorem job_of_singleton {path : List Char} (h : a.scripts = [path]) : a.job = .script path := by
  simp [job, h]

theorem job_of_two_le (h : 2 ≤ a.scripts.length) : a.job = .misuse := by
  unfold job
  split
  · next hscripts => simp [hscripts] at h
  · next hscripts => simp [hscripts] at h
  · rfl

end Arguments

end LoxLexer.CommandLine
