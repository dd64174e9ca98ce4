import LoxLexer.Diagnostic
import LoxLexer.Text.Position
import LoxLexer.Token.Basic

/-! The state of a lexer, and the moves that all its operations are made of.

The lexeme in progress runs from `mark` to `cursor`.  While a lexer runs over its source the mark
stays behind the cursor and the lines are those of the two positions, but every operation is
defined for arbitrary states, also for positions that are negative or lie outside of the source. -/

namespace LoxLexer

structure Lexer where
  source : List Char
  mark : Int := 0
  cursor : Int := 0
  line : Int := 1
  markLine : Int := 1
  tokens : List Token := []
  diagnostics : List Diagnostic := []
  hasRun : Bool := false
  deriving DecidableEq

/-- What an operation hands out while it goes on: messages for the sink, and entries for the
log. -/
inductive Notice
  | report (message : List Char)
  | scanned (tokens : Nat) (line : Int)
  | stopped (mark : Int) (message : List Char)
  deriving DecidableEq, Repr

def Notice.message? : Notice → Option (List Char)
  | report message => some message
  | scanned _ _ | stopped _ _ => none

structure Outcome (α : Type) where
  answer : Except Fault α
  lexer : Lexer
  notices : List Notice := []

namespace Outcome

def messages {α : Type} (o : Outcome α) : List (List Char) := o.notices.filterMap Notice.message?

def map {α β : Type} (f : α → β) (o : Outcome α) : Outcome β :=
  ⟨o.answer.map f, o.lexer, o.notices⟩

end Outcome

namespace Lexer

open Text

def ofSource (source : List Char) : Lexer := { source }

def rest (x : Lexer) : List Char := onward x.source x.cursor

def lexeme (x : Lexer) : List Char := between x.source x.mark x.cursor

def innerLexeme (x : Lexer) : List Char := between x.source (x.mark + 1) (x.cursor - 1)

def hasDiagnostics (x : Lexer) : Bool := !x.diagnostics.isEmpty

def atEnd (x : Lexer) : Bool := x.source.length ≤ x.cursor

def missing (x : Lexer) : Fault := if isAddressable x.cursor then .noCharacter else .unaddressable

/-- The text ahead for an operation that looks before it moves.  It may look at the end, but not
before the start. -/
def ahead (x : Lexer) : Except Fault (List Char) :=
  if x.cursor < -x.source.length then .error x.missing else .ok x.rest

def firstAhead (x : Lexer) : Except Fault Char := x.ahead.map fun text => text.head?.getD '\x00'

def secondAhead (x : Lexer) : Except Fault Char := firstAhead { x with cursor := x.cursor + 1 }

def pass (x : Lexer) (text : List Char) : Lexer :=
  { x with cursor := x.cursor + text.length, line := x.line + text.count '\n' }

def markHere (x : Lexer) : Lexer := { x with mark := x.cursor, markLine := x.line }

def emit (x : Lexer) (kind : Kind) (literal : Option Literal) : Lexer :=
  { x with tokens := x.tokens ++ [⟨kind, x.lexeme, literal, x.markLine⟩] }

def emitEnd (x : Lexer) : Lexer :=
  { x with tokens := x.tokens ++ [⟨.endOfInput, [], none, x.line⟩] }

def next (x : Lexer) : Outcome Char :=
  match x.rest with
  | [] => ⟨.error x.missing, x, []⟩
  | c :: _ => ⟨.ok c, x.pass [c], []⟩

/-- Consumes the next character if it is the expected one.  The line is not counted up, not even
for a newline, and an expected text that is not a single character is never met. -/
def accept (x : Lexer) (expected : List Char) : Outcome Bool :=
  match x.ahead with
  | .error fault => ⟨.error fault, x, []⟩
  | .ok [] => ⟨.ok false, x, []⟩
  | .ok (c :: _) =>
    if expected = [c] then ⟨.ok true, { x with cursor := x.cursor + 1 }, []⟩
    else ⟨.ok false, x, []⟩

/-- Records a diagnostic and reports it.  The record is kept also if the sink does not take the
message. -/
def record (accepts : Bool) (x : Lexer) (d : Diagnostic) : Outcome (List Char) :=
  let y := { x with diagnostics := x.diagnostics ++ [d] }
  if accepts then ⟨.ok d.toText, y, [.report d.toText, .stopped x.mark d.message]⟩
  else ⟨.error .undelivered, y, [.report d.toText]⟩

def stop (accepts : Bool) (x : Lexer) (d : Diagnostic) : Outcome Unit :=
  let recorded := x.record accepts d
  match recorded.answer with
  | .ok _ => ⟨.error (.lexical d), recorded.lexer, recorded.notices⟩
  | .error fault => ⟨.error fault, recorded.lexer, recorded.notices⟩

variable {x : Lexer} {text tail : List Char}

@[simp] theorem rest_ofSource (source : List Char) : (ofSource source).rest = source :=
  onward_zero source

@[simp] theorem rest_markHere : x.markHere.rest = x.rest := rfl

theorem rest_of_nonneg (h : 0 ≤ x.cursor) : x.rest = x.source.drop x.cursor.toNat :=
  onward_of_nonneg h

theorem rest_eq_nil_of_lt (h : x.cursor < -x.source.length) : x.rest = [] := by
  simp [rest, onward, h]

theorem ahead_of_nonneg (h : 0 ≤ x.cursor) : x.ahead = .ok x.rest := by
  have : ¬ x.cursor < -x.source.length := by omega
  simp [ahead, this]

theorem firstAhead_of_nonneg (h : 0 ≤ x.cursor) :
    x.firstAhead = .ok (x.rest.head?.getD '\x00') := by
  rw [firstAhead, ahead_of_nonneg h]
  rfl

theorem atEnd_iff (h : 0 ≤ x.cursor) : x.atEnd = true ↔ x.rest = [] := by
  rw [rest_of_nonneg h, List.drop_eq_nil_iff, atEnd, decide_eq_true_iff]
  omega

@[simp] theorem source_pass : (x.pass text).source = x.source := rfl

@[simp] theorem cursor_pass : (x.pass text).cursor = x.cursor + text.length := rfl

@[simp] theorem line_pass : (x.pass text).line = x.line + text.count '\n' := rfl

@[simp] theorem pass_nil (x : Lexer) : x.pass [] = x := by
  simp [pass]

theorem pass_pass (x : Lexer) (text more : List Char) :
    (x.pass text).pass more = x.pass (text ++ more) := by
  simp [pass, Int.add_assoc]

theorem cursor_pass_nonneg (h : 0 ≤ x.cursor) (text : List Char) : 0 ≤ (x.pass text).cursor := by
  rw [cursor_pass]
  omega

theorem rest_pass (h : x.rest = text ++ tail) : (x.pass text).rest = tail := by
  by_cases hc : x.cursor < -x.source.length
  · obtain ⟨rfl, rfl⟩ := List.append_eq_nil_iff.1 (h ▸ rest_eq_nil_of_lt hc)
    simpa [rest, pass] using rest_eq_nil_of_lt hc
  · have : (x.pass text).rest = x.rest.drop text.length :=
      onward_add (Int.not_lt.1 hc) text.length
    rw [this, h, List.drop_left]

theorem lexeme_pass_markHere (hc : 0 ≤ x.cursor) (h : text <+: x.rest) :
    (x.markHere.pass text).lexeme = text := by
  obtain ⟨tail, h⟩ := h
  have : (x.markHere.pass text).lexeme = x.rest.take text.length := by
    rw [rest_of_nonneg hc]
    simp only [lexeme, between, pass, markHere]
    rw [offset_of_nonneg hc, offset_of_nonneg (by omega)]
    congr 1
    omega
  rw [this, ← h, List.take_left]

end Lexer

end LoxLexer
