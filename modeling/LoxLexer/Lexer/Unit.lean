import LoxLexer.Lexer.Basic
import LoxLexer.Number.Reading
import LoxLexer.Segment
import LoxLexer.Token.Keyword

namespace LoxLexer.Lexer

def emitNumber (x : Lexer) : Outcome Unit :=
  match Binary64.ofText? x.lexeme with
  | some value => ⟨.ok (), x.emit .number (some (.number value)), []⟩
  | none => ⟨.error (.defect (.malformedNumber x.lexeme x.line)), x, []⟩

def settle (accepts : Bool) (x : Lexer) : Shape → Outcome Unit
  | .gap => ⟨.ok (), x, []⟩
  | .sign kind => ⟨.ok (), x.emit kind none, []⟩
  | .string => ⟨.ok (), x.emit .string (some (.text x.innerLexeme)), []⟩
  | .openString => x.stop accepts (.unterminatedString x.line)
  | .number => x.emitNumber
  | .word => ⟨.ok (), x.emit (Kind.ofWord x.lexeme) none, []⟩
  | .stray => x.stop accepts (.unexpectedCharacter x.line)

def take (accepts : Bool) (x : Lexer) (s : Segment) : Outcome Unit :=
  (x.pass s.text).settle accepts s.shape

def readUnit (accepts : Bool) (x : Lexer) : Outcome Unit :=
  match x.rest with
  | [] => ⟨.error x.missing, x, []⟩
  | c :: rest => x.take accepts (Segment.front c rest)

def takeFrom (accepts : Bool) (x : Lexer) (cut : List Char → Segment) : Outcome Unit :=
  match x.ahead with
  | .error fault => ⟨.error fault, x, []⟩
  | .ok text => x.take accepts (cut text)

/-- Reads the rest of a string whose opening mark has been consumed. -/
def readString (accepts : Bool) (x : Lexer) : Outcome Unit :=
  x.takeFrom accepts Segment.ofStringBody

def readNumber (accepts : Bool) (x : Lexer) : Outcome Unit :=
  x.takeFrom accepts fun text => ⟨.number, Segment.numberPrefix text⟩

def readWord (accepts : Bool) (x : Lexer) : Outcome Unit :=
  x.takeFrom accepts fun text => ⟨.word, Segment.wordPrefix text⟩

variable (accepts : Bool) (x : Lexer)

@[simp] theorem source_stop (d : Diagnostic) : (x.stop accepts d).lexer.source = x.source := by
  cases accepts <;> rfl

@[simp] theorem cursor_stop (d : Diagnostic) : (x.stop accepts d).lexer.cursor = x.cursor := by
  cases accepts <;> rfl

@[simp] theorem source_settle (s : Shape) : (x.settle accepts s).lexer.source = x.source := by
  cases s <;> simp only [settle, emit, source_stop]
  unfold emitNumber
  split <;> rfl

@[simp] theorem cursor_settle (s : Shape) : (x.settle accepts s).lexer.cursor = x.cursor := by
  cases s <;> simp only [settle, emit, cursor_stop]
  unfold emitNumber
  split <;> rfl

@[simp] theorem source_take (s : Segment) : (x.take accepts s).lexer.source = x.source := by
  simp [take]

@[simp] theorem cursor_take (s : Segment) :
    (x.take accepts s).lexer.cursor = x.cursor + s.text.length := by
  simp [take]

@[simp] theorem source_readUnit : (x.readUnit accepts).lexer.source = x.source := by
  unfold readUnit
  split <;> simp

theorem rest_ne_nil_of_readUnit (h : (x.readUnit accepts).answer = .ok ()) : x.rest ≠ [] := by
  intro hrest
  simp [readUnit, hrest] at h

theorem takeFrom_of_nonneg (h : 0 ≤ x.cursor) (cut : List Char → Segment) :
    x.takeFrom accepts cut = x.take accepts (cut x.rest) := by
  simp [takeFrom, ahead_of_nonneg h]

theorem cursor_lt_cursor_readUnit (h : x.rest ≠ []) :
    x.cursor < (x.readUnit accepts).lexer.cursor := by
  unfold readUnit
  split
  · contradiction
  · next c rest _ =>
    have := Segment.length_front_pos c rest
    simp only [cursor_take]
    omega

end LoxLexer.Lexer
