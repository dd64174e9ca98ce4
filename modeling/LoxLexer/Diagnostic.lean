import LoxLexer.Text.Digits
import LoxLexer.Text.Quoted

namespace LoxLexer

open Text

structure Diagnostic where
  line : Int
  message : List Char
  /-- A label of the location; the lexer leaves it empty. -/
  place : List Char := []
  code : Option (List Char) := none
  deriving DecidableEq, Repr

namespace Diagnostic

def unexpectedCharacter (line : Int) : Diagnostic :=
  ⟨line, "Unexpected character.".toList, [], some "L001".toList⟩

def unterminatedString (line : Int) : Diagnostic :=
  ⟨line, "Unterminated string".toList, [], some "L002".toList⟩

def toText (d : Diagnostic) : List Char :=
  "[line ".toList ++ signedNumeral d.line ++ "] Error ".toList ++ d.place ++ ": ".toList ++ d.message

def toFullText (d : Diagnostic) : List Char :=
  "Diagnostic(line=".toList ++ signedNumeral d.line ++ ", message=".toList ++ quoted d.message ++
    ", where=".toList ++ quoted d.place ++ ", code=".toList ++
    (match d.code with
      | none => "None".toList
      | some code => quoted code) ++ [')']

end Diagnostic

/-- A lexeme of the wrong form, which is a defect of the lexer and not of the source. -/
structure Defect where
  message : List Char
  lexeme : List Char
  line : Int
  deriving DecidableEq, Repr

namespace Defect

def malformedNumber (lexeme : List Char) (line : Int) : Defect :=
  ⟨"Numeric literal failed to parse".toList, lexeme, line⟩

def toText (d : Defect) : List Char :=
  d.message ++ ": ".toList ++ quoted d.lexeme ++ " (line ".toList ++ signedNumeral d.line ++ [')']

end Defect

inductive Fault
  | lexical (d : Diagnostic)
  | defect (d : Defect)
  | alreadyRun
  | noCharacter
  /-- The position is too large to ask for its character. -/
  | unaddressable
  | undelivered
  deriving DecidableEq, Repr

def Fault.message : Fault → List Char
  | lexical d => d.toText
  | defect d => d.toText
  | alreadyRun => "Scanner instances scan exactly once".toList
  | noCharacter => "string index out of range".toList
  | unaddressable => "cannot fit 'int' into an index-sized integer".toList
  | undelivered => []

end LoxLexer
