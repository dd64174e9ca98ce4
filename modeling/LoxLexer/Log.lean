import LoxLexer.Lexer.Basic
import LoxLexer.Text.Digits
import LoxLexer.Text.Line

namespace LoxLexer.Log

open Text

inductive Level
  | warning
  | debug
  deriving DecidableEq, Repr

def Level.name : Level → String
  | warning => "WARNING"
  | debug => "DEBUG"

def rootName : List Char := "loxscan".toList

def qualify (name : List Char) : List Char :=
  if name = rootName || (rootName ++ ['.']).isPrefixOf name then name
  else rootName ++ '.' :: name

structure Record where
  logger : List Char
  message : List Char
  deriving DecidableEq, Repr

def Record.toText (r : Record) : List Char :=
  asLine ("DEBUG ".toList ++ r.logger ++ ": ".toList ++ r.message)

def lexerLogger : List Char := qualify "loxscan.lexer.scanner".toList

def sourceRead (path content : List Char) : Record :=
  ⟨lexerLogger,
    "Read ".toList ++ numeral content.length ++ " characters from ".toList ++ path⟩

def ofNotice? : Notice → Option Record
  | .report _ => none
  | .scanned tokens line =>
    some ⟨lexerLogger, "Scanned ".toList ++ numeral tokens ++ " tokens over ".toList ++
      signedNumeral line ++ " lines".toList⟩
  | .stopped mark message =>
    some ⟨lexerLogger, "Scan stopped at offset ".toList ++ signedNumeral mark ++ ": ".toList ++
      message⟩

/-- What goes to the error output: messages always, records at the debug level. -/
inductive Entry
  | message (text : List Char)
  | record (r : Record)
  deriving DecidableEq, Repr

def Entry.toText (level : Level) : Entry → List Char
  | message text => text
  | record r => if level = .debug then r.toText else []

end LoxLexer.Log
