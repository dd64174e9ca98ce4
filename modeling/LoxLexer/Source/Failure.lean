import LoxLexer.Text.Digits
import LoxLexer.Text.Quoted

namespace LoxLexer

open Text

structure SystemError where
  number : Nat
  reason : List Char
  deriving DecidableEq, Repr

namespace SystemError

def noSuchEntry : SystemError := ⟨2, "No such file or directory".toList⟩

def notFolder : SystemError := ⟨20, "Not a directory".toList⟩

def isFolder : SystemError := ⟨21, "Is a directory".toList⟩

def nameTooLong : SystemError := ⟨36, "File name too long".toList⟩

def known : List SystemError := [noSuchEntry, notFolder, isFolder, nameTooLong]

def ofNumber (number : Nat) (reason : List Char) : SystemError :=
  (known.find? fun e => e.number = number).getD ⟨number, reason⟩

def message (e : SystemError) (path : List Char) : List Char :=
  "[Errno ".toList ++ numeral e.number ++ "] ".toList ++ e.reason ++ ": ".toList ++ quoted path

end SystemError

inductive ReadFailure
  | system (e : SystemError)
  | embeddedNull
  deriving DecidableEq, Repr

def ReadFailure.message (path : List Char) : ReadFailure → List Char
  | system e => e.message path
  | embeddedNull => "embedded null byte".toList

end LoxLexer
