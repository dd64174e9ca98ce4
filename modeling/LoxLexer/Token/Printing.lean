import LoxLexer.Number.Printing
import LoxLexer.Text.Quoted
import LoxLexer.Token.Basic

namespace LoxLexer

open Text

def Literal.toText : Literal → List Char
  | text s => quoted s
  | number x => x.toText

def Literal.optionText : Option Literal → List Char
  | none => "None".toList
  | some l => l.toText

namespace Kind

def qualifiedName (k : Kind) : List Char := "TokenType.".toList ++ k.name.toList

def Unknown.message : Unknown → List Char
  | name text => quoted text
  | number n => signedNumeral n ++ " is not a valid TokenType".toList

end Kind

namespace Token

def toText (t : Token) : List Char :=
  t.kind.name.toList ++ '(' :: quoted t.lexeme ++
    (match t.literal with
      | none => [')']
      | some l => " -> ".toList ++ l.toText ++ [')'])

def toFullText (t : Token) : List Char :=
  "Token(".toList ++ t.kind.name.toList ++ ", ".toList ++ quoted t.lexeme ++ ", ".toList ++
    Literal.optionText t.literal ++ ", ".toList ++ signedNumeral t.line ++ [')']

end Token

end LoxLexer
