import LoxLexer.Number.Binary64
import LoxLexer.Token.Kind

namespace LoxLexer

inductive Literal
  | text (value : List Char)
  | number (value : Binary64)
  deriving DecidableEq

/-- Numbers are compared as numbers, so this is not the equality of literals. -/
def Literal.equals : Literal → Literal → Bool
  | text s, text t => s = t
  | number x, number y => x.equals y
  | _, _ => false

structure Token where
  kind : Kind
  lexeme : List Char
  literal : Option Literal
  line : Int
  deriving DecidableEq

namespace Token

def isLiteral (t : Token) : Bool := t.kind.isLiteral

def isKeyword (t : Token) : Bool := t.kind.isKeyword

def isIdentifier (t : Token) : Bool := t.kind = .identifier

def equals (t u : Token) : Bool :=
  t.kind = u.kind && t.lexeme = u.lexeme && t.line = u.line &&
    match t.literal, u.literal with
    | none, none => true
    | some l, some m => l.equals m
    | _, _ => false

end Token

end LoxLexer
