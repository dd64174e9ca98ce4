import LoxLexer.Lexer.Run

namespace LoxLexer

structure Placement where
  mark : Option Int := none
  cursor : Option Int := none
  line : Option Int := none
  deriving DecidableEq, Repr

inductive Request
  | run
  | tokens
  | hasDiagnostics
  | place (p : Placement)
  | accept (expected : List Char)
  | emit (kind : Kind) (literal : Option Literal)
  | record (d : Diagnostic)
  | readUnit
  | readString
  | readNumber
  | readWord
  | next
  | firstAhead
  | secondAhead
  | atEnd
  deriving DecidableEq

inductive Reply
  | done
  | tokens (list : List Token)
  | flag (value : Bool)
  | char (value : Char)
  | text (value : List Char)
  deriving DecidableEq

namespace Lexer

def place (x : Lexer) (p : Placement) : Lexer :=
  { x with
    mark := p.mark.getD x.mark
    cursor := p.cursor.getD x.cursor
    line := p.line.getD x.line }

def observe (x : Lexer) (reply : Reply) : Outcome Reply := ⟨.ok reply, x, []⟩

def serve (accepts : Bool) (x : Lexer) : Request → Outcome Reply
  | .run => (x.run accepts).map .tokens
  | .tokens => x.observe (.tokens x.tokens)
  | .hasDiagnostics => x.observe (.flag x.hasDiagnostics)
  | .place p => (x.place p).observe .done
  | .accept expected => (x.accept expected).map .flag
  | .emit kind literal => (x.emit kind literal).observe .done
  | .record d => (x.record accepts d).map .text
  | .readUnit => (x.readUnit accepts).map fun _ => .done
  | .readString => (x.readString accepts).map fun _ => .done
  | .readNumber => (x.readNumber accepts).map fun _ => .done
  | .readWord => (x.readWord accepts).map fun _ => .done
  | .next => x.next.map .char
  | .firstAhead => ⟨x.firstAhead.map .char, x, []⟩
  | .secondAhead => ⟨x.secondAhead.map .char, x, []⟩
  | .atEnd => x.observe (.flag x.atEnd)

end Lexer

end LoxLexer
