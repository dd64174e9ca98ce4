import LoxLexer.Text.Line

namespace LoxLexer

open Text

inductive Channel
  | collecting
  | silent
  | console
  | stream
  | refusing
  deriving DecidableEq, Repr

structure Sink where
  channel : Channel
  messages : List (List Char) := []
  deriving DecidableEq, Repr

namespace Sink

def accepts (k : Sink) : Bool := k.channel ≠ .refusing

def take (k : Sink) (message : List Char) : Sink :=
  match k.channel with
  | .collecting | .stream => { k with messages := k.messages ++ [message] }
  | .silent | .console | .refusing => k

def printed (k : Sink) (message : List Char) : List Char :=
  match k.channel with
  | .console => asLine message
  | .collecting | .silent | .stream | .refusing => []

inductive Contents
  | messages (list : List (List Char))
  | text (value : List Char)
  deriving DecidableEq, Repr

def contents? (k : Sink) : Option Contents :=
  match k.channel with
  | .collecting => some (.messages k.messages)
  | .stream => some (.text (asLines k.messages))
  | .silent | .console | .refusing => none

end Sink

end LoxLexer
