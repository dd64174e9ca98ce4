import LoxLexer.Text.Bytes

namespace LoxLexer.CommandLine

inductive Input
  | bytes (data : List UInt8)
  | text (value : List Char)
  deriving DecidableEq, Repr

/-- Cuts behind every newline and leaves the newlines out.  The last line may lack its newline. -/
def splitLines {α : Type} [BEq α] (newline : α) (l : List α) : List (List α) :=
  let pieces := l.splitOn newline
  match pieces.getLast? with
  | some [] => pieces.dropLast
  | _ => pieces

namespace Input

def empty : Input := bytes []

def lines : Input → List (List Char)
  | bytes data => (splitLines 10 data).map Text.ofBytes
  | text value => splitLines '\n' value

end Input

end LoxLexer.CommandLine
