import LoxLexer.Number.Magnitude

namespace LoxLexer

inductive Binary64
  | notANumber
  | signed (negative : Bool) (magnitude : Magnitude)
  deriving DecidableEq

namespace Binary64

/-- Comparison as numbers: zero equals its negative, and what is not a number equals nothing. -/
def equals : Binary64 → Binary64 → Bool
  | signed s x, signed t y => x = y && (s = t || x = .zero)
  | _, _ => false

end Binary64

end LoxLexer
