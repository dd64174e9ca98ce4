import LoxLexer.Number.Magnitude

namespace LoxLexer

structure Decimal where
  digits : Nat
  exponent : Int
  deriving DecidableEq, Repr

namespace Decimal

def numerator (d : Decimal) : Nat := d.digits * Nat.pow 10 d.exponent.toNat * Nat.pow 2 1074

def denominator (d : Decimal) : Nat := Nat.pow 10 (-d.exponent).toNat

/-- The nearest magnitude.  Beyond `10 ^ 400` it is infinite and below `10 ^ -400` it is zero, and
there the powers of ten, which may be huge, are not computed. -/
def magnitude (d : Decimal) : Magnitude :=
  if d.digits = 0 then .zero
  else if 400 < d.exponent then .infinity
  else if d.exponent + d.digits.log2 < -400 then .zero
  else .ofUnits d.numerator d.denominator

def normalize (d : Decimal) : Decimal :=
  if h : d.digits ≠ 0 ∧ d.digits % 10 = 0 then
    normalize ⟨d.digits / 10, d.exponent + 1⟩
  else d
termination_by d.digits
decreasing_by exact Nat.div_lt_self (Nat.pos_of_ne_zero h.1) (by decide)

end Decimal

end LoxLexer
