/-! The non-negative binary64 values, and rounding to the nearest of them.

A magnitude is stored as its rank: how many magnitudes lie below it.  Ranks are ordered as the
values are, two magnitudes are neighbours when their ranks are, and the significand is even when
the rank is, so rounding needs no case for subnormal values, for the step into the next binade or
for overflow. -/

namespace LoxLexer

namespace Magnitude

def binade : Nat := Nat.pow 2 52

def infinityRank : Nat := 2047 * binade

/-- The value of a rank in units of `2 ^ -1074`, the least positive value.  At the rank of infinity
it is the value that the next finite magnitude would have. -/
def unitsOfRank (rank : Nat) : Nat :=
  if rank < binade then rank else (binade + rank % binade) * Nat.pow 2 (rank / binade - 1)

def roundDiv (num den : Nat) : Nat :=
  let q := num / den
  let r := num % den
  if 2 * r < den ∨ (2 * r = den ∧ q % 2 = 0) then q else q + 1

/-- The rank nearest to `num / den` units, before overflow is considered.  In the binade that
starts at `2 ^ (52 + k)` units neighbours are `2 ^ k` units apart, and its ranks start at
`(k + 1) * 2 ^ 52`. -/
def nearestRank (num den : Nat) : Nat :=
  let k := (num / den).log2 - 52
  k * binade + roundDiv num (den * Nat.pow 2 k)

end Magnitude

structure Magnitude where
  rank : Nat
  rank_le : rank ≤ Magnitude.infinityRank
  deriving DecidableEq

namespace Magnitude

def zero : Magnitude := ⟨0, Nat.zero_le _⟩

def infinity : Magnitude := ⟨infinityRank, Nat.le_refl _⟩

def ofRank (rank : Nat) : Magnitude := ⟨min rank infinityRank, Nat.min_le_right _ _⟩

def ofUnits (num den : Nat) : Magnitude := ofRank (nearestRank num den)

def units (x : Magnitude) : Nat := unitsOfRank x.rank

end Magnitude

end LoxLexer
