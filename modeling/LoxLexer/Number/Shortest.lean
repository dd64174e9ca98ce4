import LoxLexer.Number.Decimal

/-! The shortest decimal that reads back as a given magnitude.

On the grid of the multiples of `10 ^ e` the decimals next to the value are the two that enclose
it, so these are tried on finer and finer grids, from the grid of the leading digit on.  The first
grid with a hit wins; where both neighbours hit, the nearer one does, and the one with even digits
if they are equally near. -/

namespace LoxLexer.Magnitude

def gridNumerator (x : Magnitude) (e : Int) : Nat := x.units * Nat.pow 10 (-e).toNat

def gridDenominator (e : Int) : Nat := Nat.pow 2 1074 * Nat.pow 10 e.toNat

def onGrid? (x : Magnitude) (e : Int) : Option Decimal :=
  let num := x.gridNumerator e
  let den := gridDenominator e
  let low : Decimal := ⟨num / den, e⟩
  let high : Decimal := ⟨num / den + 1, e⟩
  if low.magnitude = x then
    if high.magnitude = x then some ⟨roundDiv num den, e⟩ else some low
  else
    if high.magnitude = x then some high else none

/-- The least `k` with the value below `10 ^ k`, for a value other than zero.  The least positive
value exceeds `10 ^ -340`, so the integral part below is positive. -/
def scale (x : Magnitude) : Int :=
  (Nat.toDigits 10 (x.gridNumerator (-340) / gridDenominator (-340))).length - 340

def exact (x : Magnitude) : Decimal := ⟨x.units * Nat.pow 5 1074, -1074⟩

def shortest (x : Magnitude) : Decimal :=
  (((List.range 17).findSome? fun (n : Nat) => x.onGrid? (x.scale - (n + 1))).getD x.exact).normalize

end LoxLexer.Magnitude
