import LoxLexer.Number.Binary64
import LoxLexer.Number.Shortest
import LoxLexer.Text.Digits

/-! The text of a number: the fewest digits that read back to it, positional from `0.0001` up to
sixteen digits before the point, and otherwise with an exponent of at least two digits. -/

namespace LoxLexer.Number

open Text

def positional (digits : List Char) (point : Int) : List Char :=
  if point ≤ 0 then
    '0' :: '.' :: (List.replicate (-point).toNat '0' ++ digits)
  else if point.toNat < digits.length then
    digits.take point.toNat ++ '.' :: digits.drop point.toNat
  else
    digits ++ List.replicate (point.toNat - digits.length) '0' ++ ['.', '0']

def exponentDigits (n : Nat) : List Char :=
  if n < 10 then '0' :: numeral n else numeral n

def exponentText (e : Int) : List Char :=
  'e' :: (if e < 0 then '-' else '+') :: exponentDigits e.natAbs

def scientific (digits : List Char) (point : Int) : List Char :=
  match digits with
  | d :: e :: rest => d :: '.' :: e :: rest ++ exponentText (point - 1)
  | digits => digits ++ exponentText (point - 1)

end LoxLexer.Number

namespace LoxLexer.Decimal

open Number Text

def toText (d : Decimal) : List Char :=
  let digits := numeral d.digits
  let point := digits.length + d.exponent
  if -4 < point ∧ point ≤ 16 then positional digits point else scientific digits point

end LoxLexer.Decimal

namespace LoxLexer.Magnitude

def toText (x : Magnitude) : List Char :=
  if x = .zero then ['0', '.', '0']
  else if x = .infinity then ['i', 'n', 'f']
  else x.shortest.toText

end LoxLexer.Magnitude

namespace LoxLexer.Binary64

def toText : Binary64 → List Char
  | notANumber => ['n', 'a', 'n']
  | signed true x => '-' :: x.toText
  | signed false x => x.toText

end LoxLexer.Binary64
