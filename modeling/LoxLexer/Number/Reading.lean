import LoxLexer.Number.Binary64
import LoxLexer.Number.Decimal
import LoxLexer.Text.Classes
import LoxLexer.Text.Digits
import LoxLexer.Text.ForeignDigit

/-! Reading a number from text.  The numerals of the language are a small part of what is accepted
here: signs, exponents, infinities, digits grouped by underscores, digits beyond ASCII and white
space around the number are read as well. -/

namespace LoxLexer.Number

open Text

def isForeignSpace (c : Char) : Bool :=
  let n := c.toNat
  n = 0x85 || n = 0xA0 || n = 0x1680 || (0x2000 ≤ n && n ≤ 0x200A) || n = 0x2028 || n = 0x2029 ||
    n = 0x202F || n = 0x205F || n = 0x3000

def isSpace (c : Char) : Bool :=
  c = ' ' || c = '\t' || c = '\n' || c = '\x0b' || c = '\x0c' || c = '\r'

def plain (c : Char) : Char :=
  if c.toNat < 0x80 then c
  else if isForeignSpace c then ' '
  else match foreignDigitValue? c with
    | some d => Nat.digitChar d
    | none => c

def trim (text : List Char) : List Char :=
  ((text.dropWhile isSpace).reverse.dropWhile isSpace).reverse

/-- Removes the underscores, each of which has to stand between two digits. -/
def joinGroups : List Char → Option (List Char)
  | [] => some []
  | '_' :: _ => none
  | c :: '_' :: d :: rest =>
    if c.isDigit && d.isDigit then (joinGroups (d :: rest)).map (c :: ·) else none
  | c :: rest => (joinGroups rest).map (c :: ·)

def takeSign : List Char → Bool × List Char
  | '-' :: rest => (true, rest)
  | '+' :: rest => (false, rest)
  | rest => (false, rest)

def takeFraction : List Char → List Char × List Char
  | '.' :: rest => (rest.takeWhile Char.isDigit, rest.dropWhile Char.isDigit)
  | rest => ([], rest)

def exponent? : List Char → Option Int
  | [] => some 0
  | c :: rest =>
    let (negative, digits) := takeSign rest
    if (c = 'e' ∨ c = 'E') ∧ digits ≠ [] ∧ digits.all Char.isDigit then
      some (if negative then -numeralValue digits else numeralValue digits)
    else none

def decimal? (text : List Char) : Option Decimal :=
  let whole := text.takeWhile Char.isDigit
  let (fraction, rest) := takeFraction (text.dropWhile Char.isDigit)
  if whole = [] ∧ fraction = [] then none
  else (exponent? rest).map fun e => ⟨numeralValue (whole ++ fraction), e - fraction.length⟩

def unsigned? (negative : Bool) (text : List Char) : Option Binary64 :=
  let word := text.map Char.toLower
  if word = "inf".toList ∨ word = "infinity".toList then some (.signed negative .infinity)
  else if word = "nan".toList then some .notANumber
  else (decimal? text).map fun d => .signed negative d.magnitude

end LoxLexer.Number

namespace LoxLexer.Binary64

open Number

def ofText? (text : List Char) : Option Binary64 :=
  (joinGroups (trim (text.map plain))).bind fun text =>
    let (negative, text) := takeSign text
    unsigned? negative text

end LoxLexer.Binary64
