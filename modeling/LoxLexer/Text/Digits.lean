namespace LoxLexer.Text

def numeral (n : Nat) : List Char := Nat.toDigits 10 n

def numeralValue (digits : List Char) : Nat := Nat.ofDigitChars 10 digits 0

@[simp] theorem numeralValue_numeral (n : Nat) : numeralValue (numeral n) = n :=
  Nat.ofDigitChars_toDigits (by decide) (by decide)

def signedNumeral : Int → List Char
  | .ofNat n => numeral n
  | .negSucc n => '-' :: numeral (n + 1)

end LoxLexer.Text
