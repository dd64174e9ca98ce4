/-! Character classes of Lox source text.  All of them are ASCII: a character beyond ASCII is
neither a digit nor part of a word nor a blank, and so can only stand inside a string or a
comment. -/

namespace LoxLexer.Text

def isWordStart (c : Char) : Bool := c.isAlpha || c = '_'

def isWordPart (c : Char) : Bool := c.isAlphanum || c = '_'

def isBlank (c : Char) : Bool := c = ' ' || c = '\r' || c = '\t'

theorem isWordPart_iff {c : Char} :
    isWordPart c = true ↔ isWordStart c = true ∨ c.isDigit = true := by
  simp [isWordPart, isWordStart, Char.isAlphanum]
  constructor
  · rintro ((h | h) | h) <;> simp [h]
  · rintro ((h | h) | h) <;> simp [h]

end LoxLexer.Text
