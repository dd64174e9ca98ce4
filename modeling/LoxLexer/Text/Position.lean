/-! Positions in a text.  A position counts from the start of the text or, if it is negative, from
its end, and it may lie outside of the text. -/

namespace LoxLexer.Text

/-- The number of characters before a position.  A position before the start means the start. -/
def offset (text : List Char) (position : Int) : Nat :=
  if position < 0 then (text.length + position).toNat else position.toNat

def between (text : List Char) (first last : Int) : List Char :=
  (text.drop (offset text first)).take (offset text last - offset text first)

/-- What is read from a position on.  Positions are counted up while reading, so from a negative one
the end of the text is followed by the whole text. -/
def onward (text : List Char) (position : Int) : List Char :=
  if position < -text.length then []
  else if position < 0 then text.drop (offset text position) ++ text
  else text.drop position.toNat

def isAddressable (position : Int) : Bool :=
  -0x8000000000000000 ≤ position && position < 0x8000000000000000

variable {text : List Char} {position : Int}

theorem offset_of_nonneg (h : 0 ≤ position) : offset text position = position.toNat := by
  simp [offset, Int.not_lt.2 h]

theorem between_of_nonneg {first last : Int} (hfirst : 0 ≤ first) (hlast : 0 ≤ last) :
    between text first last = (text.take last.toNat).drop first.toNat := by
  rw [between, offset_of_nonneg hfirst, offset_of_nonneg hlast, List.drop_take]

theorem onward_of_nonneg (h : 0 ≤ position) : onward text position = text.drop position.toNat := by
  have : ¬ position < -text.length := by omega
  simp [onward, this, Int.not_lt.2 h]

theorem onward_of_neg (h : -text.length ≤ position) (hneg : position < 0) :
    onward text position = text.drop (offset text position) ++ text := by
  simp [onward, Int.not_lt.2 h, hneg]

@[simp] theorem onward_zero (text : List Char) : onward text 0 = text := by
  simp [onward_of_nonneg]

theorem onward_add (h : -text.length ≤ position) (n : Nat) :
    onward text (position + n) = (onward text position).drop n := by
  by_cases hp : 0 ≤ position
  · rw [onward_of_nonneg hp, onward_of_nonneg (by omega), List.drop_drop]
    congr 1
    omega
  · have hlength : (text.drop (offset text position)).length = (-position).toNat := by
      simp only [List.length_drop, offset, Int.not_le.1 hp, if_true]
      omega
    rw [onward_of_neg h (by omega), List.drop_append, hlength]
    by_cases hn : 0 ≤ position + n
    · have hdropped : (text.drop (offset text position)).drop n = [] :=
        List.drop_of_length_le (by omega)
      rw [onward_of_nonneg hn, hdropped, List.nil_append]
      congr 1
      omega
    · have hmoved : offset text (position + n) = offset text position + n := by
        simp only [offset, Int.not_le.1 hp, Int.not_le.1 hn, if_true]
        omega
      have hwhole : n - (-position).toNat = 0 := by omega
      rw [onward_of_neg (by omega) (by omega), hmoved, List.drop_drop, hwhole, List.drop_zero]

end LoxLexer.Text
