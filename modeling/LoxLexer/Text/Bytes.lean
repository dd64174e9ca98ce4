/-! Bytes as characters.  Every byte is one character of the same number, so no sequence of bytes
is invalid and no line end is changed. -/

namespace LoxLexer.Text

def ofByte (b : UInt8) : Char := Char.ofNat b.toNat

def ofBytes (bytes : List UInt8) : List Char := bytes.map ofByte

@[simp] theorem length_ofBytes (bytes : List UInt8) : (ofBytes bytes).length = bytes.length :=
  List.length_map _

end LoxLexer.Text
