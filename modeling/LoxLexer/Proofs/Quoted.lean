import LoxLexer.Text.Quoted
import Mathlib

namespace LoxLexer.Text

def hexDigits : List Char :=
  ['0', '1', '2', '3', '4', '5', '6', '7', '8', '9', 'a', 'b', 'c', 'd', 'e', 'f']

def hexValue (digits : List Char) : Nat := digits.foldl (fun n c => 16 * n + hexDigits.idxOf c) 0

def readCode (width : Nat) (text : List Char) : Char × List Char :=
  (Char.ofNat (hexValue (text.take width)), text.drop width)

def readEscape? : List Char → Option (Char × List Char)
  | [] => none
  | '\\' :: 'n' :: rest => some ('\n', rest)
  | '\\' :: 'r' :: rest => some ('\r', rest)
  | '\\' :: 't' :: rest => some ('\t', rest)
  | '\\' :: 'x' :: rest => some (readCode 2 rest)
  | '\\' :: 'u' :: rest => some (readCode 4 rest)
  | '\\' :: 'U' :: rest => some (readCode 8 rest)
  | '\\' :: c :: rest => some (c, rest)
  | c :: rest => some (c, rest)

variable {c mark : Char} {text other rest more : List Char}

@[simp] theorem length_hex (width n : Nat) : (hex width n).length = width := by
  induction width generalizing n with
  | zero => rfl
  | succ width ih => rw [hex, List.length_append, ih, List.length_singleton]

theorem hexValue_hex (width n : Nat) : hexValue (hex width n) = n % 16 ^ width := by
  induction width generalizing n with
  | zero => rw [pow_zero, Nat.mod_one]; rfl
  | succ width ih =>
    have hdigit : ∀ digit < 16, hexDigits.idxOf (Nat.digitChar digit) = digit := by decide
    have hlast := hdigit _ (Nat.mod_lt n (by decide))
    have hfront : hexValue (hex width (n / 16)) = n / 16 % 16 ^ width := ih _
    rw [hexValue] at hfront ⊢
    rw [hex, List.foldl_append, hfront, List.foldl_cons, hlast, List.foldl_nil, pow_succ',
      Nat.mod_mul, Nat.add_comm]

theorem readCode_hex_append (width : Nat) (h : c.toNat < 16 ^ width) (rest : List Char) :
    readCode width (hex width c.toNat ++ rest) = (c, rest) := by
  have hlength := length_hex width c.toNat
  rw [readCode, List.take_left' hlength, List.drop_left' hlength, hexValue_hex, Nat.mod_eq_of_lt h,
    Char.ofNat_toNat]

theorem readEscape?_codeEscape_append (c : Char) (rest : List Char) :
    readEscape? (codeEscape c ++ rest) = some (c, rest) := by
  unfold codeEscape
  split
  · next h => exact congrArg some (readCode_hex_append 2 h rest)
  · split
    · next h => exact congrArg some (readCode_hex_append 4 h rest)
    · have h : c.toNat < 16 ^ 8 := by
        rcases c.valid with h | h
        · exact Nat.lt_trans h (by decide)
        · exact Nat.lt_trans h.2 (by decide)
      exact congrArg some (readCode_hex_append 8 h rest)

theorem readEscape?_cons_of_ne (h : c ≠ '\\') (rest : List Char) :
    readEscape? (c :: rest) = some (c, rest) := by
  unfold readEscape?
  split <;> simp_all

theorem quotationMark_eq_or (text : List Char) :
    quotationMark text = '\'' ∨ quotationMark text = '"' := by
  unfold quotationMark
  split
  · exact .inr rfl
  · exact .inl rfl

theorem readEscape?_escape_append (hmark : mark = '\'' ∨ mark = '"') (c : Char)
    (rest : List Char) : readEscape? (escape mark c ++ rest) = some (c, rest) := by
  unfold escape
  split
  · next h => rcases h with rfl | rfl <;> rcases hmark with rfl | rfl <;> rfl
  · next hplain =>
    repeat' split
    · next h => exact h ▸ rfl
    · next h => exact h ▸ rfl
    · next h => exact h ▸ rfl
    · exact readEscape?_codeEscape_append c rest
    · exact readEscape?_cons_of_ne (not_or.1 hplain).1 rest

theorem exists_escape_eq_cons (hmark : mark = '\'' ∨ mark = '"') (c : Char) :
    ∃ d tail, escape mark c = d :: tail ∧ d ≠ mark := by
  have hback : '\\' ≠ mark := by rcases hmark with rfl | rfl <;> decide
  unfold escape
  split
  · exact ⟨_, _, rfl, hback⟩
  · next hplain =>
    unfold codeEscape
    repeat' split
    all_goals first | exact ⟨_, _, rfl, hback⟩ | exact ⟨c, [], rfl, (not_or.1 hplain).2⟩

theorem escape_append_ne (hmark : mark = '\'' ∨ mark = '"') (c : Char) (rest more : List Char) :
    escape mark c ++ rest ≠ mark :: more := by
  obtain ⟨d, tail, hescape, hd⟩ := exists_escape_eq_cons hmark c
  rw [hescape]
  exact fun h => hd (List.cons.inj h).1

theorem flatMap_escape_append_inj (hmark : mark = '\'' ∨ mark = '"')
    (h : text.flatMap (escape mark) ++ mark :: rest = other.flatMap (escape mark) ++ mark :: more) :
    text = other ∧ rest = more := by
  induction text generalizing other with
  | nil =>
    cases other with
    | nil => exact ⟨rfl, (List.cons.inj h).2⟩
    | cons d other =>
      rw [List.flatMap_cons, List.append_assoc] at h
      exact absurd h.symm (escape_append_ne hmark d _ _)
  | cons c text ih =>
    cases other with
    | nil =>
      rw [List.flatMap_cons, List.append_assoc] at h
      exact absurd h (escape_append_ne hmark c _ _)
    | cons d other =>
      rw [List.flatMap_cons, List.append_assoc, List.flatMap_cons, List.append_assoc] at h
      have hread := congrArg readEscape? h
      rw [readEscape?_escape_append hmark, readEscape?_escape_append hmark] at hread
      obtain ⟨rfl, hrest⟩ := Prod.mk.inj (Option.some.inj hread)
      obtain ⟨rfl, rfl⟩ := ih hrest
      exact ⟨rfl, rfl⟩

theorem quoted_append_inj (h : quoted text ++ rest = quoted other ++ more) :
    text = other ∧ rest = more := by
  have hsplit : ∀ text rest, quoted text ++ rest = quotationMark text ::
      (text.flatMap (escape (quotationMark text)) ++ quotationMark text :: rest) := by
    intro text rest
    simp [quoted]
  rw [hsplit, hsplit] at h
  obtain ⟨hmark, hbody⟩ := List.cons.inj h
  rw [← hmark] at hbody
  exact flatMap_escape_append_inj (quotationMark_eq_or text) hbody

end LoxLexer.Text
