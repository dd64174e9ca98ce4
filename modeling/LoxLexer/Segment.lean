import LoxLexer.Text.Classes
import LoxLexer.Token.Sign

/-! The unit at the front of a text.  `front` cuts off as much as the grammar allows and says what
it is; nothing here depends on what came before or on where the text stands. -/

namespace LoxLexer

inductive Shape
  | gap
  | sign (kind : Kind)
  | string
  | openString
  | number
  | word
  | stray
  deriving DecidableEq, Repr

structure Segment where
  shape : Shape
  text : List Char
  deriving DecidableEq, Repr

namespace Segment

open Text

def wordPrefix (text : List Char) : List Char := text.takeWhile isWordPart

/-- A point belongs to a number only if a digit follows. -/
def fractionPrefix : List Char → List Char
  | '.' :: rest =>
    let digits := rest.takeWhile Char.isDigit
    if digits = [] then [] else '.' :: digits
  | _ => []

def numberPrefix (text : List Char) : List Char :=
  text.takeWhile Char.isDigit ++ fractionPrefix (text.dropWhile Char.isDigit)

def closedPrefix? (text : List Char) : Option (List Char) :=
  if '"' ∈ text then some (text.takeWhile (· ≠ '"') ++ ['"']) else none

def linePrefix (text : List Char) : List Char := text.takeWhile (· ≠ '\n')

def ofSlash : List Char → Segment
  | '/' :: rest => ⟨.gap, '/' :: '/' :: linePrefix rest⟩
  | _ => ⟨.sign .slash, ['/']⟩

def ofStringBody (text : List Char) : Segment :=
  match closedPrefix? text with
  | some body => ⟨.string, body⟩
  | none => ⟨.openString, text⟩

def ofString (rest : List Char) : Segment :=
  let body := ofStringBody rest
  ⟨body.shape, '"' :: body.text⟩

def front (c : Char) (rest : List Char) : Segment :=
  match Sign.single? c, Sign.extensible? c with
  | some kind, _ => ⟨.sign kind, [c]⟩
  | none, some (short, long) =>
    if rest.head? = some '=' then ⟨.sign long, [c, '=']⟩ else ⟨.sign short, [c]⟩
  | none, none =>
    if c = '/' then ofSlash rest
    else if isBlank c || c = '\n' then ⟨.gap, [c]⟩
    else if c = '"' then ofString rest
    else if c.isDigit then ⟨.number, c :: numberPrefix rest⟩
    else if isWordStart c then ⟨.word, c :: wordPrefix rest⟩
    else ⟨.stray, [c]⟩

variable {c : Char} {text rest body : List Char}

theorem fractionPrefix_isPrefix (text : List Char) : fractionPrefix text <+: text := by
  unfold fractionPrefix
  split
  · next rest =>
    by_cases h : rest.takeWhile Char.isDigit = []
    · simp [h]
    · simpa [h] using List.takeWhile_prefix _
  · exact List.nil_prefix

theorem numberPrefix_isPrefix (text : List Char) : numberPrefix text <+: text := by
  have h := (List.prefix_append_right_inj (text.takeWhile Char.isDigit)).2
    (fractionPrefix_isPrefix (text.dropWhile Char.isDigit))
  rwa [List.takeWhile_append_dropWhile] at h

theorem closedPrefix?_cons_of_ne (hc : c ≠ '"') (text : List Char) :
    closedPrefix? (c :: text) = (closedPrefix? text).map (c :: ·) := by
  by_cases hm : '"' ∈ text
  · simp [closedPrefix?, hm, hc]
  · simp [closedPrefix?, hm, Ne.symm hc]

theorem isPrefix_of_closedPrefix? (h : closedPrefix? text = some body) : body <+: text := by
  induction text generalizing body with
  | nil => simp [closedPrefix?] at h
  | cons c text ih =>
    by_cases hc : c = '"'
    · subst hc
      simp [closedPrefix?] at h
      exact h ▸ ⟨text, rfl⟩
    · rw [closedPrefix?_cons_of_ne hc] at h
      obtain ⟨inner, hinner, rfl⟩ := Option.map_eq_some_iff.1 h
      exact (List.prefix_cons_inj c).2 (ih hinner)

theorem linePrefix_isPrefix (text : List Char) : linePrefix text <+: text :=
  List.takeWhile_prefix _

theorem wordPrefix_isPrefix (text : List Char) : wordPrefix text <+: text :=
  List.takeWhile_prefix _

theorem ofStringBody_isPrefix (text : List Char) : (ofStringBody text).text <+: text := by
  unfold ofStringBody
  split
  · next h => exact isPrefix_of_closedPrefix? h
  · exact List.prefix_rfl

theorem ofSlash_isPrefix (rest : List Char) : (ofSlash rest).text <+: '/' :: rest := by
  unfold ofSlash
  split
  · simpa using linePrefix_isPrefix _
  · exact ⟨_, rfl⟩

theorem front_isPrefix (c : Char) (rest : List Char) : (front c rest).text <+: c :: rest := by
  unfold front
  split
  · exact ⟨_, rfl⟩
  · split
    · next h =>
      obtain ⟨tail, rfl⟩ := List.head?_eq_some_iff.1 h
      exact ⟨tail, rfl⟩
    · exact ⟨_, rfl⟩
  · split
    · next h => exact h ▸ ofSlash_isPrefix rest
    · split
      · exact ⟨_, rfl⟩
      · split
        · next h => simpa [h, ofString] using ofStringBody_isPrefix rest
        · split
          · simpa using numberPrefix_isPrefix rest
          · split
            · simpa using wordPrefix_isPrefix rest
            · exact ⟨_, rfl⟩

theorem length_front_pos (c : Char) (rest : List Char) : 0 < (front c rest).text.length := by
  unfold front
  split
  · simp
  · split <;> simp
  · split
    · unfold ofSlash; split <;> simp
    · repeat' split
      all_goals simp [ofString]

end Segment

end LoxLexer
