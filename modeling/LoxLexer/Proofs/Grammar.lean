import LoxLexer.Segment
import Mathlib

namespace LoxLexer.Grammar

open Text

def IsDigit (c : Char) : Prop := '0' ≤ c ∧ c ≤ '9'

def IsLetter (c : Char) : Prop := 'a' ≤ c ∧ c ≤ 'z' ∨ 'A' ≤ c ∧ c ≤ 'Z' ∨ c = '_'

instance : DecidablePred IsDigit := fun _ => inferInstanceAs (Decidable (_ ∧ _))

instance : DecidablePred IsLetter := fun _ => inferInstanceAs (Decidable (_ ∨ _))

def separators : List Char := [' ', '\t', '\r', '\n']

def signs : List (List Char × Kind) :=
  [(['('], .leftParen), ([')'], .rightParen), (['{'], .leftBrace), (['}'], .rightBrace),
    ([','], .comma), (['.'], .dot), (['-'], .minus), (['+'], .plus), ([';'], .semicolon),
    (['/'], .slash), (['*'], .star), (['!'], .bang), (['!', '='], .bangEqual), (['='], .equal),
    (['=', '='], .equalEqual), (['>'], .greater), (['>', '='], .greaterEqual), (['<'], .less),
    (['<', '='], .lessEqual)]

def reservedWords : List (List Char × Kind) :=
  [("and".toList, .andWord), ("class".toList, .classWord), ("else".toList, .elseWord),
    ("false".toList, .falseWord), ("for".toList, .forWord), ("fun".toList, .funWord),
    ("if".toList, .ifWord), ("nil".toList, .nilWord), ("or".toList, .orWord),
    ("print".toList, .printWord), ("return".toList, .returnWord), ("super".toList, .superWord),
    ("this".toList, .thisWord), ("true".toList, .trueWord), ("var".toList, .varWord),
    ("while".toList, .whileWord)]

def IsNumeral (text : List Char) : Prop := text ≠ [] ∧ ∀ c ∈ text, IsDigit c

instance : DecidablePred IsNumeral := fun text =>
  have := List.decidableBAll IsDigit text
  inferInstanceAs (Decidable (_ ∧ _))

inductive IsUnit : Shape → List Char → Prop
  | separator {c} : c ∈ separators → IsUnit .gap [c]
  | comment {body} : '\n' ∉ body → IsUnit .gap ('/' :: '/' :: body)
  | sign {text kind} : (text, kind) ∈ signs → IsUnit (.sign kind) text
  | word {c body} : IsLetter c → (∀ d ∈ body, IsLetter d ∨ IsDigit d) → IsUnit .word (c :: body)
  | whole {text} : IsNumeral text → IsUnit .number text
  | fraction {text digits} : IsNumeral text → IsNumeral digits →
      IsUnit .number (text ++ '.' :: digits)
  | string {body} : '"' ∉ body → IsUnit .string ('"' :: (body ++ ['"']))

/-- What follows a unit and lets it go on. -/
inductive Extends : List Char → List Char → Prop
  | comment {body c rest} : '\n' ∉ body → c ≠ '\n' → Extends ('/' :: '/' :: body) (c :: rest)
  | slash {rest} : Extends ['/'] ('/' :: rest)
  | equals {c rest} : c ∈ ['!', '=', '<', '>'] → Extends [c] ('=' :: rest)
  | word {text c rest} : IsUnit .word text → IsLetter c ∨ IsDigit c → Extends text (c :: rest)
  | number {text c rest} : IsUnit .number text → IsDigit c → Extends text (c :: rest)
  | point {text c rest} : IsNumeral text → IsDigit c → Extends text ('.' :: c :: rest)

structure IsLongest (text : List Char) (s : Segment) : Prop where
  isUnit : IsUnit s.shape s.text
  isPrefix : s.text <+: text
  longest : ∀ {shape other}, IsUnit shape other → other <+: text → other.length ≤ s.text.length

def NoUnit (text : List Char) : Prop := ∀ shape other, IsUnit shape other → ¬ other <+: text

/-- Takes the longest unit again and again, until no unit begins what is left. -/
inductive Munches : List Char → List Segment → List Char → Prop
  | stop {text} : NoUnit text → Munches text [] text
  | take {text s rest segments left} : text = s.text ++ rest → IsLongest text s →
      Munches rest segments left → Munches text (s :: segments) left

variable {c : Char} {shape : Shape} {text rest left : List Char} {s t : Segment}
  {segments : List Segment}

theorem isDigit_iff : c.isDigit = true ↔ IsDigit c := by
  simp [Char.isDigit, IsDigit, Char.le_def]

theorem isWordStart_iff : isWordStart c = true ↔ IsLetter c := by
  simp [isWordStart, Char.isAlpha, Char.isUpper, Char.isLower, IsLetter, Char.le_def]
  grind

theorem isWordPart_iff_isLetter : isWordPart c = true ↔ IsLetter c ∨ IsDigit c := by
  rw [isWordPart_iff, isWordStart_iff, isDigit_iff]

theorem IsLetter.not_isDigit (h : IsLetter c) : ¬ IsDigit c := by
  rintro ⟨hlow, hhigh⟩
  simp only [IsLetter, Char.le_def, UInt32.le_iff_toNat_le] at h hlow hhigh
  rcases h with h | h | rfl
  · exact absurd (Nat.le_trans h.1 hhigh) (by decide)
  · exact absurd (Nat.le_trans h.1 hhigh) (by decide)
  · exact absurd hhigh (by decide)

theorem IsDigit.not_mem_separators (h : IsDigit c) : c ∉ separators := by
  intro hmem
  fin_cases hmem <;> exact absurd h (by decide)

theorem IsLetter.not_mem_separators (h : IsLetter c) : c ∉ separators := by
  intro hmem
  fin_cases hmem <;> exact absurd h (by decide)

theorem IsNumeral.exists_cons (h : IsNumeral text) :
    ∃ c rest, text = c :: rest ∧ IsDigit c ∧ ∀ d ∈ rest, IsDigit d := by
  cases text with
  | nil => exact absurd rfl h.1
  | cons c rest => exact ⟨c, rest, rfl, List.forall_mem_cons.1 h.2⟩

theorem IsUnit.ne_nil (h : IsUnit shape text) : text ≠ [] := by
  cases h with
  | separator => simp
  | comment => simp
  | sign h => rintro rfl; simp [signs] at h
  | word => simp
  | whole h => exact h.1
  | fraction => simp
  | string => simp

theorem noUnit_nil : NoUnit [] := by
  intro shape other h hp
  exact h.ne_nil (List.prefix_nil.1 hp)

theorem IsLongest.exists_append (h : IsLongest text s) : ∃ rest, text = s.text ++ rest :=
  h.isPrefix.imp fun _ h => h.symm

theorem IsLongest.not_noUnit (h : IsLongest text s) : ¬ NoUnit text :=
  fun hno => hno _ _ h.isUnit h.isPrefix

theorem IsLongest.text_unique (hs : IsLongest text s) (ht : IsLongest text t) : s.text = t.text :=
  (List.prefix_of_prefix_length_le hs.isPrefix ht.isPrefix
    (ht.longest hs.isUnit hs.isPrefix)).eq_of_length_le (hs.longest ht.isUnit ht.isPrefix)

theorem IsLongest.of_isPrefix (h : IsLongest text s) (hs : s.text <+: rest)
    (hrest : rest <+: text) : IsLongest rest s where
  isUnit := h.isUnit
  isPrefix := hs
  longest := fun hu hp => h.longest hu (hp.trans hrest)

theorem IsUnit.isLongest (h : IsUnit shape text) : IsLongest text ⟨shape, text⟩ where
  isUnit := h
  isPrefix := List.prefix_rfl
  longest := fun _ hp => hp.length_le

theorem IsNumeral.concat (h : IsNumeral text) (hc : IsDigit c) : IsNumeral (text ++ [c]) := by
  refine ⟨by simp, fun d hd => ?_⟩
  rcases List.mem_append.1 hd with hd | hd
  · exact h.2 d hd
  · exact List.mem_singleton.1 hd ▸ hc

theorem Extends.exists_isUnit (h : Extends text rest) :
    ∃ shape more, more ≠ [] ∧ more <+: rest ∧ IsUnit shape (text ++ more) := by
  cases h with
  | @comment body c rest hbody hc =>
    refine ⟨.gap, [c], by simp, ⟨rest, rfl⟩, .comment ?_⟩
    simp [hbody, Ne.symm hc]
  | slash => exact ⟨.gap, ['/'], by simp, ⟨_, rfl⟩, .comment (by simp)⟩
  | @equals c rest hc =>
    have hlong : [c, '='] ∈ signs.map Prod.fst := by fin_cases hc <;> decide
    obtain ⟨⟨_, kind⟩, hsign, rfl⟩ := List.mem_map.1 hlong
    exact ⟨.sign kind, ['='], by simp, ⟨rest, rfl⟩, .sign hsign⟩
  | @word text c rest hword hc =>
    cases hword with
    | @word d body hd hbody =>
      refine ⟨.word, [c], by simp, ⟨rest, rfl⟩, .word hd ?_⟩
      exact List.forall_mem_append.2 ⟨hbody, by simpa using hc⟩
  | @number text c rest hnumber hc =>
    refine ⟨.number, [c], by simp, ⟨rest, rfl⟩, ?_⟩
    cases hnumber with
    | whole htext => exact .whole (htext.concat hc)
    | @fraction text digits htext hdigits =>
      rw [List.append_assoc, List.cons_append]
      exact .fraction htext (hdigits.concat hc)
  | @point text c rest htext hc =>
    exact ⟨.number, ['.', c], by simp, ⟨rest, rfl⟩, .fraction htext ⟨by simp, by simpa using hc⟩⟩

theorem Extends.not_isLongest (h : Extends text rest) :
    ¬ IsLongest (text ++ rest) ⟨shape, text⟩ := by
  intro hlong
  obtain ⟨other, more, hne, hmore, hunit⟩ := h.exists_isUnit
  have hlength : (text ++ more).length ≤ text.length :=
    hlong.longest hunit ((List.prefix_append_right_inj text).2 hmore)
  have hpos := List.length_pos_iff.2 hne
  rw [List.length_append] at hlength
  omega

namespace Munches

theorem noUnit_left (h : Munches text segments left) : NoUnit left := by
  induction h with
  | stop h => exact h
  | take _ _ _ ih => exact ih

theorem text_eq (h : Munches text segments left) :
    text = segments.flatMap Segment.text ++ left := by
  induction h with
  | stop => rfl
  | take htext _ _ ih => rw [htext, List.flatMap_cons, List.append_assoc, ← ih]

theorem isUnit_of_mem (h : Munches text segments left) (hs : s ∈ segments) :
    IsUnit s.shape s.text := by
  induction h with
  | stop => simp at hs
  | take _ hlong _ ih =>
    rcases List.mem_cons.1 hs with rfl | hs
    · exact hlong.isUnit
    · exact ih hs

theorem of_taken (h : Munches text segments left) :
    Munches (segments.flatMap Segment.text) segments [] := by
  induction h with
  | stop => exact .stop noUnit_nil
  | @take text s rest segments left htext hlong hrest ih =>
    refine .take List.flatMap_cons ?_ ih
    have htaken : (s :: segments).flatMap Segment.text <+: text :=
      ⟨left, by rw [htext, List.flatMap_cons, List.append_assoc, ← hrest.text_eq]⟩
    exact hlong.of_isPrefix (by simp) htaken

end Munches

end LoxLexer.Grammar
