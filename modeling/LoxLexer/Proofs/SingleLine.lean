import LoxLexer.Diagnostic
import LoxLexer.Proofs.ReadBack

namespace LoxLexer

namespace Text

def IsControl (c : Char) : Prop := c.toNat < 0x20 ∨ c.toNat = 0x7f

instance : DecidablePred IsControl := fun _ => inferInstanceAs (Decidable (_ ∨ _))

def IsPrintable (text : List Char) : Prop := ∀ c ∈ text, ¬ IsControl c

instance : DecidablePred IsPrintable := fun text =>
  List.decidableBAll (fun c => ¬ IsControl c) text

variable {c mark : Char} {text other : List Char}

@[simp] theorem isPrintable_cons :
    IsPrintable (c :: text) ↔ ¬ IsControl c ∧ IsPrintable text := List.forall_mem_cons

@[simp] theorem isPrintable_append :
    IsPrintable (text ++ other) ↔ IsPrintable text ∧ IsPrintable other := List.forall_mem_append

theorem IsPrintable.newline_not_mem (h : IsPrintable text) : '\n' ∉ text :=
  fun hmem => h _ hmem (by decide)

theorem isPrintable_hex (width n : Nat) : IsPrintable (hex width n) := by
  induction width generalizing n with
  | zero => exact List.forall_mem_nil _
  | succ width ih =>
    have hall : ∀ digit < 16, IsPrintable [Nat.digitChar digit] := by decide
    rw [hex, isPrintable_append]
    exact ⟨ih _, hall _ (Nat.mod_lt n (by decide))⟩

theorem isPrintable_codeEscape (c : Char) : IsPrintable (codeEscape c) := by
  have hletters : ¬ IsControl '\\' ∧ ¬ IsControl 'x' ∧ ¬ IsControl 'u' ∧ ¬ IsControl 'U' := by
    decide
  unfold codeEscape
  split
  · simp [hletters, isPrintable_hex]
  · split <;> simp [hletters, isPrintable_hex]

theorem isPrintable_escape (hmark : ¬ IsControl mark) (c : Char) :
    IsPrintable (escape mark c) := by
  unfold escape
  split
  · next hc =>
    have hback : ¬ IsControl '\\' := by decide
    rcases hc with rfl | rfl <;> simp [hback, hmark, IsPrintable]
  · repeat' split
    · decide
    · decide
    · decide
    · exact isPrintable_codeEscape c
    · next hcontrol =>
      have hc : ¬ IsControl c := fun h => hcontrol (h.imp_right .inl)
      simpa [IsPrintable] using hc

theorem not_isControl_quotationMark (text : List Char) : ¬ IsControl (quotationMark text) := by
  unfold quotationMark
  split <;> decide

theorem isPrintable_quoted (text : List Char) : IsPrintable (quoted text) := by
  have hmark := not_isControl_quotationMark text
  have hbody : IsPrintable (text.flatMap (escape (quotationMark text))) := by
    intro c hc
    obtain ⟨d, -, hd⟩ := List.mem_flatMap.1 hc
    exact isPrintable_escape hmark d c hd
  have hend : IsPrintable [quotationMark text] := List.forall_mem_singleton.2 hmark
  exact isPrintable_append.2 ⟨isPrintable_cons.2 ⟨hmark, hbody⟩, hend⟩

theorem isPrintable_numeral (n : Nat) : IsPrintable (numeral n) := by
  have hall : IsPrintable Number.numberParts := by decide
  exact fun c hc => hall c (Number.mem_numberParts_of_isNumeral (Number.isNumeral_numeral n) hc)

theorem isPrintable_signedNumeral (n : Int) : IsPrintable (signedNumeral n) := by
  cases n with
  | ofNat n => exact isPrintable_numeral n
  | negSucc n => exact List.forall_mem_cons.2 ⟨by decide, isPrintable_numeral _⟩

end Text

open Text

theorem Binary64.isPrintable_toText (x : Binary64) : IsPrintable x.toText := by
  have hall : IsPrintable Number.valueParts := by decide
  exact fun c hc => hall c (mem_valueParts hc)

theorem Literal.isPrintable_toText (l : Literal) : IsPrintable l.toText := by
  cases l with
  | text value => exact isPrintable_quoted value
  | number value => exact value.isPrintable_toText

theorem Kind.isPrintable_name (k : Kind) : IsPrintable k.name.toList := by
  cases k <;> decide

namespace Token

theorem isPrintable_toText (t : Token) : IsPrintable t.toText := by
  have harrow : IsPrintable " -> ".toList := by decide
  have hopen : ¬ IsControl '(' := by decide
  have hclose : IsPrintable [')'] := by decide
  have hfront := isPrintable_append.2
    ⟨t.kind.isPrintable_name, isPrintable_cons.2 ⟨hopen, isPrintable_quoted t.lexeme⟩⟩
  unfold toText
  refine isPrintable_append.2 ⟨hfront, ?_⟩
  split
  · exact hclose
  · next l _ =>
    rw [isPrintable_append, isPrintable_append]
    exact ⟨⟨harrow, l.isPrintable_toText⟩, hclose⟩

theorem isPrintable_toFullText (t : Token) : IsPrintable t.toFullText := by
  have hopen : IsPrintable "Token(".toList := by decide
  have hcomma : IsPrintable ", ".toList := by decide
  have hclose : IsPrintable [')'] := by decide
  have hliteral : IsPrintable (Literal.optionText t.literal) := by
    cases t.literal with
    | none => decide
    | some l => exact l.isPrintable_toText
  unfold toFullText
  simp only [isPrintable_append]
  exact ⟨⟨⟨⟨⟨⟨⟨⟨hopen, t.kind.isPrintable_name⟩, hcomma⟩, isPrintable_quoted t.lexeme⟩, hcomma⟩,
    hliteral⟩, hcomma⟩, isPrintable_signedNumeral t.line⟩, hclose⟩

theorem newline_not_mem_toText (t : Token) : '\n' ∉ t.toText :=
  t.isPrintable_toText.newline_not_mem

end Token

theorem Diagnostic.newline_not_mem_toText {d : Diagnostic} (hplace : '\n' ∉ d.place)
    (h : '\n' ∉ d.message) : '\n' ∉ d.toText := by
  have hline := List.not_mem_append (by decide : '\n' ∉ "[line ".toList)
    (isPrintable_signedNumeral d.line).newline_not_mem
  have herror := List.not_mem_append hline (by decide : '\n' ∉ "] Error ".toList)
  have hcolon := List.not_mem_append (List.not_mem_append herror hplace)
    (by decide : '\n' ∉ ": ".toList)
  exact List.not_mem_append hcolon h

end LoxLexer
