import LoxLexer.Proofs.Quoted
import LoxLexer.Proofs.SingleLine

/-! The texts of a token tell its fields, whatever they are: where a field ends can be told from the
field itself, so what separates the fields may stand in a lexeme or a literal as well. -/

namespace LoxLexer

open Text

variable {sep : Char} {text other rest more : List Char}

theorem Text.append_cons_inj (htext : sep ∉ text) (hother : sep ∉ other)
    (h : text ++ sep :: rest = other ++ sep :: more) : text = other ∧ rest = more := by
  induction text generalizing other with
  | nil =>
    cases other with
    | nil => exact ⟨rfl, (List.cons.inj h).2⟩
    | cons d other => exact absurd ((List.cons.inj h).1 ▸ List.mem_cons_self) hother
  | cons c text ih =>
    cases other with
    | nil => exact absurd ((List.cons.inj h).1 ▸ List.mem_cons_self) htext
    | cons d other =>
      obtain ⟨rfl, hrest⟩ := List.cons.inj h
      obtain ⟨rfl, rfl⟩ := ih (mt (List.mem_cons_of_mem c) htext)
        (mt (List.mem_cons_of_mem c) hother) hrest
      exact ⟨rfl, rfl⟩

theorem Text.numeral_injective : Function.Injective numeral := fun m n h => by
  rw [← numeralValue_numeral m, h, numeralValue_numeral]

theorem Text.signedNumeral_injective : Function.Injective signedNumeral := by
  have hminus : ∀ n text, numeral n ≠ '-' :: text := by
    intro n text h
    have hdigit := (Number.isNumeral_numeral n).2 '-' (h ▸ List.mem_cons_self)
    exact absurd hdigit (by decide)
  intro m n h
  cases m with
  | ofNat m =>
    cases n with
    | ofNat n => exact congrArg Int.ofNat (numeral_injective h)
    | negSucc n => exact absurd h (hminus _ _)
  | negSucc m =>
    cases n with
    | ofNat n => exact absurd h.symm (hminus _ _)
    | negSucc n =>
      have hsucc := numeral_injective (List.cons.inj h).2
      rw [Nat.succ_injective hsucc]

namespace Kind

theorem nodup_names : (all.map fun k => k.name.toList).Nodup := by decide +kernel

theorem eq_of_name_eq {k l : Kind} (h : k.name.toList = l.name.toList) : k = l :=
  List.inj_on_of_nodup_map nodup_names (mem_all k) (mem_all l) h

theorem not_mem_name (k : Kind) :
    '(' ∉ k.name.toList ∧ '[' ∉ k.name.toList ∧ ',' ∉ k.name.toList := by
  cases k <;> decide

theorem name_ne_nil (k : Kind) : k.name.toList ≠ [] := by cases k <;> decide

end Kind

namespace Literal

variable {l m : Literal} {o p : Option Literal}

theorem toText_append_ne {s : List Char} {x : Binary64} :
    (Literal.text s).toText ++ rest ≠ x.toText ++ more := by
  obtain ⟨c, tail, hx, hc⟩ := x.exists_toText_eq_cons
  have hmark : quotationMark s ∉ Number.valueParts := by
    rcases quotationMark_eq_or s with hmark | hmark <;> rw [hmark] <;> decide
  rw [hx]
  exact fun h => hmark ((List.cons.inj h).1 ▸ hc)

theorem toText_append_inj (hsep : sep ∉ Number.valueParts)
    (h : l.toText ++ sep :: rest = m.toText ++ sep :: more) : l = m ∧ rest = more := by
  cases l with
  | text s =>
    cases m with
    | text t =>
      obtain ⟨rfl, hrest⟩ := quoted_append_inj h
      exact ⟨rfl, (List.cons.inj hrest).2⟩
    | number y => exact absurd h toText_append_ne
  | number x =>
    cases m with
    | text t => exact absurd h.symm toText_append_ne
    | number y =>
      obtain ⟨htext, hrest⟩ := append_cons_inj (mt Binary64.mem_valueParts hsep)
        (mt Binary64.mem_valueParts hsep) h
      exact ⟨congrArg number (Binary64.toText_injective htext), hrest⟩

theorem toText_append_ne_none (l : Literal) : l.toText ++ rest ≠ "None".toList ++ more := by
  have hnone : "None".toList = 'N' :: "one".toList := rfl
  rw [hnone]
  cases l with
  | text s =>
    intro h
    have hmark : quotationMark s = 'N' := (List.cons.inj h).1
    rcases quotationMark_eq_or s with hs | hs <;> exact absurd (hs.symm.trans hmark) (by decide)
  | number x =>
    obtain ⟨c, tail, hx, hc⟩ := x.exists_toText_eq_cons
    have hletter : 'N' ∉ Number.valueParts := by decide
    rw [toText, hx]
    exact fun h => hletter ((List.cons.inj h).1 ▸ hc)

theorem optionText_append_inj (hsep : sep ∉ Number.valueParts)
    (h : optionText o ++ sep :: rest = optionText p ++ sep :: more) : o = p ∧ rest = more := by
  cases o with
  | none =>
    cases p with
    | none => exact ⟨rfl, (List.cons.inj (List.append_cancel_left h)).2⟩
    | some m => exact absurd h.symm m.toText_append_ne_none
  | some l =>
    cases p with
    | none => exact absurd h l.toText_append_ne_none
    | some m => exact (toText_append_inj hsep h).imp_left (congrArg some)

end Literal

def Token.payload (t : Token) : Kind × List Char × Option Literal := (t.kind, t.lexeme, t.literal)

namespace Token

variable {t u : Token}

def literalText : Option Literal → List Char
  | none => [')']
  | some l => " -> ".toList ++ (l.toText ++ [')'])

theorem toText_eq (t : Token) :
    t.toText = t.kind.name.toList ++ '(' :: (quoted t.lexeme ++ literalText t.literal) := by
  unfold toText literalText
  cases t.literal <;> simp

theorem literalText_injective : Function.Injective literalText := by
  intro o p h
  cases o with
  | none =>
    cases p with
    | none => rfl
    | some m => exact absurd (List.cons.inj h).1 (by decide)
  | some l =>
    cases p with
    | none => exact absurd (List.cons.inj h).1 (by decide)
    | some m =>
      have htexts := List.append_cancel_left h
      rw [(Literal.toText_append_inj (by decide) htexts).1]

theorem toText_eq_iff : t.toText = u.toText ↔ t.payload = u.payload := by
  constructor
  · intro h
    rw [toText_eq, toText_eq] at h
    obtain ⟨hname, hrest⟩ := append_cons_inj t.kind.not_mem_name.1 u.kind.not_mem_name.1 h
    obtain ⟨hlexeme, hliteral⟩ := quoted_append_inj hrest
    rw [payload, payload, Kind.eq_of_name_eq hname, hlexeme, literalText_injective hliteral]
  · intro h
    obtain ⟨hkind, hlexeme, hliteral⟩ : t.kind = u.kind ∧ t.lexeme = u.lexeme ∧
        t.literal = u.literal := by simpa [payload] using h
    rw [toText_eq, toText_eq, hkind, hlexeme, hliteral]

theorem toFullText_eq (t : Token) :
    t.toFullText = "Token(".toList ++ (t.kind.name.toList ++ ',' :: ' ' :: (quoted t.lexeme ++
      ',' :: ' ' :: (Literal.optionText t.literal ++ ',' :: ' ' ::
        (signedNumeral t.line ++ [')'])))) := by
  have hcomma : ", ".toList = [',', ' '] := rfl
  unfold toFullText
  rw [hcomma]
  simp only [List.append_assoc, List.cons_append, List.nil_append]

theorem toFullText_eq_iff : t.toFullText = u.toFullText ↔ t = u := by
  refine ⟨fun h => ?_, fun h => h ▸ rfl⟩
  rw [toFullText_eq, toFullText_eq] at h
  obtain ⟨hname, hrest⟩ := append_cons_inj t.kind.not_mem_name.2.2 u.kind.not_mem_name.2.2
    (List.append_cancel_left h)
  obtain ⟨hlexeme, hrest⟩ := quoted_append_inj (List.cons.inj hrest).2
  obtain ⟨hliteral, hrest⟩ := Literal.optionText_append_inj (by decide)
    (List.cons.inj (List.cons.inj hrest).2).2
  have hline := signedNumeral_injective (List.append_cancel_right (List.cons.inj hrest).2)
  obtain ⟨kind, lexeme, literal, line⟩ := t
  rw [Token.mk.injEq]
  exact ⟨Kind.eq_of_name_eq hname, hlexeme, hliteral, hline⟩

/-- The full text tells all the fields of a token and the short one all but the line, whatever the
fields are, and no control character is in them. -/
theorem texts_unambiguous (t u : Token) :
    (t.toFullText = u.toFullText ↔ t = u) ∧ (t.toText = u.toText ↔ t.payload = u.payload) ∧
      IsPrintable t.toFullText ∧ IsPrintable t.toText :=
  ⟨toFullText_eq_iff, toText_eq_iff, t.isPrintable_toFullText, t.isPrintable_toText⟩

end Token

end LoxLexer
