import LoxLexer.Proofs.Grammar

/-! What is cut off at the front of a text is its longest unit, and a fault is found just where no
unit begins the text. -/

namespace LoxLexer

open Grammar Text

def Shape.isFault : Shape → Bool
  | .openString | .stray => true
  | .gap | .sign _ | .string | .number | .word => false

namespace Segment

variable {c : Char} {shape : Shape} {text rest tail digits body : List Char} {s : Segment}

theorem front_of_isLetter_or_isDigit (h : IsLetter c ∨ IsDigit c) (rest : List Char) :
    front c rest =
      if c.isDigit then ⟨.number, c :: numberPrefix rest⟩
      else if isWordStart c then ⟨.word, c :: wordPrefix rest⟩
      else ⟨.stray, [c]⟩ := by
  have hne : ∀ d, ¬ (IsLetter d ∨ IsDigit d) → c ≠ d := by
    rintro d hd rfl
    exact hd h
  have hsingle : Sign.single? c = none := by
    unfold Sign.single?
    split <;> first | rfl | exact absurd h (by decide)
  have hextensible : Sign.extensible? c = none := by
    unfold Sign.extensible?
    split <;> first | rfl | exact absurd h (by decide)
  simp [front, hsingle, hextensible, isBlank, hne '/' (by decide), hne '\n' (by decide),
    hne '"' (by decide), hne ' ' (by decide), hne '\r' (by decide), hne '\t' (by decide)]

theorem front_of_isLetter (h : IsLetter c) (rest : List Char) :
    front c rest = ⟨.word, c :: wordPrefix rest⟩ := by
  have hdigit : ¬ c.isDigit = true := fun hd => h.not_isDigit (isDigit_iff.1 hd)
  rw [front_of_isLetter_or_isDigit (.inl h), if_neg hdigit, if_pos (isWordStart_iff.2 h)]

theorem front_of_isDigit (h : IsDigit c) (rest : List Char) :
    front c rest = ⟨.number, c :: numberPrefix rest⟩ := by
  rw [front_of_isLetter_or_isDigit (.inr h), if_pos (isDigit_iff.2 h)]

theorem front_of_single {kind : Kind} (h : Sign.single? c = some kind) (rest : List Char) :
    front c rest = ⟨.sign kind, [c]⟩ := by
  simp [front, h]

theorem front_of_extensible {short long : Kind} (h : Sign.extensible? c = some (short, long))
    (rest : List Char) :
    front c rest =
      if rest.head? = some '=' then ⟨.sign long, [c, '=']⟩ else ⟨.sign short, [c]⟩ := by
  have hsingle : Sign.single? c = none := by
    unfold Sign.extensible? at h
    split at h <;> first | rfl | simp at h
  simp [front, hsingle, h]

theorem front_of_mem_separators (h : c ∈ separators) (rest : List Char) :
    front c rest = ⟨.gap, [c]⟩ := by
  simp only [separators, List.mem_cons, List.not_mem_nil, or_false] at h
  rcases h with rfl | rfl | rfl | rfl <;> rfl

theorem wordPrefix_append (h : ∀ d ∈ body, IsLetter d ∨ IsDigit d) (rest : List Char) :
    wordPrefix (body ++ rest) = body ++ wordPrefix rest :=
  List.takeWhile_append_of_pos fun d hd => isWordPart_iff_isLetter.2 (h d hd)

theorem numberPrefix_append (h : ∀ d ∈ digits, IsDigit d) (rest : List Char) :
    numberPrefix (digits ++ rest) = digits ++ numberPrefix rest := by
  have hdigits : ∀ d ∈ digits, d.isDigit = true := fun d hd => isDigit_iff.2 (h d hd)
  rw [numberPrefix, List.takeWhile_append_of_pos hdigits, List.dropWhile_append_of_pos hdigits,
    List.append_assoc]
  rfl

theorem numberPrefix_point (h : IsNumeral digits) (rest : List Char) :
    numberPrefix ('.' :: (digits ++ rest)) = '.' :: (digits ++ rest.takeWhile Char.isDigit) := by
  have hdigits : ∀ d ∈ digits, d.isDigit = true := fun d hd => isDigit_iff.2 (h.2 d hd)
  have hpoint : Char.isDigit '.' = false := rfl
  simp [numberPrefix, fractionPrefix, hpoint, List.takeWhile_append_of_pos hdigits, h.1]

theorem closedPrefix?_append (h : '"' ∉ body) (rest : List Char) :
    closedPrefix? (body ++ '"' :: rest) = some (body ++ ['"']) := by
  have hbody : ∀ d ∈ body, decide (d ≠ '"') = true := by
    intro d hd
    exact decide_eq_true fun heq => h (heq ▸ hd)
  rw [closedPrefix?, if_pos (by simp), List.takeWhile_append_of_pos hbody]
  simp

theorem linePrefix_append (h : '\n' ∉ body) (rest : List Char) :
    linePrefix (body ++ rest) = body ++ linePrefix rest := by
  apply List.takeWhile_append_of_pos
  intro d hd
  exact decide_eq_true fun heq => h (heq ▸ hd)

theorem sign_cases {kind : Kind} (h : (text, kind) ∈ signs) :
    (∃ c, text = [c] ∧ Sign.single? c = some kind) ∨
      (∃ c short long, Sign.extensible? c = some (short, long) ∧
        (text = [c] ∧ kind = short ∨ text = [c, '='] ∧ kind = long)) ∨
      text = ['/'] ∧ kind = .slash := by
  simp only [signs, List.mem_cons, List.not_mem_nil, or_false, Prod.mk.injEq] at h
  rcases h with h | h | h | h | h | h | h | h | h | h | h | h | h | h | h | h | h | h | h <;>
    obtain ⟨rfl, rfl⟩ := h <;> simp [Sign.single?, Sign.extensible?]

theorem mem_signs_of_single {kind : Kind} (h : Sign.single? c = some kind) :
    ([c], kind) ∈ signs := by
  unfold Sign.single? at h
  split at h <;> first | simp at h; subst h; decide | simp at h

theorem mem_signs_of_extensible {short long : Kind}
    (h : Sign.extensible? c = some (short, long)) :
    ([c], short) ∈ signs ∧ ([c, '='], long) ∈ signs := by
  unfold Sign.extensible? at h
  split at h <;> simp at h <;> obtain ⟨rfl, rfl⟩ := h <;> decide

theorem extends_of_wordPrefix (h : IsUnit .word text) (hrest : wordPrefix rest ≠ []) :
    Extends text rest := by
  cases rest with
  | nil => exact absurd rfl hrest
  | cons d rest =>
    refine .word h (isWordPart_iff_isLetter.1 ?_)
    by_contra hd
    exact hrest (List.takeWhile_cons_of_neg hd)

theorem extends_of_takeWhile_isDigit (h : IsUnit .number text)
    (hrest : rest.takeWhile Char.isDigit ≠ []) : Extends text rest := by
  cases rest with
  | nil => exact absurd rfl hrest
  | cons d rest =>
    refine .number h (isDigit_iff.1 ?_)
    by_contra hd
    exact hrest (List.takeWhile_cons_of_neg hd)

theorem extends_of_numberPrefix (h : IsNumeral text) (hrest : numberPrefix rest ≠ []) :
    Extends text rest := by
  cases rest with
  | nil => exact absurd rfl hrest
  | cons d rest =>
    by_cases hd : d.isDigit
    · exact .number (.whole h) (isDigit_iff.1 hd)
    · rw [numberPrefix, List.takeWhile_cons_of_neg hd, List.dropWhile_cons_of_neg hd,
        List.nil_append] at hrest
      unfold fractionPrefix at hrest
      split at hrest
      · next more heq =>
        obtain ⟨rfl, rfl⟩ := List.cons.inj heq
        cases rest with
        | nil => exact absurd rfl hrest
        | cons e rest =>
          refine .point h (isDigit_iff.1 ?_)
          by_contra he
          exact hrest (if_pos (List.takeWhile_cons_of_neg he))
      · exact absurd rfl hrest

theorem extends_of_linePrefix (h : '\n' ∉ body) (hrest : linePrefix rest ≠ []) :
    Extends ('/' :: '/' :: body) rest := by
  cases rest with
  | nil => exact absurd rfl hrest
  | cons d rest =>
    refine .comment h fun hd => hrest ?_
    rw [hd]
    rfl

theorem mem_of_extensible {short long : Kind} (h : Sign.extensible? c = some (short, long)) :
    c ∈ ['!', '=', '<', '>'] := by
  unfold Sign.extensible? at h
  split at h <;> first | decide | cases h

/-- Whatever follows a unit, at least the unit is cut off.  If nothing more is, it is cut off as
what it is, and if more is, what follows lets it go on. -/
theorem front_append (h : IsUnit shape (c :: tail)) (rest : List Char) :
    ∃ s more, front c (tail ++ rest) = ⟨s, c :: tail ++ more⟩ ∧ s.isFault = false ∧
      (more = [] → s = shape) ∧ (more ≠ [] → Extends (c :: tail) rest) := by
  generalize htext : c :: tail = text at h
  cases h with
  | separator hc =>
    obtain ⟨rfl, rfl⟩ := List.cons.inj htext
    exact ⟨.gap, [], front_of_mem_separators hc _, rfl, fun _ => rfl, absurd rfl⟩
  | @comment body hbody =>
    obtain ⟨rfl, rfl⟩ := List.cons.inj htext
    refine ⟨.gap, linePrefix rest, ?_, rfl, fun _ => rfl, extends_of_linePrefix hbody⟩
    change ofSlash ('/' :: (body ++ rest)) = _
    simp [ofSlash, linePrefix_append hbody]
  | @sign _ kind hmem =>
    rcases sign_cases hmem with
      ⟨d, rfl, hd⟩ | ⟨d, short, long, hd, ⟨rfl, rfl⟩ | ⟨rfl, rfl⟩⟩ | ⟨rfl, rfl⟩
    · obtain ⟨rfl, rfl⟩ := List.cons.inj htext
      exact ⟨.sign kind, [], front_of_single hd _, rfl, fun _ => rfl, absurd rfl⟩
    · obtain ⟨rfl, rfl⟩ := List.cons.inj htext
      by_cases hequals : rest.head? = some '='
      · obtain ⟨more, rfl⟩ := List.head?_eq_some_iff.1 hequals
        exact ⟨.sign long, ['='], by simp [front_of_extensible hd], rfl, by simp,
          fun _ => .equals (mem_of_extensible hd)⟩
      · exact ⟨.sign kind, [], by simp [front_of_extensible hd, hequals], rfl, fun _ => rfl,
          absurd rfl⟩
    · obtain ⟨rfl, rfl⟩ := List.cons.inj htext
      exact ⟨.sign kind, [], by simp [front_of_extensible hd], rfl, fun _ => rfl, absurd rfl⟩
    · obtain ⟨rfl, rfl⟩ := List.cons.inj htext
      by_cases hslash : ∃ line, rest = '/' :: line
      · obtain ⟨line, rfl⟩ := hslash
        exact ⟨.gap, '/' :: linePrefix line, rfl, rfl, by simp, fun _ => .slash⟩
      · refine ⟨.sign .slash, [], ?_, rfl, fun _ => rfl, absurd rfl⟩
        change ofSlash rest = _
        unfold ofSlash
        split
        · next line => exact absurd ⟨line, rfl⟩ hslash
        · rfl
  | word hc hbody =>
    obtain ⟨rfl, rfl⟩ := List.cons.inj htext
    refine ⟨.word, wordPrefix rest, ?_, rfl, fun _ => rfl,
      extends_of_wordPrefix (.word hc hbody)⟩
    simp [front_of_isLetter hc, wordPrefix_append hbody]
  | whole hdigits =>
    obtain ⟨d, body, rfl, hd, hbody⟩ := hdigits.exists_cons
    obtain ⟨rfl, rfl⟩ := List.cons.inj htext
    refine ⟨.number, numberPrefix rest, ?_, rfl, fun _ => rfl, extends_of_numberPrefix hdigits⟩
    simp [front_of_isDigit hd, numberPrefix_append hbody]
  | fraction hdigits hmore =>
    have hnumber := IsUnit.fraction hdigits hmore
    obtain ⟨d, body, rfl, hd, hbody⟩ := hdigits.exists_cons
    obtain ⟨rfl, rfl⟩ := List.cons.inj htext
    refine ⟨.number, rest.takeWhile Char.isDigit, ?_, rfl, fun _ => rfl,
      extends_of_takeWhile_isDigit hnumber⟩
    simp [front_of_isDigit hd, numberPrefix_append hbody, numberPrefix_point hmore]
  | @string body hbody =>
    obtain ⟨rfl, rfl⟩ := List.cons.inj htext
    refine ⟨.string, [], ?_, rfl, fun _ => rfl, absurd rfl⟩
    change ofString (body ++ ['"'] ++ rest) = _
    simp [ofString, ofStringBody, closedPrefix?_append hbody]

theorem isUnit_ofSlash (rest : List Char) :
    IsUnit (ofSlash rest).shape (ofSlash rest).text := by
  unfold ofSlash
  split
  · refine .comment fun hmem => ?_
    have := List.mem_takeWhile_imp hmem
    simp at this
  · exact .sign (by decide)

theorem isUnit_numberPrefix (h : IsDigit c) (rest : List Char) :
    IsUnit .number (c :: numberPrefix rest) := by
  have hdigits : ∀ text : List Char, ∀ d ∈ text.takeWhile Char.isDigit, IsDigit d :=
    fun _ _ hd => isDigit_iff.1 (List.mem_takeWhile_imp hd)
  have hwhole : IsNumeral (c :: rest.takeWhile Char.isDigit) :=
    ⟨by simp, List.forall_mem_cons.2 ⟨h, hdigits rest⟩⟩
  unfold numberPrefix fractionPrefix
  split
  · next more _ =>
    by_cases hmore : more.takeWhile Char.isDigit = []
    · simpa [hmore] using IsUnit.whole hwhole
    · simpa [hmore] using IsUnit.fraction hwhole ⟨hmore, hdigits more⟩
  · simpa using IsUnit.whole hwhole

theorem isUnit_wordPrefix (h : IsLetter c) (rest : List Char) :
    IsUnit .word (c :: wordPrefix rest) :=
  .word h fun _ hd => isWordPart_iff_isLetter.1 (List.mem_takeWhile_imp hd)

theorem isUnit_ofString (h : '"' ∈ rest) :
    (ofString rest).shape = .string ∧ IsUnit .string (ofString rest).text := by
  have hquote : '"' ∉ rest.takeWhile (· ≠ '"') := by
    intro hmem
    have := List.mem_takeWhile_imp hmem
    simp at this
  simpa [ofString, ofStringBody, closedPrefix?, h] using IsUnit.string hquote

theorem front_cases (c : Char) (rest : List Char) :
    (front c rest).shape.isFault = false ∧ IsUnit (front c rest).shape (front c rest).text ∨
      c = '"' ∧ '"' ∉ rest ∧ front c rest = ⟨.openString, c :: rest⟩ ∨
      c ≠ '"' ∧ front c rest = ⟨.stray, [c]⟩ := by
  unfold front
  split
  · next h => exact .inl ⟨rfl, .sign (mem_signs_of_single h)⟩
  · next h =>
    split
    · exact .inl ⟨rfl, .sign (mem_signs_of_extensible h).2⟩
    · exact .inl ⟨rfl, .sign (mem_signs_of_extensible h).1⟩
  · split
    · refine .inl ⟨?_, isUnit_ofSlash rest⟩
      unfold ofSlash
      split <;> rfl
    · split
      · next h => exact .inl ⟨rfl, .separator (by simp [separators, isBlank] at h ⊢; grind)⟩
      · split
        · next h =>
          by_cases hquote : '"' ∈ rest
          · obtain ⟨hshape, hunit⟩ := isUnit_ofString hquote
            exact .inl (hshape ▸ ⟨rfl, hunit⟩)
          · refine .inr (.inl ⟨h, hquote, ?_⟩)
            simp [ofString, ofStringBody, closedPrefix?, hquote, h]
        · next hne =>
          split
          · next h => exact .inl ⟨rfl, isUnit_numberPrefix (isDigit_iff.1 h) rest⟩
          · split
            · next h => exact .inl ⟨rfl, isUnit_wordPrefix (isWordStart_iff.1 h) rest⟩
            · exact .inr (.inr ⟨hne, rfl⟩)

theorem length_le_front (h : IsUnit shape text) (hp : text <+: c :: rest) :
    (front c rest).shape.isFault = false ∧ text.length ≤ (front c rest).text.length := by
  obtain ⟨d, tail, rfl⟩ := List.exists_cons_of_ne_nil h.ne_nil
  obtain ⟨more, hmore⟩ := hp
  rw [List.cons_append] at hmore
  obtain ⟨rfl, rfl⟩ := List.cons.inj hmore
  obtain ⟨s, extra, hfront, hfault, -, -⟩ := front_append h more
  exact ⟨by rw [hfront]; exact hfault, by simp [hfront]⟩

theorem isLongest_front (h : (front c rest).shape.isFault = false) :
    IsLongest (c :: rest) (front c rest) where
  isUnit := by
    rcases front_cases c rest with ⟨-, hunit⟩ | ⟨-, -, hfront⟩ | ⟨-, hfront⟩
    · exact hunit
    · rw [hfront] at h
      cases h
    · rw [hfront] at h
      cases h
  isPrefix := front_isPrefix c rest
  longest := fun hu hp => (length_le_front hu hp).2

theorem noUnit_iff_isFault_front : NoUnit (c :: rest) ↔ (front c rest).shape.isFault = true := by
  constructor
  · intro h
    by_contra hfault
    exact (isLongest_front (Bool.eq_false_iff.2 hfault)).not_noUnit h
  · intro h shape other hu hp
    rw [(length_le_front hu hp).1] at h
    cases h

theorem shape_unique {other : Shape} (h : IsUnit shape text) (hother : IsUnit other text) :
    shape = other := by
  obtain ⟨c, tail, rfl⟩ := List.exists_cons_of_ne_nil h.ne_nil
  have hfront : ∀ {one}, IsUnit one (c :: tail) → (front c tail).shape = one := by
    intro one hone
    obtain ⟨s, extra, hfront, -, hshape, -⟩ := front_append hone []
    have hlength := (front_isPrefix c tail).length_le
    rw [List.append_nil] at hfront
    rw [hfront] at hlength ⊢
    rw [List.length_append] at hlength
    exact hshape (List.eq_nil_of_length_eq_zero (by omega))
  exact (hfront h).symm.trans (hfront hother)

end Segment

namespace Grammar

variable {c : Char} {shape : Shape} {text rest left others : List Char} {s t : Segment}
  {segments more : List Segment}

theorem IsLongest.unique (hs : IsLongest text s) (ht : IsLongest text t) : s = t := by
  have htext := hs.text_unique ht
  obtain ⟨shape, u⟩ := s
  obtain ⟨other, v⟩ := t
  obtain rfl : u = v := htext
  exact congrArg (Segment.mk · u) (Segment.shape_unique hs.isUnit ht.isUnit)

theorem IsLongest.front_eq (h : IsLongest (c :: rest) s) : Segment.front c rest = s :=
  (Segment.isLongest_front (Segment.length_le_front h.isUnit h.isPrefix).1).unique h

theorem isLongest_of_mem_separators (h : c ∈ separators) (rest : List Char) :
    IsLongest (c :: rest) ⟨.gap, [c]⟩ := by
  have hfront := Segment.front_of_mem_separators h rest
  rw [← hfront]
  exact Segment.isLongest_front (by rw [hfront]; rfl)

/-- A unit is the longest one just when what follows does not let it go on. -/
theorem IsUnit.isLongest_append_iff (h : IsUnit shape text) (rest : List Char) :
    IsLongest (text ++ rest) ⟨shape, text⟩ ↔ ¬ Extends text rest := by
  constructor
  · exact fun hlong hext => hext.not_isLongest hlong
  · intro hext
    obtain ⟨c, tail, rfl⟩ := List.exists_cons_of_ne_nil h.ne_nil
    obtain ⟨s, more, hfront, hfault, hshape, hmore⟩ := Segment.front_append h rest
    obtain rfl : more = [] := by
      by_contra hne
      exact hext (hmore hne)
    obtain rfl := hshape rfl
    rw [List.append_nil] at hfront
    have hlong : IsLongest (c :: (tail ++ rest)) (Segment.front c (tail ++ rest)) :=
      Segment.isLongest_front (by rwa [hfront])
    rwa [hfront] at hlong

theorem noUnit_or_isLongest (text : List Char) : NoUnit text ∨ ∃ s, IsLongest text s := by
  cases text with
  | nil => exact .inl noUnit_nil
  | cons c rest =>
    cases hfault : (Segment.front c rest).shape.isFault with
    | true => exact .inl (Segment.noUnit_iff_isFault_front.2 hfault)
    | false => exact .inr ⟨_, Segment.isLongest_front hfault⟩

theorem Extends.exists_isLongest (h : Extends text rest) (hunit : IsUnit shape text) :
    ∃ other more, more ≠ [] ∧ IsLongest (text ++ rest) ⟨other, text ++ more⟩ := by
  rcases noUnit_or_isLongest (text ++ rest) with hno | ⟨⟨other, longer⟩, hlong⟩
  · exact absurd (List.prefix_append text rest) (hno _ _ hunit)
  · obtain ⟨more, rfl⟩ := List.prefix_of_prefix_length_le (List.prefix_append text rest)
      hlong.isPrefix (hlong.longest hunit (List.prefix_append text rest))
    refine ⟨other, more, ?_, hlong⟩
    rintro rfl
    rw [List.append_nil] at hlong
    exact h.not_isLongest hlong

theorem exists_munches (text : List Char) : ∃ segments left, Munches text segments left := by
  induction hlength : text.length using Nat.strongRecOn generalizing text with
  | ind n ih =>
    rcases noUnit_or_isLongest text with hno | ⟨s, hlong⟩
    · exact ⟨[], text, .stop hno⟩
    · obtain ⟨rest, htext⟩ := hlong.exists_append
      have hpos := List.length_pos_iff.2 hlong.isUnit.ne_nil
      have hshorter : rest.length < n := by
        rw [← hlength, htext, List.length_append]
        omega
      obtain ⟨segments, left, hrest⟩ := ih rest.length hshorter rest rfl
      exact ⟨s :: segments, left, .take htext hlong hrest⟩

theorem Munches.of_isLongest (h : Munches text segments left) (hlong : IsLongest text s)
    (htext : text = s.text ++ rest) :
    ∃ more, segments = s :: more ∧ Munches rest more left := by
  cases h with
  | stop hno => exact absurd hno hlong.not_noUnit
  | take htaken hfirst hrest =>
    obtain rfl := hfirst.unique hlong
    obtain rfl := List.append_cancel_left (htaken.symm.trans htext)
    exact ⟨_, rfl, hrest⟩

theorem Munches.unique (h : Munches text segments left) (hother : Munches text more others) :
    segments = more ∧ left = others := by
  induction h generalizing more with
  | stop hno =>
    cases hother with
    | stop => exact ⟨rfl, rfl⟩
    | take _ hlong => exact absurd hno hlong.not_noUnit
  | take htext hlong _ ih =>
    obtain ⟨later, rfl, hrest⟩ := hother.of_isLongest hlong htext
    obtain ⟨rfl, rfl⟩ := ih hrest
    exact ⟨rfl, rfl⟩

end Grammar

end LoxLexer
