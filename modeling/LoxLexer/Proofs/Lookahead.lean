import LoxLexer.Proofs.Run

/-! What text put behind a source can change.  A unit looks one character ahead, or two if the first
is a point, so only what stands at the end of the source is read in another way. -/

namespace LoxLexer

open Grammar

namespace Grammar

/-- What is put behind `rest` lets no unit go on that stands before the end of `rest`. -/
def Detached (rest more : List Char) : Prop :=
  ∀ before text, Extends text (before ++ (rest ++ more)) → Extends text (before ++ rest)

variable {c : Char} {shape : Shape} {text rest more left last : List Char}
  {segments later others : List Segment}

theorem Extends.append_cases (h : Extends text (rest ++ more)) :
    Extends text rest ∨ rest = [] ∨ rest = ['.'] ∧ ∃ c tail, more = c :: tail ∧ IsDigit c := by
  cases rest with
  | nil => exact .inr (.inl rfl)
  | cons c rest =>
    rw [List.cons_append] at h
    generalize hahead : rest ++ more = ahead at h
    cases h with
    | comment hbody hc => exact .inl (.comment hbody hc)
    | slash => exact .inl .slash
    | equals hc => exact .inl (.equals hc)
    | word hword hc => exact .inl (.word hword hc)
    | number hnumber hc => exact .inl (.number hnumber hc)
    | point hdigits hd =>
      cases rest with
      | nil => exact .inr (.inr ⟨rfl, _, _, hahead, hd⟩)
      | cons e rest =>
        obtain rfl := (List.cons.inj hahead).1
        exact .inl (.point hdigits hd)

theorem detached_of_ne (hne : rest ≠ []) (hpoint : rest ≠ ['.']) (more : List Char) :
    Detached rest more := by
  intro before text h
  rw [← List.append_assoc] at h
  rcases h.append_cases with h | h | ⟨h, -⟩
  · exact h
  · exact absurd (List.append_eq_nil_iff.1 h).2 hne
  · rcases List.append_eq_singleton_iff.1 h with ⟨-, h⟩ | ⟨-, h⟩
    · exact absurd h hpoint
    · exact absurd h hne

theorem Munches.append (h : Munches text (segments ++ later) left)
    (hdetached : Detached (later.flatMap Segment.text ++ left) more)
    (hmore : Munches (later.flatMap Segment.text ++ left ++ more) others last) :
    Munches (text ++ more) (segments ++ others) last := by
  induction segments generalizing text with
  | nil =>
    rw [List.nil_append] at h ⊢
    rwa [h.text_eq]
  | cons s segments ih =>
    rw [List.cons_append] at h
    cases h with
    | @take _ _ rest _ _ htext hlong hrest =>
      have hahead : rest =
          segments.flatMap Segment.text ++ (later.flatMap Segment.text ++ left) := by
        rw [hrest.text_eq, List.flatMap_append, List.append_assoc]
      -- The unit stops in front of `rest`, and what could make it go on is at the end of `rest`.
      have hstop : ¬ Extends s.text rest :=
        (hlong.isUnit.isLongest_append_iff rest).1 (htext ▸ hlong)
      have hagain : IsLongest (s.text ++ (rest ++ more)) s := by
        refine (hlong.isUnit.isLongest_append_iff _).2 fun hext => hstop ?_
        rw [hahead, List.append_assoc] at hext
        exact hahead ▸ hdetached _ _ hext
      have hsplit : text ++ more = s.text ++ (rest ++ more) := by
        rw [htext, List.append_assoc]
      exact .take hsplit (hsplit ▸ hagain) (ih hrest)

theorem IsUnit.exists_singleton (h : IsUnit shape (c :: rest)) (hc : c ≠ '"') :
    ∃ one, IsUnit one [c] := by
  generalize htext : c :: rest = text at h
  cases h with
  | separator hsep =>
    obtain ⟨rfl, -⟩ := List.cons.inj htext
    exact ⟨_, .separator hsep⟩
  | comment =>
    obtain ⟨rfl, -⟩ := List.cons.inj htext
    exact ⟨.sign .slash, .sign (by decide)⟩
  | sign hmem =>
    -- No sign of two characters begins with a character that is none by itself.
    have hall : ∀ p ∈ signs, p.1.take 1 ∈ signs.map Prod.fst := by decide
    have hone := hall _ hmem
    rw [← htext] at hone
    obtain ⟨⟨_, kind⟩, hsign, hsame⟩ := List.mem_map.1 hone
    obtain rfl : _ = [c] := hsame
    exact ⟨_, .sign hsign⟩
  | word hletter =>
    obtain ⟨rfl, -⟩ := List.cons.inj htext
    exact ⟨_, .word hletter (by simp)⟩
  | whole hdigits =>
    have hdigit := hdigits.2 c (htext ▸ List.mem_cons_self)
    exact ⟨_, .whole ⟨by simp, by simpa using hdigit⟩⟩
  | fraction hdigits =>
    obtain ⟨d, body, rfl, hdigit, -⟩ := hdigits.exists_cons
    obtain ⟨rfl, -⟩ := List.cons.inj htext
    exact ⟨_, .whole ⟨by simp, by simpa using hdigit⟩⟩
  | string => exact absurd (List.cons.inj htext).1 hc

theorem NoUnit.cons (h : NoUnit (c :: rest)) (hc : c ≠ '"') (more : List Char) :
    NoUnit (c :: more) := by
  intro shape other hunit hprefix
  obtain ⟨d, tail, rfl⟩ := List.exists_cons_of_ne_nil hunit.ne_nil
  obtain ⟨rfl, -⟩ := List.cons_prefix_cons.1 hprefix
  obtain ⟨one, hone⟩ := hunit.exists_singleton hc
  exact h _ _ hone ⟨rest, rfl⟩

theorem NoUnit.ne_point (h : NoUnit text) : text ≠ ['.'] := by
  rintro rfl
  exact h (.sign .dot) ['.'] (.sign (by decide)) List.prefix_rfl

theorem IsUnit.eq_gap_of_getLast? (h : IsUnit shape text) (hlast : text.getLast? = some c)
    (hc : c ∈ separators) : shape = .gap := by
  have hmem := List.mem_of_getLast? hlast
  have hdigit : ¬ IsDigit c := fun h => h.not_mem_separators hc
  have hletter : ¬ IsLetter c := fun h => h.not_mem_separators hc
  cases h with
  | separator => rfl
  | comment => rfl
  | sign hsign =>
    have hall : ∀ p ∈ signs, ∀ d ∈ separators, d ∉ p.1 := by simp [signs, separators]
    exact absurd hmem (hall _ hsign c hc)
  | word hd hbody =>
    rcases List.mem_cons.1 hmem with rfl | hmem
    · exact absurd hd hletter
    · exact absurd (hbody c hmem) (not_or.2 ⟨hletter, hdigit⟩)
  | whole hdigits => exact absurd (hdigits.2 c hmem) hdigit
  | @fraction whole digits hwhole hdigits =>
    have hend : c ∈ digits := by
      rw [List.getLast?_append_cons, List.getLast?_cons_of_ne_nil hdigits.1] at hlast
      exact List.mem_of_getLast? hlast
    exact absurd (hdigits.2 c hend) hdigit
  | string =>
    rw [← List.cons_append, List.getLast?_concat] at hlast
    obtain rfl := Option.some.inj hlast
    exact absurd hc (by decide)

end Grammar

namespace Lexer

variable {source left rest : List Char} {c : Char} {segments later : List Segment}
  {tokens after : List Token} {t : Token} {d : Diagnostic} {fault : Fault}

/-- The units before the last two characters of a source are taken whatever is put behind it. -/
theorem isPrefix_body_of_munches (h : Munches source (segments ++ later) left)
    (hne : later.flatMap Segment.text ++ left ≠ [])
    (hpoint : later.flatMap Segment.text ++ left ≠ ['.']) (more : List Char) :
    Segment.tokensFrom 1 segments <+: (scan (source ++ more)).body := by
  obtain ⟨others, last, hmore⟩ := exists_munches (later.flatMap Segment.text ++ left ++ more)
  have hagain := h.append (detached_of_ne hne hpoint more) hmore
  rw [body_scan hagain, Segment.tokensFrom_append]
  exact List.prefix_append _ _

theorem isPrefix_body_of_eq_append (h : (scan source).body = tokens ++ t :: after)
    (ht : t.kind = .dot → after ≠ []) (more : List Char) :
    tokens <+: (scan (source ++ more)).body := by
  obtain ⟨segments, left, hmunches⟩ := exists_munches source
  rw [body_scan hmunches] at h
  obtain ⟨before, s, later, line, rfl, rfl, htoken, hlater⟩ :=
    Segment.exists_of_tokensFrom_eq_append h
  have hunit : IsUnit s.shape s.text := hmunches.isUnit_of_mem (by simp)
  refine isPrefix_body_of_munches hmunches (by simp [hunit.ne_nil]) ?_ more
  -- If a point is all that is left, then it is the token `t`, with nothing behind it.
  intro hpoint
  rw [List.flatMap_cons, List.append_assoc] at hpoint
  rcases List.append_eq_singleton_iff.1 hpoint with ⟨hnil, -⟩ | ⟨htext, hnil⟩
  · exact hunit.ne_nil hnil
  · cases later with
    | nil =>
      have hshape : s.shape = .sign .dot :=
        Segment.shape_unique (htext ▸ hunit) (.sign (by decide))
      rw [Segment.token?, hshape] at htoken
      obtain rfl := Option.some.inj htoken
      exact ht rfl hlater.symm
    | cons u later =>
      have hnext : IsUnit u.shape u.text := hmunches.isUnit_of_mem (by simp)
      rw [List.flatMap_cons, List.append_assoc] at hnil
      exact hnext.ne_nil (List.append_eq_nil_iff.1 hnil).1

theorem isPrefix_body_of_answer_eq_error (h : (scan source).answer = .error fault)
    (more : List Char) : (scan source).body <+: (scan (source ++ more)).body := by
  obtain ⟨segments, c, rest, hmunches, -⟩ := exists_munches_of_answer_eq_error h
  have hpoint := hmunches.noUnit_left.ne_point
  rw [body_scan hmunches]
  rw [← List.append_nil segments] at hmunches
  exact isPrefix_body_of_munches hmunches (List.cons_ne_nil c rest) hpoint more

theorem isPrefix_body_of_getLast? (h : source.getLast? = some c) (hc : c ∈ separators)
    (more : List Char) : (scan source).body <+: (scan (source ++ more)).body := by
  obtain ⟨segments, left, hmunches⟩ := exists_munches source
  cases left with
  | cons d rest =>
    exact isPrefix_body_of_answer_eq_error (scan_of_munches_cons hmunches).1 more
  | nil =>
    rcases List.eq_nil_or_concat' segments with rfl | ⟨taken, s, rfl⟩
    · rw [hmunches.text_eq] at h
      cases h
    · have hunit : IsUnit s.shape s.text := hmunches.isUnit_of_mem (by simp)
      have hlast : s.text.getLast? = some c := by
        rw [hmunches.text_eq] at h
        simpa [List.getLast?_append, List.getLast?_eq_none_iff, hunit.ne_nil] using h
      have hgap := hunit.eq_gap_of_getLast? hlast hc
      have hbody : (scan source).body = Segment.tokensFrom 1 taken := by
        rw [body_scan hmunches, Segment.tokensFrom_append, Segment.tokensFrom, Segment.token?, hgap]
        exact List.append_nil _
      rw [hbody]
      refine isPrefix_body_of_munches hmunches (by simp [hunit.ne_nil]) ?_ more
      intro hpoint
      have htext : s.text = ['.'] := by simpa using hpoint
      rw [htext] at hlast
      obtain rfl := Option.some.inj hlast
      exact absurd hc (by decide)

theorem code_ofNoUnit (line : Int) (c : Char) (rest : List Char) :
    (Diagnostic.ofNoUnit line (c :: rest)).code =
      some (if c = '"' then "L002".toList else "L001".toList) := by
  by_cases hc : c = '"' <;> simp [Diagnostic.ofNoUnit, hc] <;> rfl

theorem code_of_answer_eq_error (h : (scan source).answer = .error (.lexical d)) :
    d.code = some "L001".toList ∨ d.code = some "L002".toList := by
  obtain ⟨segments, c, rest, -, hfault⟩ := exists_munches_of_answer_eq_error h
  obtain rfl := Fault.lexical.inj hfault
  rw [code_ofNoUnit]
  split
  · exact .inr rfl
  · exact .inl rfl

theorem scan_append_of_code (h : (scan source).answer = .error (.lexical d))
    (hcode : d.code = some "L001".toList) (more : List Char) :
    (scan (source ++ more)).answer = .error (.lexical d) ∧
      (scan (source ++ more)).body = (scan source).body := by
  obtain ⟨segments, c, rest, hmunches, hfault⟩ := exists_munches_of_answer_eq_error h
  obtain rfl := Fault.lexical.inj hfault
  have hc : c ≠ '"' := by
    rintro rfl
    rw [code_ofNoUnit, if_pos rfl] at hcode
    exact absurd hcode (by decide)
  have hno := hmunches.noUnit_left
  have hagain : Munches (source ++ more) segments (c :: (rest ++ more)) := by
    have htaken : Munches source (segments ++ []) (c :: rest) := by
      rwa [List.append_nil]
    simpa using htaken.append (detached_of_ne (List.cons_ne_nil c rest) hno.ne_point more)
      (.stop (hno.cons hc (rest ++ more)))
  refine ⟨?_, by rw [body_scan hagain, body_scan hmunches]⟩
  rw [(scan_of_munches_cons hagain).1]
  simp [Diagnostic.ofNoUnit, hc]

theorem isPrefix_dropLast_dropLast_body (source more : List Char) :
    (scan source).body.dropLast.dropLast <+: (scan (source ++ more)).body := by
  rcases List.eq_nil_or_concat' (scan source).body with hbody | ⟨tokens, t, hbody⟩
  · simp [hbody]
  · rcases List.eq_nil_or_concat' tokens with rfl | ⟨first, u, rfl⟩
    · simp [hbody]
    · have hsplit : (scan source).body = first ++ u :: [t] := by
        rw [hbody, List.append_assoc]
        rfl
      rw [hbody, List.dropLast_concat, List.dropLast_concat]
      exact isPrefix_body_of_eq_append hsplit (fun _ => List.cons_ne_nil t []) more

theorem isPrefix_dropLast_body (h : (scan source).body.getLast?.map Token.kind ≠ some .dot)
    (more : List Char) : (scan source).body.dropLast <+: (scan (source ++ more)).body := by
  rcases List.eq_nil_or_concat' (scan source).body with hbody | ⟨tokens, t, hbody⟩
  · simp [hbody]
  · rw [hbody, List.getLast?_concat] at h
    rw [hbody, List.dropLast_concat]
    exact isPrefix_body_of_eq_append hbody (fun hkind => absurd (congrArg some hkind) h) more

theorem ok_or_code_of_append {more : List Char} (h : (scan (source ++ more)).answer = .ok tokens) :
    (∃ tokens, (scan source).answer = .ok tokens) ∨
      ∃ d, (scan source).answer = .error (.lexical d) ∧ d.code = some "L002".toList := by
  refine (answer_eq_ok_or_error source).imp_right ?_
  rintro ⟨d, hsource⟩
  refine ⟨d, hsource, (code_of_answer_eq_error hsource).resolve_left fun hcode => ?_⟩
  rw [(scan_append_of_code hsource hcode more).1] at h
  cases h

/-- Text put behind a source changes at most the last two tokens of its scan, and only the last one
unless that is a point.  It changes none behind a separator or a failure, and a failure stays,
except where it is a string that is still open. -/
theorem body_append (source more : List Char) :
    (scan source).body.dropLast.dropLast <+: (scan (source ++ more)).body ∧
      ((scan source).body.getLast?.map Token.kind ≠ some .dot →
        (scan source).body.dropLast <+: (scan (source ++ more)).body) ∧
      ((∃ fault, (scan source).answer = .error fault) ∨
          (∃ c ∈ separators, source.getLast? = some c) →
        (scan source).body <+: (scan (source ++ more)).body) ∧
      (∀ d, (scan source).answer = .error (.lexical d) → d.code = some "L001".toList →
        (scan (source ++ more)).answer = .error (.lexical d) ∧
          (scan (source ++ more)).body = (scan source).body) ∧
      ((∃ tokens, (scan (source ++ more)).answer = .ok tokens) →
        (∃ tokens, (scan source).answer = .ok tokens) ∨
          ∃ d, (scan source).answer = .error (.lexical d) ∧ d.code = some "L002".toList) := by
  refine ⟨isPrefix_dropLast_dropLast_body source more, ?_, ?_, ?_, ?_⟩
  · exact fun hlast => isPrefix_dropLast_body hlast more
  · rintro (⟨fault, h⟩ | ⟨c, hc, h⟩)
    · exact isPrefix_body_of_answer_eq_error h more
    · exact isPrefix_body_of_getLast? h hc more
  · exact fun d h hcode => scan_append_of_code h hcode more
  · exact fun ⟨tokens, h⟩ => ok_or_code_of_append h

theorem body_append_point :
    let before := (scan ['1', '.']).body
    let after := (scan (['1', '.'] ++ ['5'])).body
    before.dropLast.dropLast <+: after ∧ ¬ before.dropLast <+: after := by
  intro before after
  refine ⟨(body_append ['1', '.'] ['5']).1, ?_⟩
  decide +kernel

end Lexer

end LoxLexer
