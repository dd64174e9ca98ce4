import LoxLexer.Lexer.Unit
import LoxLexer.Proofs.Front

/-! Reading taken apart into single moves.  Where a segment is cut off as a whole, the characters
are also consumed one by one, by loops that look at the next character, which is U+0000 at the end
of the source.  Both come to the same, also where U+0000 stands in the source. -/

namespace LoxLexer

open Grammar Segment Text

namespace Lexer

/-- A loop with the number of its turns.  It asks before each turn whether to go on. -/
inductive Loops (goesOn : Lexer → Except Fault Bool) (turn : Lexer → Outcome Unit) :
    Nat → Lexer → Outcome Unit → Prop
  | stop {x} : goesOn x = .ok false → Loops goesOn turn 0 x ⟨.ok (), x, []⟩
  | blocked {x fault} : goesOn x = .error fault → Loops goesOn turn 0 x ⟨.error fault, x, []⟩
  | fail {x fault} : goesOn x = .ok true → (turn x).answer = .error fault →
      Loops goesOn turn 1 x (turn x)
  | again {x n o} : goesOn x = .ok true → (turn x).answer = .ok () →
      Loops goesOn turn n (turn x).lexer o →
      Loops goesOn turn (n + 1) x { o with notices := (turn x).notices ++ o.notices }

inductive Stretch
  | comment
  | string
  | digits
  | word
  deriving DecidableEq, Repr

namespace Stretch

def includes : Stretch → Char → Bool
  | comment, c => c ≠ '\n'
  | string, c => c ≠ '"'
  | digits, c => c.isDigit
  | word, c => isWordPart c

/-- A comment and a string may hold U+0000, so that the end has to be asked for. -/
def goesOn (s : Stretch) (x : Lexer) : Except Fault Bool :=
  x.firstAhead.map fun c =>
    match s with
    | comment | string => s.includes c && !x.atEnd
    | digits | word => s.includes c

end Stretch

def consume (x : Lexer) : Outcome Unit := x.next.map fun _ => ()

def Passes (s : Stretch) (n : Nat) (x y : Lexer) : Prop :=
  Loops s.goesOn consume n x ⟨.ok (), y, []⟩

def behind (s : Stretch) (x : Lexer) : Lexer := x.pass (x.rest.takeWhile s.includes)

def IsBeforeFraction (x : Lexer) : Prop :=
  x.firstAhead = .ok '.' ∧ ∃ c, x.secondAhead = .ok c ∧ IsDigit c

inductive ReadsWord (x : Lexer) : Outcome Unit → Prop
  | word {n y} : Passes .word n x y →
      ReadsWord x ⟨.ok (), y.emit (Kind.ofWord y.lexeme) none, []⟩

inductive ReadsNumber (x : Lexer) : Outcome Unit → Prop
  | whole {n y} : Passes .digits n x y → ¬ y.IsBeforeFraction → ReadsNumber x y.emitNumber
  | fraction {n m y z w} : Passes .digits n x y → y.IsBeforeFraction →
      y.next = ⟨.ok '.', z, []⟩ → Passes .digits m z w → ReadsNumber x w.emitNumber

inductive ReadsString (accepts : Bool) (x : Lexer) : Outcome Unit → Prop
  | unterminated {n y} : Passes .string n x y → y.atEnd = true →
      ReadsString accepts x (y.stop accepts (.unterminatedString y.line))
  | closed {n y z c} : Passes .string n x y → ¬ y.atEnd = true → y.next = ⟨.ok c, z, []⟩ →
      ReadsString accepts x ⟨.ok (), z.emit .string (some (.text z.innerLexeme)), []⟩

inductive ReadsUnit (accepts : Bool) (x : Lexer) : Outcome Unit → Prop
  | missing {fault y} : x.next = ⟨.error fault, y, []⟩ →
      ReadsUnit accepts x ⟨.error fault, y, []⟩
  | single {c y kind} : x.next = ⟨.ok c, y, []⟩ → Sign.single? c = some kind →
      ReadsUnit accepts x ⟨.ok (), y.emit kind none, []⟩
  | extensible {c y z short long isLong} : x.next = ⟨.ok c, y, []⟩ →
      Sign.extensible? c = some (short, long) → y.accept ['='] = ⟨.ok isLong, z, []⟩ →
      ReadsUnit accepts x ⟨.ok (), z.emit (if isLong then long else short) none, []⟩
  | slash {y z} : x.next = ⟨.ok '/', y, []⟩ → y.accept ['/'] = ⟨.ok false, z, []⟩ →
      ReadsUnit accepts x ⟨.ok (), z.emit .slash none, []⟩
  | comment {n y z w} : x.next = ⟨.ok '/', y, []⟩ → y.accept ['/'] = ⟨.ok true, z, []⟩ →
      Passes .comment n z w → ReadsUnit accepts x ⟨.ok (), w, []⟩
  | separator {c y} : x.next = ⟨.ok c, y, []⟩ → c ∈ separators →
      ReadsUnit accepts x ⟨.ok (), y, []⟩
  | string {y o} : x.next = ⟨.ok '"', y, []⟩ → ReadsString accepts y o → ReadsUnit accepts x o
  | number {c y o} : x.next = ⟨.ok c, y, []⟩ → IsDigit c → ReadsNumber y o →
      ReadsUnit accepts x o
  | word {c y o} : x.next = ⟨.ok c, y, []⟩ → IsLetter c → ReadsWord y o → ReadsUnit accepts x o
  | stray {c y} : x.next = ⟨.ok c, y, []⟩ → Sign.single? c = none → Sign.extensible? c = none →
      c ∉ ['/', '"'] → c ∉ separators → ¬ IsDigit c → ¬ IsLetter c →
      ReadsUnit accepts x (y.stop accepts (.unexpectedCharacter y.line))

variable {accepts : Bool} {x y z : Lexer} {c : Char} {n m : Nat} {text rest body : List Char}
  {s : Stretch} {o p : Outcome Unit} {goesOn : Lexer → Except Fault Bool}
  {turn : Lexer → Outcome Unit}

theorem Loops.unique (h : Loops goesOn turn n x o) (hother : Loops goesOn turn m x p) :
    n = m ∧ o = p := by
  induction h generalizing m p with
  | stop hstop =>
    cases hother with
    | stop => exact ⟨rfl, rfl⟩
    | blocked hblocked => cases hstop.symm.trans hblocked
    | fail hgo => cases hstop.symm.trans hgo
    | again hgo => cases hstop.symm.trans hgo
  | blocked hblocked =>
    cases hother with
    | stop hstop => cases hblocked.symm.trans hstop
    | blocked hsame =>
      cases hblocked.symm.trans hsame
      exact ⟨rfl, rfl⟩
    | fail hgo => cases hblocked.symm.trans hgo
    | again hgo => cases hblocked.symm.trans hgo
  | fail hgo hfault =>
    cases hother with
    | stop hstop => cases hgo.symm.trans hstop
    | blocked hblocked => cases hgo.symm.trans hblocked
    | fail => exact ⟨rfl, rfl⟩
    | again _ hok => cases hfault.symm.trans hok
  | again hgo hok _ ih =>
    cases hother with
    | stop hstop => cases hgo.symm.trans hstop
    | blocked hblocked => cases hgo.symm.trans hblocked
    | fail _ hfault => cases hok.symm.trans hfault
    | again _ _ hlater =>
      obtain ⟨rfl, rfl⟩ := ih hlater
      exact ⟨rfl, rfl⟩

theorem next_of_rest_eq_nil (h : x.rest = []) : x.next = ⟨.error x.missing, x, []⟩ := by
  simp [next, h]

theorem next_of_rest (h : x.rest = c :: rest) : x.next = ⟨.ok c, x.pass [c], []⟩ := by
  simp [next, h]

theorem exists_rest_of_next (h : x.next = ⟨.ok c, y, []⟩) :
    ∃ rest, x.rest = c :: rest ∧ y = x.pass [c] := by
  cases hrest : x.rest with
  | nil =>
    rw [next_of_rest_eq_nil hrest] at h
    cases h
  | cons d rest =>
    rw [next_of_rest hrest] at h
    cases h
    exact ⟨rest, rfl, rfl⟩

theorem accept_of_ne_newline (hc : 0 ≤ x.cursor) (h : c ≠ '\n') :
    x.accept [c] =
      if x.rest.head? = some c then ⟨.ok true, x.pass [c], []⟩ else ⟨.ok false, x, []⟩ := by
  rw [accept, ahead_of_nonneg hc]
  cases hrest : x.rest with
  | nil => simp
  | cons d rest =>
    by_cases hd : d = c
    · simp [hd, pass, h]
    · simp [hd, Ne.symm hd]

/-- Neither the character at the end nor one like it in the source leads the loop astray. -/
theorem goesOn_of_nonneg (s : Stretch) (hc : 0 ≤ x.cursor) :
    s.goesOn x = .ok (x.rest.head?.any s.includes) := by
  have hend := atEnd_iff hc
  rw [Stretch.goesOn, firstAhead_of_nonneg hc]
  cases hrest : x.rest with
  | nil =>
    have hat : x.atEnd = true := hend.2 hrest
    cases s with
    | comment | string => simp [Except.map, hat]
    | digits | word => rfl
  | cons c rest =>
    have hat : x.atEnd = false :=
      Bool.eq_false_iff.2 fun h => List.cons_ne_nil c rest (hrest.symm.trans (hend.1 h))
    cases s <;> simp [Except.map, hat]

theorem passes_behind (s : Stretch) (hc : 0 ≤ x.cursor) :
    Passes s (x.rest.takeWhile s.includes).length x (x.behind s) := by
  unfold behind
  generalize htext : x.rest = text
  induction text generalizing x with
  | nil =>
    rw [List.takeWhile_nil, pass_nil]
    exact .stop ((goesOn_of_nonneg s hc).trans (by rw [htext]; rfl))
  | cons c text ih =>
    have hgoesOn : s.goesOn x = .ok (s.includes c) := by
      rw [goesOn_of_nonneg s hc, htext]
      rfl
    by_cases hin : s.includes c = true
    · have hconsume : x.consume = ⟨.ok (), x.pass [c], []⟩ := by
        rw [consume, next_of_rest htext]
        rfl
      have hlater := ih (cursor_pass_nonneg hc [c]) (rest_pass htext)
      rw [pass_pass] at hlater
      have hfirst : s.goesOn x = .ok true := hgoesOn.trans (congrArg _ hin)
      have hagain := @Loops.again s.goesOn consume x (text.takeWhile s.includes).length
      rw [hconsume] at hagain
      rw [List.takeWhile_cons_of_pos hin, List.length_cons]
      exact hagain hfirst rfl hlater
    · rw [List.takeWhile_cons_of_neg hin, pass_nil]
      exact .stop (hgoesOn.trans (congrArg _ (Bool.eq_false_iff.2 hin)))

theorem Passes.eq_behind (h : Passes s n x y) (hc : 0 ≤ x.cursor) : y = x.behind s :=
  congrArg Outcome.lexer (Loops.unique h (passes_behind s hc)).2

theorem cursor_behind_nonneg (s : Stretch) (hc : 0 ≤ x.cursor) : 0 ≤ (x.behind s).cursor :=
  cursor_pass_nonneg hc _

theorem rest_behind (s : Stretch) (x : Lexer) : (x.behind s).rest = x.rest.dropWhile s.includes :=
  rest_pass List.takeWhile_append_dropWhile.symm

theorem readWord_of_nonneg (hc : 0 ≤ x.cursor) :
    let y := x.pass (wordPrefix x.rest)
    x.readWord accepts = ⟨.ok (), y.emit (Kind.ofWord y.lexeme) none, []⟩ := by
  rw [readWord, takeFrom_of_nonneg accepts x hc]
  rfl

theorem readsWord_iff (accepts : Bool) (hc : 0 ≤ x.cursor) :
    ReadsWord x o ↔ o = x.readWord accepts := by
  rw [readWord_of_nonneg hc]
  constructor
  · rintro ⟨h⟩
    rw [h.eq_behind hc]
    rfl
  · rintro rfl
    exact .word (passes_behind .word hc)

theorem isBeforeFraction_iff (hc : 0 ≤ x.cursor) :
    x.IsBeforeFraction ↔ ∃ c rest, x.rest = '.' :: c :: rest ∧ IsDigit c := by
  have hmoved : 0 ≤ { x with cursor := x.cursor + 1 }.cursor := by
    change 0 ≤ x.cursor + 1
    omega
  have hdrop : { x with cursor := x.cursor + 1 }.rest = x.rest.drop 1 := by
    have hlow : -x.source.length ≤ x.cursor := by omega
    exact onward_add hlow 1
  have hnull : ¬ IsDigit '\x00' := by decide
  rw [IsBeforeFraction, secondAhead, firstAhead_of_nonneg hc, firstAhead_of_nonneg hmoved, hdrop]
  match x.rest with
  | [] => simp
  | [c] => simp [hnull]
  | c :: d :: rest => simp

theorem fractionPrefix_eq_nil (h : ¬ ∃ c rest, text = '.' :: c :: rest ∧ IsDigit c) :
    fractionPrefix text = [] := by
  unfold fractionPrefix
  split
  · next rest =>
    refine if_pos ?_
    cases rest with
    | nil => rfl
    | cons c rest =>
      refine List.takeWhile_cons_of_neg fun hc => h ⟨c, rest, rfl, isDigit_iff.1 hc⟩
  · rfl

theorem readNumber_of_nonneg (hc : 0 ≤ x.cursor) :
    x.readNumber accepts = (x.pass (numberPrefix x.rest)).emitNumber := by
  rw [readNumber, takeFrom_of_nonneg accepts x hc]
  rfl

theorem readNumber_of_whole (hc : 0 ≤ x.cursor) (h : ¬ (x.behind .digits).IsBeforeFraction) :
    x.readNumber accepts = (x.behind .digits).emitNumber := by
  rw [isBeforeFraction_iff (cursor_behind_nonneg _ hc), rest_behind] at h
  have hprefix : numberPrefix x.rest = x.rest.takeWhile Char.isDigit := by
    have hnone : fractionPrefix (x.rest.dropWhile Char.isDigit) = [] := fractionPrefix_eq_nil h
    rw [numberPrefix, hnone, List.append_nil]
  rw [readNumber_of_nonneg hc, hprefix]
  rfl

theorem readNumber_of_fraction (hc : 0 ≤ x.cursor) (h : (x.behind .digits).IsBeforeFraction) :
    x.readNumber accepts = (((x.behind .digits).pass ['.']).behind .digits).emitNumber := by
  obtain ⟨c, rest, hrest, hdigit⟩ := (isBeforeFraction_iff (cursor_behind_nonneg _ hc)).1 h
  have hdrop : x.rest.dropWhile Char.isDigit = '.' :: c :: rest :=
    (rest_behind .digits x).symm.trans hrest
  have hfraction : (c :: rest).takeWhile Char.isDigit ≠ [] := by
    rw [List.takeWhile_cons_of_pos (isDigit_iff.2 hdigit)]
    exact List.cons_ne_nil _ _
  have hprefix : numberPrefix x.rest =
      x.rest.takeWhile Char.isDigit ++ (['.'] ++ (c :: rest).takeWhile Char.isDigit) := by
    rw [numberPrefix, hdrop, fractionPrefix, if_neg hfraction]
    rfl
  rw [readNumber_of_nonneg hc, hprefix, ← pass_pass, ← pass_pass, behind.eq_def .digits (pass _ _),
    rest_pass hrest]
  rfl

theorem readsNumber_iff (accepts : Bool) (hc : 0 ≤ x.cursor) :
    ReadsNumber x o ↔ o = x.readNumber accepts := by
  have hy := cursor_behind_nonneg .digits hc
  have hz := cursor_pass_nonneg hy ['.']
  constructor
  · rintro (⟨h, hno⟩ | ⟨h, hpoint, hnext, hmore⟩)
    · rw [h.eq_behind hc] at hno ⊢
      exact (readNumber_of_whole hc hno).symm
    · rw [h.eq_behind hc] at hpoint hnext
      obtain ⟨_, -, rfl⟩ := exists_rest_of_next hnext
      rw [hmore.eq_behind hz]
      exact (readNumber_of_fraction hc hpoint).symm
  · rintro rfl
    have h := passes_behind .digits hc
    by_cases hpoint : (x.behind .digits).IsBeforeFraction
    · obtain ⟨c, rest, hrest, -⟩ := (isBeforeFraction_iff hy).1 hpoint
      rw [readNumber_of_fraction hc hpoint]
      exact .fraction h hpoint (next_of_rest hrest) (passes_behind .digits hz)
    · rw [readNumber_of_whole hc hpoint]
      exact .whole h hpoint

theorem behind_string_of_closed (h : x.rest = body ++ '"' :: rest) (hbody : '"' ∉ body) :
    x.behind .string = x.pass body := by
  have hin : ∀ d ∈ body, Stretch.string.includes d = true := fun d hd =>
    decide_eq_true fun heq => hbody (heq ▸ hd)
  rw [behind, h, List.takeWhile_append_of_pos hin, List.takeWhile_cons_of_neg (by decide),
    List.append_nil]

theorem behind_string_of_open (h : '"' ∉ x.rest) : x.behind .string = x.pass x.rest := by
  have hin : ∀ d ∈ x.rest, Stretch.string.includes d = true := fun d hd =>
    decide_eq_true fun heq => h (heq ▸ hd)
  rw [behind, List.takeWhile_eq_self_iff.2 hin]

theorem readString_of_closed (hc : 0 ≤ x.cursor) (h : x.rest = body ++ '"' :: rest)
    (hbody : '"' ∉ body) :
    let y := x.pass (body ++ ['"'])
    x.readString accepts = ⟨.ok (), y.emit .string (some (.text y.innerLexeme)), []⟩ := by
  rw [readString, takeFrom_of_nonneg accepts x hc, h, ofStringBody, closedPrefix?_append hbody]
  rfl

theorem readString_of_open (hc : 0 ≤ x.cursor) (h : '"' ∉ x.rest) :
    let y := x.pass x.rest
    x.readString accepts = y.stop accepts (.unterminatedString y.line) := by
  rw [readString, takeFrom_of_nonneg accepts x hc, ofStringBody, closedPrefix?, if_neg h]
  rfl

theorem readsString_iff (accepts : Bool) (hc : 0 ≤ x.cursor) :
    ReadsString accepts x o ↔ o = x.readString accepts := by
  have hy := cursor_behind_nonneg .string hc
  have hpasses := passes_behind .string hc
  by_cases hquote : '"' ∈ x.rest
  · obtain ⟨body, rest, hrest, hbody⟩ := List.eq_append_cons_of_mem hquote
    have hbehind := behind_string_of_closed hrest hbody
    have hnext : (x.behind .string).next = ⟨.ok '"', x.pass (body ++ ['"']), []⟩ := by
      rw [hbehind, next_of_rest (rest_pass hrest), pass_pass]
    have hend : ¬ (x.behind .string).atEnd = true := by
      rw [atEnd_iff hy, hbehind, rest_pass hrest]
      exact List.cons_ne_nil _ _
    rw [readString_of_closed hc hrest hbody]
    constructor
    · rintro (⟨h, hat⟩ | ⟨h, -, hclose⟩)
      · exact absurd (h.eq_behind hc ▸ hat) hend
      · rw [h.eq_behind hc, hnext] at hclose
        cases hclose
        rfl
    · rintro rfl
      exact .closed hpasses hend hnext
  · have hbehind := behind_string_of_open hquote
    have hend : (x.behind .string).atEnd = true := by
      rw [atEnd_iff hy, hbehind]
      exact rest_pass (List.append_nil _).symm
    rw [readString_of_open hc hquote]
    constructor
    · rintro (⟨h, -⟩ | ⟨h, hat, -⟩)
      · rw [h.eq_behind hc, hbehind]
      · exact absurd hend (h.eq_behind hc ▸ hat)
    · rintro rfl
      rw [hbehind] at hpasses hend
      exact .unterminated hpasses hend

theorem readUnit_of_rest (h : x.rest = c :: rest) :
    x.readUnit accepts = x.take accepts (front c rest) := by
  rw [readUnit, h]

theorem takeFrom_pass (hc : 0 ≤ x.cursor) (h : x.rest = c :: rest) (cut : List Char → Segment) :
    (x.pass [c]).takeFrom accepts cut =
      x.take accepts ⟨(cut rest).shape, c :: (cut rest).text⟩ := by
  rw [takeFrom_of_nonneg accepts _ (cursor_pass_nonneg hc [c]), rest_pass h, Lexer.take, pass_pass]
  rfl

theorem ofSlash_eq (rest : List Char) :
    ofSlash rest =
      if rest.head? = some '/' then ⟨.gap, '/' :: '/' :: linePrefix rest.tail⟩
      else ⟨.sign .slash, ['/']⟩ := by
  unfold ofSlash
  split
  · rfl
  · next hno =>
    refine (if_neg fun h => ?_).symm
    obtain ⟨line, rfl⟩ := List.head?_eq_some_iff.1 h
    exact hno line rfl

theorem ReadsUnit.eq_readUnit (h : ReadsUnit accepts x o) (hc : 0 ≤ x.cursor) :
    o = x.readUnit accepts := by
  have hy : ∀ c, 0 ≤ (x.pass [c]).cursor := fun c => cursor_pass_nonneg hc [c]
  cases h with
  | missing hnext =>
    cases hrest : x.rest with
    | nil =>
      rw [next_of_rest_eq_nil hrest] at hnext
      cases hnext
      simp only [readUnit, hrest]
    | cons c rest =>
      rw [next_of_rest hrest] at hnext
      cases hnext
  | single hnext hkind =>
    obtain ⟨rest, hrest, rfl⟩ := exists_rest_of_next hnext
    rw [readUnit_of_rest hrest, front_of_single hkind]
    rfl
  | extensible hnext hkind haccept =>
    obtain ⟨rest, hrest, rfl⟩ := exists_rest_of_next hnext
    rw [accept_of_ne_newline (hy _) (by decide), rest_pass hrest] at haccept
    rw [readUnit_of_rest hrest, front_of_extensible hkind]
    split at haccept
    · next hlong =>
      cases haccept
      rw [if_pos hlong, pass_pass]
      rfl
    · next hshort =>
      cases haccept
      rw [if_neg hshort]
      rfl
  | slash hnext haccept =>
    obtain ⟨rest, hrest, rfl⟩ := exists_rest_of_next hnext
    rw [accept_of_ne_newline (hy _) (by decide), rest_pass hrest] at haccept
    split at haccept
    · cases haccept
    · next hno =>
      cases haccept
      rw [readUnit_of_rest hrest]
      change _ = x.take accepts (ofSlash rest)
      rw [ofSlash_eq, if_neg hno]
      rfl
  | comment hnext haccept hpasses =>
    obtain ⟨rest, hrest, rfl⟩ := exists_rest_of_next hnext
    rw [accept_of_ne_newline (hy _) (by decide), rest_pass hrest] at haccept
    split at haccept
    · next hslash =>
      cases haccept
      obtain ⟨line, rfl⟩ := List.head?_eq_some_iff.1 hslash
      rw [hpasses.eq_behind (cursor_pass_nonneg (hy _) _), behind, rest_pass (rest_pass hrest),
        pass_pass, pass_pass, readUnit_of_rest hrest]
      rfl
    · cases haccept
  | separator hnext hmem =>
    obtain ⟨rest, hrest, rfl⟩ := exists_rest_of_next hnext
    rw [readUnit_of_rest hrest, front_of_mem_separators hmem]
    rfl
  | string hnext hreads =>
    obtain ⟨rest, hrest, rfl⟩ := exists_rest_of_next hnext
    rw [(readsString_iff accepts (hy _)).1 hreads, readString, takeFrom_pass hc hrest,
      readUnit_of_rest hrest]
    rfl
  | number hnext hdigit hreads =>
    obtain ⟨rest, hrest, rfl⟩ := exists_rest_of_next hnext
    rw [(readsNumber_iff accepts (hy _)).1 hreads, readNumber, takeFrom_pass hc hrest,
      readUnit_of_rest hrest, front_of_isDigit hdigit]
  | word hnext hletter hreads =>
    obtain ⟨rest, hrest, rfl⟩ := exists_rest_of_next hnext
    rw [(readsWord_iff accepts (hy _)).1 hreads, readWord, takeFrom_pass hc hrest,
      readUnit_of_rest hrest, front_of_isLetter hletter]
  | @stray c y hnext hsingle hextensible hother hgap hdigit hletter =>
    obtain ⟨rest, hrest, rfl⟩ := exists_rest_of_next hnext
    have hfront : front c rest = ⟨.stray, [c]⟩ := by
      simp only [separators, List.mem_cons, List.not_mem_nil, or_false, not_or] at hother hgap
      simp [front, hsingle, hextensible, hother, hgap, isBlank, mt isDigit_iff.1 hdigit,
        mt isWordStart_iff.1 hletter]
    rw [readUnit_of_rest hrest, hfront]
    rfl

theorem exists_readsUnit (accepts : Bool) (hc : 0 ≤ x.cursor) : ∃ o, ReadsUnit accepts x o := by
  cases hrest : x.rest with
  | nil => exact ⟨_, .missing (next_of_rest_eq_nil hrest)⟩
  | cons c rest =>
    have hnext := next_of_rest hrest
    have hy := cursor_pass_nonneg hc [c]
    by_cases hgap : c ∈ separators
    · exact ⟨_, .separator hnext hgap⟩
    by_cases hdigit : IsDigit c
    · exact ⟨_, .number hnext hdigit ((readsNumber_iff accepts hy).2 rfl)⟩
    by_cases hletter : IsLetter c
    · exact ⟨_, .word hnext hletter ((readsWord_iff accepts hy).2 rfl)⟩
    by_cases hother : c ∈ ['/', '"']
    · simp only [List.mem_cons, List.not_mem_nil, or_false] at hother
      rcases hother with rfl | rfl
      · have haccept := accept_of_ne_newline hy (c := '/') (by decide)
        split at haccept
        · exact ⟨_, .comment hnext haccept (passes_behind .comment (cursor_pass_nonneg hy _))⟩
        · exact ⟨_, .slash hnext haccept⟩
      · exact ⟨_, .string hnext ((readsString_iff accepts hy).2 rfl)⟩
    cases hsingle : Sign.single? c with
    | some kind => exact ⟨_, .single hnext hsingle⟩
    | none =>
      cases hextensible : Sign.extensible? c with
      | some kinds =>
        have haccept := accept_of_ne_newline hy (c := '=') (by decide)
        split at haccept
        · exact ⟨_, .extensible hnext hextensible haccept⟩
        · exact ⟨_, .extensible hnext hextensible haccept⟩
      | none => exact ⟨_, .stray hnext hsingle hextensible hother hgap hdigit hletter⟩

/-- Cutting a unit off as a whole comes to the same as consuming it move by move. -/
theorem readsUnit_iff (accepts : Bool) (hc : 0 ≤ x.cursor) :
    ReadsUnit accepts x o ↔ o = x.readUnit accepts := by
  constructor
  · exact fun h => h.eq_readUnit hc
  · rintro rfl
    obtain ⟨o, h⟩ := exists_readsUnit accepts hc
    exact h.eq_readUnit hc ▸ h

end Lexer

end LoxLexer
