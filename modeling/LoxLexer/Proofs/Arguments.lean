import LoxLexer.Proofs.Prompt

namespace LoxLexer.CommandLine

def IsVerbose (text : List Char) : Prop := text = "-v".toList ∨ text = "--verbose".toList

instance : DecidablePred IsVerbose := fun _ => inferInstanceAs (Decidable (_ ∨ _))

def IsScript (text : List Char) : Prop := text = [] ∨ text = ['-'] ∨ text.head? ≠ some '-'

def switchesOf (texts : List (List Char)) : List (List Char) := texts.filter (IsVerbose ·)

def scriptsOf (texts : List (List Char)) : List (List Char) := texts.filter (¬ IsVerbose ·)

def Unbroken (texts : List (List Char)) : Prop :=
  ∃ before scripts after, texts = before ++ scripts ++ after ∧ (∀ text ∈ before, IsVerbose text) ∧
    (∀ text ∈ scripts, ¬ IsVerbose text) ∧ ∀ text ∈ after, IsVerbose text

variable {text : List Char} {texts before scripts after : List (List Char)} {g : Gathered}

theorem isVerbose_of_mem_switchesOf (h : text ∈ switchesOf texts) : IsVerbose text := by
  simpa using (List.mem_filter.1 h).2

theorem not_isVerbose_of_mem_scriptsOf (h : text ∈ scriptsOf texts) : ¬ IsVerbose text := by
  simpa using (List.mem_filter.1 h).2

theorem switchesOf_append (texts more : List (List Char)) :
    switchesOf (texts ++ more) = switchesOf texts ++ switchesOf more := List.filter_append ..

theorem scriptsOf_append (texts more : List (List Char)) :
    scriptsOf (texts ++ more) = scriptsOf texts ++ scriptsOf more := List.filter_append ..

theorem switchesOf_of_switches (h : ∀ text ∈ texts, IsVerbose text) : switchesOf texts = texts :=
  List.filter_eq_self.2 (by simpa using h)

theorem scriptsOf_of_switches (h : ∀ text ∈ texts, IsVerbose text) : scriptsOf texts = [] :=
  List.filter_eq_nil_iff.2 (by simpa using h)

theorem switchesOf_of_scripts (h : ∀ text ∈ texts, ¬ IsVerbose text) : switchesOf texts = [] :=
  List.filter_eq_nil_iff.2 (by simpa using h)

theorem scriptsOf_of_scripts (h : ∀ text ∈ texts, ¬ IsVerbose text) : scriptsOf texts = texts :=
  List.filter_eq_self.2 (by simpa using h)

def argumentOf (text : List Char) : Argument :=
  if IsVerbose text then .switch .verbose (spellingOf text) none else .positional text

theorem classify_of_isVerbose (h : IsVerbose text) :
    classify text = .ok (.switch .verbose (spellingOf text) none) := by
  rcases h with rfl | rfl <;> rfl

theorem classify_of_isScript (h : IsScript text) : classify text = .ok (.positional text) := by
  unfold classify
  split
  · rcases h with h | h | h
    · cases h
    · cases h
    · exact absurd rfl h
  · rfl

theorem ne_separator (h : IsVerbose text ∨ IsScript text) : text ≠ ['-', '-'] := by
  rintro rfl
  rcases h with (h | h) | h | h | h
  · cases h
  · cases h
  · cases h
  · cases h
  · exact h rfl

theorem classifyAll_eq (h : ∀ text ∈ texts, IsVerbose text ∨ IsScript text) :
    classifyAll texts = .ok (texts.map argumentOf) := by
  induction texts with
  | nil => rfl
  | cons text texts ih =>
    obtain ⟨hfirst, hrest⟩ := List.forall_mem_cons.1 h
    have htext : classify text = .ok (argumentOf text) := by
      by_cases hverbose : IsVerbose text
      · rw [classify_of_isVerbose hverbose, argumentOf, if_pos hverbose]
      · rw [classify_of_isScript (hfirst.resolve_left hverbose), argumentOf, if_neg hverbose]
    rw [classifyAll, if_neg (ne_separator hfirst), htext, ih hrest]
    rfl

namespace Gathered

theorem add_of_isVerbose (h : IsVerbose text) (g : Gathered) :
    g.add (argumentOf text) = .ok { g.interrupt with verbose := true } := by
  rw [argumentOf, if_pos h]
  rfl

theorem add_of_not_isVerbose (h : ¬ IsVerbose text) (hg : g.phase ≠ .behind) :
    g.add (argumentOf text) = .ok { g with scripts := g.scripts ++ [text], phase := .within } := by
  rw [argumentOf, if_neg h]
  exact if_neg hg

theorem add_of_not_isVerbose_of_behind (h : ¬ IsVerbose text) (hg : g.phase = .behind) :
    g.add (argumentOf text) = .ok { g with leftOver := g.leftOver ++ [text] } := by
  rw [argumentOf, if_neg h]
  exact if_pos hg

theorem foldlM_add_switches (h : ∀ text ∈ texts, IsVerbose text) (g : Gathered) :
    ∃ phase, (g.phase = .before → phase = .before) ∧
      (texts.map argumentOf).foldlM add g =
        .ok { g with verbose := g.verbose || texts ≠ [], phase } := by
  induction texts generalizing g with
  | nil => exact ⟨g.phase, id, by simp [pure, Except.pure]⟩
  | cons text texts ih =>
    obtain ⟨hfirst, hrest⟩ := List.forall_mem_cons.1 h
    obtain ⟨phase, hphase, hgathered⟩ := ih hrest { g.interrupt with verbose := true }
    refine ⟨phase, fun hg => hphase (by simp [interrupt, hg]), ?_⟩
    rw [List.map_cons, List.foldlM_cons, add_of_isVerbose hfirst]
    refine hgathered.trans ?_
    simp [interrupt]

theorem foldlM_add_scripts (h : ∀ text ∈ texts, ¬ IsVerbose text) (hg : g.phase ≠ .behind) :
    (texts.map argumentOf).foldlM add g = .ok { g with
      scripts := g.scripts ++ texts
      phase := if texts = [] then g.phase else .within } := by
  induction texts generalizing g with
  | nil => simp [pure, Except.pure]
  | cons text texts ih =>
    obtain ⟨hfirst, hrest⟩ := List.forall_mem_cons.1 h
    rw [List.map_cons, List.foldlM_cons, add_of_not_isVerbose hfirst hg]
    refine (ih hrest (by simp)).trans ?_
    simp

theorem foldlM_add_of_behind (hg : g.phase = .behind) (texts : List (List Char)) :
    ∃ verbose, (texts.map argumentOf).foldlM add g =
      .ok { g with verbose, leftOver := g.leftOver ++ scriptsOf texts } := by
  induction texts generalizing g with
  | nil => exact ⟨g.verbose, by simp [scriptsOf, pure, Except.pure]⟩
  | cons text texts ih =>
    rw [List.map_cons, List.foldlM_cons]
    by_cases htext : IsVerbose text
    · have hbehind : ({ g.interrupt with verbose := true } : Gathered).phase = .behind := by
        simp [interrupt, hg]
      obtain ⟨verbose, hrest⟩ := ih hbehind
      refine ⟨verbose, ?_⟩
      rw [add_of_isVerbose htext]
      refine hrest.trans ?_
      simp [interrupt, hg, scriptsOf, htext]
    · obtain ⟨verbose, hrest⟩ := @ih { g with leftOver := g.leftOver ++ [text] } hg
      refine ⟨verbose, ?_⟩
      rw [add_of_not_isVerbose_of_behind htext hg]
      refine hrest.trans ?_
      simp [scriptsOf, htext]

theorem foldlM_add_switches_scripts (hbefore : ∀ text ∈ before, IsVerbose text)
    (hscripts : ∀ text ∈ scripts, ¬ IsVerbose text) :
    ((before ++ scripts).map argumentOf).foldlM add {} = .ok {
      verbose := before ≠ []
      scripts
      phase := if scripts = [] then .before else .within } := by
  have hswitches : (before.map argumentOf).foldlM add {} = .ok { verbose := before ≠ [] } := by
    obtain ⟨phase, hphase, hgathered⟩ := foldlM_add_switches hbefore {}
    obtain rfl := hphase rfl
    simpa using hgathered
  rw [List.map_append, List.foldlM_append, hswitches]
  exact foldlM_add_scripts hscripts (by simp)

end Gathered

theorem not_of_dropWhile_eq_cons {p : List Char → Bool} (h : texts.dropWhile p = text :: after) :
    p text = false := by
  have hhead := List.head?_dropWhile_not p texts
  rwa [h] at hhead

theorem Unbroken.or_exists (texts : List (List Char)) :
    Unbroken texts ∨ ∃ before scripts switch rest, texts = before ++ scripts ++ switch :: rest ∧
      (∀ text ∈ before, IsVerbose text) ∧ (∀ text ∈ scripts, ¬ IsVerbose text) ∧ scripts ≠ [] ∧
      IsVerbose switch ∧ scriptsOf rest ≠ [] := by
  -- The first run of scripts stands behind the switches in front.
  have hbefore : ∀ text ∈ texts.takeWhile (IsVerbose ·), IsVerbose text := fun text h => by
    simpa using List.mem_takeWhile_imp h
  generalize hahead : texts.dropWhile (IsVerbose ·) = ahead
  have hscripts : ∀ text ∈ ahead.takeWhile (¬ IsVerbose ·), ¬ IsVerbose text := fun text h => by
    simpa using List.mem_takeWhile_imp h
  generalize hbehind : ahead.dropWhile (¬ IsVerbose ·) = behind
  have htexts :
      texts = texts.takeWhile (IsVerbose ·) ++ ahead.takeWhile (¬ IsVerbose ·) ++ behind := by
    rw [← hbehind, List.append_assoc, List.takeWhile_append_dropWhile, ← hahead,
      List.takeWhile_append_dropWhile]
  by_cases hnone : scriptsOf behind = []
  · refine .inl ⟨_, _, behind, htexts, hbefore, hscripts, fun text htext => ?_⟩
    simpa using List.filter_eq_nil_iff.1 hnone text htext
  · cases behind with
    | nil => exact absurd rfl hnone
    | cons switch rest =>
      have hswitch : IsVerbose switch := by simpa using not_of_dropWhile_eq_cons hbehind
      have hrest : scriptsOf rest ≠ [] := by simpa [scriptsOf, hswitch] using hnone
      refine .inr ⟨_, _, switch, rest, htexts, hbefore, hscripts, fun hnil => ?_, hswitch, hrest⟩
      rw [hnil, List.append_nil] at htexts
      have hsame : ahead = switch :: rest := by
        have hsplit := List.takeWhile_append_dropWhile (p := (¬ IsVerbose ·)) (l := ahead)
        rwa [hnil, hbehind, List.nil_append, eq_comm] at hsplit
      have hfirst := not_of_dropWhile_eq_cons (hahead.trans hsame)
      exact absurd hswitch (by simpa using hfirst)

theorem parse_unbroken (hbefore : ∀ text ∈ before, IsVerbose text)
    (hscripts : ∀ text ∈ scripts, ¬ IsVerbose text) (hafter : ∀ text ∈ after, IsVerbose text)
    (hall : ∀ text ∈ before ++ scripts ++ after, IsVerbose text ∨ IsScript text) :
    Arguments.parse (before ++ scripts ++ after) = .ok ⟨before ++ after ≠ [], scripts⟩ := by
  have hgathered : ∃ phase, ((before ++ scripts ++ after).map argumentOf).foldlM Gathered.add {} =
      .ok { verbose := before ++ after ≠ [], scripts, phase } := by
    rw [List.map_append, List.foldlM_append,
      Gathered.foldlM_add_switches_scripts hbefore hscripts]
    obtain ⟨phase, -, hgathered⟩ := Gathered.foldlM_add_switches hafter
      { verbose := before ≠ [], scripts, phase := if scripts = [] then .before else .within }
    refine ⟨phase, hgathered.trans ?_⟩
    simp
  obtain ⟨phase, hgathered⟩ := hgathered
  rw [Arguments.parse, classifyAll_eq hall]
  change (List.foldlM Gathered.add {} _ >>= _) = _
  rw [hgathered]
  rfl

theorem parse_broken {switch : List Char} {rest : List (List Char)}
    (hbefore : ∀ text ∈ before, IsVerbose text) (hscripts : ∀ text ∈ scripts, ¬ IsVerbose text)
    (hne : scripts ≠ []) (hswitch : IsVerbose switch) (hrest : scriptsOf rest ≠ [])
    (hall : ∀ text ∈ before ++ scripts ++ switch :: rest, IsVerbose text ∨ IsScript text) :
    Arguments.parse (before ++ scripts ++ switch :: rest) =
      .error (.usage (.unrecognized (scriptsOf rest))) := by
  have hgathered : ∃ g : Gathered,
      ((before ++ scripts ++ switch :: rest).map argumentOf).foldlM Gathered.add {} = .ok g ∧
        g.leftOver = scriptsOf rest := by
    rw [List.map_append, List.foldlM_append,
      Gathered.foldlM_add_switches_scripts hbefore hscripts, if_neg hne]
    change ∃ g, (_ :: rest.map argumentOf).foldlM Gathered.add _ = _ ∧ _
    rw [List.foldlM_cons, Gathered.add_of_isVerbose hswitch]
    obtain ⟨verbose, hbehind⟩ := Gathered.foldlM_add_of_behind
      (g := { verbose := true, scripts, phase := .behind }) rfl rest
    exact ⟨_, hbehind, rfl⟩
  obtain ⟨g, hgathered, hleft⟩ := hgathered
  rw [Arguments.parse, classifyAll_eq hall]
  change (List.foldlM Gathered.add {} _ >>= _) = _
  rw [hgathered]
  change (if g.leftOver = [] then _ else _) = _
  rw [hleft, if_neg hrest]
  rfl

theorem parse_switches_first (h : ∀ text ∈ texts, IsVerbose text ∨ IsScript text) :
    Arguments.parse (switchesOf texts ++ scriptsOf texts) =
      .ok ⟨switchesOf texts ≠ [], scriptsOf texts⟩ := by
  have hall : ∀ text ∈ switchesOf texts ++ scriptsOf texts ++ [],
      IsVerbose text ∨ IsScript text := by
    intro text htext
    rw [List.append_nil, List.mem_append] at htext
    exact h text (htext.elim List.mem_of_mem_filter List.mem_of_mem_filter)
  simpa using parse_unbroken (fun _ => isVerbose_of_mem_switchesOf)
    (fun _ => not_isVerbose_of_mem_scriptsOf) (by simp) hall

theorem parse_of_unbroken (h : ∀ text ∈ texts, IsVerbose text ∨ IsScript text)
    (hunbroken : Unbroken texts) :
    Arguments.parse texts = .ok ⟨switchesOf texts ≠ [], scriptsOf texts⟩ := by
  obtain ⟨before, scripts, after, rfl, hbefore, hscripts, hafter⟩ := hunbroken
  have hswitches : switchesOf (before ++ scripts ++ after) = before ++ after := by
    rw [switchesOf_append, switchesOf_append, switchesOf_of_switches hbefore,
      switchesOf_of_scripts hscripts, switchesOf_of_switches hafter, List.append_nil]
  have hkept : scriptsOf (before ++ scripts ++ after) = scripts := by
    rw [scriptsOf_append, scriptsOf_append, scriptsOf_of_switches hbefore,
      scriptsOf_of_scripts hscripts, scriptsOf_of_switches hafter, List.append_nil, List.nil_append]
  rw [hswitches, hkept]
  exact parse_unbroken hbefore hscripts hafter h

theorem parse_of_not_unbroken (h : ∀ text ∈ texts, IsVerbose text ∨ IsScript text)
    (hbroken : ¬ Unbroken texts) :
    2 ≤ (scriptsOf texts).length ∧
      ∃ left, Arguments.parse texts = .error (.usage (.unrecognized left)) := by
  obtain ⟨before, scripts, switch, rest, rfl, hbefore, hscripts, hne, hswitch, hrest⟩ :=
    (Unbroken.or_exists texts).resolve_left hbroken
  refine ⟨?_, scriptsOf rest, parse_broken hbefore hscripts hne hswitch hrest h⟩
  have hkept : scriptsOf (before ++ scripts ++ switch :: rest) = scripts ++ scriptsOf rest := by
    have hrun : scriptsOf (switch :: rest) = scriptsOf rest :=
      List.filter_cons_of_neg (by simpa using hswitch)
    rw [scriptsOf_append, scriptsOf_append, scriptsOf_of_switches hbefore,
      scriptsOf_of_scripts hscripts, hrun, List.nil_append]
  rw [hkept, List.length_append]
  exact Nat.add_le_add (List.length_pos_iff.2 hne) (List.length_pos_iff.2 hrest)

namespace Invocation

variable {i : Invocation}

theorem run_congr (h : Arguments.parse texts = Arguments.parse i.arguments) (fs : FileSystem)
    (level : Log.Level) : { i with arguments := texts }.run fs level = i.run fs level := by
  rw [run, h]
  rfl

end Invocation

/-- Verbose switches that stand around the scripts have the effect of verbose switches in front of
them.  Between two scripts they make the arguments be refused, where in front of them they leave it
at a misuse. -/
theorem run_of_switches_and_scripts {i : Invocation}
    (h : ∀ text ∈ i.arguments, IsVerbose text ∨ IsScript text) (fs : FileSystem)
    (level : Log.Level) :
    let among := i.run fs level
    let first := { i with arguments := switchesOf i.arguments ++ scriptsOf i.arguments }.run fs level
    (Unbroken i.arguments → among = first) ∧
      (2 ≤ (scriptsOf i.arguments).length →
        first.ending.status? = some 64 ∧ first.output = "usage: loxscan [script]\n".toList) ∧
      (¬ Unbroken i.arguments →
        2 ≤ (scriptsOf i.arguments).length ∧ among.ending = .exited 2 ∧ among.output = []) := by
  intro among first
  have hfirst := parse_switches_first h
  refine ⟨fun hunbroken => ?_, fun htwo => ?_, fun hbroken => ?_⟩
  · have hsame := hfirst.trans (parse_of_unbroken h hunbroken).symm
    exact (Invocation.run_congr hsame fs level).symm
  · have hmisuse := Invocation.run_of_two_le (i := { i with arguments := _ }) hfirst htwo fs level
    exact ⟨(congrArg (·.ending.status?) hmisuse).trans (Invocation.status?_ending _ 64),
      congrArg Result.output hmisuse⟩
  · obtain ⟨htwo, left, hparse⟩ := parse_of_not_unbroken h hbroken
    have hrefused : among = (Refusal.usage (.unrecognized left)).result level := by
      simp only [among, Invocation.run, hparse]
    rw [hrefused]
    exact ⟨htwo, rfl, rfl⟩

theorem run_of_switches_around_two_scripts :
    let i : Invocation := { arguments := ["-v".toList, ['a'], ['b'], "--verbose".toList] }
    (∀ text ∈ i.arguments, IsVerbose text ∨ IsScript text) ∧ Unbroken i.arguments ∧
      (i.run (.ofFolder ⟨[], []⟩) .warning).ending.status? = some 64 := by
  intro i
  have hall : ∀ text ∈ i.arguments, IsVerbose text ∨ IsScript text := by
    simp [i, IsVerbose, IsScript]
  have hunbroken : Unbroken i.arguments :=
    ⟨["-v".toList], [['a'], ['b']], ["--verbose".toList], rfl, by simp [IsVerbose],
      by simp [IsVerbose], by simp [IsVerbose]⟩
  obtain ⟨hsame, htwo, -⟩ := run_of_switches_and_scripts hall (.ofFolder ⟨[], []⟩) .warning
  refine ⟨hall, hunbroken, ?_⟩
  rw [hsame hunbroken]
  exact (htwo (by decide)).1

theorem not_run_eq_of_switch_between_scripts :
    let i : Invocation := { arguments := [['a'], "-v".toList, ['b']] }
    let first : Invocation := { arguments := ["-v".toList, ['a'], ['b']] }
    (∀ text ∈ i.arguments, IsVerbose text ∨ IsScript text) ∧
      switchesOf i.arguments ++ scriptsOf i.arguments = first.arguments ∧
      (i.run (.ofFolder ⟨[], []⟩) .warning).ending.status? = some 2 ∧
      (i.run (.ofFolder ⟨[], []⟩) .warning).output = [] ∧
      (first.run (.ofFolder ⟨[], []⟩) .warning).ending.status? = some 64 ∧
      (first.run (.ofFolder ⟨[], []⟩) .warning).output = "usage: loxscan [script]\n".toList := by
  simp only [List.forall_mem_cons]
  refine ⟨⟨?_, ?_, ?_, ?_⟩, ?_⟩
  · simp [IsScript]
  · simp [IsVerbose]
  · simp [IsScript]
  · simp
  · decide

end LoxLexer.CommandLine
