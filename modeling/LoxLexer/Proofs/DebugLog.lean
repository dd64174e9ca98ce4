import LoxLexer.Proofs.Failure
import LoxLexer.Proofs.Status

namespace LoxLexer

open CommandLine Grammar Lexer Text

namespace Log

def lexerText (message : List Char) : List Char :=
  "DEBUG loxscan.lexer.scanner: ".toList ++ message

def readText (characters : Nat) (path : List Char) : List Char :=
  lexerText ("Read ".toList ++ numeral characters ++ " characters from ".toList ++ path)

def scannedText (tokens lines : Nat) : List Char :=
  lexerText ("Scanned ".toList ++ numeral tokens ++ " tokens over ".toList ++ numeral lines ++
    " lines".toList)

def stoppedText (offset : Nat) (message : List Char) : List Char :=
  lexerText ("Scan stopped at offset ".toList ++ numeral offset ++ ": ".toList ++ message)

def failedText (logger path : List Char) : List Char :=
  "DEBUG ".toList ++ logger ++ ": ".toList ++ ("Lexical error in ".toList ++ path)

inductive TellsScript (logger path : List Char) (bytes : List UInt8) (output : List Char) :
    List (List Char) → Prop
  | scanned {texts} : Scans (ofBytes bytes) → Lines '\n' output texts →
      TellsScript logger path bytes output
        [readText bytes.length path, scannedText texts.length (1 + bytes.count 10)]
  | stopped {d start} : (scan (ofBytes bytes)).answer = .error (.lexical d) →
      Stopped (ofBytes bytes) d start →
      output = asLine ("[line ".toList ++ signedNumeral d.line ++ "] Error : ".toList ++
        d.message) →
      TellsScript logger path bytes output
        [readText bytes.length path, stoppedText start d.message, failedText logger path]

inductive TellsLine (line : List Char) : List Char → Prop
  | scanned {tokens} : (scan line).answer = .ok tokens →
      TellsLine line (scannedText tokens.length 1)
  | stopped {d start} : (scan line).answer = .error (.lexical d) → Stopped line d start →
      TellsLine line (stoppedText start d.message)

end Log

variable {source line path : List Char} {bytes : List UInt8} {tokens : List Token} {d : Diagnostic}
  {lines texts : List (List Char)} {n start : Nat}

namespace Lexer

theorem notices_of_answer_eq_ok (h : (scan source).answer = .ok tokens) :
    (scan source).notices = [.scanned tokens.length (1 + source.count '\n' : Nat)] := by
  obtain ⟨segments, hmunches⟩ := munches_of_answer_eq_ok h
  have htext := hmunches.text_eq
  rw [List.append_nil] at htext
  have hrun := run_of_munches_nil true (x := ofSource source) (by rwa [rest_ofSource]) rfl
    (Int.le_refl 0)
  have htokens := Except.ok.inj (h.symm.trans (congrArg Outcome.answer hrun))
  rw [scan, hrun, htokens]
  simp only [emitEnd, line_foldl_absorb, ← htext]
  rfl

theorem notices_of_stopped (h : (scan source).answer = .error (.lexical d))
    (hstopped : Stopped source d start) :
    (scan source).notices = [.report d.toText, .stopped start d.message] := by
  obtain ⟨segments, c, rest, hmunches, -⟩ := exists_munches_of_answer_eq_error h
  have hrun := run_of_munches_cons true (x := ofSource source) (by rwa [rest_ofSource]) rfl
    (Int.le_refl 0)
  have hmark : (segments.foldl absorb { ofSource source with hasRun := true }).cursor = start :=
    (congrArg (fun o => o.lexer.mark) hrun).symm.trans hstopped.mark
  rw [scan, hrun] at h
  obtain rfl := Fault.lexical.inj (Except.error.inj h)
  rw [scan, hrun, ← hmark]
  rfl

theorem exists_stopped (h : (scan source).answer = .error (.lexical d)) :
    ∃ start, Stopped source d start := by
  obtain ⟨segments, c, rest, hmunches, -⟩ := exists_munches_of_answer_eq_error h
  obtain ⟨_, start, hsame, hstopped⟩ := stopped_of_munches hmunches
  obtain rfl := Fault.lexical.inj (Except.error.inj (hsame.symm.trans h))
  exact ⟨start, hstopped⟩

theorem place_of_answer_eq_error (h : (scan source).answer = .error (.lexical d)) :
    d.place = [] := by
  obtain ⟨start, hstopped⟩ := exists_stopped h
  cases hstopped.cause <;> assumption

end Lexer

theorem Diagnostic.toText_of_place_eq_nil (h : d.place = []) :
    d.toText = "[line ".toList ++ signedNumeral d.line ++ "] Error : ".toList ++ d.message := by
  have hlabel : "] Error ".toList ++ ": ".toList = "] Error : ".toList := by decide
  unfold toText
  rw [h, ← hlabel, List.append_nil, List.append_assoc _ "] Error ".toList]

namespace Log

theorem toText_lexerLogger (message : List Char) :
    (Entry.record ⟨lexerLogger, message⟩).toText .debug = asLine (lexerText message) := by
  have hlogger : "DEBUG ".toList ++ lexerLogger ++ ": ".toList =
      "DEBUG loxscan.lexer.scanner: ".toList := by decide
  exact congrArg (fun front => asLine (front ++ message)) hlogger

theorem toText_sourceRead (path source : List Char) :
    (Entry.record (sourceRead path source)).toText .debug =
      asLine (readText source.length path) := toText_lexerLogger _

theorem count_newline_ofBytes (bytes : List UInt8) :
    (ofBytes bytes).count '\n' = bytes.count 10 := by
  rw [ofBytes, List.count, List.countP_map, List.count]
  refine List.countP_congr fun b _ => ?_
  simp [ofByte_eq_newline_iff]

end Log

namespace CommandLine

open Log

theorem errorOutput_of_answer_eq_ok (h : (scan source).answer = .ok tokens) :
    (logEntries (scan source).notices).flatMap (Entry.toText .debug) =
      asLine (scannedText tokens.length (1 + source.count '\n')) := by
  rw [notices_of_answer_eq_ok h]
  exact (List.append_nil _).trans (toText_lexerLogger _)

theorem errorOutput_of_stopped (h : (scan source).answer = .error (.lexical d))
    (hstopped : Stopped source d start) :
    (logEntries (scan source).notices).flatMap (Entry.toText .debug) =
      asLine (stoppedText start d.message) := by
  rw [notices_of_stopped h hstopped]
  exact (List.append_nil _).trans (toText_lexerLogger _)

theorem errorOutput_scriptTranscript (logger path : List Char) (bytes : List UInt8) :
    (scriptTranscript logger path (.ok bytes)).errorOutput .debug =
      asLine (readText bytes.length path) ++
        (sourceTranscript logger path (ofBytes bytes)).errorOutput .debug := by
  have hread := toText_sourceRead path (ofBytes bytes)
  rw [length_ofBytes] at hread
  rw [← hread]
  rfl

theorem exists_tellsScript (logger path : List Char) (bytes : List UInt8) :
    let t := scriptTranscript logger path (.ok bytes)
    ∃ texts, TellsScript logger path bytes t.output texts ∧
      t.errorOutput .debug = asLines texts := by
  intro t
  have hwritten : t.errorOutput .debug = _ := errorOutput_scriptTranscript logger path bytes
  rcases answer_eq_ok_or_error (ofBytes bytes) with ⟨tokens, h⟩ | ⟨d, h⟩
  · have houtput : t.output = asLines (tokens.map Token.toText) :=
      (sourceTranscript_of_answer_eq_ok h logger path).2
    have hlines : Lines '\n' t.output (tokens.map Token.toText) :=
      houtput ▸ lines_asLines_toText tokens
    have hscanned := errorOutput_of_answer_eq_ok h
    rw [count_newline_ofBytes] at hscanned
    refine ⟨_, .scanned ⟨tokens, h⟩ hlines, hwritten.trans ?_⟩
    simp [Transcript.errorOutput, sourceTranscript, h, hscanned]
  · obtain ⟨start, hstopped⟩ := exists_stopped h
    have houtput : t.output = asLine d.toText :=
      (sourceTranscript_of_answer_eq_error h logger path).2
    rw [d.toText_of_place_eq_nil (place_of_answer_eq_error h)] at houtput
    have hscanned := errorOutput_of_stopped h hstopped
    have hfailed : (Entry.record ⟨logger, "Lexical error in ".toList ++ path⟩).toText .debug =
        asLine (failedText logger path) := rfl
    refine ⟨_, .stopped h hstopped houtput, hwritten.trans ?_⟩
    simp only [Transcript.errorOutput, sourceTranscript, h, List.flatMap_append, hscanned,
      List.flatMap_singleton, hfailed]
    simp

def linesRead : Option Nat → List (List Char) → List (List Char)
  | none, lines => lines
  | some n, lines => lines.take n

theorem exists_tellsLine (hline : '\n' ∉ line) :
    ∃ text, TellsLine line text ∧ (lineTranscript line).errorOutput .debug = asLine text := by
  rcases answer_eq_ok_or_error line with ⟨tokens, h⟩ | ⟨d, h⟩
  · have hscanned := errorOutput_of_answer_eq_ok h
    rw [List.count_eq_zero.2 hline] at hscanned
    refine ⟨_, .scanned h, ?_⟩
    simp [Transcript.errorOutput, lineTranscript, h, hscanned]
  · obtain ⟨start, hstopped⟩ := exists_stopped h
    refine ⟨_, .stopped h hstopped, ?_⟩
    simp [Transcript.errorOutput, lineTranscript, h, errorOutput_of_stopped h hstopped]

theorem newline_not_mem_of_tellsLine {text : List Char} (h : TellsLine line text) :
    '\n' ∉ text := by
  have hlogger : '\n' ∉ "DEBUG loxscan.lexer.scanner: ".toList := by decide
  cases h with
  | @scanned tokens =>
    have htokens := List.not_mem_append (by decide : '\n' ∉ "Scanned ".toList)
      (isPrintable_numeral tokens.length).newline_not_mem
    have hlines := List.not_mem_append
      (List.not_mem_append htokens (by decide : '\n' ∉ " tokens over ".toList))
      (isPrintable_numeral 1).newline_not_mem
    exact List.not_mem_append hlogger
      (List.not_mem_append hlines (by decide : '\n' ∉ " lines".toList))
  | @stopped d start h =>
    have htext := d.toText_of_place_eq_nil (place_of_answer_eq_error h)
    have hmessage : '\n' ∉ d.message := fun hmem =>
      newline_not_mem_toText_of_answer_eq_error h (htext ▸ List.mem_append_right _ hmem)
    have hoffset := List.not_mem_append (by decide : '\n' ∉ "Scan stopped at offset ".toList)
      (isPrintable_numeral start).newline_not_mem
    have hcolon := List.not_mem_append hoffset (by decide : '\n' ∉ ": ".toList)
    exact List.not_mem_append hlogger (List.not_mem_append hcolon hmessage)

theorem lines_of_forall₂_tellsLine (h : List.Forall₂ TellsLine lines texts) :
    Lines '\n' (asLines texts) texts := by
  refine lines_asLines ?_
  induction h with
  | nil => simp
  | cons hline _ ih => exact List.forall_mem_cons.2 ⟨newline_not_mem_of_tellsLine hline, ih⟩

theorem exists_forall₂_tellsLine (hlines : ∀ line ∈ lines, '\n' ∉ line) (limit : Option Nat) :
    ∃ texts, List.Forall₂ TellsLine (linesRead limit lines) texts ∧
      (promptTranscript limit lines).errorOutput .debug = asLines texts := by
  induction lines generalizing limit with
  | nil =>
    refine ⟨[], ?_, ?_⟩
    · cases limit <;> simp [linesRead]
    · rcases limit with _ | _ | n <;> rfl
  | cons line lines ih =>
    obtain ⟨hfirst, hrest⟩ := List.forall_mem_cons.1 hlines
    by_cases hlimit : limit = some 0
    · subst hlimit
      exact ⟨[], .nil, rfl⟩
    · obtain ⟨answers, hanswers⟩ := exists_answers line
      obtain ⟨hending, -⟩ := lineTranscript_of_answers hfirst hanswers
      obtain ⟨text, htext, hwritten⟩ := exists_tellsLine hfirst
      obtain ⟨texts, htexts, hlater⟩ := ih hrest (limit.map (· - 1))
      have hread : linesRead limit (line :: lines) =
          line :: linesRead (limit.map (· - 1)) lines := by
        rcases limit with _ | _ | n
        · rfl
        · exact absurd rfl hlimit
        · rfl
      refine ⟨text :: texts, hread ▸ .cons htext htexts, ?_⟩
      rw [promptTranscript]
      · simp only [hending, Transcript.errorOutput, Transcript.after, List.flatMap_append]
          at hwritten hlater ⊢
        rw [hwritten, hlater]
        rfl
      · exact hlimit

variable {i : Invocation} {a : Arguments}

/-- What a verbose invocation logs.  A script is logged with its length, and then with what a scan
of it comes to: with as many tokens as there are lines printed, or with the offset at which no unit
begins and the message that is printed.  At the prompt each line is logged with what a scan of this
line comes to. -/
theorem errorOutput_tells (hparse : Arguments.parse i.arguments = .ok a)
    (hverbose : a.verbose = true) (fs : FileSystem) (level : Log.Level) :
    let result := i.run fs level
    (∀ path bytes, a.scripts = [path] → fs.read path = .ok bytes →
        ∃ texts, TellsScript i.entrance.logger path bytes result.output texts ∧
          result.errorOutput = asLines texts) ∧
      (a.scripts = [] → ∀ lines, Lines '\n' i.input.content lines →
        ∃ texts, List.Forall₂ TellsLine (linesRead i.limit lines) texts ∧
          Lines '\n' result.errorOutput texts) := by
  intro result
  have hlevel : a.level = .debug := if_pos hverbose
  refine ⟨fun path bytes hscripts hread => ?_, fun hscripts lines hlines => ?_⟩
  · have hresult : result = _ := Invocation.run_of_singleton hparse hscripts fs level
    rw [hresult, hread, hlevel]
    exact exists_tellsScript i.entrance.logger path bytes
  · obtain rfl := Input.eq_lines hlines
    obtain ⟨texts, htexts, hwritten⟩ :=
      exists_forall₂_tellsLine (fun _ => hlines.not_mem) i.limit
    have hresult : result.errorOutput = asLines texts := by
      rw [← hwritten, ← hlevel]
      exact congrArg Result.errorOutput (Invocation.run_of_nil hparse hscripts fs level)
    exact ⟨texts, htexts, hresult ▸ lines_of_forall₂_tellsLine htexts⟩

theorem errorOutput_tells_open_string :
    let fs : FileSystem := .ofFolder ⟨[([['s']], [49, 32, 34, 10, 10])], []⟩
    let i : Invocation := { arguments := ["-v".toList, ['s']] }
    let j : Invocation := { arguments := ["-v".toList], input := .text ['#', '\n', '1'] }
    Arguments.parse i.arguments = .ok ⟨true, [['s']]⟩ ∧
      fs.read ['s'] = .ok [49, 32, 34, 10, 10] ∧
      (i.run fs .warning).output = "[line 3] Error : Unterminated string\n".toList ∧
      (i.run fs .warning).errorOutput = asLines [readText 5 ['s'],
        stoppedText 2 "Unterminated string".toList, failedText "loxscan.cli".toList ['s']] ∧
      Arguments.parse j.arguments = .ok ⟨true, []⟩ ∧
      Lines '\n' j.input.content [['#'], ['1']] ∧
      ∃ texts, List.Forall₂ TellsLine [['#'], ['1']] texts ∧
        Lines '\n' (j.run fs .warning).errorOutput texts := by
  intro fs i j
  have hi : Arguments.parse i.arguments = .ok ⟨true, [['s']]⟩ := by decide
  have hj : Arguments.parse j.arguments = .ok ⟨true, []⟩ := by decide
  have hread : fs.read ['s'] = .ok [49, 32, 34, 10, 10] := by decide
  have hlast : Lines '\n' ['1'] [['1']] := .last (by decide) (by decide)
  have hlines : Lines '\n' (['#'] ++ '\n' :: ['1']) [['#'], ['1']] := .step (by decide) hlast
  obtain ⟨hscript, -⟩ := errorOutput_tells hi rfl fs .warning
  obtain ⟨-, hprompt⟩ := errorOutput_tells hj rfl fs .warning
  obtain ⟨texts, htells, hwritten⟩ := hscript ['s'] _ rfl hread
  have hscan : (scan (ofBytes [49, 32, 34, 10, 10])).answer =
      .error (.lexical (.unterminatedString 3)) := by decide +kernel
  have hmark : (scan (ofBytes [49, 32, 34, 10, 10])).lexer.mark = 2 := by decide +kernel
  cases htells with
  | scanned hscans => exact absurd hscans (not_scans_of_answer_eq_error hscan)
  | @stopped d start h hstopped houtput =>
    obtain rfl := Fault.lexical.inj (Except.error.inj (h.symm.trans hscan))
    obtain rfl : start = 2 := Int.ofNat.inj (hstopped.mark.symm.trans hmark)
    exact ⟨hi, hread, houtput.trans (by decide), hwritten, hj, hlines, hprompt rfl _ hlines⟩

end CommandLine

end LoxLexer
