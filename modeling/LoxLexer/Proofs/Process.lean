import LoxLexer.CommandLine.Process
import LoxLexer.Proofs.Status

namespace LoxLexer.CommandLine

def isRecord : Log.Entry → Bool
  | .message _ => false
  | .record _ => true

def entryText : Log.Entry → List Char
  | .message text => text
  | .record r => "DEBUG ".toList ++ r.logger ++ ": ".toList ++ r.message ++ ['\n']

def written (verbose : Bool) (entries : List Log.Entry) : List Char :=
  (if verbose then entries else entries.filter (!isRecord ·)).flatMap entryText

def Seen.add (s : Seen) (r : Result) : Seen :=
  ⟨some r.ending, s.output ++ r.output, s.errorOutput ++ r.errorOutput⟩

def Result.seen (r : Result) : Seen := ⟨some r.ending, r.output, r.errorOutput⟩

namespace Launch

def accepted? (l : Launch) : Option Arguments :=
  (Arguments.parse l.invocation.arguments).toOption

def result (l : Launch) : Result := l.invocation.run l.files .warning

def loggerBehind (l : Launch) (n : Nat) (g : Logger) : Logger :=
  match l.accepted? with
  | none => g
  | some a => ⟨a.level, some n⟩

end Launch

def levelBehind (launches : List Launch) : Log.Level :=
  match (launches.filterMap Launch.accepted?).getLast? with
  | none => .warning
  | some a => if a.verbose then .debug else .warning

namespace Process

variable {p : Process} {n m : Nat} {l : Launch} {level : Log.Level} {launches : List Launch}

theorem alter_alter (p : Process) (n : Nat) (f g : Seen → Seen) :
    (p.alter n f).alter n g = p.alter n fun s => g (f s) := by
  unfold alter
  congr
  funext m
  dsimp only
  split <;> rfl

theorem alter_self (p : Process) (n : Nat) : p.alter n (fun s => s) = p := by
  simp [alter]

theorem perform_enter (h : p.logger = ⟨level, some n⟩) (e : Log.Entry) :
    perform n p (.enter e) = p.alter n (·.complain (e.toText level)) := by
  cases e with
  | message text => rfl
  | record r =>
    by_cases hlevel : level = .debug
    · simp [perform, record, h, hlevel, Log.Entry.toText]
    · simp [perform, record, h, hlevel, Log.Entry.toText, Seen.complain, alter_self]

theorem foldl_enter (entries : List Log.Entry) (h : p.logger = ⟨level, some n⟩) :
    (entries.map .enter).foldl (perform n) p =
      p.alter n (·.complain (entries.flatMap (Log.Entry.toText level))) := by
  induction entries generalizing p with
  | nil => simp [Seen.complain, alter_self]
  | cons e entries ih =>
    have hlater : (p.alter n (·.complain (e.toText level))).logger = ⟨level, some n⟩ := h
    rw [List.map_cons, List.foldl_cons, perform_enter h, ih hlater, alter_alter]
    simp [Seen.complain]

/-- A call writes what is written of it alone, and nothing for any other call. -/
theorem call_eq (p : Process) (n : Nat) (l : Launch) :
    p.call n l = { p.alter n (·.add l.result) with logger := l.loggerBehind n p.logger } := by
  unfold call Launch.effects Launch.loggerBehind Launch.accepted? Launch.result Invocation.run
  cases Arguments.parse l.invocation.arguments with
  | error refusal =>
    simp only [List.foldl_cons, List.foldl_nil, perform, alter_alter]
    rfl
  | ok a =>
    have hlogger : (perform n (perform n p (.configure a.level))
        (.print (l.invocation.transcript l.files a.job).output)).logger = ⟨a.level, some n⟩ := rfl
    rw [List.foldl_cons, List.foldl_cons, List.foldl_append, foldl_enter _ hlogger]
    simp only [List.foldl_cons, List.foldl_nil, perform, alter_alter]
    rfl

theorem seen_call_self (p : Process) (n : Nat) (l : Launch) :
    (p.call n l).seen n = (p.seen n).add l.result := by
  simp [call_eq, alter]

theorem seen_call_of_ne (h : m ≠ n) (p : Process) (l : Launch) :
    (p.call n l).seen m = p.seen m := by
  simp [call_eq, alter, h]

theorem seen_runFrom_of_lt (h : m < n) (p : Process) (launches : List Launch) :
    (p.runFrom n launches).seen m = p.seen m := by
  induction launches generalizing p n with
  | nil => rfl
  | cons l later ih =>
    exact (ih (Nat.lt_succ_of_lt h) (p.call n l)).trans (seen_call_of_ne (Nat.ne_of_lt h) p l)

theorem seen_runFrom (h : launches[m]? = some l) (p : Process) (n : Nat) :
    (p.runFrom n launches).seen (n + m) = (p.seen (n + m)).add l.result := by
  induction launches generalizing p n m with
  | nil => cases h
  | cons first later ih =>
    cases m with
    | zero =>
      obtain rfl := Option.some.inj h
      exact (seen_runFrom_of_lt (Nat.lt_succ_self n) _ later).trans (seen_call_self p n first)
    | succ m =>
      have hlater := ih h (p.call n first) (n + 1)
      rw [Nat.add_assoc, Nat.add_comm 1 m] at hlater
      rw [runFrom, hlater, seen_call_of_ne (by omega)]

theorem logger_runFrom_append (p : Process) (n : Nat) (launches : List Launch) (l : Launch) :
    (p.runFrom n (launches ++ [l])).logger =
      l.loggerBehind (n + launches.length) (p.runFrom n launches).logger := by
  induction launches generalizing p n with
  | nil => exact congrArg Process.logger (call_eq p n l)
  | cons first later ih =>
    rw [List.cons_append, runFrom, ih, List.length_cons, runFrom, Nat.add_right_comm]
    rfl

theorem level_after (launches : List Launch) :
    (after launches).logger.level = levelBehind launches := by
  induction launches using List.reverseRecOn with
  | nil => rfl
  | append_singleton launches l ih =>
    rw [after, logger_runFrom_append, Launch.loggerBehind, levelBehind, List.filterMap_append]
    cases haccepted : l.accepted? with
    | none =>
      rw [List.filterMap_cons_none haccepted, List.filterMap_nil, List.append_nil]
      exact ih
    | some a =>
      rw [List.filterMap_cons_some haccepted, List.getLast?_append_cons]
      rfl

theorem seen_run (i : Invocation) (fs : FileSystem) (level : Log.Level) :
    (i.run fs level).seen = (i.run fs .warning).seen := by
  unfold Invocation.run
  cases Arguments.parse i.arguments with
  | error refusal => cases refusal <;> rfl
  | ok a => rfl

theorem level_call (p : Process) (n : Nat) (l : Launch) :
    (p.call n l).logger.level = (l.invocation.run l.files p.logger.level).level := by
  rw [call_eq]
  unfold Launch.loggerBehind Launch.accepted? Invocation.run
  cases Arguments.parse l.invocation.arguments with
  | error refusal => cases refusal <;> rfl
  | ok a => rfl

theorem length_runAll (fs : FileSystem) (level : Log.Level) (is : List Invocation) :
    (Invocation.runAll fs level is).length = is.length := by
  induction is generalizing level with
  | nil => rfl
  | cons i is ih => exact congrArg (· + 1) (ih _)

theorem runAll_runFrom {fs : FileSystem} {is : List Invocation} {r : Result}
    (h : (Invocation.runAll fs p.logger.level is)[m]? = some r) (n : Nat) :
    let launches := is.map (Launch.mk fs)
    (∃ l, launches[m]? = some l ∧ l.result.seen = r.seen) ∧
      (p.runFrom n (launches.take (m + 1))).logger.level = r.level := by
  intro launches
  induction is generalizing p n m with
  | nil => cases h
  | cons i is ih =>
    let l : Launch := ⟨fs, i⟩
    have hlevel : (p.call n l).logger.level = (i.run fs p.logger.level).level := level_call p n l
    cases m with
    | zero =>
      obtain rfl := Option.some.inj h
      exact ⟨⟨l, rfl, (seen_run i fs p.logger.level).symm⟩, hlevel⟩
    | succ m =>
      -- The level that one invocation hands to the next is that of the logger.
      rw [Invocation.runAll, ← hlevel] at h
      exact ih h (n + 1)

end Process

theorem toText_debug (e : Log.Entry) : e.toText .debug = entryText e := by
  cases e with
  | message text => rfl
  | record r => rfl

theorem Transcript.errorOutput_eq_written (t : Transcript) (a : Arguments) :
    t.errorOutput a.level = written a.verbose t.entries := by
  unfold errorOutput written Arguments.level
  cases a.verbose with
  | true => exact List.flatMap_congr fun e _ => toText_debug e
  | false =>
    simp only [Bool.false_eq_true, if_false]
    induction t.entries with
    | nil => rfl
    | cons e entries ih =>
      cases e with
      | message text => exact congrArg (text ++ ·) ih
      | record r => exact ih

theorem seen_run_of_parse {i : Invocation} {a : Arguments}
    (hparse : Arguments.parse i.arguments = .ok a) (fs : FileSystem) (level : Log.Level) :
    let t := i.transcript fs a.job
    (i.run fs level).seen = ⟨some (i.ending t.ending), t.output, written a.verbose t.entries⟩ := by
  intro t
  rw [Invocation.run_of_parse hparse, ← Transcript.errorOutput_eq_written]
  rfl

theorem scriptTranscript_of_logger (logger other path : List Char)
    (read : Except ReadFailure (List UInt8)) :
    let t := scriptTranscript logger path read
    let u := scriptTranscript other path read
    t.ending = u.ending ∧ t.output = u.output := by
  cases read with
  | error failure => cases failure <;> exact ⟨rfl, rfl⟩
  | ok bytes =>
    rcases Lexer.answer_eq_ok_or_error (Text.ofBytes bytes) with ⟨tokens, h⟩ | ⟨d, h⟩ <;>
      simp [scriptTranscript, sourceTranscript, Transcript.after, h]

theorem Invocation.exists_transcript (fs : FileSystem) (scripts : List (List Char)) (input : Input)
    (limit : Option Nat) :
    ∃ status output, ∀ entrance, ∃ entries, ∀ texts verbose,
      (⟨texts, input, limit, entrance⟩ : Invocation).transcript fs
        (Arguments.job ⟨verbose, scripts⟩) = ⟨status, output, entries⟩ := by
  let job := Arguments.job ⟨false, scripts⟩
  let t (entrance : Entrance) : Transcript := transcript ⟨[], input, limit, entrance⟩ fs job
  have hsame : ∀ entrance, (t entrance).ending = (t .call).ending ∧
      (t entrance).output = (t .call).output := by
    intro entrance
    cases hjob : job with
    | misuse => simp [t, hjob, transcript]
    | script path => simpa [t, hjob, transcript] using scriptTranscript_of_logger _ _ path _
    | prompt => simp [t, hjob, transcript]
  -- The arguments and the verbose switch are not looked at any more.
  refine ⟨(t .call).ending, (t .call).output, fun entrance => ⟨(t entrance).entries,
    fun texts verbose => ?_⟩⟩
  obtain ⟨hending, houtput⟩ := hsame entrance
  rw [← hending, ← houtput]
  rfl

open Process

/-- Calls in one process do not influence each other, and the output does not depend on whether the
log is written. -/
theorem calls_in_one_process :
    (∀ launches : List Launch,
      (∀ n l, launches[n]? = some l → (after launches).seen n = (after [l]).seen 0) ∧
        (after launches).logger.level = levelBehind launches ∧
        ∀ l refusal, Arguments.parse l.invocation.arguments = .error refusal →
          (after (launches ++ [l])).logger = (after launches).logger) ∧
      (∀ fs scripts input limit, ∃ status output, ∀ entrance, ∃ entries, ∀ texts verbose,
        let i : Invocation := ⟨texts, input, limit, entrance⟩
        i.transcript fs (Arguments.job ⟨verbose, scripts⟩) = ⟨status, output, entries⟩ ∧
          (Arguments.parse texts = .ok ⟨verbose, scripts⟩ →
            ∀ launches n, launches[n]? = some ⟨fs, i⟩ →
              (after launches).seen n =
                ⟨some (i.ending status), output, written verbose entries⟩)) ∧
      ∀ fs is,
        let results := Invocation.runAll fs .warning is
        let launches := is.map (Launch.mk fs)
        results.length = is.length ∧ ∀ n r, results[n]? = some r →
          (after launches).seen n = r.seen ∧
            (after (launches.take (n + 1))).logger.level = r.level := by
  have hseen : ∀ {launches : List Launch} {n l}, launches[n]? = some l →
      (after launches).seen n = l.result.seen := by
    intro launches n l h
    have hrun := seen_runFrom h {} 0
    rwa [Nat.zero_add] at hrun
  refine ⟨fun launches => ⟨fun n l h => ?_, level_after launches, fun l refusal h => ?_⟩, ?_, ?_⟩
  · exact (hseen h).trans (hseen (l := l) rfl).symm
  · rw [after, logger_runFrom_append, Launch.loggerBehind, Launch.accepted?, h]
    rfl
  · intro fs scripts input limit
    obtain ⟨status, output, hentrance⟩ := Invocation.exists_transcript fs scripts input limit
    refine ⟨status, output, fun entrance => ?_⟩
    obtain ⟨entries, hentries⟩ := hentrance entrance
    refine ⟨entries, fun texts verbose => ⟨hentries texts verbose, fun hparse launches n h => ?_⟩⟩
    have hrun := seen_run_of_parse (i := ⟨texts, input, limit, entrance⟩) hparse fs .warning
    rw [hentries texts verbose] at hrun
    exact (hseen h).trans hrun
  · intro fs is results launches
    refine ⟨length_runAll fs .warning is, fun n r h => ?_⟩
    obtain ⟨⟨l, hl, hresult⟩, hlevel⟩ := runAll_runFrom (p := {}) h 0
    exact ⟨(hseen hl).trans hresult, hlevel⟩

theorem calls_in_one_process_behind_help :
    let fs : FileSystem := .ofFolder ⟨[([['s']], [49, 64])], []⟩
    let loud : Launch := ⟨fs, { arguments := ["-v".toList, ['s']] }⟩
    let refused : Launch := ⟨fs, { arguments := ["--help".toList] }⟩
    let silent : Launch := ⟨fs, { arguments := [['s']] }⟩
    let p := after [loud, refused, silent]
    p.seen 2 = (after [silent]).seen 0 ∧ p.logger.level = .warning ∧
      (after [loud, refused]).logger = (after [loud]).logger ∧
      ∃ status output entries,
        loud.invocation.transcript fs (.script ['s']) = ⟨status, output, entries⟩ ∧
          p.seen 0 = ⟨some (loud.invocation.ending status), output, written true entries⟩ ∧
          p.seen 2 = ⟨some (silent.invocation.ending status), output, written false entries⟩ := by
  intro fs loud refused silent p
  have hloud : Arguments.parse loud.invocation.arguments = .ok ⟨true, [['s']]⟩ := by decide
  have hrefused : Arguments.parse refused.invocation.arguments = .error .help := by decide
  have hsilent : Arguments.parse silent.invocation.arguments = .ok ⟨false, [['s']]⟩ := by decide
  obtain ⟨hcalls, hparsed, -⟩ := calls_in_one_process
  obtain ⟨halone, hlevel, -⟩ := hcalls [loud, refused, silent]
  obtain ⟨-, -, hkept⟩ := hcalls [loud]
  obtain ⟨status, output, hentrance⟩ := hparsed fs [['s']] .empty none
  obtain ⟨entries, hentries⟩ := hentrance .call
  refine ⟨halone 2 silent rfl, ?_, hkept refused .help hrefused, status, output, entries,
    (hentries _ true).1, (hentries _ true).2 hloud _ 0 rfl, (hentries _ false).2 hsilent _ 2 rfl⟩
  rw [hlevel]
  decide

end LoxLexer.CommandLine
