import LoxLexer.CommandLine.Invocation

/-! Calls in one process, effect by effect.  All that they share is the root logger, which writes to
the error output of the call that has configured it last. -/

namespace LoxLexer.CommandLine

/-- A call, with the files as they are at its time. -/
structure Launch where
  files : FileSystem
  invocation : Invocation

structure Seen where
  ending : Option Ending := none
  output : List Char := []
  errorOutput : List Char := []
  deriving DecidableEq

def Seen.complain (s : Seen) (text : List Char) : Seen :=
  { s with errorOutput := s.errorOutput ++ text }

structure Logger where
  level : Log.Level := .warning
  /-- The call to whose error output records are written. -/
  target : Option Nat := none
  deriving DecidableEq

structure Process where
  logger : Logger := {}
  seen : Nat → Seen := fun _ => {}

inductive Effect
  | configure (level : Log.Level)
  | print (text : List Char)
  | enter (e : Log.Entry)
  | finish (ending : Ending)

/-- What a call does, in order.  The logger is left alone until the arguments have been parsed. -/
def Launch.effects (l : Launch) : List Effect :=
  match Arguments.parse l.invocation.arguments with
  | .error refusal =>
    let r := refusal.result .warning
    [.print r.output, .enter (.message r.errorOutput), .finish r.ending]
  | .ok a =>
    let t := l.invocation.transcript l.files a.job
    .configure a.level :: .print t.output ::
      (t.entries.map .enter ++ [.finish (l.invocation.ending t.ending)])

namespace Process

def alter (p : Process) (n : Nat) (f : Seen → Seen) : Process :=
  { p with seen := fun m => if m = n then f (p.seen m) else p.seen m }

def record (p : Process) (r : Log.Record) : Process :=
  match p.logger.target with
  | none => p
  | some n => if p.logger.level = .debug then p.alter n (·.complain r.toText) else p

def perform (n : Nat) (p : Process) : Effect → Process
  | .configure level => { p with logger := ⟨level, some n⟩ }
  | .print text => p.alter n fun s => { s with output := s.output ++ text }
  | .enter (.message text) => p.alter n (·.complain text)
  | .enter (.record r) => p.record r
  | .finish ending => p.alter n fun s => { s with ending := some ending }

def call (p : Process) (n : Nat) (l : Launch) : Process := l.effects.foldl (perform n) p

def runFrom (p : Process) (n : Nat) : List Launch → Process
  | [] => p
  | l :: later => (p.call n l).runFrom (n + 1) later

def after (launches : List Launch) : Process := runFrom {} 0 launches

end Process

end LoxLexer.CommandLine
