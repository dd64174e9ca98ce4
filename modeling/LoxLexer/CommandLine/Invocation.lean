import LoxLexer.CommandLine.Input
import LoxLexer.CommandLine.Job
import LoxLexer.Source.Folder

namespace LoxLexer.CommandLine

inductive Entrance
  | call
  | program
  | commandLine
  deriving DecidableEq, Repr

/-- The name of the logger depends on which part is started as the program. -/
def Entrance.logger : Entrance → List Char
  | call | program => Log.qualify "loxscan.cli".toList
  | commandLine => Log.qualify "__main__".toList

structure Invocation where
  arguments : List (List Char)
  input : Input := .empty
  /-- The number of lines that can be read before an interruption. -/
  limit : Option Nat := none
  entrance : Entrance := .call

inductive Ending
  | returned (status : Nat)
  | exited (status : Nat)
  | broken (b : Breakdown)
  deriving DecidableEq, Repr

structure Result where
  ending : Ending
  output : List Char
  errorOutput : List Char
  level : Log.Level

def Refusal.result (level : Log.Level) : Refusal → Result
  | help => ⟨.exited 0, helpText, [], level⟩
  | version => ⟨.exited 0, versionText, [], level⟩
  | usage e => ⟨.exited 2, [], e.toText, level⟩

def Arguments.level (a : Arguments) : Log.Level := if a.verbose then .debug else .warning

namespace Invocation

def ending (i : Invocation) : Except Breakdown Nat → Ending
  | .error b => .broken b
  | .ok status => if i.entrance = .call then .returned status else .exited status

def transcript (i : Invocation) (fs : FileSystem) : Job → Transcript
  | .misuse => misuseTranscript
  | .script path => scriptTranscript i.entrance.logger path (fs.read path)
  | .prompt => promptTranscript i.limit i.input.lines

def run (fs : FileSystem) (level : Log.Level) (i : Invocation) : Result :=
  match Arguments.parse i.arguments with
  | .error refusal => refusal.result level
  | .ok arguments =>
    let t := i.transcript fs arguments.job
    ⟨i.ending t.ending, t.output, t.errorOutput arguments.level, arguments.level⟩

def runAll (fs : FileSystem) (level : Log.Level) : List Invocation → List Result
  | [] => []
  | i :: rest =>
    let result := i.run fs level
    result :: runAll fs result.level rest

variable {i : Invocation} {a : Arguments} (hparse : Arguments.parse i.arguments = .ok a)

include hparse

theorem run_of_parse (fs : FileSystem) (level : Log.Level) :
    let t := i.transcript fs a.job
    i.run fs level = ⟨i.ending t.ending, t.output, t.errorOutput a.level, a.level⟩ := by
  simp [run, hparse]

theorem run_of_nil (hscripts : a.scripts = []) (fs : FileSystem) (level : Log.Level) :
    let t := promptTranscript i.limit i.input.lines
    i.run fs level = ⟨i.ending t.ending, t.output, t.errorOutput a.level, a.level⟩ := by
  rw [run_of_parse hparse, Arguments.job_of_nil hscripts]
  rfl

theorem run_of_singleton {path : List Char} (hscripts : a.scripts = [path]) (fs : FileSystem)
    (level : Log.Level) :
    let t := scriptTranscript i.entrance.logger path (fs.read path)
    i.run fs level = ⟨i.ending t.ending, t.output, t.errorOutput a.level, a.level⟩ := by
  rw [run_of_parse hparse, Arguments.job_of_singleton hscripts]
  rfl

theorem run_of_two_le (htwo : 2 ≤ a.scripts.length) (fs : FileSystem) (level : Log.Level) :
    i.run fs level = ⟨i.ending (.ok misuseStatus), misuseText, [], a.level⟩ := by
  rw [run_of_parse hparse, Arguments.job_of_two_le htwo]
  rfl

end Invocation

end LoxLexer.CommandLine
