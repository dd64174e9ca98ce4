import LoxLexer.Lexer.Request
import LoxLexer.Sink

/-! Sessions: named sinks, named lexers that report to them, and the steps that use them.

A lexer keeps its sink when the name of the sink is given to another one, so sinks are
held in a list that only grows and names point into it. -/

namespace LoxLexer

/-- A lexer with the place of its sink.  Without one it prints. -/
structure Station where
  lexer : Lexer
  sink : Option Nat
  deriving DecidableEq

structure Session where
  sinks : List Sink := []
  sinkNames : List (String × Nat) := []
  stations : List (String × Station) := []
  deriving DecidableEq

inductive Step
  | openSink (name : String) (channel : Channel)
  | report (name : String) (message : List Char)
  | contents (name : String)
  | openLexer (name : String) (source : List Char) (sink : Option String)
  | ask (name : String) (request : Request)
  deriving DecidableEq

inductive Mishap
  | fault (f : Fault)
  | unknownName (name : String)
  | noContents (channel : Channel)
  deriving DecidableEq, Repr

inductive Response
  | reply (r : Reply)
  | contents (c : Sink.Contents)
  deriving DecidableEq

structure StepResult where
  answer : Except Mishap Response
  printed : List Char
  session : Session

namespace Session

def sinkIndex? (s : Session) (name : String) : Option Nat := s.sinkNames.lookup name

def station? (s : Session) (name : String) : Option Station := s.stations.lookup name

def setStation (s : Session) (name : String) (station : Station) : Session :=
  { s with stations := (name, station) :: s.stations.filter (fun p => p.1 ≠ name) }

def accepts (s : Session) : Option Nat → Bool
  | none => true
  | some i => (s.sinks[i]?.map Sink.accepts).getD true

def deliver (s : Session) (place : Option Nat) (message : List Char) : Session × List Char :=
  match place with
  | none => (s, Text.asLine message)
  | some i =>
    match s.sinks[i]? with
    | none => (s, [])
    | some k => ({ s with sinks := s.sinks.set i (k.take message) }, k.printed message)

def deliverAll (s : Session) (place : Option Nat) : List (List Char) → Session × List Char
  | [] => (s, [])
  | message :: rest =>
    let (s, printed) := s.deliver place message
    let (s, later) := s.deliverAll place rest
    (s, printed ++ later)

def openSink (s : Session) (name : String) (channel : Channel) : Session :=
  { s with
    sinks := s.sinks ++ [{ channel }]
    sinkNames := (name, s.sinks.length) :: s.sinkNames }

def ask (s : Session) (name : String) (station : Station) (request : Request) : StepResult :=
  let outcome := station.lexer.serve (s.accepts station.sink) request
  let (s, printed) := s.deliverAll station.sink outcome.messages
  ⟨(outcome.answer.map Response.reply).mapError Mishap.fault, printed,
    s.setStation name { station with lexer := outcome.lexer }⟩

def unknown (s : Session) (name : String) : StepResult := ⟨.error (.unknownName name), [], s⟩

def done (s : Session) : StepResult := ⟨.ok (.reply .done), [], s⟩

def step (s : Session) : Step → StepResult
  | .openSink name channel => (s.openSink name channel).done
  | .report name message =>
    match s.sinkIndex? name with
    | none => s.unknown name
    | some i =>
      if s.accepts (some i) then
        let (s, printed) := s.deliver (some i) message
        { s.done with printed }
      else ⟨.error (.fault .undelivered), [], s⟩
  | .contents name =>
    match (s.sinkIndex? name).bind (s.sinks[·]?) with
    | none => s.unknown name
    | some k =>
      match k.contents? with
      | some c => ⟨.ok (.contents c), [], s⟩
      | none => ⟨.error (.noContents k.channel), [], s⟩
  | .openLexer name source none => (s.setStation name ⟨.ofSource source, none⟩).done
  | .openLexer name source (some sink) =>
    match s.sinkIndex? sink with
    | none => s.unknown sink
    | some i => (s.setStation name ⟨.ofSource source, some i⟩).done
  | .ask name request =>
    match s.station? name with
    | none => s.unknown name
    | some station => s.ask name station request

end Session

end LoxLexer
