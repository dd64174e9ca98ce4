import LoxLexer.Proofs.Interleaving

namespace LoxLexer

open Segment Text

def Fault.refused : Fault → Fault
  | .lexical _ => .undelivered
  | fault => fault

def Mishap.refused : Mishap → Mishap
  | .fault f => .fault f.refused
  | mishap => mishap

/-- What is answered if the sink turns messages down: neither does a diagnostic come back from its
record, nor does one end an operation. -/
def Request.refused (r : Request) (answer : Except Mishap Response) : Except Mishap Response :=
  match r with
  | .record _ => .error (.fault .undelivered)
  | _ => answer.mapError Mishap.refused

namespace Event

def refused (e : Event) : Event := { e with answer := e.inquiry.request.refused e.answer }

end Event

namespace Lexer

/-- The second outcome is the first one for a sink that turns messages down. -/
structure Refuses {α : Type} (o p : Outcome α) : Prop where
  answer_eq : p.answer = o.answer.mapError Fault.refused
  lexer_eq : p.lexer = o.lexer
  messages_eq : p.messages = o.messages

variable {α β : Type} {o p : Outcome α} {x : Lexer} {r : Request}

theorem Refuses.map (h : Refuses o p) (f : α → β) : Refuses (o.map f) (p.map f) where
  answer_eq := by
    simp only [Outcome.map, h.answer_eq]
    cases o.answer <;> rfl
  lexer_eq := h.lexer_eq
  messages_eq := h.messages_eq

theorem Refuses.append {q : Outcome β} {q' : Outcome β} (h : Refuses o p) (hq : Refuses q q') :
    Refuses { q with notices := o.notices ++ q.notices }
      { q' with notices := p.notices ++ q'.notices } where
  answer_eq := hq.answer_eq
  lexer_eq := hq.lexer_eq
  messages_eq := by
    have h₁ : p.notices.filterMap Notice.message? = o.notices.filterMap Notice.message? :=
      h.messages_eq
    have h₂ : q'.notices.filterMap Notice.message? = q.notices.filterMap Notice.message? :=
      hq.messages_eq
    simp only [Outcome.messages, List.filterMap_append, h₁, h₂]

end Lexer

namespace Session

variable {s : Session} {name : String} {qs : List Inquiry}

section

variable (name : String) (source : List Char) (channel : Option Channel) {qs : List Inquiry}

end

end Session

end LoxLexer
