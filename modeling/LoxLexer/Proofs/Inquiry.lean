import LoxLexer.Proofs.Effects
import LoxLexer.Session

namespace LoxLexer

open Text

structure Inquiry where
  name : String
  request : Request
  deriving DecidableEq

def Inquiry.step (q : Inquiry) : Step := .ask q.name q.request

structure Event where
  inquiry : Inquiry
  answer : Except Mishap Response
  printed : List Char
  lexer? : Option Lexer

namespace Lexer

def event (name : String) (channel : Channel) (x : Lexer) (r : Request) : Event :=
  let o := x.serve (channel ≠ .refusing) r
  ⟨⟨name, r⟩, (o.answer.map Response.reply).mapError Mishap.fault,
    if channel = .console then asLines o.messages else [], some o.lexer⟩

def events (name : String) (channel : Channel) (x : Lexer) : List Request → List Event
  | [] => []
  | r :: rs =>
    x.event name channel r :: (x.serve (channel ≠ .refusing) r).lexer.events name channel rs

end Lexer

namespace Session

def lexer? (s : Session) (name : String) : Option Lexer := (s.station? name).map Station.lexer

def after (s : Session) (qs : List Inquiry) : Session :=
  qs.foldl (fun s q => (s.step q.step).session) s

def event (s : Session) (q : Inquiry) : Event :=
  let result := s.step q.step
  ⟨q, result.answer, result.printed, result.session.lexer? q.name⟩

def events (s : Session) : List Inquiry → List Event
  | [] => []
  | q :: qs => s.event q :: (s.step q.step).session.events qs

def channelAt (s : Session) : Option Nat → Channel
  | none => .console
  | some i => (s.sinks[i]?.map Sink.channel).getD .silent

def alone (name : String) (source : List Char) : Option Channel → Session
  | none => (({} : Session).step (.openLexer name source none)).session
  | some channel =>
    ((({} : Session).step (.openSink name channel)).session.step
      (.openLexer name source (some name))).session

variable {s : Session} {name other : String} {x : Lexer} {station : Station} {q : Inquiry}
  {place : Option Nat} {message : List Char} {messages : List (List Char)} {i : Nat} {k : Sink}

theorem lookup_filter_ne {β : Type} (l : List (String × β)) (h : other ≠ name) :
    (l.filter fun p => p.1 ≠ name).lookup other = l.lookup other := by
  induction l with
  | nil => rfl
  | cons p l ih =>
    obtain ⟨key, value⟩ := p
    by_cases hkey : key = name
    · have hother : (other == key) = false := by simpa [hkey] using h
      rw [List.filter_cons_of_neg (by simpa using hkey), ih, List.lookup_cons, hother]
    · rw [List.filter_cons_of_pos (by simpa using hkey), List.lookup_cons, List.lookup_cons, ih]

theorem station?_setStation_self (s : Session) (name : String) (station : Station) :
    (s.setStation name station).station? name = some station :=
  List.lookup_cons_self

theorem station?_setStation_of_ne (h : other ≠ name) (s : Session) (station : Station) :
    (s.setStation name station).station? other = s.station? other := by
  have hother : (other == name) = false := by simpa using h
  simp only [station?, setStation, List.lookup_cons, hother]
  exact lookup_filter_ne s.stations h

theorem exists_deliver_eq (s : Session) (place : Option Nat) (message : List Char) :
    ∃ sinks, (s.deliver place message).1 = { s with sinks } := by
  unfold deliver
  split
  · exact ⟨s.sinks, rfl⟩
  · split
    · exact ⟨s.sinks, rfl⟩
    · exact ⟨_, rfl⟩

theorem channelAt_deliver (s : Session) (place spot : Option Nat) (message : List Char) :
    (s.deliver place message).1.channelAt spot = s.channelAt spot := by
  have htake : ∀ k : Sink, (k.take message).channel = k.channel := by
    intro k
    unfold Sink.take
    split <;> rfl
  unfold deliver
  split
  · rfl
  · next i =>
    split
    · rfl
    · next k hk =>
      cases spot with
      | none => rfl
      | some j =>
        obtain ⟨hi, rfl⟩ := List.getElem?_eq_some_iff.1 hk
        by_cases hij : i = j
        · subst hij
          simp [channelAt, hi, htake]
        · simp [channelAt, List.getElem?_set_ne hij]

theorem printed_deliver (s : Session) (place : Option Nat) (message : List Char) :
    (s.deliver place message).2 =
      if s.channelAt place = .console then asLine message else [] := by
  unfold deliver channelAt
  split
  · rfl
  · split
    · next h => simp [h]
    · next k h =>
      simp only [h, Option.map_some, Option.getD_some, Sink.printed]
      cases k.channel <;> rfl

theorem sinks_deliver_self (h : s.sinks[i]? = some k) (message : List Char) :
    (s.deliver (some i) message).1.sinks[i]? = some (k.take message) := by
  obtain ⟨hi, rfl⟩ := List.getElem?_eq_some_iff.1 h
  simp [deliver, hi]

theorem sinks_deliver_of_ne (h : place ≠ some i) (s : Session) (message : List Char) :
    (s.deliver place message).1.sinks[i]? = s.sinks[i]? := by
  unfold deliver
  split
  · rfl
  · next j =>
    split
    · rfl
    · exact List.getElem?_set_ne fun hij => h (congrArg some hij)

theorem exists_deliverAll_eq (s : Session) (place : Option Nat) (messages : List (List Char)) :
    ∃ sinks, (s.deliverAll place messages).1 = { s with sinks } := by
  induction messages generalizing s with
  | nil => exact ⟨s.sinks, rfl⟩
  | cons message messages ih =>
    obtain ⟨_, hfirst⟩ := exists_deliver_eq s place message
    obtain ⟨sinks, hlater⟩ := ih (s.deliver place message).1
    exact ⟨sinks, hlater.trans (by rw [hfirst])⟩

theorem channelAt_deliverAll (s : Session) (place spot : Option Nat)
    (messages : List (List Char)) :
    (s.deliverAll place messages).1.channelAt spot = s.channelAt spot := by
  induction messages generalizing s with
  | nil => rfl
  | cons message messages ih => exact (ih _).trans (channelAt_deliver s place spot message)

theorem printed_deliverAll (s : Session) (place : Option Nat) (messages : List (List Char)) :
    (s.deliverAll place messages).2 =
      if s.channelAt place = .console then asLines messages else [] := by
  induction messages generalizing s with
  | nil => exact (ite_self _).symm
  | cons message messages ih =>
    have hlater := ih (s.deliver place message).1
    rw [channelAt_deliver] at hlater
    change (s.deliver place message).2 ++
      ((s.deliver place message).1.deliverAll place messages).2 = _
    rw [hlater, printed_deliver]
    split <;> rfl

theorem sinks_deliverAll_self (h : s.sinks[i]? = some k) (messages : List (List Char)) :
    (s.deliverAll (some i) messages).1.sinks[i]? = some (messages.foldl Sink.take k) := by
  induction messages generalizing s k with
  | nil => exact h
  | cons message messages ih => exact ih (sinks_deliver_self h message)

theorem sinks_deliverAll_of_ne (h : place ≠ some i) (s : Session)
    (messages : List (List Char)) :
    (s.deliverAll place messages).1.sinks[i]? = s.sinks[i]? := by
  induction messages generalizing s with
  | nil => rfl
  | cons message messages ih => exact (ih _).trans (sinks_deliver_of_ne h s message)

theorem foldl_take (h : k.channel = .collecting ∨ k.channel = .stream)
    (messages : List (List Char)) :
    messages.foldl Sink.take k = { k with messages := k.messages ++ messages } := by
  induction messages generalizing k with
  | nil => simp
  | cons message messages ih =>
    have htake : k.take message = { k with messages := k.messages ++ [message] } := by
      unfold Sink.take
      rcases h with h | h <;> rw [h]
    rw [List.foldl_cons, htake, ih (k := { k with messages := k.messages ++ [message] }) h]
    simp

theorem accepts_eq (s : Session) (place : Option Nat) :
    s.accepts place = decide (s.channelAt place ≠ .refusing) := by
  cases place with
  | none => rfl
  | some i =>
    rcases hk : s.sinks[i]? with _ | k <;> simp [accepts, channelAt, Sink.accepts, hk]

theorem step_of_station? (h : s.station? q.name = some station) :
    s.step q.step = s.ask q.name station q.request := by
  simp [Inquiry.step, step, h]

theorem step_of_none (h : s.station? q.name = none) : s.step q.step = s.unknown q.name := by
  simp [Inquiry.step, step, h]

theorem session_ask (s : Session) (name : String) (station : Station) (r : Request) :
    let o := station.lexer.serve (s.accepts station.sink) r
    (s.ask name station r).session =
      (s.deliverAll station.sink o.messages).1.setStation name { station with lexer := o.lexer } :=
  rfl

theorem exists_session_step_eq (h : s.station? q.name = some station) :
    ∃ sinks, (s.step q.step).session = setStation { s with sinks } q.name { station with
      lexer := (station.lexer.serve (s.accepts station.sink) q.request).lexer } := by
  obtain ⟨sinks, hsinks⟩ := exists_deliverAll_eq s station.sink
    (station.lexer.serve (s.accepts station.sink) q.request).messages
  exact ⟨sinks, by rw [step_of_station? h, session_ask, hsinks]⟩

theorem channelAt_step (s : Session) (q : Inquiry) (place : Option Nat) :
    (s.step q.step).session.channelAt place = s.channelAt place := by
  cases h : s.station? q.name with
  | none =>
    rw [step_of_none h]
    rfl
  | some station =>
    rw [step_of_station? h]
    exact channelAt_deliverAll s station.sink place _

theorem station?_step_self (h : s.station? q.name = some station) :
    (s.step q.step).session.station? q.name = some { station with
      lexer := (station.lexer.serve (s.accepts station.sink) q.request).lexer } := by
  obtain ⟨sinks, hsinks⟩ := exists_session_step_eq h
  rw [hsinks]
  exact station?_setStation_self _ q.name _

theorem station?_step_of_ne (h : other ≠ q.name) (s : Session) :
    (s.step q.step).session.station? other = s.station? other := by
  cases hstation : s.station? q.name with
  | none =>
    rw [step_of_none hstation]
    rfl
  | some station =>
    obtain ⟨sinks, hsinks⟩ := exists_session_step_eq hstation
    rw [hsinks, station?_setStation_of_ne h]
    rfl

theorem event_of_station? (h : s.station? q.name = some ⟨x, place⟩) :
    s.event q = x.event q.name (s.channelAt place) q.request := by
  have hlexer : (s.step q.step).session.lexer? q.name =
      some (x.serve (s.accepts place) q.request).lexer :=
    congrArg (Option.map Station.lexer) (station?_step_self h)
  have hprinted : (s.step q.step).printed = if s.channelAt place = .console then
      asLines (x.serve (s.accepts place) q.request).messages else [] := by
    rw [step_of_station? h]
    exact printed_deliverAll s place _
  rw [event, hlexer, hprinted, step_of_station? h, Lexer.event, ← accepts_eq]
  rfl

/-- What is seen of a lexer in a session is what is seen of it by itself. -/
theorem filter_events (h : s.station? name = some ⟨x, place⟩) (qs : List Inquiry) :
    (s.events qs).filter (fun e => e.inquiry.name = name) =
      x.events name (s.channelAt place)
        ((qs.filter fun q => q.name = name).map Inquiry.request) := by
  induction qs generalizing s x with
  | nil => rfl
  | cons q qs ih =>
    by_cases hq : q.name = name
    · subst hq
      have hlater := ih (station?_step_self h)
      rw [channelAt_step, accepts_eq] at hlater
      have hevent : (s.event q).inquiry.name = q.name := rfl
      rw [events, List.filter_cons_of_pos (by simp [hevent]), List.filter_cons_of_pos (by simp),
        event_of_station? h, hlater]
      rfl
    · have hlater := ih ((station?_step_of_ne (Ne.symm hq) s).trans h)
      rw [channelAt_step] at hlater
      have hevent : (s.event q).inquiry.name = q.name := rfl
      rw [events, List.filter_cons_of_neg (by simpa [hevent] using hq),
        List.filter_cons_of_neg (by simpa using hq)]
      exact hlater

theorem map_inquiry_events (s : Session) (qs : List Inquiry) :
    (s.events qs).map Event.inquiry = qs := by
  induction qs generalizing s with
  | nil => rfl
  | cons q qs ih => exact congrArg (q :: ·) (ih _)

theorem events_of_forall_name_eq (h : s.station? name = some ⟨x, place⟩) {qs : List Inquiry}
    (hqs : ∀ q ∈ qs, q.name = name) :
    s.events qs = x.events name (s.channelAt place) (qs.map Inquiry.request) := by
  have hevents : ∀ e ∈ s.events qs, e.inquiry.name = name := by
    intro e he
    refine hqs e.inquiry ?_
    rw [← map_inquiry_events s qs]
    exact List.mem_map_of_mem he
  have hfilter := filter_events h qs
  rwa [List.filter_eq_self.2 (by simpa using hevents), List.filter_eq_self.2 (by simpa using hqs)]
    at hfilter

theorem station?_alone (name : String) (source : List Char) (channel : Option Channel) :
    (alone name source channel).station? name =
      some ⟨.ofSource source, channel.map fun _ => 0⟩ := by
  cases channel with
  | none => exact station?_setStation_self _ name _
  | some channel => simp [alone, step, sinkIndex?, openSink, done, station?_setStation_self]

theorem channelAt_alone (name : String) (source : List Char) (channel : Option Channel) :
    (alone name source channel).channelAt (channel.map fun _ => 0) = channel.getD .console := by
  cases channel with
  | none => rfl
  | some channel => simp [alone, step, sinkIndex?, openSink, done, setStation, channelAt]

theorem events_alone (source : List Char) (channel : Option Channel) {qs : List Inquiry}
    (hqs : ∀ q ∈ qs, q.name = name) :
    (alone name source channel).events qs =
      (Lexer.ofSource source).events name (channel.getD .console) (qs.map Inquiry.request) := by
  rw [events_of_forall_name_eq (station?_alone name source channel) hqs, channelAt_alone]

end Session

end LoxLexer
