import LoxLexer.Proofs.Inquiry

namespace LoxLexer.Session

open Text

/-- Nothing has been asked of the lexers yet, and the sinks that they have are empty. -/
structure IsFresh (s : Session) : Prop where
  lexer_eq : ∀ {name station}, s.station? name = some station →
    station.lexer = .ofSource station.lexer.source
  sink_lt : ∀ {name station i}, s.station? name = some station → station.sink = some i →
    i < s.sinks.length
  index_lt : ∀ {name i}, s.sinkIndex? name = some i → i < s.sinks.length
  messages_eq : ∀ k ∈ s.sinks, k.messages = []

def channel? (s : Session) (station : Station) : Option Channel :=
  station.sink.bind fun i => s.sinks[i]?.map Sink.channel

def sink? (s : Session) (name : String) : Option Nat := (s.station? name).bind Station.sink

def diagnostics (s : Session) (name : String) : List Diagnostic :=
  ((s.lexer? name).map Lexer.diagnostics).getD []

/-- The diagnostics that the lexers record, each with the name of its lexer, in the order in which
they are recorded. -/
def recorded (s : Session) : List Inquiry → List (String × Diagnostic)
  | [] => []
  | q :: qs =>
    let next := (s.step q.step).session
    ((next.diagnostics q.name).drop (s.diagnostics q.name).length).map (q.name, ·) ++
      next.recorded qs

variable {s : Session} {name other : String} {station : Station} {q : Inquiry} {i : Nat} {k : Sink}

theorem isFresh_empty : IsFresh {} where
  lexer_eq h := by cases h
  sink_lt h := by cases h
  index_lt h := by cases h
  messages_eq := List.forall_mem_nil _

theorem IsFresh.openSink (h : s.IsFresh) (name : String) (channel : Channel) :
    (s.openSink name channel).IsFresh where
  lexer_eq hstation := h.lexer_eq hstation
  sink_lt hstation hsink := by
    have := h.sink_lt hstation hsink
    simp only [Session.openSink, List.length_append, List.length_singleton]
    omega
  index_lt {other i} hi := by
    simp only [sinkIndex?, Session.openSink, List.lookup_cons, List.length_append,
      List.length_singleton] at hi ⊢
    split at hi
    · obtain rfl := Option.some.inj hi
      omega
    · have := h.index_lt hi
      omega
  messages_eq := by
    simp only [Session.openSink, List.forall_mem_append, List.forall_mem_singleton, and_true]
    exact h.messages_eq

theorem IsFresh.setStation (h : s.IsFresh) (name : String) (source : List Char) {place : Option Nat}
    (hplace : ∀ i, place = some i → i < s.sinks.length) :
    (s.setStation name ⟨.ofSource source, place⟩).IsFresh := by
  have hcases : ∀ {other station},
      (s.setStation name ⟨.ofSource source, place⟩).station? other = some station →
        station = ⟨.ofSource source, place⟩ ∨ s.station? other = some station := by
    intro other station hstation
    by_cases hname : other = name
    · subst hname
      rw [station?_setStation_self] at hstation
      exact .inl (Option.some.inj hstation).symm
    · rw [station?_setStation_of_ne hname] at hstation
      exact .inr hstation
  refine ⟨fun hstation => ?_, fun {_ _ i} hstation hsink => ?_, h.index_lt, h.messages_eq⟩
  · rcases hcases hstation with rfl | hold
    · rfl
    · exact h.lexer_eq hold
  · rcases hcases hstation with rfl | hold
    · exact hplace i hsink
    · exact h.sink_lt hold hsink

theorem IsFresh.openLexer (h : s.IsFresh) (name : String) (source : List Char)
    (sink : Option String) : (s.step (.openLexer name source sink)).session.IsFresh := by
  cases sink with
  | none => exact h.setStation name source (by simp)
  | some sink =>
    cases hi : s.sinkIndex? sink with
    | none =>
      simp only [step, hi]
      exact h
    | some i =>
      simp only [step, hi]
      exact h.setStation name source fun j hj => h.index_lt (Option.some.inj hj ▸ hi)

theorem IsFresh.channelAt_eq (h : s.IsFresh) (hstation : s.station? name = some station) :
    s.channelAt station.sink = (s.channel? station).getD .console := by
  unfold channelAt channel?
  cases hsink : station.sink with
  | none => rfl
  | some i => simp [List.getElem?_eq_getElem (h.sink_lt hstation hsink)]

theorem lexer?_step_of_ne (h : other ≠ q.name) (s : Session) :
    (s.step q.step).session.lexer? other = s.lexer? other :=
  congrArg (Option.map Station.lexer) (station?_step_of_ne h s)

theorem sink?_step (s : Session) (q : Inquiry) (name : String) :
    (s.step q.step).session.sink? name = s.sink? name := by
  unfold sink?
  by_cases hname : name = q.name
  · subst hname
    cases h : s.station? q.name with
    | none => rw [step_of_none h, unknown, h]
    | some station => rw [station?_step_self h, Option.bind_some, Option.bind_some]
  · rw [station?_step_of_ne hname]

theorem diagnostics_of_station? (h : s.station? name = some station) :
    s.diagnostics name = station.lexer.diagnostics := by
  rw [diagnostics, lexer?, h]
  rfl

theorem exists_recorded (s : Session) (q : Inquiry) :
    ∃ added, (s.step q.step).session.diagnostics q.name = s.diagnostics q.name ++ added ∧
      ((s.step q.step).printed = if s.channelAt (s.sink? q.name) = .console then
        asLines (added.map Diagnostic.toText) else []) ∧
      ∀ (i : Nat) (k : Sink), s.sinks[i]? = some k →
        k.channel = .collecting ∨ k.channel = .stream →
          (s.step q.step).session.sinks[i]? = some { k with
            messages := k.messages ++
              if s.sink? q.name = some i then added.map Diagnostic.toText else [] } := by
  cases h : s.station? q.name with
  | none =>
    rw [step_of_none h]
    exact ⟨[], (List.append_nil _).symm, (ite_self _).symm,
      fun i k hk _ => by simpa [unknown] using hk⟩
  | some station =>
    obtain ⟨added, hadded, htexts⟩ :=
      Lexer.logs_serve (s.accepts station.sink) station.lexer q.request
    have hsink : s.sink? q.name = station.sink := by rw [sink?, h, Option.bind_some]
    refine ⟨added, ?_, ?_, fun i k hk hchannel => ?_⟩
    · rw [diagnostics_of_station? (station?_step_self h), diagnostics_of_station? h]
      exact hadded
    · rw [step_of_station? h, hsink, ← htexts]
      exact printed_deliverAll s station.sink _
    · rw [step_of_station? h, session_ask, htexts, hsink]
      change (s.deliverAll station.sink (added.map Diagnostic.toText)).1.sinks[i]? = _
      by_cases hi : station.sink = some i
      · rw [if_pos hi, hi, sinks_deliverAll_self hk, foldl_take hchannel]
      · rw [if_neg hi, sinks_deliverAll_of_ne hi, hk, List.append_nil]

theorem diagnostics_step_of_ne (h : other ≠ q.name) (s : Session) :
    (s.step q.step).session.diagnostics other = s.diagnostics other := by
  rw [diagnostics, diagnostics, lexer?_step_of_ne h]

theorem filter_recorded_cons {added : List Diagnostic}
    (h : (s.step q.step).session.diagnostics q.name = s.diagnostics q.name ++ added)
    (keep : String → Bool) (qs : List Inquiry) :
    ((s.recorded (q :: qs)).filter fun p => keep p.1) =
      (if keep q.name then added.map (q.name, ·) else []) ++
        ((s.step q.step).session.recorded qs).filter fun p => keep p.1 := by
  rw [recorded, h, List.drop_left, List.filter_append]
  by_cases hkeep : keep q.name = true <;> simp [List.filter_map, Function.comp_def, hkeep]

theorem diagnostics_after (s : Session) (qs : List Inquiry) (name : String) :
    (s.after qs).diagnostics name =
      s.diagnostics name ++ ((s.recorded qs).filter fun p => p.1 = name).map Prod.snd := by
  induction qs generalizing s with
  | nil => exact (List.append_nil _).symm
  | cons q qs ih =>
    obtain ⟨added, hadded, -, -⟩ := exists_recorded s q
    have hlater := ih (s.step q.step).session
    rw [filter_recorded_cons hadded fun other => other = name, List.map_append]
    change ((s.step q.step).session.after qs).diagnostics name = _
    rw [hlater]
    by_cases hname : q.name = name
    · subst hname
      simp [hadded, Function.comp_def]
    · simp [diagnostics_step_of_ne (Ne.symm hname), hname]

theorem sinks_after (hk : s.sinks[i]? = some k)
    (hchannel : k.channel = .collecting ∨ k.channel = .stream) (qs : List Inquiry) :
    (s.after qs).sinks[i]? = some { k with
      messages := k.messages ++
        ((s.recorded qs).filter fun p => s.sink? p.1 = some i).map fun p => p.2.toText } := by
  induction qs generalizing s k with
  | nil => simpa [recorded, after] using hk
  | cons q qs ih =>
    obtain ⟨added, hadded, -, hsinks⟩ := exists_recorded s q
    have hlater := ih (hsinks i k hk hchannel) hchannel
    rw [filter_recorded_cons hadded fun name => s.sink? name = some i, List.map_append]
    change ((s.step q.step).session.after qs).sinks[i]? = _
    rw [hlater]
    by_cases hi : s.sink? q.name = some i <;> simp [sink?_step, Function.comp_def, hi]

/-- In whatever order requests to fresh lexers are made, each lexer answers and prints and ends up
as if it were alone with a sink of its own, and a sink that several of them share has the texts of
their diagnostics, each once and in the order in which they are recorded. -/
theorem IsFresh.independent (h : s.IsFresh) (qs : List Inquiry) :
    (∀ name station, s.station? name = some station →
      (s.events qs).filter (fun e => e.inquiry.name = name) =
          (alone name station.lexer.source (s.channel? station)).events
            (qs.filter fun q => q.name = name) ∧
        ((s.recorded qs).filter fun p => p.1 = name).map Prod.snd =
          (s.after qs).diagnostics name) ∧
      ∀ i : Nat, s.sinks[i]?.map Sink.channel = some .collecting →
        (s.after qs).sinks[i]? = some ⟨.collecting,
          ((s.recorded qs).filter fun p => s.sink? p.1 = some i).map fun p => p.2.toText⟩ := by
  refine ⟨fun name station hstation => ⟨?_, ?_⟩, fun i hi => ?_⟩
  · have hnames : ∀ q ∈ qs.filter (fun q => q.name = name), q.name = name := by simp
    have hsame : s.station? name = some ⟨.ofSource station.lexer.source, station.sink⟩ := by
      rw [hstation, ← h.lexer_eq hstation]
    rw [filter_events hsame, events_alone _ _ hnames, h.channelAt_eq hstation]
  · rw [diagnostics_after, diagnostics_of_station? hstation, h.lexer_eq hstation]
    rfl
  · obtain ⟨k, hk, hchannel⟩ := Option.map_eq_some_iff.1 hi
    rw [sinks_after hk (.inl hchannel), hchannel, h.messages_eq k (List.mem_of_getElem? hk)]
    rfl

theorem independent_with_shared_sink :
    let s := ((((({} : Session).openSink "sink" .collecting).step
      (.openLexer "x" "1@".toList (some "sink"))).session).step
      (.openLexer "y" "\"".toList (some "sink"))).session
    let qs : List Inquiry := [⟨"y", .readUnit⟩, ⟨"x", .run⟩, ⟨"y", .atEnd⟩, ⟨"x", .readUnit⟩]
    s.IsFresh ∧
      (s.events qs).filter (fun e => e.inquiry.name = "x") =
        (alone "x" "1@".toList (some .collecting)).events [⟨"x", .run⟩, ⟨"x", .readUnit⟩] ∧
      ((s.recorded qs).filter fun p => p.1 = "y").map Prod.snd = [.unterminatedString 1] ∧
      (s.after qs).sinks[0]? = some ⟨.collecting,
        ["[line 1] Error : Unterminated string".toList,
          "[line 1] Error : Unexpected character.".toList]⟩ := by
  intro s qs
  have hfresh : s.IsFresh := ((isFresh_empty.openSink _ _).openLexer _ _ _).openLexer _ _ _
  obtain ⟨hlexers, hsinks⟩ := hfresh.independent qs
  have hrecorded : s.recorded qs =
      [("y", .unterminatedString 1), ("x", .unexpectedCharacter 1)] := by decide +kernel
  refine ⟨hfresh, (hlexers "x" ⟨.ofSource "1@".toList, some 0⟩ (by decide +kernel)).1, ?_, ?_⟩
  · rw [hrecorded]
    decide +kernel
  · rw [hsinks 0 (by decide +kernel), hrecorded]
    decide +kernel

end LoxLexer.Session
