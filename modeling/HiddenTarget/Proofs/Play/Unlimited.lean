import HiddenTarget.Play.Transcript

/-!
# Play with an output that takes everything

With an output without a limit, what is written never comes back to the play: an episode
is its turns, `Policy.turns`, and what it writes are the events of the turns.
`Stage.write` writes events to a stage all at once, and `playEpisode_of_unlimited` says
that a played episode does nothing else.
-/

namespace HiddenTarget

namespace Event

def line? : Event → Option String
  | .record _ => none
  | .line text => some text

def record? : Event → Option Json.Members
  | .record members => some members
  | .line _ => none

def text (events : List Event) : String := String.join (events.filterMap line?)

def records (events : List Event) : List Json.Members := events.filterMap record?

theorem text_record (members : Json.Members) : text [.record members] = "" := rfl

theorem records_record (members : Json.Members) : records [.record members] = [members] := rfl

theorem text_append (before after : List Event) :
    text (before ++ after) = text before ++ text after := by
  rw [text, List.filterMap_append, String.join_append, text, text]

theorem records_append (before after : List Event) :
    records (before ++ after) = records before ++ records after :=
  List.filterMap_append

theorem filterMap_line?_events (episode : UInt32) (t : Turn) :
    (t.events episode).filterMap line? = outcomeLines t.action t.outcome := by
  have hlines : (outcomeLines t.action t.outcome).filterMap (line? ∘ Event.line) =
      outcomeLines t.action t.outcome := List.filterMap_some
  rw [Turn.events, List.filterMap_cons_none rfl, List.filterMap_map, hlines]

theorem records_events (episode : UInt32) (t : Turn) :
    records (t.events episode) = [Telemetry.stepRecord episode t.action t.outcome] := by
  have hlines : (outcomeLines t.action t.outcome).filterMap (record? ∘ Event.line) = [] :=
    List.filterMap_eq_nil_iff.mpr fun _ _ => rfl
  rw [Turn.events, ← List.singleton_append, records_append, records_record, records,
    List.filterMap_map, hlines, List.append_nil]

end Event

namespace Policy

variable {σ : Type} {policy : Policy σ} {n : Nat} {observation : Observation}
  {environment : Environment} {player : σ}

theorem turns_of_done
    (h : (environment.step (policy.act player observation).1).1.done = true) :
    policy.turns (n + 1) observation environment player =
      ([⟨(policy.act player observation).1,
          (environment.step (policy.act player observation).1).1⟩],
        (environment.step (policy.act player observation).1).2,
        (policy.act player observation).2) := by
  simp only [turns, h, if_true]

theorem turns_of_running
    (h : (environment.step (policy.act player observation).1).1.done = false) :
    policy.turns (n + 1) observation environment player =
      let result := environment.step (policy.act player observation).1
      let rest := policy.turns n result.1.observation result.2 (policy.act player observation).2
      (⟨(policy.act player observation).1, result.1⟩ :: rest.1, rest.2) := by
  simp only [turns, h, Bool.false_eq_true, if_false]

end Policy

namespace Stage

variable {σ : Type}

/-- Write events: the lines to the output, which must not have a limit, and the records
to the logbook. -/
def write (s : Stage σ) (events : List Event) : Stage σ :=
  { s with
    output := { s.output with written := s.output.written ++ (Event.text events).toUTF8 }
    logbook := (Event.records events).foldl Telemetry.Logbook.record s.logbook }

theorem write_environment (s : Stage σ) (events : List Event) :
    (s.write events).environment = s.environment := rfl

theorem write_player (s : Stage σ) (events : List Event) :
    (s.write events).player = s.player := rfl

theorem write_nil (s : Stage σ) : s.write [] = s := by
  simp [write, Event.text, Event.records]

theorem write_record (s : Stage σ) (members : Json.Members) :
    s.write [.record members] = { s with logbook := s.logbook.record members } := by
  rw [write, Event.text_record, Event.records_record]
  simp

theorem write_append (s : Stage σ) (before after : List Event) :
    s.write (before ++ after) = (s.write before).write after := by
  simp only [write, Event.text_append, Event.records_append, List.foldl_append,
    String.toUTF8_eq_toByteArray, String.toByteArray_append, ByteArray.append_assoc]

theorem writeAll_of_unlimited {o : Output} (h : o.room = none) (lines : List String) :
    o.writeAll lines =
      (none, { o with written := o.written ++ (String.join lines).toUTF8 }) := by
  induction lines generalizing o with
  | nil => simp [Output.writeAll]
  | cons line rest ih =>
      have hrest := ih (o := { o with written := o.written ++ line.toUTF8 }) h
      rw [Output.writeAll, Output.write_of_room_none h]
      simpa [ByteArray.append_assoc] using hrest

theorem turn_of_unlimited (policy : Policy σ) (episode : UInt32) (observation : Observation)
    {s : Stage σ} (h : s.output.room = none) :
    let action := (policy.act s.player observation).1
    let result := s.environment.step action
    s.turn policy episode observation =
      (result.1, none,
        { s with
          environment := result.2
          player := (policy.act s.player observation).2 }.write
          (Turn.events episode ⟨action, result.1⟩)) := by
  intro action result
  rw [turn, write, Event.text, Event.filterMap_line?_events, Event.records_events]
  simp only [writeAll_of_unlimited h]
  rfl

theorem turns_of_unlimited (policy : Policy σ) (n : Nat) (observation : Observation)
    (summary : Summary) {s : Stage σ} (h : s.output.room = none) :
    let played := policy.turns n observation s.environment s.player
    turns policy n observation summary s =
      (.ok (summary.addTurns played.1),
        { s with environment := played.2.1, player := played.2.2 }.write
          (played.1.flatMap (Turn.events summary.episode))) := by
  induction n generalizing observation summary s with
  | zero => exact congrArg (Prod.mk _) (write_nil s).symm
  | succ n ih =>
      have hturn := turn_of_unlimited policy summary.episode observation h
      cases hdone : (s.environment.step (policy.act s.player observation).1).1.done with
      | true =>
          rw [Policy.turns_of_done hdone, turns, hturn]
          simp only [hdone, if_true, Summary.addTurns, List.flatMap_cons, List.flatMap_nil,
            List.append_nil]
      | false =>
          rw [Policy.turns_of_running hdone, turns, hturn]
          simp only [hdone, Bool.false_eq_true, if_false, Summary.addTurns, List.flatMap_cons,
            write_append]
          exact ih _ _ h

/-- **An episode with an unlimited output** is the turns of its policy from a reset on:
the summary adds them up, and what is written are their events and the record of the
whole. -/
theorem playEpisode_of_unlimited (policy : Policy σ) (episode : UInt32)
    (seed : Option UInt64) (iterations : UInt32) {s : Stage σ} (h : s.output.room = none) :
    let start := (s.environment.reset seed).2
    let played := policy.turns iterations.toNat 0 start s.player
    let summary : Summary := { episode := episode, seed := start.seed }
    playEpisode policy episode seed iterations s =
      (.ok (summary.addTurns played.1),
        { s with environment := played.2.1, player := played.2.2 }.write
          (episodeEvents summary played.1)) := by
  intro start played summary
  have hturns := turns_of_unlimited policy iterations.toNat 0 summary
    (s := { s with environment := start }) h
  rw [episodeEvents, write_append, write_record, playEpisode]
  simp only [Environment.reset_fst]
  rw [hturns]
  rfl

end Stage

end HiddenTarget
