import HiddenTarget.Telemetry.Sink

/-!
# Calls of a logbook

A `Call` is what a program can ask of a logbook. `Logbook.call?` does it and has no
answer in one case only: a value that is no object cannot be recorded while the sink is
on. The records of steps and episodes go the same way as any other value, as objects,
so that the calls which make them always have an answer.
-/

namespace HiddenTarget.Telemetry

/-- What a program can ask of a logbook. -/
inductive Call
  | value (v : Json)
  | step (episode : UInt32) (action : Action) (outcome : Outcome)
  | episode (summary : Summary)
  | flush

namespace Logbook

def call? (b : Logbook) : Call → Option Logbook
  | .value v => b.record? v
  | .step episode action outcome => b.record? (.object (stepRecord episode action outcome))
  | .episode summary => b.record? (.object (episodeRecord summary))
  | .flush => some b.flush

def callAll? (b : Logbook) : List Call → Option Logbook
  | [] => some b
  | c :: rest => (b.call? c).bind (·.callAll? rest)

theorem record?_object (b : Logbook) (members : Json.Members) :
    b.record? (.object members) = some (b.record members) := by
  rw [record?, record]
  split
  · rfl
  · rfl

@[simp] theorem call?_step (b : Logbook) (episode : UInt32) (action : Action) (o : Outcome) :
    b.call? (.step episode action o) = some (b.recordStep episode action o) :=
  record?_object b _

@[simp] theorem call?_episode (b : Logbook) (s : Summary) :
    b.call? (.episode s) = some (b.recordEpisode s) :=
  record?_object b _

@[simp] theorem callAll?_nil (b : Logbook) : b.callAll? [] = some b := rfl

theorem callAll?_cons (b : Logbook) (c : Call) (rest : List Call) :
    b.callAll? (c :: rest) = (b.call? c).bind (·.callAll? rest) := rfl

theorem callAll?_append (b : Logbook) (before after : List Call) :
    b.callAll? (before ++ after) = (b.callAll? before).bind (·.callAll? after) := by
  induction before generalizing b with
  | nil => rfl
  | cons c rest ih =>
      rw [List.cons_append, callAll?_cons, callAll?_cons, Option.bind_assoc]
      congr 1
      funext b'
      exact ih b'

end Logbook

end HiddenTarget.Telemetry
