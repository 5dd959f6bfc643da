import HiddenTarget.Play.Episode
import HiddenTarget.Play.Plan

/-!
# Playing a batch of episodes

`playBatch` checks the plan and the rules, plays the planned episodes one after the
other with one environment and one uniform policy, and hands on what waits in the
logbook. Everything follows from the base seed: episode `i` has the seed `base + i`, and
the policy draws from a stream of its own, `playerSeed base`.
-/

namespace HiddenTarget

inductive BatchError
  | refused (c : Complaint)
  | output (fault : OutputFault)
deriving DecidableEq, Repr

namespace BatchError

def source : BatchError → String
  | refused c => c.text
  | output fault => fault.message

def text : BatchError → String
  | refused c => c.text
  | output fault => "Failed to write driver output: " ++ fault.message

end BatchError

def playerSeed (base : UInt64) : UInt64 := base ^^^ 0x9e3779b97f4a7c15

def episodeSeed (base : UInt64) (episode : UInt32) : UInt64 := base + episode.toUInt64

namespace Stage

/-- Play `n` episodes, from number `episode` on. The summaries come in order. -/
def playEpisodes (base : UInt64) (iterations : UInt32) :
    Nat → UInt32 → Stage UniformPlayer → Except OutputFault (List Summary) × Stage UniformPlayer
  | 0, _, s => (.ok [], s)
  | n + 1, episode, s =>
    match s.playEpisode .uniform episode (some (episodeSeed base episode)) iterations with
    | (.error fault, s) => (.error fault, s)
    | (.ok summary, s) =>
      match playEpisodes base iterations n (episode + 1) s with
      | (.error fault, s) => (.error fault, s)
      | (.ok summaries, s) => (.ok (summary :: summaries), s)

end Stage

structure BatchResult where
  summaries : Except BatchError (List Summary)
  output : Output
  logbook : Telemetry.Logbook

def openStage (plan : Plan) (rules : Rules) (base : UInt64) (output : Output)
    (logbook : Telemetry.Logbook) : Except Complaint (Stage UniformPlayer) := do
  plan.check
  let environment ← Environment.ofSeed rules base
  let player ← UniformPlayer.ofSeed plan.actionLow plan.actionHigh (playerSeed base)
  return { environment := environment, player := player, output := output, logbook := logbook }

/-- Play the episodes of a plan. `fresh` is the base seed of a plan without one. -/
def playBatch (plan : Plan) (rules : Rules) (fresh : UInt64) (output : Output)
    (logbook : Telemetry.Logbook) : BatchResult :=
  let base := plan.seed.getD fresh
  match openStage plan rules base output logbook with
  | .error c => ⟨.error (.refused c), output, logbook⟩
  | .ok s =>
    match s.playEpisodes base plan.iterations plan.episodes.toNat 0 with
    | (.error fault, s) => ⟨.error (.output fault), s.output, s.logbook⟩
    | (.ok summaries, s) => ⟨.ok summaries, s.output, s.logbook.flush⟩

end HiddenTarget
