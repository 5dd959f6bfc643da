import HiddenTarget.Play.Batch

/-!
# The transcript of a batch

What a batch writes, in the order in which it writes it: records for the logbook and
lines for the output, each an `Event`. The transcript follows from the plan, the rules
and the base seed alone. It is made from the turns of each episode, which
`Policy.turns` plays without writing anything.
-/

namespace HiddenTarget

structure Turn where
  action : Action
  outcome : Outcome

inductive Event
  | record (members : Json.Members)
  | line (text : String)

/-- At most `n` turns of a policy, and the environment and the state of the policy after
them. -/
def Policy.turns {σ : Type} (policy : Policy σ) :
    Nat → Observation → Environment → σ → List Turn × Environment × σ
  | 0, _, environment, player => ([], environment, player)
  | n + 1, observation, environment, player =>
    let (action, player) := policy.act player observation
    let (outcome, environment) := environment.step action
    if outcome.done then ([⟨action, outcome⟩], environment, player)
    else
      let (rest, after) := policy.turns n outcome.observation environment player
      (⟨action, outcome⟩ :: rest, after)

def Summary.addTurns (s : Summary) : List Turn → Summary
  | [] => s
  | t :: rest =>
    let s := s.add t.outcome
    addTurns (if t.outcome.done then s.close t.outcome else s) rest

/-- What a turn writes: its record first, then its lines. -/
def Turn.events (episode : UInt32) (t : Turn) : List Event :=
  .record (Telemetry.stepRecord episode t.action t.outcome) ::
    (outcomeLines t.action t.outcome).map Event.line

def episodeEvents (start : Summary) (turns : List Turn) : List Event :=
  turns.flatMap (·.events start.episode) ++
    [.record (Telemetry.episodeRecord (start.addTurns turns))]

def episodesEvents (base : UInt64) (iterations : UInt32) :
    Nat → UInt32 → Environment → UniformPlayer → List Event
  | 0, _, _, _ => []
  | n + 1, episode, environment, player =>
    let (observation, environment) := environment.reset (some (episodeSeed base episode))
    let (turns, environment, player) :=
      Policy.uniform.turns iterations.toNat observation environment player
    episodeEvents { episode := episode, seed := environment.seed } turns ++
      episodesEvents base iterations n (episode + 1) environment player

def transcript (plan : Plan) (rules : Rules) (base : UInt64) : Except Complaint (List Event) :=
  (openStage plan rules base {} {}).map fun s =>
    episodesEvents base plan.iterations plan.episodes.toNat 0 s.environment s.player

end HiddenTarget
