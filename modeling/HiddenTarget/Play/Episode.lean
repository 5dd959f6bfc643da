import HiddenTarget.Game.Environment
import HiddenTarget.Play.Output
import HiddenTarget.Play.Policy
import HiddenTarget.Telemetry.Sink

/-!
# Playing an episode

A `Stage` is everything that a played episode changes: the environment, the state of
the policy, the output and the logbook. `Stage.playEpisode` resets the environment and
lets the policy act until the episode is over or a number of actions is used up. Each
step is recorded first and written to the output then, with a closing line after the
step that ends the episode; the episode is recorded at the end. A fault of the output
ends the play at once and leaves everything as it is at that moment.
-/

namespace HiddenTarget

structure Stage (σ : Type) where
  environment : Environment
  player : σ
  output : Output := {}
  logbook : Telemetry.Logbook := {}

def choiceLine (action : Action) (observation : Observation) : String :=
  "Choice: " ++ Decimal.integerText action.toInt ++ "\t Answer: " ++
    Decimal.naturalText observation.toNat ++ "\n"

def clearLine : String := "Clear!\n"

def outcomeLines (action : Action) (o : Outcome) : List String :=
  if o.done then [choiceLine action o.observation, clearLine]
  else [choiceLine action o.observation]

namespace Output

/-- Write lines until one of them is not taken. -/
def writeAll (o : Output) : List String → Option OutputFault × Output
  | [] => (none, o)
  | line :: rest =>
    match o.write line with
    | (none, o) => o.writeAll rest
    | (some fault, o) => (some fault, o)

end Output

namespace Stage

variable {σ : Type}

/-- One action of the policy: the step it takes, the record of it and its lines. -/
def turn (policy : Policy σ) (episode : UInt32) (observation : Observation) (s : Stage σ) :
    Outcome × Option OutputFault × Stage σ :=
  let (action, player) := policy.act s.player observation
  let (outcome, environment) := s.environment.step action
  let (fault, output) := s.output.writeAll (outcomeLines action outcome)
  (outcome, fault,
    { environment := environment
      player := player
      output := output
      logbook := s.logbook.recordStep episode action outcome })

def turns (policy : Policy σ) :
    Nat → Observation → Summary → Stage σ → Except OutputFault Summary × Stage σ
  | 0, _, summary, s => (.ok summary, s)
  | n + 1, observation, summary, s =>
    match s.turn policy summary.episode observation with
    | (_, some fault, s) => (.error fault, s)
    | (outcome, none, s) =>
      let summary := summary.add outcome
      if outcome.done then (.ok (summary.close outcome), s)
      else turns policy n outcome.observation summary s

def playEpisode (policy : Policy σ) (episode : UInt32) (seed : Option UInt64)
    (iterations : UInt32) (s : Stage σ) : Except OutputFault Summary × Stage σ :=
  let (observation, environment) := s.environment.reset seed
  let summary : Summary := { episode := episode, seed := environment.seed }
  let s := { s with environment := environment }
  match turns policy iterations.toNat observation summary s with
  | (.error fault, s) => (.error fault, s)
  | (.ok summary, s) => (.ok summary, { s with logbook := s.logbook.recordEpisode summary })

end Stage

end HiddenTarget
