import HiddenTarget.Game.Outcome
import HiddenTarget.Game.Rules
import HiddenTarget.Random.Draw

/-!
# The guessing environment

An `Environment` hides a target and answers guesses. `reset` starts an episode: its
seed is given, or else the next 64-bit draw from the environment's own stream of
seeds, and the seed alone decides the target. `step` takes a guess and answers with
an `Outcome`; after the end of an episode it changes nothing any more.

`make` refuses rules that cannot be played and starts the first episode from the
stream of seeds.
-/

namespace HiddenTarget

open HiddenTarget.Random

structure Environment where
  rules : Rules
  /-- The source of episode seeds for resets without a seed. -/
  seeds : Generator
  target : Action
  steps : UInt32
  done : Bool
  seed : UInt64

namespace Environment

def targetOf (r : Rules) (seed : UInt64) : Action :=
  ((Generator.ofSeed seed).draw 0 (r.numTargets - 1)).1

def nextSeed (e : Environment) : Option UInt64 → UInt64 × Generator
  | some seed => (seed, e.seeds)
  | none => e.seeds.drawUInt64

def reset (e : Environment) (seed : Option UInt64) : Observation × Environment :=
  let (seed, seeds) := e.nextSeed seed
  (0, { e with
    seeds := seeds
    seed := seed
    target := targetOf e.rules seed
    steps := 0
    done := false })

/-- An environment whose episode seeds come from `seeds`, at the start of its first
episode. -/
def make (rules : Rules) (seeds : Generator) : Except Complaint Environment :=
  match rules.check with
  | .error c => .error c
  | .ok () =>
    let blank : Environment :=
      { rules := rules, seeds := seeds, target := 0, steps := 0, done := false, seed := 0 }
    .ok (blank.reset none).2

def ofSeed (rules : Rules) (seed : UInt64) : Except Complaint Environment :=
  make rules (Generator.ofSeed seed)

/-- Why the episode is over after a counted step, if it is: a hit comes before the
step limit. -/
def endingAfter (e : Environment) (steps : UInt32) (hit : Bool) : Option Ending :=
  if hit then some .targetHit
  else if e.rules.maxSteps ≤ steps then some .maxSteps
  else none

def step (e : Environment) (action : Action) : Outcome × Environment :=
  if e.done then
    ({ observation := e.steps
       reward := 0.0
       done := true
       info := { step := e.steps, ending := some .alreadyDone, hit := false, seed := e.seed } }, e)
  else
    let steps := e.steps + 1
    let hit := action == e.target
    let ending := e.endingAfter steps hit
    let done := ending.isSome
    ({ observation := steps
       reward := if hit then e.rules.hitReward else e.rules.missReward
       done := done
       info := { step := steps, ending := ending, hit := hit, seed := e.seed } },
     { e with steps := steps, done := done })

/-- Take the same guess `n` times; the last outcome, or `last` if there is none. -/
def stepTimes (action : Action) : Nat → Option Outcome → Environment → Option Outcome × Environment
  | 0, last, e => (last, e)
  | n + 1, _, e =>
    let (outcome, e) := e.step action
    stepTimes action n (some outcome) e

@[simp] theorem reset_fst (e : Environment) (seed : Option UInt64) : (e.reset seed).1 = 0 := rfl

@[simp] theorem reset_rules (e : Environment) (seed : Option UInt64) :
    (e.reset seed).2.rules = e.rules := rfl

@[simp] theorem reset_steps (e : Environment) (seed : Option UInt64) :
    (e.reset seed).2.steps = 0 := rfl

@[simp] theorem reset_done (e : Environment) (seed : Option UInt64) :
    (e.reset seed).2.done = false := rfl

@[simp] theorem reset_target (e : Environment) (seed : Option UInt64) :
    (e.reset seed).2.target = targetOf e.rules (e.reset seed).2.seed := rfl

@[simp] theorem reset_some_seed (e : Environment) (seed : UInt64) :
    (e.reset (some seed)).2.seed = seed := rfl

@[simp] theorem reset_some_seeds (e : Environment) (seed : UInt64) :
    (e.reset (some seed)).2.seeds = e.seeds := rfl

theorem step_of_done {e : Environment} (h : e.done = true) (action : Action) :
    (e.step action).2 = e := by
  simp [step, h]

@[simp] theorem step_rules (e : Environment) (action : Action) :
    (e.step action).2.rules = e.rules := by
  simp only [step]; split <;> rfl

@[simp] theorem step_target (e : Environment) (action : Action) :
    (e.step action).2.target = e.target := by
  simp only [step]; split <;> rfl

@[simp] theorem step_seed (e : Environment) (action : Action) :
    (e.step action).2.seed = e.seed := by
  simp only [step]; split <;> rfl

@[simp] theorem step_seeds (e : Environment) (action : Action) :
    (e.step action).2.seeds = e.seeds := by
  simp only [step]; split <;> rfl

@[simp] theorem step_info_seed (e : Environment) (action : Action) :
    (e.step action).1.info.seed = e.seed := by
  simp only [step]; split <;> rfl

@[simp] theorem step_observation (e : Environment) (action : Action) :
    (e.step action).1.observation = (e.step action).2.steps := by
  simp only [step]; split <;> rfl

end Environment

end HiddenTarget
