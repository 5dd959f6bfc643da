import HiddenTarget.Play.Episode
import HiddenTarget.Proofs.Game.Bounds

/-!
# Bounds of a play

The summary of an episode counts steps of its own, whatever the environment counts.
`Stage.turns?` and `Stage.playEpisode?` play an episode with a check of that count, which
has room for all the steps that a budget allows: `turns?_eq_turns`. `play_in_bounds` puts
this beside the bounds of the environment.
-/

namespace HiddenTarget

open HiddenTarget.Random

/-- Add a step to a summary, if there is a next number for it. -/
def Summary.add? (s : Summary) (o : Outcome) : Option Summary :=
  (successor? s.steps).map fun _ => s.add o

namespace Stage

variable {σ : Type}

/-- The turns of a policy, with a summary that counts with a check. The step is counted
before its lines are written. -/
def turns? (policy : Policy σ) :
    Nat → Observation → Summary → Stage σ → Option (Except OutputFault Summary × Stage σ)
  | 0, _, summary, s => some (.ok summary, s)
  | n + 1, observation, summary, s =>
    let turn := s.turn policy summary.episode observation
    (summary.add? turn.1).bind fun summary =>
      match turn with
      | (_, some fault, s) => some (.error fault, s)
      | (outcome, none, s) =>
        if outcome.done then some (.ok (summary.close outcome), s)
        else turns? policy n outcome.observation summary s

def playEpisode? (policy : Policy σ) (episode : UInt32) (seed : Option UInt64)
    (iterations : UInt32) (s : Stage σ) : Option (Except OutputFault Summary × Stage σ) :=
  let (observation, environment) := s.environment.reset seed
  let summary : Summary := { episode := episode, seed := environment.seed }
  (turns? policy iterations.toNat observation summary { s with environment := environment }).map
    fun
      | (.error fault, s) => (.error fault, s)
      | (.ok summary, s) => (.ok summary, { s with logbook := s.logbook.recordEpisode summary })

/-- The count has room for all the steps that are still allowed. -/
theorem turns?_eq_turns (policy : Policy σ) (n : Nat) (observation : Observation)
    (summary : Summary) (h : summary.steps.toNat + n < UInt32.size) (s : Stage σ) :
    turns? policy n observation summary s = some (turns policy n observation summary s) := by
  induction n generalizing observation summary s with
  | zero => rfl
  | succ n ih =>
      have hsucc : successor? summary.steps = some (summary.steps + 1) := if_pos (by omega)
      have hadd : ∀ o, summary.add? o = some (summary.add o) := by
        intro o
        rw [Summary.add?, hsucc]
        rfl
      rcases hturn : s.turn policy summary.episode observation with ⟨outcome, fault, t⟩
      cases fault with
      | some fault => simp only [turns?, turns, hturn, hadd, Option.bind_some]
      | none =>
          have hsteps : (summary.add outcome).steps.toNat = summary.steps.toNat + 1 := by
            have hone : (1 : UInt32).toNat = 1 := rfl
            rw [Summary.add, UInt32.toNat_add, hone]
            exact Nat.mod_eq_of_lt (Nat.lt_of_le_of_lt (by omega) h)
          have hrest := ih outcome.observation (summary.add outcome) (by rw [hsteps]; omega) t
          simp only [turns?, turns, hturn, hadd, Option.bind_some, hrest]
          split
          · rfl
          · rfl

theorem playEpisode?_eq_playEpisode (policy : Policy σ) (episode : UInt32)
    (seed : Option UInt64) (iterations : UInt32) (s : Stage σ) :
    playEpisode? policy episode seed iterations s =
      some (playEpisode policy episode seed iterations s) := by
  let start : Summary := { episode := episode, seed := (s.environment.reset seed).2.seed }
  have hroom : start.steps.toNat + iterations.toNat < UInt32.size := by
    have hzero : start.steps.toNat = 0 := rfl
    rw [hzero, Nat.zero_add]
    exact iterations.toNat_lt
  have hturns := turns?_eq_turns policy iterations.toNat (s.environment.reset seed).1 start hroom
    { s with environment := (s.environment.reset seed).2 }
  rcases hresult : turns policy iterations.toNat (s.environment.reset seed).1 start
    { s with environment := (s.environment.reset seed).2 } with ⟨fault | summary, t⟩
  · simp only [playEpisode?, playEpisode, start, hturns, hresult, Option.map_some]
  · simp only [playEpisode?, playEpisode, start, hturns, hresult, Option.map_some]

end Stage

/-- **Nothing leaves its bounds.** Rules that can be played make an environment, and rules
that cannot make none. Whatever is asked of an environment, it stays within the bounds, and
an episode that is over before its limit has been hit with its last counted step. So careful
arithmetic gives the same answers: there is always a target to draw and a next number for a
step that is counted, in the environment and in the summary of an episode played with it. -/
theorem play_in_bounds :
    (∀ (rules : Rules) (seeds : Generator),
      Environment.make? rules seeds = some (Environment.make rules seeds) ∧
        (¬ rules.Valid → ∃ c, Environment.make rules seeds = .error c)) ∧
    (∀ rules : Rules, rules.Valid → ∀ seeds : Generator,
      ∃ start, Environment.make rules seeds = .ok start ∧
        ∀ moves : List Move,
          let e := (start.run moves).2
          start.run? moves = some (start.run moves) ∧
            e.InBounds rules ∧
            (e.done = true → e.steps < rules.maxSteps →
              ∃ (before : List Move) (late : List Action),
                moves = before ++ .step e.target :: late.map .step ∧
                  (start.run before).2.done = false ∧
                  ((start.run before).2.step e.target).2 = e)) ∧
    (∀ (σ : Type) (policy : Policy σ) (episode : UInt32) (seed : Option UInt64)
      (iterations : UInt32) (s : Stage σ),
      s.playEpisode? policy episode seed iterations =
        some (s.playEpisode policy episode seed iterations)) := by
  refine ⟨?_, ?_, ?_⟩
  · intro rules seeds
    refine ⟨Environment.make?_eq_make rules seeds, ?_⟩
    intro hinvalid
    cases hmake : Environment.make rules seeds with
    | error c => exact ⟨c, rfl⟩
    | ok e => exact absurd (Environment.valid_of_make hmake) hinvalid
  · intro rules hrules seeds
    have hmake := Environment.make_of_valid hrules seeds
    refine ⟨_, hmake, ?_⟩
    intro moves e
    have hstart : Environment.Reachable rules _ := .make hmake
    exact ⟨hstart.run?_eq_run moves, (hstart.run moves).inBounds,
      Environment.last_counted_of_done hstart rfl moves⟩
  · intro σ policy episode seed iterations s
    exact Stage.playEpisode?_eq_playEpisode policy episode seed iterations s

/-- As many targets and steps as there are numbers for, and an episode that is hit early. -/
theorem play_in_bounds_largest :
    let rules : Rules := { numTargets := 2147483647, maxSteps := 4294967295 }
    rules.Valid ∧
      ∃ start, Environment.make rules (.ofSeed 5) = .ok start ∧
        let moves : List Move := [.reset (some 77), .step (-1), .step 947521226, .step 3]
        let e := (start.run moves).2
        start.run? moves = some (start.run moves) ∧ e.target = 947521226 ∧
          e.done = true ∧ e.steps = 2 ∧ e.InBounds rules ∧
          ∃ (before : List Move) (late : List Action),
            moves = before ++ .step e.target :: late.map .step ∧
              (start.run before).2.done = false ∧
              ((start.run before).2.step e.target).2 = e := by
  intro rules
  have hrules : rules.Valid := ⟨by decide, by decide, by decide, by decide⟩
  obtain ⟨-, hbounds, -⟩ := play_in_bounds
  obtain ⟨start, hmake, hmoves⟩ := hbounds rules hrules (.ofSeed 5)
  refine ⟨hrules, start, hmake, ?_⟩
  intro moves e
  obtain ⟨hrun, hin, hlast⟩ := hmoves moves
  have hstart : start.rules = rules := (Environment.Reachable.make hmake).rules_eq
  have htarget : Environment.targetOf rules 77 = 947521226 := by decide +kernel
  have hlimit : ¬ rules.maxSteps ≤ 1 := by decide
  have hstate : e.target = 947521226 ∧ e.done = true ∧ e.steps = 2 := by
    simp [e, moves, Environment.run_cons, Environment.move, Environment.step,
      Environment.endingAfter, hstart, htarget, hlimit]
  obtain ⟨htarget', hdone, hsteps⟩ := hstate
  exact ⟨hrun, htarget', hdone, hsteps, hin, hlast hdone (by rw [hsteps]; decide)⟩

end HiddenTarget
