import HiddenTarget.Proofs.Play.Unlimited

/-!
# Trajectories of one stream of guesses

The guesses of a uniform player are one stream, `UniformPlayer.guess`, and they do not
depend on the game. `Environment.trajectory` plays a stream of guesses from the start of
an episode to its end or to the end of a budget, and `trajectories` plays one episode
after the other, each with the guesses that come next. `Policy.uniform_turns` says that
these are the turns of a uniform player, and `map_action_trajectories` that no guess is
left out and none is used twice.
-/

namespace HiddenTarget

/-! ## The stream of guesses -/

namespace UniformPlayer

def after (p : UniformPlayer) : Nat → UniformPlayer
  | 0 => p
  | k + 1 => p.draw.2.after k

/-- The guess that is drawn after `k` other ones. -/
def guess (p : UniformPlayer) (k : Nat) : Action := (p.after k).draw.1

@[simp] theorem after_zero (p : UniformPlayer) : p.after 0 = p := rfl

theorem after_succ (p : UniformPlayer) (k : Nat) : p.after (k + 1) = p.draw.2.after k := rfl

theorem after_add (p : UniformPlayer) (j k : Nat) : p.after (j + k) = (p.after j).after k := by
  induction j generalizing p with
  | zero => rw [Nat.zero_add, after_zero]
  | succ j ih => rw [Nat.succ_add, after_succ, after_succ, ih]

theorem guess_after (p : UniformPlayer) (j : Nat) :
    (p.after j).guess = fun k => p.guess (j + k) := by
  funext k
  rw [guess, guess, after_add]

theorem guess_draw (p : UniformPlayer) : p.draw.2.guess = fun k => p.guess (k + 1) := rfl

theorem drawMany_succ (p : UniformPlayer) (n : Nat) :
    p.drawMany (n + 1) = p.draw.1 :: p.draw.2.drawMany n := rfl

theorem drawMany_eq (p : UniformPlayer) (n : Nat) :
    p.drawMany n = (List.range n).map p.guess := by
  induction n generalizing p with
  | zero => rfl
  | succ n ih =>
      rw [drawMany_succ, ih, guess_draw, List.range_succ_eq_map, List.map_cons, List.map_map]
      rfl

end UniformPlayer

/-! ## Trajectories -/

/-- The turns that a stream of guesses takes, until one of them ends the episode or `n` are
taken. -/
def Environment.trajectory : Nat → (Nat → Action) → Environment → List Turn
  | 0, _, _ => []
  | n + 1, guesses, e =>
    let (outcome, after) := e.step (guesses 0)
    ⟨guesses 0, outcome⟩ ::
      if outcome.done then [] else trajectory n (fun k => guesses (k + 1)) after

/-- Trajectories of at most `n` turns from given states on. Each of them goes on in the
stream of guesses where the one before has stopped. -/
def trajectories (n : Nat) : (Nat → Action) → List Environment → List (List Turn)
  | _, [] => []
  | guesses, e :: rest =>
    let turns := e.trajectory n guesses
    turns :: trajectories n (fun k => guesses (turns.length + k)) rest

namespace Environment

variable {n : Nat} {guesses : Nat → Action} {e : Environment}

theorem trajectory_of_done (h : (e.step (guesses 0)).1.done = true) :
    e.trajectory (n + 1) guesses = [⟨guesses 0, (e.step (guesses 0)).1⟩] := by
  simp only [trajectory, h, if_true]

theorem trajectory_of_running (h : (e.step (guesses 0)).1.done = false) :
    e.trajectory (n + 1) guesses =
      ⟨guesses 0, (e.step (guesses 0)).1⟩ ::
        (e.step (guesses 0)).2.trajectory n (fun k => guesses (k + 1)) := by
  simp only [trajectory, h, Bool.false_eq_true, if_false]

theorem map_action_trajectory (n : Nat) (guesses : Nat → Action) (e : Environment) :
    (e.trajectory n guesses).map Turn.action =
      (List.range (e.trajectory n guesses).length).map guesses := by
  induction n generalizing guesses e with
  | zero => rfl
  | succ n ih =>
      cases hdone : (e.step (guesses 0)).1.done with
      | true => rw [trajectory_of_done hdone]; rfl
      | false =>
          rw [trajectory_of_running hdone, List.map_cons, ih, List.length_cons,
            List.range_succ_eq_map, List.map_cons, List.map_map]
          rfl

theorem length_trajectory_le (n : Nat) (guesses : Nat → Action) (e : Environment) :
    (e.trajectory n guesses).length ≤ n := by
  induction n generalizing guesses e with
  | zero => exact Nat.le_refl 0
  | succ n ih =>
      cases hdone : (e.step (guesses 0)).1.done with
      | true =>
          rw [trajectory_of_done hdone]
          exact Nat.succ_le_succ (Nat.zero_le n)
      | false =>
          rw [trajectory_of_running hdone]
          exact Nat.succ_le_succ (ih _ _)

end Environment

theorem length_trajectories (n : Nat) (guesses : Nat → Action) (starts : List Environment) :
    (trajectories n guesses starts).length = starts.length := by
  induction starts generalizing guesses with
  | nil => rfl
  | cons e rest ih => rw [trajectories, List.length_cons, List.length_cons, ih]

theorem exists_of_mem_trajectories {n : Nat} {guesses : Nat → Action}
    {starts : List Environment} {turns : List Turn}
    (h : turns ∈ trajectories n guesses starts) :
    ∃ (e : Environment) (later : Nat → Action), turns = e.trajectory n later := by
  induction starts generalizing guesses with
  | nil => cases h
  | cons e rest ih =>
      rw [trajectories] at h
      rcases List.mem_cons.mp h with rfl | h
      · exact ⟨e, guesses, rfl⟩
      · exact ih h

/-- **No guess is left out and none is used twice**: the guesses of all trajectories
together are the first ones of the stream. -/
theorem map_action_trajectories (n : Nat) (guesses : Nat → Action)
    (starts : List Environment) :
    (trajectories n guesses starts).flatten.map Turn.action =
      (List.range (trajectories n guesses starts).flatten.length).map guesses := by
  induction starts generalizing guesses with
  | nil => rfl
  | cons e rest ih =>
      rw [trajectories, List.flatten_cons, List.map_append, ih,
        Environment.map_action_trajectory, List.length_append, List.range_add,
        List.map_append, List.map_map]
      rfl

/-! ## Turns of an episode -/

/-- Turns of which none but the last one ends the episode. -/
inductive EpisodeTurns : List Turn → Prop
  | unfinished : EpisodeTurns []
  | finished {t : Turn} : t.outcome.done = true → EpisodeTurns [t]
  | turn {t : Turn} {rest : List Turn} :
      t.outcome.done = false → EpisodeTurns rest → EpisodeTurns (t :: rest)

theorem Environment.episodeTurns_trajectory (n : Nat) (guesses : Nat → Action)
    (e : Environment) : EpisodeTurns (e.trajectory n guesses) := by
  induction n generalizing guesses e with
  | zero => exact .unfinished
  | succ n ih =>
      cases hdone : (e.step (guesses 0)).1.done with
      | true =>
          rw [trajectory_of_done hdone]
          exact .finished hdone
      | false =>
          rw [trajectory_of_running hdone]
          exact .turn hdone (ih _ _)

/-- The turns of a uniform player are a trajectory of its guesses. The state after them
differs in the running episode only, and the player has drawn once for each turn. -/
theorem Policy.uniform_turns (n : Nat) (observation : Observation) (e : Environment)
    (p : UniformPlayer) :
    ∃ e' : Environment, e'.rules = e.rules ∧ e'.seeds = e.seeds ∧ e'.seed = e.seed ∧
      uniform.turns n observation e p =
        (e.trajectory n p.guess, e', p.after (e.trajectory n p.guess).length) := by
  induction n generalizing observation e p with
  | zero => exact ⟨e, rfl, rfl, rfl, rfl⟩
  | succ n ih =>
      have hact : uniform.act p observation = (p.guess 0, p.after 1) := rfl
      cases hdone : (e.step (p.guess 0)).1.done with
      | true =>
          have hturns : uniform.turns (n + 1) observation e p = _ :=
            turns_of_done (by rw [hact]; exact hdone)
          rw [hact] at hturns
          rw [Environment.trajectory_of_done hdone]
          exact ⟨_, Environment.step_rules _ _, Environment.step_seeds _ _,
            Environment.step_seed _ _, hturns⟩
      | false =>
          have hturns : uniform.turns (n + 1) observation e p = _ :=
            turns_of_running (by rw [hact]; exact hdone)
          obtain ⟨e', hrules, hseeds, hseed, hrest⟩ :=
            ih (e.step (p.guess 0)).1.observation (e.step (p.guess 0)).2 (p.after 1)
          rw [hact] at hturns
          simp only [hrest] at hturns
          rw [Environment.trajectory_of_running hdone, List.length_cons,
            UniformPlayer.after_succ]
          exact ⟨e', hrules.trans (Environment.step_rules _ _),
            hseeds.trans (Environment.step_seeds _ _),
            hseed.trans (Environment.step_seed _ _), hturns⟩

end HiddenTarget
