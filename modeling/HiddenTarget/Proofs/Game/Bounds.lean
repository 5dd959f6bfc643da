import HiddenTarget.Proofs.Game.Course
import HiddenTarget.Proofs.Random.Range
import Mathlib.Data.List.Induction

/-!
# Bounds of an environment

`Environment.InBounds` says what holds of an environment at any time: the target is the one
that the seed of the episode hides and one that can be guessed, and the steps are within
their limit, below it as long as the episode runs. `reset_inBounds` and `InBounds.step` are
the two ways to get there, and `Reachable.inBounds` is every state. If an episode is over
before the limit, the last step that was counted has hit: `last_counted_of_done`.

The operations with a question mark are those of the environment with the checks of careful
arithmetic. They have no answer where a number is counted beyond the last one there is, or
where a target is drawn from none. `run?_eq_run` says that this does not happen.
-/

namespace HiddenTarget

open HiddenTarget.Random

/-- The next number, if there is one. -/
def successor? (n : UInt32) : Option UInt32 :=
  if n.toNat + 1 < UInt32.size then some (n + 1) else none

theorem successor?_of_lt {n m : UInt32} (h : n < m) : successor? n = some (n + 1) :=
  if_pos (Nat.lt_of_le_of_lt (UInt32.lt_iff_toNat_lt.mp h) m.toNat_lt)

theorem toNat_add_one_of_lt {n m : UInt32} (h : n < m) : (n + 1).toNat = n.toNat + 1 := by
  have hlt := UInt32.lt_iff_toNat_lt.mp h
  have hm := m.toNat_lt
  have hone : (1 : UInt32).toNat = 1 := rfl
  rw [UInt32.toNat_add, hone]
  omega

theorem add_one_le_of_lt {n m : UInt32} (h : n < m) : n + 1 ≤ m := by
  rw [UInt32.le_iff_toNat_le, toNat_add_one_of_lt h]
  exact UInt32.lt_iff_toNat_lt.mp h

namespace Environment

/-! ## The bounds -/

/-- What holds of an environment with the given rules at any time. -/
structure InBounds (rules : Rules) (e : Environment) : Prop where
  rules_eq : e.rules = rules
  /-- The seed of the episode alone decides the target. -/
  target_eq : e.target = targetOf rules e.seed
  target_nonneg : 0 ≤ e.target
  target_lt : e.target < rules.numTargets
  steps_le : e.steps ≤ rules.maxSteps
  steps_lt : e.done = false → e.steps < rules.maxSteps
  steps_pos : e.done = true → 1 ≤ e.steps

variable {rules : Rules} {e : Environment}

theorem toInt_lastTarget {n : Int32} (h : 1 ≤ n) : (n - 1).toInt = n.toInt - 1 := by
  have hone : (1 : Int32).toInt = 1 := rfl
  have hmax := n.toInt_lt
  rw [Int32.le_iff_toInt_le, hone] at h
  rw [Int32.toInt_sub, hone, Int.bmod_eq_of_le (by omega) (by omega)]

theorem zero_le_lastTarget {n : Int32} (h : 1 ≤ n) : 0 ≤ n - 1 := by
  have hzero : (0 : Int32).toInt = 0 := rfl
  have hone : (1 : Int32).toInt = 1 := rfl
  have hlast := toInt_lastTarget h
  rw [Int32.le_iff_toInt_le, hone] at h
  rw [Int32.le_iff_toInt_le, hzero, hlast]
  omega

theorem targetOf_mem (h : 1 ≤ rules.numTargets) (seed : UInt64) :
    0 ≤ targetOf rules seed ∧ targetOf rules seed < rules.numTargets := by
  obtain ⟨hlow, hle⟩ := Generator.draw_mem (zero_le_lastTarget h) (Generator.ofSeed seed)
  refine ⟨hlow, ?_⟩
  rw [Int32.le_iff_toInt_le, toInt_lastTarget h] at hle
  rw [Int32.lt_iff_toInt_lt]
  exact Int.lt_of_le_sub_one hle

theorem reset_inBounds (hvalid : rules.Valid) (hrules : e.rules = rules)
    (seed : Option UInt64) : (e.reset seed).2.InBounds rules := by
  subst hrules
  exact
    { rules_eq := rfl
      target_eq := rfl
      target_nonneg := (targetOf_mem hvalid.1 _).1
      target_lt := (targetOf_mem hvalid.1 _).2
      steps_le := UInt32.zero_le
      steps_lt := fun _ => UInt32.lt_of_lt_of_le (show (0 : UInt32) < 1 by decide) hvalid.2.1
      steps_pos := by
        intro hdone
        cases hdone }

theorem step_snd_of_running (h : e.done = false) (action : Action) :
    (e.step action).2.steps = e.steps + 1 ∧
      ((e.step action).2.done = true ↔ action = e.target ∨ e.rules.maxSteps ≤ e.steps + 1) := by
  rw [step_eq_of_running h]
  refine ⟨rfl, ?_⟩
  simp only [endingAfter, decide_eq_true_eq]
  by_cases hhit : action = e.target
  · simp [hhit]
  · by_cases hlimit : e.rules.maxSteps ≤ e.steps + 1
    · simp [hhit, hlimit]
    · simp [hhit, hlimit]

theorem InBounds.step (h : e.InBounds rules) (action : Action) :
    (e.step action).2.InBounds rules := by
  cases hdone : e.done with
  | true =>
      rw [step_of_done hdone]
      exact h
  | false =>
      obtain ⟨hsteps, hend⟩ := step_snd_of_running hdone action
      have hlt := h.steps_lt hdone
      rw [h.rules_eq] at hend
      exact
        { rules_eq := (step_rules e action).trans h.rules_eq
          target_eq := by
            rw [step_target, step_seed]
            exact h.target_eq
          target_nonneg := by
            rw [step_target]
            exact h.target_nonneg
          target_lt := by
            rw [step_target]
            exact h.target_lt
          steps_le := by
            rw [hsteps]
            exact add_one_le_of_lt hlt
          steps_lt := by
            intro hrunning
            rw [hsteps]
            refine UInt32.not_le.mp fun hlimit => ?_
            rw [hend.mpr (.inr hlimit)] at hrunning
            cases hrunning
          steps_pos := by
            intro _
            rw [hsteps, UInt32.le_iff_toNat_le, toNat_add_one_of_lt hlt]
            exact Nat.le_add_left _ _ }

theorem Reachable.inBounds (h : Reachable rules e) : e.InBounds rules :=
  (h.invariant (P := InBounds rules)
    (fun _ seed hrules => reset_inBounds h.valid hrules seed)
    (fun _ action _ hbounds => hbounds.step action)).2

/-! ## The last counted step -/

/-- If an episode is over before its limit, the last step that was counted has hit the
target: nothing but steps came after it, and they have changed nothing. -/
theorem last_counted_of_done {start : Environment} (hstart : Reachable rules start)
    (hrunning : start.done = false) (moves : List Move)
    (hdone : (start.run moves).2.done = true)
    (hearly : (start.run moves).2.steps < rules.maxSteps) :
    ∃ (before : List Move) (late : List Action),
      moves = before ++ .step (start.run moves).2.target :: late.map .step ∧
      (start.run before).2.done = false ∧
      ((start.run before).2.step (start.run moves).2.target).2 = (start.run moves).2 := by
  induction moves using List.reverseRecOn with
  | nil =>
      rw [run_nil, hrunning] at hdone
      cases hdone
  | append_singleton before m ih =>
      have hrun : (start.run (before ++ [m])).2 = ((start.run before).2.move m).2 := by
        rw [run_append]
        rfl
      rw [hrun] at hdone hearly ⊢
      cases m with
      | reset seed => cases hdone
      | step action =>
          have hmove : ((start.run before).2.move (.step action)).2 =
            ((start.run before).2.step action).2 := rfl
          rw [hmove] at hdone hearly ⊢
          cases hover : (start.run before).2.done with
          | true =>
              -- The step was not counted, so the last counted one is that of before.
              rw [step_of_done hover] at hearly ⊢
              obtain ⟨before', late, hmoves, hrunning', hsame⟩ := ih hover hearly
              refine ⟨before', late ++ [action], ?_, hrunning', hsame⟩
              rw [List.map_append, List.map_singleton, ← List.cons_append, ← List.append_assoc,
                ← hmoves]
          | false =>
              obtain ⟨hsteps, hend⟩ := step_snd_of_running hover action
              have hrules := (hstart.run before).rules_eq
              rw [hsteps] at hearly
              rw [hrules] at hend
              have hhit : action = (start.run before).2.target :=
                (hend.mp hdone).resolve_right (UInt32.not_le.mpr hearly)
              rw [step_target, ← hhit]
              exact ⟨before, [], rfl, hover, rfl⟩

/-! ## Careful arithmetic -/

/-- Draw the target of a seed, if there are targets. -/
def targetOf? (r : Rules) (seed : UInt64) : Option Action :=
  if 0 < r.numTargets then some (targetOf r seed) else none

def reset? (e : Environment) (seed : Option UInt64) : Option (Observation × Environment) :=
  (targetOf? e.rules (e.nextSeed seed).1).map fun _ => e.reset seed

/-- Take a step; a step that is counted wants a next number. -/
def step? (e : Environment) (action : Action) : Option (Outcome × Environment) :=
  if e.done then some (e.step action)
  else (successor? e.steps).map fun _ => e.step action

def make? (rules : Rules) (seeds : Generator) : Option (Except Complaint Environment) :=
  match rules.check with
  | .error c => some (.error c)
  | .ok () => ((Environment.mk rules seeds 0 0 false 0).reset? none).map fun r => .ok r.2

def move? (e : Environment) : Move → Option (Answer × Environment)
  | .reset seed => (e.reset? seed).map fun r => (.observation r.1, r.2)
  | .step action => (e.step? action).map fun r => (.outcome r.1, r.2)

def run? (e : Environment) : List Move → Option (List Answer × Environment)
  | [] => some ([], e)
  | m :: rest =>
    (e.move? m).bind fun r => (r.2.run? rest).map fun s => (r.1 :: s.1, s.2)

theorem reset?_eq_reset (hvalid : e.rules.Valid) (seed : Option UInt64) :
    e.reset? seed = some (e.reset seed) := by
  have hpos : 0 < e.rules.numTargets := Int32.lt_of_lt_of_le (by decide) hvalid.1
  rw [reset?, targetOf?, if_pos hpos]
  rfl

theorem InBounds.step?_eq_step (h : e.InBounds rules) (action : Action) :
    e.step? action = some (e.step action) := by
  cases hdone : e.done with
  | true => rw [step?, if_pos hdone]
  | false =>
      rw [step?, if_neg (by simp [hdone]), successor?_of_lt (h.steps_lt hdone)]
      rfl

theorem make?_eq_make (rules : Rules) (seeds : Generator) :
    make? rules seeds = some (make rules seeds) := by
  cases hcheck : rules.check with
  | error c => simp only [make?, make, hcheck]
  | ok u =>
      have hvalid : rules.Valid := (Rules.check_eq_ok_iff rules).mp hcheck
      have hreset := reset?_eq_reset (e := ⟨rules, seeds, 0, 0, false, 0⟩) hvalid none
      simp only [make?, make, hcheck, hreset]
      rfl

theorem Reachable.move?_eq_move (h : Reachable rules e) (m : Move) :
    e.move? m = some (e.move m) := by
  cases m with
  | reset seed =>
      have hvalid : e.rules.Valid := h.rules_eq ▸ h.valid
      rw [move?, reset?_eq_reset hvalid]
      rfl
  | step action =>
      rw [move?, h.inBounds.step?_eq_step]
      rfl

theorem Reachable.run?_eq_run (h : Reachable rules e) (moves : List Move) :
    e.run? moves = some (e.run moves) := by
  induction moves generalizing e with
  | nil => rfl
  | cons m rest ih =>
      have hrest := ih (h.move m)
      rw [run?, h.move?_eq_move, Option.bind_some, hrest]
      rfl

end Environment

end HiddenTarget
