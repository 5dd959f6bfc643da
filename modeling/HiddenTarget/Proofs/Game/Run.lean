import HiddenTarget.Game.Environment

/-!
# Runs of an environment

A `Move` is what can be asked of an environment, and `Environment.run` is a run of
moves with its answers. `Environment.Reachable rules` holds of the states that an
environment with these rules can be in: those that `make` and any moves lead to. What
holds of all of them is proved by `Reachable.invariant`, from the start of an episode and
from one step.
-/

namespace HiddenTarget

inductive Move
  | reset (seed : Option UInt64)
  | step (action : Action)

inductive Answer
  | observation (o : Observation)
  | outcome (o : Outcome)

theorem Rules.valid_default : ({} : Rules).Valid :=
  ⟨by decide, by decide, by decide, by decide⟩

namespace Environment

open HiddenTarget.Random

/-! ## Runs -/

def move (e : Environment) : Move → Answer × Environment
  | .reset seed => (.observation (e.reset seed).1, (e.reset seed).2)
  | .step action => (.outcome (e.step action).1, (e.step action).2)

def run (e : Environment) : List Move → List Answer × Environment
  | [] => ([], e)
  | m :: rest =>
    let (answer, e) := e.move m
    let (answers, e) := e.run rest
    (answer :: answers, e)

@[simp] theorem run_nil (e : Environment) : e.run [] = ([], e) := rfl

theorem run_cons (e : Environment) (m : Move) (rest : List Move) :
    e.run (m :: rest) =
      ((e.move m).1 :: ((e.move m).2.run rest).1, ((e.move m).2.run rest).2) := rfl

theorem run_append (e : Environment) (before after : List Move) :
    e.run (before ++ after) =
      ((e.run before).1 ++ ((e.run before).2.run after).1,
        ((e.run before).2.run after).2) := by
  induction before generalizing e with
  | nil => rfl
  | cons m rest ih => rw [List.cons_append, run_cons, ih, run_cons, List.cons_append]

/-! ## Reachable states -/

/-- The states that environments with the given rules can be in. The source of seeds
may be any, also one that no seed leads to. -/
inductive Reachable (rules : Rules) : Environment → Prop
  | make {seeds : Generator} {e : Environment} :
      Environment.make rules seeds = .ok e → Reachable rules e
  | move {e : Environment} (m : Move) : Reachable rules e → Reachable rules (e.move m).2

theorem Reachable.run {rules : Rules} {e : Environment} (h : Reachable rules e)
    (moves : List Move) : Reachable rules (e.run moves).2 := by
  induction moves generalizing e with
  | nil => exact h
  | cons m rest ih => exact ih (h.move m)

theorem make_of_valid {rules : Rules} (h : rules.Valid) (seeds : Generator) :
    make rules seeds =
      .ok ((Environment.mk rules seeds 0 0 false 0).reset none).2 := by
  rw [make, (Rules.check_eq_ok_iff rules).mpr h]

theorem valid_of_make {rules : Rules} {seeds : Generator} {e : Environment}
    (h : make rules seeds = .ok e) : rules.Valid := by
  rw [← Rules.check_eq_ok_iff]
  cases hc : rules.check with
  | ok u => rfl
  | error c => simp [make, hc] at h

/-- What every reset establishes and every step keeps holds of all reachable states. -/
theorem Reachable.invariant {rules : Rules} {P : Environment → Prop}
    (hreset : ∀ (e : Environment) (seed : Option UInt64),
      e.rules = rules → P (e.reset seed).2)
    (hstep : ∀ (e : Environment) (action : Action),
      e.rules = rules → P e → P (e.step action).2)
    {e : Environment} (h : Reachable rules e) : e.rules = rules ∧ P e := by
  induction h with
  | make hmake =>
      rw [make_of_valid (valid_of_make hmake)] at hmake
      obtain rfl := Except.ok.inj hmake
      exact ⟨rfl, hreset _ none rfl⟩
  | move m _ ih =>
      obtain ⟨hrules, hP⟩ := ih
      cases m with
      | reset seed => exact ⟨hrules, hreset _ seed hrules⟩
      | step action => exact ⟨(step_rules _ action).trans hrules, hstep _ action hrules hP⟩

theorem Reachable.rules_eq {rules : Rules} {e : Environment} (h : Reachable rules e) :
    e.rules = rules :=
  (h.invariant (P := fun _ => True) (fun _ _ _ => trivial) (fun _ _ _ _ => trivial)).1

theorem Reachable.valid {rules : Rules} {e : Environment} (h : Reachable rules e) :
    rules.Valid := by
  induction h with
  | make hmake => exact valid_of_make hmake
  | move _ _ ih => exact ih

end Environment

end HiddenTarget
