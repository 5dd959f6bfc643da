import HiddenTarget.Proofs.Game.Run

/-!
# The course of an episode

Once an episode has started, its guesses alone decide what its steps answer.
`lastStep` is the number of the step that ends it: the first hit, or the last step that
the rules allow if that comes before. `Environment.after` is the state after a number of
guesses and `Environment.outcomeAt` the answer to one of them, both written down without
playing. `step_after` is one step of the course, `run_after` a run from any point of it,
and `run_reset_eq_course` is the whole course from a reset on.
-/

namespace HiddenTarget

/-- The number of the step that ends an episode with the given limit of steps: the first
guess that is the target, but none beyond the limit. -/
def lastStep (limit : Nat) (target : Action) (guesses : List Action) : Nat :=
  match guesses.findIdx? (· == target) with
  | some i => min (i + 1) limit
  | none => limit

theorem lastStep_le (limit : Nat) (target : Action) (guesses : List Action) :
    lastStep limit target guesses ≤ limit := by
  rw [lastStep]
  split
  · exact Nat.min_le_right _ _
  · exact Nat.le_refl limit

theorem lastStep_pos {limit : Nat} (h : 0 < limit) (target : Action) (guesses : List Action) :
    0 < lastStep limit target guesses := by
  rw [lastStep]
  split
  · exact Nat.lt_min.mpr ⟨Nat.succ_pos _, h⟩
  · exact h

theorem ne_target_of_lt_lastStep {limit : Nat} {target : Action} {guesses : List Action}
    {i : Nat} {action : Action} (hi : guesses[i]? = some action)
    (h : i + 1 < lastStep limit target guesses) : action ≠ target := by
  rintro rfl
  obtain ⟨hlt, rfl⟩ := List.getElem?_eq_some_iff.mp hi
  rw [lastStep] at h
  split at h
  · next k hk =>
      -- The first hit is at `k`, so the guess at `i` comes after the last step.
      obtain ⟨_, _, hfirst⟩ := List.findIdx?_eq_some_iff_getElem.mp hk
      have hik : i < k := by omega
      simpa using hfirst i hik
  · next hk =>
      have := List.findIdx?_eq_none_iff.mp hk _ (List.getElem_mem hlt)
      simp at this

theorem eq_target_or_eq_limit {limit : Nat} {target : Action} {guesses : List Action}
    {i : Nat} {action : Action} (hi : guesses[i]? = some action)
    (h : i + 1 = lastStep limit target guesses) :
    action = target ∨ lastStep limit target guesses = limit := by
  obtain ⟨hlt, rfl⟩ := List.getElem?_eq_some_iff.mp hi
  rw [lastStep] at h ⊢
  split at h
  · next k hk =>
      obtain ⟨hklt, hhit, _⟩ := List.findIdx?_eq_some_iff_getElem.mp hk
      rcases Nat.le_total (k + 1) limit with hle | hle
      · have hki : k = i := by omega
        subst hki
        exact .inl (by simpa using hhit)
      · exact .inr (Nat.min_eq_right hle)
  · exact .inr rfl

theorem mapIdx_from_cons {α β : Type} (f : Nat → α → β) (i : Nat) (a : α) (rest : List α) :
    (a :: rest).mapIdx (fun k => f (i + k)) = f i a :: rest.mapIdx fun k => f (i + 1 + k) := by
  have hshift : (fun k => f (i + (k + 1))) = fun k => f (i + 1 + k) := by
    funext k
    rw [Nat.add_assoc, Nat.add_comm 1 k]
  rw [List.mapIdx_cons, hshift, Nat.add_zero]

namespace Environment

/-- The state after `k` guesses of an episode that starts in `start` and ends with step
`last`. -/
def after (start : Environment) (last k : Nat) : Environment :=
  { start with
    steps := UInt32.ofNat (min k last)
    done := decide (last ≤ k) }

/-- The answer to guess number `j` of an episode that starts in `start` and ends with
step `last`. -/
def outcomeAt (start : Environment) (last j : Nat) (action : Action) : Outcome :=
  if j < last then
    { observation := UInt32.ofNat j
      reward := start.rules.missReward
      done := false
      info := { step := UInt32.ofNat j, ending := none, hit := false, seed := start.seed } }
  else if j = last then
    { observation := UInt32.ofNat last
      reward := if action = start.target then start.rules.hitReward else start.rules.missReward
      done := true
      info :=
        { step := UInt32.ofNat last
          ending := if action = start.target then some .targetHit else some .maxSteps
          hit := decide (action = start.target)
          seed := start.seed } }
  else
    { observation := UInt32.ofNat last
      reward := 0.0
      done := true
      info :=
        { step := UInt32.ofNat last, ending := some .alreadyDone, hit := false
          seed := start.seed } }

theorem step_eq_of_done {e : Environment} (h : e.done = true) (action : Action) :
    e.step action =
      ({ observation := e.steps
         reward := 0.0
         done := true
         info := { step := e.steps, ending := some .alreadyDone, hit := false, seed := e.seed } },
       e) := by
  rw [step, if_pos h]

theorem step_eq_of_running {e : Environment} (h : e.done = false) (action : Action) :
    e.step action =
      ({ observation := e.steps + 1
         reward := if action = e.target then e.rules.hitReward else e.rules.missReward
         done := (e.endingAfter (e.steps + 1) (decide (action = e.target))).isSome
         info :=
          { step := e.steps + 1
            ending := e.endingAfter (e.steps + 1) (decide (action = e.target))
            hit := decide (action = e.target)
            seed := e.seed } },
       { e with
         steps := e.steps + 1
         done := (e.endingAfter (e.steps + 1) (decide (action = e.target))).isSome }) := by
  have hhit : (action == e.target) = decide (action = e.target) := rfl
  rw [step, if_neg (by simp [h])]
  simp only [hhit, decide_eq_true_eq]

/-! ## One step of the course -/

theorem steps_after_succ {start : Environment} {last k : Nat} (h : k < last) :
    (start.after last k).steps + 1 = UInt32.ofNat (k + 1) := by
  have hmin : min k last = k := Nat.min_eq_left (Nat.le_of_lt h)
  rw [after, hmin, UInt32.ofNat_add]
  rfl

theorem endingAfter_of_miss {e : Environment} {j : Nat} (h : j < e.rules.maxSteps.toNat) :
    e.endingAfter (UInt32.ofNat j) false = none := by
  have hj : j < 2 ^ 32 := Nat.lt_trans h e.rules.maxSteps.toNat_lt
  have hlt : ¬ e.rules.maxSteps ≤ UInt32.ofNat j := by
    rw [UInt32.le_iff_toNat_le, UInt32.toNat_ofNat_of_lt' hj]
    exact Nat.not_le.mpr h
  rw [endingAfter, if_neg (by simp), if_neg hlt]

theorem endingAfter_of_limit {e : Environment} {j : Nat} (h : j = e.rules.maxSteps.toNat) :
    e.endingAfter (UInt32.ofNat j) false = some .maxSteps := by
  subst h
  have hle : e.rules.maxSteps ≤ UInt32.ofNat e.rules.maxSteps.toNat := by
    rw [UInt32.ofNat_toNat]
    exact UInt32.le_refl _
  rw [endingAfter, if_neg (by simp), if_pos hle]

/-- One step of the course: the guess after `k` others has the outcome of guess number
`k + 1`. It is no hit before the last step, and the last step is a hit or the last one
that the rules allow. -/
theorem step_after {start : Environment} {last k : Nat} {action : Action} (hpos : 0 < last)
    (hlimit : last ≤ start.rules.maxSteps.toNat)
    (hmiss : k + 1 < last → action ≠ start.target)
    (hend : k + 1 = last → action = start.target ∨ last = start.rules.maxSteps.toNat) :
    (start.after last k).step action =
      (start.outcomeAt last (k + 1) action, start.after last (k + 1)) := by
  rcases Nat.lt_trichotomy (k + 1) last with hlt | heq | hgt
  · have hrunning : (start.after last k).done = false := by
      simp only [after, decide_eq_false_iff_not]
      omega
    have hhit : decide (action = (start.after last k).target) = false :=
      decide_eq_false (hmiss hlt)
    have hending : (start.after last k).endingAfter (UInt32.ofNat (k + 1)) false = none :=
      endingAfter_of_miss (e := start.after last k) (Nat.lt_of_lt_of_le hlt hlimit)
    have hdone : decide (last ≤ k + 1) = false := decide_eq_false (Nat.not_le.mpr hlt)
    rw [step_eq_of_running hrunning, hhit, steps_after_succ (by omega), hending,
      if_neg (show ¬ action = (start.after last k).target from hmiss hlt), outcomeAt, if_pos hlt]
    simp [after, hdone, Nat.min_eq_left (Nat.le_of_lt hlt)]
  · have hrunning : (start.after last k).done = false := by
      simp only [after, decide_eq_false_iff_not]
      omega
    subst heq
    rw [step_eq_of_running hrunning, steps_after_succ (Nat.lt_succ_self k), outcomeAt,
      if_neg (Nat.lt_irrefl _), if_pos rfl]
    by_cases hhit : action = start.target
    · have hending : (start.after (k + 1) k).endingAfter (UInt32.ofNat (k + 1)) true =
          some .targetHit := by rw [endingAfter, if_pos rfl]
      have hdec : decide (action = (start.after (k + 1) k).target) = true := decide_eq_true hhit
      rw [hdec, hending, if_pos (show action = (start.after (k + 1) k).target from hhit)]
      simp [after, hhit]
    · have hending : (start.after (k + 1) k).endingAfter (UInt32.ofNat (k + 1)) false =
          some .maxSteps :=
        endingAfter_of_limit (e := start.after (k + 1) k) ((hend rfl).resolve_left hhit)
      have hdec : decide (action = (start.after (k + 1) k).target) = false := decide_eq_false hhit
      rw [hdec, hending, if_neg (show ¬ action = (start.after (k + 1) k).target from hhit)]
      simp [after, hhit]
  · have hdone : (start.after last k).done = true := decide_eq_true (by omega)
    have hmin : min k last = last := Nat.min_eq_right (by omega)
    have hmin' : min (k + 1) last = last := Nat.min_eq_right (by omega)
    have hover : decide (last ≤ k) = decide (last ≤ k + 1) := by
      rw [decide_eq_true (show last ≤ k by omega), decide_eq_true (show last ≤ k + 1 by omega)]
    rw [step_eq_of_done hdone, outcomeAt, if_neg (by omega), if_neg (by omega)]
    simp [after, hmin, hmin', hover]

/-! ## The whole course -/

theorem run_after {start : Environment} {last k : Nat} (guesses : List Action)
    (hpos : 0 < last) (hlimit : last ≤ start.rules.maxSteps.toNat)
    (hmiss : ∀ i action, guesses[i]? = some action → k + i + 1 < last → action ≠ start.target)
    (hend : ∀ i action, guesses[i]? = some action → k + i + 1 = last →
      action = start.target ∨ last = start.rules.maxSteps.toNat) :
    (start.after last k).run (guesses.map .step) =
      (guesses.mapIdx fun i action => .outcome (start.outcomeAt last (k + i + 1) action),
        start.after last (k + guesses.length)) := by
  induction guesses generalizing k with
  | nil => rfl
  | cons action rest ih =>
      have hstep : (start.after last k).step action =
          (start.outcomeAt last (k + 1) action, start.after last (k + 1)) :=
        step_after hpos hlimit (hmiss 0 action rfl) (hend 0 action rfl)
      have hrest := ih (k := k + 1)
        (by intro i a hi hlt; exact hmiss (i + 1) a hi (by omega))
        (by intro i a hi heq; exact hend (i + 1) a hi (by omega))
      rw [List.map_cons, run_cons, move, hstep, hrest,
        mapIdx_from_cons fun j a => Answer.outcome (start.outcomeAt last (j + 1) a),
        List.length_cons, Nat.add_assoc k 1, Nat.add_comm 1]

/-- **The course of an episode in closed form.** From a reset on, with or without a seed,
in any state that an environment can be in, the guesses are answered as `outcomeAt` says,
with the last step that `lastStep` computes. The state tells how far the episode is and
keeps everything else from the reset. -/
theorem run_reset_eq_course {rules : Rules} {e : Environment} (h : Reachable rules e)
    (seed : Option UInt64) (guesses : List Action) :
    let start := (e.reset seed).2
    let last := lastStep rules.maxSteps.toNat start.target guesses
    let result := start.run (guesses.map .step)
    last ≤ rules.maxSteps.toNat ∧
      result.1 = guesses.mapIdx (fun i action => .outcome (start.outcomeAt last (i + 1) action)) ∧
      result.2.steps.toNat = min guesses.length last ∧
      (result.2.done ↔ last ≤ guesses.length) ∧
      result.2 = { start with steps := result.2.steps, done := result.2.done } ∧
      start.rules = rules := by
  intro start last result
  have hrules : start.rules = rules := h.rules_eq
  have hvalid := h.valid
  have hle : last ≤ rules.maxSteps.toNat := lastStep_le _ _ _
  have hpos : 0 < last := lastStep_pos (UInt32.le_iff_toNat_le.mp hvalid.2.1) _ _
  have hstart : start.after last 0 = start := by
    simp [after, start, Environment.reset, Nat.not_le.mpr hpos]
  have hrun : (start.after last 0).run (guesses.map .step) = _ := run_after guesses hpos
    (hrules ▸ hle)
    (by intro i a hi hlt; exact ne_target_of_lt_lastStep hi (by simpa using hlt))
    (by intro i a hi heq; rw [hrules]; exact eq_target_or_eq_limit hi (by simpa using heq))
  rw [hstart] at hrun
  have hresult : result = _ := hrun
  have hbound : min guesses.length last < 2 ^ 32 :=
    Nat.lt_of_le_of_lt (Nat.le_trans (Nat.min_le_right _ _) hle) rules.maxSteps.toNat_lt
  refine ⟨hle, ?_, ?_, ?_, ?_, hrules⟩
  · simp [hresult]
  · simp [hresult, after, UInt32.toNat_ofNat_of_lt' hbound]
  · simp [hresult, after]
  · simp [hresult, after]

/-- An episode of two allowed steps that is hit with the second one, and a guess after it. -/
theorem run_reset_hit_on_limit :
    let rules : Rules := { maxSteps := 2 }
    let e := ((Environment.mk rules (.ofSeed 5) 0 0 false 0).reset none).2
    Reachable rules e ∧
      ((e.reset (some 77)).2.run ([-1, 4, 4].map .step)).1 =
        [.outcome
            { observation := 1, reward := -0.1, done := false
              info := { step := 1, ending := none, hit := false, seed := 77 } },
          .outcome
            { observation := 2, reward := 1.0, done := true
              info := { step := 2, ending := some .targetHit, hit := true, seed := 77 } },
          .outcome
            { observation := 2, reward := 0.0, done := true
              info := { step := 2, ending := some .alreadyDone, hit := false, seed := 77 } }] := by
  intro rules e
  have hvalid : rules.Valid := ⟨by decide, by decide, by decide, by decide⟩
  have h : Reachable rules e := .make (make_of_valid hvalid _)
  have htarget : targetOf { maxSteps := 2 } 77 = 4 := by decide +kernel
  obtain ⟨-, hanswers, -⟩ := run_reset_eq_course h (some 77) [-1, 4, 4]
  have hlast :
      lastStep rules.maxSteps.toNat (e.reset (some 77)).2.target [-1, 4, 4] = 2 := by
    change lastStep 2 (targetOf { maxSteps := 2 } 77) [-1, 4, 4] = 2
    rw [htarget]
    decide
  rw [hlast] at hanswers
  refine ⟨h, hanswers.trans ?_⟩
  simp [outcomeAt, e, rules, htarget]

end Environment

end HiddenTarget
