import HiddenTarget.Game.Fleet
import HiddenTarget.Proofs.Game.Run
import Mathlib.Data.List.Forall2

/-!
# A fleet is so many environments of their own

A `Fleet.Move` is asked of a whole fleet, and `Fleet.Move.lane n i` is what environment
`i` of `n` sees of it: a step with the wrong number of actions is seen by none. In the
same way `Fleet.Answer.lane i` is the part of an answer that comes from environment `i`.
`run_lane` says that each environment of a fleet lives through a run as if it were
alone, and `run_ofSeed_eq_lanes` that this is so for the environments that the seeds
from a base on make, with an answer from each of them to every move that is not refused.
-/

namespace HiddenTarget

open HiddenTarget.Random

namespace Fleet

/-! ## Runs of a fleet -/

inductive Move
  | reset (seeds : Option (List UInt64))
  | step (actions : List Action)

inductive Answer
  | observations (os : List Observation)
  | outcomes (os : List Outcome)
  | refused (c : Complaint)

def move (f : Fleet) : Move → Answer × Fleet
  | .reset seeds => (.observations (f.resetAll seeds).1, (f.resetAll seeds).2)
  | .step actions =>
    match f.step actions with
    | .ok (outcomes, g) => (.outcomes outcomes, g)
    | .error c => (.refused c, f)

def run (f : Fleet) : List Move → List Answer × Fleet
  | [] => ([], f)
  | m :: rest =>
    let (answer, f) := f.move m
    let (answers, f) := f.run rest
    (answer :: answers, f)

theorem run_cons (f : Fleet) (m : Move) (rest : List Move) :
    f.run (m :: rest) =
      ((f.move m).1 :: ((f.move m).2.run rest).1, ((f.move m).2.run rest).2) := rfl

theorem run_append (f : Fleet) (before after : List Move) :
    f.run (before ++ after) =
      ((f.run before).1 ++ ((f.run before).2.run after).1, ((f.run before).2.run after).2) := by
  induction before generalizing f with
  | nil => rfl
  | cons m rest ih => rw [List.cons_append, run_cons, ih, run_cons, List.cons_append]

/-! ## The part of one environment -/

/-- What environment `i` of `n` sees of a move. -/
def Move.lane (n i : Nat) : Move → Option HiddenTarget.Move
  | .reset seeds => some (.reset (seeds.bind (·[i]?)))
  | .step actions => if actions.length = n then actions[i]?.map .step else none

def Answer.lane (i : Nat) : Answer → Option HiddenTarget.Answer
  | .observations os => os[i]?.map .observation
  | .outcomes os => os[i]?.map .outcome
  | .refused _ => none

/-- The answers that `n` environments can give to a move: one from each of them, or a
refusal if it is a step with another number of actions. -/
def Answer.Fits (n : Nat) : Move → Answer → Prop
  | .reset _, .observations os => os.length = n
  | .step actions, .outcomes os => actions.length = n ∧ os.length = n
  | .step actions, .refused c => actions.length ≠ n ∧ c = .wrongActionCount actions.length n
  | _, _ => False

theorem step_of_length_eq {f : Fleet} {actions : List Action} (h : actions.length = f.size) :
    f.step actions =
      .ok ((List.zipWith Environment.step f.environments actions).map Prod.fst,
        ⟨(List.zipWith Environment.step f.environments actions).map Prod.snd⟩) := by
  rw [step, if_pos h]

theorem step_of_length_ne {f : Fleet} {actions : List Action} (h : actions.length ≠ f.size) :
    f.step actions = .error (.wrongActionCount actions.length f.size) := by
  rw [step, if_neg h]

theorem move_fits (f : Fleet) (m : Move) :
    (f.move m).2.size = f.size ∧ (f.move m).1.Fits f.size m := by
  cases m with
  | reset seeds => simp [move, resetAll, size, Answer.Fits]
  | step actions =>
      by_cases h : actions.length = f.size
      · simp only [move, step_of_length_eq h, Answer.Fits]
        simp only [size] at h
        simp [size, h]
      · simpa [move, step_of_length_ne h, Answer.Fits] using h

/-- One move, seen from one environment: it answers and changes as if it were alone with
its part of the move. -/
theorem move_lane {f : Fleet} {i : Nat} {e : Environment} (h : f.environments[i]? = some e)
    (m : Move) :
    ((f.move m).1.lane i).toList = (e.run (m.lane f.size i).toList).1 ∧
      (f.move m).2.environments[i]? = some (e.run (m.lane f.size i).toList).2 := by
  cases m with
  | reset seeds =>
      simp [move, resetAll, Answer.lane, Move.lane, Environment.run_cons, Environment.move,
        seedFor, h]
  | step actions =>
      by_cases hlen : actions.length = f.size
      · have hi : i < f.size := (List.getElem?_eq_some_iff.mp h).1
        have haction : ∃ action, actions[i]? = some action := by
          rw [List.getElem?_eq_getElem (hlen.symm ▸ hi)]
          exact ⟨_, rfl⟩
        obtain ⟨action, haction⟩ := haction
        simp [move, step_of_length_eq hlen, Answer.lane, Move.lane, hlen, haction, h,
          Environment.run_cons, Environment.move, List.getElem?_zipWith]
      · simp [move, step_of_length_ne hlen, Answer.lane, Move.lane, hlen, h]

/-! ## Whole runs -/

theorem run_fits (f : Fleet) (moves : List Move) :
    (f.run moves).2.size = f.size ∧
      List.Forall₂ (fun m a => a.Fits f.size m) moves (f.run moves).1 := by
  induction moves generalizing f with
  | nil => exact ⟨rfl, .nil⟩
  | cons m rest ih =>
      obtain ⟨hsize, hfits⟩ := move_fits f m
      obtain ⟨hsize', hrest⟩ := ih (f.move m).2
      rw [hsize] at hsize' hrest
      rw [run_cons]
      exact ⟨hsize', .cons hfits hrest⟩

theorem filterMap_cons_eq_append {α β : Type*} (g : α → Option β) (a : α) (l : List α) :
    (a :: l).filterMap g = (g a).toList ++ l.filterMap g := by
  cases h : g a with
  | none => simp [h]
  | some b => simp [h]

theorem run_lane {f : Fleet} {i : Nat} {e : Environment} (h : f.environments[i]? = some e)
    (moves : List Move) :
    (f.run moves).1.filterMap (·.lane i) = (e.run (moves.filterMap (·.lane f.size i))).1 ∧
      (f.run moves).2.environments[i]? =
        some (e.run (moves.filterMap (·.lane f.size i))).2 := by
  induction moves generalizing f e with
  | nil => exact ⟨rfl, h⟩
  | cons m rest ih =>
      obtain ⟨hanswer, hstate⟩ := move_lane h m
      obtain ⟨hanswers, hfinal⟩ := ih hstate
      rw [(move_fits f m).1] at hanswers hfinal
      rw [run_cons, filterMap_cons_eq_append, filterMap_cons_eq_append,
        Environment.run_append, hanswer, hanswers, hfinal]
      exact ⟨rfl, rfl⟩

/-! ## Fleets from a base seed -/

theorem exists_make_of_valid {rules : Rules} (h : rules.Valid) {sources : List Generator}
    (hne : sources ≠ []) :
    ∃ f, make rules sources = .ok f ∧ f.environments.length = sources.length ∧
      ∀ (i : Nat) (source : Generator), sources[i]? = some source →
        ∃ e, Environment.make rules source = .ok e ∧ f.environments[i]? = some e := by
  have hmapM : ∀ l : List Generator, l.mapM (Environment.make rules) =
      .ok (l.map fun g => ((Environment.mk rules g 0 0 false 0).reset none).2) := by
    intro l
    induction l with
    | nil => rfl
    | cons g rest ih =>
        rw [List.mapM_cons, Environment.make_of_valid h, ih]
        rfl
  have hempty : sources.isEmpty = false := by simpa using hne
  refine ⟨_, by rw [make, hempty, hmapM]; rfl, by simp, ?_⟩
  intro i source hi
  exact ⟨_, Environment.make_of_valid h source, by simp [hi]⟩

/-- **A fleet is so many environments of their own.** The environments of a fleet with
seeds from `base` on go through any moves as those of the seeds `base`, `base + 1`, …
alone would go through their parts of the moves: they are in the same states, and what
is answered is what they would answer, in their order. Every answer has one entry for
each environment, and a step is refused if and only if it has another number of actions.
Since the moves may be any, this is so after each move of a longer run. -/
theorem run_ofSeed_eq_lanes {n : Nat} (hn : 1 ≤ n) {rules : Rules} (hrules : rules.Valid)
    (base : UInt64) :
    ∃ f, ofSeed rules n base = .ok f ∧
      ∀ moves : List Move,
        (f.run moves).2.size = n ∧
          List.Forall₂ (fun m a => a.Fits n m) moves (f.run moves).1 ∧
          ∀ i < n, ∃ e, Environment.ofSeed rules (base + UInt64.ofNat i) = .ok e ∧
            (f.run moves).2.environments[i]? =
              some (e.run (moves.filterMap (·.lane n i))).2 ∧
            (f.run moves).1.filterMap (·.lane i) =
              (e.run (moves.filterMap (·.lane n i))).1 := by
  have hne : (List.range n).map (fun i => Generator.ofSeed (base + UInt64.ofNat i)) ≠ [] := by
    simp only [ne_eq, List.map_eq_nil_iff, List.range_eq_nil]
    omega
  obtain ⟨f, hmake, hlength, hlanes⟩ := exists_make_of_valid hrules hne
  have hsize : f.size = n := by
    rw [size, hlength, List.length_map, List.length_range]
  refine ⟨f, hmake, ?_⟩
  intro moves
  obtain ⟨hfinal, hfits⟩ := run_fits f moves
  rw [hsize] at hfinal hfits
  refine ⟨hfinal, hfits, ?_⟩
  intro i hi
  obtain ⟨e, hofSeed, he⟩ :=
    hlanes i (Generator.ofSeed (base + UInt64.ofNat i)) (by simp [hi])
  obtain ⟨hanswers, hstate⟩ := run_lane he moves
  rw [hsize] at hanswers hstate
  exact ⟨e, hofSeed, hstate, hanswers⟩

/-- The second of two environments, whose seed wraps around, under a list of seeds that
is too short and a step that is refused. -/
theorem run_ofSeed_second_of_two :
    let moves : List Move :=
      [.reset (some [7]), .step [1, 2], .step [3], .reset none, .step [4, 5]]
    1 ≤ 2 ∧ ({} : Rules).Valid ∧
      ∃ f e, ofSeed {} 2 0xffffffffffffffff = .ok f ∧ Environment.ofSeed {} 0 = .ok e ∧
        (f.run moves).2.environments[1]? =
          some (e.run [.reset none, .step 2, .reset none, .step 5]).2 ∧
        (f.run moves).1.filterMap (·.lane 1) =
          (e.run [.reset none, .step 2, .reset none, .step 5]).1 := by
  intro moves
  have hrules : ({} : Rules).Valid := Rules.valid_default
  obtain ⟨f, hf, hrun⟩ :=
    run_ofSeed_eq_lanes (n := 2) (by decide) hrules 0xffffffffffffffff
  obtain ⟨-, -, hlanes⟩ := hrun moves
  obtain ⟨e, he, hstate, hanswers⟩ := hlanes 1 (by decide)
  have hwrap : (0xffffffffffffffff : UInt64) + UInt64.ofNat 1 = 0 := by decide
  rw [hwrap] at he
  exact ⟨by decide, hrules, f, e, hf, he, hstate, hanswers⟩

end Fleet

end HiddenTarget
