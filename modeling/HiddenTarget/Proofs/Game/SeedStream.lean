import HiddenTarget.Proofs.Game.Run
import Mathlib.Algebra.Group.Nat.Defs

/-!
# What an episode depends on

The source of seeds is read by unseeded resets only, two words at a time, so its position
counts them: `run_seeds`. An episode with a seed of its own does not depend on that source
or on anything that went before. Two environments are in the `SameEpisode` if they differ
in the source of seeds only; a seeded reset brings them there and no move but an unseeded
reset leads out of it. `seed_of_reset_none` and `run_reset_some_eq` are what follows for the
seeds of unseeded resets and for seeded episodes, and `episode_depends_on_seed` is both.
-/

namespace HiddenTarget

open HiddenTarget.Random

theorem Random.Generator.toNat_drawUInt64 (g : Generator) :
    g.drawUInt64.1.toNat =
      (word g.key g.position).toNat + 2 ^ 32 * (word g.key (g.position + 1)).toNat := by
  have hlow := (word g.key g.position).toNat_lt
  have hhigh := (word g.key (g.position + 1)).toNat_lt
  have hshift : (32 : UInt64).toNat % 64 = 32 := rfl
  rw [Generator.drawUInt64_fst, UInt64.toNat_or, UInt64.toNat_shiftLeft, UInt32.toNat_toUInt64,
    UInt32.toNat_toUInt64, hshift, Nat.shiftLeft_eq, Nat.mod_eq_of_lt (by omega), Nat.or_comm,
    Nat.mul_comm, ← Nat.two_pow_add_eq_or_of_lt hlow, Nat.add_comm]

def Move.isUnseededReset : Move → Bool
  | .reset none => true
  | _ => false

namespace Environment

/-! ## The position in the source of seeds -/

theorem move_seeds (e : Environment) (m : Move) :
    (e.move m).2.seeds = if m.isUnseededReset then e.seeds.drawUInt64.2 else e.seeds := by
  cases m with
  | reset seed =>
      cases seed with
      | none => rfl
      | some seed => rfl
  | step action => exact step_seeds e action

/-- The source of seeds has moved on by two words for each unseeded reset. -/
theorem run_seeds (e : Environment) (moves : List Move) :
    (e.run moves).2.seeds =
      { e.seeds with
        position := e.seeds.position + 2 * moves.countP Move.isUnseededReset } := by
  induction moves generalizing e with
  | nil => rfl
  | cons m rest ih =>
      rw [run_cons, ih, move_seeds, List.countP_cons]
      split
      · next hm =>
          have hposition : e.seeds.position + 2 + 2 * rest.countP Move.isUnseededReset =
              e.seeds.position + 2 * (rest.countP Move.isUnseededReset + 1) := by omega
          exact congrArg (Generator.mk e.seeds.key) hposition
      · rfl

theorem seed_of_reset_none (e : Environment) (moves : List Move) :
    let k := e.seeds.position + 2 * moves.countP Move.isUnseededReset
    (e.run (moves ++ [.reset none])).2.seed.toNat =
      (word e.seeds.key k).toNat + 2 ^ 32 * (word e.seeds.key (k + 1)).toNat := by
  intro k
  have hseed : (e.run (moves ++ [.reset none])).2.seed = (e.run moves).2.seeds.drawUInt64.1 := by
    rw [run_append]
    rfl
  rw [hseed, Generator.toNat_drawUInt64, run_seeds]

/-! ## Seeded episodes -/

/-- The environments differ in their sources of seeds only. -/
def SameEpisode (e₁ e₂ : Environment) : Prop := { e₁ with seeds := e₂.seeds } = e₂

variable {e₁ e₂ : Environment}

theorem sameEpisode_reset (h : e₁.rules = e₂.rules) (seed : UInt64) :
    SameEpisode (e₁.reset (some seed)).2 (e₂.reset (some seed)).2 := by
  simp only [SameEpisode, reset, nextSeed, h]

theorem SameEpisode.step (h : SameEpisode e₁ e₂) (action : Action) :
    (e₁.step action).1 = (e₂.step action).1 ∧
      SameEpisode (e₁.step action).2 (e₂.step action).2 := by
  rw [← h]
  simp only [SameEpisode, Environment.step, endingAfter]
  split
  · exact ⟨rfl, rfl⟩
  · exact ⟨rfl, rfl⟩

theorem SameEpisode.move (h : SameEpisode e₁ e₂) {m : Move} (hm : m.isUnseededReset = false) :
    (e₁.move m).1 = (e₂.move m).1 ∧ SameEpisode (e₁.move m).2 (e₂.move m).2 := by
  cases m with
  | step action =>
      obtain ⟨houtcome, hsame⟩ := h.step action
      exact ⟨congrArg Answer.outcome houtcome, hsame⟩
  | reset seed =>
      cases seed with
      | none => cases hm
      | some seed =>
          have hrules : e₁.rules = e₂.rules := by rw [← h]
          exact ⟨rfl, sameEpisode_reset hrules seed⟩

theorem SameEpisode.run (h : SameEpisode e₁ e₂) {moves : List Move}
    (hmoves : ∀ m ∈ moves, m.isUnseededReset = false) :
    (e₁.run moves).1 = (e₂.run moves).1 ∧ SameEpisode (e₁.run moves).2 (e₂.run moves).2 := by
  induction moves generalizing e₁ e₂ with
  | nil => exact ⟨rfl, h⟩
  | cons m rest ih =>
      obtain ⟨hanswer, hsame⟩ := h.move (hmoves m List.mem_cons_self)
      obtain ⟨hanswers, hsame'⟩ := ih hsame fun m hm => hmoves m (List.mem_cons_of_mem _ hm)
      rw [run_cons, run_cons, hanswer, hanswers]
      exact ⟨rfl, hsame'⟩

/-- What comes after a seeded reset does not depend on what was before it, up to the next
unseeded reset. -/
theorem run_reset_some_eq (h : e₁.rules = e₂.rules) (seed : UInt64) {moves : List Move}
    (hmoves : ∀ m ∈ moves, m.isUnseededReset = false) :
    (e₁.run (.reset (some seed) :: moves)).1 = (e₂.run (.reset (some seed) :: moves)).1 ∧
      SameEpisode (e₁.run (.reset (some seed) :: moves)).2
        (e₂.run (.reset (some seed) :: moves)).2 := by
  obtain ⟨hanswers, hsame⟩ := (sameEpisode_reset h seed).run hmoves
  rw [run_cons, run_cons]
  exact ⟨congrArg (List.cons (Answer.observation 0)) hanswers, hsame⟩

/-- **What an episode depends on.** The environment that a seed makes takes the seeds of its
unseeded resets from the stream of that seed, two words for each of them in turn and the low
half first; making it is the first one, and nothing else counts. And two environments with
the same rules, in whatever states they are, answer a seeded reset and any guesses after it
alike and end up in the same state of the same episode. -/
theorem episode_depends_on_seed :
    (∀ rules : Rules, rules.Valid → ∀ seed : UInt64,
      let stream := fun k => (word (Key.ofSeed seed) k).toNat
      ∃ e, ofSeed rules seed = .ok e ∧
        e.seed.toNat = stream 0 + 2 ^ 32 * stream 1 ∧
        ∀ moves : List Move,
          let k := moves.countP Move.isUnseededReset + 1
          (e.run (moves ++ [.reset none])).2.seed.toNat =
            stream (2 * k) + 2 ^ 32 * stream (2 * k + 1)) ∧
    (∀ e₁ e₂ : Environment, e₁.rules = e₂.rules →
      ∀ (seed : UInt64) (guesses : List Action),
        let play := fun e : Environment => e.run (.reset (some seed) :: guesses.map .step)
        (play e₁).1 = (play e₂).1 ∧
          (play e₁).2.steps = (play e₂).2.steps ∧
          (play e₁).2.done = (play e₂).2.done ∧
          (play e₁).2.seed = (play e₂).2.seed ∧
          (play e₁).2.target = (play e₂).2.target) := by
  constructor
  · intro rules hrules seed stream
    refine ⟨_, make_of_valid hrules (Generator.ofSeed seed), ?_, ?_⟩
    · exact Generator.toNat_drawUInt64 (Generator.ofSeed seed)
    · intro moves k
      rw [seed_of_reset_none]
      have hk : 0 + 2 + 2 * moves.countP Move.isUnseededReset = 2 * k := by omega
      exact congrArg (fun k => stream k + 2 ^ 32 * stream (k + 1)) hk
  · intro e₁ e₂ hrules seed guesses play
    have hguesses : ∀ m ∈ guesses.map Move.step, m.isUnseededReset = false := by
      intro m hm
      obtain ⟨action, -, rfl⟩ := List.mem_map.mp hm
      rfl
    obtain ⟨hanswers, hsame⟩ := run_reset_some_eq hrules seed hguesses
    have hsame' : { (play e₁).2 with seeds := (play e₂).2.seeds } = (play e₂).2 := hsame
    refine ⟨hanswers, ?_, ?_, ?_, ?_⟩
    all_goals rw [← hsame']

/-- The second unseeded reset after a seeded one and a step, and an episode played by two
environments with different pasts. -/
theorem episode_depends_on_seed_two :
    ({} : Rules).Valid ∧
      ∃ e, ofSeed {} 2 = .ok e ∧
        (e.run [.reset (some 2), .step 3, .reset none]).2.seed = 10116765682372994352 ∧
        (e.run [.reset (some 7), .step 1, .step 4]).1 =
          ((e.run [.step 8, .reset none]).2.run [.reset (some 7), .step 1, .step 4]).1 := by
  have hrules : ({} : Rules).Valid := Rules.valid_default
  obtain ⟨hseeds, hepisodes⟩ := episode_depends_on_seed
  obtain ⟨e, he, -, hmoves⟩ := hseeds {} hrules 2
  refine ⟨hrules, e, he, ?_, ?_⟩
  · have hseed := hmoves [.reset (some 2), .step 3]
    have hwords : (word (Key.ofSeed 2) 2).toNat + 2 ^ 32 * (word (Key.ofSeed 2) 3).toNat =
        (10116765682372994352 : UInt64).toNat := by decide +kernel
    exact UInt64.toNat_inj.mp (hseed.trans hwords)
  · have hreachable : Reachable {} e := .make he
    have hrules' : e.rules = (e.run [.step 8, .reset none]).2.rules :=
      hreachable.rules_eq.trans (hreachable.run _).rules_eq.symm
    exact (hepisodes e _ hrules' 7 [1, 4]).1

end Environment

end HiddenTarget
