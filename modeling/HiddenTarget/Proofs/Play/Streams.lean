import HiddenTarget.Proofs.Play.Prefix
import HiddenTarget.Proofs.Random.Reading

/-!
# The streams that a batch draws from

A batch reads one stream for the guesses and one for the seeds of its environment, and it
hides the target of each episode with a stream of that episode. The seeds of these streams
follow from the base seed, `playerSeed` by flipping bits and `episodeSeed` by adding the
number of the episode. A number of 32 bits adds at most one to the upper half of the base
seed, and the bits that are flipped there change it by something else: `playerSeed_ne`.

`Stage.Plays` says which streams are read in an episode. A reset leads there and no turn leads
out, so it holds of every moment of a batch, `Stage.plays_moment`.
-/

namespace HiddenTarget

open HiddenTarget.Random

/-! ## Seeds -/

/-- The four lowest bits of the upper half of a seed. -/
def middleBits (seed : UInt64) : Nat := seed.toNat / 2 ^ 32 % 2 ^ 4

theorem middleBits_playerSeed (base : UInt64) :
    middleBits (playerSeed base) = middleBits base ^^^ 9 := by
  rw [middleBits, middleBits, playerSeed, UInt64.toNat_xor, Nat.xor_div_two_pow,
    Nat.xor_mod_two_pow]
  rfl

/-- Adding 32 bits carries at most one. -/
theorem middleBits_episodeSeed (base : UInt64) (i : UInt32) :
    middleBits (episodeSeed base i) = middleBits base ∨
      middleBits (episodeSeed base i) = (middleBits base + 1) % 2 ^ 4 := by
  have hi := i.toNat_lt
  have hbase := base.toNat_lt
  rw [middleBits, middleBits, episodeSeed, UInt64.toNat_add, UInt32.toNat_toUInt64]
  omega

/-- **The player's seed is that of no episode.** -/
theorem playerSeed_ne (base : UInt64) (i : UInt32) : playerSeed base ≠ episodeSeed base i := by
  have hflip : ∀ n < 2 ^ 4, n ^^^ 9 ≠ n ∧ n ^^^ 9 ≠ (n + 1) % 2 ^ 4 := by decide
  obtain ⟨hsame, hnext⟩ := hflip (middleBits base) (Nat.mod_lt _ (by decide))
  intro heq
  have hbits := middleBits_playerSeed base
  rw [heq] at hbits
  rcases middleBits_episodeSeed base i with h | h
  · exact hsame (hbits.symm.trans h)
  · exact hnext (hbits.symm.trans h)

theorem episodeSeed_zero (base : UInt64) : episodeSeed base 0 = base := UInt64.add_zero base

/-! ## Reading a stream -/

namespace Random.Generator

/-- The generator has read some words of the stream of a seed. -/
def Reads (g : Generator) (seed : UInt64) : Prop := ∃ n, g = (ofSeed seed).skip n

variable {g : Generator} {seed : UInt64}

theorem reads_iff : g.Reads seed ↔ g.key = Key.ofSeed seed := by
  constructor
  · rintro ⟨n, rfl⟩
    rfl
  · intro h
    refine ⟨g.position, ?_⟩
    rw [skip, ofSeed, Nat.zero_add, ← h]

theorem reads_ofSeed (seed : UInt64) : (ofSeed seed).Reads seed := reads_iff.mpr rfl

theorem Reads.draw (h : g.Reads seed) (lo hi : Int32) : (g.draw lo hi).2.Reads seed :=
  reads_iff.mpr ((draw_key lo hi g).trans (reads_iff.mp h))

theorem Reads.drawUInt64 (h : g.Reads seed) : g.drawUInt64.2.Reads seed :=
  reads_iff.mpr ((drawUInt64_key g).trans (reads_iff.mp h))

end Random.Generator

/-! ## A play keeps to its streams -/

namespace Stage

variable {σ : Type} {P : Stage σ → Prop}

theorem turns_invariant {policy : Policy σ}
    (hturn : ∀ episode observation s, P s → P (s.turn policy episode observation).2.2)
    (n : Nat) (observation : Observation) (summary : Summary) {s : Stage σ} (h : P s) :
    P (turns policy n observation summary s).2 := by
  induction n generalizing observation summary s with
  | zero => exact h
  | succ n ih =>
      have hnext := hturn summary.episode observation s h
      rcases hresult : s.turn policy summary.episode observation with ⟨outcome, fault, t⟩
      rw [hresult] at hnext
      rw [turns, hresult]
      cases fault with
      | some fault => exact hnext
      | none =>
          by_cases hdone : outcome.done = true
          · simp only [if_pos hdone]
            exact hnext
          · simp only [if_neg hdone]
            exact ih _ _ hnext

theorem playEpisodes_invariant {P : Stage UniformPlayer → Prop} {base : UInt64}
    {iterations : UInt32}
    (hepisode : ∀ episode s, P s →
      P (s.playEpisode .uniform episode (some (episodeSeed base episode)) iterations).2)
    (n : Nat) (episode : UInt32) {s : Stage UniformPlayer} (h : P s) :
    P (playEpisodes base iterations n episode s).2 := by
  induction n generalizing episode s with
  | zero => exact h
  | succ n ih =>
      have hnext := hepisode episode s h
      rw [playEpisodes]
      rcases hresult : s.playEpisode .uniform episode (some (episodeSeed base episode))
        iterations with ⟨fault | summary, t⟩
      · rw [hresult] at hnext
        exact hnext
      · rw [hresult] at hnext
        have hrest := ih (episode + 1) hnext
        rcases hplay : playEpisodes base iterations n (episode + 1) t with ⟨fault | rest, u⟩
        · simp only [hplay]
          rw [hplay] at hrest
          exact hrest
        · simp only [hplay]
          rw [hplay] at hrest
          exact hrest

/-- The streams that are read between the episodes of a batch. -/
structure Streams (base : UInt64) (rules : Rules) (s : Stage UniformPlayer) : Prop where
  rules_eq : s.environment.rules = rules
  player : s.player.source.Reads (playerSeed base)
  seeds : s.environment.seeds.Reads base

/-- The streams that are read in episode `i`, whose target is drawn from the start of its
own. -/
structure Plays (base : UInt64) (rules : Rules) (i : UInt32) (s : Stage UniformPlayer) : Prop
    extends Streams base rules s where
  seed : s.environment.seed = episodeSeed base i
  target : s.environment.target =
    ((Generator.ofSeed (episodeSeed base i)).draw 0 (rules.numTargets - 1)).1

variable {base : UInt64} {rules : Rules} {i : UInt32} {s : Stage UniformPlayer}

theorem Plays.turn (h : s.Plays base rules i) (episode : UInt32) (observation : Observation) :
    (s.turn .uniform episode observation).2.2.Plays base rules i where
  rules_eq := (Environment.step_rules _ _).trans h.rules_eq
  player := h.player.draw s.player.low s.player.high
  seeds := by
    have hseeds : (s.turn .uniform episode observation).2.2.environment.seeds =
        s.environment.seeds := Environment.step_seeds _ _
    rw [hseeds]
    exact h.seeds
  seed := (Environment.step_seed _ _).trans h.seed
  target := (Environment.step_target _ _).trans h.target

theorem Streams.reset (h : s.Streams base rules) (i : UInt32) :
    ({ s with environment := (s.environment.reset (some (episodeSeed base i))).2 } :
      Stage UniformPlayer).Plays base rules i where
  rules_eq := h.rules_eq
  player := h.player
  seeds := h.seeds
  seed := rfl
  target := congrArg (fun r => Environment.targetOf r (episodeSeed base i)) h.rules_eq

/-- The stage in episode `i` of a batch, after at most `k` turns of it. -/
def moment (base : UInt64) (iterations : UInt32) (i : UInt32) (k : Nat)
    (s : Stage UniformPlayer) : Stage UniformPlayer :=
  let s := (s.playEpisodes base iterations i.toNat 0).2
  let (observation, environment) := s.environment.reset (some (episodeSeed base i))
  (turns .uniform k observation { episode := i, seed := environment.seed }
    { s with environment := environment }).2

theorem Streams.turns (h : s.Streams base rules) (i : UInt32) (k : Nat)
    (observation : Observation) (summary : Summary) :
    (turns .uniform k observation summary
      { s with environment := (s.environment.reset (some (episodeSeed base i))).2 }).2.Plays
        base rules i :=
  turns_invariant (fun episode observation _ ht => ht.turn episode observation) k observation
    summary (h.reset i)

theorem Streams.playEpisode (h : s.Streams base rules) (i iterations : UInt32) :
    (s.playEpisode .uniform i (some (episodeSeed base i)) iterations).2.Streams base rules := by
  have hturns := h.turns i iterations.toNat 0 { episode := i, seed := episodeSeed base i }
  rw [Stage.playEpisode]
  rcases hresult : Stage.turns .uniform iterations.toNat 0
    { episode := i, seed := episodeSeed base i }
    { s with environment := (s.environment.reset (some (episodeSeed base i))).2 } with
    ⟨fault | summary, t⟩
  · rw [hresult] at hturns
    simp only [Environment.reset_fst, Environment.reset_some_seed, hresult]
    exact hturns.toStreams
  · rw [hresult] at hturns
    simp only [Environment.reset_fst, Environment.reset_some_seed, hresult]
    exact ⟨hturns.rules_eq, hturns.player, hturns.seeds⟩

theorem plays_moment (h : s.Streams base rules) (iterations i : UInt32) (k : Nat) :
    (s.moment base iterations i k).Plays base rules i := by
  have hbefore : (s.playEpisodes base iterations i.toNat 0).2.Streams base rules :=
    playEpisodes_invariant (fun i _ ht => ht.playEpisode i iterations) _ 0 h
  exact hbefore.turns i k _ _

end Stage

theorem streams_of_open {plan : Plan} {rules : Rules} {base : UInt64} {output : Output}
    {logbook : Telemetry.Logbook} (hplan : plan.Valid) (hrules : rules.Valid) :
    ∃ start, openStage plan rules base output logbook = .ok start ∧ start.Streams base rules := by
  have henvironment := Environment.make_of_valid hrules (Generator.ofSeed base)
  have hplayer := UniformPlayer.ofSeed_of_le hplan.2.2 (playerSeed base)
  refine ⟨_, openStage_eq_ok hplan henvironment hplayer, ?_⟩
  exact
    { rules_eq := rfl
      player := Generator.reads_ofSeed _
      seeds := (Generator.reads_ofSeed base).drawUInt64 }

/-- **The player never reads the stream of an episode.** Its seed is neither the base seed nor
the seed of an episode, for any base and any number. In a batch, at every moment of every
episode, the player draws its guesses from the stream of its seed and the environment its
seeds from the stream of the base, while the target was drawn from the stream of the episode,
whose seed is another one. -/
theorem player_reads_no_episode :
    (∀ (base : UInt64) (i : UInt32),
      playerSeed base ≠ episodeSeed base i ∧ playerSeed base ≠ base) ∧
    ∀ (plan : Plan) (rules : Rules) (base : UInt64) (output : Output)
      (logbook : Telemetry.Logbook), plan.Valid → rules.Valid →
      ∃ start, openStage plan rules base output logbook = .ok start ∧
        ∀ (i : UInt32) (k : Nat),
          let s := start.moment base plan.iterations i k
          (∀ observation, (Policy.uniform.act s.player observation).1 =
              (s.player.source.draw s.player.low s.player.high).1) ∧
            s.player.source.Reads (playerSeed base) ∧
            s.environment.seeds.Reads base ∧
            s.environment.target =
              ((Generator.ofSeed s.environment.seed).draw 0 (rules.numTargets - 1)).1 ∧
            s.environment.seed = episodeSeed base i ∧
            s.environment.seed ≠ playerSeed base := by
  constructor
  · intro base i
    have hbase := playerSeed_ne base 0
    rw [episodeSeed_zero] at hbase
    exact ⟨playerSeed_ne base i, hbase⟩
  · intro plan rules base output logbook hplan hrules
    obtain ⟨start, hopen, hstreams⟩ := streams_of_open hplan hrules
    refine ⟨start, hopen, ?_⟩
    intro i k s
    have hplays : s.Plays base rules i := Stage.plays_moment hstreams plan.iterations i k
    refine ⟨fun _ => rfl, hplays.player, hplays.seeds, ?_, hplays.seed, ?_⟩
    · rw [hplays.seed]
      exact hplays.target
    · rw [hplays.seed]
      exact (playerSeed_ne base i).symm

/-- The second episode of a batch whose seeds wrap around. -/
theorem player_reads_no_episode_wrapped :
    let plan : Plan := { episodes := 2 }
    let base : UInt64 := 18446744073709551615
    plan.Valid ∧ ({} : Rules).Valid ∧ ∃ start, openStage plan {} base {} {} = .ok start ∧
      let s := start.moment base plan.iterations 1 3
      s.environment.seed = 0 ∧ s.environment.target = 6 ∧
        s.player.source.Reads 7046029254386353130 := by
  intro plan base
  have hplan : plan.Valid := ⟨by decide, by decide, by decide⟩
  obtain ⟨-, hbatches⟩ := player_reads_no_episode
  obtain ⟨start, hopen, hmoments⟩ := hbatches plan {} base {} {} hplan Rules.valid_default
  obtain ⟨-, hplayer, -, htarget, hseed, -⟩ := hmoments 1 3
  have hzero : episodeSeed base 1 = 0 := by decide
  have hflipped : playerSeed base = 7046029254386353130 := by decide
  have hsix : ((Generator.ofSeed 0).draw 0 (({} : Rules).numTargets - 1)).1 = 6 := by
    decide +kernel
  rw [hzero] at hseed
  rw [hseed, hsix] at htarget
  rw [hflipped] at hplayer
  exact ⟨hplan, Rules.valid_default, start, hopen, hseed, htarget, hplayer⟩

end HiddenTarget
