import HiddenTarget.Play.Batch
import HiddenTarget.Proofs.Telemetry.Calls

/-!
# Play does not depend on the logbook

A play is `Stage.Oblivious` if it takes the same course whatever logbook it is given:
the same answer, environment, policy state and output, and the same calls to the
logbook, each of which has an answer. This is shown of one turn, then by induction of
the turns of an episode and of the episodes of a batch. Nothing is assumed of the
logbook: its sink may be off, without a path, unable to open its file, or at any point
of running out of room.
-/

namespace HiddenTarget

open Telemetry (Call Logbook)

namespace Stage

variable {σ α β : Type}

def withLogbook (s : Stage σ) (b : Logbook) : Stage σ := { s with logbook := b }

/-- A play that takes the same course with every logbook. -/
def Oblivious (play : Stage σ → α × Stage σ) : Prop :=
  ∀ s : Stage σ, ∃ (answer : α) (final : Stage σ) (calls : List Call),
    ∀ b : Logbook, ∃ b', b.callAll? calls = some b' ∧
      play (s.withLogbook b) = (answer, final.withLogbook b')

theorem Oblivious.pure (a : α) : Oblivious fun s : Stage σ => (a, s) :=
  fun s => ⟨a, s, [], fun b => ⟨b, rfl, rfl⟩⟩

/-- A play that starts with an oblivious one and goes on obliviously, whatever the answer
of the first one, is oblivious. -/
theorem Oblivious.of_first {first : Stage σ → α × Stage σ} {whole : Stage σ → β × Stage σ}
    (hfirst : Oblivious first)
    (hnext : ∀ a, ∃ next, Oblivious next ∧ ∀ s t, first s = (a, t) → whole s = next t) :
    Oblivious whole := by
  intro s
  obtain ⟨a, middle, calls, hcourse⟩ := hfirst s
  obtain ⟨next, hoblivious, hwhole⟩ := hnext a
  obtain ⟨answer, final, calls', hcourse'⟩ := hoblivious middle
  refine ⟨answer, final, calls ++ calls', ?_⟩
  intro b
  obtain ⟨b', hcalls, heq⟩ := hcourse b
  obtain ⟨b'', hcalls', heq'⟩ := hcourse' b'
  refine ⟨b'', ?_, ?_⟩
  · rw [Logbook.callAll?_append, hcalls]
    exact hcalls'
  · rw [hwhole _ _ heq]
    exact heq'

/-- One play after another, unless the first one fails. -/
def andThen {ε : Type} (first : Stage σ → Except ε α × Stage σ)
    (next : α → Stage σ → Except ε β × Stage σ) (s : Stage σ) : Except ε β × Stage σ :=
  match first s with
  | (.error e, s) => (.error e, s)
  | (.ok a, s) => next a s

theorem Oblivious.andThen {ε : Type} {first : Stage σ → Except ε α × Stage σ}
    {next : α → Stage σ → Except ε β × Stage σ} (hfirst : Oblivious first)
    (hnext : ∀ a, Oblivious (next a)) : Oblivious (Stage.andThen first next) := by
  refine hfirst.of_first ?_
  intro answer
  cases answer with
  | error e =>
      refine ⟨fun t => (.error e, t), .pure _, ?_⟩
      intro s t h
      rw [Stage.andThen, h]
  | ok a =>
      refine ⟨next a, hnext a, ?_⟩
      intro s t h
      rw [Stage.andThen, h]

theorem turn_oblivious (policy : Policy σ) (episode : UInt32) (observation : Observation) :
    Oblivious fun s : Stage σ =>
      (((s.turn policy episode observation).1, (s.turn policy episode observation).2.1),
        (s.turn policy episode observation).2.2) := by
  intro s
  let action := (policy.act s.player observation).1
  let outcome := (s.turn policy episode observation).1
  refine ⟨(outcome, (s.turn policy episode observation).2.1),
    (s.turn policy episode observation).2.2, [.step episode action outcome], ?_⟩
  intro b
  refine ⟨b.recordStep episode action outcome, ?_, rfl⟩
  simp [Logbook.callAll?_cons]

theorem turns_oblivious (policy : Policy σ) (n : Nat) (observation : Observation)
    (summary : Summary) : Oblivious (turns policy n observation summary) := by
  induction n generalizing observation summary with
  | zero => exact .pure _
  | succ n ih =>
      refine (turn_oblivious policy summary.episode observation).of_first ?_
      rintro ⟨outcome, fault⟩
      have hturn : ∀ s t : Stage σ,
          (((s.turn policy summary.episode observation).1,
            (s.turn policy summary.episode observation).2.1),
            (s.turn policy summary.episode observation).2.2) = ((outcome, fault), t) →
          s.turn policy summary.episode observation = (outcome, fault, t) := by
        intro s t h
        rw [Prod.mk.injEq, Prod.mk.injEq] at h
        rw [← h.1.1, ← h.1.2, ← h.2]
      cases fault with
      | some fault =>
          refine ⟨fun t => (.error fault, t), .pure _, ?_⟩
          intro s t h
          rw [turns, hturn s t h]
      | none =>
          by_cases hdone : outcome.done = true
          · refine ⟨fun t => (.ok ((summary.add outcome).close outcome), t), .pure _, ?_⟩
            intro s t h
            rw [turns, hturn s t h]
            exact if_pos hdone
          · refine ⟨turns policy n outcome.observation (summary.add outcome), ih _ _, ?_⟩
            intro s t h
            rw [turns, hturn s t h]
            exact if_neg hdone

theorem recordEpisode_oblivious (a : α) (summary : Summary) :
    Oblivious fun s : Stage σ => (a, { s with logbook := s.logbook.recordEpisode summary }) := by
  intro s
  refine ⟨a, s, [.episode summary], ?_⟩
  intro b
  refine ⟨b.recordEpisode summary, ?_, rfl⟩
  simp [Logbook.callAll?_cons]

theorem reset_oblivious (seed : Option UInt64) :
    Oblivious fun s : Stage σ =>
      (((s.environment.reset seed).1, (s.environment.reset seed).2.seed),
        { s with environment := (s.environment.reset seed).2 }) := by
  intro s
  refine ⟨((s.environment.reset seed).1, (s.environment.reset seed).2.seed),
    { s with environment := (s.environment.reset seed).2 }, [], ?_⟩
  intro b
  exact ⟨b, rfl, rfl⟩

theorem playEpisode_eq_andThen (policy : Policy σ) (episode : UInt32) (seed : Option UInt64)
    (iterations : UInt32) (s : Stage σ) :
    playEpisode policy episode seed iterations s =
      andThen (turns policy iterations.toNat (s.environment.reset seed).1
          { episode := episode, seed := (s.environment.reset seed).2.seed })
        (fun summary s => (.ok summary, { s with logbook := s.logbook.recordEpisode summary }))
        { s with environment := (s.environment.reset seed).2 } := by
  rcases hturns : turns policy iterations.toNat (s.environment.reset seed).1
    { episode := episode, seed := (s.environment.reset seed).2.seed }
    { s with environment := (s.environment.reset seed).2 } with ⟨fault | summary, t⟩
  · simp only [playEpisode, andThen, hturns]
  · simp only [playEpisode, andThen, hturns]

theorem playEpisode_oblivious (policy : Policy σ) (episode : UInt32) (seed : Option UInt64)
    (iterations : UInt32) : Oblivious (playEpisode policy episode seed iterations) := by
  refine (reset_oblivious seed).of_first ?_
  rintro ⟨observation, seed'⟩
  refine ⟨_, (turns_oblivious policy iterations.toNat observation
    { episode := episode, seed := seed' }).andThen
      fun summary => recordEpisode_oblivious (.ok summary) summary, ?_⟩
  intro s t h
  simp only [Prod.mk.injEq] at h
  obtain ⟨⟨rfl, rfl⟩, rfl⟩ := h
  exact playEpisode_eq_andThen policy episode seed iterations s

theorem playEpisodes_eq_andThen (base : UInt64) (iterations : UInt32) (n : Nat)
    (episode : UInt32) :
    playEpisodes base iterations (n + 1) episode =
      andThen (playEpisode .uniform episode (some (episodeSeed base episode)) iterations)
        fun summary => andThen (playEpisodes base iterations n (episode + 1))
          fun summaries s => (.ok (summary :: summaries), s) := by
  funext s
  rcases hplay : playEpisode .uniform episode (some (episodeSeed base episode)) iterations s
    with ⟨fault | summary, t⟩
  · simp only [playEpisodes, andThen, hplay]
  · rcases hrest : playEpisodes base iterations n (episode + 1) t with ⟨fault | summaries, t'⟩
    · simp only [playEpisodes, andThen, hplay, hrest]
    · simp only [playEpisodes, andThen, hplay, hrest]

theorem playEpisodes_oblivious (base : UInt64) (iterations : UInt32) (n : Nat)
    (episode : UInt32) : Oblivious (playEpisodes base iterations n episode) := by
  induction n generalizing episode with
  | zero => exact .pure _
  | succ n ih =>
      have hplay := playEpisode_oblivious .uniform episode (some (episodeSeed base episode))
        iterations
      rw [playEpisodes_eq_andThen]
      exact hplay.andThen fun summary => (ih (episode + 1)).andThen fun summaries => .pure _

end Stage

/-! ## Telemetry never influences a play -/

theorem openStage_withLogbook (plan : Plan) (rules : Rules) (base : UInt64) (output : Output)
    (b : Logbook) :
    openStage plan rules base output b =
      (openStage plan rules base output {}).map (·.withLogbook b) := by
  simp only [openStage]
  cases plan.check with
  | error c => rfl
  | ok u =>
      cases Environment.ofSeed rules base with
      | error c => rfl
      | ok environment =>
          cases UniformPlayer.ofSeed plan.actionLow plan.actionHigh (playerSeed base) with
          | error c => rfl
          | ok player => rfl

/-- The logbook of a batch before its end: a batch that succeeds ends with a flush, and one
that fails ends where it has got to. -/
theorem playBatch_eq_calls (plan : Plan) (rules : Rules) (fresh : UInt64) (output : Output) :
    ∃ (summaries : Except BatchError (List Summary)) (written : Output) (calls : List Call),
      ∀ b : Logbook, ∃ b', b.callAll? calls = some b' ∧
        playBatch plan rules fresh output b =
          ⟨summaries, written, if summaries.isOk then b'.flush else b'⟩ := by
  cases hopen : openStage plan rules (plan.seed.getD fresh) output {} with
  | error c =>
      refine ⟨.error (.refused c), output, [], ?_⟩
      intro b
      have hstage : openStage plan rules (plan.seed.getD fresh) output b = .error c := by
        rw [openStage_withLogbook, hopen]
        rfl
      refine ⟨b, rfl, ?_⟩
      simp only [playBatch, hstage]
      rfl
  | ok s =>
      have hstage : ∀ b, openStage plan rules (plan.seed.getD fresh) output b =
          .ok (s.withLogbook b) := by
        intro b
        rw [openStage_withLogbook, hopen]
        rfl
      obtain ⟨answer, final, calls, hcourse⟩ :=
        Stage.playEpisodes_oblivious (plan.seed.getD fresh) plan.iterations
          plan.episodes.toNat 0 s
      cases answer with
      | error fault =>
          refine ⟨.error (.output fault), final.output, calls, ?_⟩
          intro b
          obtain ⟨b', hcalls, hplay⟩ := hcourse b
          refine ⟨b', hcalls, ?_⟩
          simp only [playBatch, hstage, hplay]
          rfl
      | ok summaries =>
          refine ⟨.ok summaries, final.output, calls, ?_⟩
          intro b
          obtain ⟨b', hcalls, hplay⟩ := hcourse b
          refine ⟨b', hcalls, ?_⟩
          simp only [playBatch, hstage, hplay]
          rfl

theorem playBatch_oblivious (plan : Plan) (rules : Rules) (fresh : UInt64) (output : Output) :
    ∃ summaries written calls, ∀ b : Logbook, ∃ b', b.callAll? calls = some b' ∧
      playBatch plan rules fresh output b = ⟨summaries, written, b'⟩ := by
  obtain ⟨summaries, written, calls, hcourse⟩ := playBatch_eq_calls plan rules fresh output
  cases summaries with
  | error fault => exact ⟨.error fault, written, calls, hcourse⟩
  | ok summaries =>
      refine ⟨.ok summaries, written, calls ++ [.flush], ?_⟩
      intro b
      obtain ⟨b', hcalls, hplay⟩ := hcourse b
      refine ⟨b'.flush, ?_, hplay⟩
      rw [Logbook.callAll?_append, hcalls]
      rfl

/-- **Telemetry never influences a play.** An episode played with any two logbooks has
the same answer and leaves the environment, the state of the policy and the output the
same; so does a batch with a base seed. What is asked of the logbook does not depend on
it either, and each of these calls has an answer, as the calls that record a step or an
episode always have. -/
theorem play_oblivious :
    (∀ (σ : Type) (policy : Policy σ) (episode : UInt32) (seed : Option UInt64)
        (iterations : UInt32) (environment : Environment) (player : σ) (output : Output),
      let play := fun b : Logbook =>
        Stage.playEpisode policy episode seed iterations ⟨environment, player, output, b⟩
      (∀ b₁ b₂, (play b₁).1 = (play b₂).1 ∧ (play b₁).2.output = (play b₂).2.output ∧
          (play b₁).2.environment = (play b₂).2.environment ∧
          (play b₁).2.player = (play b₂).2.player) ∧
        ∃ calls, ∀ b, b.callAll? calls = some (play b).2.logbook) ∧
    (∀ (plan : Plan) (rules : Rules) (base fresh : UInt64) (output : Output),
      let play := fun b : Logbook =>
        playBatch { plan with seed := some base } rules fresh output b
      (∀ b₁ b₂, (play b₁).summaries = (play b₂).summaries ∧
          (play b₁).output = (play b₂).output) ∧
        ∃ calls, ∀ b, b.callAll? calls = some (play b).logbook) ∧
    (∀ (b : Logbook) (episode : UInt32) (action : Action) (outcome : Outcome),
      b.call? (.step episode action outcome) ≠ none) ∧
    (∀ (b : Logbook) (summary : Summary), b.call? (.episode summary) ≠ none) := by
  refine ⟨?_, ?_, ?_, ?_⟩
  · intro σ policy episode seed iterations environment player output play
    obtain ⟨answer, final, calls, hcourse⟩ :=
      Stage.playEpisode_oblivious policy episode seed iterations ⟨environment, player, output, {}⟩
    have hplay : ∀ b, ∃ b', b.callAll? calls = some b' ∧
        play b = (answer, final.withLogbook b') := hcourse
    refine ⟨?_, calls, ?_⟩
    · intro b₁ b₂
      obtain ⟨b₁', -, h₁⟩ := hplay b₁
      obtain ⟨b₂', -, h₂⟩ := hplay b₂
      rw [h₁, h₂]
      exact ⟨rfl, rfl, rfl, rfl⟩
    · intro b
      obtain ⟨b', hcalls, h⟩ := hplay b
      rw [h]
      exact hcalls
  · intro plan rules base fresh output play
    obtain ⟨summaries, written, calls, hcourse⟩ :=
      playBatch_oblivious { plan with seed := some base } rules fresh output
    have hplay : ∀ b, ∃ b', b.callAll? calls = some b' ∧ play b = ⟨summaries, written, b'⟩ :=
      hcourse
    refine ⟨?_, calls, ?_⟩
    · intro b₁ b₂
      obtain ⟨b₁', -, h₁⟩ := hplay b₁
      obtain ⟨b₂', -, h₂⟩ := hplay b₂
      rw [h₁, h₂]
      exact ⟨rfl, rfl⟩
    · intro b
      obtain ⟨b', hcalls, h⟩ := hplay b
      rw [h]
      exact hcalls
  · intro b episode action outcome
    rw [Logbook.call?_step]
    exact Option.some_ne_none _
  · intro b summary
    rw [Logbook.call?_episode]
    exact Option.some_ne_none _

end HiddenTarget
