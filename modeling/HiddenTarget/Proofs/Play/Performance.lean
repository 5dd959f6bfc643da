import HiddenTarget.Proofs.Play.Agreement
import HiddenTarget.Proofs.Play.Oblivious

/-!
# Plays as performances of events

Whatever output a play is given, it performs the events that an output without a limit would
get from it, one after the other, up to the first line that is not taken. `Event.performAll`
does this, and `Stage.Performs` says of a play that it comes to the same. One turn does, and
so do, by induction, the turns of an episode and the episodes of a batch:
`playEpisodes_performs`. Neither the events nor the answer depend on the output or the logbook.
-/

namespace HiddenTarget

open Telemetry (Logbook)

namespace Event

/-- Perform events up to the first line that the output does not take. -/
def performAll (o : Output) (b : Logbook) : List Event → Option OutputFault × Output × Logbook
  | [] => (none, o, b)
  | .record members :: rest => performAll o (b.record members) rest
  | .line text :: rest =>
    match o.write text with
    | (none, o) => performAll o b rest
    | (some fault, o) => (some fault, o, b)

theorem performAll_append (o : Output) (b : Logbook) (before after : List Event) :
    performAll o b (before ++ after) =
      match performAll o b before with
      | (none, o, b) => performAll o b after
      | (some fault, o, b) => (some fault, o, b) := by
  induction before generalizing o b with
  | nil => rfl
  | cons event before ih =>
      cases event with
      | record members => exact ih o _
      | line text =>
          rw [List.cons_append, performAll, performAll]
          rcases o.write text with ⟨_ | fault, o'⟩
          · exact ih o' b
          · rfl

theorem performAll_lines (o : Output) (b : Logbook) (lines : List String) :
    performAll o b (lines.map Event.line) = ((o.writeAll lines).1, (o.writeAll lines).2, b) := by
  induction lines generalizing o with
  | nil => rfl
  | cons text rest ih =>
      rw [List.map_cons, performAll, Output.writeAll]
      rcases o.write text with ⟨_ | fault, o₁⟩
      · exact ih o₁
      · rfl

theorem performAll_events (o : Output) (b : Logbook) (episode : UInt32) (t : Turn) :
    performAll o b (t.events episode) =
      ((o.writeAll (outcomeLines t.action t.outcome)).1,
        (o.writeAll (outcomeLines t.action t.outcome)).2,
        b.recordStep episode t.action t.outcome) :=
  performAll_lines o _ _

end Event

open Event (performAll)

namespace Stage

variable {σ α β : Type}

/-- The play performs the events from the given state of the game and the policy on: if all of
them are taken, it has the answer and leaves the state that come last, and if a line is not
taken it fails where the performance stops. -/
structure Performs (play : Stage σ → Except OutputFault α × Stage σ) (environment : Environment)
    (player : σ) (events : List Event) (answer : α) (environment' : Environment) (player' : σ) :
    Prop where
  done : ∀ {o o' b b'}, performAll o b events = (none, o', b') →
    play ⟨environment, player, o, b⟩ = (.ok answer, ⟨environment', player', o', b'⟩)
  cut : ∀ {o o' b b' fault}, performAll o b events = (some fault, o', b') →
    ∃ e p, play ⟨environment, player, o, b⟩ = (.error fault, ⟨e, p, o', b'⟩)

variable {environment environment' environment'' : Environment} {player player' player'' : σ}
  {events events' : List Event}

theorem Performs.pure (a : α) (environment : Environment) (player : σ) :
    Performs (fun s => (.ok a, s)) environment player [] a environment player := by
  constructor
  · rintro o o' b b' ⟨⟩
    rfl
  · rintro o o' b b' fault ⟨⟩

theorem Performs.record (a : α) (members : Json.Members) (environment : Environment)
    (player : σ) :
    Performs (fun s => (.ok a, { s with logbook := s.logbook.record members })) environment player
      [.record members] a environment player := by
  constructor
  · rintro o o' b b' ⟨⟩
    rfl
  · rintro o o' b b' fault ⟨⟩

theorem Performs.andThen {first : Stage σ → Except OutputFault α × Stage σ}
    {next : α → Stage σ → Except OutputFault β × Stage σ} {a : α} {c : β}
    (hfirst : Performs first environment player events a environment' player')
    (hnext : Performs (next a) environment' player' events' c environment'' player'') :
    Performs (Stage.andThen first next) environment player (events ++ events') c environment''
      player'' := by
  constructor
  · intro o o' b b' h
    rcases hperform : performAll o b events with ⟨_ | fault, o₁, b₁⟩
    · rw [Event.performAll_append, hperform] at h
      rw [Stage.andThen, hfirst.done hperform]
      exact hnext.done h
    · rw [Event.performAll_append, hperform] at h
      cases h
  · intro o o' b b' fault h
    rcases hperform : performAll o b events with ⟨_ | fault', o₁, b₁⟩
    · rw [Event.performAll_append, hperform] at h
      rw [Stage.andThen, hfirst.done hperform]
      exact hnext.cut h
    · rw [Event.performAll_append, hperform] at h
      obtain ⟨e, p, hplay⟩ := hfirst.cut hperform
      cases h
      exact ⟨e, p, by rw [Stage.andThen, hplay]⟩

theorem Performs.map {play : Stage σ → Except OutputFault α × Stage σ} {a : α}
    (h : Performs play environment player events a environment' player') (f : α → β) :
    Performs (Stage.andThen play fun a s => (.ok (f a), s)) environment player events (f a)
      environment' player' := by
  have hall : Performs (Stage.andThen play fun a s => (.ok (f a), s)) environment player
      (events ++ []) (f a) environment' player' := h.andThen (.pure _ _ _)
  rwa [List.append_nil] at hall

/-! ## One turn -/

def answered : Outcome × Option OutputFault × Stage σ → Except OutputFault Outcome × Stage σ
  | (outcome, none, s) => (.ok outcome, s)
  | (_, some fault, s) => (.error fault, s)

theorem turn_performs (policy : Policy σ) (episode : UInt32) (observation : Observation)
    (environment : Environment) (player : σ) :
    let action := (policy.act player observation).1
    let result := environment.step action
    Performs (fun s => answered (s.turn policy episode observation)) environment player
      (Turn.events episode ⟨action, result.1⟩) result.1 result.2
      (policy.act player observation).2 := by
  intro action result
  have hturn : ∀ o b, turn policy episode observation ⟨environment, player, o, b⟩ =
      (result.1, (o.writeAll (outcomeLines action result.1)).1,
        ⟨result.2, (policy.act player observation).2,
          (o.writeAll (outcomeLines action result.1)).2,
          b.recordStep episode action result.1⟩) := fun o b => rfl
  constructor
  · intro o o' b b' h
    rw [Event.performAll_events, Prod.mk.injEq, Prod.mk.injEq] at h
    obtain ⟨hfault, rfl, rfl⟩ := h
    rw [hturn, hfault, answered]
  · intro o o' b b' fault h
    rw [Event.performAll_events, Prod.mk.injEq, Prod.mk.injEq] at h
    obtain ⟨hfault, rfl, rfl⟩ := h
    exact ⟨_, _, by rw [hturn, hfault, answered]⟩

theorem turns_eq_andThen (policy : Policy σ) (n : Nat) (observation : Observation)
    (summary : Summary) :
    turns policy (n + 1) observation summary =
      andThen (fun s => answered (s.turn policy summary.episode observation)) fun outcome =>
        if outcome.done then fun s => (.ok ((summary.add outcome).close outcome), s)
        else turns policy n outcome.observation (summary.add outcome) := by
  funext s
  rw [turns, andThen]
  rcases s.turn policy summary.episode observation with ⟨outcome, _ | fault, t⟩
  · cases hdone : outcome.done with
    | true => simp only [answered, hdone, if_true]
    | false => simp only [answered, hdone, Bool.false_eq_true, if_false]
  · rfl

/-! ## Episodes -/

theorem turns_performs (policy : Policy σ) (n : Nat) (observation : Observation)
    (summary : Summary) (environment : Environment) (player : σ) :
    let played := policy.turns n observation environment player
    Performs (turns policy n observation summary) environment player
      (played.1.flatMap (Turn.events summary.episode)) (summary.addTurns played.1) played.2.1
      played.2.2 := by
  induction n generalizing observation summary environment player with
  | zero => exact .pure _ _ _
  | succ n ih =>
      have hturn := turn_performs policy summary.episode observation environment player
      rw [turns_eq_andThen]
      cases hdone : (environment.step (policy.act player observation).1).1.done with
      | true =>
          rw [Policy.turns_of_done hdone]
          simp only [List.flatMap_cons, List.flatMap_nil, Summary.addTurns, hdone, if_true]
          refine hturn.andThen ?_
          rw [if_pos hdone]
          exact .pure _ _ _
      | false =>
          rw [Policy.turns_of_running hdone]
          simp only [List.flatMap_cons, Summary.addTurns, hdone, Bool.false_eq_true, if_false]
          refine hturn.andThen ?_
          rw [if_neg (by simp [hdone])]
          exact ih _ (summary.add _) _ _

theorem playEpisode_performs (policy : Policy σ) (episode : UInt32) (seed : Option UInt64)
    (iterations : UInt32) (environment : Environment) (player : σ) :
    let start := (environment.reset seed).2
    let played := policy.turns iterations.toNat 0 start player
    let summary : Summary := { episode := episode, seed := start.seed }
    Performs (playEpisode policy episode seed iterations) environment player
      (episodeEvents summary played.1) (summary.addTurns played.1) played.2.1 played.2.2 := by
  intro start played summary
  have hturns := turns_performs policy iterations.toNat 0 summary start player
  let close : Summary → Stage σ → Except OutputFault Summary × Stage σ := fun summary s =>
    (.ok summary, { s with logbook := s.logbook.recordEpisode summary })
  have hclose : Performs (close (summary.addTurns played.1)) played.2.1 played.2.2
      [.record (Telemetry.episodeRecord (summary.addTurns played.1))] (summary.addTurns played.1)
      played.2.1 played.2.2 := .record _ _ _ _
  have hwhole := hturns.andThen hclose
  have hplay : ∀ o b, playEpisode policy episode seed iterations ⟨environment, player, o, b⟩ =
      Stage.andThen (turns policy iterations.toNat 0 summary) close ⟨start, player, o, b⟩ := by
    intro o b
    rw [playEpisode_eq_andThen, Environment.reset_fst]
  constructor
  · intro o o' b b' h
    rw [hplay]
    exact hwhole.done h
  · intro o o' b b' fault h
    rw [hplay]
    exact hwhole.cut h

end Stage

/-! ## Trajectories -/

def trajectoryEvents (base : UInt64) (i : Nat) (turns : List Turn) : List Event :=
  episodeEvents { episode := UInt32.ofNat i, seed := base + UInt64.ofNat i } turns

namespace Stage

theorem playEpisode_performs_trajectory (base : UInt64) (iterations : UInt32)
    (origin : Environment) {i : Nat} (hi : i < UInt32.size) {environment : Environment}
    {player : UniformPlayer} (hrules : environment.rules = origin.rules)
    (hseeds : environment.seeds = origin.seeds) {turns : List Turn}
    (hturns : (origin.reset (some (base + UInt64.ofNat i))).2.trajectory iterations.toNat
      player.guess = turns) :
    ∃ environment' : Environment, environment'.rules = origin.rules ∧
      environment'.seeds = origin.seeds ∧
      Performs
        (playEpisode .uniform (UInt32.ofNat i) (some (episodeSeed base (UInt32.ofNat i)))
          iterations)
        environment player (trajectoryEvents base i turns) (report base i turns) environment'
        (player.after turns.length) := by
  have hstart := Environment.reset_some_congr hrules hseeds (base + UInt64.ofNat i)
  have hepisode : EpisodeTurns turns := hturns ▸ Environment.episodeTurns_trajectory _ _ _
  obtain ⟨environment', hrules', hseeds', -, hplayed⟩ := Policy.uniform_turns iterations.toNat 0
    (origin.reset (some (base + UInt64.ofNat i))).2 player
  rw [hturns] at hplayed
  refine ⟨environment', hrules', hseeds', ?_⟩
  have hplay := playEpisode_performs .uniform (UInt32.ofNat i)
    (some (episodeSeed base (UInt32.ofNat i))) iterations environment player
  rw [episodeSeed_ofNat base hi, hstart] at hplay
  simp only [hplayed, Environment.reset_some_seed, hepisode.addTurns_start] at hplay
  rw [episodeSeed_ofNat base hi]
  exact hplay

/-- **The episodes of a batch, from number `i` on**, perform their trajectories, which begin at
seeded resets and go on in the player's stream of guesses. -/
theorem playEpisodes_performs (base : UInt64) (iterations : UInt32) (origin : Environment)
    (n i : Nat) (hbound : i + n ≤ UInt32.size) {environment : Environment} {player : UniformPlayer}
    (hrules : environment.rules = origin.rules) (hseeds : environment.seeds = origin.seeds) :
    let played := trajectories iterations.toNat player.guess (batchStarts origin base i n)
    ∃ environment' player',
      Performs (playEpisodes base iterations n (UInt32.ofNat i)) environment player
        (played.mapIdx fun k => trajectoryEvents base (i + k)).flatten
        (played.mapIdx fun k => report base (i + k)) environment' player' := by
  induction n generalizing i environment player with
  | zero => exact ⟨environment, player, .pure _ _ _⟩
  | succ n ih =>
      have hnext : UInt32.ofNat i + 1 = UInt32.ofNat (i + 1) := (UInt32.ofNat_add i 1).symm
      rw [batchStarts_succ, trajectories]
      generalize hturns : (origin.reset (some (base + UInt64.ofNat i))).2.trajectory
        iterations.toNat player.guess = turns
      obtain ⟨environment', hrules', hseeds', hplay⟩ :=
        playEpisode_performs_trajectory base iterations origin (by omega) hrules hseeds hturns
      obtain ⟨environment'', player'', hrest⟩ :=
        @ih (i + 1) (by omega) environment' (player.after turns.length) hrules' hseeds'
      rw [UniformPlayer.guess_after] at hrest
      refine ⟨environment'', player'', ?_⟩
      rw [playEpisodes_eq_andThen, hnext, mapIdx_from_cons (trajectoryEvents base),
        mapIdx_from_cons (report base), List.flatten_cons]
      refine hplay.andThen ?_
      exact hrest.map (report base i turns :: ·)

end Stage

end HiddenTarget
