import HiddenTarget.Proofs.Scripting.Session

/-!
# Sessions on a fleet

`FleetCall` says what a session asks of a fleet, and its `answer` is that of the fleet itself.
The host makes fleets without seeds. Two fleets with the same rules differ in their sources of
seeds and in what comes from them, and a reset with a seed for each environment leaves them with
the `SameEpisodes`. No call that gives seeds to all leads out of that, so a `Seeded` session is
answered alike by both: `replay_of_seeded`.
-/

namespace HiddenTarget

open HiddenTarget.Random

namespace Fleet

/-! ## Fleets that differ in their sources of seeds -/

/-- The environments of the fleets differ in their sources of seeds only. -/
def SameEpisodes (f g : Fleet) : Prop :=
  List.Forall₂ Environment.SameEpisode f.environments g.environments

def SameRules (f g : Fleet) : Prop :=
  List.Forall₂ (fun e e' : Environment => e.rules = e'.rules) f.environments g.environments

variable {f g : Fleet}

theorem SameRules.size_eq (h : SameRules f g) : f.size = g.size := h.length_eq

theorem SameEpisodes.sameRules (h : SameEpisodes f g) : SameRules f g :=
  h.imp fun _ _ hsame => congrArg Environment.rules hsame

theorem SameEpisodes.seeds_eq (h : SameEpisodes f g) : f.seeds = g.seeds := by
  rw [seeds, seeds, ← List.forall₂_eq_eq_eq, List.forall₂_map_left_iff, List.forall₂_map_right_iff]
  exact h.imp fun _ _ hsame => congrArg Environment.seed hsame

theorem SameEpisodes.dones_eq (h : SameEpisodes f g) : f.dones = g.dones := by
  rw [dones, dones, ← List.forall₂_eq_eq_eq, List.forall₂_map_left_iff, List.forall₂_map_right_iff]
  exact h.imp fun _ _ hsame => congrArg Environment.done hsame

theorem resetAll_fst (f : Fleet) (seeds : Option (List UInt64)) :
    (f.resetAll seeds).1 = List.replicate f.size 0 := by
  refine List.ext_getElem (by simp [resetAll, size]) ?_
  intro i _ _
  simp [resetAll]

theorem SameRules.resetAll (h : SameRules f g) {seeds : List UInt64}
    (hseeds : f.size ≤ seeds.length) :
    (f.resetAll (some seeds)).1 = (g.resetAll (some seeds)).1 ∧
      SameEpisodes (f.resetAll (some seeds)).2 (g.resetAll (some seeds)).2 := by
  refine ⟨by rw [resetAll_fst, resetAll_fst, h.size_eq], ?_⟩
  rw [SameRules, List.forall₂_iff_get] at h
  obtain ⟨hlength, hrules⟩ := h
  rw [SameEpisodes, List.forall₂_iff_get]
  refine ⟨by simp [Fleet.resetAll, hlength], ?_⟩
  intro i hi hi'
  simp only [Fleet.resetAll, List.length_map, List.length_mapIdx] at hi hi'
  have hseed : ∃ seed, seedFor (some seeds) i = some seed :=
    ⟨_, List.getElem?_eq_getElem (Nat.lt_of_lt_of_le hi hseeds)⟩
  obtain ⟨seed, hseed⟩ := hseed
  have hsame := Environment.sameEpisode_reset (hrules i hi hi') seed
  simpa [Fleet.resetAll, hseed] using hsame

theorem zipWith_step_sameEpisode {es es' : List Environment}
    (h : List.Forall₂ Environment.SameEpisode es es') (actions : List Action) :
    (List.zipWith Environment.step es actions).map Prod.fst =
        (List.zipWith Environment.step es' actions).map Prod.fst ∧
      List.Forall₂ Environment.SameEpisode
        ((List.zipWith Environment.step es actions).map Prod.snd)
        ((List.zipWith Environment.step es' actions).map Prod.snd) := by
  induction h generalizing actions with
  | nil => exact ⟨rfl, .nil⟩
  | @cons e e' es es' hsame _ ih =>
      cases actions with
      | nil => exact ⟨rfl, .nil⟩
      | cons action rest =>
          obtain ⟨houtcome, hsame'⟩ := hsame.step action
          obtain ⟨houtcomes, hrest⟩ := ih rest
          refine ⟨?_, .cons hsame' hrest⟩
          rw [List.zipWith_cons_cons, List.zipWith_cons_cons, List.map_cons, List.map_cons,
            houtcome, houtcomes]

theorem SameEpisodes.step (h : SameEpisodes f g) {actions : List Action}
    (hlength : actions.length = f.size) :
    ∃ outcomes f' g', f.step actions = .ok (outcomes, f') ∧ g.step actions = .ok (outcomes, g') ∧
      SameEpisodes f' g' := by
  obtain ⟨houtcomes, hsame⟩ := zipWith_step_sameEpisode h actions
  have hlength' : actions.length = g.size := hlength.trans h.length_eq
  refine ⟨_, _, _, step_of_length_eq hlength, ?_, hsame⟩
  rw [step_of_length_eq hlength', houtcomes]

theorem rules_of_make {rules : Rules} (hvalid : rules.Valid) {sources : List Generator}
    (h : make rules sources = .ok f) :
    f.size = sources.length ∧ ∀ e ∈ f.environments, e.rules = rules := by
  have hne : sources ≠ [] := by
    rintro rfl
    cases h
  obtain ⟨f', hmake, hlength, hlanes⟩ := exists_make_of_valid hvalid hne
  obtain rfl : f' = f := Except.ok.inj (hmake.symm.trans h)
  refine ⟨hlength, fun e he => ?_⟩
  obtain ⟨i, hi, rfl⟩ := List.mem_iff_getElem.mp he
  obtain ⟨e, hsource, hlane⟩ :=
    hlanes i _ (List.getElem?_eq_getElem (Nat.lt_of_lt_of_eq hi hlength))
  rw [List.getElem?_eq_getElem hi] at hlane
  rw [Option.some.inj hlane]
  exact (Environment.Reachable.make hsource).rules_eq

theorem sameRules_of_make {rules : Rules} (hvalid : rules.Valid)
    {sources sources' : List Generator} (hf : make rules sources = .ok f)
    (hg : make rules sources' = .ok g) (hlength : sources.length = sources'.length) :
    SameRules f g := by
  obtain ⟨hsize, hrules⟩ := rules_of_make hvalid hf
  obtain ⟨hsize', hrules'⟩ := rules_of_make hvalid hg
  refine List.forall₂_iff_get.mpr ⟨hsize.trans (hlength.trans hsize'.symm), ?_⟩
  intro i hi hi'
  exact (hrules _ (List.getElem_mem hi)).trans (hrules' _ (List.getElem_mem hi')).symm

end Fleet

namespace Scripting

/-! ## Calls -/

inductive FleetCall
  | resetAll (seeds : Option (List Int))
  | step (actions : List Int)
  | seeds
  | dones
  | numEnvs

namespace FleetCall

inductive Asks : FleetCall → Request → Prop
  | resetUnseeded {a : Arguments} : a.Gives ⟨"seeds", some .none⟩ .none →
      Asks (.resetAll none) (.call "reset_all" a)
  | resetAll {a : Arguments} {v : Value} {is : List Int} : a.Gives ⟨"seeds", some .none⟩ v →
      v.Lists is → Asks (.resetAll (some is)) (.call "reset_all" a)
  | step {a : Arguments} {v : Value} {is : List Int} : a.Gives ⟨"actions", none⟩ v →
      v.Lists is → Asks (.step is) (.call "step" a)
  | seeds : Asks .seeds (.call "seeds" {})
  | dones : Asks .dones (.call "dones" {})
  | numEnvs : Asks .numEnvs (.get "num_envs")

def answer (f : Fleet) : FleetCall → Except Exception (Value × Fleet)
  | resetAll none =>
    return (.list ((f.resetAll none).1.map fun o => .int o.toNat), (f.resetAll none).2)
  | resetAll (some is) => do
    let seeds ← is.mapM seedOf
    let (observations, f) := f.resetAll (some seeds)
    return (.list (observations.map fun o => .int o.toNat), f)
  | step is => do
    let actions ← is.mapM actionOf
    match f.step actions with
    | .error c => throw (.valueError c.text)
    | .ok (os, f) =>
      return (.tuple [
        .list (os.map fun o => .int o.observation.toNat),
        .list (os.map fun o => .float o.reward),
        .list (os.map fun o => .bool o.done)], f)
  | seeds => return (.list (f.seeds.map fun seed => .int seed.toNat), f)
  | dones => return (.list (f.dones.map .bool), f)
  | numEnvs => return (.int f.size, f)

def move? : FleetCall → Option Fleet.Move
  | resetAll none => some (.reset none)
  | resetAll (some is) => (is.mapM seedOf).toOption.map fun seeds => .reset (some seeds)
  | step is => (is.mapM actionOf).toOption.map .step
  | _ => none

theorem callResetAll_of_gives {a : Arguments} {v : Value} (h : a.Gives ⟨"seeds", some .none⟩ v)
    (f : Fleet) :
    Several.callResetAll f a = (v.toOptional (Value.toList Value.toUInt64)).map fun seeds =>
      (.list ((f.resetAll seeds).1.map ofUInt32), (f.resetAll seeds).2) := by
  rw [Several.callResetAll, h]
  rfl

theorem toOptional_of_lists {v : Value} {is : List Int} (h : v.Lists is) :
    v.toOptional (Value.toList Value.toUInt64) = (is.mapM seedOf).map some := by
  have hlist := toList_of_lists (fun _ _ => toUInt64_eq_seedOf) h
  obtain ⟨items, rfl | rfl, -⟩ := h
  · rw [← hlist]
    rfl
  · rw [← hlist]
    rfl

theorem perform_of_asks (f : Fleet) (c : FleetCall) (r : Request) (h : Asks c r) :
    (Object.fleet f).perform r = (settle f (c.answer f)).map id .fleet := by
  have hcall : ∀ method a, (Object.fleet f).perform (.call method a) =
      (settle f (Several.call f method a)).map id .fleet := fun method a => by
    rw [Object.perform, Object.callInPlace, Several.callInPlace_eq]
  cases h with
  | resetUnseeded hgives =>
      rw [hcall, Several.call, callResetAll_of_gives hgives]
      rfl
  | resetAll hgives hlists =>
      rw [hcall, Several.call, callResetAll_of_gives hgives, toOptional_of_lists hlists, answer]
      rcases List.mapM seedOf _ with x | seeds
      · rfl
      · rfl
  | step hgives hlists =>
      rw [hcall, Several.call, Several.callStep, hgives]
      change Prod.map id Object.fleet (settle f (Value.toList Value.toInt32 _ >>= _)) = _
      rw [toList_of_lists (fun _ _ => toInt32_eq_actionOf) hlists, answer]
      rcases List.mapM actionOf _ with x | actions
      · rfl
      · dsimp only [bind, Except.bind]
        rcases f.step actions with c | r
        · rfl
        · rfl
  | _ => rfl

/-- A call changes the fleet by its move and not otherwise. -/
theorem settle_answer (f : Fleet) (c : FleetCall) :
    (settle f (c.answer f)).2 = (f.run c.move?.toList).2 := by
  cases c with
  | resetAll seeds =>
      cases seeds with
      | none => rfl
      | some is =>
          rw [answer, move?]
          cases is.mapM seedOf with
          | error x => rfl
          | ok seeds => rfl
  | step is =>
      rw [answer, move?]
      cases is.mapM actionOf with
      | error x => rfl
      | ok actions =>
          change _ = (f.move (.step actions)).2
          rw [Fleet.move]
          dsimp only [bind, Except.bind]
          cases f.step actions with
          | error c => rfl
          | ok r => rfl
  | _ => rfl

theorem replay_eq_run (f : Fleet) (calls : List FleetCall) :
    (replay answer f calls).2 = (f.run (calls.filterMap move?)).2 := by
  induction calls generalizing f with
  | nil => rfl
  | cons c rest ih =>
      rw [replay_cons, settle_answer, ih, Fleet.filterMap_cons_eq_append, Fleet.run_append]

theorem size_settle (f : Fleet) (c : FleetCall) : (settle f (c.answer f)).2.size = f.size := by
  rw [settle_answer]
  exact (Fleet.run_fits f _).1

theorem exists_answer_of_mem {f : Fleet} {calls : List FleetCall} {c : FleetCall}
    {r : Except Exception Value} (h : (c, r) ∈ calls.zip (replay answer f calls).1) :
    ∃ g : Fleet, g.size = f.size ∧ (settle g (c.answer g)).1 = r := by
  induction calls generalizing f with
  | nil => cases h
  | cons first rest ih =>
      rw [replay_cons, List.zip_cons_cons] at h
      rcases List.mem_cons.mp h with heq | hmem
      · rw [Prod.mk.injEq] at heq
        obtain ⟨rfl, rfl⟩ := heq
        exact ⟨f, rfl, rfl⟩
      · obtain ⟨g, hsize, hanswer⟩ := ih hmem
        exact ⟨g, hsize.trans (size_settle f first), hanswer⟩

theorem columns_of_step {f : Fleet} {is : List Int} {v : Value}
    (h : (settle f (answer f (.step is))).1 = .ok v) :
    ∃ observations rewards dones, v = .tuple [.list observations, .list rewards, .list dones] ∧
      observations.length = f.size ∧ rewards.length = f.size ∧ dones.length = f.size := by
  rw [answer] at h
  cases hactions : is.mapM actionOf with
  | error x =>
      rw [hactions] at h
      cases h
  | ok actions =>
      rw [hactions] at h
      dsimp only [bind, Except.bind] at h
      rcases hstep : f.step actions with c | ⟨os, g⟩
      · rw [hstep] at h
        cases h
      · rw [hstep] at h
        obtain ⟨-, hlength⟩ := Fleet.step_size hstep
        refine ⟨_, _, _, (Except.ok.inj h).symm, ?_, ?_, ?_⟩
        all_goals rw [List.length_map, hlength]

/-! ## Seeded sessions -/

/-- The call asks nothing of `n` environments: it raises, or wants to know how many there are. -/
def Idle (n : Nat) : FleetCall → Prop
  | resetAll (some is) => ∃ i ∈ is, ¬ (0 ≤ i ∧ i < 2 ^ 64)
  | step is => is.length ≠ n ∨ ∃ i ∈ is, ¬ (-2 ^ 31 ≤ i ∧ i < 2 ^ 31)
  | numEnvs => True
  | _ => False

/-- If the call is a reset, there is a seed for each of `n` environments. -/
def GivesSeeds (n : Nat) : FleetCall → Prop
  | resetAll none => False
  | resetAll (some is) => n ≤ is.length
  | _ => True

/-- Every reset gives a seed to each of `n` environments, and nothing is asked of them before the
first one. -/
inductive Seeded (n : Nat) : List FleetCall → Prop
  | nil : Seeded n []
  | idle {c : FleetCall} {rest : List FleetCall} : c.Idle n → Seeded n rest →
      Seeded n (c :: rest)
  | resetAll {is : List Int} {rest : List FleetCall} : n ≤ is.length →
      (∀ i ∈ is, 0 ≤ i ∧ i < 2 ^ 64) → (∀ c ∈ rest, c.GivesSeeds n) →
      Seeded n (.resetAll (some is) :: rest)

theorem mapM_of_mem_error {α : Type} {g : Int → Except Exception α} {x : Exception}
    (honly : ∀ i y, g i = .error y → y = x) {is : List Int} (h : ∃ i ∈ is, g i = .error x) :
    is.mapM g = .error x := by
  induction is with
  | nil => simp at h
  | cons i rest ih =>
      rw [List.mapM_cons]
      cases hi : g i with
      | error y => rw [honly i y hi]; rfl
      | ok a =>
          obtain ⟨j, hj, herror⟩ := h
          rcases List.mem_cons.mp hj with rfl | hj
          · rw [hi] at herror
            cases herror
          · rw [ih ⟨j, hj, herror⟩]
            rfl

theorem length_of_mapM {α : Type} {g : Int → Except Exception α} {is : List Int} {as : List α}
    (h : is.mapM g = .ok as) : as.length = is.length := by
  induction is generalizing as with
  | nil =>
      cases h
      rfl
  | cons i rest ih =>
      rw [List.mapM_cons] at h
      cases hi : g i with
      | error y =>
          rw [hi] at h
          cases h
      | ok a =>
          cases hrest : rest.mapM g with
          | error y =>
              rw [hi, hrest] at h
              cases h
          | ok others =>
              rw [hi, hrest] at h
              cases h
              rw [List.length_cons, List.length_cons, ih hrest]

theorem exists_mapM_eq_ok {α : Type} {g : Int → Except Exception α} {is : List Int}
    (h : ∀ i ∈ is, ∃ a, g i = .ok a) : ∃ as, is.mapM g = .ok as := by
  induction is with
  | nil => exact ⟨[], rfl⟩
  | cons i rest ih =>
      obtain ⟨a, ha⟩ := h i List.mem_cons_self
      obtain ⟨as, has⟩ := ih fun j hj => h j (List.mem_cons_of_mem i hj)
      refine ⟨a :: as, ?_⟩
      rw [List.mapM_cons, ha, has]
      rfl

theorem Idle.settle_eq {n : Nat} {c : FleetCall} (h : c.Idle n) :
    ∃ r, ∀ f : Fleet, f.size = n → settle f (c.answer f) = (r, f) := by
  cases c with
  | resetAll seeds =>
      cases seeds with
      | none => exact h.elim
      | some is =>
          obtain ⟨i, hi, hout⟩ := h
          refine ⟨.error .overflowError, fun f _ => ?_⟩
          have hseeds : is.mapM seedOf = .error .overflowError :=
            mapM_of_mem_error (fun _ _ => eq_overflowError) ⟨i, hi, if_neg hout⟩
          rw [answer, hseeds]
          rfl
  | step is =>
      by_cases hbad : ∃ i ∈ is, ¬ (-2 ^ 31 ≤ i ∧ i < 2 ^ 31)
      · obtain ⟨i, hi, hout⟩ := hbad
        refine ⟨.error .overflowError, fun f _ => ?_⟩
        have hactions : is.mapM actionOf = .error .overflowError :=
          mapM_of_mem_error (fun _ _ => eq_overflowError) ⟨i, hi, if_neg hout⟩
        rw [answer, hactions]
        rfl
      · have hlength : is.length ≠ n := h.resolve_right hbad
        obtain ⟨actions, hactions⟩ : ∃ actions, is.mapM actionOf = .ok actions :=
          exists_mapM_eq_ok fun i hi =>
            ⟨_, if_pos (Classical.not_not.mp fun hout => hbad ⟨i, hi, hout⟩)⟩
        have hcount : actions.length ≠ n := fun heq =>
          hlength ((length_of_mapM hactions).symm.trans heq)
        refine ⟨.error (.valueError (Complaint.wrongActionCount actions.length n).text), ?_⟩
        rintro f rfl
        rw [answer, hactions]
        dsimp only [bind, Except.bind]
        rw [Fleet.step_of_length_ne hcount]
        rfl
  | numEnvs =>
      refine ⟨.ok (.int n), ?_⟩
      rintro f rfl
      rfl
  | seeds => exact h.elim
  | dones => exact h.elim

theorem settle_resetAll {f g : Fleet} (h : Fleet.SameRules f g) {is : List Int}
    (hgives : f.size ≤ is.length) :
    (settle f (answer f (.resetAll (some is)))).1 = (settle g (answer g (.resetAll (some is)))).1 ∧
      ((∀ i ∈ is, 0 ≤ i ∧ i < 2 ^ 64) ∨ Fleet.SameEpisodes f g →
        Fleet.SameEpisodes (settle f (answer f (.resetAll (some is)))).2
          (settle g (answer g (.resetAll (some is)))).2) := by
  rw [answer, answer]
  cases hseeds : is.mapM seedOf with
  | error x =>
      refine ⟨rfl, fun hor => hor.resolve_left fun hrange => ?_⟩
      obtain ⟨seeds, hok⟩ := exists_mapM_eq_ok (g := seedOf) fun i hi => ⟨_, if_pos (hrange i hi)⟩
      rw [hok] at hseeds
      cases hseeds
  | ok seeds =>
      have hlength : f.size ≤ seeds.length := by
        rw [length_of_mapM hseeds]
        exact hgives
      obtain ⟨hobservations, hsame⟩ := h.resetAll hlength
      refine ⟨?_, fun _ => hsame⟩
      exact congrArg
        (fun os : List Observation => Except.ok (Value.list (os.map fun o => .int o.toNat)))
        hobservations

theorem GivesSeeds.settle_eq {f g : Fleet} (h : Fleet.SameEpisodes f g) {c : FleetCall}
    (hgives : c.GivesSeeds f.size) :
    (settle f (c.answer f)).1 = (settle g (c.answer g)).1 ∧
      Fleet.SameEpisodes (settle f (c.answer f)).2 (settle g (c.answer g)).2 := by
  cases c with
  | resetAll seeds =>
      cases seeds with
      | none => exact hgives.elim
      | some is =>
          obtain ⟨hanswer, hsame⟩ := settle_resetAll h.sameRules hgives
          exact ⟨hanswer, hsame (.inr h)⟩
  | step is =>
      rw [answer, answer]
      cases is.mapM actionOf with
      | error x => exact ⟨rfl, h⟩
      | ok actions =>
          dsimp only [bind, Except.bind]
          by_cases hlength : actions.length = f.size
          · obtain ⟨os, f', g', hf, hg, hsame⟩ := h.step hlength
            rw [hf, hg]
            exact ⟨rfl, hsame⟩
          · have hlength' : actions.length ≠ g.size := h.sameRules.size_eq ▸ hlength
            rw [Fleet.step_of_length_ne hlength, Fleet.step_of_length_ne hlength',
              h.sameRules.size_eq]
            exact ⟨rfl, h⟩
  | seeds =>
      refine ⟨?_, h⟩
      change Except.ok (Value.list _) = Except.ok (Value.list _)
      rw [h.seeds_eq]
  | dones =>
      refine ⟨?_, h⟩
      change Except.ok (Value.list _) = Except.ok (Value.list _)
      rw [h.dones_eq]
  | numEnvs =>
      refine ⟨?_, h⟩
      change Except.ok (Value.int _) = Except.ok (Value.int _)
      rw [h.sameRules.size_eq]

theorem replay_of_sameEpisodes {f g : Fleet} (h : Fleet.SameEpisodes f g) {calls : List FleetCall}
    (hgives : ∀ c ∈ calls, c.GivesSeeds f.size) :
    (replay answer f calls).1 = (replay answer g calls).1 := by
  induction calls generalizing f g with
  | nil => rfl
  | cons c rest ih =>
      obtain ⟨hanswer, hsame⟩ := (hgives c List.mem_cons_self).settle_eq h
      rw [replay_cons, replay_cons, hanswer, ih hsame]
      intro c' hc'
      rw [size_settle]
      exact hgives c' (List.mem_cons_of_mem c hc')

/-- **A seeded session does not depend on the sources of seeds.** -/
theorem replay_of_seeded {n : Nat} {calls : List FleetCall} (h : Seeded n calls) {f g : Fleet}
    (hsize : f.size = n) (hrules : Fleet.SameRules f g) :
    (replay answer f calls).1 = (replay answer g calls).1 := by
  induction h with
  | nil => rfl
  | idle hidle _ ih =>
      obtain ⟨r, hsettle⟩ := hidle.settle_eq
      rw [replay_cons, replay_cons, hsettle f hsize, hsettle g (hrules.size_eq ▸ hsize), ih]
  | resetAll hlength hrange hgives =>
      subst hsize
      obtain ⟨hanswer, hsame⟩ := settle_resetAll hrules hlength
      rw [replay_cons, replay_cons, hanswer, replay_of_sameEpisodes (hsame (.inl hrange))]
      intro c hc
      rw [size_settle]
      exact hgives c hc

end FleetCall

/-! ## Making a fleet -/

def Arguments.MakesFleet (a : Arguments) (n : Nat) (maxSteps : UInt32) (numTargets : Int32) :
    Prop :=
  ∃ u v w, a.bind Class.fleet.parameters = .ok [u, v, w] ∧ u.toInt? = some (n : Int) ∧
    v.toInt? = some maxSteps.toNat ∧ w.toInt? = some numTargets.toInt

theorem toCount_of_int {v : Value} {n : Nat} (h : v.toInt? = some (n : Int)) (hn : n < 2 ^ 64) :
    v.toCount = .ok n := by
  rw [Value.toCount, map_toBounded _ h uint64_contains_iff, if_pos ⟨by omega, by omega⟩]
  rfl

theorem construct_fleet {a : Arguments} {n : Nat} {maxSteps : UInt32} {numTargets : Int32}
    (h : a.MakesFleet n maxSteps numTargets) (hpos : 0 < n) (hlt : n < 2 ^ 64)
    (hvalid : ({ maxSteps := maxSteps, numTargets := numTargets } : Rules).Valid)
    (fresh : Nat → Generator) :
    ∃ f, Fleet.make { maxSteps := maxSteps, numTargets := numTargets }
        ((List.range n).map fresh) = .ok f ∧
      Class.fleet.construct fresh a = .ok (.fleet f) := by
  obtain ⟨u, v, w, hbind, hu, hv, hw⟩ := h
  have hne : (List.range n).map fresh ≠ [] := by
    simp only [ne_eq, List.map_eq_nil_iff, List.range_eq_nil]
    omega
  obtain ⟨f, hmake, -⟩ := Fleet.exists_make_of_valid hvalid hne
  refine ⟨f, hmake, ?_⟩
  rw [Class.construct, hbind]
  dsimp only [bind, Except.bind]
  rw [toCount_of_int hu hlt, toUInt32_of_int hv, toInt32_of_int hw]
  dsimp only
  rw [rulesOf_of_valid hvalid]
  dsimp only
  rw [hmake]
  rfl

end Scripting

end HiddenTarget
