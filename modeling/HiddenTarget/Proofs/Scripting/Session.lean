import HiddenTarget.Proofs.Game.Lanes
import HiddenTarget.Proofs.Game.SeedStream
import HiddenTarget.Proofs.Scripting.InPlace
import Mathlib.Algebra.Group.Int.Defs
import Mathlib.Algebra.Group.Nat.Defs

/-!
# Sessions on an object

A session is written down twice. The host makes `Request`s with the arguments that it has, and
the object meets them in place. A `SingleCall` or a `FleetCall` says what such a request asks for,
with integers as they are, and its `answer` is that of the environment or the fleet itself.
`replay` goes through the calls of a session in this way, and `session_eq_replay` says that the
two accounts agree if each request does. A fleet that is made without seeds is no exception as
soon as the caller gives a seed to each environment: `Seeded` sessions are answered alike whatever
the sources of seeds.
-/

namespace HiddenTarget.Scripting

open HiddenTarget.Random

/-! ## Integers -/

def seedOf (i : Int) : Except Exception UInt64 :=
  if 0 ≤ i ∧ i < 2 ^ 64 then .ok (UInt64.ofNat i.toNat) else .error .overflowError

def actionOf (i : Int) : Except Exception Action :=
  if -2 ^ 31 ≤ i ∧ i < 2 ^ 31 then .ok (Int32.ofInt i) else .error .overflowError

theorem eq_overflowError {α : Type} {P : Prop} {_ : Decidable P} {a : α} {x : Exception}
    (h : (if P then .ok a else .error .overflowError : Except Exception α) = .error x) :
    x = .overflowError := by
  split at h
  · cases h
  · exact (Except.error.inj h).symm

section Bounds

variable {i : Int}

theorem int32_contains_iff :
    Decimal.IntegerRange.int32.Contains i ↔ -2 ^ 31 ≤ i ∧ i < 2 ^ 31 := by
  simp only [Decimal.IntegerRange.Contains, Decimal.IntegerRange.int32, Option.getD_some]
  omega

theorem uint32_contains_iff : Decimal.IntegerRange.uint32.Contains i ↔ 0 ≤ i ∧ i < 2 ^ 32 := by
  simp only [Decimal.IntegerRange.Contains, Decimal.IntegerRange.uint32, Option.getD_none]
  omega

theorem uint64_contains_iff : Decimal.IntegerRange.uint64.Contains i ↔ 0 ≤ i ∧ i < 2 ^ 64 := by
  simp only [Decimal.IntegerRange.Contains, Decimal.IntegerRange.uint64, Option.getD_none]
  omega

variable {α : Type} {v : Value} {range : Decimal.IntegerRange} {P : Prop} [Decidable P]

theorem map_toBounded (f : Int → α) (h : v.toInt? = some i) (hP : range.Contains i ↔ P) :
    (v.toBounded range).map f = if P then .ok (f i) else .error .overflowError := by
  rw [Value.toBounded, h]
  simp only [hP]
  split
  · rfl
  · rfl

end Bounds

def Value.Lists (v : Value) (is : List Int) : Prop :=
  ∃ items, (v = .list items ∨ v = .tuple items) ∧
    List.Forall₂ (fun (item : Value) i => item.toInt? = some i) items is

theorem toUInt64_eq_seedOf {v : Value} {i : Int} (h : v.toInt? = some i) :
    v.toUInt64 = seedOf i :=
  map_toBounded _ h uint64_contains_iff

theorem toInt32_eq_actionOf {v : Value} {i : Int} (h : v.toInt? = some i) :
    v.toInt32 = actionOf i :=
  map_toBounded _ h int32_contains_iff

theorem toOptional_of_int {α : Type} (f : Value → Except Exception α) {v : Value} {i : Int}
    (h : v.toInt? = some i) : v.toOptional f = (f v).map some := by
  cases v with
  | none => cases h
  | _ => rfl

theorem toList_of_lists {α : Type} {f : Value → Except Exception α} {g : Int → Except Exception α}
    (hfg : ∀ v i, v.toInt? = some i → f v = g i) {v : Value} {is : List Int} (h : v.Lists is) :
    v.toList f = is.mapM g := by
  obtain ⟨items, hv, hitems⟩ := h
  have hlist : v.toList f = items.mapM f := by
    rcases hv with rfl | rfl
    · rfl
    · rfl
  rw [hlist]
  clear hv hlist
  induction hitems with
  | nil => rfl
  | cons hitem _ ih => rw [List.mapM_cons, List.mapM_cons, hfg _ _ hitem, ih]

/-! ## Sessions -/

/-- Go through the calls of a session, each of them with an answer of its own. -/
def replay {σ κ : Type} (answer : σ → κ → Except Exception (Value × σ)) (s : σ) :
    List κ → List (Except Exception Value) × σ
  | [] => ([], s)
  | c :: rest =>
    let (v, s) := settle s (answer s c)
    let (vs, s) := replay answer s rest
    (v :: vs, s)

section Replay

variable {σ κ : Type} {answer : σ → κ → Except Exception (Value × σ)}

theorem replay_cons (s : σ) (c : κ) (rest : List κ) :
    replay answer s (c :: rest) =
      ((settle s (answer s c)).1 :: (replay answer (settle s (answer s c)).2 rest).1,
        (replay answer (settle s (answer s c)).2 rest).2) := rfl

theorem replay_append (s : σ) (before after : List κ) :
    replay answer s (before ++ after) =
      ((replay answer s before).1 ++ (replay answer (replay answer s before).2 after).1,
        (replay answer (replay answer s before).2 after).2) := by
  induction before generalizing s with
  | nil => rfl
  | cons c rest ih => rw [List.cons_append, replay_cons, ih, replay_cons, List.cons_append]

theorem length_replay (s : σ) (calls : List κ) :
    (replay answer s calls).1.length = calls.length := by
  induction calls generalizing s with
  | nil => rfl
  | cons c rest ih => rw [replay_cons, List.length_cons, List.length_cons, ih]

/-- **An object meets a session as its calls are answered**, if it does so with each of them. -/
theorem session_eq_replay {wrap : σ → Object} {asks : κ → Request → Prop}
    (h : ∀ s c r, asks c r → (wrap s).perform r = (settle s (answer s c)).map id wrap)
    {calls : List κ} {requests : List Request} (hasks : List.Forall₂ asks calls requests) (s : σ) :
    (wrap s).session requests = (replay answer s calls).map id wrap := by
  induction hasks generalizing s with
  | nil => rfl
  | @cons c r calls requests hcall _ ih =>
      have hmiddle : ((wrap s).perform r).2 = wrap (settle s (answer s c)).2 := by
        rw [h s c r hcall]
        rfl
      rw [Object.session_cons, hmiddle, ih, h s c r hcall, replay_cons]
      rfl

end Replay

/-- The arguments of a call are one for the parameter, by place, by name or by default. -/
def Arguments.Gives (a : Arguments) (p : Parameter) (v : Value) : Prop := a.bind [p] = .ok [v]

/-! ## One environment -/

inductive SingleCall
  | reset (seed : Option Int)
  | step (action : Int)
  | stepWithInfo (action : Int)
  | stepCount
  | isDone
  | seed
  | maxSteps

namespace SingleCall

inductive Asks : SingleCall → Request → Prop
  | resetUnseeded {a : Arguments} : a.Gives ⟨"seed", some .none⟩ .none →
      Asks (.reset none) (.call "reset" a)
  | reset {a : Arguments} {v : Value} {i : Int} : a.Gives ⟨"seed", some .none⟩ v →
      v.toInt? = some i → Asks (.reset (some i)) (.call "reset" a)
  | step {a : Arguments} {v : Value} {i : Int} : a.Gives ⟨"action", none⟩ v →
      v.toInt? = some i → Asks (.step i) (.call "step" a)
  | stepWithInfo {a : Arguments} {v : Value} {i : Int} : a.Gives ⟨"action", none⟩ v →
      v.toInt? = some i → Asks (.stepWithInfo i) (.call "step_with_info" a)
  | stepCount : Asks .stepCount (.get "step_count")
  | isDone : Asks .isDone (.get "is_done")
  | seed : Asks .seed (.get "seed")
  | maxSteps : Asks .maxSteps (.get "max_steps")

def answer (e : Environment) : SingleCall → Except Exception (Value × Environment)
  | reset none => return (.int (e.reset none).1.toNat, (e.reset none).2)
  | reset (some i) => do
    let seed ← seedOf i
    let (observation, e) := e.reset (some seed)
    return (.int observation.toNat, e)
  | step i => do
    let action ← actionOf i
    let (o, e) := e.step action
    return (.tuple [.int o.observation.toNat, .float o.reward, .bool o.done], e)
  | stepWithInfo i => do
    let action ← actionOf i
    let (o, e) := e.step action
    return (.tuple [.int o.observation.toNat, .float o.reward, .bool o.done, .dict [
      ("step", .int o.info.step.toNat),
      ("termination_reason", o.info.ending.elim .none fun ending => .text ending.label),
      ("target_hit", .bool o.info.hit),
      ("seed", .int o.info.seed.toNat)]], e)
  | stepCount => return (.int e.steps.toNat, e)
  | isDone => return (.bool e.done, e)
  | seed => return (.int e.seed.toNat, e)
  | maxSteps => return (.int e.rules.maxSteps.toNat, e)

def move? : SingleCall → Option Move
  | reset none => some (.reset none)
  | reset (some i) => (seedOf i).toOption.map fun seed => .reset (some seed)
  | step i | stepWithInfo i => (actionOf i).toOption.map .step
  | _ => none

theorem callReset_of_gives {a : Arguments} {v : Value} (h : a.Gives ⟨"seed", some .none⟩ v)
    (e : Environment) :
    Single.callReset e a = (v.toOptional Value.toUInt64).map fun seed =>
      (ofUInt32 (e.reset seed).1, (e.reset seed).2) := by
  rw [Single.callReset, h]
  rfl

theorem callStep_of_gives {a : Arguments} {v : Value} (h : a.Gives ⟨"action", none⟩ v)
    (answer : Outcome → Value) (e : Environment) :
    Single.callStep answer e a = v.toInt32.map fun action =>
      (answer (e.step action).1, (e.step action).2) := by
  rw [Single.callStep, h]
  rfl

theorem infoDict_eq (info : StepInfo) :
    infoDict info = .dict [
      ("step", .int info.step.toNat),
      ("termination_reason", info.ending.elim .none fun ending => .text ending.label),
      ("target_hit", .bool info.hit),
      ("seed", .int info.seed.toNat)] := by
  rw [infoDict]
  cases info.ending with
  | none => rfl
  | some ending => rfl

theorem perform_of_asks (e : Environment) (c : SingleCall) (r : Request) (h : Asks c r) :
    (Object.single e).perform r = (settle e (c.answer e)).map id .single := by
  have hcall : ∀ method a, (Object.single e).perform (.call method a) =
      (settle e (Single.call e method a)).map id .single := fun method a => by
    rw [Object.perform, Object.callInPlace, Single.callInPlace_eq]
  cases h with
  | resetUnseeded hgives =>
      rw [hcall, Single.call, callReset_of_gives hgives]
      rfl
  | reset hgives hint =>
      rw [hcall, Single.call, callReset_of_gives hgives, toOptional_of_int _ hint,
        toUInt64_eq_seedOf hint, answer]
      rcases seedOf _ with x | seed
      · rfl
      · rfl
  | step hgives hint =>
      rw [hcall, Single.call, callStep_of_gives hgives, toInt32_eq_actionOf hint, answer]
      rcases actionOf _ with x | action
      · rfl
      · rfl
  | stepWithInfo hgives hint =>
      rw [hcall, Single.call, callStep_of_gives hgives, toInt32_eq_actionOf hint, answer]
      rcases actionOf _ with x | action
      · rfl
      · simp only [infoDict_eq]
        rfl
  | _ => rfl

theorem settle_answer (e : Environment) (c : SingleCall) :
    (settle e (c.answer e)).2 = (e.run c.move?.toList).2 := by
  cases c with
  | reset seed =>
      cases seed with
      | none => rfl
      | some i =>
          rw [answer, move?]
          cases seedOf i with
          | error x => rfl
          | ok seed => rfl
  | step i =>
      rw [answer, move?]
      cases actionOf i with
      | error x => rfl
      | ok action => rfl
  | stepWithInfo i =>
      rw [answer, move?]
      cases actionOf i with
      | error x => rfl
      | ok action => rfl
  | _ => rfl

theorem replay_eq_run (e : Environment) (calls : List SingleCall) :
    (replay answer e calls).2 = (e.run (calls.filterMap move?)).2 := by
  induction calls generalizing e with
  | nil => rfl
  | cons c rest ih =>
      rw [replay_cons, settle_answer, ih, Fleet.filterMap_cons_eq_append, Environment.run_append]

def firstThree : Value → Value
  | .tuple items => .tuple (items.take 3)
  | v => v

/-- A step with its information is the step, and its answer begins with that of the step. -/
theorem settle_stepWithInfo (e : Environment) (i : Int) :
    (settle e (answer e (.step i))).1 = (settle e (answer e (.stepWithInfo i))).1.map firstThree ∧
      (settle e (answer e (.stepWithInfo i))).2 = (settle e (answer e (.step i))).2 := by
  rw [answer, answer]
  cases actionOf i with
  | error x => exact ⟨rfl, rfl⟩
  | ok action => exact ⟨rfl, rfl⟩

/-- No later answer of a session tells a step with its information from a step. -/
theorem replay_stepWithInfo (e : Environment) (before after : List SingleCall) (i : Int) :
    let plain := replay answer e (before ++ .step i :: after)
    let informed := replay answer e (before ++ .stepWithInfo i :: after)
    informed.2 = plain.2 ∧
      ∃ earlier r later, earlier.length = before.length ∧
        plain.1 = earlier ++ r.map firstThree :: later ∧ informed.1 = earlier ++ r :: later := by
  intro plain informed
  have hplain : plain = _ := replay_append e before (.step i :: after)
  have hinformed : informed = _ := replay_append e before (.stepWithInfo i :: after)
  obtain ⟨hanswer, hstate⟩ := settle_stepWithInfo (replay answer e before).2 i
  rw [replay_cons, hanswer, ← hstate] at hplain
  rw [replay_cons] at hinformed
  rw [hplain, hinformed]
  exact ⟨rfl, _, _, _, length_replay e before, rfl, rfl⟩

end SingleCall

/-! ## Making an environment -/

theorem toUInt32_of_int {v : Value} {n : UInt32} (h : v.toInt? = some (n.toNat : Int)) :
    v.toUInt32 = .ok n := by
  have hlt := n.toNat_lt
  rw [Value.toUInt32, map_toBounded _ h uint32_contains_iff, if_pos ⟨by omega, by omega⟩]
  simp

theorem toInt32_of_int {v : Value} {n : Int32} (h : v.toInt? = some n.toInt) :
    v.toInt32 = .ok n := by
  rw [toInt32_eq_actionOf h, actionOf, if_pos ⟨n.le_toInt, n.toInt_lt⟩, Int32.ofInt_toInt]

theorem toUInt64_of_int {v : Value} {n : UInt64} (h : v.toInt? = some (n.toNat : Int)) :
    v.toUInt64 = .ok n := by
  have hlt := n.toNat_lt
  rw [toUInt64_eq_seedOf h, seedOf, if_pos ⟨by omega, by omega⟩]
  simp

theorem rulesOf_of_valid {maxSteps : UInt32} {numTargets : Int32}
    (h : ({ maxSteps := maxSteps, numTargets := numTargets } : Rules).Valid) :
    rulesOf maxSteps numTargets = .ok { maxSteps := maxSteps, numTargets := numTargets } := by
  rw [rulesOf]
  simp only [(Rules.check_eq_ok_iff _).mpr h]

def Arguments.MakesSingle (a : Arguments) (maxSteps : UInt32) (numTargets : Int32)
    (seed : UInt64) : Prop :=
  ∃ v w u, a.bind Class.single.parameters = .ok [v, w, u] ∧ v.toInt? = some maxSteps.toNat ∧
    w.toInt? = some numTargets.toInt ∧ u.toInt? = some seed.toNat

theorem construct_single {a : Arguments} {maxSteps : UInt32} {numTargets : Int32} {seed : UInt64}
    (h : a.MakesSingle maxSteps numTargets seed)
    (hvalid : ({ maxSteps := maxSteps, numTargets := numTargets } : Rules).Valid)
    (fresh : Nat → Generator) :
    ∃ e, Environment.ofSeed { maxSteps := maxSteps, numTargets := numTargets } seed = .ok e ∧
      Class.single.construct fresh a = .ok (.single e) := by
  obtain ⟨v, w, u, hbind, hv, hw, hu⟩ := h
  have hmake := Environment.make_of_valid hvalid (Generator.ofSeed seed)
  refine ⟨_, hmake, ?_⟩
  rw [Class.construct, hbind]
  dsimp only [bind, Except.bind]
  rw [toUInt32_of_int hv, toInt32_of_int hw, toOptional_of_int _ hu, toUInt64_of_int hu]
  dsimp only [Except.map]
  rw [rulesOf_of_valid hvalid]
  dsimp only
  rw [hmake]
  rfl

end HiddenTarget.Scripting
