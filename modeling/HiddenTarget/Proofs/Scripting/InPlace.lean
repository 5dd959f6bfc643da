import HiddenTarget.Scripting.Object

/-!
# Calls that work in place

`Object.call` answers with another object, but the host has one object that a method changes
where it is: what has been changed by the time an exception is raised stays changed. A
computation of type `InPlace` is of this kind. The methods are written down here as such, with
the environments of a fleet reset and stepped one after the other, and `callInPlace_eq` says that
they do what `Object.call` does. An exception comes before the first change, so a call that raises
has changed nothing.
-/

namespace HiddenTarget

/-! ## One environment after the other -/

namespace Fleet

/-- Work on the environments in turn, from number `i` on, each of them in its place. -/
def sweep {α : Type} : List (Environment → α × Environment) → Nat → StateM Fleet (List α)
  | [], _ => return []
  | work :: rest, i => do
    match (← get).environments[i]? with
    | none => return []
    | some e =>
      modify fun f => ⟨f.environments.set i (work e).2⟩
      let others ← sweep rest (i + 1)
      return (work e).1 :: others

theorem run_sweep_cons {α : Type} (work : Environment → α × Environment)
    (rest : List (Environment → α × Environment)) {i : Nat} {f : Fleet} {e : Environment}
    (h : f.environments[i]? = some e) :
    (sweep (work :: rest) i).run f =
      let others := (sweep rest (i + 1)).run ⟨f.environments.set i (work e).2⟩
      ((work e).1 :: others.1, others.2) := by
  simp only [sweep, StateT.run_bind, StateT.run_get]
  simp only [pure_bind, h]
  rfl

theorem run_sweep {α : Type} (works : List (Environment → α × Environment))
    (front back : List Environment) (h : back.length = works.length) :
    (sweep works front.length).run ⟨front ++ back⟩ =
      let results := List.zipWith (fun e work => work e) back works
      (results.map Prod.fst, ⟨front ++ results.map Prod.snd⟩) := by
  induction works generalizing front back with
  | nil =>
      obtain rfl := List.length_eq_zero_iff.mp h
      rfl
  | cons work works ih =>
      obtain ⟨e, back, rfl⟩ := List.exists_cons_of_length_eq_add_one h
      have hget : (front ++ e :: back)[front.length]? = some e := by simp
      have hset : (front ++ e :: back).set front.length (work e).2 =
          front ++ [(work e).2] ++ back := by simp
      have hrest := ih (front ++ [(work e).2]) back (by simpa using h)
      rw [List.length_append, List.length_singleton] at hrest
      rw [run_sweep_cons work works hget, hset, hrest]
      simp

theorem run_sweep_all {α : Type} {works : List (Environment → α × Environment)} {f : Fleet}
    (h : f.environments.length = works.length) :
    (sweep works 0).run f =
      let results := List.zipWith (fun e work => work e) f.environments works
      (results.map Prod.fst, ⟨results.map Prod.snd⟩) :=
  run_sweep works [] f.environments h

def sweepResets (seeds : Option (List UInt64)) : StateM Fleet (List Observation) := do
  let n := (← get).size
  sweep ((List.range n).map fun i e => e.reset (seedFor seeds i)) 0

def sweepSteps (actions : List Action) : StateM Fleet (List Outcome) :=
  sweep (actions.map fun action e => e.step action) 0

theorem run_sweepResets (seeds : Option (List UInt64)) (f : Fleet) :
    (sweepResets seeds).run f = f.resetAll seeds := by
  have hlength : f.environments.length =
      ((List.range f.size).map fun i e => Environment.reset e (seedFor seeds i)).length := by
    simp [size]
  have hsweep := run_sweep_all hlength
  have hresults : List.zipWith (fun e work => work e) f.environments
      ((List.range f.size).map fun i e => Environment.reset e (seedFor seeds i)) =
      f.environments.mapIdx fun i e => e.reset (seedFor seeds i) := by
    refine List.ext_getElem (by simp [size]) ?_
    intro i _ _
    simp
  rw [hresults] at hsweep
  exact hsweep

theorem run_sweepSteps {actions : List Action} {f : Fleet} (h : actions.length = f.size) :
    f.step actions = .ok ((sweepSteps actions).run f) := by
  have hlength : f.environments.length =
      (actions.map fun action e => Environment.step e action).length := by
    simpa [size] using h.symm
  have hsweep := run_sweep_all hlength
  rw [List.zipWith_map_right] at hsweep
  rw [step, if_pos h, sweepSteps, hsweep]

end Fleet

namespace Scripting

/-! ## Computations that may raise -/

/-- A computation on a state. What it has changed when it raises stays changed. -/
abbrev InPlace (σ α : Type) : Type := ExceptT Exception (StateM σ) α

/-- The answer of a call and what its object is afterwards: the same as before if it raises. -/
def settle {σ α : Type} (s : σ) : Except Exception (α × σ) → Except Exception α × σ
  | .ok (a, s) => (.ok a, s)
  | .error x => (.error x, s)

theorem unchanged_of_settle {σ α : Type} {s : σ} {r : Except Exception (α × σ)} {x : Exception}
    (h : (settle s r).1 = .error x) : (settle s r).2 = s := by
  cases r with
  | ok a => cases h
  | error y => rfl

namespace InPlace

variable {σ α β : Type}

def perform (x : InPlace σ α) (s : σ) : Except Exception α × σ := x.run.run s

/-- A conversion does not touch the state. If it raises, nothing has been changed, and if not,
it is up to what comes after it. -/
theorem perform_convert_bind {x : Except Exception α} {next : α → InPlace σ β}
    {next' : α → Except Exception (β × σ)} {s : σ}
    (h : ∀ a, (next a).perform s = settle s (next' a)) :
    (liftM x >>= next : InPlace σ β).perform s = settle s (x >>= next') := by
  cases x with
  | error y => rfl
  | ok a => exact h a

theorem perform_inherited (f : σ → Except Exception α) (s : σ) :
    (do liftM (f (← getThe σ)) : InPlace σ α).perform s =
      settle s ((f s).map fun a => (a, s)) := by
  change (liftM (f s) : InPlace σ α).perform s = _
  cases f s with
  | error x => rfl
  | ok a => rfl

end InPlace

/-! ## The methods -/

namespace Single

def resetInPlace (a : Arguments) : InPlace Environment Value := do
  match ← liftM (a.bind [⟨"seed", some .none⟩]) with
  | [seed] =>
    let seed ← liftM (seed.toOptional Value.toUInt64)
    let observation ← modifyGet fun e => e.reset seed
    return ofUInt32 observation
  | _ => throw .typeError

def stepInPlace (answer : Outcome → Value) (a : Arguments) : InPlace Environment Value := do
  match ← liftM (a.bind [⟨"action", none⟩]) with
  | [action] =>
    let action ← liftM action.toInt32
    let outcome ← modifyGet fun e => e.step action
    return answer outcome
  | _ => throw .typeError

def callInPlace (method : String) (a : Arguments) : InPlace Environment Value := do
  match method with
  | "reset" => resetInPlace a
  | "step" => stepInPlace (fun o => .tuple (stepParts o)) a
  | "step_with_info" => stepInPlace (fun o => .tuple (stepParts o ++ [infoDict o.info])) a
  | _ => liftM ((profile (← getThe Environment)).call method a)

theorem resetInPlace_eq (a : Arguments) (e : Environment) :
    (resetInPlace a).perform e = settle e (callReset e a) := by
  refine InPlace.perform_convert_bind fun vs => ?_
  rcases vs with _ | ⟨seed, _ | ⟨v, rest⟩⟩
  · rfl
  · exact InPlace.perform_convert_bind fun seed => rfl
  · rfl

theorem stepInPlace_eq (answer : Outcome → Value) (a : Arguments) (e : Environment) :
    (stepInPlace answer a).perform e = settle e (callStep answer e a) := by
  refine InPlace.perform_convert_bind fun vs => ?_
  rcases vs with _ | ⟨action, _ | ⟨v, rest⟩⟩
  · rfl
  · exact InPlace.perform_convert_bind fun action => rfl
  · rfl

theorem callInPlace_eq (method : String) (a : Arguments) (e : Environment) :
    (callInPlace method a).perform e = settle e (call e method a) := by
  by_cases hreset : method = "reset"
  · subst hreset
    exact resetInPlace_eq a e
  by_cases hstep : method = "step"
  · subst hstep
    exact stepInPlace_eq _ a e
  by_cases hinfo : method = "step_with_info"
  · subst hinfo
    exact stepInPlace_eq _ a e
  · rw [callInPlace, call] <;> try assumption
    exact InPlace.perform_inherited (fun e => (profile e).call method a) e

end Single

namespace Several

def resetAllInPlace (a : Arguments) : InPlace Fleet Value := do
  match ← liftM (a.bind [⟨"seeds", some .none⟩]) with
  | [seeds] =>
    let seeds ← liftM (seeds.toOptional (Value.toList Value.toUInt64))
    let observations ← liftM (Fleet.sweepResets seeds)
    return .list (observations.map ofUInt32)
  | _ => throw .typeError

/-- The number of the actions is looked at before the first environment takes a step. -/
def stepInPlace (a : Arguments) : InPlace Fleet Value := do
  match ← liftM (a.bind [⟨"actions", none⟩]) with
  | [actions] =>
    let actions ← liftM (actions.toList Value.toInt32)
    let n := (← getThe Fleet).size
    if actions.length ≠ n then
      throw (refuse (.wrongActionCount actions.length n))
    let outcomes ← liftM (Fleet.sweepSteps actions)
    return stepColumns outcomes
  | _ => throw .typeError

def listInPlace (items : Fleet → List Value) (a : Arguments) : InPlace Fleet Value := do
  let _ ← liftM (a.bind [])
  return .list (items (← getThe Fleet))

def callInPlace (method : String) (a : Arguments) : InPlace Fleet Value := do
  match method with
  | "reset_all" => resetAllInPlace a
  | "step" => stepInPlace a
  | "seeds" => listInPlace (fun f => f.seeds.map ofUInt64) a
  | "dones" => listInPlace (fun f => f.dones.map Value.bool) a
  | _ => liftM ((profile (← getThe Fleet)).call method a)

theorem resetAllInPlace_eq (a : Arguments) (f : Fleet) :
    (resetAllInPlace a).perform f = settle f (callResetAll f a) := by
  refine InPlace.perform_convert_bind fun vs => ?_
  rcases vs with _ | ⟨seeds, _ | ⟨v, rest⟩⟩
  · rfl
  · refine InPlace.perform_convert_bind fun seeds => ?_
    rw [← Fleet.run_sweepResets]
    rfl
  · rfl

theorem stepInPlace_eq (a : Arguments) (f : Fleet) :
    (stepInPlace a).perform f = settle f (callStep f a) := by
  refine InPlace.perform_convert_bind fun vs => ?_
  rcases vs with _ | ⟨actions, _ | ⟨v, rest⟩⟩
  · rfl
  · refine InPlace.perform_convert_bind fun actions => ?_
    by_cases h : actions.length = f.size
    · rw [Fleet.run_sweepSteps h]
      change InPlace.perform (if actions.length ≠ f.size then _ else _) f = _
      rw [if_neg (fun hne => hne h)]
      rfl
    · rw [Fleet.step, if_neg h]
      change InPlace.perform (if actions.length ≠ f.size then _ else _) f = _
      rw [if_pos h]
      rfl
  · rfl

theorem listInPlace_eq (items : Fleet → List Value) (a : Arguments) (f : Fleet) :
    (listInPlace items a).perform f = settle f (callList (items f) f a) :=
  InPlace.perform_convert_bind fun _ => rfl

theorem callInPlace_eq (method : String) (a : Arguments) (f : Fleet) :
    (callInPlace method a).perform f = settle f (call f method a) := by
  by_cases hreset : method = "reset_all"
  · subst hreset
    exact resetAllInPlace_eq a f
  by_cases hstep : method = "step"
  · subst hstep
    exact stepInPlace_eq a f
  by_cases hseeds : method = "seeds"
  · subst hseeds
    exact listInPlace_eq _ a f
  by_cases hdones : method = "dones"
  · subst hdones
    exact listInPlace_eq _ a f
  · rw [callInPlace, call] <;> try assumption
    exact InPlace.perform_inherited (fun f => (profile f).call method a) f

end Several

/-! ## Objects -/

/-- What a session asks of an object. -/
inductive Request
  | call (method : String) (a : Arguments)
  | get (name : String)

namespace Object

def callInPlace (method : String) (a : Arguments) : Object → Except Exception Value × Object
  | single e => ((Single.callInPlace method a).perform e).map id single
  | fleet f => ((Several.callInPlace method a).perform f).map id fleet

def perform (o : Object) : Request → Except Exception Value × Object
  | .call method a => o.callInPlace method a
  | .get name => (o.get name, o)

/-- Meet requests one after the other, whether they raise or not. -/
def session (o : Object) : List Request → List (Except Exception Value) × Object
  | [] => ([], o)
  | r :: rest =>
    let (answer, o) := o.perform r
    let (answers, o) := o.session rest
    (answer :: answers, o)

theorem session_cons (o : Object) (r : Request) (rest : List Request) :
    o.session (r :: rest) =
      ((o.perform r).1 :: ((o.perform r).2.session rest).1,
        ((o.perform r).2.session rest).2) := rfl

theorem settle_map {σ τ α : Type} (wrap : σ → τ) (s : σ) (r : Except Exception (α × σ)) :
    (settle s r).map id wrap = settle (wrap s) (r.map fun x => (x.1, wrap x.2)) := by
  cases r with
  | error x => rfl
  | ok x => rfl

/-- **A call in place does what the call does**, and nothing to its object if it raises. -/
theorem callInPlace_eq (o : Object) (method : String) (a : Arguments) :
    o.callInPlace method a = settle o (o.call method a) := by
  cases o with
  | single e =>
      rw [callInPlace, Single.callInPlace_eq, settle_map]
      rfl
  | fleet f =>
      rw [callInPlace, Several.callInPlace_eq, settle_map]
      rfl

theorem unchanged_of_raises {o : Object} {r : Request} {x : Exception}
    (h : (o.perform r).1 = .error x) : (o.perform r).2 = o := by
  cases r with
  | get name => rfl
  | call method a =>
      rw [perform, callInPlace_eq] at h ⊢
      exact unchanged_of_settle h

end Object

end Scripting

end HiddenTarget
