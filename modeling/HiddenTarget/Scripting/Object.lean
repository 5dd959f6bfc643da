import HiddenTarget.Game.Fleet
import HiddenTarget.Scripting.Inherited

/-!
# Environments as objects of a scripting host

`Class.construct` makes an object, `Object.call` calls a method of it, and `Object.get`
reads an attribute. All arguments of a call are converted before anything is done, so a
call that raises leaves its object as it was. Attributes cannot be set.

An object of class `single` is one environment, one of class `fleet` several of them.
Both play by the usual rewards. A method that a class does not have itself is looked for
among those that every object inherits.
-/

namespace HiddenTarget.Scripting

open HiddenTarget.Random

inductive Class
  | single
  | fleet
deriving DecidableEq, Repr

inductive Object
  | single (e : Environment)
  | fleet (f : Fleet)

def refuse (c : Complaint) : Exception := .valueError c.text

def rulesOf (maxSteps : UInt32) (numTargets : Int32) : Except Exception Rules :=
  let rules : Rules := { maxSteps := maxSteps, numTargets := numTargets }
  match rules.check with
  | .error c => .error (refuse c)
  | .ok () => .ok rules

def accept {α : Type} : Except Complaint α → Except Exception α
  | .ok a => .ok a
  | .error c => .error (refuse c)

namespace Class

def parameters : Class → List Parameter
  | single => [⟨"max_steps", some (.int 100)⟩, ⟨"num_targets", some (.int 10)⟩,
      ⟨"seed", some .none⟩]
  | fleet => [⟨"n", none⟩, ⟨"max_steps", some (.int 100)⟩, ⟨"num_targets", some (.int 10)⟩]

/-- Make an object. Environments without a seed take their seeds from the sources
`fresh`. -/
def construct (c : Class) (fresh : Nat → Generator) (a : Arguments) :
    Except Exception Object := do
  match c, ← a.bind c.parameters with
  | single, [maxSteps, numTargets, seed] =>
    let maxSteps ← maxSteps.toUInt32
    let numTargets ← numTargets.toInt32
    let seed ← seed.toOptional Value.toUInt64
    let rules ← rulesOf maxSteps numTargets
    let seeds := match seed with
      | some seed => Generator.ofSeed seed
      | none => fresh 0
    return .single (← accept (Environment.make rules seeds))
  | fleet, [n, maxSteps, numTargets] =>
    let n ← n.toCount
    let maxSteps ← maxSteps.toUInt32
    let numTargets ← numTargets.toInt32
    let rules ← rulesOf maxSteps numTargets
    return .fleet (← accept (Fleet.make rules ((List.range n).map fresh)))
  | _, _ => throw .typeError

end Class

/-! ## Answers -/

def ofUInt32 (n : UInt32) : Value := .int n.toNat

def ofUInt64 (n : UInt64) : Value := .int n.toNat

def stepParts (o : Outcome) : List Value :=
  [ofUInt32 o.observation, .float o.reward, .bool o.done]

def infoDict (i : StepInfo) : Value := .dict [
  ("step", ofUInt32 i.step),
  ("termination_reason", match i.ending with
    | some e => .text e.label
    | none => .none),
  ("target_hit", .bool i.hit),
  ("seed", ofUInt64 i.seed)]

def stepColumns (os : List Outcome) : Value := .tuple [
  .list (os.map fun o => ofUInt32 o.observation),
  .list (os.map fun o => .float o.reward),
  .list (os.map fun o => .bool o.done)]

/-! ## What the objects inherit -/

def getInherited (doc : String) (methods : List String) : String → Except Exception Value
  | "__doc__" => .ok (.text doc)
  | "__module__" => .ok (.text "builtins")
  | name =>
    if name ∈ methods ∨ name ∈ inheritedNames then .ok .foreign else .error .attributeError

/-- Set or delete an attribute. None of them can be set, and the class of an object could
only be replaced by a class. -/
def setNothing (name : String) : Except Exception Unit :=
  .error (if name = "__class__" then .typeError else .attributeError)

def listedNames (own : List String) : List String :=
  let own := "__new__" :: own ++ ["__doc__", "__module__"]
  own ++ inheritedNames.filter (· ∉ own)

/-- What an object inherits. Setting it up once more changes nothing, and of another
object of its class only the failure shows. -/
def Class.profile (c : Class) (text : String) (own : List String) (size : Nat)
    (get : String → Except Exception Value) : Profile where
  text := text
  names := listedNames own
  size := size
  state := .none
  get := get
  set := setNothing
  delete := setNothing
  setUp := fun _ => .ok ()
  remake := fun a => (c.construct (fun _ => Generator.ofSeed 0) a).map fun _ => .foreign

/-! ## Methods of one environment -/

namespace Single

def doc : String :=
  "Guess-the-target environment.\n\nThe environment is reset on construction."

def text (e : Environment) : String :=
  "SimpleEnv(step_count=" ++ Decimal.naturalText e.steps.toNat ++
    ", done=" ++ (if e.done then "true" else "false") ++
    ", seed=" ++ Decimal.naturalText e.seed.toNat ++ ")"

def methods : List String := ["reset", "step", "step_with_info"]

def get (e : Environment) : String → Except Exception Value
  | "step_count" => .ok (ofUInt32 e.steps)
  | "is_done" => .ok (.bool e.done)
  | "seed" => .ok (ofUInt64 e.seed)
  | "max_steps" => .ok (ofUInt32 e.rules.maxSteps)
  | name => getInherited doc methods name

def profile (e : Environment) : Profile :=
  Class.single.profile (text e)
    ("__repr__" :: methods ++ ["step_count", "is_done", "seed", "max_steps"]) 400 (get e)

def callReset (e : Environment) (a : Arguments) : Except Exception (Value × Environment) := do
  match ← a.bind [⟨"seed", some .none⟩] with
  | [seed] =>
    let seed ← seed.toOptional Value.toUInt64
    let (observation, e) := e.reset seed
    return (ofUInt32 observation, e)
  | _ => throw .typeError

def callStep (answer : Outcome → Value) (e : Environment) (a : Arguments) :
    Except Exception (Value × Environment) := do
  match ← a.bind [⟨"action", none⟩] with
  | [action] =>
    let action ← action.toInt32
    let (outcome, e) := e.step action
    return (answer outcome, e)
  | _ => throw .typeError

def call (e : Environment) (method : String) (a : Arguments) :
    Except Exception (Value × Environment) :=
  match method with
  | "reset" => callReset e a
  | "step" => callStep (fun o => .tuple (stepParts o)) e a
  | "step_with_info" => callStep (fun o => .tuple (stepParts o ++ [infoDict o.info])) e a
  | _ => ((profile e).call method a).map fun v => (v, e)

end Single

/-! ## Methods of a fleet -/

namespace Several

def doc : String := "Vectorised environment."

def text : String := "<VecEnv object>"

def methods : List String := ["reset_all", "step", "seeds", "dones"]

def get (f : Fleet) : String → Except Exception Value
  | "num_envs" => .ok (.int f.size)
  | name => getInherited doc methods name

def profile (f : Fleet) : Profile :=
  Class.fleet.profile text (methods ++ ["num_envs"]) 48 (get f)

def callResetAll (f : Fleet) (a : Arguments) : Except Exception (Value × Fleet) := do
  match ← a.bind [⟨"seeds", some .none⟩] with
  | [seeds] =>
    let seeds ← seeds.toOptional (Value.toList Value.toUInt64)
    let (observations, f) := f.resetAll seeds
    return (.list (observations.map ofUInt32), f)
  | _ => throw .typeError

def callStep (f : Fleet) (a : Arguments) : Except Exception (Value × Fleet) := do
  match ← a.bind [⟨"actions", none⟩] with
  | [actions] =>
    let actions ← actions.toList Value.toInt32
    let (outcomes, f) ← accept (f.step actions)
    return (stepColumns outcomes, f)
  | _ => throw .typeError

def callList (items : List Value) (f : Fleet) (a : Arguments) :
    Except Exception (Value × Fleet) := do
  let _ ← a.bind []
  return (.list items, f)

def call (f : Fleet) (method : String) (a : Arguments) : Except Exception (Value × Fleet) :=
  match method with
  | "reset_all" => callResetAll f a
  | "step" => callStep f a
  | "seeds" => callList (f.seeds.map ofUInt64) f a
  | "dones" => callList (f.dones.map Value.bool) f a
  | _ => ((profile f).call method a).map fun v => (v, f)

end Several

/-! ## Objects -/

namespace Object

def text : Object → String
  | single e => Single.text e
  | fleet _ => Several.text

def get : Object → String → Except Exception Value
  | single e, name => Single.get e name
  | fleet f, name => Several.get f name

/-- Set an attribute: there is none that can be set. -/
def set (o : Object) (name : String) (_ : Value) : Except Exception Object :=
  (setNothing name).map fun _ => o

def call : Object → String → Arguments → Except Exception (Value × Object)
  | single e, method, a => (Single.call e method a).map fun (v, e) => (v, single e)
  | fleet f, method, a => (Several.call f method a).map fun (v, f) => (v, fleet f)

end Object

end HiddenTarget.Scripting
