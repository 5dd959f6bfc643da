import HiddenTarget.Game.Environment

/-!
# Several environments side by side

A `Fleet` is a list of environments that are reset and stepped together. They share
nothing: `resetAll` and `step` treat each environment by itself, and the answers
come in the order of the environments. A `step` wants one action for each
environment and refuses any other number, without moving one of them.
-/

namespace HiddenTarget

open HiddenTarget.Random

structure Fleet where
  environments : List Environment

namespace Fleet

def make (rules : Rules) (sources : List Generator) : Except Complaint Fleet :=
  if sources.isEmpty then .error .noEnvironments
  else (sources.mapM (Environment.make rules)).map Fleet.mk

/-- `n` environments with the streams of consecutive seeds from `base` on. -/
def ofSeed (rules : Rules) (n : Nat) (base : UInt64) : Except Complaint Fleet :=
  make rules ((List.range n).map fun i => Generator.ofSeed (base + UInt64.ofNat i))

def size (f : Fleet) : Nat := f.environments.length

def seeds (f : Fleet) : List UInt64 := f.environments.map (·.seed)

def dones (f : Fleet) : List Bool := f.environments.map (·.done)

def targets (f : Fleet) : List Action := f.environments.map (·.target)

def seedFor (seeds : Option (List UInt64)) (i : Nat) : Option UInt64 := seeds.bind (·[i]?)

/-- Start an episode in each environment. An environment that the list has no seed
for takes one from its own source. -/
def resetAll (f : Fleet) (seeds : Option (List UInt64)) : List Observation × Fleet :=
  let results := f.environments.mapIdx fun i e => e.reset (seedFor seeds i)
  (results.map Prod.fst, ⟨results.map Prod.snd⟩)

def step (f : Fleet) (actions : List Action) : Except Complaint (List Outcome × Fleet) :=
  if actions.length = f.size then
    let results := List.zipWith Environment.step f.environments actions
    .ok (results.map Prod.fst, ⟨results.map Prod.snd⟩)
  else .error (.wrongActionCount actions.length f.size)

theorem resetAll_size (f : Fleet) (seeds : Option (List UInt64)) :
    (f.resetAll seeds).2.size = f.size := by
  simp [resetAll, size]

theorem step_size {f g : Fleet} {actions : List Action} {outcomes : List Outcome}
    (h : f.step actions = .ok (outcomes, g)) : g.size = f.size ∧ outcomes.length = f.size := by
  simp only [step] at h
  split at h
  · next hlen =>
    cases h
    simp [size] at hlen ⊢
    omega
  · cases h

end Fleet

end HiddenTarget
