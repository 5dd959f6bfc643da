import HiddenTarget.Game.Outcome
import HiddenTarget.Complaint
import HiddenTarget.Random.Draw

/-!
# Policies

A `Policy` chooses the next action from what it last observed and from a state of
its own, which it hands on. `uniform` draws from an inclusive range and pays no
attention to the observation, `cyclic` repeats a script, and `affine` computes the
action from the observation. A `Player` is one of the three with its state.
-/

namespace HiddenTarget

open HiddenTarget.Random

/-- A rule for choosing actions, with states of type `σ`. -/
structure Policy (σ : Type) where
  act : σ → Observation → Action × σ

def checkActionRange (low high : Action) : Except Complaint Unit :=
  if high < low then .error (.emptyActionRange low high) else .ok ()

/-! ## Uniform actions -/

structure UniformPlayer where
  low : Action
  high : Action
  source : Generator
deriving DecidableEq, Repr

namespace UniformPlayer

def ofSeed (low high : Action) (seed : UInt64) : Except Complaint UniformPlayer :=
  match checkActionRange low high with
  | .error c => .error c
  | .ok () => .ok ⟨low, high, Generator.ofSeed seed⟩

def draw (p : UniformPlayer) : Action × UniformPlayer :=
  let (action, source) := p.source.draw p.low p.high
  (action, { p with source := source })

def drawMany (p : UniformPlayer) : Nat → List Action
  | 0 => []
  | n + 1 =>
    let (action, p) := p.draw
    action :: p.drawMany n

end UniformPlayer

def Policy.uniform : Policy UniformPlayer where
  act p _ := p.draw

/-! ## Scripts and formulas -/

structure Script where
  actions : List Action
  place : Nat := 0
deriving DecidableEq, Repr

/-- The actions of a script in turn, from the start again after the last one; an
empty script plays `0`. -/
def Policy.cyclic : Policy Script where
  act s _ :=
    (s.actions.getD (s.place % s.actions.length) 0, { s with place := s.place + 1 })

structure Formula where
  factor : Int32
  summand : Int32
deriving DecidableEq, Repr

/-- The observation times the factor plus the summand, in 32-bit arithmetic. -/
def Policy.affine : Policy Formula where
  act f observation := (observation.toInt32 * f.factor + f.summand, f)

/-! ## Players -/

inductive Player
  | uniform (p : UniformPlayer)
  | script (s : Script)
  | formula (f : Formula)
deriving DecidableEq, Repr

def Policy.player : Policy Player where
  act
    | .uniform p, o => let (a, p) := Policy.uniform.act p o; (a, .uniform p)
    | .script s, o => let (a, s) := Policy.cyclic.act s o; (a, .script s)
    | .formula f, o => let (a, f) := Policy.affine.act f o; (a, .formula f)

end HiddenTarget
