import HiddenTarget.Decimal.Binary

/-!
# The shortest decimal of a double

The reals that round to a double form an interval around it, whose ends belong to
it exactly if the mantissa is even. `shortest` finds the coarsest decimal grid
`10^k · ℤ` with a point in that interval and takes the grid point nearest to the
double, a tie going as asked. A point of the grid lies in the interval only if one of
the two grid neighbours of the double does, so only these are tried.

Everything is scaled to natural numbers. In `Scaled`, the double, the two ends and
one grid step are multiples of one unit.
-/

namespace HiddenTarget.Decimal

/-- The value `coefficient · 10^exponent`. -/
structure Digits where
  coefficient : Nat
  exponent : Int
deriving DecidableEq, Repr

/-- A double, its rounding interval and the step of a decimal grid, in one unit. -/
structure Scaled where
  value : Nat
  lower : Nat
  upper : Nat
  step : Nat
  closed : Bool

/-- The interval of a positive finite bit pattern against the grid `10^k`. The gap
below a power of two is half of the gap above it. -/
def Scaled.ofBits (bits : Nat) (k : Int) : Scaled :=
  let v := magnitude bits
  let q := v.exponent - 2
  let up := Nat.pow 10 (-k).toNat <<< q.toNat
  let narrow := bits % leadingBit = 0 ∧ 1 < bits / leadingBit
  { value := 4 * v.mantissa * up
    lower := (4 * v.mantissa - if narrow then 1 else 2) * up
    upper := (4 * v.mantissa + 2) * up
    step := Nat.pow 10 k.toNat <<< (-q).toNat
    closed := v.mantissa % 2 = 0 }

/-- Whether grid point number `d` rounds to the double. -/
def Scaled.hits (s : Scaled) (d : Nat) : Bool :=
  if s.closed then s.lower ≤ d * s.step ∧ d * s.step ≤ s.upper
  else s.lower < d * s.step ∧ d * s.step < s.upper

/-- The grid point that stands for the double, if the grid has one: of the two
neighbours the one that rounds back, and of two such the nearer. -/
def Scaled.pick (tie : Tie) (s : Scaled) : Option Nat :=
  let below := s.value / s.step
  let above := below + 1
  if s.hits below then
    if s.hits above then some (roundHalf tie s.value s.step) else some below
  else if s.hits above then some above
  else none

/-- Try the grids `10^k`, `10^(k-1)`, … in turn; the exact value if `n` of them are
not enough. -/
def firstHit (tie : Tie) (bits : Nat) : Nat → Int → Digits
  | 0, _ =>
    let v := magnitude bits
    ⟨(v.mantissa <<< v.exponent.toNat) * Nat.pow 5 (-v.exponent).toNat, min v.exponent 0⟩
  | n + 1, k =>
    match (Scaled.ofBits bits k).pick tie with
    | some d => ⟨d, k⟩
    | none => firstHit tie bits n (k - 1)

/-- A grid too coarse for a positive finite bit pattern: its step exceeds the upper
end. -/
def coarseGrid (bits : Nat) : Int :=
  let v := magnitude bits
  ((v.mantissa.log2 : Int) + v.exponent + 2) * 30103 / 100000 + 2

/-- The shortest decimal of a positive finite bit pattern. Seventeen digits always
suffice, and the first grids tried are too coarse. -/
def shortest (tie : Tie) (bits : Nat) : Digits :=
  firstHit tie bits 24 (coarseGrid bits)

end HiddenTarget.Decimal
