import HiddenTarget.Play.Policy
import HiddenTarget.Proofs.Game.Bounds
import HiddenTarget.Proofs.Random.Reading
import Mathlib.Algebra.BigOperators.Group.Finset.Basic
import Mathlib.Algebra.Order.Floor.Div
import Mathlib.Data.Set.Card
import Mathlib.Order.Interval.Finset.Nat

/-!
# Draws are uniform

The words that a value is read off are those whose product with the number of values falls
into an interval, so they are an interval themselves, and all these intervals have the same
length: `card_readings`. What is accepted is put together from them, `card_accepted`.
`EvenlyRead` is what follows for a range, and `draws_uniform` says that the guesses of a
uniform player and the targets of an environment are drawn in this way.
-/

namespace HiddenTarget

namespace Random

/-! ## Counting words -/

theorem ncard_words (p : Nat → Prop) [DecidablePred p] :
    {w : UInt32 | p w.toNat}.ncard = ((Finset.range (2 ^ 32)).filter p).card := by
  have hinjective : Function.Injective UInt32.toNat := fun _ _ => UInt32.toNat_inj.mp
  have himage :
      UInt32.toNat '' {w | p w.toNat} = ((Finset.range (2 ^ 32)).filter p : Finset Nat) := by
    ext n
    simp only [Set.mem_image, Set.mem_ofPred_eq, Finset.coe_filter, Finset.mem_range]
    constructor
    · rintro ⟨w, hw, rfl⟩
      exact ⟨w.toNat_lt, hw⟩
    · rintro ⟨hn, hp⟩
      have hword : (UInt32.ofNat n).toNat = n := UInt32.toNat_ofNat_of_lt' hn
      exact ⟨UInt32.ofNat n, hword.symm ▸ hp, hword⟩
  rw [← Set.ncard_image_of_injective _ hinjective, himage, Set.ncard_coe_finset]

theorem ceilDiv_add_le_iff {r : Nat} (hr : 0 < r) (b k n : Nat) :
    b ⌈/⌉ r + k ≤ n ↔ b + r * k ≤ r * n := by
  constructor
  · intro h
    obtain ⟨m, rfl⟩ := Nat.exists_eq_add_of_le' (Nat.le_of_add_left_le h)
    have hm : b ≤ r * m := (ceilDiv_le_iff_le_mul hr).mp (Nat.le_of_add_le_add_right h)
    rw [Nat.mul_add]
    exact Nat.add_le_add_right hm _
  · intro h
    have hk : k ≤ n := Nat.le_of_mul_le_mul_left (Nat.le_of_add_left_le h) hr
    obtain ⟨m, rfl⟩ := Nat.exists_eq_add_of_le' hk
    rw [Nat.mul_add] at h
    have hm : b ⌈/⌉ r ≤ m := (ceilDiv_le_iff_le_mul hr).mpr (Nat.le_of_add_le_add_right h)
    exact Nat.add_le_add_right hm k

variable {r q : Nat}

/-- **Every offset is read off equally many words.** They are the numbers from the first
multiple of `r` in an interval on. -/
theorem card_readings (hq : q < r) (hr : r < 2 ^ 32) :
    ((Finset.range (2 ^ 32)).filter fun n =>
      n * r % 2 ^ 32 < r * 2 ^ zerosInFront r ∧ n * r / 2 ^ 32 = q).card = 2 ^ zerosInFront r := by
  have hpos : 0 < r := Nat.zero_lt_of_lt hq
  obtain ⟨-, hzone⟩ := two_pow_mul_zerosInFront hpos hr
  have hend : q * 2 ^ 32 ⌈/⌉ r + 2 ^ zerosInFront r ≤ 2 ^ 32 := by
    rw [ceilDiv_add_le_iff hpos]
    omega
  have hinterval : ((Finset.range (2 ^ 32)).filter fun n =>
      n * r % 2 ^ 32 < r * 2 ^ zerosInFront r ∧ n * r / 2 ^ 32 = q) =
      Finset.Ico (q * 2 ^ 32 ⌈/⌉ r) (q * 2 ^ 32 ⌈/⌉ r + 2 ^ zerosInFront r) := by
    ext n
    have hlow : q * 2 ^ 32 ⌈/⌉ r ≤ n ↔ q * 2 ^ 32 ≤ r * n := ceilDiv_le_iff_le_mul hpos
    have hhigh := ceilDiv_add_le_iff hpos (q * 2 ^ 32) (2 ^ zerosInFront r) n
    rw [Finset.mem_filter, Finset.mem_range, Finset.mem_Ico, Nat.mul_comm n r, hlow,
      ← Nat.not_le (a := _ + _), hhigh]
    omega
  rw [hinterval, Nat.card_Ico, Nat.add_sub_cancel_left]

theorem card_accepted (hpos : 0 < r) (hr : r < 2 ^ 32) :
    ((Finset.range (2 ^ 32)).filter fun n => n * r % 2 ^ 32 < r * 2 ^ zerosInFront r).card =
      r * 2 ^ zerosInFront r := by
  have hoffset : Set.MapsTo (fun n => n * r / 2 ^ 32)
      ((Finset.range (2 ^ 32)).filter fun n => n * r % 2 ^ 32 < r * 2 ^ zerosInFront r)
      (Finset.range r) := by
    intro n hn
    have hlt : n < 2 ^ 32 := Finset.mem_range.mp (Finset.mem_filter.mp hn).1
    rw [Finset.mem_coe, Finset.mem_range, Nat.div_lt_iff_lt_mul (by decide), Nat.mul_comm]
    exact Nat.mul_lt_mul_of_pos_left hlt hpos
  rw [Finset.card_eq_sum_card_fiberwise hoffset]
  calc ∑ q ∈ Finset.range r, _
    _ = ∑ _q ∈ Finset.range r, 2 ^ zerosInFront r := by
        refine Finset.sum_congr rfl fun q hq => ?_
        rw [Finset.filter_filter, card_readings (Finset.mem_range.mp hq) hr]
    _ = r * 2 ^ zerosInFront r := by
        rw [Finset.sum_const, Finset.card_range, smul_eq_mul]

/-! ## Ranges -/

/-- Words are read as values of `lo..hi` exactly, and every value is read off equally many of
them. -/
structure EvenlyRead (lo hi : Int32) : Prop where
  count : (valueCount lo hi : Int) = hi.toInt - lo.toInt + 1
  /-- A range with fewer values than there are words: no intermediate result is cut off. -/
  exact_of_lt : valueCount lo hi < 2 ^ 32 → ∀ (w : UInt32) (a : Int32),
    reading lo hi w = some a ↔
      w.toNat * valueCount lo hi % 2 ^ 32 <
          valueCount lo hi * 2 ^ zerosInFront (valueCount lo hi) ∧
        a.toInt = lo.toInt + (w.toNat * valueCount lo hi / 2 ^ 32 : Nat)
  exact_of_eq : valueCount lo hi = 2 ^ 32 → ∀ w : UInt32, reading lo hi w = some w.toInt32
  mem : ∀ (w : UInt32) (a : Int32), reading lo hi w = some a → lo ≤ a ∧ a ≤ hi
  ncard_accepted : valueCount lo hi < 2 ^ 32 →
    {w : UInt32 | (reading lo hi w).isSome = true}.ncard =
      valueCount lo hi * 2 ^ zerosInFront (valueCount lo hi)
  half_accepted : valueCount lo hi < 2 ^ 32 →
    2 ^ 32 ≤ 2 * (valueCount lo hi * 2 ^ zerosInFront (valueCount lo hi))
  ncard_reading : valueCount lo hi < 2 ^ 32 → ∀ a : Int32, lo ≤ a → a ≤ hi →
    {w : UInt32 | reading lo hi w = some a}.ncard = 2 ^ zerosInFront (valueCount lo hi)
  ncard_reading_full : valueCount lo hi = 2 ^ 32 → ∀ a : Int32,
    {w : UInt32 | reading lo hi w = some a}.ncard = 1

variable {lo hi : Int32}

theorem isSome_reading_iff (h : lo ≤ hi) (hcount : valueCount lo hi < 2 ^ 32) (w : UInt32) :
    (reading lo hi w).isSome = true ↔
      w.toNat * valueCount lo hi % 2 ^ 32 <
        valueCount lo hi * 2 ^ zerosInFront (valueCount lo hi) := by
  have hwidth := toNat_width_of_lt h hcount
  have hpos := valueCount_pos h
  have haccepts := accepts_iff (w := w) (hwidth ▸ hpos)
  have hne : width lo hi ≠ 0 := by
    intro hzero
    rw [hzero] at hwidth
    exact absurd hwidth.symm (Nat.ne_of_gt hpos)
  rw [hwidth] at haccepts
  rw [reading, if_neg hne, ← haccepts]
  cases accepts (width lo hi) w with
  | true => exact Iff.rfl
  | false => exact Iff.rfl

theorem ncard_reading_of_mem (h : lo ≤ hi) (hcount : valueCount lo hi < 2 ^ 32) {a : Int32}
    (hlo : lo ≤ a) (hhi : a ≤ hi) :
    {w : UInt32 | reading lo hi w = some a}.ncard = 2 ^ zerosInFront (valueCount lo hi) := by
  rw [Int32.le_iff_toInt_le] at hlo hhi
  have hq : (a.toInt - lo.toInt).toNat < valueCount lo hi := by
    rw [valueCount]
    omega
  have hwords : {w : UInt32 | reading lo hi w = some a} = {w : UInt32 |
      w.toNat * valueCount lo hi % 2 ^ 32 <
          valueCount lo hi * 2 ^ zerosInFront (valueCount lo hi) ∧
        w.toNat * valueCount lo hi / 2 ^ 32 = (a.toInt - lo.toInt).toNat} := by
    ext w
    rw [Set.mem_ofPred_eq, Set.mem_ofPred_eq, reading_eq_some_iff h hcount]
    refine and_congr_right fun _ => ?_
    omega
  rw [hwords]
  exact (ncard_words _).trans (card_readings hq hcount)

theorem evenlyRead (h : lo ≤ hi) : EvenlyRead lo hi where
  count := by
    rw [Int32.le_iff_toInt_le] at h
    rw [valueCount]
    omega
  exact_of_lt hcount _ _ := reading_eq_some_iff h hcount
  exact_of_eq hcount := reading_of_full h hcount
  mem _ _ := reading_mem h
  ncard_accepted hcount := by
    have hwords : {w : UInt32 | (reading lo hi w).isSome = true} = {w : UInt32 |
        w.toNat * valueCount lo hi % 2 ^ 32 <
          valueCount lo hi * 2 ^ zerosInFront (valueCount lo hi)} :=
      Set.ext (isSome_reading_iff h hcount)
    have hnumbers := ncard_words fun n => n * valueCount lo hi % 2 ^ 32 <
      valueCount lo hi * 2 ^ zerosInFront (valueCount lo hi)
    rw [hwords, hnumbers, card_accepted (valueCount_pos h) hcount]
  half_accepted hcount := by
    obtain ⟨hlow, -⟩ := two_pow_mul_zerosInFront (valueCount_pos h) hcount
    omega
  ncard_reading hcount _ := ncard_reading_of_mem h hcount
  ncard_reading_full hcount a := by
    have hword : {w : UInt32 | reading lo hi w = some a} = {a.toUInt32} := by
      ext w
      rw [Set.mem_ofPred_eq, reading_of_full h hcount, Option.some_inj, Set.mem_singleton_iff]
      exact ⟨fun hw => hw ▸ rfl, fun hw => hw ▸ rfl⟩
    rw [hword, Set.ncard_singleton]

end Random

/-! ## Guesses and targets -/

open HiddenTarget.Random

/-- **Draws are in range and uniform.** Of every range that is not empty, the words are read
evenly and exactly, and a draw from any stream of words ends with the first one that is
accepted, if there is one, and stays in the range. The guesses of a uniform player are draws
from its range, and the targets of an environment draws from as many values as there are
targets, each from the stream of the episode's seed. -/
theorem draws_uniform :
    (∀ lo hi : Action, lo ≤ hi →
      EvenlyRead lo hi ∧
        ∀ stream : Nat → UInt32,
          ((∃ n a, DrawnAt lo hi stream n a) ↔ ∃ k, (reading lo hi (stream k)).isSome = true) ∧
          ∀ n a, DrawnAt lo hi stream n a → lo ≤ a ∧ a ≤ hi) ∧
    (∀ (p : UniformPlayer) (observation : Observation), p.low ≤ p.high →
      let (action, next) := Policy.uniform.act p observation
      (p.low ≤ action ∧ action ≤ p.high) ∧
        ∀ n a, DrawnAt p.low p.high p.source.stream n a →
          action = a ∧ next = { p with source := p.source.skip (n + 1) }) ∧
    (∀ (e : Environment) (seed : Option UInt64), 1 ≤ e.rules.numTargets →
      let top := e.rules.numTargets - 1
      let next := (e.reset seed).2
      (valueCount 0 top : Int) = e.rules.numTargets.toInt ∧ valueCount 0 top < 2 ^ 32 ∧
        EvenlyRead 0 top ∧ (0 ≤ next.target ∧ next.target < e.rules.numTargets) ∧
        ∀ n a, DrawnAt 0 top (Generator.ofSeed next.seed).stream n a → next.target = a) := by
  refine ⟨?_, ?_, ?_⟩
  · intro lo hi h
    refine ⟨evenlyRead h, fun stream => ⟨exists_drawnAt_iff lo hi stream, ?_⟩⟩
    intro n a hdrawn
    exact hdrawn.mem h
  · intro p observation h
    refine ⟨Generator.draw_mem h p.source, ?_⟩
    intro n a hdrawn
    have hdraw := Generator.draw_of_drawnAt hdrawn
    exact ⟨congrArg Prod.fst hdraw, congrArg (fun d => { p with source := d.2 }) hdraw⟩
  · intro e seed h top next
    have heven := evenlyRead (Environment.zero_le_lastTarget h)
    have htop := Environment.toInt_lastTarget h
    have hcount : (valueCount 0 top : Int) = e.rules.numTargets.toInt := by
      rw [heven.count, htop, Int32.toInt_zero]
      omega
    have hlt := e.rules.numTargets.toInt_lt
    refine ⟨hcount, by omega, heven, Environment.targetOf_mem h next.seed, ?_⟩
    intro n a hdrawn
    exact congrArg Prod.fst (Generator.draw_of_drawnAt hdrawn)

/-- Five values around zero, and a guess after a rejected word; more values than there are
positive ones of a word; and the target of an episode. -/
theorem draws_uniform_five :
    {w : UInt32 | (reading (-3) 1 w).isSome = true}.ncard = 2684354560 ∧
      {w : UInt32 | reading (-3) 1 w = some 1}.ncard = 536870912 ∧
      {w : UInt32 | reading (-2000000000) 2000000000 w = some 2000000000}.ncard = 1 ∧
      (Policy.uniform.act ⟨-3, 1, .ofSeed 1⟩ 0).1 = -1 ∧
      (Policy.uniform.act ⟨-3, 1, .ofSeed 1⟩ 0).2.source = (Generator.ofSeed 1).skip 2 ∧
      ∀ e : Environment, e.rules.numTargets = 5 → (e.reset (some 1)).2.target = 2 := by
  obtain ⟨hranges, hplayers, hresets⟩ := draws_uniform
  obtain ⟨hfive, -⟩ := hranges (-3) 1 (by decide)
  obtain ⟨hwide, -⟩ := hranges (-2000000000) 2000000000 (by decide)
  have hguess : DrawnAt (-3) 1 (Generator.ofSeed 1).stream 1 (-1) :=
    ⟨by decide +kernel, by decide +kernel⟩
  have htarget : DrawnAt 0 4 (Generator.ofSeed 1).stream 1 2 :=
    ⟨by decide +kernel, by decide +kernel⟩
  obtain ⟨-, hact⟩ := hplayers ⟨-3, 1, .ofSeed 1⟩ 0 (by decide)
  obtain ⟨haction, hnext⟩ := hact 1 (-1) hguess
  refine ⟨hfive.ncard_accepted (by decide),
    hfive.ncard_reading (by decide) 1 (by decide) (by decide),
    hwide.ncard_reading (by decide) _ (by decide) (by decide), haction,
    congrArg UniformPlayer.source hnext, ?_⟩
  intro e he
  obtain ⟨-, -, -, -, hdrawn⟩ := hresets e (some 1) (he ▸ by decide)
  rw [he] at hdrawn
  exact hdrawn 1 2 htarget

end HiddenTarget
