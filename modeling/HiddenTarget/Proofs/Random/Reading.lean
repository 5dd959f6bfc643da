import HiddenTarget.Proofs.Random.Range
import Mathlib.Data.Nat.Find

/-!
# What a draw reads off a word

`reading lo hi w` is the value of `lo..hi` that the single word `w` stands for, if the word is
accepted. In exact arithmetic a word is accepted if the lower half of its product with the
number of values stays below a multiple of that number, and the upper half is the distance
from the low end: `reading_eq_some_iff`. The range of all values reads every word as it is.

A draw looks at one word after the other. `DrawnAt lo hi stream n a` says of any stream of
words that the first `n` are rejected and that `a` is read off the next one;
`Generator.draw_of_drawnAt` says that a draw takes the words of its stream in this way.
-/

namespace HiddenTarget.Random

/-! ## One word -/

/-- The value of `lo..hi` that a word stands for, if it is accepted. -/
def reading (lo hi : Int32) (w : UInt32) : Option Int32 :=
  if width lo hi = 0 then some w.toInt32
  else if accepts (width lo hi) w then some (lo + (offset (width lo hi) w).toInt32)
  else none

/-- The number of values in `lo..hi`. -/
def valueCount (lo hi : Int32) : Nat := (hi.toInt - lo.toInt + 1).toNat

/-- The zero bits in front of a positive number that is written with 32 bits. -/
def zerosInFront (r : Nat) : Nat := 31 - r.log2

variable {lo hi a : Int32} {r w : UInt32}

theorem valueCount_pos (h : lo ≤ hi) : 0 < valueCount lo hi := by
  rw [Int32.le_iff_toInt_le] at h
  rw [valueCount]
  omega

theorem toNat_width_of_le (h : lo ≤ hi) : (width lo hi).toNat = valueCount lo hi % 2 ^ 32 := by
  have hwidth := toNat_width lo hi
  rw [Int32.le_iff_toInt_le] at h
  rw [valueCount]
  omega

theorem width_eq_zero (h : lo ≤ hi) (hcount : valueCount lo hi = 2 ^ 32) : width lo hi = 0 := by
  rw [← UInt32.toNat_inj, toNat_width_of_le h, hcount]
  rfl

theorem toNat_width_of_lt (h : lo ≤ hi) (hcount : valueCount lo hi < 2 ^ 32) :
    (width lo hi).toNat = valueCount lo hi := by
  rw [toNat_width_of_le h, Nat.mod_eq_of_lt hcount]

/-! ## The zone -/

theorem two_pow_mul_zerosInFront {r : Nat} (hpos : 0 < r) (hlt : r < 2 ^ 32) :
    2 ^ 31 ≤ r * 2 ^ zerosInFront r ∧ r * 2 ^ zerosInFront r < 2 ^ 32 := by
  have hlog : r.log2 < 32 := (Nat.log2_lt (Nat.ne_of_gt hpos)).mpr hlt
  have hlow : 2 ^ r.log2 * 2 ^ zerosInFront r = 2 ^ 31 := by
    rw [← Nat.pow_add, zerosInFront]
    congr 1
    omega
  have hhigh : 2 ^ (r.log2 + 1) * 2 ^ zerosInFront r = 2 ^ 32 := by
    rw [Nat.pow_succ', Nat.mul_assoc, hlow]
    rfl
  constructor
  · rw [← hlow]
    exact Nat.mul_le_mul_right _ (Nat.log2_self_le (Nat.ne_of_gt hpos))
  · rw [← hhigh]
    exact Nat.mul_lt_mul_of_pos_right Nat.lt_log2_self (Nat.two_pow_pos _)

theorem toNat_leadingZeros (r : UInt32) : (leadingZeros r).toNat = zerosInFront r.toNat := by
  have hlog : r.log2.toNat = r.toNat.log2 := rfl
  have hle : r.log2 ≤ 31 := by
    rw [UInt32.le_iff_toNat_le, hlog]
    by_cases hr : r.toNat = 0
    · rw [hr]
      decide
    · exact Nat.le_of_lt_succ ((Nat.log2_lt hr).mpr r.toNat_lt)
  rw [leadingZeros, UInt32.toNat_sub_of_le _ _ hle, hlog, zerosInFront]
  rfl

theorem toNat_zone (h : 0 < r.toNat) :
    (zone r).toNat = r.toNat * 2 ^ zerosInFront r.toNat - 1 := by
  obtain ⟨hlow, hhigh⟩ := two_pow_mul_zerosInFront h r.toNat_lt
  have hshift : zerosInFront r.toNat % 32 = zerosInFront r.toNat := by
    rw [zerosInFront]
    omega
  have htop : (r <<< leadingZeros r).toNat = r.toNat * 2 ^ zerosInFront r.toNat := by
    rw [UInt32.toNat_shiftLeft, toNat_leadingZeros, hshift, Nat.shiftLeft_eq,
      Nat.mod_eq_of_lt hhigh]
  have hone : (1 : UInt32) ≤ r <<< leadingZeros r := by
    rw [UInt32.le_iff_toNat_le, htop]
    exact Nat.le_trans (by decide) hlow
  rw [zone, UInt32.toNat_sub_of_le _ _ hone, htop]
  rfl

theorem accepts_iff (h : 0 < r.toNat) :
    accepts r w = true ↔ w.toNat * r.toNat % 2 ^ 32 < r.toNat * 2 ^ zerosInFront r.toNat := by
  have hproduct : w.toNat * r.toNat < 2 ^ 64 := by
    have := Nat.mul_lt_mul'' w.toNat_lt r.toNat_lt
    omega
  have hspread : (spread r w).toUInt32.toNat = w.toNat * r.toNat % 2 ^ 32 := by
    rw [spread, UInt64.toNat_toUInt32, UInt64.toNat_mul, UInt32.toNat_toUInt64,
      UInt32.toNat_toUInt64, Nat.mod_eq_of_lt hproduct]
  have hzone := toNat_zone h
  obtain ⟨hlow, -⟩ := two_pow_mul_zerosInFront h r.toNat_lt
  rw [accepts, decide_eq_true_iff, UInt32.le_iff_toNat_le, hspread, hzone]
  omega

/-! ## Readings in exact arithmetic -/

/-- **A reading is exact.** No intermediate result is cut off: the acceptance test and the
value are those of unbounded numbers. -/
theorem reading_eq_some_iff (h : lo ≤ hi) (hcount : valueCount lo hi < 2 ^ 32) :
    reading lo hi w = some a ↔
      w.toNat * valueCount lo hi % 2 ^ 32 <
          valueCount lo hi * 2 ^ zerosInFront (valueCount lo hi) ∧
        a.toInt = lo.toInt + (w.toNat * valueCount lo hi / 2 ^ 32 : Nat) := by
  have hwidth := toNat_width_of_lt h hcount
  have hpos := valueCount_pos h
  have hne : width lo hi ≠ 0 := by
    intro hzero
    rw [hzero] at hwidth
    exact absurd hwidth.symm (Nat.ne_of_gt hpos)
  have hvalue : (lo + (offset (width lo hi) w).toInt32).toInt =
      lo.toInt + (w.toNat * valueCount lo hi / 2 ^ 32 : Nat) := by
    have hlt := offset_lt hne w
    have hlo := lo.le_toInt
    have hhi := hi.toInt_lt
    rw [← hwidth, ← toNat_offset, Int32.toInt_add, toInt_toInt32, Int.add_bmod_bmod]
    rw [hwidth, valueCount] at hlt
    exact Int.bmod_eq_of_le (by omega) (by omega)
  have haccepts := accepts_iff (w := w) (hwidth ▸ hpos)
  rw [hwidth] at haccepts
  rw [reading, if_neg hne, ← haccepts]
  by_cases hw : accepts (width lo hi) w = true
  · rw [if_pos hw, Option.some_inj, ← Int32.toInt_inj, hvalue]
    exact ⟨fun ha => ⟨hw, ha.symm⟩, fun ha => ha.2.symm⟩
  · rw [if_neg hw]
    exact ⟨nofun, fun ha => absurd ha.1 hw⟩

theorem reading_of_full (h : lo ≤ hi) (hcount : valueCount lo hi = 2 ^ 32) (w : UInt32) :
    reading lo hi w = some w.toInt32 :=
  if_pos (width_eq_zero h hcount)

theorem reading_mem (h : lo ≤ hi) (hread : reading lo hi w = some a) : lo ≤ a ∧ a ≤ hi := by
  rw [reading] at hread
  split at hread
  · next hzero => exact mem_of_width_eq_zero h hzero a
  · next hne =>
      split at hread
      · obtain rfl := Option.some.inj hread
        exact add_offset_mem h hne w
      · cases hread

/-! ## One word after the other -/

/-- A draw that reads a stream rejects its first `n` words and reads its value off the next
one. -/
structure DrawnAt (lo hi : Int32) (stream : Nat → UInt32) (n : Nat) (a : Int32) : Prop where
  rejected : ∀ k < n, reading lo hi (stream k) = none
  accepted : reading lo hi (stream n) = some a

theorem DrawnAt.mem {stream : Nat → UInt32} {n : Nat} (h : lo ≤ hi)
    (hdrawn : DrawnAt lo hi stream n a) : lo ≤ a ∧ a ≤ hi :=
  reading_mem h hdrawn.accepted

theorem DrawnAt.tail {stream : Nat → UInt32} {n : Nat}
    (hdrawn : DrawnAt lo hi stream (n + 1) a) :
    DrawnAt lo hi (fun k => stream (k + 1)) n a where
  rejected k hk := hdrawn.rejected (k + 1) (Nat.succ_lt_succ hk)
  accepted := hdrawn.accepted

theorem exists_drawnAt_iff (lo hi : Int32) (stream : Nat → UInt32) :
    (∃ n a, DrawnAt lo hi stream n a) ↔ ∃ k, (reading lo hi (stream k)).isSome = true := by
  constructor
  · rintro ⟨n, a, hdrawn⟩
    exact ⟨n, by rw [hdrawn.accepted]; rfl⟩
  · intro hsome
    obtain ⟨a, ha⟩ := Option.isSome_iff_exists.mp (Nat.find_spec hsome)
    refine ⟨Nat.find hsome, a, fun k hk => ?_, ha⟩
    exact Option.not_isSome_iff_eq_none.mp (Nat.find_min hsome hk)

namespace Generator

def stream (g : Generator) (k : Nat) : UInt32 := word g.key (g.position + k)

def skip (g : Generator) (n : Nat) : Generator := { g with position := g.position + n }

theorem stream_next (g : Generator) : g.next.2.stream = fun k => g.stream (k + 1) := by
  funext k
  rw [stream, stream, next_position, next_key, Nat.add_assoc, Nat.add_comm 1]

theorem skip_next (g : Generator) (n : Nat) : g.next.2.skip n = g.skip (n + 1) := by
  have hposition : g.position + 1 + n = g.position + (n + 1) := by omega
  exact congrArg (Generator.mk g.key) hposition

theorem search_succ (hr : width lo hi ≠ 0) (m : Nat) (g : Generator) :
    search lo (width lo hi) (m + 1) g =
      match reading lo hi (g.stream 0) with
      | some a => (a, g.next.2)
      | none => search lo (width lo hi) m g.next.2 := by
  have hword : g.stream 0 = g.next.1 := rfl
  rw [search, reading, if_neg hr, hword]
  by_cases haccepts : accepts (width lo hi) g.next.1 = true
  · simp only [if_pos haccepts]
  · simp only [if_neg haccepts]

theorem search_of_drawnAt (hr : width lo hi ≠ 0) {g : Generator} {n m : Nat} (hm : n < m)
    (hdrawn : DrawnAt lo hi g.stream n a) :
    search lo (width lo hi) m g = (a, g.skip (n + 1)) := by
  obtain ⟨m, rfl⟩ : ∃ k, m = k + 1 := ⟨m - 1, by omega⟩
  induction n generalizing g m with
  | zero =>
      rw [search_succ hr, hdrawn.accepted]
      rfl
  | succ n ih =>
      obtain ⟨m, rfl⟩ : ∃ k, m = k + 1 := ⟨m - 1, by omega⟩
      have htail : DrawnAt lo hi g.next.2.stream n a := by
        rw [stream_next]
        exact hdrawn.tail
      rw [search_succ hr, hdrawn.rejected 0 (Nat.succ_pos n)]
      exact (ih htail m (by omega)).trans (congrArg (Prod.mk a) (skip_next g (n + 1)))

/-- The words of a stream repeat, so the first accepted one is among those of a period. -/
theorem lt_period_of_drawnAt {g : Generator} {n : Nat} (hdrawn : DrawnAt lo hi g.stream n a) :
    n < period := by
  by_contra hperiod
  obtain ⟨k, rfl⟩ := Nat.exists_eq_add_of_le' (Nat.le_of_not_lt hperiod)
  have hlt : k < k + period := Nat.lt_add_of_pos_right (by decide)
  have hsame : g.stream (k + period) = g.stream k := by
    rw [stream, stream, ← Nat.add_assoc, word_add_period]
  have hnone := hdrawn.rejected k hlt
  rw [← hsame, hdrawn.accepted] at hnone
  cases hnone

/-- **A draw is the first reading of its stream**, and takes the words up to it. -/
theorem draw_of_drawnAt {g : Generator} {n : Nat}
    (hdrawn : DrawnAt lo hi g.stream n a) : g.draw lo hi = (a, g.skip (n + 1)) := by
  by_cases hr : width lo hi = 0
  · have hfirst : ∀ w, reading lo hi w = some w.toInt32 := fun w => if_pos hr
    obtain rfl : n = 0 := by
      by_contra hn
      have hnone := hdrawn.rejected 0 (Nat.pos_of_ne_zero hn)
      rw [hfirst] at hnone
      cases hnone
    have ha := hdrawn.accepted
    rw [hfirst] at ha
    rw [draw, if_pos hr, ← Option.some.inj ha]
    rfl
  · have hdraw : g.draw lo hi = search lo (width lo hi) period g := if_neg hr
    rw [hdraw, search_of_drawnAt hr (lt_period_of_drawnAt hdrawn) hdrawn]

end Generator

end HiddenTarget.Random
