import HiddenTarget.Proofs.Decimal.Grammar
import HiddenTarget.Settings.Override
import Mathlib.Algebra.Group.Int.Defs
import Mathlib.Algebra.Group.Nat.Defs
import Mathlib.Data.List.TakeWhile

/-!
# What the variables set

A variable is read without the blanks around its text, `trim_eq_iff`, and then as a number that
the rule can hold: `override?_int32_iff` and `override?_uint32_iff` name the texts for the whole
numbers. Each rule has the value of its own variable, or keeps what it was, so variables that
are read again change nothing. `override_reads_own_variables` is all of this.
-/

namespace HiddenTarget

/-! ## Blanks around a text -/

namespace Text

/-- A text with blanks around it, or with none. -/
def Padded (t raw : List Char) : Prop :=
  ∃ l r, raw = l ++ t ++ r ∧ (∀ c ∈ l, isBlank c = true) ∧ ∀ c ∈ r, isBlank c = true

structure NoBlankEnds (t : List Char) : Prop where
  head : ∀ c ∈ t.head?, isBlank c = false
  last : ∀ c ∈ t.getLast?, isBlank c = false

variable {t raw : List Char}

theorem isBlank_eq_false {c : Char} (hlow : 0x20 < c.toNat) (hhigh : c.toNat < 0x85) :
    isBlank c = false := by
  simp only [isBlank, Bool.or_eq_false_iff, Bool.and_eq_false_imp, beq_eq_false_iff_ne,
    decide_eq_true_eq, decide_eq_false_iff_not]
  omega

theorem isBlank_of_mem_head?_dropWhile {c : Char} (h : c ∈ (raw.dropWhile isBlank).head?) :
    isBlank c = false := by
  have hhead := List.head?_dropWhile_not isBlank raw
  rw [Option.mem_def.mp h] at hhead
  exact hhead

theorem padded_trim (raw : List Char) : Padded (trim raw) raw := by
  let rest := raw.dropWhile isBlank
  refine ⟨raw.takeWhile isBlank, (rest.reverse.takeWhile isBlank).reverse, ?_, ?_, ?_⟩
  · have hrest : trimEnd rest ++ (rest.reverse.takeWhile isBlank).reverse = rest := by
      rw [trimEnd, ← List.reverse_append, List.takeWhile_append_dropWhile, List.reverse_reverse]
    rw [trim, List.append_assoc, hrest, List.takeWhile_append_dropWhile]
  · exact fun c hc => List.mem_takeWhile_imp hc
  · exact fun c hc => List.mem_takeWhile_imp (List.mem_reverse.mp hc)

theorem noBlankEnds_trim (raw : List Char) : NoBlankEnds (trim raw) where
  head c hc := by
    -- Blanks are taken off the end of a text that starts with `c`.
    have hprefix : trim raw <+: raw.dropWhile isBlank := by
      rw [trim, trimEnd, ← List.reverse_suffix, List.reverse_reverse]
      exact List.dropWhile_suffix _
    obtain ⟨more, hmore⟩ := hprefix
    have hhead : c ∈ (raw.dropWhile isBlank).head? := by
      rw [← hmore, List.head?_append, Option.mem_def.mp hc]
      rfl
    exact isBlank_of_mem_head?_dropWhile hhead
  last c hc := by
    rw [trim, trimEnd, List.getLast?_reverse] at hc
    exact isBlank_of_mem_head?_dropWhile hc

/-- **Trimming takes the blanks off both ends** and nothing else. -/
theorem trim_eq_iff : trim raw = t ↔ Padded t raw ∧ NoBlankEnds t := by
  constructor
  · rintro rfl
    exact ⟨padded_trim raw, noBlankEnds_trim raw⟩
  · rintro ⟨⟨l, r, rfl, hl, hr⟩, hends⟩
    rw [trim_pad hl hr, trim_eq_self hends.head hends.last]

end Text

open Text Decimal

theorem isBlank_of_isDigit_or_sign {c : Char} (h : c.isDigit = true ∨ c = '+' ∨ c = '-') :
    isBlank c = false := by
  rcases h with h | rfl | rfl
  · rw [Char.isDigit, Bool.and_eq_true, decide_eq_true_eq, decide_eq_true_eq] at h
    have hlow : 48 ≤ c.toNat := UInt32.le_iff_toNat_le.mp h.1
    have hhigh : c.toNat ≤ 57 := UInt32.le_iff_toNat_le.mp h.2
    exact isBlank_eq_false (by omega) (by omega)
  · decide
  · decide

theorem noBlankEnds_of_denotes {s : List Char} {i : Int} (h : DenotesInteger s i) :
    NoBlankEnds s where
  head c hc := isBlank_of_isDigit_or_sign (h.isDigit_or_sign c (List.mem_of_mem_head? hc))
  last c hc := isBlank_of_isDigit_or_sign (h.isDigit_or_sign c (List.mem_of_mem_getLast? hc))

/-! ## Whole numbers -/

namespace Numeral

theorem read?_int32_iff {s : List Char} {v : Int32} :
    int32.read? s = some v ↔ DenotesInteger s v.toInt := by
  have hread : ∀ i, IntegerRange.int32.read? s = some i ↔ _ :=
    fun i => IntegerRange.read?_eq_some_iff_of_signed rfl
  have hlow := v.le_toInt
  have hhigh := v.toInt_lt
  rw [int32, Option.map_eq_some_iff]
  constructor
  · rintro ⟨i, hi, rfl⟩
    obtain ⟨hdenotes, hbottom, htop⟩ := (hread i).mp hi
    rwa [Int32.toInt_ofInt_of_le hbottom (Int.lt_add_one_of_le htop)]
  · intro h
    refine ⟨v.toInt, (hread _).mpr ⟨h, hlow, Int.le_of_lt_add_one hhigh⟩, Int32.ofInt_toInt v⟩

theorem read?_uint32_iff {s : List Char} {v : UInt32} :
    uint32.read? s = some v ↔ DenotesNatural s v.toNat := by
  have hread : ∀ i, IntegerRange.uint32.read? s = some i ↔ _ :=
    fun i => IntegerRange.read?_eq_some_iff_of_unsigned rfl
  have hhigh := v.toNat_lt
  rw [uint32, Option.map_eq_some_iff]
  constructor
  · rintro ⟨i, hi, rfl⟩
    obtain ⟨n, hdenotes, rfl, htop⟩ := (hread i).mp hi
    rwa [Int.toNat_natCast, UInt32.toNat_ofNat_of_lt' (Nat.lt_succ_of_le htop)]
  · intro h
    exact ⟨v.toNat, (hread _).mpr ⟨_, h, rfl, Nat.le_of_lt_succ hhigh⟩, UInt32.ofNat_toNat⟩

/-- A text sets a rule of the range if it denotes an integer of it, blanks around it left out. -/
theorem override?_int32_iff {raw : String} {v : Int32} :
    int32.override? raw = some v ↔ DenotesInteger (trim raw.toList) v.toInt :=
  read?_int32_iff

theorem override?_uint32_iff {raw : String} {v : UInt32} :
    uint32.override? raw = some v ↔ DenotesNatural (trim raw.toList) v.toNat :=
  read?_uint32_iff

theorem exists_override?_int32_iff {raw : String} :
    (∃ v, int32.override? raw = some v) ↔
      ∃ i, DenotesInteger (trim raw.toList) i ∧ -2 ^ 31 ≤ i ∧ i ≤ 2 ^ 31 - 1 := by
  simp only [override?_int32_iff]
  constructor
  · rintro ⟨v, h⟩
    exact ⟨v.toInt, h, v.le_toInt, Int.le_sub_one_of_lt v.toInt_lt⟩
  · rintro ⟨i, h, hlow, hhigh⟩
    refine ⟨Int32.ofInt i, ?_⟩
    rwa [Int32.toInt_ofInt_of_le hlow (Int.lt_of_le_sub_one hhigh)]

theorem exists_override?_uint32_iff {raw : String} :
    (∃ v, uint32.override? raw = some v) ↔
      ∃ n, DenotesNatural (trim raw.toList) n ∧ n < 2 ^ 32 := by
  simp only [override?_uint32_iff]
  constructor
  · rintro ⟨v, h⟩
    exact ⟨v.toNat, h, v.toNat_lt⟩
  · rintro ⟨n, h, hlt⟩
    refine ⟨UInt32.ofNat n, ?_⟩
    rwa [UInt32.toNat_ofNat_of_lt' hlt]

theorem override?_integer {raw : String} {v : Int32} (h : Padded (integer v.toInt) raw.toList) :
    int32.override? raw = some v := by
  have hdenotes := denotesInteger_integer v.toInt
  rw [override?_int32_iff, trim_eq_iff.mpr ⟨h, noBlankEnds_of_denotes hdenotes⟩]
  exact hdenotes

theorem override?_natural {raw : String} {v : UInt32} (h : Padded (natural v.toNat) raw.toList) :
    uint32.override? raw = some v := by
  have hdenotes := denotesNatural_natural v.toNat
  rw [override?_uint32_iff, trim_eq_iff.mpr ⟨h, noBlankEnds_of_denotes (.natural hdenotes)⟩]
  exact hdenotes

/-! ## One rule, one variable -/

variable {α : Type} {n : Numeral α} {key : String} {raw : Option String} {current : α}

theorem override_fst : (n.override key raw current).1 = (raw.bind n.override?).getD current := by
  cases raw with
  | none => rfl
  | some raw =>
      rw [override, Option.bind_some]
      cases n.override? raw with
      | none => rfl
      | some value => rfl

theorem override_override_fst :
    (n.override key raw (n.override key raw current).1).1 = (n.override key raw current).1 := by
  rw [override_fst, override_fst]
  cases raw.bind n.override? with
  | none => rfl
  | some value => rfl

end Numeral

namespace Rules

theorem override_fst (r : Rules) (lookup : String → Option String) :
    (r.override lookup).1 =
    { numTargets := (Numeral.int32.override numTargetsKey (lookup numTargetsKey) r.numTargets).1
      maxSteps := (Numeral.uint32.override maxStepsKey (lookup maxStepsKey) r.maxSteps).1
      hitReward := (Numeral.real.override hitRewardKey (lookup hitRewardKey) r.hitReward).1
      missReward := (Numeral.real.override missRewardKey (lookup missRewardKey) r.missReward).1 } :=
  rfl

theorem override_override_fst (r : Rules) (lookup : String → Option String) :
    ((r.override lookup).1.override lookup).1 = (r.override lookup).1 := by
  simp only [override_fst, Numeral.override_override_fst]

/-- **Each rule is set by its own variable**, and by texts of its values only. A variable that
is set to such a text, blanks around it left out, sets its rule; any other rule is kept,
whatever the other variables hold, and reading the variables again changes nothing. The number
of targets is set by texts of integers of 32 bits, and the number of steps by texts of natural
numbers of 32 bits, which have no minus sign. What is written of a number sets it again. -/
theorem override_reads_own_variables :
    (∀ (r : Rules) (lookup : String → Option String),
      let o := (r.override lookup).1
      o.maxSteps = ((lookup maxStepsKey).bind Numeral.uint32.override?).getD r.maxSteps ∧
      o.numTargets = ((lookup numTargetsKey).bind Numeral.int32.override?).getD r.numTargets ∧
      o.hitReward = ((lookup hitRewardKey).bind Numeral.real.override?).getD r.hitReward ∧
      o.missReward = ((lookup missRewardKey).bind Numeral.real.override?).getD r.missReward ∧
      (o.override lookup).1 = o) ∧
    (∀ raw t : List Char, trim raw = t ↔ Padded t raw ∧ NoBlankEnds t) ∧
    (∀ raw : String,
      (∀ v, Numeral.real.override? raw = some v ↔ readReal? (trim raw.toList) = some v) ∧
      (∀ v, Numeral.int32.override? raw = some v ↔ DenotesInteger (trim raw.toList) v.toInt) ∧
      ((∃ v, Numeral.int32.override? raw = some v) ↔
        ∃ i, DenotesInteger (trim raw.toList) i ∧ -2 ^ 31 ≤ i ∧ i ≤ 2 ^ 31 - 1) ∧
      (∀ v, Numeral.uint32.override? raw = some v ↔ DenotesNatural (trim raw.toList) v.toNat) ∧
      ((∃ v, Numeral.uint32.override? raw = some v) ↔
        ∃ n, DenotesNatural (trim raw.toList) n ∧ n < 2 ^ 32)) ∧
    (∀ (r : Rules) (lookup : String → Option String) (raw : String),
      (∀ v : Int32, lookup numTargetsKey = some raw → Padded (integer v.toInt) raw.toList →
        (r.override lookup).1.numTargets = v) ∧
      ∀ v : UInt32, lookup maxStepsKey = some raw → Padded (natural v.toNat) raw.toList →
        (r.override lookup).1.maxSteps = v) := by
  refine ⟨?_, fun raw t => trim_eq_iff, ?_, ?_⟩
  · intro r lookup o
    exact ⟨Numeral.override_fst, Numeral.override_fst, Numeral.override_fst,
      Numeral.override_fst, override_override_fst r lookup⟩
  · intro raw
    exact ⟨fun _ => Iff.rfl, fun _ => Numeral.override?_int32_iff,
      Numeral.exists_override?_int32_iff, fun _ => Numeral.override?_uint32_iff,
      Numeral.exists_override?_uint32_iff⟩
  · intro r lookup raw
    constructor
    · intro v hraw hpadded
      have hfield : (r.override lookup).1.numTargets = _ := Numeral.override_fst
      rw [hfield, hraw, Option.bind_some, Numeral.override?_integer hpadded, Option.getD_some]
    · intro v hraw hpadded
      have hfield : (r.override lookup).1.maxSteps = _ := Numeral.override_fst
      rw [hfield, hraw, Option.bind_some, Numeral.override?_natural hpadded, Option.getD_some]

/-- The least number of targets there is, between two blanks, beside a number of steps that has
a minus sign. -/
theorem override_reads_own_variables_least :
    let lookup := fun key =>
      if key = numTargetsKey then some "\u3000-2147483648\n"
      else if key = maxStepsKey then some "-0" else none
    lookup numTargetsKey = some "\u3000-2147483648\n" ∧
      Padded (integer (-2147483648 : Int32).toInt) "\u3000-2147483648\n".toList ∧
      (({} : Rules).override lookup).1.numTargets = -2147483648 ∧
      (({} : Rules).override lookup).1.maxSteps = 100 ∧
      ((({} : Rules).override lookup).1.override lookup).1 = (({} : Rules).override lookup).1 := by
  intro lookup
  obtain ⟨hfields, -, -, hwritten⟩ := override_reads_own_variables
  have hpadded : Padded (integer (-2147483648 : Int32).toInt) "\u3000-2147483648\n".toList :=
    ⟨['\u3000'], ['\n'], rfl, List.forall_mem_singleton.mpr rfl,
      List.forall_mem_singleton.mpr rfl⟩
  obtain ⟨hsteps, -, -, -, hagain⟩ := hfields {} lookup
  have hlookup : lookup maxStepsKey = some "-0" := by decide
  have hnone : Numeral.uint32.override? "-0" = none := by decide
  rw [hlookup, Option.bind_some, hnone] at hsteps
  exact ⟨rfl, hpadded, (hwritten {} lookup _).1 _ rfl hpadded, hsteps, hagain⟩

end Rules

end HiddenTarget
