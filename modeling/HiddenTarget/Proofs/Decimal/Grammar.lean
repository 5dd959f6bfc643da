import HiddenTarget.Proofs.Decimal.Digits

/-!
# What is read as an integer

`DenotesNatural` and `DenotesInteger` are the texts of integers: one or more digits, with a sign
in front or without one, and their value. A range without negative integers is read from the
former, `IntegerRange.read?_eq_some_iff_of_unsigned`, and one with negative integers from the
latter, `IntegerRange.read?_eq_some_iff_of_signed`; nothing else is read, and no integer outside
of the range. What is written of an integer denotes it.
-/

namespace HiddenTarget

namespace Decimal

/-! ## Texts of integers -/

def IsDigits (ds : List Char) : Prop := ds ≠ [] ∧ ∀ c ∈ ds, c.isDigit = true

/-- Digits with a plus sign or without one, and the number they denote. -/
inductive DenotesNatural : List Char → Nat → Prop
  | digits {ds : List Char} : IsDigits ds → DenotesNatural ds (Nat.ofDigitChars 10 ds 0)
  | plus {ds : List Char} : IsDigits ds → DenotesNatural ('+' :: ds) (Nat.ofDigitChars 10 ds 0)

inductive DenotesInteger : List Char → Int → Prop
  | natural {s : List Char} {n : Nat} : DenotesNatural s n → DenotesInteger s n
  | minus {ds : List Char} :
      IsDigits ds → DenotesInteger ('-' :: ds) (-(Nat.ofDigitChars 10 ds 0 : Int))

theorem isDigits_natural (n : Nat) : IsDigits (natural n) :=
  ⟨natural_ne_nil n, fun _ => isDigit_of_mem_natural⟩

theorem denotesNatural_natural (n : Nat) : DenotesNatural (natural n) n := by
  have h := DenotesNatural.digits (isDigits_natural n)
  rwa [natural, Nat.ofDigitChars_ten_toDigits] at h

theorem denotesInteger_integer (i : Int) : DenotesInteger (integer i) i := by
  cases i with
  | ofNat n => exact .natural (denotesNatural_natural n)
  | negSucc n =>
      have h := DenotesInteger.minus (isDigits_natural (n + 1))
      rwa [natural, Nat.ofDigitChars_ten_toDigits] at h

theorem DenotesInteger.isDigit_or_sign {s : List Char} {i : Int} (h : DenotesInteger s i) :
    ∀ c ∈ s, c.isDigit = true ∨ c = '+' ∨ c = '-' := by
  intro c hc
  cases h with
  | natural hn =>
      cases hn with
      | digits hds => exact .inl (hds.2 c hc)
      | plus hds =>
          rcases List.mem_cons.mp hc with rfl | hc
          · exact .inr (.inl rfl)
          · exact .inl (hds.2 c hc)
  | minus hds =>
      rcases List.mem_cons.mp hc with rfl | hc
      · exact .inr (.inr rfl)
      · exact .inl (hds.2 c hc)

theorem DenotesNatural.head_ne_minus {s : List Char} {n : Nat} (h : DenotesNatural s n) :
    ∀ c ∈ s.head?, c ≠ '-' := by
  rintro c hc rfl
  cases h with
  | plus hds => cases hc
  | digits hds => exact absurd (hds.2 '-' (List.mem_of_mem_head? hc)) (by decide)

theorem starts_with_minus_or (s : List Char) :
    (∃ ds, s = '-' :: ds) ∨ ∀ c ∈ s.head?, c ≠ '-' := by
  cases s with
  | nil => exact .inr nofun
  | cons c rest =>
      by_cases hc : c = '-'
      · exact .inl ⟨rest, congrArg (· :: rest) hc⟩
      · refine .inr fun d hd => ?_
        rwa [← Option.some.inj hd]

/-! ## Reading digits -/

theorem digit?_of_not_isDigit {c : Char} (h : c.isDigit = false) : digit? c = none := by
  refine if_neg fun hrange => ?_
  have hdigit : c.isDigit = true := by
    rw [Char.isDigit, Bool.and_eq_true, decide_eq_true_eq, decide_eq_true_eq]
    exact hrange
  exact absurd hdigit (by simp [h])

theorem le_ofDigitChars (ds : List Char) (n : Nat) : n ≤ Nat.ofDigitChars 10 ds n := by
  induction ds generalizing n with
  | nil => exact Nat.le_refl n
  | cons c rest ih =>
      rw [Nat.ofDigitChars_cons]
      exact Nat.le_trans (by omega) (ih _)

/-- Digits are read if their value stays within the limit. A value never becomes smaller by
more digits, so the first one that leads beyond the limit decides. -/
theorem readDigits_eq_ok_iff {limit : Nat} {excess : IntegerFault} {ds : List Char} {m n : Nat}
    (hm : m ≤ limit) :
    readDigits limit excess m ds = .ok n ↔
      (∀ c ∈ ds, c.isDigit = true) ∧ Nat.ofDigitChars 10 ds m = n ∧ n ≤ limit := by
  induction ds generalizing m with
  | nil =>
      rw [readDigits, Nat.ofDigitChars_nil, Except.ok.injEq]
      constructor
      · rintro rfl
        exact ⟨nofun, rfl, hm⟩
      · exact fun h => h.2.1
  | cons c rest ih =>
      rw [readDigits, List.forall_mem_cons, Nat.ofDigitChars_cons, Nat.mul_comm 10]
      cases hc : c.isDigit with
      | false =>
          rw [digit?_of_not_isDigit hc]
          simp
      | true =>
          rw [digit?_of_isDigit hc]
          by_cases hle : m * 10 + (c.toNat - '0'.toNat) ≤ limit
          · simp only [if_pos hle, ih hle, true_and]
          · simp only [if_neg hle, reduceCtorEq, false_iff]
            rintro ⟨-, rfl, hn⟩
            exact hle (Nat.le_trans (le_ofDigitChars _ _) hn)

/-! ## Reading integers -/

namespace IntegerRange

variable {r : IntegerRange} {s : List Char} {i : Int}

theorem map_readDigits_eq_ok_iff {limit : Nat} {excess : IntegerFault} {ds : List Char}
    {f : Nat → Int} :
    (readDigits limit excess 0 ds).map f = .ok i ↔
      (∀ c ∈ ds, c.isDigit = true) ∧ i = f (Nat.ofDigitChars 10 ds 0) ∧
        Nat.ofDigitChars 10 ds 0 ≤ limit := by
  constructor
  · intro h
    rcases hdigits : readDigits limit excess 0 ds with fault | n
    · rw [hdigits] at h
      cases h
    · rw [hdigits] at h
      obtain ⟨hall, rfl, hle⟩ := (readDigits_eq_ok_iff (Nat.zero_le _)).mp hdigits
      exact ⟨hall, (Except.ok.inj h).symm, hle⟩
  · rintro ⟨hall, rfl, hle⟩
    rw [(readDigits_eq_ok_iff (Nat.zero_le _)).mpr ⟨hall, rfl, hle⟩]
    rfl

theorem readNatural_eq_ok_iff {ds : List Char} :
    r.readNatural ds = .ok i ↔
      IsDigits ds ∧ i = Nat.ofDigitChars 10 ds 0 ∧ Nat.ofDigitChars 10 ds 0 ≤ r.top := by
  cases ds with
  | nil => exact ⟨nofun, fun h => absurd rfl h.1.1⟩
  | cons c rest =>
      have hread : r.readNatural (c :: rest) =
          (readDigits r.top .tooLarge 0 (c :: rest)).map Int.ofNat := rfl
      rw [hread, map_readDigits_eq_ok_iff]
      exact ⟨fun h => ⟨⟨nofun, h.1⟩, h.2⟩, fun h => ⟨h.1.2, h.2⟩⟩

theorem read_of_digit {c : Char} (hc : c.isDigit = true) (rest : List Char) :
    r.read (c :: rest) = r.readNatural (c :: rest) := by
  rw [read.eq_def]
  split
  · contradiction
  · next heq => cases heq; cases hc
  · next heq => cases heq; cases hc
  · rfl

theorem read_eq_ok_iff_of_head (hs : ∀ c ∈ s.head?, c ≠ '-') :
    r.read s = .ok i ↔ ∃ n : Nat, DenotesNatural s n ∧ i = n ∧ n ≤ r.top := by
  constructor
  · intro h
    rw [read.eq_def] at h
    split at h
    · cases h
    · obtain ⟨hds, hi, hle⟩ := readNatural_eq_ok_iff.mp h
      exact ⟨_, .plus hds, hi, hle⟩
    · exact absurd rfl (hs '-' rfl)
    · obtain ⟨hds, hi, hle⟩ := readNatural_eq_ok_iff.mp h
      exact ⟨_, .digits hds, hi, hle⟩
  · rintro ⟨n, hn, rfl, hle⟩
    cases hn with
    | plus hds => exact readNatural_eq_ok_iff.mpr ⟨hds, rfl, hle⟩
    | digits hds =>
        cases s with
        | nil => exact absurd rfl hds.1
        | cons c rest =>
            rw [read_of_digit (hds.2 c List.mem_cons_self)]
            exact readNatural_eq_ok_iff.mpr ⟨hds, rfl, hle⟩

theorem read_minus_of_unsigned (hb : r.bottom = none) (ds : List Char) :
    r.read ('-' :: ds) = .error .badDigit := by
  cases ds with
  | nil => rw [read.eq_def]; simp only [hb]
  | cons c rest => rw [read.eq_def]; simp only [hb]

theorem read_minus_eq_ok_iff {b : Nat} {ds : List Char} (hb : r.bottom = some b) :
    r.read ('-' :: ds) = .ok i ↔
      IsDigits ds ∧ i = -(Nat.ofDigitChars 10 ds 0 : Int) ∧ Nat.ofDigitChars 10 ds 0 ≤ b := by
  cases ds with
  | nil =>
      have hread : r.read ['-'] = .error .badDigit := by
        rw [read.eq_def]
        simp only [hb]
      rw [hread]
      exact ⟨nofun, fun h => absurd rfl h.1.1⟩
  | cons c rest =>
      have hread : r.read ('-' :: c :: rest) =
          (readDigits b .tooSmall 0 (c :: rest)).map fun n => -Int.ofNat n := by
        rw [read.eq_def]
        simp only [hb]
      rw [hread, map_readDigits_eq_ok_iff]
      exact ⟨fun h => ⟨⟨nofun, h.1⟩, h.2⟩, fun h => ⟨h.1.2, h.2⟩⟩

theorem read?_eq_some_iff : r.read? s = some i ↔ r.read s = .ok i := by
  rw [read?]
  cases r.read s with
  | error fault => exact ⟨nofun, nofun⟩
  | ok j => exact ⟨fun h => congrArg _ (Option.some.inj h), fun h => congrArg _ (Except.ok.inj h)⟩

/-- **Natural numbers are read** from their texts, up to the top of the range. -/
theorem read?_eq_some_iff_of_unsigned (hb : r.bottom = none) :
    r.read? s = some i ↔ ∃ n : Nat, DenotesNatural s n ∧ i = n ∧ n ≤ r.top := by
  rw [read?_eq_some_iff]
  rcases starts_with_minus_or s with ⟨ds, rfl⟩ | hs
  · rw [read_minus_of_unsigned hb]
    refine ⟨nofun, ?_⟩
    rintro ⟨n, hn, -⟩
    exact absurd rfl (hn.head_ne_minus '-' rfl)
  · exact read_eq_ok_iff_of_head hs

/-- **Integers are read** from their texts, if they are in the range. -/
theorem read?_eq_some_iff_of_signed {b : Nat} (hb : r.bottom = some b) :
    r.read? s = some i ↔ DenotesInteger s i ∧ r.Contains i := by
  rw [read?_eq_some_iff, Contains, hb, Option.getD_some]
  rcases starts_with_minus_or s with ⟨ds, rfl⟩ | hs
  · rw [read_minus_eq_ok_iff hb]
    constructor
    · rintro ⟨hds, rfl, hle⟩
      exact ⟨.minus hds, by omega, by omega⟩
    · rintro ⟨hi, hlow, hhigh⟩
      cases hi with
      | natural hn => exact absurd rfl (hn.head_ne_minus '-' rfl)
      | minus hds => exact ⟨hds, rfl, by omega⟩
  · rw [read_eq_ok_iff_of_head hs]
    constructor
    · rintro ⟨n, hn, rfl, hle⟩
      exact ⟨.natural hn, by omega, by omega⟩
    · rintro ⟨hi, hlow, hhigh⟩
      cases hi with
      | natural hn => exact ⟨_, hn, rfl, by omega⟩
      | minus hds => exact absurd rfl (hs '-' rfl)

end IntegerRange

end Decimal

end HiddenTarget
