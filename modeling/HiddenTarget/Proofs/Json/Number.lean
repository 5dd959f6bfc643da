import HiddenTarget.Json.Printer
import HiddenTarget.Json.Reader
import HiddenTarget.Proofs.Decimal.Grammar

/-!
# Numbers in JSON text

A number is read up to the first character that cannot belong to it. `EndsNumber` says of
the rest of a text that it starts with no such character; in front of it a number is read as
if it stood alone, `readNumber_append`. An integer always reads back, `readNumber_integer`.
-/

namespace HiddenTarget

namespace Json

open Decimal (IsDigits digit? isDigits_natural natural)

/-! ## Where a number ends -/

/-- The text does not start with a character that could go on with a number. -/
def EndsNumber (s : List Char) : Prop :=
  ∀ c ∈ s.head?, digit? c = none ∧ c ≠ '.' ∧ c ≠ 'e' ∧ c ≠ 'E'

variable {s r w rest : List Char}

theorem readDigits1_append {ds : List Char} (h : readDigits1 s = .ok (ds, r))
    (hrest : EndsNumber rest) : readDigits1 (s ++ rest) = .ok (ds, r ++ rest) := by
  rw [readDigits1] at h ⊢
  rcases hspan : Decimal.spanDigits s with ⟨_ | ⟨d, more⟩, tail⟩
  · rw [hspan] at h
    cases tail with
    | nil => cases h
    | cons c tail => cases h
  · rw [hspan] at h
    obtain ⟨rfl, rfl⟩ := Prod.mk.inj (Except.ok.inj h)
    rw [Decimal.spanDigits_append hspan fun c hc => (hrest c hc).1]

theorem readDigits1_of_isDigits (hw : IsDigits w) (hrest : ∀ c ∈ rest.head?, digit? c = none) :
    readDigits1 (w ++ rest) = .ok (w, rest) := by
  obtain ⟨c, tail, rfl⟩ := List.exists_cons_of_ne_nil hw.1
  rw [readDigits1, Decimal.spanDigits_of_isDigit hw.2 hrest]

theorem readDigits1_self (hw : IsDigits w) : readDigits1 w = .ok (w, []) := by
  have hread := readDigits1_of_isDigits hw
    (show ∀ c ∈ ([] : List Char).head?, digit? c = none by simp)
  rwa [List.append_nil] at hread

theorem readWhole_zero (h : ∀ c ∈ s.head?, digit? c = none) :
    readWhole ('0' :: s) = .ok (['0'], s) := by
  cases s with
  | nil => rfl
  | cons c s => simp [readWhole, h c rfl]

theorem readWhole_of_head (h : s.head? ≠ some '0') : readWhole s = readDigits1 s := by
  cases s with
  | nil => rfl
  | cons c s =>
      rw [readWhole]
      · simp
      · rintro _ ⟨⟩
        exact h rfl

/-- What the whole part of a number can be: a zero that stands alone, or digits of which the
first one is no zero. -/
theorem readWhole_cases {whole : List Char} (h : readWhole s = .ok (whole, r)) :
    (s = '0' :: r ∧ whole = ['0'] ∧ ∀ c ∈ r.head?, digit? c = none) ∨
      (s.head? ≠ some '0' ∧ readDigits1 s = .ok (whole, r)) := by
  cases s with
  | nil => cases h
  | cons c tail =>
      by_cases hc : c = '0'
      · subst hc
        refine .inl ?_
        cases tail with
        | nil =>
            obtain ⟨rfl, rfl⟩ := Prod.mk.inj (Except.ok.inj h)
            exact ⟨rfl, rfl, by simp⟩
        | cons d tail =>
            rw [readWhole] at h
            split at h
            · cases h
            · next hd =>
                obtain ⟨rfl, rfl⟩ := Prod.mk.inj (Except.ok.inj h)
                refine ⟨rfl, rfl, ?_⟩
                rintro _ ⟨⟩
                simpa using hd
      · have hhead : (c :: tail).head? ≠ some '0' := by simpa using hc
        exact .inr ⟨hhead, readWhole_of_head hhead ▸ h⟩

theorem readWhole_append {whole : List Char} (h : readWhole s = .ok (whole, r))
    (hrest : EndsNumber rest) : readWhole (s ++ rest) = .ok (whole, r ++ rest) := by
  obtain ⟨rfl, rfl, hr⟩ | ⟨hhead, hdigits⟩ := readWhole_cases h
  · -- No digit follows the zero, be it in what was left or in what has been added.
    have hnone : ∀ c ∈ (r ++ rest).head?, digit? c = none := by
      cases r with
      | nil => exact fun c hc => (hrest c hc).1
      | cons c r => exact hr
    exact readWhole_zero hnone
  · have hfront : (s ++ rest).head? ≠ some '0' := by
      cases s with
      | nil => cases hdigits
      | cons c s => exact hhead
    rw [readWhole_of_head hfront]
    exact readDigits1_append hdigits hrest

theorem readWhole_of_isDigits (hw : IsDigits w) (hzero : w = ['0'] ∨ w.head? ≠ some '0')
    (hrest : ∀ c ∈ rest.head?, digit? c = none) : readWhole (w ++ rest) = .ok (w, rest) := by
  rcases hzero with rfl | hzero
  · exact readWhole_zero hrest
  · have hfront : (w ++ rest).head? ≠ some '0' := by
      obtain ⟨c, tail, rfl⟩ := List.exists_cons_of_ne_nil hw.1
      exact hzero
    rw [readWhole_of_head hfront]
    exact readDigits1_of_isDigits hw hrest

theorem readWhole_natural (n : Nat) : readWhole (natural n) = .ok (natural n, []) := by
  rcases Nat.eq_zero_or_pos n with rfl | hn
  · rfl
  · rw [readWhole_of_head (Decimal.head?_natural hn)]
    exact readDigits1_self (isDigits_natural n)

theorem readFraction_cases {fraction : Option (List Char)}
    (h : readFraction s = .ok (fraction, r)) :
    (∃ tail ds, s = '.' :: tail ∧ fraction = some ds ∧ readDigits1 tail = .ok (ds, r)) ∨
      (s.head? ≠ some '.' ∧ fraction = none ∧ r = s) := by
  cases s with
  | nil =>
      obtain ⟨rfl, rfl⟩ := Prod.mk.inj (Except.ok.inj h)
      exact .inr ⟨by simp, rfl, rfl⟩
  | cons c tail =>
      by_cases hc : c = '.'
      · subst hc
        rcases hdigits : readDigits1 tail with _ | ⟨ds, r'⟩
        · rw [readFraction, hdigits] at h
          cases h
        · rw [readFraction, hdigits] at h
          obtain ⟨rfl, rfl⟩ := Prod.mk.inj (Except.ok.inj h)
          exact .inl ⟨tail, ds, rfl, rfl, hdigits⟩
      · rw [readFraction] at h
        · obtain ⟨rfl, rfl⟩ := Prod.mk.inj (Except.ok.inj h)
          exact .inr ⟨by simpa using hc, rfl, rfl⟩
        · rintro _ ⟨⟩
          exact hc rfl

theorem readFraction_of_head (h : s.head? ≠ some '.') : readFraction s = .ok (none, s) := by
  rw [readFraction]
  rintro _ rfl
  exact h rfl

theorem readFraction_append {fraction : Option (List Char)}
    (h : readFraction s = .ok (fraction, r)) (hrest : EndsNumber rest) :
    readFraction (s ++ rest) = .ok (fraction, r ++ rest) := by
  obtain ⟨tail, ds, rfl, rfl, hdigits⟩ | ⟨hhead, rfl, rfl⟩ := readFraction_cases h
  · rw [List.cons_append, readFraction, readDigits1_append hdigits hrest]
    rfl
  · refine readFraction_of_head ?_
    cases r with
    | nil => exact fun hpoint => (hrest '.' hpoint).2.1 rfl
    | cons c r => exact hhead

def exponentSign : List Char → Bool × List Char
  | '+' :: r => (false, r)
  | '-' :: r => (true, r)
  | r => (false, r)

theorem exponentSign_append (hs : s ≠ []) (rest : List Char) :
    exponentSign (s ++ rest) = ((exponentSign s).1, (exponentSign s).2 ++ rest) := by
  cases s with
  | nil => exact absurd rfl hs
  | cons c tail =>
      by_cases hplus : c = '+'
      · subst hplus
        rfl
      · by_cases hminus : c = '-'
        · subst hminus
          rfl
        · simp [exponentSign, hplus, hminus]

def exponentValue (negative : Bool) (ds : List Char) : Int :=
  if negative then -(Decimal.digitsValue ds : Int) else Decimal.digitsValue ds

theorem readExponent_cons (c : Char) (tail : List Char) :
    readExponent (c :: tail) =
      if c = 'e' ∨ c = 'E' then
        (readDigits1 (exponentSign tail).2).map fun (ds, r) =>
          (some (exponentValue (exponentSign tail).1 ds), r)
      else .ok (none, c :: tail) := by
  have hdo : readExponent (c :: tail) =
      if c = 'e' ∨ c = 'E' then do
        let (ds, r) ← readDigits1 (exponentSign tail).2
        return (some (exponentValue (exponentSign tail).1 ds), r)
      else .ok (none, c :: tail) := rfl
  rw [hdo]
  cases readDigits1 (exponentSign tail).2 with
  | error fault => rfl
  | ok p => rfl

theorem readExponent_of_head (h : ∀ c ∈ s.head?, c ≠ 'e' ∧ c ≠ 'E') :
    readExponent s = .ok (none, s) := by
  cases s with
  | nil => rfl
  | cons c tail =>
      obtain ⟨he, hE⟩ := h c rfl
      rw [readExponent_cons, if_neg (by simp [he, hE])]

theorem readExponent_cases {exponent : Option Int} (h : readExponent s = .ok (exponent, r)) :
    (∃ c tail ds, s = c :: tail ∧ (c = 'e' ∨ c = 'E') ∧
        readDigits1 (exponentSign tail).2 = .ok (ds, r) ∧
        exponent = some (exponentValue (exponentSign tail).1 ds)) ∨
      ((∀ c ∈ s.head?, c ≠ 'e' ∧ c ≠ 'E') ∧ exponent = none ∧ r = s) := by
  cases s with
  | nil =>
      obtain ⟨rfl, rfl⟩ := Prod.mk.inj (Except.ok.inj h)
      exact .inr ⟨by simp, rfl, rfl⟩
  | cons c tail =>
      rw [readExponent_cons] at h
      split at h
      · next hc =>
          rcases hdigits : readDigits1 (exponentSign tail).2 with _ | ⟨ds, r'⟩
          · rw [hdigits] at h
            cases h
          · rw [hdigits] at h
            obtain ⟨rfl, rfl⟩ := Prod.mk.inj (Except.ok.inj h)
            exact .inl ⟨c, tail, ds, rfl, hc, hdigits, rfl⟩
      · next hc =>
          obtain ⟨rfl, rfl⟩ := Prod.mk.inj (Except.ok.inj h)
          refine .inr ⟨?_, rfl, rfl⟩
          rintro _ ⟨⟩
          exact not_or.mp hc

theorem readExponent_append {exponent : Option Int} (h : readExponent s = .ok (exponent, r))
    (hrest : EndsNumber rest) : readExponent (s ++ rest) = .ok (exponent, r ++ rest) := by
  obtain ⟨c, tail, ds, rfl, hc, hdigits, rfl⟩ | ⟨hhead, rfl, rfl⟩ := readExponent_cases h
  · have hne : tail ≠ [] := by
      rintro rfl
      cases hdigits
    rw [List.cons_append, readExponent_cons, if_pos hc, exponentSign_append hne,
      readDigits1_append hdigits hrest]
    rfl
  · refine readExponent_of_head ?_
    cases r with
    | nil => exact fun c hc => (hrest c hc).2.2
    | cons c r => exact hhead

/-! ## Numbers -/

def numberSign : List Char → Bool × List Char
  | '-' :: r => (true, r)
  | r => (false, r)

theorem numberSign_append (hs : s ≠ []) (rest : List Char) :
    numberSign (s ++ rest) = ((numberSign s).1, (numberSign s).2 ++ rest) := by
  cases s with
  | nil => exact absurd rfl hs
  | cons c tail =>
      by_cases hminus : c = '-'
      · subst hminus
        rfl
      · simp [numberSign, hminus]

theorem readNumber_eq_ok_iff {l : Decimal.Literal} :
    readNumber s = .ok (l, r) ↔
      ∃ whole r₁ fraction r₂ exponent, readWhole (numberSign s).2 = .ok (whole, r₁) ∧
        readFraction r₁ = .ok (fraction, r₂) ∧ readExponent r₂ = .ok (exponent, r) ∧
        l = ⟨(numberSign s).1, whole, fraction, exponent⟩ := by
  have hdo : readNumber s =
      readWhole (numberSign s).2 >>= fun whole =>
        readFraction whole.2 >>= fun fraction =>
          readExponent fraction.2 >>= fun exponent =>
            pure (⟨(numberSign s).1, whole.1, fraction.1, exponent.1⟩, exponent.2) := rfl
  constructor
  · intro h
    rw [hdo] at h
    rcases hwhole : readWhole (numberSign s).2 with _ | ⟨whole, r₁⟩
    · rw [hwhole] at h
      cases h
    rcases hfraction : readFraction r₁ with _ | ⟨fraction, r₂⟩
    · simp only [hwhole, hfraction, bind, Except.bind] at h
      cases h
    rcases hexponent : readExponent r₂ with _ | ⟨exponent, r₃⟩
    · simp only [hwhole, hfraction, hexponent, bind, Except.bind] at h
      cases h
    simp only [hwhole, hfraction, hexponent, bind, Except.bind] at h
    obtain ⟨rfl, rfl⟩ := Prod.mk.inj (Except.ok.inj h)
    exact ⟨whole, r₁, fraction, r₂, exponent, rfl, hfraction, hexponent, rfl⟩
  · rintro ⟨whole, r₁, fraction, r₂, exponent, hwhole, hfraction, hexponent, rfl⟩
    rw [hdo]
    simp only [hwhole, hfraction, hexponent, bind, Except.bind]
    rfl

/-- **A number is read as if it stood alone**, if what follows cannot go on with it. -/
theorem readNumber_append {l : Decimal.Literal} (h : readNumber s = .ok (l, r))
    (hrest : EndsNumber rest) : readNumber (s ++ rest) = .ok (l, r ++ rest) := by
  obtain ⟨whole, r₁, fraction, r₂, exponent, hwhole, hfraction, hexponent, rfl⟩ :=
    readNumber_eq_ok_iff.mp h
  have hne : s ≠ [] := by
    rintro rfl
    cases hwhole
  rw [readNumber_eq_ok_iff, numberSign_append hne]
  exact ⟨whole, r₁ ++ rest, fraction, r₂ ++ rest, exponent, readWhole_append hwhole hrest,
    readFraction_append hfraction hrest, readExponent_append hexponent hrest, rfl⟩

/-- A number is read part by part, behind a sign or without one. -/
theorem readNumber_of_parts {c : Char} (hc : c.isDigit = true) (negative : Bool)
    {tail whole r r' : List Char} {fraction : Option (List Char)} {exponent : Option Int}
    (hwhole : readWhole (c :: tail) = .ok (whole, r))
    (hfraction : readFraction r = .ok (fraction, r'))
    (hexponent : readExponent r' = .ok (exponent, [])) :
    readNumber ((if negative then ['-'] else []) ++ c :: tail) =
      .ok (⟨negative, whole, fraction, exponent⟩, []) := by
  have hminus : c ≠ '-' := by
    rintro rfl
    cases hc
  have hsign : numberSign ((if negative then ['-'] else []) ++ c :: tail) =
      (negative, c :: tail) := by
    cases negative with
    | true => rfl
    | false => simp [numberSign, hminus]
  rw [readNumber_eq_ok_iff, hsign]
  exact ⟨whole, r, fraction, r', exponent, hwhole, hfraction, hexponent, rfl⟩

theorem startsNumber_of_readNumber {l : Decimal.Literal} (h : readNumber s = .ok (l, r)) :
    ∃ c tail, s = c :: tail ∧ startsNumber c = true := by
  obtain ⟨whole, r₁, -, -, -, hwhole, -⟩ := readNumber_eq_ok_iff.mp h
  cases s with
  | nil => cases hwhole
  | cons c tail =>
      refine ⟨c, tail, rfl, ?_⟩
      by_cases hminus : c = '-'
      · simp [startsNumber, hminus]
      · have hsign : numberSign (c :: tail) = (false, c :: tail) := by simp [numberSign, hminus]
        rw [hsign] at hwhole
        have hdigit : (digit? c).isSome = true := by
          obtain ⟨hzero, -⟩ | ⟨-, hdigits⟩ := readWhole_cases hwhole
          · rw [(List.cons.inj hzero).1]
            rfl
          · by_contra hnone
            have hspan : Decimal.spanDigits (c :: tail) = ([], c :: tail) := by
              simp [Decimal.spanDigits, List.span_eq_takeWhile_dropWhile, hnone]
            rw [readDigits1, hspan] at hdigits
            cases hdigits
        simp [startsNumber, hdigit]

/-! ## Integers -/

theorem readNumber_natural (negative : Bool) (n : Nat) :
    readNumber ((if negative then ['-'] else []) ++ natural n) =
      .ok (⟨negative, natural n, none, none⟩, []) := by
  have hwhole := readWhole_natural n
  have hdigits := isDigits_natural n
  obtain ⟨c, tail, hn⟩ := List.exists_cons_of_ne_nil hdigits.1
  rw [hn] at hwhole hdigits ⊢
  exact readNumber_of_parts (hdigits.2 c List.mem_cons_self) negative hwhole rfl rfl

theorem readNumber_integer (i : Int) :
    ∃ l, readNumber (Decimal.integer i) = .ok (l, []) ∧ ofLiteral? l = some (integer i) := by
  cases i with
  | ofNat n =>
      refine ⟨_, readNumber_natural false n, ?_⟩
      simp [ofLiteral?, Decimal.Literal.isWhole, Decimal.digitsValue_natural]
  | negSucc n =>
      refine ⟨_, readNumber_natural true (n + 1), ?_⟩
      simp [ofLiteral?, Decimal.Literal.isWhole, Decimal.digitsValue_natural, Int.negSucc_eq]

end Json

end HiddenTarget
