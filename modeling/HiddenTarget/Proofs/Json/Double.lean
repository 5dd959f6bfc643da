import HiddenTarget.Proofs.Decimal.Scaling
import HiddenTarget.Proofs.Json.Number

/-!
# The text of a double

The text of a finite double is a number, in positional or in scientific notation, and there is a
double that it is read as: `readNumber_render`. That may be another one, as `Literal.scaled?`
rounds three times. Only for the three largest doubles the roundings come too close to infinity
for `Literal.isSome_scaled?_of_le`; their texts are read one by one.
-/

namespace HiddenTarget

namespace Decimal.Layout

variable {ds : List Char}

/-- A number written with a point: digits on both sides of it, and no zero in front of other
digits. -/
structure Pointed (text whole fraction : List Char) : Prop where
  text_eq : text = whole ++ '.' :: fraction
  wholeDigits : IsDigits whole
  fractionDigits : IsDigits fraction
  zero : whole = ['0'] ∨ whole.head? ≠ some '0'

theorem isDigits_zero : IsDigits ['0'] :=
  ⟨List.cons_ne_nil _ _, List.forall_mem_singleton.mpr rfl⟩

theorem isDigit_of_mem_replicate {n : Nat} : ∀ c ∈ List.replicate n '0', c.isDigit = true := by
  intro c hc
  rw [List.eq_of_mem_replicate hc]
  rfl

theorem exists_pointed (hds : IsDigits ds) (hzero : ds.head? ≠ some '0') {n : Int} (hn : n ≤ 16) :
    ∃ whole fraction, Pointed (pointed true ds n) whole fraction ∧ whole.length ≤ 16 := by
  obtain ⟨c, rest, rfl⟩ := List.exists_cons_of_ne_nil hds.1
  rw [pointed]
  split
  · next hle =>
      refine ⟨c :: rest ++ List.replicate (n - (c :: rest).length).toNat '0', ['0'], ?_, ?_⟩
      · refine ⟨rfl, ⟨by simp, ?_⟩, isDigits_zero, .inr hzero⟩
        intro d hd
        rcases List.mem_append.mp hd with hd | hd
        · exact hds.2 d hd
        · exact isDigit_of_mem_replicate d hd
      · rw [List.length_append, List.length_replicate]
        omega
  · next hle =>
      split
      · next hpos =>
          obtain ⟨k, hk⟩ : ∃ k : Nat, n.toNat = k + 1 := ⟨n.toNat - 1, by omega⟩
          rw [hk]
          refine ⟨(c :: rest).take (k + 1), (c :: rest).drop (k + 1), ?_, ?_⟩
          · refine ⟨rfl, ⟨by simp, ?_⟩, ⟨?_, ?_⟩, .inr hzero⟩
            · exact fun d hd => hds.2 d (List.mem_of_mem_take hd)
            · rw [Ne, List.drop_eq_nil_iff]
              omega
            · exact fun d hd => hds.2 d (List.mem_of_mem_drop hd)
          · rw [List.length_take]
            omega
      · refine ⟨['0'], List.replicate (-n).toNat '0' ++ c :: rest, ?_, by decide⟩
        refine ⟨rfl, isDigits_zero, ⟨by simp, ?_⟩, .inl rfl⟩
        intro d hd
        rcases List.mem_append.mp hd with hd | hd
        · exact isDigit_of_mem_replicate d hd
        · exact hds.2 d hd

/-- A number of some digits is as large as the power of ten with as many. -/
theorem pow_length_le {n : Nat} (hn : 0 < n) {c : Char} {rest : List Char}
    (h : natural n = c :: rest) : 10 ^ rest.length ≤ n := by
  rcases Nat.eq_zero_or_pos rest.length with hzero | hpos
  · rwa [hzero]
  · by_contra hlt
    have hlength := (Nat.length_toDigits_le_iff (by decide) hpos).mpr (Nat.lt_of_not_le hlt)
    rw [← natural, h, List.length_cons] at hlength
    omega

end Decimal.Layout

namespace Json

open Decimal (IsDigits digit? natural)

theorem head?_ne_digit {c : Char} (hc : c.isDigit = false) (s : List Char) :
    ∀ d ∈ (c :: s).head?, digit? d = none := by
  rintro _ ⟨⟩
  exact Decimal.digit?_of_not_isDigit hc

theorem readNumber_pointed {text whole fraction : List Char}
    (h : Decimal.Layout.Pointed text whole fraction) (negative : Bool) :
    readNumber ((if negative then ['-'] else []) ++ text) =
      .ok (⟨negative, whole, some fraction, none⟩, []) := by
  obtain ⟨rfl, hwhole, hfraction, hzero⟩ := h
  have hread := readWhole_of_isDigits hwhole hzero (head?_ne_digit (c := '.') rfl fraction)
  obtain ⟨c, tail, rfl⟩ := List.exists_cons_of_ne_nil hwhole.1
  have hpoint : readFraction ('.' :: fraction) = .ok (some fraction, []) := by
    rw [readFraction, readDigits1_self hfraction]
    rfl
  exact readNumber_of_parts (hwhole.2 c List.mem_cons_self) negative hread hpoint rfl

theorem readExponent_signed (e : Int) :
    readExponent ('e' :: (if e < 0 then '-' else '+') :: natural e.natAbs) = .ok (some e, []) := by
  have hdigits := readDigits1_self (Decimal.isDigits_natural e.natAbs)
  rw [readExponent_cons, if_pos (.inl rfl)]
  split
  · next hneg =>
      have hsign : exponentSign ('-' :: natural e.natAbs) = (true, natural e.natAbs) := rfl
      have hvalue : exponentValue true (natural e.natAbs) = e := by
        rw [exponentValue, if_pos rfl, Decimal.digitsValue_natural]
        omega
      rw [hsign, hdigits]
      exact congrArg (fun x => Except.ok (some x, ([] : List Char))) hvalue
  · next hneg =>
      have hsign : exponentSign ('+' :: natural e.natAbs) = (false, natural e.natAbs) := rfl
      have hvalue : exponentValue false (natural e.natAbs) = e := by
        rw [exponentValue, if_neg (by decide), Decimal.digitsValue_natural]
        omega
      rw [hsign, hdigits]
      exact congrArg (fun x => Except.ok (some x, ([] : List Char))) hvalue

theorem readNumber_scientific {c : Char} {ds : List Char} (hds : IsDigits (c :: ds))
    (hzero : c ≠ '0') (e : Int) (negative : Bool) :
    ∃ fraction : Option (List Char), fraction.getD [] = ds ∧
      readNumber ((if negative then ['-'] else []) ++ Decimal.Layout.scientific (c :: ds) e) =
        .ok (⟨negative, [c], fraction, some e⟩, []) := by
  have hc := hds.2 c List.mem_cons_self
  have hfirst : IsDigits [c] := ⟨List.cons_ne_nil _ _, List.forall_mem_singleton.mpr hc⟩
  have hwhole : ∀ d rest, d.isDigit = false → readWhole (c :: d :: rest) = .ok ([c], d :: rest) :=
    fun d rest hd => readWhole_of_isDigits hfirst (.inr (by simpa using hzero))
      (head?_ne_digit hd rest)
  cases ds with
  | nil =>
      refine ⟨none, rfl, readNumber_of_parts hc negative (hwhole 'e' _ rfl) ?_
        (readExponent_signed e)⟩
      exact readFraction_of_head (by simp)
  | cons d ds =>
      have hmore : IsDigits (d :: ds) :=
        ⟨List.cons_ne_nil _ _, fun x hx => hds.2 x (List.mem_cons_of_mem c hx)⟩
      have hdigits := readDigits1_of_isDigits hmore (head?_ne_digit (c := 'e') rfl
        ((if e < 0 then '-' else '+') :: natural e.natAbs))
      refine ⟨some (d :: ds), rfl, readNumber_of_parts hc negative (hwhole '.' _ rfl) ?_
        (readExponent_signed e)⟩
      rw [readFraction]
      exact (congrArg (· >>= _) hdigits).trans rfl

/-! ## Doubles -/

/-- The text of a double without sign can be read as the number of a literal that has a scaled
double. -/
def ReadsAsDouble (text : List Char) : Prop :=
  ∀ negative : Bool, ∃ l : Decimal.Literal,
    readNumber ((if negative then ['-'] else []) ++ text) = .ok (l, []) ∧ l.isWhole = false ∧
      l.scaled?.isSome = true

open Decimal (infinityBits shortest)
open Decimal.Layout (pointed scientific)

theorem readsAsDouble_pointed {ds : List Char} (hds : IsDigits ds) (hzero : ds.head? ≠ some '0')
    {n : Int} (hn : n ≤ 16) : ReadsAsDouble (pointed true ds n) := by
  intro negative
  obtain ⟨whole, fraction, hpointed, hlength⟩ := Decimal.Layout.exists_pointed hds hzero hn
  exact ⟨_, readNumber_pointed hpointed negative, rfl, Decimal.Literal.isSome_scaled?_of_length_le
    hpointed.wholeDigits.2 hpointed.fractionDigits hlength⟩

theorem readsAsDouble_zero : ReadsAsDouble ['0', '.', '0'] := by
  intro negative
  have hzero : Decimal.Layout.Pointed ['0', '.', '0'] ['0'] ['0'] :=
    ⟨rfl, Decimal.Layout.isDigits_zero, Decimal.Layout.isDigits_zero, .inl rfl⟩
  exact ⟨_, readNumber_pointed hzero negative, rfl, Decimal.Literal.isSome_scaled?_of_length_le
    hzero.wholeDigits.2 hzero.fractionDigits (by decide)⟩

/-- Of the three largest doubles the texts are read one by one. -/
theorem readsAsDouble_largest {j : Nat} (hj : j < 3) :
    ReadsAsDouble (Decimal.Layout.json.finite (infinityBits - 1 - j)) := by
  have hcheck : ∀ j < 3, ∀ negative : Bool,
      ((readNumber ((if negative then ['-'] else []) ++
        Decimal.Layout.json.finite (infinityBits - 1 - j))).toOption.any fun p =>
          p.2 = [] && (!p.1.isWhole && p.1.scaled?.isSome)) = true := by
    decide +kernel
  intro negative
  have hany := hcheck j hj negative
  cases hread : readNumber ((if negative then ['-'] else []) ++
      Decimal.Layout.json.finite (infinityBits - 1 - j)) with
  | error fault =>
      rw [hread] at hany
      cases hany
  | ok p =>
      obtain ⟨l, rest⟩ := p
      rw [hread] at hany
      simp only [Except.toOption, Option.any_some, Bool.and_eq_true, decide_eq_true_eq,
        Bool.not_eq_true'] at hany
      exact ⟨l, congrArg (fun r => Except.ok (l, r)) hany.1, hany.2⟩

theorem readsAsDouble_digits {d : Decimal.Digits} (hpos : 0 < d.coefficient)
    (hlow : -1074 ≤ d.exponent) (hle : d.value ≤ Decimal.fourthEnd) :
    ReadsAsDouble (Decimal.Layout.json.digits d) := by
  obtain ⟨n, k⟩ := d
  dsimp only at hpos hlow
  obtain ⟨c, rest, hds⟩ := List.exists_cons_of_ne_nil (Decimal.natural_ne_nil n)
  have hdigits : IsDigits (c :: rest) := hds ▸ Decimal.isDigits_natural n
  have hzero : c ≠ '0' := by
    have hhead := Decimal.head?_natural hpos
    rw [hds] at hhead
    simpa using hhead
  have hvalue : Nat.ofDigitChars 10 (c :: rest) 0 = n := by
    rw [← hds, natural, Nat.ofDigitChars_ten_toDigits]
  have he : k + ((c :: rest).length : Int) - 1 = k + rest.length := by
    rw [List.length_cons]
    omega
  have hhigh : k + rest.length < 309 :=
    Decimal.Digits.exponent_lt (d := ⟨n, k⟩) (Decimal.Layout.pow_length_le hpos hds) hle
  simp only [Decimal.Layout.digits, Decimal.Layout.json, hds, he]
  split
  · next hrange => exact readsAsDouble_pointed hdigits (by simpa using hzero) (by omega)
  · intro negative
    obtain ⟨fraction, hfraction, hread⟩ :=
      readNumber_scientific hdigits hzero (k + rest.length) negative
    refine ⟨_, hread, by simp [Decimal.Literal.isWhole], ?_⟩
    refine Decimal.Literal.isSome_scaled?_of_le (hdigits.2 c List.mem_cons_self) hzero
      (fun d hd => hdigits.2 d (List.mem_cons_of_mem c hd)) hfraction (by omega) (by omega) ?_
    rw [hvalue, add_sub_cancel_right]
    exact hle

theorem readsAsDouble_finite {bits : Nat} (h : bits < infinityBits) :
    ReadsAsDouble (Decimal.Layout.json.finite bits) := by
  rcases Nat.eq_zero_or_pos bits with rfl | hpos
  · exact readsAsDouble_zero
  rcases Nat.lt_or_ge (bits + 3) infinityBits with hsmall | hlarge
  · have hends := Decimal.withinEnds_shortest hpos .toEven
    rw [Decimal.Layout.finite, if_neg hpos.ne']
    exact readsAsDouble_digits hends.pos hends.exponent
      (hends.le.trans (Decimal.upperEnd_le hsmall))
  · have hlast := readsAsDouble_largest (j := infinityBits - 1 - bits) (by omega)
    rwa [show infinityBits - 1 - (infinityBits - 1 - bits) = bits by omega] at hlast

/-- **The text of a finite double is a number**, and it is read as a double. -/
theorem readNumber_render {x : Float} (h : Decimal.isFinite x = true) :
    ∃ l y, readNumber (chars (.real x)) = .ok (l, []) ∧ ofLiteral? l = some (.real y) := by
  have hbits : Decimal.unsignedBits x < infinityBits := of_decide_eq_true h
  obtain ⟨l, hread, hwhole, hscaled⟩ := readsAsDouble_finite hbits (Decimal.isNegative x)
  obtain ⟨y, hy⟩ := Option.isSome_iff_exists.mp hscaled
  refine ⟨l, y, ?_, ?_⟩
  · simp only [chars, Decimal.Layout.render, if_neg hbits.not_gt, if_neg hbits.ne]
    exact hread
  · rw [ofLiteral?, hwhole, hy]
    rfl

end Json

end HiddenTarget
