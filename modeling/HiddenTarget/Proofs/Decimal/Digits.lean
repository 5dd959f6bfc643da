import HiddenTarget.Decimal.Literal
import Mathlib.Data.List.TakeDrop
import Mathlib.Data.List.TakeWhile

/-!
# Digits of a number

A number is written with digits only, none of them a zero in front of others, and they have its
value: `digitsValue_natural`. The digits at the front of a text are found again behind more of
it, `spanDigits_append`.
-/

namespace HiddenTarget

namespace Decimal

theorem digit?_of_isDigit {c : Char} (h : c.isDigit = true) :
    digit? c = some (c.toNat - '0'.toNat) := by
  rw [Char.isDigit, Bool.and_eq_true, decide_eq_true_eq, decide_eq_true_eq] at h
  exact if_pos h

theorem isDigit_of_mem_natural {c : Char} {n : Nat} (h : c ∈ natural n) : c.isDigit = true :=
  Nat.isDigit_of_mem_toDigits (by decide) (by decide) h

theorem natural_ne_nil (n : Nat) : natural n ≠ [] := Nat.toDigits_ne_nil

theorem digitsValue_natural (n : Nat) : digitsValue (natural n) = n := by
  have hdigits : ∀ ds : List Char, (∀ c ∈ ds, c.isDigit = true) → ∀ m,
      ds.foldl (fun n c => n * 10 + (digit? c).getD 0) m = Nat.ofDigitChars 10 ds m := by
    intro ds hds
    induction ds with
    | nil => exact fun m => rfl
    | cons c rest ih =>
        intro m
        have hrest := ih fun d hd => hds d (List.mem_cons_of_mem c hd)
        rw [List.foldl_cons, hrest, digit?_of_isDigit (hds c List.mem_cons_self), Nat.mul_comm]
        rfl
  rw [digitsValue, hdigits _ (fun c hc => isDigit_of_mem_natural hc)]
  exact Nat.ofDigitChars_ten_toDigits

theorem natural_eq_cons_zero {n : Nat} {rest : List Char} (h : natural n = '0' :: rest) :
    rest = [] := by
  induction n using Nat.strongRecOn generalizing rest with
  | ind n ih =>
      rw [natural, Nat.toDigits_eq_if (by decide)] at h
      split at h
      · exact (List.cons.inj h).2.symm
      · next hten =>
          rcases List.append_eq_cons_iff.mp h with ⟨hnil, -⟩ | ⟨more, hmore, rfl⟩
          · exact absurd hnil Nat.toDigits_ne_nil
          · -- The digits in front are those of a smaller number, which is not zero.
            have hfront : natural (n / 10) = ['0'] := by
              exact hmore.trans (congrArg _ (ih (n / 10) (by omega) hmore))
            have hvalue := digitsValue_natural (n / 10)
            rw [hfront] at hvalue
            have hzero : digitsValue ['0'] = 0 := by decide
            omega

theorem head?_natural {n : Nat} (h : 0 < n) : (natural n).head? ≠ some '0' := by
  intro hhead
  obtain ⟨rest, hrest⟩ := List.head?_eq_some_iff.mp hhead
  have hvalue := digitsValue_natural n
  rw [hrest, natural_eq_cons_zero hrest] at hvalue
  have hzero : digitsValue ['0'] = 0 := by decide
  omega

theorem spanDigits_append {s ds r rest : List Char} (h : spanDigits s = (ds, r))
    (hrest : ∀ c ∈ rest.head?, digit? c = none) : spanDigits (s ++ rest) = (ds, r ++ rest) := by
  simp only [spanDigits, List.span_eq_takeWhile_dropWhile, Prod.mk.injEq] at h ⊢
  obtain ⟨rfl, rfl⟩ := h
  induction s with
  | nil =>
      cases rest with
      | nil => exact ⟨rfl, rfl⟩
      | cons c rest => simp [hrest c rfl]
  | cons c s ih =>
      by_cases hc : (digit? c).isSome = true
      · simpa [hc] using ih
      · simp [hc]

theorem spanDigits_of_isDigit {ds rest : List Char} (hds : ∀ c ∈ ds, c.isDigit = true)
    (hrest : ∀ c ∈ rest.head?, digit? c = none) : spanDigits (ds ++ rest) = (ds, rest) := by
  have hsome : ∀ c ∈ ds, (digit? c).isSome = true := fun c hc => by
    rw [digit?_of_isDigit (hds c hc)]
    rfl
  have hspan : spanDigits ds = (ds, []) := by
    rw [spanDigits, List.span_eq_takeWhile_dropWhile, List.takeWhile_eq_self_iff.mpr hsome,
      List.dropWhile_eq_nil_iff.mpr hsome]
  exact spanDigits_append hspan hrest

end Decimal

end HiddenTarget
