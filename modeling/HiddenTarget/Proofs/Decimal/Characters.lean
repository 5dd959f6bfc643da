import HiddenTarget.Decimal.Layout
import HiddenTarget.Proofs.Decimal.Digits

/-!
# The characters of numbers

Whatever the layout, a number is written with digits, signs, a point and the letter of the
exponent, `inNumber_of_mem_finite`; the only other texts are the words of a layout for the values
that are no numbers. All of these characters leave a mark on the page, `InNumber.visible`.
-/

namespace HiddenTarget

theorem le_toNat_of_all {n : Nat} {s : List Char} (h : (s.all fun c => n ≤ c.toNat) = true)
    {c : Char} (hc : c ∈ s) : n ≤ c.toNat :=
  of_decide_eq_true (List.all_eq_true.mp h c hc)

namespace Decimal

def InNumber (c : Char) : Prop := c.isDigit = true ∨ c ∈ ['+', '-', '.', 'e']

variable {c : Char}

theorem InNumber.visible (h : InNumber c) : 0x20 < c.toNat ∧ c.toNat < 0x7f := by
  rcases h with h | h
  · rw [Char.isDigit, Bool.and_eq_true, decide_eq_true_eq, decide_eq_true_eq] at h
    have hlow : 48 ≤ c.toNat := UInt32.le_iff_toNat_le.mp h.1
    have hhigh : c.toNat ≤ 57 := UInt32.le_iff_toNat_le.mp h.2
    omega
  · simp only [List.mem_cons, List.not_mem_nil, or_false] at h
    rcases h with rfl | rfl | rfl | rfl
    · decide
    · decide
    · decide
    · decide

theorem InNumber.zero : InNumber '0' := .inl rfl

theorem InNumber.point : InNumber '.' := .inr (by simp)

theorem inNumber_of_mem_natural {n : Nat} (h : c ∈ natural n) : InNumber c :=
  .inl (isDigit_of_mem_natural h)

theorem inNumber_of_mem_integer {i : Int} (h : c ∈ integer i) : InNumber c := by
  cases i with
  | ofNat n => exact inNumber_of_mem_natural h
  | negSucc n =>
      rcases List.mem_cons.mp h with rfl | h
      · exact .inr (by simp)
      · exact inNumber_of_mem_natural h

namespace Layout

variable {ds : List Char}

theorem inNumber_of_mem_pointed (hds : ∀ d ∈ ds, InNumber d) {keepsPoint : Bool} {whole : Int}
    (h : c ∈ pointed keepsPoint ds whole) : InNumber c := by
  have hzero : ∀ n, c ∈ List.replicate n '0' → InNumber c := by
    intro n hc
    rw [List.eq_of_mem_replicate hc]
    exact .zero
  rw [pointed] at h
  split at h
  · rcases List.mem_append.mp h with h | h
    · rcases List.mem_append.mp h with h | h
      · exact hds c h
      · exact hzero _ h
    · split at h
      · simp only [List.mem_cons, List.not_mem_nil, or_false] at h
        rcases h with rfl | rfl
        · exact .point
        · exact .zero
      · cases h
  · split at h
    · rcases List.mem_append.mp h with h | h
      · exact hds c (List.mem_of_mem_take h)
      · rcases List.mem_cons.mp h with rfl | h
        · exact .point
        · exact hds c (List.mem_of_mem_drop h)
    · simp only [List.cons_append, List.mem_cons, List.mem_append] at h
      rcases h with rfl | rfl | h | h
      · exact .zero
      · exact .point
      · exact hzero _ h
      · exact hds c h

theorem inNumber_of_mem_scientific (hds : ∀ d ∈ ds, InNumber d) {e : Int}
    (h : c ∈ scientific ds e) : InNumber c := by
  rw [scientific] at h
  rcases List.mem_append.mp h with h | h
  · rcases List.mem_append.mp h with h | h
    · exact hds c (List.mem_of_mem_take h)
    · split at h
      · cases h
      · rcases List.mem_cons.mp h with rfl | h
        · exact .point
        · exact hds c (List.mem_of_mem_drop h)
  · rcases List.mem_cons.mp h with rfl | h
    · exact .inr (by simp)
    · rcases List.mem_cons.mp h with rfl | h
      · split
        · exact .inr (by simp)
        · exact .inr (by simp)
      · exact inNumber_of_mem_natural h

theorem inNumber_of_mem_finite {l : Layout} {bits : Nat} (h : c ∈ l.finite bits) : InNumber c := by
  rw [finite] at h
  split at h
  · refine inNumber_of_mem_pointed ?_ h
    intro d hd
    rw [List.mem_singleton.mp hd]
    exact .zero
  · rw [digits] at h
    have hds : ∀ d ∈ natural (shortest l.tie bits).coefficient, InNumber d :=
      fun d hd => inNumber_of_mem_natural hd
    split at h
    · exact inNumber_of_mem_pointed hds h
    · split at h
      · exact inNumber_of_mem_pointed hds h
      · exact inNumber_of_mem_scientific hds h

theorem mem_render {l : Layout} {x : Float} (h : c ∈ l.render x) :
    InNumber c ∨ c ∈ l.nan.toList ∨ c ∈ l.infinity.toList := by
  have hsign : ∀ b : Bool, c ∈ (if b then ['-'] else []) → InNumber c := by
    intro b hc
    cases b with
    | true =>
        rw [List.mem_singleton.mp hc]
        exact .inr (by simp)
    | false => cases hc
  rw [render] at h
  split at h
  · exact .inr (.inl h)
  · split at h
    · rcases List.mem_append.mp h with h | h
      · split at h
        · exact .inl (hsign _ h)
        · cases h
      · exact .inr (.inr h)
    · rcases List.mem_append.mp h with h | h
      · exact .inl (hsign _ h)
      · exact .inl (inNumber_of_mem_finite h)

end Layout

end Decimal

end HiddenTarget
