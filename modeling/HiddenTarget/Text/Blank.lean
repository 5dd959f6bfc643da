/-!
# Blanks around a text

A blank is a character with the Unicode property `White_Space`. `trim` takes the
blanks off both ends of a text and leaves those inside.
-/

namespace HiddenTarget.Text

/-- The characters with the property `White_Space`. -/
def isBlank (c : Char) : Bool :=
  let n := c.toNat
  (0x09 ≤ n && n ≤ 0x0d) || n == 0x20 || n == 0x85 || n == 0xa0 || n == 0x1680 ||
    (0x2000 ≤ n && n ≤ 0x200a) || n == 0x2028 || n == 0x2029 || n == 0x202f ||
    n == 0x205f || n == 0x3000

def trimEnd (s : List Char) : List Char := (s.reverse.dropWhile isBlank).reverse

def trim (s : List Char) : List Char := trimEnd (s.dropWhile isBlank)

theorem trimEnd_append_blank {s t : List Char} (h : ∀ c ∈ t, isBlank c) :
    trimEnd (s ++ t) = trimEnd s := by
  have h' : ∀ c ∈ t.reverse, isBlank c := fun c hc => h c (List.mem_reverse.1 hc)
  rw [trimEnd, trimEnd, List.reverse_append, List.dropWhile_append_of_pos h']

theorem forall_isBlank_of_dropWhile {s : List Char} (h : s.dropWhile isBlank = []) :
    ∀ c ∈ s, isBlank c := by
  induction s with
  | nil => simp
  | cons c r ih =>
    by_cases hc : isBlank c
    · rw [List.dropWhile_cons_of_pos hc] at h
      simpa [hc] using ih h
    · simp [hc] at h

theorem dropWhile_isBlank_eq_nil {s : List Char} (h : ∀ c ∈ s, isBlank c) :
    s.dropWhile isBlank = [] := by
  rw [← List.append_nil s, List.dropWhile_append_of_pos h, List.dropWhile_nil]

theorem trim_pad {l s r : List Char} (hl : ∀ c ∈ l, isBlank c) (hr : ∀ c ∈ r, isBlank c) :
    trim (l ++ s ++ r) = trim s := by
  rw [trim, List.append_assoc, List.dropWhile_append_of_pos hl]
  by_cases h : ∀ c ∈ s, isBlank c
  · rw [List.dropWhile_append_of_pos h, trim, dropWhile_isBlank_eq_nil h,
      dropWhile_isBlank_eq_nil hr]
  · have hne : s.dropWhile isBlank ≠ [] := by
      intro hnil
      exact h (forall_isBlank_of_dropWhile hnil)
    rw [List.dropWhile_append, if_neg (by simpa using hne), trim, trimEnd_append_blank hr]

theorem trim_eq_self {s : List Char} (hhead : ∀ c ∈ s.head?, isBlank c = false)
    (hlast : ∀ c ∈ s.getLast?, isBlank c = false) : trim s = s := by
  have hfront : s.dropWhile isBlank = s := by
    cases s with
    | nil => rfl
    | cons c r => simp [hhead c (by simp)]
  rw [trim, hfront, trimEnd]
  have hback : s.reverse.dropWhile isBlank = s.reverse := by
    cases hrev : s.reverse with
    | nil => rfl
    | cons c r =>
      have hc : c ∈ s.getLast? := by
        rw [← List.head?_reverse, hrev]
        rfl
      simp [hlast c hc]
  rw [hback, List.reverse_reverse]

end HiddenTarget.Text
