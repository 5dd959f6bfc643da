import HiddenTarget.Proofs.Decimal.Characters
import HiddenTarget.Proofs.Json.Number

/-!
# The characters of JSON text

No character of a printed value is below the space, `space_le_of_mem_chars`: what is below it
in a string is escaped, and nothing else in the text can be. The text of a number has no
space either. So a printed value is a line whose end can be seen, also in UTF-8, where the
bytes below the space stand for themselves only.
-/

namespace HiddenTarget

theorem Decimal.Layout.space_lt_of_mem_json {c : Char} {x : Float} (h : c ∈ json.render x) :
    0x20 < c.toNat := by
  have hnull : ∀ d ∈ "null".toList, 0x20 < d.toNat := fun _ => le_toNat_of_all (by decide)
  rcases mem_render h with h | h | h
  · exact h.visible.1
  · exact hnull c h
  · exact hnull c h

/-! ## Values -/

namespace Json

variable {c : Char}

theorem space_le_of_mem_escapeChar {d : Char} (h : c ∈ escapeChar d) : 0x20 ≤ c.toNat := by
  have hhex : ∀ n < 0x20,
      ([hexDigit (n / 16), hexDigit (n % 16)].all fun x => 0x20 ≤ x.toNat) = true := by
    decide
  rw [escapeChar] at h
  split_ifs at h with h1 h2 h3 h4 h5 h6 h7 h8
  · exact le_toNat_of_all (by decide) h
  · exact le_toNat_of_all (by decide) h
  · exact le_toNat_of_all (by decide) h
  · exact le_toNat_of_all (by decide) h
  · exact le_toNat_of_all (by decide) h
  · exact le_toNat_of_all (by decide) h
  · exact le_toNat_of_all (by decide) h
  · rcases (List.mem_append (s := ['\\', 'u', '0', '0'])).mp h with h | h
    · exact le_toNat_of_all (by decide) h
    · exact le_toNat_of_all (hhex d.toNat h8) h
  · rw [List.mem_singleton.mp h]
    exact Nat.not_lt.mp h8

theorem space_le_of_mem_stringChars {s : String} (h : c ∈ stringChars s) : 0x20 ≤ c.toNat := by
  simp only [stringChars, List.cons_append, List.mem_cons, List.mem_append, List.mem_flatMap,
    List.not_mem_nil, or_false] at h
  rcases h with rfl | ⟨d, -, h⟩ | rfl
  · decide
  · exact space_le_of_mem_escapeChar h
  · decide

mutual

/-- **No character of a printed value is below the space.** -/
theorem space_le_of_mem_chars : ∀ {j : Json}, c ∈ chars j → 0x20 ≤ c.toNat
  | .null, h => le_toNat_of_all (by decide) h
  | .bool true, h => le_toNat_of_all (by decide) h
  | .bool false, h => le_toNat_of_all (by decide) h
  | .integer _, h => Nat.le_of_lt (Decimal.inNumber_of_mem_integer h).visible.1
  | .real _, h => Nat.le_of_lt (Decimal.Layout.space_lt_of_mem_json h)
  | .string _, h => space_le_of_mem_stringChars h
  | .array items, h => by
      rw [chars] at h
      rcases List.mem_cons.mp h with rfl | h
      · decide
      · exact space_le_of_mem_itemsChars h
  | .object members, h => by
      rw [chars] at h
      rcases List.mem_cons.mp h with rfl | h
      · decide
      · exact space_le_of_mem_membersChars h

theorem space_le_of_mem_itemsChars : ∀ {items : List Json}, c ∈ itemsChars items → 0x20 ≤ c.toNat
  | [], h => le_toNat_of_all (by decide) h
  | [v], h => by
      rw [itemsChars] at h
      rcases List.mem_append.mp h with h | h
      · exact space_le_of_mem_chars h
      · rw [List.mem_singleton.mp h]
        decide
  | v :: w :: rest, h => by
      rw [itemsChars] at h
      · rcases List.mem_append.mp h with h | h
        · exact space_le_of_mem_chars h
        · rcases List.mem_cons.mp h with rfl | h
          · decide
          · exact space_le_of_mem_itemsChars h
      · simp

theorem space_le_of_mem_membersChars :
    ∀ {members : List (String × Json)}, c ∈ membersChars members → 0x20 ≤ c.toNat
  | [], h => le_toNat_of_all (by decide) h
  | [(k, v)], h => by
      simp only [membersChars, List.mem_append, List.mem_cons, List.not_mem_nil, or_false] at h
      rcases h with (h | rfl | h) | rfl
      · exact space_le_of_mem_stringChars h
      · decide
      · exact space_le_of_mem_chars h
      · decide
  | (k, v) :: m :: rest, h => by
      rw [membersChars] at h
      · simp only [List.mem_append, List.mem_cons] at h
        rcases h with (h | rfl | h) | rfl | h
        · exact space_le_of_mem_stringChars h
        · decide
        · exact space_le_of_mem_chars h
        · decide
        · exact space_le_of_mem_membersChars h
      · simp

end

end Json

end HiddenTarget
