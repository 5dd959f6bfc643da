import HiddenTarget.Json.Basic

/-!
# Members in order

`Members.insert` keeps the members of an object in the order of their keys, `Sorted.insert`. A
key that is behind all others goes to the end, `insert_of_lt`, so members that come in order are
put together as they come. What `insert` keeps, `ofList` has: `ofList_invariant`.
-/

namespace HiddenTarget.Json.Members

variable {key other : String} {value : Json} {ms : Members} {m : String × Json}

theorem insert_of_lt (h : ∀ m ∈ ms, m.1 < key) : ms.insert key value = ms ++ [(key, value)] := by
  induction ms with
  | nil => rfl
  | cons m ms ih =>
      have hlt := h m List.mem_cons_self
      have hne : m.1 ≠ key := fun heq => String.lt_irrefl key (heq ▸ hlt)
      rw [insert, if_neg hne, if_neg (String.lt_asymm hlt),
        ih fun m' hm' => h m' (List.mem_cons_of_mem m hm')]
      rfl

theorem mem_insert (h : m ∈ ms.insert key value) : m = (key, value) ∨ m ∈ ms := by
  fun_induction insert key value ms with
  | case1 => exact .inl (List.mem_singleton.mp h)
  | case2 =>
      rcases List.mem_cons.mp h with rfl | h
      · exact .inl rfl
      · exact .inr (List.mem_cons_of_mem _ h)
  | case3 =>
      rcases List.mem_cons.mp h with rfl | h
      · exact .inl rfl
      · exact .inr h
  | case4 k v rest hne hlt ih =>
      rcases List.mem_cons.mp h with rfl | h
      · exact .inr List.mem_cons_self
      · exact (ih h).imp_right (List.mem_cons_of_mem _)

theorem Sorted.insert (h : ms.Sorted) (key : String) (value : Json) :
    (ms.insert key value).Sorted := by
  fun_induction Members.insert key value ms with
  | case1 => exact List.pairwise_singleton _ _
  | case2 v rest => exact List.pairwise_cons.mpr (List.pairwise_cons.mp h)
  | case3 k v rest hne hlt =>
      refine List.pairwise_cons.mpr ⟨fun m hm => ?_, h⟩
      rcases List.mem_cons.mp hm with rfl | hm
      · exact hlt
      · exact String.lt_trans hlt ((List.pairwise_cons.mp h).1 m hm)
  | case4 k v rest hne hlt ih =>
      obtain ⟨hfirst, hrest⟩ := List.pairwise_cons.mp h
      refine List.pairwise_cons.mpr ⟨fun m hm => ?_, ih hrest⟩
      rcases mem_insert hm with rfl | hm
      · refine Decidable.byContradiction fun hle => hne ?_
        exact String.le_antisymm (String.not_lt.mp hlt) (String.not_lt.mp hle)
      · exact hfirst m hm

theorem get?_insertNew (key other : String) (value : Json) (ms : Members) :
    (ms.insertNew key value).get? other =
      if other = key then some ((ms.get? key).getD value) else ms.get? other := by
  rw [insertNew]
  split
  · next hsome =>
      obtain ⟨v, hv⟩ := Option.isSome_iff_exists.mp hsome
      split
      · next heq => rw [heq, hv, Option.getD_some]
      · rfl
  · next hnone =>
      split
      · next heq =>
          rw [heq, get?_insert_self, Option.not_isSome_iff_eq_none.mp hnone, Option.getD_none]
      · next hne => exact get?_insert_of_ne hne value ms

/-! ## Lists of members -/

theorem ofList_invariant {P : Members → Prop} (hnil : P []) {list : List (String × Json)}
    (hinsert : ∀ m ∈ list, ∀ ms, P ms → P (ms.insert m.1 m.2)) : P (ofList list) := by
  have hfold : ∀ ms, P ms → P (list.foldl (fun acc m => acc.insert m.1 m.2) ms) := by
    induction list with
    | nil => exact fun ms hms => hms
    | cons m list ih =>
        intro ms hms
        exact ih (fun m' hm' => hinsert m' (List.mem_cons_of_mem m hm')) _
          (hinsert m List.mem_cons_self ms hms)
  exact hfold [] hnil

theorem get?_ofList_eq_none {list : List (String × Json)} (h : ∀ m ∈ list, m.1 ≠ key) :
    (ofList list).get? key = none := by
  refine ofList_invariant (P := fun ms => ms.get? key = none) rfl ?_
  intro m hm ms hms
  rw [get?_insert_of_ne (h m hm).symm, hms]

end HiddenTarget.Json.Members
