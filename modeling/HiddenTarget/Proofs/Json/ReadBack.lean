import Mathlib.Data.List.DropRight
import HiddenTarget.Proofs.Json.Double
import HiddenTarget.Proofs.Json.Members

/-!
# Reading back what is printed

A value is `WellFormed` if its integers fit into words of 64 bits, its doubles are finite and the
members of its objects are in order. Such a value is read back from its text with whatever follows
left over, `WellFormed.rereads`, up to its doubles: `Json.reread` puts the double that a double's
text is read as in its place, which can be a neighbour. A value in which none changes is
`Legible`, and its text stands for it.

The induction is on the value. For the parts of an array or an object it is on those that
are still to be read, behind which the text goes on with `moreItemsChars` and
`moreMembersChars`. A reader has enough fuel if it has as much as the text is long.
-/

namespace HiddenTarget.Json

/-! ## Strings -/

theorem hexValue?_hexDigit : ∀ n < 16, hexValue? (hexDigit n) = some n := by decide

theorem readCode_control {c : Char} (hc : c.toNat < 0x20) (rest : List Char) :
    readCode ('0' :: '0' :: hexDigit (c.toNat / 16) :: hexDigit (c.toNat % 16) :: rest) =
      .ok (c, rest) := by
  have hhigh := hexValue?_hexDigit (c.toNat / 16) (by omega)
  have hlow := hexValue?_hexDigit (c.toNat % 16) (by omega)
  have hzero : hexValue? '0' = some 0 := by decide
  have hcode : ((0 * 16 + 0) * 16 + c.toNat / 16) * 16 + c.toNat % 16 = c.toNat := by omega
  have hread : readHex
      ('0' :: '0' :: hexDigit (c.toNat / 16) :: hexDigit (c.toNat % 16) :: rest) =
        .ok (c.toNat, rest) := by
    rw [readHex, hzero, hhigh, hlow]
    simp only [hcode]
  have hnoLow : isLowSurrogate c.toNat = false := by
    simp only [isLowSurrogate, Bool.and_eq_false_iff, decide_eq_false_iff_not]
    omega
  have hnoHigh : isHighSurrogate c.toNat = false := by
    simp only [isHighSurrogate, Bool.and_eq_false_iff, decide_eq_false_iff_not]
    omega
  rw [readCode, hread]
  simp only [bind, Except.bind, hnoLow, hnoHigh, Bool.false_eq_true, if_false, Char.ofNat_toNat]
  rfl

theorem readChars_escapeChar (n : Nat) (acc : List Char) (c : Char) (rest : List Char) :
    readChars (n + 1) acc (escapeChar c ++ rest) = readChars n (c :: acc) rest := by
  rw [escapeChar]
  split_ifs with h1 h2 h3 h4 h5 h6 h7 h8
  · subst h1; rfl
  · subst h2; rfl
  · subst h3; rfl
  · subst h4; rfl
  · subst h5; rfl
  · subst h6; rfl
  · subst h7; rfl
  · have hescape : readEscape ('u' :: '0' :: '0' :: hexDigit (c.toNat / 16) ::
        hexDigit (c.toNat % 16) :: rest) = .ok (c, rest) := readCode_control h8 rest
    simp only [List.cons_append, List.nil_append]
    rw [readChars, if_neg (by decide), if_pos rfl, hescape]
  · rw [List.singleton_append, readChars, if_neg h1, if_neg h2, if_neg h8]

theorem readChars_flatMap {cs : List Char} {n : Nat} (h : cs.length < n)
    (acc rest : List Char) :
    readChars n acc (cs.flatMap escapeChar ++ '"' :: rest) = .ok (cs.reverse ++ acc, rest) := by
  induction cs generalizing n acc with
  | nil =>
      obtain ⟨n, rfl⟩ := Nat.exists_eq_add_of_lt h
      rfl
  | cons c cs ih =>
      obtain ⟨n, rfl⟩ : ∃ m, n = m + 1 := Nat.exists_eq_add_one.mpr (by omega)
      rw [List.flatMap_cons, List.append_assoc, readChars_escapeChar,
        ih (Nat.lt_of_succ_lt_succ h), List.reverse_cons, List.append_assoc]
      rfl

theorem length_le_flatMap_escapeChar (cs : List Char) :
    cs.length ≤ (cs.flatMap escapeChar).length := by
  have hpos : ∀ c, 1 ≤ (escapeChar c).length := by
    intro c
    rw [escapeChar]
    split_ifs
    all_goals exact Nat.succ_pos _
  induction cs with
  | nil => exact Nat.le_refl 0
  | cons c cs ih =>
      rw [List.flatMap_cons, List.length_append, List.length_cons]
      have hc := hpos c
      omega

theorem readString_flatMap (s : String) (rest : List Char) :
    readString (s.toList.flatMap escapeChar ++ '"' :: rest) = .ok (s, rest) := by
  have hlength : s.toList.length <
      (s.toList.flatMap escapeChar ++ '"' :: rest).length + 1 := by
    have hle := length_le_flatMap_escapeChar s.toList
    rw [List.length_append]
    omega
  rw [readString, readChars_flatMap hlength]
  simp only [bind, Except.bind, List.append_nil, List.reverse_reverse, String.ofList_toList]
  rfl

/-! ## Blanks -/

theorem skipSpace_cons {c : Char} (hc : isSpace c = false) (s : List Char) :
    skipSpace (c :: s) = c :: s :=
  List.dropWhile_cons_of_neg (by simp [hc])

theorem skipSpace_skipSpace (s : List Char) : skipSpace (skipSpace s) = skipSpace s :=
  List.dropWhile_idempotent isSpace s

theorem isSpace_of_lt {c : Char} (hc : 0x20 < c.toNat) : isSpace c = false := by
  simp only [isSpace, Bool.or_eq_false_iff, decide_eq_false_iff_not]
  refine ⟨⟨⟨?_, ?_⟩, ?_⟩, ?_⟩
  all_goals
    rintro rfl
    revert hc
    decide

/-! ## Numbers -/

theorem startsNumber_iff {c : Char} :
    startsNumber c = true ↔ c = '-' ∨ (Decimal.digit? c).isSome = true := by
  simp [startsNumber]

theorem space_lt_of_startsNumber {c : Char} (h : startsNumber c = true) : 0x20 < c.toNat := by
  rcases startsNumber_iff.mp h with rfl | hdigit
  · decide
  · rw [Decimal.digit?] at hdigit
    split at hdigit
    · next hrange => exact Nat.lt_of_lt_of_le (by decide) (UInt32.le_iff_toNat_le.mp hrange.1)
    · cases hdigit

/-! ## What a value is read as -/

/-- The double that the text of a double is read as. -/
def rereadDouble (x : Float) : Float :=
  match read (print (real x)) with
  | .ok (real y) => y
  | _ => x

mutual

/-- The value with each double replaced by the one that its text is read as. -/
def reread : Json → Json
  | real x => real (rereadDouble x)
  | array items => array (rereadItems items)
  | object members => object (rereadMembers members)
  | null => null
  | bool b => bool b
  | integer i => integer i
  | string s => string s

def rereadItems : List Json → List Json
  | [] => []
  | v :: rest => reread v :: rereadItems rest

def rereadMembers : List (String × Json) → List (String × Json)
  | [] => []
  | (k, v) :: rest => (k, reread v) :: rereadMembers rest

end

/-- Each double of the value is what its own text is read as. -/
def Legible (j : Json) : Prop := j.reread = j

theorem rereadItems_eq_map (items : List Json) : rereadItems items = items.map reread := by
  induction items with
  | nil => rfl
  | cons v items ih => rw [rereadItems, ih, List.map_cons]

theorem rereadMembers_eq_map (ms : Members) :
    rereadMembers ms = ms.map fun m => (m.1, m.2.reread) := by
  induction ms with
  | nil => rfl
  | cons m ms ih => rw [rereadMembers, ih, List.map_cons]

theorem get?_rereadMembers (key : String) (ms : Members) :
    Members.get? key (rereadMembers ms) = (ms.get? key).map reread := by
  induction ms with
  | nil => rfl
  | cons m ms ih =>
      rw [rereadMembers, Members.get?, Members.get?, ih]
      split
      · rfl
      · rfl

theorem Members.Sorted.rereadMembers {ms : Members} (h : ms.Sorted) :
    Members.Sorted (Json.rereadMembers ms) := by
  rw [rereadMembers_eq_map]
  exact List.pairwise_map.mpr h

/-- Integers fit into words of 64 bits, doubles are finite, and members are in order. -/
inductive WellFormed : Json → Prop
  | null : WellFormed null
  | bool (b : Bool) : WellFormed (bool b)
  | integer {i : Int} : Decimal.IntegerRange.int64.Contains i ∨
      Decimal.IntegerRange.uint64.Contains i → WellFormed (integer i)
  | real {x : Float} : Decimal.isFinite x = true → WellFormed (real x)
  | string (s : String) : WellFormed (string s)
  | array {items : List Json} : (∀ v ∈ items, WellFormed v) → WellFormed (array items)
  | object {members : Members} : members.Sorted → (∀ m ∈ members, WellFormed m.2) →
      WellFormed (object members)

theorem narrowItems_eq_map (items : List Json) : narrowItems items = items.map narrow := by
  induction items with
  | nil => rfl
  | cons v items ih => rw [narrowItems, ih, List.map_cons]

theorem narrowMembers_eq_map (ms : Members) :
    narrowMembers ms = ms.map fun m => (m.1, m.2.narrow) := by
  induction ms with
  | nil => rfl
  | cons m ms ih => rw [narrowMembers, ih, List.map_cons]

theorem WellFormed.narrow_reread {j : Json} (h : j.WellFormed) : j.reread.narrow = j.reread := by
  induction h with
  | null => rfl
  | bool b => rfl
  | integer hrange => exact if_pos hrange
  | real _ => rfl
  | string s => rfl
  | array _ ih =>
      rw [reread, narrow, narrowItems_eq_map, rereadItems_eq_map, List.map_map]
      exact congrArg _ (List.map_congr_left ih)
  | object _ _ ih =>
      rw [reread, narrow, narrowMembers_eq_map, rereadMembers_eq_map, List.map_map]
      exact congrArg _ (List.map_congr_left fun m hm => congrArg (m.1, ·) (ih m hm))

theorem WellFormed.ofFloat (x : Float) : (ofFloat x).WellFormed := by
  rw [Json.ofFloat]
  split
  · next hfinite => exact .real hfinite
  · exact .null

theorem WellFormed.ofOption {α : Type} {f : α → Json} (hf : ∀ a, (f a).WellFormed)
    (a : Option α) : (Json.ofOption f a).WellFormed := by
  cases a with
  | none => exact .null
  | some a => exact hf a

theorem WellFormed.insert {members : Members} (h : (Json.object members).WellFormed) {value : Json}
    (hvalue : value.WellFormed) (key : String) :
    (Json.object (members.insert key value)).WellFormed := by
  cases h with
  | object hsorted hvalues =>
      refine .object (hsorted.insert key value) fun m hm => ?_
      rcases Members.mem_insert hm with rfl | hm
      · exact hvalue
      · exact hvalues m hm

theorem WellFormed.ofList {list : List (String × Json)} (h : ∀ m ∈ list, m.2.WellFormed) :
    (Json.object (Members.ofList list)).WellFormed :=
  Members.ofList_invariant (P := fun members => (Json.object members).WellFormed)
    (.object .nil fun _ hm => nomatch hm) fun m hm _ hms => hms.insert (h m hm) m.1

/-! ## Reading with a rest -/

/-- The value is read from its text if there is as much fuel as the text is long, and what
follows is left over unless it could go on with a number. -/
def Rereads (j : Json) : Prop :=
  ∀ n rest, EndsNumber rest → (chars j).length ≤ n →
    readValue n (chars j ++ rest) = .ok (j.reread, rest)

theorem endsNumber_nil : EndsNumber [] := by
  rintro _ ⟨⟩

theorem endsNumber_cons {c : Char} (hc : Decimal.digit? c = none ∧ c ≠ '.' ∧ c ≠ 'e' ∧ c ≠ 'E')
    (s : List Char) : EndsNumber (c :: s) := by
  rintro _ ⟨⟩
  exact hc

/-- Without fuel nothing is read, so the text is not empty. -/
theorem Rereads.length_pos {j : Json} (h : j.Rereads) : 0 < (chars j).length := by
  by_contra hzero
  have hread := h 0 [] endsNumber_nil (by omega)
  rw [readValue] at hread
  cases hread

/-- What stands behind an item of an array: the other items, and the end. -/
def moreItemsChars : List Json → List Char
  | [] => [']']
  | v :: rest => ',' :: itemsChars (v :: rest)

theorem itemsChars_cons (v : Json) (rest : List Json) :
    itemsChars (v :: rest) = chars v ++ moreItemsChars rest := by
  cases rest with
  | nil => rfl
  | cons w rest => rfl

theorem endsNumber_moreItemsChars (items : List Json) (rest : List Char) :
    EndsNumber (moreItemsChars items ++ rest) := by
  cases items with
  | nil => exact endsNumber_cons (by decide) _
  | cons v items => exact endsNumber_cons (by decide) _

theorem moreItemsChars_length_pos (items : List Json) : 0 < (moreItemsChars items).length := by
  cases items with
  | nil => exact Nat.succ_pos _
  | cons v items => exact Nat.succ_pos _

theorem readItems_more {items : List Json} (h : ∀ v ∈ items, v.Rereads) {n : Nat}
    (hn : (moreItemsChars items).length ≤ n) (acc : List Json) (rest : List Char) :
    readItems n false acc (moreItemsChars items ++ rest) =
      .ok (array (acc.reverse ++ rereadItems items), rest) := by
  induction items generalizing n acc with
  | nil =>
      obtain ⟨n, rfl⟩ := Nat.exists_eq_add_one.mpr hn
      rw [rereadItems, List.append_nil]
      rfl
  | cons v items ih =>
      obtain ⟨n, rfl⟩ : ∃ m, n = m + 1 :=
        Nat.exists_eq_add_one.mpr (Nat.lt_of_lt_of_le (moreItemsChars_length_pos _) hn)
      rw [moreItemsChars, itemsChars_cons, List.length_cons, List.length_append] at hn
      have hpos := moreItemsChars_length_pos items
      have hread := h v List.mem_cons_self n (moreItemsChars items ++ rest)
        (endsNumber_moreItemsChars items rest) (by omega)
      have hmore := ih (fun w hw => h w (List.mem_cons_of_mem v hw)) (n := n) (by omega)
        (v.reread :: acc)
      rw [moreItemsChars, itemsChars_cons, List.cons_append, List.append_assoc, readItems,
        skipSpace_cons (by decide)]
      simp only [if_neg (by decide : ',' ≠ ']'), Bool.false_eq_true, if_false, if_true,
        hread, hmore, List.reverse_cons, List.append_assoc, List.singleton_append, rereadItems]

theorem readItems_first {n : Nat} {s r : List Char} {v : Json} (h : readValue n s = .ok (v, r))
    (acc : List Json) : readItems (n + 1) true acc s = readItems n false (v :: acc) r := by
  cases n with
  | zero => cases h
  | succ n =>
      have hskip : readValue (n + 1) (skipSpace s) = readValue (n + 1) s := by
        rw [readValue, readValue, skipSpace_skipSpace]
      rw [readItems]
      cases hs : skipSpace s with
      | nil =>
          rw [readValue, hs] at h
          cases h
      | cons c tail =>
          have hc : c ≠ ']' := by
            rintro rfl
            rw [readValue, hs] at h
            cases h
          rw [hs, h] at hskip
          simp only [if_neg hc, if_true, hskip]

def moreMembersChars : Members → List Char
  | [] => ['\x7d']
  | m :: rest => ',' :: membersChars (m :: rest)

/-- The characters of a string behind the opening quote. -/
def quoted (s : String) (rest : List Char) : List Char :=
  s.toList.flatMap escapeChar ++ '"' :: rest

theorem membersChars_cons (m : String × Json) (ms : Members) :
    membersChars (m :: ms) = '"' :: quoted m.1 (':' :: (chars m.2 ++ moreMembersChars ms)) := by
  cases ms with
  | nil => simp [membersChars, moreMembersChars, quoted, stringChars]
  | cons m' ms => simp [membersChars, moreMembersChars, quoted, stringChars]

theorem endsNumber_moreMembersChars (ms : Members) (rest : List Char) :
    EndsNumber (moreMembersChars ms ++ rest) := by
  cases ms with
  | nil => exact endsNumber_cons (by decide) _
  | cons m ms => exact endsNumber_cons (by decide) _

theorem quoted_append (s : String) (r rest : List Char) :
    quoted s r ++ rest = quoted s (r ++ rest) := by
  rw [quoted, quoted, List.append_assoc, List.cons_append]

theorem lt_length_quoted (s : String) (r : List Char) : r.length < (quoted s r).length := by
  rw [quoted, List.length_append, List.length_cons]
  omega

theorem length_membersChars (m : String × Json) (ms : Members) :
    (chars m.2).length + (moreMembersChars ms).length + 3 ≤ (membersChars (m :: ms)).length := by
  have hquoted := lt_length_quoted m.1 (':' :: (chars m.2 ++ moreMembersChars ms))
  rw [List.length_cons, List.length_append] at hquoted
  rw [membersChars_cons, List.length_cons]
  omega

theorem readMember_membersChars {m : String × Json} (hm : m.2.Rereads) {ms : Members} {n : Nat}
    (hn : (membersChars (m :: ms)).length ≤ n + 2) (acc : Members) (rest : List Char) :
    readMember (n + 1) acc (membersChars (m :: ms) ++ rest) =
      readMembers n false (acc.insert m.1 m.2.reread) (moreMembersChars ms ++ rest) := by
  have hlength := length_membersChars m ms
  have hread := hm n (moreMembersChars ms ++ rest) (endsNumber_moreMembersChars ms rest) (by omega)
  have hcolon : ∀ s, expectColon (':' :: s) = .ok s := fun s => rfl
  rw [membersChars_cons, List.cons_append, quoted_append, List.cons_append, List.append_assoc,
    readMember, if_pos rfl, quoted, readString_flatMap]
  simp only [hcolon, hread]

theorem readMembers_more {ms : Members} (h : ∀ m ∈ ms, m.2.Rereads) {n : Nat}
    (hn : (moreMembersChars ms).length ≤ n) {acc : Members}
    (hsorted : Members.Sorted (acc ++ rereadMembers ms)) (rest : List Char) :
    readMembers n false acc (moreMembersChars ms ++ rest) =
      .ok (object (acc ++ rereadMembers ms), rest) := by
  induction ms generalizing n acc with
  | nil =>
      obtain ⟨n, rfl⟩ := Nat.exists_eq_add_one.mpr hn
      rw [rereadMembers, List.append_nil]
      rfl
  | cons m ms ih =>
      rw [rereadMembers] at hsorted ⊢
      have hlength := length_membersChars m ms
      rw [moreMembersChars, List.length_cons] at hn
      obtain ⟨n, rfl⟩ : ∃ k, n = k + 2 := Nat.exists_eq_add_of_le' (by omega)
      have hlast : acc.insert m.1 m.2.reread = acc ++ [(m.1, m.2.reread)] :=
        Members.insert_of_lt fun m' hm' =>
          (List.pairwise_append.mp hsorted).2.2 m' hm' (m.1, m.2.reread) List.mem_cons_self
      have hmore : readMembers n false (acc ++ [(m.1, m.2.reread)])
          (moreMembersChars ms ++ rest) =
            .ok (object (acc ++ [(m.1, m.2.reread)] ++ rereadMembers ms), rest) :=
        ih (fun m' hm' => h m' (List.mem_cons_of_mem m hm')) (by omega)
          (by rwa [List.append_assoc])
      have hkey : readMember (n + 1) acc (membersChars (m :: ms) ++ rest) =
          readMembers n false (acc.insert m.1 m.2.reread) (moreMembersChars ms ++ rest) :=
        readMember_membersChars (h m List.mem_cons_self) (by omega) acc rest
      have hskip : skipSpace (membersChars (m :: ms) ++ rest) = membersChars (m :: ms) ++ rest := by
        rw [membersChars_cons]
        exact skipSpace_cons (by decide) _
      rw [moreMembersChars, List.cons_append, readMembers, skipSpace_cons (by decide)]
      simp only [if_neg (by decide : ',' ≠ '\x7d'), Bool.false_eq_true, if_false, if_true,
        hskip, hkey, hlast, hmore, List.append_assoc, List.singleton_append]

/-! ## Reading back -/

theorem readValue_number {j value : Json} {l : Decimal.Literal}
    (hread : readNumber (chars j) = .ok (l, [])) (hvalue : ofLiteral? l = some value) {n : Nat}
    {rest : List Char} (hrest : EndsNumber rest) (hn : (chars j).length ≤ n) :
    readValue n (chars j ++ rest) = .ok (value, rest) := by
  obtain ⟨c, tail, hchars, hc⟩ := startsNumber_of_readNumber hread
  have happend := readNumber_append hread hrest
  rw [hchars] at happend hn ⊢
  obtain ⟨n, rfl⟩ := Nat.exists_eq_add_one.mpr (Nat.lt_of_lt_of_le (Nat.succ_pos _) hn)
  have hne : ∀ d, startsNumber d = false → c ≠ d := by
    rintro d hd rfl
    rw [hc] at hd
    cases hd
  rw [List.nil_append, List.cons_append] at happend
  rw [List.cons_append, readValue, skipSpace_cons (isSpace_of_lt (space_lt_of_startsNumber hc))]
  simp only [hne '"' (by decide), hne '[' (by decide), hne '\x7b' (by decide),
    hne 'n' (by decide), hne 't' (by decide), hne 'f' (by decide), hc, happend, hvalue, if_false,
    if_true]

theorem read_print_of_readValue {j value : Json}
    (h : ∀ n, (chars j).length ≤ n → readValue n (chars j ++ []) = .ok (value, [])) :
    read (print j) = .ok value := by
  have hread := h (3 * (chars j).length + 3) (by omega)
  rw [List.append_nil] at hread
  rw [read, print, String.toList_ofList, readAll, hread]
  rfl

theorem rereads_real {x : Float} (h : Decimal.isFinite x = true) : (real x).Rereads := by
  obtain ⟨l, y, hread, hvalue⟩ := readNumber_render h
  have hprint : read (print (real x)) = .ok (real y) :=
    read_print_of_readValue fun n hn => readValue_number hread hvalue endsNumber_nil hn
  have hreread : (real x).reread = real y := by rw [reread, rereadDouble, hprint]
  intro n rest hrest hn
  rw [hreread]
  exact readValue_number hread hvalue hrest hn

theorem rereads_array {items : List Json} (h : ∀ v ∈ items, v.Rereads) : (array items).Rereads := by
  intro n rest _ hn
  rw [chars, List.length_cons] at hn
  obtain ⟨n, rfl⟩ := Nat.exists_eq_add_one.mpr (Nat.lt_of_lt_of_le (Nat.succ_pos _) hn)
  have hopen : readValue (n + 1) (chars (array items) ++ rest) =
      readItems n true [] (itemsChars items ++ rest) := by
    rw [chars]
    rfl
  rw [hopen]
  cases items with
  | nil =>
      obtain ⟨n, rfl⟩ := Nat.exists_eq_add_one.mpr (Nat.lt_of_succ_le (Nat.le_of_succ_le_succ hn))
      rfl
  | cons v items =>
      rw [itemsChars_cons, List.length_append] at hn
      have hpos := (h v List.mem_cons_self).length_pos
      have hmorePos := moreItemsChars_length_pos items
      obtain ⟨n, rfl⟩ : ∃ k, n = k + 1 := Nat.exists_eq_add_one.mpr (by omega)
      have hread := h v List.mem_cons_self n (moreItemsChars items ++ rest)
        (endsNumber_moreItemsChars items rest) (by omega)
      have hmore := readItems_more (fun w hw => h w (List.mem_cons_of_mem v hw)) (n := n)
        (by omega) [v.reread] rest
      rw [itemsChars_cons, List.append_assoc, readItems_first hread, hmore]
      rfl

theorem rereads_object {members : Members} (hsorted : members.Sorted)
    (h : ∀ m ∈ members, m.2.Rereads) : (object members).Rereads := by
  intro n rest _ hn
  rw [chars, List.length_cons] at hn
  obtain ⟨n, rfl⟩ := Nat.exists_eq_add_one.mpr (Nat.lt_of_lt_of_le (Nat.succ_pos _) hn)
  have hopen : readValue (n + 1) (chars (object members) ++ rest) =
      readMembers n true [] (membersChars members ++ rest) := by
    rw [chars]
    rfl
  rw [hopen]
  cases members with
  | nil =>
      obtain ⟨n, rfl⟩ := Nat.exists_eq_add_one.mpr (Nat.lt_of_succ_le (Nat.le_of_succ_le_succ hn))
      rfl
  | cons m ms =>
      have hlength := length_membersChars m ms
      obtain ⟨n, rfl⟩ : ∃ k, n = k + 2 := Nat.exists_eq_add_of_le' (by omega)
      have hfirst : readMembers (n + 2) true [] (membersChars (m :: ms) ++ rest) =
          readMember (n + 1) [] (membersChars (m :: ms) ++ rest) := by
        rw [membersChars_cons, List.cons_append, readMembers, skipSpace_cons (by decide)]
        rfl
      have hmore : readMembers n false [(m.1, m.2.reread)] (moreMembersChars ms ++ rest) =
          .ok (object (rereadMembers (m :: ms)), rest) :=
        readMembers_more (fun m' hm' => h m' (List.mem_cons_of_mem m hm')) (by omega)
          hsorted.rereadMembers rest
      rw [hfirst, readMember_membersChars (h m List.mem_cons_self) (by omega)]
      exact hmore

/-- **A value is read from its text** up to its doubles, whatever follows that could not go on
with a number. -/
theorem WellFormed.rereads {j : Json} (h : j.WellFormed) : j.Rereads := by
  induction h with
  | null =>
      intro n rest _ hn
      obtain ⟨n, rfl⟩ := Nat.exists_eq_add_one.mpr (Nat.lt_of_lt_of_le (Nat.succ_pos _) hn)
      rfl
  | bool b =>
      intro n rest _ hn
      cases b with
      | true =>
          obtain ⟨n, rfl⟩ := Nat.exists_eq_add_one.mpr (Nat.lt_of_lt_of_le (Nat.succ_pos _) hn)
          rfl
      | false =>
          obtain ⟨n, rfl⟩ := Nat.exists_eq_add_one.mpr (Nat.lt_of_lt_of_le (Nat.succ_pos _) hn)
          rfl
  | @integer i _ =>
      obtain ⟨l, hread, hvalue⟩ := readNumber_integer i
      intro n rest hrest hn
      exact readValue_number (j := .integer i) hread hvalue hrest hn
  | real hfinite => exact rereads_real hfinite
  | string s =>
      intro n rest _ hn
      obtain ⟨n, rfl⟩ := Nat.exists_eq_add_one.mpr (Nat.lt_of_lt_of_le (Nat.succ_pos _) hn)
      have hquote : chars (.string s) ++ rest =
          '"' :: (s.toList.flatMap escapeChar ++ '"' :: rest) := by
        rw [chars, stringChars, List.append_assoc]
        rfl
      rw [hquote, readValue, skipSpace_cons (by decide)]
      simp only [if_true, readString_flatMap]
      rfl
  | array _ ih => exact rereads_array ih
  | object hsorted _ ih => exact rereads_object hsorted ih

theorem Rereads.read_print {j : Json} (h : j.Rereads) : read (print j) = .ok j.reread :=
  read_print_of_readValue fun n hn => h n [] endsNumber_nil hn

/-- **A value is what its text is read as**, up to its doubles. -/
theorem WellFormed.read_print {j : Json} (h : j.WellFormed) : read (print j) = .ok j.reread :=
  h.rereads.read_print

end HiddenTarget.Json
