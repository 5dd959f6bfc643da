import HiddenTarget.Disk.Basic

/-!
# Appending to a file

`Disk.FileAt d h content room` says that the handle `h` writes behind the last byte of a
file with the given content and room. `fileAt_of_openFile` is where such handles come
from, and `FileAt.write` is all that a write through one of them does: the file takes as
many bytes as it has room for, behind what it held, and nothing else on the disk
changes. Folders that are made on the way to a file leave all files as they are.
-/

namespace HiddenTarget

namespace Disk

/-! ## Files and their room -/

/-- The file at a location, if there is one: its content and its room. -/
def file? (d : Disk) (l : Location) : Option (ByteArray × Option Nat) :=
  match d.node? l with
  | some (.file content room) => some (content, room)
  | _ => none

theorem file?_of_node? {d : Disk} {l : Location} {content : ByteArray} {room : Option Nat}
    (h : d.node? l = some (.file content room)) : d.file? l = some (content, room) := by
  rw [file?, h]

theorem content_eq (d : Disk) (l : Location) :
    d.content l = ((d.file? l).map Prod.fst).getD ByteArray.empty := by
  rw [content, file?]
  cases d.node? l with
  | none => rfl
  | some node =>
      cases node with
      | folder => rfl
      | file content room => rfl

def Fits (room : Option Nat) (n : Nat) : Prop := ∀ r, room = some r → n ≤ r

/-- A file at this location takes so many bytes more; one that is not there yet does. -/
def Takes (d : Disk) (l : Location) (n : Nat) : Prop :=
  ∀ content room, d.file? l = some (content, room) → Fits room n

def taken (room : Option Nat) (n : Nat) : Nat :=
  match room with
  | none => n
  | some r => min r n

theorem taken_le (room : Option Nat) (n : Nat) : taken room n ≤ n := by
  cases room with
  | none => exact Nat.le_refl n
  | some r => exact Nat.min_le_right r n

theorem taken_of_fits {room : Option Nat} {n : Nat} (h : Fits room n) : taken room n = n := by
  cases room with
  | none => rfl
  | some r => exact Nat.min_eq_right (h r rfl)

theorem fits_of_le_taken {room : Option Nat} {n : Nat} (h : n ≤ taken room n) :
    Fits room n := by
  rintro r rfl
  exact Nat.le_trans h (Nat.min_le_left r n)

theorem Fits.none (n : Nat) : Fits none n := by
  intro r hr
  cases hr

theorem Fits.mono {room : Option Nat} {n m : Nat} (h : Fits room n) (hle : m ≤ n) :
    Fits room m :=
  fun r hr => Nat.le_trans hle (h r hr)

theorem Fits.sub {room : Option Nat} {n m : Nat} (h : Fits room (n + m)) :
    Fits (room.map (· - n)) m := by
  intro r hr
  obtain ⟨r', hr', rfl⟩ := Option.map_eq_some_iff.mp hr
  have := h r' hr'
  omega

/-! ## Writing -/

/-- The handle leads to a file with this content and room, and writes behind it. -/
structure FileAt (d : Disk) (h : Handle) (content : ByteArray) (room : Option Nat) : Prop where
  node : d.node? h.location = some (.file content room)
  atEnd : h.position.getD content.size = content.size

theorem FileAt.location_ne_nil {d : Disk} {h : Handle} {content : ByteArray}
    {room : Option Nat} (hf : d.FileAt h content room) : h.location ≠ [] := by
  intro hnil
  have hroot : d.node? h.location = some .folder := if_pos hnil
  rw [hf.node] at hroot
  cases hroot

theorem FileAt.content_eq {d : Disk} {h : Handle} {content : ByteArray} {room : Option Nat}
    (hf : d.FileAt h content room) : d.content h.location = content := by
  rw [Disk.content, hf.node]

theorem splice_size (content bytes : ByteArray) :
    splice content content.size bytes = content ++ bytes := by
  have hfill : ByteArray.mk (Array.replicate (content.size - content.size) 0) =
      ByteArray.empty := by
    rw [Nat.sub_self]
    rfl
  have hrest : content.extract (content.size + bytes.size) content.size = ByteArray.empty := by
    rw [ByteArray.extract_eq_empty_iff]
    omega
  rw [splice, hfill, hrest, ByteArray.extract_zero_size, ByteArray.append_empty,
    ByteArray.append_empty]

theorem handle_write {h : Handle} (hposition : h.position = none) (d : Disk) (bytes : ByteArray) :
    (d.write h bytes).2.1 = h := by
  obtain ⟨location, position⟩ := h
  obtain rfl : position = none := hposition
  rw [write]
  split
  · rfl
  · rfl

theorem FileAt.write {d : Disk} {h : Handle} {content : ByteArray} {room : Option Nat}
    (hf : d.FileAt h content room) (bytes : ByteArray) :
    ∃ h' d', d.write h bytes = (bytes.extract (taken room bytes.size) bytes.size, h', d') ∧
      h'.location = h.location ∧
      d'.FileAt h' (content ++ bytes.extract 0 (taken room bytes.size))
        (room.map (· - taken room bytes.size)) ∧
      ∀ l, l ≠ h.location → d'.node? l = d.node? l := by
  have hle := taken_le room bytes.size
  have hsize : (bytes.extract 0 (taken room bytes.size)).size = taken room bytes.size := by
    rw [ByteArray.size_extract]
    omega
  refine ⟨{ h with position := h.position.map (· + taken room bytes.size) },
    d.put h.location (.file (content ++ bytes.extract 0 (taken room bytes.size))
      (room.map (· - taken room bytes.size))), ?_, rfl, ?_, ?_⟩
  · rw [Disk.write, hf.node]
    simp only [hf.atEnd, splice_size]
    rfl
  · constructor
    · exact (node?_put hf.location_ne_nil d _ _).trans (if_pos rfl)
    · have hend := hf.atEnd
      rw [ByteArray.size_append, hsize]
      cases hposition : h.position with
      | none => rfl
      | some p =>
          rw [hposition] at hend
          exact congrArg (· + taken room bytes.size) hend
  · intro l hl
    exact (node?_put hf.location_ne_nil d _ _).trans (if_neg hl)

theorem FileAt.write_of_fits {d : Disk} {h : Handle} {content : ByteArray}
    {room : Option Nat} (hf : d.FileAt h content room) {bytes : ByteArray}
    (hfits : Fits room bytes.size) :
    ∃ h' d', d.write h bytes = (ByteArray.empty, h', d') ∧ h'.location = h.location ∧
      d'.FileAt h' (content ++ bytes) (room.map (· - bytes.size)) := by
  obtain ⟨h', d', hwrite, hlocation, hf', -⟩ := hf.write bytes
  have hnone : bytes.extract bytes.size bytes.size = ByteArray.empty := by
    rw [ByteArray.extract_eq_empty_iff]
    omega
  rw [taken_of_fits hfits] at hwrite hf'
  rw [hnone] at hwrite
  rw [ByteArray.extract_zero_size] at hf'
  exact ⟨h', d', hwrite, hlocation, hf'⟩

/-! ## Opening -/

theorem file?_put_folder {d : Disk} {k : Location} (hk : d.node? k = none) (l : Location) :
    (d.put k .folder).file? l = d.file? l := by
  have hne : k ≠ [] := by
    rintro rfl
    cases hk
  rw [file?, file?, node?_put hne]
  by_cases hl : l = k
  · rw [if_pos hl, hl, hk]
  · rw [if_neg hl]

theorem makeFolder_eq_ok {d d' : Disk} {p : Path} (h : d.makeFolder p = .ok d') :
    ∃ folder name, d.find p = .ok (.named folder name) ∧ d.node? (folder ++ [name]) = none ∧
      d' = d.put (folder ++ [name]) .folder := by
  rw [makeFolder] at h
  split at h
  · cases h
  · cases h
  · next folder name hfind =>
      rw [named?] at h
      split at h
      · cases h
      · cases h
      · next hnamed =>
          cases h
          split at hnamed
          · cases hnamed
          · exact ⟨folder, name, hfind, Except.ok.inj hnamed, rfl⟩

/-- What holds of a disk and of every disk with one folder more holds when the folders of a
path have been made. -/
theorem makeFoldersAlong_invariant {P : Disk → Prop} {paths : List Path}
    (hmake : ∀ p ∈ paths, ∀ d d', P d → d.makeFolder p = .ok d' → P d') {d : Disk} (h : P d) :
    P (makeFoldersAlong paths d).2 := by
  induction paths generalizing d with
  | nil => exact h
  | cons p parents ih =>
      have hp := hmake p List.mem_cons_self
      rw [makeFoldersAlong]
      split
      · next d' hmade => exact hp d d' h hmade
      · have hparents : P (makeFoldersAlong parents d).2 :=
          ih (fun q hq => hmake q (List.mem_cons_of_mem p hq)) h
        split
        · next hall => rwa [hall] at hparents
        · next d' hall =>
            rw [hall] at hparents
            split
            · next d'' hmade => exact hp d' d'' hparents hmade
            · exact hparents
      · exact h

theorem file?_makeParents (d : Disk) (p : Path) (l : Location) :
    (d.makeParents p).file? l = d.file? l := by
  refine makeFoldersAlong_invariant (P := fun d' => d'.file? l = d.file? l) ?_ rfl
  intro q _ d₁ d₂ h hmade
  obtain ⟨folder, name, -, hnone, rfl⟩ := makeFolder_eq_ok hmade
  exact (file?_put_folder hnone l).trans h

/-- Every way in which a file is opened: one that is there already is kept or emptied, and
one that is not there yet is made. -/
theorem openFile_eq_ok {d d' : Disk} {p : Path} {append : Bool} {h : Handle}
    (hopen : d.openFile p append = .ok (h, d')) :
    h.location ≠ [] ∧ h.position = (if append then none else some 0) ∧
      ((∃ content room, d.node? h.location = some (.file content room) ∧
          d' = if append then d else d.put h.location (.file ByteArray.empty room)) ∨
        (d.node? h.location = none ∧
          d' = d.put h.location (.file ByteArray.empty none))) := by
  rw [openFile] at hopen
  split at hopen
  · cases hopen
  · cases hopen
  · next folder name _ =>
      have hfile : folder ++ [name] ≠ [] := List.append_ne_nil_of_right_ne_nil folder (by simp)
      split at hopen
      · cases hopen
      · simp only [named?] at hopen
        split at hopen
        · cases hopen
        · cases hopen
        · next content room hnamed =>
            split at hnamed
            · cases hnamed
            · cases hopen
              exact ⟨hfile, rfl, .inl ⟨content, room, Except.ok.inj hnamed, rfl⟩⟩
        · next hnamed =>
            split at hnamed
            · cases hnamed
            · cases hopen
              exact ⟨hfile, rfl, .inr ⟨Except.ok.inj hnamed, rfl⟩⟩

theorem openFile_of_file {d : Disk} {p : Path} {folder : Location} {name : String}
    {content : ByteArray} {room : Option Nat} (hfind : d.find p = .ok (.named folder name))
    (hslash : p.slashAtEnd = false) (hname : name.utf8ByteSize ≤ longestName)
    (hnode : d.node? (folder ++ [name]) = some (.file content room)) (append : Bool) :
    d.openFile p append =
      .ok (⟨folder ++ [name], if append then none else some 0⟩,
        if append then d else d.put (folder ++ [name]) (.file ByteArray.empty room)) := by
  have hnamed : d.named? folder name = .ok (some (.file content room)) := by
    rw [named?, if_neg (Nat.not_lt.mpr hname), hnode]
  rw [openFile, hfind]
  simp only [hslash, Bool.false_eq_true, if_false, hnamed]

/-- A file that has been opened is written behind its last byte: behind what it held if
it is kept, and else from its start. -/
theorem fileAt_of_openFile {d d' : Disk} {p : Path} {append : Bool} {h : Handle}
    (hopen : d.openFile p append = .ok (h, d')) :
    ∃ room, d'.FileAt h (if append then d.content h.location else ByteArray.empty) room ∧
      ∀ n, d.Takes h.location n → Fits room n := by
  obtain ⟨hfile, hposition, ⟨content, room, hnode, rfl⟩ | ⟨hnode, rfl⟩⟩ :=
    openFile_eq_ok hopen
  · refine ⟨room, ?_, fun n hn => hn _ _ (file?_of_node? hnode)⟩
    cases append with
    | true =>
        have hcontent : d.content h.location = content := by
          rw [Disk.content, hnode]
        exact ⟨hcontent ▸ hnode, by rw [hposition]; rfl⟩
    | false => exact ⟨(node?_put hfile d _ _).trans (if_pos rfl), by rw [hposition]; rfl⟩
  · have hcontent : d.content h.location = ByteArray.empty := by
      rw [Disk.content, hnode]
    refine ⟨none, ?_, fun n _ => Fits.none n⟩
    rw [hcontent, ite_self]
    refine ⟨(node?_put hfile d _ _).trans (if_pos rfl), ?_⟩
    rw [hposition]
    cases append with
    | true => rfl
    | false => rfl

end Disk

end HiddenTarget
