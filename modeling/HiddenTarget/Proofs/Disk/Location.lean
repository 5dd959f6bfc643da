import HiddenTarget.Proofs.Disk.Append

/-!
# Where paths lead

Which folders and files there are decides whether a path can be followed, and not where it
leads: that is the `Path.location` of the path, which depends on the home folder only. A file
that is opened is the one at this location, `location_of_openFile`. No operation moves the
home folder, so a path leads to the same place afterwards, and opening and writing a file
change nothing at other places.
-/

namespace HiddenTarget

def Location.enter (l : Location) (name : String) : Location :=
  if name = "." then l else if name = ".." then l.dropLast else l ++ [name]

def Path.start (p : Path) (home : Location) : Location := if p.absolute then [] else home

def Path.location (p : Path) (home : Location) : Location :=
  p.names.foldl Location.enter (if p.absolute then [] else home)

namespace Disk

variable {d d' : Disk} {p : Path}

/-! ## Following a path -/

theorem enter_eq_ok {l l' : Location} {name : String} (h : d.enter l name = .ok l') :
    l' = l.enter name := by
  rw [enter] at h
  rw [Location.enter]
  split at h
  · next hself =>
      rw [if_pos hself]
      exact (Except.ok.inj h).symm
  · next hself =>
      rw [if_neg hself]
      split at h
      · next hparent =>
          rw [if_pos hparent]
          exact (Except.ok.inj h).symm
      · next hparent =>
          rw [if_neg hparent]
          split at h
          · cases h
          · split at h
            · cases h
            · cases h
            · exact (Except.ok.inj h).symm

theorem walk_eq_ok {names : List String} {l l' : Location} (h : d.walk l names = .ok l') :
    l' = names.foldl Location.enter l := by
  induction names generalizing l with
  | nil => exact (Except.ok.inj h).symm
  | cons name rest ih =>
      rw [walk] at h
      split at h
      · cases h
      · next l₁ henter =>
          rw [List.foldl_cons, ← enter_eq_ok henter]
          exact ih h

/-- A name is found in the folder that the names before it lead to. -/
theorem find_eq_named {l : Location} {name : String} (h : d.find p = .ok (.named l name)) :
    ∃ before, p.names = before ++ [name] ∧ d.walk (p.start d.home) before = .ok l ∧
      name ≠ "." ∧ name ≠ ".." := by
  rw [find] at h
  split at h
  · cases h
  split at h
  · cases h
  split at h
  · cases h
  dsimp only at h
  split at h
  · cases h
  · next last before hnames =>
      -- The names are those before the last one, and the last one.
      have hsplit : p.names = before.reverse ++ [last] := by
        rw [← List.reverse_reverse p.names, hnames, List.reverse_cons]
      split at h
      · cases h
      · next folder hwalk =>
          split at h
          · cases h
          split at h
          · cases h
          next hself hparent =>
          cases h
          exact ⟨before.reverse, hsplit, hwalk, hself, hparent⟩

theorem find_of_names_eq_singleton (d : Disk) {name : String} (hnames : p.names = [name])
    (hnul : '\x00' ∉ name.toList) (hpos : p.size ≠ 0) (hsize : ¬ longestPath < p.size)
    (hself : name ≠ ".") (hparent : name ≠ "..") :
    d.find p = .ok (.named (p.start d.home) name) := by
  rw [find, hnames, if_neg (by simpa using hnul), if_neg hpos, if_neg hsize]
  simp only [List.reverse_singleton, List.reverse_nil, walk, if_neg hself, if_neg hparent,
    Path.start]

theorem location_of_find {l : Location} {name : String} (h : d.find p = .ok (.named l name)) :
    l ++ [name] = p.location d.home := by
  obtain ⟨before, hnames, hwalk, hself, hparent⟩ := find_eq_named h
  have hbefore : l = before.foldl Location.enter (p.start d.home) := walk_eq_ok hwalk
  rw [Path.location, hnames, List.foldl_append, List.foldl_cons, List.foldl_nil, Location.enter,
    if_neg hself, if_neg hparent, hbefore, Path.start]

theorem find_of_openFile {append : Bool} {h : Handle}
    (hopen : d.openFile p append = .ok (h, d')) :
    ∃ folder name, d.find p = .ok (.named folder name) ∧ h.location = folder ++ [name] := by
  rw [openFile] at hopen
  split at hopen
  · cases hopen
  · cases hopen
  · next folder name hfind =>
      refine ⟨folder, name, hfind, ?_⟩
      split at hopen
      · cases hopen
      · dsimp only at hopen
        split at hopen
        · cases hopen
        · cases hopen
        · cases hopen
          rfl
        · cases hopen
          rfl

theorem location_of_openFile {append : Bool} {h : Handle}
    (hopen : d.openFile p append = .ok (h, d')) : h.location = p.location d.home := by
  obtain ⟨folder, name, hfind, hlocation⟩ := find_of_openFile hopen
  rw [hlocation, location_of_find hfind]

@[simp] theorem location_write (d : Disk) (h : Handle) (bytes : ByteArray) :
    (d.write h bytes).2.1.location = h.location := by
  rw [write]
  split
  · rfl
  · rfl

/-! ## The home folder stays -/

@[simp] theorem home_makeParents (d : Disk) (p : Path) : (d.makeParents p).home = d.home := by
  refine makeFoldersAlong_invariant (P := fun d' => d'.home = d.home) ?_ rfl
  intro q _ d₁ d₂ h hmade
  obtain ⟨folder, name, -, -, rfl⟩ := makeFolder_eq_ok hmade
  exact h

theorem home_openFile {append : Bool} {h : Handle}
    (hopen : d.openFile p append = .ok (h, d')) : d'.home = d.home := by
  obtain ⟨-, -, ⟨content, room, -, rfl⟩ | ⟨-, rfl⟩⟩ := openFile_eq_ok hopen
  · cases append with
    | true => rfl
    | false => rfl
  · rfl

@[simp] theorem home_write (d : Disk) (h : Handle) (bytes : ByteArray) :
    (d.write h bytes).2.2.home = d.home := by
  rw [write]
  split
  · rfl
  · rfl

/-! ## Other places stay -/

theorem node?_openFile {append : Bool} {h : Handle} (hopen : d.openFile p append = .ok (h, d'))
    {l : Location} (hl : l ≠ h.location) : d'.node? l = d.node? l := by
  obtain ⟨hroot, -, ⟨content, room, -, rfl⟩ | ⟨-, rfl⟩⟩ := openFile_eq_ok hopen
  · cases append with
    | true => rfl
    | false => exact (node?_put hroot d _ l).trans (if_neg hl)
  · exact (node?_put hroot d _ l).trans (if_neg hl)

theorem node?_write (d : Disk) {h : Handle} (bytes : ByteArray) {l : Location}
    (hl : l ≠ h.location) : (d.write h bytes).2.2.node? l = d.node? l := by
  rw [write]
  split
  · next content room hnode =>
      have hroot : h.location ≠ [] := by
        intro hnil
        rw [hnil] at hnode
        cases hnode
      exact (node?_put hroot d _ l).trans (if_neg hl)
  · rfl

end Disk

end HiddenTarget
