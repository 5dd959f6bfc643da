import HiddenTarget.Proofs.Disk.Location

/-!
# The folders that a path passes

On its way to the end a path passes the locations that its first names lead to: that is
`Path.Passes`. The parents of a path lead to such locations, so making them touches nothing else,
and all it does to one of them is to make it if nothing is there, `kept_makeParents`.

A path can pass the location that it ends at. On a disk that `IsTree` it cannot be opened then:
what an open path passes are folders, and the file at its end is none.
-/

namespace HiddenTarget

namespace Path

/-- Some of the first names of the path, but not all of them, lead to the location. -/
def Passes (p : Path) (home l : Location) : Prop :=
  ∃ names, names ≠ [] ∧ names <+: p.names ∧ names.length < p.names.length ∧
    l = names.foldl Location.enter (p.start home)

/-! ## Pieces and names -/

theorem not_mem_of_mem_splitOn {cs piece : List Char} (h : piece ∈ cs.splitOn '/') :
    '/' ∉ piece := by
  induction cs generalizing piece with
  | nil =>
      rw [List.splitOn_nil, List.mem_singleton] at h
      rw [h]
      exact List.not_mem_nil
  | cons c rest ih =>
      rw [List.splitOn_cons_eq_if_modifyHead] at h
      split at h
      · rcases List.mem_cons.mp h with rfl | h
        · exact List.not_mem_nil
        · exact ih h
      · next hc =>
          obtain ⟨first, others, hsplit⟩ :=
            List.exists_cons_of_ne_nil (List.splitOn_ne_nil '/' rest)
          rw [hsplit, List.modifyHead_cons] at h
          rw [hsplit] at ih
          rcases List.mem_cons.mp h with rfl | h
          · have hfirst := ih List.mem_cons_self
            have hne : '/' ≠ c := fun heq => hc (by simp [← heq])
            simp [hne, hfirst]
          · exact ih (List.mem_cons_of_mem first h)

theorem no_slash_of_mem_pieces {p : Path} {piece : String} (h : piece ∈ p.pieces) :
    '/' ∉ piece.toList := by
  obtain ⟨cs, hcs, rfl⟩ := List.mem_map.mp h
  rw [String.toList_ofList]
  exact not_mem_of_mem_splitOn hcs

theorem pieces_of_no_slash {s : String} (h : '/' ∉ s.toList) : (⟨s⟩ : Path).pieces = [s] := by
  rw [pieces, List.splitOn_eq_singleton h]
  simp

theorem pieces_slash (front : String) {piece : String} (h : '/' ∉ piece.toList) :
    (⟨front ++ "/" ++ piece⟩ : Path).pieces = (⟨front⟩ : Path).pieces ++ [piece] := by
  have htext : (front ++ "/" ++ piece).toList = front.toList ++ '/' :: piece.toList := by simp
  rw [← pieces_of_no_slash h, pieces, htext, List.splitOn_append_cons_self, List.map_append]
  rfl

theorem absolute_iff (p : Path) :
    p.absolute = true ↔ ∃ rest, rest ≠ [] ∧ p.pieces = "" :: rest := by
  rw [absolute, pieces]
  cases p.text.toList with
  | nil => simp
  | cons c cs =>
      rw [List.splitOn_cons_eq_if_modifyHead]
      obtain ⟨first, others, hsplit⟩ := List.exists_cons_of_ne_nil (List.splitOn_ne_nil '/' cs)
      rw [hsplit]
      split
      · next hc => simpa using hc
      · next hc =>
          simp [hc]

/-! ## Stages -/

/-- A stage among some pieces is the front with some of these, a name being among them. -/
theorem pieces_of_mem_stagesFrom {front : String} {pieces : List String}
    (hpieces : ∀ piece ∈ pieces, '/' ∉ piece.toList) {q : Path}
    (hq : q ∈ stagesFrom front pieces) :
    ∃ taken, taken <+: pieces ∧ q.pieces = (⟨front⟩ : Path).pieces ++ taken ∧
      ∃ name ∈ taken, name ≠ "" := by
  induction pieces generalizing front with
  | nil => cases hq
  | cons piece rest ih =>
      have hrest : ∀ piece ∈ rest, '/' ∉ piece.toList :=
        fun other h => hpieces other (List.mem_cons_of_mem piece h)
      have htext := pieces_slash front (hpieces piece List.mem_cons_self)
      have hlater (h : q ∈ stagesFrom (front ++ "/" ++ piece) rest) :
          ∃ taken, taken <+: piece :: rest ∧ q.pieces = (⟨front⟩ : Path).pieces ++ taken ∧
            ∃ name ∈ taken, name ≠ "" := by
        obtain ⟨taken, hbefore, htaken, name, hname, hne⟩ := ih hrest h
        refine ⟨piece :: taken, (List.prefix_cons_inj piece).mpr hbefore, ?_, name,
          List.mem_cons_of_mem piece hname, hne⟩
        rw [htaken, htext, List.append_assoc, List.singleton_append]
      rw [stagesFrom] at hq
      split at hq
      · exact hlater hq
      · next hkeep =>
          rcases List.mem_cons.mp hq with rfl | hq
          · exact ⟨[piece], List.prefix_append [piece] rest, htext, piece,
              List.mem_singleton_self piece, fun h => hkeep (.inl h)⟩
          · exact hlater hq

theorem names_of_mem_stagesFrom {front : String} {pieces : List String}
    (hpieces : ∀ piece ∈ pieces, '/' ∉ piece.toList) {q : Path}
    (hq : q ∈ stagesFrom front pieces) :
    q.names <+: (⟨front⟩ : Path).names ++ pieces.filter (· ≠ "") ∧
      (⟨front⟩ : Path).names.length < q.names.length := by
  obtain ⟨taken, hbefore, htaken, name, hname, hne⟩ := pieces_of_mem_stagesFrom hpieces hq
  have hnames : q.names = (⟨front⟩ : Path).names ++ taken.filter (· ≠ "") := by
    rw [names, htaken, List.filter_append]
    rfl
  have hmem : name ∈ taken.filter (· ≠ "") := List.mem_filter.mpr ⟨hname, by simpa using hne⟩
  rw [hnames, List.length_append]
  exact ⟨(List.prefix_append_right_inj _).mpr (hbefore.filter _),
    Nat.lt_add_of_pos_right (List.length_pos_of_mem hmem)⟩

theorem stagesFrom_pairwise {front : String} {pieces : List String}
    (hpieces : ∀ piece ∈ pieces, '/' ∉ piece.toList) :
    (stagesFrom front pieces).Pairwise fun q q' => q.names.length < q'.names.length := by
  induction pieces generalizing front with
  | nil => exact .nil
  | cons piece rest ih =>
      have hrest : ∀ piece ∈ rest, '/' ∉ piece.toList :=
        fun other h => hpieces other (List.mem_cons_of_mem piece h)
      rw [stagesFrom]
      split
      · exact ih hrest
      · exact .cons (fun q hq => (names_of_mem_stagesFrom hrest hq).2) (ih hrest)

section Stages

variable {p q : Path}

/-- The stages are those among the pieces behind the first one, and the first one if it is a
name. -/
theorem exists_stages_eq (p : Path) : ∃ first rest, p.pieces = first :: rest ∧
    (∀ piece ∈ first :: rest, '/' ∉ piece.toList) ∧
    p.stages = if first = "" then stagesFrom first rest else ⟨first⟩ :: stagesFrom first rest := by
  obtain ⟨first, rest, hpieces⟩ := List.exists_cons_of_ne_nil
    (show p.pieces ≠ [] from mt List.map_eq_nil_iff.mp (List.splitOn_ne_nil _ _))
  exact ⟨first, rest, hpieces, fun piece h => no_slash_of_mem_pieces (hpieces ▸ h),
    by rw [stages, hpieces]⟩

theorem mem_stages_cases {first : String} {rest : List String}
    (h : q ∈ if first = "" then stagesFrom first rest else ⟨first⟩ :: stagesFrom first rest) :
    (first ≠ "" ∧ q = ⟨first⟩) ∨ q ∈ stagesFrom first rest := by
  split at h
  · exact .inr h
  · next hname => exact (List.mem_cons.mp h).imp_left fun heq => ⟨hname, heq⟩

theorem names_of_mem_stages (hq : q ∈ p.stages) : q.names <+: p.names ∧ q.names ≠ [] := by
  obtain ⟨first, rest, hpieces, hslash, hstages⟩ := p.exists_stages_eq
  have hfirst : (⟨first⟩ : Path).names = [first].filter (· ≠ "") := by
    rw [names, pieces_of_no_slash (hslash first List.mem_cons_self)]
  have hall : p.names = (⟨first⟩ : Path).names ++ rest.filter (· ≠ "") := by
    rw [names, hpieces, hfirst, ← List.filter_append]
    rfl
  rcases mem_stages_cases (hstages ▸ hq) with ⟨hname, rfl⟩ | hq
  · exact ⟨hall ▸ List.prefix_append _ _, by simp [hfirst, hname]⟩
  · obtain ⟨hbefore, hlt⟩ := names_of_mem_stagesFrom
      (fun piece h => hslash piece (List.mem_cons_of_mem first h)) hq
    exact ⟨hall ▸ hbefore, List.ne_nil_of_length_pos (Nat.zero_lt_of_lt hlt)⟩

theorem stages_pairwise (p : Path) :
    p.stages.Pairwise fun q q' => q.names.length < q'.names.length := by
  obtain ⟨first, rest, -, hslash, hstages⟩ := p.exists_stages_eq
  have hrest : ∀ piece ∈ rest, '/' ∉ piece.toList :=
    fun piece h => hslash piece (List.mem_cons_of_mem first h)
  rw [hstages]
  split
  · exact stagesFrom_pairwise hrest
  · exact .cons (fun q hq => (names_of_mem_stagesFrom hrest hq).2) (stagesFrom_pairwise hrest)

theorem absolute_of_mem_stages (hq : q ∈ p.stages) : q.absolute = p.absolute := by
  obtain ⟨first, rest, hpieces, hslash, hstages⟩ := p.exists_stages_eq
  have hfirst := pieces_of_no_slash (hslash first List.mem_cons_self)
  rw [Bool.eq_iff_iff, absolute_iff, absolute_iff, hpieces]
  rcases mem_stages_cases (hstages ▸ hq) with ⟨hname, rfl⟩ | hq
  · simp [hfirst, hname]
  · obtain ⟨taken, hbefore, htaken, name, hmem, -⟩ := pieces_of_mem_stagesFrom
      (fun piece h => hslash piece (List.mem_cons_of_mem first h)) hq
    have htaken' : taken ≠ [] := List.ne_nil_of_mem hmem
    have hrest : rest ≠ [] := fun h => htaken' (List.prefix_nil.mp (h ▸ hbefore))
    simp [htaken, hfirst, htaken', hrest]

theorem passes_of_mem_parents (hq : q ∈ p.parents) (home : Location) :
    p.Passes home (q.location home) := by
  have hmem : q ∈ p.stages.dropLast := List.mem_reverse.mp hq
  have hstage : q ∈ p.stages := List.dropLast_subset _ hmem
  obtain ⟨hbefore, hne⟩ := names_of_mem_stages hstage
  refine ⟨q.names, hne, hbefore, ?_, ?_⟩
  · -- There are fewer names than in the last stage.
    have hsplit := List.dropLast_concat_getLast (List.ne_nil_of_mem hstage)
    have hpairwise := p.stages_pairwise
    rw [← hsplit, List.pairwise_append] at hpairwise
    have hlt := hpairwise.2.2 q hmem _ (List.mem_singleton_self _)
    exact Nat.lt_of_lt_of_le hlt (names_of_mem_stages (List.getLast_mem _)).1.length_le
  · rw [location, start, absolute_of_mem_stages hstage]

end Stages

end Path

namespace Disk

variable {d d' : Disk} {p : Path} {l : Location}

/-! ## Making the parents -/

theorem node?_makeFolder (h : d.makeFolder p = .ok d') (l : Location) :
    d'.node? l = d.node? l ∨
      l = p.location d.home ∧ d.node? l = none ∧ d'.node? l = some .folder := by
  obtain ⟨folder, name, hfind, hnone, rfl⟩ := makeFolder_eq_ok h
  have hlocation := location_of_find hfind
  have hne : folder ++ [name] ≠ [] := by simp
  rw [node?_put hne]
  split
  · next heq =>
      subst heq
      exact .inr ⟨hlocation, hnone, rfl⟩
  · exact .inl rfl

theorem home_makeFolder (h : d.makeFolder p = .ok d') : d'.home = d.home := by
  obtain ⟨folder, name, -, -, rfl⟩ := makeFolder_eq_ok h
  rfl

/-- The location is as it was, or the path passes it and it has become a folder. -/
def Kept (d d' : Disk) (p : Path) (l : Location) : Prop :=
  d'.node? l = d.node? l ∨
    p.Passes d.home l ∧ d.node? l = none ∧ d'.node? l = some .folder

theorem Kept.trans {d'' : Disk} (hhome : d'.home = d.home) (h : d.Kept d' p l)
    (h' : d'.Kept d'' p l) : d.Kept d'' p l := by
  rcases h with heq | ⟨hpasses, hnone, hfolder⟩
  · rwa [Kept, hhome, heq] at h'
  · rcases h' with heq | ⟨-, hnone', -⟩
    · exact .inr ⟨hpasses, hnone, heq.trans hfolder⟩
    · rw [hfolder] at hnone'
      cases hnone'

theorem kept_makeParents (d : Disk) (p : Path) (l : Location) : d.Kept (d.makeParents p) p l := by
  have h : (d.makeParents p).home = d.home ∧ d.Kept (d.makeParents p) p l := by
    refine makeFoldersAlong_invariant (P := fun d' => d'.home = d.home ∧ d.Kept d' p l) ?_
      ⟨rfl, .inl rfl⟩
    rintro q hq d₁ d₂ ⟨hhome, hkept⟩ hmade
    refine ⟨(home_makeFolder hmade).trans hhome, hkept.trans hhome ?_⟩
    rcases node?_makeFolder hmade l with heq | ⟨rfl, hnone, hfolder⟩
    · exact .inl heq
    · exact .inr ⟨Path.passes_of_mem_parents hq d₁.home, hnone, hfolder⟩
  exact h.2

/-! ## Trees -/

/-- What lies in something lies in a folder, and the home folder is there. -/
structure IsTree (d : Disk) : Prop where
  home : d.node? d.home = some .folder
  inside : ∀ l name, d.node? (l ++ [name]) ≠ none → d.node? l = some .folder

theorem IsTree.dropLast (h : d.IsTree) (hl : d.node? l = some .folder) :
    d.node? l.dropLast = some .folder := by
  rcases List.eq_nil_or_concat l with rfl | ⟨front, name, rfl⟩
  · exact hl
  · rw [List.concat_eq_append, List.dropLast_concat] at *
    exact h.inside front name (by simp [hl])

theorem IsTree.start (h : d.IsTree) (p : Path) : d.node? (p.start d.home) = some .folder := by
  rw [Path.start]
  split
  · rfl
  · exact h.home

theorem IsTree.enter (h : d.IsTree) (hl : d.node? l = some .folder) {name : String}
    {l' : Location} (henter : d.enter l name = .ok l') : d.node? l' = some .folder := by
  rw [Disk.enter] at henter
  split at henter
  · exact Except.ok.inj henter ▸ hl
  split at henter
  · exact Except.ok.inj henter ▸ h.dropLast hl
  split at henter
  · cases henter
  split at henter
  · cases henter
  · cases henter
  · next hnode => exact Except.ok.inj henter ▸ hnode

theorem IsTree.walk (h : d.IsTree) {names rest : List String} (hl : d.node? l = some .folder)
    {l' : Location} (hwalk : d.walk l (names ++ rest) = .ok l') :
    d.node? (names.foldl Location.enter l) = some .folder := by
  induction names generalizing l with
  | nil => exact hl
  | cons name names ih =>
      rw [List.cons_append, Disk.walk] at hwalk
      split at hwalk
      · cases hwalk
      · next l₁ henter =>
          rw [List.foldl_cons, ← enter_eq_ok henter]
          exact ih (h.enter hl henter) hwalk

theorem IsTree.makeFolder (h : d.IsTree) (hmade : d.makeFolder p = .ok d') : d'.IsTree := by
  obtain ⟨folder, name, hfind, hnone, rfl⟩ := makeFolder_eq_ok hmade
  obtain ⟨before, -, hwalk, -, -⟩ := find_eq_named hfind
  have hfolder : d.node? folder = some .folder := by
    rw [walk_eq_ok hwalk]
    exact h.walk (h.start p) (by rwa [List.append_nil])
  have hnode := node?_put (show folder ++ [name] ≠ [] by simp) d .folder
  constructor
  · rw [hnode]
    split
    · rfl
    · exact h.home
  · intro l name' hne
    have hl : d.node? l = some .folder := by
      rw [hnode] at hne
      split at hne
      · next heq =>
          obtain ⟨rfl, -⟩ := List.append_inj' heq rfl
          exact hfolder
      · exact h.inside l name' hne
    rw [hnode]
    split
    · rfl
    · exact hl

theorem IsTree.makeParents (h : d.IsTree) (p : Path) : (d.makeParents p).IsTree :=
  makeFoldersAlong_invariant (fun _ _ _ _ h hmade => h.makeFolder hmade) h

/-- A path that can be opened passes folders only, and not the file that it ends at. -/
theorem IsTree.not_passes_of_openFile (h : d.IsTree) {append : Bool} {handle : Handle}
    (hopen : d.openFile p append = .ok (handle, d')) : ¬ p.Passes d.home (p.location d.home) := by
  rintro ⟨names, -, hbefore, hlt, hlocation⟩
  obtain ⟨folder, name, hfind, -⟩ := find_of_openFile hopen
  obtain ⟨before, hnames, hwalk, -, -⟩ := find_eq_named hfind
  -- All but the last name have been walked.
  have hle : names.length ≤ before.length := by
    rw [hnames, List.length_append, List.length_singleton] at hlt
    omega
  obtain ⟨rest, rfl⟩ := List.prefix_of_prefix_length_le (hnames ▸ hbefore)
    (List.prefix_append before [name]) hle
  have hfolder := h.walk (h.start p) hwalk
  rw [← hlocation, ← location_of_openFile hopen] at hfolder
  obtain ⟨-, -, ⟨content, room, hfile, -⟩ | ⟨hnone, -⟩⟩ := openFile_eq_ok hopen
  · cases hfile.symm.trans hfolder
  · cases hnone.symm.trans hfolder

end Disk

end HiddenTarget
