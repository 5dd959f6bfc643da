import HiddenTarget.Proofs.Disk.Ancestors
import HiddenTarget.Proofs.Telemetry.Footprint
import HiddenTarget.Proofs.Telemetry.Lifetime

/-!
# What a sink leaves alone

A sink that is set up, called and closed touches the file at the end of its path, and may make
the folders that the path passes: everything else on the disk is kept, `footprint_kept`. Up to the
first record that is made while it is on it does nothing at all. If its file cannot be opened then,
it has made folders at most and is off, `live_of_fault`. `touches_own_path` has all of this
together.
-/

namespace HiddenTarget.Telemetry

theorem footprint_kept (p : Path) (disk : Disk) :
    Footprint p (p.location disk.home) fun d =>
      d.home = disk.home ∧ ∀ l, l ≠ p.location disk.home → disk.Kept d p l where
  parents d hd :=
    ⟨(d.home_makeParents p).trans hd.1,
      fun l hl => (hd.2 l hl).trans hd.1 (d.kept_makeParents p l)⟩
  opening d append h d' hd hopen := by
    have hlocation : h.location = p.location disk.home := hd.1 ▸ Disk.location_of_openFile hopen
    refine ⟨⟨(Disk.home_openFile hopen).trans hd.1, fun l hl => ?_⟩, hlocation⟩
    exact (hd.2 l hl).trans hd.1 (.inl (Disk.node?_openFile hopen (hlocation ▸ hl)))
  writing d h bytes hd hlocation :=
    ⟨(d.home_write h bytes).trans hd.1,
      fun l hl => (hd.2 l hl).trans hd.1 (.inl (d.node?_write bytes (hlocation ▸ hl)))⟩

namespace Logbook

variable {b : Logbook}

theorem live_calls_cons (b : Logbook) (c : Call) (rest : List Call) :
    b.live ((c :: rest).map .call) = (b.happen (.call c)).live (rest.map .call) := rfl

theorem Within.live {p : Path} {l : Location} {P : Disk → Prop} (hP : Footprint p l P)
    (h : b.Within p l P) (calls : List Call) : (b.live (calls.map .call)).Within p l P := by
  induction calls generalizing b with
  | nil => exact h
  | cons c rest ih =>
      rw [live_calls_cons]
      refine ih ?_
      rw [happen]
      cases hcall : b.call? c with
      | none => exact h
      | some b' => exact h.call? hP hcall

/-! ## Before the file is opened -/

theorem flush_of_closed (hclosed : b.sink.channel = none) : b.flush = b := by
  rw [flush, hclosed]

theorem close_disk_of_closed (hclosed : b.sink.channel = none) : b.close.disk = b.disk := by
  rw [close, replace, flush_of_closed hclosed]

/-- Without an open file only a record does anything, and only while the sink is on. -/
theorem happen_of_closed (hclosed : b.sink.channel = none) {c : Call}
    (h : b.sink.isEnabled = true → c.members? = none) : b.happen (.call c) = b := by
  rw [happen]
  cases hon : b.sink.isEnabled with
  | false => rw [call?_eq_self hon hclosed, Option.getD_some]
  | true =>
      obtain rfl | hnone := call?_of_members?_eq_none hon (h hon)
      · exact flush_of_closed hclosed
      · rw [hnone, Option.getD_none]

theorem live_of_unrecorded (hclosed : b.sink.channel = none) {calls : List Call}
    (h : ∀ before c later, calls = before ++ c :: later →
      (b.live (before.map .call)).sink.isEnabled = true → c.members? = none) :
    b.live (calls.map .call) = b := by
  induction calls with
  | nil => rfl
  | cons c rest ih =>
      have hfirst : b.happen (.call c) = b := happen_of_closed hclosed (h [] c rest rfl)
      rw [live_calls_cons, hfirst]
      refine ih fun before c' later heq hon => h (c :: before) c' later (heq ▸ rfl) ?_
      rwa [live_calls_cons, hfirst]

theorem live_of_dead (hoff : b.sink.isEnabled = false) (hclosed : b.sink.channel = none)
    (calls : List Call) : b.live (calls.map .call) = b := by
  refine live_of_unrecorded hclosed fun before c later _ hon => ?_
  rw [(live_of_off hoff hclosed _).1, hoff] at hon
  cases hon

/-- If each record makes the sink give up, there is never a channel, and the disk is as it was or
as the first one has left it. -/
theorem live_of_givesUp (hclosed : b.sink.channel = none) {d : Disk}
    (hrecord : b.sink.isEnabled = true → ∀ members, (b.record members).sink.isEnabled = false ∧
      (b.record members).sink.channel = none ∧ (b.record members).disk = d) (calls : List Call) :
    (b.live (calls.map .call)).sink.channel = none ∧
      ((b.live (calls.map .call)).disk = b.disk ∨ (b.live (calls.map .call)).disk = d) := by
  induction calls with
  | nil => exact ⟨hclosed, .inl rfl⟩
  | cons c rest ih =>
      rw [live_calls_cons]
      by_cases h : b.sink.isEnabled = true → c.members? = none
      · rwa [happen_of_closed hclosed h]
      · obtain ⟨hon, hc⟩ := Classical.not_imp.mp h
        obtain ⟨members, hmembers⟩ := Option.ne_none_iff_exists'.mp hc
        obtain ⟨hoff, hclosed', hdisk⟩ := hrecord hon members
        rw [happen, call?_of_members? hmembers, Option.getD_some, live_of_dead hoff hclosed']
        exact ⟨hclosed', .inr hdisk⟩

theorem live_of_no_path (hclosed : b.sink.channel = none) (hpath : b.sink.path = none)
    (calls : List Call) :
    (b.live (calls.map .call)).sink.channel = none ∧
      (b.live (calls.map .call)).disk = b.disk := by
  have hrecord (hon : b.sink.isEnabled = true) (members : Json.Members) :
      b.record members = b.disable := by
    rw [record, if_pos hon, writeLine, openChannel, hclosed, hpath]
  refine (live_of_givesUp hclosed (fun hon members => ?_) calls).imp_right (or_self_iff.mp ·)
  rw [hrecord hon members]
  exact ⟨rfl, hclosed, rfl⟩

theorem live_of_fault (hclosed : b.sink.channel = none) {text : String} {fault : PathFault}
    (hpath : b.sink.path = some text)
    (hfault : (b.disk.makeParents ⟨text⟩).openFile ⟨text⟩ b.sink.append = .error fault)
    (calls : List Call) :
    (b.live (calls.map .call)).sink.channel = none ∧
      ((b.live (calls.map .call)).disk = b.disk ∨
        (b.live (calls.map .call)).disk = b.disk.makeParents ⟨text⟩) := by
  refine live_of_givesUp hclosed (fun hon members => ?_) calls
  rw [record_of_fault hclosed hpath hfault hon]
  exact ⟨rfl, hclosed, rfl⟩

/-- **A sink touches its own path only.** When a sink has been set up, called in any way and
closed, a location that has changed is the end of its path or one that the path passes. What the
path passes has been made a folder at most, if nothing was there. (A path can pass its own end, as
`log/../log` does; then this takes the disk to be a tree, where such a path cannot be opened.)
Nothing at all has changed if no object was recorded while the sink was on, if it was set up as
off, or if it has no path. If the file cannot be opened, no file has changed. -/
theorem touches_own_path (setup : Setup) (disk : Disk) (calls : List Call) :
    let start : Logbook := { sink := .ofSetup setup, disk := disk }
    let after := (start.live (calls.map .call)).close.disk
    after.home = disk.home ∧
    (∀ l, after.node? l ≠ disk.node? l → ∃ text, setup.path = some text ∧
      (l = (⟨text⟩ : Path).location disk.home ∨ (⟨text⟩ : Path).Passes disk.home l)) ∧
    (∀ text l, setup.path = some text → (⟨text⟩ : Path).Passes disk.home l →
      l ≠ (⟨text⟩ : Path).location disk.home ∨ disk.IsTree →
      after.node? l = disk.node? l ∨
        disk.node? l = none ∧ after.node? l = some .folder) ∧
    ((∀ before c later, calls = before ++ c :: later →
      (start.live (before.map .call)).sink.isEnabled = true → c.members? = none) →
      after = disk) ∧
    (setup.mode = .off → after = disk) ∧
    (setup.path = none → after = disk) ∧
    (∀ text fault, setup.path = some text →
      (disk.makeParents ⟨text⟩).openFile ⟨text⟩ setup.append = .error fault →
      ∀ l, after.file? l = disk.file? l) := by
  intro start after
  have hclosed : start.sink.channel = none := rfl
  have hnothing : setup.path = none → after = disk := fun hpath => by
    obtain ⟨hchannel, hdisk⟩ := live_of_no_path hclosed hpath calls
    exact (close_disk_of_closed hchannel).trans hdisk
  have hfaulty : ∀ text fault, setup.path = some text →
      (disk.makeParents ⟨text⟩).openFile ⟨text⟩ setup.append = .error fault →
      after = disk ∨ after = disk.makeParents ⟨text⟩ := fun text fault hpath hfault => by
    obtain ⟨hchannel, hdisk⟩ := live_of_fault hclosed hpath hfault calls
    rwa [← close_disk_of_closed hchannel] at hdisk
  have hkept : ∀ text, setup.path = some text → after.home = disk.home ∧
      ∀ l, l ≠ (⟨text⟩ : Path).location disk.home → disk.Kept after ⟨text⟩ l := fun text hpath => by
    have hP := footprint_kept ⟨text⟩ disk
    have hstart : start.Within ⟨text⟩ ((⟨text⟩ : Path).location disk.home) fun d =>
        d.home = disk.home ∧
          ∀ l, l ≠ (⟨text⟩ : Path).location disk.home → disk.Kept d ⟨text⟩ l :=
      ⟨hpath, by rintro _ ⟨⟩, rfl, fun _ _ => .inl rfl⟩
    exact ((hstart.live hP calls).flush hP).disk
  refine ⟨?_, ?_, ?_, ?_, ?_, hnothing, ?_⟩
  · cases hpath : setup.path with
    | none => rw [hnothing hpath]
    | some text => exact (hkept text hpath).1
  · intro l hl
    cases hpath : setup.path with
    | none => exact absurd (by rw [hnothing hpath]) hl
    | some text =>
        refine ⟨text, rfl, Classical.or_iff_not_imp_left.mpr fun hend => ?_⟩
        exact (((hkept text hpath).2 l hend).resolve_left hl).1
  · intro text l hpath hpasses hor
    by_cases hend : l = (⟨text⟩ : Path).location disk.home
    · have htree : disk.IsTree := hor.resolve_left fun hne => hne hend
      subst hend
      cases hopen : (disk.makeParents ⟨text⟩).openFile ⟨text⟩ setup.append with
      | ok opened =>
          refine absurd hpasses ?_
          have hnot := (htree.makeParents ⟨text⟩).not_passes_of_openFile hopen
          rwa [disk.home_makeParents] at hnot
      | error fault =>
          rcases hfaulty text fault hpath hopen with heq | heq
          · exact .inl (by rw [heq])
          · rw [heq]
            exact (disk.kept_makeParents ⟨text⟩ _).imp_right And.right
    · exact ((hkept text hpath).2 l hend).imp_right And.right
  · intro hunrecorded
    have hlive := live_of_unrecorded hclosed hunrecorded
    exact (congrArg (fun b => b.close.disk) hlive).trans (close_disk_of_closed hclosed)
  · intro hmode
    have hoff : start.sink.isEnabled = false := (isEnabled_eq_false_iff _).mpr hmode
    have hlive := live_of_dead hoff hclosed calls
    exact (congrArg (fun b => b.close.disk) hlive).trans (close_disk_of_closed hclosed)
  · intro text fault hpath hfault l
    rcases hfaulty text fault hpath hfault with heq | heq
    · rw [heq]
    · rw [heq, Disk.file?_makeParents]

/-- Next to an old file, a record goes to a new folder, a path ends in a slash, and a sink is asked
for everything but an object. -/
theorem touches_own_path_beside_old :
    let disk : Disk := ⟨[(["w"], .folder), (["w", "old"], .file "old".toUTF8 none)], ["w"]⟩
    let after (path : String) (calls : List Call) : Disk :=
      (({ sink := .ofSetup (.jsonl path), disk := disk } : Logbook).live
        (calls.map .call)).close.disk
    let empty : Call := .value (.object [])
    (after "new/log" [empty, .flush]).node? ["w", "old"] = some (.file "old".toUTF8 none) ∧
    ((after "new/log" [empty, .flush]).node? ["w", "new"] = none ∨
      (after "new/log" [empty, .flush]).node? ["w", "new"] = some .folder) ∧
    (∀ l, (after "log/" [empty]).file? l = disk.file? l) ∧
    after "old" [.flush, .value (.integer 7), .flush] = disk := by
  intro disk after empty
  obtain ⟨-, hframe, hpassed, -⟩ :=
    touches_own_path (.jsonl "new/log") disk [empty, .flush]
  obtain ⟨-, -, -, -, -, -, hfault⟩ := touches_own_path (.jsonl "log/") disk [empty]
  obtain ⟨-, -, -, hunrecorded, -⟩ :=
    touches_own_path (.jsonl "old") disk [.flush, .value (.integer 7), .flush]
  have hnames : (Path.mk "new/log").names = ["new", "log"] := rfl
  have hlocation : (Path.mk "new/log").location ["w"] = ["w", "new", "log"] := rfl
  have hpasses : (Path.mk "new/log").Passes ["w"] ["w", "new"] :=
    ⟨["new"], by simp, ⟨["log"], rfl⟩, by decide, rfl⟩
  refine ⟨?_, ?_, ?_, ?_⟩
  · refine Classical.byContradiction fun hchanged => ?_
    obtain ⟨text, htext, hend | ⟨names, hne, hbefore, hlt, hpassed⟩⟩ := hframe ["w", "old"] hchanged
    · cases htext
      exact absurd (hend.trans hlocation) (by decide)
    · cases htext
      -- The only name before the last one is that of another folder.
      rw [hnames] at hbefore hlt
      have hone : names = ["new"] := by
        match names with
        | [] => exact absurd rfl hne
        | [name] => rw [(List.cons_prefix_cons.mp hbefore).1]
        | _ :: _ :: _ => exact absurd hlt (by simp)
      rw [hone] at hpassed
      exact absurd hpassed (by decide)
  · have hne : ["w", "new"] ≠ (Path.mk "new/log").location ["w"] := by
      rw [hlocation]
      decide
    exact (hpassed "new/log" ["w", "new"] rfl hpasses (.inl hne)).imp_right And.right
  · refine hfault "log/" .isDirectory rfl ?_
    have hfind : disk.find ⟨"log/"⟩ = .ok (.named ["w"] "log") := by
      rw [Disk.find, show (Path.mk "log/").names = ["log"] from rfl, if_neg (by simp)]
      rfl
    change disk.openFile ⟨"log/"⟩ false = _
    rw [Disk.openFile, hfind]
    rfl
  · refine hunrecorded fun before c later heq _ => ?_
    have hmem : c ∈ [Call.flush, .value (.integer 7), .flush] := by simp [heq]
    simp only [List.mem_cons, List.not_mem_nil, or_false] at hmem
    rcases hmem with rfl | rfl | rfl
    · rfl
    · rfl
    · rfl

end Logbook

end HiddenTarget.Telemetry
