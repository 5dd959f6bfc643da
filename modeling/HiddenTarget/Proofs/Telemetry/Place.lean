import HiddenTarget.Proofs.Telemetry.Delivery
import HiddenTarget.Proofs.Telemetry.Footprint

/-!
# Where a sink has its file open

A sink opens its file at the first record or never, and gives it up only when it turns itself off.
So if it has a file open after some records, this is the file that its path leads to, which could
be opened before the first of them: `opensAt_of_place?`.
-/

namespace HiddenTarget.Telemetry.Logbook

variable {b : Logbook} {l : Location} {records : List Json.Members}

theorem foldl_record_of_off (h : b.sink.isEnabled = false) (records : List Json.Members) :
    records.foldl Logbook.record b = b := by
  induction records with
  | nil => rfl
  | cons members rest ih => rw [List.foldl_cons, record_of_off h, ih]

theorem place?_flush (h : b.sink.channel = none) : b.flush.place? = none := by
  rw [Logbook.flush, h, place?, h]
  rfl

theorem Within.place?_eq {p : Path} {P : Disk → Prop} (h : b.Within p l P) {l' : Location}
    (hplace : b.place? = some l') : l' = l := by
  obtain ⟨c, hc, rfl⟩ := Option.map_eq_some_iff.mp hplace
  exact h.channel c hc

theorem Within.foldl_record {p : Path} {P : Disk → Prop} (hP : Footprint p l P) (h : b.Within p l P)
    (records : List Json.Members) : (records.foldl Logbook.record b).Within p l P := by
  induction records generalizing b with
  | nil => exact h
  | cons members rest ih => exact ih (h.record hP members)

theorem place?_of_openChannel {b' : Logbook} (hopen : b.openChannel = (none, b'))
    (hclosed : b'.sink.channel = none) (hon : b.sink.isEnabled = true) (members : Json.Members)
    (rest : List Json.Members) :
    ((members :: rest).foldl Logbook.record b).flush.place? = none := by
  have hrecord : b.record members = b' := by rw [record, if_pos hon, writeLine, hopen]
  rw [List.foldl_cons, hrecord, foldl_record_of_off (openChannel_eq_none hopen)]
  exact place?_flush hclosed

/-- **A file that is open after some records** is where the path leads to, and could be opened
before the first of them. -/
theorem opensAt_of_place? {setup : Setup} {disk : Disk}
    (h : (records.foldl Logbook.record { sink := .ofSetup setup, disk := disk }).flush.place? =
      some l) :
    Logbook.OpensAt { sink := .ofSetup setup, disk := disk } l ∧
      ∃ path, setup.path = some path ∧ l = (Path.mk path).location disk.home := by
  let start : Logbook := { sink := .ofSetup setup, disk := disk }
  cases hon : start.sink.isEnabled with
  | false =>
      rw [foldl_record_of_off hon, place?_flush rfl] at h
      cases h
  | true =>
      cases records with
      | nil =>
          rw [List.foldl_nil, place?_flush rfl] at h
          cases h
      | cons members rest =>
          cases hpath : setup.path with
          | none =>
              have hopen : start.openChannel = (none, start.disable) := by
                simp only [openChannel, start, Sink.ofSetup, hpath]
              rw [place?_of_openChannel hopen rfl hon] at h
              cases h
          | some path =>
              have hwithin : start.Within ⟨path⟩ ((Path.mk path).location disk.home)
                  fun d => d.home = disk.home := ⟨hpath, by rintro _ ⟨⟩, rfl⟩
              have hP := footprint_home ⟨path⟩ disk.home
              have hl := ((hwithin.foldl_record hP (members :: rest)).flush hP).place?_eq h
              refine ⟨?_, path, rfl, hl⟩
              rcases hopen : (disk.makeParents ⟨path⟩).openFile ⟨path⟩ setup.append with
                fault | ⟨handle, d⟩
              · have hnone : start.openChannel = (none, { start with
                    disk := disk.makeParents ⟨path⟩
                    warnings := [⟨path, fault⟩] }.disable) := by
                  simp only [openChannel, start, Sink.ofSetup, hpath, hopen]
                  rfl
                rw [place?_of_openChannel hnone rfl hon] at h
                cases h
              · refine ⟨hon, rfl, path, handle, d, hpath, hopen, ?_⟩
                rw [hl, Disk.location_of_openFile hopen, Disk.home_makeParents]

end HiddenTarget.Telemetry.Logbook
