import HiddenTarget.Proofs.Disk.Append
import HiddenTarget.Proofs.Telemetry.Faults
import HiddenTarget.Proofs.Telemetry.Writes

/-!
# The life of a sink

From the setup on, a sink is called, and the disk may be changed by others in between: that
is a `Happening`. What has been reached after any number of them satisfies `InOrder`, which
says how the mode, the channel, the warnings and the number of times that the file has been
opened hang together. `InOrder.happen` is the step and `inOrder_live` the whole life.

A sink that is off is off for good, and nothing that is asked of it has an effect. Its file
is opened once at most, and only then can the sink make a file shorter.
-/

namespace HiddenTarget

namespace Disk

/-- No file is shorter on the second disk than on the first one. -/
def Grows (d d' : Disk) : Prop := ∀ l, (d.content l).size ≤ (d'.content l).size

variable {d d' : Disk}

theorem Grows.refl (d : Disk) : d.Grows d := fun _ => Nat.le_refl _

theorem Grows.trans {d'' : Disk} (h : d.Grows d') (h' : d'.Grows d'') : d.Grows d'' :=
  fun l => Nat.le_trans (h l) (h' l)

theorem le_size_splice (content : ByteArray) (position : Nat) (bytes : ByteArray) :
    content.size ≤ (splice content position bytes).size := by
  have hfill : (ByteArray.mk (Array.replicate (position - content.size) 0)).size =
      position - content.size := Array.size_replicate
  simp only [splice, ByteArray.size_append, ByteArray.size_extract, hfill]
  omega

theorem grows_write (d : Disk) (h : Handle) (bytes : ByteArray) :
    d.Grows (d.write h bytes).2.2 := by
  intro l
  rw [write]
  split
  · next stored room hnode =>
      have hroot : h.location ≠ [] := by
        intro hnil
        rw [hnil] at hnode
        cases hnode
      by_cases hl : l = h.location
      · subst hl
        simp only [content, node?_put hroot, if_true, hnode]
        exact le_size_splice _ _ _
      · simp only [content, node?_put hroot, if_neg hl]
        exact Nat.le_refl _
  · exact Nat.le_refl _

theorem grows_makeParents (d : Disk) (p : Path) : d.Grows (d.makeParents p) := by
  intro l
  exact Nat.le_of_eq (by rw [content_eq, content_eq (d.makeParents p), file?_makeParents])

end Disk

namespace Telemetry

/-! ## A channel shortens nothing -/

namespace Channel

theorem preserved_grows (before : Disk) : PreservedByWrites fun _ d => before.Grows d :=
  fun h d bytes hgrows => hgrows.trans (d.grows_write h bytes)

theorem grows_flush (c : Channel) (d : Disk) : d.Grows (c.flush d).2.2 :=
  (preserved_grows d).flush (.refl d)

theorem grows_writeLine (c : Channel) (text : String) (d : Disk) :
    d.Grows (c.writeLine text d).2.2 :=
  (preserved_grows d).writeLine (.refl d) text

end Channel

namespace Logbook

variable {b b' : Logbook} {c : Call} {k : Nat}

/-! ## What a record can do -/

theorem openChannel_cases (b : Logbook) :
    (∃ c, b.sink.channel = some c ∧ b.openChannel = (some c, b)) ∨
      (b.sink.channel = none ∧ b.sink.path = none ∧ b.openChannel = (none, b.disable)) ∨
      ∃ text, b.sink.channel = none ∧ b.sink.path = some text ∧
        ((∃ handle d,
            (b.disk.makeParents ⟨text⟩).openFile ⟨text⟩ b.sink.append = .ok (handle, d) ∧
            b.openChannel = (some { handle := handle }, { b with
              disk := d
              sink := { b.sink with channel := some { handle := handle } } })) ∨
          ∃ fault, (b.disk.makeParents ⟨text⟩).openFile ⟨text⟩ b.sink.append = .error fault ∧
            b.openChannel = (none, { b with
              disk := b.disk.makeParents ⟨text⟩
              warnings := b.warnings ++ [Warning.mk text fault] }.disable)) := by
  cases hchannel : b.sink.channel with
  | some c => exact .inl ⟨c, rfl, openChannel_of_open hchannel⟩
  | none =>
      cases hpath : b.sink.path with
      | none => exact .inr (.inl ⟨rfl, rfl, by rw [openChannel, hchannel, hpath]⟩)
      | some text =>
          refine .inr (.inr ⟨text, rfl, rfl, ?_⟩)
          rcases hopen : (b.disk.makeParents ⟨text⟩).openFile ⟨text⟩ b.sink.append with
            fault | ⟨handle, d⟩
          · exact .inr ⟨fault, rfl, openChannel_of_fault hchannel hpath hopen⟩
          · exact .inl ⟨handle, d, rfl, openChannel_of_openFile hchannel hpath hopen⟩

/-- A line goes through the channel and the sink stays on, or the channel is given up and the
sink is off. -/
theorem writeLine_cases {c : Channel} (hopen : b.openChannel = (some c, b')) (text : String) :
    let (_, c', d) := c.writeLine text b'.disk
    b.writeLine text = { b' with disk := d, sink := { b'.sink with channel := some c' } } ∨
      b.writeLine text = { b' with
        disk := (c'.flush d).2.2
        sink := { b'.sink with channel := none } }.disable := by
  rw [writeLine, hopen]
  rcases hline : c.writeLine text b'.disk with ⟨_ | _, c', d⟩
  · exact .inr (by simp only [hline])
  · exact .inl (by simp only [hline])

theorem flush_cases (b : Logbook) :
    b.flush = b ∨ ∃ c, b.sink.channel = some c ∧
      let (_, c', d) := c.flush b.disk
      b.flush = { b with disk := d, sink := { b.sink with channel := some c' } } := by
  cases hchannel : b.sink.channel with
  | none => exact .inl (by rw [flush, hchannel])
  | some c => exact .inr ⟨c, rfl, by rw [flush, hchannel]⟩

/-! ## The life -/

/-- What can happen between the setup of a sink and its end. -/
inductive Happening
  | call (c : Call)
  /-- The disk is changed by others: its files, and the room that they have left. -/
  | change (d : Disk)

/-- A call without an answer leaves everything as it was. -/
def happen (b : Logbook) : Happening → Logbook
  | .call c => (b.call? c).getD b
  | .change d => { b with disk := d }

def live (b : Logbook) (life : List Happening) : Logbook := life.foldl happen b

/-- Whether the file is opened: a record asks for the channel of a sink that has none, and
gets one. -/
def opens (b : Logbook) : Happening → Bool
  | .call c =>
    c.members?.isSome && b.sink.isEnabled && b.sink.channel.isNone && b.openChannel.1.isSome
  | .change _ => false

def openings : Logbook → List Happening → Nat
  | _, [] => 0
  | b, h :: rest => (b.opens h).toNat + (b.happen h).openings rest

theorem live_cons (b : Logbook) (h : Happening) (rest : List Happening) :
    b.live (h :: rest) = (b.happen h).live rest := rfl

theorem openings_cons (b : Logbook) (h : Happening) (rest : List Happening) :
    b.openings (h :: rest) = (b.opens h).toNat + (b.happen h).openings rest := rfl

/-- A sink whose file has been opened `k` times, and how its parts hang together. -/
structure InOrder (b : Logbook) (k : Nat) : Prop where
  closed : b.sink.isEnabled = false → b.sink.channel = none
  path : b.sink.channel ≠ none → b.sink.path ≠ none
  unopened : b.sink.isEnabled = true → b.sink.channel = none → k = 0
  once : k ≤ 1
  /-- A warning is the last thing before the sink is off. -/
  silent : b.sink.isEnabled = true → b.warnings = []
  brief : b.warnings.length ≤ 1

theorem inOrder_ofSetup (setup : Setup) (disk : Disk) :
    InOrder { sink := .ofSetup setup, disk := disk } 0 where
  closed _ := rfl
  path h := absurd rfl h
  unopened _ _ := rfl
  once := Nat.zero_le 1
  silent _ := rfl
  brief := Nat.zero_le 1

theorem call?_eq_self (hoff : b.sink.isEnabled = false) (hclosed : b.sink.channel = none)
    (c : Call) : b.call? c = some b := by
  cases hc : c.members? with
  | some members => rw [call?_of_members? hc, record_of_off hoff]
  | none =>
      cases c with
      | value v =>
          rw [call?, record?, hoff]
          rfl
      | step episode action outcome => cases hc
      | episode summary => cases hc
      | flush => rw [call?, flush, hclosed]

theorem call?_of_members?_eq_none (hon : b.sink.isEnabled = true) (hc : c.members? = none) :
    c = .flush ∨ b.call? c = none := by
  cases c with
  | value v =>
      refine .inr ?_
      rw [call?, record?, if_pos hon]
      cases v with
      | object ms => cases hc
      | _ => rfl
  | step episode action outcome => cases hc
  | episode summary => cases hc
  | flush => exact .inl rfl

/-- All that a call can do: nothing, a flush, or a record. -/
theorem happen_call_cases (b : Logbook) (c : Call) :
    b.happen (.call c) = b ∨ b.happen (.call c) = b.flush ∨
      ∃ members, b.happen (.call c) = b.record members := by
  cases hc : c.members? with
  | some members =>
      exact .inr (.inr ⟨members, by rw [happen, call?_of_members? hc, Option.getD_some]⟩)
  | none =>
      cases hon : b.sink.isEnabled with
      | true =>
          obtain rfl | hnone := call?_of_members?_eq_none hon hc
          · exact .inr (.inl rfl)
          · exact .inl (by rw [happen, hnone, Option.getD_none])
      | false =>
          cases c with
          | value v =>
              refine .inl ?_
              rw [happen, call?, record?, hon]
              rfl
          | step episode action outcome => cases hc
          | episode summary => cases hc
          | flush => exact .inr (.inl rfl)

theorem InOrder.flush (h : b.InOrder k) : b.flush.InOrder k := by
  obtain heq | ⟨c, hc, heq⟩ := b.flush_cases
  · rwa [heq]
  · have hopen : b.sink.channel ≠ none := by simp [hc]
    rw [heq]
    exact {
      closed := fun hoff => absurd (h.closed hoff) hopen
      path := fun _ => h.path hopen
      unopened := fun _ hnone => by cases hnone
      once := h.once
      silent := h.silent
      brief := h.brief }

theorem InOrder.writeLine {c : Channel} (hopen : b.openChannel = (some c, b'))
    (h : b'.InOrder k) (hchannel : b'.sink.channel = some c) (text : String) :
    (b.writeLine text).InOrder k := by
  have hpath : b'.sink.path ≠ none := h.path (by simp [hchannel])
  obtain heq | heq := writeLine_cases hopen text
  · rw [heq]
    exact {
      closed := fun hoff => by simp [h.closed hoff] at hchannel
      path := fun _ => hpath
      unopened := fun _ hnone => by cases hnone
      once := h.once
      silent := h.silent
      brief := h.brief }
  · rw [heq]
    exact {
      closed := fun _ => rfl
      path := fun hne => absurd rfl hne
      unopened := fun hon => by cases hon
      once := h.once
      silent := fun hon => by cases hon
      brief := h.brief }

theorem InOrder.record (h : b.InOrder k) (hon : b.sink.isEnabled = true)
    (members : Json.Members) :
    (b.record members).InOrder
      ((b.sink.channel.isNone && b.openChannel.1.isSome).toNat + k) := by
  rw [Logbook.record, if_pos hon]
  obtain ⟨c, hc, hopen⟩ | ⟨hc, hpath, hopen⟩ |
    ⟨text, hc, hpath, ⟨handle, d, -, hopen⟩ | ⟨fault, -, hopen⟩⟩ := b.openChannel_cases
  · have hzero : (b.sink.channel.isNone && b.openChannel.1.isSome).toNat = 0 := by simp [hc]
    rw [hzero, Nat.zero_add]
    exact InOrder.writeLine hopen h hc _
  · have hzero : (b.sink.channel.isNone && b.openChannel.1.isSome).toNat = 0 := by simp [hopen]
    rw [hzero, Nat.zero_add, Logbook.writeLine, hopen]
    exact {
      closed := fun _ => hc
      path := fun hne => absurd hc hne
      unopened := fun hon => by cases hon
      once := h.once
      silent := fun hon => by cases hon
      brief := h.brief }
  · have hone : (b.sink.channel.isNone && b.openChannel.1.isSome).toNat = 1 := by simp [hc, hopen]
    rw [hone, h.unopened hon hc]
    refine InOrder.writeLine hopen ?_ rfl _
    exact {
      closed := fun hoff => by simp_all [Sink.isEnabled]
      path := fun _ => by simp [hpath]
      unopened := fun _ hnone => by cases hnone
      once := Nat.le_refl 1
      silent := h.silent
      brief := h.brief }
  · have hzero : (b.sink.channel.isNone && b.openChannel.1.isSome).toNat = 0 := by simp [hopen]
    rw [hzero, Nat.zero_add, Logbook.writeLine, hopen]
    exact {
      closed := fun _ => hc
      path := fun hne => absurd hc hne
      unopened := fun hon => by cases hon
      once := h.once
      silent := fun hon => by cases hon
      brief := by simp [disable, h.silent hon] }

/-- **One happening keeps a sink in order**, and counts if it opens the file. -/
theorem InOrder.happen (h : b.InOrder k) (happening : Happening) :
    (b.happen happening).InOrder ((b.opens happening).toNat + k) := by
  cases happening with
  | change d =>
      rw [opens, Bool.toNat_false, Nat.zero_add]
      exact ⟨h.closed, h.path, h.unopened, h.once, h.silent, h.brief⟩
  | call c =>
      cases hon : b.sink.isEnabled with
      | false =>
          rw [Logbook.happen, call?_eq_self hon (h.closed hon), opens, hon, Bool.and_false]
          simpa using h
      | true =>
          cases hc : c.members? with
          | some members =>
              rw [Logbook.happen, call?_of_members? hc, opens, hc, hon]
              exact h.record hon members
          | none =>
              rw [opens, hc]
              simp only [Option.isSome_none, Bool.false_and, Bool.toNat_false, Nat.zero_add]
              obtain rfl | hnone := call?_of_members?_eq_none hon hc
              · exact h.flush
              · rwa [Logbook.happen, hnone]

theorem InOrder.live (h : b.InOrder k) (life : List Happening) :
    (b.live life).InOrder (b.openings life + k) := by
  induction life generalizing b k with
  | nil =>
      rw [openings, Nat.zero_add]
      exact h
  | cons happening rest ih =>
      have hrest := ih (h.happen happening)
      rw [live_cons, openings_cons]
      rwa [← Nat.add_assoc, Nat.add_comm (Logbook.openings _ rest)] at hrest

theorem inOrder_live (setup : Setup) (disk : Disk) (life : List Happening) :
    let start : Logbook := { sink := .ofSetup setup, disk := disk }
    (start.live life).InOrder (start.openings life) :=
  (inOrder_ofSetup setup disk).live life

/-- From when the sink is off, only others change anything. -/
theorem live_of_off (hoff : b.sink.isEnabled = false) (hclosed : b.sink.channel = none)
    (later : List Happening) :
    (b.live later).sink = b.sink ∧ (b.live later).warnings = b.warnings := by
  induction later generalizing b with
  | nil => exact ⟨rfl, rfl⟩
  | cons happening rest ih =>
      rw [live_cons]
      cases happening with
      | call c =>
          rw [happen, call?_eq_self hoff hclosed]
          exact ih hoff hclosed
      | change d => exact ih (b := { b with disk := d }) hoff hclosed

theorem grows_writeLine {c : Channel} (hopen : b.openChannel = (some c, b')) (text : String) :
    b'.disk.Grows (b.writeLine text).disk := by
  have hgrows := c.grows_writeLine text b'.disk
  obtain heq | heq := writeLine_cases hopen text
  · rwa [heq]
  · rw [heq]
    exact hgrows.trans (Channel.grows_flush _ _)

theorem grows_record (h : (b.sink.channel.isNone && b.openChannel.1.isSome) = false)
    (hon : b.sink.isEnabled = true) (members : Json.Members) :
    b.disk.Grows (b.record members).disk := by
  rw [record, if_pos hon]
  obtain ⟨c, hc, hopen⟩ | ⟨hc, -, hopen⟩ |
    ⟨text, hc, -, ⟨handle, d, -, hopen⟩ | ⟨fault, -, hopen⟩⟩ := b.openChannel_cases
  · exact grows_writeLine hopen _
  · rw [writeLine, hopen]
    exact .refl b.disk
  · simp [hc, hopen] at h
  · rw [writeLine, hopen]
    exact b.disk.grows_makeParents ⟨text⟩

/-- **Only when it opens its file can a sink make a file shorter.** -/
theorem grows_of_not_opens (hclosed : b.sink.isEnabled = false → b.sink.channel = none)
    (h : b.opens (.call c) = false) : b.disk.Grows (b.happen (.call c)).disk := by
  cases hon : b.sink.isEnabled with
  | false =>
      rw [happen, call?_eq_self hon (hclosed hon)]
      exact .refl b.disk
  | true =>
      cases hc : c.members? with
      | some members =>
          rw [opens, hc, hon] at h
          rw [happen, call?_of_members? hc]
          exact grows_record h hon members
      | none =>
          obtain rfl | hnone := call?_of_members?_eq_none hon hc
          · obtain heq | ⟨c, -, heq⟩ := b.flush_cases
            · rw [happen, call?, Option.getD_some, heq]
              exact .refl b.disk
            · rw [happen, call?, Option.getD_some, heq]
              exact c.grows_flush b.disk
          · rw [happen, hnone]
            exact .refl b.disk

theorem isEnabled_eq_false_iff (s : Sink) : s.isEnabled = false ↔ s.mode = .off := by
  cases hmode : s.mode with
  | off => simp [Sink.isEnabled, hmode]
  | jsonl => simp [Sink.isEnabled, hmode]

/-- **A sink that is off is dead, and a file is opened once.** Whatever has happened since a
sink was set up: if it is off, it has no channel, takes every call without any effect, ends
without any, and stays off. A channel leads to the file of a path. The file has been opened
once at most, and no call shortens a file that does not open one. There has been one warning
at most. While the sink is on, a value that is no object has no answer and changes nothing. -/
theorem life_of_sink (setup : Setup) (disk : Disk) (life : List Happening) :
    let start : Logbook := { sink := .ofSetup setup, disk := disk }
    let b := start.live life
    (b.sink.mode = .off → b.sink.channel = none) ∧
    (b.sink.channel ≠ none → b.sink.path ≠ none) ∧
    start.openings life ≤ 1 ∧
    b.warnings.length ≤ 1 ∧
    (b.sink.isEnabled = false →
      (∀ c, b.call? c = some b) ∧ b.close.disk = b.disk ∧ b.close.warnings = b.warnings ∧
      ∀ later, (b.live later).sink = b.sink ∧ (b.live later).warnings = b.warnings) ∧
    (∀ c, b.opens (.call c) = false → b.disk.Grows (b.happen (.call c)).disk) ∧
    (b.sink.isEnabled = true → ∀ v, (∀ members, v ≠ .object members) →
      b.call? (.value v) = none ∧ b.happen (.call (.value v)) = b) := by
  intro start b
  have horder : b.InOrder (start.openings life) := inOrder_live setup disk life
  refine ⟨?_, horder.path, horder.once, horder.brief, ?_, ?_, ?_⟩
  · intro hmode
    exact horder.closed ((isEnabled_eq_false_iff b.sink).mpr hmode)
  · intro hoff
    have hclosed := horder.closed hoff
    have hflush : b.flush = b := Option.some.inj (call?_eq_self hoff hclosed .flush)
    refine ⟨call?_eq_self hoff hclosed, ?_, ?_, live_of_off hoff hclosed⟩
    · rw [close, replace, hflush]
    · rw [close, replace, hflush]
  · intro c hopens
    exact grows_of_not_opens horder.closed hopens
  · intro hon v hv
    have hmembers : (Call.value v).members? = none := by
      cases v with
      | object members => exact absurd rfl (hv members)
      | _ => rfl
    obtain hflush | hnone := call?_of_members?_eq_none hon hmembers
    · cases hflush
    · exact ⟨hnone, by rw [happen, hnone, Option.getD_none]⟩

/-- The root folder cannot be opened as a file. The first record finds that out, and the sink
is dead from then on; before that, a number makes it panic. -/
theorem life_of_sink_at_root :
    let start : Logbook := { sink := .ofSetup (.jsonl "/") }
    let b := start.live [.call (.value (.integer 7)), .call (.value (.object []))]
    start.call? (.value (.integer 7)) = none ∧ b.sink.isEnabled = false ∧
      b.warnings.length = 1 ∧ ∀ c, b.call? c = some b := by
  intro start b
  obtain ⟨-, -, -, -, -, -, hpanic⟩ := life_of_sink (.jsonl "/") {} []
  obtain ⟨-, -, -, -, hdead, -⟩ :=
    life_of_sink (.jsonl "/") {} [.call (.value (.integer 7)), .call (.value (.object []))]
  have hoff : b.sink.isEnabled = false := by decide
  exact ⟨(hpanic rfl (.integer 7) (fun members h => by cases h)).1, hoff, by decide,
    (hdead hoff).1⟩

end Logbook

end Telemetry

end HiddenTarget
