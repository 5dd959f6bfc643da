import HiddenTarget.Proofs.Disk.Location
import HiddenTarget.Proofs.Telemetry.Lifetime

/-!
# What a sink says

A sink has something to say if its file cannot be opened: `Says` follows the reasons of its
warnings through its life, and in the end there is one warning at most. The path stands in it as it
is, and nothing else in it can end a line, `Warning.count_newline_line`. So `warning_of_life` is one
line for a path without newlines, and one line more for each newline of the path. What stands behind
such a newline looks like a line of its own: `warning_forges_line`.
-/

namespace HiddenTarget

theorem PathFault.newline_not_mem_message (fault : PathFault) : '\n' ∉ fault.message.toList := by
  cases fault with
  | notFound => decide
  | alreadyExists => decide
  | notDirectory => decide
  | isDirectory => decide
  | nameTooLong => decide
  | embeddedNul => decide

namespace Telemetry

/-! ## The text of a warning -/

namespace Warning

def line (w : Warning) : String :=
  "[telemetry] WARN: cannot open " ++ w.path ++ ": " ++ w.fault.message ++ "; telemetry disabled"

theorem text_eq (w : Warning) : w.text = w.line ++ "\n" := by
  have hend : "; telemetry disabled\n" = "; telemetry disabled" ++ "\n" := by decide
  unfold text line
  rw [hend]
  exact String.append_assoc.symm

theorem front_line (w : Warning) : "[telemetry] WARN: ".toList <+: w.line.toList := by
  have hfront : "[telemetry] WARN: cannot open ".toList =
      "[telemetry] WARN: ".toList ++ "cannot open ".toList := by decide
  unfold line
  simp only [String.toList_append, hfront, List.append_assoc]
  exact List.prefix_append _ _

theorem count_newline_line (w : Warning) :
    w.line.toList.count '\n' = w.path.toList.count '\n' := by
  have hmessage : w.fault.message.toList.count '\n' = 0 :=
    List.count_eq_zero.mpr w.fault.newline_not_mem_message
  have hfront : "[telemetry] WARN: cannot open ".toList.count '\n' = 0 := by decide
  have hcolon : ": ".toList.count '\n' = 0 := by decide
  have hback : "; telemetry disabled".toList.count '\n' = 0 := by decide
  unfold line
  simp only [String.toList_append, List.count_append, hmessage, hfront, hcolon, hback,
    Nat.zero_add, Nat.add_zero]

end Warning

namespace Logbook

variable {setup : Setup} {b b' : Logbook}

/-! ## Where warnings come from -/

/-- What a sink of the given setup has to say: its path, which could not be opened. -/
structure Says (setup : Setup) (b : Logbook) : Prop where
  mode : b.sink.isEnabled = true → setup.mode = .jsonl
  path : b.sink.path = setup.path
  append : b.sink.append = setup.append
  warned : ∀ w ∈ b.warnings, setup.mode = .jsonl ∧ setup.path = some w.path ∧
    ∃ d : Disk, (d.makeParents ⟨w.path⟩).openFile ⟨w.path⟩ setup.append = .error w.fault

theorem says_ofSetup (setup : Setup) (disk : Disk) :
    Says setup { sink := .ofSetup setup, disk := disk } where
  mode hon := eq_of_beq hon
  path := rfl
  append := rfl
  warned _ hw := nomatch hw

theorem Says.flush (h : b.Says setup) : b.flush.Says setup := by
  obtain heq | ⟨c, -, heq⟩ := b.flush_cases
  · rwa [heq]
  · rw [heq]
    exact ⟨h.mode, h.path, h.append, h.warned⟩

theorem Says.writeLine {c : Channel} (hopen : b.openChannel = (some c, b')) (h : b'.Says setup)
    (text : String) : (b.writeLine text).Says setup := by
  obtain heq | heq := writeLine_cases hopen text
  · rw [heq]
    exact ⟨h.mode, h.path, h.append, h.warned⟩
  · rw [heq]
    exact ⟨(fun hon => by cases hon), h.path, h.append, h.warned⟩

theorem Says.record (h : b.Says setup) (members : Json.Members) :
    (b.record members).Says setup := by
  rw [Logbook.record]
  split
  · next hon =>
      obtain ⟨c, -, hopen⟩ | ⟨-, -, hopen⟩ |
        ⟨text, -, hpath, ⟨handle, d, -, hopen⟩ | ⟨fault, hfault, hopen⟩⟩ := b.openChannel_cases
      · exact Says.writeLine hopen h _
      · rw [Logbook.writeLine, hopen]
        exact ⟨(fun hon => by cases hon), h.path, h.append, h.warned⟩
      · exact Says.writeLine hopen ⟨h.mode, h.path, h.append, h.warned⟩ _
      · rw [Logbook.writeLine, hopen]
        rw [h.append] at hfault
        refine ⟨(fun hon => by cases hon), h.path, h.append, fun w hw => ?_⟩
        rcases List.mem_append.mp hw with hw | hw
        · exact h.warned w hw
        · obtain rfl := List.mem_singleton.mp hw
          exact ⟨h.mode hon, h.path.symm.trans hpath, b.disk, hfault⟩
  · exact h

/-- **One happening gives no other reason to say something.** -/
theorem Says.happen (h : b.Says setup) (happening : Happening) :
    (b.happen happening).Says setup := by
  cases happening with
  | change d => exact ⟨h.mode, h.path, h.append, h.warned⟩
  | call c =>
      obtain heq | heq | ⟨members, heq⟩ := b.happen_call_cases c
      · rwa [heq]
      · rw [heq]
        exact h.flush
      · rw [heq]
        exact h.record members

theorem Says.live (h : b.Says setup) (life : List Happening) : (b.live life).Says setup := by
  induction life generalizing b with
  | nil => exact h
  | cons happening rest ih => exact ih (h.happen happening)

/-! ## All that is said -/

theorem warningText_of_singleton {w : Warning} (h : b.warnings = [w]) :
    b.warningText = w.line ++ "\n" := by
  rw [warningText, h, List.map_singleton, String.join_cons, w.text_eq]
  exact String.append_empty

theorem close_warnings (b : Logbook) : b.close.warnings = b.warnings := by
  obtain heq | ⟨c, -, heq⟩ := b.flush_cases
  · rw [close, replace, heq]
  · rw [close, replace, heq]

/-- **A sink says nothing, or warns once that its path cannot be opened.** Whatever has happened
since a sink was set up, and when it has been closed, all it has said is nothing or one warning.
That starts with the name of the component, names the path and the reason why it could not be
opened, and ends with a newline. Before that it has as many newlines as the path: it is on a line of
its own exactly if the path has none. -/
theorem warning_of_life (setup : Setup) (disk : Disk) (life : List Happening) :
    let start : Logbook := { sink := .ofSetup setup, disk := disk }
    let said := (start.live life).close.warningText
    said = "" ∨ ∃ w : Warning,
      said = w.line ++ "\n" ∧
      "[telemetry] WARN: ".toList <+: w.line.toList ∧
      w.line.toList.count '\n' = w.path.toList.count '\n' ∧
      ('\n' ∉ w.line.toList ↔ '\n' ∉ w.path.toList) ∧
      setup.mode = .jsonl ∧ setup.path = some w.path ∧
      ∃ d : Disk, (d.makeParents ⟨w.path⟩).openFile ⟨w.path⟩ setup.append = .error w.fault := by
  intro start said
  have hsays : (start.live life).Says setup := (says_ofSetup setup disk).live life
  have hbrief := (inOrder_live setup disk life).brief
  have hclose := close_warnings (start.live life)
  match hwarnings : (start.live life).warnings with
  | [] =>
      have htexts : said = String.join ((start.live life).close.warnings.map Warning.text) := rfl
      exact .inl (by rw [htexts, hclose, hwarnings]; rfl)
  | [w] =>
      obtain ⟨hmode, hpath, hfault⟩ := hsays.warned w (hwarnings ▸ List.mem_cons_self)
      refine .inr ⟨w, warningText_of_singleton (hclose.trans hwarnings), w.front_line,
        w.count_newline_line, ?_, hmode, hpath, hfault⟩
      rw [← List.count_eq_zero, ← List.count_eq_zero, w.count_newline_line]
  | _ :: _ :: _ =>
      rw [hwarnings] at hbrief
      exact absurd hbrief (by simp)

/-- A folder stands where the path leads to, and there is a newline in its name. What stands behind
the newline is a line of its own, under the name of another component. -/
theorem warning_forges_line :
    let start : Logbook := {
      sink := .ofSetup (.jsonl "log\n[config] forged")
      disk := { nodes := [(["log\n[config] forged"], .folder)] } }
    let said := (start.live [.call (.value (.object []))]).close.warningText
    said ≠ "" ∧ (¬ ∃ body, said.toList = body ++ ['\n'] ∧ '\n' ∉ body) ∧
      said.toList.splitOn '\n' = [
        "[telemetry] WARN: cannot open log".toList,
        "[config] forged: Is a directory (os error 21); telemetry disabled".toList,
        []] := by
  intro start said
  have hfind : start.disk.find ⟨"log\n[config] forged"⟩ =
      .ok (.named [] "log\n[config] forged") :=
    Disk.find_of_names_eq_singleton _ rfl (by decide) (by decide) (by decide) (by decide)
      (by decide)
  have hfault : (start.disk.makeParents ⟨"log\n[config] forged"⟩).openFile
      ⟨"log\n[config] forged"⟩ false = .error .isDirectory := by
    have hparents : (Path.mk "log\n[config] forged").parents = [] := rfl
    rw [Disk.makeParents, hparents, Disk.makeFoldersAlong, Disk.openFile, hfind]
    rfl
  let w : Warning := ⟨"log\n[config] forged", .isDirectory⟩
  have hlive : (start.live [.call (.value (.object []))]).warnings = [w] := by
    have hcall : start.live [.call (.value (.object []))] = start.record [] := by
      rw [live, List.foldl_cons, List.foldl_nil, happen, call?, record?_object, Option.getD_some]
    rw [hcall, record_of_fault rfl rfl hfault rfl]
    rfl
  have hsaid : said = w.line ++ "\n" :=
    warningText_of_singleton ((close_warnings _).trans hlive)
  rw [hsaid]
  refine ⟨by decide, ?_, by decide⟩
  rintro ⟨body, hbody, hnot⟩
  rw [String.toList_append] at hbody
  have hline : w.line.toList = body := List.append_cancel_right hbody
  exact absurd (hline ▸ hnot) (by decide)

end Logbook

end Telemetry

end HiddenTarget
