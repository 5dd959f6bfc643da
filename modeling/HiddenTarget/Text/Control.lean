/-!
# Text without control sequences

A terminal obeys some characters of a text instead of showing them: control characters,
and the sequences that an escape character opens. `plain` is what is left of a text
where nothing obeys: the visible characters outside such sequences.

A `Sequence` says which sequence the text is in, and `Sequence.next` takes it over one
character. Blank control characters (tab, newline, form feed, carriage return) are
visible, and a sequence that they do not belong to lets them through: they and the
visible characters after them are shown, and the sequence goes on behind those. A
sequence that does not end hides the rest.

Only visible characters are shown (`isVisible_of_mem_shown`), and all of them where
there is nothing else (`plain_eq_self`).
-/

namespace HiddenTarget.Text

/-- The parts of a sequence between its introducer and its final character. -/
inductive Header
  | entry
  | parameters
  | intermediates
  | malformed
deriving DecidableEq, Repr

inductive Sequence
  | ground
  | escape
  /-- Behind an escape character and others that announce a final one. -/
  | escapeIntermediates
  | control (h : Header)
  /-- In a device control string, before its data. -/
  | device (h : Header)
  /-- In the data of a device control string, or in another string. -/
  | string
  | command
deriving DecidableEq, Repr

/-- Whether a character has its code in a range, both ends included. -/
def within (c : Char) (first last : Nat) : Bool := first ≤ c.toNat && c.toNat ≤ last

/-- A control character that leaves a blank. -/
def isBlankControl (c : Char) : Bool := c = '\t' || c = '\n' || c = '\x0c' || c = '\r'

def isVisible (c : Char) : Bool := within c 0x20 0x7e || isBlankControl c || 0x80 ≤ c.toNat

/-- Whether one of the bytes of a character is `9c`, which ends a string. -/
def closesString (c : Char) : Bool := (String.utf8EncodeChar c).contains 0x9c

namespace Header

def endsWith (c : Char) : Bool := within c 0x40 0x7e

def next : Header → Char → Header
  | entry, c =>
    if within c 0x20 0x2f then intermediates
    else if within c 0x30 0x3f then parameters
    else entry
  | parameters, c =>
    if within c 0x20 0x2f then intermediates
    else if within c 0x3c 0x3f then malformed
    else parameters
  | intermediates, c => if within c 0x30 0x3f then malformed else intermediates
  | malformed, _ => malformed

end Header

namespace Sequence

def opened (c : Char) : Sequence :=
  if c = '[' then control .entry
  else if c = ']' then command
  else if c = 'P' then device .entry
  else if c = 'X' ∨ c = '^' ∨ c = '_' then string
  else if within c 0x20 0x2f then escapeIntermediates
  else if within c 0x30 0x7e then ground
  else escape

/-- Where a text is after a character. Cancel and substitute end every sequence, and an
escape character opens a new one. -/
def next (s : Sequence) (c : Char) : Sequence :=
  if c = '\x18' ∨ c = '\x1a' then ground
  else if c = '\x1b' then escape
  else match s with
    | ground => ground
    | escape => opened c
    | escapeIntermediates => if within c 0x30 0x7e then ground else escapeIntermediates
    | control h => if Header.endsWith c then ground else control (h.next c)
    | device .malformed => if closesString c then ground else device .malformed
    | device h => if Header.endsWith c then string else device (h.next c)
    | string => if closesString c then ground else string
    | command => if c = '\x07' then ground else command

def letsBlanksThrough : Sequence → Bool
  | ground | escape | escapeIntermediates | control _ => true
  | device _ | string | command => false

/-- Whether a character shows that does not follow a shown one. -/
def lets (s : Sequence) (c : Char) : Bool :=
  if s = ground then isVisible c else s.letsBlanksThrough && isBlankControl c

end Sequence

/-- The characters of a text that are shown, from a place in it on. Behind a shown
character all visible ones are shown, and the sequence around them waits; a character
beyond ASCII ends it. -/
def shown : Sequence → Bool → List Char → List Char
  | _, _, [] => []
  | s, running, c :: rest =>
    if running && isVisible c then
      c :: shown (if 0x80 ≤ c.toNat then .ground else s) true rest
    else if s.lets c then c :: shown (s.next c) true rest
    else shown (s.next c) false rest

def plain (s : String) : String := String.ofList (shown .ground false s.toList)

theorem shown_ground_of_visible {s : List Char} (h : ∀ c ∈ s, isVisible c) :
    shown .ground true s = s := by
  induction s with
  | nil => rfl
  | cons c rest ih =>
    have hc : isVisible c := h c (by simp)
    have hrest : ∀ d ∈ rest, isVisible d := fun d hd => h d (by simp [hd])
    simp [shown, hc, ih hrest]

theorem next_ground_of_visible {c : Char} (h : isVisible c) :
    Sequence.ground.next c = .ground := by
  have hc : c ≠ '\x1b' := by
    rintro rfl
    revert h
    decide
  simp [Sequence.next, hc]

theorem plain_eq_self {s : String} (h : ∀ c ∈ s.toList, isVisible c) : plain s = s := by
  have hshown : shown .ground false s.toList = s.toList := by
    cases hs : s.toList with
    | nil => rfl
    | cons c rest =>
      rw [hs] at h
      have hc : isVisible c := h c (by simp)
      have hrest : ∀ d ∈ rest, isVisible d := fun d hd => h d (by simp [hd])
      simp [shown, Sequence.lets, hc, next_ground_of_visible hc, shown_ground_of_visible hrest]
  rw [plain, hshown, String.ofList_toList]

theorem isVisible_of_mem_shown {s : Sequence} {running : Bool} {cs : List Char} {c : Char}
    (h : c ∈ shown s running cs) : isVisible c := by
  induction cs generalizing s running with
  | nil => simp [shown] at h
  | cons d rest ih =>
    simp only [shown] at h
    split at h
    · next hd =>
      rcases List.mem_cons.1 h with rfl | h
      · exact (Bool.and_eq_true_iff.1 hd).2
      · exact ih h
    · split at h
      · next hd =>
        rcases List.mem_cons.1 h with rfl | h
        · simp only [Sequence.lets] at hd
          split at hd
          · exact hd
          · simp [isVisible, (Bool.and_eq_true_iff.1 hd).2]
        · exact ih h
      · exact ih h

end HiddenTarget.Text
