import HiddenTarget.Random.KeyStream

/-!
# Draws from a generator

`Generator.drawUInt64` takes two words of the stream, the low half first.

`Generator.draw lo hi` picks an action uniformly from the inclusive range
`lo..hi`. With `width lo hi = r`, a word `w` stands for the 64-bit product
`w · r`: its upper half is an offset below `r`, and the word is accepted when
the lower half lies in the zone of `r`, which gives every offset the same number
of accepted words. A rejected word is skipped. The width of the full range wraps
to `0`, and then the word itself is the answer.

The search for an accepted word ends after a whole period of the stream, since
the words repeat from there on.
-/

namespace HiddenTarget.Random

/-! ## Accepting a word -/

/-- The number of values in `lo..hi`, modulo 2^32: `0` stands for all of them. -/
def width (lo hi : Int32) : UInt32 := (hi - lo).toUInt32 + 1

def leadingZeros (r : UInt32) : UInt32 := 31 - r.log2

/-- The largest lower half that is accepted for a width. -/
def zone (r : UInt32) : UInt32 := (r <<< leadingZeros r) - 1

/-- The product of a word with a width, whose halves are the offset and the
acceptance test. -/
def spread (r w : UInt32) : UInt64 := w.toUInt64 * r.toUInt64

def accepts (r w : UInt32) : Bool := (spread r w).toUInt32 ≤ zone r

def offset (r w : UInt32) : UInt32 := (spread r w >>> 32).toUInt32

/-! ## Drawing -/

namespace Generator

/-- The first accepted word among the next `n`, read as an offset from `lo`;
`lo` if there is none. -/
def search (lo : Int32) (r : UInt32) : Nat → Generator → Int32 × Generator
  | 0, g => (lo, g)
  | n + 1, g =>
    let (w, rest) := g.next
    if accepts r w then (lo + (offset r w).toInt32, rest) else search lo r n rest

/-- A uniform draw from the inclusive range `lo..hi`. At least one word is
taken, also when the range has a single value. -/
def draw (lo hi : Int32) (g : Generator) : Int32 × Generator :=
  let r := width lo hi
  if r = 0 then
    let (w, rest) := g.next
    (w.toInt32, rest)
  else
    search lo r period g

/-- A uniform 64-bit draw: two words, the low half first. -/
def drawUInt64 (g : Generator) : UInt64 × Generator :=
  let (low, g₁) := g.next
  let (high, g₂) := g₁.next
  (low.toUInt64 ||| high.toUInt64 <<< 32, g₂)

@[simp] theorem search_key (lo : Int32) (r : UInt32) (n : Nat) (g : Generator) :
    (search lo r n g).2.key = g.key := by
  induction n generalizing g with
  | zero => rfl
  | succ n ih =>
    simp only [search]
    split
    · rfl
    · exact (ih _).trans rfl

@[simp] theorem draw_key (lo hi : Int32) (g : Generator) : (g.draw lo hi).2.key = g.key := by
  simp only [draw]
  split
  · rfl
  · exact search_key ..

@[simp] theorem drawUInt64_key (g : Generator) : g.drawUInt64.2.key = g.key := rfl

@[simp] theorem drawUInt64_position (g : Generator) :
    g.drawUInt64.2.position = g.position + 2 := rfl

theorem drawUInt64_fst (g : Generator) :
    g.drawUInt64.1 =
      ((word g.key g.position).toUInt64 ||| (word g.key (g.position + 1)).toUInt64 <<< 32) := rfl

end Generator

end HiddenTarget.Random
