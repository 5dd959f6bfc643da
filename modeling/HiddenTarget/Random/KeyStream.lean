/-!
# The ChaCha key stream with eight rounds

A key of eight words fixes an endless stream of 32-bit words. `word key k` is
word `k` of that stream; everything else in this file leads up to it. A
`Generator` is a key together with the number of words already taken, so two
generators with one key differ only in how far they have been read, and
`Generator.next` is word `position` and a step to the right.

The stream is cut into blocks of sixteen words. A block is the mixed start
state of its block counter, added word by word to that start state, and blocks
are numbered by a 64-bit counter: `word` repeats after `period` words.

A 64-bit seed is spread over the eight key words by `Key.ofSeed`.
-/

namespace HiddenTarget.Random

/-- Sixteen words: the cipher's state, and a block of the stream. -/
abbrev Block := Vector UInt32 16

structure Key where
  words : Vector UInt32 8
deriving DecidableEq, Repr

/-! ## One block -/

def rotateLeft (x r : UInt32) : UInt32 := x <<< r ||| x >>> (32 - r)

def rotateRight (x r : UInt32) : UInt32 := x >>> r ||| x <<< (32 - r)

def addMix (b : Block) (i j k : Fin 16) (r : UInt32) : Block :=
  let sum := b[i] + b[j]
  let mixed := rotateLeft (b[k] ^^^ sum) r
  (b.set i sum).set k mixed

def quarterRound (i j k l : Fin 16) (b : Block) : Block :=
  addMix (addMix (addMix (addMix b i j l 16) k l j 12) i j l 8) k l j 7

/-- Four quarter rounds on the columns, then four on the diagonals. -/
def doubleRound (b : Block) : Block :=
  let columns := quarterRound 3 7 11 15 (quarterRound 2 6 10 14
    (quarterRound 1 5 9 13 (quarterRound 0 4 8 12 b)))
  quarterRound 3 4 9 14 (quarterRound 2 7 8 13
    (quarterRound 1 6 11 12 (quarterRound 0 5 10 15 columns)))

/-- The state that block number `counter` starts from: four constants, the key,
the counter with its low half first, and a zero stream number. -/
def startState (key : Key) (counter : UInt64) : Block :=
  let k := key.words
  #v[0x61707865, 0x3320646e, 0x79622d32, 0x6b206574,
     k[0], k[1], k[2], k[3], k[4], k[5], k[6], k[7],
     counter.toUInt32, (counter >>> 32).toUInt32, 0, 0]

/-- Block number `counter` of the stream: four double rounds, then the start
state is added back. -/
def block (key : Key) (counter : UInt64) : Block :=
  let start := startState key counter
  (Nat.repeat doubleRound 4 start).zipWith (· + ·) start

/-! ## The stream -/

def word (key : Key) (k : Nat) : UInt32 :=
  (block key (UInt64.ofNat (k / 16))).get ⟨k % 16, Nat.mod_lt k (by decide)⟩

/-- The number of words after which the stream repeats: sixteen for each value
of the block counter. -/
def period : Nat := UInt64.size * 16

theorem ofNat_add_size (n : Nat) : UInt64.ofNat (n + UInt64.size) = UInt64.ofNat n := by
  apply UInt64.toNat_inj.1
  rw [UInt64.toNat_ofNat', UInt64.toNat_ofNat']
  exact Nat.add_mod_right n UInt64.size

theorem word_add_period (key : Key) (k : Nat) : word key (k + period) = word key k := by
  have hdiv : (k + period) / 16 = k / 16 + UInt64.size :=
    Nat.add_mul_div_right k UInt64.size (by decide)
  have hmod : (k + period) % 16 = k % 16 := Nat.add_mul_mod_self_right k UInt64.size 16
  simp only [word, hdiv, hmod, ofNat_add_size]

/-! ## Seeds -/

/-- One step of the linear congruential sequence that spreads a seed. -/
def seedStep (s : UInt64) : UInt64 := s * 6364136223846793005 + 11634580027462260723

/-- The word that a state of that sequence gives: its upper bits folded onto
the lower ones, rotated by the top five. -/
def seedWord (s : UInt64) : UInt32 :=
  rotateRight (((s >>> 18) ^^^ s) >>> 27).toUInt32 (s >>> 59).toUInt32

/-- The key of a 64-bit seed: the words of the next eight states. -/
def Key.ofSeed (seed : UInt64) : Key :=
  ⟨Vector.ofFn fun i : Fin 8 => seedWord (Nat.repeat seedStep (i.val + 1) seed)⟩

/-! ## Generators -/

/-- A stream and the number of words taken from it. -/
structure Generator where
  key : Key
  position : Nat := 0
deriving DecidableEq, Repr

namespace Generator

def ofSeed (seed : UInt64) : Generator := { key := Key.ofSeed seed }

def next (g : Generator) : UInt32 × Generator :=
  (word g.key g.position, { g with position := g.position + 1 })

@[simp] theorem next_fst (g : Generator) : g.next.1 = word g.key g.position := rfl

@[simp] theorem next_key (g : Generator) : g.next.2.key = g.key := rfl

@[simp] theorem next_position (g : Generator) : g.next.2.position = g.position + 1 := rfl

end Generator

end HiddenTarget.Random
