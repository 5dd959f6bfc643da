import HiddenTarget.Decimal.Literal
import HiddenTarget.Json.Basic

/-!
# The tokens of JSON text

Blanks, words, numbers and strings, read off the front of a list of characters.
Each reader returns a value and what is left of the text, and a text that is not right ends in
a `ReadFault`: it breaks the grammar, it holds a value of another type than was
asked for, or it stops too early. The first fault from the left is the one
reported.

A string is read by `readString`, which wants surrogate escapes in pairs, and
passed over by `skipString`, which only wants four hexadecimal digits.
-/

namespace HiddenTarget.Json

inductive ReadFault
  /-- The text breaks the grammar, or holds a number that no double can stand for. -/
  | malformed
  /-- The text is well formed and of another type than was asked for. -/
  | mismatch
  | truncated
deriving DecidableEq, Repr

/-! ## Blanks and words -/

def isSpace (c : Char) : Bool := c = ' ' || c = '\n' || c = '\t' || c = '\r'

def skipSpace (s : List Char) : List Char := s.dropWhile isSpace

def expect : List Char → List Char → Except ReadFault (List Char)
  | [], s => .ok s
  | _ :: _, [] => .error .truncated
  | w :: ws, c :: rest => if c = w then expect ws rest else .error .malformed

def expectColon (s : List Char) : Except ReadFault (List Char) :=
  match skipSpace s with
  | [] => .error .truncated
  | c :: rest => if c = ':' then .ok rest else .error .malformed

/-! ## Numbers -/

def readDigits1 (s : List Char) : Except ReadFault (List Char × List Char) :=
  match Decimal.spanDigits s with
  | ([], []) => .error .truncated
  | ([], _) => .error .malformed
  | (ds, rest) => .ok (ds, rest)

/-- The digits in front of the point: a zero stands alone. -/
def readWhole : List Char → Except ReadFault (List Char × List Char)
  | [] => .error .truncated
  | '0' :: rest =>
    match rest with
    | c :: _ => if (Decimal.digit? c).isSome then .error .malformed else .ok (['0'], rest)
    | [] => .ok (['0'], [])
  | s => readDigits1 s

def readFraction : List Char → Except ReadFault (Option (List Char) × List Char)
  | '.' :: rest => do
    let (ds, rest) ← readDigits1 rest
    return (some ds, rest)
  | s => .ok (none, s)

def readExponent : List Char → Except ReadFault (Option Int × List Char)
  | [] => .ok (none, [])
  | c :: rest =>
    if c = 'e' ∨ c = 'E' then do
      let (negative, body) := match rest with
        | '+' :: r => (false, r)
        | '-' :: r => (true, r)
        | r => (false, r)
      let (ds, rest) ← readDigits1 body
      let n : Int := Decimal.digitsValue ds
      return (some (if negative then -n else n), rest)
    else .ok (none, c :: rest)

def readNumber (s : List Char) : Except ReadFault (Decimal.Literal × List Char) := do
  let (negative, body) := match s with
    | '-' :: r => (true, r)
    | r => (false, r)
  let (whole, rest) ← readWhole body
  let (fraction, rest) ← readFraction rest
  let (exponent, rest) ← readExponent rest
  return (⟨negative, whole, fraction, exponent⟩, rest)

/-- The value of a number: an integer if it is written as one, minus zero apart,
and else a double, if there is one. -/
def ofLiteral? (l : Decimal.Literal) : Option Json :=
  let n := Decimal.digitsValue l.whole
  if l.isWhole && !(l.negative && n == 0) then
    some (integer (if l.negative then -Int.ofNat n else Int.ofNat n))
  else l.scaled?.map real

/-! ## Strings -/

def hexValue? (c : Char) : Option Nat :=
  if '0' ≤ c ∧ c ≤ '9' then some (c.toNat - '0'.toNat)
  else if 'a' ≤ c ∧ c ≤ 'f' then some (c.toNat - 'a'.toNat + 10)
  else if 'A' ≤ c ∧ c ≤ 'F' then some (c.toNat - 'A'.toNat + 10)
  else none

/-- Four hexadecimal digits. A text of fewer than four bytes is too short for
them, whatever it holds. -/
def readHex : List Char → Except ReadFault (Nat × List Char)
  | a :: b :: c :: d :: rest =>
    match hexValue? a, hexValue? b, hexValue? c, hexValue? d with
    | some a, some b, some c, some d => .ok (((a * 16 + b) * 16 + c) * 16 + d, rest)
    | _, _, _, _ => .error .malformed
  | s => .error (if 4 ≤ (String.ofList s).utf8ByteSize then .malformed else .truncated)

def isHighSurrogate (n : Nat) : Bool := 0xd800 ≤ n && n < 0xdc00

def isLowSurrogate (n : Nat) : Bool := 0xdc00 ≤ n && n < 0xe000

def readLowHalf (high : Nat) : List Char → Except ReadFault (Char × List Char)
  | [] => .error .truncated
  | ['\\'] => .error .truncated
  | '\\' :: 'u' :: rest => do
    let (low, rest) ← readHex rest
    if isLowSurrogate low then
      return (Char.ofNat (0x10000 + (high - 0xd800) * 0x400 + (low - 0xdc00)), rest)
    else throw .malformed
  | _ => .error .malformed

def readCode (s : List Char) : Except ReadFault (Char × List Char) := do
  let (n, rest) ← readHex s
  if isLowSurrogate n then throw .malformed
  else if isHighSurrogate n then readLowHalf n rest
  else return (Char.ofNat n, rest)

def escapeLetter? : Char → Option Char
  | '"' => some '"'
  | '\\' => some '\\'
  | '/' => some '/'
  | 'b' => some '\x08'
  | 'f' => some '\x0c'
  | 'n' => some '\n'
  | 'r' => some '\r'
  | 't' => some '\t'
  | _ => none

def readEscape : List Char → Except ReadFault (Char × List Char)
  | [] => .error .truncated
  | c :: rest =>
    if c = 'u' then readCode rest
    else match escapeLetter? c with
      | some x => .ok (x, rest)
      | none => .error .malformed

/-- The characters up to the closing quote, put in front of `acc` in reverse; at
most `n` of them. -/
def readChars : Nat → List Char → List Char → Except ReadFault (List Char × List Char)
  | 0, _, _ => .error .truncated
  | _ + 1, _, [] => .error .truncated
  | n + 1, acc, c :: rest =>
    if c = '"' then .ok (acc, rest)
    else if c = '\\' then
      match readEscape rest with
      | .ok (x, rest) => readChars n (x :: acc) rest
      | .error e => .error e
    else if c.toNat < 0x20 then .error .malformed
    else readChars n (c :: acc) rest

def readString (s : List Char) : Except ReadFault (String × List Char) := do
  let (cs, rest) ← readChars (s.length + 1) [] s
  return (String.ofList cs.reverse, rest)

def skipEscape : List Char → Except ReadFault (List Char)
  | [] => .error .truncated
  | c :: rest =>
    if c = 'u' then (readHex rest).map Prod.snd
    else if (escapeLetter? c).isSome then .ok rest
    else .error .malformed

def skipChars : Nat → List Char → Except ReadFault (List Char)
  | 0, _ => .error .truncated
  | _ + 1, [] => .error .truncated
  | n + 1, c :: rest =>
    if c = '"' then .ok rest
    else if c = '\\' then
      match skipEscape rest with
      | .ok rest => skipChars n rest
      | .error e => .error e
    else if c.toNat < 0x20 then .error .malformed
    else skipChars n rest

def skipString (s : List Char) : Except ReadFault (List Char) := skipChars (s.length + 1) s

end HiddenTarget.Json
