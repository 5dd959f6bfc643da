import HiddenTarget.Json.Scanner

/-!
# Reading JSON text

`Json.read` reads a text that holds one value. An integer keeps all its digits; a
repeated key counts with its last value, and the members of an object end up in the
order of their keys.

`Json.narrow` brings the numbers of a value into 64-bit words: an integer beyond
them becomes the double that its digits stand for.
-/

namespace HiddenTarget.Json

def startsNumber (c : Char) : Bool := c = '-' || (Decimal.digit? c).isSome

mutual

/-- A value, blanks in front of it included. The first argument bounds the number
of tokens. -/
def readValue : Nat → List Char → Except ReadFault (Json × List Char)
  | 0, _ => .error .truncated
  | n + 1, s =>
    match skipSpace s with
    | [] => .error .truncated
    | c :: rest =>
      if c = '"' then (readString rest).map fun (t, r) => (string t, r)
      else if c = '[' then readItems n true [] rest
      else if c = '\x7b' then readMembers n true [] rest
      else if c = 'n' then (expect ['u', 'l', 'l'] rest).map fun r => (null, r)
      else if c = 't' then (expect ['r', 'u', 'e'] rest).map fun r => (bool true, r)
      else if c = 'f' then (expect ['a', 'l', 's', 'e'] rest).map fun r => (bool false, r)
      else if startsNumber c then
        match readNumber (c :: rest) with
        | .error e => .error e
        | .ok (l, r) =>
          match ofLiteral? l with
          | some j => .ok (j, r)
          | none => .error .malformed
      else .error .malformed

def readItems : Nat → Bool → List Json → List Char → Except ReadFault (Json × List Char)
  | 0, _, _, _ => .error .truncated
  | n + 1, first, acc, s =>
    match skipSpace s with
    | [] => .error .truncated
    | c :: rest =>
      if c = ']' then .ok (array acc.reverse, rest)
      else if first then
        match readValue n (c :: rest) with
        | .error e => .error e
        | .ok (v, r) => readItems n false (v :: acc) r
      else if c = ',' then
        match readValue n rest with
        | .error e => .error e
        | .ok (v, r) => readItems n false (v :: acc) r
      else .error .malformed

def readMembers : Nat → Bool → Members → List Char → Except ReadFault (Json × List Char)
  | 0, _, _, _ => .error .truncated
  | n + 1, first, acc, s =>
    match skipSpace s with
    | [] => .error .truncated
    | c :: rest =>
      if c = '\x7d' then .ok (object acc, rest)
      else if first then readMember n acc (c :: rest)
      else if c = ',' then readMember n acc (skipSpace rest)
      else .error .malformed

def readMember : Nat → Members → List Char → Except ReadFault (Json × List Char)
  | 0, _, _ => .error .truncated
  | _ + 1, _, [] => .error .truncated
  | n + 1, acc, c :: rest =>
    if c = '"' then
      match readString rest with
      | .error e => .error e
      | .ok (key, r) =>
        match expectColon r with
        | .error e => .error e
        | .ok r =>
          match readValue n r with
          | .error e => .error e
          | .ok (v, r) => readMembers n false (acc.insert key v) r
    else .error .malformed

end

def readAll (s : List Char) : Except ReadFault Json :=
  match readValue (3 * s.length + 3) s with
  | .error e => .error e
  | .ok (j, rest) => if skipSpace rest = [] then .ok j else .error .malformed

/-- The value that a text holds, to any depth of nesting. -/
def read (text : String) : Except ReadFault Json := readAll text.toList

/-! ## Numbers of 64 bits -/

/-- An integer of a 64-bit word, with or without sign; beyond them the double that
its digits stand for. -/
def narrowInteger (i : Int) : Json :=
  if Decimal.IntegerRange.int64.Contains i ∨ Decimal.IntegerRange.uint64.Contains i then integer i
  else
    let l : Decimal.Literal := ⟨decide (i < 0), Decimal.natural i.natAbs, none, none⟩
    real (l.scaled?.getD l.nearest)

mutual

def narrow : Json → Json
  | integer i => narrowInteger i
  | array items => array (narrowItems items)
  | object members => object (narrowMembers members)
  | null => null
  | bool b => bool b
  | real x => real x
  | string s => string s

def narrowItems : List Json → List Json
  | [] => []
  | v :: rest => narrow v :: narrowItems rest

def narrowMembers : List (String × Json) → List (String × Json)
  | [] => []
  | (k, v) :: rest => (k, narrow v) :: narrowMembers rest

end

end HiddenTarget.Json
