import HiddenTarget.Json.Scanner

/-!
# Passing over JSON text

`skipValue` passes over one value of any kind and any depth without building it.
The containers that are open are kept on an explicit stack, so the depth of the text
is not the depth of the recursion. A number may lie beyond the range of doubles and
a string may hold half of a surrogate pair; both are grammatical.
-/

namespace HiddenTarget.Json

inductive Frame
  | array
  | object
deriving DecidableEq, Repr

namespace Frame

def closing : Frame → Char
  | array => ']'
  | object => '\x7d'

end Frame

inductive Await
  | value
  /-- The first part of the innermost container, or its end. -/
  | first
  /-- What follows a value: a comma, or the end of the innermost container. -/
  | next
deriving DecidableEq, Repr

/-- Pass over a number. A number that the text cuts short breaks the grammar. -/
def skipNumber (s : List Char) : Except ReadFault (List Char) :=
  match readNumber s with
  | .ok (_, rest) => .ok rest
  | .error _ => .error .malformed

def skipKey (s : List Char) : Except ReadFault (List Char) :=
  match skipSpace s with
  | [] => .error .truncated
  | c :: rest =>
    if c = '"' then
      match skipString rest with
      | .error e => .error e
      | .ok r => expectColon r
    else .error .malformed

def skipPartStart : Frame → List Char → Except ReadFault (List Char)
  | .array, s => .ok s
  | .object, s => skipKey s

/-- Pass over what is awaited until all containers are closed, in at most `n`
tokens. -/
def skipFrom : Nat → Await → List Frame → List Char → Except ReadFault (List Char)
  | 0, _, _, _ => .error .truncated
  | n + 1, .value, open_, s =>
    match skipSpace s with
    | [] => .error .truncated
    | c :: rest =>
      if c = '[' then skipFrom n .first (.array :: open_) rest
      else if c = '\x7b' then skipFrom n .first (.object :: open_) rest
      else
        let token :=
          if c = '"' then skipString rest
          else if c = 'n' then expect ['u', 'l', 'l'] rest
          else if c = 't' then expect ['r', 'u', 'e'] rest
          else if c = 'f' then expect ['a', 'l', 's', 'e'] rest
          else if c = '-' || (Decimal.digit? c).isSome then skipNumber (c :: rest)
          else .error .malformed
        match token with
        | .ok r => skipFrom n .next open_ r
        | .error e => .error e
  | _ + 1, _, [], s => .ok s
  | n + 1, .first, f :: below, s =>
    match skipSpace s with
    | [] => .error .truncated
    | c :: rest =>
      if c = f.closing then skipFrom n .next below rest
      else match skipPartStart f (c :: rest) with
        | .ok r => skipFrom n .value (f :: below) r
        | .error e => .error e
  | n + 1, .next, f :: below, s =>
    match skipSpace s with
    | [] => .error .truncated
    | c :: rest =>
      if c = f.closing then skipFrom n .next below rest
      else if c = ',' then
        match skipPartStart f rest with
        | .ok r => skipFrom n .value (f :: below) r
        | .error e => .error e
      else .error .malformed

def skipValue (s : List Char) : Except ReadFault (List Char) :=
  skipFrom (3 * s.length + 3) .value [] s

end HiddenTarget.Json
