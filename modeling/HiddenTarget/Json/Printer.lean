import HiddenTarget.Decimal.Layout
import HiddenTarget.Json.Basic

/-!
# Writing JSON text

`Json.print` writes a value without any blanks. Members come in the order in which
the object holds them. In a string the quote, the backslash and the characters
below the space are escaped, five of these by a letter; everything else is copied,
so a printed value has no character below the space, and no newline in particular.
-/

namespace HiddenTarget.Json

def hexDigit (n : Nat) : Char := Nat.digitChar n

def escapeChar (c : Char) : List Char :=
  if c = '"' then ['\\', '"']
  else if c = '\\' then ['\\', '\\']
  else if c = '\x08' then ['\\', 'b']
  else if c = '\x0c' then ['\\', 'f']
  else if c = '\n' then ['\\', 'n']
  else if c = '\r' then ['\\', 'r']
  else if c = '\t' then ['\\', 't']
  else if c.toNat < 0x20 then
    ['\\', 'u', '0', '0', hexDigit (c.toNat / 16), hexDigit (c.toNat % 16)]
  else [c]

def stringChars (s : String) : List Char := '"' :: s.toList.flatMap escapeChar ++ ['"']

mutual

def chars : Json → List Char
  | null => ['n', 'u', 'l', 'l']
  | bool true => ['t', 'r', 'u', 'e']
  | bool false => ['f', 'a', 'l', 's', 'e']
  | integer i => Decimal.integer i
  | real x => Decimal.Layout.json.render x
  | string s => stringChars s
  | array items => '[' :: itemsChars items
  | object members => '\x7b' :: membersChars members

def itemsChars : List Json → List Char
  | [] => [']']
  | [v] => chars v ++ [']']
  | v :: rest => chars v ++ ',' :: itemsChars rest

def membersChars : List (String × Json) → List Char
  | [] => ['\x7d']
  | [(k, v)] => stringChars k ++ ':' :: chars v ++ ['\x7d']
  | (k, v) :: rest => stringChars k ++ ':' :: chars v ++ ',' :: membersChars rest

end

def print (j : Json) : String := String.ofList j.chars

end HiddenTarget.Json
