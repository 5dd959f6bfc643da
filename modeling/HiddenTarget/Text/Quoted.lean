import HiddenTarget.Text.Glyph

/-!
# Quoted text

`quote` puts a text of unknown content on a line of a message: between double
quotes, with the quote, the backslash and every character that has no glyph of its
own written as an escape. Tab, carriage return, newline and NUL have a letter, all
others are written by their code in hexadecimal. The single quote stands as it is.

A control character is never copied, so a quoted text cannot end the line it is on.
-/

namespace HiddenTarget.Text

def hexDigits (n : Nat) : List Char := Nat.toDigits 16 n

/-- The control characters: below the space, and from delete up to U+009F. -/
def isControl (c : Char) : Bool := c.toNat < 0x20 || (0x7f ≤ c.toNat && c.toNat ≤ 0x9f)

def codeEscape (c : Char) : List Char := '\\' :: 'u' :: '\x7b' :: hexDigits c.toNat ++ ['\x7d']

def quoteChar (c : Char) : List Char :=
  if c = '"' then ['\\', '"']
  else if c = '\\' then ['\\', '\\']
  else if c = '\t' then ['\\', 't']
  else if c = '\r' then ['\\', 'r']
  else if c = '\n' then ['\\', 'n']
  else if c.toNat = 0 then ['\\', '0']
  else if isControl c || !hasGlyph c then codeEscape c
  else [c]

def quote (s : List Char) : List Char := '"' :: s.flatMap quoteChar ++ ['"']

end HiddenTarget.Text
