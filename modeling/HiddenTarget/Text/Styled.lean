import HiddenTarget.Text.Control

/-!
# Styled text

A `Styled` text is a list of spans, each in one style. `Styled.render` writes it for a
terminal, with the control sequences of the styles around the spans, or as plain text,
in which no control sequence is left, not even one that a span brought along.
-/

namespace HiddenTarget.Text

inductive Style
  | normal
  | strong
  | heading
  | alarm
  | doubt
deriving DecidableEq, Repr

namespace Style

def opening : Style → String
  | normal => ""
  | strong => "\x1b[1m"
  | heading => "\x1b[1m\x1b[4m"
  | alarm => "\x1b[1m\x1b[31m"
  | doubt => "\x1b[33m"

def closing : Style → String
  | normal => ""
  | _ => "\x1b[0m"

end Style

structure Span where
  text : String
  style : Style := .normal
deriving DecidableEq, Repr

def Span.render (coloured : Bool) (s : Span) : String :=
  if coloured then s.style.opening ++ s.text ++ s.style.closing else plain s.text

abbrev Styled := List Span

def Styled.render (coloured : Bool) (t : Styled) : String :=
  String.join (t.map fun s => s.render coloured)

def normal (text : String) : Span := { text := text }

def strong (text : String) : Span := ⟨text, .strong⟩

end HiddenTarget.Text
