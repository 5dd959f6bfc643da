import HiddenTarget.Json.Reader
import HiddenTarget.Json.Skip

/-!
# Reading JSON text of a known shape

A `Shape` describes what a text should hold, and `Shape.Value` is the type of what
is read from it: words of a fixed width, doubles, truth values, one of a list of
names, an optional part, or a record of named fields. `Shape.read` reads a text of a
given shape.

A record is an object, or an array of its fields in order. In an object unknown
keys are passed over, a field that appears twice is refused, and an optional field
may be left out. A name is a string, or an object with the name as its only key and
`null` behind it.
-/

namespace HiddenTarget.Json

mutual

inductive Shape where
  | int32
  | uint32
  | uint64
  | real
  | bool
  | choice (names : List String)
  | optional (s : Shape)
  | record (fields : Fields)

inductive Fields where
  | nil
  | cons (name : String) (s : Shape) (rest : Fields)

end

mutual

/-- What is read from a text of a shape. A name is its place in the list. -/
def Shape.Value : Shape → Type
  | .int32 => Int32
  | .uint32 => UInt32
  | .uint64 => UInt64
  | .real => Float
  | .bool => Bool
  | .choice names => Fin names.length
  | .optional s => Option s.Value
  | .record fields => fields.Values

def Fields.Values : Fields → Type
  | .nil => Unit
  | .cons _ s rest => s.Value × rest.Values

end

def Fields.Draft : Fields → Type
  | .nil => Unit
  | .cons _ s rest => Option s.Value × rest.Draft

/-- A reader of one value, blanks in front of it included. -/
def Decoder (α : Type) := List Char → Except ReadFault (α × List Char)

/-! ## Single values -/

def ofBounded? (l : Decimal.Literal) : Option Json := l.scaled?.bind fun _ => ofLiteral? l

/-- The fault at a value that is not of the type asked for: a value that is not
well formed comes first. -/
def otherType : List Char → ReadFault
  | [] => .truncated
  | c :: rest =>
    let whole : Except ReadFault Unit :=
      if c = '"' then (readString rest).map fun _ => ()
      else if c = 'n' then (expect ['u', 'l', 'l'] rest).map fun _ => ()
      else if c = 't' then (expect ['r', 'u', 'e'] rest).map fun _ => ()
      else if c = 'f' then (expect ['a', 'l', 's', 'e'] rest).map fun _ => ()
      else if startsNumber c then
        match readNumber (c :: rest) with
        | .error e => .error e
        | .ok (l, _) => if (ofBounded? l).isSome then .ok () else .error .malformed
      else if c = '[' ∨ c = '\x7b' then .ok ()
      else .error .malformed
    match whole with
    | .error e => e
    | .ok () => .mismatch

def decodeNumber {α : Type} (f : Json → Option α) : Decoder α := fun s =>
  match skipSpace s with
  | [] => .error .truncated
  | c :: rest =>
    if startsNumber c then
      match readNumber (c :: rest) with
      | .error e => .error e
      | .ok (l, r) =>
        match ofBounded? l with
        | none => .error .malformed
        | some j =>
          match f j with
          | some a => .ok (a, r)
          | none => .error .mismatch
    else .error (otherType (c :: rest))

def integerIn? (range : Decimal.IntegerRange) : Json → Option Int
  | integer i => if range.Contains i then some i else none
  | _ => none

def toReal? (j : Json) : Option Float :=
  match j.narrow with
  | integer i => some (if i < 0 then -(UInt64.ofNat i.natAbs).toFloat
      else (UInt64.ofNat i.natAbs).toFloat)
  | real x => some x
  | _ => none

def decodeBool : Decoder Bool := fun s =>
  match skipSpace s with
  | [] => .error .truncated
  | c :: rest =>
    if c = 't' then (expect ['r', 'u', 'e'] rest).map fun r => (true, r)
    else if c = 'f' then (expect ['a', 'l', 's', 'e'] rest).map fun r => (false, r)
    else .error (otherType (c :: rest))

def decodeNull : Decoder Unit := fun s =>
  match skipSpace s with
  | [] => .error .truncated
  | c :: rest =>
    if c = 'n' then (expect ['u', 'l', 'l'] rest).map fun r => ((), r)
    else .error (otherType (c :: rest))

def decodeString : Decoder String := fun s =>
  match skipSpace s with
  | [] => .error .truncated
  | c :: rest => if c = '"' then readString rest else .error (otherType (c :: rest))

def decodeName (names : List String) : Decoder (Fin names.length) := fun s =>
  match decodeString s with
  | .error e => .error e
  | .ok (name, r) =>
    match names.finIdxOf? name with
    | some i => .ok (i, r)
    | none => .error .mismatch

/-- One of the given names as a key; what is no string is no key either. -/
def decodeKey (names : List String) : Decoder (Fin names.length) := fun s =>
  match skipSpace s with
  | [] => .error .truncated
  | c :: rest => if c = '"' then decodeName names (c :: rest) else .error .malformed

/-- One of the given names, or an object with the name as its key. -/
def decodeChoice (names : List String) : Decoder (Fin names.length) := fun s =>
  match skipSpace s with
  | [] => .error .truncated
  | c :: rest =>
    if c = '"' then decodeName names (c :: rest)
    else if c = '\x7b' then
      match decodeKey names rest with
      | .error e => .error e
      | .ok (i, r) =>
        match expectColon r with
        | .error e => .error e
        | .ok r =>
          match decodeNull r with
          | .error e => .error e
          | .ok ((), r) =>
            match skipSpace r with
            | [] => .error .truncated
            | d :: r => if d = '\x7d' then .ok (i, r) else .error .malformed
    else .error .malformed

def decodeOptional {α : Type} (inner : Decoder α) : Decoder (Option α) := fun s =>
  match skipSpace s with
  | [] => (inner []).map fun (a, r) => (some a, r)
  | c :: rest =>
    if c = 'n' then (expect ['u', 'l', 'l'] rest).map fun r => (none, r)
    else (inner (c :: rest)).map fun (a, r) => (some a, r)

/-! ## Records -/

def nextItem (first : Bool) (s : List Char) : Except ReadFault (Option (List Char)) :=
  match skipSpace s with
  | [] => .error .truncated
  | c :: rest =>
    if c = ']' then .ok none
    else if first then .ok (some (c :: rest))
    else if c = ',' then
      match skipSpace rest with
      | [] => .error .truncated
      | d :: r => if d = ']' then .error .malformed else .ok (some (d :: r))
    else .error .malformed

def endArray (s : List Char) : Except ReadFault (List Char) :=
  match skipSpace s with
  | [] => .error .truncated
  | c :: rest => if c = ']' then .ok rest else .error .malformed

/-- A reader for the value behind a key, put into what has been read so far;
`none` for a key that is not a field, and a fault for a field that is read
already. -/
abbrev FieldReader (δ : Type) := String → δ → Option (Except ReadFault (Decoder δ))

def decodeField {δ : Type} (field : FieldReader δ) (key : String) (draft : δ) : Decoder δ :=
  fun s =>
    match field key draft with
    | none =>
      match expectColon s with
      | .error e => .error e
      | .ok r => (skipValue r).map fun r => (draft, r)
    | some (.error e) => .error e
    | some (.ok decode) =>
      match expectColon s with
      | .error e => .error e
      | .ok r => decode r

def decodeMembers {δ : Type} (field : FieldReader δ) : Nat → Bool → δ → Decoder δ
  | 0, _, _ => fun _ => .error .truncated
  | n + 1, first, draft => fun s =>
    match skipSpace s with
    | [] => .error .truncated
    | c :: rest =>
      if c = '\x7d' then .ok (draft, rest)
      else if first || c = ',' then
        match (if first then c :: rest else skipSpace rest) with
        | [] => .error .truncated
        | d :: r =>
          if d = '"' then
            match readString r with
            | .error e => .error e
            | .ok (key, r) =>
              match decodeField field key draft r with
              | .error e => .error e
              | .ok (draft, r) => decodeMembers field n false draft r
          else .error .malformed
      else .error .malformed

/-- What a missing field counts as: only optional ones may be missing. -/
def Shape.absent? : (s : Shape) → Option s.Value
  | .optional _ => some none
  | _ => none

namespace Fields

def blank : (fs : Fields) → fs.Draft
  | nil => ()
  | cons _ _ rest => (none, rest.blank)

def complete? : (fs : Fields) → fs.Draft → Option fs.Values
  | nil, _ => some ()
  | cons _ s rest, (v, d) =>
    match v.orElse (fun _ => s.absent?), rest.complete? d with
    | some v, some vs => some (v, vs)
    | _, _ => none

end Fields

mutual

def Shape.decode : (s : Shape) → Decoder s.Value
  | .int32 => decodeNumber fun j => (integerIn? .int32 j).map Int32.ofInt
  | .uint32 => decodeNumber fun j => (integerIn? .uint32 j).map fun i => UInt32.ofNat i.toNat
  | .uint64 => decodeNumber fun j => (integerIn? .uint64 j).map fun i => UInt64.ofNat i.toNat
  | .real => decodeNumber toReal?
  | .bool => decodeBool
  | .choice names => decodeChoice names
  | .optional s => decodeOptional s.decode
  | .record fields => fun s =>
    match skipSpace s with
    | [] => .error .truncated
    | c :: rest =>
      if c = '\x7b' then
        match decodeMembers fields.field (s.length + 1) true fields.blank rest with
        | .error e => .error e
        | .ok (draft, r) =>
          match fields.complete? draft with
          | some vs => .ok (vs, r)
          | none => .error .mismatch
      else if c = '[' then
        match fields.decodeItems true rest with
        | .error e => .error e
        | .ok (vs, r) => (endArray r).map fun r => (vs, r)
      else .error (otherType (c :: rest))

def Fields.field : (fs : Fields) → FieldReader fs.Draft
  | .nil => fun _ _ => none
  | .cons name s rest => fun key draft =>
    if key = name then
      some (if draft.1.isSome then .error .mismatch
        else .ok fun t => (s.decode t).map fun (v, r) => ((some v, draft.2), r))
    else
      (rest.field key draft.2).map fun decoder =>
        decoder.map fun decode t => (decode t).map fun (d, r) => ((draft.1, d), r)

def Fields.decodeItems : (fs : Fields) → Bool → Decoder fs.Values
  | .nil => fun _ s => .ok ((), s)
  | .cons _ s rest => fun first t =>
    match nextItem first t with
    | .error e => .error e
    | .ok none => .error .mismatch
    | .ok (some item) =>
      match s.decode item with
      | .error e => .error e
      | .ok (v, r) => (rest.decodeItems false r).map fun (vs, r) => ((v, vs), r)

end

def Shape.read (s : Shape) (text : String) : Except ReadFault s.Value :=
  match s.decode text.toList with
  | .error e => .error e
  | .ok (v, rest) => if skipSpace rest = [] then .ok v else .error .malformed

end HiddenTarget.Json
