import HiddenTarget.Decimal.Integer

/-!
# Values of a scripting host

The values that a scripting host hands to the library and gets back, the exceptions it
understands, and the rules by which an argument becomes a parameter of a fixed type. An
integer parameter takes integers and truth values and nothing else; a value outside the
type overflows. A list parameter takes lists and tuples. The first argument that does
not fit decides the exception.
-/

namespace HiddenTarget.Scripting

inductive Value where
  | none
  | bool (b : Bool)
  | int (i : Int)
  | float (x : Float)
  | text (s : String)
  | list (items : List Value)
  | tuple (items : List Value)
  | dict (entries : List (String × Value))
  /-- A value of the host's own, such as a class or a method. -/
  | foreign
deriving Inhabited, Repr

inductive Exception
  /-- An argument of the wrong type, or a wrong set of arguments. -/
  | typeError
  | overflowError
  /-- A name that the object or module does not have, or does not let be set. -/
  | attributeError
  | valueError (message : String)
deriving DecidableEq, Repr

namespace Value

def toInt? : Value → Option Int
  | int i => some i
  | bool b => some (if b then 1 else 0)
  | _ => Option.none

def toBounded (range : Decimal.IntegerRange) (v : Value) : Except Exception Int :=
  match v.toInt? with
  | Option.none => .error .typeError
  | some i => if range.Contains i then .ok i else .error .overflowError

def toInt32 (v : Value) : Except Exception Int32 :=
  (v.toBounded .int32).map Int32.ofInt

def toUInt32 (v : Value) : Except Exception UInt32 :=
  (v.toBounded .uint32).map fun i => UInt32.ofNat i.toNat

def toUInt64 (v : Value) : Except Exception UInt64 :=
  (v.toBounded .uint64).map fun i => UInt64.ofNat i.toNat

def toCount (v : Value) : Except Exception Nat :=
  (v.toBounded .uint64).map Int.toNat

def toOptional {α : Type} (f : Value → Except Exception α) :
    Value → Except Exception (Option α)
  | none => .ok Option.none
  | v => (f v).map some

def toList {α : Type} (f : Value → Except Exception α) : Value → Except Exception (List α)
  | list items | tuple items => items.mapM f
  | _ => .error .typeError

end Value

/-! ## Calls -/

structure Parameter where
  name : String
  default : Option Value := Option.none

/-- The arguments of a call: by place, and by name. -/
structure Arguments where
  places : List Value := []
  names : List (String × Value) := []

namespace Arguments

/-- The argument of each parameter, in the order of the parameters. Each argument must
have a parameter, each parameter an argument, and none of them two. -/
def bind (a : Arguments) (ps : List Parameter) : Except Exception (List Value) :=
  let byName := ps.drop a.places.length
  if ps.length < a.places.length then .error .typeError
  else if a.names.any fun (name, _) => !byName.any (·.name == name) then .error .typeError
  else do
    let rest ← byName.mapM fun p =>
      match (a.names.lookup p.name).orElse fun _ => p.default with
      | some v => .ok v
      | Option.none => .error .typeError
    return a.places ++ rest

end Arguments

end HiddenTarget.Scripting
