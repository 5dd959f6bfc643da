import HiddenTarget.Scripting.Value

/-!
# What every object inherits

The host gives every object some attributes and methods, whatever its class. What they
answer depends on a few things that differ from object to object; these are a `Profile`.
`Profile.call` calls an inherited method, and `getInherited` reads an inherited
attribute.

Some of the answers are values of the host's own, such as a class or a comparison that
does not apply. The library takes no part in them, and they are `Value.foreign`.
-/

namespace HiddenTarget.Scripting

/-- The names that every object inherits, in the order in which the host lists them. -/
def inheritedNames : List String := [
  "__new__", "__repr__", "__hash__", "__str__", "__getattribute__", "__setattr__",
  "__delattr__", "__lt__", "__le__", "__eq__", "__ne__", "__gt__", "__ge__", "__init__",
  "__reduce_ex__", "__reduce__", "__getstate__", "__subclasshook__", "__init_subclass__",
  "__format__", "__sizeof__", "__dir__", "__class__", "__doc__"]

/-- What the inherited methods ask of an object. -/
structure Profile where
  text : String
  names : List String
  size : Nat
  /-- What there is to copy besides its class. -/
  state : Value
  get : String → Except Exception Value
  set : String → Except Exception Unit
  delete : String → Except Exception Unit
  setUp : Arguments → Except Exception Unit
  remake : Arguments → Except Exception Value

namespace Arguments

def only (a : Arguments) : Except Exception Value :=
  match a.places, a.names with
  | [v], [] => .ok v
  | _, _ => .error .typeError

def onlyName (a : Arguments) : Except Exception String :=
  match a.only with
  | .ok (.text name) => .ok name
  | _ => .error .typeError

def nothing (a : Arguments) : Except Exception Unit :=
  match a.places, a.names with
  | [], [] => .ok ()
  | _, _ => .error .typeError

def noNames (a : Arguments) : Except Exception Unit :=
  match a.names with
  | [] => .ok ()
  | _ => .error .typeError

end Arguments

/-- Call an inherited method. An attribute that is no method cannot be called, and an
object can neither be made without its class nor be taken apart, whichever way of taking
it apart the number asks for. -/
def Profile.call (p : Profile) (method : String) (a : Arguments) : Except Exception Value :=
  match method with
  | "__repr__" | "__str__" => a.nothing.map fun _ => .text p.text
  | "__format__" =>
    match a.only with
    | .ok (.text "") => .ok (.text p.text)
    | _ => .error .typeError
  | "__hash__" => a.nothing.map fun _ => .foreign
  | "__sizeof__" => a.nothing.map fun _ => .int p.size
  | "__dir__" => a.nothing.map fun _ => .list (p.names.map Value.text)
  | "__getstate__" => a.nothing.map fun _ => p.state
  | "__init__" => (p.setUp a).map fun _ => .none
  | "__class__" => p.remake a
  | "__getattribute__" => a.onlyName.bind p.get
  | "__setattr__" =>
    match a.places, a.names with
    | [.text name, _], [] => (p.set name).map fun _ => .none
    | _, _ => .error .typeError
  | "__delattr__" => (a.onlyName.bind p.delete).map fun _ => .none
  | "__lt__" | "__le__" | "__eq__" | "__ne__" | "__gt__" | "__ge__" =>
    a.only.map fun _ => .foreign
  | "__init_subclass__" => a.nothing.map fun _ => .none
  | "__subclasshook__" => a.noNames.map fun _ => .foreign
  | "__reduce_ex__" => a.only.bind fun v => v.toInt32.bind fun _ => .error .typeError
  | "__new__" | "__reduce__" => .error .typeError
  | _ => (p.get method).bind fun _ => .error .typeError

end HiddenTarget.Scripting
