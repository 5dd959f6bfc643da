import HiddenTarget.Scripting.Object

/-!
# What the module offers

The host sees the library as a module with two classes and a function.
`Exports.call` calls one of them by its name. The module is an object itself, and what
is none of the three is looked for among the methods that every object inherits. Unlike
those of other objects, its attributes can be set and deleted.
-/

namespace HiddenTarget.Scripting.Exports

open HiddenTarget.Random

def doc : String := "Python module definition."

def offered : List String := ["SimpleEnv", "VecEnv", "default_max_steps"]

/-- The names of the attributes, in the order in which the host lists them. -/
def names : List String :=
  ["__name__", "__doc__", "__package__", "__loader__", "__spec__", "__all__"] ++ offered ++
    ["__file__"]

def get : String → Except Exception Value
  | "__name__" => .ok (.text "simple_env")
  | "__doc__" => .ok (.text doc)
  | "__package__" => .ok (.text "")
  | "__all__" => .ok (.list (offered.map Value.text))
  | "__annotations__" => .ok (.dict [])
  | name =>
    if name ∈ names ∨ name ∈ inheritedNames ∨ name = "__dict__" then .ok .foreign
    else .error .attributeError

/-- Set an attribute. Nothing looks at it afterwards. -/
def set (name : String) : Except Exception Unit :=
  if name = "__class__" then .error .typeError
  else if name = "__dict__" then .error .attributeError
  else .ok ()

def delete (name : String) : Except Exception Unit :=
  if name = "__class__" then .error .typeError
  else if name ∈ names then .ok ()
  else .error .attributeError

def setUp (a : Arguments) : Except Exception Unit := do
  match ← a.bind [⟨"name", none⟩, ⟨"doc", some .none⟩] with
  | [.text _, _] => return ()
  | _ => throw .typeError

def profile : Profile where
  text := "<module 'simple_env'>"
  names := names
  size := 56
  state := .foreign
  get := get
  set := set
  delete := delete
  setUp := setUp
  remake := fun a => (setUp a).map fun _ => .foreign

/-- Call what the module offers, with the sources `fresh` for environments without a
seed. -/
def call (fresh : Nat → Generator) (name : String) (a : Arguments) : Except Exception Value :=
  match name with
  | "SimpleEnv" => (Class.single.construct fresh a).map fun _ => .foreign
  | "VecEnv" => (Class.fleet.construct fresh a).map fun _ => .foreign
  | "default_max_steps" => a.nothing.map fun _ => ofUInt32 ({} : Rules).maxSteps
  | _ => profile.call name a

end HiddenTarget.Scripting.Exports
