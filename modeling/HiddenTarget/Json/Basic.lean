import HiddenTarget.Decimal.Binary

/-!
# JSON values

`Json` is the type of JSON values. A number is an integer of any size or a double;
an object is a list of members. `Members.insert` and `Members.insertNew` keep a
list of members in the order of their keys, and an object built by them alone is
`Members.Sorted`: no key twice, and the keys in the order of their characters'
codes, which is also the order of their UTF-8 bytes.
-/

namespace HiddenTarget

inductive Json where
  | null
  | bool (b : Bool)
  | integer (i : Int)
  | real (x : Float)
  | string (s : String)
  | array (items : List Json)
  | object (members : List (String × Json))
deriving Inhabited, Repr

namespace Json

abbrev Members := List (String × Json)

def ofFloat (x : Float) : Json := if Decimal.isFinite x then real x else null

def ofOption {α : Type} (f : α → Json) : Option α → Json
  | none => null
  | some a => f a

namespace Members

def get? (key : String) : Members → Option Json
  | [] => none
  | (k, v) :: rest => if k = key then some v else get? key rest

/-- Give a key a value, a new key going to its place in the order. -/
def insert (key : String) (value : Json) : Members → Members
  | [] => [(key, value)]
  | (k, v) :: rest =>
    if k = key then (key, value) :: rest
    else if key < k then (key, value) :: (k, v) :: rest
    else (k, v) :: insert key value rest

def insertNew (key : String) (value : Json) (ms : Members) : Members :=
  if (ms.get? key).isSome then ms else ms.insert key value

/-- The members of a list in order; of a repeated key the last value counts. -/
def ofList (ms : List (String × Json)) : Members :=
  ms.foldl (fun acc (k, v) => acc.insert k v) []

def Sorted (ms : Members) : Prop := ms.Pairwise fun a b => a.1 < b.1

theorem get?_insert_self (key : String) (value : Json) (ms : Members) :
    (ms.insert key value).get? key = some value := by
  fun_induction insert key value ms with
  | case1 => simp [get?]
  | case2 => simp [get?]
  | case3 => simp [get?]
  | case4 k v rest hne hlt ih => rw [get?, if_neg hne]; exact ih

theorem get?_insert_of_ne {key other : String} (h : other ≠ key) (value : Json) (ms : Members) :
    (ms.insert key value).get? other = ms.get? other := by
  fun_induction insert key value ms with
  | case1 => simp [get?, Ne.symm h]
  | case2 => simp [get?, Ne.symm h]
  | case3 => simp [get?, Ne.symm h]
  | case4 k v rest hne hlt ih => simp only [get?, ih]

end Members

def ofMembers (ms : List (String × Json)) : Json := object (Members.ofList ms)

end Json

end HiddenTarget
