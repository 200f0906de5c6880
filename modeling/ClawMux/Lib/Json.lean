import Mathlib.Data.List.Basic
import ClawMux.Lib.Text

namespace Lib

/-- A value of `json.loads` with finite numbers; the fields of an object have distinct names. -/
inductive Json
  | null
  | bool (b : Bool)
  | num (n : Rat)
  | str (s : String)
  | arr (items : List Json)
  | obj (fields : List (String × Json))

/-- The values that can be keys of a dictionary; `True` is the key 1. -/
inductive Key
  | null
  | num (n : Rat)
  | str (s : String)
  deriving DecidableEq

/-- What a dynamic language does with values that its strings and numbers do not settle. -/
structure Dynamics where
  str : Json → String := fun _ => ""
  list_gt : List Json → List Json → Option Bool := fun _ _ => none

namespace Json

def truthy : Json → Bool
  | .null => false
  | .bool b => b
  | .num n => n ≠ 0
  | .str s => s ≠ ""
  | .arr items => !items.isEmpty
  | .obj fields => !fields.isEmpty

/-- `d.get(name, default)` -/
def get (fields : List (String × Json)) (name : String) (default : Json) : Json :=
  (fields.lookup name).getD default

/-- The fields of an object, and none for another value: `x if isinstance(x, dict) else {}`. -/
def fields : Json → List (String × Json)
  | .obj fields => fields
  | _ => []

/-- `hash` fails on lists and objects. -/
def key : Json → Option Key
  | .null => some .null
  | .bool b => some (.num (if b then 1 else 0))
  | .num n => some (.num n)
  | .str s => some (.str s)
  | .arr _ | .obj _ => none

def number : Json → Option Rat
  | .bool b => some (if b then 1 else 0)
  | .num n => some n
  | _ => none

def string : Json → Option String
  | .str s => some s
  | _ => none

/-- `len` fails on numbers and `None`. -/
def sized : Json → Bool
  | .str _ | .arr _ | .obj _ => true
  | .null | .bool _ | .num _ => false

/-- `a > b`, which fails on values of different kinds. -/
def gt (py : Dynamics) (a b : Json) : Option Bool :=
  match a.number, b.number with
  | some x, some y => some (y < x)
  | _, _ =>
    match a, b with
    | .str s, .str t => some (t < s)
    | .arr items, .arr others => py.list_gt items others
    | _, _ => none

/-- `f"{x}"` -/
def format (py : Dynamics) : Json → String
  | .str s => s
  | j => py.str j

/-- `sub in x` for a string `sub`, which fails on values that contain nothing. -/
def contains (sub : String) : Json → Option Bool
  | .str s => some (Text.contains s sub)
  | .arr items => some (items.any fun item => item.string = some sub)
  | .obj fields => some (fields.any fun field => field.1 = sub)
  | _ => none

end Json

end Lib
