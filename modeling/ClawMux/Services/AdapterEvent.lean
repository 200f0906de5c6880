import ClawMux.Lib.Except
import ClawMux.Lib.Json

namespace ClawMux
set_option autoImplicit true
open Lib

/-- What an adapter's reading of a message can raise. -/
inductive Raised
  | http
  | json
  | attribute_error
  | type_error
  | key_error
  | assertion_error
  deriving DecidableEq

/-- The `ChannelEvent` of an adapter; its fields are as the platform sent them. -/
structure AdapterEvent where
  provider : String
  user_id : Json
  channel_id : Json
  text : Json
  post_id : Json
  file_ids : List Json := []
  root_id : Json := .str ""

namespace Dynamic

/-- `x.get(name, default)` -/
def get (name : String) (default : Json) : Json → Except Raised Json
  | .obj fields => .ok (Json.get fields name default)
  | _ => .error .attribute_error

/-- `x[name]` -/
def item (name : String) : Json → Except Raised Json
  | .obj fields =>
    match fields.lookup name with
    | some j => .ok j
    | none => .error .key_error
  | _ => .error .type_error

/-- `x[-1]`, for an `x` that is not empty. -/
def last : Json → Except Raised Json
  | .arr items => (items.getLast?.map .ok).getD (.error .key_error)
  | .str s => (s.toList.getLast?.map fun c => .ok (.str (String.singleton c))).getD
      (.error .key_error)
  | .obj _ => .error .key_error
  | _ => .error .type_error

/-- What `for` runs over. -/
def iterate : Json → Except Raised (List Json)
  | .arr items => .ok items
  | .str s => .ok (s.toList.map fun c => .str (String.singleton c))
  | .obj fields => .ok (fields.map fun field => .str field.1)
  | _ => .error .type_error

/-- `x or y` -/
def either (x y : Json) : Json := if x.truthy then x else y

/-- `x.strip()` -/
def strip : Json → Except Raised Json
  | .str s => .ok (.str (Text.strip s))
  | _ => .error .attribute_error

/-- A field that is missing has its default. -/
theorem get_missing {j : Json} (h : (j.fields.lookup name).isNone) (hx : get name d j = .ok x) :
    x = d := by
  cases j with
  | obj fields =>
    cases hx
    rw [Option.isNone_iff_eq_none] at h
    exact congrArg (Option.getD · d) h
  | null | bool | num | str | arr => cases hx

end Dynamic

end ClawMux
