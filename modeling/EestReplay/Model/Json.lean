import Mathlib.Algebra.Group.Nat.Defs
import Mathlib.Data.List.Infix
import Mathlib.Data.Rat.Defs

/-! # Python values shared by the modules

`Json` is what `json.loads` returns; `PyError` is an exception of the runtime. -/

namespace EestReplay

/-- Exception classes the code tells apart. `unbounded` is no exception of Python: it ends
a loop of the model that the clock has not ended. -/
inductive ErrorKind where
  | valueError
  | typeError
  | keyError
  | indexError
  | attributeError
  | recursionError
  | osError
  | processLookupError
  | timeoutExpired
  | runtimeError
  | keyboardInterrupt
  | other
  | unbounded
  deriving DecidableEq, Repr

structure PyError where
  kind : ErrorKind
  text : String := ""
  deriving DecidableEq, Repr

/-- `except Exception` catches it. -/
def PyError.isException (e : PyError) : Bool :=
  match e.kind with
  | .keyboardInterrupt => false
  | .unbounded => false
  | _ => true

/-- A JSON value. A float without a value is one that is not finite, and an object has one
entry per key. -/
inductive Json where
  | null
  | bool (b : Bool)
  | int (n : ℤ)
  | float (value : Option ℚ)
  | str (s : String)
  | arr (items : List Json)
  | obj (fields : List (String × Json))

namespace Json

/-- Python's `bool(value)`. -/
def truthy : Json → Bool
  | null => false
  | bool b => b
  | int n => n != 0
  | float value => value != some 0
  | str s => s != ""
  | arr items => !items.isEmpty
  | obj fields => !fields.isEmpty

/-- `value or []`, where `none` is the `None` that `dict.get` returns for a missing key. -/
def orEmpty : Option Json → Json
  | some value => if value.truthy then value else arr []
  | none => arr []

/-- `value[0]`. The keys of an object are strings, so it has no key `0`. -/
def item0 : Json → Except PyError Json
  | arr (x :: _) => .ok x
  | arr [] => .error ⟨.indexError, "list index out of range"⟩
  | str s =>
    match s.toList with
    | c :: _ => .ok (str (String.singleton c))
    | [] => .error ⟨.indexError, "string index out of range"⟩
  | obj _ => .error ⟨.keyError, "0"⟩
  | _ => .error ⟨.typeError, "object is not subscriptable"⟩

/-- `value["key"]`. -/
def item (key : String) : Json → Except PyError Json
  | obj fields =>
    match fields.lookup key with
    | some value => .ok value
    | none => .error ⟨.keyError, key⟩
  | _ => .error ⟨.typeError, "indices must be integers or slices"⟩

/-- `value.get("key")` -/
def get (key : String) : Json → Except PyError Json
  | obj fields => .ok ((fields.lookup key).getD null)
  | _ => .error ⟨.attributeError, "get"⟩

/-- `"key" in value`, for a reply that is an object. -/
def has (key : String) : Json → Except PyError Bool
  | obj fields => .ok (fields.lookup key).isSome
  | arr items => .ok (items.any fun item => match item with | str s => s == key | _ => false)
  | str s => .ok (decide (key.toList <:+: s.toList))
  | _ => .error ⟨.typeError, "argument is not iterable"⟩

def isNull : Json → Bool
  | null => true
  | _ => false

/-- A value that a Python set can hold. -/
def hashable : Json → Bool
  | arr _ => false
  | obj _ => false
  | _ => true

end Json

end EestReplay
