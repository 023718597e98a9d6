import EestReplay.Model.Json

/-! # Go's JSON decoder

What `encoding/json` makes of a JSON value that it decodes into a struct of strings. -/

namespace EestReplay.Simbuild

/-- `json.UnmarshalTypeError`: a kind of value, the struct and the path of the field that it does
not fit, and the type there. -/
structure DecodeError where
  value : String
  struct : String
  field : String
  type : String
  deriving DecidableEq, Repr

/-- `func (e *UnmarshalTypeError) Error() string` -/
def DecodeError.error (e : DecodeError) : String :=
  if e.struct ≠ "" || e.field ≠ "" then
    "json: cannot unmarshal " ++ e.value ++ " into Go struct field " ++ e.struct ++ "." ++ e.field ++
      " of type " ++ e.type
  else "json: cannot unmarshal " ++ e.value ++ " into Go value of type " ++ e.type

/-- What an error calls a value. -/
def kindOf : Json → String
  | .null => "null"
  | .bool _ => "bool"
  | .int _ => "number"
  | .float _ => "number"
  | .str _ => "string"
  | .arr _ => "array"
  | .obj _ => "object"

/-! ## Names -/

/-- `foldRune`, as far as a comparison with an ASCII name can tell: the long s folds to `S`, and
the Kelvin sign to `K`. -/
def foldRune (c : Char) : Char :=
  if c = Char.ofNat 0x17f then 'S' else if c = Char.ofNat 0x212a then 'K' else c.toUpper

def foldName (name : String) : List Char := name.toList.map foldRune

/-- The field that a key of an object names. A tag that is spelled as the key goes first, which
makes no difference where no two tags fold to one name. -/
def fieldOf {F : Type} (tag : F → String) (fields : List F) (key : String) : Option F :=
  fields.find? fun field => foldName key = foldName (tag field)

/-! ## Values -/

/-- A value that is decoded into a string. A null leaves it as it is, and so does an error. -/
def storeString (struct path old : String) : Json → String × Option DecodeError
  | .null => (old, none)
  | .str s => (s, none)
  | item => (old, some ⟨kindOf item, struct, path, "string"⟩)

/-- The members of an object, in their order. The decoder keeps its first error and goes on. -/
def storeMembers {α : Type} (store : α → String → Json → α × Option DecodeError) :
    α → List (String × Json) → α × Option DecodeError
  | old, [] => (old, none)
  | old, (key, item) :: members =>
    let stored := store old key item
    let rest := storeMembers store stored.1 members
    (rest.1, stored.2 <|> rest.2)

/-- The items of an array, over the elements that are there already. -/
def storeItems {α : Type} (fresh : α) (store : α → Json → α × Option DecodeError) :
    List α → List Json → List α × Option DecodeError
  | _, [] => ([], none)
  | old, item :: items =>
    let stored := store (old.headD fresh) item
    let rest := storeItems fresh store old.tail items
    (stored.1 :: rest.1, stored.2 <|> rest.2)

end EestReplay.Simbuild
