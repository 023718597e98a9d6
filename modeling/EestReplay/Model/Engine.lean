import EestReplay.Model.Json

/-! # The engine client

What `01-engine-client-nullable-slotnumber.patch` makes of the execution payloads of the
engine client: `SlotNumber` is a pointer in their JSON shape. -/

namespace EestReplay.Engine

/-- `hexutil.Uint64` of go-ethereum. -/
structure HexUint64 where
  marshalText : UInt64 → String
  unmarshalJSON : Json → Option UInt64
  unmarshal_marshal : ∀ n, unmarshalJSON (.str (marshalText n)) = some n

/-! ## The key -/

/-- The case folding of `encoding/json`, for the runes that fold to a letter of the key. -/
def foldRune (c : Char) : Char := if c.toNat = 0x17F then 'S' else c.toUpper

/-- The member of an object with this key is stored in the field. -/
def isSlotNumber (key : String) : Bool := key.toList.map foldRune == "SLOTNUMBER".toList

/-- The members for the other fields. -/
def otherMembers (fields : List (String × Json)) : List (String × Json) :=
  fields.filter fun field => !isSlotNumber field.1

/-- The other fields of a payload: how they are unmarshalled into the ones there are, and how
they are marshalled. What is marshalled can be unmarshalled. -/
structure OtherFields (R : Type) where
  unmarshal : R → List (String × Json) → Option R
  marshal : R → List (String × Json)
  otherMembers_marshal : ∀ r, otherMembers (marshal r) = marshal r
  unmarshal_marshal : ∀ p r, ∃ q, unmarshal p (marshal r) = some q

/-- `ExecutionPayload` -/
structure ExecutionPayload (R : Type) where
  other : R
  slotNumber : UInt64

/-! ## Unmarshalling -/

section

variable (hex : HexUint64)

/-- A pointer to a number, which a null sets to nil. -/
def decodePointer : Json → Option (Option UInt64)
  | .null => some none
  | value => (hex.unmarshalJSON value).map some

/-- `j.SlotNumber` after the members of an object, one after another. -/
def decodeSlotNumber : Option UInt64 → List (String × Json) → Option (Option UInt64)
  | slotNumber, [] => some slotNumber
  | slotNumber, (key, value) :: fields =>
    if isSlotNumber key then
      (decodePointer hex value).bind fun slotNumber => decodeSlotNumber slotNumber fields
    else decodeSlotNumber slotNumber fields

end

/-- The members that are stored in a struct. A null stores none. -/
def members : Json → Option (List (String × Json))
  | .obj fields => some fields
  | .null => some []
  | _ => none

namespace ExecutionPayload

variable {R : Type} (hex : HexUint64) (others : OtherFields R)

def unmarshalJSON (p : ExecutionPayload R) (data : Json) : Option (ExecutionPayload R) := do
  let fields ← members data
  let slotNumber ← decodeSlotNumber hex none fields
  let other ← others.unmarshal p.other (otherMembers fields)
  -- A nil pointer leaves the number that the payload had.
  match slotNumber with
  | some n => return { other := other, slotNumber := n }
  | none => return { other := other, slotNumber := p.slotNumber }

/-! ## Marshalling -/

/-- `j.SlotNumber`, which is left nil for 0. -/
def slotPointer (p : ExecutionPayload R) : Option UInt64 :=
  if p.slotNumber ≠ 0 then some p.slotNumber else none

/-- The `slotNumber,omitempty` of the struct, its last field. -/
def slotMember : Option UInt64 → List (String × Json)
  | some n => [("slotNumber", .str (hex.marshalText n))]
  | none => []

def marshalJSON (p : ExecutionPayload R) : Json :=
  .obj (others.marshal p.other ++ slotMember hex p.slotPointer)

end ExecutionPayload

end EestReplay.Engine
