import EestReplay.Model.Text

/-! # Payloads of an engine fixture

The fixture classes of `execution_testing`, with the fields that the runner reads. -/

namespace EestReplay

/-- Byte strings of one width, hashes or addresses: how a fixture prints them, and how
go-ethereum reads a hex string back. -/
structure FixedBytes (H : Type) where
  str : H → String
  ofHex : String → H
  hexPrefixed : ∀ h, Text.startsWith (str h) "0x" = true
  ofHex_str : ∀ h, ofHex (str h) = h

structure Withdrawal (A : Type) where
  index : ℕ
  validatorIndex : ℕ
  address : A
  amount : ℕ
  deriving DecidableEq

/-- The fields of `FixtureExecutionPayload` that the code reads by name, and `getattr`, by
which it compares all of them. -/
structure ExecutionPayload (H A V : Type) where
  parentHash : H
  feeRecipient : A
  number : ℕ
  timestamp : ℕ
  prevRandao : H
  blockHash : H
  transactions : List String
  withdrawals : Option (List (Withdrawal A))
  slotNumber : Option ℕ
  getattr : String → V

/-- The parameters of `engine_newPayload`: one, three or four of them. -/
inductive NewPayloadParams (H A V : Type) where
  | v1 (payload : ExecutionPayload H A V)
  | v3 (payload : ExecutionPayload H A V) (hashes : List H) (beaconRoot : H)
  | v4 (payload : ExecutionPayload H A V) (hashes : List H) (beaconRoot : H)
      (requests : List String)

namespace NewPayloadParams

variable {H A V : Type}

/-- `params[0]` -/
def item0 : NewPayloadParams H A V → ExecutionPayload H A V
  | v1 payload => payload
  | v3 payload _ _ => payload
  | v4 payload _ _ _ => payload

/-- `params[2]` when there are three parameters -/
def item2 : NewPayloadParams H A V → Option H
  | v1 _ => none
  | v3 _ _ beaconRoot => some beaconRoot
  | v4 _ _ beaconRoot _ => some beaconRoot

end NewPayloadParams

/-- `FixtureEngineNewPayload` -/
structure EngineNewPayload (H A V : Type) where
  params : NewPayloadParams H A V
  newPayloadVersion : ℕ
  forkchoiceUpdatedVersion : ℕ
  valid : Bool

namespace EngineNewPayload

variable {H A V : Type}

/-- `payload.params[0]` -/
def expected (payload : EngineNewPayload H A V) : ExecutionPayload H A V := payload.params.item0

end EngineNewPayload

/-- `BlockchainEngineFixture` -/
structure EngineFixture (H A V : Type) where
  genesisHash : H
  payloads : List (EngineNewPayload H A V)

/-- `PayloadAttributes` -/
structure PayloadAttributes (H A : Type) where
  timestamp : ℕ
  prevRandao : H
  suggestedFeeRecipient : A
  withdrawals : Option (List (Withdrawal A))
  parentBeaconBlockRoot : Option H
  slotNumber : Option ℕ

/-- `_payload_attributes` -/
def payloadAttributes {H A V : Type} (payload : EngineNewPayload H A V) : PayloadAttributes H A where
  timestamp := payload.expected.timestamp
  prevRandao := payload.expected.prevRandao
  suggestedFeeRecipient := payload.expected.feeRecipient
  withdrawals := payload.expected.withdrawals
  parentBeaconBlockRoot :=
    if payload.forkchoiceUpdatedVersion ≥ 3 then payload.params.item2 else none
  slotNumber := payload.expected.slotNumber

end EestReplay
