import EestReplay.Model.Payload
import EestReplay.Model.Unmarshal

/-! # The build endpoint

What `handleBuild` of `cmd_simbuild.go` reads out of the body of a `POST /build`. -/

namespace EestReplay.Simbuild

open Digits

/-! ## Numbers -/

inductive NumErr where
  | errSyntax
  | errRange
  deriving DecidableEq, Repr

/-- `strconv.NumError` -/
structure NumError where
  num : String
  err : NumErr
  deriving DecidableEq, Repr

/-- `maxUint64/16 + 1`, from which on a multiplication by 16 overflows. -/
def cutoff : UInt64 := 0x1000000000000000

/-- The loop of `strconv.ParseUint(s, 16, 64)` over the bytes of `s`. -/
def parseUintLoop : UInt64 → List Char → Except NumErr UInt64
  | n, [] => .ok n
  | n, c :: cs =>
    match digit 16 c with
    | none => .error .errSyntax
    | some d =>
      if n ≥ cutoff then .error .errRange
      else
        let n := n * 16
        let n1 := n + UInt64.ofNat d
        if n1 < n then .error .errRange else parseUintLoop n1 cs

def parseUint (s : String) : Except NumError UInt64 :=
  if s = "" then .error ⟨s, .errSyntax⟩
  else (parseUintLoop 0 s.toList).mapError fun err => ⟨s, err⟩

/-- Without a leading `0x` or `0X` that has something behind it. -/
def trimHex (s : String) : String :=
  match s.toList with
  | '0' :: 'x' :: c :: cs => String.ofList (c :: cs)
  | '0' :: 'X' :: c :: cs => String.ofList (c :: cs)
  | _ => s

def parseHexU64 (s : String) : Except NumError UInt64 :=
  if s = "" then .ok 0
  else if trimHex s = "" then .ok 0
  else parseUint (trimHex s)

/-! ## The request -/

structure BuildWithdrawal where
  index : String := ""
  validatorIndex : String := ""
  address : String := ""
  amount : String := ""

structure BuildRequest where
  parentHash : String := ""
  timestamp : String := ""
  prevRandao : String := ""
  suggestedFeeRecipient : String := ""
  parentBeaconBlockRoot : String := ""
  slotNumber : String := ""
  targetGasLimit : String := ""
  withdrawals : List BuildWithdrawal := []

inductive WithdrawalField where
  | index
  | validatorIndex
  | address
  | amount

def WithdrawalField.tag : WithdrawalField → String
  | index => "index"
  | validatorIndex => "validator_index"
  | address => "address"
  | amount => "amount"

def WithdrawalField.all : List WithdrawalField := [.index, .validatorIndex, .address, .amount]

inductive RequestField where
  | parentHash
  | timestamp
  | prevRandao
  | suggestedFeeRecipient
  | parentBeaconBlockRoot
  | slotNumber
  | targetGasLimit
  | withdrawals

def RequestField.tag : RequestField → String
  | parentHash => "parent_hash"
  | timestamp => "timestamp"
  | prevRandao => "prev_randao"
  | suggestedFeeRecipient => "suggested_fee_recipient"
  | parentBeaconBlockRoot => "parent_beacon_block_root"
  | slotNumber => "slot_number"
  | targetGasLimit => "target_gas_limit"
  | withdrawals => "withdrawals"

def RequestField.all : List RequestField :=
  [.parentHash, .timestamp, .prevRandao, .suggestedFeeRecipient, .parentBeaconBlockRoot,
    .slotNumber, .targetGasLimit, .withdrawals]

/-! ## Its decoding -/

def BuildWithdrawal.store (w : BuildWithdrawal) (key : String) (item : Json) :
    BuildWithdrawal × Option DecodeError :=
  match fieldOf WithdrawalField.tag WithdrawalField.all key with
  | none => (w, none)
  | some field =>
    let string := fun old => storeString "buildWithdrawal" ("withdrawals." ++ field.tag) old item
    match field with
    | .index => ({ w with index := (string w.index).1 }, (string w.index).2)
    | .validatorIndex =>
      ({ w with validatorIndex := (string w.validatorIndex).1 }, (string w.validatorIndex).2)
    | .address => ({ w with address := (string w.address).1 }, (string w.address).2)
    | .amount => ({ w with amount := (string w.amount).1 }, (string w.amount).2)

def storeWithdrawal (w : BuildWithdrawal) : Json → BuildWithdrawal × Option DecodeError
  | .obj members => storeMembers BuildWithdrawal.store w members
  | .null => (w, none)
  | item => (w, some ⟨kindOf item, "buildRequest", "withdrawals", "cmd.buildWithdrawal"⟩)

/-- What has been decoded. The array of the withdrawals can hold more of them behind the end of
the slice, and a later array is decoded over these, too. -/
structure Decoding where
  request : BuildRequest := {}
  behind : List BuildWithdrawal := []

def Decoding.storeWithdrawals (d : Decoding) : Json → Decoding × Option DecodeError
  | .null => (⟨{ d.request with withdrawals := [] }, []⟩, none)
  | .arr [] => (⟨{ d.request with withdrawals := [] }, []⟩, none)
  | .arr items =>
    let old := d.request.withdrawals ++ d.behind
    let stored := storeItems {} storeWithdrawal old items
    (⟨{ d.request with withdrawals := stored.1 }, old.drop items.length⟩, stored.2)
  | item => (d, some ⟨kindOf item, "buildRequest", "withdrawals", "[]cmd.buildWithdrawal"⟩)

def Decoding.store (d : Decoding) (key : String) (item : Json) : Decoding × Option DecodeError :=
  match fieldOf RequestField.tag RequestField.all key with
  | none => (d, none)
  | some field =>
    let r := d.request
    let string := fun old => storeString "buildRequest" field.tag old item
    match field with
    | .parentHash =>
      (⟨{ r with parentHash := (string r.parentHash).1 }, d.behind⟩, (string r.parentHash).2)
    | .timestamp =>
      (⟨{ r with timestamp := (string r.timestamp).1 }, d.behind⟩, (string r.timestamp).2)
    | .prevRandao =>
      (⟨{ r with prevRandao := (string r.prevRandao).1 }, d.behind⟩, (string r.prevRandao).2)
    | .suggestedFeeRecipient =>
      (⟨{ r with suggestedFeeRecipient := (string r.suggestedFeeRecipient).1 }, d.behind⟩,
        (string r.suggestedFeeRecipient).2)
    | .parentBeaconBlockRoot =>
      (⟨{ r with parentBeaconBlockRoot := (string r.parentBeaconBlockRoot).1 }, d.behind⟩,
        (string r.parentBeaconBlockRoot).2)
    | .slotNumber =>
      (⟨{ r with slotNumber := (string r.slotNumber).1 }, d.behind⟩, (string r.slotNumber).2)
    | .targetGasLimit =>
      (⟨{ r with targetGasLimit := (string r.targetGasLimit).1 }, d.behind⟩,
        (string r.targetGasLimit).2)
    | .withdrawals => d.storeWithdrawals item

/-- `Decode(&req)` -/
def decode : Json → Except DecodeError BuildRequest
  | .obj members =>
    let decoded := storeMembers Decoding.store {} members
    match decoded.2 with
    | none => .ok decoded.1.request
    | some e => .error e
  | .null => .ok {}
  | item => .error ⟨kindOf item, "", "", "cmd.buildRequest"⟩

/-! ## The attributes -/

/-- `types.Withdrawal` -/
structure EngineWithdrawal (A : Type) where
  index : UInt64
  validator : UInt64
  address : A
  amount : UInt64

/-- `engine.PayloadAttributes` -/
structure EngineAttributes (H A : Type) where
  timestamp : UInt64
  prevRandao : H
  suggestedFeeRecipient : A
  withdrawals : List (EngineWithdrawal A)
  slotNumber : UInt64
  targetGasLimit : UInt64
  parentBeaconBlockRoot : Option H

/-- An error of `toAttributes`: the field it names, and what it wraps. -/
structure AttributesError where
  field : String
  cause : NumError
  deriving DecidableEq, Repr

/-- A number of the request, with its name in errors. -/
def number (field s : String) : Except AttributesError UInt64 :=
  (parseHexU64 s).mapError fun cause => ⟨field, cause⟩

variable {H A : Type} (hash : FixedBytes H) (addr : FixedBytes A)

def toWithdrawal (i : ℕ) (w : BuildWithdrawal) : Except AttributesError (EngineWithdrawal A) := do
  let index ← number ("withdrawals[" ++ toString i ++ "].index") w.index
  let validator ← number ("withdrawals[" ++ toString i ++ "].validator_index") w.validatorIndex
  let amount ← number ("withdrawals[" ++ toString i ++ "].amount") w.amount
  return ⟨index, validator, addr.ofHex w.address, amount⟩

/-- The loop over the withdrawals, from index `i` on. -/
def toWithdrawals : ℕ → List BuildWithdrawal → Except AttributesError (List (EngineWithdrawal A))
  | _, [] => .ok []
  | i, w :: ws => do
    let withdrawal ← toWithdrawal addr i w
    let withdrawals ← toWithdrawals (i + 1) ws
    return withdrawal :: withdrawals

def BuildRequest.toAttributes (r : BuildRequest) :
    Except AttributesError (EngineAttributes H A) := do
  let timestamp ← number "timestamp" r.timestamp
  let slotNumber ← number "slot_number" r.slotNumber
  let targetGasLimit ← number "target_gas_limit" r.targetGasLimit
  let withdrawals ← toWithdrawals addr 0 r.withdrawals
  return {
    timestamp := timestamp
    prevRandao := hash.ofHex r.prevRandao
    suggestedFeeRecipient := addr.ofHex r.suggestedFeeRecipient
    withdrawals := withdrawals
    slotNumber := slotNumber
    targetGasLimit := targetGasLimit
    parentBeaconBlockRoot :=
      if r.parentBeaconBlockRoot ≠ "" then some (hash.ofHex r.parentBeaconBlockRoot) else none }

/-- What the handler answers with "400 Bad Request". -/
inductive BadRequest where
  | decodeBody (error : DecodeError)
  | invalidAttrs (error : AttributesError)
  deriving DecidableEq, Repr

/-- The parent and the attributes with which `handleBuild` calls `RequestPayloadBuild`. -/
def requestedBuild (body : Json) : Except BadRequest (H × EngineAttributes H A) := do
  let req ← (decode body).mapError BadRequest.decodeBody
  let attrs ← (req.toAttributes hash addr).mapError BadRequest.invalidAttrs
  return (hash.ofHex req.parentHash, attrs)

end EestReplay.Simbuild
