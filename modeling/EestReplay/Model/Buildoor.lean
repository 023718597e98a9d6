import EestReplay.Model.Payload

/-! # Requests to the builder

`request_build` of `buildoor_client.py`: the body it posts to `/build`. -/

namespace EestReplay.Buildoor

/-- An argument of `_hex`; of anything but a number only its text counts. -/
inductive HexArg where
  | none
  | int (n : ℕ)
  | other (s : String)

/-- `_hex` -/
def hex : HexArg → String
  | .none => "0x0"
  | .int n => Text.hex n
  | .other s => if Text.startsWith s "0x" then s else "0x" ++ s

variable {H A V : Type} (hash : FixedBytes H) (addr : FixedBytes A)

def withdrawalBody (w : Withdrawal A) : Json :=
  .obj
    [("index", .str (hex (.int w.index))),
      ("validator_index", .str (hex (.int w.validatorIndex))),
      ("address", .str (hex (.other (addr.str w.address)))),
      ("amount", .str (hex (.int w.amount)))]

/-- The JSON object that `request_build` posts. -/
def requestBody (parentHash : String) (payload : EngineNewPayload H A V) : Json :=
  let expected := payload.expected
  let parentBeacon :=
    if payload.forkchoiceUpdatedVersion ≥ 3 then payload.params.item2 else none
  .obj
    [("parent_hash", .str parentHash),
      ("timestamp", .str (hex (.int expected.timestamp))),
      ("prev_randao", .str (hex (.other (hash.str expected.prevRandao)))),
      ("suggested_fee_recipient", .str (hex (.other (addr.str expected.feeRecipient)))),
      ("parent_beacon_block_root",
        .str (match parentBeacon with
          | some root => hex (.other (hash.str root))
          | none => "")),
      ("slot_number",
        .str (match expected.slotNumber with
          | some slot => hex (.int slot)
          | none => "0x0")),
      ("target_gas_limit", .str "0x0"),
      ("withdrawals", .arr ((expected.withdrawals.getD []).map (withdrawalBody addr)))]

end EestReplay.Buildoor
