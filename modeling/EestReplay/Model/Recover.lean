import EestReplay.Model.Sweep

/-! # The `recover` command

`recover_cmd` of `cli.py`. -/

namespace EestReplay.Recover

open Dialogue

variable {σ : Type} (peer : Peer σ HostReply) (eest : Eest)

/-- The options of `recover`. -/
structure Options where
  rpcUrl : String
  toAddr : String
  chainId : ℤ
  sidecar : Option Path := none
  eoaStart : Option String := none
  key : Option String := none
  count : ℕ := 64
  maxFeePerGas : ℤ := 5000000000
  maxPriorityFeePerGas : ℤ := 1000000000

def Options.target (options : Options) : Sweep.Target where
  rpcUrl := options.rpcUrl
  toAddr := options.toAddr
  chainId := options.chainId
  maxFeePerGas := options.maxFeePerGas
  maxPriorityFeePerGas := options.maxPriorityFeePerGas

/-- What the command reports: one account, or a range of derived ones. -/
inductive Report where
  | account (result : Option (Json × ℤ))
  | range (recovered : List Sweep.RecoveredAccount)

/-- `int(value)` -/
def toInt : Json → Except PyError ℤ
  | .str s => Text.int 10 s
  | .int n => .ok n
  | .bool b => .ok (if b then 1 else 0)
  | .float (some value) => .ok (value.num.tdiv value.den)
  | .float none => .error ⟨.valueError, "cannot convert float to integer"⟩
  | _ => .error ⟨.typeError, "int() argument must be a string or a number"⟩

/-- The derivation start: the option, or else what the sidecar records. -/
def startValue (options : Options) : Command σ Json :=
  match options.eoaStart, options.sidecar with
  | some eoaStart, _ => return .str eoaStart
  | none, some sidecar => do
    let recorded ← call peer (.readText sidecar)
    lift (Json.item "eoa_start" recorded)
  | none, none => throw ⟨.other, "pass --meta <sidecar>, --eoa-start, or --key."⟩

def recoverCmd (options : Options) (fuel : ℕ) : Command σ Report :=
  match options.key with
  | some key => do
    let privKey ← lift (Text.int 16 key)
    let result ← Sweep.sweepAccount peer eest options.target privKey
    return .account result
  | none => do
    let start ← startValue peer options
    let eoaStart ← lift (toInt start)
    let recovered ← Sweep.recoverFundedEoas peer eest options.target eoaStart fuel options.count
    return .range recovered

end EestReplay.Recover
