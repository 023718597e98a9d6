import EestReplay.Model.Host
import EestReplay.Model.Text

/-! # Sweeping accounts

`sweep.py`: JSON-RPC calls, balances, and the recovery of the EOAs that a test run has
funded. -/

namespace EestReplay

open Dialogue

/-- The fields `sweep_account` gives a transaction; `sender` is the key of its account. -/
structure Transaction where
  ty : ℕ
  chainId : ℤ
  nonce : ℤ
  maxFeePerGas : ℤ
  maxPriorityFeePerGas : ℤ
  gasLimit : ℤ
  toAddr : String
  value : ℤ
  sender : ℤ
  deriving DecidableEq

/-- What comes from the test framework and from the formatting of numbers: the address of
a key, the hex of a signed transaction, hashes, the gas cap of a fork, and texts. -/
structure Eest where
  eoa : ℤ → Except PyError String
  signed : Transaction → Except PyError String
  keccak256 : List ℕ → String
  transactionGasLimitCap : String → Option ℤ
  ethText : ℤ → String
  str : Json → String

namespace Sweep

variable {σ : Type} (peer : Peer σ HostReply) (eest : Eest)

def gasTransfer : ℤ := 21000

def rpcCall (rpcUrl method : String) (params : List Json) : Command σ Json :=
  call peer (.post rpcUrl method params 30)

def getBalance (rpcUrl address : String) : Command σ ℤ := do
  let reply ← rpcCall peer rpcUrl "eth_getBalance" [.str address, .str "latest"]
  let result ← lift (reply.item "result")
  lift (hexInt result)

def nonce (rpcUrl address : String) : Command σ ℤ := do
  let reply ← rpcCall peer rpcUrl "eth_getTransactionCount" [.str address, .str "latest"]
  let result ← lift (reply.item "result")
  lift (hexInt result)

/-- Where a sweep goes and what it may cost. -/
structure Target where
  rpcUrl : String
  toAddr : String
  chainId : ℤ
  maxFeePerGas : ℤ := 5000000000
  maxPriorityFeePerGas : ℤ := 1000000000

/-- The gas reserve that stays in a swept account. -/
def Target.reserve (target : Target) : ℤ := gasTransfer * target.maxFeePerGas

def Target.transaction (target : Target) (privKey nonce value : ℤ) : Transaction where
  ty := 2
  chainId := target.chainId
  nonce := nonce
  maxFeePerGas := target.maxFeePerGas
  maxPriorityFeePerGas := target.maxPriorityFeePerGas
  gasLimit := gasTransfer
  toAddr := target.toAddr
  value := value
  sender := privKey

/-- `"0x" + tx.rlp().hex().removeprefix("0x")` -/
def rawHex (hex : String) : String := "0x" ++ Text.removePrefix hex "0x"

def sweepAccount (target : Target) (privKey : ℤ) (minSweepWei : ℤ := 0) :
    Command σ (Option (Json × ℤ)) := do
  let addr ← lift (eest.eoa privKey)
  let balance ← getBalance peer target.rpcUrl addr
  if balance ≤ target.reserve ∨ balance - target.reserve < minSweepWei then
    return none
  else
    let value := balance - target.reserve
    let nonce ← nonce peer target.rpcUrl addr
    let hex ← lift (eest.signed (target.transaction privKey nonce value))
    let resp ← rpcCall peer target.rpcUrl "eth_sendRawTransaction" [.str (rawHex hex)]
    let accepted ← lift (resp.has "result")
    if accepted then
      let result ← lift (resp.item "result")
      return some (result, value)
    else
      let error ← lift (resp.get "error")
      throw ⟨.runtimeError, "sweep of " ++ addr ++ " rejected: " ++ eest.str error⟩

structure RecoveredAccount where
  address : String
  sweptWei : ℤ
  txHash : Json

/-- The loop over `range(count)`, from index `i` on. -/
def sweepFrom (target : Target) (eoaStart : ℤ) :
    ℕ → ℕ → List RecoveredAccount → Command σ (List RecoveredAccount)
  | _, 0, recovered => pure recovered
  | i, n + 1, recovered => do
    let result ← sweepAccount peer eest target (eoaStart + i)
    match result with
    | some (txHash, swept) =>
      let address ← lift (eest.eoa (eoaStart + i))
      sweepFrom target eoaStart (i + 1) n (recovered ++ [⟨address, swept, txHash⟩])
    | none => sweepFrom target eoaStart (i + 1) n recovered

/-- `{r.tx_hash for r in recovered}`. Hashes are strings; other values are kept apart. -/
def pendingSet : List RecoveredAccount → Except PyError (List Json)
  | [] => .ok []
  | r :: rest =>
    if r.txHash.hashable then
      match pendingSet rest, r.txHash with
      | .ok hashes, .str h =>
        if hashes.any fun other => match other with | .str s => s == h | _ => false then .ok hashes
        else .ok (.str h :: hashes)
      | .ok hashes, other => .ok (other :: hashes)
      | .error e, _ => .error e
    else .error ⟨.typeError, "unhashable type"⟩

/-- The hashes of a pass that have no receipt yet. -/
def stillPending (rpcUrl : String) : List Json → Command σ (List Json)
  | [] => pure []
  | h :: hs => do
    let reply ← rpcCall peer rpcUrl "eth_getTransactionReceipt" [h]
    let receipt ← lift (reply.get "result")
    let rest ← stillPending rpcUrl hs
    return if receipt.isNull then h :: rest else rest

/-- `while pending and time.time() < deadline`, for at most `fuel` passes. -/
def waitLoop (rpcUrl : String) (deadline : ℚ) : ℕ → List Json → Command σ Unit
  | 0, _ => throw ⟨.unbounded, "the clock has not reached the deadline"⟩
  | fuel + 1, pending => do
    if pending.isEmpty then
      return ()
    else
      let now : ℚ ← call peer .time
      if now < deadline then
        let rest ← stillPending peer rpcUrl pending
        if rest.isEmpty then
          return ()
        else
          call peer (.sleep 4)
          waitLoop rpcUrl deadline fuel rest
      else
        return ()

def recoverFundedEoas (target : Target) (eoaStart : ℤ) (fuel : ℕ) (count : ℕ := 64)
    (wait : Bool := true) : Command σ (List RecoveredAccount) := do
  let recovered ← sweepFrom peer eest target eoaStart 0 count []
  if wait && !recovered.isEmpty then
    let now : ℚ ← call peer .time
    let pending ← lift (pendingSet recovered)
    waitLoop peer target.rpcUrl (now + 180) fuel pending
    return recovered
  else
    return recovered

end Sweep

end EestReplay
