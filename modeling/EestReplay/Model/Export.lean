import EestReplay.Model.Sweep

/-! # Submitting a test's transactions

`export.py`: `submit_transactions` with its recovery sidecar, the `execute` subprocess and
the capture that it writes to a CSV. -/

namespace EestReplay.Export

open Dialogue

/-- The arguments of `submit_transactions`. -/
structure SubmitArgs where
  testSelector : String
  fork : String
  rpcUrl : String
  chainId : ℤ
  specsDir : Path
  seedKey : String
  eoaStart : Option String := none
  kFilter : Option String := none
  csvPath : Option Path := none
  txWaitTimeout : ℤ := 120
  includeBenchmark : Bool := false
  gasBenchmarkValues : Option String := none
  transactionGasLimit : Option ℤ := none
  gasPrice : Option ℤ := none
  maxFeePerGas : Option ℤ := none
  maxPriorityFeePerGas : Option ℤ := none
  cleanup : Bool := true
  minSeedBalanceWei : Option ℤ := none
  metaPath : Option Path := none

structure SubmitResult where
  testSelector : String
  fork : String
  chainId : ℤ
  rpcUrl : String
  executeOk : Bool
  submittedCount : Option ℕ
  csvPath : Option Path := none
  error : Option String := none
  spentWei : Option ℤ := none
  metaPath : Option Path := none

/-- The keyword arguments of `_run_execute` that `submit_transactions` sets. -/
structure ExecuteArgs where
  specsDir : Path
  testSelector : String
  fork : String
  chainId : ℤ
  seedKey : String
  eoaStart : String
  rpcUrl : String
  txWaitTimeout : ℤ
  includeBenchmark : Bool
  gasBenchmarkValues : Option String
  transactionGasLimit : Option ℤ
  kFilter : Option String
  skipCleanup : Bool
  gasPrice : Option ℤ
  maxFeePerGas : Option ℤ
  maxPriorityFeePerGas : Option ℤ

/-! ## Pure parts -/

/-- `address_from_key` -/
def addressFromKey (eest : Eest) (privHex : String) : Except PyError String :=
  match Text.int 16 privHex with
  | .ok key => eest.eoa key
  | .error e => .error e

def fallbackBenchmarkGasMillions : ℤ := 16

/-- `default_gas_benchmark_values` -/
def defaultGasBenchmarkValues (eest : Eest) (fork : String) : String :=
  match eest.transactionGasLimitCap fork with
  | some cap => toString (if cap = 0 then fallbackBenchmarkGasMillions else cap.fdiv 1000000)
  | none => toString fallbackBenchmarkGasMillions

def isBenchmarkRun (testSelector : String) (includeBenchmark : Bool) : Bool :=
  includeBenchmark || Text.contains testSelector "tests/benchmark"

/-- `_resolve_benchmark_gas` -/
def resolveBenchmarkGas (eest : Eest) (args : SubmitArgs) : Option String × Option ℤ :=
  if args.gasBenchmarkValues.isNone && args.transactionGasLimit.isNone &&
      isBenchmarkRun args.testSelector args.includeBenchmark then
    match eest.transactionGasLimitCap args.fork with
    | some cap => (args.gasBenchmarkValues, some cap)
    | none => (some (defaultGasBenchmarkValues eest args.fork), args.transactionGasLimit)
  else (args.gasBenchmarkValues, args.transactionGasLimit)

/-- An option of the command line with its value, if there is one. -/
def optionArg (name : String) : Option String → List String
  | some value => [name, value]
  | none => []

/-- `if value:` for an optional string. -/
def nonEmpty (value : Option String) : Option String := value.filter (· ≠ "")

/-- The command line of `execute remote`. -/
def executeCmd (args : ExecuteArgs) : List String :=
  ["uv", "run", "execute", "remote", "--fork", args.fork, "--rpc-endpoint", args.rpcUrl,
    "--chain-id", toString args.chainId, "--rpc-seed-key", args.seedKey,
    "--eoa-start", args.eoaStart, "--tx-wait-timeout", toString args.txWaitTimeout,
    "-p", "no:randomly"] ++
  (if args.skipCleanup then ["--skip-cleanup"] else []) ++
  optionArg "--default-gas-price" (args.gasPrice.map toString) ++
  optionArg "--default-max-fee-per-gas" (args.maxFeePerGas.map toString) ++
  optionArg "--default-max-priority-fee-per-gas" (args.maxPriorityFeePerGas.map toString) ++
  (if args.includeBenchmark then ["--include-benchmark"] else []) ++
  optionArg "--gas-benchmark-values" (nonEmpty args.gasBenchmarkValues) ++
  optionArg "--transaction-gas-limit" (args.transactionGasLimit.map toString) ++
  optionArg "-k" (nonEmpty args.kFilter) ++
  [args.testSelector]

/-- The value that a command line gives an option of its leading name and value pairs. -/
def optionValue (name : String) : List String → Option String
  | option :: value :: rest => if option = name then some value else optionValue name rest
  | _ => none

/-- The `--eoa-start` of an `execute remote` command line. -/
def eoaStartOf (cmd : List String) : Option String := optionValue "--eoa-start" (cmd.drop 4)

/-- The JSON of the recovery sidecar. -/
def recoveryMeta (seedAddr eoaStart : String) (chainId : ℤ) (fork rpcUrl : String) : Json :=
  .obj
    [("seed_address", .str seedAddr), ("eoa_start", .str eoaStart), ("chain_id", .int chainId),
      ("fork", .str fork), ("rpc_url", .str rpcUrl),
      ("note", .str ("EEST funded per-test EOAs with key = int(eoa_start) + i. To reclaim " ++
        "their balances: eest-replay recover --meta this-file --to <addr>."))]

/-- `_to_int` -/
def toIntOrNull : Json → Json
  | .int n => .int n
  | .bool b => .bool b
  | .str s =>
    match Text.int 16 s with
    | .ok n => .int n
    | .error _ => .null
  | _ => .null

/-- `info = info or {}` -/
def infoFields (info : Json) : Except PyError (List (String × Json)) :=
  if info.truthy then
    match info with
    | .obj fields => .ok fields
    | _ => .error ⟨.attributeError, "get"⟩
  else .ok []

/-- `info.get(key, default)` -/
def field (fields : List (String × Json)) (key : String) (default : Json) : Json :=
  (fields.lookup key).getD default

/-- `(len(data) - 2) // 2 if isinstance(data, str) else 0` -/
def inputLen : Json → ℤ
  | .str data => ((data.length : ℤ) - 2).fdiv 2
  | _ => 0

/-- `_row` -/
def row (seq : ℕ) (raw txHash : String) (info : Json) : Except PyError Row := do
  let fields ← infoFields info
  let number (key : String) : Json := toIntOrNull (field fields key .null)
  let recipient := field fields "to" .null
  return [("seq", .int seq), ("block_number", number "blockNumber"),
    ("tx_index", number "transactionIndex"), ("tx_hash", .str txHash), ("type", number "type"),
    ("from", field fields "from" (.str "")), ("to", if recipient.truthy then recipient else .str ""),
    ("nonce", number "nonce"), ("value", number "value"), ("gas", number "gas"),
    ("gas_price", number "gasPrice"), ("max_fee_per_gas", number "maxFeePerGas"),
    ("input_len", .int (inputLen (field fields "input" (.str "0x")))),
    ("raw", .str (if Text.startsWith raw "0x" then raw else "0x" ++ raw))]

/-! ## The run -/

variable {σ : Type} (peer : Peer σ HostReply) (eest : Eest)

/-- `random_eoa_start` -/
def randomEoaStart : Command σ String := do
  let bits : Fin (2 ^ 240) ← call peer (.randbits 240)
  return toString (bits.val + 2 ^ 16)

/-- `try: x except Exception: None` -/
def attempt {α : Type} (x : Command σ α) : Command σ (Option α) :=
  tryCatch (do let a ← x; return some a) fun e => if e.isException then return none else throw e

/-- `_get_tx`. The recording proxy has parsed the same URL before. -/
def getTx (rpcUrl txHash : String) : Command σ Json := do
  let result ← attempt (do
    let reply ← call peer (.post rpcUrl "eth_getTransactionByHash" [.str txHash] 10)
    lift (Json.get "result" reply))
  return result.getD .null

/-- `_enrich`, from the row number `seq` on. -/
def enrich (rpcUrl : String) : ℕ → List String → Command σ (List Row)
  | _, [] => pure []
  | seq, raw :: rawTxs => do
    let bytes ← lift (Text.fromHex (Text.removePrefix raw "0x"))
    let digest := eest.keccak256 bytes
    let txHash := if Text.startsWith digest "0x" then digest else "0x" ++ digest
    let info ← getTx peer rpcUrl txHash
    let first ← lift (row seq raw txHash info)
    let rest ← enrich rpcUrl (seq + 1) rawTxs
    return first :: rest

/-- `with contextlib.suppress(ProcessLookupError): os.killpg(...)` -/
def killGroup : Command σ Unit :=
  tryCatch (call peer .killpg) fun e =>
    if e.kind = .processLookupError then return () else throw e

/-- The last twelve lines of both outputs. -/
def outputTail (done : Completed) : String :=
  let lines := Text.splitLines (done.stdout ++ "\n" ++ done.stderr)
  "\n".intercalate (lines.drop (lines.length - 12))

/-- Wait for the process: its end, or `none` once it was killed on timeout. -/
def waitExecute (timeout : ℤ) : Command σ (Option Completed) :=
  tryCatch
    (do
      let done : Completed ← call peer (.communicate (some timeout))
      return some done)
    fun e =>
      if e.kind = .timeoutExpired then do
        killGroup peer
        let _ ← call peer (.communicate none)
        return none
      else throw e

/-- `_run_execute` -/
def runExecute (args : ExecuteArgs) : Command σ (Bool × Option String) := do
  let timeout := args.txWaitTimeout + 600
  call peer (.popen (executeCmd args) args.specsDir)
  let ended ← waitExecute peer timeout
  match ended with
  | none => return (false, some ("execute timed out after " ++ toString timeout ++ "s"))
  | some done =>
    if done.returncode ≠ 0 then
      return (false,
        some ("execute exited " ++ toString done.returncode ++ ":\n" ++ outputTail done))
    else return (true, none)

/-- `with recording_proxy(rpc_url) as (proxy_url, recorder): body` -/
def withProxy {α : Type} (rpcUrl : String) (body : String → Command σ α) : Command σ α := do
  let proxyUrl : String ← call peer (.startProxy rpcUrl)
  let result ← tryCatch (body proxyUrl) fun e => do
    call peer .stopProxy
    throw e
  call peer .stopProxy
  return result

/-- `_write_recovery_meta` -/
def writeRecoveryMeta (metaPath csvPath : Option Path) (text : Json) :
    Command σ (Option Path) := do
  let target ← lift <|
    match metaPath, csvPath with
    | some path, _ => .ok (some path)
    | none, some csv => (csv.withSuffix ".recovery.json").map some
    | none, none => .ok none
  match target with
  | none => return none
  | some path =>
    call peer (.mkdir path.parent)
    call peer (.writeText path text)
    return some path

/-- Whether the pre-flight aborts the run. -/
def belowFloor (args : SubmitArgs) (balance : Option ℤ) : Bool :=
  match args.minSeedBalanceWei, balance with
  | some floor, some wei => wei < floor
  | _, _ => false

/-- The result of an aborted run. -/
def abortedResult (args : SubmitArgs) (seedAddr : String) (balance floor : ℤ) : SubmitResult where
  testSelector := args.testSelector
  fork := args.fork
  chainId := args.chainId
  rpcUrl := args.rpcUrl
  executeOk := false
  submittedCount := none
  csvPath := args.csvPath
  error := some ("aborted: seed " ++ seedAddr ++ " balance " ++ eest.ethText balance ++
    " ETH is below the --min-seed-balance floor of " ++ eest.ethText floor ++ " ETH")

def executeArgs (args : SubmitArgs) (eoaStart rpcUrl : String) : ExecuteArgs where
  specsDir := args.specsDir
  testSelector := args.testSelector
  fork := args.fork
  chainId := args.chainId
  seedKey := args.seedKey
  eoaStart := eoaStart
  rpcUrl := rpcUrl
  txWaitTimeout := args.txWaitTimeout
  includeBenchmark := args.includeBenchmark
  gasBenchmarkValues := (resolveBenchmarkGas eest args).1
  transactionGasLimit := (resolveBenchmarkGas eest args).2
  kFilter := args.kFilter
  skipCleanup := !args.cleanup
  gasPrice := args.gasPrice
  maxFeePerGas := args.maxFeePerGas
  maxPriorityFeePerGas := args.maxPriorityFeePerGas

/-- Run `execute`, with the capture and its CSV when there is a path for it. -/
def broadcast (args : SubmitArgs) (eoaStart : String) :
    Command σ (Bool × Option String × Option ℕ) :=
  match args.csvPath with
  | some csvPath => do
    let (executeOk, err, rawTxs) ← withProxy peer args.rpcUrl fun proxyUrl => do
      let (executeOk, err) ← runExecute peer (executeArgs eest args eoaStart proxyUrl)
      let rawTxs : List String ← call peer .snapshot
      return (executeOk, err, rawTxs)
    let rows ← enrich peer eest args.rpcUrl 0 rawTxs
    call peer (.mkdir csvPath.parent)
    call peer (.writeCsv csvPath rows)
    return (executeOk, err, some rows.length)
  | none => do
    let (executeOk, err) ← runExecute peer (executeArgs eest args eoaStart args.rpcUrl)
    return (executeOk, err, none)

/-- The seed's balance delta, when both balances are known. -/
def spent (args : SubmitArgs) (seedAddr : String) (before : Option ℤ) :
    Command σ (Option ℤ) :=
  match before with
  | some wei => attempt (do
      let after ← Sweep.getBalance peer args.rpcUrl seedAddr
      return wei - after)
  | none => return none

/-- The part of a run behind its pre-flight. -/
def launch (args : SubmitArgs) (seedAddr eoaStart : String) (before : Option ℤ) :
    Command σ SubmitResult := do
  let written ← writeRecoveryMeta peer args.metaPath args.csvPath
    (recoveryMeta seedAddr eoaStart args.chainId args.fork args.rpcUrl)
  let (executeOk, err, count) ← broadcast peer eest args eoaStart
  let spentWei ← spent peer args seedAddr before
  return {
    testSelector := args.testSelector
    fork := args.fork
    chainId := args.chainId
    rpcUrl := args.rpcUrl
    executeOk := executeOk
    submittedCount := count
    csvPath := args.csvPath
    error := err
    spentWei := spentWei
    metaPath := written }

/-- The given start, or a random one. -/
def chooseEoaStart (args : SubmitArgs) : Command σ String :=
  match args.eoaStart with
  | some eoaStart => pure eoaStart
  | none => randomEoaStart peer

def submitTransactions (args : SubmitArgs) : Command σ SubmitResult := do
  let eoaStart ← chooseEoaStart peer args
  let seedAddr ← lift (addressFromKey eest args.seedKey)
  let before ← attempt (Sweep.getBalance peer args.rpcUrl seedAddr)
  if belowFloor args before then
    return abortedResult eest args seedAddr (before.getD 0) (args.minSeedBalanceWei.getD 0)
  else launch peer eest args seedAddr eoaStart before

end EestReplay.Export
