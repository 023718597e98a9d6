import EestReplay.Model.Export
import EestReplay.Model.Replay

/-! # Exporting a test's transactions

`export_transactions` of `export.py`: a throwaway geth, `execute` against it behind the
recording proxy, and the files of the export. -/

namespace EestReplay.Export

open Dialogue

/-- What an export asks: of the machine that runs its geth, and of the host. -/
inductive ExportCall where
  | machine (q : RunCall Unit Unit Unit)
  | host (q : HostCall)

def ExportCall.Value : ExportCall → Type
  | machine q => q.Value
  | host q => q.Value

abbrev ExportReply (q : ExportCall) : Type := Except PyError q.Value

abbrev ExportWorld (σ : Type) : Type := World σ ExportReply

abbrev Exporting (σ α : Type) : Type := Program σ ExportReply PyError α

/-- The machine under an export. -/
def machineOf {σ : Type} (peer : Peer σ ExportReply) :
    Peer σ (RunReply (H := Unit) (A := Unit) (V := Unit)) :=
  peer.part ExportCall.machine

/-- The host under an export. -/
def hostOf {σ : Type} (peer : Peer σ ExportReply) : Peer σ HostReply := peer.part ExportCall.host

def onMachine {σ α : Type} (x : Running σ Unit Unit Unit α) : Exporting σ α :=
  embed ExportCall.machine x

def onHost {σ α : Type} (x : Command σ α) : Exporting σ α := embed ExportCall.host x

def defaultSeedKey : String := "0x04b9f63ecf84210c5366c66d68fa1f5da1fa4f634fad6dfc86178e4d79ff9e59"

/-- `DEFAULT_EOA_START` -/
def defaultEoaStart : String :=
  toString (0x1100000000000000000000000000000000000000000000000000000000000001 : ℕ)

/-- The arguments of `export_transactions`. -/
structure ExportArgs where
  testSelector : String
  fork : String
  outputDir : Path
  specsDir : Path
  workDir : Path
  chainId : ℤ := 7928
  seedKey : String := defaultSeedKey
  seedAddr : Option String := none
  eoaStart : String := defaultEoaStart
  txWaitTimeout : ℤ := 60
  includeBenchmark : Bool := false
  gasBenchmarkValues : Option String := none
  transactionGasLimit : Option ℤ := none
  kFilter : Option String := none

structure ExportResult where
  testSelector : String
  fork : String
  chainId : ℤ
  txCount : ℕ
  csvPath : Path
  genesisPath : Path
  metaPath : Path
  executeOk : Bool
  error : Option String := none

/-! ## `execute` with an engine -/

/-- The options of an EL whose blocks `execute` drives itself. -/
def engineOption : Option (String × Path) → List String
  | some (engineUrl, jwtPath) =>
    ["--engine-endpoint", engineUrl, "--engine-jwt-secret-file", jwtPath.str]
  | none => []

/-- The command line of `execute remote`, with an engine or without. -/
def remoteCmd (engine : Option (String × Path)) (args : ExecuteArgs) : List String :=
  ["uv", "run", "execute", "remote", "--fork", args.fork, "--rpc-endpoint", args.rpcUrl,
    "--chain-id", toString args.chainId, "--rpc-seed-key", args.seedKey,
    "--eoa-start", args.eoaStart, "--tx-wait-timeout", toString args.txWaitTimeout,
    "-p", "no:randomly"] ++
  engineOption engine ++
  (if args.skipCleanup then ["--skip-cleanup"] else []) ++
  optionArg "--default-gas-price" (args.gasPrice.map toString) ++
  optionArg "--default-max-fee-per-gas" (args.maxFeePerGas.map toString) ++
  optionArg "--default-max-priority-fee-per-gas" (args.maxPriorityFeePerGas.map toString) ++
  (if args.includeBenchmark then ["--include-benchmark"] else []) ++
  optionArg "--gas-benchmark-values" (nonEmpty args.gasBenchmarkValues) ++
  optionArg "--transaction-gas-limit" (args.transactionGasLimit.map toString) ++
  optionArg "-k" (nonEmpty args.kFilter) ++
  [args.testSelector]

theorem remoteCmd_none (args : ExecuteArgs) : remoteCmd none args = executeCmd args := by
  simp [remoteCmd, executeCmd, engineOption]

section

variable {σ : Type} (peer : Peer σ HostReply) (eest : Eest)

/-- `_run_execute`, with an engine or without. -/
def runRemote (engine : Option (String × Path)) (args : ExecuteArgs) :
    Command σ (Bool × Option String) := do
  let timeout := args.txWaitTimeout + 600
  call peer (.popen (remoteCmd engine args) args.specsDir)
  let ended ← waitExecute peer timeout
  match ended with
  | none => return (false, some ("execute timed out after " ++ toString timeout ++ "s"))
  | some done =>
    if done.returncode ≠ 0 then
      return (false,
        some ("execute exited " ++ toString done.returncode ++ ":\n" ++ outputTail done))
    else return (true, none)

theorem runRemote_none (args : ExecuteArgs) : runRemote peer none args = runExecute peer args := by
  unfold runRemote
  rw [remoteCmd_none]
  rfl

/-- The arguments that the choice of the benchmark gas reads. -/
def ExportArgs.gasArgs (args : ExportArgs) : SubmitArgs where
  testSelector := args.testSelector
  fork := args.fork
  rpcUrl := ""
  chainId := args.chainId
  specsDir := args.specsDir
  seedKey := args.seedKey
  includeBenchmark := args.includeBenchmark
  gasBenchmarkValues := args.gasBenchmarkValues
  transactionGasLimit := args.transactionGasLimit

/-- The keyword arguments of `_run_execute` that `export_transactions` sets. -/
def exportExecuteArgs (args : ExportArgs) (rpcUrl : String) : ExecuteArgs where
  specsDir := args.specsDir
  testSelector := args.testSelector
  fork := args.fork
  chainId := args.chainId
  seedKey := args.seedKey
  eoaStart := args.eoaStart
  rpcUrl := rpcUrl
  txWaitTimeout := args.txWaitTimeout
  includeBenchmark := args.includeBenchmark
  gasBenchmarkValues := (resolveBenchmarkGas eest args.gasArgs).1
  transactionGasLimit := (resolveBenchmarkGas eest args.gasArgs).2
  kFilter := args.kFilter
  skipCleanup := true
  gasPrice := none
  maxFeePerGas := none
  maxPriorityFeePerGas := none

/-- What runs behind the proxy: `execute`, and the rows of what it submitted. -/
def captureRows (args : ExportArgs) (handles : El.Handles) :
    Command σ (Bool × Option String × List Row) :=
  withProxy peer handles.rpcUrl fun proxyUrl => do
    let (executeOk, err) ← runRemote peer (some (handles.authUrl, handles.jwtSecretPath))
      (exportExecuteArgs eest args proxyUrl)
    let rawTxs : List String ← call peer .snapshot
    let rows ← enrich peer eest handles.rpcUrl 0 rawTxs
    return (executeOk, err, rows)

end

/-! ## The export -/

/-- The verdict on a run of `execute`: one that captured nothing is no export. -/
def exportVerdict (executeOk : Bool) (err : Option String) (rows : List Row) :
    Bool × Option String :=
  if executeOk && rows.isEmpty then
    (false, some (err.getD ("execute exited 0 but captured 0 transactions " ++
      "(test skipped, filtered out, or selected nothing)")))
  else (executeOk, err)

/-- The JSON of `meta.json`. -/
def exportMeta (args : ExportArgs) (seedAddr : String) (txCount : ℕ) (executeOk : Bool)
    (error : Option String) : Json :=
  .obj
    [("test_selector", .str args.testSelector), ("fork", .str args.fork),
      ("chain_id", .int args.chainId), ("seed_address", .str seedAddr),
      ("eoa_start", .str args.eoaStart), ("tx_count", .int txCount), ("execute_ok", .bool executeOk),
      ("error", match error with | some err => .str err | none => .null),
      ("genesis", .str "genesis.json"), ("transactions", .str "transactions.csv"),
      ("note", .str ("Replay transactions.csv in `seq` order against an EL booted from " ++
        "genesis.json (same chain_id, seed prefunded). The first txs are setup (deterministic " ++
        "factory + funding + contract deploys); the rest are the test transactions."))]

variable {σ : Type} (peer : Peer σ ExportReply) (eest : Eest)

/-- `with geth(genesis, work_dir) as handles`, around a body that also asks the host. -/
def withGeth {α : Type} (genesis : Json) (workDir : Path) (fuel : ℕ)
    (body : El.Handles → Exporting σ α) : Exporting σ α := do
  let started ← onMachine (El.start (machineOf peer) genesis workDir)
  tryFinally
    (do
      onMachine (El.waitForRpc (machineOf peer) started.1.rpcUrl fuel)
      body started.1)
    (onMachine (El.stop (machineOf peer) started.1.container started.2))

def defaultPrefundWei : ℕ := 10 ^ 24

def exportTransactions (repr : String → String) (fuel : ℕ) (args : ExportArgs) :
    Exporting σ ExportResult := do
  call peer (.host (.mkdir args.outputDir))
  call peer (.host (.mkdir args.workDir))
  let seedAddr ← lift <|
    match args.seedAddr with
    | some seedAddr => .ok seedAddr
    | none => addressFromKey eest args.seedKey
  let genesis ← lift
    (DevnetGenesis.buildDevnetGenesis repr args.fork args.chainId [(seedAddr, defaultPrefundWei)])
  let genesisPath := args.outputDir.child "genesis.json"
  call peer (.host (.writeText genesisPath genesis))
  let csvPath := args.outputDir.child "transactions.csv"
  let metaPath := args.outputDir.child "meta.json"
  let (executeOk, err, rows) ← withGeth peer genesis args.workDir fuel fun handles =>
    onHost (captureRows (hostOf peer) eest args handles)
  let verdict := exportVerdict executeOk err rows
  call peer (.host (.writeCsv csvPath rows))
  call peer (.host (.writeText metaPath
    (exportMeta args seedAddr rows.length verdict.1 verdict.2)))
  return {
    testSelector := args.testSelector
    fork := args.fork
    chainId := args.chainId
    txCount := rows.length
    csvPath := csvPath
    genesisPath := genesisPath
    metaPath := metaPath
    executeOk := verdict.1
    error := verdict.2 }

end EestReplay.Export
