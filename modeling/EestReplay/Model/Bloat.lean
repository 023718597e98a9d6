import EestReplay.Model.Lower
import EestReplay.Model.Throwaway

/-! # Submitting to a bloated chain

`bloat_cmd` of `cli.py`, with `state_actor.py` and `geth_dev_datadir` of `el.py`: a datadir that
state-actor writes, a geth that mines on it, and a submission to that. -/

namespace EestReplay.Bloat

open Dialogue Export

/-- What the command asks beside what a geth and a submission do: where a path leads, and a
process that is waited for with its output. -/
inductive BloatCall where
  | machine (q : RunCall Unit Unit Unit)
  | host (q : HostCall)
  | resolve (path : Path)
  | runCaptured (cmd : List String) (timeout : ℕ)

def BloatCall.Value : BloatCall → Type
  | machine q => q.Value
  | host q => q.Value
  | resolve _ => Path
  | runCaptured _ _ => Completed

abbrev BloatReply (q : BloatCall) : Type := Except PyError q.Value

abbrev BloatWorld (σ : Type) : Type := World σ BloatReply

abbrev Bloating (σ α : Type) : Type := Program σ BloatReply PyError α

variable {σ : Type} (peer : Peer σ BloatReply)

/-- The machine under the command. -/
def machineOf : Peer σ (RunReply (H := Unit) (A := Unit) (V := Unit)) := peer.part BloatCall.machine

/-- The host under the command. -/
def hostOf : Peer σ HostReply := peer.part BloatCall.host

def onMachine {α : Type} (x : Running σ Unit Unit Unit α) : Bloating σ α := embed BloatCall.machine x

def onHost {α : Type} (x : Command σ α) : Bloating σ α := embed BloatCall.host x

/-! ## state-actor -/

/-- `DEFAULT_SEED_BALANCE_WEI` -/
def defaultSeedBalanceWei : ℕ := 10 ^ 24

/-- `addr if addr.startswith("0x") else f"0x{addr}"` -/
def specAddress (seedAddr : String) : String :=
  if Text.startsWith seedAddr "0x" then seedAddr else "0x" ++ seedAddr

def seedSpec (seedAddr : String) (balanceWei : ℕ) : String :=
  "# Auto-generated by eest-replay: prefund the EEST submit seed account\n" ++
  "# on the state-actor bloated chain.\n" ++
  "entities:\n" ++
  "  - kind: eoa\n" ++
  "    address: " ++ specAddress seedAddr ++ "\n" ++
  "    balance: \"" ++ toString balanceWei ++ "\"\n"

/-- `write_seed_spec` -/
def writeSeedSpec (seedAddr : String) (path : Path) (balanceWei : ℕ) : Bloating σ Path := do
  call peer (.machine (.writeText path (seedSpec seedAddr balanceWei)))
  return path

def stateActorCmd (binary chaindata specPath : Path) (chainId : ℤ) (fork : String)
    (targetSize : Option String) : List String :=
  [binary.str, "--client", "geth", "--db", chaindata.str, "--spec", specPath.str,
    "--chain-id", toString chainId, "--fork", String.ofList (Text.lower fork.toList)] ++
  optionArg "--target-size" (nonEmpty targetSize)

/-- The last fifteen lines of both outputs. -/
def stateActorTail (done : Completed) : String :=
  let lines := Text.splitLines (done.stdout ++ done.stderr)
  "\n".intercalate (lines.drop (lines.length - 15))

/-- `run_state_actor` -/
def runStateActor (binary dbDir : Path) (seedAddr : String) (chainId : ℤ) (fork : String)
    (targetSize : Option String) (seedBalanceWei : ℕ := defaultSeedBalanceWei) :
    Bloating σ Path := do
  let dbDir : Path ← call peer (.resolve dbDir)
  call peer (.machine (.mkdir dbDir))
  let specPath ← writeSeedSpec peer seedAddr (dbDir.child "seed-spec.yaml") seedBalanceWei
  let chaindata := (dbDir.child "geth").child "chaindata"
  let done : Completed ← call peer
    (.runCaptured (stateActorCmd binary chaindata specPath chainId fork targetSize) 3600)
  if done.returncode ≠ 0 then
    throw ⟨.runtimeError,
      "state-actor exited " ++ toString done.returncode ++ ":\n" ++ stateActorTail done⟩
  else return dbDir

/-! ## geth on a datadir -/

def gethDevCmd (datadir : Path) (name : String) (rpcPort : ℕ) (chainId : ℤ)
    (devPeriod devGaslimit : ℕ) : List String :=
  ["docker", "run", "--rm", "--name", name, "-p", toString rpcPort ++ ":8545",
    "-v", datadir.str ++ ":/data", El.defaultImage, "--datadir", "/data", "--db.engine", "pebble",
    "--networkid", toString chainId, "--dev", "--dev.period", toString devPeriod,
    "--dev.gaslimit", toString devGaslimit, "--http", "--http.addr", "0.0.0.0",
    "--http.port", "8545", "--http.api", "eth,net,web3,txpool,debug", "--http.vhosts", "*",
    "--rpc.allow-unprotected-txs", "--datadir.minfreedisk", "0"]

/-- A geth that was started on a datadir. -/
structure DevGeth where
  container : String
  rpcUrl : String
  process : ℕ

/-- What `geth_dev_datadir` sets up before its `try`. -/
def startDev (datadir : Path) (chainId : ℤ) (devPeriod : ℕ := 1) (devGaslimit : ℕ := 60000000) :
    Bloating σ DevGeth := do
  let datadir : Path ← call peer (.resolve datadir)
  let present : Bool ← call peer (.machine (.isDir ((datadir.child "geth").child "chaindata")))
  if !present then
    throw ⟨.osError, datadir.str ++ " does not contain geth/chaindata — point --datadir at " ++
      "the directory state-actor wrote (the parent of geth/chaindata)."⟩
  else
    let rpcPort : ℕ ← call peer (.machine .freePort)
    let suffix : String ← call peer (.machine (.tokenHex 4))
    let name := "eest-bloat-" ++ suffix
    let logPath := datadir.child "geth-dev.log"
    call peer (.machine (.openLog logPath))
    let process : ℕ ← call peer
      (.machine (.popen (gethDevCmd datadir name rpcPort chainId devPeriod devGaslimit) logPath))
    return ⟨name, "http://127.0.0.1:" ++ toString rpcPort, process⟩

/-- `with geth_dev_datadir(datadir, chain_id) as rpc_url` -/
def gethDevDatadir {α : Type} (datadir : Path) (chainId : ℤ) (fuel : ℕ)
    (body : String → Bloating σ α) : Bloating σ α := do
  let started ← startDev peer datadir chainId
  tryFinally
    (do
      onMachine (El.waitForRpc (machineOf peer) started.rpcUrl fuel)
      body started.rpcUrl)
    (onMachine (El.stop (machineOf peer) started.container started.process))

/-! ## The command -/

/-- The options of `bloat`. -/
structure Options where
  testSelector : String
  fork : String
  chainId : ℤ := 1337
  stateActorBin : Option Path := none
  targetSize : String := "200MB"
  datadir : Option Path := none
  workDir : Option Path := none
  seedKey : String := defaultSeedKey
  specsDir : Path
  kFilter : Option String := none
  csvPath : Option Path := none
  txWaitTimeout : ℤ := 120
  includeBenchmark : Bool := false
  gasBenchmarkValues : Option String := none
  transactionGasLimit : Option ℤ := none
  maxFeePerGas : Option ℤ := none
  maxPriorityFeePerGas : Option ℤ := none

/-- The arguments of `submit_transactions` that `bloat` sets. -/
def Options.submitArgs (options : Options) (rpcUrl : String) : SubmitArgs where
  testSelector := options.testSelector
  fork := options.fork
  rpcUrl := rpcUrl
  chainId := options.chainId
  specsDir := options.specsDir
  seedKey := options.seedKey
  kFilter := options.kFilter
  csvPath := options.csvPath
  txWaitTimeout := options.txWaitTimeout
  includeBenchmark := options.includeBenchmark
  gasBenchmarkValues := options.gasBenchmarkValues
  transactionGasLimit := options.transactionGasLimit
  maxFeePerGas := options.maxFeePerGas
  maxPriorityFeePerGas := options.maxPriorityFeePerGas
  cleanup := false

/-- `work_dir or Path(tempfile.mkdtemp(prefix="eest-bloat-"))` -/
def genDir (options : Options) : Bloating σ Path :=
  match options.workDir with
  | some workDir => return workDir
  | none => call peer (.machine (.mkdtemp "eest-bloat-"))

/-- The datadir that is given, or a new one where there is a state-actor. -/
def prepareDatadir (options : Options) (seedAddr : String) : Bloating σ Path :=
  match options.stateActorBin, options.datadir with
  | some binary, _ => do
    let dir ← genDir peer options
    runStateActor peer binary dir seedAddr options.chainId options.fork (some options.targetSize)
  | none, some datadir => return datadir
  | none, none => throw ⟨.other, "pass --state-actor <bin> to generate a datadir, " ++
      "or --datadir <existing> to reuse one."⟩

/-- `sys.exit(0 if result.execute_ok else 1)` -/
def exitCode (result : SubmitResult) : ℕ := if result.executeOk then 0 else 1

/-- The result of the submission, with the exit code of the command. -/
def bloatCmd (eest : Eest) (fuel : ℕ) (options : Options) : Bloating σ (SubmitResult × ℕ) := do
  let seedAddr ← lift (addressFromKey eest options.seedKey)
  let datadir ← prepareDatadir peer options seedAddr
  let result ← gethDevDatadir peer datadir options.chainId fuel fun rpcUrl =>
    onHost (submitTransactions (hostOf peer) eest (options.submitArgs rpcUrl))
  return (result, exitCode result)

end EestReplay.Bloat
