import EestReplay.Library.Nesting
import EestReplay.Model.Batch

/-! # The replay of a fixture

`replay` of `runner.py` inside the context managers of `el.py` and `buildoor_client.py`. A
loop that polls a server runs at most `fuel` times. -/

namespace EestReplay

open Dialogue

variable {σ H A V : Type} (peer : Peer σ (RunReply (H := H) (A := A) (V := V)))

/-- `while time.time() < deadline`, with the text of the last exception. -/
def pollUntil (url : String) (body : Option Json) (deadline : ℚ) (message : String) :
    ℕ → String → Running σ H A V Unit
  | 0, _ => throw ⟨.unbounded, "the clock has not reached the deadline"⟩
  | fuel + 1, lastErr => do
    let now : ℚ ← call peer .time
    if now < deadline then
      let answer : Except PyError ℕ ← ask peer (.probe url body 1)
      match answer with
      | .ok status =>
        if status = 200 then return () else pollUntil url body deadline message fuel lastErr
      | .error exc =>
        if exc.isException then
          call peer (.sleep (1 / 4))
          pollUntil url body deadline message fuel exc.text
        else throw exc
    else throw ⟨.runtimeError, message ++ lastErr⟩

/-- `proc.kill()` -/
def kill (process : ℕ) : Running σ H A V Unit := call peer (.kill process)

/-- `proc.wait(timeout)`, and `proc.kill()` when the time is over. -/
def waitOrKill (process timeout : ℕ) : Running σ H A V Unit := do
  let waited : Except PyError Unit ← ask peer (.wait process timeout)
  match waited with
  | .ok _ => return ()
  | .error exc => if exc.kind = .timeoutExpired then kill peer process else throw exc

namespace El

def defaultImage : String := "ethpandaops/geth:bal-devnet-2"

/-- `ELHandles` -/
structure Handles where
  container : String
  rpcUrl : String
  authUrl : String
  jwtSecretPath : Path
  dataDir : Path

/-- `_wait_for_rpc` -/
def waitForRpc (rpcUrl : String) (fuel : ℕ) : Running σ H A V Unit := do
  let body : Json := .obj
    [("jsonrpc", .str "2.0"), ("id", .int 1), ("method", .str "eth_chainId"), ("params", .arr [])]
  let now : ℚ ← call peer .time
  pollUntil peer rpcUrl (some body) (now + 30)
    ("EL at " ++ rpcUrl ++ " did not become ready within 30.0s: ") fuel "None"

def initCmd (workDir : Path) : List String :=
  ["docker", "run", "--rm", "-v", workDir.str ++ ":/work", defaultImage, "init", "--datadir",
    "/work/datadir", "/work/genesis.json"]

def gethCmd (workDir : Path) (name : String) (rpcPort authPort : ℕ) : List String :=
  ["docker", "run", "--rm", "--name", name, "-p", toString rpcPort ++ ":8545", "-p",
    toString authPort ++ ":8551", "-v", workDir.str ++ ":/work", defaultImage, "--datadir",
    "/work/datadir", "--http", "--http.addr", "0.0.0.0", "--http.port", "8545", "--http.api",
    "eth,net,web3,debug,txpool,engine", "--http.vhosts", "*", "--authrpc.addr", "0.0.0.0",
    "--authrpc.port", "8551", "--authrpc.vhosts", "*", "--authrpc.jwtsecret", "/work/jwt.hex",
    "--nodiscover", "--syncmode", "full", "--maxpeers", "0", "--txpool.pricelimit", "1",
    "--miner.gasprice", "1", "--gpo.ignoreprice", "1", "--miner.extradata", "0x",
    "--datadir.minfreedisk", "0", "--rpc.allow-unprotected-txs"]

/-- What `geth` sets up before its `try`: the handles and the process. -/
def start (genesis : Json) (workDir : Path) : Running σ H A V (Handles × ℕ) := do
  call peer (.mkdir workDir)
  let jwtPath := workDir.child "jwt.hex"
  let dataDir := workDir.child "datadir"
  call peer (.writeJson (workDir.child "genesis.json") genesis)
  let secret : String ← call peer (.tokenHex 32)
  call peer (.writeText jwtPath secret)
  call peer (.chmod jwtPath 0o600)
  call peer (.mkdir dataDir)
  let rpcPort : ℕ ← call peer .freePort
  let authPort : ℕ ← call peer .freePort
  let suffix : String ← call peer (.tokenHex 4)
  let name := "eest-replay-" ++ suffix
  call peer (.run (initCmd workDir) true)
  let logPath := workDir.child "el.log"
  call peer (.openLog logPath)
  let process : ℕ ← call peer (.popen (gethCmd workDir name rpcPort authPort) logPath)
  return (⟨name, "http://127.0.0.1:" ++ toString rpcPort, "http://127.0.0.1:" ++ toString authPort,
    jwtPath, dataDir⟩, process)

/-- Its `finally` block. -/
def stop (name : String) (process : ℕ) : Running σ H A V Unit := do
  call peer (.run ["docker", "stop", name] false)
  waitOrKill peer process 10

/-- `with geth(genesis, work_dir) as handles` -/
def geth {α : Type} (genesis : Json) (workDir : Path) (fuel : ℕ)
    (body : Handles → Running σ H A V α) : Running σ H A V α := do
  let started ← start peer genesis workDir
  tryFinally
    (do
      waitForRpc peer started.1.rpcUrl fuel
      body started.1)
    (stop peer started.1.container started.2)

end El

namespace Buildoor

/-- `_wait_for_health` -/
def waitForHealth (baseUrl : String) (fuel : ℕ) : Running σ H A V Unit := do
  let now : ℚ ← call peer .time
  pollUntil peer (baseUrl ++ "/healthz") none (now + 15)
    ("buildoor simbuild at " ++ baseUrl ++ " not ready in 15.0s: ") fuel "None"

def simbuildCmd (binary : Path) (elEngineUrl : String) (jwtSecretPath : Path) (port : ℕ)
    (buildWaitMs : ℤ) : List String :=
  [binary.str, "simbuild", "--el-engine-api", elEngineUrl, "--el-jwt-secret", jwtSecretPath.str,
    "--listen-addr", ":" ++ toString port, "--simbuild-build-wait-ms", toString buildWaitMs,
    "--log-level", "info"]

/-- What `buildoor_simbuild` sets up before its `try`: the base URL and the process. -/
def start (binary : Path) (elEngineUrl : String) (jwtSecretPath workDir : Path)
    (buildWaitMs : ℤ) : Running σ H A V (String × ℕ) := do
  let port : ℕ ← call peer .freePort
  let logPath := workDir.child "buildoor.log"
  call peer (.openLog logPath)
  let process : ℕ ← call peer
    (.popen (simbuildCmd binary elEngineUrl jwtSecretPath port buildWaitMs) logPath)
  return ("http://127.0.0.1:" ++ toString port, process)

/-- Its `finally` block. -/
def stop (workDir : Path) (process : ℕ) : Running σ H A V Unit := do
  call peer (.terminate process)
  waitOrKill peer process 5
  call peer (.closeLog (workDir.child "buildoor.log"))

/-- `with buildoor_simbuild(...) as handles`, of which the base URL is used. -/
def simbuild {α : Type} (binary : Path) (elEngineUrl : String) (jwtSecretPath workDir : Path)
    (buildWaitMs : ℤ) (fuel : ℕ) (body : String → Running σ H A V α) : Running σ H A V α := do
  let started ← start peer binary elEngineUrl jwtSecretPath workDir buildWaitMs
  tryFinally
    (do
      waitForHealth peer started.1 fuel
      body started.1)
    (stop peer workDir started.2)

end Buildoor

namespace Runner

def getPayloadVersionByFork : List (String × ℕ) :=
  [("Paris", 1), ("Shanghai", 2), ("Cancun", 3), ("Prague", 4), ("Osaka", 5), ("Amsterdam", 6)]

/-- `_get_payload_version`. The default of `dict.get` is evaluated first. -/
def getPayloadVersion (fixture : BlockchainEngineFixture H A V) : Except PyError ℕ :=
  match fixture.payloads with
  | [] => .error ⟨.indexError, "list index out of range"⟩
  | first :: _ =>
    .ok ((getPayloadVersionByFork.lookup fixture.fork).getD first.newPayloadVersion)

variable [DecidableEq V] (eest : ExecutionTesting H A V) (hash : FixedBytes H)
  (addr : FixedBytes A) (printing : Printing)

/-- `_finish` -/
def finish (forkName : String) (startedAt : ℚ) (result : FixtureResult) :
    Running σ H A V FixtureResult := do
  let now : ℚ ← call peer .monotonic
  return { result with fork := some forkName, elapsedS := printing.round (now - startedAt) 3 }

/-- `_drive_chain` on the machine, and `_finish`. -/
def driveAndFinish (fixture : BlockchainEngineFixture H A V) (drive : Drive) (startedAt : ℚ) :
    Running σ H A V FixtureResult := do
  let result ← embed RunCall.drive
    (driveChain (peer.part RunCall.drive) eest hash addr drive fixture.toEngineFixture)
  finish peer printing fixture.fork startedAt result

/-- The `ExitStack`, with the builder on it or without. -/
def withBuilder {α : Type} (buildoorBinary : Option Path) (handles : El.Handles) (workDir : Path)
    (payloadBuildTime : ℚ) (fuel : ℕ) (body : Option String → Running σ H A V α) :
    Running σ H A V α :=
  match buildoorBinary with
  | none => body none
  | some binary =>
    Buildoor.simbuild peer binary handles.authUrl handles.jwtSecretPath workDir
      (printing.millis payloadBuildTime) fuel fun base => body (some base)

/-- `bytes.fromhex(handles.jwt_secret_path.read_text().strip())` -/
def readJwt (path : Path) : Running σ H A V (List ℕ) := do
  let text : String ← call peer (.readText path)
  lift (Text.fromHex (Text.stripWhite text))

def replay (fuel : ℕ) (fixture : BlockchainEngineFixture H A V) (testId : String) (workDir : Path)
    (payloadBuildTime : ℚ) (buildoorBinary : Option Path) : Running σ H A V FixtureResult := do
  let startedAt : ℚ ← call peer .monotonic
  let genesis := Chainspec.buildGenesis hash addr fixture
  let version ← lift (getPayloadVersion fixture)
  El.geth peer genesis workDir fuel fun handles => do
    let _ ← readJwt peer handles.jwtSecretPath
    withBuilder peer printing buildoorBinary handles workDir payloadBuildTime fuel fun base =>
      driveAndFinish peer eest hash addr printing fixture
        { testId := testId, getPayloadVersion := version, payloadBuildTime := payloadBuildTime,
          buildoorBaseUrl := base }
        startedAt

end Runner

namespace Batch

/-- `run`, with `replay` for each fixture. -/
def run [DecidableEq V] (eest : ExecutionTesting H A V) (hash : FixedBytes H) (addr : FixedBytes A)
    (printing : Printing) (fuel : ℕ) (validate : Validate H A V) (options : Options) :
    Running σ H A V RunEnd :=
  runCmd peer validate printing (Runner.replay peer eest hash addr printing fuel) options

end Batch

end EestReplay
