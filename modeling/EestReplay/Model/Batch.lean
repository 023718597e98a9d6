import EestReplay.Library.Nesting
import EestReplay.Model.Genesis
import EestReplay.Model.Report
import Mathlib.Data.String.Basic

/-! # The `run` command

`fixture.py` and `run_cmd` of `cli.py`: fixture files, the entries in them, and the batch
over both. -/

namespace EestReplay.Batch

open Dialogue

variable {σ H A V : Type} (peer : Peer σ (RunReply (H := H) (A := A) (V := V)))

/-! ## Fixture files -/

/-- `discover_fixture_files` -/
def discoverFixtureFiles (path : Path) : Running σ H A V (List Path) := do
  let isFile : Bool ← call peer (.isFile path)
  if isFile then
    return [path]
  else
    let isDir : Bool ← call peer (.isDir path)
    if !isDir then
      throw ⟨.osError, path.str⟩
    else
      let engineRoot := path.child "blockchain_tests_engine"
      let hasEngine : Bool ← call peer (.isDir engineRoot)
      let found : List Path ← call peer (.rglob (if hasEngine then engineRoot else path) "*.json")
      return (found.mergeSort fun a b => decide (a.tail ≤ b.tail)).filter (".meta" ∉ ·.tail)

/-- `raw.items()` -/
def items : Json → Except PyError (List (String × Json))
  | .obj fields => .ok fields
  | _ => .error ⟨.attributeError, "items"⟩

/-- `payload.get("_info", {}).get("fixture-format")` -/
def fixtureFormat : Json → Except PyError Json
  | .obj fields => Json.get "fixture-format" ((fields.lookup "_info").getD (.obj []))
  | _ => .error ⟨.attributeError, "get"⟩

/-- `fmt == "blockchain_test_engine"` -/
def isEngineFormat : Json → Bool
  | .str fmt => fmt == "blockchain_test_engine"
  | _ => false

/-- What comes from the fixture classes: the validation of an entry. -/
abbrev Validate (H A V : Type) : Type := Json → Except PyError (BlockchainEngineFixture H A V)

/-- The fixture of an entry, none when it has another format. -/
def entryFixture (validate : Validate H A V) (payload : Json) :
    Except PyError (Option (BlockchainEngineFixture H A V)) := do
  let fmt ← fixtureFormat payload
  if isEngineFormat fmt then
    let fixture ← validate payload
    return some fixture
  else
    return none

/-! ## The batch -/

/-- A number, padded with zeros. -/
def padded (width n : ℕ) : String :=
  let digits := toString n
  String.ofList (List.replicate (width - digits.length) '0') ++ digits

/-- The name of the directory of a fixture. -/
def slug (fileIdx fixtureIdx : ℕ) (fixturePath : Path) : String :=
  padded 4 fileIdx ++ "-" ++ padded 2 fixtureIdx ++ "-" ++ fixturePath.stem

/-- The report of a batch so far, with the exception that ended it, if one did. -/
structure Progress where
  report : BatchReport
  raised : Option PyError

/-- The report at the end of a run, with its exit code or the exception that ended it. -/
structure RunEnd where
  report : BatchReport
  exit : Except PyError ℕ

/-- The result of a fixture: what its replay returns, or what the handler makes of an
exception. -/
def resultOf (reprExc : PyError → String) (testId : String) :
    Except PyError FixtureResult → Except PyError FixtureResult
  | .ok result => .ok result
  | .error exc =>
    if exc.isException then
      .ok { testId := testId, blocks := [], error := some ("runner crashed: " ++ reprExc exc) }
    else .error exc

/-- What a batch is run with: a replay by fixture, test id and directory, and its options. -/
structure Job (σ H A V : Type) where
  validate : Validate H A V
  printing : Printing
  replay : BlockchainEngineFixture H A V → String → Path → Running σ H A V FixtureResult
  baseWorkDir : Path
  stopOnFirstFailure : Bool := false
  reportJson : Option Path := none
  reportMd : Option Path := none

variable (job : Job σ H A V)

/-- The lines of `_print_result`. -/
def resultLines (printing : Printing) (result : FixtureResult) : List String :=
  match BatchReport.nonEmpty result.error with
  | some error => ["  ERROR (" ++ printing.fixed 1 result.elapsedS ++ "s): " ++ error]
  | none =>
    if result.blocks.isEmpty then ["  (no blocks)"]
    else result.blocks.flatMap fun block =>
      ("  block " ++ toString block.blockNumber ++ ": " ++ if block.matched then "OK" else "MISMATCH") ::
        block.mismatches.map ("    - " ++ ·)

def echoLines : List String → Running σ H A V Unit
  | [] => return ()
  | line :: lines => do
    call peer (.echo line false)
    echoLines lines

/-- `_print_result` -/
def printResult (printing : Printing) (result : FixtureResult) : Running σ H A V Unit :=
  echoLines peer (resultLines printing result)

/-- What is done for an entry up to its result. -/
def replayEntry (fixture : BlockchainEngineFixture H A V) (testId : String) (perDir : Path) :
    Running σ H A V FixtureResult := do
  call peer (.echo ("=== " ++ testId) false)
  let replayed ← capture (job.replay fixture testId perDir)
  lift (resultOf job.printing.reprExc testId replayed)

/-- The entries of a file that its loader still has to yield. -/
def runEntries (fileIdx : ℕ) (fixturePath : Path) :
    ℕ → List (String × Json) → BatchReport → Running σ H A V Progress
  | _, [], report => return ⟨report, none⟩
  | fixtureIdx, (testId, payload) :: entries, report =>
    match entryFixture job.validate payload with
    | .error exc => return ⟨report, some exc⟩
    | .ok none => runEntries fileIdx fixturePath fixtureIdx entries report
    | .ok (some fixture) => do
      let perDir := job.baseWorkDir.child (slug fileIdx fixtureIdx fixturePath)
      let replayed ← capture (replayEntry peer job fixture testId perDir)
      match replayed with
      | .error exc => return ⟨report, some exc⟩
      | .ok result => do
        let printed ← capture (printResult peer job.printing result)
        match printed with
        | .error exc => return ⟨report.add result, some exc⟩
        | .ok _ =>
          if job.stopOnFirstFailure && !result.passed then return ⟨report.add result, none⟩
          else runEntries fileIdx fixturePath (fixtureIdx + 1) entries (report.add result)

/-- The entries of a file, once it is read. -/
def runFile (fileIdx : ℕ) (fixturePath : Path) (report : BatchReport) (raw : Except PyError Json) :
    Running σ H A V Progress :=
  match raw.bind items with
  | .error exc => return ⟨report, some exc⟩
  | .ok entries => runEntries peer job fileIdx fixturePath 0 entries report

/-- The loop over the files, from an index on. -/
def runFiles : ℕ → List Path → BatchReport → Running σ H A V Progress
  | _, [], report => return ⟨report, none⟩
  | fileIdx, fixturePath :: fixturePaths, report => do
    let raw : Except PyError Json ← ask peer (.readJson fixturePath)
    let progress ← runFile peer job fileIdx fixturePath report raw
    if progress.raised.isSome then
      return progress
    else if job.stopOnFirstFailure && progress.report.failed + progress.report.errored != 0 then
      return progress
    else runFiles (fileIdx + 1) fixturePaths progress.report

/-- `if path is not None: write(path)` -/
def writeOptional (write : Path → Running σ H A V Unit) : Option Path → Running σ H A V Unit
  | some path => write path
  | none => return ()

def summaryLine (printing : Printing) (report : BatchReport) (wall : ℚ) : String :=
  "\n" ++ toString report.passed ++ "/" ++ toString report.total ++ " passed in " ++
    printing.fixed 1 wall ++ "s (" ++ toString report.failed ++ " failed, " ++
    toString report.errored ++ " errored)"

/-- The `finally` block. -/
def writeReports (t0 : ℚ) (report : BatchReport) : Running σ H A V Unit := do
  let now : ℚ ← call peer .monotonic
  call peer (.echo (summaryLine job.printing report (now - t0)) false)
  writeOptional (fun path => do
    report.writeJson peer job.printing path
    call peer (.echo ("json report: " ++ path.str) false)) job.reportJson
  writeOptional (fun path => do
    report.writeMarkdown peer job.printing path
    call peer (.echo ("markdown report: " ++ path.str) false)) job.reportMd

/-- `sys.exit(0 if report.failed + report.errored == 0 else 1)` -/
def exitCode (report : BatchReport) : ℕ := if report.failed + report.errored = 0 then 0 else 1

/-- The exit of a batch: an exception of its `finally` block, or else its own, or the code. -/
def exitOf (written : Except PyError Unit) (progress : Progress) : Except PyError ℕ :=
  match written, progress.raised with
  | .error exc, _ => .error exc
  | .ok _, some exc => .error exc
  | .ok _, none => .ok (exitCode progress.report)

/-- What `run` does with the files it has discovered. -/
def runBatch (path : Path) (fixtureFiles : List Path) : Running σ H A V RunEnd :=
  if fixtureFiles.isEmpty then do
    let echoed ← capture (call peer (.echo ("no fixture JSON files under " ++ path.str) true))
    return ⟨{}, echoed.map fun _ => 1⟩
  else do
    let t0 : ℚ ← call peer .monotonic
    let progress ← runFiles peer job 0 fixtureFiles {}
    let written ← capture (writeReports peer job t0 progress.report)
    return ⟨progress.report, exitOf written progress⟩

/-- The options of `run`. -/
structure Options where
  path : Path
  workDir : Option Path := none
  payloadBuildTime : ℚ := 1
  buildoorBinary : Option Path := none
  reportJson : Option Path := none
  reportMd : Option Path := none
  stopOnFirstFailure : Bool := false

/-- `work_dir or Path(tempfile.mkdtemp(prefix="eest-replay-"))` -/
def baseWorkDir (options : Options) : Running σ H A V Path :=
  match options.workDir with
  | some workDir => return workDir
  | none => call peer (.mkdtemp "eest-replay-")

/-- The batch of a run in its base directory. -/
def Options.batchJob (options : Options) (validate : Validate H A V) (printing : Printing)
    (replay : BlockchainEngineFixture H A V → String → Path → ℚ → Option Path →
      Running σ H A V FixtureResult) (baseWorkDir : Path) : Job σ H A V where
  validate := validate
  printing := printing
  replay fixture testId workDir :=
    replay fixture testId workDir options.payloadBuildTime options.buildoorBinary
  baseWorkDir := baseWorkDir
  stopOnFirstFailure := options.stopOnFirstFailure
  reportJson := options.reportJson
  reportMd := options.reportMd

def runCmd (validate : Validate H A V) (printing : Printing)
    (replay : BlockchainEngineFixture H A V → String → Path → ℚ → Option Path →
      Running σ H A V FixtureResult) (options : Options) : Running σ H A V RunEnd := do
  let baseWorkDir ← baseWorkDir peer options
  call peer (.mkdir baseWorkDir)
  let fixtureFiles ← discoverFixtureFiles peer options.path
  runBatch peer (options.batchJob validate printing replay baseWorkDir) options.path fixtureFiles

end EestReplay.Batch
