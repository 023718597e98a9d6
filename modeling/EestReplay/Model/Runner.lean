import EestReplay.Library.Dialogue
import EestReplay.Model.Buildoor

/-! # The replay of a chain

`_drive_chain` of `runner.py`, with its comparison and its result. Its calls go to the
Engine API of the EL, to the mempool and to the builder's endpoint. -/

namespace EestReplay

/-- `PayloadStatusEnum` -/
inductive PayloadStatus where
  | valid
  | invalid
  | syncing
  | accepted
  | invalidBlockHash
  deriving DecidableEq, Repr

/-- The reply to a `forkchoiceUpdated`. -/
structure ForkchoiceReply where
  status : PayloadStatus
  payloadId : Option String := none
  deriving DecidableEq, Repr

/-- The answer of the builder's endpoint: the decoded JSON of a success, or a status. -/
inductive BuildReply where
  | ok (parsed : Json)
  | httpError (code : ℕ) (detail : String)

/-- Everything that the driver asks. Of a fork choice it sets the head only. -/
inductive ChainCall (H A V : Type) where
  | sendRawTransaction (raw : String)
  | forkchoiceUpdated (head : H) (attrs : Option (PayloadAttributes H A)) (version : ℕ)
  | getPayload (payloadId : String) (version : ℕ)
  | newPayload (params : NewPayloadParams H A V) (version : ℕ)
  | build (baseUrl : String) (body : Json)
  | sleep (seconds : ℚ)

/-- What a call returns when it raises no exception. -/
def ChainCall.Value {H A V : Type} : ChainCall H A V → Type
  | sendRawTransaction _ => String
  | forkchoiceUpdated _ _ _ => ForkchoiceReply
  | getPayload _ _ => ExecutionPayload H A V
  | newPayload _ _ => PayloadStatus
  | build _ _ => BuildReply
  | sleep _ => Unit

abbrev ChainReply {H A V : Type} (q : ChainCall H A V) : Type := Except PyError q.Value

/-- What comes from `execution_testing`: the fields of its payload class, the validation of
one, and how its values print. -/
structure ExecutionTesting (H A V : Type) where
  modelFields : List String
  modelValidate : Json → Except PyError (ExecutionPayload H A V)
  repr : V → String
  str : PayloadStatus → String

/-- Outcome of one fixture block. -/
structure BlockResult where
  blockNumber : ℕ
  matched : Bool
  mismatches : List String
  deriving DecidableEq, Repr

/-- Outcome of running a fixture. -/
structure FixtureResult where
  testId : String
  blocks : List BlockResult
  error : Option String := none
  fork : Option String := none
  elapsedS : ℚ := 0
  deriving DecidableEq, Repr

def FixtureResult.passed (r : FixtureResult) : Bool :=
  r.error.isNone && r.blocks.all BlockResult.matched

namespace Runner

open Dialogue

variable {H A V : Type}

def builderPickedFields : List String := ["gas_limit", "extra_data", "block_hash"]

/-- `_diff_payload`, over the fields from some point on. -/
def diffFields [DecidableEq V] (eest : ExecutionTesting H A V)
    (built expected : ExecutionPayload H A V) : List String → List String
  | [] => []
  | field :: fields =>
    if field ∈ builderPickedFields then diffFields eest built expected fields
    else
      let bv := built.getattr field
      let ev := expected.getattr field
      if bv ≠ ev then
        (field ++ ": expected " ++ eest.repr ev ++ ", got " ++ eest.repr bv) ::
          diffFields eest built expected fields
      else diffFields eest built expected fields

def diffPayload [DecidableEq V] (eest : ExecutionTesting H A V)
    (built expected : ExecutionPayload H A V) : List String :=
  diffFields eest built expected eest.modelFields

/-- The parameters of `_drive_chain` beside its fixture. -/
structure Drive where
  testId : String
  getPayloadVersion : ℕ
  payloadBuildTime : ℚ := 1
  buildoorBaseUrl : Option String := none

variable {σ : Type} [DecidableEq V] (peer : Peer σ (ChainReply (H := H) (A := A) (V := V)))
  (eest : ExecutionTesting H A V) (hash : FixedBytes H) (addr : FixedBytes A)

abbrev Chain (σ H A V α : Type) : Type :=
  Program σ (ChainReply (H := H) (A := A) (V := V)) PyError α

/-- `_submit_mempool` -/
def submitMempool : List String → Chain σ H A V Unit
  | [] => return ()
  | raw :: raws => do
    let _ : String ← call peer (.sendRawTransaction raw)
    submitMempool raws

/-- `request_build` -/
def requestBuild (baseUrl : String) (parentHash : String) (payload : EngineNewPayload H A V) :
    Chain σ H A V (ExecutionPayload H A V) := do
  let reply : BuildReply ← call peer (.build baseUrl (Buildoor.requestBody hash addr parentHash payload))
  match reply with
  | .httpError code detail =>
    throw ⟨.runtimeError, "buildoor /build returned " ++ toString code ++ ": " ++ detail⟩
  | .ok parsed =>
    let executionPayload ← lift (parsed.item "execution_payload")
    lift (eest.modelValidate executionPayload)

/-- The build of a block: the payload that was built, or the error that ends the run. -/
def buildBlock (drive : Drive) (idx : ℕ) (payload : EngineNewPayload H A V) :
    Chain σ H A V (Except String (ExecutionPayload H A V)) :=
  match drive.buildoorBaseUrl with
  | some baseUrl => do
    let built ← requestBuild peer eest hash addr baseUrl (hash.str payload.expected.parentHash) payload
    return .ok built
  | none => do
    let fcu : ForkchoiceReply ← call peer (.forkchoiceUpdated payload.expected.parentHash
      (some (payloadAttributes payload)) payload.forkchoiceUpdatedVersion)
    if fcu.status ≠ .valid then
      return .error ("fcu (block " ++ toString idx ++ ") not VALID: " ++ eest.str fcu.status)
    else
      match fcu.payloadId with
      | none => return .error ("fcu (block " ++ toString idx ++ ") returned no payloadId")
      | some payloadId =>
        call peer (.sleep drive.payloadBuildTime)
        let built : ExecutionPayload H A V ← call peer (.getPayload payloadId drive.getPayloadVersion)
        return .ok built

/-- The chain advances along the expected block: the error that ends the run, if any. -/
def advance (idx : ℕ) (payload : EngineNewPayload H A V) : Chain σ H A V (Option String) := do
  let status : PayloadStatus ← call peer (.newPayload payload.params payload.newPayloadVersion)
  if status ≠ .valid then
    return some ("newPayload (block " ++ toString idx ++ ") not VALID: " ++ eest.str status)
  else
    let fcu : ForkchoiceReply ← call peer (.forkchoiceUpdated payload.expected.blockHash none
      payload.forkchoiceUpdatedVersion)
    if fcu.status ≠ .valid then
      return some ("fcu advance (block " ++ toString idx ++ ") not VALID: " ++ eest.str fcu.status)
    else return none

/-- The entry of a block in the result. -/
def blockResult (built expected : ExecutionPayload H A V) : BlockResult :=
  let mismatches := diffPayload eest built expected
  { blockNumber := expected.number, matched := mismatches.isEmpty, mismatches := mismatches }

/-- The body of the loop: the result that ends the run, or the entries so far. -/
def driveBlock (drive : Drive) (idx : ℕ) (payload : EngineNewPayload H A V)
    (blockResults : List BlockResult) : Chain σ H A V (Except FixtureResult (List BlockResult)) := do
  submitMempool peer payload.expected.transactions
  let build ← buildBlock peer eest hash addr drive idx payload
  match build with
  | .error err => return .error { testId := drive.testId, blocks := blockResults, error := some err }
  | .ok built =>
    let blockResults := blockResults ++ [blockResult eest built payload.expected]
    let failed ← advance peer eest idx payload
    match failed with
    | some err =>
      return .error { testId := drive.testId, blocks := blockResults, error := some err }
    | none => return .ok blockResults

/-- The loop over the payloads, from index `idx` on. -/
def driveFrom (drive : Drive) :
    ℕ → List (EngineNewPayload H A V) → List BlockResult → Chain σ H A V FixtureResult
  | _, [], blockResults => return { testId := drive.testId, blocks := blockResults }
  | idx, payload :: payloads, blockResults =>
    if !payload.valid then driveFrom drive (idx + 1) payloads blockResults
    else do
      let next ← driveBlock peer eest hash addr drive idx payload blockResults
      match next with
      | .error result => return result
      | .ok blockResults => driveFrom drive (idx + 1) payloads blockResults

/-- `_drive_chain` -/
def driveChain (drive : Drive) (fixture : EngineFixture H A V) : Chain σ H A V FixtureResult :=
  match fixture.payloads with
  | [] => throw ⟨.indexError, "list index out of range"⟩
  | first :: _ => do
    let bootstrap : ForkchoiceReply ← call peer (.forkchoiceUpdated fixture.genesisHash none
      first.forkchoiceUpdatedVersion)
    if bootstrap.status ≠ .valid then
      return { testId := drive.testId, blocks := [],
               error := some ("bootstrap forkchoiceUpdated not VALID: " ++ eest.str bootstrap.status) }
    else driveFrom peer eest hash addr drive 0 fixture.payloads []

end Runner

end EestReplay
