import EestReplay.Model.Replay
import EestReplay.Model.Simbuild

/-! # The handler of the build endpoint

`handleBuild` of `cmd_simbuild.go`, with everything it asks of the engine client, and the EL as
it is replayed through the endpoint. -/

namespace EestReplay.Simbuild

open Dialogue

/-- What `GetPayloadRaw` returns, with the JSON of the payload as the EL sent it. -/
structure PayloadResult where
  executionPayloadJSON : Json
  blockValue : Option ℤ
  blobsBundle : Option Json
  executionRequests : List (List UInt8)

/-- The engine client, and the clock. -/
inductive EngineCall (H A : Type) where
  | requestPayloadBuild (head safe finalized : H) (attrs : EngineAttributes H A)
  | sleep (ms : ℕ)
  | getPayloadRaw (payloadID : String)

/-- An error is given by its text. -/
def EngineCall.Reply {H A : Type} : EngineCall H A → Type
  | requestPayloadBuild _ _ _ _ => Except String String
  | sleep _ => Unit
  | getPayloadRaw _ => Except String PayloadResult

/-- Functions of other packages: the modifier of buildoor, which takes the JSON of a payload,
the tag, the beacon root and the execution requests, and how Go prints a quoted string. -/
structure Packages (H : Type) where
  modifyPayloadExtraData : Json → String → H → List (List UInt8) → Except String (Json × H)
  quote : String → String

/-- `http.Error(w, error, code)` -/
structure HttpError where
  error : String
  code : ℕ
  deriving DecidableEq, Repr

structure BuildResponse where
  executionPayload : Json
  blockHash : String
  blobsBundle : Option Json := none
  executionRequests : List String := []
  blockValue : String := ""

/-! ## Errors -/

def NumErr.error : NumErr → String
  | errSyntax => "invalid syntax"
  | errRange => "value out of range"

variable {H A : Type} (packages : Packages H)

def NumError.error (e : NumError) : String :=
  "strconv.ParseUint: parsing " ++ packages.quote e.num ++ ": " ++ e.err.error

def AttributesError.error (e : AttributesError) : String :=
  e.field ++ ": " ++ e.cause.error packages

/-- What is answered to a request without attributes. -/
def BadRequest.httpError : BadRequest → HttpError
  | decodeBody e => ⟨"decode body: " ++ e.error, 400⟩
  | invalidAttrs e => ⟨"invalid attrs: " ++ e.error packages, 400⟩

/-- A step of the build that returned an error. -/
def attempt {α : Type} (step : String) (r : Except String α) : Except HttpError α :=
  r.mapError fun err => ⟨step ++ ": " ++ err, 500⟩

/-! ## Responses -/

/-- `common.Bytes2Hex` -/
def bytes2Hex (bytes : List UInt8) : String :=
  String.ofList (bytes.flatMap fun b => [Nat.digitChar (b.toNat / 16), Nat.digitChar (b.toNat % 16)])

/-- `n.Text(16)` -/
def bigText (n : ℤ) : String :=
  (if n < 0 then "-" else "") ++ String.ofList (Nat.toDigits 16 n.natAbs)

/-- The response to a payload that was modified to one of a new hash. -/
def buildResponse (hash : FixedBytes H) (result : PayloadResult) (modified : Json) (newHash : H) :
    BuildResponse where
  executionPayload := modified
  blockHash := hash.str newHash
  blobsBundle := result.blobsBundle
  executionRequests := result.executionRequests.map fun b => "0x" ++ bytes2Hex b
  blockValue :=
    match result.blockValue with
    | some value => "0x" ++ bigText value
    | none => ""

/-- `Encode(resp)`, which leaves out what is empty behind the block hash. -/
def BuildResponse.encode (r : BuildResponse) : Json :=
  .obj
    ([("execution_payload", r.executionPayload), ("block_hash", .str r.blockHash)] ++
      (match r.blobsBundle with
        | some bundle => [("blobs_bundle", bundle)]
        | none => []) ++
      (if r.executionRequests = [] then []
        else [("execution_requests", .arr (r.executionRequests.map .str))]) ++
      (if r.blockValue = "" then [] else [("block_value", .str r.blockValue)]))

/-! ## The handler -/

abbrev Handling (σ H A α : Type) : Type :=
  Program σ (EngineCall.Reply (H := H) (A := A)) HttpError α

variable {σ : Type} (hash : FixedBytes H) (addr : FixedBytes A)
  (engine : Peer σ (EngineCall.Reply (H := H) (A := A))) (buildWait : ℕ)

/-- `s.engine.RequestPayloadBuild`, whose error ends the request. -/
def requestPayloadBuild (parent : H) (attrs : EngineAttributes H A) : Handling σ H A String := do
  let payloadID : Except String String ← ask engine (.requestPayloadBuild parent parent parent attrs)
  lift (attempt "RequestPayloadBuild" payloadID)

/-- `time.Sleep(s.buildWait)` -/
def sleep : Handling σ H A Unit := ask engine (.sleep buildWait)

/-- `s.engine.GetPayloadRaw`, whose error ends the request. -/
def getPayloadRaw (payloadID : String) : Handling σ H A PayloadResult := do
  let result : Except String PayloadResult ← ask engine (.getPayloadRaw payloadID)
  lift (attempt "GetPayloadRaw" result)

/-- The response to the payload that the engine built. Without a root the modifier gets the zero
hash, which is what an empty string is read as. -/
def respond (attrs : EngineAttributes H A) (result : PayloadResult) :
    Except HttpError BuildResponse := do
  let beacon := attrs.parentBeaconBlockRoot.getD (hash.ofHex "")
  let modified ← attempt "ModifyPayloadExtraData"
    (packages.modifyPayloadExtraData result.executionPayloadJSON "buildoor/" beacon
      result.executionRequests)
  return buildResponse hash result modified.1 modified.2

/-- The part of `handleBuild` behind `toAttributes`. -/
def buildPayload (parent : H) (attrs : EngineAttributes H A) : Handling σ H A BuildResponse := do
  let payloadID ← requestPayloadBuild engine parent attrs
  sleep engine buildWait
  let result ← getPayloadRaw engine payloadID
  lift (respond packages hash attrs result)

/-- `handleBuild`, for a body that is JSON or that the decoder refuses with an error. -/
def handleBuild (method : String) (body : Except String Json) : Handling σ H A BuildResponse :=
  if method ≠ "POST" then throw ⟨"method not allowed", 405⟩
  else do
    let value ← lift (body.mapError fun err => ⟨"decode body: " ++ err, 400⟩)
    let build ← lift ((requestedBuild hash addr value).mapError (BadRequest.httpError packages))
    buildPayload packages hash engine buildWait build.1 build.2

/-- The response as the runner gets it. `http.Error` ends its text with a line break. -/
def reply : Except HttpError BuildResponse → BuildReply
  | .ok response => .ok response.encode
  | .error e => .httpError e.code (e.error ++ "\n")

/-- The EL, with `simbuild` over its engine API in front of it. -/
def throughBuilder {V : Type} (el : Peer σ (ChainReply (H := H) (A := A) (V := V))) :
    Peer σ (ChainReply (H := H) (A := A) (V := V)) where
  answer s
    | .build _ body =>
      let served := handleBuild packages hash addr engine buildWait "POST" (.ok body) ⟨s, []⟩
      (.ok (reply served.1), served.2.state)
    | q => el.answer s q

end EestReplay.Simbuild
