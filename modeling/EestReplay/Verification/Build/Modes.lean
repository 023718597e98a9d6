import EestReplay.Library.Relating
import EestReplay.Verification.Build.Absence
import EestReplay.Verification.Build.Handler
import EestReplay.Verification.Chain.Faults
import EestReplay.Verification.Chain.Verdict

/-! # Two ways to build

A fixture is replayed through the builder's endpoint, or against the EL directly. The results
are the same, when the builder's engine client asks the EL for what it is given and the
modifier leaves the payloads as they are but for their tag. -/

namespace EestReplay.Simbuild

open Dialogue Runner Buildoor

variable {σ H A V : Type}

/-! ## What is relied on -/

section

variable (eest : ExecutionTesting H A V) (packages : Packages H)

/-- A fork choice with attributes starts the build that the engine client reports. -/
inductive Starts {ε : Type} : Except ε String → Except PyError ForkchoiceReply → Prop where
  | started (payloadID : String) : Starts (.ok payloadID) (.ok ⟨.valid, some payloadID⟩)
  | refused (e : ε) (fcu : ForkchoiceReply) (h : fcu.status ≠ .valid ∨ fcu.payloadId = none) :
      Starts (.error e) (.ok fcu)
  | raised (e : ε) (exc : PyError) : Starts (.error e) (.error exc)

/-- The modifier takes what the client got, and returns a payload with the fields of `built` but
for its extra data and its hash. -/
def Retagged (result : PayloadResult) (built : ExecutionPayload H A V) : Prop :=
  ∀ beacon, ∃ modified newHash tagged,
    packages.modifyPayloadExtraData result.executionPayloadJSON "buildoor/" beacon
        result.executionRequests = .ok (modified, newHash) ∧
      eest.modelValidate modified = .ok tagged ∧
      ∀ field ∉ ["extra_data", "block_hash"], tagged.getattr field = built.getattr field

/-- The modifier does not make a payload of what is none. -/
def StaysInvalid (result : PayloadResult) : Prop :=
  ∀ beacon modified newHash,
    packages.modifyPayloadExtraData result.executionPayloadJSON "buildoor/" beacon
        result.executionRequests = .ok (modified, newHash) →
      ∃ e, eest.modelValidate modified = .error e

/-- The payload that the engine client got is the one that the runner gets. -/
inductive Gets {ε : Type} :
    Except ε PayloadResult → Except PyError (ExecutionPayload H A V) → Prop where
  | got (result : PayloadResult) (built : ExecutionPayload H A V)
      (h : Retagged eest packages result built) : Gets (.ok result) (.ok built)
  | invalid (result : PayloadResult) (exc : PyError) (h : StaysInvalid eest packages result) :
      Gets (.ok result) (.error exc)
  | failed (e : ε) (exc : PyError) : Gets (.error e) (.error exc)

/-- Two states of the EL in `S` differ in nothing that the runner is told, such as the safe and
the finalized block, and stay so whichever way a block is built. The client sends attributes and
a version of its own making. -/
structure Contract (S : σ → σ → Prop) (el : Peer σ (ChainReply (H := H) (A := A) (V := V)))
    (engine : Peer σ (EngineCall.Reply (H := H) (A := A)))
    (sends : EngineAttributes H A → PayloadAttributes H A × ℕ) (version : ℕ) : Prop where
  answer : ∀ q s t, (∀ url body, q ≠ .build url body) → S s t →
    (el.answer s q).1 = (el.answer t q).1 ∧ S (el.answer s q).2 (el.answer t q).2
  request : ∀ parent attrs s t, S s t →
    Starts (engine.answer s (.requestPayloadBuild parent parent parent attrs)).1
        (el.answer t (.forkchoiceUpdated parent (some (sends attrs).1) (sends attrs).2)).1 ∧
      S (engine.answer s (.requestPayloadBuild parent parent parent attrs)).2
        (el.answer t (.forkchoiceUpdated parent (some (sends attrs).1) (sends attrs).2)).2
  sleep : ∀ (ms : ℕ) (seconds : ℚ) s t, seconds * 1000 = ms → S s t →
    (el.answer t (.sleep seconds)).1 = .ok () ∧
      S (engine.answer s (.sleep ms)).2 (el.answer t (.sleep seconds)).2
  getPayload : ∀ payloadID s t, S s t →
    Gets eest packages (engine.answer s (.getPayloadRaw payloadID)).1
        (el.answer t (.getPayload payloadID version)).1 ∧
      S (engine.answer s (.getPayloadRaw payloadID)).2
        (el.answer t (.getPayload payloadID version)).2

end

/-- The client asks for the block of the payload as the runner does. -/
def Carried (sends : EngineAttributes H A → PayloadAttributes H A × ℕ)
    (payload : EngineNewPayload H A V) : Prop :=
  ∀ attrs, Reads attrs (payloadAttributes payload) →
    sends attrs = (payloadAttributes payload, payload.forkchoiceUpdatedVersion)

/-! ## A build -/

/-- Equal but for what the builder picks. -/
def SamePicks (built built' : ExecutionPayload H A V) : Prop :=
  ∀ field ∉ builderPickedFields, built.getattr field = built'.getattr field

/-- The builds of one block: of payloads that differ in what is not compared, or failed both. -/
inductive Builds {ε α : Type} (read : α → Except PyError (ExecutionPayload H A V)) :
    Except ε α → Except PyError (Except String (ExecutionPayload H A V)) → Prop where
  | built (a : α) (tagged built : ExecutionPayload H A V) (ha : read a = .ok tagged)
      (h : SamePicks tagged built) : Builds read (.ok a) (.ok (.ok built))
  | failed (r : Except ε α) (q : Except PyError (Except String (ExecutionPayload H A V)))
      (hr : ∀ a, r = .ok a → ∃ e, read a = .error e) (hq : ∀ built, q ≠ .ok (.ok built)) :
      Builds read r q

theorem SamePicks.of_retagged {tagged built : ExecutionPayload H A V}
    (h : ∀ field ∉ ["extra_data", "block_hash"], tagged.getattr field = built.getattr field) :
    SamePicks tagged built := by
  intro field hfield
  apply h
  intro hmem
  apply hfield
  simp only [builderPickedFields, List.mem_cons, List.not_mem_nil, or_false] at hmem ⊢
  exact .inr hmem

variable {eest : ExecutionTesting H A V} {packages : Packages H}
  {hash : FixedBytes H} {addr : FixedBytes A} {S : σ → σ → Prop}
  {el : Peer σ (ChainReply (H := H) (A := A) (V := V))}
  {engine : Peer σ (EngineCall.Reply (H := H) (A := A))}
  {sends : EngineAttributes H A → PayloadAttributes H A × ℕ} {drive : Drive} {buildWait : ℕ}

/-- Built through the endpoint at a base URL, or directly. -/
def builtBy (drive : Drive) (buildoorBaseUrl : Option String) : Drive :=
  { drive with buildoorBaseUrl := buildoorBaseUrl }

theorem Starts.attempt {step : String} {r : Except String String}
    {q : Except PyError ForkchoiceReply} (h : Starts r q) : Starts (attempt step r) q := by
  cases h with
  | started payloadID => exact .started payloadID
  | refused e fcu h => exact .refused _ fcu h
  | raised e exc => exact .raised _ exc

theorem Gets.attempt {step : String} {r : Except String PayloadResult}
    {q : Except PyError (ExecutionPayload H A V)} (h : Gets eest packages r q) :
    Gets eest packages (attempt step r) q := by
  cases h with
  | got result built h => exact .got result built h
  | invalid result exc h => exact .invalid result exc h
  | failed e exc => exact .failed _ exc

theorem Builds.of_errors {ε α : Type} {read : α → Except PyError (ExecutionPayload H A V)} (e : ε)
    {q : Except PyError (Except String (ExecutionPayload H A V))}
    (hq : ∀ built, q ≠ .ok (.ok built)) : Builds read (.error e) q :=
  .failed _ _ (fun _ h => nomatch h) hq

theorem respond_builds (hash : FixedBytes H) (attrs : EngineAttributes H A) {result : PayloadResult}
    {q : Except PyError (ExecutionPayload H A V)}
    (h : Gets eest packages (.ok result : Except HttpError PayloadResult) q) :
    Builds (fun response : BuildResponse => eest.modelValidate response.executionPayload)
      (respond packages hash attrs result) (q.map Except.ok) := by
  let beacon := attrs.parentBeaconBlockRoot.getD (hash.ofHex "")
  have hrespond : respond packages hash attrs result =
      (attempt "ModifyPayloadExtraData" (packages.modifyPayloadExtraData result.executionPayloadJSON
        "buildoor/" beacon result.executionRequests) >>= fun modified =>
          .ok (buildResponse hash result modified.1 modified.2)) := rfl
  rw [hrespond]
  cases h with
  | got _ built h =>
      obtain ⟨modified, newHash, tagged, hmodified, hvalid, hsame⟩ := h beacon
      rw [hmodified]
      exact .built _ tagged built hvalid (.of_retagged hsame)
  | invalid _ exc h =>
      cases hmodified : packages.modifyPayloadExtraData result.executionPayloadJSON "buildoor/"
        beacon result.executionRequests with
      | error err => exact .of_errors _ nofun
      | ok modified =>
          refine .failed _ _ ?_ nofun
          intro response hresponse
          obtain rfl : buildResponse hash result modified.1 modified.2 = response :=
            Except.ok.inj hresponse
          exact h beacon modified.1 modified.2 hmodified

/-- What a direct build does with the reply to its fork choice. -/
def afterForkchoice (el : Peer σ (ChainReply (H := H) (A := A) (V := V)))
    (eest : ExecutionTesting H A V) (drive : Drive) (idx : ℕ) (fcu : ForkchoiceReply) :
    Chain σ H A V (Except String (ExecutionPayload H A V)) :=
  if fcu.status ≠ .valid then
    return .error ("fcu (block " ++ toString idx ++ ") not VALID: " ++ eest.str fcu.status)
  else
    match fcu.payloadId with
    | none => return .error ("fcu (block " ++ toString idx ++ ") returned no payloadId")
    | some payloadId => do
      call el (.sleep drive.payloadBuildTime)
      let built : ExecutionPayload H A V ← call el (.getPayload payloadId drive.getPayloadVersion)
      return .ok built

theorem buildBlock_direct (drive : Drive) (idx : ℕ) (payload : EngineNewPayload H A V) :
    buildBlock el eest hash addr (builtBy drive none) idx payload =
      (call el (.forkchoiceUpdated payload.expected.parentHash (some (payloadAttributes payload))
        payload.forkchoiceUpdatedVersion) >>= fun fcu => afterForkchoice el eest drive idx fcu) := rfl

/-- A fork choice that started nothing ends the build of its block. -/
theorem afterForkchoice_refused (el : Peer σ (ChainReply (H := H) (A := A) (V := V)))
    (eest : ExecutionTesting H A V) (drive : Drive) (idx : ℕ) {fcu : ForkchoiceReply}
    (h : fcu.status ≠ .valid ∨ fcu.payloadId = none) :
    ∃ err, afterForkchoice el eest drive idx fcu = lift (.ok (.error err)) := by
  unfold afterForkchoice
  by_cases hstatus : fcu.status = .valid
  · rw [if_neg (not_not.mpr hstatus), h.resolve_left (not_not.mpr hstatus)]
    exact ⟨_, rfl⟩
  · rw [if_pos hstatus]
    exact ⟨_, rfl⟩

theorem afterForkchoice_started (drive : Drive) (idx : ℕ) (payloadID : String) :
    afterForkchoice el eest drive idx ⟨.valid, some payloadID⟩ =
      (call el (.sleep drive.payloadBuildTime) >>= fun _ =>
        call el (.getPayload payloadID drive.getPayloadVersion) >>= fun built =>
          lift (.ok (.ok built))) := rfl

theorem buildPayload_builds (hash : FixedBytes H) (addr : FixedBytes A)
    (hcontract : Contract eest packages S el engine sends drive.getPayloadVersion)
    (hwait : drive.payloadBuildTime * 1000 = buildWait) {payload : EngineNewPayload H A V}
    {attrs : EngineAttributes H A}
    (hsends : sends attrs = (payloadAttributes payload, payload.forkchoiceUpdatedVersion))
    (idx : ℕ) :
    Relates S (Builds fun response => eest.modelValidate response.executionPayload)
      (buildPayload packages hash engine buildWait payload.expected.parentHash attrs)
      (buildBlock el eest hash addr (builtBy drive none) idx payload) := by
  have hrequest : Relates S Starts (requestPayloadBuild engine payload.expected.parentHash attrs)
      (call el (.forkchoiceUpdated payload.expected.parentHash (some (payloadAttributes payload))
        payload.forkchoiceUpdatedVersion)) := by
    intro u v hs
    obtain ⟨hstarts, hs'⟩ := hcontract.request payload.expected.parentHash attrs _ _ hs
    rw [hsends] at hstarts hs'
    rw [requestPayloadBuild_apply, call_apply]
    exact ⟨hstarts.attempt, hs'⟩
  rw [buildBlock_direct]
  refine hrequest.bind fun r q h => ?_
  cases h with
  | raised e exc => exact .ends (fun _ => rfl) (fun _ => rfl) (.of_errors e nofun)
  | refused e fcu h =>
      obtain ⟨err, herr⟩ := afterForkchoice_refused el eest drive idx h
      show Relates S _ (lift (.error e)) (afterForkchoice el eest drive idx fcu)
      rw [herr]
      exact Relates.lift (.of_errors e nofun)
  | started payloadID =>
      have hsleep : Relates S (fun r q => r = .ok () ∧ q = .ok ()) (sleep engine buildWait)
          (call el (.sleep drive.payloadBuildTime)) := by
        intro u v hs
        obtain ⟨hok, hs'⟩ := hcontract.sleep buildWait drive.payloadBuildTime _ _ hwait hs
        rw [call_apply]
        exact ⟨⟨rfl, hok⟩, hs'⟩
      have hget : Relates S (Gets eest packages) (getPayloadRaw engine payloadID)
          (call el (.getPayload payloadID drive.getPayloadVersion)) := by
        intro u v hs
        obtain ⟨hgets, hs'⟩ := hcontract.getPayload payloadID _ _ hs
        rw [getPayloadRaw_apply, call_apply]
        exact ⟨hgets.attempt, hs'⟩
      show Relates S _
        (sleep engine buildWait >>= fun _ => getPayloadRaw engine payloadID >>= fun result =>
          lift (respond packages hash attrs result))
        (afterForkchoice el eest drive idx ⟨.valid, some payloadID⟩)
      rw [afterForkchoice_started]
      refine hsleep.bind ?_
      rintro _ _ ⟨rfl, rfl⟩
      refine hget.bind fun r q h => ?_
      cases r with
      | error e =>
          cases h with
          | failed _ exc => exact .ends (fun _ => rfl) (fun _ => rfl) (.of_errors e nofun)
      | ok result =>
          have hbuilds := respond_builds hash attrs h
          cases q with
          | error exc => exact Relates.lift hbuilds
          | ok built => exact Relates.lift hbuilds

/-! ## A build through the endpoint -/

/-- The endpoint asks for the block of a payload whose numbers fit. -/
theorem handleBuild_of_fits (hash : FixedBytes H) (addr : FixedBytes A)
    {payload : EngineNewPayload H A V} (h : Fits payload) (packages : Packages H)
    (engine : Peer σ (EngineCall.Reply (H := H) (A := A))) (buildWait : ℕ) :
    ∃ attrs, Reads attrs (payloadAttributes payload) ∧
      handleBuild packages hash addr engine buildWait "POST"
          (.ok (requestBody hash addr (hash.str payload.expected.parentHash) payload)) =
        buildPayload packages hash engine buildWait payload.expected.parentHash attrs := by
  obtain ⟨attrs, hattrs, hreads⟩ :=
    toAttributes_reads hash addr (hash.str payload.expected.parentHash) h
  refine ⟨attrs, hreads, ?_⟩
  rw [handleBuild_post, requestedBuild_of_decode hash addr (decode_requestBody _ payload), hattrs]
  show buildPayload packages hash engine buildWait
    (hash.ofHex (hash.str payload.expected.parentHash)) attrs = _
  rw [hash.ofHex_str]

/-- What `request_build` makes of a reply. -/
def readReply (eest : ExecutionTesting H A V) :
    BuildReply → Except PyError (ExecutionPayload H A V)
  | .ok parsed => parseBuilt eest parsed
  | .httpError code detail =>
    .error ⟨.runtimeError, "buildoor /build returned " ++ toString code ++ ": " ++ detail⟩

theorem requestBuild_apply (peer : Peer σ (ChainReply (H := H) (A := A) (V := V)))
    (baseUrl parentHash : String) (payload : EngineNewPayload H A V)
    (w : World σ (ChainReply (H := H) (A := A) (V := V))) {built : BuildReply}
    (h : (peer.answer w.state (.build baseUrl (requestBody hash addr parentHash payload))).1 =
      .ok built) :
    requestBuild peer eest hash addr baseUrl parentHash payload w =
      (readReply eest built,
        w.step peer (.build baseUrl (requestBody hash addr parentHash payload))) := by
  unfold requestBuild
  have hcall := call_apply peer (.build baseUrl (requestBody hash addr parentHash payload)) w
  rw [h] at hcall
  refine (bind_of_ok hcall).trans ?_
  cases built with
  | httpError code detail => rfl
  | ok parsed =>
      dsimp only
      rw [readBuilt_eq, lift_apply]
      rfl

theorem Builds.reply {r : Except HttpError BuildResponse}
    {q : Except PyError (Except String (ExecutionPayload H A V))}
    (h : Builds (fun response => eest.modelValidate response.executionPayload) r q) :
    Builds Except.ok (readReply eest (reply r)) q := by
  cases h with
  | built response tagged built ha h =>
      show Builds Except.ok (eest.modelValidate response.executionPayload) _
      rw [ha]
      exact .built tagged tagged built rfl h
  | failed _ _ hr hq =>
      cases r with
      | error e => exact .of_errors _ hq
      | ok response =>
          show Builds Except.ok (eest.modelValidate response.executionPayload) q
          obtain ⟨e, he⟩ := hr response rfl
          rw [he]
          exact .of_errors e hq

theorem requestBuild_builds (hash : FixedBytes H) (addr : FixedBytes A)
    (hcontract : Contract eest packages S el engine sends drive.getPayloadVersion)
    (hwait : drive.payloadBuildTime * 1000 = buildWait) {payload : EngineNewPayload H A V}
    (hfits : Fits payload) (hcarried : Carried sends payload) (baseUrl : String) (idx : ℕ) :
    Relates S (Builds Except.ok)
      (requestBuild (throughBuilder packages hash addr engine buildWait el) eest hash addr baseUrl
        (hash.str payload.expected.parentHash) payload)
      (buildBlock el eest hash addr (builtBy drive none) idx payload) := by
  intro u v hs
  obtain ⟨attrs, hreads, hhandler⟩ := handleBuild_of_fits hash addr hfits
    packages engine buildWait
  obtain ⟨hbuilds, hs'⟩ := buildPayload_builds hash addr hcontract hwait
    (hcarried attrs hreads) idx ⟨u.state, []⟩ v hs
  rw [← hhandler] at hbuilds hs'
  rw [requestBuild_apply _ _ _ _ _ rfl]
  exact ⟨hbuilds.reply, hs'⟩

/-! ## The chain -/

/-- The two ways answer everything but a build alike. -/
theorem call_same (hash : FixedBytes H) (addr : FixedBytes A) (buildWait : ℕ)
    (hcontract : Contract eest packages S el engine sends drive.getPayloadVersion)
    {q : ChainCall H A V} (hq : ∀ url body, q ≠ .build url body) :
    Relates S Eq (call (throughBuilder packages hash addr engine buildWait el) q) (call el q) := by
  apply Relates.call
  intro s t hs
  have hthrough : (throughBuilder packages hash addr engine buildWait el).answer s q =
      el.answer s q := by
    cases q with
    | build url body => exact absurd rfl (hq url body)
    | _ => rfl
  rw [hthrough]
  exact hcontract.answer q s t hq hs

theorem submitMempool_same
    (hcontract : Contract eest packages S el engine sends drive.getPayloadVersion)
    (raws : List String) :
    Relates S Eq (submitMempool (throughBuilder packages hash addr engine buildWait el) raws)
      (submitMempool el raws) := by
  induction raws with
  | nil => exact Relates.lift (r := .ok ()) rfl
  | cons raw raws ih =>
      have hsend := call_same hash addr buildWait hcontract
        (q := .sendRawTransaction raw) nofun
      exact hsend.bind_same (fun _ => ih) fun _ => rfl

theorem advance_same (hash : FixedBytes H) (addr : FixedBytes A) (buildWait : ℕ)
    (hcontract : Contract eest packages S el engine sends drive.getPayloadVersion)
    (idx : ℕ) (payload : EngineNewPayload H A V) :
    Relates S Eq (advance (throughBuilder packages hash addr engine buildWait el) eest idx payload)
      (advance el eest idx payload) := by
  have himport := call_same hash addr buildWait hcontract
    (q := .newPayload payload.params payload.newPayloadVersion) nofun
  refine himport.bind_same (fun status => ?_) fun _ => rfl
  split
  · exact .ends (fun _ => rfl) (fun _ => rfl) rfl
  · have hadvance := call_same hash addr buildWait hcontract
      (q := .forkchoiceUpdated payload.expected.blockHash none payload.forkchoiceUpdatedVersion) nofun
    refine hadvance.bind_same (fun fcu => ?_) fun _ => rfl
    split
    · exact .ends (fun _ => rfl) (fun _ => rfl) rfl
    · exact .ends (fun _ => rfl) (fun _ => rfl) rfl

/-- One outcome, or two failures. -/
def SameUnless {α : Type} (failed : α → Prop) (r q : α) : Prop := r = q ∨ failed r ∧ failed q

/-- The run raised, or ended with an error. -/
def FailedRun : Except PyError FixtureResult → Prop
  | .ok result => result.error ≠ none
  | .error _ => True

/-- The block raised, or ended the run with an error. -/
def FailedBlock : Except PyError (Except FixtureResult (List BlockResult)) → Prop
  | .ok (.ok _) => False
  | .ok (.error result) => result.error ≠ none
  | .error _ => True

section

variable [DecidableEq V]

theorem SamePicks.blockResult_eq {built built' : ExecutionPayload H A V}
    (h : SamePicks built built') (eest : ExecutionTesting H A V) (expected : ExecutionPayload H A V) :
    blockResult eest built expected = blockResult eest built' expected := by
  have hfields : ∀ fields, diffFields eest built expected fields =
      diffFields eest built' expected fields := by
    intro fields
    induction fields with
    | nil => rfl
    | cons field fields ih =>
        unfold diffFields
        by_cases hpicked : field ∈ builderPickedFields
        · rw [if_pos hpicked, if_pos hpicked, ih]
        · rw [if_neg hpicked, if_neg hpicked, h field hpicked, ih]
  unfold blockResult diffPayload
  rw [hfields]

/-- What a block does with its build. -/
def afterBuild (peer : Peer σ (ChainReply (H := H) (A := A) (V := V)))
    (eest : ExecutionTesting H A V) (drive : Drive) (idx : ℕ) (payload : EngineNewPayload H A V)
    (blockResults : List BlockResult) :
    Except String (ExecutionPayload H A V) → Chain σ H A V (Except FixtureResult (List BlockResult))
  | .error err =>
    return .error { testId := drive.testId, blocks := blockResults, error := some err }
  | .ok built => do
    let blockResults := blockResults ++ [blockResult eest built payload.expected]
    let failed ← advance peer eest idx payload
    match failed with
    | some err =>
      return .error { testId := drive.testId, blocks := blockResults, error := some err }
    | none => return .ok blockResults

theorem driveBlock_eq (peer : Peer σ (ChainReply (H := H) (A := A) (V := V))) (url : Option String)
    (idx : ℕ) (payload : EngineNewPayload H A V) (blocks : List BlockResult) :
    driveBlock peer eest hash addr (builtBy drive url) idx payload blocks =
      (submitMempool peer payload.expected.transactions >>= fun _ =>
        buildBlock peer eest hash addr (builtBy drive url) idx payload >>= fun build =>
          afterBuild peer eest drive idx payload blocks build) := rfl

/-- The entries of a block depend on what is compared only, and a failed build ends the run. -/
theorem afterBuild_relates
    (hcontract : Contract eest packages S el engine sends drive.getPayloadVersion) (idx : ℕ)
    (payload : EngineNewPayload H A V) (blocks : List BlockResult)
    {r : Except PyError (ExecutionPayload H A V)}
    {q : Except PyError (Except String (ExecutionPayload H A V))} (h : Builds Except.ok r q) :
    Relates S (SameUnless FailedBlock)
      (lift (r.map Except.ok) >>= fun build =>
        afterBuild (throughBuilder packages hash addr engine buildWait el) eest drive idx payload
          blocks build)
      (lift q >>= fun build => afterBuild el eest drive idx payload blocks build) := by
  cases h with
  | built a tagged built ha hpicks =>
      obtain rfl : a = tagged := Except.ok.inj ha
      have hadvance := advance_same hash addr buildWait hcontract
        idx payload
      have hentry := hpicks.blockResult_eq eest payload.expected
      show Relates S _ (advance _ eest idx payload >>= fun failed => _)
        (advance el eest idx payload >>= fun failed => _)
      refine hadvance.bind_same (fun failed => ?_) fun e => .inl rfl
      rw [hentry]
      cases failed with
      | some err => exact .ends (fun _ => rfl) (fun _ => rfl) (.inl rfl)
      | none => exact .ends (fun _ => rfl) (fun _ => rfl) (.inl rfl)
  | failed _ _ hr hq =>
      cases r with
      | ok built =>
          obtain ⟨e, he⟩ := hr built rfl
          cases he
      | error e =>
          cases q with
          | error exc =>
              exact .ends (fun _ => rfl) (fun _ => rfl) (.inr ⟨trivial, trivial⟩)
          | ok build =>
              cases build with
              | ok built => exact absurd rfl (hq built)
              | error err =>
                  exact .ends (fun _ => rfl) (fun _ => rfl) (.inr ⟨trivial, nofun⟩)

/-- A build through the endpoint, as `buildBlock` returns it. -/
def Wrapped (r : Except PyError (Except String (ExecutionPayload H A V)))
    (q : Except PyError (Except String (ExecutionPayload H A V))) : Prop :=
  ∃ built, r = built.map Except.ok ∧ Builds Except.ok built q

theorem driveBlock_relates
    (hcontract : Contract eest packages S el engine sends drive.getPayloadVersion)
    (hwait : drive.payloadBuildTime * 1000 = buildWait) {payload : EngineNewPayload H A V}
    (hfits : Fits payload) (hcarried : Carried sends payload) (baseUrl : String) (idx : ℕ)
    (blocks : List BlockResult) :
    Relates S (SameUnless FailedBlock)
      (driveBlock (throughBuilder packages hash addr engine buildWait el) eest hash addr
        (builtBy drive (some baseUrl)) idx payload blocks)
      (driveBlock el eest hash addr (builtBy drive none) idx payload blocks) := by
  rw [driveBlock_eq, driveBlock_eq]
  refine (submitMempool_same hcontract _).bind_same (fun _ => ?_) fun e => .inl rfl
  have hbuild := requestBuild_builds hash addr hcontract hwait hfits hcarried
    baseUrl idx
  have hblock := hbuild.map_left (f := Except.ok)
    (U := Wrapped) fun r q h => ⟨r, rfl, h⟩
  refine Relates.bind hblock ?_
  rintro _ q ⟨r, rfl, h⟩
  exact afterBuild_relates hcontract idx payload blocks h

/-- What the loop does with the end of a block. -/
def afterBlock (rest : List BlockResult → Chain σ H A V FixtureResult) :
    Except FixtureResult (List BlockResult) → Chain σ H A V FixtureResult
  | .error result => return result
  | .ok blockResults => rest blockResults

omit [DecidableEq V] in
theorem FailedBlock.ends {r : Except PyError (Except FixtureResult (List BlockResult))}
    (h : FailedBlock r) (rest : List BlockResult → Chain σ H A V FixtureResult) :
    ∃ r', FailedRun r' ∧ ∀ w, (lift r >>= fun next => afterBlock rest next) w = (r', w) := by
  cases r with
  | error e => exact ⟨.error e, trivial, fun _ => rfl⟩
  | ok next =>
      cases next with
      | ok blocks => exact h.elim
      | error result => exact ⟨.ok result, h, fun _ => rfl⟩

theorem driveFrom_skip (peer : Peer σ (ChainReply (H := H) (A := A) (V := V))) (drive : Drive)
    (idx : ℕ) {payload : EngineNewPayload H A V} (payloads : List (EngineNewPayload H A V))
    (blocks : List BlockResult) (hvalid : payload.valid = false) :
    driveFrom peer eest hash addr drive idx (payload :: payloads) blocks =
      driveFrom peer eest hash addr drive (idx + 1) payloads blocks := by
  rw [driveFrom, hvalid]
  rfl

theorem driveFrom_cons (peer : Peer σ (ChainReply (H := H) (A := A) (V := V))) (drive : Drive)
    (idx : ℕ) {payload : EngineNewPayload H A V} (payloads : List (EngineNewPayload H A V))
    (blocks : List BlockResult) (hvalid : payload.valid = true) :
    driveFrom peer eest hash addr drive idx (payload :: payloads) blocks =
      (driveBlock peer eest hash addr drive idx payload blocks >>= fun next =>
        afterBlock (driveFrom peer eest hash addr drive (idx + 1) payloads) next) := by
  rw [driveFrom, hvalid]
  rfl

theorem driveFrom_relates
    (hcontract : Contract eest packages S el engine sends drive.getPayloadVersion)
    (hwait : drive.payloadBuildTime * 1000 = buildWait) (baseUrl : String) (idx : ℕ)
    {payloads : List (EngineNewPayload H A V)}
    (hpayloads : ∀ payload ∈ payloads, payload.valid = true → Fits payload ∧ Carried sends payload)
    (blocks : List BlockResult) :
    Relates S (SameUnless FailedRun)
      (driveFrom (throughBuilder packages hash addr engine buildWait el) eest hash addr
        (builtBy drive (some baseUrl)) idx payloads blocks)
      (driveFrom el eest hash addr (builtBy drive none) idx payloads blocks) := by
  induction payloads generalizing idx blocks with
  | nil => exact .ends (fun _ => rfl) (fun _ => rfl) (.inl rfl)
  | cons payload payloads ih =>
      have hrest := ih (idx + 1) fun p hp => hpayloads p (List.mem_cons_of_mem _ hp)
      by_cases hvalid : payload.valid = true
      · obtain ⟨hfits, hcarried⟩ := hpayloads payload List.mem_cons_self hvalid
        rw [driveFrom_cons _ _ _ _ _ hvalid, driveFrom_cons _ _ _ _ _ hvalid]
        refine (driveBlock_relates hcontract hwait hfits hcarried baseUrl idx blocks).bind ?_
        rintro r q (rfl | ⟨hr, hq⟩)
        · cases r with
          | error e => exact .ends (fun _ => rfl) (fun _ => rfl) (.inl rfl)
          | ok next =>
              cases next with
              | error result => exact .ends (fun _ => rfl) (fun _ => rfl) (.inl rfl)
              | ok blocks => exact hrest blocks
        · obtain ⟨r', hr', hleft⟩ := hr.ends (driveFrom
            (throughBuilder packages hash addr engine buildWait el) eest hash addr
            (builtBy drive (some baseUrl)) (idx + 1) payloads)
          obtain ⟨q', hq', hright⟩ := hq.ends (driveFrom el eest hash addr (builtBy drive none)
            (idx + 1) payloads)
          exact .ends hleft hright (.inr ⟨hr', hq'⟩)
      · have hskip : payload.valid = false := Bool.eq_false_iff.mpr hvalid
        rw [driveFrom_skip _ _ _ _ _ hskip, driveFrom_skip _ _ _ _ _ hskip]
        exact hrest blocks

/-- A replay through the endpoint and one against the EL have the same result, or fail both. -/
theorem driveChain_relates (hash : FixedBytes H) (addr : FixedBytes A)
    (hcontract : Contract eest packages S el engine sends drive.getPayloadVersion)
    (hwait : drive.payloadBuildTime * 1000 = buildWait) (baseUrl : String)
    {fixture : EngineFixture H A V}
    (hpayloads : ∀ payload ∈ fixture.payloads, payload.valid = true →
      Fits payload ∧ Carried sends payload) :
    Relates S (SameUnless FailedRun)
      (driveChain (throughBuilder packages hash addr engine buildWait el) eest hash addr
        (builtBy drive (some baseUrl)) fixture)
      (driveChain el eest hash addr (builtBy drive none) fixture) := by
  obtain ⟨genesisHash, payloads⟩ := fixture
  cases payloads with
  | nil => exact .ends (fun _ => rfl) (fun _ => rfl) (.inl rfl)
  | cons first payloads =>
      have hbootstrap := call_same hash addr buildWait hcontract
        (q := .forkchoiceUpdated genesisHash none first.forkchoiceUpdatedVersion) nofun
      refine hbootstrap.bind_same (fun bootstrap => ?_) fun e => .inl rfl
      split
      · exact .ends (fun _ => rfl) (fun _ => rfl) (.inl rfl)
      · exact driveFrom_relates hcontract hwait baseUrl 0 hpayloads []

theorem SameUnless.passed_iff {r q : Except PyError FixtureResult} (h : SameUnless FailedRun r q) :
    (∃ result, r = .ok result ∧ result.passed = true) ↔
      ∃ result, q = .ok result ∧ result.passed = true := by
  rcases h with rfl | ⟨hr, hq⟩
  · exact Iff.rfl
  · have hnot : ∀ {o : Except PyError FixtureResult}, FailedRun o →
        ¬ ∃ result, o = .ok result ∧ result.passed = true := by
      rintro _ hfailed ⟨result, rfl, hpassed⟩
      have herror : result.error.isNone = true := (Bool.and_eq_true_iff.mp hpassed).1
      exact hfailed (Option.isNone_iff_eq_none.mp herror)
    exact iff_of_false (hnot hr) (hnot hq)

end

/-! ## An EL and its client -/

/-- Attributes as a client sends them that forwards what it is given, or all of it but a slot of
0. -/
def EngineAttributes.sent (omitsZero : Bool) (attrs : EngineAttributes H A) :
    PayloadAttributes H A where
  timestamp := attrs.timestamp.toNat
  prevRandao := attrs.prevRandao
  suggestedFeeRecipient := attrs.suggestedFeeRecipient
  withdrawals := some (attrs.withdrawals.map EngineWithdrawal.toWithdrawal)
  parentBeaconBlockRoot := attrs.parentBeaconBlockRoot
  slotNumber :=
    if omitsZero && attrs.slotNumber.toNat = 0 then none else some attrs.slotNumber.toNat

/-- A client that forwards, with a version that it chooses by the attributes. -/
def forwarding (omitsZero : Bool) (versionOf : PayloadAttributes H A → ℕ)
    (attrs : EngineAttributes H A) : PayloadAttributes H A × ℕ :=
  (attrs.sent omitsZero, versionOf (attrs.sent omitsZero))

/-- There are withdrawals, and a slot just when the client sends one. -/
def Transported (omitsZero : Bool) (p : PayloadAttributes H A) : Prop :=
  p.withdrawals ≠ none ∧ if omitsZero then p.slotNumber ≠ some 0 else p.slotNumber ≠ none

theorem sent_of_reads {attrs : EngineAttributes H A} {p : PayloadAttributes H A}
    (h : Reads attrs p) (omitsZero : Bool) : attrs.sent omitsZero = p ↔ Transported omitsZero p := by
  obtain ⟨timestamp, prevRandao, recipient, withdrawals, root, slot⟩ := p
  unfold EngineAttributes.sent Transported
  rw [h.timestamp, h.prevRandao, h.suggestedFeeRecipient, h.withdrawals, h.parentBeaconBlockRoot,
    h.slotNumber]
  cases withdrawals with
  | none => simp
  | some ws => cases omitsZero <;> cases slot <;> simp [eq_comm]

/-- What a forwarding client carries: nothing that the endpoint has lost. -/
theorem carried_iff (hash : FixedBytes H) (addr : FixedBytes A) {payload : EngineNewPayload H A V}
    (hfits : Fits payload) (omitsZero : Bool) (versionOf : PayloadAttributes H A → ℕ) :
    Carried (forwarding omitsZero versionOf) payload ↔
      Transported omitsZero (payloadAttributes payload) ∧
        versionOf (payloadAttributes payload) = payload.forkchoiceUpdatedVersion := by
  constructor
  · intro h
    obtain ⟨attrs, -, hreads⟩ := toAttributes_reads hash addr "" hfits
    obtain ⟨hsent, hversion⟩ := Prod.mk.inj (h attrs hreads)
    rw [hsent] at hversion
    exact ⟨(sent_of_reads hreads omitsZero).mp hsent, hversion⟩
  · rintro ⟨htransported, hversion⟩ attrs hreads
    have hsent := (sent_of_reads hreads omitsZero).mpr htransported
    refine Prod.ext hsent ?_
    show versionOf (attrs.sent omitsZero) = _
    rw [hsent, hversion]

/-- A payload whose extra data is this. -/
def taggedBlock (extraData : String) : ExecutionPayload (Fin (16 ^ 64)) (Fin (16 ^ 40)) ℕ :=
  { block 0 1 with getattr := fun field => if field = "extra_data" then extraData.length else 0 }

def textOf : Json → Except PyError String
  | .str text => .ok text
  | _ => .error ⟨.valueError, "validation error"⟩

/-- The extra data in the JSON of a payload. -/
def extraData (data : Json) : Except PyError String := data.item "extraData" >>= textOf

def readingTesting : ExecutionTesting (Fin (16 ^ 64)) (Fin (16 ^ 40)) ℕ where
  modelFields := ["state_root", "extra_data"]
  modelValidate data := (extraData data).map taggedBlock
  repr _ := ""
  str _ := ""

/-- The modifier puts its tag before the extra data, which gives the block this hash. -/
def tagging (newHash : H) : Packages H where
  modifyPayloadExtraData data tag _ _ :=
    ((extraData data).mapError PyError.text).map fun text =>
      (.obj [("extraData", .str (tag ++ text))], newHash)
  quote s := "\"" ++ s ++ "\""

/-- The head and the finalized block of an EL that accepts everything. -/
def acceptingLayer : Peer (Fin (16 ^ 64) × Fin (16 ^ 64))
    (ChainReply (H := Fin (16 ^ 64)) (A := Fin (16 ^ 40)) (V := ℕ)) where
  answer s
    | .sendRawTransaction raw => (.ok raw, s)
    | .forkchoiceUpdated head _ _ => (.ok ⟨.valid, some "0x01"⟩, (head, s.2))
    | .getPayload _ _ => (.ok (taggedBlock "0x"), s)
    | .newPayload _ _ => (.ok PayloadStatus.valid, s)
    | .build _ _ => (.error ⟨.osError, "unavailable"⟩, s)
    | .sleep _ => (.ok (), s)

/-- The engine client of buildoor, which finalizes the parent of what it builds. -/
def finalizingClient : Peer (Fin (16 ^ 64) × Fin (16 ^ 64))
    (EngineCall.Reply (H := Fin (16 ^ 64)) (A := Fin (16 ^ 40))) where
  answer s
    | .requestPayloadBuild head _ finalized _ => (.ok "0x01", (head, finalized))
    | .sleep _ => ((), s)
    | .getPayloadRaw _ => (.ok ⟨.obj [("extraData", .str "0x")], some 1, none, []⟩, s)

theorem contract_finalizing (newHash : Fin (16 ^ 64)) (version fcuVersion : ℕ) :
    Contract readingTesting (tagging newHash) (fun s t => s.1 = t.1) acceptingLayer finalizingClient
      (forwarding true fun _ => fcuVersion) version where
  answer := by
    rintro q ⟨head, finalized⟩ ⟨head', finalized'⟩ - rfl
    cases q <;> exact ⟨rfl, rfl⟩
  request := fun _ _ _ _ _ => ⟨.started "0x01", rfl⟩
  sleep := fun _ _ _ _ _ hs => ⟨rfl, hs⟩
  getPayload := by
    intro payloadID s t hs
    refine ⟨.got _ _ ?_, hs⟩
    intro beacon
    refine ⟨.obj [("extraData", .str "buildoor/0x")], newHash,
      taggedBlock "buildoor/0x", rfl, rfl, ?_⟩
    intro field hfield
    have hextra : field ≠ "extra_data" := fun h => hfield (by simp [h])
    simp [taggedBlock, hextra]

/-! ## The two ways -/

end EestReplay.Simbuild
