import EestReplay.Verification.Build.Attributes
import EestReplay.Verification.Chain.Semantics
import Mathlib.Data.List.Forall2

/-! # The verdict of a replay

A result without an error stands for the whole chain, driven and acknowledged; one with an
error stands for the blocks before its failure. -/

namespace EestReplay.Runner

open Dialogue Simbuild

variable {σ H A V : Type} {peer : Peer σ (ChainReply (H := H) (A := A) (V := V))}
  {eest : ExecutionTesting H A V} {hash : FixedBytes H} {addr : FixedBytes A}

/-! ## Accounts -/

/-- The log was acknowledged in full, and shows exactly these imports, heads and builds. -/
structure Account (eest : ExecutionTesting H A V) (imports : List (NewPayloadParams H A V × ℕ))
    (heads : List H) (builts : List (ExecutionPayload H A V))
    (log : List (ChainExchange σ H A V)) : Prop where
  acknowledged : ∀ x ∈ log, Acknowledged x
  imports : imported log = imports
  heads : advanced log = heads
  builts : builtPayloads eest log = builts

theorem Account.concat {imports : List (NewPayloadParams H A V × ℕ)} {heads : List H}
    {builts : List (ExecutionPayload H A V)} {log : List (ChainExchange σ H A V)}
    {x : ChainExchange σ H A V} (h : Account eest imports heads builts log)
    (hx : Acknowledged x) :
    Account eest (imports ++ (importOf x).toList) (heads ++ (headOf x).toList)
      (builts ++ (builtOf eest x).toList) (log ++ [x]) where
  acknowledged := by
    intro y hy
    rcases List.mem_append.mp hy with hy | hy
    · exact h.acknowledged y hy
    · rw [List.mem_singleton.mp hy]
      exact hx
  imports := by
    rw [imported_append, h.imports]
    cases hq : importOf x <;> simp [imported, hq]
  heads := by
    rw [advanced_append, h.heads]
    cases hq : headOf x <;> simp [advanced, hq]
  builts := by
    rw [builtPayloads_append, h.builts]
    cases hq : builtOf eest x <;> simp [builtPayloads, hq]

/-- A call that neither imports, sets a head nor builds leaves the account as it is. -/
theorem Account.quiet {imports : List (NewPayloadParams H A V × ℕ)} {heads : List H}
    {builts : List (ExecutionPayload H A V)} {log : List (ChainExchange σ H A V)}
    {x : ChainExchange σ H A V} (h : Account eest imports heads builts log)
    (hx : Acknowledged x) (himport : importOf x = none) (hhead : headOf x = none)
    (hbuilt : builtOf eest x = none) :
    Account eest imports heads builts (log ++ [x]) := by
  have hconcat := h.concat hx
  rw [himport, hhead, hbuilt] at hconcat
  simpa using hconcat

/-- A build adds what it returned. -/
theorem Account.getPayload {imports : List (NewPayloadParams H A V × ℕ)} {heads : List H}
    {builts : List (ExecutionPayload H A V)} {log : List (ChainExchange σ H A V)} {s : σ}
    {payloadId : String} {version : ℕ} {built : ExecutionPayload H A V}
    (h : Account eest imports heads builts log) :
    Account eest imports heads (builts ++ [built])
      (log ++ [⟨s, .getPayload payloadId version, .ok built⟩]) := by
  have hconcat := h.concat (x := ⟨s, .getPayload payloadId version, .ok built⟩) trivial
  simpa [importOf, headOf, builtOf] using hconcat

theorem Account.build {imports : List (NewPayloadParams H A V × ℕ)} {heads : List H}
    {builts : List (ExecutionPayload H A V)} {log : List (ChainExchange σ H A V)} {s : σ}
    {baseUrl : String} {body parsed : Json} {built : ExecutionPayload H A V}
    (h : Account eest imports heads builts log) (hbuilt : parseBuilt eest parsed = .ok built) :
    Account eest imports heads (builts ++ [built])
      (log ++ [⟨s, .build baseUrl body, .ok (.ok parsed)⟩]) := by
  have hconcat := h.concat (x := ⟨s, .build baseUrl body, .ok (.ok parsed)⟩) trivial
  simpa [importOf, headOf, builtOf, hbuilt, Except.toOption] using hconcat

theorem Account.newPayload {imports : List (NewPayloadParams H A V × ℕ)} {heads : List H}
    {builts : List (ExecutionPayload H A V)} {log : List (ChainExchange σ H A V)} {s : σ}
    {params : NewPayloadParams H A V} {version : ℕ} {status : PayloadStatus}
    (h : Account eest imports heads builts log) (hvalid : status = .valid) :
    Account eest (imports ++ [(params, version)]) heads builts
      (log ++ [⟨s, .newPayload params version, .ok status⟩]) := by
  have hconcat := h.concat (x := ⟨s, .newPayload params version, .ok status⟩) hvalid
  simpa [importOf, headOf, builtOf] using hconcat

theorem Account.forkchoice {imports : List (NewPayloadParams H A V × ℕ)} {heads : List H}
    {builts : List (ExecutionPayload H A V)} {log : List (ChainExchange σ H A V)} {s : σ}
    {head : H} {version : ℕ} {reply : ForkchoiceReply}
    (h : Account eest imports heads builts log) (hvalid : reply.status = .valid) :
    Account eest imports (heads ++ [head]) builts
      (log ++ [⟨s, .forkchoiceUpdated head none version, .ok reply⟩]) := by
  have hconcat := h.concat (x := ⟨s, .forkchoiceUpdated head none version, .ok reply⟩) hvalid
  simpa [importOf, headOf, builtOf] using hconcat

/-- A fork choice that asks for a build sets no new head. -/
theorem Account.buildForkchoice {imports : List (NewPayloadParams H A V × ℕ)} {heads : List H}
    {builts : List (ExecutionPayload H A V)} {log : List (ChainExchange σ H A V)} {s : σ}
    {head : H} {attrs : PayloadAttributes H A} {version : ℕ} {reply : ForkchoiceReply}
    (h : Account eest imports heads builts log) (hvalid : reply.status = .valid) :
    Account eest imports heads builts
      (log ++ [⟨s, .forkchoiceUpdated head (some attrs) version, .ok reply⟩]) :=
  h.quiet (x := ⟨s, .forkchoiceUpdated head (some attrs) version, .ok reply⟩) hvalid rfl rfl rfl

/-! ## Failures -/

/-- The call at which the run ended on a payload, with the error it reports, and whether
the payload had been compared before. -/
inductive FailsOn (eest : ExecutionTesting H A V) (idx : ℕ) (payload : EngineNewPayload H A V) :
    ChainExchange σ H A V → String → Bool → Prop
  | fcu {s : σ} {version : ℕ} {reply : ForkchoiceReply} (h : reply.status ≠ .valid) :
      FailsOn eest idx payload
        ⟨s, .forkchoiceUpdated payload.expected.parentHash (some (payloadAttributes payload)) version,
          .ok reply⟩
        ("fcu (block " ++ toString idx ++ ") not VALID: " ++ eest.str reply.status) false
  | payloadId {s : σ} {version : ℕ} {reply : ForkchoiceReply} (hvalid : reply.status = .valid)
      (h : reply.payloadId = none) :
      FailsOn eest idx payload
        ⟨s, .forkchoiceUpdated payload.expected.parentHash (some (payloadAttributes payload)) version,
          .ok reply⟩
        ("fcu (block " ++ toString idx ++ ") returned no payloadId") false
  | newPayload {s : σ} {status : PayloadStatus} (h : status ≠ .valid) :
      FailsOn eest idx payload
        ⟨s, .newPayload payload.params payload.newPayloadVersion, .ok status⟩
        ("newPayload (block " ++ toString idx ++ ") not VALID: " ++ eest.str status) true
  | advance {s : σ} {version : ℕ} {reply : ForkchoiceReply} (h : reply.status ≠ .valid) :
      FailsOn eest idx payload
        ⟨s, .forkchoiceUpdated payload.expected.blockHash none version, .ok reply⟩
        ("fcu advance (block " ++ toString idx ++ ") not VALID: " ++ eest.str reply.status) true

theorem FailsOn.builtOf {idx : ℕ} {payload : EngineNewPayload H A V} {x : ChainExchange σ H A V}
    {err : String} {after : Bool} (h : FailsOn eest idx payload x err after) :
    builtOf eest x = none := by
  cases h <;> rfl

/-- What failed was not acknowledged, or the payload has not been imported. -/
theorem FailsOn.not_acknowledged {idx : ℕ} {payload : EngineNewPayload H A V}
    {x : ChainExchange σ H A V} {err : String} {after : Bool}
    (h : FailsOn eest idx payload x err after) :
    ¬ Acknowledged x ∨ after = false ∧ importOf x = none := by
  cases h with
  | fcu h => exact .inl h
  | payloadId hvalid h => exact .inr ⟨rfl, rfl⟩
  | newPayload h => exact .inl h
  | advance h => exact .inl h

/-- The run ended on a payload, and everything before its last call was acknowledged. -/
def EndsOn (eest : ExecutionTesting H A V) (idx : ℕ) (payload : EngineNewPayload H A V)
    (imports : List (NewPayloadParams H A V × ℕ)) (heads : List H)
    (builts : List (ExecutionPayload H A V)) (err : String) (after : Bool)
    (log : List (ChainExchange σ H A V)) : Prop :=
  ∃ past x, log = past ++ [x] ∧ Account eest imports heads builts past ∧
    FailsOn eest idx payload x err after

/-! ## The parts of a block -/

section Parts

variable {imports : List (NewPayloadParams H A V × ℕ)} {heads : List H}
  {builts : List (ExecutionPayload H A V)} {drive : Drive} {idx : ℕ}
  {payload : EngineNewPayload H A V}

theorem submitMempool_account (raws : List String) :
    Triple (fun w => Account eest imports heads builts w.log) (submitMempool peer raws)
      (fun _ w => Account eest imports heads builts w.log) (fun _ _ => True) := by
  induction raws with
  | nil => exact Triple.pure fun _ hw => hw
  | cons raw raws ih =>
      apply Triple.bind (S := fun _ w => Account eest imports heads builts w.log)
      · apply Triple.call
        · exact fun w a hw _ => hw.quiet trivial rfl rfl rfl
        · exact fun _ _ _ _ => trivial
      · exact fun _ => ih

theorem requestBuild_account (baseUrl parentHash : String) :
    Triple (fun w => Account eest imports heads builts w.log)
      (requestBuild peer eest hash addr baseUrl parentHash payload)
      (fun built w => Account eest imports heads (builts ++ [built]) w.log)
      (fun _ _ => True) := by
  unfold requestBuild
  apply Triple.bind (Triple.call_last (P := Account eest imports heads builts))
  intro reply
  cases reply with
  | httpError code detail => exact Triple.throw fun _ _ => trivial
  | ok parsed =>
      let body := Buildoor.requestBody hash addr parentHash payload
      apply Triple.bind (S := fun executionPayload w =>
        parsed.item "execution_payload" = .ok executionPayload ∧ ∃ past s,
          w.log = past ++ [⟨s, .build baseUrl body, .ok (.ok parsed)⟩] ∧
          Account eest imports heads builts past)
      · exact Triple.lift (fun _ _ hitem hw => ⟨hitem, hw⟩) fun _ _ _ _ => trivial
      · intro executionPayload
        apply Triple.lift
        · rintro built w hvalidate ⟨hitem, past, s, hlog, haccount⟩
          have hparsed : parseBuilt eest parsed = .ok built := by
            unfold parseBuilt
            rw [hitem]
            exact hvalidate
          rw [hlog]
          exact haccount.build hparsed
        · exact fun _ _ _ _ => trivial

/-- A build adds one built payload to the account, or ends the run before the comparison. -/
theorem buildBlock_account :
    Triple (fun w => Account eest imports heads builts w.log)
      (buildBlock peer eest hash addr drive idx payload)
      (fun build w =>
        match build with
        | .ok built => Account eest imports heads (builts ++ [built]) w.log
        | .error err => EndsOn eest idx payload imports heads builts err false w.log)
      (fun _ _ => True) := by
  unfold buildBlock
  cases drive.buildoorBaseUrl with
  | some baseUrl =>
      apply Triple.bind (requestBuild_account _ _)
      exact fun built => Triple.pure fun _ hw => hw
  | none =>
      apply Triple.bind (Triple.call_last (P := Account eest imports heads builts))
      intro reply
      split
      · rename_i hstatus
        apply Triple.pure
        rintro w ⟨past, s, hlog, haccount⟩
        exact ⟨past, _, hlog, haccount, .fcu hstatus⟩
      · rename_i hstatus
        have hvalid : ForkchoiceReply.status reply = .valid := not_not.mp hstatus
        split
        · rename_i hid
          apply Triple.pure
          rintro w ⟨past, s, hlog, haccount⟩
          exact ⟨past, _, hlog, haccount, .payloadId hvalid hid⟩
        · rename_i payloadId hid
          apply Triple.bind (S := fun _ w => Account eest imports heads builts w.log)
          · apply Triple.call
            · rintro w a ⟨past, s, hlog, haccount⟩ -
              rw [World.step_log, hlog]
              exact (haccount.buildForkchoice hvalid).quiet trivial rfl rfl rfl
            · exact fun _ _ _ _ => trivial
          · intro _
            apply Triple.bind (Triple.call_last (P := Account eest imports heads builts))
            intro (built : ExecutionPayload H A V)
            apply Triple.pure
            rintro w ⟨past, s, hlog, haccount⟩
            show Account eest imports heads (builts ++ [built]) w.log
            rw [hlog]
            exact haccount.getPayload

/-- The advance imports the expected block and sets the head to it, or ends the run after
the comparison. -/
theorem advance_account :
    Triple (fun w => Account eest imports heads builts w.log) (advance peer eest idx payload)
      (fun failed w =>
        match failed with
        | none => Account eest (imports ++ [importCall payload])
            (heads ++ [payload.expected.blockHash]) builts w.log
        | some err => ∃ imports', EndsOn eest idx payload imports' heads builts err true w.log)
      (fun _ _ => True) := by
  unfold advance
  apply Triple.bind (Triple.call_last (P := Account eest imports heads builts))
  intro status
  split
  · rename_i hstatus
    apply Triple.pure
    rintro w ⟨past, s, hlog, haccount⟩
    exact ⟨imports, past, _, hlog, haccount, .newPayload hstatus⟩
  · rename_i hstatus
    have hvalid : status = PayloadStatus.valid := not_not.mp hstatus
    apply Triple.bind (S := fun reply w => ∃ past s, w.log = past ++
      [⟨s, .forkchoiceUpdated payload.expected.blockHash none payload.forkchoiceUpdatedVersion,
        .ok reply⟩] ∧ Account eest (imports ++ [importCall payload]) heads builts past)
    · apply Triple.call
      · rintro w reply ⟨past, s, hlog, haccount⟩ hreply
        refine ⟨w.log, w.state, by rw [World.step_log, hreply], ?_⟩
        rw [hlog]
        exact haccount.newPayload hvalid
      · exact fun _ _ _ _ => trivial
    · intro reply
      split
      · rename_i hreply
        apply Triple.pure
        rintro w ⟨past, s, hlog, haccount⟩
        exact ⟨_, past, _, hlog, haccount, .advance hreply⟩
      · rename_i hreply
        apply Triple.pure
        rintro w ⟨past, s, hlog, haccount⟩
        show Account eest (imports ++ [importCall payload])
          (heads ++ [payload.expected.blockHash]) builts w.log
        rw [hlog]
        exact haccount.forkchoice (not_not.mp hreply)

end Parts

/-! ## Entries -/

/-- The entry of a payload for which `built` was built. -/
structure Entry (eest : ExecutionTesting H A V)
    (pair : EngineNewPayload H A V × ExecutionPayload H A V) (block : BlockResult) : Prop where
  number : block.blockNumber = pair.1.expected.number
  matched : block.matched = true ↔ Agrees eest pair.2 pair.1.expected

/-- One entry for each payload, in order, against what was built for it. -/
structure Entries (eest : ExecutionTesting H A V) (payloads : List (EngineNewPayload H A V))
    (builts : List (ExecutionPayload H A V)) (blocks : List BlockResult) : Prop where
  length : builts.length = payloads.length
  entries : List.Forall₂ (Entry eest) (payloads.zip builts) blocks

theorem Entries.concat [DecidableEq V] {payloads : List (EngineNewPayload H A V)}
    {builts : List (ExecutionPayload H A V)} {blocks : List BlockResult}
    (h : Entries eest payloads builts blocks) (payload : EngineNewPayload H A V)
    (built : ExecutionPayload H A V) :
    Entries eest (payloads ++ [payload]) (builts ++ [built])
      (blocks ++ [blockResult eest built payload.expected]) where
  length := by
    simp [h.length]
  entries := by
    rw [List.zip_append h.length.symm]
    apply List.rel_append h.entries
    exact .cons ⟨rfl, blockResult_matched⟩ .nil

/-- All entries matched exactly when every compared block agreed. -/
theorem Entries.all_matched {payloads : List (EngineNewPayload H A V)}
    {builts : List (ExecutionPayload H A V)} {blocks : List BlockResult}
    (h : Entries eest payloads builts blocks) :
    blocks.all BlockResult.matched = true ↔
      ∀ pair ∈ payloads.zip builts, Agrees eest pair.2 pair.1.expected := by
  have hentries := h.entries
  clear h
  generalize payloads.zip builts = pairs at hentries
  induction hentries with
  | nil => simp
  | cons hentry _ ih =>
      rw [List.all_cons, Bool.and_eq_true, List.forall_mem_cons]
      exact and_congr hentry.matched ih

/-! ## The run -/

/-- How a run that returned has ended. -/
inductive Outcome (eest : ExecutionTesting H A V) (fixture : EngineFixture H A V)
    (log : List (ChainExchange σ H A V)) : List BlockResult → Option String → Prop
  | completed {builts : List (ExecutionPayload H A V)} {blocks : List BlockResult}
      (account : Account eest ((validPayloads fixture.payloads).map importCall)
        (fixture.genesisHash :: (validPayloads fixture.payloads).map (·.expected.blockHash))
        builts log)
      (entries : Entries eest (validPayloads fixture.payloads) builts blocks) :
      Outcome eest fixture log blocks none
  | failed {pre post : List (EngineNewPayload H A V)} {payload : EngineNewPayload H A V}
      {imports : List (NewPayloadParams H A V × ℕ)} {heads : List H}
      {builts : List (ExecutionPayload H A V)} {blocks : List BlockResult} {err : String}
      {after : Bool} (split : fixture.payloads = pre ++ payload :: post)
      (valid : payload.valid = true)
      (ends : EndsOn eest pre.length payload imports heads builts err after log)
      (imports_eq : after = false → imports = (validPayloads pre).map importCall)
      (entries : Entries eest (validPayloads pre ++ if after then [payload] else []) builts
        blocks) :
      Outcome eest fixture log blocks (some err)
  | bootstrap {s : σ} {version : ℕ} {reply : ForkchoiceReply} (h : reply.status ≠ .valid)
      (hlog : log = [⟨s, .forkchoiceUpdated fixture.genesisHash none version, .ok reply⟩]) :
      Outcome eest fixture log []
        (some ("bootstrap forkchoiceUpdated not VALID: " ++ eest.str reply.status))

/-- The payloads `pre` are behind the loop: their account, and their entries. -/
def Progress (eest : ExecutionTesting H A V) (fixture : EngineFixture H A V)
    (pre : List (EngineNewPayload H A V)) (blocks : List BlockResult)
    (w : ChainWorld σ H A V) : Prop :=
  ∃ builts, Entries eest (validPayloads pre) builts blocks ∧
    Account eest ((validPayloads pre).map importCall)
      (fixture.genesisHash :: (validPayloads pre).map (·.expected.blockHash)) builts w.log

/-- The body of the loop goes on behind its payload, or has ended on it. -/
theorem driveBlock_outcome [DecidableEq V] {fixture : EngineFixture H A V} {drive : Drive}
    {pre post : List (EngineNewPayload H A V)} {payload : EngineNewPayload H A V}
    {blocks : List BlockResult} (hsplit : fixture.payloads = pre ++ payload :: post)
    (hvalid : payload.valid = true) :
    Triple (Progress eest fixture pre blocks)
      (driveBlock peer eest hash addr drive pre.length payload blocks)
      (Ends (fun r w => Outcome eest fixture w.log r.blocks r.error)
        (Progress eest fixture (pre ++ [payload])))
      (fun _ _ => True) := by
  suffices h : ∀ builts, Entries eest (validPayloads pre) builts blocks →
      Triple
        (fun w => Account eest ((validPayloads pre).map importCall)
          (fixture.genesisHash :: (validPayloads pre).map (·.expected.blockHash)) builts w.log)
        (driveBlock peer eest hash addr drive pre.length payload blocks)
        (Ends (fun r w => Outcome eest fixture w.log r.blocks r.error)
          (Progress eest fixture (pre ++ [payload])))
        (fun _ _ => True) by
    rintro w ⟨builts, hentries, haccount⟩
    exact h builts hentries w haccount
  intro builts hentries
  have htake := validPayloads_concat_of_valid hvalid pre
  unfold driveBlock
  apply Triple.bind (submitMempool_account _)
  intro _
  apply Triple.bind buildBlock_account
  intro build
  cases build with
  | error err =>
      apply Triple.pure
      intro w hends
      exact .failed hsplit hvalid hends (fun _ => rfl) (by simpa using hentries)
  | ok built =>
      have hmore := hentries.concat payload built
      apply Triple.bind advance_account
      intro failed
      cases failed with
      | some err =>
          apply Triple.pure
          rintro w ⟨imports, hends⟩
          exact .failed hsplit hvalid hends (by simp) hmore
      | none =>
          apply Triple.pure
          intro w haccount
          refine ⟨builts ++ [built], ?_, ?_⟩
          · rw [htake]
            exact hmore
          · rw [htake, List.map_append, List.map_append]
            exact haccount

theorem driveChain_outcome [DecidableEq V] {fixture : EngineFixture H A V} {drive : Drive} :
    Triple (fun w => w.log = []) (driveChain peer eest hash addr drive fixture)
      (fun r w => Outcome eest fixture w.log r.blocks r.error) (fun _ _ => True) := by
  unfold driveChain
  split
  · exact Triple.throw fun _ _ => trivial
  · rename_i first rest hpayloads
    apply Triple.bind (Triple.call_last (P := fun log => log = []))
    intro reply
    split
    · rename_i hstatus
      apply Triple.pure
      rintro w ⟨past, s, hlog, rfl⟩
      exact .bootstrap hstatus hlog
    · rename_i hstatus
      have hloop : Triple (Progress eest fixture [] [])
          (driveFrom peer eest hash addr drive 0 fixture.payloads [])
          (fun r w => Outcome eest fixture w.log r.blocks r.error) (fun _ _ => True) := by
        apply driveFrom_rule (I := Progress eest fixture) ?_ ?_ ?_ fixture.payloads [] [] rfl
        · rintro blocks w ⟨builts, hentries, haccount⟩
          exact .completed haccount hentries
        · intro pre payload post blocks w _ hvalid hprogress
          unfold Progress
          rw [validPayloads_concat_of_not_valid hvalid]
          exact hprogress
        · exact fun pre payload post blocks => driveBlock_outcome
      apply hloop.pre
      rintro w ⟨past, s, hlog, rfl⟩
      have hempty : Account eest [] ([] : List H) [] ([] : List (ChainExchange σ H A V)) :=
        ⟨by simp, rfl, rfl, rfl⟩
      refine ⟨[], ⟨rfl, .nil⟩, ?_⟩
      rw [hlog]
      exact hempty.forkchoice (not_not.mp hstatus)

/-- The whole chain was driven: every valid payload was imported in order, the head was set
to each block from the genesis on, and all of it was acknowledged. -/
structure Driven (fixture : EngineFixture H A V) (log : List (ChainExchange σ H A V)) : Prop where
  imports : imported log = (validPayloads fixture.payloads).map importCall
  heads : advanced log =
    fixture.genesisHash :: (validPayloads fixture.payloads).map (·.expected.blockHash)
  acknowledged : ∀ x ∈ log, Acknowledged x

theorem EndsOn.builtPayloads {idx : ℕ} {payload : EngineNewPayload H A V}
    {imports : List (NewPayloadParams H A V × ℕ)} {heads : List H}
    {builts : List (ExecutionPayload H A V)} {err : String} {after : Bool}
    {log : List (ChainExchange σ H A V)}
    (h : EndsOn eest idx payload imports heads builts err after log) :
    builtPayloads eest log = builts := by
  obtain ⟨past, x, rfl, haccount, hfails⟩ := h
  rw [builtPayloads_append, haccount.builts]
  simp [Runner.builtPayloads, hfails.builtOf]

/-- A run that failed on a payload did not drive the whole chain. -/
theorem EndsOn.not_driven {fixture : EngineFixture H A V} {pre post : List (EngineNewPayload H A V)}
    {payload : EngineNewPayload H A V} {imports : List (NewPayloadParams H A V × ℕ)}
    {heads : List H} {builts : List (ExecutionPayload H A V)} {err : String} {after : Bool}
    {log : List (ChainExchange σ H A V)} (hsplit : fixture.payloads = pre ++ payload :: post)
    (hvalid : payload.valid = true)
    (h : EndsOn eest pre.length payload imports heads builts err after log)
    (himports : after = false → imports = (validPayloads pre).map importCall) :
    ¬ Driven fixture log := by
  intro hdriven
  obtain ⟨past, x, rfl, haccount, hfails⟩ := h
  cases hfails.not_acknowledged with
  | inl hnot => exact hnot (hdriven.acknowledged x (by simp))
  | inr hnone =>
      obtain ⟨hbefore, himport⟩ := hnone
      have hall := congrArg List.length hdriven.imports
      have hpast : (imported past).length = (validPayloads pre).length := by
        rw [haccount.imports, himports hbefore, List.length_map]
      have hlast : imported [x] = [] := by simp [imported, himport]
      rw [imported_append, hlast, hsplit, validPayloads_append,
        validPayloads_cons_of_valid hvalid] at hall
      simp only [List.append_nil, List.length_map, List.length_append, List.length_cons] at hall
      omega

/-- The verdict is faithful. Without an error the run compared every valid payload and was
acknowledged throughout. With one it compared the payloads before the failure, and the
failing one when it failed behind its comparison. It passes exactly when the whole chain
was driven and every compared block agreed. -/
theorem driveChain_verdict [DecidableEq V] {fixture : EngineFixture H A V} {drive : Drive} {s : σ}
    {r : FixtureResult} {w : ChainWorld σ H A V}
    (hrun : driveChain peer eest hash addr drive fixture ⟨s, []⟩ = (.ok r, w)) :
    (r.error = none →
      Entries eest (validPayloads fixture.payloads) (builtPayloads eest w.log) r.blocks ∧
        ∀ x ∈ w.log, Acknowledged x) ∧
    (∀ err, r.error = some err →
      (r.blocks = [] ∧ ∃ s version reply, ForkchoiceReply.status reply ≠ .valid ∧
        err = "bootstrap forkchoiceUpdated not VALID: " ++ eest.str reply.status ∧
        w.log = [⟨s, .forkchoiceUpdated fixture.genesisHash none version, .ok reply⟩]) ∨
      ∃ pre payload post after past x, fixture.payloads = pre ++ payload :: post ∧
        payload.valid = true ∧ w.log = past ++ [x] ∧ (∀ y ∈ past, Acknowledged y) ∧
        FailsOn eest pre.length payload x err after ∧
        Entries eest (validPayloads pre ++ if after then [payload] else [])
          (builtPayloads eest w.log) r.blocks) ∧
    (r.passed = true ↔ Driven fixture w.log ∧
      ∀ pair ∈ (validPayloads fixture.payloads).zip (builtPayloads eest w.log),
        Agrees eest pair.2 pair.1.expected) := by
  have hchain : Triple (fun w => w.log = []) (driveChain peer eest hash addr drive fixture)
      (fun r w => Outcome eest fixture w.log r.blocks r.error) (fun _ _ => True) :=
    driveChain_outcome
  have houtcome := (hchain ⟨s, []⟩ rfl).1 r w hrun
  obtain ⟨testId, blocks, error⟩ := r
  unfold FixtureResult.passed
  dsimp only at houtcome ⊢
  cases houtcome with
  | @completed builts _ haccount hentries =>
      have hentries' : Entries eest (validPayloads fixture.payloads) (builtPayloads eest w.log)
          blocks := by
        rw [haccount.builts]
        exact hentries
      have hdriven : Driven fixture w.log :=
        ⟨haccount.imports, haccount.heads, haccount.acknowledged⟩
      refine ⟨fun _ => ⟨hentries', haccount.acknowledged⟩, fun err herr => by simp at herr, ?_⟩
      rw [← hentries'.all_matched]
      simp [hdriven]
  | @failed pre post payload imports heads builts _ err after hsplit hvalid hends himports hentries =>
      have hnot := hends.not_driven hsplit hvalid himports
      rw [← hends.builtPayloads] at hentries
      refine ⟨fun herr => by simp at herr, ?_, by simp [hnot]⟩
      intro err' herr
      obtain rfl := Option.some.inj herr
      obtain ⟨past, x, hlog, haccount, hfails⟩ := hends
      exact .inr ⟨pre, payload, post, after, past, x, hsplit, hvalid, hlog,
        haccount.acknowledged, hfails, hentries⟩
  | @bootstrap s' version reply hstatus hlog =>
      have hnot : ¬ Driven fixture w.log := by
        intro hdriven
        rw [hlog] at hdriven
        exact hstatus (hdriven.acknowledged _ (List.mem_singleton_self _))
      refine ⟨fun herr => by simp at herr, ?_, by simp [hnot]⟩
      intro err herr
      obtain rfl := Option.some.inj herr
      exact .inl ⟨rfl, s', version, reply, hstatus, rfl, hlog⟩

/-- A block whose hash is its number. -/
def block (parent number : ℕ) : ExecutionPayload (Fin (16 ^ 64)) (Fin (16 ^ 40)) ℕ where
  parentHash := Fin.ofNat _ parent
  feeRecipient := Fin.ofNat _ 0
  number := number
  timestamp := 12 * number
  prevRandao := Fin.ofNat _ 0
  blockHash := Fin.ofNat _ number
  transactions := ["0x01"]
  withdrawals := some []
  slotNumber := none
  getattr _ := 0

/-- Two linked blocks with an invalid one between them. -/
def shortChain : EngineFixture (Fin (16 ^ 64)) (Fin (16 ^ 40)) ℕ where
  genesisHash := Fin.ofNat _ 0
  payloads :=
    [⟨.v3 (block 0 1) [] (Fin.ofNat _ 0), 3, 3, true⟩, ⟨.v1 (block 1 9), 1, 3, false⟩,
      ⟨.v3 (block 1 2) [] (Fin.ofNat _ 0), 3, 3, true⟩]

/-- An EL that accepts everything. Its state is its head. -/
def obliging : Peer (Fin (16 ^ 64)) (ChainReply (H := Fin (16 ^ 64)) (A := Fin (16 ^ 40)) (V := ℕ)) where
  answer head
    | .sendRawTransaction raw => (.ok raw, head)
    | .forkchoiceUpdated next _ _ => (.ok ⟨.valid, some "0x01"⟩, next)
    | .getPayload _ _ => (.ok (block 0 1), head)
    | .newPayload _ _ => (.ok PayloadStatus.valid, head)
    | .build _ _ => (.error ⟨.osError, "unavailable"⟩, head)
    | .sleep _ => (.ok (), head)

def plainTesting : ExecutionTesting (Fin (16 ^ 64)) (Fin (16 ^ 40)) ℕ where
  modelFields := ["state_root", "gas_limit"]
  modelValidate _ := .error ⟨.valueError, "validation error"⟩
  repr _ := ""
  str _ := ""

def direct : Drive where
  testId := "short_chain"
  getPayloadVersion := 3

theorem driveChain_verdict_shortChain :
    ∃ r w, driveChain obliging plainTesting (fullWidth 64) (fullWidth 40) direct shortChain
        ⟨shortChain.genesisHash, []⟩ = (.ok r, w) ∧
      (r.passed = true ↔ Driven shortChain w.log ∧
        ∀ pair ∈ (validPayloads shortChain.payloads).zip (builtPayloads plainTesting w.log),
          Agrees plainTesting pair.2 pair.1.expected) := by
  have hrun : driveChain obliging plainTesting (fullWidth 64) (fullWidth 40) direct shortChain
      ⟨shortChain.genesisHash, []⟩ = (.ok _, _) := rfl
  exact ⟨_, _, hrun, (driveChain_verdict hrun).2.2⟩

end EestReplay.Runner
