import EestReplay.Model.Replay
import EestReplay.Verification.Chain.Faults

/-! # What a failed replay leaves

From its first call of the drive on, a replay raises exactly when a call is faulty. The
entry of a failed fixture keeps its blocks and its fork when it returns, and only then. -/

namespace EestReplay.Runner

open Dialogue

variable {σ H A V : Type} {peer : Peer σ (RunReply (H := H) (A := A) (V := V))}
  {eest : ExecutionTesting H A V} {hash : FixedBytes H} {addr : FixedBytes A}
  {printing : Printing} {fixture : BlockchainEngineFixture H A V}

/-! ## The log of a machine -/

abbrev RunExchange (σ H A V : Type) : Type := Exchange σ (RunReply (H := H) (A := A) (V := V))

/-- The call of the drive that an exchange is. -/
def driveOf (x : RunExchange σ H A V) : Option (ChainExchange σ H A V) :=
  match x with
  | ⟨s, .drive q, r⟩ => some ⟨s, q, r⟩
  | _ => none

def isDrive (x : RunExchange σ H A V) : Bool := (driveOf x).isSome

def drives (log : List (RunExchange σ H A V)) : List (ChainExchange σ H A V) :=
  log.filterMap driveOf

/-- A call that raises where the replay does not handle it. -/
def MachineFaulty (eest : ExecutionTesting H A V) (x : RunExchange σ H A V) : Prop :=
  match x with
  | ⟨s, .drive q, r⟩ => Faulty eest ⟨s, q, r⟩
  | ⟨_, .wait _ _, .error exc⟩ => exc.kind ≠ .timeoutExpired
  | ⟨_, _, .error _⟩ => True
  | _ => False

/-- A call outside the drive. -/
def Outside (q : RunCall H A V) : Prop := ∀ c, q ≠ .drive c

/-- A call outside the drive that makes no directory. -/
def Serving (q : RunCall H A V) : Prop := Outside q ∧ ∀ path, q ≠ .mkdir path

theorem not_isDrive {x : RunExchange σ H A V} (h : Outside x.query) : isDrive x = false := by
  obtain ⟨s, q, r⟩ := x
  cases q with
  | drive c => exact absurd rfl (h c)
  | _ => rfl

@[simp] theorem driveOf_embed (y : ChainExchange σ H A V) :
    driveOf (Exchange.embed RunCall.drive y : RunExchange σ H A V) = some y := rfl

@[simp] theorem drives_embed (log : List (ChainExchange σ H A V)) :
    drives (log.map (Exchange.embed RunCall.drive) : List (RunExchange σ H A V)) = log := by
  induction log with
  | nil => rfl
  | cons y ys ih => exact congrArg (y :: ·) ih

theorem drives_filter (log : List (RunExchange σ H A V)) :
    drives (log.filter isDrive) = drives log := by
  induction log with
  | nil => rfl
  | cons x xs ih =>
      unfold drives at ih ⊢
      cases hx : driveOf x with
      | none => simp [isDrive, hx, ih]
      | some y => simp [isDrive, hx, ih]

/-! ## The calls outside the drive -/

section Outside

theorem asks_pollUntil (url : String) (body : Option Json) (deadline : ℚ) (message : String)
    (fuel : ℕ) (lastErr : String) :
    Asks peer Serving (pollUntil peer url body deadline message fuel lastErr) := by
  induction fuel generalizing lastErr with
  | zero => exact Asks.throw _
  | succ fuel ih =>
      unfold pollUntil
      apply Asks.bind (Asks.call (by simp [Serving, Outside]))
      intro now
      split
      · apply Asks.bind (Asks.ask (by simp [Serving, Outside]))
        intro answer
        split
        · split
          · exact Asks.pure _
          · exact ih _
        · split
          · exact Asks.bind (Asks.call (by simp [Serving, Outside])) fun _ => ih _
          · exact Asks.throw _
      · exact Asks.throw _

theorem asks_waitForRpc (rpcUrl : String) (fuel : ℕ) :
    Asks peer Serving (El.waitForRpc peer rpcUrl fuel) :=
  Asks.bind (Asks.call (by simp [Serving, Outside])) fun _ => asks_pollUntil _ _ _ _ _ _

theorem asks_waitForHealth (baseUrl : String) (fuel : ℕ) :
    Asks peer Serving (Buildoor.waitForHealth peer baseUrl fuel) :=
  Asks.bind (Asks.call (by simp [Serving, Outside])) fun _ => asks_pollUntil _ _ _ _ _ _

theorem asks_start (genesis : Json) (workDir : Path) :
    Asks peer Outside (El.start peer genesis workDir) := by
  unfold El.start
  refine Asks.bind (Asks.call (by simp [Outside])) fun _ => ?_
  refine Asks.bind (Asks.call (by simp [Outside])) fun _ => ?_
  refine Asks.bind (Asks.call (by simp [Outside])) fun secret => ?_
  refine Asks.bind (Asks.call (by simp [Outside])) fun _ => ?_
  refine Asks.bind (Asks.call (by simp [Outside])) fun _ => ?_
  refine Asks.bind (Asks.call (by simp [Outside])) fun _ => ?_
  refine Asks.bind (Asks.call (by simp [Outside])) fun rpcPort => ?_
  refine Asks.bind (Asks.call (by simp [Outside])) fun authPort => ?_
  refine Asks.bind (Asks.call (by simp [Outside])) fun suffix => ?_
  refine Asks.bind (Asks.call (by simp [Outside])) fun _ => ?_
  refine Asks.bind (Asks.call (by simp [Outside])) fun _ => ?_
  refine Asks.bind (Asks.call (by simp [Outside])) fun process => ?_
  exact Asks.pure _

theorem asks_startBuilder (binary : Path) (elEngineUrl : String) (jwtSecretPath workDir : Path)
    (buildWaitMs : ℤ) :
    Asks peer Serving
      (Buildoor.start peer binary elEngineUrl jwtSecretPath workDir buildWaitMs) := by
  unfold Buildoor.start
  refine Asks.bind (Asks.call (by simp [Serving, Outside])) fun port => ?_
  refine Asks.bind (Asks.call (by simp [Serving, Outside])) fun _ => ?_
  refine Asks.bind (Asks.call (by simp [Serving, Outside])) fun process => ?_
  exact Asks.pure _

theorem asks_waitOrKill (process timeout : ℕ) :
    Asks peer Serving (waitOrKill peer process timeout) := by
  apply Asks.bind (Asks.ask (by simp [Serving, Outside]))
  intro waited
  split
  · exact Asks.pure _
  · split
    · exact Asks.call (by simp [Serving, Outside])
    · exact Asks.throw _

theorem asks_stop (name : String) (process : ℕ) : Asks peer Serving (El.stop peer name process) :=
  Asks.bind (Asks.call (by simp [Serving, Outside])) fun _ => asks_waitOrKill _ _

theorem asks_stopBuilder (workDir : Path) (process : ℕ) :
    Asks peer Serving (Buildoor.stop peer workDir process) :=
  Asks.bind (Asks.call (by simp [Serving, Outside])) fun _ =>
    Asks.bind (asks_waitOrKill _ _) fun _ => Asks.call (by simp [Serving, Outside])

theorem asks_finish (forkName : String) (startedAt : ℚ) (result : FixtureResult) :
    Asks peer Serving (finish peer printing forkName startedAt result) :=
  Asks.bind (Asks.call (by simp [Serving, Outside])) fun _ => Asks.pure _

theorem asks_readJwt (path : Path) : Asks peer Serving (readJwt peer path) :=
  Asks.bind (Asks.call (by simp [Serving, Outside])) fun _ => Asks.lift _

end Outside

/-! ## The calls behind the drive -/

/-- Time out or not, a wait raises nothing else that it handles. -/
theorem waitOrKill_blames (process timeout : ℕ) :
    Blames (MachineFaulty eest) (waitOrKill peer process timeout) := by
  apply Blames.ask_bind
  · intro s waited hfault
    cases waited with
    | ok _ => exact absurd hfault id
    | error exc => exact ⟨exc, if_neg hfault⟩
  · intro s waited hfine
    cases waited with
    | ok _ => exact Blames.pure ()
    | error exc =>
        have htimeout : exc.kind = .timeoutExpired := not_not.mp hfine
        dsimp only
        rw [if_pos htimeout]
        exact Blames.call fun s r => by cases r <;> simp [MachineFaulty]

theorem stop_blames (name : String) (process : ℕ) :
    Blames (MachineFaulty eest) (El.stop peer name process) := by
  apply Blames.bind
  · exact Blames.call fun s r => by cases r <;> simp [MachineFaulty]
  · exact fun _ => waitOrKill_blames _ _

theorem stopBuilder_blames (workDir : Path) (process : ℕ) :
    Blames (MachineFaulty eest) (Buildoor.stop peer workDir process) := by
  apply Blames.bind
  · exact Blames.call fun s r => by cases r <;> simp [MachineFaulty]
  · intro _
    apply Blames.bind (waitOrKill_blames _ _)
    exact fun _ => Blames.call fun s r => by cases r <;> simp [MachineFaulty]

theorem finish_blames (forkName : String) (startedAt : ℚ) (result : FixtureResult) :
    Blames (MachineFaulty eest) (finish peer printing forkName startedAt result) := by
  apply Blames.bind
  · exact Blames.call fun s r => by cases r <;> simp [MachineFaulty]
  · exact fun _ => Blames.pure _

/-! ## Contexts -/

variable {S : FixtureResult → List (RunExchange σ H A V) → Prop}

theorem simbuild_blamesFrom (binary : Path) (elEngineUrl : String) (jwtSecretPath workDir : Path)
    (buildWaitMs : ℤ) (fuel : ℕ) {body : String → Running σ H A V FixtureResult}
    (hbody : ∀ base, BlamesFrom isDrive (MachineFaulty eest) S (body base)) :
    BlamesFrom isDrive (MachineFaulty eest) S
      (Buildoor.simbuild peer binary elEngineUrl jwtSecretPath workDir buildWaitMs fuel body) := by
  apply BlamesFrom.asks_bind (asks_startBuilder _ _ _ _ _) fun _ h => not_isDrive h.1
  intro started
  apply BlamesFrom.tryFinally _ (stopBuilder_blames _ _) (asks_stopBuilder _ _) fun _ h =>
    not_isDrive h.1
  exact BlamesFrom.asks_bind (asks_waitForHealth _ _) (fun _ h => not_isDrive h.1) fun _ => hbody _

theorem withBuilder_blamesFrom (buildoorBinary : Option Path) (handles : El.Handles)
    (workDir : Path) (payloadBuildTime : ℚ) (fuel : ℕ)
    {body : Option String → Running σ H A V FixtureResult}
    (hbody : ∀ base, BlamesFrom isDrive (MachineFaulty eest) S (body base)) :
    BlamesFrom isDrive (MachineFaulty eest) S
      (withBuilder peer printing buildoorBinary handles workDir payloadBuildTime fuel body) := by
  unfold withBuilder
  cases buildoorBinary with
  | none => exact hbody none
  | some binary =>
      dsimp only
      exact simbuild_blamesFrom _ _ _ _ _ _ fun base => hbody (some base)

theorem geth_blamesFrom (genesis : Json) (workDir : Path) (fuel : ℕ)
    {body : El.Handles → Running σ H A V FixtureResult}
    (hbody : ∀ handles, BlamesFrom isDrive (MachineFaulty eest) S (body handles)) :
    BlamesFrom isDrive (MachineFaulty eest) S (El.geth peer genesis workDir fuel body) := by
  apply BlamesFrom.asks_bind (asks_start _ _) fun _ => not_isDrive
  intro started
  apply BlamesFrom.tryFinally _ (stop_blames _ _) (asks_stop _ _) fun _ h => not_isDrive h.1
  exact BlamesFrom.asks_bind (asks_waitForRpc _ _) (fun _ h => not_isDrive h.1) fun _ => hbody _

/-! ## The replay -/

variable [DecidableEq V]

/-- What a replay returns for a drive: its report, under the fixture's fork. -/
def Finished (eest : ExecutionTesting H A V) (fixture : BlockchainEngineFixture H A V)
    (r : FixtureResult) (log : List (RunExchange σ H A V)) : Prop :=
  Reported eest fixture.toEngineFixture r (drives log) ∧ r.fork = some fixture.fork

theorem drive_blamesFrom (drive : Drive) (hpayloads : fixture.payloads ≠ []) :
    BlamesFrom isDrive (MachineFaulty eest)
      (fun r log => Reported eest fixture.toEngineFixture r (drives log))
      (embed RunCall.drive
        (driveChain (peer.part RunCall.drive) eest hash addr drive fixture.toEngineFixture) :
          Running σ H A V FixtureResult) := by
  apply BlamesFrom.of_blames
  · exact Blames.embed (driveChain_blames hpayloads)
  · intro w new hlog
    let x := driveChain (peer.part RunCall.drive) eest hash addr drive fixture.toEngineFixture
    have hembed : w.log ++ (x ⟨w.state, []⟩).2.log.map (Exchange.embed RunCall.drive) =
        w.log ++ new := hlog
    obtain rfl := (List.append_cancel_left hembed).symm
    refine ⟨?_, ?_⟩
    · intro y hy
      obtain ⟨x, -, rfl⟩ := List.mem_map.mp hy
      rfl
    · intro r hr
      rw [drives_embed]
      exact (driveChain_reported ⟨w.state, []⟩ rfl).1 r _ (Prod.ext hr rfl)

theorem driveAndFinish_blamesFrom (drive : Drive) (startedAt : ℚ)
    (hpayloads : fixture.payloads ≠ []) :
    BlamesFrom isDrive (MachineFaulty eest) (Finished eest fixture)
      (driveAndFinish peer eest hash addr printing fixture drive startedAt) := by
  apply BlamesFrom.bind_asks (drive_blamesFrom drive hpayloads)
    (fun _ => finish_blames _ _ _) (fun _ => asks_finish _ _ _) fun _ h => not_isDrive h.1
  intro r r' w log hfinish hreported
  obtain ⟨now, u, -, hend⟩ := bind_eq_ok.mp (Prod.ext hfinish rfl)
  obtain ⟨hr, -⟩ := Prod.mk.inj hend
  obtain rfl := Except.ok.inj hr
  exact ⟨⟨hreported.blocks, hreported.fine⟩, rfl⟩

/-- From its first call of the drive on, a replay raises exactly when a call is faulty. -/
theorem replay_blamesFrom (fuel : ℕ) (fixture : BlockchainEngineFixture H A V) (testId : String)
    (workDir : Path) (payloadBuildTime : ℚ) (buildoorBinary : Option Path) :
    BlamesFrom isDrive (MachineFaulty eest) (Finished eest fixture)
      (replay peer eest hash addr printing fuel fixture testId workDir payloadBuildTime
        buildoorBinary) := by
  apply BlamesFrom.asks_bind (Asks.call (by simp [Outside])) fun _ => not_isDrive
  intro startedAt
  by_cases hpayloads : fixture.payloads = []
  · have hversion : getPayloadVersion fixture = .error ⟨.indexError, "list index out of range"⟩ := by
      simp only [getPayloadVersion, hpayloads]
    dsimp only
    rw [hversion]
    have hthrow : Asks peer Outside
        (throw ⟨.indexError, "list index out of range"⟩ : Running σ H A V FixtureResult) :=
      Asks.throw _
    exact BlamesFrom.of_asks hthrow fun _ => not_isDrive
  · have hlift : Asks peer Outside (lift (getPayloadVersion fixture) : Running σ H A V ℕ) :=
      Asks.lift _
    apply BlamesFrom.asks_bind hlift fun _ => not_isDrive
    intro version
    apply geth_blamesFrom
    intro handles
    apply BlamesFrom.asks_bind (asks_readJwt _) fun _ h => not_isDrive h.1
    intro _
    apply withBuilder_blamesFrom
    exact fun base => driveAndFinish_blamesFrom _ _ hpayloads

/-! ## The entry of a failed fixture -/

/-- The entry that reaches the report has an error, the fixture's fork, and the results of
all comparisons. -/
def Preserved (eest : ExecutionTesting H A V) (reprExc : PyError → String)
    (fixture : BlockchainEngineFixture H A V) (testId : String)
    (replayed : Except PyError FixtureResult) (log : List (RunExchange σ H A V)) : Prop :=
  ∃ entry, Batch.resultOf reprExc testId replayed = .ok entry ∧ entry.error.isSome = true ∧
    entry.fork = some fixture.fork ∧
    entry.blocks = compared eest fixture.payloads (builtPayloads eest (drives log))

theorem preserved_iff {x : Running σ H A V FixtureResult}
    (hx : BlamesFrom isDrive (MachineFaulty eest) (Finished eest fixture) x)
    (reprExc : PyError → String) (testId : String) {w : RunWorld σ H A V}
    (hfailed : ∃ y ∈ drives (asked x w), Fails eest y) :
    Preserved eest reprExc fixture testId (x w).1 (asked x w) ↔
      ∀ y ∈ (asked x w).dropWhile (!isDrive ·), ¬ MachineFaulty eest y := by
  obtain ⟨new, hlog, hnew⟩ := hx w
  rw [asked_eq hlog] at hfailed ⊢
  obtain ⟨y, hy, hfails⟩ := hfailed
  obtain ⟨z, hz, hdrive⟩ := List.mem_filterMap.mp hy
  obtain ⟨hraise, hreturn⟩ := hnew ⟨z, hz, by simp [isDrive, hdrive]⟩
  cases hr : (x w).1 with
  | error exc =>
      rw [hr] at hraise
      obtain ⟨y, hy, hfaulty⟩ := hraise.mp ⟨exc, rfl⟩
      constructor
      · rintro ⟨entry, hentry, -, hfork, -⟩
        unfold Batch.resultOf at hentry
        dsimp only at hentry
        split at hentry
        · obtain rfl := Except.ok.inj hentry
          cases hfork
        · cases hentry
      · intro hnone
        exact absurd hfaulty (hnone y hy)
  | ok r =>
      rw [hr] at hraise
      obtain ⟨hreported, hfork⟩ := hreturn r hr
      rw [drives_filter] at hreported
      have herror : r.error.isSome = true := by
        cases herr : r.error with
        | some err => rfl
        | none => exact absurd hfails (hreported.fine herr y hy)
      constructor
      · intro _ y hy hfaulty
        obtain ⟨e, he⟩ := hraise.mpr ⟨y, hy, hfaulty⟩
        cases he
      · exact fun _ => ⟨r, rfl, herror, hfork, hreported.blocks⟩

/-- Where the drive has failed, the entry of the fixture keeps what was compared before the
failure exactly when no call from the drive on is faulty. -/
theorem failure_preserved_iff (peer : Peer σ (RunReply (H := H) (A := A) (V := V)))
    (eest : ExecutionTesting H A V) (hash : FixedBytes H) (addr : FixedBytes A)
    (printing : Printing) (fuel : ℕ) (fixture : BlockchainEngineFixture H A V) (testId : String)
    (workDir : Path) (payloadBuildTime : ℚ) (buildoorBinary : Option Path) (w : RunWorld σ H A V)
    (hfailed : ∃ y ∈ drives (asked (replay peer eest hash addr printing fuel fixture testId workDir
      payloadBuildTime buildoorBinary) w), Fails eest y) :
    Preserved eest printing.reprExc fixture testId
      (replay peer eest hash addr printing fuel fixture testId workDir payloadBuildTime
        buildoorBinary w).1
      (asked (replay peer eest hash addr printing fuel fixture testId workDir payloadBuildTime
        buildoorBinary) w) ↔
    ∀ y ∈ (asked (replay peer eest hash addr printing fuel fixture testId workDir payloadBuildTime
      buildoorBinary) w).dropWhile (!isDrive ·), ¬ MachineFaulty eest y :=
  preserved_iff (replay_blamesFrom fuel fixture testId workDir payloadBuildTime buildoorBinary)
    printing.reprExc testId hfailed

/-! ### Two failures -/

/-- One block on an empty genesis. -/
def oneBlock : ExecutionPayload Unit Unit Unit where
  parentHash := ()
  feeRecipient := ()
  number := 1
  timestamp := 12
  prevRandao := ()
  blockHash := ()
  transactions := []
  withdrawals := none
  slotNumber := none
  getattr _ := ()

def oneBlockFixture : BlockchainEngineFixture Unit Unit Unit where
  genesisHash := ()
  payloads := [⟨.v1 oneBlock, 1, 1, true⟩]
  fork := "Paris"
  config := ⟨1, none⟩
  pre := .empty
  genesis :=
    { nonce := [], timestamp := 0, extraData := [], gasLimit := 30000000, difficulty := 0,
      prevRandao := (), feeRecipient := () }

def unitBytes : FixedBytes Unit := ⟨fun _ => "0x00", fun _ => (), fun _ => by decide, fun _ => rfl⟩

def unitTesting : ExecutionTesting Unit Unit Unit where
  modelFields := []
  modelValidate _ := .ok oneBlock
  repr _ := ""
  str _ := "INVALID"

def unitPrinting : Printing where
  round value _ := value
  str _ := ""
  fixed _ _ := ""
  reprExc := PyError.text
  millis seconds := (seconds * 1000).num.tdiv (seconds * 1000).den

/-- A machine on which everything works but the import of the block. -/
def importing (reply : Except PyError PayloadStatus) :
    Peer Unit (RunReply (H := Unit) (A := Unit) (V := Unit)) where
  answer _ q :=
    (match q with
      | .tokenHex _ => .ok "00"
      | .readText _ => .ok "00"
      | .freePort => .ok (30303 : ℕ)
      | .popen _ _ => .ok (1 : ℕ)
      | .probe _ _ _ => .ok (200 : ℕ)
      | .time => .ok (0 : ℚ)
      | .monotonic => .ok (0 : ℚ)
      | .drive (.forkchoiceUpdated _ _ _) => .ok (⟨.valid, some "0x01"⟩ : ForkchoiceReply)
      | .drive (.getPayload _ _) => .ok oneBlock
      | .drive (.newPayload _ _) => reply
      | .drive (.sleep _) => .ok ()
      | .mkdir _ => .ok ()
      | .writeJson _ _ => .ok ()
      | .writeText _ _ => .ok ()
      | .chmod _ _ => .ok ()
      | .openLog _ => .ok ()
      | .run _ _ => .ok ()
      | .wait _ _ => .ok ()
      | _ => .error ⟨.osError, "unavailable"⟩, ())

/-- The replay of the block, built by the EL itself. -/
def replayOne (reply : Except PyError PayloadStatus) : Running Unit Unit Unit Unit FixtureResult :=
  replay (importing reply) unitTesting unitBytes unitBytes unitPrinting 1 oneBlockFixture
    "tests/test_a.py" ⟨"/", ["tmp"]⟩ 1 none

def isInvalid (y : ChainExchange Unit Unit Unit Unit) : Bool :=
  match y with
  | ⟨_, .newPayload _ _, .ok PayloadStatus.invalid⟩ => true
  | _ => false

theorem fails_of_isInvalid {y : ChainExchange Unit Unit Unit Unit} (h : isInvalid y = true) :
    Fails unitTesting y := by
  unfold isInvalid at h
  split at h
  · exact PayloadStatus.noConfusion
  · cases h

/-- An import that is not VALID. -/
theorem failure_preserved_iff_invalid :
    Preserved unitTesting unitPrinting.reprExc oneBlockFixture "tests/test_a.py"
      (replayOne (.ok .invalid) ⟨(), []⟩).1 (asked (replayOne (.ok .invalid)) ⟨(), []⟩) ↔
    ∀ y ∈ (asked (replayOne (.ok .invalid)) ⟨(), []⟩).dropWhile (!isDrive ·),
      ¬ MachineFaulty unitTesting y := by
  have hany : (drives (asked (replayOne (.ok .invalid)) ⟨(), []⟩)).any isInvalid = true := by
    decide +kernel
  obtain ⟨y, hy, hinvalid⟩ := List.any_eq_true.mp hany
  have hfails := fails_of_isInvalid hinvalid
  exact failure_preserved_iff (importing (.ok .invalid)) unitTesting unitBytes unitBytes
    unitPrinting 1 oneBlockFixture "tests/test_a.py" ⟨"/", ["tmp"]⟩ 1 none ⟨(), []⟩
    ⟨y, hy, hfails⟩

/-- An import that raises: the comparison of its block and the fork are lost. -/
theorem lost_comparison :
    Batch.resultOf unitPrinting.reprExc "tests/test_a.py"
        (replayOne (.error ⟨.osError, "timed out"⟩) ⟨(), []⟩).1 =
      .ok { testId := "tests/test_a.py", blocks := [],
            error := some "runner crashed: timed out", fork := none } ∧
      compared unitTesting oneBlockFixture.payloads
        (builtPayloads unitTesting
          (drives (asked (replayOne (.error ⟨.osError, "timed out"⟩)) ⟨(), []⟩))) =
        [⟨1, true, []⟩] := by
  constructor
  · decide +kernel
  · decide +kernel

end EestReplay.Runner
