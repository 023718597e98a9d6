import EestReplay.Verification.Session.Servers

/-! # The session of a run

The whole of `run`, for any files, any options and any machine, follows the machine of its
servers, and in the end holds none. -/

namespace EestReplay.Session

open Dialogue Runs Runner Batch

variable {σ H A V : Type}

/-! ## The drive of a chain -/

section Chain

variable {peer : Peer σ (ChainReply (H := H) (A := A) (V := V))} {eest : ExecutionTesting H A V}
  {hash : FixedBytes H} {addr : FixedBytes A}

/-- Of builders, only the one at the base URL is called. -/
def CallsOnly (base : Option String) (q : ChainCall H A V) : Prop :=
  ∀ url body, q = .build url body → base = some url

theorem asks_submitMempool (base : Option String) (raws : List String) :
    Asks peer (CallsOnly base) (submitMempool peer raws) := by
  induction raws with
  | nil => exact Asks.pure ()
  | cons raw raws ih => exact Asks.bind (Asks.call fun url body h => by cases h) fun _ => ih

theorem asks_requestBuild (url parentHash : String) (payload : EngineNewPayload H A V) :
    Asks peer (CallsOnly (some url)) (requestBuild peer eest hash addr url parentHash payload) := by
  refine Asks.bind (Asks.call ?_) fun reply => ?_
  · intro url' body h
    obtain ⟨rfl, -⟩ := ChainCall.build.inj h
    rfl
  · cases reply with
    | httpError code detail => exact Asks.throw _
    | ok parsed => exact Asks.bind (Asks.lift _) fun _ => Asks.lift _

theorem asks_advance (base : Option String) (idx : ℕ) (payload : EngineNewPayload H A V) :
    Asks peer (CallsOnly base) (Runner.advance peer eest idx payload) := by
  refine Asks.bind (Asks.call fun url body h => by cases h) fun status => ?_
  split
  · exact Asks.pure _
  · refine Asks.bind (Asks.call fun url body h => by cases h) fun fcu => ?_
    split
    · exact Asks.pure _
    · exact Asks.pure _

theorem asks_buildBlock (drive : Drive) (idx : ℕ) (payload : EngineNewPayload H A V) :
    Asks peer (CallsOnly drive.buildoorBaseUrl) (buildBlock peer eest hash addr drive idx payload) := by
  unfold buildBlock
  cases drive.buildoorBaseUrl with
  | some url => exact Asks.bind (asks_requestBuild url _ payload) fun _ => Asks.pure _
  | none =>
      refine Asks.bind (Asks.call fun url body h => by cases h) fun fcu => ?_
      split
      · exact Asks.pure _
      · cases fcu.payloadId with
        | none => exact Asks.pure _
        | some payloadId =>
            refine Asks.bind (Asks.call fun url body h => by cases h) fun _ => ?_
            exact Asks.bind (Asks.call fun url body h => by cases h) fun _ => Asks.pure _

variable [DecidableEq V]

theorem asks_driveBlock (drive : Drive) (idx : ℕ) (payload : EngineNewPayload H A V)
    (blockResults : List BlockResult) :
    Asks peer (CallsOnly drive.buildoorBaseUrl)
      (driveBlock peer eest hash addr drive idx payload blockResults) := by
  refine Asks.bind (asks_submitMempool _ _) fun _ => ?_
  refine Asks.bind (asks_buildBlock drive idx payload) fun build => ?_
  cases build with
  | error err => exact Asks.pure _
  | ok built =>
      refine Asks.bind (asks_advance _ idx payload) fun failed => ?_
      cases failed with
      | some err => exact Asks.pure _
      | none => exact Asks.pure _

theorem asks_driveFrom (drive : Drive) (idx : ℕ) (payloads : List (EngineNewPayload H A V))
    (blockResults : List BlockResult) :
    Asks peer (CallsOnly drive.buildoorBaseUrl)
      (driveFrom peer eest hash addr drive idx payloads blockResults) := by
  induction payloads generalizing idx blockResults with
  | nil => exact Asks.pure _
  | cons payload payloads ih =>
      unfold driveFrom
      split
      · exact ih (idx + 1) blockResults
      · refine Asks.bind (asks_driveBlock drive idx payload blockResults) fun next => ?_
        cases next with
        | error result => exact Asks.pure _
        | ok blockResults => exact ih (idx + 1) blockResults

theorem asks_driveChain (drive : Drive) (fixture : EngineFixture H A V) :
    Asks peer (CallsOnly drive.buildoorBaseUrl) (driveChain peer eest hash addr drive fixture) := by
  unfold driveChain
  cases fixture.payloads with
  | nil => exact Asks.throw _
  | cons first payloads =>
      refine Asks.bind (Asks.call fun url body h => by cases h) fun bootstrap => ?_
      split
      · exact Asks.pure _
      · exact asks_driveFrom drive 0 _ []

end Chain

/-! ## The replay of a fixture -/

variable {peer : Peer σ (RunReply (H := H) (A := A) (V := V))}

/-- The builder that a call of the drive needs. -/
def builderOf : ChainCall H A V → Option String
  | .build url _ => some url
  | _ => none

theorem see_drive {y : Exchange σ (RunReply (H := H) (A := A) (V := V))} {q : ChainCall H A V}
    (h : y.query = .drive q) : see y = some (.worked (builderOf q)) := by
  obtain ⟨before, query, reply⟩ := y
  obtain rfl : query = .drive q := h
  cases q <;> rfl

/-- A call of the drive leaves servers as they are that can take it. -/
theorem drive_steady {base : Option String} {s : State} (hs : Serves base s.held)
    {q : ChainCall H A V} (hq : CallsOnly base q) (r : RunReply (.drive q)) :
    advance step s (observe (.drive q) r) = some s := by
  have hworked : ∀ builder, works builder s.held = true → step s (.worked builder) = some s := by
    intro builder h
    simp only [step, h, if_true]
  cases q with
  | build url body => exact hworked (some url) (hs.2 url (hq url body rfl))
  | sendRawTransaction raw => exact hworked none hs.1
  | forkchoiceUpdated head attrs version => exact hworked none hs.1
  | getPayload payloadId version => exact hworked none hs.1
  | newPayload params version => exact hworked none hs.1
  | sleep seconds => exact hworked none hs.1

section Replay

variable [DecidableEq V] {eest : ExecutionTesting H A V} {hash : FixedBytes H}
  {addr : FixedBytes A} {printing : Printing}

theorem driveAndFinish_leads (fixture : BlockchainEngineFixture H A V) (drive : Drive)
    (startedAt : ℚ) {ups : List Up} (hups : Serves drive.buildoorBaseUrl ups) :
    Leads ups (driveAndFinish peer eest hash addr printing fixture drive startedAt) ups := by
  rintro s rfl
  unfold driveAndFinish
  refine Follows.bind (S := fun _ t => t.held = s.held) (Follows.embed ?_) ?_
  · refine (Follows.of_asks (asks_driveChain drive fixture.toEngineFixture) ?_).conseq ?_ ?_
    · exact fun st q r hq => drive_steady hups hq r
    · rintro a t rfl
      rfl
    · rintro e t rfl
      rfl
  · exact fun result t ht =>
      leads_of_asks (Asks.bind (Asks.call fun r => rfl) fun now => Asks.pure _) t ht

theorem replay_leads (fuel : ℕ) (fixture : BlockchainEngineFixture H A V) (testId : String)
    (workDir : Path) (payloadBuildTime : ℚ) (buildoorBinary : Option Path) :
    Leads [] (Runner.replay peer eest hash addr printing fuel fixture testId workDir
      payloadBuildTime buildoorBinary) [] := by
  intro s hs
  unfold Runner.replay
  refine quiet_bind (Asks.call fun r => rfl) (fun startedAt => ?_) fun _ => hs
  have hversion : Asks peer Quiet (lift (getPayloadVersion fixture) : Running σ H A V ℕ) :=
    Asks.lift _
  refine quiet_bind hversion (fun version => ?_) fun _ => hs
  refine geth_leads _ workDir fuel (fun handles process => ?_) s hs
  intro u hu
  have hjwt : Asks peer Quiet (readJwt peer handles.jwtSecretPath) :=
    Asks.bind (Asks.call fun r => rfl) fun _ => Asks.lift _
  refine quiet_bind hjwt (fun _ => ?_) fun _ => hu
  refine withBuilder_leads printing buildoorBinary handles workDir payloadBuildTime fuel _ _ process ?_
    u hu
  exact fun base ups hups => driveAndFinish_leads fixture _ startedAt hups

end Replay

/-! ## The loops -/

section Loops

variable {job : Job σ H A V}

/-- The replays of a job stop what they start. -/
def CleansUp (job : Job σ H A V) : Prop :=
  ∀ fixture testId workDir, Leads [] (job.replay fixture testId workDir) []

theorem replayEntry_leads (hreplay : CleansUp job) (fixture : BlockchainEngineFixture H A V)
    (testId : String) (perDir : Path) :
    Leads [] (replayEntry peer job fixture testId perDir) [] := by
  intro s hs
  refine quiet_bind (Asks.call fun r => rfl) (fun _ => ?_) fun _ => hs
  refine ((hreplay fixture testId perDir s hs).capture (F := fun _ t => t.held = [])).bind ?_
  rintro replayed t ⟨hok, herr⟩
  have ht : t.held = [] := by
    cases replayed with
    | ok result => exact hok result rfl
    | error exc => exact herr exc rfl
  have hlift : Asks peer Quiet
      (lift (resultOf job.printing.reprExc testId replayed) : Running σ H A V FixtureResult) :=
    Asks.lift _
  exact leads_of_asks hlift t ht

theorem runEntries_leads (hreplay : CleansUp job) (fileIdx : ℕ) (path : Path) (fixtureIdx : ℕ)
    (entries : List (String × Json)) (report : BatchReport) :
    Leads [] (runEntries peer job fileIdx path fixtureIdx entries report) [] := by
  induction entries generalizing fixtureIdx report with
  | nil => exact fun s hs => Follows.pure hs
  | cons entry entries ih =>
      obtain ⟨testId, payload⟩ := entry
      unfold runEntries
      cases hentry : entryFixture job.validate payload with
      | error exc => exact fun s hs => Follows.pure hs
      | ok fixture =>
          cases fixture with
          | none => exact ih fixtureIdx report
          | some fixture =>
              intro s hs
              have hentry : Leads [] (replayEntry peer job fixture testId
                  (job.baseWorkDir.child (slug fileIdx fixtureIdx path))) [] :=
                replayEntry_leads hreplay fixture testId _
              refine ((hentry s hs).capture (F := fun _ t => t.held = [])).bind ?_
              rintro replayed t ⟨hok, herr⟩
              cases replayed with
              | error exc => exact Follows.pure (herr exc rfl)
              | ok result =>
                  have ht : t.held = [] := hok result rfl
                  have hprint : Asks peer Quiet (capture (printResult peer job.printing result)) :=
                    (asks_printResult (fun text r => rfl) job.printing result).capture
                  refine quiet_bind hprint (fun printed => ?_) fun _ => ht
                  cases printed with
                  | error exc => exact Follows.pure ht
                  | ok _ =>
                      dsimp only
                      split
                      · exact Follows.pure ht
                      · exact ih (fixtureIdx + 1) (report.add result) t ht

theorem runFile_leads (hreplay : CleansUp job) (fileIdx : ℕ) (path : Path) (report : BatchReport)
    (raw : Except PyError Json) : Leads [] (runFile peer job fileIdx path report raw) [] := by
  unfold runFile
  cases raw.bind items with
  | error exc => exact fun s hs => Follows.pure hs
  | ok entries => exact runEntries_leads hreplay fileIdx path 0 entries report

theorem runFiles_leads (hreplay : CleansUp job) (fileIdx : ℕ) (paths : List Path)
    (report : BatchReport) : Leads [] (runFiles peer job fileIdx paths report) [] := by
  induction paths generalizing fileIdx report with
  | nil => exact fun s hs => Follows.pure hs
  | cons path paths ih =>
      intro s hs
      refine quiet_bind (Asks.ask fun r => rfl) (fun raw => ?_) fun _ => hs
      refine (runFile_leads hreplay fileIdx path report raw s hs).bind ?_
      intro progress t ht
      split
      · exact Follows.pure ht
      · split
        · exact Follows.pure ht
        · exact ih (fileIdx + 1) progress.report t ht

theorem asks_writeOptional {write : Path → Running σ H A V Unit}
    (hwrite : ∀ path, Asks peer Quiet (write path)) (path : Option Path) :
    Asks peer Quiet (writeOptional write path) := by
  cases path with
  | none => exact Asks.pure ()
  | some path => exact hwrite path

theorem asks_writeReports (t0 : ℚ) (report : BatchReport) :
    Asks peer Quiet (writeReports peer job t0 report) := by
  refine Asks.bind (Asks.call fun _ => rfl) fun now => Asks.bind (Asks.call fun _ => rfl) fun _ => ?_
  refine Asks.bind (asks_writeOptional (fun path => ?_) _) fun _ =>
    asks_writeOptional (fun path => ?_) _
  · exact Asks.bind (Asks.call fun _ => rfl) fun _ => Asks.call fun _ => rfl
  · exact Asks.bind (Asks.call fun _ => rfl) fun _ => Asks.call fun _ => rfl

theorem runBatch_leads (hreplay : CleansUp job) (path : Path) (files : List Path) :
    Leads [] (runBatch peer job path files) [] := by
  intro s hs
  unfold runBatch
  split
  · have hecho : Asks peer Quiet
        (capture (call peer (.echo ("no fixture JSON files under " ++ path.str) true))) :=
      Asks.capture (Asks.call fun r => rfl)
    exact leads_of_asks (hecho.bind fun _ => Asks.pure _) s hs
  · refine quiet_bind (Asks.call fun r => rfl) (fun t0 => ?_) fun _ => hs
    refine (runFiles_leads hreplay 0 files {} s hs).bind ?_
    intro progress t ht
    exact leads_of_asks
      ((asks_writeReports t0 progress.report).capture.bind fun written => Asks.pure _) t ht

end Loops

theorem asks_discoverFixtureFiles (path : Path) :
    Asks peer Quiet (discoverFixtureFiles peer path) := by
  refine Asks.bind (Asks.call fun r => rfl) fun isFile => ?_
  split
  · exact Asks.pure _
  · refine Asks.bind (Asks.call fun r => rfl) fun isDir => ?_
    split
    · exact Asks.throw _
    · refine Asks.bind (Asks.call fun r => rfl) fun hasEngine => ?_
      exact Asks.bind (Asks.call fun r => rfl) fun found => Asks.pure _

theorem asks_baseWorkDir (options : Options) : Asks peer Quiet (baseWorkDir peer options) := by
  unfold baseWorkDir
  cases options.workDir with
  | none => exact Asks.call fun r => rfl
  | some workDir => exact Asks.pure workDir

variable (peer) [DecidableEq V] (eest : ExecutionTesting H A V) (hash : FixedBytes H)
  (addr : FixedBytes A) (printing : Printing) (fuel : ℕ) (validate : Validate H A V)

theorem run_leads (options : Options) :
    Leads [] (Batch.run peer eest hash addr printing fuel validate options) [] := by
  intro s hs
  unfold Batch.run runCmd
  refine quiet_bind (asks_baseWorkDir options) (fun base => ?_) fun _ => hs
  refine quiet_bind (Asks.call fun r => rfl) (fun _ => ?_) fun _ => hs
  refine quiet_bind (asks_discoverFixtureFiles options.path) (fun files => ?_) fun _ => hs
  refine runBatch_leads ?_ options.path files s hs
  exact fun fixture testId workDir => replay_leads fuel fixture testId workDir _ _

/-- Every run is a session. At every moment of it at most an EL, or an EL that is ready and a
builder over it, are held; every server that was started is held, at its end or lost, and lost
only by a failure of its finalizer or by the kill of its container's client; and in the end
nothing is held. -/
theorem run_is_session (options : Options) (w : RunWorld σ H A V) :
    IsSession (seen see
      (asked (Batch.run peer eest hash addr printing fuel validate options) w)) := by
  obtain ⟨s, hrun, hheld⟩ :=
    (run_leads peer eest hash addr printing fuel validate options {} rfl).of_asked w
  exact IsSession.of_run hrun hheld

/-- No run leaves a process behind: whatever was started is waited for or killed later on, unless
a call of its own finalizer fails. -/
theorem run_leaves_nothing (options : Options) (w : RunWorld σ H A V) :
    Reaped (seen see
      (asked (Batch.run peer eest hash addr printing fuel validate options) w)) := by
  obtain ⟨s, hrun, hheld⟩ :=
    (run_leads peer eest hash addr printing fuel validate options {} rfl).of_asked w
  exact Reaped.of_session (IsSession.of_run hrun hheld)

/-- A chain is driven only while its EL is ready, and a build is asked for only while the builder
at that address is; both have answered a probe with 200 before. -/
theorem run_drives_ready (options : Options) (w : RunWorld σ H A V) :
    Always (fun past y => ∀ q, y.query = .drive q → ∃ s : State,
        Runs.run step {} (seen see past) = some s ∧ InReach (builderOf q) s.held ∧
          Answered (seen see past) s.held)
      (asked (Batch.run peer eest hash addr printing fuel validate options) w) := by
  intro past y rest h q hq
  obtain ⟨s, hrun, -⟩ :=
    (run_leads peer eest hash addr printing fuel validate options {} rfl).of_asked w
  have hy : seen see (y :: rest) = .worked (builderOf q) :: seen see rest :=
    List.filterMap_cons_some (see_drive hq)
  rw [h, seen_append, hy] at hrun
  exact worked_of_run hrun

end EestReplay.Session
