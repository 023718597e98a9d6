import EestReplay.Verification.Batch.Hollow

/-! # A machine on which nothing fails

On files without a payload that is expected to be valid, a batch can exit 0 and has compared
nothing then. -/

namespace EestReplay.Batch

open Dialogue Runner

variable {σ H A V : Type}

/-- A machine that shows the directory and on which nothing fails. -/
def calm (d : Directory) : Peer Unit (RunReply (H := H) (A := A) (V := V)) where
  answer _ q :=
    (match q with
      | .isFile path => d.isFile path
      | .isDir path => d.isDir path
      | .rglob root pattern => d.rglob root pattern
      | .readJson path => d.content path
      | .readText _ => .ok "00"
      | .writeJson _ _ => .ok ()
      | .writeText _ _ => .ok ()
      | .mkdtemp _ => .ok (⟨"/", ["tmp", "eest-replay-0"]⟩ : Path)
      | .mkdir _ => .ok ()
      | .chmod _ _ => .ok ()
      | .tokenHex _ => .ok "00"
      | .freePort => .ok (30303 : ℕ)
      | .openLog _ => .ok ()
      | .closeLog _ => .ok ()
      | .run _ _ => .ok ()
      | .popen _ _ => .ok (1 : ℕ)
      | .wait _ _ => .ok ()
      | .terminate _ => .ok ()
      | .kill _ => .ok ()
      | .probe _ _ _ => .ok (200 : ℕ)
      | .time => .ok (0 : ℚ)
      | .monotonic => .ok (0 : ℚ)
      | .sleep _ => .ok ()
      | .echo _ _ => .ok ()
      | .drive (.sendRawTransaction raw) => .ok raw
      | .drive (.forkchoiceUpdated _ _ _) => .ok (⟨.valid, none⟩ : ForkchoiceReply)
      | .drive (.getPayload _ _) => .error ⟨.osError, "unknown payload"⟩
      | .drive (.newPayload _ _) => .ok PayloadStatus.valid
      | .drive (.build _ _) => .ok (.httpError 503 "")
      | .drive (.sleep _) => .ok (), ())

theorem shows_calm (d : Directory) : Shows (calm d : Peer Unit (RunReply (H := H) (A := A) (V := V))) d :=
  ⟨fun _ _ => rfl, fun _ _ => rfl, fun _ _ _ => rfl, fun _ _ => rfl⟩

/-- The calm machine of a directory, for one kind of fixtures. -/
abbrev Calm (H A V : Type) (d : Directory) : Peer Unit (RunReply (H := H) (A := A) (V := V)) := calm d

variable (d : Directory)

/-! ## The servers -/

theorem pollUntil_calm (url : String) (body : Option Json) {deadline : ℚ} (h : 0 < deadline)
    (message lastErr : String) :
    Returns (pollUntil (Calm H A V d) url body deadline message 1 lastErr) fun _ => True := by
  refine Returns.bind (P := fun now : ℚ => now = 0) (Returns.call (fun _ => rfl) rfl) ?_
  rintro now rfl
  rw [if_pos h]
  refine Returns.bind (P := fun answer => answer = .ok (200 : ℕ)) (Returns.ask fun _ => rfl) ?_
  rintro answer rfl
  exact Returns.pure trivial

theorem waitForRpc_calm (rpcUrl : String) :
    Returns (El.waitForRpc (Calm H A V d) rpcUrl 1) fun _ => True := by
  refine Returns.bind (P := fun now : ℚ => now = 0) (Returns.call (fun _ => rfl) rfl) ?_
  rintro now rfl
  exact pollUntil_calm d _ _ (by norm_num) _ _

theorem waitForHealth_calm (baseUrl : String) :
    Returns (Buildoor.waitForHealth (Calm H A V d) baseUrl 1) fun _ => True := by
  refine Returns.bind (P := fun now : ℚ => now = 0) (Returns.call (fun _ => rfl) rfl) ?_
  rintro now rfl
  exact pollUntil_calm d _ _ (by norm_num) _ _

theorem waitOrKill_calm (process timeout : ℕ) :
    Returns (waitOrKill (Calm H A V d) process timeout) fun _ => True := by
  refine Returns.bind (P := fun waited => waited = .ok ()) (Returns.ask fun _ => rfl) ?_
  rintro waited rfl
  exact Returns.pure trivial

theorem start_calm (genesis : Json) (workDir : Path) :
    Returns (El.start (Calm H A V d) genesis workDir) fun _ => True := by
  unfold El.start
  refine Returns.bind (P := fun _ => True) (Returns.call (fun _ => rfl) trivial) fun _ _ => ?_
  refine Returns.bind (P := fun _ => True) (Returns.call (fun _ => rfl) trivial) fun _ _ => ?_
  refine Returns.bind (P := fun _ => True) (Returns.call (fun _ => rfl) trivial) fun secret _ => ?_
  refine Returns.bind (P := fun _ => True) (Returns.call (fun _ => rfl) trivial) fun _ _ => ?_
  refine Returns.bind (P := fun _ => True) (Returns.call (fun _ => rfl) trivial) fun _ _ => ?_
  refine Returns.bind (P := fun _ => True) (Returns.call (fun _ => rfl) trivial) fun _ _ => ?_
  refine Returns.bind (P := fun _ => True) (Returns.call (fun _ => rfl) trivial) fun rpcPort _ => ?_
  refine Returns.bind (P := fun _ => True) (Returns.call (fun _ => rfl) trivial) fun authPort _ => ?_
  refine Returns.bind (P := fun _ => True) (Returns.call (fun _ => rfl) trivial) fun suffix _ => ?_
  refine Returns.bind (P := fun _ => True) (Returns.call (fun _ => rfl) trivial) fun _ _ => ?_
  refine Returns.bind (P := fun _ => True) (Returns.call (fun _ => rfl) trivial) fun _ _ => ?_
  refine Returns.bind (P := fun _ => True) (Returns.call (fun _ => rfl) trivial) fun process _ => ?_
  exact Returns.pure trivial

theorem startBuilder_calm (binary : Path) (elEngineUrl : String) (jwtSecretPath workDir : Path)
    (buildWaitMs : ℤ) :
    Returns (Buildoor.start (Calm H A V d) binary elEngineUrl jwtSecretPath workDir buildWaitMs)
      fun _ => True := by
  unfold Buildoor.start
  refine Returns.bind (P := fun _ => True) (Returns.call (fun _ => rfl) trivial) fun port _ => ?_
  refine Returns.bind (P := fun _ => True) (Returns.call (fun _ => rfl) trivial) fun _ _ => ?_
  refine Returns.bind (P := fun _ => True) (Returns.call (fun _ => rfl) trivial) fun process _ => ?_
  exact Returns.pure trivial

theorem stop_calm (name : String) (process : ℕ) :
    Returns (El.stop (Calm H A V d) name process) fun _ => True :=
  Returns.bind (P := fun _ => True) (Returns.call (fun _ => rfl) trivial) fun _ _ =>
    waitOrKill_calm d process 10

theorem stopBuilder_calm (workDir : Path) (process : ℕ) :
    Returns (Buildoor.stop (Calm H A V d) workDir process) fun _ => True := by
  refine Returns.bind (P := fun _ => True) (Returns.call (fun _ => rfl) trivial) fun _ _ => ?_
  refine Returns.bind (waitOrKill_calm d process 5) fun _ _ => ?_
  exact Returns.call (fun _ => rfl) trivial

theorem readJwt_calm (path : Path) : Returns (readJwt (Calm H A V d) path) fun _ => True := by
  refine Returns.bind (P := fun text : String => text = "00") (Returns.call (fun _ => rfl) rfl) ?_
  rintro text rfl
  have hsecret : Text.fromHex (Text.stripWhite "00") = .ok [0] := by decide
  exact Returns.lift hsecret trivial

/-! ## A skipped fixture -/

/-- A result that passed without a block. -/
def Blank (r : FixtureResult) : Prop := r.passed = true ∧ r.blocks = []

section

variable [DecidableEq V] (eest : ExecutionTesting H A V) (hash : FixedBytes H)
  (addr : FixedBytes A) (printing : Printing)

theorem driveFrom_skipped {peer : Peer σ (ChainReply (H := H) (A := A) (V := V))} (drive : Drive)
    (idx : ℕ) {payloads : List (EngineNewPayload H A V)}
    (h : ∀ payload ∈ payloads, payload.valid = false) :
    Returns (driveFrom peer eest hash addr drive idx payloads []) Blank := by
  induction payloads generalizing idx with
  | nil => exact Returns.pure ⟨rfl, rfl⟩
  | cons payload payloads ih =>
      obtain ⟨hpayload, hrest⟩ := List.forall_mem_cons.mp h
      unfold driveFrom
      rw [hpayload]
      exact ih (idx + 1) hrest

theorem driveChain_skipped (drive : Drive) {fixture : EngineFixture H A V}
    (hpayloads : fixture.payloads ≠ []) (h : ∀ payload ∈ fixture.payloads, payload.valid = false) :
    Returns (driveChain ((Calm H A V d).part RunCall.drive) eest hash addr drive fixture) Blank := by
  unfold driveChain
  split
  · rename_i hnil
    exact absurd hnil hpayloads
  · refine Returns.bind (P := fun reply : ForkchoiceReply => reply.status = .valid)
      (Returns.call (fun _ => rfl) rfl) fun reply hreply => ?_
    rw [if_neg (not_not.mpr hreply)]
    exact driveFrom_skipped eest hash addr drive 0 h

theorem driveAndFinish_skipped (drive : Drive) (startedAt : ℚ)
    {fixture : BlockchainEngineFixture H A V} (h : Skipped fixture) :
    Returns (driveAndFinish (Calm H A V d) eest hash addr printing fixture drive startedAt) Blank := by
  refine Returns.bind (Returns.embed (driveChain_skipped d eest hash addr drive h.1 h.2))
    fun r hr => ?_
  refine Returns.bind (P := fun _ => True) (Returns.call (fun _ => rfl) trivial) fun now _ => ?_
  exact Returns.pure hr

theorem replay_skipped {fixture : BlockchainEngineFixture H A V} (h : Skipped fixture)
    (testId : String) (workDir : Path) (payloadBuildTime : ℚ) (buildoorBinary : Option Path) :
    Returns (replay (Calm H A V d) eest hash addr printing 1 fixture testId workDir payloadBuildTime
      buildoorBinary) Blank := by
  obtain ⟨version, hversion⟩ : ∃ version, getPayloadVersion fixture = .ok version := by
    unfold getPayloadVersion
    cases hpayloads : fixture.payloads with
    | nil => exact absurd hpayloads h.1
    | cons first rest => exact ⟨_, rfl⟩
  refine Returns.bind (P := fun _ => True) (Returns.call (fun _ => rfl) trivial) fun startedAt _ => ?_
  refine Returns.bind (P := fun _ => True) (Returns.lift hversion trivial) fun _ _ => ?_
  refine Returns.bind (start_calm d _ workDir) fun started _ => ?_
  refine Returns.tryFinally ?_ (stop_calm d _ _)
  refine Returns.bind (waitForRpc_calm d _) fun _ _ => ?_
  refine Returns.bind (readJwt_calm d _) fun _ _ => ?_
  cases buildoorBinary with
  | none => exact driveAndFinish_skipped d eest hash addr printing _ _ h
  | some binary =>
      refine Returns.bind (startBuilder_calm d _ _ _ _ _) fun started _ => ?_
      refine Returns.tryFinally ?_ (stopBuilder_calm d _ _)
      refine Returns.bind (waitForHealth_calm d _) fun _ _ => ?_
      exact driveAndFinish_skipped d eest hash addr printing _ _ h

end

/-! ## The batch -/

/-- The progress of a batch of which every result is blank. -/
def AllBlank (progress : Progress) : Prop :=
  progress.raised = none ∧ ∀ r ∈ progress.report.results, Blank r

theorem blank_add {report : BatchReport} {result : FixtureResult}
    (h : ∀ r ∈ report.results, Blank r) (hresult : Blank result) :
    ∀ r ∈ (report.add result).results, Blank r := by
  intro r hr
  rcases List.mem_append.mp hr with hr | hr
  · exact h r hr
  · obtain rfl := List.mem_singleton.mp hr
    exact hresult

/-- Every skipped fixture passes at once. -/
def PassesSkipped (job : Job σ H A V) : Prop :=
  ∀ fixture, Skipped fixture → ∀ testId workDir, Returns (job.replay fixture testId workDir) Blank

theorem echoLines_calm (lines : List String) :
    Returns (echoLines (Calm H A V d) lines) fun _ => True := by
  induction lines with
  | nil => exact Returns.pure trivial
  | cons line lines ih =>
      exact Returns.bind (P := fun _ => True) (Returns.call (fun _ => rfl) trivial) fun _ _ => ih

theorem replayEntry_hollow {job : Job Unit H A V} (hjob : PassesSkipped job)
    {fixture : BlockchainEngineFixture H A V} (h : Skipped fixture) (testId : String)
    (perDir : Path) : Returns (replayEntry (Calm H A V d) job fixture testId perDir) Blank := by
  refine Returns.bind (P := fun _ => True) (Returns.call (fun _ => rfl) trivial) fun _ _ => ?_
  refine (hjob fixture h testId perDir).capture.bind ?_
  rintro replayed ⟨result, rfl, hblank⟩
  exact Returns.lift rfl hblank

theorem runEntries_hollow {job : Job Unit H A V} (hjob : PassesSkipped job) (fileIdx : ℕ) (path : Path)
    (fixtureIdx : ℕ) {entries : List (String × Json)}
    (hentries : ∀ entry ∈ entries, HollowEntry job.validate entry.2) {report : BatchReport}
    (hreport : ∀ r ∈ report.results, Blank r) :
    Returns (runEntries (Calm H A V d) job fileIdx path fixtureIdx entries report) AllBlank := by
  induction entries generalizing fixtureIdx report with
  | nil => exact Returns.pure ⟨rfl, hreport⟩
  | cons entry entries ih =>
      obtain ⟨testId, payload⟩ := entry
      obtain ⟨⟨found, hfound, hskipped⟩, hrest⟩ := List.forall_mem_cons.mp hentries
      dsimp only at hfound
      unfold runEntries
      rw [hfound]
      cases found with
      | none => exact ih fixtureIdx hrest hreport
      | some fixture =>
          refine (replayEntry_hollow d hjob (hskipped fixture rfl) testId _).capture.bind ?_
          rintro replayed ⟨result, rfl, hblank⟩
          refine (echoLines_calm d _).capture.bind ?_
          rintro printed ⟨_, rfl, -⟩
          have hgo : ¬ (job.stopOnFirstFailure && !result.passed) = true := by simp [hblank.1]
          dsimp only
          rw [if_neg hgo]
          exact ih (fixtureIdx + 1) hrest (blank_add hreport hblank)

theorem runFiles_hollow {job : Job Unit H A V} (hjob : PassesSkipped job) (fileIdx : ℕ)
    {paths : List Path} (hpaths : ∀ path ∈ paths, HollowFile job.validate (d.content path))
    {report : BatchReport} (hreport : ∀ r ∈ report.results, Blank r) :
    Returns (runFiles (calm d) job fileIdx paths report) AllBlank := by
  induction paths generalizing fileIdx report with
  | nil => exact Returns.pure ⟨rfl, hreport⟩
  | cons path paths ih =>
      obtain ⟨⟨entries, hentries, hhollow⟩, hrest⟩ := List.forall_mem_cons.mp hpaths
      refine Returns.bind (P := fun raw => raw = d.content path) (Returns.ask fun _ => rfl) ?_
      rintro raw rfl
      unfold runFile
      rw [hentries]
      refine (runEntries_hollow d hjob fileIdx path 0 hhollow hreport).bind ?_
      rintro progress ⟨hraised, hblank⟩
      have hpassed : progress.report.failed + progress.report.errored = 0 :=
        failed_add_errored_eq_zero.mpr fun r hr => (hblank r hr).1
      rw [if_neg (by simp [hraised]), if_neg (by simp [hpassed])]
      exact ih (fileIdx + 1) hrest hblank

theorem writes_calm (job : Job Unit H A V) (path : Path) : Writes (Calm H A V d) job path where
  clock _ := ⟨(0 : ℚ), rfl⟩
  nothing _ := rfl
  summary _ _ _ := rfl
  json _ _ := ⟨fun _ _ => rfl, fun _ => rfl⟩
  markdown _ _ := ⟨fun _ _ => rfl, fun _ => rfl⟩

theorem runBatch_hollow {job : Job Unit H A V} (hjob : PassesSkipped job) (path : Path)
    {files : List Path} (hne : files ≠ [])
    (hfiles : ∀ path ∈ files, HollowFile job.validate (d.content path)) :
    Returns (runBatch (calm d) job path files) fun done =>
      done.exit = .ok 0 ∧ ∀ r ∈ done.report.results, Blank r := by
  have hempty : files.isEmpty = false := by simpa using hne
  unfold runBatch
  rw [hempty]
  refine Returns.bind (P := fun _ => True) (Returns.call (fun _ => rfl) trivial) fun t0 _ => ?_
  refine (runFiles_hollow d hjob 0 hfiles (by simp)).bind ?_
  rintro progress ⟨hraised, hblank⟩
  refine (writeReports_returns (writes_calm d job path) t0 progress.report).capture.bind ?_
  rintro written ⟨_, rfl, -⟩
  have hcode : exitCode progress.report = 0 :=
    if_pos (failed_add_errored_eq_zero.mpr fun r hr => (hblank r hr).1)
  refine Returns.pure ⟨?_, hblank⟩
  simp [exitOf, hraised, hcode]

variable [DecidableEq V] (eest : ExecutionTesting H A V) (hash : FixedBytes H)
  (addr : FixedBytes A) (printing : Printing)

/-- On hollow files, the calm machine lets a batch exit 0 that has compared nothing. -/
theorem run_hollow {validate : Validate H A V} {options : Options}
    (h : Hollow validate d options.path) :
    Returns (run (Calm H A V d) eest hash addr printing 1 validate options) fun done =>
      done.exit = .ok 0 ∧ ∀ r ∈ done.report.results, Blank r := by
  obtain ⟨files, hfiles, hne, hhollow⟩ := h
  refine Returns.bind (P := fun _ => True) ?_ fun baseWorkDir _ => ?_
  · unfold baseWorkDir
    cases options.workDir with
    | some workDir => exact Returns.pure trivial
    | none => exact Returns.call (fun _ => rfl) trivial
  · refine Returns.bind (P := fun _ => True) (Returns.call (fun _ => rfl) trivial) fun _ _ => ?_
    refine Returns.bind (P := fun found => found = files) (Returns.of_fst ?_ rfl) ?_
    · exact fun w => (discoverFixtureFiles_fst (shows_calm d) options.path w).trans hfiles
    · rintro found rfl
      refine runBatch_hollow d ?_ _ hne hhollow
      exact fun fixture hskipped testId workDir =>
        replay_skipped d eest hash addr printing hskipped testId workDir _ _

end EestReplay.Batch
