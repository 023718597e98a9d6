import EestReplay.Library.Returns
import EestReplay.Model.Replay
import EestReplay.Verification.Batch.Reports
import EestReplay.Verification.Chain.Verdict

/-! # Batches that compare nothing

A batch exits 0 when every fixture passed. A fixture passes without a comparison when none of
its payloads is expected to be valid, and so does a batch without engine entries. -/

namespace EestReplay.Batch

open Dialogue Runner

variable {σ H A V : Type}

/-! ## What the files say -/

/-- What the commands see of the files under a path. -/
structure Directory where
  isFile : Path → Except PyError Bool
  isDir : Path → Except PyError Bool
  rglob : Path → String → Except PyError (List Path)
  content : Path → Except PyError Json

/-- The machine shows this directory, whatever else happens on it. -/
structure Shows (peer : Peer σ (RunReply (H := H) (A := A) (V := V))) (d : Directory) : Prop where
  isFile : ∀ s path, (peer.answer s (.isFile path)).1 = d.isFile path
  isDir : ∀ s path, (peer.answer s (.isDir path)).1 = d.isDir path
  rglob : ∀ s root pattern, (peer.answer s (.rglob root pattern)).1 = d.rglob root pattern
  content : ∀ s path, (peer.answer s (.readJson path)).1 = d.content path

/-- The fixture files that `run` finds. -/
def Directory.discovered (d : Directory) (path : Path) : Except PyError (List Path) := do
  let isFile ← d.isFile path
  if isFile then
    return [path]
  else
    let isDir ← d.isDir path
    if !isDir then
      throw ⟨.osError, path.str⟩
    else
      let engineRoot := path.child "blockchain_tests_engine"
      let hasEngine ← d.isDir engineRoot
      let found ← d.rglob (if hasEngine then engineRoot else path) "*.json"
      return (found.mergeSort fun a b => decide (a.tail ≤ b.tail)).filter (".meta" ∉ ·.tail)

/-- A fixture of which every payload is skipped, and that has one. -/
def Skipped (fixture : BlockchainEngineFixture H A V) : Prop :=
  fixture.payloads ≠ [] ∧ ∀ payload ∈ fixture.payloads, payload.valid = false

/-- An entry that loads, and is of another format or skipped. -/
def HollowEntry (validate : Validate H A V) (payload : Json) : Prop :=
  ∃ found, entryFixture validate payload = .ok found ∧ ∀ fixture, found = some fixture → Skipped fixture

def HollowFile (validate : Validate H A V) (raw : Except PyError Json) : Prop :=
  ∃ entries, raw.bind items = .ok entries ∧ ∀ entry ∈ entries, HollowEntry validate entry.2

/-- There are fixture files under the path, all of them load, and no payload in them is
expected to be valid. -/
def Hollow (validate : Validate H A V) (d : Directory) (path : Path) : Prop :=
  ∃ files, d.discovered path = .ok files ∧ files ≠ [] ∧
    ∀ file ∈ files, HollowFile validate (d.content file)

/-- A block was built and compared, and every fixture passed. -/
structure Compared (report : BatchReport) : Prop where
  block : ∃ r ∈ report.results, r.blocks ≠ []
  passed : ∀ r ∈ report.results, r.passed = true

section

variable {peer : Peer σ (RunReply (H := H) (A := A) (V := V))} {d : Directory}

theorem discoverFixtureFiles_fst (hshows : Shows peer d) (path : Path) (w : RunWorld σ H A V) :
    (discoverFixtureFiles peer path w).1 = d.discovered path := by
  refine call_bind_fst (hshows.isFile _ path) fun isFile => ?_
  cases isFile with
  | true => rfl
  | false =>
      refine call_bind_fst (hshows.isDir _ path) fun isDir => ?_
      cases isDir with
      | false => rfl
      | true =>
          refine call_bind_fst (hshows.isDir _ _) fun hasEngine => ?_
          exact call_bind_fst (hshows.rglob _ _ _) fun found => rfl

end

/-! ## One fixture -/

/-- A fixture that was driven to its end: every valid payload has its block. -/
def Replayed (fixture : BlockchainEngineFixture H A V) (r : FixtureResult) : Prop :=
  r.error = none →
    fixture.payloads ≠ [] ∧ r.blocks.length = (validPayloads fixture.payloads).length

section

variable [DecidableEq V] {peer : Peer σ (RunReply (H := H) (A := A) (V := V))}
  {eest : ExecutionTesting H A V} {hash : FixedBytes H} {addr : FixedBytes A}
  {printing : Printing} {fixture : BlockchainEngineFixture H A V}

omit [DecidableEq V] in
theorem blocks_length_of_entries {payloads : List (EngineNewPayload H A V)}
    {builts : List (ExecutionPayload H A V)} {blocks : List BlockResult}
    (h : Entries eest payloads builts blocks) : blocks.length = payloads.length := by
  have hlength := h.entries.length_eq
  rw [List.length_zip, h.length, Nat.min_self] at hlength
  exact hlength.symm

theorem driveAndFinish_yields (drive : Drive) (startedAt : ℚ) (hpayloads : fixture.payloads ≠ []) :
    Yields (driveAndFinish peer eest hash addr printing fixture drive startedAt)
      (Replayed fixture) := by
  have hdrive : Yields (embed RunCall.drive
      (driveChain (peer.part RunCall.drive) eest hash addr drive fixture.toEngineFixture) :
        Running σ H A V FixtureResult) (Replayed fixture) := by
    refine Yields.embed fun s r hr => ?_
    have houtcome : Triple (fun w => w.log = [])
        (driveChain (peer.part RunCall.drive) eest hash addr drive fixture.toEngineFixture)
        (fun r w => Runner.Outcome eest fixture.toEngineFixture w.log r.blocks r.error)
        (fun _ _ => True) := driveChain_outcome
    have hend := (houtcome ⟨s, []⟩ rfl).1 r _ (Prod.ext hr rfl)
    obtain ⟨testId, blocks, error, fork, elapsed⟩ := r
    rintro rfl
    cases hend with
    | completed account entries => exact ⟨hpayloads, blocks_length_of_entries entries⟩
  refine hdrive.bind fun r hr => ?_
  exact Yields.then_ fun now => Yields.pure hr

theorem replay_yields (fuel : ℕ) (testId : String) (workDir : Path) (payloadBuildTime : ℚ)
    (buildoorBinary : Option Path) :
    Yields (replay peer eest hash addr printing fuel fixture testId workDir payloadBuildTime
      buildoorBinary) (Replayed fixture) := by
  refine Yields.then_ fun startedAt => ?_
  refine Yields.bind (P := fun _ => fixture.payloads ≠ []) (Yields.lift ?_) fun version hpayloads => ?_
  · intro version hversion hnil
    rw [getPayloadVersion, hnil] at hversion
    cases hversion
  · refine Yields.then_ fun started => Yields.tryFinally (Yields.then_ fun _ => ?_)
    refine Yields.then_ fun _ => ?_
    cases buildoorBinary with
    | none => exact driveAndFinish_yields _ _ hpayloads
    | some binary =>
        refine Yields.then_ fun started => Yields.tryFinally (Yields.then_ fun _ => ?_)
        exact driveAndFinish_yields _ _ hpayloads

end

/-! ## A batch that passes -/

/-- Every engine entry has a result from its replay. -/
def Accounted (job : Job σ H A V) (results : List FixtureResult) (entries : List (String × Json)) :
    Prop :=
  ∀ entry ∈ entries, ∃ found, entryFixture job.validate entry.2 = .ok found ∧
    ∀ fixture, found = some fixture → ∃ r ∈ results, ∃ testId workDir w,
      (job.replay fixture testId workDir w).1 = .ok r

/-- The progress of a batch, when nothing ended it and every result so far is passed. -/
def Clean (progress : Progress) : Prop :=
  progress.raised = none ∧ ∀ r ∈ progress.report.results, r.passed = true

theorem Accounted.mono {job : Job σ H A V} {results more : List FixtureResult}
    {entries : List (String × Json)} (h : Accounted job results entries)
    (hsub : ∀ r ∈ results, r ∈ more) : Accounted job more entries := by
  intro entry hentry
  obtain ⟨found, hfound, hresults⟩ := h entry hentry
  refine ⟨found, hfound, fun fixture hfixture => ?_⟩
  obtain ⟨r, hr, hreplay⟩ := hresults fixture hfixture
  exact ⟨r, hsub r hr, hreplay⟩

/-- A result that passed is no crash: its replay has returned it. -/
theorem eq_ok_of_passed {reprExc : PyError → String} {testId : String}
    {replayed : Except PyError FixtureResult} {r : FixtureResult}
    (h : resultOf reprExc testId replayed = .ok r) (hpassed : r.passed = true) :
    replayed = .ok r := by
  cases replayed with
  | ok result => exact h
  | error exc =>
      by_cases he : exc.isException = true
      · simp only [resultOf, he, if_true, Except.ok.injEq] at h
        subst h
        exact absurd (error_eq_none_of_passed hpassed) (by simp)
      · simp [resultOf, he] at h

/-- What a part of the batch returns: no result is lost, and when it ends clean then `P` holds
of the results. -/
def Done (report : BatchReport) (P : List FixtureResult → Prop) (progress : Progress) : Prop :=
  (∀ r ∈ report.results, r ∈ progress.report.results) ∧
    (Clean progress → P progress.report.results)

/-- What ends in an exception is not clean. -/
theorem done_raised (report : BatchReport) (P : List FixtureResult → Prop) (exc : PyError) :
    Done report P ⟨report, some exc⟩ := by
  refine ⟨fun _ hr => hr, ?_⟩
  rintro ⟨hraised, -⟩
  cases hraised

/-- The result of an entry comes from its replay. -/
theorem replayEntry_yields (peer : Peer σ (RunReply (H := H) (A := A) (V := V))) (job : Job σ H A V)
    (fixture : BlockchainEngineFixture H A V) (testId : String) (perDir : Path) :
    Yields (replayEntry peer job fixture testId perDir) fun result =>
      ∃ w, resultOf job.printing.reprExc testId (job.replay fixture testId perDir w).1 =
        .ok result := by
  refine Yields.then_ fun _ => ?_
  have hreplay : Yields (capture (job.replay fixture testId perDir)) fun replayed =>
      ∃ w, (job.replay fixture testId perDir w).1 = replayed :=
    fun w replayed hreplayed => ⟨w, Except.ok.inj hreplayed⟩
  refine hreplay.bind ?_
  rintro replayed ⟨w, rfl⟩
  exact Yields.lift fun result hresult => ⟨w, hresult⟩

theorem runEntries_yields (peer : Peer σ (RunReply (H := H) (A := A) (V := V))) (job : Job σ H A V)
    (fileIdx : ℕ) (path : Path) (fixtureIdx : ℕ)
    (entries : List (String × Json)) (report : BatchReport) :
    Yields (runEntries peer job fileIdx path fixtureIdx entries report)
      (Done report (Accounted job · entries)) := by
  induction entries generalizing fixtureIdx report with
  | nil => exact Yields.pure ⟨fun _ hr => hr, fun _ _ hentry => by cases hentry⟩
  | cons entry entries ih =>
      obtain ⟨testId, payload⟩ := entry
      unfold runEntries
      cases hentry : entryFixture job.validate payload with
      | error exc => exact Yields.pure (done_raised _ _ exc)
      | ok found =>
          cases found with
          | none =>
              refine (ih fixtureIdx report).mono fun progress hprogress => ?_
              obtain ⟨hsub, hdone⟩ := hprogress
              refine ⟨hsub, fun hclean => ?_⟩
              refine List.forall_mem_cons.mpr ⟨⟨none, hentry, by simp⟩, hdone hclean⟩
          | some fixture =>
              refine (replayEntry_yields peer job fixture testId
                (job.baseWorkDir.child (slug fileIdx fixtureIdx path))).capture.bind ?_
              intro replayed hreplayed
              cases replayed with
              | error exc => exact Yields.pure (done_raised _ _ exc)
              | ok result =>
                  obtain ⟨w, hresult⟩ := hreplayed result rfl
                  have hold : ∀ r ∈ report.results, r ∈ (report.add result).results :=
                    fun r hr => List.mem_append_left _ hr
                  have hnew : result ∈ (report.add result).results :=
                    List.mem_append_right _ (List.mem_singleton_self result)
                  refine Yields.then_ fun printed => ?_
                  cases printed with
                  | error exc =>
                      refine Yields.pure ⟨hold, fun hclean => ?_⟩
                      cases hclean.1
                  | ok _ =>
                      dsimp only
                      by_cases hstop : (job.stopOnFirstFailure && !result.passed) = true
                      · rw [if_pos hstop]
                        refine Yields.pure ⟨hold, fun hclean => ?_⟩
                        rw [hclean.2 result hnew] at hstop
                        simp at hstop
                      · rw [if_neg hstop]
                        refine (ih (fixtureIdx + 1) (report.add result)).mono
                          fun progress hprogress => ?_
                        obtain ⟨hsub, hdone⟩ := hprogress
                        refine ⟨fun r hr => hsub r (hold r hr), fun hclean => ?_⟩
                        refine List.forall_mem_cons.mpr ⟨⟨some fixture, hentry, ?_⟩, hdone hclean⟩
                        intro other hother
                        obtain rfl := Option.some.inj hother
                        exact ⟨result, hsub _ hnew, testId, _, w,
                          eq_ok_of_passed hresult (hclean.2 result (hsub _ hnew))⟩

/-- Every entry of a file has its result. -/
def FileAccounted (job : Job σ H A V) (raw : Except PyError Json) (results : List FixtureResult) :
    Prop :=
  ∃ entries, raw.bind items = .ok entries ∧ Accounted job results entries

theorem runFile_yields (peer : Peer σ (RunReply (H := H) (A := A) (V := V))) (job : Job σ H A V)
    (fileIdx : ℕ) (path : Path) (report : BatchReport)
    (raw : Except PyError Json) :
    Yields (runFile peer job fileIdx path report raw) (Done report (FileAccounted job raw)) := by
  unfold runFile
  cases hraw : raw.bind items with
  | error exc => exact Yields.pure (done_raised _ _ exc)
  | ok entries =>
      refine (runEntries_yields peer job fileIdx path 0 entries report).mono fun progress hdone => ?_
      exact ⟨hdone.1, fun hclean => ⟨entries, hraw, hdone.2 hclean⟩⟩

theorem runFiles_yields {peer : Peer σ (RunReply (H := H) (A := A) (V := V))} {d : Directory}
    (hshows : Shows peer d) (job : Job σ H A V) (fileIdx : ℕ) (paths : List Path)
    (report : BatchReport) :
    Yields (runFiles peer job fileIdx paths report)
      (Done report fun results => ∀ path ∈ paths, FileAccounted job (d.content path) results) := by
  induction paths generalizing fileIdx report with
  | nil => exact Yields.pure ⟨fun _ hr => hr, fun _ _ hpath => by cases hpath⟩
  | cons path paths ih =>
      refine Yields.bind (P := fun raw => raw = d.content path)
        (Yields.ask fun s => hshows.content s path) ?_
      rintro raw rfl
      refine (runFile_yields peer job fileIdx path report _).bind fun progress hfile => ?_
      by_cases hraised : progress.raised.isSome = true
      · rw [if_pos hraised]
        refine Yields.pure ⟨hfile.1, fun hclean => ?_⟩
        rw [hclean.1] at hraised
        cases hraised
      · rw [if_neg hraised]
        by_cases hstop : (job.stopOnFirstFailure &&
            progress.report.failed + progress.report.errored != 0) = true
        · rw [if_pos hstop]
          refine Yields.pure ⟨hfile.1, fun hclean => ?_⟩
          obtain ⟨-, r, hr, hfailed⟩ := stops_iff.mp hstop
          rw [hclean.2 r hr] at hfailed
          cases hfailed
        · rw [if_neg hstop]
          refine (ih (fileIdx + 1) progress.report).mono fun last ⟨hsub, hrest⟩ => ?_
          refine ⟨fun r hr => hsub r (hfile.1 r hr), fun hclean => ?_⟩
          have hearlier : Clean progress :=
            ⟨by simpa using hraised, fun r hr => hclean.2 r (hsub r hr)⟩
          obtain ⟨entries, hentries, haccounted⟩ := hfile.2 hearlier
          exact List.forall_mem_cons.mpr
            ⟨⟨entries, hentries, haccounted.mono hsub⟩, hrest hclean⟩

/-- Behind an exit code, nothing was raised, and it is 0 when all results are passed. -/
theorem exitOf_eq_ok {written : Except PyError Unit} {progress : Progress} {code : ℕ}
    (h : exitOf written progress = .ok code) :
    progress.raised = none ∧
      (code = 0 ↔ ∀ r ∈ progress.report.results, r.passed = true) := by
  unfold exitOf at h
  cases written with
  | error exc => cases h
  | ok _ =>
      cases hraised : progress.raised with
      | some exc =>
          rw [hraised] at h
          cases h
      | none =>
          rw [hraised] at h
          obtain rfl := Except.ok.inj h
          refine ⟨rfl, ?_⟩
          rw [exitCode_eq]
          simp

theorem clean_of_exit {written : Except PyError Unit} {progress : Progress}
    (h : exitOf written progress = .ok 0) : Clean progress := by
  obtain ⟨hraised, hcode⟩ := exitOf_eq_ok h
  exact ⟨hraised, hcode.mp rfl⟩

/-- A batch that exits 0 has files, and a passed result for each of their engine entries. -/
theorem runBatch_yields {peer : Peer σ (RunReply (H := H) (A := A) (V := V))} {d : Directory}
    (hshows : Shows peer d) (job : Job σ H A V) (path : Path) (files : List Path) :
    Yields (runBatch peer job path files) fun done => done.exit = .ok 0 →
      files ≠ [] ∧ (∀ r ∈ done.report.results, r.passed = true) ∧
        ∀ path ∈ files, FileAccounted job (d.content path) done.report.results := by
  unfold runBatch
  cases files with
  | nil =>
      refine Yields.then_ fun echoed => Yields.pure fun hexit => ?_
      cases echoed with
      | error exc => cases hexit
      | ok _ => cases hexit
  | cons first paths =>
      refine Yields.then_ fun t0 => ?_
      refine (runFiles_yields hshows job 0 (first :: paths) {}).bind fun progress ⟨_, hdone⟩ => ?_
      refine Yields.then_ fun written => Yields.pure fun hexit => ?_
      have hclean := clean_of_exit hexit
      exact ⟨List.cons_ne_nil _ _, hclean.2, hdone hclean⟩

/-! ## Success -/

/-- A fixture that passed without a block is skipped. -/
theorem Replayed.skipped {fixture : BlockchainEngineFixture H A V} {r : FixtureResult}
    (h : Replayed fixture r) (hpassed : r.passed = true) (hblocks : r.blocks = []) :
    Skipped fixture := by
  obtain ⟨hpayloads, hlength⟩ := h (error_eq_none_of_passed hpassed)
  rw [hblocks] at hlength
  have hnone : validPayloads fixture.payloads = [] := List.length_eq_zero_iff.mp hlength.symm
  refine ⟨hpayloads, fun payload hpayload => ?_⟩
  simpa using List.filter_eq_nil_iff.mp hnone payload hpayload

section

variable [DecidableEq V] {peer : Peer σ (RunReply (H := H) (A := A) (V := V))} {d : Directory}
  {eest : ExecutionTesting H A V} {hash : FixedBytes H} {addr : FixedBytes A}
  {printing : Printing} {validate : Validate H A V}

/-- Where the files are not hollow, a batch that exits 0 has compared a block. -/
theorem run_yields (hshows : Shows peer d) (fuel : ℕ) {options : Options}
    (hhollow : ¬ Hollow validate d options.path) :
    Yields (run peer eest hash addr printing fuel validate options) fun done =>
      done.exit = .ok 0 → Compared done.report := by
  refine Yields.then_ fun baseWorkDir => Yields.then_ fun _ => ?_
  refine Yields.bind (P := fun files => d.discovered options.path = .ok files) ?_ ?_
  · intro w files hfiles
    exact (discoverFixtureFiles_fst hshows options.path w).symm.trans hfiles
  · intro files hfiles
    refine (runBatch_yields hshows _ _ files).mono fun done hdone hexit => ?_
    obtain ⟨hne, hpassed, haccounted⟩ := hdone hexit
    refine ⟨?_, hpassed⟩
    by_contra hnone
    refine hhollow ⟨files, hfiles, hne, fun file hfile => ?_⟩
    obtain ⟨entries, hentries, hresults⟩ := haccounted file hfile
    refine ⟨entries, hentries, fun entry hentry => ?_⟩
    obtain ⟨found, hfound, hreplays⟩ := hresults entry hentry
    refine ⟨found, hfound, fun fixture hfixture => ?_⟩
    obtain ⟨r, hr, testId, workDir, w, hreplay⟩ := hreplays fixture hfixture
    have hreplayed : Replayed fixture r := replay_yields _ _ _ _ _ w r hreplay
    refine hreplayed.skipped (hpassed r hr) ?_
    by_contra hblocks
    exact hnone ⟨r, hr, hblocks⟩

end

end EestReplay.Batch
