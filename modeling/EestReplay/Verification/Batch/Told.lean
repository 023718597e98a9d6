import EestReplay.Verification.Batch.Exit

/-! # What a row tells

In every run that ends with an exit code, each row of the report has the log of its own replay,
and passes exactly when that log vouches for it and no call failed in it from the drive on. -/

namespace EestReplay.Told

open Dialogue Batch Runner Exit

variable {σ H A V : Type}

/-! ## The drive -/

/-- The calls of a drive that passes. -/
structure Sound (eest : ExecutionTesting H A V) (fixture : EngineFixture H A V)
    (chain : List (ChainExchange σ H A V)) : Prop where
  driven : Driven fixture chain
  agrees : ∀ pair ∈ (validPayloads fixture.payloads).zip (builtPayloads eest chain),
    Agrees eest pair.2 pair.1.expected

section Drive

variable [DecidableEq V] {eest : ExecutionTesting H A V} {hash : FixedBytes H}
  {addr : FixedBytes A}

theorem driveChain_passed_iff {chainPeer : Peer σ (ChainReply (H := H) (A := A) (V := V))}
    {fixture : EngineFixture H A V} {drive : Drive} {s : σ} {r : FixtureResult}
    {u : ChainWorld σ H A V}
    (hrun : driveChain chainPeer eest hash addr drive fixture ⟨s, []⟩ = (.ok r, u)) :
    r.passed = true ↔ Sound eest fixture u.log := by
  have hchain : Triple (fun w => w.log = []) (driveChain chainPeer eest hash addr drive fixture)
      (fun r w => Runner.Outcome eest fixture w.log r.blocks r.error) (fun _ _ => True) :=
    driveChain_outcome
  have houtcome := (hchain ⟨s, []⟩ rfl).1 r u hrun
  obtain ⟨testId, blocks, error, fork, elapsed⟩ := r
  unfold FixtureResult.passed
  dsimp only at houtcome ⊢
  cases houtcome with
  | completed haccount hentries =>
      rw [← haccount.builts] at hentries
      have hmatched := hentries.all_matched
      constructor
      · intro hpassed
        exact ⟨⟨haccount.imports, haccount.heads, haccount.acknowledged⟩,
          hmatched.mp (by simpa using hpassed)⟩
      · intro hsound
        simpa using hmatched.mpr hsound.agrees
  | failed hsplit hvalid hends himports _ =>
      have hnot := hends.not_driven hsplit hvalid himports
      exact ⟨fun hpassed => by simp at hpassed, fun hsound => absurd hsound.driven hnot⟩
  | bootstrap hstatus hlog =>
      refine ⟨fun hpassed => by simp at hpassed, fun hsound => ?_⟩
      have hacknowledged := hsound.driven.acknowledged
      rw [hlog] at hacknowledged
      exact absurd (hacknowledged _ (List.mem_singleton_self _)) hstatus

end Drive

/-! ## The replay -/

section Replay

variable [DecidableEq V] {peer : Peer σ (RunReply (H := H) (A := A) (V := V))}
  {eest : ExecutionTesting H A V} {hash : FixedBytes H} {addr : FixedBytes A}
  {printing : Printing} {fixture : BlockchainEngineFixture H A V}

/-- A result passes exactly when its drive is sound. -/
def Judges (eest : ExecutionTesting H A V) (fixture : BlockchainEngineFixture H A V)
    (r : FixtureResult) (log : List (RunExchange σ H A V)) : Prop :=
  r.passed = true ↔ Sound eest fixture.toEngineFixture (drives log)

theorem drive_judges (drive : Drive) (hpayloads : fixture.payloads ≠ []) :
    BlamesFrom isDrive (MachineFaulty eest) (Judges eest fixture)
      (embed RunCall.drive
        (driveChain (peer.part RunCall.drive) eest hash addr drive fixture.toEngineFixture) :
          Running σ H A V FixtureResult) := by
  refine BlamesFrom.of_blames (Blames.embed (driveChain_blames hpayloads)) ?_
  intro w new hlog
  let x := driveChain (peer.part RunCall.drive) eest hash addr drive fixture.toEngineFixture
  have hembed : w.log ++ (x ⟨w.state, []⟩).2.log.map (Exchange.embed RunCall.drive) =
      w.log ++ new := hlog
  obtain rfl := (List.append_cancel_left hembed).symm
  refine ⟨?_, fun r hr => ?_⟩
  · intro y hy
    obtain ⟨x, -, rfl⟩ := List.mem_map.mp hy
    rfl
  · unfold Judges
    rw [drives_embed]
    exact driveChain_passed_iff (Prod.ext hr rfl)

theorem driveAndFinish_judges (drive : Drive) (startedAt : ℚ) (hpayloads : fixture.payloads ≠ []) :
    BlamesFrom isDrive (MachineFaulty eest) (Judges eest fixture)
      (driveAndFinish peer eest hash addr printing fixture drive startedAt) := by
  refine BlamesFrom.bind_asks (drive_judges drive hpayloads) (fun _ => finish_blames _ _ _)
    (fun _ => asks_finish _ _ _) (fun _ h => not_isDrive h.1) ?_
  intro r r' w log hfinish hjudges
  obtain ⟨now, u, -, hend⟩ := bind_eq_ok.mp (Prod.ext hfinish rfl)
  obtain ⟨hr, -⟩ := Prod.mk.inj hend
  obtain rfl := Except.ok.inj hr
  exact hjudges

theorem replay_judges (fuel : ℕ) (fixture : BlockchainEngineFixture H A V) (testId : String)
    (workDir : Path) (payloadBuildTime : ℚ) (buildoorBinary : Option Path) :
    BlamesFrom isDrive (MachineFaulty eest) (Judges eest fixture)
      (replay peer eest hash addr printing fuel fixture testId workDir payloadBuildTime
        buildoorBinary) := by
  unfold replay
  have hnow : Asks peer Outside (call peer .monotonic : Running σ H A V ℚ) :=
    Asks.call (by simp [Outside])
  refine BlamesFrom.asks_bind hnow (fun _ => not_isDrive) fun startedAt => ?_
  have hversion : Asks peer Outside (lift (getPayloadVersion fixture) : Running σ H A V ℕ) :=
    Asks.lift _
  by_cases hpayloads : fixture.payloads = []
  · -- without payloads there is no version, and the replay raises before any drive
    have hnone : getPayloadVersion fixture = .error ⟨.indexError, "list index out of range"⟩ := by
      simp only [getPayloadVersion, hpayloads]
    rw [hnone]
    have hthrow : Asks peer Outside
        (throw ⟨.indexError, "list index out of range"⟩ : Running σ H A V FixtureResult) :=
      Asks.throw _
    exact BlamesFrom.of_asks hthrow fun _ => not_isDrive
  · refine BlamesFrom.asks_bind hversion (fun _ => not_isDrive) fun version => ?_
    refine geth_blamesFrom _ _ _ fun handles => ?_
    refine BlamesFrom.asks_bind (asks_readJwt _) (fun _ h => not_isDrive h.1) fun _ => ?_
    exact withBuilder_blamesFrom _ _ _ _ _ fun base => driveAndFinish_judges _ _ hpayloads

end Replay

/-! ## The row -/

section Row

variable [DecidableEq V] {peer : Peer σ (RunReply (H := H) (A := A) (V := V))}
  (eest : ExecutionTesting H A V) (hash : FixedBytes H) (addr : FixedBytes A)
  (printing : Printing) (options : Options)

/-- The row of a replay is right: it passes exactly when the log of the replay vouches for the
fixture, and nothing has failed in it from the drive on. -/
def Right (order : Order H A V) (row : FixtureResult) (log : List (RunExchange σ H A V)) : Prop :=
  row.passed = true ↔ Vouches eest hash addr printing options order log ∧
    ∀ y ∈ log.dropWhile (!isDrive ·), ¬ MachineFaulty eest y

omit [DecidableEq V] in
/-- What vouches for a fixture has driven it. -/
theorem sound_of_vouches {order : Order H A V} {log : List (RunExchange σ H A V)}
    (h : Vouches eest hash addr printing options order log) :
    (∃ y ∈ log, isDrive y = true) ∧ Sound eest order.fixture.toEngineFixture (drives log) := by
  obtain ⟨g, chain, hon, hvouched⟩ := h
  have hdrives : drives log = chain := hon.drives_eq
  rw [hdrives]
  refine ⟨?_, hvouched.driven, hvouched.agrees⟩
  have hne : chain ≠ [] := by
    rintro rfl
    cases hvouched.driven.heads
  obtain ⟨y, hy⟩ := List.exists_mem_of_ne_nil chain hne
  rw [← hdrives] at hy
  obtain ⟨x, hx, hdrive⟩ := List.mem_filterMap.mp hy
  exact ⟨x, hx, by simp [isDrive, hdrive]⟩

variable (peer)

theorem replay_right (fuel : ℕ) (fixture : BlockchainEngineFixture H A V)
    (testId : String) (workDir : Path) :
    Logs (capture (replay peer eest hash addr printing fuel fixture testId workDir
        options.payloadBuildTime options.buildoorBinary) :
        Running σ H A V (Except PyError FixtureResult)) fun replayed new =>
      ∀ row, resultOf printing.reprExc testId replayed = .ok row →
        Right eest hash addr printing options ⟨fixture, testId, workDir⟩ row new := by
  intro w replayed u hrun
  rw [capture_apply] at hrun
  obtain ⟨hreplayed, rfl⟩ := Prod.mk.inj hrun
  obtain rfl := Except.ok.inj hreplayed
  obtain ⟨new, hlog, hjudges⟩ := replay_judges fuel fixture testId workDir
    options.payloadBuildTime options.buildoorBinary w
  refine ⟨new, hlog, fun row hrow => ⟨fun hpassed => ?_, fun hvouches => ?_⟩⟩
  · have hok := eq_ok_of_passed hrow hpassed
    obtain ⟨new', hlog', hpost⟩ := replay_logs fuel testId workDir options.payloadBuildTime
      options.buildoorBinary w row _ (Prod.ext hok rfl)
    obtain rfl : new = new' := List.append_cancel_left (hlog.symm.trans hlog')
    have hvouches : Vouches eest hash addr printing options ⟨fixture, testId, workDir⟩ new := hpost hpassed
    refine ⟨hvouches, fun y hy hfaulty => ?_⟩
    obtain ⟨exc, hexc⟩ := (hjudges (sound_of_vouches _ _ _ _ _ hvouches).1).1.mpr ⟨y, hy, hfaulty⟩
    rw [hok] at hexc
    cases hexc
  · obtain ⟨hvouches, hfine⟩ := hvouches
    obtain ⟨hdriven, hsound⟩ := sound_of_vouches _ _ _ _ _ hvouches
    obtain ⟨hraises, hreturns⟩ := hjudges hdriven
    cases hresult : (replay peer eest hash addr printing fuel fixture testId workDir
        options.payloadBuildTime options.buildoorBinary w).1 with
    | error exc =>
        obtain ⟨y, hy, hfaulty⟩ := hraises.mp ⟨exc, hresult⟩
        exact absurd hfaulty (hfine y hy)
    | ok r =>
        rw [hresult] at hrow
        obtain rfl := Except.ok.inj hrow
        have hr := hreturns r hresult
        unfold Judges at hr
        rw [drives_filter] at hr
        exact hr.mpr hsound

end Row

/-! ## The report -/

section Report

variable {job : Job σ H A V} {P : Order H A V → FixtureResult → List (RunExchange σ H A V) → Prop}

/-- The rows that come to a report, and the segments of the log that they come from: they are for
the first orders, and for all of them unless the batch is to stop early. -/
def Tells (stop : Bool) (P : Order H A V → FixtureResult → List (RunExchange σ H A V) → Prop)
    (due : List (Order H A V)) (before rows : List FixtureResult)
    (log : List (RunExchange σ H A V)) : Prop :=
  ∃ told rest, due = told.map Prod.fst ++ rest ∧ rows = before ++ told.map Prod.snd ∧
    Segmented Between (fun t : Order H A V × FixtureResult => P t.1 t.2) told log ∧
    (rest = [] ∨ stop = true ∧ ∃ row ∈ rows, row.passed = false)

variable {stop : Bool} {due due' : List (Order H A V)} {before rows rows' : List FixtureResult}
  {log log' : List (RunExchange σ H A V)}

theorem Tells.nil : Tells stop P [] before before [] :=
  ⟨[], [], rfl, (List.append_nil _).symm, .nil, .inl rfl⟩

theorem Tells.idle (h : ∀ y ∈ log, Between y) (hrest : Tells stop P due before rows log') :
    Tells stop P due before rows (log ++ log') := by
  obtain ⟨told, rest, hdue, hrows, hsegmented, hend⟩ := hrest
  exact ⟨told, rest, hdue, hrows, (Segmented.of_idle h).append hsegmented, hend⟩

theorem Tells.row {order : Order H A V} {row : FixtureResult} (h : P order row log)
    (hrest : Tells stop P due (before ++ [row]) rows log') :
    Tells stop P (order :: due) before rows (log ++ log') := by
  obtain ⟨told, rest, hdue, hrows, hsegmented, hend⟩ := hrest
  refine ⟨(order, row) :: told, rest, ?_, ?_, .job h hsegmented, hend⟩
  · rw [hdue]
    rfl
  · rw [hrows]
    simp

/-- A batch that is to stop does so on a row that has not passed. -/
theorem Tells.last {order : Order H A V} {row : FixtureResult} (h : P order row log)
    (hidle : ∀ y ∈ log', Between y) (hstop : stop = true) (hrow : row.passed = false) :
    Tells stop P (order :: due) before (before ++ [row]) (log ++ log') := by
  have hsegmented : Segmented Between (fun t : Order H A V × FixtureResult => P t.1 t.2)
      [(order, row)] (log ++ log') := .job h (.of_idle hidle)
  exact ⟨[(order, row)], due, rfl, rfl, hsegmented, .inr ⟨hstop, row, by simp, hrow⟩⟩

theorem Tells.append (h : Tells stop P due before rows log)
    (hgo : ¬ (stop = true ∧ ∃ row ∈ rows, row.passed = false))
    (h' : Tells stop P due' rows rows' log') :
    Tells stop P (due ++ due') before rows' (log ++ log') := by
  obtain ⟨told, rest, rfl, rfl, hsegmented, hend⟩ := h
  obtain ⟨told', rest', rfl, rfl, hsegmented', hend'⟩ := h'
  obtain rfl := hend.resolve_right hgo
  exact ⟨told ++ told', rest', by simp, by simp, hsegmented.append hsegmented', hend'⟩

theorem Tells.stopped (h : Tells stop P due before rows log)
    (hstop : stop = true ∧ ∃ row ∈ rows, row.passed = false) :
    Tells stop P (due ++ due') before rows log := by
  obtain ⟨told, rest, rfl, hrows, hsegmented, -⟩ := h
  exact ⟨told, rest ++ due', by simp, hrows, hsegmented, .inr hstop⟩

/-- Whatever comes of a replay, its row is right about it. -/
def Judged (job : Job σ H A V)
    (P : Order H A V → FixtureResult → List (RunExchange σ H A V) → Prop) : Prop :=
  ∀ fixture testId workDir, Logs (capture (job.replay fixture testId workDir))
    fun replayed new => ∀ row, resultOf job.printing.reprExc testId replayed = .ok row →
      P ⟨fixture, testId, workDir⟩ row new

theorem runEntries_tells (peer : Peer σ (RunReply (H := H) (A := A) (V := V))) (hjob : Judged job P)
    (fileIdx : ℕ) (path : Path) (fixtureIdx : ℕ)
    (entries : List (String × Json)) (report : BatchReport) :
    Logs (runEntries peer job fileIdx path fixtureIdx entries report) fun progress new =>
      progress.raised = none → Tells job.stopOnFirstFailure P
        (entryOrders job.validate job.baseWorkDir fileIdx path fixtureIdx entries)
        report.results progress.report.results new := by
  induction entries generalizing fixtureIdx report with
  | nil => exact Logs.pure fun _ => .nil
  | cons entry entries ih =>
      obtain ⟨testId, payload⟩ := entry
      unfold runEntries entryOrders
      cases hentry : entryFixture job.validate payload with
      | error exc => exact Logs.pure fun hraised => by cases hraised
      | ok found =>
          cases found with
          | none => exact ih fixtureIdx report
          | some fixture =>
              refine (replayEntry_logs (hjob fixture testId
                (job.baseWorkDir.child (slug fileIdx fixtureIdx path)))).bind ?_
              intro replayed new hreplayed
              cases replayed with
              | error exc => exact Logs.pure fun hraised => by cases hraised
              | ok result =>
                  obtain ⟨outcome, announced, segment, hnew, hidle, hrow, hresult⟩ :=
                    hreplayed result rfl
                  obtain rfl : new = [announced] ++ segment := hnew
                  have hright := hrow result hresult
                  have hprint : Asks peer Session.Quiet
                      (capture (printResult peer job.printing result)) :=
                    (asks_printResult (fun text r => rfl) job.printing result).capture
                  refine (Logs.of_asks hprint).bind fun printed lines hlines => ?_
                  cases printed with
                  | error exc => exact Logs.pure fun hraised => by cases hraised
                  | ok _ =>
                      have hannounced : ∀ y ∈ [announced], Between y := by simpa using hidle
                      dsimp only
                      by_cases hstop : (job.stopOnFirstFailure && !result.passed) = true
                      · rw [if_pos hstop]
                        obtain ⟨hset, hfailed⟩ : job.stopOnFirstFailure = true ∧
                            result.passed = false := by simpa using hstop
                        refine Logs.pure fun _ => ?_
                        rw [List.append_nil, List.append_assoc]
                        exact .idle hannounced (.last hright hlines hset hfailed)
                      · rw [if_neg hstop]
                        refine (ih (fixtureIdx + 1) (report.add result)).mono ?_
                        intro progress rest hrest hraised
                        rw [List.append_assoc]
                        exact .idle hannounced (.row hright (.idle hlines (hrest hraised)))

theorem runFiles_tells {peer : Peer σ (RunReply (H := H) (A := A) (V := V))} {d : Directory}
    (hshows : Shows peer d) (hjob : Judged job P) (fileIdx : ℕ) (paths : List Path)
    (report : BatchReport) :
    Logs (runFiles peer job fileIdx paths report) fun progress new =>
      progress.raised = none → Tells job.stopOnFirstFailure P
        (orders job.validate job.baseWorkDir d.content fileIdx paths)
        report.results progress.report.results new := by
  induction paths generalizing fileIdx report with
  | nil => exact Logs.pure fun _ => .nil
  | cons path paths ih =>
      unfold runFiles orders
      have hread : Logs (ask peer (.readJson path) : Running σ H A V (Except PyError Json))
          fun raw new => (∀ y ∈ new, Between y) ∧ raw = d.content path := by
        refine Logs.yields (Logs.of_asks (Asks.ask fun r => rfl)) ?_
        exact Yields.ask fun s => hshows.content s path
      refine hread.bind ?_
      rintro raw read ⟨hquiet, rfl⟩
      have hfile : Logs (runFile peer job fileIdx path report (d.content path)) fun progress new =>
          progress.raised = none → Tells job.stopOnFirstFailure P
            (fileOrders job.validate job.baseWorkDir fileIdx path (d.content path))
            report.results progress.report.results new := by
        unfold runFile fileOrders
        cases (d.content path).bind items with
        | error exc => exact Logs.pure fun hraised => by cases hraised
        | ok entries => exact runEntries_tells peer hjob fileIdx path 0 entries report
      refine hfile.bind fun progress new htells => ?_
      by_cases hraised : progress.raised.isSome = true
      · rw [if_pos hraised]
        refine Logs.pure fun hnone => ?_
        rw [hnone] at hraised
        cases hraised
      · have hnone : progress.raised = none := by simpa using hraised
        rw [if_neg hraised]
        by_cases hstop : (job.stopOnFirstFailure &&
            progress.report.failed + progress.report.errored != 0) = true
        · rw [if_pos hstop]
          refine Logs.pure fun _ => ?_
          rw [List.append_nil]
          exact .idle hquiet ((htells hnone).stopped (stops_iff.mp hstop))
        · rw [if_neg hstop]
          refine (ih (fileIdx + 1) progress.report).mono fun last rest hrest hlast => ?_
          exact .idle hquiet ((htells hnone).append (fun h => hstop (stops_iff.mpr h)) (hrest hlast))

theorem runBatch_tells {peer : Peer σ (RunReply (H := H) (A := A) (V := V))} {d : Directory}
    (hshows : Shows peer d) (hjob : Judged job P) (path : Path) (files : List Path) :
    Logs (runBatch peer job path files) fun done new => ∀ code, done.exit = .ok code →
      Tells job.stopOnFirstFailure P (orders job.validate job.baseWorkDir d.content 0 files) []
          done.report.results new ∧
        (code = 0 ↔ files ≠ [] ∧ ∀ row ∈ done.report.results, row.passed = true) := by
  have hclock : Asks peer Session.Quiet (call peer .monotonic : Running σ H A V ℚ) :=
    Asks.call fun r => rfl
  have hecho : Asks peer Session.Quiet
      (capture (call peer (.echo ("no fixture JSON files under " ++ path.str) true))) :=
    Asks.capture (Asks.call fun r => rfl)
  unfold runBatch
  cases files with
  | nil =>
      refine (Logs.of_asks hecho).bind fun echoed new hidle => Logs.pure fun code hexit => ?_
      have hnone : Tells job.stopOnFirstFailure P [] [] [] (new ++ []) := .idle hidle .nil
      refine ⟨hnone, ?_⟩
      cases echoed with
      | error exc => cases hexit
      | ok _ =>
          obtain rfl := Except.ok.inj hexit
          simp
  | cons first paths =>
      refine (Logs.of_asks hclock).bind fun (t0 : ℚ) early hearly => ?_
      refine (runFiles_tells hshows hjob 0 (first :: paths) {}).bind fun progress new htells => ?_
      have hreports : Asks peer Session.Quiet (capture (writeReports peer job t0 progress.report)) :=
        (Session.asks_writeReports t0 progress.report).capture
      refine (Logs.of_asks hreports).bind fun written late hlate => Logs.pure fun code hexit => ?_
      obtain ⟨hraised, hcode⟩ := exitOf_eq_ok hexit
      obtain ⟨told, rest, hdue, hrows, hsegmented, hend⟩ := htells hraised
      have hall := hsegmented.append (Segmented.of_idle hlate)
      have htold : Tells job.stopOnFirstFailure P
          (orders job.validate job.baseWorkDir d.content 0 (first :: paths)) []
          progress.report.results (new ++ late) :=
        ⟨told, rest, hdue, hrows, by simpa using hall, hend⟩
      refine ⟨?_, ?_⟩
      · rw [List.append_nil]
        exact .idle hearly htold
      · simpa using hcode

end Report

/-! ## The run -/

section Run

variable [DecidableEq V] {peer : Peer σ (RunReply (H := H) (A := A) (V := V))}

/-- The report tells what became of every fixture. In a run that ends with an exit code, the rows
are those of the entries that were due, in their order, each with the segment of the log in which
its fixture was replayed, and each right about it; only a batch that was to stop on a failure
leaves entries out. The code is 0 exactly when there are files and every row passes. -/
theorem run_rows_right (eest : ExecutionTesting H A V) (hash : FixedBytes H) (addr : FixedBytes A)
    (printing : Printing) (options : Options) {d : Directory} (hshows : Shows peer d) (fuel : ℕ)
    (validate : Validate H A V) {w : RunWorld σ H A V} {done : RunEnd} {code : ℕ}
    (hrun : (Batch.run peer eest hash addr printing fuel validate options w).1 = .ok done)
    (hexit : done.exit = .ok code) :
    ∃ base files, (∀ workDir, options.workDir = some workDir → base = workDir) ∧
      d.discovered options.path = .ok files ∧
      Tells options.stopOnFirstFailure (Right eest hash addr printing options)
        (orders validate base d.content 0 files) [] done.report.results
        (asked (Batch.run peer eest hash addr printing fuel validate options) w) ∧
      (code = 0 ↔ files ≠ [] ∧ ∀ row ∈ done.report.results, row.passed = true) := by
  have hlogs : Logs (Batch.run peer eest hash addr printing fuel validate options) fun done new =>
      ∀ code, done.exit = .ok code →
        ∃ base files, (∀ workDir, options.workDir = some workDir → base = workDir) ∧
          d.discovered options.path = .ok files ∧
          Tells options.stopOnFirstFailure (Right eest hash addr printing options)
            (orders validate base d.content 0 files) [] done.report.results new ∧
          (code = 0 ↔ files ≠ [] ∧ ∀ row ∈ done.report.results, row.passed = true) := by
    unfold Batch.run runCmd
    have hbase : Logs (baseWorkDir peer options) fun base new =>
        (∀ y ∈ new, Between y) ∧ ∀ workDir, options.workDir = some workDir → base = workDir := by
      refine (Logs.of_asks (Session.asks_baseWorkDir options)).yields ?_
      unfold baseWorkDir
      cases options.workDir with
      | none => exact (Yields.any _).mono fun _ _ _ h => by cases h
      | some workDir => exact Yields.pure fun _ h => Option.some.inj h
    refine hbase.bind ?_
    rintro base early ⟨hearly, hgiven⟩
    have hmkdir : Asks peer Session.Quiet (call peer (.mkdir base)) := Asks.call fun r => rfl
    refine (Logs.of_asks hmkdir).bind fun _ made hmade => ?_
    have hfiles : Logs (discoverFixtureFiles peer options.path) fun files new =>
        (∀ y ∈ new, Between y) ∧ d.discovered options.path = .ok files :=
      (Logs.of_asks (Session.asks_discoverFixtureFiles _)).yields fun w files hfound =>
        (discoverFixtureFiles_fst hshows options.path w).symm.trans hfound
    refine hfiles.bind ?_
    rintro files found ⟨hfound, hdiscovered⟩
    refine (runBatch_tells (P := Right eest hash addr printing options) hshows ?_ _ files).mono ?_
    · exact fun fixture testId workDir =>
        replay_right peer eest hash addr printing options fuel fixture testId workDir
    · intro done new hdone code hexit
      obtain ⟨htells, hcode⟩ := hdone code hexit
      exact ⟨base, files, hgiven, hdiscovered, .idle hearly (.idle hmade (.idle hfound htells)), hcode⟩
  exact hlogs.of_asked (Prod.ext hrun rfl) code hexit

end Run

theorem run_rows_right_oneFixture :
    ∃ done, (oneFixtureEnd ⟨(), []⟩).1 = .ok done ∧
      ∃ base files, (∀ workDir, oneFixtureRun.workDir = some workDir → base = workDir) ∧
        oneFixtureFile.discovered oneFixtureRun.path = .ok files ∧
        Tells oneFixtureRun.stopOnFirstFailure
          (Right unitTesting unitBytes unitBytes unitPrinting oneFixtureRun)
          (orders oneFixtureValidate base oneFixtureFile.content 0 files) [] done.report.results
          (asked oneFixtureEnd ⟨(), []⟩) ∧
        (0 = 0 ↔ files ≠ [] ∧ ∀ row ∈ done.report.results, row.passed = true) := by
  have hshows : Shows building oneFixtureFile :=
    ⟨fun _ _ => rfl, fun _ _ => rfl, fun _ _ _ => rfl, fun _ _ => rfl⟩
  have hexit : (oneFixtureEnd ⟨(), []⟩).1.map (·.exit) = .ok (.ok 0) := by
    decide +kernel
  obtain ⟨done, hrun, hzero⟩ := ok_of_map_ok hexit
  exact ⟨done, hrun, run_rows_right unitTesting unitBytes unitBytes unitPrinting oneFixtureRun
    hshows 1 oneFixtureValidate hrun hzero⟩

end EestReplay.Told
