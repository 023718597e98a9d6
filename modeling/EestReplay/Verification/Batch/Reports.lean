import EestReplay.Library.Returns
import EestReplay.Library.Through
import EestReplay.Verification.Batch.Failures
import EestReplay.Verification.Batch.Walk
import Mathlib.Data.List.Forall2

/-! # The report of a batch

Which entries a batch reports: all that are due when every file and entry loads and nothing else
is raised between them, and those before the first that does not. Stopping early cuts the report
off. -/

namespace EestReplay.Batch

open Dialogue Runner Through

variable {σ τ H A V : Type} {peer : Peer σ (RunReply (H := H) (A := A) (V := V))}
  {peer' : Peer τ (RunReply (H := H) (A := A) (V := V))} {job : Job σ H A V}

/-! ## Entries that survive -/

/-- The entry that a batch owes for what is due. -/
def Meets : Due → FixtureResult → Prop
  | .replayed _ _ (.ok outcome) _, result => result = outcome
  | .replayed testId _ (.error _) _, result => result.testId = testId ∧ result.error.isSome = true
  | .unloadable _, result => result.error.isSome = true

def Due.Loaded : Due → Prop
  | .replayed _ _ _ _ => True
  | .unloadable _ => False

/-- The console has taken the test id. -/
def Due.Announced : Due → Prop
  | .replayed _ announced _ _ => announced = .ok ()
  | .unloadable _ => True

/-- A replay that raises is caught. -/
def Due.Caught : Due → Prop
  | .replayed _ _ (.error exc) _ => exc.isException = true
  | _ => True

structure Due.Survives (due : Due) : Prop where
  loaded : due.Loaded
  announced : due.Announced
  caught : due.Caught

/-- The batch adds an entry for what is due, the one that it owes, or ends there. -/
theorem Due.result_iff (due : Due) (reprExc : PyError → String) :
    (due.Survives ∧ ∃ result, due.result reprExc = .ok result ∧ Meets due result) ∨
      (¬ due.Survives ∧ ∃ exc, due.result reprExc = .error exc) := by
  cases due with
  | unloadable exc => exact .inr ⟨fun h => h.loaded, exc, rfl⟩
  | replayed testId announced outcome printed =>
      cases announced with
      | error exc => exact .inr ⟨fun h => (by cases h.announced), exc, rfl⟩
      | ok _ =>
          cases outcome with
          | ok result => exact .inl ⟨⟨trivial, rfl, trivial⟩, result, rfl, rfl⟩
          | error exc =>
              by_cases hexc : exc.isException = true
              · have hresult : Due.result reprExc (.replayed testId (.ok ()) (.error exc) printed) =
                    .ok { testId := testId, blocks := [],
                          error := some ("runner crashed: " ++ reprExc exc) } :=
                  if_pos hexc
                exact .inl ⟨⟨trivial, rfl, hexc⟩, _, hresult, rfl, rfl⟩
              · have hresult : Due.result reprExc (.replayed testId (.ok ()) (.error exc) printed) =
                    .error exc :=
                  if_neg hexc
                exact .inr ⟨fun h => hexc h.caught, exc, hresult⟩

/-- A plain walk reports all that is due exactly when all of it survives, and the lines of each
result but the last are printed. -/
theorem walk_meets_iff (reprExc : PyError → String) (ds : List Due) :
    List.Forall₂ Meets ds (walk false reprExc ds).1 ↔
      (∀ due ∈ ds, due.Survives) ∧ ∀ due ∈ ds.dropLast, due.printed = .ok () := by
  induction ds with
  | nil => simp [walk]
  | cons due ds ih =>
      rcases due.result_iff reprExc with ⟨hsurvives, result, hresult, hmeets⟩ | ⟨hnot, exc, hresult⟩
      · cases hprinted : due.printed with
        | ok _ =>
            have hlast : (∀ d ∈ (due :: ds).dropLast, d.printed = .ok ()) ↔
                ∀ d ∈ ds.dropLast, d.printed = .ok () := by
              cases ds with
              | nil => simp
              | cons next ds => simp [hprinted]
            rw [walk_cons_go ds hresult hprinted rfl, List.forall₂_cons, ih, hlast]
            simp [hmeets, hsurvives]
        | error exc =>
            rw [walk_cons_unprinted ds hresult hprinted]
            cases ds with
            | nil => simp [hmeets, hsurvives]
            | cons next ds => simp [hprinted]
      · rw [walk_cons_error ds hresult]
        simp [hnot]

/-! ## The whole report -/

/-- What is due of a run, once its fixture files are discovered. -/
def runDues (peer : Peer σ (RunReply (H := H) (A := A) (V := V))) (validate : Validate H A V)
    (printing : Printing)
    (replay : BlockchainEngineFixture H A V → String → Path → ℚ → Option Path →
      Running σ H A V FixtureResult) (options : Options) : Running σ H A V (List Due) := do
  let baseWorkDir ← baseWorkDir peer options
  call peer (.mkdir baseWorkDir)
  let fixtureFiles ← discoverFixtureFiles peer options.path
  batchDues peer (options.batchJob validate printing replay baseWorkDir) fixtureFiles

/-- A run comes to the batch of which it is due. -/
theorem runCmd_batch {validate : Validate H A V} {printing : Printing}
    {replay : BlockchainEngineFixture H A V → String → Path → ℚ → Option Path →
      Running σ H A V FixtureResult} {options : Options} {w v : RunWorld σ H A V} {ds : List Due}
    (hdues : runDues peer validate printing replay options w = (.ok ds, v)) :
    ∃ base files u,
      batchDues peer (options.batchJob validate printing replay base) files u = (.ok ds, v) ∧
      runCmd peer validate printing replay options w =
        runBatch peer (options.batchJob validate printing replay base) options.path files u := by
  obtain ⟨base, s, hbase, hdues⟩ := bind_eq_ok.mp hdues
  obtain ⟨_, t, hmkdir, hdues⟩ := bind_eq_ok.mp hdues
  obtain ⟨files, u, hfiles, hdues⟩ := bind_eq_ok.mp hdues
  exact ⟨base, files, u, hdues,
    (bind_of_ok hbase).trans ((bind_of_ok hmkdir).trans (bind_of_ok hfiles))⟩

/-- What a batch reports is the walk over what is due. -/
theorem runBatch_report (path : Path) {files : List Path} {w v : RunWorld σ H A V} {ds : List Due}
    (hdues : batchDues peer job files w = (.ok ds, v)) :
    ∃ done, (runBatch peer job path files w).1 = .ok done ∧
      done.report.results = (job.walk ds).1 := by
  by_cases hfiles : files = []
  · subst hfiles
    obtain ⟨hnil, -⟩ := Prod.mk.inj hdues
    obtain rfl := Except.ok.inj hnil
    exact ⟨_, runBatch_nil peer job path w, rfl⟩
  · obtain ⟨t0, u, hrun⟩ := runBatch_walk path hfiles hdues
    exact ⟨_, hrun, rfl⟩

/-- A run that does not stop early reports, in order, one entry for every replay and for every
file and entry that cannot be loaded, exactly when there is nothing that cannot be loaded, every
exception of a replay is caught, and the console takes the test ids and the lines of the results
but the last. -/
theorem reports_every_due_iff [DecidableEq V] (peer : Peer σ (RunReply (H := H) (A := A) (V := V)))
    (eest : ExecutionTesting H A V) (hash : FixedBytes H) (addr : FixedBytes A)
    (printing : Printing) (fuel : ℕ) (validate : Validate H A V) {options : Options}
    (hstop : options.stopOnFirstFailure = false) {w v : RunWorld σ H A V} {ds : List Due}
    (hdues : runDues peer validate printing (replay peer eest hash addr printing fuel) options w =
      (.ok ds, v)) :
    (∃ done, (Batch.run peer eest hash addr printing fuel validate options w).1 = .ok done ∧
      List.Forall₂ Meets ds done.report.results) ↔
    (∀ due ∈ ds, due.Survives) ∧ ∀ due ∈ ds.dropLast, due.printed = .ok () := by
  obtain ⟨base, files, u, hbatch, hrun⟩ := runCmd_batch hdues
  obtain ⟨done, hdone, hreport⟩ := runBatch_report options.path hbatch
  rw [← walk_meets_iff printing.reprExc]
  unfold Batch.run
  rw [hrun, hdone]
  have hwalk : (walk false printing.reprExc ds).1 = done.report.results := by
    rw [hreport]
    unfold Job.walk
    rw [show (options.batchJob validate printing _ base).stopOnFirstFailure = false from hstop]
    rfl
  rw [hwalk]
  simp

/-! ### Two files -/

def goodFile : Path := ⟨"/", ["fixtures", "good.json"]⟩

def mixedFile : Path := ⟨"/", ["fixtures", "mixed.json"]⟩

def goodEntry : String × Json :=
  ("tests/test_a.py", .obj [("_info", .obj [("fixture-format", .str "blockchain_test_engine")])])

/-- One file holds an engine entry, and one another before it that is no object. -/
def disk (path : Path) : Except PyError Json :=
  if path = goodFile then .ok (.obj [goodEntry])
  else if path = mixedFile then .ok (.obj [("tests/test_b.py", .int 5), goodEntry])
  else .error ⟨.osError, "No such file or directory"⟩

/-- A machine with these files, on which everything works. -/
def machine : Peer Unit (RunReply (H := Unit) (A := Unit) (V := Unit)) where
  answer s q :=
    match q with
    | .isFile _ => (.ok true, s)
    | .readJson path => (disk path, s)
    | .echo _ _ => (.ok (), s)
    | q => (importing (.ok .valid)).answer s q

def machineReplay : BlockchainEngineFixture Unit Unit Unit → String → Path → ℚ → Option Path →
    Running Unit Unit Unit Unit FixtureResult :=
  replay machine unitTesting unitBytes unitBytes unitPrinting 1

def machineOptions (path : Path) : Options where
  path := path
  workDir := some ⟨"/", ["work"]⟩

def machineRun (path : Path) : Running Unit Unit Unit Unit RunEnd :=
  Batch.run machine unitTesting unitBytes unitBytes unitPrinting 1 (fun _ => .ok oneBlockFixture)
    (machineOptions path)

def machineDues (path : Path) : Running Unit Unit Unit Unit (List Due) :=
  runDues machine (fun _ => .ok oneBlockFixture) unitPrinting machineReplay (machineOptions path)

theorem reports_every_due_iff_goodFile :
    ∃ ds v, machineDues goodFile ⟨(), []⟩ = (.ok ds, v) ∧
      ((∃ done, (machineRun goodFile ⟨(), []⟩).1 = .ok done ∧
        List.Forall₂ Meets ds done.report.results) ↔
      (∀ due ∈ ds, due.Survives) ∧ ∀ due ∈ ds.dropLast, due.printed = .ok ()) := by
  have hlength : (machineDues goodFile ⟨(), []⟩).1.map List.length = .ok 1 := by
    decide +kernel
  obtain ⟨ds, hfirst, -⟩ := ok_of_map_ok hlength
  have hdues : machineDues goodFile ⟨(), []⟩ = (.ok ds, (machineDues goodFile ⟨(), []⟩).2) :=
    Prod.ext hfirst rfl
  have hstop : (machineOptions goodFile).stopOnFirstFailure = false := rfl
  exact ⟨ds, _, hdues, reports_every_due_iff machine unitTesting unitBytes unitBytes unitPrinting 1
    (fun _ => .ok oneBlockFixture) hstop hdues⟩

/-- An entry that is no object ends the batch: it has no entry, nor has the one behind it. -/
theorem unreported_mixedFile :
    (machineDues mixedFile ⟨(), []⟩).1.map List.length = .ok 2 ∧
      (machineRun mixedFile ⟨(), []⟩).1.map (·.report.results.length) = .ok 0 ∧
      (machineRun mixedFile ⟨(), []⟩).1.map (·.exit) = .ok (.error ⟨.attributeError, "get"⟩) := by
  refine ⟨?_, ?_, ?_⟩
  · decide +kernel
  · decide +kernel
  · decide +kernel

/-! ## The report cut off -/

section Early

variable {reprExc : PyError → String}

/-- A walk that stops early ends at it. -/
def Due.halts (reprExc : PyError → String) (due : Due) : Bool :=
  match due.result reprExc, due.printed with
  | .ok result, .ok _ => !result.passed
  | _, _ => true

/-- A walk that stops early depends on nothing behind its end. -/
theorem walk_through (ds : List Due) :
    walk true reprExc (through (Due.halts reprExc) ds) = walk true reprExc ds := by
  induction ds with
  | nil => rfl
  | cons due ds ih =>
      unfold through
      cases due.front true reprExc with
      | error exc hresult =>
          have hhalts : due.halts reprExc = true := by simp [Due.halts, hresult]
          rw [if_pos hhalts, walk_cons_error _ hresult, walk_cons_error _ hresult]
      | unprinted result exc hresult hprinted =>
          have hhalts : due.halts reprExc = true := by simp [Due.halts, hresult, hprinted]
          rw [if_pos hhalts, walk_cons_unprinted _ hresult hprinted,
            walk_cons_unprinted _ hresult hprinted]
      | stop result hresult hprinted hnow =>
          have hhalts : due.halts reprExc = true := by
            simpa [Due.halts, hresult, hprinted] using hnow
          rw [if_pos hhalts, walk_cons_stop _ hresult hprinted hnow,
            walk_cons_stop _ hresult hprinted hnow]
      | go result hresult hprinted hgo =>
          have hhalts : ¬ due.halts reprExc = true := by
            simpa [Due.halts, hresult, hprinted] using hgo
          rw [if_neg hhalts, walk_cons_go _ hresult hprinted hgo,
            walk_cons_go _ hresult hprinted hgo, ih]

/-- The results of a walk that stops early are those of the plain one, cut off behind the first
that is not passed. -/
theorem walk_stop (ds : List Due) :
    (walk true reprExc ds).1 = through (!·.passed) (walk false reprExc ds).1 := by
  induction ds with
  | nil => rfl
  | cons due ds ih =>
      cases due.front true reprExc with
      | error exc hresult => rw [walk_cons_error _ hresult, walk_cons_error _ hresult, through]
      | unprinted result exc hresult hprinted =>
          rw [walk_cons_unprinted _ hresult hprinted, walk_cons_unprinted _ hresult hprinted]
          simp [through]
      | stop result hresult hprinted hnow =>
          rw [walk_cons_stop _ hresult hprinted hnow,
            walk_cons_go ds hresult hprinted (Bool.false_and _), through]
          rw [if_pos (by simpa using hnow)]
      | go result hresult hprinted hgo =>
          rw [walk_cons_go _ hresult hprinted hgo,
            walk_cons_go ds hresult hprinted (Bool.false_and _), through]
          rw [if_neg (by simpa using hgo), ih]

/-- Where all that is due survives and is printed, nothing raises. -/
theorem walk_survives {ds : List Due} (h : ∀ due ∈ ds, due.Survives ∧ due.printed = .ok ())
    (stop : Bool) : (walk stop reprExc ds).2 = none := by
  induction ds with
  | nil => rfl
  | cons due ds ih =>
      obtain ⟨⟨hsurvives, hprinted⟩, hrest⟩ := List.forall_mem_cons.mp h
      rcases due.result_iff reprExc with ⟨-, result, hresult, -⟩ | ⟨hnot, -⟩
      · cases hgo : (stop && !result.passed) with
        | true => rw [walk_cons_stop ds hresult hprinted hgo]
        | false =>
            rw [walk_cons_go ds hresult hprinted hgo]
            exact ih hrest
      · exact absurd hsurvives hnot

end Early

/-- The end of a batch can be told: its lines are printed, and the reports that are asked for are
written. -/
structure Writes (peer : Peer σ (RunReply (H := H) (A := A) (V := V))) (job : Job σ H A V)
    (path : Path) : Prop where
  clock : ∀ s, ∃ now, (peer.answer s .monotonic).1 = .ok now
  nothing : ∀ s,
    (peer.answer s (.echo ("no fixture JSON files under " ++ path.str) true)).1 = .ok ()
  summary : ∀ s report wall,
    (peer.answer s (.echo (summaryLine job.printing report wall) false)).1 = .ok ()
  json : ∀ file, job.reportJson = some file →
    (∀ s value, (peer.answer s (.writeJson file value)).1 = .ok ()) ∧
      ∀ s, (peer.answer s (.echo ("json report: " ++ file.str) false)).1 = .ok ()
  markdown : ∀ file, job.reportMd = some file →
    (∀ s text, (peer.answer s (.writeText file text)).1 = .ok ()) ∧
      ∀ s, (peer.answer s (.echo ("markdown report: " ++ file.str) false)).1 = .ok ()

theorem writeOptional_returns {write : Path → Running σ H A V Unit} {path : Option Path}
    (h : ∀ file, path = some file → Returns (write file) fun _ => True) :
    Returns (writeOptional write path) fun _ => True := by
  cases path with
  | none => exact Returns.pure trivial
  | some file => exact h file rfl

theorem Writes.clock_returns {path : Path} (h : Writes peer job path) :
    Returns (call peer .monotonic : Running σ H A V ℚ) fun _ => True := by
  intro w
  obtain ⟨now, hnow⟩ := h.clock w.state
  exact ⟨now, w.step peer .monotonic, by rw [call_apply, hnow], trivial⟩

theorem writeReports_returns {path : Path} (hwrites : Writes peer job path) (t0 : ℚ)
    (report : BatchReport) : Returns (writeReports peer job t0 report) fun _ => True := by
  unfold writeReports
  refine hwrites.clock_returns.bind fun (now : ℚ) _ => ?_
  have hsummary : Returns (call peer (.echo (summaryLine job.printing report (now - t0)) false))
      fun _ => True := Returns.call (fun s => hwrites.summary s report (now - t0)) trivial
  refine hsummary.bind fun _ _ => Returns.bind (P := fun _ => True)
    (writeOptional_returns fun file hfile => ?_) fun _ _ =>
      writeOptional_returns fun file hfile => ?_
  · obtain ⟨hjson, hline⟩ := hwrites.json file hfile
    have hwritten : Returns (report.writeJson peer job.printing file) fun _ => True :=
      Returns.call (fun s => hjson s _) trivial
    exact hwritten.bind fun _ _ => Returns.call hline trivial
  · obtain ⟨htext, hline⟩ := hwrites.markdown file hfile
    have hwritten : Returns (report.writeMarkdown peer job.printing file) fun _ => True :=
      Returns.call (fun s => htext s _) trivial
    exact hwritten.bind fun _ _ => Returns.call hline trivial

/-- The exit of a batch over files, when nothing is raised in it. -/
theorem runBatch_exit {path : Path} {files : List Path} (hfiles : files ≠ [])
    {w v : RunWorld σ H A V} {ds : List Due} (hdues : batchDues peer job files w = (.ok ds, v))
    (hraised : (job.walk ds).2 = none) (hwrites : Writes peer job path) {done : RunEnd}
    (hdone : (runBatch peer job path files w).1 = .ok done) :
    done.exit = .ok (exitCode done.report) := by
  obtain ⟨t0, u, hrun⟩ := runBatch_walk path hfiles hdues
  rw [hrun] at hdone
  obtain rfl := Except.ok.inj hdone
  obtain ⟨_, t, hwritten, -⟩ := writeReports_returns hwrites t0 ⟨(job.walk ds).1⟩ u
  dsimp only
  rw [hwritten]
  simp [exitOf, progressOf, hraised]

/-- The code is 0 exactly when every result is passed. -/
theorem exitCode_eq (report : BatchReport) :
    exitCode report = if ∀ r ∈ report.results, r.passed = true then 0 else 1 :=
  if_congr failed_add_errored_eq_zero rfl rfl

/-- Two batches over the same files, with the same outcomes up to where the one that stops early
ends: its report is the report of the plain one, cut off behind the first result that is not
passed. When every file and entry loads, every exception of a replay is caught and all lines are
printed, both exit alike once their reports can be written. Over files, the code is then 0 exactly
when no result of the plain batch is failed or errored; without a file both exit with 1 before any
result. -/
theorem early_report {plain : Job σ H A V} {early : Job τ H A V} {path : Path} {files : List Path}
    (hplain : plain.stopOnFirstFailure = false) (hearly : early.stopOnFirstFailure = true)
    (hprinting : early.printing = plain.printing)
    {w v : RunWorld σ H A V} {w' v' : RunWorld τ H A V} {ds ds' : List Due}
    (hdues : batchDues peer plain files w = (.ok ds, v))
    (hdues' : batchDues peer' early files w' = (.ok ds', v'))
    (hsame : through (Due.halts plain.printing.reprExc) ds' =
      through (Due.halts plain.printing.reprExc) ds) :
    ∃ full cut, (runBatch peer plain path files w).1 = .ok full ∧
      (runBatch peer' early path files w').1 = .ok cut ∧
      cut.report.results = through (!·.passed) full.report.results ∧
      ((∀ due ∈ ds, due.Survives ∧ due.printed = .ok ()) → ∃ code,
        (Writes peer plain path → full.exit = .ok code) ∧
        (Writes peer' early path → cut.exit = .ok code) ∧
        (files ≠ [] → (code = 0 ↔ ∀ r ∈ full.report.results, r.passed = true ∧ r.error = none)) ∧
        (files = [] → code = 1 ∧ full.report.results = [])) := by
  obtain ⟨full, hfull, hfullReport⟩ := runBatch_report path hdues
  obtain ⟨cut, hcut, hcutReport⟩ := runBatch_report path hdues'
  have hwalk : early.walk ds' = walk true plain.printing.reprExc ds := by
    unfold Job.walk
    rw [hearly, hprinting, ← walk_through ds', hsame, walk_through]
  have hthrough : cut.report.results = through (!·.passed) full.report.results := by
    rw [hcutReport, hfullReport, hwalk, walk_stop]
    unfold Job.walk
    rw [hplain]
  refine ⟨full, cut, hfull, hcut, hthrough, fun hsurvives => ?_⟩
  by_cases hfiles : files = []
  · subst hfiles
    rw [runBatch_nil] at hfull hcut
    obtain rfl := Except.ok.inj hfull
    obtain rfl := Except.ok.inj hcut
    refine ⟨1, fun hwrites => ?_, fun hwrites => ?_, fun h => absurd rfl h, fun _ => ⟨rfl, rfl⟩⟩
    · exact congrArg (Except.map fun _ => 1) (hwrites.nothing _)
    · exact congrArg (Except.map fun _ => 1) (hwrites.nothing _)
  · have hpassed : ∀ results : List FixtureResult,
        (∀ r ∈ results, r.passed = true) ↔ ∀ r ∈ results, (!r.passed) = false := by simp
    have hcode : exitCode cut.report = exitCode full.report := by
      rw [exitCode_eq, exitCode_eq]
      refine if_congr ?_ rfl rfl
      rw [hpassed, hpassed, hthrough]
      exact forall_mem_through
    refine ⟨exitCode full.report, fun hwrites => ?_, fun hwrites => ?_, fun _ => ?_,
      fun h => absurd h hfiles⟩
    · exact runBatch_exit hfiles hdues (walk_survives hsurvives _) hwrites hfull
    · rw [← hcode]
      refine runBatch_exit hfiles hdues' ?_ hwrites hcut
      rw [hwalk]
      exact walk_survives hsurvives true
    · rw [exitCode_eq, ite_eq_left_iff, ← not_imp_not, not_not]
      simp only [one_ne_zero, not_false_eq_true, forall_const]
      exact forall₂_congr fun r _ => ⟨fun h => ⟨h, error_eq_none_of_passed h⟩, And.left⟩

def machineJob (stop : Bool) : Job Unit Unit Unit Unit :=
  { machineOptions goodFile with stopOnFirstFailure := stop }.batchJob (fun _ => .ok oneBlockFixture)
    unitPrinting machineReplay ⟨"/", ["work"]⟩

theorem early_report_goodFile :
    ∃ ds v, batchDues machine (machineJob false) [goodFile] ⟨(), []⟩ = (.ok ds, v) ∧
      ∃ full cut, (runBatch machine (machineJob false) goodFile [goodFile] ⟨(), []⟩).1 = .ok full ∧
        (runBatch machine (machineJob true) goodFile [goodFile] ⟨(), []⟩).1 = .ok cut ∧
        cut.report.results = through (!·.passed) full.report.results ∧
        ((∀ due ∈ ds, due.Survives ∧ due.printed = .ok ()) → ∃ code,
          (Writes machine (machineJob false) goodFile → full.exit = .ok code) ∧
          (Writes machine (machineJob true) goodFile → cut.exit = .ok code) ∧
          ([goodFile] ≠ [] →
            (code = 0 ↔ ∀ r ∈ full.report.results, r.passed = true ∧ r.error = none)) ∧
          ([goodFile] = [] → code = 1 ∧ full.report.results = [])) := by
  have hlength : (batchDues machine (machineJob false) [goodFile] ⟨(), []⟩).1.map List.length =
      .ok 1 := by
    decide +kernel
  obtain ⟨ds, hfirst, -⟩ := ok_of_map_ok hlength
  have hdues : batchDues machine (machineJob false) [goodFile] ⟨(), []⟩ =
      (.ok ds, (batchDues machine (machineJob false) [goodFile] ⟨(), []⟩).2) :=
    Prod.ext hfirst rfl
  have hplain : (machineJob false).stopOnFirstFailure = false := rfl
  have hearly : (machineJob true).stopOnFirstFailure = true := rfl
  exact ⟨ds, _, hdues, early_report hplain hearly rfl hdues hdues rfl⟩

/-- Without a file, a run exits with 1 although it has no result that is failed or errored. -/
theorem exit_nonzero_noFiles :
    (runBatch machine (machineJob false) goodFile [] ⟨(), []⟩).1 = .ok ⟨{}, .ok 1⟩ := by
  rw [runBatch_nil]
  rfl

end EestReplay.Batch
