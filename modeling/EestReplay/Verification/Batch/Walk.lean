import EestReplay.Model.Batch

/-! # A batch as one walk

What is due of a list of files is a flat list: the replay of every engine entry, and every file
and entry that cannot be loaded. The nested loops of `run` walk it from its front, and end where
something is raised. -/

namespace EestReplay.Batch

open Dialogue

variable {σ H A V : Type} (peer : Peer σ (RunReply (H := H) (A := A) (V := V)))
  (job : Job σ H A V)

/-! ## What is due -/

/-- An entry that is due for a replay, with what came of its announcement, of the replay and of
the lines about it, or something that cannot be loaded. -/
inductive Due where
  | replayed (testId : String) (announced : Except PyError Unit)
      (outcome : Except PyError FixtureResult) (printed : Except PyError Unit)
  | unloadable (exc : PyError)

/-- The lines about a result, when there is one. -/
def printDue : Except PyError FixtureResult → Running σ H A V (Except PyError Unit)
  | .ok result => capture (printResult peer job.printing result)
  | .error _ => return .ok ()

/-- What is due of an entry that has loaded, whatever is raised. -/
def entryDue (fixture : BlockchainEngineFixture H A V) (testId : String) (perDir : Path) :
    Running σ H A V Due := do
  let announced ← capture (call peer (.echo ("=== " ++ testId) false))
  let outcome ← capture (job.replay fixture testId perDir)
  let printed ← printDue peer job (resultOf job.printing.reprExc testId outcome)
  return .replayed testId announced outcome printed

/-- What is due of the entries of a file. Nothing that is raised costs another entry. -/
def entryDues (fileIdx : ℕ) (path : Path) :
    ℕ → List (String × Json) → Running σ H A V (List Due)
  | _, [] => return []
  | fixtureIdx, (testId, payload) :: entries =>
    match entryFixture job.validate payload with
    | .error exc => do
      let dues ← entryDues fileIdx path fixtureIdx entries
      return .unloadable exc :: dues
    | .ok none => entryDues fileIdx path fixtureIdx entries
    | .ok (some fixture) => do
      let due ← entryDue peer job fixture testId
        (job.baseWorkDir.child (slug fileIdx fixtureIdx path))
      let dues ← entryDues fileIdx path (fixtureIdx + 1) entries
      return due :: dues

/-- What is due of a file. -/
def fileDues (fileIdx : ℕ) (path : Path) (raw : Except PyError Json) :
    Running σ H A V (List Due) :=
  match raw.bind items with
  | .error exc => return [.unloadable exc]
  | .ok entries => entryDues peer job fileIdx path 0 entries

/-- What is due of a list of files, from an index on. -/
def filesDues : ℕ → List Path → Running σ H A V (List Due)
  | _, [] => return []
  | fileIdx, path :: paths => do
    let raw : Except PyError Json ← ask peer (.readJson path)
    let dues ← fileDues peer job fileIdx path raw
    let later ← filesDues (fileIdx + 1) paths
    return dues ++ later

/-- What is due of a batch, once its clock is read. -/
def batchDues (files : List Path) : Running σ H A V (List Due) :=
  if files.isEmpty then return []
  else do
    let _ : ℚ ← call peer .monotonic
    filesDues peer job 0 files

theorem asks_echoLines {peer : Peer σ (RunReply (H := H) (A := A) (V := V))}
    {allowed : RunCall H A V → Prop} (h : ∀ text, allowed (.echo text false)) (lines : List String) :
    Asks peer allowed (echoLines peer lines) := by
  induction lines with
  | nil => exact Asks.pure ()
  | cons line lines ih => exact Asks.bind (Asks.call (h line)) fun _ => ih

theorem asks_printResult {peer : Peer σ (RunReply (H := H) (A := A) (V := V))}
    {allowed : RunCall H A V → Prop} (h : ∀ text, allowed (.echo text false)) (printing : Printing)
    (result : FixtureResult) : Asks peer allowed (printResult peer printing result) :=
  asks_echoLines h _

/-! ## The walk -/

/-- The result that a batch adds for what is due, or the exception that ends it before. -/
def Due.result (reprExc : PyError → String) : Due → Except PyError FixtureResult
  | .replayed testId announced outcome _ => do
    announced
    resultOf reprExc testId outcome
  | .unloadable exc => .error exc

/-- What came of the lines about it. -/
def Due.printed : Due → Except PyError Unit
  | .replayed _ _ _ printed => printed
  | .unloadable _ => .ok ()

/-- The results of a walk, and the exception that ended it. -/
def walk (stop : Bool) (reprExc : PyError → String) :
    List Due → List FixtureResult × Option PyError
  | [] => ([], none)
  | due :: rest =>
    match due.result reprExc, due.printed with
    | .error exc, _ => ([], some exc)
    | .ok result, .error exc => ([result], some exc)
    | .ok result, .ok _ =>
      if stop && !result.passed then ([result], none)
      else (result :: (walk stop reprExc rest).1, (walk stop reprExc rest).2)

section Walk

variable {stop : Bool} {reprExc : PyError → String} {due : Due} {result : FixtureResult}

theorem walk_cons_error {exc : PyError} (rest : List Due) (h : due.result reprExc = .error exc) :
    walk stop reprExc (due :: rest) = ([], some exc) := by
  simp only [walk, h]

theorem walk_cons_unprinted {exc : PyError} (rest : List Due) (h : due.result reprExc = .ok result)
    (hprinted : due.printed = .error exc) :
    walk stop reprExc (due :: rest) = ([result], some exc) := by
  simp only [walk, h, hprinted]

theorem walk_cons_stop (rest : List Due) (h : due.result reprExc = .ok result)
    (hprinted : due.printed = .ok ()) (hstop : (stop && !result.passed) = true) :
    walk stop reprExc (due :: rest) = ([result], none) := by
  simp only [walk, h, hprinted, hstop, if_true]

theorem walk_cons_go (rest : List Due) (h : due.result reprExc = .ok result)
    (hprinted : due.printed = .ok ()) (hgo : (stop && !result.passed) = false) :
    walk stop reprExc (due :: rest) =
      (result :: (walk stop reprExc rest).1, (walk stop reprExc rest).2) := by
  simp only [walk, h, hprinted, hgo, Bool.false_eq_true, if_false]

/-- What a walk meets in front: the end of it, in one of three ways, or the way on. -/
inductive Front (stop : Bool) (reprExc : PyError → String) (due : Due) : Prop where
  | error (exc : PyError) : due.result reprExc = .error exc → Front stop reprExc due
  | unprinted (result : FixtureResult) (exc : PyError) : due.result reprExc = .ok result →
      due.printed = .error exc → Front stop reprExc due
  | stop (result : FixtureResult) : due.result reprExc = .ok result → due.printed = .ok () →
      (stop && !result.passed) = true → Front stop reprExc due
  | go (result : FixtureResult) : due.result reprExc = .ok result → due.printed = .ok () →
      (stop && !result.passed) = false → Front stop reprExc due

theorem Due.front (due : Due) (stop : Bool) (reprExc : PyError → String) :
    Front stop reprExc due := by
  cases hresult : due.result reprExc with
  | error exc => exact .error exc hresult
  | ok result =>
      cases hprinted : due.printed with
      | error exc => exact .unprinted result exc hresult hprinted
      | ok _ =>
          cases hgo : (stop && !result.passed) with
          | true => exact .stop result hresult hprinted hgo
          | false => exact .go result hresult hprinted hgo

/-- An exception in the first part ends the walk there. -/
theorem walk_append_raised {xs : List Due} {exc : PyError} (ys : List Due)
    (h : (walk stop reprExc xs).2 = some exc) :
    walk stop reprExc (xs ++ ys) = walk stop reprExc xs := by
  induction xs with
  | nil => simp [walk] at h
  | cons due xs ih =>
      rw [List.cons_append]
      cases due.front stop reprExc with
      | error other hresult => rw [walk_cons_error _ hresult, walk_cons_error _ hresult]
      | unprinted result other hresult hprinted =>
          rw [walk_cons_unprinted _ hresult hprinted, walk_cons_unprinted _ hresult hprinted]
      | stop result hresult hprinted hnow =>
          rw [walk_cons_stop _ hresult hprinted hnow] at h
          cases h
      | go result hresult hprinted hgo =>
          rw [walk_cons_go _ hresult hprinted hgo] at h
          rw [walk_cons_go _ hresult hprinted hgo, walk_cons_go _ hresult hprinted hgo, ih h]

/-- So does a result that is not passed, when the walk is to stop there. -/
theorem walk_append_stopped {xs : List Due} (ys : List Due) (hstop : stop = true)
    (h : ∃ r ∈ (walk stop reprExc xs).1, r.passed = false) :
    walk stop reprExc (xs ++ ys) = walk stop reprExc xs := by
  induction xs with
  | nil => simp [walk] at h
  | cons due xs ih =>
      rw [List.cons_append]
      cases due.front stop reprExc with
      | error exc hresult => rw [walk_cons_error _ hresult, walk_cons_error _ hresult]
      | unprinted result exc hresult hprinted =>
          rw [walk_cons_unprinted _ hresult hprinted, walk_cons_unprinted _ hresult hprinted]
      | stop result hresult hprinted hnow =>
          rw [walk_cons_stop _ hresult hprinted hnow, walk_cons_stop _ hresult hprinted hnow]
      | go result hresult hprinted hgo =>
          have hpassed : result.passed = true := by simpa [hstop] using hgo
          rw [walk_cons_go _ hresult hprinted hgo] at h
          obtain ⟨r, hr, hfailed⟩ := h
          have hlater : ∃ r ∈ (walk stop reprExc xs).1, r.passed = false := by
            rcases List.mem_cons.mp hr with rfl | hr
            · rw [hpassed] at hfailed
              cases hfailed
            · exact ⟨r, hr, hfailed⟩
          rw [walk_cons_go _ hresult hprinted hgo, walk_cons_go _ hresult hprinted hgo, ih hlater]

/-- Nothing ends a walk over a list before the end of the list. -/
def GoesOn (stop : Bool) (walked : List FixtureResult × Option PyError) : Prop :=
  walked.2 = none ∧ (stop = true → ∀ r ∈ walked.1, r.passed = true)

theorem goesOn_cons (hresult : due.result reprExc = .ok result) (hprinted : due.printed = .ok ())
    (hgo : (stop && !result.passed) = false) {rest : List Due}
    (h : GoesOn stop (walk stop reprExc (due :: rest))) : GoesOn stop (walk stop reprExc rest) := by
  rw [walk_cons_go rest hresult hprinted hgo] at h
  exact ⟨h.1, fun hstop r hr => h.2 hstop r (List.mem_cons_of_mem result hr)⟩

/-- What goes on begins with a result, and does so behind it. -/
theorem GoesOn.front {rest : List Due} (h : GoesOn stop (walk stop reprExc (due :: rest))) :
    ∃ result, due.result reprExc = .ok result ∧ due.printed = .ok () ∧
      (stop && !result.passed) = false := by
  obtain ⟨hraised, hpassed⟩ := h
  cases due.front stop reprExc with
  | error exc hresult =>
      rw [walk_cons_error _ hresult] at hraised
      cases hraised
  | unprinted result exc hresult hprinted =>
      rw [walk_cons_unprinted _ hresult hprinted] at hraised
      cases hraised
  | stop result hresult hprinted hnow =>
      obtain ⟨hstop, hfailed⟩ : stop = true ∧ result.passed = false := by simpa using hnow
      rw [walk_cons_stop _ hresult hprinted hnow] at hpassed
      have hresult := hpassed hstop result List.mem_cons_self
      rw [hresult] at hfailed
      cases hfailed
  | go result hresult hprinted hgo => exact ⟨result, hresult, hprinted, hgo⟩

/-- A walk that nothing ends in its first part goes on in its second. -/
theorem walk_append_go {xs : List Due} (ys : List Due) (h : GoesOn stop (walk stop reprExc xs)) :
    walk stop reprExc (xs ++ ys) =
      ((walk stop reprExc xs).1 ++ (walk stop reprExc ys).1, (walk stop reprExc ys).2) := by
  induction xs with
  | nil => rfl
  | cons due xs ih =>
      obtain ⟨result, hresult, hprinted, hgo⟩ := h.front
      rw [List.cons_append, walk_cons_go _ hresult hprinted hgo,
        walk_cons_go _ hresult hprinted hgo, ih (goesOn_cons hresult hprinted hgo h)]
      rfl

end Walk

/-! ## Passed results -/

/-- A passed result has no error. -/
theorem error_eq_none_of_passed {r : FixtureResult} (h : r.passed = true) : r.error = none := by
  unfold FixtureResult.passed at h
  rw [Bool.and_eq_true] at h
  exact Option.isNone_iff_eq_none.mp h.1

/-- Nothing has failed or errored exactly when every result is passed. -/
theorem failed_add_errored_eq_zero {report : BatchReport} :
    report.failed + report.errored = 0 ↔ ∀ r ∈ report.results, r.passed = true := by
  have hle : report.results.countP FixtureResult.passed ≤ report.results.length :=
    List.countP_le_length
  have hall : report.results.countP FixtureResult.passed = report.results.length ↔
      ∀ r ∈ report.results, r.passed = true := List.countP_eq_length
  have herrored : (∀ r ∈ report.results, r.passed = true) → report.errored = 0 := by
    intro h
    refine List.countP_eq_zero.mpr ?_
    intro r hr
    simp [error_eq_none_of_passed (h r hr)]
  unfold BatchReport.failed BatchReport.total BatchReport.passed
  constructor
  · intro h
    exact hall.mp (by omega)
  · intro h
    have hcount := hall.mpr h
    have hnone := herrored h
    omega

/-- The check behind a file: the batch is to stop and one of its results is not passed. -/
theorem stops_iff {report : BatchReport} {stop : Bool} :
    (stop && report.failed + report.errored != 0) = true ↔
      stop = true ∧ ∃ r ∈ report.results, r.passed = false := by
  rw [Bool.and_eq_true, bne_iff_ne, ne_eq, failed_add_errored_eq_zero]
  simp

/-! ## The loops -/

variable {peer job}

/-- The progress of a batch that started with a report and walked on. -/
def progressOf (report : BatchReport) (walked : List FixtureResult × Option PyError) : Progress :=
  ⟨⟨report.results ++ walked.1⟩, walked.2⟩

/-- The walk of a job. -/
def Job.walk (job : Job σ H A V) : List Due → List FixtureResult × Option PyError :=
  Batch.walk job.stopOnFirstFailure job.printing.reprExc

/-- A part of a batch walks what is due of it in its world, and does the same there when nothing
ends the walk. -/
def Walks (job : Job σ H A V) (report : BatchReport) (part : Running σ H A V Progress)
    (dues : Running σ H A V (List Due)) : Prop :=
  ∀ w, ∃ ds v, dues w = (.ok ds, v) ∧ (part w).1 = .ok (progressOf report (job.walk ds)) ∧
    (GoesOn job.stopOnFirstFailure (job.walk ds) → (part w).2 = v)

theorem walks_nil (report : BatchReport) :
    Walks job report (return ⟨report, none⟩) (return []) := by
  intro w
  refine ⟨[], w, rfl, ?_, fun _ => rfl⟩
  simp [progressOf, Job.walk, walk]

/-- What cannot be loaded ends a batch, whatever is due behind it. -/
theorem walks_unloadable (report : BatchReport) (exc : PyError) {dues : Running σ H A V (List Due)}
    (h : ∀ w, ∃ ds v, dues w = (.ok ds, v)) :
    Walks job report (return ⟨report, some exc⟩)
      (dues >>= fun ds => return .unloadable exc :: ds) := by
  intro w
  obtain ⟨ds, v, hds⟩ := h w
  refine ⟨.unloadable exc :: ds, v, by rw [bind_of_ok hds, pure_apply], ?_, ?_⟩
  · simp [progressOf, Job.walk, walk, Due.result]
  · rintro ⟨hraised, -⟩
    cases hraised

/-- An entry comes to the result that is due, and its lines to what is due of them. -/
theorem replayEntry_due (peer : Peer σ (RunReply (H := H) (A := A) (V := V))) (job : Job σ H A V)
    (fixture : BlockchainEngineFixture H A V) (testId : String)
    (perDir : Path) (w : RunWorld σ H A V) :
    ∃ due v, entryDue peer job fixture testId perDir w = (.ok due, v) ∧
      (replayEntry peer job fixture testId perDir w).1 = due.result job.printing.reprExc ∧
      ∀ result, due.result job.printing.reprExc = .ok result →
        printResult peer job.printing result (replayEntry peer job fixture testId perDir w).2 =
          (due.printed, v) := by
  let echo : Running σ H A V Unit := call peer (.echo ("=== " ++ testId) false)
  let replay := job.replay fixture testId perDir
  let replayed := resultOf job.printing.reprExc testId (replay (echo w).2).1
  have hprinted : ∃ printed v, printDue peer job replayed (replay (echo w).2).2 = (.ok printed, v) ∧
      ∀ result, replayed = .ok result →
        printResult peer job.printing result (replay (echo w).2).2 = (printed, v) := by
    unfold printDue
    cases replayed with
    | error exc => exact ⟨.ok (), _, rfl, fun result hresult => by cases hresult⟩
    | ok result =>
        refine ⟨_, _, capture_apply _ _, fun other hother => ?_⟩
        obtain rfl := Except.ok.inj hother
        rfl
  obtain ⟨printed, v, hprint, hprinted⟩ := hprinted
  refine ⟨.replayed testId (echo w).1 (replay (echo w).2).1 printed, v, ?_, ?_⟩
  · unfold entryDue
    rw [bind_of_ok (capture_apply _ w), bind_of_ok (capture_apply _ _)]
    rw [bind_of_ok hprint, pure_apply]
  · cases hannounced : (echo w).1 with
    | error exc =>
        have hraise : replayEntry peer job fixture testId perDir w = (.error exc, (echo w).2) :=
          bind_of_error (Prod.ext hannounced rfl)
        rw [hraise]
        exact ⟨rfl, fun result hresult => by cases hresult⟩
    | ok _ =>
        have hrun : replayEntry peer job fixture testId perDir w =
            (replayed, (replay (echo w).2).2) := by
          unfold replayEntry
          rw [bind_of_ok (Prod.ext hannounced rfl), bind_of_ok (capture_apply _ _), lift_apply]
        rw [hrun]
        exact ⟨rfl, hprinted⟩

theorem runEntries_walks (fileIdx : ℕ) (path : Path) (fixtureIdx : ℕ)
    (entries : List (String × Json)) (report : BatchReport) :
    Walks job report (runEntries peer job fileIdx path fixtureIdx entries report)
      (entryDues peer job fileIdx path fixtureIdx entries) := by
  induction entries generalizing fixtureIdx report with
  | nil => exact walks_nil report
  | cons entry entries ih =>
      obtain ⟨testId, payload⟩ := entry
      unfold runEntries entryDues
      cases hentry : entryFixture job.validate payload with
      | error exc =>
          refine walks_unloadable report exc fun w => ?_
          obtain ⟨ds, v, hds, -⟩ := ih fixtureIdx report w
          exact ⟨ds, v, hds⟩
      | ok fixture =>
          cases fixture with
          | none => exact ih fixtureIdx report
          | some fixture =>
              intro w
              let perDir := job.baseWorkDir.child (slug fileIdx fixtureIdx path)
              obtain ⟨due, u, hdue, hresult, hprint⟩ :=
                replayEntry_due peer job fixture testId perDir w
              obtain ⟨ds, v, hds, -⟩ := ih (fixtureIdx + 1) report u
              dsimp only
              refine ⟨due :: ds, v, by rw [bind_of_ok hdue, bind_of_ok hds, pure_apply], ?_⟩
              rw [bind_of_ok (capture_apply _ w), hresult]
              cases due.front job.stopOnFirstFailure job.printing.reprExc with
              | error exc herror =>
                  have hwalk : job.walk (due :: ds) = ([], some exc) := walk_cons_error ds herror
                  rw [herror, hwalk]
                  refine ⟨by simp [progressOf], ?_⟩
                  rintro ⟨hraised, -⟩
                  cases hraised
              | unprinted result exc hok hprinted =>
                  have hwalk : job.walk (due :: ds) = ([result], some exc) :=
                    walk_cons_unprinted ds hok hprinted
                  rw [hok, hwalk]
                  dsimp only
                  rw [bind_of_ok (capture_apply _ _), hprint result hok, hprinted]
                  refine ⟨rfl, ?_⟩
                  rintro ⟨hraised, -⟩
                  cases hraised
              | stop result hok hprinted hnow =>
                  have hwalk : job.walk (due :: ds) = ([result], none) :=
                    walk_cons_stop ds hok hprinted hnow
                  rw [hok, hwalk]
                  dsimp only
                  rw [bind_of_ok (capture_apply _ _), hprint result hok, hprinted]
                  dsimp only
                  rw [if_pos hnow]
                  refine ⟨rfl, ?_⟩
                  rintro ⟨-, hpassed⟩
                  obtain ⟨hstop, hfailed⟩ : job.stopOnFirstFailure = true ∧
                      result.passed = false := by simpa using hnow
                  rw [hpassed hstop result (List.mem_singleton_self result)] at hfailed
                  cases hfailed
              | go result hok hprinted hgo =>
                  have hwalk : job.walk (due :: ds) =
                      (result :: (job.walk ds).1, (job.walk ds).2) :=
                    walk_cons_go ds hok hprinted hgo
                  obtain ⟨ds', v', hds', hrest, hend⟩ := ih (fixtureIdx + 1) (report.add result) u
                  obtain ⟨rfl, rfl⟩ : ds = ds' ∧ v = v' := by simpa using hds.symm.trans hds'
                  rw [hok]
                  dsimp only
                  rw [bind_of_ok (capture_apply _ _), hprint result hok, hprinted]
                  dsimp only
                  rw [if_neg (by simp [hgo]), hrest, hwalk]
                  refine ⟨by simp [progressOf, BatchReport.add], fun hgoes => hend ?_⟩
                  rw [← hwalk] at hgoes
                  exact goesOn_cons hok hprinted hgo hgoes

/-- One file: what is due of it is walked, whether it loads or not. -/
theorem runFile_walks (fileIdx : ℕ) (path : Path) (report : BatchReport)
    (raw : Except PyError Json) :
    Walks job report (runFile peer job fileIdx path report raw)
      (fileDues peer job fileIdx path raw) := by
  unfold runFile fileDues
  cases raw.bind items with
  | error exc =>
      intro w
      refine ⟨[.unloadable exc], w, rfl, by simp [progressOf, Job.walk, walk, Due.result], ?_⟩
      rintro ⟨hraised, -⟩
      cases hraised
  | ok entries => exact runEntries_walks fileIdx path 0 entries report

theorem runFiles_walks (fileIdx : ℕ) (paths : List Path) {report : BatchReport}
    (hreport : job.stopOnFirstFailure = true → ∀ r ∈ report.results, r.passed = true) :
    Walks job report (runFiles peer job fileIdx paths report)
      (filesDues peer job fileIdx paths) := by
  induction paths generalizing fileIdx report with
  | nil => exact walks_nil report
  | cons path paths ih =>
      intro w
      let u := w.step peer (.readJson path)
      let raw : Except PyError Json := (peer.answer w.state (.readJson path)).1
      obtain ⟨first, v, hfirst, hfile, hsame⟩ := runFile_walks fileIdx path report raw u
      let next : Progress → Running σ H A V Progress := fun progress =>
        if progress.raised.isSome then return progress
        else if job.stopOnFirstFailure && progress.report.failed + progress.report.errored != 0 then
          return progress
        else runFiles peer job (fileIdx + 1) paths progress.report
      have hstart : runFiles peer job fileIdx (path :: paths) report w =
          next (progressOf report (job.walk first)) (runFile peer job fileIdx path report raw u).2 :=
        bind_of_ok (x := runFile peer job fileIdx path report raw) (f := next)
          (Prod.ext hfile rfl)
      have hfresh : Walks job {} (runFiles peer job (fileIdx + 1) paths {})
          (filesDues peer job (fileIdx + 1) paths) := ih (fileIdx + 1) (by simp)
      obtain ⟨rest, t, hrest, -⟩ := hfresh v
      have hdues : filesDues peer job fileIdx (path :: paths) w = (.ok (first ++ rest), t) := by
        have hread : filesDues peer job fileIdx (path :: paths) w =
            (fileDues peer job fileIdx path raw >>= fun dues =>
              filesDues peer job (fileIdx + 1) paths >>= fun later => pure (dues ++ later)) u :=
          bind_of_ok (ask_apply peer (.readJson path) w)
        rw [hread, bind_of_ok hfirst, bind_of_ok hrest, pure_apply]
      refine ⟨first ++ rest, t, hdues, ?_⟩
      rw [hstart]
      unfold next
      cases hraised : (job.walk first).2 with
      | some exc =>
          have hwalk : job.walk (first ++ rest) = job.walk first := walk_append_raised rest hraised
          rw [if_pos (by simp [progressOf, hraised]), hwalk]
          refine ⟨rfl, ?_⟩
          rintro ⟨hnone, -⟩
          rw [hraised] at hnone
          cases hnone
      | none =>
          rw [if_neg (by simp [progressOf, hraised])]
          cases hstops : (job.stopOnFirstFailure &&
              (progressOf report (job.walk first)).report.failed +
                (progressOf report (job.walk first)).report.errored != 0) with
          | true =>
              obtain ⟨hstop, r, hr, hfailed⟩ := stops_iff.mp hstops
              have hlater : ∃ r ∈ (job.walk first).1, r.passed = false := by
                rcases List.mem_append.mp hr with hr | hr
                · rw [hreport hstop r hr] at hfailed
                  cases hfailed
                · exact ⟨r, hr, hfailed⟩
              have hwalk : job.walk (first ++ rest) = job.walk first :=
                walk_append_stopped rest hstop hlater
              rw [if_pos rfl, hwalk]
              refine ⟨rfl, ?_⟩
              rintro ⟨-, hpassed⟩
              obtain ⟨r, hr, hfailed⟩ := hlater
              rw [hpassed hstop r hr] at hfailed
              cases hfailed
          | false =>
              have hpassed : job.stopOnFirstFailure = true →
                  ∀ r ∈ (progressOf report (job.walk first)).report.results, r.passed = true := by
                intro hstop r hr
                by_contra hfailed
                have hstops' := stops_iff.mpr ⟨hstop, r, hr, by simpa using hfailed⟩
                rw [hstops] at hstops'
                cases hstops'
              have hgoes : GoesOn job.stopOnFirstFailure (job.walk first) :=
                ⟨hraised, fun hstop r hr => hpassed hstop r (List.mem_append_right _ hr)⟩
              have hwalk : job.walk (first ++ rest) =
                  ((job.walk first).1 ++ (job.walk rest).1, (job.walk rest).2) :=
                walk_append_go rest hgoes
              obtain ⟨ds, t', hds, hlater, hend⟩ := ih (fileIdx + 1) hpassed v
              obtain ⟨rfl, rfl⟩ : rest = ds ∧ t = t' := by simpa using hrest.symm.trans hds
              rw [if_neg (by simp), hsame hgoes, hlater, hwalk]
              refine ⟨by simp [progressOf], fun hall => hend ⟨hall.1, fun hstop r hr => ?_⟩⟩
              exact hall.2 hstop r (List.mem_append_right _ hr)

/-- A batch is the walk over what is due of its files. -/
theorem runBatch_walk (path : Path) {files : List Path} (hfiles : files ≠ [])
    {w v : RunWorld σ H A V} {ds : List Due} (hdues : batchDues peer job files w = (.ok ds, v)) :
    ∃ t0 u, (runBatch peer job path files w).1 =
      .ok ⟨⟨(job.walk ds).1⟩, exitOf (writeReports peer job t0 ⟨(job.walk ds).1⟩ u).1
        (progressOf {} (job.walk ds))⟩ := by
  have hempty : files.isEmpty = false := by simpa using hfiles
  unfold batchDues at hdues
  rw [hempty, if_neg (by simp)] at hdues
  obtain ⟨t0, u, hclock, hdues⟩ := bind_eq_ok.mp hdues
  have hwalks : Walks job {} (runFiles peer job 0 files {}) (filesDues peer job 0 files) :=
    runFiles_walks 0 files (by simp)
  obtain ⟨ds', v', hds, hrun, -⟩ := hwalks u
  obtain ⟨rfl, rfl⟩ : ds = ds' ∧ v = v' := by simpa using hdues.symm.trans hds
  have hbatch : runBatch peer job path files w =
      (runFiles peer job 0 files {} >>= fun progress =>
        capture (writeReports peer job t0 progress.report) >>= fun written =>
          pure ⟨progress.report, exitOf written progress⟩) u := by
    unfold runBatch
    rw [hempty]
    exact bind_of_ok hclock
  refine ⟨t0, (runFiles peer job 0 files {} u).2, ?_⟩
  rw [hbatch, bind_of_ok (Prod.ext hrun rfl), bind_of_ok (capture_apply _ _)]
  rfl

/-- Without files there is no batch. -/
theorem runBatch_nil (peer : Peer σ (RunReply (H := H) (A := A) (V := V))) (job : Job σ H A V)
    (path : Path) (w : RunWorld σ H A V) :
    (runBatch peer job path [] w).1 =
      .ok ⟨{}, (peer.answer w.state (.echo ("no fixture JSON files under " ++ path.str) true)).1.map
        fun _ => 1⟩ := by
  show Except.ok (⟨{}, (call peer _ w).1.map fun _ => 1⟩ : RunEnd) = _
  rw [call_apply]

end EestReplay.Batch
