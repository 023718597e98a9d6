import EestReplay.Verification.Batch.Calm
import EestReplay.Verification.Batch.Failures
import EestReplay.Verification.Submit.Verdicts

/-! # Success with something behind it

The three commands that report a success: an export asks for a captured transaction, a
submission and a batch do not ask for anything to have happened. -/

namespace EestReplay

open Dialogue Export Batch

/-! ## What success is to mean -/

section

variable {σ : Type} (peer : Peer σ HostReply) (exporter : Peer σ ExportReply) (eest : Eest)
  (repr : String → String) (fuel : ℕ) (exported : ExportArgs) (submitted : SubmitArgs)
  (csvPath : Path)

/-- A submission with a place for its CSV. -/
def submission : Command σ SubmitResult :=
  submitTransactions peer eest { submitted with csvPath := some csvPath }

/-- How `execute` ended in a submission, and what was captured. -/
def submissionSaid (w : HostWorld σ) : Bool × List String :=
  heard (asked (submission peer eest submitted csvPath) w)

/-- The same of an export. -/
def exportSaid (w : ExportWorld σ) : Bool × List String :=
  heard (hosted (asked (exportTransactions exporter eest repr fuel exported) w))

/-- An export that reports success has captured something. -/
def ExportHonest (w : ExportWorld σ) : Prop :=
  ∀ result, (exportTransactions exporter eest repr fuel exported w).1 = .ok result →
    result.executeOk = true → (exportSaid exporter eest repr fuel exported w).2 ≠ []

/-- So has a submission. -/
def SubmissionHonest (w : HostWorld σ) : Prop :=
  ∀ result, (submission peer eest submitted csvPath w).1 = .ok result →
    result.executeOk = true → (submissionSaid peer eest submitted csvPath w).2 ≠ []

/-- An export and a submission of the same outcome and capture report the same. -/
def Alike (we : ExportWorld σ) (ws : HostWorld σ) : Prop :=
  ∀ r s, (exportTransactions exporter eest repr fuel exported we).1 = .ok r →
    (submission peer eest submitted csvPath ws).1 = .ok s →
    exportSaid exporter eest repr fuel exported we = submissionSaid peer eest submitted csvPath ws →
    r.executeOk = s.executeOk

/-- When `execute` passed in a submission that returned, something was captured. -/
def Captured (w : HostWorld σ) : Prop :=
  ∀ result, (submission peer eest submitted csvPath w).1 = .ok result →
    (submissionSaid peer eest submitted csvPath w).1 = true →
    (submissionSaid peer eest submitted csvPath w).2 ≠ []

end

/-- On these files, whatever the machine does, a batch that exits 0 has compared a block, and
every fixture in it passed. -/
def BatchHonest {H A V : Type} [DecidableEq V] (testing : ExecutionTesting H A V)
    (hash : FixedBytes H) (addr : FixedBytes A) (printing : Printing) (validate : Validate H A V)
    (d : Directory) (options : Options) : Prop :=
  ∀ (σ : Type) (peer : Peer σ (RunReply (H := H) (A := A) (V := V))) (fuel : ℕ)
    (w : RunWorld σ H A V), Shows peer d →
    ∀ done, (run peer testing hash addr printing fuel validate options w).1 = .ok done →
      done.exit = .ok 0 → Compared done.report

/-! ## When it does -/

section

variable {σ : Type} {peer : Peer σ HostReply} {exporter : Peer σ ExportReply} {eest : Eest}
  {repr : String → String} {fuel : ℕ} {exported : ExportArgs} {submitted : SubmitArgs}
  {csvPath : Path}

theorem export_honest (w : ExportWorld σ) :
    ExportHonest exporter eest repr fuel exported w := by
  intro result hrun hok hnone
  obtain ⟨hverdict, -⟩ := export_verdict exporter eest hrun
  have hsaid : (heard (hosted (asked (exportTransactions exporter eest repr fuel exported) w))).2 =
    [] := hnone
  rw [hok, hsaid] at hverdict
  simp at hverdict

theorem submission_verdict {w : HostWorld σ} {result : SubmitResult}
    (hrun : (submission peer eest submitted csvPath w).1 = .ok result) :
    result.executeOk = (submissionSaid peer eest submitted csvPath w).1 :=
  submit_verdict peer eest rfl hrun

theorem submission_honest_iff (w : HostWorld σ) :
    SubmissionHonest peer eest submitted csvPath w ↔ Captured peer eest submitted csvPath w := by
  constructor
  · intro h result hrun hpassed
    exact h result hrun ((submission_verdict hrun).trans hpassed)
  · intro h result hrun hok
    exact h result hrun ((submission_verdict hrun).symm.trans hok)

/-- Where nothing was captured without a failure, both pass on how `execute` ended. -/
theorem alike_of_captured {ws : HostWorld σ} (h : Captured peer eest submitted csvPath ws)
    (we : ExportWorld σ) :
    Alike peer exporter eest repr fuel exported submitted csvPath we ws := by
  intro r s hexport hsubmit hsame
  obtain ⟨hverdict, -⟩ := export_verdict exporter eest hexport
  have hsaid : r.executeOk = ((exportSaid exporter eest repr fuel exported we).1 &&
      !(exportSaid exporter eest repr fuel exported we).2.isEmpty) := hverdict
  rw [hsaid, submission_verdict hsubmit, hsame]
  cases hpassed : (submissionSaid peer eest submitted csvPath ws).1 with
  | false => rfl
  | true =>
      have hsome := h s hsubmit hpassed
      simpa using hsome

end

theorem batch_honest_iff {H A V : Type} [DecidableEq V] (testing : ExecutionTesting H A V)
    (hash : FixedBytes H) (addr : FixedBytes A) (printing : Printing) (validate : Validate H A V)
    (d : Directory) (options : Options) :
    BatchHonest testing hash addr printing validate d options ↔
      ¬ Hollow validate d options.path := by
  constructor
  · intro h hhollow
    obtain ⟨done, u, hrun, hexit, hblank⟩ :=
      run_hollow d testing hash addr printing hhollow ⟨(), []⟩
    obtain ⟨⟨r, hr, hblocks⟩, -⟩ := h Unit (calm d) 1 ⟨(), []⟩ (shows_calm d) done
      (congrArg Prod.fst hrun) hexit
    exact hblocks (hblank r hr).2
  · intro hhollow σ peer fuel w hshows done hrun hexit
    exact run_yields hshows fuel hhollow w done hrun hexit

/-- Success is never vacuous exactly when no submission had `execute` pass with nothing
captured, and the fixture files are not hollow. An export is never vacuous. -/
theorem success_iff {σ H A V : Type} [DecidableEq V] (peer : Peer σ HostReply)
    (exporter : Peer σ ExportReply) (eest : Eest) (repr : String → String) (fuel : ℕ)
    (exported : ExportArgs) (submitted : SubmitArgs) (csvPath : Path) (we : ExportWorld σ)
    (ws : HostWorld σ) (testing : ExecutionTesting H A V) (hash : FixedBytes H)
    (addr : FixedBytes A) (printing : Printing) (validate : Validate H A V) (d : Directory)
    (options : Options) :
    (ExportHonest exporter eest repr fuel exported we ∧
      SubmissionHonest peer eest submitted csvPath ws ∧
      Alike peer exporter eest repr fuel exported submitted csvPath we ws ∧
      BatchHonest testing hash addr printing validate d options) ↔
    (Captured peer eest submitted csvPath ws ∧ ¬ Hollow validate d options.path) := by
  rw [submission_honest_iff, batch_honest_iff]
  constructor
  · rintro ⟨-, hcaptured, -, hbatch⟩
    exact ⟨hcaptured, hbatch⟩
  · rintro ⟨hcaptured, hbatch⟩
    exact ⟨export_honest we, hcaptured, alike_of_captured hcaptured we, hbatch⟩

/-- A fixture file without an entry. -/
def emptyFiles : Directory where
  isFile _ := .ok true
  isDir _ := .ok false
  rglob _ _ := .ok []
  content _ := .ok (.obj [])

def emptyRun : Options where
  path := ⟨"/", ["fixtures", "empty.json"]⟩

/-- A framework that validates nothing. -/
def rejectAll : Validate Unit Unit Unit := fun _ => .error ⟨.valueError, "validation error"⟩

theorem hollow_emptyFiles : Hollow rejectAll emptyFiles emptyRun.path :=
  ⟨[emptyRun.path], rfl, by simp, fun _ _ => ⟨[], rfl, by simp⟩⟩

/-- A submission of which `execute` passes without a transaction, and a batch over a file
without an entry. -/
theorem vacuous_success :
    ¬ SubmissionHonest (recorded []) plainEest bareArgs recordedCsv ⟨(), []⟩ ∧
      ¬ BatchHonest Runner.unitTesting Runner.unitBytes Runner.unitBytes Runner.unitPrinting rejectAll
        emptyFiles emptyRun := by
  constructor
  · intro h
    have hrun : (submission (recorded []) plainEest bareArgs recordedCsv ⟨(), []⟩).1 = .ok _ := rfl
    exact h _ hrun rfl rfl
  · intro h
    exact (batch_honest_iff _ _ _ _ _ _ _).mp h hollow_emptyFiles

end EestReplay
