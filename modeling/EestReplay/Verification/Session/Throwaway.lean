import EestReplay.Model.Bloat
import EestReplay.Verification.Session.Execute
import EestReplay.Verification.Session.Servers

/-! # The sessions of `export` and `bloat`

Both start a geth of their own and run `execute` against it. What they ask follows both machines,
that of the servers and that of the submission, and `execute` and every query to the node find
the geth ready. -/

namespace EestReplay.Throwaway

open Dialogue Runs Export

variable {σ : Type}

/-- A call that needs the node: of the proxy, of `execute`, or to the node itself. -/
def needsNode : HostCall → Bool
  | .post _ _ _ _ => true
  | .startProxy _ => true
  | .snapshot => true
  | .stopProxy => true
  | .popen _ _ => true
  | .communicate _ => true
  | .killpg => true
  | _ => false

/-- What a call to the host shows of the servers. -/
def observeHost (q : HostCall) : Option Session.Event :=
  if needsNode q then some (.worked none) else none

theorem observeHost_steady {s : Session.State} (hs : Session.works none s.held = true)
    (q : HostCall) : advance Session.step s (observeHost q) = some s := by
  have hworked : Session.step s (.worked none) = some s := by
    simp only [Session.step, hs, if_true]
  unfold observeHost
  split
  · exact hworked
  · rfl

/-- A command that keeps to both machines, and finds its node ready. -/
structure Orderly {Q : Type} {R : Q → Type} (servers : Exchange σ R → Option Session.Event)
    (submission : Exchange σ R → Option Execute.Event) (log : List (Exchange σ R)) : Prop where
  session : Session.IsSession (seen servers log)
  reaped : Session.Reaped (seen servers log)
  ready : Always (fun past y => servers y = some (.worked none) → ∃ s : Session.State,
    run Session.step {} (seen servers past) = some s ∧ Session.InReach none s.held ∧
      Session.Answered (seen servers past) s.held) log
  orderly : ∃ t, run Execute.step {} (seen submission log) = some t ∧ Execute.Settled t
  once : (seen submission log).countP Execute.Event.starts ≤ 1

theorem Orderly.of_runs {Q : Type} {R : Q → Type} {servers : Exchange σ R → Option Session.Event}
    {submission : Exchange σ R → Option Execute.Event} {log : List (Exchange σ R)}
    (hservers : ∃ s, run Session.step {} (seen servers log) = some s ∧ s.held = [])
    (hsubmission : ∃ t, run Execute.step {} (seen submission log) = some t ∧ Execute.Settled t) :
    Orderly servers submission log where
  session := by
    obtain ⟨s, hrun, hheld⟩ := hservers
    exact .of_run hrun hheld
  reaped := by
    obtain ⟨s, hrun, hheld⟩ := hservers
    exact .of_session (.of_run hrun hheld)
  ready := by
    intro past y rest hlog hy
    obtain ⟨s, hrun, -⟩ := hservers
    have hseen : seen servers (y :: rest) = .worked none :: seen servers rest :=
      List.filterMap_cons_some hy
    rw [hlog, seen_append, hseen] at hrun
    exact Session.worked_of_run hrun
  orderly := hsubmission
  once := by
    obtain ⟨t, hrun, -⟩ := hsubmission
    exact Execute.started_once hrun

/-! ## `export` -/

/-- The servers of an export. -/
def exportServers (y : Exchange σ ExportReply) : Option Session.Event :=
  match y.query, y.reply with
  | .machine q, r => Session.observe q r
  | .host q, _ => observeHost q

/-- The submission of an export. -/
def exportSubmission (y : Exchange σ ExportReply) : Option Execute.Event :=
  match y.query, y.reply with
  | .machine _, _ => none
  | .host q, r => Execute.observe q r

variable {peer : Peer σ ExportReply} {eest : Eest}

theorem withGeth_servers {α : Type} (genesis : Json) (workDir : Path) (fuel : ℕ)
    (body : El.Handles → Command σ α) {s : Session.State} (hs : s.held = []) :
    Follows exportServers Session.step s
      (withGeth peer genesis workDir fuel fun handles => onHost (body handles))
      (fun _ t => t.held = []) (fun _ t => t.held = []) := by
  refine Follows.scope
    (I := fun t : Session.State => t.held = [])
    (fun started t => t.held = [⟨.container started.1.container started.1.rpcUrl, started.2, .ready⟩])
    (fun started => Session.Holds (.container started.1.container started.1.rpcUrl) started.2 [])
    (Follows.embed (Session.start_follows genesis workDir hs)) ?_ ?_ ?_
  · exact fun started t ht => Follows.embed (Session.waitForRpc_follows _ _ _ fuel ht)
  · intro started t ht
    have hworks : Session.works none t.held = true := by
      rw [ht]
      rfl
    refine (Follows.of_embed fun y => observeHost_steady hworks y.query).conseq ?_ ?_
    · rintro a u rfl
      exact Session.holds_ready ht
    · rintro e u rfl
      exact Session.holds_ready ht
  · rintro started t ⟨phase, hserving, ht⟩
    exact Follows.embed (Session.stop_leads hserving t ht)

theorem export_servers (repr : String → String) (fuel : ℕ) (args : ExportArgs) :
    Follows exportServers Session.step {} (exportTransactions peer eest repr fuel args)
      (fun _ t => t.held = []) (fun _ t => t.held = []) := by
  unfold exportTransactions
  refine Follows.call_bind (fun _ _ => rfl) (fun _ => ?_) fun _ => rfl
  refine Follows.call_bind (fun _ _ => rfl) (fun _ => ?_) fun _ => rfl
  refine Follows.lift_bind (fun seedAddr => ?_) fun _ => rfl
  refine Follows.lift_bind (fun genesis => ?_) fun _ => rfl
  refine Follows.call_bind (fun _ _ => rfl) (fun _ => ?_) fun _ => rfl
  refine (withGeth_servers genesis args.workDir fuel _ rfl).bind ?_
  rintro ⟨executeOk, err, rows⟩ t ht
  refine Follows.call_bind (fun _ _ => rfl) (fun _ => ?_) fun _ => ht
  refine Follows.call_bind (fun _ _ => rfl) (fun _ => ?_) fun _ => ht
  exact Follows.pure ht

theorem captureRows_follows {peer : Peer σ HostReply} (args : ExportArgs) (handles : El.Handles) :
    Follows Execute.see Execute.step {} (captureRows peer eest args handles)
      (fun _ t => t = ⟨none, .done⟩) (fun _ => Execute.Settled) := by
  refine Execute.withProxy_follows fun url => ?_
  have hproxied : ∀ url' ∈ some url, url = url' := fun url' hurl' => Option.some.inj hurl'
  refine ((Execute.runRemote_follows _ _ hproxied).mono_error fun _ _ => Execute.Raised.idle).bind ?_
  rintro ⟨executeOk, err⟩ t rfl
  refine ((Execute.snapshot_leads url).mono_error fun _ _ ht => ⟨.done, ht, rfl⟩).bind ?_
  rintro rawTxs t rfl
  refine ((Execute.posting_leads rfl (posts_enrich _ _ _)).mono_error
    fun _ _ ht => ⟨.done, ht, rfl⟩).bind ?_
  rintro rows t rfl
  exact Follows.pure rfl

theorem machine_submission {α : Type} (s : Execute.State) (x : Running σ Unit Unit Unit α) :
    Follows exportSubmission Execute.step s (Export.onMachine x) (fun _ t => t = s)
      (fun _ t => t = s) :=
  Follows.of_embed fun _ => rfl

theorem export_submission (repr : String → String) (fuel : ℕ) (args : ExportArgs) :
    Follows exportSubmission Execute.step {} (exportTransactions peer eest repr fuel args)
      (fun _ t => t = ⟨none, .done⟩) (fun _ => Execute.Settled) := by
  have hfresh : Execute.Settled {} := ⟨.fresh, rfl, rfl⟩
  unfold exportTransactions
  refine Follows.call_bind (fun _ _ => rfl) (fun _ => ?_) fun _ => hfresh
  refine Follows.call_bind (fun _ _ => rfl) (fun _ => ?_) fun _ => hfresh
  refine Follows.lift_bind (fun seedAddr => ?_) fun _ => hfresh
  refine Follows.lift_bind (fun genesis => ?_) fun _ => hfresh
  refine Follows.call_bind (fun _ _ => rfl) (fun _ => ?_) fun _ => hfresh
  refine Follows.bind (S := fun _ t => t = ⟨none, .done⟩) ?_ ?_
  · unfold withGeth
    refine ((machine_submission {} _).mono_error (by rintro e t rfl; exact hfresh)).bind ?_
    rintro started t rfl
    have hbody : Follows exportSubmission Execute.step {}
        (do
          Export.onMachine (El.waitForRpc (Export.machineOf peer) started.1.rpcUrl fuel)
          Export.onHost (captureRows (Export.hostOf peer) eest args started.1))
        (fun _ t => t = ⟨none, .done⟩) (fun _ => Execute.Settled) := by
      refine ((machine_submission {} _).mono_error (by rintro e t rfl; exact hfresh)).bind ?_
      rintro _ t rfl
      exact Follows.embed (captureRows_follows args started.1)
    refine hbody.tryFinally ?_ ?_
    · rintro r t rfl
      exact (machine_submission _ _).mono_error (by rintro e t rfl; exact ⟨.done, rfl, rfl⟩)
    · rintro e t hsettled
      refine (machine_submission t _).conseq ?_ ?_
      · rintro _ u rfl
        exact hsettled
      · rintro _ u rfl
        exact hsettled
  · rintro ⟨executeOk, err, rows⟩ t rfl
    refine Follows.call_bind (fun _ _ => rfl) (fun _ => ?_) fun _ => ⟨.done, rfl, rfl⟩
    refine Follows.call_bind (fun _ _ => rfl) (fun _ => ?_) fun _ => ⟨.done, rfl, rfl⟩
    exact Follows.pure rfl

variable (peer eest)

/-- Every export holds one geth at a time and starts at most one `execute`. What it starts it
stops, or it has lost it: a call of the finalizer has failed, or only the client of a container
was killed. The proxy, `execute` and every query to the node find the geth ready, whatever the
machine and the host answer. -/
theorem export_is_orderly (repr : String → String) (fuel : ℕ) (args : ExportArgs)
    (w : ExportWorld σ) :
    Orderly exportServers exportSubmission
      (asked (exportTransactions peer eest repr fuel args) w) := by
  have hservers : Follows exportServers Session.step {}
      (exportTransactions peer eest repr fuel args) (fun _ t => t.held = [])
      (fun _ t => t.held = []) :=
    export_servers repr fuel args
  have hsubmission : Follows exportSubmission Execute.step {}
      (exportTransactions peer eest repr fuel args) (fun _ => Execute.Settled)
      (fun _ => Execute.Settled) :=
    (export_submission repr fuel args).conseq (fun _ _ ht => Execute.Settled.of_eq rfl ht)
      fun _ _ => id
  exact .of_runs (hservers.of_asked w) (hsubmission.of_asked w)

end EestReplay.Throwaway
