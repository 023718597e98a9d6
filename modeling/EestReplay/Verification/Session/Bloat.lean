import EestReplay.Verification.Session.Throwaway

/-! # The session of `bloat`

The geth of `bloat` mines on a datadir that is there before it, and a whole submission runs
against it. -/

namespace EestReplay.Bloat

open Dialogue Runs Export Throwaway

variable {σ : Type} {peer : Peer σ BloatReply} {eest : Eest}

/-- The servers of a bloated run. -/
def bloatServers (y : Exchange σ BloatReply) : Option Session.Event :=
  match y.query, y.reply with
  | .machine q, r => Session.observe q r
  | .host q, _ => observeHost q
  | _, _ => none

/-- The submission of a bloated run. -/
def bloatSubmission (y : Exchange σ BloatReply) : Option Execute.Event :=
  match y.query, y.reply with
  | .host q, r => Execute.observe q r
  | _, _ => none

theorem ofCmd_gethDevCmd (datadir : Path) (name : String) (rpcPort : ℕ) (chainId : ℤ)
    (devPeriod devGaslimit : ℕ) :
    Session.Server.ofCmd (gethDevCmd datadir name rpcPort chainId devPeriod devGaslimit) =
      some (.container name ("http://127.0.0.1:" ++ toString rpcPort)) := by
  have hports : toString rpcPort ++ ":8545" = toString rpcPort ++ (":" ++ "8545") := rfl
  simp only [Session.Server.ofCmd, gethDevCmd]
  rw [hports, Session.takeWhile_toString]

/-! ## The servers -/

theorem startDev_follows (datadir : Path) (chainId : ℤ) {s : Session.State} (hs : s.held = []) :
    Follows bloatServers Session.step s (startDev peer datadir chainId)
      (fun started t =>
        t.held = [⟨.container started.container started.rpcUrl, started.process, .booting⟩])
      (fun _ t => t.held = []) := by
  unfold startDev
  refine Follows.call_bind (fun _ _ => rfl) (fun (resolved : Path) => ?_) fun _ => hs
  refine Follows.call_bind (fun _ _ => rfl) (fun present => ?_) fun _ => hs
  split
  · exact Follows.throw hs
  · refine Follows.call_bind (fun _ _ => rfl) (fun (rpcPort : ℕ) => ?_) fun _ => hs
    refine Follows.call_bind (fun _ _ => rfl) (fun (suffix : String) => ?_) fun _ => hs
    refine Follows.call_bind (fun _ _ => rfl) (fun _ => ?_) fun _ => hs
    refine Follows.bind (S := fun (process : ℕ) t =>
      t.held = [⟨.container ("eest-bloat-" ++ suffix) ("http://127.0.0.1:" ++ toString rpcPort),
        process, .booting⟩]) (Follows.call ?_ ?_) ?_
    · have hcmd := ofCmd_gethDevCmd resolved ("eest-bloat-" ++ suffix) rpcPort chainId 1 60000000
      exact fun st process => Session.step_started process hcmd hs rfl
    · exact fun st e => ⟨s, rfl, hs⟩
    · exact fun process t ht => Follows.pure ht

theorem gethDevDatadir_servers {α : Type} (datadir : Path) (chainId : ℤ) (fuel : ℕ)
    (body : String → Command σ α) {s : Session.State} (hs : s.held = []) :
    Follows bloatServers Session.step s
      (gethDevDatadir peer datadir chainId fuel fun rpcUrl => onHost (body rpcUrl))
      (fun _ t => t.held = []) (fun _ t => t.held = []) := by
  refine Follows.scope
    (I := fun t : Session.State => t.held = [])
    (fun started t =>
      t.held = [⟨.container started.container started.rpcUrl, started.process, .ready⟩])
    (fun started => Session.Holds (.container started.container started.rpcUrl) started.process [])
    (startDev_follows datadir chainId hs) ?_ ?_ ?_
  · exact fun started t ht => Follows.embed (Session.waitForRpc_follows _ _ _ fuel ht)
  · intro started t ht
    have hworks : Session.works none t.held = true := by
      rw [ht]
      rfl
    refine (Follows.of_embed fun y => observeHost_steady hworks y.query).conseq ?_ ?_
    · rintro a u rfl
      exact Session.holds_ready ht
    · rintro e u rfl
      exact Session.holds_ready ht
  · rintro started t ⟨phase, hserving, ht⟩
    exact Follows.embed (Session.stop_leads hserving t ht)

/-- What is done before there is a geth. -/
theorem prepareDatadir_steady {L M : Type} {see : Exchange σ BloatReply → Option L}
    {step : M → L → Option M} {s : M} (hresolve : ∀ st path r, see ⟨st, .resolve path, r⟩ = none)
    (hrun : ∀ st cmd timeout r, see ⟨st, .runCaptured cmd timeout, r⟩ = none)
    (hmachine : ∀ st q r, Session.Quiet q → see ⟨st, .machine q, r⟩ = none) (options : Options)
    (seedAddr : String) :
    Follows see step s (prepareDatadir peer options seedAddr) (fun _ t => t = s)
      (fun _ t => t = s) := by
  have hsteady : ∀ {q : RunCall Unit Unit Unit}, Session.Quiet q →
      ∀ st r, advance step s (see ⟨st, .machine q, r⟩) = some s := fun hq st r => by
    rw [hmachine st _ r hq, advance_none]
  have hgen : Follows see step s (genDir peer options) (fun _ t => t = s) (fun _ t => t = s) := by
    unfold genDir
    cases options.workDir with
    | some workDir => exact Follows.pure rfl
    | none =>
        have hmkdtemp : Session.Quiet (.mkdtemp "eest-bloat-" : RunCall Unit Unit Unit) := fun _ => rfl
        exact Follows.call (fun st a => ⟨s, hsteady hmkdtemp st (.ok a), rfl⟩)
          fun st e => ⟨s, hsteady hmkdtemp st (.error e), rfl⟩
  unfold prepareDatadir
  split
  · refine hgen.bind ?_
    rintro dir t rfl
    unfold runStateActor writeSeedSpec
    refine Follows.call_bind (fun st r => by rw [hresolve, advance_none]) (fun dbDir => ?_) fun _ => rfl
    refine Follows.call_bind (hsteady fun _ => rfl) (fun _ => ?_) fun _ => rfl
    refine Follows.bind (S := fun _ u => u = t) ?_ ?_
    · refine Follows.call_bind (hsteady fun _ => rfl) (fun _ => ?_) fun _ => rfl
      exact Follows.pure rfl
    · rintro specPath u rfl
      refine Follows.call_bind (fun st r => by rw [hrun, advance_none]) (fun done => ?_) fun _ => rfl
      split
      · exact Follows.throw rfl
      · exact Follows.pure rfl
  · exact Follows.pure rfl
  · exact Follows.throw rfl

theorem bloat_servers (fuel : ℕ) (options : Options) :
    Follows bloatServers Session.step {} (bloatCmd peer eest fuel options)
      (fun _ t => t.held = []) (fun _ t => t.held = []) := by
  unfold bloatCmd
  refine Follows.lift_bind (fun seedAddr => ?_) fun _ => rfl
  have hprepare : Follows bloatServers Session.step {} (prepareDatadir peer options seedAddr)
      (fun _ t => t = ({} : Session.State)) (fun _ t => t = {}) :=
    prepareDatadir_steady (fun _ _ _ => rfl) (fun _ _ _ _ => rfl) (fun _ _ r hq => hq r) options
      seedAddr
  refine (hprepare.mono_error ?_).bind ?_
  · rintro e t rfl
    rfl
  · rintro datadir t rfl
    refine (gethDevDatadir_servers datadir options.chainId fuel _ rfl).bind ?_
    exact fun result t ht => Follows.pure ht

/-! ## The submission -/

theorem machine_unseen {α : Type} (s : Execute.State) (x : Running σ Unit Unit Unit α) :
    Follows bloatSubmission Execute.step s (onMachine x) (fun _ t => t = s) (fun _ t => t = s) :=
  Follows.of_embed fun _ => rfl

theorem startDev_unseen (s : Execute.State) (datadir : Path) (chainId : ℤ) :
    Follows bloatSubmission Execute.step s (startDev peer datadir chainId) (fun _ t => t = s)
      (fun _ t => t = s) := by
  unfold startDev
  refine Follows.call_bind (fun _ _ => rfl) (fun resolved => ?_) fun _ => rfl
  refine Follows.call_bind (fun _ _ => rfl) (fun present => ?_) fun _ => rfl
  split
  · exact Follows.throw rfl
  · refine Follows.call_bind (fun _ _ => rfl) (fun rpcPort => ?_) fun _ => rfl
    refine Follows.call_bind (fun _ _ => rfl) (fun suffix => ?_) fun _ => rfl
    refine Follows.call_bind (fun _ _ => rfl) (fun _ => ?_) fun _ => rfl
    exact Follows.call_bind (fun _ _ => rfl) (fun process => Follows.pure rfl) fun _ => rfl

theorem bloat_submission (fuel : ℕ) (options : Options) :
    Follows bloatSubmission Execute.step {} (bloatCmd peer eest fuel options)
      (fun result => Execute.Submitted result.1) (fun _ => Execute.Settled) := by
  have hfresh : Execute.Settled {} := ⟨.fresh, rfl, rfl⟩
  unfold bloatCmd
  refine Follows.lift_bind (fun seedAddr => ?_) fun _ => hfresh
  refine ((prepareDatadir_steady (fun _ _ _ => rfl) (fun _ _ _ _ => rfl) (fun _ _ _ _ => rfl)
    options seedAddr).mono_error (by rintro e t rfl; exact hfresh)).bind ?_
  rintro datadir t rfl
  refine Follows.bind (S := Execute.Submitted) ?_ ?_
  · unfold gethDevDatadir
    refine ((startDev_unseen {} _ _).mono_error (by rintro e t rfl; exact hfresh)).bind ?_
    rintro started t rfl
    have hbody : Follows bloatSubmission Execute.step {}
        (do
          onMachine (El.waitForRpc (machineOf peer) started.rpcUrl fuel)
          onHost (submitTransactions (hostOf peer) eest (options.submitArgs started.rpcUrl)))
        Execute.Submitted (fun _ => Execute.Settled) := by
      refine ((machine_unseen {} _).mono_error (by rintro e t rfl; exact hfresh)).bind ?_
      rintro _ t rfl
      exact Follows.embed (Execute.submitTransactions_follows _)
    refine hbody.tryFinally ?_ ?_
    · rintro result t hsubmitted
      refine (machine_unseen t _).conseq ?_ ?_
      · rintro _ u rfl
        exact hsubmitted
      · rintro _ u rfl
        exact hsubmitted.settled
    · rintro e t hsettled
      refine (machine_unseen t _).conseq ?_ ?_
      · rintro _ u rfl
        exact hsettled
      · rintro _ u rfl
        exact hsettled
  · rintro result t hsubmitted
    exact Follows.pure hsubmitted

variable (peer eest)

/-- Every bloated run holds one geth at a time and starts at most one `execute`. What it starts it
stops, or it has lost it: a call of the finalizer has failed, or only the client of a container
was killed. The proxy, `execute` and every query to the node find the geth ready, whatever the
machine, the host and state-actor answer. -/
theorem bloat_is_orderly (fuel : ℕ) (options : Options) (w : BloatWorld σ) :
    Orderly bloatServers bloatSubmission (asked (bloatCmd peer eest fuel options) w) := by
  have hservers : Follows bloatServers Session.step {} (bloatCmd peer eest fuel options)
      (fun _ t => t.held = []) (fun _ t => t.held = []) := bloat_servers fuel options
  have hsubmission : Follows bloatSubmission Execute.step {} (bloatCmd peer eest fuel options)
      (fun _ => Execute.Settled) (fun _ => Execute.Settled) :=
    (bloat_submission fuel options).conseq (fun _ _ ht => ht.settled) fun _ _ => id
  exact .of_runs (hservers.of_asked w) (hsubmission.of_asked w)

end EestReplay.Bloat
