import EestReplay.Verification.Submit.Semantics

/-! # The sidecar before the subprocess

A run that has a place for its recovery sidecar starts `execute` only when the sidecar
with the run's data is on disk. -/

namespace EestReplay.Export

open Dialogue

variable {σ ι : Type} {host : Host σ ι} {eest : Eest} {args : SubmitArgs}

/-- A JSON text that records a run. -/
structure Records (text : Json) (seedAddr eoaStart : String) (chainId : ℤ) (fork : String) :
    Prop where
  seedAddress : text.item "seed_address" = .ok (.str seedAddr)
  eoaStart : text.item "eoa_start" = .ok (.str eoaStart)
  chainId : text.item "chain_id" = .ok (.int chainId)
  fork : text.item "fork" = .ok (.str fork)

theorem records_recoveryMeta (seedAddr eoaStart : String) (chainId : ℤ) (fork rpcUrl : String) :
    Records (recoveryMeta seedAddr eoaStart chainId fork rpcUrl) seedAddr eoaStart chainId fork :=
  ⟨rfl, rfl, rfl, rfl⟩

/-- Some file of the disk records the run. -/
def OnDisk (host : Host σ ι) (s : σ) (eest : Eest) (args : SubmitArgs) (eoaStart : String) : Prop :=
  ∃ file text seedAddr, host.disk s file = some (.json text) ∧
    addressFromKey eest args.seedKey = .ok seedAddr ∧
    Records text seedAddr eoaStart args.chainId args.fork

/-- If the exchange started `execute`, the run was on disk at that moment. -/
def Covered (host : Host σ ι) (eest : Eest) (args : SubmitArgs) (x : Exchange σ HostReply) :
    Prop :=
  ∀ cmd cwd eoaStart, x.query = .popen cmd cwd → x.succeeded = true →
    eoaStartOf cmd = some eoaStart → OnDisk host x.before eest args eoaStart

/-! ## What the queries preserve -/

def Safe (host : Host σ ι) (eest : Eest) (args : SubmitArgs) (w : HostWorld σ) : Prop :=
  ∀ x ∈ w.log, Covered host eest args x

/-- All starts so far were covered, and the sidecar is in its file. -/
structure Ready (host : Host σ ι) (eest : Eest) (args : SubmitArgs) (path : Path) (text : Json)
    (w : HostWorld σ) : Prop where
  safe : Safe host eest args w
  written : host.disk w.state (host.file path) = some (.json text)

theorem Safe.step {w : HostWorld σ} (hw : Safe host eest args w) {q : HostCall}
    (hq : ∀ cmd cwd eoaStart, q = .popen cmd cwd → eoaStartOf cmd = some eoaStart →
      OnDisk host w.state eest args eoaStart) :
    Safe host eest args (w.step host.peer q) := by
  intro x hx
  rw [World.step_log] at hx
  rcases List.mem_append.mp hx with hx | hx
  · exact hw x hx
  · obtain rfl := List.mem_singleton.mp hx
    exact fun cmd cwd eoaStart hpopen _ hstart => hq cmd cwd eoaStart hpopen hstart

theorem safe_step {w : HostWorld σ} {q : HostCall} (hq : NoPopen q)
    (hw : Safe host eest args w) : Safe host eest args (w.step host.peer q) :=
  hw.step fun cmd cwd _ hpopen _ => absurd hpopen (hq cmd cwd)

theorem ready_step {path : Path} {text : Json} {seedAddr eoaStart : String} {w : HostWorld σ}
    {q : HostCall} (haddr : addressFromKey eest args.seedKey = .ok seedAddr)
    (htext : Records text seedAddr eoaStart args.chainId args.fork) (hq : Starting eoaStart q)
    (hw : Ready host eest args path text w) :
    Ready host eest args path text (w.step host.peer q) where
  safe := by
    apply hw.safe.step
    intro cmd cwd start hpopen hstart
    have heq : eoaStart = start := by
      have hcmd := hq.2.2 cmd cwd hpopen
      rw [hcmd] at hstart
      exact Option.some.inj hstart
    subst heq
    exact ⟨host.file path, text, seedAddr, hw.written, haddr, htext⟩
  written := by
    rw [World.step_state, host.frame w.state q (host.file path) (by simp [hq.1])]
    exact hw.written

theorem safe_of_asks {α : Type} {x : Command σ α} (hx : Asks host.peer Inert x) :
    Triple (Safe host eest args) x (fun _ => Safe host eest args) (fun _ => Safe host eest args) :=
  hx.triple fun _ _ hq => safe_step hq.2

/-! ## The parts of a run -/

/-- Where the sidecar goes, when there is a place for it. -/
theorem writeRecoveryMeta_ready (metaPath csvPath : Option Path) (text : Json) :
    Triple (Safe host eest args) (writeRecoveryMeta host.peer metaPath csvPath text)
      (fun written w => match written with
        | some path => Ready host eest args path text w
        | none => metaPath = none ∧ csvPath = none)
      (fun _ => Safe host eest args) := by
  unfold writeRecoveryMeta
  apply Triple.bind (S := fun target w => Safe host eest args w ∧
    (target = none → metaPath = none ∧ csvPath = none))
  · apply Triple.lift
    · intro target w htarget hw
      refine ⟨hw, ?_⟩
      rintro rfl
      cases metaPath with
      | some path => simp at htarget
      | none =>
          cases csvPath with
          | none => exact ⟨rfl, rfl⟩
          | some csv => cases hsuffix : csv.withSuffix ".recovery.json" <;> simp [hsuffix, Except.map] at htarget
    · exact fun _ _ _ hw => hw
  · intro target
    cases target with
    | none => exact Triple.pure fun w hw => hw.2 rfl
    | some path =>
        apply Triple.pre _ (fun w hw => hw.1)
        apply Triple.bind (S := fun _ => Safe host eest args)
        · exact Triple.call (fun w _ hw _ => safe_step (by simp [NoPopen]) hw)
            (fun w _ hw _ => safe_step (by simp [NoPopen]) hw)
        · intro u
          apply Triple.bind (S := fun _ => Ready host eest args path text)
          · apply Triple.call
            · intro w a hw hreply
              refine ⟨safe_step (by simp [NoPopen]) hw, ?_⟩
              exact host.writes w.state (.writeText path text) path rfl (by rw [hreply]; rfl)
            · exact fun w e hw _ => safe_step (by simp [NoPopen]) hw
          · exact fun v => Triple.pure fun w hw => hw

/-- While the sidecar is on disk, `execute` may start; the CSV comes after it. -/
theorem broadcast_safe {path : Path} {text : Json} {seedAddr eoaStart : String}
    (haddr : addressFromKey eest args.seedKey = .ok seedAddr)
    (htext : Records text seedAddr eoaStart args.chainId args.fork) :
    Triple (Ready host eest args path text) (broadcast host.peer eest args eoaStart)
      (fun _ => Safe host eest args) (fun _ => Safe host eest args) := by
  have hstarting : ∀ {α : Type} {x : Command σ α}, Asks host.peer (Starting eoaStart) x →
      Triple (Ready host eest args path text) x (fun _ => Ready host eest args path text)
        (fun _ => Ready host eest args path text) :=
    fun hx => hx.triple fun _ _ hq => ready_step haddr htext hq
  unfold broadcast
  cases args.csvPath with
  | none =>
      have hasks : Asks host.peer (Starting eoaStart)
          (runExecute host.peer (executeArgs eest args eoaStart args.rpcUrl)) :=
        asks_runExecute (executeArgs eest args eoaStart args.rpcUrl)
      refine Triple.bind ((hstarting hasks).conseq (fun _ => id) (fun _ _ => id)
        fun _ _ hw => hw.safe) ?_
      exact fun r => Triple.pure fun w hw => hw.safe
  | some csvPath =>
      refine Triple.bind ((hstarting (asks_capture args eoaStart)).conseq (fun _ => id) (fun _ _ hw => hw.safe)
        fun _ _ hw => hw.safe) ?_
      intro r
      refine Triple.bind (safe_of_asks (asks_enrich _ _ _)) ?_
      intro rows
      have hcall : ∀ q, NoPopen q → Triple (Safe host eest args) (call host.peer q)
          (fun _ => Safe host eest args) (fun _ => Safe host eest args) :=
        fun q hq => Triple.call (fun w _ hw _ => safe_step hq hw) (fun w _ hw _ => safe_step hq hw)
      refine Triple.bind (hcall _ (by simp [NoPopen])) ?_
      intro u
      refine Triple.bind (hcall _ (by simp [NoPopen])) ?_
      exact fun v => Triple.pure fun w hw => hw

theorem launch_safe {seedAddr : String} (eoaStart : String) (before : Option ℤ)
    (haddr : addressFromKey eest args.seedKey = .ok seedAddr)
    (hplace : args.metaPath ≠ none ∨ args.csvPath ≠ none) :
    Triple (Safe host eest args) (launch host.peer eest args seedAddr eoaStart before)
      (fun _ => Safe host eest args) (fun _ => Safe host eest args) := by
  unfold launch
  refine Triple.bind (writeRecoveryMeta_ready _ _ _) ?_
  intro written
  cases written with
  | none =>
      intro w hw
      exact absurd hw.1 (hplace.resolve_right fun h => h hw.2)
  | some path =>
      refine Triple.bind (broadcast_safe haddr (records_recoveryMeta _ _ _ _ _)) ?_
      intro r
      refine Triple.bind (safe_of_asks (asks_spent _ _ _)) ?_
      exact fun spentWei => Triple.pure fun w hw => hw

theorem submitTransactions_safe
    (hplace : args.metaPath ≠ none ∨ args.csvPath ≠ none ∨
      ∃ e, addressFromKey eest args.seedKey = .error e) :
    Triple (Safe host eest args) (submitTransactions host.peer eest args)
      (fun _ => Safe host eest args) (fun _ => Safe host eest args) := by
  unfold submitTransactions
  apply Triple.bind (safe_of_asks asks_chooseEoaStart)
  intro eoaStart
  cases haddr : addressFromKey eest args.seedKey with
  | error e => exact Triple.throw fun w hw => hw
  | ok seedAddr =>
      have hgiven : args.metaPath ≠ none ∨ args.csvPath ≠ none := by
        simpa [haddr] using hplace
      apply Triple.bind (S := fun addr w => addr = seedAddr ∧ Safe host eest args w)
      · exact Triple.pure fun w hw => ⟨rfl, hw⟩
      · intro addr w hw
        obtain ⟨rfl, hw⟩ := hw
        refine Triple.bind (safe_of_asks (asks_attempt (asks_getBalance _ _))) ?_ w hw
        intro before
        split
        · exact Triple.pure fun w hw => hw
        · exact launch_safe eoaStart before haddr hgiven

/-! ## When the run is covered -/

/-- A host that starts processes and does nothing else. -/
def launcher : Host Unit Unit where
  peer.answer _
    | .randbits k => (.ok ⟨0, Nat.two_pow_pos k⟩, ())
    | .popen _ _ => (.ok (), ())
    | _ => (.error ⟨.osError, "unavailable"⟩, ())
  file _ := ()
  disk _ _ := none
  frame _ _ _ _ := rfl
  writes _ q _ htarget hok := by cases q <;> simp_all [HostCall.target, Except.isOk, Except.toBool]
  reads_text _ _ _ h := by cases h

/-- Some exchange started `execute` uncovered. -/
def Reckless (eest : Eest) (args : SubmitArgs) (w : HostWorld Unit) : Prop :=
  ∃ x ∈ w.log, ¬ Covered launcher eest args x

theorem Reckless.step {w : HostWorld Unit} (hw : Reckless eest args w) (q : HostCall) :
    Reckless eest args (w.step launcher.peer q) := by
  obtain ⟨x, hx, hnot⟩ := hw
  exact ⟨x, List.mem_append_left _ hx, hnot⟩

theorem reckless_of_asks {α : Type} {x : Command Unit α} (hx : Asks launcher.peer Inert x) :
    Triple (Reckless eest args) x (fun _ => Reckless eest args) (fun _ => Reckless eest args) :=
  hx.triple fun _ q _ hw => hw.step q

/-- The launcher has no disk, so every start on it is uncovered. -/
theorem runExecute_reckless (execArgs : ExecuteArgs) :
    Triple (fun _ => True) (runExecute launcher.peer execArgs) (fun _ => Reckless eest args)
      (fun _ => Reckless eest args) := by
  unfold runExecute
  apply Triple.bind (S := fun _ => Reckless eest args)
  · apply Triple.call
    · intro w a _ _
      refine ⟨_, List.mem_append_right _ (List.mem_singleton_self _), ?_⟩
      intro hcovered
      obtain ⟨file, text, seedAddr, hdisk, -⟩ :=
        hcovered _ _ _ rfl rfl (eoaStartOf_executeCmd execArgs)
      simp [launcher] at hdisk
    · intro w e _ hreply
      simp [launcher] at hreply
  · intro u
    refine Triple.bind (reckless_of_asks (asks_waitExecute _)) ?_
    intro ended
    cases ended with
    | none => exact Triple.pure fun w hw => hw
    | some done =>
        dsimp only
        split
        · exact Triple.pure fun w hw => hw
        · exact Triple.pure fun w hw => hw

/-- The launcher knows no balance. -/
theorem attempt_getBalance_launcher (rpcUrl address : String) :
    Triple (fun _ => True) (attempt (Sweep.getBalance launcher.peer rpcUrl address))
      (fun balance _ => balance = none) (fun _ _ => False) := by
  apply Triple.tryCatch (F := fun e _ => e.isException = true)
  · apply Triple.bind (S := fun _ _ => False)
    · apply Triple.bind (S := fun _ _ => False)
      · apply Triple.call
        · intro w a _ hreply
          simp [launcher] at hreply
        · intro w e _ hreply
          obtain rfl : (⟨.osError, "unavailable"⟩ : PyError) = e := by
            simpa [launcher] using hreply
          rfl
      · exact fun _ w hw => absurd hw id
    · exact fun _ w hw => absurd hw id
  · intro e w he
    rw [if_pos he]
    exact Triple.pure (P := fun _ => True) (fun _ _ => rfl) w trivial

/-- Without a place for its sidecar a run starts `execute` all the same. -/
theorem submitTransactions_reckless {seedAddr : String} (hmeta : args.metaPath = none)
    (hcsv : args.csvPath = none) (haddr : addressFromKey eest args.seedKey = .ok seedAddr) :
    Triple (fun _ => True) (submitTransactions launcher.peer eest args)
      (fun _ => Reckless eest args) (fun _ => Reckless eest args) := by
  unfold submitTransactions
  apply Triple.bind (S := fun _ _ => True)
  · unfold chooseEoaStart
    cases args.eoaStart with
    | some eoaStart => exact Triple.pure fun _ _ => trivial
    | none =>
        apply Triple.bind (S := fun _ _ => True)
        · apply Triple.call
          · exact fun _ _ _ _ => trivial
          · intro w e _ hreply
            simp [launcher] at hreply
        · exact fun _ => Triple.pure fun _ _ => trivial
  · intro eoaStart
    rw [haddr]
    apply Triple.bind (S := fun _ _ => True) (Triple.pure fun _ _ => trivial)
    intro addr
    apply Triple.bind (S := fun balance _ => balance = none)
    · exact (attempt_getBalance_launcher _ _).conseq (fun _ => id) (fun _ _ => id)
        fun _ _ h => absurd h id
    · rintro before w rfl
      have hfloor : belowFloor args none = false := by
        unfold belowFloor
        cases args.minSeedBalanceWei <;> rfl
      have hlaunch : Triple (fun _ => True) (launch launcher.peer eest args addr eoaStart none)
          (fun _ => Reckless eest args) (fun _ => Reckless eest args) := by
        unfold launch
        rw [hmeta, hcsv]
        apply Triple.bind (S := fun _ _ => True) (Triple.pure fun _ _ => trivial)
        intro written
        apply Triple.bind (S := fun _ => Reckless eest args)
        · unfold broadcast
          rw [hcsv]
          refine Triple.bind (runExecute_reckless _) ?_
          exact fun r => Triple.pure fun w hw => hw
        · intro r
          refine Triple.bind (reckless_of_asks (asks_spent _ _ _)) ?_
          exact fun spentWei => Triple.pure fun w hw => hw
      rw [hfloor]
      exact hlaunch w trivial

/-- Every start of `execute` finds the run's sidecar on disk, on every host and however
the run ends, exactly when the run has a path for it (or ends at its seed key). -/
theorem sidecar_before_execute (eest : Eest) (args : SubmitArgs) :
    (∀ (σ ι : Type) (host : Host σ ι) (s : σ),
        ∀ x ∈ (submitTransactions host.peer eest args ⟨s, []⟩).2.log,
          ∀ cmd cwd eoaStart, x.query = .popen cmd cwd → x.succeeded = true →
            eoaStartOf cmd = some eoaStart → OnDisk host x.before eest args eoaStart) ↔
      args.metaPath ≠ none ∨ args.csvPath ≠ none ∨
        ∃ e, addressFromKey eest args.seedKey = .error e := by
  constructor
  · intro hall
    by_contra hnone
    simp only [not_or, ne_eq, not_not, not_exists] at hnone
    obtain ⟨hmeta, hcsv, haddr⟩ := hnone
    cases hkey : addressFromKey eest args.seedKey with
    | error e => exact haddr e hkey
    | ok seedAddr =>
        have hend := (submitTransactions_reckless hmeta hcsv hkey).result ⟨(), []⟩ trivial
        obtain ⟨x, hx, hnot⟩ := hend
        exact hnot (hall Unit Unit launcher () x hx)
  · intro hplace σ ι host s
    have hend : Safe host eest args (submitTransactions host.peer eest args ⟨s, []⟩).2 :=
      (submitTransactions_safe hplace).result ⟨s, []⟩ (by simp [Safe])
    exact hend

/-- A framework in which every key has an address, and a run with no path for a sidecar. -/
def plainEest : Eest where
  eoa _ := .ok "0xaff0ca253b97e54440965855cec0a8a2e2399896"
  signed _ := .ok ""
  keccak256 _ := ""
  transactionGasLimitCap _ := none
  ethText _ := ""
  str _ := ""

def bareArgs : SubmitArgs where
  testSelector := "tests/frontier"
  fork := "Osaka"
  rpcUrl := "http://127.0.0.1:8545"
  chainId := 7928
  specsDir := ⟨"", ["..", "execution-specs"]⟩
  seedKey := "0x04b9f63ecf84210c5366c66d68fa1f5da1fa4f634fad6dfc86178e4d79ff9e59"
  eoaStart := some "1"

theorem uncovered_bareArgs :
    ∃ x ∈ (submitTransactions launcher.peer plainEest bareArgs ⟨(), []⟩).2.log,
      ¬ Covered launcher plainEest bareArgs x :=
  (submitTransactions_reckless rfl rfl rfl).result ⟨(), []⟩ trivial

end EestReplay.Export
