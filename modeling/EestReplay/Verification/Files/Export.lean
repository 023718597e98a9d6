import EestReplay.Verification.Files.Submit
import EestReplay.Verification.Genesis.Devnet

/-! # The files of an export

What an export does that lasts, in its order. A consumer of its files finds a genesis that funds
the seed, and the transactions that were sent to a geth with this genesis. -/

namespace EestReplay.Export

open Dialogue DevnetGenesis Chainspec

variable {σ : Type} {peer : Peer σ ExportReply} {eest : Eest}

/-- The finalizer of a geth does nothing that lasts. -/
def machineDeed : RunCall Unit Unit Unit → Option Deed
  | .writeJson path value => some (.wrote path (.json value))
  | .writeText path text => some (.wroteText path text)
  | .run cmd true => some (.ran cmd)
  | .popen cmd _ => some (.ran cmd)
  | _ => none

def exportDeed (x : Exchange σ ExportReply) : Option Deed :=
  match x.query, x.reply with
  | .machine q, _ => machineDeed q
  | .host q, r => deed q r

/-! ## The script of an export -/

/-- An account that is given as the seed is that of the key from which `execute` spends. -/
def ExportArgs.SeedsKey (args : ExportArgs) (eest : Eest) : Prop :=
  ∀ seedAddr, args.seedAddr = some seedAddr → addressFromKey eest args.seedKey = .ok seedAddr

/-- What an export takes from its environment or finds on its way. -/
structure Script where
  seedAddr : String
  genesis : Json
  secret : String := ""
  rpcPort : ℕ := 0
  authPort : ℕ := 0
  suffix : String := ""
  proxyUrl : String := ""
  rawTxs : List String := []
  rows : List Row := []
  executeOk : Bool := false
  error : Option String := none

namespace Script

variable (s : Script) (args : ExportArgs)

/-- The script with this geth. -/
def on (secret : String) (rpcPort authPort : ℕ) (suffix : String) : Script :=
  { s with secret := secret, rpcPort := rpcPort, authPort := authPort, suffix := suffix }

def rpcUrl : String := "http://127.0.0.1:" ++ toString s.rpcPort

/-- The engine that `execute` drives, with the secret that the geth has, too. -/
def engine : String × Path :=
  ("http://127.0.0.1:" ++ toString s.authPort, args.workDir.child "jwt.hex")

/-- The genesis is written for the consumer, and for the geth that is started from it behind its
secret. -/
def boot : List Deed :=
  [.wrote (args.workDir.child "genesis.json") (.json s.genesis),
    .wroteText (args.workDir.child "jwt.hex") s.secret, .ran (El.initCmd args.workDir),
    .ran (El.gethCmd args.workDir ("eest-replay-" ++ s.suffix) s.rpcPort s.authPort)]

def capture (eest : Eest) : List Deed :=
  [.proxied s.rpcUrl s.proxyUrl,
    .ran (remoteCmd (some (s.engine args)) (exportExecuteArgs eest args s.proxyUrl)),
    .captured s.rawTxs]

def output : List Deed :=
  [.wrote (args.outputDir.child "transactions.csv") (.csv s.rows),
    .wrote (args.outputDir.child "meta.json")
      (.json (exportMeta args s.seedAddr s.rawTxs.length s.executeOk s.error))]

def upToCapture (eest : Eest) : List Deed :=
  .wrote (args.outputDir.child "genesis.json") (.json s.genesis) ::
    (s.boot args ++ s.capture args eest)

def deeds (eest : Eest) : List Deed := s.upToCapture args eest ++ s.output args

/-- The seed is the account that is given, or else that of the seed key. The genesis is of the
chain that `execute` is told, funds the seed, and activates the forks up to the one that the test
is for. -/
structure Sound (eest : Eest) : Prop where
  seed : args.seedAddr = some s.seedAddr ∨
    args.seedAddr = none ∧ addressFromKey eest args.seedKey = .ok s.seedAddr
  spends : args.SeedsKey eest → addressFromKey eest args.seedKey = .ok s.seedAddr
  chainId : chainIdOf s.genesis = some (.int args.chainId)
  funded : balanceOf s.genesis s.seedAddr = some (.str (Text.hex defaultPrefundWei))
  forks : ∃ i timeKey, timestampForks[i]? = some (timeKey, args.fork) ∧
    activated s.genesis = (timestampForks.take (i + 1)).map Prod.fst

/-- The rows are those of the capture, and a success has captured something. -/
structure Complete (eest : Eest) : Prop where
  rows : RowsOf eest 0 s.rawTxs s.rows
  passed : s.executeOk = true → s.rawTxs ≠ []

end Script

/-- The deeds are the beginning of a script. -/
def Begun (eest : Eest) (args : ExportArgs) (t : List Deed) : Prop :=
  t = [] ∨ ∃ s : Script, s.Sound args eest ∧
    (t <+: s.upToCapture args eest ∨ s.Complete eest ∧ t <+: s.deeds args eest)

theorem sound_of_genesis {repr : String → String} {args : ExportArgs} {s : Script}
    (hseed : args.seedAddr = some s.seedAddr ∨
      args.seedAddr = none ∧ addressFromKey eest args.seedKey = .ok s.seedAddr)
    (hgenesis : buildDevnetGenesis repr args.fork args.chainId [(s.seedAddr, defaultPrefundWei)] =
      .ok s.genesis) : s.Sound args eest where
  seed := hseed
  spends hkey := hseed.elim (hkey s.seedAddr) And.right
  chainId := chainIdOf_buildDevnetGenesis hgenesis
  funded := balanceOf_buildDevnetGenesis hgenesis
  forks := activated_buildDevnetGenesis hgenesis

/-! ## The parts -/

/-- What the host does for an export are its deeds. -/
theorem onHost_deeds {α : Type} {x : Command σ α} {past : List Deed} {S : α → List Deed → Prop}
    {E : PyError → List Deed → Prop} (hx : Follows deedOf Follows.record past x S E) :
    Follows exportDeed Follows.record past (onHost x) S E :=
  Follows.embed hx

/-- A call of the machine that does nothing that lasts. -/
theorem still_bind {α : Type} {q : RunCall Unit Unit Unit} {f : q.Value → Running σ Unit Unit Unit α}
    {peer : Peer σ (RunReply (H := Unit) (A := Unit) (V := Unit))} {past : List Deed}
    {T : α → List Deed → Prop} {E : PyError → List Deed → Prop} (hq : machineDeed q = none)
    (hf : ∀ a, Follows (fun y => machineDeed y.query) Follows.record past (f a) T E)
    (hE : ∀ e, E e past) :
    Follows (fun y => machineDeed y.query) Follows.record past (call peer q >>= f) T E := by
  refine Follows.call_bind (fun st r => ?_) hf hE
  rw [hq, advance_none]

/-- A call that does nothing that lasts. -/
def Passing (q : RunCall Unit Unit Unit) : Prop := machineDeed q = none

theorem still_follows {α : Type} {x : Running σ Unit Unit Unit α}
    {peer : Peer σ (RunReply (H := Unit) (A := Unit) (V := Unit))}
    (hx : Asks peer Passing x) (past : List Deed) :
    Follows exportDeed Follows.record past (onMachine x) (fun _ t => t = past)
      (fun _ t => t = past) := by
  refine Follows.embed (Follows.of_asks hx fun st q r hq => ?_)
  change advance Follows.record past (machineDeed q) = some past
  rw [show machineDeed q = none from hq, advance_none]

section Passing

variable {peer : Peer σ (RunReply (H := Unit) (A := Unit) (V := Unit))}

theorem passing_pollUntil (url : String) (body : Option Json) (deadline : ℚ) (message : String)
    (fuel : ℕ) (lastErr : String) :
    Asks peer Passing (pollUntil peer url body deadline message fuel lastErr) := by
  induction fuel generalizing lastErr with
  | zero => exact Asks.throw _
  | succ fuel ih =>
      unfold pollUntil
      refine Asks.bind (Asks.call rfl) fun now => ?_
      split
      · refine Asks.bind (Asks.ask rfl) fun answer => ?_
        split
        · split
          · exact Asks.pure _
          · exact ih _
        · split
          · exact Asks.bind (Asks.call rfl) fun _ => ih _
          · exact Asks.throw _
      · exact Asks.throw _

theorem passing_waitForRpc (rpcUrl : String) (fuel : ℕ) :
    Asks peer Passing (El.waitForRpc peer rpcUrl fuel) :=
  Asks.bind (Asks.call rfl) fun _ => passing_pollUntil _ _ _ _ _ _

theorem passing_stop (name : String) (process : ℕ) :
    Asks peer Passing (El.stop peer name process) := by
  refine Asks.bind (Asks.call rfl) fun _ => ?_
  refine Asks.bind (Asks.ask rfl) fun waited => ?_
  split
  · exact Asks.pure _
  · split
    · exact Asks.call rfl
    · exact Asks.throw _

end Passing

/-- The geth is booted from the genesis, with ports of its own. -/
theorem start_deeds {peer : Peer σ (RunReply (H := Unit) (A := Unit) (V := Unit))} (s : Script)
    (args : ExportArgs) (past : List Deed) :
    Follows (fun y => machineDeed y.query) Follows.record past
      (El.start peer s.genesis args.workDir)
      (fun started t => ∃ secret rpcPort authPort suffix,
        t = past ++ (s.on secret rpcPort authPort suffix).boot args ∧
          started.1.rpcUrl = (s.on secret rpcPort authPort suffix).rpcUrl ∧
          (started.1.authUrl, started.1.jwtSecretPath) = (s.on secret rpcPort authPort suffix).engine args)
      (fun _ t => ∃ secret rpcPort authPort suffix,
        t <+: past ++ (s.on secret rpcPort authPort suffix).boot args) := by
  let told : String → Script := fun secret => s.on secret s.rpcPort s.authPort s.suffix
  have hbegun : ∀ secret k, ∃ secret' rpcPort authPort suffix,
      past ++ ((told secret).boot args).take k <+:
        past ++ (s.on secret' rpcPort authPort suffix).boot args := by
    intro secret k
    exact ⟨secret, s.rpcPort, s.authPort, s.suffix,
      (List.prefix_append_right_inj past).mpr (List.take_prefix k _)⟩
  unfold El.start
  refine still_bind rfl (fun _ => ?_) fun _ => by simp
  refine Follows.bind (S := fun _ t => t = past ++ ((told "").boot args).take 1)
    (Follows.call (fun _ _ => ⟨_, rfl, rfl⟩) fun _ _ => ⟨_, rfl, hbegun "" 1⟩) ?_
  rintro _ t rfl
  refine still_bind rfl (fun (secret : String) => ?_) fun _ => hbegun "" 1
  have hsecret : past ++ ((told "").boot args).take 1 ++
      [.wroteText (args.workDir.child "jwt.hex") secret] = past ++ ((told secret).boot args).take 2 := by
    simp [told, Script.boot, Script.on]
  refine Follows.bind (S := fun _ t => t = past ++ ((told secret).boot args).take 2)
    (Follows.call (fun _ _ => ⟨_, rfl, hsecret⟩) fun _ _ => ⟨_, rfl, ?_⟩) ?_
  · rw [hsecret]
    exact hbegun secret 2
  rintro _ t rfl
  refine still_bind rfl (fun _ => ?_) fun _ => hbegun secret 2
  refine still_bind rfl (fun _ => ?_) fun _ => hbegun secret 2
  refine still_bind rfl (fun (rpcPort : ℕ) => ?_) fun _ => hbegun secret 2
  refine still_bind rfl (fun (authPort : ℕ) => ?_) fun _ => hbegun secret 2
  refine still_bind rfl (fun (suffix : String) => ?_) fun _ => hbegun secret 2
  have hinit : past ++ ((told secret).boot args).take 2 ++ [.ran (El.initCmd args.workDir)] =
      past ++ ((told secret).boot args).take 3 := by
    simp [told, Script.boot, Script.on]
  refine Follows.bind (S := fun _ t => t = past ++ ((told secret).boot args).take 3)
    (Follows.call (fun _ _ => ⟨_, rfl, hinit⟩) fun _ _ => ⟨_, rfl, ?_⟩) ?_
  · rw [hinit]
    exact hbegun secret 3
  rintro _ t rfl
  refine still_bind rfl (fun _ => ?_) fun _ => hbegun secret 3
  have hboot : past ++ ((told secret).boot args).take 3 ++
      [.ran (El.gethCmd args.workDir ("eest-replay-" ++ suffix) rpcPort authPort)] =
        past ++ (s.on secret rpcPort authPort suffix).boot args := by
    simp [told, Script.boot, Script.on]
  refine Follows.bind (S := fun _ t => t = past ++ (s.on secret rpcPort authPort suffix).boot args)
    (Follows.call (fun _ _ => ⟨_, rfl, hboot⟩) fun _ _ => ⟨_, rfl, ?_⟩) ?_
  · exact ⟨secret, rpcPort, authPort, suffix, by rw [hboot]⟩
  · rintro process t rfl
    exact Follows.pure ⟨secret, rpcPort, authPort, suffix, rfl, rfl, rfl⟩

/-- The script with this capture. -/
def Script.captures (s : Script) (proxyUrl : String) (rawTxs : List String) (rows : List Row) :
    Script :=
  { s with proxyUrl := proxyUrl, rawTxs := rawTxs, rows := rows }

theorem captureRows_deeds {peer : Peer σ HostReply} (s : Script) (args : ExportArgs)
    {handles : El.Handles} (hrpc : handles.rpcUrl = s.rpcUrl)
    (hengine : (handles.authUrl, handles.jwtSecretPath) = s.engine args) (past : List Deed) :
    Follows deedOf Follows.record past (captureRows peer eest args handles)
      (fun captured t => ∃ proxyUrl rawTxs, RowsOf eest 0 rawTxs captured.2.2 ∧
        t = past ++ (s.captures proxyUrl rawTxs captured.2.2).capture args eest)
      (fun _ t => ∃ proxyUrl rawTxs, t <+: past ++ (s.captures proxyUrl rawTxs []).capture args eest) := by
  have hbegun : ∀ proxyUrl rawTxs k, ∃ proxyUrl' rawTxs',
      past ++ ((s.captures proxyUrl rawTxs []).capture args eest).take k <+:
        past ++ (s.captures proxyUrl' rawTxs' []).capture args eest := by
    intro proxyUrl rawTxs k
    exact ⟨proxyUrl, rawTxs, (List.prefix_append_right_inj past).mpr (List.take_prefix k _)⟩
  unfold captureRows
  rw [hrpc, hengine]
  refine withProxy_deeds ?_ (fun proxyUrl => ?_) ?_
  · simp
  · have hran : past ++ [.proxied s.rpcUrl proxyUrl] ++
        [.ran (remoteCmd (some (s.engine args)) (exportExecuteArgs eest args proxyUrl))] =
          past ++ ((s.captures proxyUrl [] []).capture args eest).take 2 := by
      rw [List.append_assoc]
      rfl
    have hexecute : Follows deedOf Follows.record (past ++ [.proxied s.rpcUrl proxyUrl])
        (runRemote peer (some (s.engine args)) (exportExecuteArgs eest args proxyUrl)) _ _ :=
      runRemote_deeds _ _ _
    rw [hran] at hexecute
    refine (hexecute.mono_error ?_).bind ?_
    · rintro e t rfl
      exact hbegun proxyUrl [] 2
    · rintro ⟨executeOk, err⟩ t rfl
      refine Follows.bind (S := fun rawTxs t =>
        t = past ++ (s.captures proxyUrl rawTxs []).capture args eest) ?_ ?_
      · refine Follows.call (fun st rawTxs => ⟨_, rfl, ?_⟩) fun st e => ⟨_, rfl, hbegun proxyUrl [] 2⟩
        rw [List.append_assoc]
        rfl
      · rintro rawTxs t rfl
        refine ((enrich_deeds _ 0 rawTxs _).mono_error ?_).bind ?_
        · rintro e t rfl
          exact ⟨proxyUrl, rawTxs, List.prefix_rfl⟩
        · rintro rows t ⟨rfl, hrows⟩
          exact Follows.pure ⟨proxyUrl, rawTxs, hrows, rfl⟩
  · rintro ⟨executeOk, err, rows⟩ t ⟨proxyUrl, rawTxs, -, rfl⟩
    exact ⟨proxyUrl, rawTxs, List.prefix_rfl⟩

/-! ## The export -/

theorem exportVerdict_passed {executeOk : Bool} {err : Option String} {rawTxs : List String}
    {rows : List Row} (hrows : RowsOf eest 0 rawTxs rows)
    (h : (exportVerdict executeOk err rows).1 = true) : rawTxs ≠ [] := by
  rintro rfl
  obtain rfl : rows = [] := hrows
  cases executeOk with
  | true => simp [exportVerdict] at h
  | false => simp [exportVerdict] at h

/-- The geth of an export, around its capture. -/
theorem withGeth_deeds {s : Script} {args : ExportArgs} (fuel : ℕ) (hsound : s.Sound args eest) :
    Follows exportDeed Follows.record
      [.wrote (args.outputDir.child "genesis.json") (.json s.genesis)]
      (withGeth peer s.genesis args.workDir fuel fun handles =>
        onHost (captureRows (hostOf peer) eest args handles))
      (fun captured t => ∃ s' : Script, s'.Sound args eest ∧ s'.seedAddr = s.seedAddr ∧
        s'.rows = captured.2.2 ∧ RowsOf eest 0 s'.rawTxs s'.rows ∧ t = s'.upToCapture args eest)
      (fun _ => Begun eest args) := by
  have hbegun : ∀ {s' : Script} {t : List Deed}, s'.Sound args eest →
      t <+: s'.upToCapture args eest → Begun eest args t :=
    fun hs' ht => .inr ⟨_, hs', .inl ht⟩
  have hon : ∀ secret rpcPort authPort suffix,
      (s.on secret rpcPort authPort suffix).Sound args eest :=
    fun _ _ _ _ => ⟨hsound.seed, hsound.spends, hsound.chainId, hsound.funded, hsound.forks⟩
  have hcaptures : ∀ {s' : Script} (proxyUrl rawTxs rows), s'.Sound args eest →
      (s'.captures proxyUrl rawTxs rows).Sound args eest :=
    fun _ _ _ hs' => ⟨hs'.seed, hs'.spends, hs'.chainId, hs'.funded, hs'.forks⟩
  have hboot : ∀ {s' : Script} {t : List Deed}, s'.genesis = s.genesis →
      t <+: [.wrote (args.outputDir.child "genesis.json") (.json s.genesis)] ++ s'.boot args →
        t <+: s'.upToCapture args eest := by
    intro s' t hgenesis ht
    rw [← hgenesis] at ht
    exact ht.trans ⟨s'.capture args eest, by simp [Script.upToCapture]⟩
  unfold withGeth
  refine ((Follows.embed (start_deeds s args _)).mono_error ?_).bind ?_
  · rintro e t ⟨secret, rpcPort, authPort, suffix, ht⟩
    exact hbegun (hon secret rpcPort authPort suffix) (hboot rfl ht)
  · rintro started t ⟨secret, rpcPort, authPort, suffix, rfl, hrpc, hengine⟩
    have hwait : Asks (machineOf peer) Passing
        (El.waitForRpc (machineOf peer) started.1.rpcUrl fuel) := passing_waitForRpc _ _
    refine Follows.tryFinally (S := fun captured t => ∃ s' : Script, s'.Sound args eest ∧
        s'.seedAddr = s.seedAddr ∧ s'.rows = captured.2.2 ∧ RowsOf eest 0 s'.rawTxs s'.rows ∧
          t = s'.upToCapture args eest) (E := fun _ => Begun eest args) ?_ ?_ ?_
    · refine ((still_follows hwait _).mono_error ?_).bind ?_
      · rintro e t rfl
        exact hbegun (hon secret rpcPort authPort suffix) (hboot rfl List.prefix_rfl)
      · rintro _ t rfl
        refine (onHost_deeds (captureRows_deeds _ args hrpc hengine _)).conseq ?_ ?_
        · rintro captured t ⟨proxyUrl, rawTxs, hrows, rfl⟩
          refine ⟨_, hcaptures proxyUrl rawTxs captured.2.2 (hon secret rpcPort authPort suffix), rfl, rfl,
            hrows, ?_⟩
          simp [Script.upToCapture, Script.boot, Script.captures, Script.on]
        · rintro e t ⟨proxyUrl, rawTxs, ht⟩
          refine hbegun (hcaptures proxyUrl rawTxs [] (hon secret rpcPort authPort suffix)) ?_
          simpa [Script.upToCapture, Script.boot, Script.captures, Script.on] using ht
    · rintro captured t hdone
      refine (still_follows (passing_stop _ _) t).conseq ?_ ?_
      · rintro _ u rfl
        exact hdone
      · rintro _ u rfl
        obtain ⟨s', hs', -, -, -, rfl⟩ := hdone
        exact hbegun hs' List.prefix_rfl
    · rintro e t hfailed
      refine (still_follows (passing_stop _ _) t).conseq ?_ ?_
      · rintro _ u rfl
        exact hfailed
      · rintro _ u rfl
        exact hfailed

theorem exportTransactions_deeds (repr : String → String) (fuel : ℕ) (args : ExportArgs) :
    Follows exportDeed Follows.record [] (exportTransactions peer eest repr fuel args)
      (fun result t => ∃ s : Script, s.Sound args eest ∧ s.Complete eest ∧ t = s.deeds args eest ∧
        result.txCount = s.rawTxs.length ∧ result.executeOk = s.executeOk ∧ result.error = s.error)
      (fun _ => Begun eest args) := by
  have hnil : Begun eest args [] := .inl rfl
  unfold exportTransactions
  refine Follows.call_bind (fun _ _ => rfl) (fun _ => ?_) fun _ => hnil
  refine Follows.call_bind (fun _ _ => rfl) (fun _ => ?_) fun _ => hnil
  refine Follows.bind (S := fun seedAddr t => t = [] ∧ (args.seedAddr = some seedAddr ∨
    args.seedAddr = none ∧ addressFromKey eest args.seedKey = .ok seedAddr)) ?_ ?_
  · cases hseed : args.seedAddr with
    | some seedAddr => exact Follows.pure ⟨rfl, .inl rfl⟩
    | none => exact Follows.lift (fun seedAddr h => ⟨rfl, .inr ⟨rfl, h⟩⟩) fun _ _ => hnil
  rintro seedAddr t ⟨rfl, hseed⟩
  refine Follows.bind (S := fun genesis t => t = [] ∧ buildDevnetGenesis repr args.fork args.chainId
    [(seedAddr, defaultPrefundWei)] = .ok genesis) ?_ ?_
  · exact Follows.lift (fun genesis h => ⟨rfl, h⟩) fun _ _ => hnil
  rintro genesis t ⟨rfl, hgenesis⟩
  let s : Script := { seedAddr := seedAddr, genesis := genesis }
  have hsound : s.Sound args eest := sound_of_genesis hseed hgenesis
  let first : List Deed := [.wrote (args.outputDir.child "genesis.json") (.json genesis)]
  have hfirst : Begun eest args first := .inr ⟨s, hsound, .inl (by simp [first, s, Script.upToCapture])⟩
  refine Follows.bind (S := fun _ t => t = first)
    (Follows.call (fun _ _ => ⟨_, rfl, rfl⟩) fun _ _ => ⟨_, rfl, hfirst⟩) ?_
  rintro _ t rfl
  refine (withGeth_deeds fuel hsound).bind ?_
  rintro ⟨executeOk, err, rows⟩ t ⟨s', hs', hseed', rfl, hrows, rfl⟩
  let verdict := exportVerdict executeOk err s'.rows
  let s'' : Script := { s' with executeOk := verdict.1, error := verdict.2 }
  have hsound'' : s''.Sound args eest :=
    ⟨hs'.seed, hs'.spends, hs'.chainId, hs'.funded, hs'.forks⟩
  have hcomplete : s''.Complete eest := ⟨hrows, exportVerdict_passed hrows⟩
  have hbegun : ∀ k, Begun eest args (s'.upToCapture args eest ++ (s''.output args).take k) := by
    intro k
    refine .inr ⟨s'', hsound'', .inr ⟨hcomplete, ?_⟩⟩
    exact (List.prefix_append_right_inj _).mpr (List.take_prefix k _)
  refine Follows.bind (S := fun _ t => t = s'.upToCapture args eest ++ (s''.output args).take 1)
    (Follows.call (fun _ _ => ⟨_, rfl, rfl⟩) fun _ _ => ⟨_, rfl, hbegun 1⟩) ?_
  rintro _ t rfl
  have hmeta : s'.upToCapture args eest ++ (s''.output args).take 1 ++
      [.wrote (args.outputDir.child "meta.json")
        (.json (exportMeta args seedAddr s'.rows.length verdict.1 verdict.2))] =
          s''.deeds args eest := by
    have hseedAddr : seedAddr = s''.seedAddr := hseed'.symm
    rw [hrows.length_eq, hseedAddr, List.append_assoc]
    rfl
  refine Follows.bind (S := fun _ t => t = s''.deeds args eest)
    (Follows.call (fun _ _ => ⟨_, rfl, hmeta⟩) fun _ _ => ⟨_, rfl, ?_⟩) ?_
  · exact .inr ⟨s'', hsound'', .inr ⟨hcomplete, by rw [hmeta]⟩⟩
  · rintro _ t rfl
    exact Follows.pure ⟨s'', hsound'', hcomplete, rfl, hrows.length_eq, rfl, rfl⟩

variable (peer eest)

/-- What an export does is the beginning of a script, and the whole of it when it returns. The
geth that `execute` drives has the genesis of the output, of the chain that `execute` is told, in
which the seed is funded, from which `execute` spends unless another account was given; and the
CSV is read back as the capture, with the number of strings that the result and `meta.json`
count. -/
theorem export_is_replayable (repr : String → String) (fuel : ℕ) (args : ExportArgs)
    (writer : CsvWriter) (limit : ℕ) (w : ExportWorld σ) :
    let done := seen exportDeed (asked (exportTransactions peer eest repr fuel args) w)
    Begun eest args done ∧
      ∀ result, (exportTransactions peer eest repr fuel args w).1 = .ok result →
        ∃ s : Script, s.Sound args eest ∧ done = s.deeds args eest ∧
          result.txCount = s.rawTxs.length ∧ result.executeOk = s.executeOk ∧
          result.error = s.error ∧ (result.executeOk = true → s.rawTxs ≠ []) ∧
          ∀ text, csvText writer s.rows = some text →
            (Replays limit s.rawTxs text ↔ Fits writer.str limit s.rows) := by
  have hfollows : Follows exportDeed Follows.record [] (exportTransactions peer eest repr fuel args)
      (fun result t => ∃ s : Script, s.Sound args eest ∧ s.Complete eest ∧ t = s.deeds args eest ∧
        result.txCount = s.rawTxs.length ∧ result.executeOk = s.executeOk ∧ result.error = s.error)
      (fun _ => Begun eest args) := exportTransactions_deeds repr fuel args
  obtain ⟨hok, herr⟩ := hfollows.of_record w
  constructor
  · rcases hresult : (exportTransactions peer eest repr fuel args w).1 with e | result
    · exact herr e hresult
    · obtain ⟨s, hsound, hcomplete, hdone, -⟩ := hok result hresult
      exact .inr ⟨s, hsound, .inr ⟨hcomplete, by rw [hdone]⟩⟩
  · intro result hresult
    obtain ⟨s, hsound, hcomplete, hdone, hcount, hexecute, herror⟩ := hok result hresult
    refine ⟨s, hsound, hdone, hcount, hexecute, herror, ?_, ?_⟩
    · exact fun hpassed => hcomplete.passed (by rw [← hexecute]; exact hpassed)
    · exact fun text htext => replays_of_rowsOf hcomplete.rows htext

end EestReplay.Export
