import EestReplay.Verification.Batch.Exit
import EestReplay.Verification.Build.Modes
import EestReplay.Verification.Chain.Client
import Mathlib.Tactic.Linarith

/-! # No false alarm

On a machine that does what it is told, a container runs the client that was booted from the
genesis in its directory. When that client reproduces every fixture of a batch, the batch exits 0,
whichever way the blocks are built. -/

namespace EestReplay.Honest

open Dialogue Batch Runner Simbuild

variable {σ H A V : Type}

/-! ## The machine -/

/-- The mount of a directory. -/
def mountOf (dir : Path) : String := dir.str ++ ":/work"

/-- What a machine has come to: the texts that were written, the genesis in a directory and in
the datadir that was initialised from it, by their mount, the URLs of the servers that were
started, and the client that runs. -/
structure Docker (H A V : Type) where
  texts : List (Path × String) := []
  genesis : List (String × Json) := []
  datadirs : List (String × Json) := []
  up : List String := []
  el : Option (Client.State H A V) := none

/-- What a container that was started runs. -/
def Docker.popen (c : Client H A V) (v : Docker H A V) (cmd : List String) : Docker H A V :=
  { v with
    up := ((Session.Server.ofCmd cmd).map Session.Server.probeUrl).toList ++ v.up
    el :=
      match cmd with
      | _ :: "run" :: _ :: "--name" :: _ :: _ :: _ :: _ :: _ :: _ :: mount :: _ =>
        (v.datadirs.lookup mount).map c.boot
      | _ => v.el }

/-- What a call makes of the machine. -/
def Docker.next (c : Client H A V) (v : Docker H A V) : RunCall H A V → Docker H A V
  | .writeText path text => { v with texts := (path, text) :: v.texts }
  | .writeJson path value =>
    if path.name = "genesis.json" then
      { v with genesis := (mountOf path.parent, value) :: v.genesis }
    else v
  | .run (_ :: "run" :: _ :: _ :: mount :: _) _ =>
    { v with datadirs := ((v.genesis.lookup mount).map (mount, ·)).toList ++ v.datadirs }
  | .popen cmd _ => v.popen c cmd
  | _ => v

/-- The calls that such a machine cannot refuse. -/
def Works : RunCall H A V → Bool
  | .isFile _ | .isDir _ | .rglob _ _ | .readJson _ | .readText _ | .probe _ _ _ | .drive _ => false
  | _ => true

section Docker

variable (c : Client H A V) (v : Docker H A V)

theorem next_genesis (workDir : Path) (genesis : Json) :
    v.next c (.writeJson (workDir.child "genesis.json") genesis) =
      { v with genesis := (mountOf workDir, genesis) :: v.genesis } := by
  have hname : (workDir.child "genesis.json").name = "genesis.json" := by
    simp [Path.name, Path.child]
  have hparent : (workDir.child "genesis.json").parent = workDir := by
    simp [Path.parent, Path.child]
  show (if _ then _ else _) = _
  rw [if_pos hname, hparent]

/-- An initialisation reads the genesis in the directory that is mounted. -/
theorem next_init (workDir : Path) (check : Bool) {g : Json}
    (h : v.genesis.lookup (mountOf workDir) = some g) :
    v.next c (.run (El.initCmd workDir) check) =
      { v with datadirs := (mountOf workDir, g) :: v.datadirs } := by
  show { v with datadirs := ((v.genesis.lookup (mountOf workDir)).map _).toList ++ v.datadirs } = _
  rw [h]
  rfl

/-- A geth is booted from the datadir in the directory that is mounted. -/
theorem next_geth (workDir log : Path) (name : String) (rpcPort authPort : ℕ) :
    v.next c (.popen (El.gethCmd workDir name rpcPort authPort) log) =
      { v with
        up := ("http://127.0.0.1:" ++ toString rpcPort) :: v.up
        el := (v.datadirs.lookup (mountOf workDir)).map c.boot } := by
  show v.popen c _ = _
  unfold Docker.popen
  rw [Session.ofCmd_gethCmd]
  rfl

/-- A builder leaves the client that runs. -/
theorem next_simbuild (binary : Path) (elEngineUrl : String) (jwtSecretPath log : Path) (port : ℕ)
    (buildWaitMs : ℤ) :
    v.next c (.popen (Buildoor.simbuildCmd binary elEngineUrl jwtSecretPath port buildWaitMs) log) =
      { v with up := ("http://127.0.0.1:" ++ toString port ++ "/healthz") :: v.up } := by
  show v.popen c _ = _
  unfold Docker.popen
  rw [Session.ofCmd_simbuildCmd]
  rfl

end Docker

variable [DecidableEq H]

/-- The machine shows the directory, does what it is told, and answers at once; its drive is that
of the client with a builder in front of it. -/
structure Obeys (c : Client H A V) (packages : Packages H) (hash : FixedBytes H)
    (addr : FixedBytes A) (engine : Peer σ (EngineCall.Reply (H := H) (A := A))) (buildWait : ℕ)
    (el : Peer σ (ChainReply (H := H) (A := A) (V := V)))
    (peer : Peer σ (RunReply (H := H) (A := A) (V := V))) (view : σ → Docker H A V)
    (d : Directory) : Prop where
  shows : Shows peer d
  drive : peer.part RunCall.drive = throughBuilder packages hash addr engine buildWait el
  hosts : c.Hosts el fun s st => (view s).el = some st
  follows : ∀ s q, (∀ chain, q ≠ .drive chain) → view (peer.answer s q).2 = (view s).next c q
  works : ∀ s q, Works q = true → ∃ a, (peer.answer s q).1 = .ok a
  secret : ∀ s n (text : String), (peer.answer s (.tokenHex n)).1 = .ok text →
    ∃ bytes, Text.fromHex (Text.stripWhite text) = .ok bytes
  reads : ∀ s path text, (view s).texts.lookup path = some text →
    (peer.answer s (.readText path)).1 = .ok text
  ready : ∀ s url body timeout, url ∈ (view s).up →
    (peer.answer s (.probe url body timeout)).1 = .ok (200 : ℕ)
  prompt : ∀ s (t t' : ℚ), (peer.answer s .time).1 = .ok t →
    (peer.answer (peer.answer s .time).2 .time).1 = .ok t' → t' < t + 15

section Obeys

variable {c : Client H A V} {packages : Packages H} {hash : FixedBytes H} {addr : FixedBytes A}
  {engine : Peer σ (EngineCall.Reply (H := H) (A := A))} {buildWait : ℕ}
  {el : Peer σ (ChainReply (H := H) (A := A) (V := V))}
  {peer : Peer σ (RunReply (H := H) (A := A) (V := V))} {view : σ → Docker H A V} {d : Directory}

/-- A call that works. -/
theorem call_total (h : Obeys c packages hash addr engine buildWait el peer view d)
    {q : RunCall H A V} {v : Docker H A V} (hq : Works q = true) :
    Total (view · = v) (call peer q) fun _ s => view s = v.next c q := by
  refine Total.call ?_
  rintro s rfl
  obtain ⟨a, ha⟩ := h.works s q hq
  refine ⟨a, ha, h.follows s q ?_⟩
  rintro chain rfl
  cases hq

/-- A call that changes nothing of the machine that is seen. -/
theorem still_total (h : Obeys c packages hash addr engine buildWait el peer view d)
    {q : RunCall H A V} {v : Docker H A V} (hq : Works q = true) (hstill : v.next c q = v) :
    Total (view · = v) (call peer q) fun _ s => view s = v := by
  refine (call_total h hq).conseq (fun _ => id) fun _ s hs => ?_
  rw [hs, hstill]

theorem tokenHex_total (h : Obeys c packages hash addr engine buildWait el peer view d) (n : ℕ)
    {v : Docker H A V} :
    Total (view · = v) (call peer (.tokenHex n)) fun text s => view s = v ∧
      ∃ bytes, Text.fromHex (Text.stripWhite text) = .ok bytes := by
  refine Total.call ?_
  rintro s rfl
  obtain ⟨text, htext⟩ := h.works s (.tokenHex n) rfl
  exact ⟨text, htext, h.follows s _ (by simp), h.secret s n text htext⟩

/-- A client runs that was booted from the genesis, its server is up, and its secret legible. -/
structure Booted (c : Client H A V) (genesis : Json) (handles : El.Handles) (v : Docker H A V) :
    Prop where
  el : v.el = some (c.boot genesis)
  up : handles.rpcUrl ∈ v.up
  secret : ∃ text bytes, v.texts.lookup handles.jwtSecretPath = some text ∧
    Text.fromHex (Text.stripWhite text) = .ok bytes

theorem start_total (h : Obeys c packages hash addr engine buildWait el peer view d)
    (genesis : Json) (workDir : Path) :
    Total (fun _ => True) (El.start peer genesis workDir) fun started s =>
      Booted c genesis started.1 (view s) := by
  suffices hstart : ∀ v, Total (view · = v) (El.start peer genesis workDir) fun started s =>
      Booted c genesis started.1 (view s) from fun w _ => hstart (view w.state) w rfl
  intro v
  unfold El.start
  refine (still_total h rfl rfl).bind fun _ => ?_
  refine (call_total h rfl).bind fun _ => ?_
  rw [next_genesis]
  refine (tokenHex_total h 32).bind fun secret => Total.given ?_
  rintro ⟨bytes, hbytes⟩
  refine (call_total h rfl).bind fun _ => ?_
  refine (still_total h rfl rfl).bind fun _ => ?_
  refine (still_total h rfl rfl).bind fun _ => ?_
  refine (still_total h rfl rfl).bind fun (rpcPort : ℕ) => ?_
  refine (still_total h rfl rfl).bind fun (authPort : ℕ) => ?_
  refine (still_total h rfl rfl).bind fun (suffix : String) => ?_
  refine (call_total h rfl).bind fun _ => ?_
  rw [next_init c _ workDir true List.lookup_cons_self]
  refine (still_total h rfl rfl).bind fun _ => ?_
  refine (call_total h rfl).bind fun process => ?_
  refine Total.pure fun s hs => ?_
  rw [next_geth] at hs
  rw [hs]
  refine ⟨?_, List.mem_cons_self, secret, bytes, List.lookup_cons_self, hbytes⟩
  simp

/-- The finalizers work. -/
theorem waitOrKill_total (h : Obeys c packages hash addr engine buildWait el peer view d)
    (process timeout : ℕ) :
    Total (fun _ => True) (waitOrKill peer process timeout) fun _ _ => True := by
  refine Total.bind (S := fun (waited : Except PyError Unit) _ => ∃ a, waited = .ok a)
    (Total.ask fun s _ => h.works s (.wait process timeout) rfl) fun waited => ?_
  rintro w ⟨a, rfl⟩
  exact ⟨(), w, rfl, trivial⟩

theorem stop_total (h : Obeys c packages hash addr engine buildWait el peer view d) (name : String)
    (process : ℕ) : Total (fun _ => True) (El.stop peer name process) fun _ _ => True := by
  refine Total.bind (S := fun _ _ => True) (Total.call fun s _ => ?_) fun _ =>
    waitOrKill_total h process 10
  obtain ⟨a, ha⟩ := h.works s (.run ["docker", "stop", name] false) rfl
  exact ⟨a, ha, trivial⟩

theorem stopBuilder_total (h : Obeys c packages hash addr engine buildWait el peer view d)
    (workDir : Path) (process : ℕ) :
    Total (fun _ => True) (Buildoor.stop peer workDir process) fun _ _ => True := by
  refine Total.bind (S := fun _ _ => True) (Total.call fun s _ => ?_) fun _ =>
    (waitOrKill_total h process 5).bind fun _ => Total.call fun s _ => ?_
  · obtain ⟨a, ha⟩ := h.works s (.terminate process) rfl
    exact ⟨a, ha, trivial⟩
  · obtain ⟨a, ha⟩ := h.works s (.closeLog (workDir.child "buildoor.log")) rfl
    exact ⟨a, ha, trivial⟩

/-- A server that is up is ready at the first probe. -/
theorem wait_total (h : Obeys c packages hash addr engine buildWait el peer view d) {url : String}
    (body : Option Json) {timeout : ℚ} (htimeout : 15 ≤ timeout) (message : String) (fuel : ℕ)
    {v : Docker H A V} (hup : url ∈ v.up) :
    Total (view · = v)
      (call peer .time >>= fun now : ℚ =>
        pollUntil peer url body (now + timeout) message (fuel + 1) "None")
      fun _ s => view s = v := by
  rintro w rfl
  obtain ⟨(t : ℚ), ht⟩ := h.works w.state .time rfl
  let s := (peer.answer w.state .time).2
  obtain ⟨(t' : ℚ), ht'⟩ := h.works s .time rfl
  have hview : view (peer.answer s .time).2 = view w.state :=
    (h.follows s .time (by simp)).trans (h.follows w.state .time (by simp))
  have hearly : t' < t + timeout := by
    have hprompt := h.prompt _ t t' ht ht'
    linarith
  have hpoll : Total (· = s) (pollUntil peer url body (t + timeout) message (fuel + 1) "None")
      fun _ s' => view s' = view w.state := by
    unfold pollUntil
    refine Total.bind_eq (a := t') (J := (· = (peer.answer s .time).2)) (Total.call ?_) ?_
    · rintro _ rfl
      exact ⟨t', ht', rfl, rfl⟩
    · rw [if_pos hearly]
      refine Total.bind_eq (a := .ok (200 : ℕ)) (J := fun s' => view s' = view w.state)
        (Total.ask ?_) (Total.pure fun _ => id)
      rintro _ rfl
      refine ⟨h.ready _ url body 1 (by rwa [hview]), ?_⟩
      exact (h.follows _ (.probe url body 1) (by simp)).trans hview
  have hcall : call peer .time w = (.ok t, w.step peer .time) := by
    rw [call_apply, ht]
  obtain ⟨a, u, hrun, hend⟩ := hpoll (w.step peer .time) rfl
  exact ⟨a, u, (bind_of_ok hcall).trans hrun, hend⟩

theorem readJwt_total (h : Obeys c packages hash addr engine buildWait el peer view d)
    {genesis : Json} {handles : El.Handles} {v : Docker H A V} (hbooted : Booted c genesis handles v) :
    Total (view · = v) (readJwt peer handles.jwtSecretPath) fun _ s => view s = v := by
  obtain ⟨text, bytes, htext, hbytes⟩ := hbooted.secret
  unfold readJwt
  refine Total.bind_eq (a := text) (J := (view · = v)) (Total.call ?_) ?_
  · rintro s rfl
    exact ⟨text, h.reads s _ text htext, rfl, h.follows s _ (by simp)⟩
  · exact Total.lift hbytes fun _ => id

end Obeys

/-! ## The drive -/

section Drive

variable [DecidableEq V] {c : Client H A V} {packages : Packages H} {hash : FixedBytes H}
  {addr : FixedBytes A} {engine : Peer σ (EngineCall.Reply (H := H) (A := A))} {buildWait : ℕ}
  {el : Peer σ (ChainReply (H := H) (A := A) (V := V))}
  {peer : Peer σ (RunReply (H := H) (A := A) (V := V))} {view : σ → Docker H A V} {d : Directory}
  {eest : ExecutionTesting H A V} {printing : Printing}

/-- The builder keeps its contract for a fixture. -/
def Contracted (eest : ExecutionTesting H A V) (packages : Packages H)
    (engine : Peer σ (EngineCall.Reply (H := H) (A := A))) (buildWait : ℕ)
    (el : Peer σ (ChainReply (H := H) (A := A) (V := V))) (payloadBuildTime : ℚ)
    (fixture : BlockchainEngineFixture H A V) : Prop :=
  payloadBuildTime * 1000 = buildWait ∧
    ∃ (S : σ → σ → Prop) (sends : EngineAttributes H A → PayloadAttributes H A × ℕ), (∀ s, S s s) ∧
      (∀ version, getPayloadVersion fixture = .ok version →
        Contract eest packages S el engine sends version) ∧
      ∀ payload ∈ fixture.payloads, payload.valid = true → Fits payload ∧ Carried sends payload

omit [DecidableEq V] in
theorem hosts_throughBuilder {runs : σ → Client.State H A V → Prop} (h : c.Hosts el runs) :
    c.Hosts (throughBuilder packages hash addr engine buildWait el) runs := by
  intro s st q hq hs
  cases q with
  | build url body => exact absurd rfl (hq url body)
  | _ => exact h s st _ hq hs

/-- The chain passes either way. -/
theorem driveChain_passes {runs : σ → Client.State H A V → Prop} (h : c.Hosts el runs)
    {genesis : Json} {fixture : BlockchainEngineFixture H A V}
    (hfixture : c.Reproduces eest genesis fixture.toEngineFixture) (drive : Drive)
    (hversion : getPayloadVersion fixture = .ok drive.getPayloadVersion)
    (hbuilder : drive.buildoorBaseUrl ≠ none →
      Contracted eest packages engine buildWait el drive.payloadBuildTime fixture) :
    Total (runs · (c.boot genesis))
      (driveChain (throughBuilder packages hash addr engine buildWait el) eest hash addr drive
        fixture.toEngineFixture) fun r _ => r.passed = true := by
  cases hbase : drive.buildoorBaseUrl with
  | none => exact Client.driveChain_total (hosts_throughBuilder h) hbase hfixture
  | some url =>
      obtain ⟨hwait, S, sends, hrefl, hcontract, hpayloads⟩ := hbuilder (by simp [hbase])
      have hdirect : Total (runs · (c.boot genesis))
          (driveChain el eest hash addr (builtBy drive none) fixture.toEngineFixture)
          fun r _ => r.passed = true := Client.driveChain_total h rfl hfixture
      have hdrive : builtBy drive (some url) = drive := by
        rw [← hbase]
        rfl
      intro w hw
      obtain ⟨hsame, -⟩ := driveChain_relates hash addr (hcontract _ hversion) hwait url hpayloads
        w w (hrefl w.state)
      rw [hdrive] at hsame
      obtain ⟨r, u, hrun, hpassed⟩ := hdirect w hw
      obtain ⟨result, hresult, hpass⟩ := hsame.passed_iff.mpr ⟨r, congrArg Prod.fst hrun, hpassed⟩
      exact ⟨result, _, Prod.ext hresult rfl, hpass⟩

theorem driveAndFinish_total (h : Obeys c packages hash addr engine buildWait el peer view d)
    {genesis : Json} {fixture : BlockchainEngineFixture H A V}
    (hfixture : c.Reproduces eest genesis fixture.toEngineFixture) (drive : Drive)
    (hversion : getPayloadVersion fixture = .ok drive.getPayloadVersion)
    (hbuilder : drive.buildoorBaseUrl ≠ none →
      Contracted eest packages engine buildWait el drive.payloadBuildTime fixture) (startedAt : ℚ) :
    Total (fun s => (view s).el = some (c.boot genesis))
      (driveAndFinish peer eest hash addr printing fixture drive startedAt) fun r _ =>
        r.passed = true := by
  have hdrive : Total _ (driveChain (throughBuilder packages hash addr engine buildWait el) eest hash
      addr drive fixture.toEngineFixture) _ :=
    driveChain_passes h.hosts hfixture drive hversion hbuilder
  rw [← h.drive] at hdrive
  have hembed : Total (fun s => (view s).el = some (c.boot genesis))
      (embed RunCall.drive (driveChain (peer.part RunCall.drive) eest hash addr drive
        fixture.toEngineFixture) : Running σ H A V FixtureResult) fun r _ => r.passed = true := by
    apply Total.embed
    exact hdrive
  unfold driveAndFinish
  refine hembed.bind fun result => ?_
  unfold finish
  refine Total.bind (S := fun _ _ => result.passed = true) (Total.call fun s hpassed => ?_) fun now =>
    Total.pure fun _ hpassed => hpassed
  obtain ⟨now, hnow⟩ := h.works s .monotonic rfl
  exact ⟨now, hnow, hpassed⟩

omit [DecidableEq V] in
/-- The builder is started over the client, when there is one. -/
theorem withBuilder_total (h : Obeys c packages hash addr engine buildWait el peer view d)
    {st : Client.State H A V} (buildoorBinary : Option Path) (handles : El.Handles) (workDir : Path)
    (payloadBuildTime : ℚ) (fuel : ℕ) {body : Option String → Running σ H A V FixtureResult}
    (hnone : buildoorBinary = none →
      Total (fun s => (view s).el = some st) (body none) fun r _ => r.passed = true)
    (hsome : ∀ base, buildoorBinary ≠ none →
      Total (fun s => (view s).el = some st) (body (some base)) fun r _ => r.passed = true)
    {v : Docker H A V} (hv : v.el = some st) :
    Total (view · = v)
      (withBuilder peer printing buildoorBinary handles workDir payloadBuildTime (fuel + 1) body)
        fun r _ => r.passed = true := by
  unfold withBuilder
  cases buildoorBinary with
  | none =>
      refine (hnone rfl).conseq ?_ fun _ _ => id
      rintro s rfl
      exact hv
  | some binary =>
      unfold Buildoor.simbuild
      have hstart : Total (view · = v)
          (Buildoor.start peer binary handles.authUrl handles.jwtSecretPath workDir
            (printing.millis payloadBuildTime))
          fun started s => view s = { v with up := (started.1 ++ "/healthz") :: v.up } := by
        unfold Buildoor.start
        refine (still_total h rfl rfl).bind fun (port : ℕ) => ?_
        refine (still_total h rfl rfl).bind fun _ => ?_
        refine (call_total h rfl).bind fun process => Total.pure fun s hs => ?_
        rw [hs, next_simbuild]
      refine hstart.bind fun started => Total.tryFinally ?_ (stopBuilder_total h workDir started.2)
      refine (wait_total h none (by norm_num) _ fuel List.mem_cons_self).bind fun _ => ?_
      refine (hsome started.1 (by simp)).conseq ?_ fun _ _ => id
      rintro s hs
      rw [hs]
      exact hv

theorem replay_total (h : Obeys c packages hash addr engine buildWait el peer view d) (fuel : ℕ)
    {fixture : BlockchainEngineFixture H A V}
    (hfixture : c.Reproduces eest (Chainspec.buildGenesis hash addr fixture) fixture.toEngineFixture)
    (testId : String) (workDir : Path) {payloadBuildTime : ℚ} {buildoorBinary : Option Path}
    (hbuilder : buildoorBinary ≠ none →
      Contracted eest packages engine buildWait el payloadBuildTime fixture) :
    Total (fun _ => True) (replay peer eest hash addr printing (fuel + 1) fixture testId workDir
      payloadBuildTime buildoorBinary) fun r _ => r.passed = true := by
  obtain ⟨version, hversion⟩ : ∃ version, getPayloadVersion fixture = .ok version := by
    unfold getPayloadVersion
    cases hpayloads : fixture.payloads with
    | nil => exact absurd hpayloads hfixture.payloads
    | cons first rest => exact ⟨_, rfl⟩
  unfold replay
  refine Total.bind (S := fun _ _ => True) (Total.call fun s _ => ?_) fun startedAt => ?_
  · obtain ⟨now, hnow⟩ := h.works s .monotonic rfl
    exact ⟨now, hnow, trivial⟩
  refine Total.bind_eq (J := fun _ => True) (Total.lift hversion fun _ _ => ⟨rfl, trivial⟩) ?_
  unfold El.geth
  refine (start_total h (Chainspec.buildGenesis hash addr fixture) workDir).bind fun started => ?_
  refine Total.tryFinally ?_ (stop_total h _ _)
  suffices hbody : ∀ v, Booted c (Chainspec.buildGenesis hash addr fixture) started.1 v →
      Total (view · = v) _ fun (r : FixtureResult) _ => r.passed = true from
    fun w hw => hbody _ hw w rfl
  intro v hbooted
  refine (wait_total h _ (by norm_num) _ fuel hbooted.up).bind fun _ => ?_
  refine (readJwt_total h hbooted).bind fun _ => ?_
  refine withBuilder_total h buildoorBinary _ workDir payloadBuildTime fuel ?_ ?_ hbooted.el
  · exact fun _ => driveAndFinish_total h hfixture _ hversion (fun hbase => absurd rfl hbase) _
  · exact fun base hbinary => driveAndFinish_total h hfixture _ hversion (fun _ => hbuilder hbinary) _

end Drive

/-! ## The batch -/

section Batch

variable {job : Job σ H A V} {ok : BlockchainEngineFixture H A V → Prop}

/-- A file that loads, with every fixture in it. -/
def Sane (validate : Validate H A V) (ok : BlockchainEngineFixture H A V → Prop)
    (raw : Except PyError Json) : Prop :=
  ∃ entries, raw.bind items = .ok entries ∧ ∀ entry ∈ entries,
    ∃ found, entryFixture validate entry.2 = .ok found ∧ ∀ fixture, found = some fixture → ok fixture

/-- A console that takes every line. -/
def Prints (peer : Peer σ (RunReply (H := H) (A := A) (V := V))) : Prop :=
  ∀ s text, (peer.answer s (.echo text false)).1 = .ok ()

omit [DecidableEq H] in
theorem echoLines_returns {peer : Peer σ (RunReply (H := H) (A := A) (V := V))} (h : Prints peer)
    (lines : List String) : Returns (echoLines peer lines) fun _ => True := by
  induction lines with
  | nil => exact Returns.pure trivial
  | cons line lines ih =>
      exact Returns.bind (P := fun _ => True) (Returns.call (fun s => h s line) trivial) fun _ _ => ih

omit [DecidableEq H] in
theorem replayEntry_clean {peer : Peer σ (RunReply (H := H) (A := A) (V := V))} (h : Prints peer)
    {fixture : BlockchainEngineFixture H A V} {testId : String} {perDir : Path}
    (hreplay : Returns (job.replay fixture testId perDir) fun r => r.passed = true) :
    Returns (replayEntry peer job fixture testId perDir) fun r => r.passed = true := by
  refine Returns.bind (P := fun _ => True) (Returns.call (fun s => h s _) trivial) fun _ _ => ?_
  refine hreplay.capture.bind ?_
  rintro replayed ⟨result, rfl, hpassed⟩
  exact Returns.lift rfl hpassed

omit [DecidableEq H] in
theorem runEntries_clean {peer : Peer σ (RunReply (H := H) (A := A) (V := V))} (h : Prints peer)
    (hjob : ∀ fixture, ok fixture → ∀ testId workDir,
      Returns (job.replay fixture testId workDir) fun r => r.passed = true)
    (fileIdx : ℕ) (path : Path) (fixtureIdx : ℕ) {entries : List (String × Json)}
    (hentries : ∀ entry ∈ entries, ∃ found, entryFixture job.validate entry.2 = .ok found ∧
      ∀ fixture, found = some fixture → ok fixture)
    {report : BatchReport} (hreport : ∀ r ∈ report.results, r.passed = true) :
    Returns (runEntries peer job fileIdx path fixtureIdx entries report) Clean := by
  induction entries generalizing fixtureIdx report with
  | nil => exact Returns.pure ⟨rfl, hreport⟩
  | cons entry entries ih =>
      obtain ⟨testId, payload⟩ := entry
      obtain ⟨⟨found, hfound, hok⟩, hrest⟩ := List.forall_mem_cons.mp hentries
      dsimp only at hfound
      unfold runEntries
      rw [hfound]
      cases found with
      | none => exact ih fixtureIdx hrest hreport
      | some fixture =>
          refine (replayEntry_clean h (hjob fixture (hok fixture rfl) testId _)).capture.bind ?_
          rintro replayed ⟨result, rfl, hpassed⟩
          refine (echoLines_returns h _).capture.bind ?_
          rintro printed ⟨_, rfl, -⟩
          have hgo : ¬ (job.stopOnFirstFailure && !result.passed) = true := by simp [hpassed]
          dsimp only
          rw [if_neg hgo]
          refine ih (fixtureIdx + 1) hrest ?_
          exact List.forall_mem_append.mpr ⟨hreport, by simpa using hpassed⟩

omit [DecidableEq H] in
theorem runFiles_clean {peer : Peer σ (RunReply (H := H) (A := A) (V := V))} {d : Directory}
    (hshows : Shows peer d) (h : Prints peer)
    (hjob : ∀ fixture, ok fixture → ∀ testId workDir,
      Returns (job.replay fixture testId workDir) fun r => r.passed = true)
    (fileIdx : ℕ) {paths : List Path} (hpaths : ∀ path ∈ paths, Sane job.validate ok (d.content path))
    {report : BatchReport} (hreport : ∀ r ∈ report.results, r.passed = true) :
    Returns (runFiles peer job fileIdx paths report) Clean := by
  induction paths generalizing fileIdx report with
  | nil => exact Returns.pure ⟨rfl, hreport⟩
  | cons path paths ih =>
      obtain ⟨⟨entries, hentries, hsane⟩, hrest⟩ := List.forall_mem_cons.mp hpaths
      refine Returns.bind (P := fun raw => raw = d.content path)
        (Returns.ask fun s => hshows.content s path) ?_
      rintro raw rfl
      unfold runFile
      rw [hentries]
      refine (runEntries_clean h hjob fileIdx path 0 hsane hreport).bind ?_
      rintro progress ⟨hraised, hpassed⟩
      have hnone : progress.report.failed + progress.report.errored = 0 :=
        failed_add_errored_eq_zero.mpr hpassed
      rw [if_neg (by simp [hraised]), if_neg (by simp [hnone])]
      exact ih (fileIdx + 1) hrest hpassed

omit [DecidableEq H] in
theorem runBatch_passes {peer : Peer σ (RunReply (H := H) (A := A) (V := V))} {d : Directory}
    (hshows : Shows peer d) (h : Prints peer) {path : Path} (hwrites : Writes peer job path)
    (hjob : ∀ fixture, ok fixture → ∀ testId workDir,
      Returns (job.replay fixture testId workDir) fun r => r.passed = true)
    {files : List Path} (hne : files ≠ [])
    (hfiles : ∀ path ∈ files, Sane job.validate ok (d.content path)) :
    Returns (runBatch peer job path files) fun done =>
      done.exit = .ok 0 ∧ ∀ r ∈ done.report.results, r.passed = true := by
  have hempty : files.isEmpty = false := by simpa using hne
  unfold runBatch
  rw [hempty]
  refine hwrites.clock_returns.bind fun (t0 : ℚ) _ => ?_
  refine (runFiles_clean hshows h hjob 0 hfiles (by simp)).bind ?_
  rintro progress ⟨hraised, hpassed⟩
  refine (writeReports_returns hwrites t0 progress.report).capture.bind ?_
  rintro written ⟨_, rfl, -⟩
  have hcode : exitCode progress.report = 0 := if_pos (failed_add_errored_eq_zero.mpr hpassed)
  refine Returns.pure ⟨?_, hpassed⟩
  simp [exitOf, hraised, hcode]

end Batch

section Run

variable [DecidableEq V] {c : Client H A V} {packages : Packages H} {hash : FixedBytes H}
  {addr : FixedBytes A} {engine : Peer σ (EngineCall.Reply (H := H) (A := A))} {buildWait : ℕ}
  {el : Peer σ (ChainReply (H := H) (A := A) (V := V))}
  {peer : Peer σ (RunReply (H := H) (A := A) (V := V))} {view : σ → Docker H A V} {d : Directory}

omit [DecidableEq V] in
theorem Obeys.prints (h : Obeys c packages hash addr engine buildWait el peer view d) :
    Prints peer := by
  intro s text
  obtain ⟨a, ha⟩ := h.works s (.echo text false) rfl
  exact ha

omit [DecidableEq V] in
theorem Obeys.writes (h : Obeys c packages hash addr engine buildWait el peer view d)
    (job : Job σ H A V) (path : Path) : Writes peer job path where
  clock s := h.works s .monotonic rfl
  nothing s := by
    obtain ⟨a, ha⟩ := h.works s (.echo ("no fixture JSON files under " ++ path.str) true) rfl
    exact ha
  summary s _ _ := h.prints s _
  json file _ := by
    refine ⟨fun s value => ?_, fun s => h.prints s _⟩
    obtain ⟨a, ha⟩ := h.works s (.writeJson file value) rfl
    exact ha
  markdown file _ := by
    refine ⟨fun s text => ?_, fun s => h.prints s _⟩
    obtain ⟨a, ha⟩ := h.works s (.writeText file text) rfl
    exact ha

end Run

/-! ### One fixture -/

/-- The block of one fixture, with the withdrawals of its fork. -/
def withdrawnBlock : ExecutionPayload Unit Unit Unit := { oneBlock with withdrawals := some [] }

def withdrawnFixture : BlockchainEngineFixture Unit Unit Unit :=
  { oneBlockFixture with payloads := [⟨.v1 withdrawnBlock, 2, 2, true⟩], fork := "Shanghai" }

/-- A client that builds the block. -/
def oneBlockClient : Client Unit Unit Unit where
  genesisHash _ := ()
  build _ _ _ := withdrawnBlock
  executes _ := true

/-- The client in its container. -/
def hosted : Peer (Docker Unit Unit Unit) (ChainReply (H := Unit) (A := Unit) (V := Unit)) where
  answer v
    | .sleep _ => (.ok (), v)
    | q =>
      match v.el with
      | some st =>
        ((oneBlockClient.answer st q).1, { v with el := some (oneBlockClient.answer st q).2 })
      | none => (.error ⟨.osError, "Connection refused"⟩, v)

/-- A fork choice that started a build, as the engine client reports it. -/
def reported : Except PyError ForkchoiceReply → Except String String
  | .ok ⟨status, some payloadID⟩ =>
    if status = .valid then .ok payloadID else .error "payload build not started"
  | .ok ⟨_, none⟩ => .error "payload build not started"
  | .error exc => .error exc.text

/-- The JSON of a block with no extra data. -/
def rawPayload : PayloadResult := ⟨.obj [("extraData", .str "0x")], some 1, none, []⟩

/-- An engine client over the client, which sends it what it is given. -/
def hostedEngine : Peer (Docker Unit Unit Unit) (EngineCall.Reply (H := Unit) (A := Unit)) where
  answer v
    | .requestPayloadBuild head _ _ attrs =>
      let fcu := hosted.answer v (.forkchoiceUpdated head (some (attrs.sent true)) 2)
      (reported fcu.1, fcu.2)
    | .sleep _ => ((), v)
    | .getPayloadRaw payloadID =>
      let built := hosted.answer v (.getPayload payloadID 2)
      ((built.1.mapError PyError.text).map fun _ => rawPayload, built.2)

/-- A machine that does what it is told. -/
def obedient : Peer (Docker Unit Unit Unit) (RunReply (H := Unit) (A := Unit) (V := Unit)) where
  answer v q :=
    match q with
    | .drive q =>
      (throughBuilder (tagging ()) unitBytes unitBytes hostedEngine 1000 hosted).answer v q
    | .readText path =>
      (match v.texts.lookup path with
        | some text => .ok text
        | none => .error ⟨.osError, "No such file or directory"⟩, v)
    | .probe url _ _ =>
      (if url ∈ v.up then .ok (200 : ℕ) else .error ⟨.osError, "Connection refused"⟩, v)
    | q => (((calm Exit.oneFixtureFile).answer () q).1, v.next oneBlockClient q)

theorem starts_reported (fcu : Except PyError ForkchoiceReply) : Starts (reported fcu) fcu := by
  rcases fcu with exc | ⟨status, _ | payloadID⟩
  · exact .raised _ exc
  · exact .refused _ ⟨status, none⟩ (.inr rfl)
  · by_cases hstatus : status = .valid
    · subst hstatus
      exact .started payloadID
    · have hreported : reported (.ok ⟨status, some payloadID⟩) =
          .error "payload build not started" := if_neg hstatus
      rw [hreported]
      exact .refused _ ⟨status, some payloadID⟩ (.inl hstatus)

/-- The engine client and the client do the same, through the builder and without it. -/
theorem contract_hosted :
    Contract unitTesting (tagging ()) Eq hosted hostedEngine (forwarding true fun _ => 2) 2 where
  answer := by
    rintro q s t - rfl
    exact ⟨rfl, rfl⟩
  request := by
    rintro parent attrs s t rfl
    exact ⟨starts_reported _, rfl⟩
  sleep := by
    rintro ms seconds s t - rfl
    exact ⟨rfl, rfl⟩
  getPayload := by
    rintro payloadID s t rfl
    refine ⟨?_, rfl⟩
    show Gets unitTesting (tagging ())
      (((hosted.answer s (.getPayload payloadID 2)).1.mapError PyError.text).map fun _ => rawPayload)
      (hosted.answer s (.getPayload payloadID 2)).1
    cases (hosted.answer s (.getPayload payloadID 2)).1 with
    | error exc => exact .failed _ exc
    | ok built =>
        refine .got rawPayload built fun beacon => ?_
        exact ⟨.obj [("extraData", .str "buildoor/0x")], (), oneBlock, rfl, rfl, fun _ _ => rfl⟩

theorem obeys_obedient : Obeys oneBlockClient (tagging ()) unitBytes unitBytes hostedEngine 1000
    hosted obedient id Exit.oneFixtureFile where
  shows := ⟨fun _ _ => rfl, fun _ _ => rfl, fun _ _ _ => rfl, fun _ _ => rfl⟩
  drive := rfl
  hosts := by
    intro v st q _ hst
    simp only [id_eq] at hst
    cases q <;> simp [hosted, hst, Client.answer]
  follows := by
    intro v q hq
    cases q with
    | drive chain => exact absurd rfl (hq chain)
    | _ => rfl
  works := by
    intro v q hq
    cases q <;> first | exact ⟨_, rfl⟩ | cases hq
  secret := by
    intro v n text htext
    obtain rfl : "00" = text := Except.ok.inj htext
    exact ⟨[0], by decide⟩
  reads := by
    intro v path text htext
    simp only [id_eq] at htext
    simp [obedient, htext]
  ready := by
    intro v url body timeout hup
    exact if_pos hup
  prompt := by
    intro v t t' ht ht'
    obtain rfl : (0 : ℚ) = t := Except.ok.inj ht
    obtain rfl : (0 : ℚ) = t' := Except.ok.inj ht'
    norm_num

theorem reproduces_withdrawnBlock (genesis : Json) :
    oneBlockClient.Reproduces unitTesting genesis withdrawnFixture.toEngineFixture where
  payloads := by simp [withdrawnFixture]
  genesis := rfl
  linked := ⟨rfl, trivial⟩
  executes _ _ := rfl
  builds _ _ _ _ := by simp [Agrees, unitTesting]

theorem contracted_withdrawnBlock :
    Contracted unitTesting (tagging ()) hostedEngine 1000 hosted 1 withdrawnFixture := by
  refine ⟨by norm_num, Eq, forwarding true fun _ => 2, fun _ => rfl, ?_, ?_⟩
  · intro version hversion
    obtain rfl : 2 = version := Except.ok.inj hversion
    exact contract_hosted
  · intro payload hpayload hvalid
    obtain rfl := List.mem_singleton.mp hpayload
    have hfits : Fits (⟨.v1 withdrawnBlock, 2, 2, true⟩ : EngineNewPayload Unit Unit Unit) := by
      unfold Fits
      decide
    exact ⟨hfits, (carried_iff unitBytes unitBytes hfits true _).mpr ⟨⟨nofun, nofun⟩, rfl⟩⟩

/-- The fixture is replayed through the builder. -/
def throughRun : Options :=
  { Exit.oneFixtureRun with buildoorBinary := some ⟨"/", ["bin", "simbuild"]⟩ }

end EestReplay.Honest
