import EestReplay.Library.Logging
import EestReplay.Verification.Batch.Calm
import EestReplay.Verification.Batch.Failures
import EestReplay.Verification.Session.Run

/-! # What an exit of 0 vouches for

A batch that exits 0 has replayed every engine entry of every fixture file: in its order, in a
directory of its own, on an EL that was initialised with the genesis of its fixture. The chain of
the fixture was driven to its end there, and every block that was built agrees with it. -/

namespace EestReplay.Exit

open Dialogue Batch Runner Session

variable {σ H A V : Type}

/-! ## The ground of a replay -/

/-- What is done before a chain is driven, once it has succeeded. -/
inductive Step where
  | wrote (path : Path) (genesis : Json)
  | shared (path : Path) (secret : String)
  | ran (cmd : List String)
  | started (cmd : List String)
  | ready (url : String)

/-- A server that answers with 200. -/
def answered (url : String) : Except PyError ℕ → Option Step
  | .ok status => if status = 200 then some (.ready url) else none
  | .error _ => none

def stepOf (y : RunExchange σ H A V) : Option Step :=
  match y.query, y.reply with
  | .writeJson path value, .ok _ => some (.wrote path value)
  | .writeText path text, .ok _ => some (.shared path text)
  | .run cmd _, .ok _ => some (.ran cmd)
  | .popen cmd _, .ok _ => some (.started cmd)
  | .probe url _ _, reply => answered url reply
  | _, _ => none

/-- What a replay gets from its machine. -/
structure Ground where
  secret : String
  suffix : String
  rpcPort : ℕ
  authPort : ℕ
  buildPort : ℕ := 0

namespace Ground

variable (g : Ground)

/-- The builder that the chain is driven with, when there is one. -/
def base (buildoorBinary : Option Path) : Option String :=
  buildoorBinary.map fun _ => "http://127.0.0.1:" ++ toString g.buildPort

/-- An EL on the genesis, that answers. -/
def el (genesis : Json) (workDir : Path) : List Step :=
  [.wrote (workDir.child "genesis.json") genesis, .shared (workDir.child "jwt.hex") g.secret,
    .ran (El.initCmd workDir),
    .started (El.gethCmd workDir ("eest-replay-" ++ g.suffix) g.rpcPort g.authPort),
    .ready ("http://127.0.0.1:" ++ toString g.rpcPort)]

/-- A builder on that EL, that answers. -/
def builder (workDir : Path) (buildWaitMs : ℤ) : Option Path → List Step
  | none => []
  | some binary =>
    [.started (Buildoor.simbuildCmd binary ("http://127.0.0.1:" ++ toString g.authPort)
        (workDir.child "jwt.hex") g.buildPort buildWaitMs),
      .ready ("http://127.0.0.1:" ++ toString g.buildPort ++ "/healthz")]

end Ground

section Steps

variable {peer : Peer σ (RunReply (H := H) (A := A) (V := V))}

theorem pollUntil_steps (url : String) (body : Option Json) (deadline : ℚ) (message : String)
    (fuel : ℕ) (lastErr : String) (past : List Step) :
    Follows stepOf Follows.record past (pollUntil peer url body deadline message fuel lastErr)
      (fun _ t => t = past ++ [.ready url]) (fun _ _ => True) := by
  induction fuel generalizing lastErr with
  | zero => exact Follows.throw trivial
  | succ fuel ih =>
      unfold pollUntil
      refine Follows.call_bind (fun _ _ => rfl) (fun now => ?_) fun _ => trivial
      split
      · refine Follows.bind (S := fun answer t => t = past ++ (answered url answer).toList)
          (Follows.ask fun s r => ⟨_, Follows.advance_record past (answered url r), rfl⟩) ?_
        rintro answer t rfl
        cases answer with
        | ok status =>
            dsimp only [answered]
            split
            · exact Follows.pure rfl
            · simpa using ih lastErr
        | error exc =>
            dsimp only [answered]
            split
            · refine Follows.call_bind (fun _ _ => ?_) (fun _ => ?_) fun _ => trivial
              · exact advance_none _ _
              · simpa using ih exc.text
            · exact Follows.throw trivial
      · exact Follows.throw trivial

/-- The EL is initialised with the genesis. -/
theorem start_steps (genesis : Json) (workDir : Path) :
    Follows stepOf Follows.record [] (El.start peer genesis workDir)
      (fun started t => ∃ g : Ground, t ++ [.ready started.1.rpcUrl] = g.el genesis workDir ∧
        started.1.authUrl = "http://127.0.0.1:" ++ toString g.authPort ∧
        started.1.jwtSecretPath = workDir.child "jwt.hex")
      (fun _ _ => True) := by
  unfold El.start
  refine Follows.call_bind (fun _ _ => rfl) (fun _ => ?_) fun _ => trivial
  refine Follows.bind (S := fun _ t => t = [.wrote (workDir.child "genesis.json") genesis])
    (Follows.call (fun _ _ => ⟨_, rfl, rfl⟩) fun _ _ => ⟨_, rfl, trivial⟩) ?_
  rintro _ t rfl
  refine Follows.call_bind (fun _ _ => rfl) (fun (secret : String) => ?_) fun _ => trivial
  refine Follows.bind (S := fun _ t => t = [.wrote (workDir.child "genesis.json") genesis,
      .shared (workDir.child "jwt.hex") secret])
    (Follows.call (fun _ _ => ⟨_, rfl, rfl⟩) fun _ _ => ⟨_, rfl, trivial⟩) ?_
  rintro _ t rfl
  refine Follows.call_bind (fun _ _ => rfl) (fun _ => ?_) fun _ => trivial
  refine Follows.call_bind (fun _ _ => rfl) (fun _ => ?_) fun _ => trivial
  refine Follows.call_bind (fun _ _ => rfl) (fun (rpcPort : ℕ) => ?_) fun _ => trivial
  refine Follows.call_bind (fun _ _ => rfl) (fun (authPort : ℕ) => ?_) fun _ => trivial
  refine Follows.call_bind (fun _ _ => rfl) (fun (suffix : String) => ?_) fun _ => trivial
  refine Follows.bind (S := fun _ t => t = [.wrote (workDir.child "genesis.json") genesis,
      .shared (workDir.child "jwt.hex") secret, .ran (El.initCmd workDir)])
    (Follows.call (fun _ _ => ⟨_, rfl, rfl⟩) fun _ _ => ⟨_, rfl, trivial⟩) ?_
  rintro _ t rfl
  refine Follows.call_bind (fun _ _ => rfl) (fun _ => ?_) fun _ => trivial
  let g : Ground := ⟨secret, suffix, rpcPort, authPort, 0⟩
  refine Follows.bind
    (S := fun _ t => t ++ [.ready ("http://127.0.0.1:" ++ toString rpcPort)] = g.el genesis workDir)
    (Follows.call (fun _ _ => ⟨_, rfl, rfl⟩) fun _ _ => ⟨_, rfl, trivial⟩) ?_
  intro process t ht
  exact Follows.pure ⟨g, ht, rfl, rfl⟩

theorem startBuilder_steps (binary workDir : Path) (g : Ground) (buildWaitMs : ℤ) :
    Follows stepOf Follows.record []
      (Buildoor.start peer binary ("http://127.0.0.1:" ++ toString g.authPort)
        (workDir.child "jwt.hex") workDir buildWaitMs)
      (fun started t => ∃ buildPort, started.1 = "http://127.0.0.1:" ++ toString buildPort ∧
        t ++ [.ready (started.1 ++ "/healthz")] =
          { g with buildPort := buildPort }.builder workDir buildWaitMs (some binary))
      (fun _ _ => True) := by
  unfold Buildoor.start
  refine Follows.call_bind (fun _ _ => rfl) (fun (port : ℕ) => ?_) fun _ => trivial
  refine Follows.call_bind (fun _ _ => rfl) (fun _ => ?_) fun _ => trivial
  let url := "http://127.0.0.1:" ++ toString port
  refine Follows.bind (S := fun _ t => t ++ [.ready (url ++ "/healthz")] =
      { g with buildPort := port }.builder workDir buildWaitMs (some binary))
    (Follows.call (fun _ _ => ⟨_, rfl, rfl⟩) fun _ _ => ⟨_, rfl, trivial⟩) ?_
  intro process t ht
  exact Follows.pure ⟨port, rfl, ht⟩

theorem waitForRpc_steps (url : String) (fuel : ℕ) :
    Follows stepOf Follows.record [] (El.waitForRpc peer url fuel)
      (fun _ t => t = [.ready url]) (fun _ _ => True) := by
  unfold El.waitForRpc
  refine Follows.call_bind (fun _ _ => rfl) (fun now => ?_) fun _ => trivial
  exact pollUntil_steps _ _ _ _ _ _ _

theorem waitForHealth_steps (base : String) (fuel : ℕ) :
    Follows stepOf Follows.record [] (Buildoor.waitForHealth peer base fuel)
      (fun _ t => t = [.ready (base ++ "/healthz")]) (fun _ _ => True) := by
  unfold Buildoor.waitForHealth
  refine Follows.call_bind (fun _ _ => rfl) (fun now => ?_) fun _ => trivial
  exact pollUntil_steps _ _ _ _ _ _ _

theorem readJwt_steps (path : Path) :
    Follows stepOf Follows.record [] (readJwt peer path) (fun _ t => t = []) (fun _ _ => True) := by
  unfold readJwt
  refine Follows.call_bind (fun _ _ => rfl) (fun text => ?_) fun _ => trivial
  exact Follows.lift (fun _ _ => rfl) fun _ _ => trivial

end Steps

/-! ## The chain on its ground -/

/-- A chain is driven in the log, after these steps and before nothing but calls outside of it. -/
structure On (steps : List Step) (chain : List (ChainExchange σ H A V))
    (log : List (RunExchange σ H A V)) : Prop where
  split : ∃ before after, log = before ++ chain.map (Exchange.embed RunCall.drive) ++ after ∧
    seen stepOf before = steps ∧ (∀ y ∈ before, Outside y.query) ∧ ∀ y ∈ after, Outside y.query

theorem On.self (chain : List (ChainExchange σ H A V)) :
    On [] chain (chain.map (Exchange.embed RunCall.drive)) :=
  ⟨[], [], by simp, rfl, by simp, by simp⟩

theorem On.after {steps : List Step} {chain : List (ChainExchange σ H A V)}
    {before log : List (RunExchange σ H A V)} (h : On steps chain log)
    (hbefore : ∀ y ∈ before, Outside y.query) :
    On (seen stepOf before ++ steps) chain (before ++ log) := by
  obtain ⟨past, after, rfl, rfl, hpast, hafter⟩ := h.split
  refine ⟨before ++ past, after, by simp, seen_append _ _ _, ?_, hafter⟩
  exact List.forall_mem_append.mpr ⟨hbefore, hpast⟩

theorem On.before {steps : List Step} {chain : List (ChainExchange σ H A V)}
    {log after : List (RunExchange σ H A V)} (h : On steps chain log)
    (hafter : ∀ y ∈ after, Outside y.query) : On steps chain (log ++ after) := by
  obtain ⟨before, rest, rfl, hsteps, hbefore, hrest⟩ := h.split
  refine ⟨before, rest ++ after, by simp, hsteps, hbefore, ?_⟩
  exact List.forall_mem_append.mpr ⟨hrest, hafter⟩

/-- Nothing but the chain is driven in the log. -/
theorem On.drives_eq {steps : List Step} {chain : List (ChainExchange σ H A V)}
    {log : List (RunExchange σ H A V)} (h : On steps chain log) : drives log = chain := by
  obtain ⟨before, after, rfl, -, hbefore, hafter⟩ := h.split
  have hnone : ∀ {l : List (RunExchange σ H A V)}, (∀ y ∈ l, Outside y.query) → drives l = [] := by
    intro l hl
    apply List.filterMap_eq_nil_iff.mpr
    intro y hy
    simpa [isDrive] using not_isDrive (hl y hy)
  unfold drives at hnone ⊢
  rw [List.filterMap_append, List.filterMap_append, hnone hbefore, hnone hafter]
  simpa [drives] using drives_embed chain

/-- The chain of a fixture was driven to its end, with the builder at the base URL only, and
every valid payload has a block that agrees with it. -/
structure Vouched (eest : ExecutionTesting H A V) (fixture : BlockchainEngineFixture H A V)
    (base : Option String) (chain : List (ChainExchange σ H A V)) : Prop where
  driven : Driven fixture.toEngineFixture chain
  built : (builtPayloads eest chain).length = (validPayloads fixture.payloads).length
  agrees : ∀ pair ∈ (validPayloads fixture.payloads).zip (builtPayloads eest chain),
    Agrees eest pair.2 pair.1.expected
  calls : ∀ y ∈ chain, CallsOnly base y.query

section Replay

variable [DecidableEq V] {peer : Peer σ (RunReply (H := H) (A := A) (V := V))}
  {eest : ExecutionTesting H A V} {hash : FixedBytes H} {addr : FixedBytes A}
  {printing : Printing} {fixture : BlockchainEngineFixture H A V}

/-- A drive that passed vouches for its fixture. -/
theorem driveChain_vouched {chainPeer : Peer σ (ChainReply (H := H) (A := A) (V := V))}
    {drive : Drive} {s : σ} {r : FixtureResult} {u : ChainWorld σ H A V}
    (hrun : driveChain chainPeer eest hash addr drive fixture.toEngineFixture ⟨s, []⟩ = (.ok r, u))
    (hpassed : r.passed = true) : Vouched eest fixture drive.buildoorBaseUrl u.log := by
  have hchain : Triple (fun w => w.log = [])
      (driveChain chainPeer eest hash addr drive fixture.toEngineFixture)
      (fun r w => Runner.Outcome eest fixture.toEngineFixture w.log r.blocks r.error)
      (fun _ _ => True) := driveChain_outcome
  have houtcome := (hchain ⟨s, []⟩ rfl).1 r u hrun
  obtain ⟨new, hlog, hcalls⟩ :=
    ((asks_driveChain drive fixture.toEngineFixture : Asks chainPeer _ _) ⟨s, []⟩).log_eq
  rw [hrun] at hlog
  obtain rfl : u.log = new := hlog
  obtain ⟨testId, blocks, error, fork, elapsed⟩ := r
  obtain rfl : error = none := error_eq_none_of_passed hpassed
  cases houtcome with
  | @completed builts _ haccount hentries =>
      rw [← haccount.builts] at hentries
      have hmatched : blocks.all BlockResult.matched = true := by
        simpa [FixtureResult.passed] using hpassed
      exact ⟨⟨haccount.imports, haccount.heads, haccount.acknowledged⟩, hentries.length,
        hentries.all_matched.mp hmatched, hcalls⟩

theorem driveAndFinish_logs (drive : Drive) (startedAt : ℚ) :
    Logs (driveAndFinish peer eest hash addr printing fixture drive startedAt) fun r new =>
      r.passed = true → ∃ chain, On [] chain new ∧
        Vouched eest fixture drive.buildoorBaseUrl chain := by
  have hdrive : Logs (embed RunCall.drive
      (driveChain (peer.part RunCall.drive) eest hash addr drive fixture.toEngineFixture) :
        Running σ H A V FixtureResult) fun r new =>
      ∃ chain, new = chain.map (Exchange.embed RunCall.drive) ∧
        (r.passed = true → Vouched eest fixture drive.buildoorBaseUrl chain) :=
    Logs.embed fun s r u hrun => driveChain_vouched hrun
  refine hdrive.bind ?_
  rintro result log ⟨chain, rfl, hvouched⟩
  unfold finish
  refine Logs.bind (S := fun _ new => ∀ y ∈ new, Outside y.query)
    (Logs.call fun s now => by simp [Outside]) ?_
  intro now new hnew
  refine Logs.pure fun hpassed => ⟨chain, ?_, hvouched hpassed⟩
  rw [List.append_nil]
  exact (On.self chain).before hnew

omit [DecidableEq V] in
theorem withBuilder_logs (buildoorBinary : Option Path) {handles : El.Handles} {workDir : Path}
    (g : Ground) (hurl : handles.authUrl = "http://127.0.0.1:" ++ toString g.authPort)
    (hjwt : handles.jwtSecretPath = workDir.child "jwt.hex") (payloadBuildTime : ℚ) (fuel : ℕ)
    {body : Option String → Running σ H A V FixtureResult}
    (hbody : ∀ base, Logs (body base) fun r new =>
      r.passed = true → ∃ chain, On [] chain new ∧ Vouched eest fixture base chain) :
    Logs (withBuilder peer printing buildoorBinary handles workDir payloadBuildTime fuel body)
      fun r new => r.passed = true → ∃ (buildPort : ℕ) (chain : List (ChainExchange σ H A V)),
        On ({ g with buildPort := buildPort }.builder workDir (printing.millis payloadBuildTime)
          buildoorBinary) chain new ∧
        Vouched eest fixture ({ g with buildPort := buildPort }.base buildoorBinary) chain := by
  unfold withBuilder
  cases buildoorBinary with
  | none =>
      refine (hbody none).mono fun r new hdone hpassed => ?_
      obtain ⟨chain, hchain, hvouched⟩ := hdone hpassed
      exact ⟨0, chain, hchain, hvouched⟩
  | some binary =>
      unfold Buildoor.simbuild
      dsimp only
      rw [hurl, hjwt]
      have hstart : Logs (Buildoor.start peer binary _ _ workDir _) _ :=
        (Logs.of_follows (startBuilder_steps binary workDir g (printing.millis payloadBuildTime))).and
          (Logs.of_asks (asks_startBuilder _ _ _ _ _))
      have hwait : ∀ started : String × ℕ, Logs (Buildoor.waitForHealth peer started.1 fuel)
          fun _ new => seen stepOf new = [.ready (started.1 ++ "/healthz")] ∧
            ∀ y ∈ new, Serving y.query :=
        fun started => (Logs.of_follows (waitForHealth_steps _ _)).and
          (Logs.of_asks (asks_waitForHealth _ _))
      refine (Logs.scope hstart hwait (fun started _ _ => hbody (some started.1))
        fun started => Logs.of_asks (asks_stopBuilder workDir started.2)).mono ?_
      rintro r new ⟨started, first, waited, used, late, rfl, ⟨⟨buildPort, hbase, hsteps⟩, hfirst⟩,
        ⟨hready, hwaited⟩, hused, hlate⟩ hpassed
      obtain ⟨chain, hchain, hvouched⟩ := hused hpassed
      rw [hbase] at hvouched
      refine ⟨buildPort, chain, ?_, hvouched⟩
      rw [← hsteps, ← hready]
      have hon := ((hchain.after fun y hy => (hwaited y hy).1).before fun y hy =>
        (hlate y hy).1).after fun y hy => (hfirst y hy).1
      simpa using hon

theorem replay_logs (fuel : ℕ) (testId : String) (workDir : Path) (payloadBuildTime : ℚ)
    (buildoorBinary : Option Path) :
    Logs (replay peer eest hash addr printing fuel fixture testId workDir payloadBuildTime
      buildoorBinary) fun r new => r.passed = true →
        ∃ (g : Ground) (chain : List (ChainExchange σ H A V)),
          On (g.el (Chainspec.buildGenesis hash addr fixture) workDir ++
            g.builder workDir (printing.millis payloadBuildTime) buildoorBinary) chain new ∧
          Vouched eest fixture (g.base buildoorBinary) chain := by
  have hwait : ∀ started : El.Handles × ℕ, Logs (El.waitForRpc peer started.1.rpcUrl fuel)
      fun _ new => seen stepOf new = [.ready started.1.rpcUrl] ∧ ∀ y ∈ new, Serving y.query :=
    fun started => (Logs.of_follows (waitForRpc_steps _ _)).and (Logs.of_asks (asks_waitForRpc _ _))
  have hjwt : ∀ path, Logs (readJwt peer path) fun _ new =>
      seen stepOf new = [] ∧ ∀ y ∈ new, Serving y.query :=
    fun path => (Logs.of_follows (readJwt_steps path)).and (Logs.of_asks (asks_readJwt path))
  unfold replay
  refine Logs.bind (S := fun _ new => seen stepOf new = [] ∧ ∀ y ∈ new, Outside y.query)
    (Logs.call fun s now => ⟨rfl, by simp [Outside]⟩) ?_
  rintro startedAt first ⟨hquiet, hfirst⟩
  refine Logs.bind (S := fun _ new => new = []) (Logs.lift fun _ _ => rfl) ?_
  rintro version _ rfl
  unfold El.geth
  have hstart : Logs (El.start peer (Chainspec.buildGenesis hash addr fixture) workDir) _ :=
    (Logs.of_follows (start_steps _ workDir)).and (Logs.of_asks (asks_start _ workDir))
  refine (Logs.scope (U := fun started early r used => r.passed = true →
      ∃ (g : Ground) (chain : List (ChainExchange σ H A V)),
        On (g.builder workDir (printing.millis payloadBuildTime) buildoorBinary) chain used ∧
        seen stepOf early ++ [.ready started.1.rpcUrl] =
          g.el (Chainspec.buildGenesis hash addr fixture) workDir ∧
        Vouched eest fixture (g.base buildoorBinary) chain) hstart hwait ?_
    fun started => Logs.of_asks (asks_stop started.1.container started.2)).mono ?_
  · rintro started early ⟨⟨g, hel, hauth, hsecret⟩, -⟩
    refine (hjwt started.1.jwtSecretPath).bind ?_
    rintro _ read ⟨hnothing, hread⟩
    refine (withBuilder_logs buildoorBinary g hauth hsecret payloadBuildTime fuel
      fun base => driveAndFinish_logs _ startedAt).mono fun r used hused hpassed => ?_
    obtain ⟨buildPort, chain, hchain, hvouched⟩ := hused hpassed
    refine ⟨{ g with buildPort := buildPort }, chain, ?_, hel, hvouched⟩
    have hon := hchain.after fun y hy => (hread y hy).1
    rwa [hnothing] at hon
  · rintro r new ⟨started, early, waited, used, late, rfl, ⟨-, hearly⟩, ⟨hready, hwaited⟩, hused,
      hlate⟩ hpassed
    obtain ⟨g, chain, hchain, hel, hvouched⟩ := hused hpassed
    refine ⟨g, chain, ?_, hvouched⟩
    rw [← hel, ← hready]
    have hon := (((hchain.after fun y hy => (hwaited y hy).1).before fun y hy =>
      (hlate y hy).1).after hearly).after hfirst
    rw [hquiet] at hon
    simpa using hon

end Replay

/-! ## The batch -/

/-- A fixture that is due for a replay, and the directory that it is due in. -/
structure Order (H A V : Type) where
  fixture : BlockchainEngineFixture H A V
  testId : String
  workDir : Path

section Orders

variable (validate : Validate H A V) (base : Path)

/-- What is due for the entries of a file, from an index on. -/
def entryOrders (fileIdx : ℕ) (path : Path) : ℕ → List (String × Json) → List (Order H A V)
  | _, [] => []
  | fixtureIdx, (testId, payload) :: entries =>
    match entryFixture validate payload with
    | .ok (some fixture) =>
      ⟨fixture, testId, base.child (slug fileIdx fixtureIdx path)⟩ ::
        entryOrders fileIdx path (fixtureIdx + 1) entries
    | _ => entryOrders fileIdx path fixtureIdx entries

def fileOrders (fileIdx : ℕ) (path : Path) (raw : Except PyError Json) : List (Order H A V) :=
  match raw.bind items with
  | .error _ => []
  | .ok entries => entryOrders validate base fileIdx path 0 entries

def orders (content : Path → Except PyError Json) : ℕ → List Path → List (Order H A V)
  | _, [] => []
  | fileIdx, path :: paths =>
    fileOrders validate base fileIdx path (content path) ++ orders content (fileIdx + 1) paths

end Orders

section Batch

variable {job : Job σ H A V} {P : Order H A V → List (RunExchange σ H A V) → Prop}

/-- The replays of a job vouch for what they pass. -/
structure Trusted (job : Job σ H A V) (P : Order H A V → List (RunExchange σ H A V) → Prop) :
    Prop where
  logs : ∀ fixture testId workDir, Logs (job.replay fixture testId workDir) fun r new =>
    r.passed = true → P ⟨fixture, testId, workDir⟩ new
  grows : ∀ fixture testId workDir w, w.log <+: (job.replay fixture testId workDir w).2.log

/-- The calls between the replays. -/
def Between (y : RunExchange σ H A V) : Prop := Quiet y.query

/-- Behind its announcement, an entry logs what its replay does. -/
theorem replayEntry_logs {peer : Peer σ (RunReply (H := H) (A := A) (V := V))}
    {fixture : BlockchainEngineFixture H A V} {testId : String} {perDir : Path}
    {S : Except PyError FixtureResult → List (RunExchange σ H A V) → Prop}
    (hreplay : Logs (capture (job.replay fixture testId perDir)) S) :
    Logs (capture (replayEntry peer job fixture testId perDir)) fun replayed new =>
      ∀ result, replayed = .ok result → ∃ outcome announced segment, new = announced :: segment ∧
        Between announced ∧ S outcome segment ∧
        resultOf job.printing.reprExc testId outcome = .ok result := by
  intro w replayed u hrun
  rw [capture_apply] at hrun
  obtain ⟨hreplayed, rfl⟩ := Prod.mk.inj hrun
  obtain rfl := Except.ok.inj hreplayed
  let q : RunCall H A V := .echo ("=== " ++ testId) false
  have hecho := call_apply peer q w
  cases hanswer : (peer.answer w.state q).1 with
  | error exc =>
      rw [hanswer] at hecho
      have hraise : replayEntry peer job fixture testId perDir w = (.error exc, w.step peer q) :=
        bind_of_error hecho
      rw [hraise]
      exact ⟨_, rfl, fun result hresult => by cases hresult⟩
  | ok _ =>
      rw [hanswer] at hecho
      obtain ⟨segment, hlog, hS⟩ := hreplay _ _ _ (capture_apply _ (w.step peer q))
      have hreplay : replayEntry peer job fixture testId perDir w =
          (resultOf job.printing.reprExc testId
            (job.replay fixture testId perDir (w.step peer q)).1,
            (job.replay fixture testId perDir (w.step peer q)).2) :=
        (bind_of_ok hecho).trans ((bind_of_ok (capture_apply _ _)).trans (lift_apply _ _))
      rw [hreplay]
      refine ⟨⟨w.state, q, (peer.answer w.state q).1⟩ :: segment, ?_, fun result hresult => ?_⟩
      · rw [hlog, World.step_log, List.append_assoc]
        rfl
      · exact ⟨_, _, segment, rfl, fun r => rfl, hS, hresult⟩

theorem runEntries_logs (peer : Peer σ (RunReply (H := H) (A := A) (V := V))) (hjob : Trusted job P)
    (fileIdx : ℕ) (path : Path) (fixtureIdx : ℕ)
    (entries : List (String × Json)) (report : BatchReport) :
    Logs (runEntries peer job fileIdx path fixtureIdx entries report) fun progress new =>
      Clean progress → Segmented Between P
        (entryOrders job.validate job.baseWorkDir fileIdx path fixtureIdx entries) new := by
  induction entries generalizing fixtureIdx report with
  | nil => exact Logs.pure fun _ => .nil
  | cons entry entries ih =>
      obtain ⟨testId, payload⟩ := entry
      unfold runEntries entryOrders
      cases hentry : entryFixture job.validate payload with
      | error exc => exact Logs.pure fun hclean => by cases hclean.1
      | ok found =>
          cases found with
          | none => exact ih fixtureIdx report
          | some fixture =>
              let workDir := job.baseWorkDir.child (slug fileIdx fixtureIdx path)
              refine (replayEntry_logs ((hjob.logs fixture testId workDir).capture
                (hjob.grows fixture testId workDir))).bind fun replayed new hreplayed => ?_
              cases replayed with
              | error exc => exact Logs.pure fun hclean => by cases hclean.1
              | ok result =>
                  obtain ⟨outcome, announced, segment, rfl, hidle, hvouches, hresult⟩ :=
                    hreplayed result rfl
                  have hnew : result ∈ (report.add result).results :=
                    List.mem_append_right _ (List.mem_singleton_self result)
                  have hprint : Asks peer Quiet (capture (printResult peer job.printing result)) :=
                    (asks_printResult (fun text r => rfl) job.printing result).capture
                  refine (Logs.of_asks hprint).bind fun printed lines hlines => ?_
                  cases printed with
                  | error exc => exact Logs.pure fun hclean => by cases hclean.1
                  | ok _ =>
                      dsimp only
                      by_cases hstop : (job.stopOnFirstFailure && !result.passed) = true
                      · rw [if_pos hstop]
                        refine Logs.pure fun hclean => ?_
                        rw [hclean.2 result hnew] at hstop
                        simp at hstop
                      · rw [if_neg hstop]
                        refine ((ih (fixtureIdx + 1) (report.add result)).yields
                          (runEntries_yields peer job fileIdx path _ entries _)).mono ?_
                        rintro progress rest ⟨hrest, hkept, -⟩ hclean
                        have hpassed : result.passed = true := hclean.2 result (hkept _ hnew)
                        have hP := hvouches result (eq_ok_of_passed hresult hpassed) hpassed
                        exact .idle hidle (.job hP
                          ((Segmented.of_idle hlines).append (hrest hclean)))

theorem runFiles_logs {peer : Peer σ (RunReply (H := H) (A := A) (V := V))} {d : Directory}
    (hshows : Shows peer d) (hjob : Trusted job P) (fileIdx : ℕ) (paths : List Path)
    (report : BatchReport) :
    Logs (runFiles peer job fileIdx paths report) fun progress new =>
      Clean progress → Segmented Between P
        (orders job.validate job.baseWorkDir d.content fileIdx paths) new := by
  induction paths generalizing fileIdx report with
  | nil => exact Logs.pure fun _ => .nil
  | cons path paths ih =>
      unfold runFiles orders
      have hread : Logs (ask peer (.readJson path) : Running σ H A V (Except PyError Json))
          fun raw new => (∀ y ∈ new, Between y) ∧ raw = d.content path := by
        refine Logs.yields (Logs.ask fun s r => ?_) (Yields.ask fun s => hshows.content s path)
        rintro y hy
        obtain rfl := List.mem_singleton.mp hy
        exact fun r => rfl
      refine hread.bind ?_
      rintro raw read ⟨hquiet, rfl⟩
      have hfile : Logs (runFile peer job fileIdx path report (d.content path)) fun progress new =>
          Clean progress → Segmented Between P
            (fileOrders job.validate job.baseWorkDir fileIdx path (d.content path)) new := by
        unfold runFile fileOrders
        cases (d.content path).bind items with
        | error exc => exact Logs.pure fun hclean => by cases hclean.1
        | ok entries => exact runEntries_logs peer hjob fileIdx path 0 entries report
      refine hfile.bind fun progress new hsegmented => ?_
      by_cases hraised : progress.raised.isSome = true
      · rw [if_pos hraised]
        refine Logs.pure fun hclean => ?_
        rw [hclean.1] at hraised
        cases hraised
      · rw [if_neg hraised]
        by_cases hstop : (job.stopOnFirstFailure &&
            progress.report.failed + progress.report.errored != 0) = true
        · rw [if_pos hstop]
          refine Logs.pure fun hclean => ?_
          obtain ⟨-, r, hr, hfailed⟩ := stops_iff.mp hstop
          rw [hclean.2 r hr] at hfailed
          cases hfailed
        · rw [if_neg hstop]
          refine ((ih (fileIdx + 1) progress.report).yields
            (runFiles_yields hshows job (fileIdx + 1) paths progress.report)).mono ?_
          rintro last rest ⟨hrest, hkept, -⟩ hclean
          have hearlier : Clean progress :=
            ⟨by simpa using hraised, fun r hr => hclean.2 r (hkept r hr)⟩
          exact (Segmented.of_idle hquiet).append ((hsegmented hearlier).append (hrest hclean))

/-- Beside its replays, a batch reads and reports. -/
theorem runBatch_logs {peer : Peer σ (RunReply (H := H) (A := A) (V := V))} {d : Directory}
    (hshows : Shows peer d) (hjob : Trusted job P) (path : Path) (files : List Path) :
    Logs (runBatch peer job path files) fun done new => done.exit = .ok 0 →
      Segmented Between P (orders job.validate job.baseWorkDir d.content 0 files) new := by
  have hclock : Asks peer Quiet (call peer .monotonic : Running σ H A V ℚ) := Asks.call fun r => rfl
  have hecho : Asks peer Quiet
      (capture (call peer (.echo ("no fixture JSON files under " ++ path.str) true))) :=
    Asks.capture (Asks.call fun r => rfl)
  unfold runBatch
  split
  · refine (Logs.of_asks hecho).bind fun echoed new _ => Logs.pure fun hexit => ?_
    cases echoed with
    | error exc => cases hexit
    | ok _ => cases hexit
  · refine (Logs.of_asks hclock).bind fun (t0 : ℚ) early hearly => ?_
    refine (runFiles_logs hshows hjob 0 files {}).bind fun progress new hsegmented => ?_
    have hreports : Asks peer Quiet (capture (writeReports peer job t0 progress.report)) :=
      (Session.asks_writeReports t0 progress.report).capture
    refine (Logs.of_asks hreports).bind fun written late hlate => Logs.pure fun hexit => ?_
    have hfirst : Segmented Between P [] early := .of_idle hearly
    have hlast : Segmented Between P [] late := .of_idle hlate
    have hall := hfirst.append ((hsegmented (clean_of_exit hexit)).append hlast)
    simpa using hall

end Batch

section Run

variable [DecidableEq V] (eest : ExecutionTesting H A V) (hash : FixedBytes H)
  (addr : FixedBytes A) (printing : Printing) (options : Options)

/-- The log of a replay vouches for a fixture: its genesis was written and an EL initialised with
it and started, the builder on that EL, and then the chain was driven. -/
def Vouches (order : Order H A V) (log : List (RunExchange σ H A V)) : Prop :=
  ∃ (g : Ground) (chain : List (ChainExchange σ H A V)),
    On (g.el (Chainspec.buildGenesis hash addr order.fixture) order.workDir ++
      g.builder order.workDir (printing.millis options.payloadBuildTime) options.buildoorBinary)
        chain log ∧
    Vouched eest order.fixture (g.base options.buildoorBinary) chain

/-- A file holds an object, and each of its entries is of another format or validates. -/
def Loads (validate : Validate H A V) (raw : Except PyError Json) : Prop :=
  ∃ entries, raw.bind items = .ok entries ∧
    ∀ entry ∈ entries, ∃ fixture, entryFixture validate entry.2 = .ok fixture

/-- The log of a batch vouches for every engine entry of every fixture file that there is. -/
def Certified (validate : Validate H A V) (d : Directory) (log : List (RunExchange σ H A V)) : Prop :=
  ∃ base files, (∀ workDir, options.workDir = some workDir → base = workDir) ∧
    d.discovered options.path = .ok files ∧ files ≠ [] ∧
    (∀ file ∈ files, Loads validate (d.content file)) ∧
    Segmented Between (Vouches eest hash addr printing options) (orders validate base d.content 0 files) log

variable {peer : Peer σ (RunReply (H := H) (A := A) (V := V))}

theorem replay_trusted (validate : Validate H A V) (fuel : ℕ) (base : Path) :
    Trusted (options.batchJob validate printing (replay peer eest hash addr printing fuel) base)
      (Vouches eest hash addr printing options) where
  logs _ testId workDir := replay_logs fuel testId workDir _ _
  grows fixture testId workDir := (replay_leads fuel fixture testId workDir _ _ {} rfl).grows

/-- Green means green. -/
theorem run_exit_vouches {d : Directory} (hshows : Shows peer d) (fuel : ℕ)
    (validate : Validate H A V) {w : RunWorld σ H A V} {done : RunEnd}
    (hrun : (Batch.run peer eest hash addr printing fuel validate options w).1 = .ok done)
    (hexit : done.exit = .ok 0) :
    Certified eest hash addr printing options validate d
      (asked (Batch.run peer eest hash addr printing fuel validate options) w) := by
  have hlogs : Logs (Batch.run peer eest hash addr printing fuel validate options) fun done new =>
      done.exit = .ok 0 → Certified eest hash addr printing options validate d new := by
    unfold Batch.run runCmd
    have hbase : Logs (baseWorkDir peer options) fun base new =>
        (∀ y ∈ new, Between y) ∧ ∀ workDir, options.workDir = some workDir → base = workDir := by
      refine (Logs.of_asks (Session.asks_baseWorkDir options)).yields ?_
      unfold baseWorkDir
      cases options.workDir with
      | none => exact (Yields.any _).mono fun _ _ _ h => by cases h
      | some workDir => exact Yields.pure fun _ h => Option.some.inj h
    refine hbase.bind ?_
    rintro base early ⟨hearly, hgiven⟩
    have hmkdir : Asks peer Quiet (call peer (.mkdir base)) := Asks.call fun r => rfl
    refine (Logs.of_asks hmkdir).bind fun _ made hmade => ?_
    have hfiles : Logs (discoverFixtureFiles peer options.path) fun files new =>
        (∀ y ∈ new, Between y) ∧ d.discovered options.path = .ok files :=
      (Logs.of_asks (Session.asks_discoverFixtureFiles _)).yields fun w files hfound =>
        (discoverFixtureFiles_fst hshows options.path w).symm.trans hfound
    refine hfiles.bind ?_
    rintro files found ⟨hfound, hdiscovered⟩
    refine ((runBatch_logs hshows (replay_trusted eest hash addr printing options validate fuel
      base) _ files).yields (runBatch_yields hshows _ _ files)).mono ?_
    rintro done new ⟨hsegmented, hyields⟩ hexit
    obtain ⟨hne, -, haccounted⟩ := hyields hexit
    refine ⟨base, files, hgiven, hdiscovered, hne, ?_, ?_⟩
    · intro file hfile
      obtain ⟨entries, hentries, hresults⟩ := haccounted file hfile
      exact ⟨entries, hentries, fun entry hentry => ⟨_, (hresults entry hentry).choose_spec.1⟩⟩
    · have hbatch : Segmented Between (Vouches eest hash addr printing options)
          (orders validate base d.content 0 files) new := hsegmented hexit
      have hall := (Segmented.of_idle hearly).append
        ((Segmented.of_idle hmade).append ((Segmented.of_idle hfound).append hbatch))
      simpa using hall
  exact hlogs.of_asked (Prod.ext hrun rfl) hexit

end Run

/-- A file with one fixture in it. -/
def oneFixtureFile : Directory where
  isFile _ := .ok true
  isDir _ := .ok false
  rglob _ _ := .ok []
  content _ := .ok (.obj [("tests/test_a.py",
    .obj [("_info", .obj [("fixture-format", .str "blockchain_test_engine")])])])

/-- A calm machine on which the block can be built. -/
def building : Peer Unit (RunReply (H := Unit) (A := Unit) (V := Unit)) where
  answer s q :=
    match q with
    | .drive (.forkchoiceUpdated _ _ _) => (.ok ⟨.valid, some "0x01"⟩, s)
    | .drive (.getPayload _ _) => (.ok oneBlock, s)
    | q => (calm oneFixtureFile).answer s q

def oneFixtureRun : Options where
  path := ⟨"/", ["fixture.json"]⟩
  workDir := some ⟨"/", ["work"]⟩

def oneFixtureValidate : Validate Unit Unit Unit := fun _ => .ok oneBlockFixture

def oneFixtureEnd : Running Unit Unit Unit Unit RunEnd :=
  Batch.run building unitTesting unitBytes unitBytes unitPrinting 1 oneFixtureValidate oneFixtureRun

theorem run_exit_vouches_oneFixture :
    Certified unitTesting unitBytes unitBytes unitPrinting oneFixtureRun oneFixtureValidate oneFixtureFile
      (asked oneFixtureEnd ⟨(), []⟩) := by
  have hshows : Shows building oneFixtureFile :=
    ⟨fun _ _ => rfl, fun _ _ => rfl, fun _ _ _ => rfl, fun _ _ => rfl⟩
  have hexit : (oneFixtureEnd ⟨(), []⟩).1.map (·.exit) = .ok (.ok 0) := by
    decide +kernel
  obtain ⟨done, hrun, hzero⟩ := ok_of_map_ok hexit
  exact run_exit_vouches unitTesting unitBytes unitBytes unitPrinting oneFixtureRun hshows 1
    oneFixtureValidate hrun hzero

end EestReplay.Exit
