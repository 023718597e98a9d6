import EestReplay.Verification.Session.Machine
import EestReplay.Verification.Batch.Directories

/-! # The servers of a run

What `run` asks of its machine is a session: every replay starts its EL, and a builder over it,
and stops or loses them before the next one starts, whatever raises on the way. -/

namespace EestReplay.Session

open Dialogue Runs

variable {σ H A V : Type} {peer : Peer σ (RunReply (H := H) (A := A) (V := V))}

def outcome : Except PyError Unit → Outcome
  | .ok _ => .done
  | .error exc => if exc.kind = .timeoutExpired then .late else .failed

/-- What a call and its reply show of a session. -/
def observe : (q : RunCall H A V) → RunReply q → Option Event
  | .popen cmd _, .ok process => some (.started cmd process)
  | .probe url _ _, .ok status => some (.answered url status)
  | .run ["docker", "stop", name] _, reply => some (.stopped name !reply.isOk)
  | .terminate process, reply => some (.terminated process !reply.isOk)
  | .wait process _, reply => some (.waited process (outcome reply))
  | .kill process, reply => some (.killed process !reply.isOk)
  | .drive (.build url _), _ => some (.worked (some url))
  | .drive _, _ => some (.worked none)
  | _, _ => none

/-- The session of a log. -/
def see (y : Exchange σ (RunReply (H := H) (A := A) (V := V))) : Option Event :=
  observe y.query y.reply

/-- Nothing is seen of the call. -/
def Quiet (q : RunCall H A V) : Prop := ∀ r, observe q r = none

/-! ## Addresses -/

theorem takeWhile_toString (n : ℕ) (rest : String) :
    String.ofList ((toString n ++ (":" ++ rest)).toList.takeWhile (· ≠ ':')) = toString n := by
  have hdigits : ∀ c ∈ (toString n).toList, (c ≠ ':' : Bool) = true := by
    intro c hc
    rw [Text.toList_toString] at hc
    have hdigit := Nat.isDigit_of_mem_toDigits (by decide) (by decide) hc
    apply decide_eq_true
    rintro rfl
    cases hdigit
  have hstop : (":" ++ rest).toList.takeWhile (· ≠ ':') = [] := by
    rw [String.toList_append]
    rfl
  rw [String.toList_append, List.takeWhile_append_of_pos hdigits, hstop, List.append_nil,
    String.ofList_toList]

theorem ofCmd_gethCmd (workDir : Path) (name : String) (rpcPort authPort : ℕ) :
    Server.ofCmd (El.gethCmd workDir name rpcPort authPort) =
      some (.container name ("http://127.0.0.1:" ++ toString rpcPort)) := by
  have hports : toString rpcPort ++ ":8545" = toString rpcPort ++ (":" ++ "8545") := rfl
  simp only [Server.ofCmd, El.gethCmd]
  rw [hports, takeWhile_toString]

theorem ofCmd_simbuildCmd (binary : Path) (elEngineUrl : String) (jwtSecretPath : Path) (port : ℕ)
    (buildWaitMs : ℤ) :
    Server.ofCmd (Buildoor.simbuildCmd binary elEngineUrl jwtSecretPath port buildWaitMs) =
      some (.builder ("http://127.0.0.1:" ++ toString port)) := by
  have haddress : "http://127.0.0.1" ++ (":" ++ toString port) =
      "http://127.0.0.1:" ++ toString port := by
    rw [← String.append_assoc]
    rfl
  simp only [Server.ofCmd, Buildoor.simbuildCmd]
  rw [haddress]

/-! ## Starting and stopping -/

/-- The program leaves the servers that it finds held as they are named, however it ends. -/
abbrev Leads {α : Type} (ups : List Up) (x : Running σ H A V α) (ups' : List Up) : Prop :=
  ∀ s : State, s.held = ups →
    Follows see step s x (fun _ t => t.held = ups') (fun _ t => t.held = ups')

theorem asks_follows {α : Type} {s : State} {x : Running σ H A V α} (hx : Asks peer Quiet x) :
    Follows see step s x (fun _ t => t = s) (fun _ t => t = s) :=
  Follows.of_asks hx fun st q r hq => by
    have hnone : see ⟨st, q, r⟩ = none := hq r
    rw [hnone, advance_none]

theorem leads_of_asks {α : Type} {ups : List Up} {x : Running σ H A V α}
    (hx : Asks peer Quiet x) : Leads ups x ups := by
  rintro s rfl
  refine (asks_follows hx).conseq ?_ ?_
  · rintro a t rfl
    rfl
  · rintro e t rfl
    rfl

theorem quiet_bind {α β : Type} {s : State} {x : Running σ H A V α}
    {f : α → Running σ H A V β} {S : β → State → Prop} {E : PyError → State → Prop}
    (hx : Asks peer Quiet x) (hf : ∀ a, Follows see step s (f a) S E) (hE : ∀ e, E e s) :
    Follows see step s (x >>= f) S E := by
  refine ((asks_follows hx).mono_error ?_).bind ?_
  · rintro e t rfl
    exact hE e
  · rintro a t rfl
    exact hf a

theorem step_started {cmd : List String} (process : ℕ) {server : Server} {s : State} {ups : List Up}
    (hcmd : Server.ofCmd cmd = some server) (hs : s.held = ups)
    (hmay : server.mayStart ups = true) :
    ∃ t, step s (.started cmd process) = some t ∧ t.held = ⟨server, process, .booting⟩ :: ups := by
  subst hs
  have hstep : step s (.started cmd process) =
      some { s with held := ⟨server, process, .booting⟩ :: s.held } := by
    simp only [step, hcmd, hmay, if_true]
  exact ⟨_, hstep, rfl⟩

/-- What is still held of a server and those under it. -/
def Fate.leaves (up : Up) (rest : List Up) : Fate → List Up
  | .up phase => { up with phase := phase } :: rest
  | _ => rest

/-- What an event does to the last server, when it may happen to it. -/
theorem step_onTop (event : Event) {s : State} {up : Up} {ups : List Up} (hs : s.held = up :: ups)
    (habout : event.about up = true) :
    ∃ t, step s event = some t ∧ t.held = (event.fate up.server).leaves up ups := by
  have htop : ∃ t, onTop event s = some t ∧ t.held = (event.fate up.server).leaves up ups := by
    obtain ⟨held, lost⟩ := s
    obtain rfl : held = up :: ups := hs
    simp only [onTop, habout, if_true]
    cases event.fate up.server with
    | up phase => exact ⟨_, rfl, rfl⟩
    | gone => exact ⟨_, rfl, rfl⟩
    | lost => exact ⟨_, rfl, rfl⟩
  cases event with
  | started cmd process => cases habout
  | worked builder => cases habout
  | answered url status => exact htop
  | stopped name failed => exact htop
  | terminated process failed => exact htop
  | waited process outcome => exact htop
  | killed process failed => exact htop

/-- The phase of a server after the answer to a probe. -/
def phaseAfter : Except PyError ℕ → Phase
  | .ok status => if status = 200 then .ready else .booting
  | .error _ => .booting

theorem pollUntil_follows {server : Server} {process : ℕ} {ups : List Up} {url : String}
    (hurl : server.probeUrl = url) (body : Option Json) (deadline : ℚ) (message : String)
    (fuel : ℕ) (lastErr : String) {s : State} (hs : s.held = ⟨server, process, .booting⟩ :: ups) :
    Follows see step s (pollUntil peer url body deadline message fuel lastErr)
      (fun _ t => t.held = ⟨server, process, .ready⟩ :: ups)
      (fun _ t => t.held = ⟨server, process, .booting⟩ :: ups) := by
  induction fuel generalizing lastErr s with
  | zero => exact Follows.throw hs
  | succ fuel ih =>
      unfold pollUntil
      refine quiet_bind (Asks.call fun r => rfl) (fun now => ?_) fun _ => hs
      split
      · refine Follows.bind
          (S := fun answer t => t.held = ⟨server, process, phaseAfter answer⟩ :: ups)
          (Follows.ask ?_) ?_
        · intro st r
          cases r with
          | error exc => exact ⟨s, rfl, hs⟩
          | ok status => exact step_onTop (.answered url status) hs (by simp [Event.about, hurl])
        · intro answer t ht
          cases answer with
          | ok status =>
              dsimp only [phaseAfter] at ht ⊢
              split
              · next hstatus =>
                rw [if_pos hstatus] at ht
                exact Follows.pure ht
              · next hstatus =>
                rw [if_neg hstatus] at ht
                exact ih lastErr ht
          | error exc =>
              dsimp only
              split
              · exact quiet_bind (Asks.call fun r => rfl) (fun _ => ih exc.text ht) fun _ => ht
              · exact Follows.throw ht
      · exact Follows.throw hs

theorem waitOrKill_leads (server : Server) (process timeout : ℕ) (ups : List Up) :
    Leads (⟨server, process, .stopping⟩ :: ups) (waitOrKill peer process timeout) ups := by
  intro s hs
  unfold waitOrKill
  refine Follows.bind (S := fun waited t => match outcome waited with
      | .late => t.held = ⟨server, process, .overdue⟩ :: ups
      | _ => t.held = ups) (Follows.ask ?_) ?_
  · intro st r
    obtain ⟨t, hstep, ht⟩ := step_onTop (.waited process (outcome r)) hs (by simp [Event.about])
    refine ⟨t, hstep, ?_⟩
    cases hr : outcome r with
    | done => rwa [hr] at ht
    | late => rwa [hr] at ht
    | failed => rwa [hr] at ht
  · intro waited t ht
    cases waited with
    | ok _ => exact Follows.pure ht
    | error exc =>
        dsimp only [outcome] at ht ⊢
        split
        · next hlate =>
          rw [hlate] at ht
          have hkilled : ∀ failed,
              ∃ u, step t (.killed process failed) = some u ∧ u.held = ups := by
            intro failed
            obtain ⟨u, hstep, hu⟩ := step_onTop (.killed process failed) ht (by simp [Event.about])
            refine ⟨u, hstep, ?_⟩
            simp only [Event.fate] at hu
            split at hu <;> exact hu
          exact Follows.call (fun st a => hkilled false) fun st e => hkilled true
        · next hlate =>
          rw [if_neg hlate] at ht
          exact Follows.throw ht

/-! ## The EL -/

theorem start_follows (genesis : Json) (workDir : Path) {s : State} (hs : s.held = []) :
    Follows see step s (El.start peer genesis workDir)
      (fun started t =>
        t.held = [⟨.container started.1.container started.1.rpcUrl, started.2, .booting⟩])
      (fun _ t => t.held = []) := by
  unfold El.start
  refine quiet_bind (Asks.call fun r => rfl) (fun _ => ?_) fun _ => hs
  refine quiet_bind (Asks.call fun r => rfl) (fun _ => ?_) fun _ => hs
  refine quiet_bind (Asks.call fun r => rfl) (fun secret => ?_) fun _ => hs
  refine quiet_bind (Asks.call fun r => rfl) (fun _ => ?_) fun _ => hs
  refine quiet_bind (Asks.call fun r => rfl) (fun _ => ?_) fun _ => hs
  refine quiet_bind (Asks.call fun r => rfl) (fun _ => ?_) fun _ => hs
  refine quiet_bind (Asks.call fun r => rfl) (fun rpcPort => ?_) fun _ => hs
  refine quiet_bind (Asks.call fun r => rfl) (fun authPort => ?_) fun _ => hs
  refine quiet_bind (Asks.call fun r => rfl) (fun suffix => ?_) fun _ => hs
  refine quiet_bind (Asks.call fun r => rfl) (fun _ => ?_) fun _ => hs
  refine quiet_bind (Asks.call fun r => rfl) (fun _ => ?_) fun _ => hs
  refine Follows.bind (S := fun process t => t.held =
    [⟨.container ("eest-replay-" ++ suffix) ("http://127.0.0.1:" ++ toString rpcPort), process,
      .booting⟩]) (Follows.call ?_ ?_) ?_
  · exact fun st process => step_started process (ofCmd_gethCmd workDir _ _ authPort) hs rfl
  · exact fun st e => ⟨s, rfl, hs⟩
  · exact fun process t ht => Follows.pure ht

theorem stop_leads {name url : String} {process : ℕ} {phase : Phase}
    (h : (⟨.container name url, process, phase⟩ : Up).serving = true) :
    Leads [⟨.container name url, process, phase⟩] (El.stop peer name process) [] := by
  intro s hs
  have habout : ∀ failed,
      Event.about (.stopped name failed) ⟨.container name url, process, phase⟩ = true := by
    intro failed
    simp [Event.about, h, Server.isContainer]
  unfold El.stop
  refine Follows.bind (S := fun _ t => t.held = [⟨.container name url, process, .stopping⟩])
    (Follows.call ?_ ?_) ?_
  · exact fun st a => step_onTop _ hs (habout false)
  · exact fun st e => step_onTop _ hs (habout true)
  · exact fun _ t ht => waitOrKill_leads _ _ _ _ t ht

/-- A server that nobody has asked to stop is the last of those that are held. -/
def Holds (server : Server) (process : ℕ) (ups : List Up) (t : State) : Prop :=
  ∃ phase, (⟨server, process, phase⟩ : Up).serving = true ∧ t.held = ⟨server, process, phase⟩ :: ups

theorem holds_booting {server : Server} {process : ℕ} {ups : List Up} {t : State}
    (h : t.held = ⟨server, process, .booting⟩ :: ups) : Holds server process ups t :=
  ⟨.booting, rfl, h⟩

theorem holds_ready {server : Server} {process : ℕ} {ups : List Up} {t : State}
    (h : t.held = ⟨server, process, .ready⟩ :: ups) : Holds server process ups t :=
  ⟨.ready, rfl, h⟩

theorem waitForRpc_follows (name url : String) (process : ℕ) (fuel : ℕ) {s : State}
    (hs : s.held = [⟨.container name url, process, .booting⟩]) :
    Follows see step s (El.waitForRpc peer url fuel)
      (fun _ t => t.held = [⟨.container name url, process, .ready⟩])
      (fun _ => Holds (.container name url) process []) := by
  unfold El.waitForRpc
  refine quiet_bind (Asks.call fun r => rfl) (fun now => ?_) fun _ => holds_booting hs
  exact (pollUntil_follows rfl _ _ _ _ _ hs).mono_error fun _ _ => holds_booting

/-- The EL is held while its body runs, and no more when it has ended. -/
theorem geth_leads {α : Type} (genesis : Json) (workDir : Path) (fuel : ℕ)
    {body : El.Handles → Running σ H A V α}
    (hbody : ∀ handles process, Leads [⟨.container handles.container handles.rpcUrl, process, .ready⟩]
      (body handles) [⟨.container handles.container handles.rpcUrl, process, .ready⟩]) :
    Leads [] (El.geth peer genesis workDir fuel body) [] := by
  intro s hs
  refine Follows.scope
    (I := fun t : State => t.held = [])
    (fun started t => t.held = [⟨.container started.1.container started.1.rpcUrl, started.2, .ready⟩])
    (fun started => Holds (.container started.1.container started.1.rpcUrl) started.2 [])
    (start_follows genesis workDir hs) ?_ ?_ ?_
  · exact fun started t ht => waitForRpc_follows _ _ _ fuel ht
  · exact fun started t ht =>
      (hbody started.1 started.2 t ht).conseq (fun _ _ => holds_ready) fun _ _ => holds_ready
  · rintro started t ⟨phase, hserving, ht⟩
    exact stop_leads hserving t ht

/-! ## The builder -/

theorem startBuilder_follows (binary : Path) (elEngineUrl : String) (jwtSecretPath workDir : Path)
    (buildWaitMs : ℤ) (name url : String) (el : ℕ) {s : State}
    (hs : s.held = [⟨.container name url, el, .ready⟩]) :
    Follows see step s (Buildoor.start peer binary elEngineUrl jwtSecretPath workDir buildWaitMs)
      (fun started t => t.held =
        [⟨.builder started.1, started.2, .booting⟩, ⟨.container name url, el, .ready⟩])
      (fun _ t => t.held = [⟨.container name url, el, .ready⟩]) := by
  unfold Buildoor.start
  refine quiet_bind (Asks.call fun r => rfl) (fun port => ?_) fun _ => hs
  refine quiet_bind (Asks.call fun r => rfl) (fun _ => ?_) fun _ => hs
  refine Follows.bind (S := fun process t => t.held =
    [⟨.builder ("http://127.0.0.1:" ++ toString port), process, .booting⟩,
      ⟨.container name url, el, .ready⟩]) (Follows.call ?_ ?_) ?_
  · exact fun st process => step_started process (ofCmd_simbuildCmd binary elEngineUrl
      jwtSecretPath port buildWaitMs) hs rfl
  · exact fun st e => ⟨s, rfl, hs⟩
  · exact fun process t ht => Follows.pure ht

theorem stopBuilder_leads (workDir : Path) {url : String} {process : ℕ} {phase : Phase}
    {ups : List Up} (h : (⟨.builder url, process, phase⟩ : Up).serving = true) :
    Leads (⟨.builder url, process, phase⟩ :: ups) (Buildoor.stop peer workDir process) ups := by
  intro s hs
  have habout : ∀ failed,
      Event.about (.terminated process failed) ⟨.builder url, process, phase⟩ = true := by
    intro failed
    simp [Event.about, h, Server.isBuilder]
  unfold Buildoor.stop
  refine Follows.bind (S := fun _ t => t.held = ⟨.builder url, process, .stopping⟩ :: ups)
    (Follows.call ?_ ?_) ?_
  · exact fun st a => step_onTop _ hs (habout false)
  · exact fun st e => step_onTop _ hs (habout true)
  · intro _ t ht
    refine (waitOrKill_leads _ _ _ _ t ht).bind ?_
    exact fun _ u hu => leads_of_asks (Asks.call fun r => rfl) u hu

theorem waitForHealth_follows (base : String) (process : ℕ) (ups : List Up) (fuel : ℕ) {s : State}
    (hs : s.held = ⟨.builder base, process, .booting⟩ :: ups) :
    Follows see step s (Buildoor.waitForHealth peer base fuel)
      (fun _ t => t.held = ⟨.builder base, process, .ready⟩ :: ups)
      (fun _ => Holds (.builder base) process ups) := by
  unfold Buildoor.waitForHealth
  refine quiet_bind (Asks.call fun r => rfl) (fun now => ?_) fun _ => holds_booting hs
  exact (pollUntil_follows rfl _ _ _ _ _ hs).mono_error fun _ _ => holds_booting

/-- What the body of a replay can call. -/
def Serves (base : Option String) (ups : List Up) : Prop :=
  works none ups = true ∧ ∀ url, base = some url → works (some url) ups = true

theorem withBuilder_leads {α : Type} (printing : Printing) (buildoorBinary : Option Path)
    (handles : El.Handles) (workDir : Path) (payloadBuildTime : ℚ) (fuel : ℕ) (name url : String)
    (el : ℕ)
    {body : Option String → Running σ H A V α}
    (hbody : ∀ base ups, Serves base ups → Leads ups (body base) ups) :
    Leads [⟨.container name url, el, .ready⟩]
      (Runner.withBuilder peer printing buildoorBinary handles workDir payloadBuildTime fuel body)
      [⟨.container name url, el, .ready⟩] := by
  cases buildoorBinary with
  | none => exact hbody none _ ⟨rfl, fun url hurl => by cases hurl⟩
  | some binary =>
      intro s hs
      unfold Runner.withBuilder
      dsimp only
      refine Follows.scope
        (I := fun t : State => t.held = [⟨.container name url, el, .ready⟩])
        (fun started t =>
          t.held = [⟨.builder started.1, started.2, .ready⟩, ⟨.container name url, el, .ready⟩])
        (fun started => Holds (.builder started.1) started.2 [⟨.container name url, el, .ready⟩])
        (startBuilder_follows _ _ _ _ _ name url el hs) ?_ ?_ ?_
      · exact fun started t ht => waitForHealth_follows _ _ _ fuel ht
      · rintro ⟨base, process⟩ t ht
        have hserves : Serves (some base)
            [⟨.builder base, process, .ready⟩, ⟨.container name url, el, .ready⟩] := by
          refine ⟨rfl, fun url' hurl' => ?_⟩
          obtain rfl := Option.some.inj hurl'
          simp [works]
        exact (hbody (some base) _ hserves t ht).conseq (fun _ _ => holds_ready)
          fun _ _ => holds_ready
      · rintro started t ⟨phase, hserving, ht⟩
        exact stopBuilder_leads workDir hserving t ht

end EestReplay.Session
