import EestReplay.Library.Following
import EestReplay.Model.Throwaway
import EestReplay.Verification.Submit.Semantics

/-! # The life of `execute`

An abstract machine for one submission: its recording proxy and its `execute`. The process runs
until a wait for it ends. One that is late is killed and then collected, and one for which a call
fails is lost. The node is asked, and the capture is taken and written, only while no `execute`
runs. -/

namespace EestReplay.Execute

open Dialogue Runs Export

inductive Stage where
  | fresh
  | running
  | late
  | killed
  | done
  | lost
  deriving DecidableEq

/-- No `execute` is known to run. -/
def Stage.idle : Stage → Bool
  | .running => false
  | .late => false
  | .killed => false
  | _ => true

structure State where
  proxy : Option String := none
  stage : Stage := .fresh
  deriving DecidableEq

inductive Outcome where
  | done
  | late
  | failed
  deriving DecidableEq

inductive Event where
  | proxied (url : String)
  | unproxied
  | started (cmd : List String)
  | waited (outcome : Outcome)
  | signalled (failed : Bool)
  | collected (failed : Bool)
  | snapshot
  | asked
  | written

/-- The endpoint that a command line of `execute` names. -/
def endpointOf (cmd : List String) : Option String := optionValue "--rpc-endpoint" (cmd.drop 4)

/-- When an event may happen. -/
def State.allows (s : State) : Event → Bool
  | .proxied _ => s.stage = .fresh ∧ s.proxy = none
  | .unproxied => s.stage.idle ∧ s.proxy.isSome
  | .started cmd => s.stage = .fresh ∧ ∀ url ∈ s.proxy, endpointOf cmd = some url
  | .waited _ => s.stage = .running
  | .signalled _ => s.stage = .late
  | .collected _ => s.stage = .killed
  | .snapshot => s.stage = .done ∧ s.proxy.isSome
  | .asked => s.stage.idle
  | .written => s.stage = .done ∧ s.proxy = none

def State.after (s : State) : Event → State
  | .proxied url => { s with proxy := some url }
  | .unproxied => { s with proxy := none }
  | .started _ => { s with stage := .running }
  | .waited .done => { s with stage := .done }
  | .waited .late => { s with stage := .late }
  | .waited .failed => { s with stage := .lost }
  | .signalled failed => { s with stage := if failed then .lost else .killed }
  | .collected failed => { s with stage := if failed then .lost else .done }
  | _ => s

def step (s : State) (event : Event) : Option State :=
  if s.allows event then some (s.after event) else none

theorem step_eq_some {s t : State} {event : Event} :
    step s event = some t ↔ s.allows event = true ∧ s.after event = t := by
  simp [step]

/-! ## One `execute` -/

def Event.starts : Event → Bool
  | .started _ => true
  | _ => false

theorem starts_of_step {s t : State} {event : Event} (h : step s event = some t)
    (hstarts : event.starts = true) : s.stage = .fresh ∧ t.stage = .running := by
  obtain ⟨hallows, rfl⟩ := step_eq_some.mp h
  cases event with
  | started cmd => exact ⟨(of_decide_eq_true hallows).1, rfl⟩
  | _ => cases hstarts

/-- Nothing leads back to the first stage. -/
theorem fresh_of_step {s t : State} {event : Event} (h : step s event = some t)
    (hfresh : t.stage = .fresh) : s.stage = .fresh := by
  obtain ⟨hallows, rfl⟩ := step_eq_some.mp h
  cases event with
  | started cmd => cases hfresh
  | waited outcome => cases outcome <;> cases hfresh
  | signalled failed => cases failed <;> cases hfresh
  | collected failed => cases failed <;> cases hfresh
  | proxied url => exact hfresh
  | unproxied => exact hfresh
  | snapshot => exact hfresh
  | asked => exact hfresh
  | written => exact hfresh

/-- No run starts `execute` twice. -/
theorem started_once {events : List Event} {t : State} (h : run step {} events = some t) :
    events.countP Event.starts ≤ 1 := by
  have hcount : events.countP Event.starts ≤ 1 ∧
      (t.stage = .fresh → events.countP Event.starts = 0) := by
    refine run_induction (P := fun events t => events.countP Event.starts ≤ 1 ∧
      (t.stage = .fresh → events.countP Event.starts = 0)) ⟨Nat.zero_le _, fun _ => rfl⟩ ?_ h
    rintro events s event t ⟨hle, hzero⟩ hstep
    rw [List.countP_append, List.countP_singleton]
    cases hevent : event.starts with
    | true =>
        obtain ⟨hfresh, hrunning⟩ := starts_of_step hstep hevent
        refine ⟨by simp [hzero hfresh], fun hfresh' => ?_⟩
        rw [hrunning] at hfresh'
        cases hfresh'
    | false =>
        refine ⟨by simpa using hle, fun hfresh => ?_⟩
        simpa using hzero (fresh_of_step hstep hfresh)
  exact hcount.1

/-! ## What is seen of a submission -/

/-- A process that is gone needs no signal. -/
def signalFailed : Except PyError Unit → Bool
  | .ok _ => false
  | .error exc => exc.kind ≠ .processLookupError

def outcome {α : Type} : Except PyError α → Outcome
  | .ok _ => .done
  | .error exc => if exc.kind = .timeoutExpired then .late else .failed

def observe : (q : HostCall) → HostReply q → Option Event
  | .startProxy _, .ok url => some (.proxied url)
  | .stopProxy, _ => some .unproxied
  | .popen cmd _, .ok _ => some (.started cmd)
  | .communicate (some _), reply => some (.waited (outcome reply))
  | .communicate none, reply => some (.collected !reply.isOk)
  | .killpg, reply => some (.signalled (signalFailed reply))
  | .snapshot, _ => some .snapshot
  | .post _ _ _ _, _ => some .asked
  | .writeCsv _ _, _ => some .written
  | _, _ => none

variable {σ : Type} {peer : Peer σ HostReply} {eest : Eest}

def see (y : Exchange σ HostReply) : Option Event := observe y.query y.reply

/-- The program leaves the machine in one state, however it ends. -/
abbrev Leads {α : Type} (s : State) (x : Command σ α) (t : State) : Prop :=
  Follows see step s x (fun _ u => u = t) (fun _ u => u = t)

theorem quiet_leads {α : Type} {s : State} {x : Command σ α} {allowed : HostCall → Prop}
    (hx : Asks peer allowed x) (hquiet : ∀ q r, allowed q → observe q r = none) : Leads s x s :=
  Follows.of_asks hx fun st q r hq => by
    have hnone : see ⟨st, q, r⟩ = none := hquiet q r hq
    rw [hnone, advance_none]

/-- The node is asked, and random bits are drawn, while no `execute` runs. -/
theorem posting_leads {α : Type} {s : State} {x : Command σ α} (hs : s.stage.idle = true)
    (hx : Asks peer Posting x) : Leads s x s := by
  refine Follows.of_asks hx fun st q r hq => ?_
  cases q with
  | post rpcUrl method params timeout =>
      have hasked : step s .asked = some s := step_eq_some.mpr ⟨hs, rfl⟩
      exact hasked
  | randbits k => rfl
  | _ => cases hq

/-! ## `execute` -/

theorem killGroup_follows (proxy : Option String) :
    Follows see step ⟨proxy, .late⟩ (killGroup peer) (fun _ t => t = ⟨proxy, .killed⟩)
      (fun _ t => t = ⟨proxy, .lost⟩) := by
  refine Follows.tryCatch (F := fun exc t =>
    t = ⟨proxy, if exc.kind = .processLookupError then .killed else .lost⟩) (Follows.call ?_ ?_) ?_
  · exact fun st a => ⟨_, rfl, rfl⟩
  · intro st exc
    refine ⟨_, rfl, ?_⟩
    by_cases hgone : exc.kind = .processLookupError <;> simp [signalFailed, hgone, State.after]
  · rintro exc t rfl
    split
    · exact Follows.pure rfl
    · exact Follows.throw rfl

theorem waitExecute_follows (proxy : Option String) (timeout : ℤ) :
    Follows see step ⟨proxy, .running⟩ (waitExecute peer timeout) (fun _ t => t = ⟨proxy, .done⟩)
      (fun _ t => t = ⟨proxy, .lost⟩) := by
  refine Follows.tryCatch (F := fun exc t =>
    t = ⟨proxy, if exc.kind = .timeoutExpired then .late else .lost⟩) ?_ ?_
  · refine Follows.bind (S := fun _ t => t = ⟨proxy, .done⟩) (Follows.call ?_ ?_) ?_
    · exact fun st a => ⟨_, rfl, rfl⟩
    · intro st exc
      refine ⟨⟨proxy, if exc.kind = .timeoutExpired then .late else .lost⟩, ?_, rfl⟩
      show step ⟨proxy, .running⟩ (.waited (outcome (.error exc : Except PyError Completed))) = _
      by_cases hlate : exc.kind = .timeoutExpired <;>
        simp [outcome, hlate, step, State.allows, State.after]
    · rintro done t rfl
      exact Follows.pure rfl
  · rintro exc t rfl
    split
    · refine (killGroup_follows proxy).bind ?_
      rintro _ t rfl
      refine Follows.bind (S := fun _ t => t = ⟨proxy, .done⟩) (Follows.call ?_ ?_) ?_
      · exact fun st a => ⟨_, rfl, rfl⟩
      · exact fun st e => ⟨_, rfl, rfl⟩
      · rintro done t rfl
        exact Follows.pure rfl
    · exact Follows.throw rfl

theorem endpointOf_remoteCmd (engine : Option (String × Path)) (args : ExecuteArgs) :
    endpointOf (remoteCmd engine args) = some args.rpcUrl := by
  simp [endpointOf, remoteCmd, optionValue]

/-- What `execute` leaves behind when a run of it raises: nothing was started, or it is lost. -/
def Raised (proxy : Option String) (t : State) : Prop := t = ⟨proxy, .fresh⟩ ∨ t = ⟨proxy, .lost⟩

theorem runRemote_follows (engine : Option (String × Path)) (args : ExecuteArgs)
    {proxy : Option String} (hproxy : ∀ url ∈ proxy, args.rpcUrl = url) :
    Follows see step ⟨proxy, .fresh⟩ (runRemote peer engine args) (fun _ t => t = ⟨proxy, .done⟩)
      (fun _ => Raised proxy) := by
  unfold runRemote
  refine Follows.bind (S := fun _ t => t = ⟨proxy, .running⟩) (Follows.call ?_ ?_) ?_
  · intro st a
    refine ⟨⟨proxy, .running⟩, ?_, rfl⟩
    have hmay : ∀ url ∈ proxy, endpointOf (remoteCmd engine args) = some url := by
      intro url hurl
      rw [endpointOf_remoteCmd, hproxy url hurl]
    exact step_eq_some.mpr ⟨decide_eq_true ⟨rfl, hmay⟩, rfl⟩
  · exact fun st e => ⟨_, rfl, .inl rfl⟩
  · rintro _ t rfl
    refine ((waitExecute_follows proxy _).mono_error fun _ _ => .inr).bind ?_
    rintro ended t rfl
    cases ended with
    | none => exact Follows.pure rfl
    | some done =>
        dsimp only
        split
        · exact Follows.pure rfl
        · exact Follows.pure rfl

/-! ## The proxy -/

/-- The proxy is there while its body runs, and gone when it has ended. -/
theorem withProxy_follows {α : Type} {rpcUrl : String} {body : String → Command σ α}
    (hbody : ∀ url, Follows see step ⟨some url, .fresh⟩ (body url)
      (fun _ t => t = ⟨some url, .done⟩)
      (fun _ t => ∃ stage, t = ⟨some url, stage⟩ ∧ stage.idle = true)) :
    Follows see step ⟨none, .fresh⟩ (withProxy peer rpcUrl body) (fun _ t => t = ⟨none, .done⟩)
      (fun _ t => ∃ stage, t = ⟨none, stage⟩ ∧ stage.idle = true) := by
  have hstop : ∀ url stage, stage.idle = true →
      Leads ⟨some url, stage⟩ (call peer .stopProxy) ⟨none, stage⟩ := by
    intro url stage hidle
    have hstep : step ⟨some url, stage⟩ .unproxied = some ⟨none, stage⟩ :=
      step_eq_some.mpr ⟨decide_eq_true ⟨hidle, rfl⟩, rfl⟩
    exact Follows.call (fun st a => ⟨_, hstep, rfl⟩) (fun st e => ⟨_, hstep, rfl⟩)
  unfold withProxy
  refine Follows.bind (S := fun url t => t = ⟨some url, .fresh⟩) (Follows.call ?_ ?_) ?_
  · exact fun st url => ⟨_, rfl, rfl⟩
  · exact fun st e => ⟨_, rfl, .fresh, rfl, rfl⟩
  · rintro url t rfl
    refine Follows.bind (S := fun _ t => t = ⟨some url, .done⟩) ((hbody url).tryCatch ?_) ?_
    · rintro e t ⟨stage, rfl, hidle⟩
      refine ((hstop url stage hidle).mono_error ?_).bind ?_
      · exact fun _ t ht => ⟨stage, ht, hidle⟩
      · rintro _ t rfl
        exact Follows.throw ⟨stage, rfl, hidle⟩
    · rintro result t rfl
      refine ((hstop url .done rfl).mono_error ?_).bind ?_
      · exact fun _ t ht => ⟨.done, ht, rfl⟩
      · rintro _ t rfl
        exact Follows.pure rfl

theorem Raised.idle {proxy : Option String} {t : State} (h : Raised proxy t) :
    ∃ stage, t = ⟨proxy, stage⟩ ∧ stage.idle = true := by
  rcases h with rfl | rfl
  · exact ⟨.fresh, rfl, rfl⟩
  · exact ⟨.lost, rfl, rfl⟩

theorem snapshot_leads (url : String) :
    Leads ⟨some url, .done⟩ (call peer .snapshot) ⟨some url, .done⟩ :=
  Follows.call (fun _ _ => ⟨_, rfl, rfl⟩) (fun _ _ => ⟨_, rfl, rfl⟩)

/-! ## A submission -/

/-- Nothing is left: no proxy, and no `execute` that is known to run. -/
def Settled (t : State) : Prop := ∃ stage, t = ⟨none, stage⟩ ∧ stage.idle = true

theorem Settled.of_eq {stage : Stage} (h : stage.idle = true) {t : State} (ht : t = ⟨none, stage⟩) :
    Settled t :=
  ⟨stage, ht, h⟩

theorem runExecute_follows (args : ExecuteArgs) {proxy : Option String}
    (hproxy : ∀ url ∈ proxy, args.rpcUrl = url) :
    Follows see step ⟨proxy, .fresh⟩ (runExecute peer args) (fun _ t => t = ⟨proxy, .done⟩)
      (fun _ => Raised proxy) := by
  rw [← runRemote_none]
  exact runRemote_follows none args hproxy

/-- A part behind `execute`, which leaves the machine as it is. -/
theorem later_bind {α β : Type} {x : Command σ α} {f : α → Command σ β}
    (hx : Leads ⟨none, .done⟩ x ⟨none, .done⟩)
    (hf : ∀ a, Follows see step ⟨none, .done⟩ (f a) (fun _ t => t = ⟨none, .done⟩)
      (fun _ => Settled)) :
    Follows see step ⟨none, .done⟩ (x >>= f) (fun _ t => t = ⟨none, .done⟩) (fun _ => Settled) := by
  refine (hx.mono_error fun _ _ => Settled.of_eq rfl).bind ?_
  rintro a t rfl
  exact hf a

theorem broadcast_follows (args : SubmitArgs) (eoaStart : String) :
    Follows see step {} (broadcast peer eest args eoaStart) (fun _ t => t = ⟨none, .done⟩)
      (fun _ => Settled) := by
  unfold broadcast
  cases args.csvPath with
  | none =>
      have hdirect : ∀ url ∈ (none : Option String), args.rpcUrl = url := fun url hurl => by cases hurl
      refine ((runExecute_follows _ hdirect).mono_error fun _ _ => Raised.idle).bind ?_
      rintro done t rfl
      exact Follows.pure rfl
  | some csvPath =>
      refine (withProxy_follows fun url => ?_).bind ?_
      · have hproxied : ∀ url' ∈ some url, url = url' := fun url' hurl' => Option.some.inj hurl'
        refine ((runExecute_follows _ hproxied).mono_error fun _ _ => Raised.idle).bind ?_
        rintro done t rfl
        refine ((snapshot_leads url).mono_error fun _ _ ht => ⟨.done, ht, rfl⟩).bind ?_
        rintro rawTxs t rfl
        exact Follows.pure rfl
      · rintro ⟨executeOk, err, rawTxs⟩ t rfl
        refine later_bind (posting_leads rfl (posts_enrich _ _ _)) fun rows => ?_
        refine later_bind (Follows.call (fun _ _ => ⟨_, rfl, rfl⟩) fun _ _ => ⟨_, rfl, rfl⟩) fun _ => ?_
        refine later_bind (Follows.call (fun _ _ => ⟨_, rfl, rfl⟩) fun _ _ => ⟨_, rfl, rfl⟩) fun _ => ?_
        exact Follows.pure rfl

theorem writeRecoveryMeta_leads (s : State) (metaPath csvPath : Option Path) (text : Json) :
    Leads s (writeRecoveryMeta peer metaPath csvPath text) s := by
  have hasks : Asks peer (fun q => ∀ r, observe q r = none)
      (writeRecoveryMeta peer metaPath csvPath text) := by
    refine Asks.bind (Asks.lift _) fun target => ?_
    cases target with
    | none => exact Asks.pure _
    | some path =>
        refine Asks.bind (Asks.call fun _ => rfl) fun _ => ?_
        exact Asks.bind (Asks.call fun _ => rfl) fun _ => Asks.pure _
  exact quiet_leads hasks fun q r hq => hq r

/-- What a submission that returns has made of its machine: `execute` is over, or it was never
started and the result says so. -/
def Submitted (result : SubmitResult) (t : State) : Prop :=
  t = ⟨none, .done⟩ ∨ (t = ⟨none, .fresh⟩ ∧ result.executeOk = false)

theorem Submitted.settled {result : SubmitResult} {t : State} (h : Submitted result t) : Settled t := by
  rcases h with rfl | ⟨rfl, -⟩
  · exact Settled.of_eq rfl rfl
  · exact Settled.of_eq rfl rfl

theorem launch_follows (args : SubmitArgs) (seedAddr eoaStart : String) (before : Option ℤ) :
    Follows see step {} (launch peer eest args seedAddr eoaStart before)
      (fun _ t => t = ⟨none, .done⟩) (fun _ => Settled) := by
  unfold launch
  refine ((writeRecoveryMeta_leads {} _ _ _).mono_error fun _ _ => Settled.of_eq rfl).bind ?_
  rintro written t rfl
  refine (broadcast_follows args eoaStart).bind ?_
  rintro ⟨executeOk, err, count⟩ t rfl
  exact later_bind (posting_leads rfl (posts_spent _ _ _)) fun spentWei => Follows.pure rfl

theorem submitTransactions_follows (args : SubmitArgs) :
    Follows see step {} (submitTransactions peer eest args) Submitted (fun _ => Settled) := by
  have hfresh : ∀ {α : Type} {x : Command σ α}, Leads {} x {} →
      Follows see step {} x (fun _ t => t = {}) (fun _ => Settled) := fun hx =>
    hx.mono_error fun _ _ => Settled.of_eq rfl
  unfold submitTransactions
  refine (hfresh (posting_leads rfl posts_chooseEoaStart)).bind ?_
  rintro eoaStart t rfl
  have haddress : Asks peer Posting (lift (addressFromKey eest args.seedKey) : Command σ String) :=
    Asks.lift _
  refine (hfresh (posting_leads rfl haddress)).bind ?_
  rintro seedAddr t rfl
  refine (hfresh (posting_leads rfl (asks_attempt (posts_getBalance _ _)))).bind ?_
  rintro before t rfl
  split
  · exact Follows.pure (.inr ⟨rfl, rfl⟩)
  · exact (launch_follows args seedAddr eoaStart before).conseq (fun _ _ => .inl) fun _ _ => id

variable (peer eest)

/-- Every submission follows the machine, whatever the host answers: it starts `execute` at most
once, through the proxy when there is one; it asks the node, takes the capture and writes it only
while no `execute` is known to run; it has asked its proxy to stop, and its `execute` has ended,
or a call to wait for it or to kill it has failed. One that returns a success has waited for the
end of its `execute`. -/
theorem submit_is_orderly (args : SubmitArgs) (w : HostWorld σ) :
    ∃ t, run step {} (seen see (Dialogue.asked (submitTransactions peer eest args) w)) = some t ∧
      (seen see (Dialogue.asked (submitTransactions peer eest args) w)).countP Event.starts ≤ 1 ∧
      Settled t ∧ ∀ result, (submitTransactions peer eest args w).1 = .ok result →
        result.executeOk = true → t.stage = .done := by
  have hfollows : Follows see step {} (submitTransactions peer eest args)
      Submitted (fun _ => Settled) := submitTransactions_follows args
  obtain ⟨new, t, hlog, hrun, hok, herr⟩ := hfollows w
  rw [asked_eq hlog]
  refine ⟨t, hrun, started_once hrun, ?_, ?_⟩
  · rcases hresult : (submitTransactions peer eest args w).1 with e | result
    · exact herr e hresult
    · exact (hok result hresult).settled
  · intro result hresult hexecute
    rcases hok result hresult with rfl | ⟨-, hfalse⟩
    · rfl
    · rw [hfalse] at hexecute
      cases hexecute

end EestReplay.Execute
