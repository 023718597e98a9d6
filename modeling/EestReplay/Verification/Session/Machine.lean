import EestReplay.Library.Following
import EestReplay.Model.Replay

/-! # The servers of a session

An abstract machine for the servers that the tool starts: an EL in a container, and a builder
over it. They are known by the command lines that start them. A server boots until a probe of
its URL is answered with 200. It is gone once its process was waited for, and a builder once it
was killed. When a call of its finalizer fails, or when only the client of its container was
killed, the tool has lost it: it may run on. -/

namespace EestReplay.Session

open Dialogue Runs

inductive Server where
  | container (name url : String)
  | builder (url : String)
  deriving DecidableEq

/-- The server that a command line starts, at the address that it publishes. -/
def Server.ofCmd : List String → Option Server
  | "docker" :: "run" :: "--rm" :: "--name" :: name :: "-p" :: ports :: _ =>
    some (.container name ("http://127.0.0.1:" ++ String.ofList (ports.toList.takeWhile (· ≠ ':'))))
  | _ :: "simbuild" :: _ :: _ :: _ :: _ :: "--listen-addr" :: address :: _ =>
    some (.builder ("http://127.0.0.1" ++ address))
  | _ => none

def Server.isContainer (name : String) : Server → Bool
  | .container name' _ => name = name'
  | .builder _ => false

def Server.isBuilder : Server → Bool
  | .container _ _ => false
  | .builder _ => true

/-- The URL that is probed until the server is ready. -/
def Server.probeUrl : Server → String
  | .container _ url => url
  | .builder url => url ++ "/healthz"

inductive Phase where
  | booting
  | ready
  | stopping
  | overdue
  deriving DecidableEq

structure Up where
  server : Server
  process : ℕ
  phase : Phase := .booting
  deriving DecidableEq

/-- Nobody has asked the server to stop. -/
def Up.serving (up : Up) : Bool := up.phase = .booting || up.phase = .ready

/-- How a wait for a process ends. -/
inductive Outcome where
  | done
  | late
  | failed
  deriving DecidableEq

/-- What is seen of a session. `worked` is a call to the EL, or to the builder at a URL. -/
inductive Event where
  | started (cmd : List String) (process : ℕ)
  | answered (url : String) (status : ℕ)
  | worked (builder : Option String)
  | stopped (name : String) (failed : Bool)
  | terminated (process : ℕ) (failed : Bool)
  | waited (process : ℕ) (outcome : Outcome)
  | killed (process : ℕ) (failed : Bool)

/-! ## The machine -/

/-- What a session has come to: the servers that it holds, the last one first, and those that it
has lost. -/
structure State where
  held : List Up := []
  lost : List Up := []
  deriving DecidableEq

/-- An EL is started when none is held, and a builder when an EL is ready. -/
def Server.mayStart : Server → List Up → Bool
  | .container _ _, [] => true
  | .builder _, [⟨.container _ _, _, .ready⟩] => true
  | _, _ => false

/-- There is something to call, everything is ready, and the last server is the one named. -/
def works : Option String → List Up → Bool
  | none, ups => !ups.isEmpty && ups.all fun up => up.phase = .ready
  | some url, ⟨.builder url', _, .ready⟩ :: ups => url = url' && ups.all fun up => up.phase = .ready
  | some _, _ => false

/-- The server that an event is about, in the phase in which it may happen. -/
def Event.about : Event → Up → Bool
  | .answered url _, up => up.phase = .booting && up.server.probeUrl = url
  | .stopped name _, up => up.serving && up.server.isContainer name
  | .terminated process _, up => up.serving && up.server.isBuilder && up.process = process
  | .waited process _, up => up.phase = .stopping && up.process = process
  | .killed process _, up => up.phase = .overdue && up.process = process
  | _, _ => false

/-- What becomes of a server. -/
inductive Fate where
  | up (phase : Phase)
  | gone
  | lost
  deriving DecidableEq

/-- What an event makes of its server. The process of a container is its client. -/
def Event.fate (server : Server) : Event → Fate
  | .answered _ status => .up (if status = 200 then .ready else .booting)
  | .stopped _ failed => if failed then .lost else .up .stopping
  | .terminated _ failed => if failed then .lost else .up .stopping
  | .waited _ .done => .gone
  | .waited _ .late => .up .overdue
  | .waited _ .failed => .lost
  | .killed _ failed => if failed || !server.isBuilder then .lost else .gone
  | _ => .lost

/-- What an event makes of the last server that was started. -/
def onTop (event : Event) (s : State) : Option State :=
  match s.held with
  | up :: held =>
    if event.about up then
      match event.fate up.server with
      | .up phase => some { s with held := { up with phase := phase } :: held }
      | .gone => some { s with held := held }
      | .lost => some ⟨held, up :: s.lost⟩
    else none
  | [] => none

def step (s : State) : Event → Option State
  | .started cmd process =>
    match Server.ofCmd cmd with
    | some server =>
      if server.mayStart s.held then some { s with held := ⟨server, process, .booting⟩ :: s.held }
      else none
    | none => none
  | .worked builder => if works builder s.held then some s else none
  | event => onTop event s

/-! ## What a step can do -/

/-- The last server goes on in some phase, or it is gone, or it is lost. -/
theorem onTop_eq_some {event : Event} {s s' : State} (h : onTop event s = some s') :
    ∃ up rest, s.held = up :: rest ∧ event.about up = true ∧
      ((event.fate up.server = .gone ∧ s' = ⟨rest, s.lost⟩) ∨
        (event.fate up.server = .lost ∧ s' = ⟨rest, up :: s.lost⟩) ∨
        ∃ phase, event.fate up.server = .up phase ∧
          s' = ⟨{ up with phase := phase } :: rest, s.lost⟩) := by
  obtain ⟨held, lost⟩ := s
  cases held with
  | nil => cases h
  | cons up rest =>
      simp only [onTop] at h
      split at h
      · next habout =>
        refine ⟨up, rest, rfl, habout, ?_⟩
        cases hfate : event.fate up.server with
        | gone =>
            rw [hfate] at h
            exact .inl ⟨rfl, (Option.some.inj h).symm⟩
        | lost =>
            rw [hfate] at h
            exact .inr (.inl ⟨rfl, (Option.some.inj h).symm⟩)
        | up phase =>
            rw [hfate] at h
            exact .inr (.inr ⟨phase, rfl, (Option.some.inj h).symm⟩)
      · cases h

/-- A server is started, something works, or the last server changes. -/
theorem step_cases {s s' : State} {event : Event} (h : step s event = some s') :
    (∃ cmd process server, event = .started cmd process ∧ Server.ofCmd cmd = some server ∧
        server.mayStart s.held = true ∧ s' = ⟨⟨server, process, .booting⟩ :: s.held, s.lost⟩) ∨
      (∃ builder, event = .worked builder ∧ works builder s.held = true ∧ s' = s) ∨
      onTop event s = some s' := by
  cases event with
  | started cmd process =>
      simp only [step] at h
      cases hcmd : Server.ofCmd cmd with
      | none => simp [hcmd] at h
      | some server =>
          obtain ⟨hmay, rfl⟩ : server.mayStart s.held = true ∧
              ⟨⟨server, process, .booting⟩ :: s.held, s.lost⟩ = s' := by
            simpa [hcmd] using h
          exact .inl ⟨cmd, process, server, rfl, hcmd, hmay, rfl⟩
  | worked builder =>
      obtain ⟨hworks, rfl⟩ : works builder s.held = true ∧ s = s' := by simpa [step] using h
      exact .inr (.inl ⟨builder, rfl, hworks, rfl⟩)
  | answered url status => exact .inr (.inr h)
  | stopped name failed => exact .inr (.inr h)
  | terminated process failed => exact .inr (.inr h)
  | waited process outcome => exact .inr (.inr h)
  | killed process failed => exact .inr (.inr h)

/-! ## At most an EL and a builder over it -/

/-- What can be held at once: nothing, an EL, or a builder over an EL that is ready. -/
def Shaped : List Up → Prop
  | [] => True
  | [up] => up.server.isBuilder = false
  | [up, el] => up.server.isBuilder = true ∧ el.server.isBuilder = false ∧ el.phase = .ready
  | _ => False

theorem Shaped.elim {ups : List Up} (h : Shaped ups) :
    ups = [] ∨ (∃ el, ups = [el] ∧ el.server.isBuilder = false) ∨
      ∃ up el, ups = [up, el] ∧ up.server.isBuilder = true ∧ el.server.isBuilder = false ∧
        el.phase = .ready := by
  unfold Shaped at h
  split at h
  · exact .inl rfl
  · exact .inr (.inl ⟨_, rfl, h⟩)
  · exact .inr (.inr ⟨_, _, rfl, h⟩)
  · exact h.elim

theorem Shaped.of_mayStart {server : Server} {process : ℕ} {ups : List Up}
    (h : server.mayStart ups = true) : Shaped (⟨server, process, .booting⟩ :: ups) := by
  unfold Server.mayStart at h
  split at h
  · rfl
  · exact ⟨rfl, rfl, rfl⟩
  · cases h

theorem Shaped.of_onTop {event : Event} {s s' : State} (hheld : Shaped s.held)
    (h : onTop event s = some s') : Shaped s'.held := by
  obtain ⟨up, rest, htop, -, hends⟩ := onTop_eq_some h
  rw [htop] at hheld
  rcases hheld.elim with hnil | ⟨el, hel, hbuilder⟩ | ⟨top, el, htop, hshape⟩
  · cases hnil
  · obtain ⟨rfl, rfl⟩ := List.cons.inj hel
    rcases hends with ⟨-, rfl⟩ | ⟨-, rfl⟩ | ⟨phase, -, rfl⟩
    · trivial
    · trivial
    · exact hbuilder
  · obtain ⟨rfl, rfl⟩ := List.cons.inj htop
    rcases hends with ⟨-, rfl⟩ | ⟨-, rfl⟩ | ⟨phase, -, rfl⟩
    · exact hshape.2.1
    · exact hshape.2.1
    · exact hshape

theorem Shaped.step {s s' : State} {event : Event} (hheld : Shaped s.held)
    (h : step s event = some s') : Shaped s'.held := by
  obtain ⟨cmd, process, server, -, -, hmay, rfl⟩ | ⟨builder, -, -, rfl⟩ | htop := step_cases h
  · exact Shaped.of_mayStart hmay
  · exact hheld
  · exact hheld.of_onTop htop

theorem shaped_of_run {events : List Event} {s : State} (h : run step {} events = some s) :
    Shaped s.held := by
  have hnil : Shaped ({} : State).held := trivial
  exact invariant (I := fun s : State => Shaped s.held) (fun _ _ _ hheld hstep => hheld.step hstep)
    hnil h

/-! ## What becomes of the servers -/

/-- The process was waited for, or killed. -/
def Event.reaps (process : ℕ) : Event → Bool
  | .waited process' .done => process' = process
  | .killed process' false => process' = process
  | _ => false

/-- A call of the server's finalizer has failed. -/
def Event.givesUp (server : Server) (process : ℕ) : Event → Bool
  | .stopped name true => server.isContainer name
  | .terminated process' true => process' = process
  | .waited process' .failed => process' = process
  | .killed process' true => process' = process
  | _ => false

/-- The server has come to its end: its process was waited for, or is a builder and was killed. -/
def Event.ends (server : Server) (process : ℕ) (event : Event) : Bool :=
  event.reaps process && event.fate server = .gone

/-- The server may run on: a call of its finalizer has failed, or it is in a container of which
the client was killed. -/
def Event.loses (server : Server) (process : ℕ) (event : Event) : Bool :=
  event.givesUp server process || event.reaps process && event.fate server = .lost

theorem ends_of_fate {event : Event} {up : Up} (habout : event.about up = true)
    (hfate : event.fate up.server = .gone) : event.ends up.server up.process = true := by
  have hreaps : event.reaps up.process = true := by
    cases event with
    | started cmd process => cases habout
    | worked builder => cases habout
    | answered url status => cases hfate
    | stopped name failed => cases failed <;> cases hfate
    | terminated process failed => cases failed <;> cases hfate
    | waited process outcome =>
        have hprocess := of_decide_eq_true (Bool.and_eq_true_iff.mp habout).2
        cases outcome with
        | done => exact decide_eq_true hprocess.symm
        | late => cases hfate
        | failed => cases hfate
    | killed process failed =>
        have hprocess := of_decide_eq_true (Bool.and_eq_true_iff.mp habout).2
        cases failed with
        | true => cases hfate
        | false => exact decide_eq_true hprocess.symm
  simp [Event.ends, hreaps, hfate]

theorem loses_of_fate {event : Event} {up : Up} (habout : event.about up = true)
    (hfate : event.fate up.server = .lost) : event.loses up.server up.process = true := by
  cases event with
  | started cmd process => cases habout
  | worked builder => cases habout
  | answered url status => cases hfate
  | stopped name failed =>
      cases failed with
      | false => cases hfate
      | true =>
          have hname := (Bool.and_eq_true_iff.mp habout).2
          simp [Event.loses, Event.givesUp, hname]
  | terminated process failed =>
      have hprocess := of_decide_eq_true (Bool.and_eq_true_iff.mp habout).2
      cases failed with
      | false => cases hfate
      | true => simp [Event.loses, Event.givesUp, hprocess]
  | waited process outcome =>
      have hprocess := of_decide_eq_true (Bool.and_eq_true_iff.mp habout).2
      cases outcome with
      | done => cases hfate
      | late => cases hfate
      | failed => simp [Event.loses, Event.givesUp, hprocess]
  | killed process failed =>
      have hprocess := of_decide_eq_true (Bool.and_eq_true_iff.mp habout).2
      cases failed with
      | true => simp [Event.loses, Event.givesUp, hprocess]
      | false => simp [Event.loses, Event.reaps, hprocess, hfate]

/-- Where a server has got to: it is held, or it has come to its end, or it is among the lost. -/
inductive Whereabouts (s : State) (server : Server) (process : ℕ) (since : List Event) : Prop where
  | held (phase : Phase) : ⟨server, process, phase⟩ ∈ s.held → Whereabouts s server process since
  | gone (event : Event) : event ∈ since → event.ends server process = true →
      Whereabouts s server process since
  | lost (event : Event) (phase : Phase) : event ∈ since → event.loses server process = true →
      ⟨server, process, phase⟩ ∈ s.lost → Whereabouts s server process since

/-- What is lost stays so. -/
theorem step_lost {s s' : State} {event : Event} (h : step s event = some s') : s.lost ⊆ s'.lost := by
  obtain ⟨_, _, _, -, -, -, rfl⟩ | ⟨_, -, -, rfl⟩ | htop := step_cases h
  · exact fun up hup => hup
  · exact fun up hup => hup
  · obtain ⟨top, rest, -, -, ⟨-, rfl⟩ | ⟨-, rfl⟩ | ⟨phase, -, rfl⟩⟩ := onTop_eq_some htop
    · exact fun up hup => hup
    · exact fun up hup => List.mem_cons_of_mem _ hup
    · exact fun up hup => hup

/-- A server that is held goes on, or this is the last that is heard of it. -/
theorem Whereabouts.step {s s' : State} {event : Event} {server : Server} {process : ℕ}
    {since : List Event} (hwhere : Whereabouts s server process since)
    (h : step s event = some s') : Whereabouts s' server process (since ++ [event]) := by
  cases hwhere with
  | gone ending hmem hends => exact .gone ending (List.mem_append_left _ hmem) hends
  | lost losing phase hmem hloses hlost =>
      exact .lost losing phase (List.mem_append_left _ hmem) hloses (step_lost h hlost)
  | held phase hheld =>
      have hlast : event ∈ since ++ [event] := List.mem_append_right _ (List.mem_singleton_self event)
      obtain ⟨_, _, _, -, -, -, rfl⟩ | ⟨_, -, -, rfl⟩ | htop := step_cases h
      · exact .held phase (List.mem_cons_of_mem _ hheld)
      · exact .held phase hheld
      · obtain ⟨top, rest, htop, habout, hends⟩ := onTop_eq_some htop
        rw [htop] at hheld
        rcases List.mem_cons.mp hheld with rfl | hheld
        · rcases hends with ⟨hfate, rfl⟩ | ⟨hfate, rfl⟩ | ⟨phase', -, rfl⟩
          · exact .gone event hlast (ends_of_fate habout hfate)
          · exact .lost event phase hlast (loses_of_fate habout hfate) List.mem_cons_self
          · exact .held phase' List.mem_cons_self
        · rcases hends with ⟨-, rfl⟩ | ⟨-, rfl⟩ | ⟨phase', -, rfl⟩
          · exact .held phase hheld
          · exact .held phase hheld
          · exact .held phase (List.mem_cons_of_mem _ hheld)

theorem whereabouts_of_run {s s' : State} {events : List Event} {server : Server} {process : ℕ}
    (hwhere : Whereabouts s server process []) (h : run step s events = some s') :
    Whereabouts s' server process events :=
  run_induction (P := fun events s => Whereabouts s server process events) hwhere
    (fun _ _ _ _ hwhere hstep => hwhere.step hstep) h

/-- What a session has come to after some events. At most an EL and a builder over it are held,
every server that was started is held, at its end or lost, and none is lost without a cause. -/
structure Accounts (events : List Event) (s : State) : Prop where
  shaped : Shaped s.held
  whereabouts : ∀ past cmd process rest, events = past ++ .started cmd process :: rest →
    ∃ server, Server.ofCmd cmd = some server ∧ Whereabouts s server process rest
  cause : ∀ up ∈ s.lost, ∃ event ∈ events, event.loses up.server up.process = true

theorem cause_of_run {events : List Event} {s : State} (h : run step {} events = some s) :
    ∀ up ∈ s.lost, ∃ event ∈ events, event.loses up.server up.process = true := by
  refine run_induction (P := fun events (s : State) =>
    ∀ up ∈ s.lost, ∃ event ∈ events, event.loses up.server up.process = true) (by simp) ?_ h
  intro events s event s' hcause hstep
  have hearlier : ∀ up ∈ s.lost, ∃ earlier ∈ events ++ [event],
      earlier.loses up.server up.process = true := by
    intro up hup
    obtain ⟨earlier, hmem, hloses⟩ := hcause up hup
    exact ⟨earlier, List.mem_append_left _ hmem, hloses⟩
  obtain ⟨_, _, _, -, -, -, rfl⟩ | ⟨_, -, -, rfl⟩ | htop := step_cases hstep
  · exact hearlier
  · exact hearlier
  · obtain ⟨top, rest, -, habout, ⟨-, rfl⟩ | ⟨hfate, rfl⟩ | ⟨phase, -, rfl⟩⟩ := onTop_eq_some htop
    · exact hearlier
    · refine List.forall_mem_cons.mpr ⟨⟨event, ?_, loses_of_fate habout hfate⟩, hearlier⟩
      exact List.mem_append_right _ (List.mem_singleton_self event)
    · exact hearlier

theorem accounts_of_run {events : List Event} {s : State} (h : run step {} events = some s) :
    Accounts events s where
  shaped := shaped_of_run h
  cause := cause_of_run h
  whereabouts := by
    rintro past cmd process rest rfl
    obtain ⟨u, u', -, hstep, hrest⟩ := run_split h
    obtain ⟨cmd', process', server, hevent, hcmd, -, rfl⟩ | ⟨_, hevent, -⟩ | htop := step_cases hstep
    · obtain ⟨rfl, rfl⟩ := Event.started.inj hevent
      exact ⟨server, hcmd, whereabouts_of_run (.held .booting List.mem_cons_self) hrest⟩
    · cases hevent
    · obtain ⟨_, _, -, habout, -⟩ := onTop_eq_some htop
      cases habout

/-- The events of a session: they can be accounted for at every moment, and in the end nothing is
held. -/
structure IsSession (events : List Event) : Prop where
  settled : ∃ s, run step {} events = some s ∧ s.held = []
  accounts : ∀ past, past <+: events → ∃ s, run step {} past = some s ∧ Accounts past s

theorem IsSession.of_run {events : List Event} {s : State} (h : run step {} events = some s)
    (hheld : s.held = []) : IsSession events where
  settled := ⟨s, h, hheld⟩
  accounts := by
    rintro past ⟨rest, rfl⟩
    obtain ⟨u, hpast, -⟩ := run_append.mp h
    exact ⟨u, hpast, accounts_of_run hpast⟩

/-! ## No process is left behind -/

/-- Every process that was started is later reaped or given up. -/
def Reaped (events : List Event) : Prop :=
  ∀ past cmd process rest, events = past ++ .started cmd process :: rest →
    ∃ server, Server.ofCmd cmd = some server ∧ ∃ event ∈ rest,
      event.reaps process = true ∨ event.givesUp server process = true

theorem Reaped.of_session {events : List Event} (h : IsSession events) : Reaped events := by
  intro past cmd process rest hevents
  obtain ⟨s, hrun, hheld⟩ := h.settled
  obtain ⟨server, hcmd, hwhere⟩ := (accounts_of_run hrun).whereabouts past cmd process rest hevents
  refine ⟨server, hcmd, ?_⟩
  cases hwhere with
  | held phase hmem =>
      rw [hheld] at hmem
      cases hmem
  | gone event hmem hends => exact ⟨event, hmem, .inl (Bool.and_eq_true_iff.mp hends).1⟩
  | lost event phase hmem hloses _ =>
      refine ⟨event, hmem, ?_⟩
      rcases (Bool.or_eq_true _ _).mp hloses with hgives | hreaps
      · exact .inr hgives
      · exact .inl (Bool.and_eq_true_iff.mp hreaps).1

/-! ## Work is done while its servers are ready -/

/-- Every server that is ready has answered. -/
def Answered (events : List Event) (ups : List Up) : Prop :=
  ∀ up ∈ ups, up.phase = .ready → .answered up.server.probeUrl 200 ∈ events

/-- Only an answer makes a server ready. -/
theorem answered_of_fate {event : Event} {up : Up} (habout : event.about up = true)
    (hfate : event.fate up.server = .up .ready) : event = .answered up.server.probeUrl 200 := by
  cases event with
  | answered url status =>
      have hurl := of_decide_eq_true (Bool.and_eq_true_iff.mp habout).2
      have hstatus : status = 200 := by
        by_contra hne
        simp [Event.fate, hne] at hfate
      rw [hurl, hstatus]
  | started cmd process => cases habout
  | worked builder => cases habout
  | stopped name failed => cases failed <;> cases hfate
  | terminated process failed => cases failed <;> cases hfate
  | waited process outcome => cases outcome <;> cases hfate
  | killed process failed =>
      simp only [Event.fate] at hfate
      split at hfate <;> cases hfate

theorem Answered.of_onTop {events : List Event} {event : Event} {s s' : State}
    (hheld : Answered events s.held) (h : onTop event s = some s') :
    Answered (events ++ [event]) s'.held := by
  obtain ⟨top, rest, htop, habout, hends⟩ := onTop_eq_some h
  rw [htop] at hheld
  have hrest : Answered (events ++ [event]) rest := fun up hup hready =>
    List.mem_append_left _ (hheld up (List.mem_cons_of_mem _ hup) hready)
  obtain ⟨-, rfl⟩ | ⟨-, rfl⟩ | ⟨phase, hfate, rfl⟩ := hends
  · exact hrest
  · exact hrest
  · intro up hup hready
    rcases List.mem_cons.mp hup with rfl | hup
    · obtain rfl : phase = .ready := hready
      rw [answered_of_fate habout hfate]
      exact List.mem_append_right _ (List.mem_singleton.mpr rfl)
    · exact hrest up hup hready

theorem answered_of_run {events : List Event} {s : State}
    (h : run step {} events = some s) : Answered events s.held := by
  refine run_induction (P := fun events (s : State) => Answered events s.held)
    (fun up hup => by cases hup) ?_ h
  intro events s event s' hheld hstep
  have hlater : Answered (events ++ [event]) s.held :=
    fun up hup hready => List.mem_append_left _ (hheld up hup hready)
  obtain ⟨cmd, process, server, -, -, -, rfl⟩ | ⟨builder, -, -, rfl⟩ | htop := step_cases hstep
  · intro up hup hready
    rcases List.mem_cons.mp hup with rfl | hup
    · cases hready
    · exact hlater up hup hready
  · exact hlater
  · exact hheld.of_onTop htop

/-- A ready EL, and at the named URL a ready builder over it. -/
def InReach (builder : Option String) (ups : List Up) : Prop :=
  (∃ up ∈ ups, up.server.isBuilder = false ∧ up.phase = .ready) ∧
    ∀ url, builder = some url → ∃ process, ⟨.builder url, process, .ready⟩ ∈ ups

theorem InReach.of_works {builder : Option String} {ups : List Up} (hups : Shaped ups)
    (h : works builder ups = true) : InReach builder ups := by
  cases builder with
  | none =>
      obtain ⟨hne, hall⟩ := Bool.and_eq_true_iff.mp h
      rw [List.all_eq_true] at hall
      refine ⟨?_, fun url hurl => by cases hurl⟩
      rcases hups.elim with rfl | ⟨el, rfl, hel⟩ | ⟨up, el, rfl, -, hel, hready⟩
      · cases hne
      · exact ⟨el, by simp, hel, of_decide_eq_true (hall el (by simp))⟩
      · exact ⟨el, by simp, hel, hready⟩
  | some url =>
      unfold works at h
      split at h
      · next hnone => cases hnone
      · next url' url'' process rest hurl =>
        obtain rfl := Option.some.inj hurl
        obtain rfl := of_decide_eq_true (Bool.and_eq_true_iff.mp h).1
        rcases hups.elim with hnil | ⟨el, hel, hbuilder⟩ | ⟨up, el, hup, -, hel, hready⟩
        · cases hnil
        · obtain ⟨rfl, -⟩ := List.cons.inj hel
          cases hbuilder
        · obtain ⟨rfl, rfl⟩ := List.cons.inj hup
          refine ⟨⟨el, by simp, hel, hready⟩, ?_⟩
          intro url' hurl'
          obtain rfl := Option.some.inj hurl'
          exact ⟨process, List.mem_cons_self⟩
      · cases h

/-- Whatever is called, its servers are ready, and have answered a probe. -/
theorem worked_of_run {past rest : List Event} {builder : Option String} {last : State}
    (h : run step {} (past ++ .worked builder :: rest) = some last) :
    ∃ s, run step {} past = some s ∧ InReach builder s.held ∧ Answered past s.held := by
  obtain ⟨s, s', hpast, hstep, -⟩ := run_split h
  refine ⟨s, hpast, ?_, answered_of_run hpast⟩
  obtain ⟨_, _, _, hevent, -⟩ | ⟨builder', hevent, hworks, -⟩ | htop := step_cases hstep
  · cases hevent
  · obtain rfl := Event.worked.inj hevent
    exact InReach.of_works (shaped_of_run hpast) hworks
  · obtain ⟨_, _, -, habout, -⟩ := onTop_eq_some htop
    cases habout

end EestReplay.Session
