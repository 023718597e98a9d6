import EestReplay.Library.Returns
import EestReplay.Model.Throwaway
import EestReplay.Verification.Submit.Rows

/-! # Verdicts on a capture

What a submission and an export make of the same outcome of `execute` and the same capture:
a submission passes the outcome on, an export also asks for a transaction. -/

namespace EestReplay.Export

open Dialogue

variable {σ : Type}

/-! ## What a log says -/

/-- `execute` ended by itself, with exit code 0. -/
def passedBy (x : Exchange σ HostReply) : Bool :=
  match x with
  | ⟨_, .communicate (some _), .ok done⟩ => Completed.returncode done == 0
  | _ => false

/-- What a snapshot of the recorder holds. -/
def capturedBy (x : Exchange σ HostReply) : List String :=
  match x with
  | ⟨_, .snapshot, .ok rawTxs⟩ => rawTxs
  | _ => []

/-- The outcome of `execute` and the capture in a log. -/
def heard (log : List (Exchange σ HostReply)) : Bool × List String :=
  (log.any passedBy, log.flatMap capturedBy)

/-- A call that says nothing about either. -/
def Quiet (q : HostCall) : Prop := q ≠ .snapshot ∧ ∀ timeout, q ≠ .communicate (some timeout)

theorem Posting.quiet {q : HostCall} (h : Posting q) : Quiet q := by
  refine ⟨?_, fun timeout => ?_⟩ <;>
  · rintro rfl
    exact h

theorem heard_append (l m : List (Exchange σ HostReply)) :
    heard (l ++ m) = ((heard l).1 || (heard m).1, (heard l).2 ++ (heard m).2) := by
  simp only [heard, List.any_append, List.flatMap_append]

theorem heard_concat (log : List (Exchange σ HostReply)) (x : Exchange σ HostReply) :
    heard (log ++ [x]) = ((heard log).1 || passedBy x, (heard log).2 ++ capturedBy x) := by
  rw [heard_append]
  simp only [heard, List.any_cons, List.any_nil, Bool.or_false, List.flatMap_cons,
    List.flatMap_nil, List.append_nil]

theorem heard_concat_of_quiet (log : List (Exchange σ HostReply)) {x : Exchange σ HostReply}
    (h : Quiet x.query) : heard (log ++ [x]) = heard log := by
  have hpassed : passedBy x = false := by
    obtain ⟨s, q, r⟩ := x
    cases q with
    | communicate timeout =>
        cases timeout with
        | none => rfl
        | some timeout => exact absurd rfl (h.2 timeout)
    | _ => rfl
  have hcaptured : capturedBy x = [] := by
    obtain ⟨s, q, r⟩ := x
    cases q with
    | snapshot => exact absurd rfl h.1
    | _ => rfl
  rw [heard_concat, hpassed, hcaptured, Bool.or_false, List.append_nil]

/-- What was heard since the world `w₀`. -/
def Heard (w₀ : HostWorld σ) (v : Bool × List String) (w : HostWorld σ) : Prop :=
  ∃ new, w.log = w₀.log ++ new ∧ heard new = v

theorem Heard.refl (w₀ : HostWorld σ) : Heard w₀ (false, []) w₀ := ⟨[], by simp, rfl⟩

theorem Heard.step {w₀ w : HostWorld σ} {v v' : Bool × List String} (h : Heard w₀ v w)
    (peer : Peer σ HostReply) {q : HostCall}
    (hx : ∀ log, heard log = v → heard (log ++ [⟨w.state, q, (peer.answer w.state q).1⟩]) = v') :
    Heard w₀ v' (w.step peer q) := by
  obtain ⟨new, hlog, hnew⟩ := h
  refine ⟨new ++ [⟨w.state, q, (peer.answer w.state q).1⟩], ?_, hx new hnew⟩
  rw [World.step_log, hlog, List.append_assoc]

theorem Heard.quiet {w₀ w : HostWorld σ} {v : Bool × List String} (h : Heard w₀ v w)
    (peer : Peer σ HostReply) {q : HostCall} (hq : Quiet q) : Heard w₀ v (w.step peer q) :=
  h.step peer fun log hlog => (heard_concat_of_quiet log hq).trans hlog

section

variable {peer : Peer σ HostReply} {eest : Eest} {w₀ : HostWorld σ} {v : Bool × List String}

theorem heard_of_asks {α : Type} {x : Command σ α} (hx : Asks peer Quiet x) :
    Triple (Heard w₀ v) x (fun _ => Heard w₀ v) (fun _ _ => True) :=
  (hx.triple fun _ _ hq hw => hw.quiet peer hq).conseq (fun _ => id) (fun _ _ => id)
    fun _ _ _ => trivial

theorem quiet_killGroup : Asks peer Quiet (killGroup peer) := by
  apply Asks.tryCatch (Asks.call ⟨by simp, by simp⟩)
  intro e
  by_cases he : e.kind = .processLookupError
  · rw [if_pos he]
    exact Asks.pure _
  · rw [if_neg he]
    exact Asks.throw e

/-- The exit code of an ended process. -/
def exitedZero : Option Completed → Bool
  | some done => done.returncode == 0
  | none => false

theorem Heard.communicate {w : HostWorld σ} (h : Heard w₀ (false, []) w) (timeout : ℤ)
    {r : Except PyError Completed} (hr : (peer.answer w.state (.communicate (some timeout))).1 = r) :
    Heard w₀ (exitedZero r.toOption, []) (w.step peer (.communicate (some timeout))) := by
  refine h.step peer fun log hlog => ?_
  rw [heard_concat, hlog, hr]
  cases r with
  | error e => rfl
  | ok done => rfl

theorem waitExecute_heard (timeout : ℤ) :
    Triple (Heard w₀ (false, [])) (waitExecute peer timeout)
      (fun ended => Heard w₀ (exitedZero ended, [])) (fun _ _ => True) := by
  unfold waitExecute
  apply Triple.tryCatch (F := fun _ => Heard w₀ (false, []))
  · apply Triple.bind (S := fun done : Completed => Heard w₀ (exitedZero (some done), []))
    · apply Triple.call
      · exact fun w done hw hreply => hw.communicate timeout hreply
      · exact fun w e hw hreply => hw.communicate timeout hreply
    · exact fun done => Triple.pure fun w hw => hw
  · intro e
    by_cases he : e.kind = .timeoutExpired
    · rw [if_pos he]
      apply Triple.bind (heard_of_asks quiet_killGroup)
      intro _
      apply Triple.bind (heard_of_asks (Asks.call ⟨by simp, by simp⟩))
      exact fun _ => Triple.pure fun w hw => hw
    · rw [if_neg he]
      exact Triple.throw fun _ _ => trivial

theorem runRemote_heard (engine : Option (String × Path)) (args : ExecuteArgs) :
    Triple (Heard w₀ (false, [])) (runRemote peer engine args)
      (fun r => Heard w₀ (r.1, [])) (fun _ _ => True) := by
  apply Triple.bind (heard_of_asks (Asks.call ⟨by simp, by simp⟩))
  intro _
  apply Triple.bind (waitExecute_heard _)
  intro ended
  cases ended with
  | none => exact Triple.pure fun w hw => hw
  | some done =>
      by_cases hcode : done.returncode = 0
      · have hzero : exitedZero (some done) = true := by simp [exitedZero, hcode]
        simp only [hcode, ne_eq, not_true, if_false, hzero]
        exact Triple.pure fun w hw => hw
      · have hnonzero : exitedZero (some done) = false := by simp [exitedZero, hcode]
        simp only [hcode, ne_eq, not_false_iff, if_true, hnonzero]
        exact Triple.pure fun w hw => hw

theorem runExecute_heard (args : ExecuteArgs) :
    Triple (Heard w₀ (false, [])) (runExecute peer args)
      (fun r => Heard w₀ (r.1, [])) (fun _ _ => True) := by
  rw [← runRemote_none]
  exact runRemote_heard none args

theorem Heard.snapshot {w : HostWorld σ} {executeOk : Bool} (h : Heard w₀ (executeOk, []) w)
    {rawTxs : List String} (hr : (peer.answer w.state .snapshot).1 = .ok rawTxs) :
    Heard w₀ (executeOk, rawTxs) (w.step peer .snapshot) := by
  refine h.step peer fun log hlog => ?_
  have hpassed : passedBy (⟨w.state, .snapshot, .ok rawTxs⟩ : Exchange σ HostReply) = false := rfl
  rw [heard_concat, hlog, hr, hpassed, Bool.or_false]
  rfl

theorem snapshot_heard {executeOk : Bool} :
    Triple (Heard w₀ (executeOk, [])) (call peer .snapshot)
      (fun rawTxs : List String => Heard w₀ (executeOk, rawTxs)) (fun _ _ => True) :=
  Triple.call (fun _ _ hw hreply => hw.snapshot hreply) fun _ _ _ _ => trivial

/-- What the body leaves survives the end of the proxy. -/
theorem withProxy_heard {α : Type} {body : String → Command σ α} {S : α → HostWorld σ → Prop}
    (rpcUrl : String) (hbody : ∀ url, Triple (Heard w₀ (false, [])) (body url) S (fun _ _ => True))
    (hstop : ∀ a w, S a w → S a (w.step peer .stopProxy)) :
    Triple (Heard w₀ (false, [])) (withProxy peer rpcUrl body) S (fun _ _ => True) := by
  apply Triple.bind (heard_of_asks (Asks.call ⟨by simp, by simp⟩))
  intro url
  refine Triple.bind (S := S) ?_ fun a => ?_
  · refine Triple.tryCatch (hbody url) fun e => ?_
    apply Triple.bind (S := fun _ _ => True)
    · exact Triple.call (fun _ _ _ _ => trivial) fun _ _ _ _ => trivial
    · exact fun _ => Triple.throw fun _ _ => trivial
  · apply Triple.bind (S := fun _ => S a)
    · exact Triple.call (fun w _ hw _ => hstop a w hw) fun _ _ _ _ => trivial
    · exact fun _ => Triple.pure fun w hw => hw

theorem captureExecute_heard (args : SubmitArgs) (eoaStart : String) :
    Triple (Heard w₀ (false, [])) (captureExecute peer eest args eoaStart)
      (fun r => Heard w₀ (r.1, r.2.2)) (fun _ _ => True) := by
  refine withProxy_heard args.rpcUrl (fun url => ?_) fun r w hw => hw.quiet peer ⟨by simp, by simp⟩
  apply Triple.bind (runExecute_heard _)
  intro r
  apply Triple.bind snapshot_heard
  exact fun rawTxs => Triple.pure fun w hw => hw

theorem enrich_length (rpcUrl : String) (rawTxs : List String) :
    Yields (enrich peer eest rpcUrl 0 rawTxs) fun rows => rows.length = rawTxs.length := by
  intro w rows hrows
  cases enrich_ends peer eest rpcUrl 0 rawTxs w with
  | raised e xs v hrun =>
      rw [hrun] at hrows
      cases hrows
  | done found xs v hrun hlog hfound =>
      rw [hrun] at hrows
      obtain rfl := Except.ok.inj hrows
      exact hfound.length_eq

/-- The rows of an export are those of the capture that was heard. -/
def HeardRows (w₀ : HostWorld σ) (r : Bool × Option String × List Row) (w : HostWorld σ) : Prop :=
  ∃ rawTxs, Heard w₀ (r.1, rawTxs) w ∧ r.2.2.length = rawTxs.length

theorem captureRows_heard (args : ExportArgs) (handles : El.Handles) :
    Triple (Heard w₀ (false, [])) (captureRows peer eest args handles) (HeardRows w₀)
      (fun _ _ => True) := by
  refine withProxy_heard handles.rpcUrl (fun url => ?_) ?_
  · apply Triple.bind (runRemote_heard _ _)
    intro r
    apply Triple.bind snapshot_heard
    intro rawTxs
    have hposts : Asks peer Quiet (enrich peer eest handles.rpcUrl 0 rawTxs) :=
      (posts_enrich _ _ _).mono fun _ => Posting.quiet
    have hlength : Yields (enrich peer eest handles.rpcUrl 0 rawTxs) _ := enrich_length _ rawTxs
    apply Triple.bind (S := fun rows w => Heard w₀ (r.1, rawTxs) w ∧ rows.length = rawTxs.length)
    · intro w hw
      have henrich := heard_of_asks hposts w hw
      refine ⟨fun rows u hrun => ⟨henrich.1 rows u hrun, ?_⟩, fun _ _ _ => trivial⟩
      exact hlength w rows (congrArg Prod.fst hrun)
    · exact fun rows => Triple.pure fun w hw => ⟨rawTxs, hw⟩
  · rintro r w ⟨rawTxs, hheard, hrows⟩
    exact ⟨rawTxs, hheard.quiet peer ⟨by simp, by simp⟩, hrows⟩

/-! ## A submission -/

theorem quiet_writeRecoveryMeta (metaPath csvPath : Option Path) (text : Json) :
    Asks peer Quiet (writeRecoveryMeta peer metaPath csvPath text) := by
  apply Asks.bind (Asks.lift _)
  intro target
  cases target with
  | none => exact Asks.pure _
  | some path =>
      apply Asks.bind (Asks.call ⟨by simp, by simp⟩)
      intro _
      exact Asks.bind (Asks.call ⟨by simp, by simp⟩) fun _ => Asks.pure _

/-- The result says what was heard. -/
def Passes (w₀ : HostWorld σ) (executeOk : Bool) (w : HostWorld σ) : Prop :=
  ∃ rawTxs, Heard w₀ (executeOk, rawTxs) w

theorem saveRows_passes (csvPath : Path) (executeOk : Bool) (err : Option String)
    (rows : List Row) (rawTxs : List String) :
    Triple (Heard w₀ (executeOk, rawTxs)) (saveRows peer csvPath executeOk err rows)
      (fun r => Passes w₀ r.1) (fun _ _ => True) := by
  apply Triple.bind (heard_of_asks (Asks.call ⟨by simp, by simp⟩))
  intro _
  apply Triple.bind (heard_of_asks (Asks.call ⟨by simp, by simp⟩))
  exact fun _ => Triple.pure fun w hw => ⟨rawTxs, hw⟩

theorem broadcast_passes {args : SubmitArgs} {csvPath : Path} (eoaStart : String)
    (hcsv : args.csvPath = some csvPath) :
    Triple (Heard w₀ (false, [])) (broadcast peer eest args eoaStart) (fun r => Passes w₀ r.1)
      (fun _ _ => True) := by
  have heq : broadcast peer eest args eoaStart =
      captureExecute peer eest args eoaStart >>= fun r =>
        enrich peer eest args.rpcUrl 0 r.2.2 >>= saveRows peer csvPath r.1 r.2.1 := by
    unfold broadcast
    rw [hcsv]
    rfl
  rw [heq]
  apply Triple.bind (captureExecute_heard args eoaStart)
  intro r
  have hposts : Asks peer Quiet (enrich peer eest args.rpcUrl 0 r.2.2) :=
    (posts_enrich _ _ _).mono fun _ => Posting.quiet
  apply Triple.bind (heard_of_asks hposts)
  exact fun rows => saveRows_passes csvPath r.1 r.2.1 rows r.2.2

theorem submitTransactions_passes {args : SubmitArgs} {csvPath : Path}
    (hcsv : args.csvPath = some csvPath) :
    Triple (Heard w₀ (false, [])) (submitTransactions peer eest args)
      (fun result => Passes w₀ result.executeOk) (fun _ _ => True) := by
  have hquiet : ∀ {α : Type} {x : Command σ α}, Asks peer Posting x → Asks peer Quiet x :=
    fun hx => hx.mono fun _ => Posting.quiet
  apply Triple.bind (heard_of_asks (hquiet posts_chooseEoaStart))
  intro eoaStart
  have haddress : Asks peer Quiet (lift (addressFromKey eest args.seedKey)) := Asks.lift _
  apply Triple.bind (heard_of_asks haddress)
  intro seedAddr
  apply Triple.bind (heard_of_asks (hquiet (asks_attempt (posts_getBalance _ _))))
  intro before
  split
  · exact Triple.pure fun w hw => ⟨[], hw⟩
  · apply Triple.bind (heard_of_asks (quiet_writeRecoveryMeta _ _ _))
    intro written
    apply Triple.bind (broadcast_passes eoaStart hcsv)
    intro r
    apply Triple.bind (S := fun _ => Passes w₀ r.1)
    · rintro w ⟨rawTxs, hw⟩
      have hspent := heard_of_asks (hquiet (posts_spent args seedAddr before)) w hw
      exact ⟨fun a u hrun => ⟨rawTxs, hspent.1 a u hrun⟩, fun _ _ _ => trivial⟩
    · exact fun spentWei => Triple.pure fun w hw => hw

variable (peer eest) in
/-- A submission that is to write a CSV passes the outcome of `execute` on. -/
theorem submit_verdict {args : SubmitArgs} {csvPath : Path} (hcsv : args.csvPath = some csvPath)
    {result : SubmitResult} (hrun : (submitTransactions peer eest args w₀).1 = .ok result) :
    result.executeOk = (heard (asked (submitTransactions peer eest args) w₀)).1 := by
  obtain ⟨rawTxs, new, hlog, hnew⟩ :=
    (submitTransactions_passes hcsv w₀ (Heard.refl w₀)).1 result _ (Prod.ext hrun rfl)
  rw [asked_eq hlog, hnew]

end

/-! ## An export -/

/-- The exchange with the host that an exchange of an export is. -/
def hostExchange (x : Exchange σ ExportReply) : Option (Exchange σ HostReply) :=
  match x with
  | ⟨s, .host q, r⟩ => some ⟨s, q, r⟩
  | _ => none

def hosted (log : List (Exchange σ ExportReply)) : List (Exchange σ HostReply) :=
  log.filterMap hostExchange

theorem hosted_append (l m : List (Exchange σ ExportReply)) :
    hosted (l ++ m) = hosted l ++ hosted m :=
  List.filterMap_append

theorem hosted_host (log : List (Exchange σ HostReply)) :
    hosted (log.map (Exchange.embed ExportCall.host)) = log := by
  induction log with
  | nil => rfl
  | cons x xs ih => exact congrArg (x :: ·) ih

theorem hosted_machine (log : List (Exchange σ (RunReply (H := Unit) (A := Unit) (V := Unit)))) :
    hosted (log.map (Exchange.embed ExportCall.machine)) = [] := by
  induction log with
  | nil => rfl
  | cons x xs ih => exact ih

/-- A part for the host only. -/
theorem hosted_onHost {α : Type} (x : Command σ α) (w : ExportWorld σ) :
    ∃ new, (onHost x w).2.log = w.log ++ new ∧ hosted new = (x ⟨w.state, []⟩).2.log :=
  ⟨_, rfl, hosted_host _⟩

/-- A part for the machine only. -/
theorem hosted_onMachine {α : Type} (x : Running σ Unit Unit Unit α) (w : ExportWorld σ) :
    ∃ new, (onMachine x w).2.log = w.log ++ new ∧ hosted new = [] :=
  ⟨_, rfl, hosted_machine _⟩

/-- What an export heard since the world `w₀`. -/
def Overheard (w₀ : ExportWorld σ) (v : Bool × List String) (w : ExportWorld σ) : Prop :=
  ∃ new, w.log = w₀.log ++ new ∧ heard (hosted new) = v

theorem Overheard.append {w₀ w u : ExportWorld σ} {v v' : Bool × List String}
    {new : List (Exchange σ ExportReply)} (h : Overheard w₀ v w) (hlog : u.log = w.log ++ new)
    (hnew : heard (hosted new) = v') : Overheard w₀ (v.1 || v'.1, v.2 ++ v'.2) u := by
  obtain ⟨early, hearly, hheard⟩ := h
  refine ⟨early ++ new, by rw [hlog, hearly, List.append_assoc], ?_⟩
  rw [hosted_append, heard_append, hheard, hnew]

/-- What says nothing. -/
theorem Overheard.still {w₀ w u : ExportWorld σ} {v : Bool × List String}
    {new : List (Exchange σ ExportReply)} (h : Overheard w₀ v w) (hlog : u.log = w.log ++ new)
    (hnew : heard (hosted new) = (false, [])) : Overheard w₀ v u := by
  have hend := h.append hlog hnew
  rwa [Bool.or_false, List.append_nil] at hend

section

variable {peer : Peer σ ExportReply} {eest : Eest} {w₀ : ExportWorld σ} {v : Bool × List String}

theorem host_overheard {q : HostCall} (hq : Quiet q) :
    Triple (Overheard w₀ v) (call peer (.host q)) (fun _ => Overheard w₀ v) (fun _ _ => True) := by
  have hstep : ∀ w, Overheard w₀ v w → Overheard w₀ v (w.step peer (.host q)) := by
    intro w hw
    exact hw.still (World.step_log peer w _) (heard_concat_of_quiet [] hq)
  exact Triple.call (fun w _ hw _ => hstep w hw) fun _ _ _ _ => trivial

theorem machine_overheard {α : Type} (x : Running σ Unit Unit Unit α) :
    Triple (Overheard w₀ v) (onMachine x) (fun _ => Overheard w₀ v) (fun _ _ => True) := by
  intro w hw
  obtain ⟨new, hlog, hnew⟩ := hosted_onMachine x w
  have hsilent : heard (hosted new) = (false, []) := by
    rw [hnew]
    rfl
  refine ⟨fun a w' hrun => hw.still ?_ hsilent, fun _ _ _ => trivial⟩
  rw [hrun] at hlog
  exact hlog

/-- The rows of an export are those of the capture that was overheard. -/
def OverheardRows (w₀ : ExportWorld σ) (r : Bool × Option String × List Row) (w : ExportWorld σ) :
    Prop :=
  ∃ rawTxs, Overheard w₀ (r.1, rawTxs) w ∧ r.2.2.length = rawTxs.length

theorem captureRows_overheard (args : ExportArgs) (handles : El.Handles) :
    Triple (Overheard w₀ (false, [])) (onHost (captureRows (hostOf peer) eest args handles))
      (OverheardRows w₀) (fun _ _ => True) := by
  intro w hw
  refine ⟨fun r w' hrun => ?_, fun _ _ _ => trivial⟩
  obtain ⟨new, hlog, hnew⟩ := hosted_onHost (captureRows (hostOf peer) eest args handles) w
  rw [hrun] at hlog
  let start : HostWorld σ := ⟨w.state, []⟩
  have hfst : (captureRows (hostOf peer) eest args handles start).1 = .ok r :=
    congrArg Prod.fst hrun
  obtain ⟨rawTxs, ⟨rows, hrows, hheard⟩, hlength⟩ :=
    (captureRows_heard args handles start (Heard.refl start)).1 r _ (Prod.ext hfst rfl)
  have hsaid : heard (hosted new) = (r.1, rawTxs) := by
    rw [hnew, ← hheard]
    exact congrArg heard hrows
  exact ⟨rawTxs, hw.append hlog hsaid, hlength⟩

theorem withGeth_overheard (genesis : Json) (workDir : Path) (fuel : ℕ) (args : ExportArgs) :
    Triple (Overheard w₀ (false, []))
      (withGeth peer genesis workDir fuel fun handles =>
        onHost (captureRows (hostOf peer) eest args handles))
      (OverheardRows w₀) (fun _ _ => True) := by
  apply Triple.bind (machine_overheard _)
  intro started
  apply Triple.tryFinally (S := OverheardRows w₀) (E := fun _ _ => True)
  · apply Triple.bind (machine_overheard _)
    exact fun _ => captureRows_overheard args started.1
  · rintro r w ⟨rawTxs, hheard, hlength⟩
    have hstop := machine_overheard (El.stop (machineOf peer) started.1.container started.2) w hheard
    exact ⟨fun a u hrun => ⟨rawTxs, hstop.1 a u hrun, hlength⟩, fun _ _ _ => trivial⟩
  · exact fun e w _ => ⟨fun _ _ _ => trivial, fun _ _ _ => trivial⟩

/-- What an export reports of what was overheard. -/
def Exports (w₀ : ExportWorld σ) (result : ExportResult) (w : ExportWorld σ) : Prop :=
  ∃ passed rawTxs, Overheard w₀ (passed, rawTxs) w ∧
    result.executeOk = (passed && !rawTxs.isEmpty) ∧ result.txCount = rawTxs.length

theorem exportVerdict_fst (executeOk : Bool) (err : Option String) (rows : List Row) :
    (exportVerdict executeOk err rows).1 = (executeOk && !rows.isEmpty) := by
  unfold exportVerdict
  cases executeOk <;> cases rows <;> rfl

theorem isEmpty_of_length {α β : Type} {l : List α} {m : List β} (h : l.length = m.length) :
    l.isEmpty = m.isEmpty := by
  cases l <;> cases m <;> simp_all

theorem exportTransactions_overheard (repr : String → String) (fuel : ℕ) (args : ExportArgs) :
    Triple (Overheard w₀ (false, [])) (exportTransactions peer eest repr fuel args) (Exports w₀)
      (fun _ _ => True) := by
  have hlift : ∀ {α : Type} (r : Except PyError α), Triple (Overheard w₀ (false, []))
      (lift r : Exporting σ α) (fun _ => Overheard w₀ (false, [])) (fun _ _ => True) :=
    fun r => Triple.lift (fun _ _ _ hw => hw) fun _ _ _ _ => trivial
  apply Triple.bind (host_overheard ⟨by simp, by simp⟩)
  intro _
  apply Triple.bind (host_overheard ⟨by simp, by simp⟩)
  intro _
  apply Triple.bind (hlift _)
  intro seedAddr
  apply Triple.bind (hlift _)
  intro genesis
  apply Triple.bind (host_overheard ⟨by simp, by simp⟩)
  intro _
  apply Triple.bind (withGeth_overheard genesis args.workDir fuel args)
  rintro ⟨executeOk, err, rows⟩ w ⟨rawTxs, hheard, hlength⟩
  refine Triple.bind (host_overheard ⟨by simp, by simp⟩) (fun _ => ?_) w hheard
  apply Triple.bind (host_overheard ⟨by simp, by simp⟩)
  refine fun _ => Triple.pure fun u hu => ⟨executeOk, rawTxs, hu, ?_, hlength⟩
  rw [← isEmpty_of_length hlength]
  exact exportVerdict_fst executeOk err rows

variable (peer eest) in
/-- An export is good when `execute` passed and something was captured. -/
theorem export_verdict {repr : String → String} {fuel : ℕ} {args : ExportArgs}
    {result : ExportResult} (hrun : (exportTransactions peer eest repr fuel args w₀).1 = .ok result) :
    let said := heard (hosted (asked (exportTransactions peer eest repr fuel args) w₀))
    result.executeOk = (said.1 && !said.2.isEmpty) ∧ result.txCount = said.2.length := by
  have hstart : Overheard w₀ (false, []) w₀ := ⟨[], by simp, rfl⟩
  obtain ⟨passed, rawTxs, ⟨new, hlog, hnew⟩, hok, hcount⟩ :=
    (exportTransactions_overheard repr fuel args w₀ hstart).1 result _ (Prod.ext hrun rfl)
  rw [asked_eq hlog, hnew]
  exact ⟨hok, hcount⟩

end

end EestReplay.Export
