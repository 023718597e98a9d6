import EestReplay.Library.Footprint
import EestReplay.Model.Export

/-! # What the parts of a submission ask

Apart from the sidecar, the subprocess and the CSV, no part of a run starts a process or
changes a file. -/

namespace EestReplay.Export

open Dialogue

variable {σ ι : Type} {peer : Peer σ HostReply} {eest : Eest}

/-- A call that starts no process. -/
def NoPopen (q : HostCall) : Prop := ∀ cmd cwd, q ≠ .popen cmd cwd

/-- A call that starts no process and changes no file. -/
def Inert (q : HostCall) : Prop := q.target = none ∧ NoPopen q

/-- A call that writes no sidecar, and starts `execute`, if at all, from `eoaStart`. -/
def StartsFrom (eoaStart : String) (q : HostCall) : Prop :=
  (∀ path text, q ≠ .writeText path text) ∧
    ∀ cmd cwd, q = .popen cmd cwd → eoaStartOf cmd = some eoaStart

/-- A call that changes no file, and starts `execute` from `eoaStart` only. -/
def Starting (eoaStart : String) (q : HostCall) : Prop :=
  q.target = none ∧ StartsFrom eoaStart q

theorem NoPopen.startsFrom {q : HostCall} (h : NoPopen q)
    (htext : ∀ path text, q ≠ .writeText path text) (eoaStart : String) :
    StartsFrom eoaStart q :=
  ⟨htext, fun cmd cwd he => absurd he (h cmd cwd)⟩

theorem Inert.ne_writeText {q : HostCall} (h : Inert q) (path : Path) (text : Json) :
    q ≠ .writeText path text := by
  rintro rfl
  simp [Inert, HostCall.target] at h

theorem Inert.startsFrom {q : HostCall} (h : Inert q) (eoaStart : String) :
    StartsFrom eoaStart q :=
  h.2.startsFrom h.ne_writeText eoaStart

theorem Inert.starting {q : HostCall} (h : Inert q) (eoaStart : String) : Starting eoaStart q :=
  ⟨h.1, h.startsFrom eoaStart⟩

/-! ## Caught exceptions -/

theorem attempt_of_ok {α : Type} {x : Command σ α} {w u : HostWorld σ} {a : α}
    (h : x w = (.ok a, u)) : attempt x w = (.ok (some a), u) := by
  unfold attempt
  rw [tryCatch_apply, bind_of_ok h]
  rfl

theorem attempt_of_error {α : Type} {x : Command σ α} {w u : HostWorld σ} {e : PyError}
    (h : x w = (.error e, u)) :
    attempt x w = (if e.isException then .ok none else .error e, u) := by
  unfold attempt
  rw [tryCatch_apply, bind_of_error h]
  by_cases he : e.isException = true <;> simp [he]

/-! ## Inert parts -/

theorem asks_attempt {allowed : HostCall → Prop} {α : Type} {x : Command σ α}
    (hx : Asks peer allowed x) : Asks peer allowed (attempt x) := by
  apply Asks.tryCatch
  · exact hx.bind fun a => Asks.pure _
  · intro e
    by_cases he : e.isException = true
    · simpa [he] using Asks.pure none
    · simpa [he] using Asks.throw e

/-- A post, or a draw of random bits. -/
def Posting : HostCall → Prop
  | .post _ _ _ _ => True
  | .randbits _ => True
  | _ => False

theorem Posting.inert {q : HostCall} (h : Posting q) : Inert q := by
  cases q with
  | post => exact ⟨rfl, by simp [NoPopen]⟩
  | randbits => exact ⟨rfl, by simp [NoPopen]⟩
  | _ => cases h

theorem posts_getBalance (rpcUrl address : String) :
    Asks peer Posting (Sweep.getBalance peer rpcUrl address) := by
  apply Asks.bind (Asks.call trivial)
  intro reply
  apply Asks.bind (Asks.lift _)
  exact fun result => Asks.lift _

theorem asks_getBalance (rpcUrl address : String) :
    Asks peer Inert (Sweep.getBalance peer rpcUrl address) :=
  (posts_getBalance rpcUrl address).mono fun _ => Posting.inert

theorem posts_chooseEoaStart {args : SubmitArgs} :
    Asks peer Posting (chooseEoaStart peer args) := by
  unfold chooseEoaStart
  cases args.eoaStart with
  | some eoaStart => exact Asks.pure _
  | none => exact Asks.bind (Asks.call trivial) fun _ => Asks.pure _

theorem asks_chooseEoaStart {args : SubmitArgs} : Asks peer Inert (chooseEoaStart peer args) :=
  posts_chooseEoaStart.mono fun _ => Posting.inert

theorem posts_getTx (rpcUrl txHash : String) : Asks peer Posting (getTx peer rpcUrl txHash) := by
  refine Asks.bind (asks_attempt ?_) fun _ => Asks.pure _
  exact Asks.bind (Asks.call trivial) fun _ => Asks.lift _

theorem posts_enrich (rpcUrl : String) (seq : ℕ) (rawTxs : List String) :
    Asks peer Posting (enrich peer eest rpcUrl seq rawTxs) := by
  induction rawTxs generalizing seq with
  | nil => exact Asks.pure _
  | cons raw rawTxs ih =>
      apply Asks.bind (Asks.lift _)
      intro bytes
      apply Asks.bind (posts_getTx rpcUrl _)
      intro info
      apply Asks.bind (Asks.lift _)
      intro first
      exact Asks.bind (ih (seq + 1)) fun rest => Asks.pure _

theorem asks_enrich (rpcUrl : String) (seq : ℕ) (rawTxs : List String) :
    Asks peer Inert (enrich peer eest rpcUrl seq rawTxs) :=
  (posts_enrich rpcUrl seq rawTxs).mono fun _ => Posting.inert

theorem asks_killGroup : Asks peer Inert (killGroup peer) := by
  apply Asks.tryCatch (Asks.call ⟨rfl, by simp [NoPopen]⟩)
  intro e
  by_cases he : e.kind = .processLookupError
  · rw [if_pos he]
    exact Asks.pure _
  · rw [if_neg he]
    exact Asks.throw e

theorem asks_waitExecute (timeout : ℤ) : Asks peer Inert (waitExecute peer timeout) := by
  have hcall : ∀ t, Asks peer Inert (call peer (.communicate t)) :=
    fun t => Asks.call ⟨rfl, by simp [NoPopen]⟩
  apply Asks.tryCatch
  · exact (hcall _).bind fun _ => Asks.pure _
  · intro e
    by_cases he : e.kind = .timeoutExpired
    · simp only [he, if_true]
      exact asks_killGroup.bind fun _ => (hcall none).bind fun _ => Asks.pure _
    · simp only [he, if_false]
      exact Asks.throw e

theorem posts_spent (args : SubmitArgs) (seedAddr : String) (before : Option ℤ) :
    Asks peer Posting (spent peer args seedAddr before) := by
  cases before with
  | none => exact Asks.pure _
  | some wei => exact asks_attempt ((posts_getBalance _ _).bind fun _ => Asks.pure _)

theorem asks_spent (args : SubmitArgs) (seedAddr : String) (before : Option ℤ) :
    Asks peer Inert (spent peer args seedAddr before) :=
  (posts_spent args seedAddr before).mono fun _ => Posting.inert

/-! ## Starting the subprocess -/

@[simp] theorem eoaStartOf_executeCmd (args : ExecuteArgs) :
    eoaStartOf (executeCmd args) = some args.eoaStart := by
  simp [eoaStartOf, executeCmd, optionValue]

theorem asks_runExecute (args : ExecuteArgs) :
    Asks peer (Starting args.eoaStart) (runExecute peer args) := by
  have hpopen : Starting args.eoaStart (.popen (executeCmd args) args.specsDir) := by
    refine ⟨rfl, by simp, ?_⟩
    rintro cmd cwd he
    obtain ⟨rfl, -⟩ := HostCall.popen.inj he
    exact eoaStartOf_executeCmd args
  apply Asks.bind (Asks.call hpopen)
  intro u
  apply Asks.bind ((asks_waitExecute _).mono fun q hq => hq.starting _)
  intro ended
  cases ended with
  | none => exact Asks.pure _
  | some done =>
      by_cases hcode : done.returncode ≠ 0
      · simpa [hcode] using Asks.pure _
      · simpa [hcode] using Asks.pure _

theorem asks_withProxy {allowed : HostCall → Prop} {α : Type} (hinert : ∀ q, Inert q → allowed q)
    (rpcUrl : String) {body : String → Command σ α} (hbody : ∀ url, Asks peer allowed (body url)) :
    Asks peer allowed (withProxy peer rpcUrl body) := by
  have hstop : Asks peer allowed (call peer .stopProxy) :=
    Asks.call (hinert _ ⟨rfl, by simp [NoPopen]⟩)
  apply Asks.bind (Asks.call (hinert _ ⟨rfl, by simp [NoPopen]⟩))
  intro proxyUrl
  refine Asks.bind (Asks.tryCatch (hbody proxyUrl) ?_) ?_
  · intro e
    exact hstop.bind fun _ => Asks.throw e
  · intro result
    exact hstop.bind fun _ => Asks.pure result

/-- The capture of `broadcast`: `execute` behind the proxy, and what it recorded. -/
theorem asks_capture (args : SubmitArgs) (eoaStart : String) :
    Asks peer (Starting eoaStart) (withProxy peer args.rpcUrl fun proxyUrl => do
      let (executeOk, err) ← runExecute peer (executeArgs eest args eoaStart proxyUrl)
      let rawTxs : List String ← call peer .snapshot
      return (executeOk, err, rawTxs)) := by
  apply asks_withProxy fun q hq => hq.starting eoaStart
  intro url
  apply Asks.bind (asks_runExecute (executeArgs eest args eoaStart url))
  intro r
  have hsnapshot : Inert .snapshot := ⟨rfl, by simp [NoPopen]⟩
  exact Asks.bind (Asks.call (hsnapshot.starting eoaStart)) fun _ => Asks.pure _

theorem asks_broadcast (args : SubmitArgs) (eoaStart : String) :
    Asks peer (StartsFrom eoaStart) (broadcast peer eest args eoaStart) := by
  have hcall : ∀ q, NoPopen q → (∀ path text, q ≠ .writeText path text) →
      Asks peer (StartsFrom eoaStart) (call peer q) :=
    fun q hq htext => Asks.call (hq.startsFrom htext eoaStart)
  unfold broadcast
  cases args.csvPath with
  | none =>
      apply Asks.bind ((asks_runExecute (executeArgs eest args eoaStart args.rpcUrl)).mono
        fun q hq => hq.2)
      exact fun r => Asks.pure _
  | some csvPath =>
      apply Asks.bind ((asks_capture args eoaStart).mono fun q hq => hq.2)
      intro r
      apply Asks.bind ((asks_enrich _ _ _).mono fun q hq => hq.startsFrom eoaStart)
      intro rows
      apply Asks.bind (hcall _ (by simp [NoPopen]) (by simp))
      intro u
      apply Asks.bind (hcall _ (by simp [NoPopen]) (by simp))
      exact fun v => Asks.pure _

/-- The part of a run behind its sidecar. -/
def afterSidecar (peer : Peer σ HostReply) (eest : Eest) (args : SubmitArgs)
    (seedAddr eoaStart : String) (before : Option ℤ) (written : Option Path) :
    Command σ SubmitResult := do
  let (executeOk, err, count) ← broadcast peer eest args eoaStart
  let spentWei ← spent peer args seedAddr before
  return {
    testSelector := args.testSelector
    fork := args.fork
    chainId := args.chainId
    rpcUrl := args.rpcUrl
    executeOk := executeOk
    submittedCount := count
    csvPath := args.csvPath
    error := err
    spentWei := spentWei
    metaPath := written }

theorem launch_eq (args : SubmitArgs) (seedAddr eoaStart : String) (before : Option ℤ) :
    launch peer eest args seedAddr eoaStart before =
      writeRecoveryMeta peer args.metaPath args.csvPath
        (recoveryMeta seedAddr eoaStart args.chainId args.fork args.rpcUrl) >>=
      afterSidecar peer eest args seedAddr eoaStart before := rfl

theorem asks_afterSidecar (args : SubmitArgs) (seedAddr eoaStart : String) (before : Option ℤ)
    (written : Option Path) :
    Asks peer (StartsFrom eoaStart) (afterSidecar peer eest args seedAddr eoaStart before written) := by
  apply Asks.bind (asks_broadcast args eoaStart)
  intro r
  apply Asks.bind ((asks_spent args seedAddr before).mono fun q hq => hq.startsFrom eoaStart)
  exact fun spentWei => Asks.pure _

end EestReplay.Export
