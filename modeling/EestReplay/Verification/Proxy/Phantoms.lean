import EestReplay.Verification.Proxy.Recorder

/-! # The capture against the answers of the upstream

A handler records a body after any reply to it. The recorder then agrees with the results
of the upstream when every reply answers with a result each call that is recorded, and
only a snapshot of a settled recorder is taken. -/

namespace EestReplay.Proxy

open Interleaving

variable {B : Type} {loads : B → Except PyError Json}

/-- The reply to one call backs what is recorded of it: a transaction that the node reads
in the call is answered with a result, and any other call is not recorded. -/
def Backs (call : Json) (result : Bool) : Prop :=
  match submission call with
  | some _ => result = true
  | none => recordCall call = .ok none

/-- `recordCall call = .ok none` as a test. -/
def unrecorded (call : Json) : Bool :=
  match recordCall call with
  | .ok none => true
  | _ => false

theorem unrecorded_iff {call : Json} : unrecorded call = true ↔ recordCall call = .ok none := by
  unfold unrecorded
  cases recordCall call with
  | ok rawTx => cases rawTx <;> simp
  | error e => simp

instance (call : Json) (result : Bool) : Decidable (Backs call result) :=
  match h : submission call with
  | some _ => decidable_of_iff (result = true) (by simp [Backs, h])
  | none => decidable_of_iff (unrecorded call = true) (by simp [Backs, h, unrecorded_iff])

/-- The results of a reply back every call; a call without an answer has no result. -/
def BacksAll : List Json → List Bool → Prop
  | [], _ => True
  | call :: rest, results => Backs call (results.headD false) ∧ BacksAll rest results.tail

instance decidableBacksAll : (cs : List Json) → (results : List Bool) →
    Decidable (BacksAll cs results)
  | [], _ => .isTrue trivial
  | _ :: rest, results => @instDecidableAnd _ _ _ (decidableBacksAll rest results.tail)

/-- What a handler still has to record. -/
def State.pending (s : State B) (h : ℕ) : List String :=
  match s.handlers h with
  | some handler => handler.phase.pending
  | none => []

/-- The steps that keep the capture to what the upstream answered with a result. -/
def Backed (loads : B → Except PyError Json) (s : State B) : Label B → Prop
  | .reply h _ _ results => ∀ handler ∈ s.handlers h, BacksAll (bodyCalls loads handler.body) results
  | .snapshot => ∀ h ∈ s.replied, s.pending h = []
  | _ => True

instance (s : State B) : (l : Label B) → Decidable (Backed loads s l)
  | .reply h _ _ results =>
    inferInstanceAs
      (Decidable (∀ handler ∈ s.handlers h, BacksAll (bodyCalls loads handler.body) results))
  | .snapshot => inferInstanceAs (Decidable (∀ h ∈ s.replied, s.pending h = []))
  | .read _ _ => .isTrue trivial
  | .receive _ => .isTrue trivial
  | .accept _ _ => .isTrue trivial
  | .forwardFails _ _ => .isTrue trivial
  | .errorBodyFails _ _ => .isTrue trivial
  | .extract _ => .isTrue trivial
  | .send _ => .isTrue trivial
  | .sendFails _ _ => .isTrue trivial

/-! ## One reply -/

theorem answeredTxs_cons (call : Json) (rest : List Json) (results : List Bool) :
    answeredTxs (call :: rest) results =
      (if results.headD false then (submission call).toList else []) ++
        answeredTxs rest results.tail := by
  cases results with
  | nil => simp [answeredTxs]
  | cons result results =>
      cases result with
      | false => simp [answeredTxs]
      | true =>
          cases h : submission call with
          | none => simp [answeredTxs, h]
          | some rawTx => simp [answeredTxs, h]

/-- What a backing reply answers is exactly what is recorded. -/
theorem answeredTxs_of_backsAll {cs : List Json} {results : List Bool}
    (h : BacksAll cs results) : answeredTxs cs results = emitted cs := by
  induction cs generalizing results with
  | nil => rfl
  | cons call rest ih =>
      obtain ⟨hcall, hrest⟩ := h
      rw [answeredTxs_cons, ih hrest]
      unfold Backs at hcall
      cases hsub : submission call with
      | none =>
          have hnone : recordCall call = .ok none := by simpa [hsub] using hcall
          simp [emitted_cons_of_ok rest hnone]
      | some rawTx =>
          have hresult : results.headD false = true := by simpa [hsub] using hcall
          rw [if_pos hresult, emitted_cons_of_ok rest (recordCall_of_submission hsub)]

theorem emission_eq_emitted (body : B) : emission loads body = emitted (bodyCalls loads body) := by
  unfold emission bodyCalls
  cases loads body <;> rfl

/-! ## The invariant -/

/-- What the body of a replied request emits. -/
def due (loads : B → Except PyError Json) (s : State B) (h : ℕ) : List String :=
  match (s.handlers h).map Handler.body with
  | some body => if h ∈ s.replied then emission loads body else []
  | none => []

/-- The upstream has answered with results exactly what the replied bodies emit. -/
def Answering (loads : B → Except PyError Json) (s : State B) : Prop :=
  ∀ h, part h s.answered = due loads s h

theorem answering_init : Answering loads (State.init : State B) := by
  intro h
  rfl

theorem Recording.due {s : State B} (hinv : Recording loads s) (h : ℕ) :
    part h s.recorded ++ s.pending h = due loads s h := by
  unfold State.pending Proxy.due
  cases hs : s.handlers h with
  | none => simp [(hinv.untouched h hs).recorded]
  | some handler => simpa using (hinv.account h handler hs).parts

/-- A handler that moves on changes no dues. -/
theorem Answering.goto {s t : State B} (ha : Answering loads s) {h : ℕ} {body : B}
    {old phase : Phase B} (hs : s.handlers h = some ⟨body, old⟩)
    (hhandlers : t.handlers = s.handlers) (hreplied : t.replied = s.replied)
    (hanswered : t.answered = s.answered) : Answering loads (t.goto h body phase) := by
  intro k
  have hbody : ((t.goto h body phase).handlers k).map Handler.body =
      (t.handlers k).map Handler.body := goto_body t (hhandlers ▸ hs) k
  have hdue : due loads (t.goto h body phase) k = due loads s k := by
    unfold due
    rw [hbody, hhandlers, State.goto_replied, hreplied]
  rw [hdue, State.goto_answered, hanswered]
  exact ha k

/-- A backing reply adds the same sequence to both sides. -/
theorem Answering.reply {s : State B} (ha : Answering loads s) (hinv : Recording loads s) {h : ℕ}
    {body : B} (response : Response B) {answers : List String}
    (hs : s.handlers h = some ⟨body, .forwarding⟩) (hanswers : answers = emission loads body) :
    Answering loads ((s.reply h answers).goto h body (afterReply loads body response)) := by
  intro k
  by_cases hk : k = h
  · subst hk
    have hnew : k ∉ s.replied := (hinv.account k _ hs).unreplied rfl
    have hempty : part k s.answered = [] := by
      rw [ha k]
      simp [due, hs, hnew]
    simp [due, hempty, hanswers]
  · have hother : part k (answers.map fun rawTx => (h, rawTx)) = [] :=
      part_tag_of_ne (fun he => hk he.symm) answers
    have hdue := ha k
    unfold due at hdue ⊢
    rw [State.goto_handlers_of_ne _ hk]
    simpa [hother, hk] using hdue

theorem answering_step {s t : State B} {l : Label B} (hinv : Recording loads s)
    (ha : Answering loads s) (hl : Backed loads s l) (hstep : step loads s l = some t) :
    Answering loads t := by
  cases step_derivation hstep with
  | @read h body hs =>
      have hu := hinv.untouched h hs
      intro k
      by_cases hk : k = h
      · subst hk
        simp [due, hu.answered, hu.replied]
      · have hdue := ha k
        unfold due at hdue ⊢
        rw [State.goto_handlers_of_ne s hk]
        exact hdue
  | receive hs hnew => exact ha
  | accept hs hreceived hmem => exact ha
  | @reply h body status data results hs hreceived =>
      refine ha.reply hinv _ hs ?_
      have hbacks : BacksAll (bodyCalls loads body) results := hl _ hs
      rw [answeredTxs_of_backsAll hbacks, emission_eq_emitted]
  | forwardFails exc hs => exact ha.goto hs rfl rfl rfl
  | errorBodyFails exc hs => exact ha.goto hs rfl rfl rfl
  | extractDone hs => exact ha.goto hs rfl rfl rfl
  | extractSkip hs hcall => exact ha.goto hs rfl rfl rfl
  | @extractRecord h body response call rest rawTx hs hcall =>
      exact ha.goto (t := s.record h rawTx) hs rfl rfl rfl
  | extractRaise hs hcall => exact ha.goto hs rfl rfl rfl
  | send hs => exact ha.goto hs rfl rfl rfl
  | sendFails exc hs => exact ha.goto hs rfl rfl rfl
  | snapshot => exact ha

/-! ## Snapshots -/

/-- A settled recorder holds exactly what the upstream has answered. -/
theorem recorded_perm_answered {s : State B} (hinv : Recording loads s) (ha : Answering loads s)
    (hsettled : ∀ h ∈ s.replied, s.pending h = []) : s.recorded.Perm s.answered := by
  refine perm_of_parts ?_
  intro h
  have hdue := hinv.due h
  by_cases hr : h ∈ s.replied
  · rw [hsettled h hr, List.append_nil] at hdue
    rw [hdue, ha h]
  · have hempty : due loads s h = [] := by
      unfold due
      cases (s.handlers h).map Handler.body with
      | none => rfl
      | some body => exact if_neg hr
    rw [hempty] at hdue
    rw [ha h, hempty, (List.append_eq_nil_iff.mp hdue).1]

/-- Each transaction of a snapshot is backed by its own result. -/
def Genuine (shot : Snapshot) : Prop :=
  (∀ rawTx ∈ shot.rawTxs, rawTx ∈ shot.answered.map Prod.snd) ∧
    ∀ rawTx, shot.rawTxs.count rawTx = (shot.answered.map Prod.snd).count rawTx

theorem genuine_of_perm {shot : Snapshot} (h : shot.recorded.Perm shot.answered) :
    Genuine shot := by
  have hsnd : shot.rawTxs.Perm (shot.answered.map Prod.snd) := h.map Prod.snd
  exact ⟨fun rawTx hmem => hsnd.mem_iff.mp hmem, fun rawTx => hsnd.count_eq rawTx⟩

/-- What holds after a run of backed steps. -/
structure Truthful (loads : B → Except PyError Json) (s : State B) : Prop where
  recording : Recording loads s
  answering : Answering loads s
  snapshots : ∀ shot ∈ s.snapshots, shot.recorded.Perm shot.answered

theorem truthful_step {s t : State B} {l : Label B} (hinv : Truthful loads s)
    (hl : Backed loads s l) (hstep : step loads s l = some t) : Truthful loads t := by
  refine ⟨recording_step hinv.recording hstep,
    answering_step hinv.recording hinv.answering hl hstep, ?_⟩
  cases step_derivation hstep with
  | snapshot =>
      intro shot hmem
      rcases List.mem_append.mp hmem with hmem | hmem
      · exact hinv.snapshots shot hmem
      · obtain rfl := List.mem_singleton.mp hmem
        exact recorded_perm_answered hinv.recording hinv.answering hl
  | read => exact hinv.snapshots
  | receive => exact hinv.snapshots
  | accept => exact hinv.snapshots
  | reply => exact hinv.snapshots
  | forwardFails => exact hinv.snapshots
  | errorBodyFails => exact hinv.snapshots
  | extractDone => exact hinv.snapshots
  | extractSkip => exact hinv.snapshots
  | extractRecord => exact hinv.snapshots
  | extractRaise => exact hinv.snapshots
  | send => exact hinv.snapshots
  | sendFails => exact hinv.snapshots

theorem truthful_runs {labels : List (Label B)} {s : State B} (hrun : runs loads labels = some s)
    (hl : Runs.Along (step loads) (Backed loads) State.init labels) : Truthful loads s := by
  refine Runs.invariant_along (fun _ _ _ => truthful_step) ?_ hl hrun
  exact ⟨recording_init, answering_init, by simp [State.init]⟩

/-- In a run of backed steps every snapshot holds exactly the transactions that the
upstream has answered with a result, each as often as it was answered. -/
theorem snapshot_genuine {labels : List (Label B)} {s : State B}
    (hrun : runs loads labels = some s)
    (hl : Runs.Along (step loads) (Backed loads) State.init labels) :
    ∀ shot ∈ s.snapshots, Genuine shot :=
  fun shot hshot => genuine_of_perm ((truthful_runs hrun hl).snapshots shot hshot)

/-- The same transaction is submitted alone and in a batch, and each time answered. -/
def answeredTwice : List (Label Json) :=
  [.read 0 (sendRaw "0xa1"), .receive 0, .read 1 (.arr [sendRaw "0xb1", sendRaw "0xa1"]),
    .reply 0 200 .null [true], .receive 1, .extract 0, .reply 1 200 .null [true, true],
    .extract 1, .extract 0, .extract 1, .extract 1, .snapshot]

theorem backed_answeredTwice :
    Runs.Along (step .ok) (Backed .ok) State.init answeredTwice := by
  decide

theorem snapshot_genuine_answeredTwice :
    ∃ s, runs .ok answeredTwice = some s ∧ s.rawTxs = ["0xa1", "0xb1", "0xa1"] ∧
      ∀ shot ∈ s.snapshots, Genuine shot :=
  ⟨_, rfl, rfl, fun shot hshot => snapshot_genuine rfl backed_answeredTwice shot hshot⟩

/-- The node answers with a JSON-RPC error, in an HTTP reply of status 200. -/
def rejected : List (Label Json) :=
  [.read 0 (sendRaw "0x01"), .receive 0, .reply 0 200 .null [false], .extract 0, .extract 0,
    .send 0, .snapshot]

theorem not_genuine_rejected :
    ∃ s, runs .ok rejected = some s ∧ ∃ shot ∈ s.snapshots, ¬ Genuine shot := by
  refine ⟨_, rfl, ⟨[(0, "0x01")], [], []⟩, by decide, ?_⟩
  intro h
  have hmem := h.1 "0x01" (by decide)
  simp at hmem

end EestReplay.Proxy
