import EestReplay.Model.Proxy

/-! # Step rules of the recording proxy

Every enabled step is one of the rules below. Later modules reason by cases on the
rules and never unfold the step function. -/

namespace EestReplay.Proxy

variable {B : Type}

/-! ## Extraction -/

@[simp] theorem emitted_nil : emitted [] = [] := rfl

theorem emitted_cons_of_ok {call : Json} {rawTx : Option String} (rest : List Json)
    (h : recordCall call = .ok rawTx) : emitted (call :: rest) = rawTx.toList ++ emitted rest := by
  simp only [emitted, extractRawTxs, h]

theorem emitted_cons_of_error {call : Json} {e : PyError} (rest : List Json)
    (h : recordCall call = .error e) : emitted (call :: rest) = [] := by
  simp only [emitted, extractRawTxs, h]

/-- What a node reads in a call is what the recorder takes from it. -/
theorem recordCall_of_submission {call : Json} {rawTx : String}
    (h : submission call = some rawTx) : recordCall call = .ok (some rawTx) := by
  cases call with
  | obj fields =>
      simp only [submission] at h
      split at h
      · rename_i hsend
        split at h
        · rename_i rest hparams
          obtain rfl := Option.some.inj h
          simp [recordCall, hsend, hparams, Json.orEmpty, Json.truthy, Json.item0]
        · simp at h
      · simp at h
  | null => simp [submission] at h
  | bool b => simp [submission] at h
  | int n => simp [submission] at h
  | float b => simp [submission] at h
  | str s => simp [submission] at h
  | arr items => simp [submission] at h

/-- The call a client makes to submit a transaction. -/
def sendRaw (rawTx : String) : Json :=
  .obj [("method", .str "eth_sendRawTransaction"), ("params", .arr [.str rawTx])]

@[simp] theorem submission_sendRaw (rawTx : String) :
    submission (sendRaw rawTx) = some rawTx := rfl

@[simp] theorem recordCall_sendRaw (rawTx : String) :
    recordCall (sendRaw rawTx) = .ok (some rawTx) := rfl

/-! ## Fields of the updated state -/

namespace State

@[simp] theorem goto_recorded (s : State B) (h : ℕ) (body : B) (phase : Phase B) :
    (s.goto h body phase).recorded = s.recorded := rfl

@[simp] theorem goto_received (s : State B) (h : ℕ) (body : B) (phase : Phase B) :
    (s.goto h body phase).received = s.received := rfl

@[simp] theorem goto_accepted (s : State B) (h : ℕ) (body : B) (phase : Phase B) :
    (s.goto h body phase).accepted = s.accepted := rfl

@[simp] theorem goto_replied (s : State B) (h : ℕ) (body : B) (phase : Phase B) :
    (s.goto h body phase).replied = s.replied := rfl

@[simp] theorem goto_answered (s : State B) (h : ℕ) (body : B) (phase : Phase B) :
    (s.goto h body phase).answered = s.answered := rfl

@[simp] theorem goto_snapshots (s : State B) (h : ℕ) (body : B) (phase : Phase B) :
    (s.goto h body phase).snapshots = s.snapshots := rfl

@[simp] theorem goto_handlers_self (s : State B) (h : ℕ) (body : B) (phase : Phase B) :
    (s.goto h body phase).handlers h = some ⟨body, phase⟩ := by
  simp [goto]

theorem goto_handlers_of_ne (s : State B) {h k : ℕ} (hk : k ≠ h) (body : B) (phase : Phase B) :
    (s.goto h body phase).handlers k = s.handlers k := by
  simp [goto, hk]

@[simp] theorem record_handlers (s : State B) (h : ℕ) (rawTx : String) :
    (s.record h rawTx).handlers = s.handlers := rfl

@[simp] theorem record_recorded (s : State B) (h : ℕ) (rawTx : String) :
    (s.record h rawTx).recorded = s.recorded ++ [(h, rawTx)] := rfl

@[simp] theorem record_received (s : State B) (h : ℕ) (rawTx : String) :
    (s.record h rawTx).received = s.received := rfl

@[simp] theorem record_accepted (s : State B) (h : ℕ) (rawTx : String) :
    (s.record h rawTx).accepted = s.accepted := rfl

@[simp] theorem record_replied (s : State B) (h : ℕ) (rawTx : String) :
    (s.record h rawTx).replied = s.replied := rfl

@[simp] theorem record_answered (s : State B) (h : ℕ) (rawTx : String) :
    (s.record h rawTx).answered = s.answered := rfl

@[simp] theorem record_snapshots (s : State B) (h : ℕ) (rawTx : String) :
    (s.record h rawTx).snapshots = s.snapshots := rfl

/-- The state after a complete reply to `h` has been read. -/
def reply (s : State B) (h : ℕ) (answers : List String) : State B :=
  { s with
    replied := s.replied ++ [h]
    answered := s.answered ++ answers.map fun rawTx => (h, rawTx) }

@[simp] theorem reply_handlers (s : State B) (h : ℕ) (answers : List String) :
    (s.reply h answers).handlers = s.handlers := rfl

@[simp] theorem reply_recorded (s : State B) (h : ℕ) (answers : List String) :
    (s.reply h answers).recorded = s.recorded := rfl

@[simp] theorem reply_received (s : State B) (h : ℕ) (answers : List String) :
    (s.reply h answers).received = s.received := rfl

@[simp] theorem reply_accepted (s : State B) (h : ℕ) (answers : List String) :
    (s.reply h answers).accepted = s.accepted := rfl

@[simp] theorem reply_replied (s : State B) (h : ℕ) (answers : List String) :
    (s.reply h answers).replied = s.replied ++ [h] := rfl

@[simp] theorem reply_answered (s : State B) (h : ℕ) (answers : List String) :
    (s.reply h answers).answered = s.answered ++ answers.map fun rawTx => (h, rawTx) := rfl

@[simp] theorem reply_snapshots (s : State B) (h : ℕ) (answers : List String) :
    (s.reply h answers).snapshots = s.snapshots := rfl

end State

/-! ## The rules -/

variable (loads : B → Except PyError Json)

/-- The rules name what each step needs of the state and everything it changes. -/
inductive StepDerivation : State B → Label B → State B → Prop where
  | read {s : State B} {h : ℕ} (body : B) : s.handlers h = none →
      StepDerivation s (.read h body) (s.goto h body .forwarding)
  | receive {s : State B} {h : ℕ} {handler : Handler B} : s.handlers h = some handler →
      h ∉ s.received → StepDerivation s (.receive h) { s with received := s.received ++ [h] }
  | accept {s : State B} {h : ℕ} {handler : Handler B} {rawTx : String} :
      s.handlers h = some handler → h ∈ s.received →
      rawTx ∈ submissions loads handler.body →
      StepDerivation s (.accept h rawTx) { s with accepted := s.accepted ++ [(h, rawTx)] }
  | reply {s : State B} {h : ℕ} {body : B} (status : ℕ) (data : B) (results : List Bool) :
      s.handlers h = some ⟨body, .forwarding⟩ → h ∈ s.received ∨ results = [] →
      StepDerivation s (.reply h status data results)
        ((s.reply h (answeredTxs (bodyCalls loads body) results)).goto h body
          (afterReply loads body ⟨status, .raw data⟩))
  | forwardFails {s : State B} {h : ℕ} {body : B} (exc : PyError) :
      s.handlers h = some ⟨body, .forwarding⟩ →
      StepDerivation s (.forwardFails h exc) (s.goto h body (.sending (badGateway exc)))
  | errorBodyFails {s : State B} {h : ℕ} {body : B} (exc : PyError) :
      s.handlers h = some ⟨body, .forwarding⟩ →
      StepDerivation s (.errorBodyFails h exc) (s.goto h body (.crashed exc))
  | extractDone {s : State B} {h : ℕ} {body : B} {response : Response B} :
      s.handlers h = some ⟨body, .recording [] response⟩ →
      StepDerivation s (.extract h) (s.goto h body (.sending response))
  | extractSkip {s : State B} {h : ℕ} {body : B} {response : Response B} {call : Json}
      {rest : List Json} : s.handlers h = some ⟨body, .recording (call :: rest) response⟩ →
      recordCall call = .ok none →
      StepDerivation s (.extract h) (s.goto h body (.recording rest response))
  | extractRecord {s : State B} {h : ℕ} {body : B} {response : Response B} {call : Json}
      {rest : List Json} {rawTx : String} :
      s.handlers h = some ⟨body, .recording (call :: rest) response⟩ →
      recordCall call = .ok (some rawTx) →
      StepDerivation s (.extract h) ((s.record h rawTx).goto h body (.recording rest response))
  | extractRaise {s : State B} {h : ℕ} {body : B} {response : Response B} {call : Json}
      {rest : List Json} {e : PyError} :
      s.handlers h = some ⟨body, .recording (call :: rest) response⟩ →
      recordCall call = .error e →
      StepDerivation s (.extract h)
        (s.goto h body (if caught e then .sending response else .crashed e))
  | send {s : State B} {h : ℕ} {body : B} {response : Response B} :
      s.handlers h = some ⟨body, .sending response⟩ →
      StepDerivation s (.send h) (s.goto h body (.finished response))
  | sendFails {s : State B} {h : ℕ} {body : B} {response : Response B} (exc : PyError) :
      s.handlers h = some ⟨body, .sending response⟩ →
      StepDerivation s (.sendFails h exc) (s.goto h body (.crashed exc))
  | snapshot (s : State B) : StepDerivation s .snapshot s.snapshot

variable {loads}

theorem extractStep_derivation {s : State B} {h : ℕ} {body : B} {response : Response B}
    {rest : List Json} (hs : s.handlers h = some ⟨body, .recording rest response⟩) :
    StepDerivation loads s (.extract h) (extractStep s h body response rest) := by
  cases rest with
  | nil => exact .extractDone hs
  | cons call rest =>
      simp only [extractStep]
      cases hcall : recordCall call with
      | error e => exact .extractRaise hs hcall
      | ok rawTx =>
          cases rawTx with
          | none => exact .extractSkip hs hcall
          | some rawTx => exact .extractRecord hs hcall

theorem step_derivation {s t : State B} {l : Label B} (hstep : step loads s l = some t) :
    StepDerivation loads s l t := by
  cases l with
  | read h body =>
      simp only [step] at hstep
      split at hstep
      · rename_i hs
        obtain rfl := Option.some.inj hstep
        exact .read body hs
      · simp at hstep
  | receive h =>
      simp only [step] at hstep
      split at hstep
      · rename_i hs
        split at hstep
        · simp at hstep
        · rename_i hnew
          obtain rfl := Option.some.inj hstep
          exact .receive hs hnew
      · simp at hstep
  | accept h rawTx =>
      simp only [step] at hstep
      split at hstep
      · rename_i hs
        split at hstep
        · rename_i hguard
          obtain rfl := Option.some.inj hstep
          exact .accept hs hguard.1 hguard.2
        · simp at hstep
      · simp at hstep
  | reply h status data results =>
      simp only [step] at hstep
      split at hstep
      · rename_i hs
        split at hstep
        · rename_i hreceived
          obtain rfl := Option.some.inj hstep
          exact .reply status data results hs hreceived
        · simp at hstep
      · simp at hstep
  | forwardFails h exc =>
      simp only [step] at hstep
      split at hstep
      · rename_i hs
        obtain rfl := Option.some.inj hstep
        exact .forwardFails exc hs
      · simp at hstep
  | errorBodyFails h exc =>
      simp only [step] at hstep
      split at hstep
      · rename_i hs
        obtain rfl := Option.some.inj hstep
        exact .errorBodyFails exc hs
      · simp at hstep
  | extract h =>
      simp only [step] at hstep
      split at hstep
      · rename_i hs
        obtain rfl := Option.some.inj hstep
        exact extractStep_derivation hs
      · simp at hstep
  | send h =>
      simp only [step] at hstep
      split at hstep
      · rename_i hs
        obtain rfl := Option.some.inj hstep
        exact .send hs
      · simp at hstep
  | sendFails h exc =>
      simp only [step] at hstep
      split at hstep
      · rename_i hs
        obtain rfl := Option.some.inj hstep
        exact .sendFails exc hs
      · simp at hstep
  | snapshot =>
      obtain rfl := Option.some.inj hstep
      exact .snapshot s

/-- The rules are exactly the enabled steps. -/
theorem stepDerivation_iff {s t : State B} {l : Label B} :
    StepDerivation loads s l t ↔ step loads s l = some t := by
  refine ⟨?_, step_derivation⟩
  intro h
  cases h with
  | read body hs => simp [step, hs]
  | receive hs hnew => simp [step, hs, hnew]
  | accept hs hreceived hmem => simp [step, hs, hreceived, hmem]
  | reply status data results hs hreceived => simp [step, hs, hreceived, State.reply]
  | forwardFails exc hs => simp [step, hs]
  | errorBodyFails exc hs => simp [step, hs]
  | extractDone hs => simp [step, hs, extractStep]
  | extractSkip hs hcall => simp [step, hs, extractStep, hcall]
  | extractRecord hs hcall => simp [step, hs, extractStep, hcall]
  | extractRaise hs hcall => simp [step, hs, extractStep, hcall]
  | send hs => simp [step, hs]
  | sendFails exc hs => simp [step, hs]
  | snapshot => rfl

/-! ## A handler alone -/

/-- Where `do_POST` leaves its handler, before the response is sent. -/
def Phase.ofResult : Except PyError (Response B) → Phase B
  | .ok response => .sending response
  | .error e => .crashed e

/-- Where the recording block leaves it, given the exception that escapes the block. -/
def Phase.ofEscape (response : Response B) : Option PyError → Phase B
  | none => .sending response
  | some e => .crashed e

theorem Phase.ofEscape_filter (response : Response B) (e : PyError) :
    Phase.ofEscape response ((some e).filter (!caught ·)) =
      if caught e then .sending response else .crashed e := by
  cases hcaught : caught e <;> simp [Option.filter, hcaught, Phase.ofEscape]

/-- The step in which a forward ends. -/
def Forward.label (h : ℕ) (results : List Bool) : Forward B → Label B
  | .replied status data => .reply h status data results
  | .raised exc => .forwardFails h exc
  | .errorBodyRaised exc => .errorBodyFails h exc

/-- A handler that runs its recording loop alone records what the loop emits. -/
theorem run_extract (loads : B → Except PyError Json) {h : ℕ} {body : B}
    {response : Response B} (rest : List Json) {s : State B}
    (hs : s.handlers h = some ⟨body, .recording rest response⟩) :
    ∃ n t, Runs.run (step loads) s (List.replicate n (.extract h)) = some t ∧
      t.rawTxs = s.rawTxs ++ emitted rest ∧
      t.handlers h = some
        ⟨body, Phase.ofEscape response ((extractRawTxs rest).2.filter (!caught ·))⟩ := by
  have hstep : step loads s (.extract h) = some (extractStep s h body response rest) :=
    stepDerivation_iff.mp (extractStep_derivation hs)
  induction rest generalizing s with
  | nil =>
      refine ⟨1, s.goto h body (.sending response), Runs.run_cons.mpr ⟨_, hstep, rfl⟩, ?_, ?_⟩
      · rw [emitted_nil, List.append_nil]
        rfl
      · simp [extractRawTxs, Phase.ofEscape]
  | cons call rest ih =>
      cases hcall : recordCall call with
      | error e =>
          rw [extractStep, hcall] at hstep
          refine ⟨1, _, Runs.run_cons.mpr ⟨_, hstep, rfl⟩, ?_, ?_⟩
          · rw [emitted_cons_of_error rest hcall, List.append_nil]
            rfl
          · simp only [State.goto_handlers_self, extractRawTxs, hcall, Phase.ofEscape_filter]
      | ok rawTx =>
          -- The rest of the loop runs from here, with or without one more transaction.
          have hloop : ∀ u : State B, u.handlers h = some ⟨body, .recording rest response⟩ →
              u.rawTxs = s.rawTxs ++ rawTx.toList →
              step loads s (.extract h) = some u →
              ∃ n t, Runs.run (step loads) s (List.replicate n (.extract h)) = some t ∧
                t.rawTxs = s.rawTxs ++ emitted (call :: rest) ∧
                t.handlers h = some ⟨body,
                  Phase.ofEscape response ((extractRawTxs (call :: rest)).2.filter (!caught ·))⟩ := by
            intro u hu hrecorded hfirst
            obtain ⟨n, t, hrun, hraw, hphase⟩ :=
              ih hu (stepDerivation_iff.mp (extractStep_derivation hu))
            refine ⟨n + 1, t, Runs.run_cons.mpr ⟨u, hfirst, hrun⟩, ?_, ?_⟩
            · rw [hraw, hrecorded, emitted_cons_of_ok rest hcall, List.append_assoc]
            · rw [hphase]
              simp only [extractRawTxs, hcall]
          cases rawTx with
          | none =>
              rw [extractStep, hcall] at hstep
              exact hloop _ (by simp) (by simp [State.rawTxs]) hstep
          | some rawTx =>
              rw [extractStep, hcall] at hstep
              exact hloop _ (by simp) (by simp [State.rawTxs]) hstep

/-- The steps of a handler that nothing interrupts are `do_POST`. -/
theorem run_doPost {s : State B} {h : ℕ} {body : B} (forward : Forward B) (results : List Bool)
    (hs : s.handlers h = some ⟨body, .forwarding⟩) (hreceived : h ∈ s.received ∨ results = []) :
    ∃ n t, Runs.run (step loads) s
        (forward.label h results :: List.replicate n (.extract h)) = some t ∧
      t.rawTxs = (doPost loads s.rawTxs body forward).1 ∧
      t.handlers h = some ⟨body, Phase.ofResult (doPost loads s.rawTxs body forward).2⟩ := by
  cases forward with
  | raised exc =>
      have hstep : step loads s (.forwardFails h exc) = some _ :=
        stepDerivation_iff.mp (.forwardFails exc hs)
      exact ⟨0, _, Runs.run_cons.mpr ⟨_, hstep, rfl⟩, rfl, by simp [doPost, Phase.ofResult]⟩
  | errorBodyRaised exc =>
      have hstep : step loads s (.errorBodyFails h exc) = some _ :=
        stepDerivation_iff.mp (.errorBodyFails exc hs)
      exact ⟨0, _, Runs.run_cons.mpr ⟨_, hstep, rfl⟩, rfl, by simp [doPost, Phase.ofResult]⟩
  | replied status data =>
      have hstep : step loads s (.reply h status data results) = some _ :=
        stepDerivation_iff.mp (.reply status data results hs hreceived)
      have hresult : Phase.ofResult (doPost loads s.rawTxs body (.replied status data)).2 =
          Phase.ofEscape ⟨status, .raw data⟩ (recordBody loads body).2 := by
        unfold doPost
        cases (recordBody loads body).2 <;> rfl
      rw [hresult]
      cases hloads : loads body with
      | error e =>
          refine ⟨0, _, Runs.run_cons.mpr ⟨_, hstep, rfl⟩, ?_, ?_⟩
          · simp [doPost, recordBody, hloads, State.rawTxs]
          · simp only [State.goto_handlers_self, afterReply, recordBody, hloads,
              Phase.ofEscape_filter]
      | ok payload =>
          have hafter : afterReply loads body ⟨status, .raw data⟩ =
              .recording (calls payload) ⟨status, .raw data⟩ := by
            simp only [afterReply, hloads]
          rw [hafter] at hstep
          obtain ⟨n, t, hrun, hraw, hphase⟩ := run_extract loads (calls payload)
            (State.goto_handlers_self (s.reply h (answeredTxs (bodyCalls loads body) results)) h body
              (.recording (calls payload) ⟨status, .raw data⟩))
          refine ⟨n, t, Runs.run_cons.mpr ⟨_, hstep, hrun⟩, ?_, ?_⟩
          · rw [hraw]
            simp [doPost, recordBody, hloads, State.rawTxs, emitted]
          · rw [hphase]
            simp only [recordBody, hloads]

end EestReplay.Proxy
