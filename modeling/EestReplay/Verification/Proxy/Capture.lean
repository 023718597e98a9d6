import EestReplay.Verification.Proxy.Semantics

/-! # Completeness of the capture

A transaction the upstream has accepted is either recorded or still ahead of the handler
that forwarded it, unless that handler loses the reply or stops its recording loop. -/

namespace EestReplay.Proxy

variable {B : Type} {loads : B → Except PyError Json}

/-- The handler can still record the transaction: its forward is open, or the call lies
ahead in its recording loop. -/
def Phase.Ahead (rawTx : String) : Phase B → Prop
  | .forwarding => True
  | .recording rest _ => rawTx ∈ rest.filterMap submission
  | _ => False

instance (rawTx : String) : (phase : Phase B) → Decidable (phase.Ahead rawTx)
  | .forwarding => .isTrue trivial
  | .recording rest _ => inferInstanceAs (Decidable (rawTx ∈ rest.filterMap submission))
  | .sending _ => .isFalse id
  | .finished _ => .isFalse id
  | .crashed _ => .isFalse id

/-- The handler that forwarded the transaction can still record it. -/
def Ahead (s : State B) (x : ℕ × String) : Prop :=
  match s.handlers x.1 with
  | some handler => handler.phase.Ahead x.2
  | none => False

instance (s : State B) (x : ℕ × String) : Decidable (Ahead s x) :=
  match h : s.handlers x.1 with
  | some handler => decidable_of_iff (handler.phase.Ahead x.2) (by simp [Ahead, h])
  | none => .isFalse (by simp [Ahead, h])

/-- The next call of the handler's recording loop raises. -/
def raises (s : State B) (h : ℕ) : Bool :=
  match s.handlers h with
  | some ⟨_, .recording (call :: _) _⟩ => !(recordCall call).isOk
  | _ => false

/-- The steps at which no accepted transaction is lost: the upstream accepts what its
handler has recorded or still can record, no forward breaks off after an acceptance, no
call stops the recording loop before an accepted one, and the snapshot waits for the
accepted ones. -/
def Lossless (s : State B) : Label B → Prop
  | .accept h rawTx => (h, rawTx) ∈ s.recorded ∨ Ahead s (h, rawTx)
  | .forwardFails h _ => ∀ x ∈ s.accepted, x.1 ≠ h
  | .errorBodyFails h _ => ∀ x ∈ s.accepted, x.1 ≠ h
  | .extract h => raises s h = true → ∀ x ∈ s.accepted, x.1 = h → ¬ Ahead s x
  | .snapshot => ∀ x ∈ s.accepted, ¬ Ahead s x
  | _ => True

instance (s : State B) : (l : Label B) → Decidable (Lossless s l)
  | .accept h rawTx => inferInstanceAs (Decidable (_ ∨ Ahead s (h, rawTx)))
  | .forwardFails h _ => inferInstanceAs (Decidable (∀ x ∈ s.accepted, x.1 ≠ h))
  | .errorBodyFails h _ => inferInstanceAs (Decidable (∀ x ∈ s.accepted, x.1 ≠ h))
  | .extract h =>
    inferInstanceAs (Decidable (raises s h = true → ∀ x ∈ s.accepted, x.1 = h → ¬ Ahead s x))
  | .snapshot => inferInstanceAs (Decidable (∀ x ∈ s.accepted, ¬ Ahead s x))
  | .read _ _ => .isTrue trivial
  | .receive _ => .isTrue trivial
  | .reply _ _ _ _ => .isTrue trivial
  | .send _ => .isTrue trivial
  | .sendFails _ _ => .isTrue trivial

/-! ## The invariant -/

/-- Nothing accepted is lost, and what a forwarding handler has accepted is in its body. -/
structure Kept (loads : B → Except PyError Json) (s : State B) : Prop where
  kept : ∀ x ∈ s.accepted, x ∈ s.recorded ∨ Ahead s x
  submitted : ∀ x ∈ s.accepted, ∀ body, s.handlers x.1 = some ⟨body, .forwarding⟩ →
    x.2 ∈ submissions loads body
  started : ∀ x ∈ s.accepted, s.handlers x.1 ≠ none

theorem kept_init : Kept loads (State.init : State B) :=
  ⟨by simp [State.init], by simp [State.init], by simp [State.init]⟩

theorem ahead_goto_of_ne {s : State B} {x : ℕ × String} {h : ℕ} (hx : x.1 ≠ h) (body : B)
    (phase : Phase B) : Ahead (s.goto h body phase) x ↔ Ahead s x := by
  simp [Ahead, State.goto_handlers_of_ne s hx]

theorem ahead_goto_self {s : State B} {x : ℕ × String} {h : ℕ} (hx : x.1 = h) (body : B)
    (phase : Phase B) : Ahead (s.goto h body phase) x ↔ phase.Ahead x.2 := by
  simp [Ahead, hx]

theorem ahead_of_handlers {s : State B} {x : ℕ × String} {body : B} {phase : Phase B}
    (hs : s.handlers x.1 = some ⟨body, phase⟩) : Ahead s x ↔ phase.Ahead x.2 := by
  simp [Ahead, hs]

/-- A handler that moves on keeps the invariant when each accepted transaction that was
ahead of it is recorded or still ahead of it, and its forward does not start anew. -/
theorem Kept.goto {s t : State B} (hinv : Kept loads s) {h : ℕ} {body : B} {old phase : Phase B}
    (hs : s.handlers h = some ⟨body, old⟩) (hhandlers : t.handlers = s.handlers)
    (haccepted : t.accepted = s.accepted) (hrecorded : ∀ x ∈ s.recorded, x ∈ t.recorded)
    (hphase : phase ≠ .forwarding)
    (hmove : ∀ x ∈ s.accepted, x.1 = h → old.Ahead x.2 → x ∈ t.recorded ∨ phase.Ahead x.2) :
    Kept loads (t.goto h body phase) where
  kept := by
    intro x hx
    have hx' : x ∈ s.accepted := haccepted ▸ hx
    rcases hinv.kept x hx' with hrec | hahead
    · exact Or.inl (hrecorded x hrec)
    · by_cases heq : x.1 = h
      · rw [ahead_goto_self heq]
        subst heq
        exact hmove x hx' rfl ((ahead_of_handlers hs).mp hahead)
      · rw [ahead_goto_of_ne heq]
        refine Or.inr ?_
        simpa [Ahead, hhandlers] using hahead
  submitted := by
    intro x hx other hother
    have hx' : x ∈ s.accepted := haccepted ▸ hx
    by_cases heq : x.1 = h
    · rw [heq, State.goto_handlers_self] at hother
      simp only [Option.some.injEq, Handler.mk.injEq] at hother
      exact absurd hother.2 hphase
    · rw [State.goto_handlers_of_ne t heq, hhandlers] at hother
      exact hinv.submitted x hx' other hother
  started := by
    intro x hx
    have hx' : x ∈ s.accepted := haccepted ▸ hx
    by_cases heq : x.1 = h
    · rw [heq, State.goto_handlers_self]
      simp
    · rw [State.goto_handlers_of_ne t heq, hhandlers]
      exact hinv.started x hx'

/-- A handler of which nothing was accepted may move anywhere. -/
theorem Kept.goto_unaccepted {s : State B} (hinv : Kept loads s) {h : ℕ} {body : B}
    {old phase : Phase B} (hs : s.handlers h = some ⟨body, old⟩) (hphase : phase ≠ .forwarding)
    (hnone : ∀ x ∈ s.accepted, x.1 ≠ h) : Kept loads (s.goto h body phase) :=
  hinv.goto hs rfl rfl (fun _ => id) hphase (fun x hx heq => absurd heq (hnone x hx))

/-- Past its recording loop a handler has nothing ahead. -/
theorem Kept.goto_past {s : State B} (hinv : Kept loads s) {h : ℕ} {body : B}
    {old phase : Phase B} (hs : s.handlers h = some ⟨body, old⟩) (hphase : phase ≠ .forwarding)
    (hold : ∀ rawTx, ¬ old.Ahead rawTx) : Kept loads (s.goto h body phase) :=
  hinv.goto hs rfl rfl (fun _ => id) hphase (fun _ _ _ ha => absurd ha (hold _))

theorem afterReply_ahead {body : B} {response : Response B} {rawTx : String}
    (h : rawTx ∈ submissions loads body) : (afterReply loads body response).Ahead rawTx := by
  unfold submissions at h
  unfold afterReply
  cases hl : loads body with
  | ok payload =>
      rw [hl] at h
      exact h
  | error e => simp [hl] at h

/-- A permitted step loses no accepted transaction. -/
theorem kept_step {s t : State B} {l : Label B} (hinv : Kept loads s) (hl : Lossless s l)
    (hstep : step loads s l = some t) : Kept loads t := by
  cases step_derivation hstep with
  | @read h body hs =>
      have hfresh : ∀ x ∈ s.accepted, x.1 ≠ h := by
        rintro x hx rfl
        exact hinv.started x hx hs
      refine ⟨?_, ?_, ?_⟩
      · intro x hx
        rw [ahead_goto_of_ne (hfresh x hx)]
        exact hinv.kept x hx
      · intro x hx other hother
        rw [State.goto_handlers_of_ne s (hfresh x hx)] at hother
        exact hinv.submitted x hx other hother
      · intro x hx
        rw [State.goto_handlers_of_ne s (hfresh x hx)]
        exact hinv.started x hx
  | receive hs hnew => exact ⟨hinv.kept, hinv.submitted, hinv.started⟩
  | @accept h handler rawTx hs hreceived hmem =>
      refine ⟨?_, ?_, ?_⟩
      · intro x hx
        rcases List.mem_append.mp hx with hx | hx
        · exact hinv.kept x hx
        · obtain rfl := List.mem_singleton.mp hx
          exact hl
      · intro x hx other hother
        rcases List.mem_append.mp hx with hx | hx
        · exact hinv.submitted x hx other hother
        · obtain rfl := List.mem_singleton.mp hx
          have heq : handler = ⟨other, .forwarding⟩ := Option.some.inj (hs.symm.trans hother)
          rw [heq] at hmem
          exact hmem
      · intro x hx
        rcases List.mem_append.mp hx with hx | hx
        · exact hinv.started x hx
        · obtain rfl := List.mem_singleton.mp hx
          simp [hs]
  | @reply h body status data results hs hreceived =>
      refine hinv.goto (t := s.reply h _) hs rfl rfl (fun _ => id) ?_ ?_
      · unfold afterReply
        cases loads body with
        | ok payload => simp
        | error e => by_cases hc : caught e = true <;> simp [hc]
      · intro x hx heq _
        refine Or.inr (afterReply_ahead ?_)
        exact hinv.submitted x hx body (heq ▸ hs)
  | forwardFails exc hs => exact hinv.goto_unaccepted hs (by simp) hl
  | errorBodyFails exc hs => exact hinv.goto_unaccepted hs (by simp) hl
  | extractDone hs => exact hinv.goto_past hs (by simp) (by simp [Phase.Ahead])
  | @extractSkip h body response call rest hs hcall =>
      refine hinv.goto hs rfl rfl (fun _ => id) (by simp) ?_
      intro x hx heq ha
      have hsub : submission call = none := by
        cases hsome : submission call with
        | none => rfl
        | some rawTx => simp [recordCall_of_submission hsome] at hcall
      refine Or.inr ?_
      simpa [Phase.Ahead, hsub] using ha
  | @extractRecord h body response call rest rawTx hs hcall =>
      refine hinv.goto (t := s.record h rawTx) hs rfl rfl ?_ (by simp) ?_
      · intro x hx
        exact List.mem_append_left _ hx
      · intro x hx heq ha
        cases hsub : submission call with
        | none =>
            refine Or.inr ?_
            simpa [Phase.Ahead, hsub] using ha
        | some other =>
            have hother : rawTx = other := by
              simpa [hcall] using recordCall_of_submission hsub
            have hcases : x.2 = rawTx ∨ x.2 ∈ rest.filterMap submission := by
              simpa [Phase.Ahead, hsub, hother] using ha
            rcases hcases with hx2 | hrest
            · refine Or.inl (List.mem_append_right _ ?_)
              exact List.mem_singleton.mpr (Prod.ext heq hx2)
            · exact Or.inr hrest
  | @extractRaise h body response call rest e hs hcall =>
      refine hinv.goto hs rfl rfl (fun _ => id) ?_ ?_
      · by_cases hc : caught e = true <;> simp [hc]
      · intro x hx heq ha
        have hraises : raises s h = true := by simp [raises, hs, hcall, Except.isOk, Except.toBool]
        exact absurd ((ahead_of_handlers (heq ▸ hs)).mpr ha) (hl hraises x hx heq)
  | send hs => exact hinv.goto_past hs (by simp) (by simp [Phase.Ahead])
  | sendFails exc hs => exact hinv.goto_past hs (by simp) (by simp [Phase.Ahead])
  | snapshot => exact ⟨hinv.kept, hinv.submitted, hinv.started⟩

/-! ## Snapshots -/

/-- Every snapshot holds every transaction the upstream had accepted when it was taken. -/
def Complete (s : State B) : Prop :=
  ∀ shot ∈ s.snapshots, ∀ x ∈ shot.accepted, x ∈ shot.recorded

theorem complete_step {s t : State B} {l : Label B} (hinv : Kept loads s) (hc : Complete s)
    (hl : Lossless s l) (hstep : step loads s l = some t) : Complete t := by
  cases step_derivation hstep with
  | snapshot =>
      intro shot hshot x hx
      rcases List.mem_append.mp hshot with hshot | hshot
      · exact hc shot hshot x hx
      · obtain rfl := List.mem_singleton.mp hshot
        exact (hinv.kept x hx).resolve_right (hl x hx)
  | read => exact hc
  | receive => exact hc
  | accept => exact hc
  | reply => exact hc
  | forwardFails => exact hc
  | errorBodyFails => exact hc
  | extractDone => exact hc
  | extractSkip => exact hc
  | extractRecord => exact hc
  | extractRaise => exact hc
  | send => exact hc
  | sendFails => exact hc

theorem complete_runs {labels : List (Label B)} {s : State B} (hrun : runs loads labels = some s)
    (hl : Runs.Along (step loads) Lossless State.init labels) : Kept loads s ∧ Complete s := by
  refine Runs.invariant_along (I := fun t : State B => Kept loads t ∧ Complete t) ?_ ?_ hl hrun
  · intro u l v hu hlu huv
    exact ⟨kept_step hu.1 hlu huv, complete_step hu.1 hu.2 hlu huv⟩
  · exact ⟨kept_init, by simp [Complete, State.init]⟩

/-- In a run of lossless steps no accepted transaction is missing from a snapshot. -/
theorem accepted_mem_snapshot {labels : List (Label B)} {s : State B}
    (hrun : runs loads labels = some s)
    (hl : Runs.Along (step loads) Lossless State.init labels) :
    ∀ shot ∈ s.snapshots, ∀ x ∈ shot.accepted, x.2 ∈ shot.rawTxs := by
  intro shot hshot x hx
  have hmem := (complete_runs hrun hl).2 shot hshot x hx
  exact List.mem_map.mpr ⟨x, hmem, rfl⟩

/-- A client whose forward is accepted, answered and recorded before the snapshot, beside
one whose forward fails before the upstream accepts anything of it. -/
def answeredForward : List (Label Json) :=
  [.read 0 (sendRaw "0xa1"), .read 1 (sendRaw "0xb1"), .receive 0, .accept 0 "0xa1",
    .reply 0 200 .null [true], .forwardFails 1 ⟨.osError, "timed out"⟩, .extract 0, .extract 0,
    .send 1, .send 0, .snapshot]

theorem lossless_answeredForward :
    Runs.Along (step .ok) Lossless State.init answeredForward := by
  decide

theorem accepted_mem_snapshot_answeredForward :
    ∃ s, runs .ok answeredForward = some s ∧ s.accepted = [(0, "0xa1")] ∧
      ∀ shot ∈ s.snapshots, ∀ x ∈ shot.accepted, x.2 ∈ shot.rawTxs :=
  ⟨_, rfl, rfl, fun shot hshot x hx =>
    accepted_mem_snapshot rfl lossless_answeredForward shot hshot x hx⟩

/-- The upstream accepts, and the reply does not arrive within the timeout. -/
def timedOutForward : List (Label Json) :=
  [.read 0 (sendRaw "0x01"), .receive 0, .accept 0 "0x01",
    .forwardFails 0 ⟨.osError, "timed out"⟩, .send 0, .snapshot]

theorem accepted_missing_timedOutForward :
    ∃ s, runs .ok timedOutForward = some s ∧
      ∃ shot ∈ s.snapshots, ∃ x ∈ shot.accepted, x.2 ∉ shot.rawTxs :=
  ⟨_, rfl, ⟨[], [(0, "0x01")], []⟩, by decide, (0, "0x01"), by decide, by decide⟩

end EestReplay.Proxy
