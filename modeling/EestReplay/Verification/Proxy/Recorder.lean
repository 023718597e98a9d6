import EestReplay.Library.Interleaving
import EestReplay.Verification.Proxy.Semantics

/-! # What the recorder holds after any interleaving

The invariant ties the progress of each handler to its part of the shared list: what a
handler has recorded, followed by what it still has to record, is what its body emits
when its forward got a reply, and nothing when it did not. -/

namespace EestReplay.Proxy

open Interleaving

variable {B : Type} {loads : B → Except PyError Json}

/-- What a handler still has to record. -/
def Phase.pending : Phase B → List String
  | .recording rest _ => emitted rest
  | _ => []

@[simp] theorem Phase.pending_forwarding : (Phase.forwarding : Phase B).pending = [] := rfl

@[simp] theorem Phase.pending_recording (rest : List Json) (response : Response B) :
    (Phase.recording rest response).pending = emitted rest := rfl

@[simp] theorem Phase.pending_sending (response : Response B) :
    (Phase.sending response).pending = [] := rfl

@[simp] theorem Phase.pending_finished (response : Response B) :
    (Phase.finished response).pending = [] := rfl

@[simp] theorem Phase.pending_crashed (exc : PyError) :
    (Phase.crashed exc : Phase B).pending = [] := rfl

@[simp] theorem pending_afterReply (body : B) (response : Response B) :
    (afterReply loads body response).pending = emission loads body := by
  unfold afterReply emission
  cases loads body with
  | ok payload => rfl
  | error e => by_cases h : caught e = true <;> simp [h]

@[simp] theorem pending_afterRaise (e : PyError) (response : Response B) :
    (if caught e then Phase.sending response else .crashed e : Phase B).pending = [] := by
  by_cases h : caught e = true <;> simp [h]

theorem afterReply_ne_forwarding (body : B) (response : Response B) :
    afterReply loads body response ≠ .forwarding := by
  unfold afterReply
  cases loads body with
  | ok payload => simp
  | error e => by_cases h : caught e = true <;> simp [h]

theorem afterRaise_ne_forwarding (e : PyError) (response : Response B) :
    (if caught e then Phase.sending response else .crashed e : Phase B) ≠ .forwarding := by
  by_cases h : caught e = true <;> simp [h]

/-! ## The invariant -/

/-- The account of one handler that has read its request. -/
structure Account (loads : B → Except PyError Json) (s : State B) (h : ℕ)
    (handler : Handler B) : Prop where
  parts : part h s.recorded ++ handler.phase.pending =
    if h ∈ s.replied then emission loads handler.body else []
  unreplied : handler.phase = .forwarding → h ∉ s.replied

/-- A thread that has read no request has recorded nothing and got no reply. -/
structure Untouched (s : State B) (h : ℕ) : Prop where
  recorded : part h s.recorded = []
  received : h ∉ s.received
  replied : h ∉ s.replied
  answered : part h s.answered = []

structure Recording (loads : B → Except PyError Json) (s : State B) : Prop where
  account : ∀ h handler, s.handlers h = some handler → Account loads s h handler
  untouched : ∀ h, s.handlers h = none → Untouched s h
  replied_nodup : s.replied.Nodup

theorem recording_init : Recording loads (State.init : State B) where
  account := by
    intro h handler hs
    simp [State.init] at hs
  untouched := by
    intro h _
    exact ⟨rfl, by simp [State.init], by simp [State.init], rfl⟩
  replied_nodup := by simp [State.init]

/-- An account only reads the handler's own part of the lists. -/
theorem Account.frame {s t : State B} {h : ℕ} {handler : Handler B}
    (ha : Account loads s h handler) (hrec : part h t.recorded = part h s.recorded)
    (hrep : h ∈ t.replied ↔ h ∈ s.replied) : Account loads t h handler where
  parts := by
    rw [hrec, ha.parts]
    by_cases hr : h ∈ s.replied
    · rw [if_pos hr, if_pos (hrep.mpr hr)]
    · rw [if_neg hr, if_neg (fun h' => hr (hrep.mp h'))]
  unreplied := fun hp hr => ha.unreplied hp (hrep.mp hr)

theorem Untouched.frame {s t : State B} {h : ℕ} (hu : Untouched s h)
    (hrec : part h t.recorded = part h s.recorded) (hcv : h ∈ t.received → h ∈ s.received)
    (hrep : h ∈ t.replied → h ∈ s.replied) (hans : part h t.answered = part h s.answered) :
    Untouched t h where
  recorded := hrec.trans hu.recorded
  received := fun h' => hu.received (hcv h')
  replied := fun h' => hu.replied (hrep h')
  answered := hans.trans hu.answered

/-- One handler moves on, and the parts of the others stay as they are. -/
theorem Recording.move {s t : State B} (hinv : Recording loads s) {h : ℕ} {body : B}
    {phase : Phase B} (hhandlers : t.handlers = s.handlers)
    (ha : Account loads t h ⟨body, phase⟩)
    (hrec : ∀ k, k ≠ h → part k t.recorded = part k s.recorded) (hcv : t.received = s.received)
    (hrep : ∀ k, k ≠ h → (k ∈ t.replied ↔ k ∈ s.replied))
    (hans : ∀ k, k ≠ h → part k t.answered = part k s.answered) (hnodup : t.replied.Nodup) :
    Recording loads (t.goto h body phase) where
  account := by
    intro k handler hk
    by_cases heq : k = h
    · subst heq
      rw [State.goto_handlers_self] at hk
      obtain rfl := Option.some.inj hk
      exact ha.frame rfl Iff.rfl
    · rw [State.goto_handlers_of_ne t heq, hhandlers] at hk
      exact (hinv.account k handler hk).frame (hrec k heq) (hrep k heq)
  untouched := by
    intro k hk
    by_cases heq : k = h
    · subst heq
      rw [State.goto_handlers_self] at hk
      cases hk
    · rw [State.goto_handlers_of_ne t heq, hhandlers] at hk
      have hreceived : k ∈ t.received → k ∈ s.received := by
        rw [hcv]
        exact id
      exact (hinv.untouched k hk).frame (hrec k heq) hreceived (hrep k heq).mp (hans k heq)
  replied_nodup := hnodup

/-- A handler that moves on without touching the lists keeps the invariant when its
account of the new phase is the account of the old one. -/
theorem Recording.goto {s : State B} (hinv : Recording loads s) {h : ℕ} {body : B}
    {phase : Phase B} (ha : Account loads s h ⟨body, phase⟩) :
    Recording loads (s.goto h body phase) :=
  hinv.move rfl ha (fun _ _ => rfl) rfl (fun _ _ => Iff.rfl) (fun _ _ => rfl) hinv.replied_nodup

/-- Steps of the upstream and of the observer touch no part of the recorder. -/
theorem Recording.frame {s t : State B} (hinv : Recording loads s)
    (hhandlers : t.handlers = s.handlers) (hrec : t.recorded = s.recorded)
    (hrep : t.replied = s.replied) (hans : t.answered = s.answered)
    (hcv : ∀ h, s.handlers h = none → h ∈ t.received → h ∈ s.received) :
    Recording loads t where
  account := by
    intro h handler hs
    rw [hhandlers] at hs
    exact (hinv.account h handler hs).frame (by rw [hrec]) (by rw [hrep])
  untouched := by
    intro h hs
    rw [hhandlers] at hs
    exact (hinv.untouched h hs).frame (by rw [hrec]) (hcv h hs) (by rw [hrep]; exact id)
      (by rw [hans])
  replied_nodup := by
    rw [hrep]
    exact hinv.replied_nodup

theorem Recording.record {s : State B} (hinv : Recording loads s) {h : ℕ} {body : B}
    {response : Response B} {call : Json} {rest : List Json} {rawTx : String}
    (hs : s.handlers h = some ⟨body, .recording (call :: rest) response⟩)
    (hcall : recordCall call = .ok (some rawTx)) :
    Recording loads ((s.record h rawTx).goto h body (.recording rest response)) := by
  have hold := (hinv.account h _ hs).parts
  simp only [Phase.pending_recording, emitted_cons_of_ok rest hcall, Option.toList_some] at hold
  have hmoved : part h (s.record h rawTx).recorded ++ emitted rest =
      part h s.recorded ++ ([rawTx] ++ emitted rest) := by
    simp [List.append_assoc]
  have hpart : ∀ k, k ≠ h → part k (s.record h rawTx).recorded = part k s.recorded := by
    intro k hne
    simp [part_singleton_of_ne hne.symm]
  exact hinv.move rfl ⟨hmoved.trans hold, by simp⟩ hpart rfl (fun _ _ => Iff.rfl)
    (fun _ _ => rfl) hinv.replied_nodup

theorem Recording.reply {s : State B} (hinv : Recording loads s) {h : ℕ} {body : B}
    (answers : List String) (response : Response B)
    (hs : s.handlers h = some ⟨body, .forwarding⟩) :
    Recording loads
      ((s.reply h answers).goto h body (afterReply loads body response)) := by
  have hold := hinv.account h _ hs
  have hnew : h ∉ s.replied := hold.unreplied rfl
  have hempty : part h s.recorded = [] := by simpa [hnew] using hold.parts
  have haccount : Account loads (s.reply h answers) h ⟨body, afterReply loads body response⟩ := by
    refine ⟨?_, fun hp => absurd hp (afterReply_ne_forwarding body response)⟩
    simp [hempty]
  have hanswered : ∀ k, k ≠ h → part k (s.reply h answers).answered = part k s.answered := by
    intro k hne
    simp [part_tag_of_ne hne.symm]
  refine hinv.move rfl haccount (fun _ _ => rfl) rfl (fun k hne => by simp [hne]) hanswered ?_
  refine List.nodup_append.mpr ⟨hinv.replied_nodup, by simp, ?_⟩
  intro a ha b hb heq
  obtain rfl := List.mem_singleton.mp hb
  exact hnew (heq ▸ ha)

/-- Every step keeps the invariant. -/
theorem recording_step {s t : State B} {l : Label B} (hinv : Recording loads s)
    (hstep : step loads s l = some t) : Recording loads t := by
  cases step_derivation hstep with
  | @read h body hs =>
      have hu := hinv.untouched h hs
      exact hinv.goto ⟨by simp [hu.recorded, hu.replied], fun _ => hu.replied⟩
  | @receive h handler hs hnew =>
      refine hinv.frame rfl rfl rfl rfl ?_
      intro k hk hmem
      rcases List.mem_append.mp hmem with hmem | hmem
      · exact hmem
      · obtain rfl : k = h := by simpa using hmem
        simp [hs] at hk
  | accept hs hreceived hmem =>
      exact hinv.frame rfl rfl rfl rfl (fun _ _ => id)
  | reply status data results hs hreceived =>
      exact hinv.reply _ _ hs
  | @forwardFails h body exc hs =>
      have ha := hinv.account h _ hs
      exact hinv.goto ⟨ha.parts, by simp⟩
  | @errorBodyFails h body exc hs =>
      have ha := hinv.account h _ hs
      exact hinv.goto ⟨ha.parts, by simp⟩
  | @extractDone h body response hs =>
      have ha := hinv.account h _ hs
      exact hinv.goto ⟨ha.parts, by simp⟩
  | @extractSkip h body response call rest hs hcall =>
      have ha := hinv.account h _ hs
      refine hinv.goto ⟨?_, by simp⟩
      simpa [emitted_cons_of_ok rest hcall] using ha.parts
  | extractRecord hs hcall =>
      exact hinv.record hs hcall
  | @extractRaise h body response call rest e hs hcall =>
      have ha := hinv.account h _ hs
      refine hinv.goto ⟨?_, fun hp => absurd hp (afterRaise_ne_forwarding e response)⟩
      simpa [emitted_cons_of_error rest hcall] using ha.parts
  | @send h body response hs =>
      have ha := hinv.account h _ hs
      exact hinv.goto ⟨ha.parts, by simp⟩
  | @sendFails h body response exc hs =>
      have ha := hinv.account h _ hs
      exact hinv.goto ⟨ha.parts, by simp⟩
  | snapshot =>
      exact hinv.frame rfl rfl rfl rfl (fun _ _ => id)

theorem recording_runs {labels : List (Label B)} {s : State B} (hrun : runs loads labels = some s) :
    Recording loads s :=
  Runs.invariant (fun _ _ _ => recording_step) recording_init hrun

/-! ## Quiet states -/

/-- A handler thread that has left `do_POST`. -/
def Phase.Ended : Phase B → Prop
  | .finished _ => True
  | .crashed _ => True
  | _ => False

/-- No handler is running. -/
def Quiet (s : State B) : Prop :=
  ∀ h handler, s.handlers h = some handler → handler.phase.Ended

/-- The body that a label reads into thread `h`. -/
def Label.bodyFor (h : ℕ) : Label B → Option B
  | .read k body => if k = h then some body else none
  | _ => none

/-- The label is a complete reply to the forward of `h`. -/
def Label.repliesTo (h : ℕ) : Label B → Bool
  | .reply k _ _ _ => decide (k = h)
  | _ => false

/-- The body a thread has read. -/
def bodyRead (labels : List (Label B)) (h : ℕ) : Option B := labels.findSome? (Label.bodyFor h)

/-- The forward of a request got a reply. -/
def gotReply (labels : List (Label B)) (h : ℕ) : Bool := labels.any (Label.repliesTo h)

@[simp] theorem bodyRead_concat (labels : List (Label B)) (l : Label B) (h : ℕ) :
    bodyRead (labels ++ [l]) h = (bodyRead labels h).or (l.bodyFor h) := by
  simp [bodyRead, List.findSome?_append]

@[simp] theorem gotReply_concat (labels : List (Label B)) (l : Label B) (h : ℕ) :
    gotReply (labels ++ [l]) h = (gotReply labels h || l.repliesTo h) := by
  simp [gotReply]

/-- What a request contributes: all that its body emits once its forward got a reply. -/
def contribution (loads : B → Except PyError Json) (labels : List (Label B)) (h : ℕ) :
    List String :=
  match bodyRead labels h with
  | some body => if gotReply labels h then emission loads body else []
  | none => []

/-- The state remembers the bodies read and the replies got. -/
structure Remembers (labels : List (Label B)) (s : State B) (h : ℕ) : Prop where
  body : bodyRead labels h = (s.handlers h).map Handler.body
  reply : gotReply labels h = true ↔ h ∈ s.replied

theorem Remembers.frame {labels : List (Label B)} {s t : State B} {h : ℕ} {l : Label B}
    (hr : Remembers labels s h) (hread : l.bodyFor h = none) (hreply : l.repliesTo h = false)
    (hbody : (t.handlers h).map Handler.body = (s.handlers h).map Handler.body)
    (hreplied : t.replied = s.replied) : Remembers (labels ++ [l]) t h where
  body := by rw [bodyRead_concat, hread, Option.or_none, hr.body, hbody]
  reply := by rw [gotReply_concat, hreply, Bool.or_false, hr.reply, hreplied]

theorem goto_body (s : State B) {h : ℕ} {body : B} {old phase : Phase B}
    (hs : s.handlers h = some ⟨body, old⟩) (k : ℕ) :
    ((s.goto h body phase).handlers k).map Handler.body =
      (s.handlers k).map Handler.body := by
  by_cases hk : k = h
  · subst hk
    simp [hs]
  · rw [State.goto_handlers_of_ne s hk]

theorem remembers_runs {labels : List (Label B)} {s : State B} (hrun : runs loads labels = some s)
    (h : ℕ) : Remembers labels s h := by
  refine Runs.run_induction (P := fun ls t => Remembers ls t h) ?_ ?_ hrun
  · exact ⟨rfl, by simp [gotReply, State.init]⟩
  · intro ls u l t hr hstep
    cases step_derivation hstep with
    | @read k body hs =>
        refine ⟨?_, by simpa [Label.repliesTo] using hr.reply⟩
        by_cases hk : k = h
        · subst hk
          simp [hr.body, hs, Label.bodyFor]
        · rw [State.goto_handlers_of_ne u (fun he => hk he.symm), ← hr.body]
          simp [Label.bodyFor, hk]
    | receive hs hnew => exact hr.frame rfl rfl rfl rfl
    | accept hs hreceived hmem => exact hr.frame rfl rfl rfl rfl
    | @reply k body status data results hs hreceived =>
        refine ⟨?_, ?_⟩
        · rw [goto_body (u.reply k _) hs h]
          simp [hr.body, Label.bodyFor]
        · rw [gotReply_concat, Bool.or_eq_true, hr.reply]
          have hmem : h ∈ u.replied ++ [k] ↔ h ∈ u.replied ∨ k = h := by
            simp [eq_comm (a := h)]
          simpa [Label.repliesTo] using hmem.symm
    | forwardFails exc hs => exact hr.frame rfl rfl (goto_body u hs h) rfl
    | errorBodyFails exc hs => exact hr.frame rfl rfl (goto_body u hs h) rfl
    | extractDone hs => exact hr.frame rfl rfl (goto_body u hs h) rfl
    | extractSkip hs hcall => exact hr.frame rfl rfl (goto_body u hs h) rfl
    | extractRecord hs hcall => exact hr.frame rfl rfl (goto_body (u.record _ _) hs h) rfl
    | extractRaise hs hcall => exact hr.frame rfl rfl (goto_body u hs h) rfl
    | send hs => exact hr.frame rfl rfl (goto_body u hs h) rfl
    | sendFails exc hs => exact hr.frame rfl rfl (goto_body u hs h) rfl
    | snapshot => exact hr.frame rfl rfl rfl rfl

theorem Phase.Ended.pending {phase : Phase B} (h : phase.Ended) : phase.pending = [] := by
  cases phase with
  | forwarding => rfl
  | recording rest response => simp [Phase.Ended] at h
  | sending response => rfl
  | finished response => rfl
  | crashed exc => rfl

theorem part_recorded_of_quiet {labels : List (Label B)} {s : State B}
    (hrun : runs loads labels = some s) (hquiet : Quiet s) (h : ℕ) :
    part h s.recorded = contribution loads labels h := by
  have hinv := recording_runs hrun
  have hr := remembers_runs hrun h
  unfold contribution
  rw [hr.body]
  cases hs : s.handlers h with
  | none => exact (hinv.untouched h hs).recorded
  | some handler =>
      have hparts := (hinv.account h handler hs).parts
      rw [(hquiet h handler hs).pending, List.append_nil] at hparts
      simp only [Option.map_some, hr.reply]
      exact hparts

/-- When no handler is running, the recorder is an interleaving of the contributions. -/
theorem rawTxs_interleaves {labels : List (Label B)} {s : State B}
    (hrun : runs loads labels = some s) (hquiet : Quiet s) :
    Interleaves s.rawTxs (contribution loads labels) :=
  ⟨s.recorded, rfl, part_recorded_of_quiet hrun hquiet⟩

/-! ## Growth of the recorder -/

/-- Only a handler in its recording loop appends to the recorder. -/
theorem recorded_step_cases {s t : State B} {l : Label B} (hstep : step loads s l = some t) :
    t.recorded = s.recorded ∨
      ∃ h body rest response rawTx,
        s.handlers h = some ⟨body, .recording rest response⟩ ∧
          t.recorded = s.recorded ++ [(h, rawTx)] := by
  cases step_derivation hstep with
  | extractRecord hs hcall => exact Or.inr ⟨_, _, _, _, _, hs, rfl⟩
  | read => exact Or.inl rfl
  | receive => exact Or.inl rfl
  | accept => exact Or.inl rfl
  | reply => exact Or.inl rfl
  | forwardFails => exact Or.inl rfl
  | errorBodyFails => exact Or.inl rfl
  | extractDone => exact Or.inl rfl
  | extractSkip => exact Or.inl rfl
  | extractRaise => exact Or.inl rfl
  | send => exact Or.inl rfl
  | sendFails => exact Or.inl rfl
  | snapshot => exact Or.inl rfl

theorem recorded_step {s t : State B} {l : Label B} (hstep : step loads s l = some t) :
    s.recorded <+: t.recorded := by
  rcases recorded_step_cases hstep with heq | ⟨h, body, rest, response, rawTx, -, heq⟩
  · rw [heq]
  · rw [heq]
    exact List.prefix_append _ _

/-- Snapshots are prefixes of the recorder and of every later snapshot. -/
structure Growing (s : State B) : Prop where
  le_recorded : ∀ shot ∈ s.snapshots, shot.recorded <+: s.recorded
  chain : s.snapshots.Pairwise fun a b => a.recorded <+: b.recorded

theorem snapshots_step {s t : State B} {l : Label B} (hstep : step loads s l = some t) :
    t.snapshots = s.snapshots ∨
      t.snapshots = s.snapshots ++ [⟨s.recorded, s.accepted, s.answered⟩] := by
  cases step_derivation hstep with
  | snapshot => exact Or.inr rfl
  | read => exact Or.inl rfl
  | receive => exact Or.inl rfl
  | accept => exact Or.inl rfl
  | reply => exact Or.inl rfl
  | forwardFails => exact Or.inl rfl
  | errorBodyFails => exact Or.inl rfl
  | extractDone => exact Or.inl rfl
  | extractSkip => exact Or.inl rfl
  | extractRecord => exact Or.inl rfl
  | extractRaise => exact Or.inl rfl
  | send => exact Or.inl rfl
  | sendFails => exact Or.inl rfl

theorem growing_step {s t : State B} {l : Label B} (hg : Growing s)
    (hstep : step loads s l = some t) : Growing t := by
  have hbefore := recorded_step hstep
  rcases snapshots_step hstep with hshots | hshots
  · refine ⟨?_, by rw [hshots]; exact hg.chain⟩
    intro shot hmem
    rw [hshots] at hmem
    exact (hg.le_recorded shot hmem).trans hbefore
  · refine ⟨?_, ?_⟩
    · intro shot hmem
      rw [hshots] at hmem
      rcases List.mem_append.mp hmem with hmem | hmem
      · exact (hg.le_recorded shot hmem).trans hbefore
      · obtain rfl := List.mem_singleton.mp hmem
        exact hbefore
    · rw [hshots]
      refine List.pairwise_append.mpr ⟨hg.chain, by simp, ?_⟩
      intro a ha b hb
      obtain rfl := List.mem_singleton.mp hb
      exact hg.le_recorded a ha

theorem growing_runs {labels : List (Label B)} {s : State B} (hrun : runs loads labels = some s) :
    Growing s := by
  refine Runs.invariant (fun _ _ _ => growing_step) ?_ hrun
  exact ⟨by simp [State.init], by simp [State.init]⟩

/-! ## Real-time order -/

/-- The handler has left `do_POST`. -/
def HasEnded (s : State B) (h : ℕ) : Prop :=
  ∃ handler, s.handlers h = some handler ∧ handler.phase.Ended

theorem HasEnded.goto {s : State B} {a h : ℕ} (ha : HasEnded s a) {body : B}
    {phase old : Phase B} (hs : s.handlers h = some ⟨body, old⟩) (hold : ¬ old.Ended) :
    HasEnded (s.goto h body phase) a := by
  obtain ⟨handler, hhandler, hended⟩ := ha
  have hne : a ≠ h := by
    rintro rfl
    rw [hs] at hhandler
    obtain rfl := Option.some.inj hhandler
    exact hold hended
  exact ⟨handler, by rw [State.goto_handlers_of_ne s hne]; exact hhandler, hended⟩

/-- A handler that has left `do_POST` stays out of it. -/
theorem hasEnded_step {s t : State B} {l : Label B} {a : ℕ} (ha : HasEnded s a)
    (hstep : step loads s l = some t) : HasEnded t a := by
  cases step_derivation hstep with
  | @read h body hs =>
      obtain ⟨handler, hhandler, hended⟩ := ha
      have hne : a ≠ h := by
        rintro rfl
        simp [hs] at hhandler
      exact ⟨handler, by rw [State.goto_handlers_of_ne s hne]; exact hhandler, hended⟩
  | receive hs hnew => exact ha
  | accept hs hreceived hmem => exact ha
  | reply status data results hs hreceived =>
      exact HasEnded.goto (s := s.reply _ _) ha hs (by simp [Phase.Ended])
  | forwardFails exc hs => exact ha.goto hs (by simp [Phase.Ended])
  | errorBodyFails exc hs => exact ha.goto hs (by simp [Phase.Ended])
  | extractDone hs => exact ha.goto hs (by simp [Phase.Ended])
  | extractSkip hs hcall => exact ha.goto hs (by simp [Phase.Ended])
  | extractRecord hs hcall =>
      exact HasEnded.goto (s := s.record _ _) ha hs (by simp [Phase.Ended])
  | extractRaise hs hcall => exact ha.goto hs (by simp [Phase.Ended])
  | send hs => exact ha.goto hs (by simp [Phase.Ended])
  | sendFails exc hs => exact ha.goto hs (by simp [Phase.Ended])
  | snapshot => exact ha

theorem precedes_step {s t : State B} {l : Label B} {a b : ℕ} (ha : HasEnded s a)
    (hprec : Precedes a b s.recorded) (hstep : step loads s l = some t) :
    Precedes a b t.recorded := by
  rcases recorded_step_cases hstep with heq | ⟨h, body, rest, response, rawTx, hs, heq⟩
  · rw [heq]
    exact hprec
  · obtain ⟨handler, hhandler, hended⟩ := ha
    have hne : h ≠ a := by
      rintro rfl
      rw [hs] at hhandler
      obtain rfl := Option.some.inj hhandler
      simp [Phase.Ended] at hended
    rw [heq]
    exact hprec.append (part_singleton_of_ne hne rawTx)

theorem precedes_of_prefix {a b : ℕ} {l m : List (ℕ × String)} (hprec : Precedes a b m)
    (hbefore : l <+: m) : Precedes a b l :=
  hprec.sublist hbefore.sublist

theorem hasEnded_of_send {s t : State B} {a : ℕ} (hstep : step loads s (.send a) = some t) :
    HasEnded t a := by
  cases step_derivation hstep with
  | send hs => exact ⟨_, State.goto_handlers_self _ _ _ _, trivial⟩

/-- A request read after the reply to another was sent records behind it. -/
theorem precedes_of_send_read {a b : ℕ} {body : B} {past mid rest : List (Label B)} {s : State B}
    (hrun : runs loads (past ++ .send a :: (mid ++ .read b body :: rest)) = some s) :
    Precedes a b s.recorded := by
  obtain ⟨u, v, hpast, hsend, htail⟩ := Runs.run_split hrun
  obtain ⟨x, y, hmid, hread, hrest⟩ := Runs.run_split htail
  have hax : HasEnded x a :=
    Runs.invariant (fun _ _ _ h => hasEnded_step h) (hasEnded_of_send hsend) hmid
  have hx : runs loads (past ++ .send a :: mid) = some x :=
    Runs.run_append.mpr ⟨u, hpast, Runs.run_cons.mpr ⟨v, hsend, hmid⟩⟩
  have hfresh : part b x.recorded = [] := by
    cases step_derivation hread with
    | read body hs => exact ((recording_runs hx).untouched b hs).recorded
  have hfinal : HasEnded s a ∧ Precedes a b s.recorded := by
    refine Runs.invariant (I := fun t : State B => HasEnded t a ∧ Precedes a b t.recorded)
      (fun _ _ _ h hstep => ⟨hasEnded_step h.1 hstep, precedes_step h.1 h.2 hstep⟩) ?_ hrest
    have hstart := precedes_of_part_eq_nil (i := a) hfresh
    exact ⟨hasEnded_step hax hread, precedes_step hax hstart hread⟩
  exact hfinal.2

/-! ## The recorder as a whole -/

/-- After any interleaving: a quiet recorder is an interleaving of what the replied
requests emit, replies order the requests that wait for them, and snapshots grow. -/
theorem recorder_keeps_order {labels : List (Label B)} {s : State B}
    (hrun : runs loads labels = some s) :
    (Quiet s → Interleaves s.rawTxs (contribution loads labels)) ∧
      (∀ a b body past mid rest, labels = past ++ .send a :: (mid ++ .read b body :: rest) →
        ∀ shot ∈ s.snapshots, Precedes a b shot.recorded) ∧
      s.snapshots.Pairwise fun x y => x.rawTxs <+: y.rawTxs := by
  refine ⟨rawTxs_interleaves hrun, ?_, ?_⟩
  · rintro a b body past mid rest rfl shot hshot
    exact precedes_of_prefix (precedes_of_send_read hrun)
      ((growing_runs hrun).le_recorded shot hshot)
  · exact (growing_runs hrun).chain.imp fun h => h.map Prod.snd

/-- Two threads interleave inside a batch of the first; a third waits for its reply. -/
def splitBatch : List (Label Json) :=
  [.read 0 (.arr [sendRaw "0xa1", sendRaw "0xa2"]), .read 1 (sendRaw "0xb1"), .receive 0,
    .receive 1, .reply 1 200 .null [true], .reply 0 200 .null [true, true], .extract 0,
    .extract 1, .snapshot, .extract 0, .extract 0, .send 0, .read 2 (sendRaw "0xc1"),
    .receive 2, .reply 2 200 .null [true], .extract 2, .extract 2, .send 2, .extract 1,
    .send 1, .snapshot]

theorem recorder_keeps_order_splitBatch :
    ∃ s, runs .ok splitBatch = some s ∧ s.rawTxs = ["0xa1", "0xb1", "0xa2", "0xc1"] ∧
      (Quiet s → Interleaves s.rawTxs (contribution .ok splitBatch)) ∧
      (∀ a b body past mid rest, splitBatch = past ++ .send a :: (mid ++ .read b body :: rest) →
        ∀ shot ∈ s.snapshots, Precedes a b shot.recorded) ∧
      s.snapshots.Pairwise fun x y => x.rawTxs <+: y.rawTxs :=
  ⟨_, rfl, rfl, recorder_keeps_order rfl⟩

end EestReplay.Proxy
