import EestReplay.Verification.Proxy.Recorder

/-! # The capture against the order of receipt

The upstream receives requests in one order, and their handlers record in another. The
two agree when the recorder takes from each request what the node reads in it, and each
handler records only after every request received earlier has recorded all of its
transactions. -/

namespace EestReplay.Proxy

open Interleaving

variable {B : Type} {loads : B → Except PyError Json}

/-- What a handler will still record once its forward is answered. -/
def Handler.remaining (loads : B → Except PyError Json) (handler : Handler B) : List String :=
  match handler.phase with
  | .forwarding => emission loads handler.body
  | phase => phase.pending

def State.remaining (loads : B → Except PyError Json) (s : State B) (h : ℕ) : List String :=
  match s.handlers h with
  | some handler => handler.remaining loads
  | none => []

/-- The recorder takes from the request what the upstream node reads in it. -/
def State.Plain (loads : B → Except PyError Json) (s : State B) (h : ℕ) : Prop :=
  (s.handlers h).map (emission loads ∘ Handler.body) =
    (s.handlers h).map (submissions loads ∘ Handler.body)

instance (s : State B) (h : ℕ) : Decidable (s.Plain loads h) :=
  inferInstanceAs (Decidable (_ = _))

/-- The next call of the handler's recording loop is recorded. -/
def State.appends (s : State B) (h : ℕ) : Bool :=
  match s.handlers h with
  | some ⟨_, .recording (call :: _) _⟩ =>
    match recordCall call with
    | .ok (some _) => true
    | _ => false
  | _ => false

/-- The steps at which every forward is answered by the upstream node. -/
def Answered (s : State B) : Label B → Prop
  | .reply h _ _ _ => h ∈ s.received
  | .forwardFails _ _ => False
  | .errorBodyFails _ _ => False
  | _ => True

/-- The steps at which the upstream receives only requests of which the recorder takes what
the node reads in them, and a handler records only when all requests that the upstream has
received before its own have recorded all of their transactions. -/
def InTurn (loads : B → Except PyError Json) (s : State B) : Label B → Prop
  | .receive h => s.Plain loads h
  | .extract h =>
    s.appends h = true → ∀ k ∈ s.received.takeWhile (· ≠ h), s.remaining loads k = []
  | _ => True

instance (s : State B) : (l : Label B) → Decidable (Answered s l)
  | .reply h _ _ _ => inferInstanceAs (Decidable (h ∈ s.received))
  | .forwardFails _ _ => .isFalse id
  | .errorBodyFails _ _ => .isFalse id
  | .read _ _ => .isTrue trivial
  | .receive _ => .isTrue trivial
  | .accept _ _ => .isTrue trivial
  | .extract _ => .isTrue trivial
  | .send _ => .isTrue trivial
  | .sendFails _ _ => .isTrue trivial
  | .snapshot => .isTrue trivial

instance (s : State B) : (l : Label B) → Decidable (InTurn loads s l)
  | .receive h => inferInstanceAs (Decidable (s.Plain loads h))
  | .extract h =>
    inferInstanceAs (Decidable
      (s.appends h = true → ∀ k ∈ s.received.takeWhile (· ≠ h), s.remaining loads k = []))
  | .read _ _ => .isTrue trivial
  | .accept _ _ => .isTrue trivial
  | .reply _ _ _ _ => .isTrue trivial
  | .forwardFails _ _ => .isTrue trivial
  | .errorBodyFails _ _ => .isTrue trivial
  | .send _ => .isTrue trivial
  | .sendFails _ _ => .isTrue trivial
  | .snapshot => .isTrue trivial

/-- The raw transactions that the node reads in a request, under the thread that handles
it. -/
def sequence (loads : B → Except PyError Json) (s : State B) (h : ℕ) : List (ℕ × String) :=
  match (s.handlers h).map Handler.body with
  | some body => (submissions loads body).map fun rawTx => (h, rawTx)
  | none => []

/-- The transactions in the order in which the upstream node has received them. -/
def broadcast (loads : B → Except PyError Json) (s : State B) : List (ℕ × String) :=
  s.received.flatMap (sequence loads s)

/-! ## Answered requests -/

/-- Every request past its forward was received and replied to, and received once. -/
structure Served (s : State B) : Prop where
  received_nodup : s.received.Nodup
  replied_received : ∀ h ∈ s.replied, h ∈ s.received
  past : ∀ h handler, s.handlers h = some handler →
    handler.phase = .forwarding ∨ h ∈ s.replied

theorem served_init : Served (State.init : State B) where
  received_nodup := by simp [State.init]
  replied_received := by simp [State.init]
  past := by
    intro h handler hs
    simp [State.init] at hs

/-- A handler that moves on after its reply. -/
theorem Served.goto {s t : State B} (hserved : Served s) {h : ℕ} {body : B} {old phase : Phase B}
    (hs : s.handlers h = some ⟨body, old⟩) (hold : old ≠ .forwarding)
    (hhandlers : t.handlers = s.handlers) (hreceived : t.received = s.received)
    (hreplied : t.replied = s.replied) : Served (t.goto h body phase) where
  received_nodup := by
    rw [State.goto_received, hreceived]
    exact hserved.received_nodup
  replied_received := by
    rw [State.goto_received, State.goto_replied, hreceived, hreplied]
    exact hserved.replied_received
  past := by
    intro k handler hk
    rw [State.goto_replied, hreplied]
    by_cases heq : k = h
    · subst heq
      exact Or.inr ((hserved.past k _ hs).resolve_left hold)
    · rw [State.goto_handlers_of_ne t heq, hhandlers] at hk
      exact hserved.past k handler hk

theorem served_step {s t : State B} {l : Label B} (hserved : Served s) (hl : Answered s l)
    (hstep : step loads s l = some t) : Served t := by
  cases step_derivation hstep with
  | @read h body hs =>
      refine ⟨hserved.received_nodup, hserved.replied_received, ?_⟩
      intro k handler hk
      by_cases heq : k = h
      · subst heq
        rw [State.goto_handlers_self] at hk
        obtain rfl := Option.some.inj hk
        exact Or.inl rfl
      · rw [State.goto_handlers_of_ne s heq] at hk
        exact hserved.past k handler hk
  | @receive h handler hs hnew =>
      refine ⟨?_, ?_, hserved.past⟩
      · apply List.nodup_append.mpr
        refine ⟨hserved.received_nodup, by simp, ?_⟩
        intro a ha b hb heq
        obtain rfl := List.mem_singleton.mp hb
        exact hnew (heq ▸ ha)
      · intro k hk
        exact List.mem_append_left _ (hserved.replied_received k hk)
  | accept hs hreceived hmem => exact ⟨hserved.1, hserved.2, hserved.3⟩
  | @reply h body status data results hs hreceived =>
      refine ⟨hserved.received_nodup, ?_, ?_⟩
      · intro k hk
        rcases List.mem_append.mp hk with hk | hk
        · exact hserved.replied_received k hk
        · obtain rfl := List.mem_singleton.mp hk
          exact hl
      · intro k handler hk
        by_cases heq : k = h
        · subst heq
          exact Or.inr (List.mem_append_right _ (List.mem_singleton_self k))
        · rw [State.goto_handlers_of_ne _ heq] at hk
          exact (hserved.past k handler hk).imp id (List.mem_append_left _)
  | forwardFails exc hs => exact absurd hl id
  | errorBodyFails exc hs => exact absurd hl id
  | extractDone hs => exact hserved.goto hs (by simp) rfl rfl rfl
  | extractSkip hs hcall => exact hserved.goto hs (by simp) rfl rfl rfl
  | @extractRecord h body response call rest rawTx hs hcall =>
      exact hserved.goto (t := s.record h rawTx) hs (by simp) rfl rfl rfl
  | extractRaise hs hcall => exact hserved.goto hs (by simp) rfl rfl rfl
  | send hs => exact hserved.goto hs (by simp) rfl rfl rfl
  | sendFails exc hs => exact hserved.goto hs (by simp) rfl rfl rfl
  | snapshot => exact ⟨hserved.1, hserved.2, hserved.3⟩

/-! ## Plain requests -/

theorem plain_congr {s t : State B} {h : ℕ}
    (hbody : (t.handlers h).map Handler.body = (s.handlers h).map Handler.body) :
    t.Plain loads h ↔ s.Plain loads h := by
  unfold State.Plain
  rw [← Option.map_map, ← Option.map_map, hbody, Option.map_map, Option.map_map]

/-- A thread keeps the body that it has read. -/
theorem body_step {s t : State B} {l : Label B} (hstep : step loads s l = some t) {k : ℕ}
    (hk : s.handlers k ≠ none) :
    (t.handlers k).map Handler.body = (s.handlers k).map Handler.body := by
  cases step_derivation hstep with
  | @read h body hs =>
      have hne : k ≠ h := by
        rintro rfl
        exact hk hs
      rw [State.goto_handlers_of_ne s hne]
  | receive hs hnew => rfl
  | accept hs hreceived hmem => rfl
  | reply status data results hs hreceived => exact goto_body (s.reply _ _) hs k
  | forwardFails exc hs => exact goto_body s hs k
  | errorBodyFails exc hs => exact goto_body s hs k
  | extractDone hs => exact goto_body s hs k
  | extractSkip hs hcall => exact goto_body s hs k
  | extractRecord hs hcall => exact goto_body (s.record _ _) hs k
  | extractRaise hs hcall => exact goto_body s hs k
  | send hs => exact goto_body s hs k
  | sendFails exc hs => exact goto_body s hs k
  | snapshot => rfl

/-- The upstream receives no other requests than those of its steps. -/
theorem received_step {s t : State B} {l : Label B} (hstep : step loads s l = some t) :
    t.received = s.received ∨ ∃ h, l = .receive h ∧ t.received = s.received ++ [h] := by
  cases step_derivation hstep with
  | @receive h handler hs hnew => exact Or.inr ⟨h, rfl, rfl⟩
  | _ => exact Or.inl rfl

theorem plain_step {s t : State B} {l : Label B} (hinv : Recording loads s)
    (hplain : ∀ h ∈ s.received, s.Plain loads h) (hl : InTurn loads s l)
    (hstep : step loads s l = some t) : ∀ h ∈ t.received, t.Plain loads h := by
  have hold : ∀ h ∈ s.received, t.Plain loads h := by
    intro h hmem
    have hsome : s.handlers h ≠ none := fun hs => (hinv.untouched h hs).received hmem
    exact (plain_congr (body_step hstep hsome)).mpr (hplain h hmem)
  intro h hmem
  rcases received_step hstep with hsame | ⟨k, rfl, hmore⟩
  · exact hold h (hsame ▸ hmem)
  · rw [hmore, List.mem_append, List.mem_singleton] at hmem
    rcases hmem with hmem | rfl
    · exact hold h hmem
    · cases step_derivation hstep with
      | receive hs hnew => exact (plain_congr rfl).mpr hl

/-! ## The invariant -/

/-- What a thread has recorded, under its tag. -/
def own (s : State B) (h : ℕ) : List (ℕ × String) :=
  (part h s.recorded).map fun rawTx => (h, rawTx)

/-- The recorder goes through the requests in the order of their receipt. -/
structure Sorted (loads : B → Except PyError Json) (s : State B) : Prop where
  grouped : s.recorded = s.received.flatMap (own s)
  blocked : s.received.Pairwise fun i j => part j s.recorded ≠ [] → s.remaining loads i = []

theorem Sorted.frame {s t : State B} (hsorted : Sorted loads s)
    (hrecorded : t.recorded = s.recorded) (hreceived : t.received = s.received)
    (hremaining : ∀ k ∈ s.received, t.remaining loads k = s.remaining loads k) :
    Sorted loads t where
  grouped := by
    have hown : own t = own s := by
      funext k
      rw [own, own, hrecorded]
    rw [hrecorded, hreceived, hown]
    exact hsorted.grouped
  blocked := by
    rw [hreceived, hrecorded]
    apply hsorted.blocked.imp_of_mem
    intro i j hi _ h hj
    rw [hremaining i hi]
    exact h hj

theorem remaining_goto_of_ne {s : State B} {h k : ℕ} (hk : k ≠ h) (body : B) (phase : Phase B) :
    (s.goto h body phase).remaining loads k = s.remaining loads k := by
  simp [State.remaining, State.goto_handlers_of_ne s hk]

theorem remaining_goto_self (s : State B) (h : ℕ) (body : B) (phase : Phase B) :
    (s.goto h body phase).remaining loads h = (Handler.mk body phase).remaining loads := by
  simp [State.remaining]

/-- A handler that moves on without recording keeps what remains of it. -/
theorem Sorted.goto {s : State B} (hsorted : Sorted loads s) {h : ℕ} {body : B}
    {old phase : Phase B} (hs : s.handlers h = some ⟨body, old⟩)
    (hkeep : (Handler.mk body phase).remaining loads = (Handler.mk body old).remaining loads) :
    Sorted loads (s.goto h body phase) := by
  refine hsorted.frame rfl rfl ?_
  intro k _
  by_cases heq : k = h
  · subst heq
    rw [remaining_goto_self, hkeep]
    simp [State.remaining, hs]
  · exact remaining_goto_of_ne heq body phase

/-- A handler in turn appends behind everything received before it. -/
theorem Sorted.record {s : State B} (hsorted : Sorted loads s) (hserved : Served s) {h : ℕ}
    {body : B} {response : Response B} {call : Json} {rest : List Json} {rawTx : String}
    (hs : s.handlers h = some ⟨body, .recording (call :: rest) response⟩)
    (hcall : recordCall call = .ok (some rawTx))
    (hturn : ∀ k ∈ s.received.takeWhile (· ≠ h), s.remaining loads k = []) :
    Sorted loads ((s.record h rawTx).goto h body (.recording rest response)) := by
  have hmem : h ∈ s.received :=
    hserved.replied_received h ((hserved.past h _ hs).resolve_left (by simp))
  have hremains : s.remaining loads h ≠ [] := by
    simp [State.remaining, Handler.remaining, hs, emitted_cons_of_ok rest hcall]
  -- Nothing received after `h` is recorded yet, since something of `h` remains.
  have hafter : s.received.Pairwise fun i j => i = h → part j s.recorded = [] := by
    apply hsorted.blocked.imp
    rintro i j hij rfl
    by_contra hj
    exact hremains (hij hj)
  have hpart : ∀ k, k ≠ h → part k (s.recorded ++ [(h, rawTx)]) = part k s.recorded := by
    intro k hk
    simp [part_singleton_of_ne (fun he => hk he.symm)]
  refine ⟨?_, ?_⟩
  · have hgrow := flatMap_append_last (a := own s)
      (b := own ((s.record h rawTx).goto h body (.recording rest response)))
      (l := [(h, rawTx)]) hserved.received_nodup hmem (by simp [own])
      (fun k hk => by simp [own, hpart k hk])
      (hafter.imp fun hij he => by simp [own, hij he])
    rw [State.goto_received, State.record_received, hgrow, ← hsorted.grouped]
    rfl
  · have hbefore : s.received.Pairwise fun i j => j = h → i ∈ s.received.takeWhile (· ≠ h) :=
      pairwise_takeWhile hserved.received_nodup h
    rw [State.goto_received, State.record_received, State.goto_recorded, State.record_recorded]
    apply (hsorted.blocked.and (hbefore.and hserved.received_nodup)).imp
    rintro i j ⟨hij, hjh, hne⟩ hj
    by_cases hjeq : j = h
    · have hi : i ≠ h := fun he => hne (he.trans hjeq.symm)
      rw [remaining_goto_of_ne hi]
      exact hturn i (hjh hjeq)
    · rw [hpart j hjeq] at hj
      have hi : i ≠ h := by
        rintro rfl
        exact hremains (hij hj)
      rw [remaining_goto_of_ne hi]
      exact hij hj

theorem remaining_afterReply (body : B) (response : Response B) :
    (Handler.mk body (afterReply loads body response)).remaining loads = emission loads body := by
  unfold Handler.remaining afterReply emission
  cases loads body with
  | ok payload => rfl
  | error e => by_cases hc : caught e = true <;> simp [hc]

/-- A step in turn keeps the recorder in the order of receipt. -/
theorem sorted_step {s t : State B} {l : Label B} (hinv : Recording loads s)
    (hserved : Served s) (hsorted : Sorted loads s) (hl : Answered s l) (hturn : InTurn loads s l)
    (hstep : step loads s l = some t) : Sorted loads t := by
  cases step_derivation hstep with
  | @read h body hs =>
      refine hsorted.frame rfl rfl ?_
      intro k hk
      have hne : k ≠ h := by
        rintro rfl
        exact (hinv.untouched k hs).received hk
      exact remaining_goto_of_ne hne body _
  | @receive h handler hs hnew =>
      have hempty : part h s.recorded = [] := by
        have hreplied : h ∉ s.replied := fun hr => hnew (hserved.replied_received h hr)
        have hparts := (hinv.account h handler hs).parts
        rw [if_neg hreplied] at hparts
        exact (List.append_eq_nil_iff.mp hparts).1
      refine ⟨?_, ?_⟩
      · have hown : own s h = [] := by simp [own, hempty]
        show s.recorded = (s.received ++ [h]).flatMap (own s)
        rw [List.flatMap_append, ← hsorted.grouped]
        simp [hown]
      · apply List.pairwise_append.mpr
        refine ⟨hsorted.blocked, by simp, ?_⟩
        intro i _ j hj hne
        obtain rfl := List.mem_singleton.mp hj
        exact absurd hempty hne
  | accept hs hreceived hmem => exact hsorted.frame rfl rfl (fun _ _ => rfl)
  | @reply h body status data results hs hreceived =>
      have hmoved : Sorted loads (s.reply h (answeredTxs (bodyCalls loads body) results)) :=
        hsorted.frame rfl rfl (fun _ _ => rfl)
      refine hmoved.goto hs ?_
      rw [remaining_afterReply]
      rfl
  | forwardFails exc hs => exact absurd hl id
  | errorBodyFails exc hs => exact absurd hl id
  | extractDone hs => exact hsorted.goto hs rfl
  | @extractSkip h body response call rest hs hcall =>
      refine hsorted.goto hs ?_
      simp [Handler.remaining, emitted_cons_of_ok rest hcall]
  | @extractRecord h body response call rest rawTx hs hcall =>
      refine hsorted.record hserved hs hcall (hturn ?_)
      simp [State.appends, hs, hcall]
  | @extractRaise h body response call rest e hs hcall =>
      refine hsorted.goto hs ?_
      by_cases hc : caught e = true <;>
        simp [Handler.remaining, emitted_cons_of_error rest hcall, hc]
  | send hs => exact hsorted.goto hs rfl
  | sendFails exc hs => exact hsorted.goto hs rfl
  | snapshot => exact hsorted.frame rfl rfl (fun _ _ => rfl)

theorem sorted_runs {labels : List (Label B)} {s : State B} (hrun : runs loads labels = some s)
    (hanswered : Runs.Along (step loads) Answered State.init labels)
    (hturn : Runs.Along (step loads) (InTurn loads) State.init labels) :
    Recording loads s ∧ Served s ∧ Sorted loads s ∧ ∀ h ∈ s.received, s.Plain loads h := by
  refine Runs.invariant_along
    (I := fun t : State B => Recording loads t ∧ Served t ∧ Sorted loads t ∧
      ∀ h ∈ t.received, t.Plain loads h) ?_ ?_ (hanswered.and hturn) hrun
  · rintro u l v ⟨hinv, hserved, hsorted, hplain⟩ hl huv
    exact ⟨recording_step hinv huv, served_step hserved hl.1 huv,
      sorted_step hinv hserved hsorted hl.1 hl.2 huv, plain_step hinv hplain hl.2 huv⟩
  · exact ⟨recording_init, served_init, ⟨rfl, List.Pairwise.nil⟩, by simp [State.init]⟩

/-! ## Snapshots -/

/-- A request of which everything remaining is known has its whole sequence. -/
theorem own_append_remaining {s : State B} (hinv : Recording loads s) (hserved : Served s)
    {h : ℕ} (hplain : s.Plain loads h) : own s h ++ (s.remaining loads h).map (fun rawTx => (h, rawTx)) =
      sequence loads s h := by
  unfold own State.remaining sequence
  cases hs : s.handlers h with
  | none => simp [(hinv.untouched h hs).recorded]
  | some handler =>
      have ha := hinv.account h handler hs
      have hall : part h s.recorded ++ handler.remaining loads = emission loads handler.body := by
        obtain ⟨body, phase⟩ := handler
        cases phase with
        | forwarding =>
            have hparts := ha.parts
            rw [if_neg (ha.unreplied rfl)] at hparts
            rw [(List.append_eq_nil_iff.mp hparts).1]
            rfl
        | recording rest response =>
            have hreplied := (hserved.past h _ hs).resolve_left (by simp)
            simpa [Handler.remaining, hreplied] using ha.parts
        | sending response =>
            have hreplied := (hserved.past h _ hs).resolve_left (by simp)
            simpa [Handler.remaining, hreplied] using ha.parts
        | finished response =>
            have hreplied := (hserved.past h _ hs).resolve_left (by simp)
            simpa [Handler.remaining, hreplied] using ha.parts
        | crashed exc =>
            have hreplied := (hserved.past h _ hs).resolve_left (by simp)
            simpa [Handler.remaining, hreplied] using ha.parts
      have hread : emission loads handler.body = submissions loads handler.body := by
        simpa [State.Plain, hs] using hplain
      simp [← hread, ← hall]

theorem broadcast_eq {s : State B} (hinv : Recording loads s) (hserved : Served s)
    (hplain : ∀ h ∈ s.received, s.Plain loads h) : broadcast loads s = s.received.flatMap fun h =>
      own s h ++ (s.remaining loads h).map fun rawTx => (h, rawTx) := by
  apply List.flatMap_congr
  intro h hmem
  exact (own_append_remaining hinv hserved (hplain h hmem)).symm

theorem recorded_prefix_broadcast {s : State B} (hinv : Recording loads s) (hserved : Served s)
    (hsorted : Sorted loads s) (hplain : ∀ h ∈ s.received, s.Plain loads h) :
    s.recorded <+: broadcast loads s := by
  rw [broadcast_eq hinv hserved hplain, hsorted.grouped]
  apply flatMap_prefix_of_blocked
  apply hsorted.blocked.imp
  intro i j hij hj
  rw [hij (fun he => hj (by simp [own, he])), List.map_nil]

theorem recorded_eq_broadcast {s : State B} (hinv : Recording loads s) (hserved : Served s)
    (hsorted : Sorted loads s) (hplain : ∀ h ∈ s.received, s.Plain loads h)
    (hquiet : Quiet s) : s.recorded = broadcast loads s := by
  rw [broadcast_eq hinv hserved hplain]
  have hnone : ∀ h, s.remaining loads h = [] := by
    intro h
    unfold State.remaining
    cases hs : s.handlers h with
    | none => rfl
    | some handler =>
        have hended := hquiet h handler hs
        obtain ⟨body, phase⟩ := handler
        cases phase <;> simp_all [Handler.remaining, Phase.Ended]
  simpa [hnone] using hsorted.grouped

/-- When all requests are answered, the recorder takes from each what the node reads in it,
and each handler records in its turn, every snapshot follows the order in which the
upstream node has received the transactions, and a quiet recorder holds all of them. -/
theorem snapshot_prefix_broadcast {labels : List (Label B)} {s : State B}
    (hrun : runs loads labels = some s)
    (hanswered : Runs.Along (step loads) Answered State.init labels)
    (hturn : Runs.Along (step loads) (InTurn loads) State.init labels) :
    (∀ shot ∈ s.snapshots, shot.recorded <+: broadcast loads s) ∧
      (Quiet s → s.recorded = broadcast loads s) := by
  obtain ⟨hinv, hserved, hsorted, hplain⟩ := sorted_runs hrun hanswered hturn
  refine ⟨?_, recorded_eq_broadcast hinv hserved hsorted hplain⟩
  intro shot hshot
  exact ((growing_runs hrun).le_recorded shot hshot).trans
    (recorded_prefix_broadcast hinv hserved hsorted hplain)

/-- The second request is received first, and the first one waits for its turn. -/
def inTurn : List (Label Json) :=
  [.read 0 (.arr [sendRaw "0xa1", sendRaw "0xa2"]), .read 1 (sendRaw "0xb1"), .receive 1,
    .receive 0, .reply 0 200 .null [true, true], .reply 1 200 .null [true], .extract 1,
    .extract 0, .snapshot, .extract 1, .extract 0, .extract 0, .send 0, .send 1]

theorem answered_inTurn : Runs.Along (step .ok) Answered State.init inTurn := by
  decide

theorem inTurn_inTurn : Runs.Along (step .ok) (InTurn .ok) State.init inTurn := by
  decide

theorem snapshot_prefix_broadcast_inTurn :
    ∃ s, runs .ok inTurn = some s ∧ s.rawTxs = ["0xb1", "0xa1", "0xa2"] ∧
      (∀ shot ∈ s.snapshots, shot.recorded <+: broadcast .ok s) ∧
        (Quiet s → s.recorded = broadcast .ok s) := by
  have hkept : ∀ s, runs .ok inTurn = some s →
      (∀ shot ∈ s.snapshots, shot.recorded <+: broadcast .ok s) ∧
        (Quiet s → s.recorded = broadcast .ok s) :=
    fun s hrun => snapshot_prefix_broadcast hrun answered_inTurn inTurn_inTurn
  exact ⟨_, rfl, rfl, hkept _ rfl⟩

/-- The upstream receives the first request first, and the second is recorded first. -/
def overtaken : List (Label Json) :=
  [.read 0 (sendRaw "0xa1"), .read 1 (sendRaw "0xb1"), .receive 0, .receive 1,
    .reply 0 200 .null [true], .reply 1 200 .null [true], .extract 1, .extract 0, .extract 0,
    .extract 1, .send 0, .send 1, .snapshot]

theorem not_prefix_overtaken :
    Runs.Along (step .ok) Answered State.init overtaken ∧
      ∃ s, runs .ok overtaken = some s ∧
        ∃ shot ∈ s.snapshots, shot.rawTxs = ["0xb1", "0xa1"] ∧
          (broadcast .ok s).map Prod.snd = ["0xa1", "0xb1"] :=
  ⟨by decide, _, rfl, ⟨[(1, "0xb1"), (0, "0xa1")], [], [(0, "0xa1"), (1, "0xb1")]⟩, by decide,
    rfl, rfl⟩

end EestReplay.Proxy
