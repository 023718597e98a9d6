import EestReplay.Verification.Chain.Verdict

/-! # The head of the chain

Against an EL that moves its head on a fork choice that it answers VALID, the head follows
the expected blocks, whatever the builder returns. -/

namespace EestReplay.Runner

open Dialogue Simbuild

variable {σ H A V : Type} {hash : FixedBytes H} {addr : FixedBytes A}

/-! ## The EL -/

/-- The calls that may move the head: a fork choice, and a build through the endpoint. -/
def choosesHead : ChainCall H A V → Bool
  | .forkchoiceUpdated _ _ _ => true
  | .build _ _ => true
  | _ => false

/-- An EL with the endpoint in front of it. A fork choice moves the head exactly when it is
answered VALID. A build through the endpoint is a fork choice to the parent of the request,
with an answer that the endpoint may not show. -/
structure ExecutionLayer (σ V : Type) (hash : FixedBytes H) (addr : FixedBytes A) where
  peer : Peer σ (ChainReply (H := H) (A := A) (V := V))
  head : σ → H
  forkchoice : ∀ s next attrs version reply,
    (peer.answer s (.forkchoiceUpdated next attrs version)).1 = .ok reply →
    head (peer.answer s (.forkchoiceUpdated next attrs version)).2 =
      if ForkchoiceReply.status reply = .valid then next else head s
  build : ∀ s baseUrl body, head (peer.answer s (.build baseUrl body)).2 = head s ∨
    ∃ attrs, requestedBuild hash addr body = .ok (head (peer.answer s (.build baseUrl body)).2, attrs)
  keeps : ∀ s q, choosesHead q = false → head (peer.answer s q).2 = head s

/-! ## Linked payloads -/

/-- Each payload's parent is the block before it. -/
def Linked : H → List (EngineNewPayload H A V) → Prop
  | _, [] => True
  | parent, payload :: payloads =>
    payload.expected.parentHash = parent ∧ Linked payload.expected.blockHash payloads

/-- The hash of the last payload's block, or of the genesis. -/
def lastHash (genesis : H) (payloads : List (EngineNewPayload H A V)) : H :=
  (payloads.getLast?.map (·.expected.blockHash)).getD genesis

@[simp] theorem lastHash_nil (genesis : H) :
    lastHash genesis ([] : List (EngineNewPayload H A V)) = genesis := rfl

@[simp] theorem lastHash_concat (genesis : H) (payloads : List (EngineNewPayload H A V))
    (payload : EngineNewPayload H A V) :
    lastHash genesis (payloads ++ [payload]) = payload.expected.blockHash := by
  simp [lastHash]

theorem lastHash_cons (genesis : H) (payload : EngineNewPayload H A V)
    (payloads : List (EngineNewPayload H A V)) :
    lastHash genesis (payload :: payloads) = lastHash payload.expected.blockHash payloads := by
  cases List.eq_nil_or_concat payloads with
  | inl hnil =>
      subst hnil
      rfl
  | inr hconcat =>
      obtain ⟨init, last, rfl⟩ := hconcat
      rw [List.concat_eq_append, ← List.cons_append, lastHash_concat, lastHash_concat]

theorem Linked.parentHash {genesis : H} {pre post : List (EngineNewPayload H A V)}
    {payload : EngineNewPayload H A V} (h : Linked genesis (pre ++ payload :: post)) :
    payload.expected.parentHash = lastHash genesis pre := by
  induction pre generalizing genesis with
  | nil => exact h.1
  | cons first pre ih =>
      rw [lastHash_cons]
      exact ih h.2

/-! ## Build requests -/

/-- A call that asks for a build. -/
def asksBuild : ChainCall H A V → Bool
  | .forkchoiceUpdated _ (some _) _ => true
  | .build _ _ => true
  | _ => false

/-- The build requests for a payload: a fork choice, or a call of the endpoint. -/
def Requests (hash : FixedBytes H) (addr : FixedBytes A) (payload : EngineNewPayload H A V)
    (q : ChainCall H A V) : Prop :=
  q = .forkchoiceUpdated payload.expected.parentHash (some (payloadAttributes payload))
      payload.forkchoiceUpdatedVersion ∨
    ∃ baseUrl, q = .build baseUrl
      (Buildoor.requestBody hash addr (hash.str payload.expected.parentHash) payload)

/-- A build request finds the EL at the expected parent of its block, the blocks before it
imported and the transactions up to it submitted. -/
def Timely (el : ExecutionLayer σ V hash addr) (fixture : EngineFixture H A V)
    (past : List (ChainExchange σ H A V)) (x : ChainExchange σ H A V) : Prop :=
  asksBuild x.query = true → ∃ pre payload post, fixture.payloads = pre ++ payload :: post ∧
    payload.valid = true ∧ Requests hash addr payload x.query ∧
    el.head x.before = payload.expected.parentHash ∧
    imported past = (validPayloads pre).map importCall ∧
    mempool past = (validPayloads (pre ++ [payload])).flatMap (·.expected.transactions)

variable {el : ExecutionLayer σ V hash addr} {fixture : EngineFixture H A V}

/-- Where a run stands: its build requests so far, its imports, the mempool and the head. -/
structure Stands (el : ExecutionLayer σ V hash addr) (fixture : EngineFixture H A V)
    (imports : List (NewPayloadParams H A V × ℕ)) (sent : List String) (head : H)
    (w : ChainWorld σ H A V) : Prop where
  timely : Always (Timely el fixture) w.log
  imports : imported w.log = imports
  sent : mempool w.log = sent
  head : el.head w.state = head

/-- However a run ends, its build requests were timely and its imports expected. -/
structure Sound (el : ExecutionLayer σ V hash addr) (fixture : EngineFixture H A V)
    (w : ChainWorld σ H A V) : Prop where
  timely : Always (Timely el fixture) w.log
  imports : imported w.log <+: (validPayloads fixture.payloads).map importCall

theorem Stands.sound {imports : List (NewPayloadParams H A V × ℕ)} {sent : List String} {head : H}
    {w : ChainWorld σ H A V} (h : Stands el fixture imports sent head w)
    (hinitial : imports <+: (validPayloads fixture.payloads).map importCall) :
    Sound el fixture w :=
  ⟨h.timely, h.imports ▸ hinitial⟩

/-- What one call changes. -/
theorem Stands.step {imports : List (NewPayloadParams H A V × ℕ)} {sent : List String}
    {head next : H} {w : ChainWorld σ H A V} (h : Stands el fixture imports sent head w)
    (q : ChainCall H A V)
    (htimely : Timely el fixture w.log ⟨w.state, q, (el.peer.answer w.state q).1⟩)
    (hhead : el.head (el.peer.answer w.state q).2 = next) :
    Stands el fixture
      (imports ++ (importOf ⟨w.state, q, (el.peer.answer w.state q).1⟩).toList)
      (sent ++ (transactionOf ⟨w.state, q, (el.peer.answer w.state q).1⟩).toList) next
      (w.step el.peer q) where
  timely := always_concat.mpr ⟨h.timely, htimely⟩
  imports := by
    rw [World.step_log, imported_append, h.imports]
    cases hq : importOf ⟨w.state, q, (el.peer.answer w.state q).1⟩ <;> simp [imported, hq]
  sent := by
    rw [World.step_log, mempool_append, h.sent]
    cases hq : transactionOf ⟨w.state, q, (el.peer.answer w.state q).1⟩ <;> simp [mempool, hq]
  head := hhead

/-- A call that neither imports nor submits changes the head at most. -/
theorem Stands.still {imports : List (NewPayloadParams H A V × ℕ)} {sent : List String}
    {head next : H} {w : ChainWorld σ H A V} (h : Stands el fixture imports sent head w)
    {q : ChainCall H A V}
    (htimely : Timely el fixture w.log ⟨w.state, q, (el.peer.answer w.state q).1⟩)
    (hhead : el.head (el.peer.answer w.state q).2 = next)
    (himport : importOf ⟨w.state, q, (el.peer.answer w.state q).1⟩ = none)
    (hsent : transactionOf ⟨w.state, q, (el.peer.answer w.state q).1⟩ = none) :
    Stands el fixture imports sent next (w.step el.peer q) := by
  have hstep := h.step q htimely hhead
  rw [himport, hsent] at hstep
  simpa using hstep

/-- A call that is no build request is timely. -/
theorem timely_of_not_asksBuild {past : List (ChainExchange σ H A V)} {x : ChainExchange σ H A V}
    (h : asksBuild x.query = false) : Timely el fixture past x := by
  intro hasks
  rw [h] at hasks
  cases hasks

theorem Stands.send {imports : List (NewPayloadParams H A V × ℕ)} {sent : List String} {head : H}
    {w : ChainWorld σ H A V} (h : Stands el fixture imports sent head w) (raw : String) :
    Stands el fixture imports (sent ++ [raw]) head (w.step el.peer (.sendRawTransaction raw)) := by
  have hstep := h.step (.sendRawTransaction raw) (timely_of_not_asksBuild rfl)
    ((el.keeps _ _ rfl).trans h.head)
  simpa [importOf, transactionOf] using hstep

theorem Stands.newPayload {imports : List (NewPayloadParams H A V × ℕ)} {sent : List String}
    {head : H} {w : ChainWorld σ H A V} (h : Stands el fixture imports sent head w)
    (payload : EngineNewPayload H A V) :
    Stands el fixture (imports ++ [importCall payload]) sent head
      (w.step el.peer (.newPayload payload.params payload.newPayloadVersion)) := by
  have hstep := h.step (.newPayload payload.params payload.newPayloadVersion)
    (timely_of_not_asksBuild rfl) ((el.keeps _ _ rfl).trans h.head)
  simpa [importOf, transactionOf, importCall] using hstep

/-- A fork choice without attributes; where it moves the head depends on its answer. -/
theorem Stands.forkchoice {imports : List (NewPayloadParams H A V × ℕ)} {sent : List String}
    {head : H} {w : ChainWorld σ H A V} (h : Stands el fixture imports sent head w) (next : H)
    (version : ℕ) :
    Stands el fixture imports sent
      (el.head (el.peer.answer w.state (.forkchoiceUpdated next none version)).2)
      (w.step el.peer (.forkchoiceUpdated next none version)) :=
  h.still (timely_of_not_asksBuild rfl) rfl rfl rfl

/-! ## The parts of a block -/

theorem validPayloads_map_initial {pre post : List (EngineNewPayload H A V)}
    (hsplit : fixture.payloads = pre ++ post) :
    (validPayloads pre).map importCall <+: (validPayloads fixture.payloads).map importCall := by
  rw [hsplit, validPayloads_append, List.map_append]
  exact List.prefix_append _ _

section Parts

variable {eest : ExecutionTesting H A V} {drive : Drive} {idx : ℕ}
  {imports : List (NewPayloadParams H A V × ℕ)} {sent : List String} {head : H}

theorem submitMempool_stands (raws : List String)
    (hinitial : imports <+: (validPayloads fixture.payloads).map importCall) :
    Triple (Stands el fixture imports sent head) (submitMempool el.peer raws)
      (fun _ => Stands el fixture imports (sent ++ raws) head) (fun _ => Sound el fixture) := by
  induction raws generalizing sent with
  | nil => exact Triple.pure fun w hw => by rwa [List.append_nil]
  | cons raw raws ih =>
      apply Triple.bind (S := fun _ => Stands el fixture imports (sent ++ [raw]) head)
      · apply Triple.call
        · exact fun w _ hw _ => hw.send raw
        · exact fun w _ hw _ => (hw.send raw).sound hinitial
      · intro _
        have hrest := @ih (sent ++ [raw])
        rwa [List.append_assoc, List.singleton_append] at hrest

variable {pre post : List (EngineNewPayload H A V)} {payload : EngineNewPayload H A V}

/-- The state of a run before it asks for the build of a payload. -/
def Ready (el : ExecutionLayer σ V hash addr) (fixture : EngineFixture H A V)
    (pre : List (EngineNewPayload H A V)) (payload : EngineNewPayload H A V) :
    ChainWorld σ H A V → Prop :=
  Stands el fixture ((validPayloads pre).map importCall)
    ((validPayloads (pre ++ [payload])).flatMap (·.expected.transactions))
    payload.expected.parentHash

theorem Ready.timely {w : ChainWorld σ H A V} {q : ChainCall H A V}
    (hsplit : fixture.payloads = pre ++ payload :: post) (hvalid : payload.valid = true)
    (h : Ready el fixture pre payload w) (hq : Requests hash addr payload q) :
    Timely el fixture w.log ⟨w.state, q, (el.peer.answer w.state q).1⟩ :=
  fun _ => ⟨pre, payload, post, hsplit, hvalid, hq, h.head, h.imports, h.sent⟩

theorem Ready.sound {w : ChainWorld σ H A V} (hsplit : fixture.payloads = pre ++ payload :: post)
    (h : Ready el fixture pre payload w) : Sound el fixture w :=
  Stands.sound h (validPayloads_map_initial hsplit)

/-- A call that neither moves the head nor imports nor submits leaves the run ready. -/
theorem Ready.quiet {w : ChainWorld σ H A V} {q : ChainCall H A V}
    (h : Ready el fixture pre payload w) (hasks : asksBuild q = false)
    (hchooses : choosesHead q = false)
    (himport : importOf ⟨w.state, q, (el.peer.answer w.state q).1⟩ = none)
    (hsent : transactionOf ⟨w.state, q, (el.peer.answer w.state q).1⟩ = none) :
    Ready el fixture pre payload (w.step el.peer q) :=
  Stands.still h (timely_of_not_asksBuild hasks) ((el.keeps _ _ hchooses).trans h.head) himport hsent

/-- A build through the endpoint leaves the head at the parent. -/
theorem Ready.build {w : ChainWorld σ H A V} {baseUrl : String}
    (hsplit : fixture.payloads = pre ++ payload :: post) (hvalid : payload.valid = true)
    (h : Ready el fixture pre payload w) :
    Ready el fixture pre payload (w.step el.peer (.build baseUrl
      (Buildoor.requestBody hash addr (hash.str payload.expected.parentHash) payload))) := by
  refine Stands.still h (h.timely hsplit hvalid (.inr ⟨baseUrl, rfl⟩)) ?_ rfl rfl
  cases el.build w.state baseUrl
      (Buildoor.requestBody hash addr (hash.str payload.expected.parentHash) payload) with
  | inl hsame => exact hsame.trans h.head
  | inr hmoved =>
      obtain ⟨attrs, hrequested⟩ := hmoved
      exact requestedBuild_parent hrequested

theorem buildBlock_stands (hsplit : fixture.payloads = pre ++ payload :: post)
    (hvalid : payload.valid = true) :
    Triple (Ready el fixture pre payload)
      (buildBlock el.peer eest hash addr drive idx payload)
      (fun _ => Ready el fixture pre payload) (fun _ => Sound el fixture) := by
  unfold buildBlock
  cases drive.buildoorBaseUrl with
  | some baseUrl =>
      apply Triple.bind (S := fun _ => Ready el fixture pre payload)
      · unfold requestBuild
        apply Triple.bind (S := fun _ => Ready el fixture pre payload)
        · apply Triple.call
          · exact fun w _ hw _ => hw.build hsplit hvalid
          · exact fun w _ hw _ => (hw.build hsplit hvalid).sound hsplit
        · intro reply
          cases reply with
          | httpError code detail => exact Triple.throw fun w hw => hw.sound hsplit
          | ok parsed =>
              apply Triple.bind (S := fun _ => Ready el fixture pre payload)
              · exact Triple.lift (fun _ _ _ hw => hw) fun _ w _ hw => hw.sound hsplit
              · exact fun _ => Triple.lift (fun _ _ _ hw => hw) fun _ w _ hw => hw.sound hsplit
      · exact fun _ => Triple.pure fun _ hw => hw
  | none =>
      let q : ChainCall H A V := .forkchoiceUpdated payload.expected.parentHash
        (some (payloadAttributes payload)) payload.forkchoiceUpdatedVersion
      apply Triple.bind (S := fun _ => Ready el fixture pre payload)
      · apply Triple.call
        · intro w reply hw hreply
          have hhead : el.head (el.peer.answer w.state q).2 = payload.expected.parentHash := by
            rw [el.forkchoice _ _ _ _ reply hreply, hw.head]
            exact ite_self _
          exact Stands.still hw (hw.timely hsplit hvalid (.inl rfl)) hhead rfl rfl
        · intro w e hw hreply
          have hstep := Stands.still hw (hw.timely hsplit hvalid (.inl rfl)) rfl rfl rfl
          exact hstep.sound (validPayloads_map_initial hsplit)
      · intro reply
        split
        · exact Triple.pure fun _ hw => hw
        · split
          · exact Triple.pure fun _ hw => hw
          · apply Triple.bind (S := fun _ => Ready el fixture pre payload)
            · apply Triple.call
              · exact fun w _ hw _ => hw.quiet rfl rfl rfl rfl
              · exact fun w _ hw _ => (hw.quiet rfl rfl rfl rfl).sound hsplit
            · intro _
              apply Triple.bind (S := fun _ => Ready el fixture pre payload)
              · apply Triple.call
                · exact fun w _ hw _ => hw.quiet rfl rfl rfl rfl
                · exact fun w _ hw _ => (hw.quiet rfl rfl rfl rfl).sound hsplit
              · exact fun _ => Triple.pure fun _ hw => hw

/-- The advance moves the head to the expected block. -/
theorem advance_stands (hsplit : fixture.payloads = pre ++ payload :: post)
    (hvalid : payload.valid = true) :
    Triple (Ready el fixture pre payload) (advance el.peer eest idx payload)
      (fun failed w =>
        match failed with
        | none => Stands el fixture ((validPayloads (pre ++ [payload])).map importCall)
            ((validPayloads (pre ++ [payload])).flatMap (·.expected.transactions))
            payload.expected.blockHash w
        | some _ => Sound el fixture w)
      (fun _ => Sound el fixture) := by
  have hmore : fixture.payloads = (pre ++ [payload]) ++ post := by
    rw [hsplit, List.append_assoc]
    rfl
  have htake : (validPayloads (pre ++ [payload])).map importCall =
      (validPayloads pre).map importCall ++ [importCall payload] := by
    rw [validPayloads_concat_of_valid hvalid, List.map_append]
    rfl
  have hinitial := validPayloads_map_initial hmore
  let imported := Stands el fixture ((validPayloads (pre ++ [payload])).map importCall)
    ((validPayloads (pre ++ [payload])).flatMap (·.expected.transactions))
  have hnew : ∀ w, Ready el fixture pre payload w → imported payload.expected.parentHash
      (w.step el.peer (.newPayload payload.params payload.newPayloadVersion)) := by
    intro w hw
    have hstep := Stands.newPayload hw payload
    rw [← htake] at hstep
    exact hstep
  unfold advance
  apply Triple.bind (S := fun _ => imported payload.expected.parentHash)
  · apply Triple.call
    · exact fun w _ hw _ => hnew w hw
    · exact fun w _ hw _ => (hnew w hw).sound hinitial
  · intro status
    split
    · exact Triple.pure fun w hw => hw.sound hinitial
    · apply Triple.bind (S := fun reply w =>
        ∃ head, imported head w ∧
          (ForkchoiceReply.status reply = .valid → head = payload.expected.blockHash))
      · apply Triple.call
        · intro w reply hw hreply
          refine ⟨_, hw.forkchoice _ _, ?_⟩
          intro hstatus
          rw [el.forkchoice _ _ _ _ reply hreply, if_pos hstatus]
        · exact fun w _ hw _ => (hw.forkchoice _ _).sound hinitial
      · intro reply
        split
        · apply Triple.pure
          rintro w ⟨head, hw, -⟩
          exact hw.sound hinitial
        · rename_i hstatus
          apply Triple.pure
          rintro w ⟨head, hw, hhead⟩
          obtain rfl := hhead (not_not.mp hstatus)
          exact hw

end Parts

/-! ## The run -/

/-- The payloads `pre` are behind the loop, and the head is at the last of their blocks. -/
def Behind (el : ExecutionLayer σ V hash addr) (fixture : EngineFixture H A V)
    (pre : List (EngineNewPayload H A V)) : ChainWorld σ H A V → Prop :=
  Stands el fixture ((validPayloads pre).map importCall)
    ((validPayloads pre).flatMap (·.expected.transactions))
    (lastHash fixture.genesisHash (validPayloads pre))

/-- How a result leaves the EL. -/
def Leaves (el : ExecutionLayer σ V hash addr) (fixture : EngineFixture H A V)
    (r : FixtureResult) (w : ChainWorld σ H A V) : Prop :=
  Sound el fixture w ∧ (r.error = none →
    el.head w.state = lastHash fixture.genesisHash (validPayloads fixture.payloads))

theorem driveBlock_stands [DecidableEq V] {eest : ExecutionTesting H A V} {drive : Drive}
    (hlinked : Linked fixture.genesisHash (validPayloads fixture.payloads))
    {pre post : List (EngineNewPayload H A V)} {payload : EngineNewPayload H A V}
    {blocks : List BlockResult} (hsplit : fixture.payloads = pre ++ payload :: post)
    (hvalid : payload.valid = true) :
    Triple (Behind el fixture pre) (driveBlock el.peer eest hash addr drive pre.length payload blocks)
      (Ends (Leaves el fixture) fun _ => Behind el fixture (pre ++ [payload]))
      (fun _ => Sound el fixture) := by
  have htake := validPayloads_concat_of_valid hvalid pre
  have hparent : payload.expected.parentHash = lastHash fixture.genesisHash (validPayloads pre) := by
    rw [hsplit, validPayloads_append, validPayloads_cons_of_valid hvalid] at hlinked
    exact hlinked.parentHash
  have hsent : (validPayloads (pre ++ [payload])).flatMap (·.expected.transactions) =
      (validPayloads pre).flatMap (·.expected.transactions) ++ payload.expected.transactions := by
    rw [htake, List.flatMap_append, List.flatMap_singleton]
  unfold driveBlock
  apply Triple.bind (S := fun _ => Ready el fixture pre payload)
  · unfold Behind Ready
    rw [← hparent, hsent]
    exact submitMempool_stands _ (validPayloads_map_initial hsplit)
  · intro _
    apply Triple.bind (buildBlock_stands hsplit hvalid)
    intro build
    cases build with
    | error err => exact Triple.pure fun w hw => ⟨hw.sound hsplit, fun herr => by simp at herr⟩
    | ok built =>
        apply Triple.bind (advance_stands hsplit hvalid)
        intro failed
        cases failed with
        | some err => exact Triple.pure fun w hw => ⟨hw, fun herr => by simp at herr⟩
        | none =>
            apply Triple.pure
            intro w hw
            show Behind el fixture (pre ++ [payload]) w
            unfold Behind
            rw [htake, lastHash_concat, ← htake]
            exact hw

theorem driveFrom_stands [DecidableEq V] {eest : ExecutionTesting H A V} {drive : Drive}
    (hlinked : Linked fixture.genesisHash (validPayloads fixture.payloads)) :
    Triple (Behind el fixture []) (driveFrom el.peer eest hash addr drive 0 fixture.payloads [])
      (Leaves el fixture) (fun _ => Sound el fixture) := by
  apply driveFrom_rule (I := fun pre _ => Behind el fixture pre) ?_ ?_ ?_ fixture.payloads [] [] rfl
  · exact fun blocks w hw => ⟨hw.sound (List.prefix_refl _), fun _ => hw.head⟩
  · intro pre payload post blocks w _ hvalid hw
    unfold Behind
    rw [validPayloads_concat_of_not_valid hvalid]
    exact hw
  · exact fun pre payload post blocks => driveBlock_stands hlinked

/-- The chain follows the expected blocks only. Every build request finds the EL's head at
the expected parent of its block, the blocks before it imported and the transactions up to
it submitted; nothing but valid payloads is ever imported, in order; and a run without an
error leaves the head at the last valid payload. -/
theorem driveChain_heads [DecidableEq V] {eest : ExecutionTesting H A V} {drive : Drive}
    (el : ExecutionLayer σ V hash addr) {fixture : EngineFixture H A V}
    (hlinked : Linked fixture.genesisHash (validPayloads fixture.payloads)) (s : σ) :
    Always (Timely el fixture)
        (driveChain el.peer eest hash addr drive fixture ⟨s, []⟩).2.log ∧
      imported (driveChain el.peer eest hash addr drive fixture ⟨s, []⟩).2.log <+:
        (validPayloads fixture.payloads).map importCall ∧
      ∀ r w, driveChain el.peer eest hash addr drive fixture ⟨s, []⟩ = (.ok r, w) →
        r.error = none →
        el.head w.state = lastHash fixture.genesisHash (validPayloads fixture.payloads) := by
  have hstart : Stands el fixture [] [] (el.head s) (⟨s, []⟩ : ChainWorld σ H A V) :=
    ⟨always_nil _, rfl, rfl, rfl⟩
  have hnil : ([] : List (NewPayloadParams H A V × ℕ)) <+:
      (validPayloads fixture.payloads).map importCall := List.nil_prefix
  have hchain : Triple (Stands el fixture [] [] (el.head s))
      (driveChain el.peer eest hash addr drive fixture)
      (Leaves el fixture) (fun _ => Sound el fixture) := by
    unfold driveChain
    split
    · exact Triple.throw fun w hw => hw.sound hnil
    · apply Triple.bind (S := fun reply w => ∃ head, Stands el fixture [] [] head w ∧
        (ForkchoiceReply.status reply = .valid → head = fixture.genesisHash))
      · apply Triple.call
        · intro w reply hw hreply
          refine ⟨_, hw.forkchoice _ _, ?_⟩
          intro hstatus
          rw [el.forkchoice _ _ _ _ reply hreply, if_pos hstatus]
        · exact fun w _ hw _ => (hw.forkchoice _ _).sound hnil
      · intro reply
        split
        · apply Triple.pure
          rintro w ⟨head, hw, -⟩
          exact ⟨hw.sound hnil, fun herr => by simp at herr⟩
        · rename_i hstatus
          apply (driveFrom_stands hlinked).pre
          rintro w ⟨head, hw, hhead⟩
          obtain rfl := hhead (not_not.mp hstatus)
          exact hw
  have hsound : Sound el fixture (driveChain el.peer eest hash addr drive fixture ⟨s, []⟩).2 :=
    (hchain.conseq (fun _ => id) (fun _ _ h => h.1) fun _ _ => id).result ⟨s, []⟩ hstart
  exact ⟨hsound.timely, hsound.imports, fun r w hrun herr =>
    ((hchain ⟨s, []⟩ hstart).1 r w hrun).2 herr⟩

/-- The accepting EL, with its head. -/
def obligingLayer : ExecutionLayer (Fin (16 ^ 64)) ℕ (fullWidth 64) (fullWidth 40) where
  peer := obliging
  head := id
  forkchoice := by
    intro s next attrs version reply hreply
    obtain rfl : (⟨.valid, some "0x01"⟩ : ForkchoiceReply) = reply := Except.ok.inj hreply
    rfl
  build := fun _ _ _ => .inl rfl
  keeps := by
    intro s q hq
    cases q with
    | forkchoiceUpdated next attrs version => cases hq
    | build baseUrl body => cases hq
    | sendRawTransaction raw => rfl
    | getPayload payloadId version => rfl
    | newPayload params version => rfl
    | sleep seconds => rfl

theorem driveChain_heads_shortChain :
    Always (Timely obligingLayer shortChain)
        (driveChain obliging plainTesting (fullWidth 64) (fullWidth 40) direct shortChain
          ⟨shortChain.genesisHash, []⟩).2.log ∧
      imported (driveChain obliging plainTesting (fullWidth 64) (fullWidth 40) direct shortChain
          ⟨shortChain.genesisHash, []⟩).2.log <+:
        (validPayloads shortChain.payloads).map importCall ∧
      ∀ r w, driveChain obliging plainTesting (fullWidth 64) (fullWidth 40) direct shortChain
          ⟨shortChain.genesisHash, []⟩ = (.ok r, w) → r.error = none →
        obligingLayer.head w.state =
          lastHash shortChain.genesisHash (validPayloads shortChain.payloads) := by
  have hlinked : Linked shortChain.genesisHash (validPayloads shortChain.payloads) :=
    ⟨rfl, rfl, trivial⟩
  exact driveChain_heads obligingLayer hlinked shortChain.genesisHash

end EestReplay.Runner
