import EestReplay.Library.Total
import EestReplay.Verification.Chain.Heads

/-! # A client that reproduces its fixture

An execution client as the runner sees it: the blocks that it has executed, the transactions that
it was sent, and the block that it builds. Where it builds what a fixture expects, the fixture
passes. -/

namespace EestReplay

open Dialogue Runner

variable {σ H A V : Type}

/-! ## The client -/

/-- What a client makes of a genesis, which block it builds on a parent with the transactions
that it was sent, and which blocks execute to what they say. -/
structure Client (H A V : Type) where
  genesisHash : Json → H
  build : H → List String → PayloadAttributes H A → ExecutionPayload H A V
  executes : NewPayloadParams H A V → Bool

namespace Client

/-- What a client that runs has seen. -/
structure State (H A V : Type) where
  known : List H
  pool : List String := []
  building : Option (ExecutionPayload H A V) := none

variable (c : Client H A V)

/-- A client that was started on a genesis. -/
def boot (genesis : Json) : State H A V := { known := [c.genesisHash genesis] }

variable [DecidableEq H]

/-- A fork choice to a block that is known, and a block on one, are VALID or not at once. -/
def answer (st : State H A V) : (q : ChainCall H A V) → ChainReply q × State H A V
  | .sendRawTransaction raw => (.ok raw, { st with pool := st.pool ++ [raw] })
  | .forkchoiceUpdated head none _ =>
    if head ∈ st.known then (.ok ⟨.valid, none⟩, st) else (.ok ⟨.syncing, none⟩, st)
  | .forkchoiceUpdated head (some attrs) _ =>
    if head ∈ st.known then
      (.ok ⟨.valid, some "0x01"⟩, { st with building := some (c.build head st.pool attrs) })
    else (.ok ⟨.syncing, none⟩, st)
  | .getPayload _ _ =>
    match st.building with
    | some built => (.ok built, st)
    | none => (.error ⟨.runtimeError, "Unknown payload"⟩, st)
  | .newPayload params _ =>
    if params.item0.parentHash ∈ st.known then
      if c.executes params then
        (.ok PayloadStatus.valid, { st with known := st.known ++ [params.item0.blockHash] })
      else (.ok PayloadStatus.invalid, st)
    else (.ok PayloadStatus.syncing, st)
  | .build _ _ => (.error ⟨.osError, "unavailable"⟩, st)
  | .sleep _ => (.ok (), st)

/-- The peer answers as the client does, which `runs` finds in its state. -/
def Hosts (el : Peer σ (ChainReply (H := H) (A := A) (V := V))) (runs : σ → State H A V → Prop) :
    Prop :=
  ∀ s st q, (∀ url body, q ≠ .build url body) → runs s st →
    (el.answer s q).1 = (c.answer st q).1 ∧ runs (el.answer s q).2 (c.answer st q).2

/-- The fixture is a chain that the client would make itself: on its genesis, each valid payload
executes, and agrees with what the client builds from the transactions up to it. -/
structure Reproduces (eest : ExecutionTesting H A V) (genesis : Json)
    (fixture : EngineFixture H A V) : Prop where
  payloads : fixture.payloads ≠ []
  genesis : c.genesisHash genesis = fixture.genesisHash
  linked : Linked fixture.genesisHash (validPayloads fixture.payloads)
  executes : ∀ payload ∈ validPayloads fixture.payloads, c.executes payload.params = true
  builds : ∀ pre payload post, validPayloads fixture.payloads = pre ++ payload :: post →
    Agrees eest (c.build payload.expected.parentHash
      ((pre ++ [payload]).flatMap (·.expected.transactions)) (payloadAttributes payload))
      payload.expected

/-! ## The calls -/

section Calls

variable {c} {el : Peer σ (ChainReply (H := H) (A := A) (V := V))} {runs : σ → State H A V → Prop}
  {st : State H A V}

theorem Hosts.call (h : c.Hosts el runs) {q : ChainCall H A V} {a : q.Value} {st' : State H A V}
    (hanswer : c.answer st q = (.ok a, st')) (hq : ∀ url body, q ≠ .build url body) :
    Total (runs · st) (call el q) fun b s => b = a ∧ runs s st' := by
  refine Total.call fun s hs => ?_
  obtain ⟨hreply, hnext⟩ := h s st q hq hs
  rw [hanswer] at hreply hnext
  exact ⟨a, hreply, rfl, hnext⟩

theorem submitMempool_total (h : c.Hosts el runs) (raws : List String) :
    Total (runs · st) (submitMempool el raws) fun _ s =>
      runs s { st with pool := st.pool ++ raws } := by
  induction raws generalizing st with
  | nil =>
      refine Total.pure fun s hs => ?_
      rwa [List.append_nil]
  | cons raw raws ih =>
      have hrest : Total (runs · { st with pool := st.pool ++ [raw] }) (submitMempool el raws)
          fun _ s => runs s { st with pool := st.pool ++ [raw] ++ raws } := ih
      refine (h.call (q := .sendRawTransaction raw) rfl nofun).bind fun _ => ?_
      refine hrest.conseq (fun _ hs => hs.2) fun _ s hs => ?_
      simpa using hs

variable {eest : ExecutionTesting H A V} {hash : FixedBytes H} {addr : FixedBytes A} {drive : Drive}
  {idx : ℕ} {payload : EngineNewPayload H A V}

/-- The block that a client makes for a payload, with the transactions that it has. -/
def blockFor (c : Client H A V) (payload : EngineNewPayload H A V) (pool : List String) :
    ExecutionPayload H A V :=
  c.build payload.expected.parentHash pool (payloadAttributes payload)

theorem buildBlock_total (h : c.Hosts el runs) (hdirect : drive.buildoorBaseUrl = none)
    (hparent : payload.expected.parentHash ∈ st.known) :
    Total (runs · st) (buildBlock el eest hash addr drive idx payload) fun r s =>
      r = .ok (blockFor c payload st.pool) ∧
        runs s { st with building := some (blockFor c payload st.pool) } := by
  have hfcu : c.answer st (.forkchoiceUpdated payload.expected.parentHash
      (some (payloadAttributes payload)) payload.forkchoiceUpdatedVersion) =
        (.ok ⟨.valid, some "0x01"⟩, { st with building := some (blockFor c payload st.pool) }) :=
    if_pos hparent
  unfold buildBlock
  rw [hdirect]
  refine (h.call hfcu nofun).bind_eq ?_
  refine (h.call (q := .sleep drive.payloadBuildTime) rfl nofun).bind fun _ => ?_
  refine Total.bind_eq (J := (runs · { st with building := some (blockFor c payload st.pool) }))
    ((h.call (q := .getPayload "0x01" drive.getPayloadVersion) rfl nofun).conseq
      (fun _ hs => hs.2) fun _ _ => id) ?_
  exact Total.pure fun s hs => ⟨rfl, hs⟩

theorem advance_total (h : c.Hosts el runs) (hparent : payload.expected.parentHash ∈ st.known)
    (hexecutes : c.executes payload.params = true) :
    Total (runs · st) (Runner.advance el eest idx payload) fun r s =>
      r = none ∧ runs s { st with known := st.known ++ [payload.expected.blockHash] } := by
  let after := { st with known := st.known ++ [payload.expected.blockHash] }
  have himport : c.answer st (.newPayload payload.params payload.newPayloadVersion) =
      (.ok PayloadStatus.valid, after) :=
    (if_pos hparent).trans (if_pos hexecutes)
  have hfcu : c.answer after (.forkchoiceUpdated payload.expected.blockHash none
      payload.forkchoiceUpdatedVersion) = (.ok ⟨.valid, none⟩, after) :=
    if_pos (List.mem_append_right _ (List.mem_singleton_self _))
  unfold Runner.advance
  refine (h.call himport nofun).bind_eq ?_
  refine (h.call hfcu nofun).bind_eq ?_
  exact Total.pure fun s hs => ⟨rfl, hs⟩

end Calls

/-! ## The chain -/

section Chain

variable {c} [DecidableEq V] {el : Peer σ (ChainReply (H := H) (A := A) (V := V))}
  {runs : σ → State H A V → Prop} {eest : ExecutionTesting H A V} {hash : FixedBytes H}
  {addr : FixedBytes A} {drive : Drive} {genesis : Json} {fixture : EngineFixture H A V}

/-- The client has seen these payloads, and every block so far has matched. -/
def Behind (runs : σ → State H A V → Prop) (genesisHash : H)
    (pre : List (EngineNewPayload H A V)) (blocks : List BlockResult) (s : σ) : Prop :=
  ∃ st, runs s st ∧ lastHash genesisHash (validPayloads pre) ∈ st.known ∧
    st.pool = (validPayloads pre).flatMap (·.expected.transactions) ∧
    blocks.all BlockResult.matched = true

theorem driveBlock_total (h : c.Hosts el runs) (hdirect : drive.buildoorBaseUrl = none)
    (hfixture : c.Reproduces eest genesis fixture) {pre post : List (EngineNewPayload H A V)}
    {payload : EngineNewPayload H A V} (hsplit : fixture.payloads = pre ++ payload :: post)
    (hvalid : payload.valid = true) (idx : ℕ) (blocks : List BlockResult) :
    Total (Behind runs fixture.genesisHash pre blocks)
      (driveBlock el eest hash addr drive idx payload blocks) fun next s =>
        ∃ blocks', next = .ok blocks' ∧
          Behind runs fixture.genesisHash (pre ++ [payload]) blocks' s := by
  have hsplit' : validPayloads fixture.payloads =
      validPayloads pre ++ payload :: validPayloads post := by
    rw [hsplit, validPayloads_append, validPayloads_cons_of_valid hvalid]
  have hlinked := hfixture.linked
  rw [hsplit'] at hlinked
  have hexecutes : c.executes payload.params = true := by
    apply hfixture.executes
    rw [hsplit']
    exact List.mem_append_right _ List.mem_cons_self
  have hparents := hlinked.parentHash
  have hbuilds := hfixture.builds _ _ _ hsplit'
  rintro w ⟨st, hruns, hknown, hpool, hmatched⟩
  rw [← hparents] at hknown
  have hblock : Total (runs · st) (driveBlock el eest hash addr drive idx payload blocks)
      fun next s => ∃ blocks', next = .ok blocks' ∧
        Behind runs fixture.genesisHash (pre ++ [payload]) blocks' s := by
    let sent : State H A V := { st with pool := st.pool ++ payload.expected.transactions }
    let built := { sent with building := some (blockFor c payload sent.pool) }
    have hbuild : Total (runs · sent) (buildBlock el eest hash addr drive idx payload) _ :=
      buildBlock_total h hdirect hknown
    have hadvance : Total (runs · built) (Runner.advance el eest idx payload) _ :=
      advance_total h hknown hexecutes
    unfold driveBlock
    refine (submitMempool_total h _).bind fun _ => ?_
    refine hbuild.bind_eq ?_
    refine hadvance.bind_eq ?_
    refine Total.pure fun s hs => ⟨_, rfl, _, hs, ?_, ?_, ?_⟩
    · rw [validPayloads_concat_of_valid hvalid, lastHash_concat]
      exact List.mem_append_right _ (List.mem_singleton_self _)
    · rw [validPayloads_concat_of_valid hvalid, List.flatMap_append, ← hpool]
      simp [built, sent]
    · have hagrees : Agrees eest (blockFor c payload (st.pool ++ payload.expected.transactions))
          payload.expected := by
        rw [hpool]
        simpa [blockFor] using hbuilds
      rw [List.all_append, hmatched]
      simpa using blockResult_matched.mpr hagrees
  exact hblock w hruns

theorem driveFrom_total (h : c.Hosts el runs) (hdirect : drive.buildoorBaseUrl = none)
    (hfixture : c.Reproduces eest genesis fixture) {pre payloads : List (EngineNewPayload H A V)}
    (hsplit : fixture.payloads = pre ++ payloads) (idx : ℕ) (blocks : List BlockResult) :
    Total (Behind runs fixture.genesisHash pre blocks)
      (driveFrom el eest hash addr drive idx payloads blocks) fun r _ => r.passed = true := by
  induction payloads generalizing pre idx blocks with
  | nil =>
      refine Total.pure fun s hs => ?_
      obtain ⟨st, -, -, -, hmatched⟩ := hs
      exact hmatched
  | cons payload payloads ih =>
      have hsplit' : fixture.payloads = (pre ++ [payload]) ++ payloads := by
        rw [hsplit, List.append_assoc, List.singleton_append]
      unfold driveFrom
      by_cases hvalid : payload.valid = true
      · rw [hvalid]
        refine (driveBlock_total h hdirect hfixture hsplit hvalid idx blocks).bind fun next => ?_
        rintro w ⟨blocks', rfl, hbehind⟩
        exact ih hsplit' (idx + 1) blocks' w hbehind
      · have hskip : payload.valid = false := Bool.eq_false_iff.mpr hvalid
        rw [hskip]
        refine (ih hsplit' (idx + 1) blocks).conseq (fun s hs => ?_) fun _ _ => id
        unfold Behind
        rw [validPayloads_concat_of_not_valid hskip]
        exact hs

/-- On the client that reproduces it, started on its genesis, a fixture passes. -/
theorem driveChain_total (h : c.Hosts el runs) (hdirect : drive.buildoorBaseUrl = none)
    (hfixture : c.Reproduces eest genesis fixture) :
    Total (runs · (c.boot genesis)) (driveChain el eest hash addr drive fixture) fun r _ =>
      r.passed = true := by
  have hknown : fixture.genesisHash ∈ (c.boot genesis).known := by
    rw [← hfixture.genesis]
    exact List.mem_singleton_self _
  unfold driveChain
  split
  · rename_i hnil
    exact absurd hnil hfixture.payloads
  · rename_i first rest hpayloads
    have hfcu : c.answer (c.boot genesis) (.forkchoiceUpdated fixture.genesisHash none
        first.forkchoiceUpdatedVersion) = (.ok ⟨.valid, none⟩, c.boot genesis) :=
      if_pos hknown
    refine (h.call hfcu nofun).bind_eq ?_
    have hloop : Total (Behind runs fixture.genesisHash [] [])
        (driveFrom el eest hash addr drive 0 fixture.payloads []) fun r _ => r.passed = true :=
      driveFrom_total h hdirect hfixture rfl 0 []
    refine hloop.conseq ?_ fun _ _ => id
    exact fun s hs => ⟨_, hs, hknown, rfl, rfl⟩

end Chain

end Client

end EestReplay
