import EestReplay.Library.Nesting
import EestReplay.Verification.Chain.Semantics

/-! # The faults of a drive

A drive ends in an exception exactly when one of its calls is faulty. When it returns, it
reports an error if one of its calls has failed, and the blocks compared so far. -/

namespace EestReplay.Runner

open Dialogue

variable {σ H A V : Type} {peer : Peer σ (ChainReply (H := H) (A := A) (V := V))}
  {eest : ExecutionTesting H A V} {hash : FixedBytes H} {addr : FixedBytes A} {drive : Drive}

/-- The builder's endpoint gave no payload. -/
def Unbuilt (eest : ExecutionTesting H A V) : BuildReply → Prop
  | .httpError _ _ => True
  | .ok parsed => ∃ e, parseBuilt eest parsed = .error e

/-- A call that ends the drive in an exception. -/
def Faulty (eest : ExecutionTesting H A V) (x : ChainExchange σ H A V) : Prop :=
  match x with
  | ⟨_, .build _ _, .ok reply⟩ => Unbuilt eest reply
  | ⟨_, _, .error _⟩ => True
  | _ => False

/-- A call at which the drive fails, by an exception or with an error in its result. -/
def Fails (eest : ExecutionTesting H A V) (x : ChainExchange σ H A V) : Prop :=
  match x with
  | ⟨_, .forkchoiceUpdated _ (some _) _, .ok reply⟩ =>
    ForkchoiceReply.status reply ≠ .valid ∨ ForkchoiceReply.payloadId reply = none
  | ⟨_, .forkchoiceUpdated _ none _, .ok reply⟩ => ForkchoiceReply.status reply ≠ .valid
  | ⟨_, .newPayload _ _, .ok status⟩ => status ≠ PayloadStatus.valid
  | x => Faulty eest x

/-! ## Exceptions -/

theorem submitMempool_blames (raws : List String) :
    Blames (Faulty eest) (submitMempool peer raws) := by
  induction raws with
  | nil => exact Blames.pure ()
  | cons raw raws ih =>
      apply Blames.bind
      · exact Blames.call fun s r => by cases r <;> simp [Faulty]
      · exact fun _ => ih

/-- What `request_build` does with the body of a reply. -/
theorem readBuilt_eq (parsed : Json) :
    (do
      let executionPayload ← lift (parsed.item "execution_payload")
      lift (eest.modelValidate executionPayload) : Chain σ H A V (ExecutionPayload H A V)) =
      lift (parseBuilt eest parsed) :=
  lift_bind_lift _ _

theorem requestBuild_blames (baseUrl parentHash : String) (payload : EngineNewPayload H A V) :
    Blames (Faulty eest) (requestBuild peer eest hash addr baseUrl parentHash payload) := by
  unfold requestBuild
  apply Blames.call_bind
  · exact fun _ _ => trivial
  · intro s reply hfault
    cases reply with
    | httpError code detail => exact ⟨_, rfl⟩
    | ok parsed =>
        obtain ⟨e, he⟩ : ∃ e, parseBuilt eest parsed = .error e := hfault
        exact ⟨e, (readBuilt_eq parsed).trans (congrArg lift he)⟩
  · intro s reply hfine
    cases reply with
    | httpError code detail => exact absurd trivial hfine
    | ok parsed =>
        dsimp only
        rw [readBuilt_eq]
        cases hparsed : parseBuilt eest parsed with
        | error e => exact absurd ⟨e, hparsed⟩ hfine
        | ok built => exact Blames.pure built

theorem buildBlock_blames (idx : ℕ) (payload : EngineNewPayload H A V) :
    Blames (Faulty eest) (buildBlock peer eest hash addr drive idx payload) := by
  unfold buildBlock
  cases drive.buildoorBaseUrl with
  | some baseUrl =>
      exact Blames.bind (requestBuild_blames _ _ _) fun _ => Blames.pure _
  | none =>
      apply Blames.bind
      · exact Blames.call fun s r => by cases r <;> simp [Faulty]
      · intro fcu
        split
        · exact Blames.pure _
        · split
          · exact Blames.pure _
          · apply Blames.bind
            · exact Blames.call fun s r => by cases r <;> simp [Faulty]
            · intro _
              apply Blames.bind
              · exact Blames.call fun s r => by cases r <;> simp [Faulty]
              · exact fun _ => Blames.pure _

theorem advance_blames (idx : ℕ) (payload : EngineNewPayload H A V) :
    Blames (Faulty eest) (advance peer eest idx payload) := by
  unfold advance
  apply Blames.bind
  · exact Blames.call fun s r => by cases r <;> simp [Faulty]
  · intro status
    split
    · exact Blames.pure _
    · apply Blames.bind
      · exact Blames.call fun s r => by cases r <;> simp [Faulty]
      · intro reply
        split
        · exact Blames.pure _
        · exact Blames.pure _

variable [DecidableEq V]

theorem driveBlock_blames (idx : ℕ) (payload : EngineNewPayload H A V) (blocks : List BlockResult) :
    Blames (Faulty eest) (driveBlock peer eest hash addr drive idx payload blocks) := by
  unfold driveBlock
  apply Blames.bind (submitMempool_blames _)
  intro _
  apply Blames.bind (buildBlock_blames _ _)
  intro build
  cases build with
  | error err => exact Blames.pure _
  | ok built =>
      apply Blames.bind (advance_blames _ _)
      intro failed
      cases failed with
      | some err => exact Blames.pure _
      | none => exact Blames.pure _

theorem driveFrom_blames (idx : ℕ) (payloads : List (EngineNewPayload H A V))
    (blocks : List BlockResult) :
    Blames (Faulty eest) (driveFrom peer eest hash addr drive idx payloads blocks) := by
  induction payloads generalizing idx blocks with
  | nil => exact Blames.pure _
  | cons payload payloads ih =>
      unfold driveFrom
      cases payload.valid with
      | false => exact ih _ _
      | true =>
          apply Blames.bind (driveBlock_blames _ _ _)
          intro next
          cases next with
          | error result => exact Blames.pure _
          | ok blocks => exact ih _ _

/-- A drive ends in an exception exactly when one of its calls is faulty. -/
theorem driveChain_blames {fixture : EngineFixture H A V} (h : fixture.payloads ≠ []) :
    Blames (Faulty eest) (driveChain peer eest hash addr drive fixture) := by
  unfold driveChain
  split
  · rename_i hnil
    exact absurd hnil h
  · apply Blames.bind
    · exact Blames.call fun s r => by cases r <;> simp [Faulty]
    · intro bootstrap
      split
      · exact Blames.pure _
      · exact driveFrom_blames _ _ _

/-! ## Results -/

/-- No call has failed so far, and these payloads were built. -/
structure Fine (eest : ExecutionTesting H A V) (builts : List (ExecutionPayload H A V))
    (log : List (ChainExchange σ H A V)) : Prop where
  fine : ∀ x ∈ log, ¬ Fails eest x
  builts : builtPayloads eest log = builts

section Fine

omit [DecidableEq V]

variable {builts : List (ExecutionPayload H A V)} {log : List (ChainExchange σ H A V)}
  {x : ChainExchange σ H A V} {idx : ℕ} {payload : EngineNewPayload H A V}

theorem builtPayloads_concat (log : List (ChainExchange σ H A V)) (x : ChainExchange σ H A V) :
    builtPayloads eest (log ++ [x]) = builtPayloads eest log ++ (builtOf eest x).toList := by
  rw [builtPayloads_append]
  cases hq : builtOf eest x <;> simp [builtPayloads, hq]

theorem Fine.concat (h : Fine eest builts log) (hx : ¬ Fails eest x) :
    Fine eest (builts ++ (builtOf eest x).toList) (log ++ [x]) where
  fine := by
    intro y hy
    rcases List.mem_append.mp hy with hy | hy
    · exact h.fine y hy
    · rw [List.mem_singleton.mp hy]
      exact hx
  builts := by
    rw [builtPayloads_concat, h.builts]

/-- A call that builds nothing. -/
theorem Fine.quiet (h : Fine eest builts log) (hx : ¬ Fails eest x) (hbuilt : builtOf eest x = none) :
    Fine eest builts (log ++ [x]) := by
  simpa [hbuilt] using h.concat hx

/-- An exchange that gives no payload leaves what was built, whether it fails or not. -/
theorem Fine.builts_concat (h : Fine eest builts log) (hbuilt : builtOf eest x = none) :
    builtPayloads eest (log ++ [x]) = builts := by
  rw [builtPayloads_concat, hbuilt, h.builts]
  exact List.append_nil builts

theorem submitMempool_fine (raws : List String) :
    Triple (fun w => Fine eest builts w.log) (submitMempool peer raws)
      (fun _ w => Fine eest builts w.log) (fun _ _ => True) := by
  induction raws with
  | nil => exact Triple.pure fun _ hw => hw
  | cons raw raws ih =>
      apply Triple.bind (S := fun _ w => Fine eest builts w.log)
      · apply Triple.call
        · intro w a hw hreply
          rw [World.step_log, hreply]
          exact hw.quiet id rfl
        · exact fun _ _ _ _ => trivial
      · exact fun _ => ih

theorem requestBuild_fine (baseUrl parentHash : String) :
    Triple (fun w => Fine eest builts w.log)
      (requestBuild peer eest hash addr baseUrl parentHash payload)
      (fun built w => Fine eest (builts ++ [built]) w.log) (fun _ _ => True) := by
  unfold requestBuild
  apply Triple.bind (Triple.call_last (P := Fine eest builts))
  intro reply
  cases reply with
  | httpError code detail => exact Triple.throw fun _ _ => trivial
  | ok parsed =>
      dsimp only
      rw [readBuilt_eq]
      apply Triple.lift
      · rintro built w hparsed ⟨past, s, hlog, hfine⟩
        have hparsed : parseBuilt eest parsed = .ok built := hparsed
        have hnot : ¬ Fails eest (⟨s, .build baseUrl (Buildoor.requestBody hash addr parentHash payload),
            .ok (.ok parsed)⟩ : ChainExchange σ H A V) := by
          rintro ⟨e, he⟩
          rw [hparsed] at he
          cases he
        have hmore := hfine.concat hnot
        rw [hlog]
        simpa [builtOf, hparsed, Except.toOption] using hmore
      · exact fun _ _ _ _ => trivial

/-- A build adds one payload, or ends the run without one. -/
theorem buildBlock_fine :
    Triple (fun w => Fine eest builts w.log) (buildBlock peer eest hash addr drive idx payload)
      (fun build w =>
        match build with
        | .ok built => Fine eest (builts ++ [built]) w.log
        | .error _ => builtPayloads eest w.log = builts)
      (fun _ _ => True) := by
  unfold buildBlock
  cases drive.buildoorBaseUrl with
  | some baseUrl =>
      apply Triple.bind (requestBuild_fine _ _)
      exact fun built => Triple.pure fun _ hw => hw
  | none =>
      apply Triple.bind (Triple.call_last (P := Fine eest builts))
      intro reply
      split
      · apply Triple.pure
        rintro w ⟨past, s, hlog, hfine⟩
        show builtPayloads eest w.log = builts
        rw [hlog]
        exact hfine.builts_concat rfl
      · rename_i hstatus
        split
        · apply Triple.pure
          rintro w ⟨past, s, hlog, hfine⟩
          show builtPayloads eest w.log = builts
          rw [hlog]
          exact hfine.builts_concat rfl
        · rename_i payloadId hid
          apply Triple.bind (S := fun _ w => Fine eest builts w.log)
          · apply Triple.call
            · rintro w a ⟨past, s, hlog, hfine⟩ hreply
              rw [World.step_log, hreply, hlog]
              refine (hfine.quiet ?_ rfl).quiet id rfl
              rintro (hfail | hfail)
              · exact hstatus hfail
              · rw [hid] at hfail
                cases hfail
            · exact fun _ _ _ _ => trivial
          · intro _
            apply Triple.bind (Triple.call_last (P := Fine eest builts))
            intro (built : ExecutionPayload H A V)
            apply Triple.pure
            rintro w ⟨past, s, hlog, hfine⟩
            show Fine eest (builts ++ [built]) w.log
            rw [hlog]
            exact hfine.concat (x := ⟨s, .getPayload payloadId drive.getPayloadVersion, .ok built⟩) id

/-- The advance builds nothing, and returns no error when both of its calls are fine. -/
theorem advance_fine :
    Triple (fun w => Fine eest builts w.log) (advance peer eest idx payload)
      (fun failed w =>
        match failed with
        | none => Fine eest builts w.log
        | some _ => builtPayloads eest w.log = builts)
      (fun _ _ => True) := by
  unfold advance
  apply Triple.bind (Triple.call_last (P := Fine eest builts))
  intro status
  split
  · apply Triple.pure
    rintro w ⟨past, s, hlog, hfine⟩
    show builtPayloads eest w.log = builts
    rw [hlog]
    exact hfine.builts_concat rfl
  · rename_i hstatus
    apply Triple.bind (S := fun reply w => ∃ past s, w.log = past ++
      [⟨s, .forkchoiceUpdated payload.expected.blockHash none payload.forkchoiceUpdatedVersion,
        .ok reply⟩] ∧ Fine eest builts past)
    · apply Triple.call
      · rintro w reply ⟨past, s, hlog, hfine⟩ hreply
        refine ⟨w.log, w.state, by rw [World.step_log, hreply], ?_⟩
        rw [hlog]
        exact hfine.quiet (fun h => hstatus h) rfl
      · exact fun _ _ _ _ => trivial
    · intro reply
      split
      · apply Triple.pure
        rintro w ⟨past, s, hlog, hfine⟩
        show builtPayloads eest w.log = builts
        rw [hlog]
        exact hfine.builts_concat rfl
      · rename_i hreply
        apply Triple.pure
        rintro w ⟨past, s, hlog, hfine⟩
        show Fine eest builts w.log
        rw [hlog]
        exact hfine.quiet (fun h => hreply h) rfl

end Fine

/-- The results of the comparisons of what was built, in order. -/
def compared (eest : ExecutionTesting H A V) (payloads : List (EngineNewPayload H A V))
    (builts : List (ExecutionPayload H A V)) : List BlockResult :=
  List.zipWith (fun payload built => blockResult eest built payload.expected)
    (validPayloads payloads) builts

/-- Payloads behind the last one that was built for do not count. -/
theorem compared_append {pre : List (EngineNewPayload H A V)}
    {builts : List (ExecutionPayload H A V)} (post : List (EngineNewPayload H A V))
    (h : builts.length = (validPayloads pre).length) :
    compared eest (pre ++ post) builts = compared eest pre builts := by
  unfold compared
  rw [validPayloads_append]
  let entry (payload : EngineNewPayload H A V) (built : ExecutionPayload H A V) : BlockResult :=
    blockResult eest built payload.expected
  have hsplit : List.zipWith entry (validPayloads pre ++ validPayloads post) (builts ++ []) =
      List.zipWith entry (validPayloads pre) builts ++ List.zipWith entry (validPayloads post) [] :=
    List.zipWith_append h.symm
  simpa using hsplit

theorem compared_concat {pre : List (EngineNewPayload H A V)} {payload : EngineNewPayload H A V}
    {builts : List (ExecutionPayload H A V)} (hvalid : payload.valid = true)
    (h : builts.length = (validPayloads pre).length) (built : ExecutionPayload H A V) :
    compared eest (pre ++ [payload]) (builts ++ [built]) =
      compared eest pre builts ++ [blockResult eest built payload.expected] := by
  unfold compared
  rw [validPayloads_concat_of_valid hvalid, List.zipWith_append h.symm]
  rfl

/-- A result shows every comparison, and it has an error when a call has failed. -/
structure Reported (eest : ExecutionTesting H A V) (fixture : EngineFixture H A V)
    (r : FixtureResult) (log : List (ChainExchange σ H A V)) : Prop where
  blocks : r.blocks = compared eest fixture.payloads (builtPayloads eest log)
  fine : r.error = none → ∀ x ∈ log, ¬ Fails eest x

/-- The payloads `pre` are behind the loop, and what was built for them is compared. -/
def Settled (eest : ExecutionTesting H A V) (pre : List (EngineNewPayload H A V))
    (blocks : List BlockResult) (w : ChainWorld σ H A V) : Prop :=
  ∃ builts, Fine eest builts w.log ∧ builts.length = (validPayloads pre).length ∧
    blocks = compared eest pre builts

theorem driveBlock_reported {fixture : EngineFixture H A V}
    {pre post : List (EngineNewPayload H A V)} {payload : EngineNewPayload H A V}
    {blocks : List BlockResult} (hsplit : fixture.payloads = pre ++ payload :: post)
    (hvalid : payload.valid = true) :
    Triple (Settled eest pre blocks)
      (driveBlock peer eest hash addr drive pre.length payload blocks)
      (Ends (fun r w => Reported eest fixture r w.log) (Settled eest (pre ++ [payload])))
      (fun _ _ => True) := by
  suffices h : ∀ builts, builts.length = (validPayloads pre).length →
      blocks = compared eest pre builts →
      Triple (fun w => Fine eest builts w.log)
        (driveBlock peer eest hash addr drive pre.length payload blocks)
        (Ends (fun r w => Reported eest fixture r w.log) (Settled eest (pre ++ [payload])))
        (fun _ _ => True) by
    rintro w ⟨builts, hfine, hlength, hblocks⟩
    exact h builts hlength hblocks w hfine
  intro builts hlength hblocks
  unfold driveBlock
  apply Triple.bind (submitMempool_fine _)
  intro _
  apply Triple.bind buildBlock_fine
  intro build
  cases build with
  | error err =>
      apply Triple.pure
      intro w hbuilts
      have hbuilts : builtPayloads eest w.log = builts := hbuilts
      refine ⟨?_, fun h => by simp at h⟩
      rw [hbuilts, hsplit, compared_append _ hlength, hblocks]
  | ok built =>
      have hmore : (builts ++ [built]).length = (validPayloads (pre ++ [payload])).length := by
        rw [validPayloads_concat_of_valid hvalid, List.length_append, List.length_append, hlength]
        rfl
      have hblock : blocks ++ [blockResult eest built payload.expected] =
          compared eest (pre ++ [payload]) (builts ++ [built]) := by
        rw [compared_concat hvalid hlength, hblocks]
      apply Triple.bind advance_fine
      intro failed
      cases failed with
      | some err =>
          apply Triple.pure
          intro w hbuilts
          have hbuilts : builtPayloads eest w.log = builts ++ [built] := hbuilts
          have hsplit' : fixture.payloads = (pre ++ [payload]) ++ post := by simp [hsplit]
          refine ⟨?_, fun h => by simp at h⟩
          rw [hbuilts, hsplit', compared_append _ hmore, ← hblock]
      | none => exact Triple.pure fun w hfine => ⟨builts ++ [built], hfine, hmore, hblock⟩

/-- A drive that returns reports what it has compared, and an error when it has failed. -/
theorem driveChain_reported {fixture : EngineFixture H A V} :
    Triple (fun w => w.log = []) (driveChain peer eest hash addr drive fixture)
      (fun r w => Reported eest fixture r w.log) (fun _ _ => True) := by
  unfold driveChain
  split
  · exact Triple.throw fun _ _ => trivial
  · rename_i first rest hpayloads
    apply Triple.bind (Triple.call_last (P := fun log => log = []))
    intro reply
    split
    · apply Triple.pure
      rintro w ⟨past, s, hlog, rfl⟩
      refine ⟨?_, fun h => by simp at h⟩
      rw [hlog]
      exact (List.zipWith_nil_right).symm
    · rename_i hstatus
      have hloop : Triple (Settled eest [] [])
          (driveFrom peer eest hash addr drive 0 fixture.payloads [])
          (fun r w => Reported eest fixture r w.log) (fun _ _ => True) := by
        apply driveFrom_rule (I := Settled eest) ?_ ?_ ?_ fixture.payloads [] [] rfl
        · rintro blocks w ⟨builts, hfine, -, hblocks⟩
          refine ⟨?_, fun _ => hfine.fine⟩
          rw [hfine.builts]
          exact hblocks
        · rintro pre payload post blocks w - hvalid ⟨builts, hfine, hlength, hblocks⟩
          refine ⟨builts, hfine, ?_, ?_⟩
          · rw [validPayloads_concat_of_not_valid hvalid, hlength]
          · rw [compared_append _ hlength, hblocks]
        · exact fun pre payload post blocks => driveBlock_reported
      apply hloop.pre
      rintro w ⟨past, s, hlog, rfl⟩
      have hempty : Fine eest [] ([] : List (ChainExchange σ H A V)) := ⟨by simp, rfl⟩
      refine ⟨[], ?_, rfl, rfl⟩
      rw [hlog]
      exact hempty.quiet (fun h => hstatus h) rfl

end EestReplay.Runner
