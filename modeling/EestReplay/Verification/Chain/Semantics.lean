import EestReplay.Model.Runner

/-! # The log of a replay

What the calls of a replay say about the chain: which blocks were imported, where the head
was sent, what was built, what the mempool got, and whether all of it was acknowledged. -/

namespace EestReplay.Runner

open Dialogue

variable {σ H A V : Type}

abbrev ChainWorld (σ H A V : Type) : Type := World σ (ChainReply (H := H) (A := A) (V := V))

abbrev ChainExchange (σ H A V : Type) : Type :=
  Exchange σ (ChainReply (H := H) (A := A) (V := V))

/-! ## One call -/

/-- The block that a call imports, with the version of the call. -/
def importOf (x : ChainExchange σ H A V) : Option (NewPayloadParams H A V × ℕ) :=
  match x.query with
  | .newPayload params version => some (params, version)
  | _ => none

/-- The head that a call sets without asking for a build. -/
def headOf (x : ChainExchange σ H A V) : Option H :=
  match x.query with
  | .forkchoiceUpdated head none _ => some head
  | _ => none

/-- The transaction that a call hands to the mempool. -/
def transactionOf (x : ChainExchange σ H A V) : Option String :=
  match x.query with
  | .sendRawTransaction raw => some raw
  | _ => none

/-- The payload in the reply of the builder's endpoint. -/
def parseBuilt (eest : ExecutionTesting H A V) (parsed : Json) :
    Except PyError (ExecutionPayload H A V) := do
  let executionPayload ← parsed.item "execution_payload"
  eest.modelValidate executionPayload

/-- The payload that a call returned as built. -/
def builtOf (eest : ExecutionTesting H A V) (x : ChainExchange σ H A V) :
    Option (ExecutionPayload H A V) :=
  match x with
  | ⟨_, .getPayload _ _, .ok built⟩ => some built
  | ⟨_, .build _ _, .ok (.ok parsed)⟩ => (parseBuilt eest parsed).toOption
  | _ => none

/-- An import or a fork choice was answered VALID. -/
def Acknowledged (x : ChainExchange σ H A V) : Prop :=
  match x with
  | ⟨_, .forkchoiceUpdated _ _ _, .ok reply⟩ => ForkchoiceReply.status reply = .valid
  | ⟨_, .forkchoiceUpdated _ _ _, .error _⟩ => False
  | ⟨_, .newPayload _ _, .ok status⟩ => status = PayloadStatus.valid
  | ⟨_, .newPayload _ _, .error _⟩ => False
  | _ => True

/-! ## A log -/

def imported (log : List (ChainExchange σ H A V)) : List (NewPayloadParams H A V × ℕ) :=
  log.filterMap importOf

def advanced (log : List (ChainExchange σ H A V)) : List H := log.filterMap headOf

def mempool (log : List (ChainExchange σ H A V)) : List String := log.filterMap transactionOf

def builtPayloads (eest : ExecutionTesting H A V) (log : List (ChainExchange σ H A V)) :
    List (ExecutionPayload H A V) :=
  log.filterMap (builtOf eest)

@[simp] theorem imported_append (l m : List (ChainExchange σ H A V)) :
    imported (l ++ m) = imported l ++ imported m :=
  List.filterMap_append

@[simp] theorem advanced_append (l m : List (ChainExchange σ H A V)) :
    advanced (l ++ m) = advanced l ++ advanced m :=
  List.filterMap_append

@[simp] theorem mempool_append (l m : List (ChainExchange σ H A V)) :
    mempool (l ++ m) = mempool l ++ mempool m :=
  List.filterMap_append

@[simp] theorem builtPayloads_append (eest : ExecutionTesting H A V)
    (l m : List (ChainExchange σ H A V)) :
    builtPayloads eest (l ++ m) = builtPayloads eest l ++ builtPayloads eest m :=
  List.filterMap_append

/-! ## The fixture -/

/-- The payloads that the driver does not skip. -/
def validPayloads (payloads : List (EngineNewPayload H A V)) : List (EngineNewPayload H A V) :=
  payloads.filter (·.valid)

@[simp] theorem validPayloads_append (l m : List (EngineNewPayload H A V)) :
    validPayloads (l ++ m) = validPayloads l ++ validPayloads m :=
  List.filter_append l m

theorem validPayloads_cons_of_valid {payload : EngineNewPayload H A V} (h : payload.valid = true)
    (payloads : List (EngineNewPayload H A V)) :
    validPayloads (payload :: payloads) = payload :: validPayloads payloads :=
  List.filter_cons_of_pos h

theorem validPayloads_concat_of_valid {payload : EngineNewPayload H A V}
    (h : payload.valid = true) (payloads : List (EngineNewPayload H A V)) :
    validPayloads (payloads ++ [payload]) = validPayloads payloads ++ [payload] := by
  rw [validPayloads_append, validPayloads_cons_of_valid h]
  rfl

theorem validPayloads_concat_of_not_valid {payload : EngineNewPayload H A V}
    (h : payload.valid = false) (payloads : List (EngineNewPayload H A V)) :
    validPayloads (payloads ++ [payload]) = validPayloads payloads := by
  simp [validPayloads, h]

/-- The call that imports a payload. -/
def importCall (payload : EngineNewPayload H A V) : NewPayloadParams H A V × ℕ :=
  (payload.params, payload.newPayloadVersion)

/-- Two payloads agree on every field that the builder does not pick. -/
def Agrees (eest : ExecutionTesting H A V) (built expected : ExecutionPayload H A V) : Prop :=
  ∀ field ∈ eest.modelFields, field ∉ builderPickedFields →
    built.getattr field = expected.getattr field

theorem diffFields_eq_nil [DecidableEq V] {eest : ExecutionTesting H A V}
    {built expected : ExecutionPayload H A V} {fields : List String} :
    diffFields eest built expected fields = [] ↔
      ∀ field ∈ fields, field ∉ builderPickedFields →
        built.getattr field = expected.getattr field := by
  induction fields with
  | nil => simp [diffFields]
  | cons field fields ih =>
      unfold diffFields
      by_cases hpicked : field ∈ builderPickedFields
      · simp [hpicked, ih]
      · by_cases heq : built.getattr field = expected.getattr field
        · simp [hpicked, heq, ih]
        · simp [hpicked, heq]

/-- An entry is matched exactly when the built payload agrees with the expected one. -/
theorem blockResult_matched [DecidableEq V] {eest : ExecutionTesting H A V}
    {built expected : ExecutionPayload H A V} :
    (blockResult eest built expected).matched = true ↔ Agrees eest built expected := by
  unfold blockResult diffPayload Agrees
  rw [← diffFields_eq_nil]
  exact List.isEmpty_iff

/-! ## The loop -/

section Loop

variable [DecidableEq V] {peer : Peer σ (ChainReply (H := H) (A := A) (V := V))}
  {eest : ExecutionTesting H A V} {hash : FixedBytes H} {addr : FixedBytes A} {drive : Drive}
  {all : List (EngineNewPayload H A V)}
  {I : List (EngineNewPayload H A V) → List BlockResult → ChainWorld σ H A V → Prop}
  {S : FixtureResult → ChainWorld σ H A V → Prop} {E : PyError → ChainWorld σ H A V → Prop}

/-- What the body of the loop leaves: the end of the run, or entries to go on with. -/
def Ends (S : FixtureResult → ChainWorld σ H A V → Prop)
    (I : List BlockResult → ChainWorld σ H A V → Prop) :
    Except FixtureResult (List BlockResult) → ChainWorld σ H A V → Prop
  | .error result => S result
  | .ok blocks => I blocks

/-- The rule of the loop. `I pre blocks` holds when the payloads `pre` are behind it. -/
theorem driveFrom_rule
    (hdone : ∀ blocks w, I all blocks w → S { testId := drive.testId, blocks := blocks } w)
    (hskip : ∀ pre payload post blocks w, all = pre ++ payload :: post → payload.valid = false →
      I pre blocks w → I (pre ++ [payload]) blocks w)
    (hblock : ∀ pre payload post blocks, all = pre ++ payload :: post → payload.valid = true →
      Triple (I pre blocks) (driveBlock peer eest hash addr drive pre.length payload blocks)
        (Ends S (I (pre ++ [payload]))) E)
    (payloads pre : List (EngineNewPayload H A V)) (blocks : List BlockResult)
    (hsplit : all = pre ++ payloads) :
    Triple (I pre blocks) (driveFrom peer eest hash addr drive pre.length payloads blocks) S E := by
  induction payloads generalizing pre blocks with
  | nil =>
      rw [List.append_nil] at hsplit
      subst hsplit
      exact Triple.pure (hdone blocks)
  | cons payload payloads ih =>
      have hnext : all = (pre ++ [payload]) ++ payloads := by simp [hsplit]
      have hrest : ∀ blocks, Triple (I (pre ++ [payload]) blocks)
          (driveFrom peer eest hash addr drive (pre.length + 1) payloads blocks) S E := by
        intro blocks
        have hloop := ih (pre ++ [payload]) blocks hnext
        rwa [List.length_append] at hloop
      unfold driveFrom
      cases hvalid : payload.valid with
      | false => exact (hrest blocks).pre fun w => hskip pre payload payloads blocks w hsplit hvalid
      | true =>
          apply Triple.bind (hblock pre payload payloads blocks hsplit hvalid)
          intro next
          cases next with
          | error result => exact Triple.pure fun _ hw => hw
          | ok blocks => exact hrest blocks

end Loop

end EestReplay.Runner
