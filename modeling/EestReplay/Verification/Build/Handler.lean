import EestReplay.Model.Handler
import EestReplay.Verification.Build.Grammar

/-! # What the build endpoint answers

A request whose numbers can all be read asks the engine for its block; any other one is
refused for the first number that cannot be read, and asks nothing. -/

namespace EestReplay.Simbuild

open Dialogue

/-! ## The first illegible numeral -/

/-- The error names the first field whose numeral is illegible. -/
def FirstIllegible (named : List (String × String)) (e : AttributesError) : Prop :=
  ∃ before s after, named = before ++ (e.field, s) :: after ∧
    (∀ x ∈ before, Legible x.2) ∧ ¬ Legible s ∧ e.cause.num = trimHex s

theorem FirstIllegible.append {named : List (String × String)} {e : AttributesError}
    (h : FirstIllegible named e) (more : List (String × String)) :
    FirstIllegible (named ++ more) e := by
  obtain ⟨before, s, after, rfl, hbefore, hs, hnum⟩ := h
  exact ⟨before, s, after ++ more, by simp, hbefore, hs, hnum⟩

theorem FirstIllegible.behind {named : List (String × String)} {e : AttributesError}
    (h : FirstIllegible named e) {front : List (String × String)}
    (hfront : ∀ x ∈ front, Legible x.2) : FirstIllegible (front ++ named) e := by
  obtain ⟨before, s, after, rfl, hbefore, hs, hnum⟩ := h
  exact ⟨front ++ before, s, after, by simp, List.forall_mem_append.mpr ⟨hfront, hbefore⟩, hs, hnum⟩

/-- A parser of named numerals: it returns what meets `P` when all are legible, and the error
of the first one that is not. -/
inductive Parses {α : Type} (named : List (String × String)) (P : α → Prop) :
    Except AttributesError α → Prop where
  | ok (a : α) (h : ∀ x ∈ named, Legible x.2) (ha : P a) : Parses named P (.ok a)
  | error (e : AttributesError) (h : FirstIllegible named e) : Parses named P (.error e)

theorem Parses.bind {α β : Type} {named more : List (String × String)} {P : α → Prop} {Q : β → Prop}
    {r : Except AttributesError α} {f : α → Except AttributesError β} (hr : Parses named P r)
    (hf : ∀ a, P a → Parses more Q (f a)) : Parses (named ++ more) Q (r >>= f) := by
  cases hr with
  | error e h => exact .error e (h.append more)
  | ok a h ha =>
      show Parses (named ++ more) Q (f a)
      have hmore := hf a ha
      generalize f a = q at hmore
      cases hmore with
      | error e he => exact .error e (he.behind h)
      | ok b hb hq => exact .ok b (List.forall_mem_append.mpr ⟨h, hb⟩) hq

theorem Parses.map {α β : Type} {named : List (String × String)} {P : α → Prop} {Q : β → Prop}
    {r : Except AttributesError α} {f : α → β} (hr : Parses named P r) (hf : ∀ a, P a → Q (f a)) :
    Parses named Q (r >>= fun a => .ok (f a)) := by
  cases hr with
  | error e h => exact .error e h
  | ok a h ha => exact .ok (f a) h (hf a ha)

/-- Every error of the parser repeats the numeral without its mark. -/
theorem parseHexU64_eq_error {s : String} {e : NumError} (h : parseHexU64 s = .error e) :
    e.num = trimHex s := by
  unfold parseHexU64 at h
  split at h
  · cases h
  · split at h
    · cases h
    · rename_i htrim
      rw [parseUint, if_neg htrim] at h
      cases hloop : parseUintLoop 0 (trimHex s).toList with
      | ok n =>
          rw [hloop] at h
          cases h
      | error err =>
          rw [hloop] at h
          cases h
          rfl

theorem parses_number (field s : String) :
    Parses [(field, s)] (fun n => Denotes s n.toNat) (number field s) := by
  unfold number
  cases hs : parseHexU64 s with
  | ok n =>
      have hlegible : Legible s := accepts_parseHexU64.mp ⟨n, hs⟩
      exact .ok n (by simpa using hlegible) ((parseHexU64_eq_ok hlegible.1 hlegible.2.1).mp hs)
  | error e =>
      have hillegible : ¬ Legible s := by
        intro hlegible
        obtain ⟨n, hn⟩ := accepts_parseHexU64.mpr hlegible
        rw [hs] at hn
        cases hn
      exact .error ⟨field, e⟩ ⟨[], s, [], rfl, by simp, hillegible, parseHexU64_eq_error hs⟩

/-! ## The attributes -/

/-- The numerals of a withdrawal, in the order in which they are read. -/
def BuildWithdrawal.named (i : ℕ) (w : BuildWithdrawal) : List (String × String) :=
  [("withdrawals[" ++ toString i ++ "].index", w.index),
    ("withdrawals[" ++ toString i ++ "].validator_index", w.validatorIndex),
    ("withdrawals[" ++ toString i ++ "].amount", w.amount)]

def namedFrom : ℕ → List BuildWithdrawal → List (String × String)
  | _, [] => []
  | i, w :: ws => w.named i ++ namedFrom (i + 1) ws

def BuildRequest.named (r : BuildRequest) : List (String × String) :=
  [("timestamp", r.timestamp), ("slot_number", r.slotNumber),
    ("target_gas_limit", r.targetGasLimit)] ++ namedFrom 0 r.withdrawals

section

variable {H A : Type} (hash : FixedBytes H) (addr : FixedBytes A)

/-- The withdrawal is the one that the strings of the request denote. -/
structure StandsFor (w : BuildWithdrawal) (out : EngineWithdrawal A) : Prop where
  index : Denotes w.index out.index.toNat
  validator : Denotes w.validatorIndex out.validator.toNat
  address : out.address = addr.ofHex w.address
  amount : Denotes w.amount out.amount.toNat

/-- The attributes are those that the strings of the request denote. -/
structure Stands (r : BuildRequest) (attrs : EngineAttributes H A) : Prop where
  timestamp : Denotes r.timestamp attrs.timestamp.toNat
  prevRandao : attrs.prevRandao = hash.ofHex r.prevRandao
  suggestedFeeRecipient : attrs.suggestedFeeRecipient = addr.ofHex r.suggestedFeeRecipient
  withdrawals : List.Forall₂ (StandsFor addr) r.withdrawals attrs.withdrawals
  slotNumber : Denotes r.slotNumber attrs.slotNumber.toNat
  targetGasLimit : Denotes r.targetGasLimit attrs.targetGasLimit.toNat
  parentBeaconBlockRoot : attrs.parentBeaconBlockRoot =
    if r.parentBeaconBlockRoot ≠ "" then some (hash.ofHex r.parentBeaconBlockRoot) else none

theorem parses_toWithdrawal (i : ℕ) (w : BuildWithdrawal) :
    Parses (w.named i) (StandsFor addr w) (toWithdrawal addr i w) := by
  refine (parses_number _ w.index).bind fun index hindex => ?_
  refine (parses_number _ w.validatorIndex).bind fun validator hvalidator => ?_
  refine (parses_number _ w.amount).map fun amount hamount => ?_
  exact ⟨hindex, hvalidator, rfl, hamount⟩

theorem parses_toWithdrawals (i : ℕ) (ws : List BuildWithdrawal) :
    Parses (namedFrom i ws) (List.Forall₂ (StandsFor addr) ws) (toWithdrawals addr i ws) := by
  induction ws generalizing i with
  | nil => exact .ok [] (by simp [namedFrom]) .nil
  | cons w ws ih =>
      refine (parses_toWithdrawal addr i w).bind fun withdrawal hwithdrawal => ?_
      exact (ih (i + 1)).map fun withdrawals hwithdrawals => .cons hwithdrawal hwithdrawals

theorem parses_toAttributes (r : BuildRequest) :
    Parses r.named (Stands hash addr r) (r.toAttributes hash addr) := by
  refine (parses_number _ r.timestamp).bind fun timestamp htime => ?_
  refine (parses_number _ r.slotNumber).bind fun slotNumber hslot => ?_
  refine (parses_number _ r.targetGasLimit).bind fun targetGasLimit htarget => ?_
  refine (parses_toWithdrawals addr 0 r.withdrawals).map fun withdrawals hwithdrawals => ?_
  exact ⟨htime, rfl, rfl, hwithdrawals, hslot, htarget, rfl⟩

/-! ## The handler -/

variable {σ : Type} (packages : Packages H)
  (engine : Peer σ (EngineCall.Reply (H := H) (A := A))) (buildWait : ℕ)

/-- The conversation with the engine about a block: what is asked, and the answer to the
client. The payload is asked for by the id that the engine gave. -/
inductive Converses (parent : H) (attrs : EngineAttributes H A) :
    List (Exchange σ (EngineCall.Reply (H := H) (A := A))) → Except HttpError BuildResponse →
      Prop where
  | notRequested (s : σ) (err : String) : Converses parent attrs
      [⟨s, .requestPayloadBuild parent parent parent attrs, .error err⟩]
      (.error ⟨"RequestPayloadBuild: " ++ err, 500⟩)
  | notGot (s s' s'' : σ) (payloadID err : String) : Converses parent attrs
      [⟨s, .requestPayloadBuild parent parent parent attrs, .ok payloadID⟩,
        ⟨s', .sleep buildWait, ()⟩, ⟨s'', .getPayloadRaw payloadID, .error err⟩]
      (.error ⟨"GetPayloadRaw: " ++ err, 500⟩)
  | got (s s' s'' : σ) (payloadID : String) (result : PayloadResult) : Converses parent attrs
      [⟨s, .requestPayloadBuild parent parent parent attrs, .ok payloadID⟩,
        ⟨s', .sleep buildWait, ()⟩, ⟨s'', .getPayloadRaw payloadID, .ok result⟩]
      (respond packages hash attrs result)

/-- What is answered to a request, and what the engine is asked for it. -/
inductive Answers (method : String) (body : Except String Json) :
    List (Exchange σ (EngineCall.Reply (H := H) (A := A))) → Except HttpError BuildResponse →
      Prop where
  | notAllowed (h : method ≠ "POST") : Answers method body [] (.error ⟨"method not allowed", 405⟩)
  | malformed (err : String) (h : body = .error err) :
      Answers method body [] (.error ⟨"decode body: " ++ err, 400⟩)
  | undecoded (value : Json) (e : DecodeError) (hbody : body = .ok value)
      (h : decode value = .error e) :
      Answers method body [] (.error ⟨"decode body: " ++ e.error, 400⟩)
  | illegible (value : Json) (r : BuildRequest) (e : AttributesError) (hbody : body = .ok value)
      (hdecode : decode value = .ok r) (h : FirstIllegible r.named e) :
      Answers method body [] (.error ⟨"invalid attrs: " ++ e.error packages, 400⟩)
  | asks (value : Json) (r : BuildRequest) (attrs : EngineAttributes H A)
      (new : List (Exchange σ (EngineCall.Reply (H := H) (A := A))))
      (result : Except HttpError BuildResponse) (hbody : body = .ok value)
      (hdecode : decode value = .ok r) (hlegible : ∀ x ∈ r.named, Legible x.2)
      (hattrs : Stands hash addr r attrs)
      (hconverses : Converses hash packages buildWait (hash.ofHex r.parentHash) attrs new result) :
      Answers method body new result

theorem requestPayloadBuild_apply (parent : H) (attrs : EngineAttributes H A)
    (w : World σ (EngineCall.Reply (H := H) (A := A))) :
    requestPayloadBuild engine parent attrs w =
      (attempt "RequestPayloadBuild"
          (engine.answer w.state (.requestPayloadBuild parent parent parent attrs)).1,
        w.step engine (.requestPayloadBuild parent parent parent attrs)) :=
  lift_apply _ _

theorem getPayloadRaw_apply (payloadID : String)
    (w : World σ (EngineCall.Reply (H := H) (A := A))) :
    getPayloadRaw engine payloadID w =
      (attempt "GetPayloadRaw" (engine.answer w.state (.getPayloadRaw payloadID)).1,
        w.step engine (.getPayloadRaw payloadID)) :=
  lift_apply _ _

theorem buildPayload_converses (parent : H) (attrs : EngineAttributes H A)
    (w : World σ (EngineCall.Reply (H := H) (A := A))) :
    ∃ new, (buildPayload packages hash engine buildWait parent attrs w).2.log = w.log ++ new ∧
      Converses hash packages buildWait parent attrs new
        (buildPayload packages hash engine buildWait parent attrs w).1 := by
  obtain ⟨requested, hrequested⟩ : ∃ requested : Except String String,
      (engine.answer w.state (.requestPayloadBuild parent parent parent attrs)).1 = requested :=
    ⟨_, rfl⟩
  have hrequest := requestPayloadBuild_apply engine parent attrs w
  rw [hrequested] at hrequest
  unfold buildPayload
  cases requested with
  | error err =>
      rw [bind_of_error hrequest]
      refine ⟨_, ?_, .notRequested w.state err⟩
      rw [World.step_log, hrequested]
  | ok payloadID =>
      rw [bind_of_ok hrequest]
      let u := w.step engine (.requestPayloadBuild parent parent parent attrs)
      let v := u.step engine (.sleep buildWait)
      have hslept : sleep engine buildWait u = (.ok (), v) := rfl
      have hv : v.log = w.log ++
          [⟨w.state, .requestPayloadBuild parent parent parent attrs, .ok payloadID⟩,
            ⟨u.state, .sleep buildWait, ()⟩] := by
        rw [World.step_log, World.step_log, hrequested, List.append_assoc]
        rfl
      obtain ⟨got, hgot⟩ : ∃ got : Except String PayloadResult,
        (engine.answer v.state (.getPayloadRaw payloadID)).1 = got := ⟨_, rfl⟩
      have hget := getPayloadRaw_apply engine payloadID v
      rw [hgot] at hget
      rw [bind_of_ok hslept]
      cases got with
      | error err =>
          rw [bind_of_error hget]
          refine ⟨_, ?_, .notGot w.state u.state v.state payloadID err⟩
          rw [World.step_log, hv, hgot, List.append_assoc]
          rfl
      | ok result =>
          rw [bind_of_ok hget, lift_apply]
          refine ⟨_, ?_, .got w.state u.state v.state payloadID result⟩
          rw [World.step_log, hv, hgot, List.append_assoc]
          rfl

/-- The handler of a body that is JSON. -/
theorem handleBuild_post (value : Json) : handleBuild packages hash addr engine buildWait "POST"
    (.ok value) =
      (lift ((requestedBuild hash addr value).mapError (BadRequest.httpError packages)) >>=
        fun build => buildPayload packages hash engine buildWait build.1 build.2) := by
  unfold handleBuild
  rw [if_neg (not_not.mpr rfl)]
  rfl

theorem requestedBuild_of_decode {value : Json} {r : BuildRequest} (h : decode value = .ok r) :
    requestedBuild hash addr value =
      ((r.toAttributes hash addr).mapError BadRequest.invalidAttrs >>= fun attrs =>
        .ok (hash.ofHex r.parentHash, attrs)) := by
  rw [requestedBuild, h]
  rfl

/-- The engine is asked for a block only when every number of the request is legible, and for
the one that the request denotes. What was refused says why. -/
theorem handleBuild_answers (method : String) (body : Except String Json)
    (w : World σ (EngineCall.Reply (H := H) (A := A))) :
    ∃ new, (handleBuild packages hash addr engine buildWait method body w).2.log = w.log ++ new ∧
      Answers hash addr packages buildWait method body new
        (handleBuild packages hash addr engine buildWait method body w).1 := by
  by_cases hmethod : method = "POST"
  · subst hmethod
    cases body with
    | error err => exact ⟨[], (List.append_nil _).symm, .malformed err rfl⟩
    | ok value =>
        rw [handleBuild_post]
        cases hdecode : decode value with
        | error e =>
            have hbuild : requestedBuild hash addr value = .error (.decodeBody e) := by
              rw [requestedBuild, hdecode]
              rfl
            rw [hbuild]
            exact ⟨[], (List.append_nil _).symm, .undecoded value e rfl hdecode⟩
        | ok r =>
            have hattrs := parses_toAttributes hash addr r
            rw [requestedBuild_of_decode hash addr hdecode]
            generalize r.toAttributes hash addr = parsed at hattrs
            cases hattrs with
            | error e h => exact ⟨[], (List.append_nil _).symm, .illegible value r e rfl hdecode h⟩
            | ok attrs hlegible hstands =>
                obtain ⟨new, hlog, hconverses⟩ := buildPayload_converses hash packages engine
                  buildWait (hash.ofHex r.parentHash) attrs w
                exact ⟨new, hlog, .asks value r attrs new _ rfl hdecode hlegible hstands hconverses⟩
  · unfold handleBuild
    rw [if_pos hmethod]
    exact ⟨[], (List.append_nil _).symm, .notAllowed hmethod⟩

end

end EestReplay.Simbuild
