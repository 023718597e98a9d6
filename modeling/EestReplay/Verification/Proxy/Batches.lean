import EestReplay.Verification.Proxy.Transparency
import Mathlib.Data.List.ReduceOption

/-! # The calls of a batch

What each call of a body has recorded when the extraction ends, against the transaction
that a node reads in it. A call that raises takes along all that stand behind it. -/

namespace EestReplay.Proxy

open Http

variable {B : Type}

/-- What each pass of the loop records; there is none behind the one that raises. -/
def recordings : List Json → List (Option String)
  | [] => []
  | call :: rest =>
    match recordCall call with
    | .ok rawTx => rawTx :: recordings rest
    | .error _ => (call :: rest).map fun _ => none

/-- Every call of a body is recorded on its own: as the transaction that a node reads in it. -/
structure Independent (loads : B → Except PyError Json) (body : B) : Prop where
  own : recordings (bodyCalls loads body) = (bodyCalls loads body).map submission
  recorded : (recordBody loads body).1 = (bodyCalls loads body).filterMap submission

/-! ## One call -/

/-- A submission whose parameters are a text. -/
def textual (call : Json) : Bool :=
  match sendRawParams call with
  | some (.str s) => s != ""
  | _ => false

/-- A submission whose parameters cannot be indexed. -/
def raising (call : Json) : Bool := byName call || scalar call

/-- What a pass of the loop does with a call: it raises, it takes the first character of a
text, or it records what a node reads. -/
inductive Pass (call : Json) : Except PyError (Option String) → Prop where
  | raises (e : PyError) (hraising : raising call = true) (hread : submission call = none) :
      Pass call (.error e)
  | letter (s : String) (hraising : raising call = false) (htextual : textual call = true)
      (hread : submission call = none) : Pass call (.ok (some s))
  | own (rawTx : Option String) (hraising : raising call = false) (htextual : textual call = false)
      (hread : submission call = rawTx) : Pass call (.ok rawTx)

/-- The first of positional parameters, when it is a text. -/
def firstText : Json → Option String
  | .arr (.str rawTx :: _) => some rawTx
  | _ => none

theorem submission_eq (call : Json) : submission call = (sendRawParams call).bind firstText := by
  cases call with
  | obj fields =>
      by_cases hsend : isSendRaw fields = true
      · simp only [submission, sendRawParams, hsend, if_true]
        cases fields.lookup "params" with
        | none => rfl
        | some params => simp only [Option.bind_some, firstText]; split <;> simp_all
      · simp [submission, sendRawParams, hsend]
  | _ => rfl

theorem recordCall_eq (call : Json) :
    recordCall call = ((sendRawParams call).map recordParams).getD (.ok none) := by
  cases call with
  | obj fields =>
      by_cases hsend : isSendRaw fields = true
      · have hrecord : recordCall (.obj fields) =
            recordParams (Json.orEmpty (fields.lookup "params")) := if_pos hsend
        have hparams : sendRawParams (.obj fields) = fields.lookup "params" := if_pos hsend
        rw [hrecord, hparams]
        cases fields.lookup "params" with
        | none => rfl
        | some params => exact recordParams_orEmpty params
      · simp [recordCall, sendRawParams, hsend]
  | _ => rfl

/-- A submission whose parameters are a list. -/
theorem recordParams_items (items : List Json) :
    recordParams (.arr items) = .ok (firstText (.arr items)) := by
  cases items with
  | nil => rfl
  | cons item items => cases item <;> rfl

theorem recordParams_letter {s : String} (h : s ≠ "") : ∃ c, recordParams (.str s) = .ok (some c) := by
  have htruthy : (Json.str s).truthy = true := by simpa [Json.truthy] using h
  cases hchars : s.toList with
  | nil => exact absurd (by simpa using hchars) h
  | cons c cs =>
      have hitem : Json.item0 (.str s) = .ok (.str (String.singleton c)) := by
        simp [Json.item0, hchars]
      exact ⟨String.singleton c, by simp only [recordParams, htruthy, if_true, hitem]⟩

/-- Parameters that are no list and no text are not recorded. -/
theorem recordParams_none {params : Json} {rawTx : Option String}
    (hitems : ∀ items, params ≠ .arr items) (htext : ∀ s, params ≠ .str s)
    (h : recordParams params = .ok rawTx) : rawTx = none ∧ firstText params = none := by
  unfold recordParams at h
  cases params with
  | str s => exact absurd rfl (htext s)
  | arr items => exact absurd rfl (hitems items)
  | _ =>
      split at h
      · simp [Json.item0] at h
      · exact ⟨(Except.ok.inj h).symm, rfl⟩

theorem recordCall_pass (call : Json) : Pass call (recordCall call) := by
  have hread := submission_eq call
  have hescapes := recordCall_escapes call
  have hrecord := recordCall_eq call
  cases hcall : recordCall call with
  | error e =>
      rw [hcall] at hescapes
      have hraising : raising call = true := by
        cases hescapes with
        | byName _ hname => simp [raising, hname]
        | scalar _ _ hscalar => simp [raising, hscalar]
      refine .raises e hraising ?_
      cases hsub : submission call with
      | none => rfl
      | some rawTx =>
          rw [recordCall_of_submission hsub] at hcall
          cases hcall
  | ok rawTx =>
      rw [hcall] at hescapes hrecord
      have hraising : raising call = false := by
        cases hescapes with
        | none _ hname hscalar => simp [raising, hname, hscalar]
      cases hparams : sendRawParams call with
      | none =>
          rw [hparams] at hread hrecord
          obtain rfl : rawTx = none := Except.ok.inj hrecord
          exact .own none hraising (by simp [textual, hparams]) hread
      | some params =>
          rw [hparams] at hread hrecord
          have hread : submission call = firstText params := hread
          have hrecord : recordParams params = .ok rawTx := hrecord.symm
          cases params with
          | arr items =>
              rw [recordParams_items, ← hread] at hrecord
              exact .own rawTx hraising (by simp [textual, hparams]) (Except.ok.inj hrecord)
          | str s =>
              by_cases hempty : s = ""
              · subst hempty
                obtain rfl : none = rawTx := Except.ok.inj hrecord
                exact .own none hraising (by simp [textual, hparams]) hread
              · obtain ⟨c, hc⟩ := recordParams_letter hempty
                obtain rfl : some c = rawTx := Except.ok.inj (hc.symm.trans hrecord)
                exact .letter c hraising (by simp [textual, hparams, hempty]) hread
          | _ =>
              obtain ⟨rfl, hnone⟩ := recordParams_none (by simp) (by simp) hrecord
              exact .own none hraising (by simp [textual, hparams]) (hread.trans hnone)

/-! ## All calls of a body -/

theorem recordings_of_raising {call : Json} (h : raising call = true) (rest : List Json) :
    recordings (call :: rest) = (call :: rest).map fun _ => none := by
  unfold recordings
  have hpass := recordCall_pass call
  cases hcall : recordCall call with
  | error e => rfl
  | ok rawTx =>
      rw [hcall] at hpass
      cases hpass with
      | letter _ hraising => simp [h] at hraising
      | own _ hraising => simp [h] at hraising

/-- A body is recorded call by call exactly when no text stands before the first call that
raises, and no transaction behind it. -/
theorem recordings_eq_iff (cs : List Json) :
    recordings cs = cs.map submission ↔
      (∀ call ∈ cs.takeWhile (!raising ·), textual call = false) ∧
        ∀ call ∈ cs.dropWhile (!raising ·), submission call = none := by
  induction cs with
  | nil => simp [recordings]
  | cons call rest ih =>
      have hpass := recordCall_pass call
      cases hcall : recordCall call with
      | error e =>
          rw [hcall] at hpass
          cases hpass with
          | raises _ hraising hread =>
              rw [recordings_of_raising hraising, List.map_inj_left]
              simp only [List.takeWhile_cons, List.dropWhile_cons, hraising, Bool.not_true,
                Bool.false_eq_true, if_false, List.not_mem_nil, false_imp_iff, implies_true, true_and]
              exact forall₂_congr fun _ _ => eq_comm
      | ok rawTx =>
          rw [hcall] at hpass
          have hstep : recordings (call :: rest) = rawTx :: recordings rest := by
            simp only [recordings, hcall]
          rw [hstep, List.map_cons, List.cons.injEq, ih]
          cases hpass with
          | letter s hraising htextual hread => simp [hraising, htextual, hread]
          | own _ hraising htextual hread => simp [hraising, htextual, hread]

theorem emitted_eq_recordings (cs : List Json) : emitted cs = (recordings cs).reduceOption := by
  induction cs with
  | nil => rfl
  | cons call rest ih =>
      unfold recordings
      cases hcall : recordCall call with
      | error e =>
          rw [emitted_cons_of_error rest hcall]
          simp [List.reduceOption]
      | ok rawTx =>
          rw [emitted_cons_of_ok rest hcall, ih]
          cases rawTx <;> rfl

theorem recordBody_fst (loads : B → Except PyError Json) (body : B) :
    (recordBody loads body).1 = emitted (bodyCalls loads body) := by
  unfold recordBody bodyCalls
  cases loads body <;> rfl

/-- A body is recorded call by call exactly when, of the calls before the first one whose
parameters cannot be indexed, none has a text as its parameters, and of those behind it none
submits a transaction. -/
theorem independent_iff (loads : B → Except PyError Json) (body : B) :
    Independent loads body ↔
      (∀ call ∈ (bodyCalls loads body).takeWhile (!raising ·), textual call = false) ∧
        ∀ call ∈ (bodyCalls loads body).dropWhile (!raising ·), submission call = none := by
  rw [← recordings_eq_iff]
  constructor
  · exact Independent.own
  · intro hown
    have hrecorded : (recordBody loads body).1 = (bodyCalls loads body).filterMap submission := by
      rw [recordBody_fst, emitted_eq_recordings, hown, List.reduceOption, List.filterMap_map]
      rfl
    exact ⟨hown, hrecorded⟩

/-- A batch whose first call has a number for its parameters, and one whose call has a text. -/
theorem not_independent_number :
    ¬ Independent .ok (.arr
        [.obj [("method", .str "eth_sendRawTransaction"), ("params", .int 5)], sendRaw "0xb1"]) ∧
      ¬ Independent .ok
        (.obj [("method", .str "eth_sendRawTransaction"), ("params", .str "0xa1")]) := by
  constructor
  · intro h
    have hown := congrArg List.reduceOption h.own
    revert hown
    decide
  · intro h
    have hown := congrArg List.reduceOption h.own
    revert hown
    decide

end EestReplay.Proxy
