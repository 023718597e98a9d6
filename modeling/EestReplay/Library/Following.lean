import EestReplay.Library.Returns
import EestReplay.Library.Runs

/-! # Programs that follow a machine

An observer sees some of the exchanges of a program as labels. `Follows see step s x S E`: from
the state `s`, what is seen of `x` is a run of the machine, which ends in `S` when `x` returns
and in `E` when it raises. -/

namespace Dialogue

open Runs

variable {σ Q Q' : Type} {R : Q → Type} {ε α β L M : Type}

/-- The labels that are seen of a log. -/
def seen (see : Exchange σ R → Option L) (log : List (Exchange σ R)) : List L := log.filterMap see

theorem seen_append (see : Exchange σ R → Option L) (log log' : List (Exchange σ R)) :
    seen see (log ++ log') = seen see log ++ seen see log' :=
  List.filterMap_append

/-- A label that is seen takes the machine a step on. -/
def advance (step : M → L → Option M) (s : M) : Option L → Option M
  | none => some s
  | some l => step s l

@[simp] theorem advance_none (step : M → L → Option M) (s : M) : advance step s none = some s := rfl

@[simp] theorem advance_some (step : M → L → Option M) (s : M) (l : L) :
    advance step s (some l) = step s l := rfl

theorem run_seen_singleton (see : Exchange σ R → Option L) (step : M → L → Option M) (s : M)
    (y : Exchange σ R) : run step s (seen see [y]) = advance step s (see y) := by
  unfold seen
  cases h : see y with
  | none => simp [h, advance]
  | some l =>
      rw [List.filterMap_cons_some h]
      simp [run, advance]

def Follows (see : Exchange σ R → Option L) (step : M → L → Option M) (s : M)
    (x : Program σ R ε α) (S : α → M → Prop) (E : ε → M → Prop) : Prop :=
  ∀ w, ∃ new t, (x w).2.log = w.log ++ new ∧ run step s (seen see new) = some t ∧
    (∀ a, (x w).1 = .ok a → S a t) ∧ ∀ e, (x w).1 = .error e → E e t

namespace Follows

variable {see : Exchange σ R → Option L} {step : M → L → Option M} {s : M} {S : α → M → Prop}
  {E F : ε → M → Prop} {T : β → M → Prop}

/-- What is seen of everything that a run asked. -/
theorem of_asked {x : Program σ R ε α} {I : M → Prop}
    (hx : Follows see step s x (fun _ => I) (fun _ => I)) (w : World σ R) :
    ∃ t, run step s (seen see (asked x w)) = some t ∧ I t := by
  obtain ⟨new, t, hlog, hrun, hok, herr⟩ := hx w
  rw [asked_eq hlog]
  refine ⟨t, hrun, ?_⟩
  rcases hxw : (x w).1 with e | a
  · exact herr e hxw
  · exact hok a hxw

/-- Whatever is asked, the log is not cut. -/
theorem grows {x : Program σ R ε α} (hx : Follows see step s x S E) (w : World σ R) :
    w.log <+: (x w).2.log := by
  obtain ⟨new, t, hlog, -⟩ := hx w
  exact ⟨new, hlog.symm⟩

theorem conseq {x : Program σ R ε α} {S' : α → M → Prop} (hx : Follows see step s x S E)
    (hS : ∀ a t, S a t → S' a t) (hE : ∀ e t, E e t → F e t) : Follows see step s x S' F := by
  intro w
  obtain ⟨new, t, hlog, hrun, hok, herr⟩ := hx w
  exact ⟨new, t, hlog, hrun, fun a ha => hS a t (hok a ha), fun e he => hE e t (herr e he)⟩

/-- Weaken what holds when the program raises. -/
theorem mono_error {x : Program σ R ε α} (hx : Follows see step s x S E)
    (hE : ∀ e t, E e t → F e t) : Follows see step s x S F :=
  hx.conseq (fun _ _ => id) hE

protected theorem pure {a : α} (h : S a s) :
    Follows see step s (pure a : Program σ R ε α) S E := by
  intro w
  refine ⟨[], s, by simp, rfl, ?_, ?_⟩
  · intro b hb
    obtain rfl := Except.ok.inj hb
    exact h
  · intro e he
    cases he

protected theorem throw {e : ε} (h : E e s) :
    Follows see step s (throw e : Program σ R ε α) S E := by
  intro w
  refine ⟨[], s, by simp, rfl, ?_, ?_⟩
  · intro b hb
    cases hb
  · intro e' he
    obtain rfl := Except.error.inj he
    exact h

protected theorem lift {r : Except ε α} (hok : ∀ a, r = .ok a → S a s)
    (herr : ∀ e, r = .error e → E e s) : Follows see step s (lift r : Program σ R ε α) S E := by
  cases r with
  | ok a => exact Follows.pure (hok a rfl)
  | error e => exact Follows.throw (herr e rfl)

protected theorem bind {x : Program σ R ε α} {f : α → Program σ R ε β}
    (hx : Follows see step s x S E) (hf : ∀ a t, S a t → Follows see step t (f a) T E) :
    Follows see step s (x >>= f) T E := by
  intro w
  obtain ⟨new, t, hlog, hrun, hok, herr⟩ := hx w
  rcases hxw : x w with ⟨r, u⟩
  rw [hxw] at hlog hok herr
  cases r with
  | error e =>
      rw [bind_of_error hxw]
      refine ⟨new, t, hlog, hrun, ?_, ?_⟩
      · intro b hb
        cases hb
      · intro e' he
        obtain rfl := Except.error.inj he
        exact herr e rfl
  | ok a =>
      obtain ⟨rest, t', hrest, hrun', hend⟩ := hf a t (hok a rfl) u
      rw [bind_of_ok hxw]
      refine ⟨new ++ rest, t', by rw [hrest, hlog, List.append_assoc], ?_, hend⟩
      rw [seen_append, run_append]
      exact ⟨t, hrun, hrun'⟩

/-- Queries whose labels leave the machine where it is, or that are not seen. -/
theorem of_asks {peer : Peer σ R} {allowed : Q → Prop} {x : Program σ R ε α}
    (hx : Asks peer allowed x) (hsee : ∀ st q r, allowed q → advance step s (see ⟨st, q, r⟩) = some s) :
    Follows see step s x (fun _ t => t = s) (fun _ t => t = s) := by
  intro w
  have hrun : ∀ u, Reach peer allowed w u →
      ∃ new, u.log = w.log ++ new ∧ run step s (seen see new) = some s := by
    intro u hu
    induction hu with
    | refl => exact ⟨[], by simp, rfl⟩
    | @step u q _ hq ih =>
        obtain ⟨new, hlog, hnew⟩ := ih
        refine ⟨new ++ [⟨u.state, q, (peer.answer u.state q).1⟩], ?_, ?_⟩
        · rw [World.step_log, hlog, List.append_assoc]
        · rw [seen_append, run_append]
          exact ⟨s, hnew, by rw [run_seen_singleton, hsee _ _ _ hq]⟩
  obtain ⟨new, hlog, hnew⟩ := hrun _ (hx w)
  exact ⟨new, s, hlog, hnew, fun _ _ => rfl, fun _ _ => rfl⟩

/-- A first part that leaves the machine where it is. -/
theorem asks_bind {peer : Peer σ R} {allowed : Q → Prop} {x : Program σ R ε α}
    {f : α → Program σ R ε β} (hx : Asks peer allowed x)
    (hsee : ∀ st q r, allowed q → advance step s (see ⟨st, q, r⟩) = some s)
    (hf : ∀ a, Follows see step s (f a) T E) (hE : ∀ e, E e s) :
    Follows see step s (x >>= f) T E := by
  refine ((of_asks hx hsee).mono_error ?_).bind ?_
  · rintro e t rfl
    exact hE e
  · rintro a t rfl
    exact hf a

protected theorem ask {peer : Peer σ R} {q : Q} {S : R q → M → Prop}
    (h : ∀ st r, ∃ t, advance step s (see ⟨st, q, r⟩) = some t ∧ S r t) :
    Follows see step s (ask peer q : Program σ R ε (R q)) S E := by
  intro w
  obtain ⟨t, hstep, hS⟩ := h w.state (peer.answer w.state q).1
  refine ⟨[⟨w.state, q, (peer.answer w.state q).1⟩], t, rfl, ?_, ?_, ?_⟩
  · rw [run_seen_singleton, hstep]
  · intro r hr
    obtain rfl := Except.ok.inj hr
    exact hS
  · intro e he
    cases he

protected theorem call {A : Q → Type} {peer : Peer σ fun q => Except ε (A q)} {q : Q}
    {see : Exchange σ (fun q => Except ε (A q)) → Option L} {S : A q → M → Prop}
    (hok : ∀ st a, ∃ t, advance step s (see ⟨st, q, .ok a⟩) = some t ∧ S a t)
    (herr : ∀ st e, ∃ t, advance step s (see ⟨st, q, .error e⟩) = some t ∧ E e t) :
    Follows see step s (call peer q) S E := by
  refine Follows.bind (S := fun r t => match r with | .ok a => S a t | .error e => E e t)
    (Follows.ask ?_) ?_
  · intro st r
    cases r with
    | ok a => exact hok st a
    | error e => exact herr st e
  · intro r t hr
    cases r with
    | ok a => exact Follows.pure hr
    | error e => exact Follows.throw hr

theorem lift_bind {r : Except ε α} {f : α → Program σ R ε β} (hf : ∀ a, Follows see step s (f a) T E)
    (hE : ∀ e, E e s) : Follows see step s (lift r >>= f) T E := by
  cases r with
  | ok a => exact hf a
  | error e => exact Follows.throw (hE e)

/-- A call that leaves the machine where it is. -/
theorem call_bind {A : Q → Type} {peer : Peer σ fun q => Except ε (A q)} {q : Q}
    {see : Exchange σ (fun q => Except ε (A q)) → Option L}
    {f : A q → Program σ (fun q => Except ε (A q)) ε β}
    (hsee : ∀ st r, advance step s (see ⟨st, q, r⟩) = some s)
    (hf : ∀ a, Follows see step s (f a) T E) (hE : ∀ e, E e s) :
    Follows see step s (call peer q >>= f) T E := by
  refine Follows.bind (Follows.call (S := fun _ t => t = s) ?_ ?_) ?_
  · exact fun st a => ⟨s, hsee st (.ok a), rfl⟩
  · exact fun st e => ⟨s, hsee st (.error e), hE e⟩
  · rintro a t rfl
    exact hf a

protected theorem capture {x : Program σ R ε α} (hx : Follows see step s x S E) :
    Follows see step s (capture x)
      (fun r t => (∀ a, r = .ok a → S a t) ∧ ∀ e, r = .error e → E e t) F := by
  intro w
  obtain ⟨new, t, hlog, hrun, hok, herr⟩ := hx w
  refine ⟨new, t, hlog, hrun, ?_, ?_⟩
  · intro r hr
    rw [capture_apply] at hr
    obtain rfl := Except.ok.inj hr
    exact ⟨hok, herr⟩
  · intro e he
    rw [capture_apply] at he
    cases he

protected theorem tryCatch {x : Program σ R ε α} {handler : ε → Program σ R ε α}
    (hx : Follows see step s x S F) (hh : ∀ e t, F e t → Follows see step t (handler e) S E) :
    Follows see step s (tryCatch x handler) S E := by
  intro w
  obtain ⟨new, t, hlog, hrun, hok, herr⟩ := hx w
  rw [tryCatch_apply]
  rcases hxw : x w with ⟨r, u⟩
  rw [hxw] at hlog hok herr
  cases r with
  | ok a =>
      refine ⟨new, t, hlog, hrun, hok, ?_⟩
      intro e he
      cases he
  | error e =>
      obtain ⟨rest, t', hrest, hrun', hend⟩ := hh e t (herr e rfl) u
      refine ⟨new ++ rest, t', by rw [hrest, hlog, List.append_assoc], ?_, hend⟩
      rw [seen_append, run_append]
      exact ⟨t, hrun, hrun'⟩

/-- The finalizer goes on from where the program has ended. -/
protected theorem tryFinally {x : Program σ R ε α} {final : Program σ R ε Unit}
    {T : α → M → Prop} (hx : Follows see step s x S E)
    (hok : ∀ a t, S a t → Follows see step t final (fun _ => T a) F)
    (herr : ∀ e t, E e t → Follows see step t final (fun _ => F e) F) :
    Follows see step s (tryFinally x final) T F := by
  refine hx.capture.bind (E := F) ?_
  rintro r t ⟨hS, hE⟩
  cases r with
  | ok a =>
      refine (hok a t (hS a rfl)).bind ?_
      exact fun _ t ht => Follows.pure ht
  | error e =>
      refine (herr e t (hE e rfl)).bind ?_
      exact fun _ t ht => Follows.throw ht

/-- Something is acquired, made ready, used, and released again whatever happens to it. -/
theorem scope {acquire : Program σ R ε β} {ready : β → Program σ R ε Unit}
    {use : β → Program σ R ε α} {release : β → Program σ R ε Unit} {Acquired : β → M → Prop}
    {I : M → Prop} (Ready Held : β → M → Prop)
    (hacquire : Follows see step s acquire Acquired (fun _ => I))
    (hready : ∀ b t, Acquired b t →
      Follows see step t (ready b) (fun _ => Ready b) (fun _ => Held b))
    (huse : ∀ b t, Ready b t → Follows see step t (use b) (fun _ => Held b) (fun _ => Held b))
    (hrelease : ∀ b t, Held b t → Follows see step t (release b) (fun _ => I) (fun _ => I)) :
    Follows see step s
      (acquire >>= fun b => tryFinally (ready b >>= fun _ => use b) (release b))
      (fun _ => I) (fun _ => I) := by
  refine hacquire.bind fun b t ht => ?_
  have hheld : Follows see step t (ready b >>= fun _ => use b) (fun _ => Held b) (fun _ => Held b) :=
    (hready b t ht).bind fun _ t ht => huse b t ht
  exact hheld.tryFinally (fun _ t ht => hrelease b t ht) (fun _ t ht => hrelease b t ht)

/-- What is seen of a part is seen of the whole. -/
protected theorem embed {query : Q' → Q} {x : Program σ (fun q => R (query q)) ε α}
    (hx : Follows (fun y => see (y.embed query)) step s x S E) :
    Follows see step s (embed query x) S E := by
  intro w
  obtain ⟨new, t, hlog, hrun, hend⟩ := hx ⟨w.state, []⟩
  refine ⟨_, t, embed_log query x w, ?_, hend⟩
  have hseen : seen see ((x ⟨w.state, []⟩).2.log.map (Exchange.embed query)) =
      seen (fun y => see (y.embed query)) new := by
    rw [hlog]
    exact List.filterMap_map
  rw [hseen, hrun]

/-- A part of the environment whose labels leave the machine where it is. -/
theorem of_embed {query : Q' → Q} {x : Program σ (fun q => R (query q)) ε α}
    (hsee : ∀ y : Exchange σ fun q => R (query q), advance step s (see (y.embed query)) = some s) :
    Follows see step s (embed query x) (fun _ t => t = s) (fun _ t => t = s) := by
  have hrun : ∀ log : List (Exchange σ fun q => R (query q)),
      run step s (seen see (log.map (Exchange.embed query))) = some s := by
    intro log
    induction log with
    | nil => rfl
    | cons y log ih =>
        rw [List.map_cons, ← List.singleton_append, seen_append, run_append]
        exact ⟨s, by rw [run_seen_singleton, hsee y], ih⟩
  intro w
  exact ⟨_, s, embed_log query x w, hrun _, fun _ _ => rfl, fun _ _ => rfl⟩

/-! ## Everything that is seen -/

/-- The machine that keeps all labels. -/
def record (past : List L) (l : L) : Option (List L) := some (past ++ [l])

theorem advance_record (past : List L) (l : Option L) :
    advance record past l = some (past ++ l.toList) := by
  cases l with
  | none => simp
  | some l => rfl

theorem run_record (past ls : List L) : run record past ls = some (past ++ ls) := by
  induction ls generalizing past with
  | nil => simp
  | cons l ls ih =>
      rw [run_cons]
      exact ⟨past ++ [l], rfl, by simpa using ih (past ++ [l])⟩

/-- What a program leaves does not depend on what was there before. -/
theorem append {x : Program σ R ε α} {S : α → List L → Prop} {E : ε → List L → Prop}
    (hx : Follows see record [] x S E) (past : List L) :
    Follows see record past x (fun a t => ∃ new, t = past ++ new ∧ S a new)
      (fun e t => ∃ new, t = past ++ new ∧ E e new) := by
  intro w
  obtain ⟨new, t, hlog, hrun, hok, herr⟩ := hx w
  obtain rfl : seen see new = t := by
    rw [run_record, List.nil_append] at hrun
    exact Option.some.inj hrun
  refine ⟨new, past ++ seen see new, hlog, run_record past _, ?_, ?_⟩
  · exact fun a ha => ⟨_, rfl, hok a ha⟩
  · exact fun e he => ⟨_, rfl, herr e he⟩

/-- The labels of everything that a run asked. -/
theorem of_record {x : Program σ R ε α} {S : α → List L → Prop} {E : ε → List L → Prop}
    (hx : Follows see record [] x S E) (w : World σ R) :
    (∀ a, (x w).1 = .ok a → S a (seen see (asked x w))) ∧
      ∀ e, (x w).1 = .error e → E e (seen see (asked x w)) := by
  obtain ⟨new, t, hlog, hrun, hend⟩ := hx w
  obtain rfl : seen see new = t := by
    rw [run_record, List.nil_append] at hrun
    exact Option.some.inj hrun
  rw [asked_eq hlog]
  exact hend

/-- What a program returns meets a condition of its own. -/
theorem yields {x : Program σ R ε α} {P : α → Prop} (hx : Follows see step s x S E)
    (hP : Yields x P) : Follows see step s x (fun a t => S a t ∧ P a) E := by
  intro w
  obtain ⟨new, t, hlog, hrun, hok, herr⟩ := hx w
  exact ⟨new, t, hlog, hrun, fun a ha => ⟨hok a ha, hP w a ha⟩, herr⟩

end Follows

end Dialogue
