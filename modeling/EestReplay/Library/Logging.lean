import EestReplay.Library.Following

/-! # What a program has logged when it returns

`Logs x S`: a return of `x` and the exchanges that it has added to the log meet `S`. A log can
be cut into a segment for each of several jobs, with idle exchanges between them. -/

namespace Dialogue

variable {σ Q Q' : Type} {R : Q → Type} {ε α β : Type}

def Logs (x : Program σ R ε α) (S : α → List (Exchange σ R) → Prop) : Prop :=
  ∀ w a u, x w = (.ok a, u) → ∃ new, u.log = w.log ++ new ∧ S a new

namespace Logs

variable {S T : α → List (Exchange σ R) → Prop}

/-- Everything that a run asked. -/
theorem of_asked {x : Program σ R ε α} (hx : Logs x S) {w u : World σ R} {a : α}
    (h : x w = (.ok a, u)) : S a (asked x w) := by
  obtain ⟨new, hlog, hS⟩ := hx w a u h
  have hasked : (x w).2.log = w.log ++ new := by rw [h, hlog]
  rw [asked_eq hasked]
  exact hS

theorem mono {x : Program σ R ε α} (hx : Logs x S) (h : ∀ a log, S a log → T a log) :
    Logs x T := by
  intro w a u hrun
  obtain ⟨new, hlog, hS⟩ := hx w a u hrun
  exact ⟨new, hlog, h a new hS⟩

protected theorem pure {a : α} (h : S a []) : Logs (pure a : Program σ R ε α) S := by
  intro w b u hrun
  rw [pure_apply] at hrun
  obtain ⟨hb, rfl⟩ := Prod.mk.inj hrun
  obtain rfl := Except.ok.inj hb
  exact ⟨[], (List.append_nil _).symm, h⟩

protected theorem throw (e : ε) : Logs (throw e : Program σ R ε α) S := by
  intro w a u hrun
  rw [throw_apply] at hrun
  cases hrun

protected theorem lift {r : Except ε α} (h : ∀ a, r = .ok a → S a []) :
    Logs (lift r : Program σ R ε α) S := by
  cases r with
  | ok a => exact Logs.pure (h a rfl)
  | error e => exact Logs.throw e

protected theorem ask {peer : Peer σ R} {q : Q} {S : R q → List (Exchange σ R) → Prop}
    (h : ∀ s r, S r [⟨s, q, r⟩]) : Logs (ask peer q : Program σ R ε (R q)) S := by
  intro w r u hrun
  rw [ask_apply] at hrun
  obtain ⟨hr, rfl⟩ := Prod.mk.inj hrun
  obtain rfl := Except.ok.inj hr
  exact ⟨_, rfl, h _ _⟩

protected theorem call {A : Q → Type} {peer : Peer σ fun q => Except ε (A q)} {q : Q}
    {S : A q → List (Exchange σ fun q => Except ε (A q)) → Prop}
    (h : ∀ s a, S a [⟨s, q, .ok a⟩]) : Logs (call peer q) S := by
  intro w a u hrun
  rw [call_apply] at hrun
  obtain ⟨hreply, rfl⟩ := Prod.mk.inj hrun
  refine ⟨[⟨w.state, q, .ok a⟩], ?_, h _ _⟩
  rw [World.step_log, hreply]

protected theorem bind {x : Program σ R ε α} {f : α → Program σ R ε β}
    {T : β → List (Exchange σ R) → Prop} (hx : Logs x S)
    (hf : ∀ a log, S a log → Logs (f a) fun b new => T b (log ++ new)) :
    Logs (x >>= f) T := by
  intro w b v hrun
  obtain ⟨a, u, hxw, hfu⟩ := bind_eq_ok.mp hrun
  obtain ⟨log, hlog, hS⟩ := hx w a u hxw
  obtain ⟨new, hnew, hT⟩ := hf a log hS u b v hfu
  exact ⟨log ++ new, by rw [hnew, hlog, List.append_assoc], hT⟩

/-- What a program asks in any case. -/
theorem of_asks {peer : Peer σ R} {allowed : Q → Prop} {x : Program σ R ε α}
    (hx : Asks peer allowed x) : Logs x fun _ new => ∀ y ∈ new, allowed y.query := by
  intro w a u hrun
  obtain ⟨new, hlog, hallowed⟩ := (hx w).log_eq
  rw [hrun] at hlog
  exact ⟨new, hlog, hallowed⟩

/-- What follows a machine from nothing, with the labels that are seen of it. -/
theorem of_follows {L : Type} {see : Exchange σ R → Option L} {x : Program σ R ε α}
    {S : α → List L → Prop} {E : ε → List L → Prop} (hx : Follows see Follows.record [] x S E) :
    Logs x fun a new => S a (seen see new) := by
  intro w a u hrun
  obtain ⟨new, t, hlog, hseen, hok, -⟩ := hx w
  obtain rfl : seen see new = t := by
    rw [Follows.run_record, List.nil_append] at hseen
    exact Option.some.inj hseen
  rw [hrun] at hlog hok
  exact ⟨new, hlog, hok a rfl⟩

protected theorem and {x : Program σ R ε α} (hx : Logs x S) (hx' : Logs x T) :
    Logs x fun a new => S a new ∧ T a new := by
  intro w a u hrun
  obtain ⟨new, hlog, hS⟩ := hx w a u hrun
  obtain ⟨new', hlog', hT⟩ := hx' w a u hrun
  obtain rfl : new = new' := List.append_cancel_left (hlog.symm.trans hlog')
  exact ⟨new, hlog, hS, hT⟩

/-- What a program returns meets a condition of its own. -/
theorem yields {x : Program σ R ε α} {P : α → Prop} (hx : Logs x S) (hP : Yields x P) :
    Logs x fun a new => S a new ∧ P a := by
  intro w a u hrun
  obtain ⟨new, hlog, hS⟩ := hx w a u hrun
  exact ⟨new, hlog, hS, hP w a (congrArg Prod.fst hrun)⟩

/-- A program that may raise, and has logged something then, too. -/
protected theorem capture {x : Program σ R ε α} (hx : Logs x S)
    (hgrows : ∀ w, w.log <+: (x w).2.log) :
    Logs (capture x) fun r new => ∀ a, r = .ok a → S a new := by
  intro w r u hrun
  rw [capture_apply] at hrun
  obtain ⟨hr, rfl⟩ := Prod.mk.inj hrun
  obtain rfl := Except.ok.inj hr
  obtain ⟨new, hlog⟩ := hgrows w
  refine ⟨new, hlog.symm, fun a ha => ?_⟩
  obtain ⟨new', hlog', hS⟩ := hx w a (x w).2 (Prod.ext ha rfl)
  obtain rfl : new = new' := List.append_cancel_left (hlog.trans hlog')
  exact hS

/-- A finalizer that returns leaves the result. -/
protected theorem tryFinally {x : Program σ R ε α} {final : Program σ R ε Unit}
    {F : List (Exchange σ R) → Prop} (hx : Logs x S) (hfinal : Logs final fun _ => F) :
    Logs (tryFinally x final) fun a new => ∃ log late, new = log ++ late ∧ S a log ∧ F late := by
  intro w a v hrun
  rw [tryFinally_apply] at hrun
  obtain ⟨_, u, hend, hresult⟩ := bind_eq_ok.mp hrun
  rw [lift_apply] at hresult
  obtain ⟨hxw, rfl⟩ := Prod.mk.inj hresult
  obtain ⟨log, hlog, hS⟩ := hx w a (x w).2 (Prod.ext hxw rfl)
  obtain ⟨late, hlate, hF⟩ := hfinal _ _ _ hend
  exact ⟨log ++ late, by rw [hlate, hlog, List.append_assoc], log, late, rfl, hS, hF⟩

/-- Something that is acquired, made ready, used, and released again. -/
theorem scope {acquire : Program σ R ε β} {ready : β → Program σ R ε Unit}
    {use : β → Program σ R ε α} {release : β → Program σ R ε Unit}
    {A W : β → List (Exchange σ R) → Prop}
    {U : β → List (Exchange σ R) → α → List (Exchange σ R) → Prop}
    {F : List (Exchange σ R) → Prop} (hacquire : Logs acquire A)
    (hready : ∀ b, Logs (ready b) fun _ => W b)
    (huse : ∀ b first, A b first → Logs (use b) (U b first))
    (hrelease : ∀ b, Logs (release b) fun _ => F) :
    Logs (acquire >>= fun b => tryFinally (ready b >>= fun _ => use b) (release b)) fun a new =>
      ∃ b first waited used late, new = first ++ (waited ++ used ++ late) ∧ A b first ∧
        W b waited ∧ U b first a used ∧ F late := by
  refine hacquire.bind fun b first hfirst => ?_
  have hbody : Logs (ready b >>= fun _ => use b) fun a new =>
      ∃ waited used, new = waited ++ used ∧ W b waited ∧ U b first a used := by
    refine (hready b).bind fun _ waited hwaited => ?_
    exact (huse b first hfirst).mono fun a used hused => ⟨waited, used, rfl, hwaited, hused⟩
  refine (hbody.tryFinally (hrelease b)).mono ?_
  rintro a new ⟨_, late, rfl, ⟨waited, used, rfl, hwaited, hused⟩, hlate⟩
  exact ⟨b, first, waited, used, late, rfl, hfirst, hwaited, hused, hlate⟩

/-- A program for a part of the environment, from its first exchange on. -/
protected theorem embed {query : Q' → Q} {x : Program σ (fun q => R (query q)) ε α}
    {S : α → List (Exchange σ fun q => R (query q)) → Prop}
    (hx : ∀ s a u, x ⟨s, []⟩ = (.ok a, u) → S a u.log) :
    Logs (embed query x) fun a new => ∃ log, new = log.map (Exchange.embed query) ∧ S a log := by
  intro w a v hrun
  obtain ⟨hok, rfl⟩ := Prod.mk.inj hrun
  exact ⟨_, rfl, _, rfl, hx w.state a _ (Prod.ext hok rfl)⟩

end Logs

/-! ## Jobs -/

variable {X D : Type} {idle : X → Prop} {P : D → List X → Prop}

/-- Every job has a segment of the log, in their order, and the rest is idle. -/
inductive Segmented (idle : X → Prop) (P : D → List X → Prop) : List D → List X → Prop where
  | nil : Segmented idle P [] []
  | idle {x : X} {ds : List D} {log : List X} : idle x → Segmented idle P ds log →
      Segmented idle P ds (x :: log)
  | job {d : D} {ds : List D} {segment log : List X} : P d segment → Segmented idle P ds log →
      Segmented idle P (d :: ds) (segment ++ log)

theorem Segmented.of_idle {log : List X} (h : ∀ x ∈ log, idle x) : Segmented idle P [] log := by
  induction log with
  | nil => exact .nil
  | cons x log ih =>
      obtain ⟨hx, hlog⟩ := List.forall_mem_cons.mp h
      exact .idle hx (ih hlog)

theorem Segmented.append {ds es : List D} {log log' : List X} (h : Segmented idle P ds log)
    (h' : Segmented idle P es log') : Segmented idle P (ds ++ es) (log ++ log') := by
  induction h with
  | nil => exact h'
  | idle hx _ ih => exact .idle hx ih
  | job hP _ ih =>
      rw [List.append_assoc]
      exact .job hP ih

end Dialogue
