import EestReplay.Library.Dialogue

/-! # What a program may ask

`Asks peer allowed x` bounds the queries of a program. What every allowed query preserves
is then preserved by the program, whether it returns or raises.
-/

namespace Dialogue

variable {σ Q : Type} {R : Q → Type} {ε α β : Type}

/-- The worlds that allowed queries lead to. -/
inductive Reach (peer : Peer σ R) (allowed : Q → Prop) (w : World σ R) : World σ R → Prop where
  | refl : Reach peer allowed w w
  | step {u : World σ R} (q : Q) : Reach peer allowed w u → allowed q →
      Reach peer allowed w (u.step peer q)

namespace Reach

variable {peer : Peer σ R} {allowed allowed' : Q → Prop} {w u v : World σ R}

theorem trans (hwu : Reach peer allowed w u) (huv : Reach peer allowed u v) :
    Reach peer allowed w v := by
  induction huv with
  | refl => exact hwu
  | step q _ hq ih => exact ih.step q hq

theorem mono (h : ∀ q, allowed q → allowed' q) (hwu : Reach peer allowed w u) :
    Reach peer allowed' w u := by
  induction hwu with
  | refl => exact .refl
  | step q _ hq ih => exact ih.step q (h q hq)

/-- What allowed queries preserve. -/
theorem invariant {I : World σ R → Prop}
    (hstep : ∀ u q, allowed q → I u → I (u.step peer q)) (hwu : Reach peer allowed w u)
    (hw : I w) : I u := by
  induction hwu with
  | refl => exact hw
  | step q _ hq ih => exact hstep _ q hq ih

/-- The log grows by entries that meet what every allowed answer meets. -/
theorem log_forall {p : Exchange σ R → Prop}
    (hp : ∀ s q, allowed q → p ⟨s, q, (peer.answer s q).1⟩) (hwu : Reach peer allowed w u) :
    ∃ new, u.log = w.log ++ new ∧ ∀ x ∈ new, p x := by
  induction hwu with
  | refl => exact ⟨[], by simp, by simp⟩
  | @step u q _ hq ih =>
      obtain ⟨new, hlog, hnew⟩ := ih
      refine ⟨new ++ [⟨u.state, q, (peer.answer u.state q).1⟩], ?_, ?_⟩
      · rw [World.step_log, hlog, List.append_assoc]
      · intro x hx
        rcases List.mem_append.mp hx with hx | hx
        · exact hnew x hx
        · obtain rfl := List.mem_singleton.mp hx
          exact hp u.state q hq

/-- The log grows by allowed queries. -/
theorem log_eq (hwu : Reach peer allowed w u) :
    ∃ new, u.log = w.log ++ new ∧ ∀ x ∈ new, allowed x.query :=
  log_forall (p := fun x => allowed x.query) (fun _ _ hq => hq) hwu

end Reach

/-- The program asks allowed queries only. -/
def Asks (peer : Peer σ R) (allowed : Q → Prop) (x : Program σ R ε α) : Prop :=
  ∀ w, Reach peer allowed w (x w).2

namespace Asks

variable {peer : Peer σ R} {allowed allowed' : Q → Prop}

theorem mono {x : Program σ R ε α} (hx : Asks peer allowed x)
    (h : ∀ q, allowed q → allowed' q) : Asks peer allowed' x :=
  fun w => (hx w).mono h

protected theorem pure (a : α) : Asks peer allowed (pure a : Program σ R ε α) :=
  fun _ => .refl

protected theorem throw (e : ε) : Asks peer allowed (throw e : Program σ R ε α) :=
  fun _ => .refl

protected theorem lift (r : Except ε α) : Asks peer allowed (lift r : Program σ R ε α) := by
  intro w
  rw [lift_apply]
  exact .refl

protected theorem ask {q : Q} (hq : allowed q) :
    Asks peer allowed (ask peer q : Program σ R ε (R q)) :=
  fun _ => Reach.refl.step q hq

protected theorem bind {x : Program σ R ε α} {f : α → Program σ R ε β}
    (hx : Asks peer allowed x) (hf : ∀ a, Asks peer allowed (f a)) :
    Asks peer allowed (x >>= f) := by
  intro w
  have hreach := hx w
  rw [bind_apply]
  rcases hxw : x w with ⟨r, u⟩
  rw [hxw] at hreach
  cases r with
  | ok a => exact hreach.trans (hf a u)
  | error e => exact hreach

/-- What follows a value may rest on where it comes from. -/
protected theorem lift_bind {r : Except ε α} {f : α → Program σ R ε β}
    (hf : ∀ a, r = .ok a → Asks peer allowed (f a)) : Asks peer allowed (lift r >>= f) := by
  cases r with
  | error e => exact Asks.throw e
  | ok a => exact hf a rfl

protected theorem call {A : Q → Type} {peer : Peer σ fun q => Except ε (A q)} {q : Q}
    (hq : allowed q) : Asks peer allowed (call peer q) := by
  intro w
  rw [call_apply]
  exact Reach.refl.step q hq

protected theorem tryCatch {x : Program σ R ε α} {handler : ε → Program σ R ε α}
    (hx : Asks peer allowed x) (hh : ∀ e, Asks peer allowed (handler e)) :
    Asks peer allowed (tryCatch x handler) := by
  intro w
  have hreach := hx w
  rw [tryCatch_apply]
  rcases hxw : x w with ⟨r, u⟩
  rw [hxw] at hreach
  cases r with
  | ok a => exact hreach
  | error e => exact hreach.trans (hh e u)

/-- What allowed queries preserve holds when the program returns and when it raises. -/
theorem triple {x : Program σ R ε α} (hx : Asks peer allowed x) {I : World σ R → Prop}
    (hstep : ∀ u q, allowed q → I u → I (u.step peer q)) :
    Triple I x (fun _ => I) (fun _ => I) := by
  intro w hw
  have hend := (hx w).invariant hstep hw
  refine ⟨?_, ?_⟩
  · intro a w' h
    rw [h] at hend
    exact hend
  · intro e w' h
    rw [h] at hend
    exact hend

end Asks

end Dialogue
