import EestReplay.Library.Returns

/-! # Programs that return from the states of an environment

`Total I x S`: from every state of the environment in `I` the program returns, and its result
and the state that it leaves meet `S`. What has been logged before does not matter. -/

namespace Dialogue

variable {σ Q Q' : Type} {R : Q → Type} {ε α β : Type}

def Total (I : σ → Prop) (x : Program σ R ε α) (S : α → σ → Prop) : Prop :=
  ∀ w, I w.state → ∃ a u, x w = (.ok a, u) ∧ S a u.state

namespace Total

variable {I J : σ → Prop} {S T : α → σ → Prop}

theorem conseq {x : Program σ R ε α} (hx : Total I x S) (hI : ∀ s, J s → I s)
    (hS : ∀ a s, S a s → T a s) : Total J x T := by
  intro w hw
  obtain ⟨a, u, hrun, h⟩ := hx w (hI _ hw)
  exact ⟨a, u, hrun, hS a _ h⟩

/-- What does not depend on the state is known from here on. -/
theorem given {x : Program σ R ε α} {p : Prop} (h : p → Total I x S) :
    Total (fun s => I s ∧ p) x S :=
  fun w hw => h hw.2 w hw.1

protected theorem pure {a : α} (h : ∀ s, I s → S a s) :
    Total I (pure a : Program σ R ε α) S :=
  fun w hw => ⟨a, w, rfl, h _ hw⟩

protected theorem lift {a : α} {r : Except ε α} (hr : r = .ok a) (h : ∀ s, I s → S a s) :
    Total I (lift r : Program σ R ε α) S := by
  subst hr
  exact Total.pure h

protected theorem bind {x : Program σ R ε α} {f : α → Program σ R ε β} {T : β → σ → Prop}
    (hx : Total I x S) (hf : ∀ a, Total (S a) (f a) T) : Total I (x >>= f) T := by
  intro w hw
  obtain ⟨a, u, hrun, h⟩ := hx w hw
  obtain ⟨b, v, hrest, h'⟩ := hf a u h
  exact ⟨b, v, (bind_of_ok hrun).trans hrest, h'⟩

/-- A first part whose result is known. -/
theorem bind_eq {x : Program σ R ε α} {f : α → Program σ R ε β} {T : β → σ → Prop} {a : α}
    (hx : Total I x fun b s => b = a ∧ J s) (hf : Total J (f a) T) : Total I (x >>= f) T := by
  intro w hw
  obtain ⟨b, u, hrun, rfl, h⟩ := hx w hw
  obtain ⟨d, v, hrest, h'⟩ := hf u h
  exact ⟨d, v, (bind_of_ok hrun).trans hrest, h'⟩

protected theorem ask {peer : Peer σ R} {q : Q} {S : R q → σ → Prop}
    (h : ∀ s, I s → S (peer.answer s q).1 (peer.answer s q).2) :
    Total I (ask peer q : Program σ R ε (R q)) S :=
  fun w hw => ⟨(peer.answer w.state q).1, w.step peer q, rfl, h _ hw⟩

protected theorem call {A : Q → Type} {peer : Peer σ fun q => Except ε (A q)} {q : Q}
    {S : A q → σ → Prop}
    (h : ∀ s, I s → ∃ a, (peer.answer s q).1 = .ok a ∧ S a (peer.answer s q).2) :
    Total I (call peer q) S := by
  intro w hw
  obtain ⟨a, ha, hS⟩ := h _ hw
  refine ⟨a, w.step peer q, ?_, hS⟩
  rw [call_apply, ha]

/-- A finalizer that returns from any state leaves the result. -/
protected theorem tryFinally {x : Program σ R ε α} {final : Program σ R ε Unit} {P : α → Prop}
    (hx : Total I x fun a _ => P a) (hfinal : Total (fun _ => True) final fun _ _ => True) :
    Total I (tryFinally x final) fun a _ => P a := by
  intro w hw
  obtain ⟨a, u, hrun, h⟩ := hx w hw
  obtain ⟨b, v, hend, -⟩ := hfinal u trivial
  refine ⟨a, v, ?_, h⟩
  rw [tryFinally_apply, hrun]
  exact bind_of_ok hend

/-- A program for a part of the environment, with the result that it has from there. -/
protected theorem embed {query : Q' → Q} {x : Program σ (fun q => R (query q)) ε α}
    (hx : Total I x S) : Total I (embed query x) S := by
  intro w hw
  obtain ⟨a, u, hrun, h⟩ := hx ⟨w.state, []⟩ hw
  have hfst := congrArg Prod.fst hrun
  refine ⟨a, _, Prod.ext hfst rfl, ?_⟩
  rw [embed_state, hrun]
  exact h

/-- From every state, and so from every world. -/
theorem returns {x : Program σ R ε α} {P : α → Prop} (hx : Total (fun _ => True) x fun a _ => P a) :
    Returns x P := by
  intro w
  obtain ⟨a, u, hrun, h⟩ := hx w trivial
  exact ⟨a, u, hrun, h⟩

end Total

end Dialogue
