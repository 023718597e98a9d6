import EestReplay.Library.Nesting

/-! # What programs return

`Yields x P`: whatever `x` returns meets `P`. `Returns x P`: `x` does return, from every
world, and what it returns meets `P`. -/

namespace Dialogue

variable {σ Q Q' : Type} {R : Q → Type} {ε α β : Type}

def Yields (x : Program σ R ε α) (P : α → Prop) : Prop := ∀ w a, (x w).1 = .ok a → P a

def Returns (x : Program σ R ε α) (P : α → Prop) : Prop := ∀ w, ∃ a u, x w = (.ok a, u) ∧ P a

/-- The result of a call and of what its caller makes of the reply. -/
theorem call_bind_fst {A : Q → Type} {peer : Peer σ fun q => Except ε (A q)} {q : Q}
    {f : A q → Program σ (fun q => Except ε (A q)) ε β} {w : World σ fun q => Except ε (A q)}
    {r : Except ε (A q)} {g : A q → Except ε β} (hreply : (peer.answer w.state q).1 = r)
    (hf : ∀ a, (f a (w.step peer q)).1 = g a) : ((call peer q >>= f) w).1 = r >>= g := by
  have hcall := call_apply peer q w
  rw [hreply] at hcall
  cases r with
  | error e =>
      rw [bind_of_error hcall]
      rfl
  | ok a =>
      rw [bind_of_ok hcall]
      exact hf a

/-! ## Partial correctness -/

namespace Yields

variable {P P' : α → Prop}

theorem mono {x : Program σ R ε α} (hx : Yields x P) (h : ∀ a, P a → P' a) : Yields x P' :=
  fun w a ha => h a (hx w a ha)

theorem any (x : Program σ R ε α) : Yields x fun _ => True := fun _ _ _ => trivial

protected theorem pure {a : α} (h : P a) : Yields (pure a : Program σ R ε α) P := by
  intro w b hb
  obtain rfl := Except.ok.inj hb
  exact h

protected theorem lift {r : Except ε α} (h : ∀ a, r = .ok a → P a) :
    Yields (lift r : Program σ R ε α) P := by
  intro w b hb
  rw [lift_apply] at hb
  exact h b hb

protected theorem bind {x : Program σ R ε α} {f : α → Program σ R ε β} {S : β → Prop}
    (hx : Yields x P) (hf : ∀ a, P a → Yields (f a) S) : Yields (x >>= f) S := by
  intro w b hb
  rcases hxw : x w with ⟨r, u⟩
  cases r with
  | error e =>
      rw [bind_of_error hxw] at hb
      cases hb
  | ok a =>
      rw [bind_of_ok hxw] at hb
      exact hf a (hx w a (congrArg Prod.fst hxw)) u b hb

/-- Nothing is known about the first part. -/
theorem then_ {x : Program σ R ε α} {f : α → Program σ R ε β} {S : β → Prop}
    (hf : ∀ a, Yields (f a) S) : Yields (x >>= f) S :=
  (any x).bind fun a _ => hf a

protected theorem ask {peer : Peer σ R} {q : Q} {P : R q → Prop}
    (h : ∀ s, P (peer.answer s q).1) : Yields (ask peer q : Program σ R ε (R q)) P := by
  intro w a ha
  obtain rfl := Except.ok.inj ha
  exact h w.state

/-- The result of a captured program. -/
protected theorem capture {x : Program σ R ε α} (hx : Yields x P) :
    Yields (capture x) fun r => ∀ a, r = .ok a → P a := by
  intro w r hr a ha
  rw [capture_apply] at hr
  obtain rfl := Except.ok.inj hr
  exact hx w a ha

/-- A finalizer may raise, and otherwise leaves the result. -/
protected theorem tryFinally {x : Program σ R ε α} {final : Program σ R ε Unit}
    (hx : Yields x P) : Yields (tryFinally x final) P :=
  hx.capture.bind fun _ hr => then_ fun _ => Yields.lift hr

protected theorem embed {query : Q' → Q} {x : Program σ (fun q => R (query q)) ε α}
    (hx : ∀ s a, (x ⟨s, []⟩).1 = .ok a → P a) : Yields (embed query x) P :=
  fun w a ha => hx w.state a ha

end Yields

/-! ## Total correctness -/

namespace Returns

variable {P P' : α → Prop}

/-- A program that always returns the same. -/
theorem of_fst {x : Program σ R ε α} {a : α} (hx : ∀ w, (x w).1 = .ok a) (h : P a) : Returns x P :=
  fun w => ⟨a, (x w).2, Prod.ext (hx w) rfl, h⟩

protected theorem pure {a : α} (h : P a) : Returns (pure a : Program σ R ε α) P :=
  fun w => ⟨a, w, rfl, h⟩

protected theorem lift {a : α} {r : Except ε α} (hr : r = .ok a) (h : P a) :
    Returns (lift r : Program σ R ε α) P := by
  subst hr
  exact Returns.pure h

protected theorem bind {x : Program σ R ε α} {f : α → Program σ R ε β} {S : β → Prop}
    (hx : Returns x P) (hf : ∀ a, P a → Returns (f a) S) : Returns (x >>= f) S := by
  intro w
  obtain ⟨a, u, hxw, ha⟩ := hx w
  obtain ⟨b, v, hfu, hb⟩ := hf a ha u
  exact ⟨b, v, (bind_of_ok hxw).trans hfu, hb⟩

protected theorem ask {peer : Peer σ R} {q : Q} {P : R q → Prop}
    (h : ∀ s, P (peer.answer s q).1) : Returns (ask peer q : Program σ R ε (R q)) P :=
  fun w => ⟨(peer.answer w.state q).1, w.step peer q, rfl, h w.state⟩

protected theorem call {A : Q → Type} {peer : Peer σ fun q => Except ε (A q)} {q : Q} {a : A q}
    {P : A q → Prop} (hanswer : ∀ s, (peer.answer s q).1 = .ok a) (h : P a) :
    Returns (call peer q) P := by
  intro w
  refine ⟨a, w.step peer q, ?_, h⟩
  rw [call_apply, hanswer]

protected theorem capture {x : Program σ R ε α} (hx : Returns x P) :
    Returns (capture x) fun r => ∃ a, r = .ok a ∧ P a := by
  intro w
  obtain ⟨a, u, hxw, ha⟩ := hx w
  refine ⟨.ok a, u, ?_, a, rfl, ha⟩
  rw [capture_apply, hxw]

protected theorem tryFinally {x : Program σ R ε α} {final : Program σ R ε Unit}
    (hx : Returns x P) (hfinal : Returns final fun _ => True) :
    Returns (tryFinally x final) P :=
  hx.capture.bind fun _ ⟨_, hr, ha⟩ => hfinal.bind fun _ _ => Returns.lift hr ha

protected theorem embed {query : Q' → Q} {x : Program σ (fun q => R (query q)) ε α}
    (hx : Returns x P) : Returns (embed query x) P := by
  intro w
  obtain ⟨a, u, hxw, ha⟩ := hx ⟨w.state, []⟩
  refine ⟨a, (embed query x w).2, ?_, ha⟩
  exact Prod.ext ((embed_fst query x w).trans (congrArg Prod.fst hxw)) rfl

end Returns

end Dialogue
