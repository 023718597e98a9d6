import EestReplay.Library.Dialogue

/-! # Two programs side by side

`Relates S T x y`: from states in `S`, `x` and `y` come to outcomes in `T` and to states in `S`
again. They may ask different things, of different environments. -/

namespace Dialogue

variable {σ τ Q Q' : Type} {R : Q → Type} {R' : Q' → Type} {ε ε' α α' β β' : Type}

def Relates (S : σ → τ → Prop) (T : Except ε α → Except ε' α' → Prop) (x : Program σ R ε α)
    (y : Program τ R' ε' α') : Prop :=
  ∀ u v, S u.state v.state → T (x u).1 (y v).1 ∧ S (x u).2.state (y v).2.state

/-- A program goes on from the outcome of its first part. -/
theorem bind_eq_lift_bind (x : Program σ R ε α) (f : α → Program σ R ε β) (w : World σ R) :
    (x >>= f) w = (lift (x w).1 >>= f) (x w).2 := by
  rw [bind_apply, bind_apply, lift_apply]

/-- Second parts that do the same from every end of the first. -/
theorem bind_congr_at {x : Program σ R ε α} {f g : α → Program σ R ε β} {w : World σ R}
    (h : ∀ a u, x w = (.ok a, u) → f a u = g a u) : (x >>= f) w = (x >>= g) w := by
  rw [bind_apply, bind_apply]
  rcases hx : x w with ⟨r, u⟩
  cases r with
  | ok a => exact h a u hx
  | error e => rfl

namespace Relates

variable {S : σ → τ → Prop} {T T' : Except ε α → Except ε' α' → Prop}
  {U : Except ε β → Except ε' β' → Prop}

theorem mono {x : Program σ R ε α} {y : Program τ R' ε' α'} (h : Relates S T x y)
    (hT : ∀ r q, T r q → T' r q) : Relates S T' x y := by
  intro u v hs
  obtain ⟨hrel, hs'⟩ := h u v hs
  exact ⟨hT _ _ hrel, hs'⟩

/-- Programs that end without a question. -/
theorem ends {x : Program σ R ε α} {y : Program τ R' ε' α'} {r : Except ε α} {q : Except ε' α'}
    (hx : ∀ w, x w = (r, w)) (hy : ∀ w, y w = (q, w)) (h : T r q) : Relates S T x y := by
  intro u v hs
  rw [hx, hy]
  exact ⟨h, hs⟩

protected theorem lift {r : Except ε α} {q : Except ε' α'} (h : T r q) :
    Relates S T (lift r : Program σ R ε α) (lift q : Program τ R' ε' α') :=
  ends (lift_apply r) (lift_apply q) h

/-- The second parts are related from any outcomes in which the first ones can end. -/
protected theorem bind {x : Program σ R ε α} {y : Program τ R' ε' α'} {f : α → Program σ R ε β}
    {g : α' → Program τ R' ε' β'} (hx : Relates S T x y)
    (h : ∀ r q, T r q →
      Relates S U (Dialogue.lift r >>= f : Program σ R ε β) (Dialogue.lift q >>= g)) :
    Relates S U (x >>= f) (y >>= g) := by
  intro u v hs
  obtain ⟨hrel, hs'⟩ := hx u v hs
  rw [bind_eq_lift_bind x, bind_eq_lift_bind y]
  exact h _ _ hrel _ _ hs'

/-- First parts with one outcome. -/
theorem bind_same {x : Program σ R ε α} {y : Program τ R' ε α} {f : α → Program σ R ε β}
    {g : α → Program τ R' ε β'} {U : Except ε β → Except ε β' → Prop} (hx : Relates S Eq x y)
    (hf : ∀ a, Relates S U (f a) (g a)) (herr : ∀ e, U (.error e) (.error e)) :
    Relates S U (x >>= f) (y >>= g) := by
  refine hx.bind ?_
  rintro r q rfl
  cases r with
  | ok a => exact hf a
  | error e => exact ends (fun _ => rfl) (fun _ => rfl) (herr e)

/-- The first program goes on to a value of its own. -/
theorem map_left {x : Program σ R ε α} {y : Program τ R' ε' α'} {f : α → β}
    {U : Except ε β → Except ε' α' → Prop} (hx : Relates S T x y)
    (h : ∀ r q, T r q → U (r.map f) q) : Relates S U (x >>= fun a => pure (f a)) y := by
  intro u v hs
  obtain ⟨hrel, hs'⟩ := hx u v hs
  have hmap : (Dialogue.lift (x u).1 >>= fun a => pure (f a) : Program σ R ε β) (x u).2 =
      ((x u).1.map f, (x u).2) := by
    cases (x u).1 <;> rfl
  rw [bind_eq_lift_bind x, hmap]
  exact ⟨h _ _ hrel, hs'⟩

protected theorem ask {peer : Peer σ R} {peer' : Peer τ R'} {q : Q} {p : Q'}
    {T : Except ε (R q) → Except ε' (R' p) → Prop}
    (h : ∀ s t, S s t → T (.ok (peer.answer s q).1) (.ok (peer'.answer t p).1) ∧
      S (peer.answer s q).2 (peer'.answer t p).2) :
    Relates S T (ask peer q) (ask peer' p) :=
  fun u v hs => h u.state v.state hs

protected theorem call {A : Q → Type} {A' : Q' → Type} {peer : Peer σ fun q => Except ε (A q)}
    {peer' : Peer τ fun q => Except ε' (A' q)} {q : Q} {p : Q'}
    {T : Except ε (A q) → Except ε' (A' p) → Prop}
    (h : ∀ s t, S s t → T (peer.answer s q).1 (peer'.answer t p).1 ∧
      S (peer.answer s q).2 (peer'.answer t p).2) :
    Relates S T (call peer q) (call peer' p) := by
  intro u v hs
  rw [call_apply, call_apply]
  exact h u.state v.state hs

end Relates

end Dialogue
