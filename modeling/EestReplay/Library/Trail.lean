import EestReplay.Library.Nesting

/-! # What a program asks of one kind

`Leaves pick x P`: the queries of `x` that `pick` selects, in the order in which they are
asked, meet `P`, whether `x` returns or raises. -/

namespace Dialogue

variable {σ Q Q' : Type} {R : Q → Type} {ε α β γ : Type}

/-- The selected queries of a log. -/
def picked (pick : Q → Option γ) (log : List (Exchange σ R)) : List γ :=
  log.filterMap fun y => pick y.query

def Leaves (pick : Q → Option γ) (x : Program σ R ε α) (P : List γ → Prop) : Prop :=
  ∀ w, ∃ new, (x w).2.log = w.log ++ new ∧ P (picked pick new)

theorem picked_append (pick : Q → Option γ) (log log' : List (Exchange σ R)) :
    picked pick (log ++ log') = picked pick log ++ picked pick log' :=
  List.filterMap_append

namespace Leaves

variable {pick : Q → Option γ} {P P' T : List γ → Prop} {peer : Peer σ R}

/-- What holds of everything that a run asked. -/
theorem of_asked {x : Program σ R ε α} (hx : Leaves pick x P) (w : World σ R) :
    P (picked pick (asked x w)) := by
  obtain ⟨new, hlog, hnew⟩ := hx w
  rw [asked_eq hlog]
  exact hnew

protected theorem pure {a : α} (h : P []) : Leaves pick (pure a : Program σ R ε α) P :=
  fun _ => ⟨[], by simp, h⟩

/-- A program that asks nothing of the kind. -/
theorem of_asks {allowed : Q → Prop} {x : Program σ R ε α} (hx : Asks peer allowed x)
    (hpick : ∀ q, allowed q → pick q = none) (h : P []) : Leaves pick x P := by
  intro w
  obtain ⟨new, hlog, hallowed⟩ := (hx w).log_eq
  have hnone : picked pick new = [] := by
    apply List.filterMap_eq_nil_iff.mpr
    exact fun y hy => hpick y.query (hallowed y hy)
  exact ⟨new, hlog, by rw [hnone]; exact h⟩

/-- What the first part leaves, and then the second, if it is reached. -/
protected theorem bind {x : Program σ R ε α} {f : α → Program σ R ε β} (hx : Leaves pick x P)
    (hf : ∀ a, Leaves pick (f a) P') (hnil : P' []) (happend : ∀ l m, P l → P' m → T (l ++ m)) :
    Leaves pick (x >>= f) T := by
  intro w
  obtain ⟨new, hlog, hnew⟩ := hx w
  rcases hxw : x w with ⟨r, u⟩
  rw [hxw] at hlog
  cases r with
  | error e =>
      rw [bind_of_error hxw]
      refine ⟨new, hlog, ?_⟩
      have hraise := happend _ [] hnew hnil
      rwa [List.append_nil] at hraise
  | ok a =>
      obtain ⟨rest, hrest, hlater⟩ := hf a u
      rw [bind_of_ok hxw]
      refine ⟨new ++ rest, by rw [hrest, hlog, List.append_assoc], ?_⟩
      rw [picked_append]
      exact happend _ _ hnew hlater

/-- A first part that asks nothing of the kind. -/
theorem asks_bind {allowed : Q → Prop} {x : Program σ R ε α} {f : α → Program σ R ε β}
    (hx : Asks peer allowed x) (hpick : ∀ q, allowed q → pick q = none)
    (hf : ∀ a, Leaves pick (f a) P) (hnil : P []) : Leaves pick (x >>= f) P := by
  refine Leaves.bind (P := fun l => l = []) (of_asks hx hpick rfl) hf hnil ?_
  rintro l m rfl hm
  exact hm

/-- A second part that asks nothing of the kind. -/
theorem bind_asks {allowed : Q → Prop} {x : Program σ R ε α} {f : α → Program σ R ε β}
    (hx : Leaves pick x P) (hf : ∀ a, Asks peer allowed (f a))
    (hpick : ∀ q, allowed q → pick q = none) : Leaves pick (x >>= f) P := by
  refine hx.bind (fun a => of_asks (hf a) hpick (rfl : ([] : List γ) = [])) rfl ?_
  rintro l m hl rfl
  rwa [List.append_nil]

protected theorem capture {x : Program σ R ε α} (hx : Leaves pick x P) :
    Leaves pick (capture x) P :=
  hx

/-- A finalizer that asks nothing of the kind. -/
protected theorem tryFinally {allowed : Q → Prop} {x : Program σ R ε α}
    {final : Program σ R ε Unit} (hx : Leaves pick x P) (hfinal : Asks peer allowed final)
    (hpick : ∀ q, allowed q → pick q = none) : Leaves pick (tryFinally x final) P :=
  hx.capture.bind_asks (fun r => hfinal.bind fun _ => Asks.lift r) hpick

/-- A part of the environment that is not of the kind. -/
protected theorem embed {query : Q' → Q} {x : Program σ (fun q => R (query q)) ε α}
    (hpick : ∀ q, pick (query q) = none) (h : P []) : Leaves pick (embed query x) P := by
  intro w
  refine ⟨_, embed_log query x w, ?_⟩
  have hnone : picked pick ((x ⟨w.state, []⟩).2.log.map (Exchange.embed query)) = [] := by
    apply List.filterMap_eq_nil_iff.mpr
    intro y hy
    obtain ⟨z, -, rfl⟩ := List.mem_map.mp hy
    exact hpick z.query
  rw [hnone]
  exact h

end Leaves

/-! ## Sublists

What is asked of the kind is a part of a list, in its order. -/

/-- `Leaves`, for the parts of a list. -/
def Within (pick : Q → Option γ) (x : Program σ R ε α) (l : List γ) : Prop :=
  Leaves pick x fun m => m.Sublist l

namespace Within

variable {pick : Q → Option γ} {l m : List γ}

theorem of_asks {peer : Peer σ R} {allowed : Q → Prop} {x : Program σ R ε α}
    (hx : Asks peer allowed x) (hpick : ∀ q, allowed q → pick q = none) : Within pick x l :=
  Leaves.of_asks hx hpick (List.nil_sublist l)

protected theorem pure (a : α) : Within pick (pure a : Program σ R ε α) l :=
  Leaves.pure (List.nil_sublist l)

protected theorem bind {x : Program σ R ε α} {f : α → Program σ R ε β} (hx : Within pick x l)
    (hf : ∀ a, Within pick (f a) m) : Within pick (x >>= f) (l ++ m) := by
  refine Leaves.bind hx hf (List.nil_sublist m) ?_
  exact fun k n hk hn => hk.append hn

theorem asks_bind {peer : Peer σ R} {allowed : Q → Prop} {x : Program σ R ε α}
    {f : α → Program σ R ε β} (hx : Asks peer allowed x) (hpick : ∀ q, allowed q → pick q = none)
    (hf : ∀ a, Within pick (f a) l) : Within pick (x >>= f) l :=
  Leaves.asks_bind hx hpick hf (List.nil_sublist l)

/-- A call of the kind. -/
protected theorem call {A : Q → Type} {peer : Peer σ fun q => Except ε (A q)} {q : Q} {b : γ}
    (hpick : pick q = some b) : Within pick (call peer q) [b] := by
  intro w
  refine ⟨[⟨w.state, q, (peer.answer w.state q).1⟩], by rw [call_apply, World.step_log], ?_⟩
  simp [picked, hpick]

end Within

end Dialogue
