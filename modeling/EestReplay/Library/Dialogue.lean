import Mathlib.Data.List.Basic

/-! # Programs in dialogue with an environment

A program asks queries, may raise, and leaves a log of what was asked, in which
state of the environment, and what was answered. The log survives an exception.
-/

namespace Dialogue

variable {σ Q : Type} {R : Q → Type} {ε α β : Type}

/-- An environment answers every query and moves to its next state. -/
structure Peer (σ : Type) {Q : Type} (R : Q → Type) where
  answer : σ → (q : Q) → R q × σ

/-- One query, the environment's state when it was asked, and the answer. -/
structure Exchange (σ : Type) {Q : Type} (R : Q → Type) where
  before : σ
  query : Q
  reply : R query

/-- The query was answered with a value. -/
def Exchange.succeeded {A : Q → Type} (x : Exchange σ fun q => Except ε (A q)) : Bool :=
  x.reply.isOk

structure World (σ : Type) {Q : Type} (R : Q → Type) where
  state : σ
  log : List (Exchange σ R)

/-- The world after `peer` has answered `q`. -/
def World.step (peer : Peer σ R) (w : World σ R) (q : Q) : World σ R :=
  ⟨(peer.answer w.state q).2, w.log ++ [⟨w.state, q, (peer.answer w.state q).1⟩]⟩

@[simp] theorem World.step_state (peer : Peer σ R) (w : World σ R) (q : Q) :
    (w.step peer q).state = (peer.answer w.state q).2 := rfl

@[simp] theorem World.step_log (peer : Peer σ R) (w : World σ R) (q : Q) :
    (w.step peer q).log = w.log ++ [⟨w.state, q, (peer.answer w.state q).1⟩] := rfl

/-- A program returns or raises; either way the world it reached is kept. -/
def Program (σ : Type) {Q : Type} (R : Q → Type) (ε α : Type) : Type :=
  World σ R → Except ε α × World σ R

instance : Monad (Program σ R ε) where
  pure a w := (.ok a, w)
  bind x f w :=
    match x w with
    | (.ok a, w') => f a w'
    | (.error e, w') => (.error e, w')

instance : MonadExceptOf ε (Program σ R ε) where
  throw e w := (.error e, w)
  tryCatch x handler w :=
    match x w with
    | (.ok a, w') => (.ok a, w')
    | (.error e, w') => handler e w'

/-- Ask the environment and return its answer. -/
def ask (peer : Peer σ R) (q : Q) : Program σ R ε (R q) := fun w =>
  (.ok (peer.answer w.state q).1, w.step peer q)

/-- Return a value or raise an exception. -/
def lift : Except ε α → Program σ R ε α
  | .ok a => pure a
  | .error e => throw e

/-- Ask something that the environment answers with a value or an exception. -/
def call {A : Q → Type} (peer : Peer σ fun q => Except ε (A q)) (q : Q) :
    Program σ (fun q => Except ε (A q)) ε (A q) := do
  lift (← ask peer q)

/-! ## Execution -/

@[simp] theorem pure_apply (a : α) (w : World σ R) :
    (pure a : Program σ R ε α) w = (.ok a, w) := rfl

@[simp] theorem throw_apply (e : ε) (w : World σ R) :
    (throw e : Program σ R ε α) w = (.error e, w) := rfl

@[simp] theorem ask_apply (peer : Peer σ R) (q : Q) (w : World σ R) :
    (ask peer q : Program σ R ε (R q)) w = (.ok (peer.answer w.state q).1, w.step peer q) := rfl

@[simp] theorem lift_apply (r : Except ε α) (w : World σ R) :
    (lift r : Program σ R ε α) w = (r, w) := by
  cases r <;> rfl

@[simp] theorem call_apply {A : Q → Type} (peer : Peer σ fun q => Except ε (A q)) (q : Q)
    (w : World σ fun q => Except ε (A q)) :
    call peer q w = ((peer.answer w.state q).1, w.step peer q) := by
  show lift (peer.answer w.state q).1 (w.step peer q) = _
  rw [lift_apply]

theorem tryCatch_apply (x : Program σ R ε α) (handler : ε → Program σ R ε α) (w : World σ R) :
    tryCatch x handler w =
      match x w with
      | (.ok a, w') => (.ok a, w')
      | (.error e, w') => handler e w' := rfl

theorem bind_apply (x : Program σ R ε α) (f : α → Program σ R ε β) (w : World σ R) :
    (x >>= f) w =
      match x w with
      | (.ok a, w') => f a w'
      | (.error e, w') => (.error e, w') := rfl

theorem bind_of_ok {x : Program σ R ε α} {f : α → Program σ R ε β} {w u : World σ R} {a : α}
    (h : x w = (.ok a, u)) : (x >>= f) w = f a u := by
  rw [bind_apply, h]

theorem bind_of_error {x : Program σ R ε α} {f : α → Program σ R ε β} {w u : World σ R} {e : ε}
    (h : x w = (.error e, u)) : (x >>= f) w = (.error e, u) := by
  rw [bind_apply, h]

theorem lift_bind_lift (r : Except ε α) (f : α → Except ε β) :
    (lift r >>= fun a => lift (f a) : Program σ R ε β) = lift (r >>= f) := by
  cases r <;> rfl

/-- A bind returns exactly when both of its parts do. -/
theorem bind_eq_ok {x : Program σ R ε α} {f : α → Program σ R ε β} {w w' : World σ R} {b : β} :
    (x >>= f) w = (.ok b, w') ↔ ∃ a u, x w = (.ok a, u) ∧ f a u = (.ok b, w') := by
  rw [bind_apply]
  rcases h : x w with ⟨r, u⟩
  cases r <;> simp

/-- A bind raises in its first part, or in its second after the first returned. -/
theorem bind_eq_error {x : Program σ R ε α} {f : α → Program σ R ε β} {w w' : World σ R}
    {e : ε} :
    (x >>= f) w = (.error e, w') ↔
      x w = (.error e, w') ∨ ∃ a u, x w = (.ok a, u) ∧ f a u = (.error e, w') := by
  rw [bind_apply]
  rcases h : x w with ⟨r, u⟩
  cases r <;> simp

/-- A result of which something is known has returned. -/
theorem ok_of_map_ok {r : Except ε α} {f : α → β} {b : β} (h : r.map f = .ok b) :
    ∃ a, r = .ok a ∧ f a = b := by
  cases r with
  | error e => cases h
  | ok a => exact ⟨a, rfl, Except.ok.inj h⟩

/-- Everything that a program asked behind the world it started in. -/
def asked (x : Program σ R ε α) (w : World σ R) : List (Exchange σ R) :=
  (x w).2.log.drop w.log.length

theorem asked_eq {x : Program σ R ε α} {w : World σ R} {new : List (Exchange σ R)}
    (h : (x w).2.log = w.log ++ new) : asked x w = new := by
  unfold asked
  rw [h, List.drop_left]

/-! ## Contracts

`Triple P x S E`: from a world in `P`, a return of `x` ends in `S` and an exception
of `x` ends in `E`. -/

def Triple (P : World σ R → Prop) (x : Program σ R ε α) (S : α → World σ R → Prop)
    (E : ε → World σ R → Prop) : Prop :=
  ∀ w, P w →
    (∀ a w', x w = (.ok a, w') → S a w') ∧ ∀ e w', x w = (.error e, w') → E e w'

namespace Triple

variable {P P' : World σ R → Prop} {S S' : α → World σ R → Prop} {E E' : ε → World σ R → Prop}

theorem conseq {x : Program σ R ε α} (h : Triple P x S E) (hP : ∀ w, P' w → P w)
    (hS : ∀ a w, S a w → S' a w) (hE : ∀ e w, E e w → E' e w) : Triple P' x S' E' := by
  intro w hw
  obtain ⟨hok, herr⟩ := h w (hP w hw)
  exact ⟨fun a w' hx => hS a w' (hok a w' hx), fun e w' hx => hE e w' (herr e w' hx)⟩

/-- A property that holds at the end in either case. -/
theorem result {x : Program σ R ε α} {I : World σ R → Prop}
    (h : Triple P x (fun _ => I) (fun _ => I)) (w : World σ R) (hw : P w) : I (x w).2 := by
  obtain ⟨hok, herr⟩ := h w hw
  rcases hx : x w with ⟨r, u⟩
  cases r with
  | ok a => exact hok a u hx
  | error e => exact herr e u hx

/-- Strengthen the precondition only. -/
theorem pre {x : Program σ R ε α} (h : Triple P x S E) (hP : ∀ w, P' w → P w) :
    Triple P' x S E :=
  h.conseq hP (fun _ _ => id) (fun _ _ => id)

protected theorem pure {a : α} (h : ∀ w, P w → S a w) :
    Triple P (pure a : Program σ R ε α) S E := by
  intro w hw
  refine ⟨?_, ?_⟩
  · intro b w' hx
    obtain ⟨rfl, rfl⟩ : a = b ∧ w = w' := by simpa using hx
    exact h w hw
  · intro e w' hx
    simp at hx

protected theorem throw {e : ε} (h : ∀ w, P w → E e w) :
    Triple P (throw e : Program σ R ε α) S E := by
  intro w hw
  refine ⟨?_, ?_⟩
  · intro b w' hx
    simp at hx
  · intro e' w' hx
    obtain ⟨rfl, rfl⟩ : e = e' ∧ w = w' := by simpa using hx
    exact h w hw

protected theorem lift {r : Except ε α} (hok : ∀ a w, r = .ok a → P w → S a w)
    (herr : ∀ e w, r = .error e → P w → E e w) :
    Triple P (lift r : Program σ R ε α) S E := by
  cases r with
  | ok a => exact Triple.pure (fun w hw => hok a w rfl hw)
  | error e => exact Triple.throw (fun w hw => herr e w rfl hw)

protected theorem bind {x : Program σ R ε α} {f : α → Program σ R ε β}
    {T : β → World σ R → Prop} (hx : Triple P x S E) (hf : ∀ a, Triple (S a) (f a) T E) :
    Triple P (x >>= f) T E := by
  intro w hw
  obtain ⟨hok, herr⟩ := hx w hw
  refine ⟨?_, ?_⟩
  · intro b w' h
    obtain ⟨a, u, hxu, hfu⟩ := bind_eq_ok.mp h
    exact (hf a u (hok a u hxu)).1 b w' hfu
  · intro e w' h
    rcases bind_eq_error.mp h with hxe | ⟨a, u, hxu, hfu⟩
    · exact herr e w' hxe
    · exact (hf a u (hok a u hxu)).2 e w' hfu

protected theorem call {A : Q → Type} {peer : Peer σ fun q => Except ε (A q)} {q : Q}
    {P : World σ (fun q => Except ε (A q)) → Prop}
    {S : A q → World σ (fun q => Except ε (A q)) → Prop}
    {E : ε → World σ (fun q => Except ε (A q)) → Prop}
    (hok : ∀ w a, P w → (peer.answer w.state q).1 = .ok a → S a (w.step peer q))
    (herr : ∀ w e, P w → (peer.answer w.state q).1 = .error e → E e (w.step peer q)) :
    Triple P (call peer q) S E := by
  intro w hw
  refine ⟨?_, ?_⟩
  · intro a w' hx
    rw [call_apply] at hx
    obtain ⟨ha, rfl⟩ := Prod.mk.inj hx
    exact hok w a hw ha
  · intro e w' hx
    rw [call_apply] at hx
    obtain ⟨he, rfl⟩ := Prod.mk.inj hx
    exact herr w e hw he

/-- Once a call has returned, it is the last entry of the log. -/
protected theorem call_last {A : Q → Type} {peer : Peer σ fun q => Except ε (A q)} {q : Q}
    {P : List (Exchange σ fun q => Except ε (A q)) → Prop} :
    Triple (fun w => P w.log) (call peer q)
      (fun a w => ∃ past s, w.log = past ++ [⟨s, q, .ok a⟩] ∧ P past) (fun _ _ => True) := by
  apply Triple.call
  · intro w a hw hreply
    exact ⟨w.log, w.state, by rw [World.step_log, hreply], hw⟩
  · exact fun _ _ _ _ => trivial

protected theorem tryCatch {x : Program σ R ε α} {handler : ε → Program σ R ε α}
    {F : ε → World σ R → Prop} (hx : Triple P x S F) (hh : ∀ e, Triple (F e) (handler e) S E) :
    Triple P (tryCatch x handler) S E := by
  intro w hw
  obtain ⟨hok, herr⟩ := hx w hw
  rcases hxw : x w with ⟨r, u⟩
  cases r with
  | ok a =>
      rw [tryCatch_apply, hxw]
      refine ⟨?_, ?_⟩
      · intro b w' h
        obtain ⟨rfl, rfl⟩ : a = b ∧ u = w' := by simpa using h
        exact hok a u hxw
      · intro e w' h
        simp at h
  | error e =>
      rw [tryCatch_apply, hxw]
      exact hh e u (herr e u hxw)

end Triple

/-! ## Histories -/

/-- `φ` holds of every entry of a history, given the entries before it. -/
def Always {X : Type} (φ : List X → X → Prop) (log : List X) : Prop :=
  ∀ past x rest, log = past ++ x :: rest → φ past x

@[simp] theorem always_nil {X : Type} (φ : List X → X → Prop) : Always φ [] := by
  intro past x rest h
  simp at h

/-- A history grows by one entry exactly when that entry meets `φ` after it. -/
theorem always_concat {X : Type} {φ : List X → X → Prop} {log : List X} {x : X} :
    Always φ (log ++ [x]) ↔ Always φ log ∧ φ log x := by
  constructor
  · intro h
    refine ⟨?_, h log x [] rfl⟩
    intro past y rest hlog
    exact h past y (rest ++ [x]) (by simp [hlog])
  · rintro ⟨hlog, hx⟩ past y rest h
    rcases List.eq_nil_or_concat rest with rfl | ⟨rest, z, rfl⟩
    · obtain ⟨rfl, hy⟩ := List.append_inj' h rfl
      obtain rfl : x = y := by simpa using hy
      exact hx
    · rw [List.concat_eq_append, ← List.cons_append, ← List.append_assoc] at h
      exact hlog past y rest (List.append_inj' h rfl).1

end Dialogue
