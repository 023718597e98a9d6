import EestReplay.Library.Footprint
import Mathlib.Data.List.TakeWhile

/-! # Programs inside programs

Running a program to its end whatever it raises, finalizers, and programs that ask only
a part of what their environment answers. -/

namespace Dialogue

variable {σ Q Q' : Type} {R : Q → Type} {ε α β : Type}

/-! ## Finalizers -/

/-- Run a program and keep what it ends with. -/
def capture (x : Program σ R ε α) : Program σ R ε (Except ε α) := fun w =>
  (.ok (x w).1, (x w).2)

/-- `try: x finally: final`. An exception of the finalizer takes the place of the result. -/
def tryFinally (x : Program σ R ε α) (final : Program σ R ε Unit) : Program σ R ε α := do
  let result ← capture x
  final
  lift result

@[simp] theorem capture_apply (x : Program σ R ε α) (w : World σ R) :
    capture x w = (.ok (x w).1, (x w).2) := rfl

theorem tryFinally_apply (x : Program σ R ε α) (final : Program σ R ε Unit) (w : World σ R) :
    tryFinally x final w = (final >>= fun _ => lift (x w).1) (x w).2 := rfl

protected theorem Asks.capture {peer : Peer σ R} {allowed : Q → Prop} {x : Program σ R ε α}
    (hx : Asks peer allowed x) : Asks peer allowed (capture x) :=
  hx

/-- What holds when the program ends, and then what the finalizer makes of it. -/
protected theorem Triple.tryFinally {P : World σ R → Prop} {x : Program σ R ε α}
    {final : Program σ R ε Unit} {S T : α → World σ R → Prop} {E F : ε → World σ R → Prop}
    (hx : Triple P x S E) (hok : ∀ a, Triple (S a) final (fun _ => T a) F)
    (herr : ∀ e, Triple (E e) final (fun _ => F e) F) : Triple P (tryFinally x final) T F := by
  intro w hw
  obtain ⟨hreturn, hraise⟩ := hx w hw
  rw [tryFinally_apply]
  rcases hxw : x w with ⟨r, u⟩
  cases r with
  | ok a => exact Triple.bind (hok a) (fun _ => Triple.pure fun _ h => h) u (hreturn a u hxw)
  | error e => exact Triple.bind (herr e) (fun _ => Triple.throw fun _ h => h) u (hraise e u hxw)

/-! ## Parts of an environment -/

/-- The part of an environment that answers some of its queries. -/
def Peer.part (peer : Peer σ R) (query : Q' → Q) : Peer σ fun q => R (query q) where
  answer s q := peer.answer s (query q)

/-- An exchange with a part, as one with the whole. -/
def Exchange.embed (query : Q' → Q) (x : Exchange σ fun q => R (query q)) : Exchange σ R :=
  ⟨x.before, query x.query, x.reply⟩

/-- A program for a part of the environment, run in the whole. -/
def embed (query : Q' → Q) (x : Program σ (fun q => R (query q)) ε α) : Program σ R ε α := fun w =>
  ((x ⟨w.state, []⟩).1,
    ⟨(x ⟨w.state, []⟩).2.state, w.log ++ (x ⟨w.state, []⟩).2.log.map (Exchange.embed query)⟩)

@[simp] theorem embed_fst (query : Q' → Q) (x : Program σ (fun q => R (query q)) ε α)
    (w : World σ R) : (embed query x w).1 = (x ⟨w.state, []⟩).1 := rfl

@[simp] theorem embed_state (query : Q' → Q) (x : Program σ (fun q => R (query q)) ε α)
    (w : World σ R) : (embed query x w).2.state = (x ⟨w.state, []⟩).2.state := rfl

@[simp] theorem embed_log (query : Q' → Q) (x : Program σ (fun q => R (query q)) ε α)
    (w : World σ R) : (embed query x w).2.log =
      w.log ++ (x ⟨w.state, []⟩).2.log.map (Exchange.embed query) := rfl

/-! ## Faults -/

/-- Run in `w`, the program raises exactly when one of its exchanges is faulty. -/
def BlamesAt (faulty : Exchange σ R → Prop) (x : Program σ R ε α) (w : World σ R) : Prop :=
  ∃ new, (x w).2.log = w.log ++ new ∧ ((∃ e, (x w).1 = .error e) ↔ ∃ y ∈ new, faulty y)

theorem BlamesAt.bind {faulty : Exchange σ R → Prop} {x : Program σ R ε α}
    {f : α → Program σ R ε β} {w : World σ R} (hx : BlamesAt faulty x w)
    (hf : ∀ a u, x w = (.ok a, u) → BlamesAt faulty (f a) u) : BlamesAt faulty (x >>= f) w := by
  obtain ⟨new, hlog, hiff⟩ := hx
  unfold BlamesAt
  rcases hxw : x w with ⟨r, u⟩
  rw [hxw] at hlog hiff
  cases r with
  | error e =>
      rw [bind_of_error hxw]
      exact ⟨new, hlog, by simpa using hiff⟩
  | ok a =>
      obtain ⟨rest, hrest, hiffRest⟩ := hf a u hxw
      have hnone : ∀ y ∈ new, ¬ faulty y := by simpa using hiff
      rw [bind_of_ok hxw]
      refine ⟨new ++ rest, by rw [hrest, hlog, List.append_assoc], ?_⟩
      rw [hiffRest]
      constructor
      · rintro ⟨y, hy, hfault⟩
        exact ⟨y, List.mem_append_right new hy, hfault⟩
      · rintro ⟨y, hy, hfault⟩
        rcases List.mem_append.mp hy with hy | hy
        · exact absurd hfault (hnone y hy)
        · exact ⟨y, hy, hfault⟩

/-- The program raises exactly when one of its exchanges is faulty. -/
def Blames (faulty : Exchange σ R → Prop) (x : Program σ R ε α) : Prop :=
  ∀ w, ∃ new, (x w).2.log = w.log ++ new ∧ ((∃ e, (x w).1 = .error e) ↔ ∃ y ∈ new, faulty y)

namespace Blames

variable {faulty : Exchange σ R → Prop}

protected theorem pure (a : α) : Blames faulty (pure a : Program σ R ε α) :=
  fun w => ⟨[], by simp, by simp⟩

protected theorem bind {x : Program σ R ε α} {f : α → Program σ R ε β} (hx : Blames faulty x)
    (hf : ∀ a, Blames faulty (f a)) : Blames faulty (x >>= f) :=
  fun w => BlamesAt.bind (hx w) fun a u _ => hf a u

/-- A call whose only faults are exceptions. -/
protected theorem call {A : Q → Type} {peer : Peer σ fun q => Except ε (A q)} {q : Q}
    {faulty : Exchange σ (fun q => Except ε (A q)) → Prop}
    (h : ∀ s r, faulty ⟨s, q, r⟩ ↔ ∃ e, r = .error e) : Blames faulty (call peer q) := by
  intro w
  refine ⟨[⟨w.state, q, (peer.answer w.state q).1⟩], by rw [call_apply, World.step_log], ?_⟩
  simp [h]

/-- A call and what its caller makes of the reply. -/
theorem call_bind {A : Q → Type} {peer : Peer σ fun q => Except ε (A q)} {q : Q}
    {faulty : Exchange σ (fun q => Except ε (A q)) → Prop}
    {f : A q → Program σ (fun q => Except ε (A q)) ε β} (herr : ∀ s e, faulty ⟨s, q, .error e⟩)
    (hraise : ∀ s a, faulty ⟨s, q, .ok a⟩ → ∃ e, f a = throw e)
    (hf : ∀ s a, ¬ faulty ⟨s, q, .ok a⟩ → Blames faulty (f a)) :
    Blames faulty (call peer q >>= f) := by
  intro w
  have hcall := call_apply peer q w
  have hlog := World.step_log peer w q
  cases hreply : (peer.answer w.state q).1 with
  | error e =>
      rw [hreply] at hcall hlog
      rw [bind_of_error hcall]
      exact ⟨[⟨w.state, q, .error e⟩], hlog, by simp [herr]⟩
  | ok a =>
      rw [hreply] at hcall hlog
      rw [bind_of_ok hcall]
      by_cases hfault : faulty ⟨w.state, q, .ok a⟩
      · obtain ⟨e, he⟩ := hraise w.state a hfault
        rw [he]
        exact ⟨[⟨w.state, q, .ok a⟩], hlog, by simp [hfault]⟩
      · obtain ⟨new, hnew, hiff⟩ := hf w.state a hfault (w.step peer q)
        refine ⟨⟨w.state, q, .ok a⟩ :: new, ?_, ?_⟩
        · rw [hnew, hlog, List.append_assoc]
          rfl
        · rw [hiff]
          simp [hfault]

/-- An answer and what is made of it. -/
theorem ask_bind {peer : Peer σ R} {q : Q} {f : R q → Program σ R ε β}
    (hraise : ∀ s r, faulty ⟨s, q, r⟩ → ∃ e, f r = throw e)
    (hf : ∀ s r, ¬ faulty ⟨s, q, r⟩ → Blames faulty (f r)) : Blames faulty (ask peer q >>= f) := by
  intro w
  have hask := ask_apply (ε := ε) peer q w
  have hlog := World.step_log peer w q
  rw [bind_of_ok hask]
  by_cases hfault : faulty ⟨w.state, q, (peer.answer w.state q).1⟩
  · obtain ⟨e, he⟩ := hraise w.state _ hfault
    rw [he]
    exact ⟨_, hlog, by simp [hfault]⟩
  · obtain ⟨new, hnew, hiff⟩ := hf w.state _ hfault (w.step peer q)
    refine ⟨⟨w.state, q, (peer.answer w.state q).1⟩ :: new, ?_, ?_⟩
    · rw [hnew, hlog, List.append_assoc]
      rfl
    · rw [hiff]
      simp [hfault]

/-- The faults of a part are those of the whole. -/
protected theorem embed {query : Q' → Q} {x : Program σ (fun q => R (query q)) ε α}
    (hx : Blames (fun y => faulty (y.embed query)) x) : Blames faulty (embed query x) := by
  intro w
  obtain ⟨new, hlog, hiff⟩ := hx ⟨w.state, []⟩
  refine ⟨new.map (Exchange.embed query), ?_, ?_⟩
  · rw [embed_log, hlog]
    rfl
  · rw [embed_fst, hiff]
    simp

end Blames

/-! ## Faults from a mark on -/

/-- From its first marked exchange on, the program raises exactly when an exchange is faulty,
and what it then returns is right for the marked ones. -/
def BlamesFrom (marked : Exchange σ R → Bool) (faulty : Exchange σ R → Prop)
    (S : α → List (Exchange σ R) → Prop) (x : Program σ R ε α) : Prop :=
  ∀ w, ∃ new, (x w).2.log = w.log ++ new ∧ ((∃ y ∈ new, marked y = true) →
    ((∃ e, (x w).1 = .error e) ↔ ∃ y ∈ new.dropWhile (!marked ·), faulty y) ∧
    ∀ a, (x w).1 = .ok a → S a (new.filter marked))

/-- Entries behind a mark are all kept. -/
theorem dropWhile_append_of_marked {X : Type} {marked : X → Bool} {l : List X} (m : List X)
    (h : ∃ y ∈ l, marked y = true) :
    (l ++ m).dropWhile (!marked ·) = l.dropWhile (!marked ·) ++ m := by
  have hne : (l.dropWhile (!marked ·)).isEmpty = false := by
    obtain ⟨y, hy, hmarked⟩ := h
    rw [List.isEmpty_eq_false_iff, ne_eq, List.dropWhile_eq_nil_iff]
    intro hall
    simpa [hmarked] using hall y hy
  rw [List.dropWhile_append, hne]
  rfl

/-- Unmarked entries do not count. -/
theorem filter_append_of_unmarked {X : Type} {marked : X → Bool} (l : List X) {m : List X}
    (h : ∀ y ∈ m, marked y = false) : (l ++ m).filter marked = l.filter marked := by
  have hnone : m.filter marked = [] := by
    rw [List.filter_eq_nil_iff]
    intro y hy
    simp [h y hy]
  rw [List.filter_append, hnone, List.append_nil]

namespace BlamesFrom

variable {marked : Exchange σ R → Bool} {faulty : Exchange σ R → Prop}
  {S : α → List (Exchange σ R) → Prop} {peer : Peer σ R} {allowed : Q → Prop}

/-- A program of which every exchange is marked. -/
theorem of_blames {x : Program σ R ε α} (hx : Blames faulty x)
    (hmarked : ∀ w new, (x w).2.log = w.log ++ new → (∀ y ∈ new, marked y = true) ∧
      ∀ a, (x w).1 = .ok a → S a new) : BlamesFrom marked faulty S x := by
  intro w
  obtain ⟨new, hlog, hiff⟩ := hx w
  obtain ⟨hall, hS⟩ := hmarked w new hlog
  have hfilter : new.filter marked = new := List.filter_eq_self.mpr hall
  have hdrop : new.dropWhile (!marked ·) = new := by
    cases new with
    | nil => rfl
    | cons y ys => simp [hall y List.mem_cons_self]
  refine ⟨new, hlog, fun _ => ?_⟩
  rw [hdrop, hfilter]
  exact ⟨hiff, hS⟩

/-- A program without a marked exchange. -/
theorem of_asks {x : Program σ R ε α} (hx : Asks peer allowed x)
    (hunmarked : ∀ y : Exchange σ R, allowed y.query → marked y = false) :
    BlamesFrom marked faulty S x := by
  intro w
  obtain ⟨new, hlog, hallowed⟩ := (hx w).log_eq
  refine ⟨new, hlog, ?_⟩
  rintro ⟨y, hy, hmarked⟩
  rw [hunmarked y (hallowed y hy)] at hmarked
  cases hmarked

/-- Unmarked exchanges before the mark may fail as they like. -/
theorem asks_bind {x : Program σ R ε β} {f : β → Program σ R ε α} (hx : Asks peer allowed x)
    (hunmarked : ∀ y : Exchange σ R, allowed y.query → marked y = false)
    (hf : ∀ b, BlamesFrom marked faulty S (f b)) : BlamesFrom marked faulty S (x >>= f) := by
  intro w
  obtain ⟨early, hearly, hallowed⟩ := (hx w).log_eq
  have hquiet : ∀ y ∈ early, marked y = false := fun y hy => hunmarked y (hallowed y hy)
  rcases hxw : x w with ⟨r, u⟩
  rw [hxw] at hearly
  cases r with
  | error e =>
      rw [bind_of_error hxw]
      refine ⟨early, hearly, ?_⟩
      rintro ⟨y, hy, hmarked⟩
      rw [hquiet y hy] at hmarked
      cases hmarked
  | ok b =>
      obtain ⟨new, hlog, hnew⟩ := hf b u
      rw [bind_of_ok hxw]
      refine ⟨early ++ new, by rw [hlog, hearly, List.append_assoc], ?_⟩
      rintro ⟨y, hy, hmarked⟩
      have hlater : ∃ y ∈ new, marked y = true := by
        rcases List.mem_append.mp hy with hy | hy
        · rw [hquiet y hy] at hmarked
          cases hmarked
        · exact ⟨y, hy, hmarked⟩
      have hnone : early.filter marked = [] := by
        rw [List.filter_eq_nil_iff]
        intro y hy
        simp [hquiet y hy]
      rw [List.dropWhile_append_of_pos (by simpa using hquiet), List.filter_append, hnone]
      exact hnew hlater

/-- What follows the marked part may raise only for its own faults. -/
theorem bind_asks {x : Program σ R ε α} {f : α → Program σ R ε β}
    {T : β → List (Exchange σ R) → Prop} (hx : BlamesFrom marked faulty S x)
    (hf : ∀ a, Blames faulty (f a)) (hasks : ∀ a, Asks peer allowed (f a))
    (hunmarked : ∀ y : Exchange σ R, allowed y.query → marked y = false)
    (hT : ∀ a b w l, (f a w).1 = .ok b → S a l → T b l) :
    BlamesFrom marked faulty T (x >>= f) := by
  intro w
  obtain ⟨new, hlog, hnew⟩ := hx w
  rcases hxw : x w with ⟨r, u⟩
  rw [hxw] at hlog hnew
  cases r with
  | error e =>
      rw [bind_of_error hxw]
      refine ⟨new, hlog, fun hmark => ⟨?_, by simp⟩⟩
      simpa using (hnew hmark).1
  | ok a =>
      obtain ⟨late, hlate, hiff⟩ := hf a u
      obtain ⟨late', hlate', hallowed⟩ := (hasks a u).log_eq
      obtain rfl : late = late' := List.append_cancel_left (hlate.symm.trans hlate')
      have hquiet : ∀ y ∈ late, marked y = false := fun y hy => hunmarked y (hallowed y hy)
      rw [bind_of_ok hxw]
      refine ⟨new ++ late, by rw [hlate, hlog, List.append_assoc], ?_⟩
      rintro ⟨y, hy, hmarked⟩
      have hmark : ∃ y ∈ new, marked y = true := by
        rcases List.mem_append.mp hy with hy | hy
        · exact ⟨y, hy, hmarked⟩
        · rw [hquiet y hy] at hmarked
          cases hmarked
      obtain ⟨hraise, hS⟩ := hnew hmark
      have hnone : ∀ y ∈ new.dropWhile (!marked ·), ¬ faulty y := by simpa using hraise
      rw [dropWhile_append_of_marked late hmark, filter_append_of_unmarked new hquiet, hiff]
      refine ⟨?_, fun b hb => hT a b u _ hb (hS a rfl)⟩
      constructor
      · rintro ⟨y, hy, hfault⟩
        exact ⟨y, List.mem_append_right _ hy, hfault⟩
      · rintro ⟨y, hy, hfault⟩
        rcases List.mem_append.mp hy with hy | hy
        · exact absurd hfault (hnone y hy)
        · exact ⟨y, hy, hfault⟩

/-- A finalizer behind the marked part can only add its own faults. -/
protected theorem tryFinally {x : Program σ R ε α} {final : Program σ R ε Unit}
    (hx : BlamesFrom marked faulty S x) (hfinal : Blames faulty final)
    (hasks : Asks peer allowed final)
    (hunmarked : ∀ y : Exchange σ R, allowed y.query → marked y = false) :
    BlamesFrom marked faulty S (tryFinally x final) := by
  intro w
  obtain ⟨new, hlog, hnew⟩ := hx w
  obtain ⟨late, hlate, hiff⟩ := hfinal (x w).2
  obtain ⟨late', hlate', hallowed⟩ := (hasks (x w).2).log_eq
  obtain rfl : late = late' := List.append_cancel_left (hlate.symm.trans hlate')
  have hquiet : ∀ y ∈ late, marked y = false := fun y hy => hunmarked y (hallowed y hy)
  rw [tryFinally_apply]
  rcases hend : final (x w).2 with ⟨r, u⟩
  rw [hend] at hlate hiff
  have hall : u.log = w.log ++ (new ++ late) := by
    rw [hlate, hlog, List.append_assoc]
  have hearlier : (∃ y ∈ new ++ late, marked y = true) → ∃ y ∈ new, marked y = true := by
    rintro ⟨y, hy, hmarked⟩
    rcases List.mem_append.mp hy with hy | hy
    · exact ⟨y, hy, hmarked⟩
    · rw [hquiet y hy] at hmarked
      cases hmarked
  cases r with
  | error e =>
      have hfault : ∃ y ∈ late, faulty y := by simpa using hiff
      obtain ⟨y, hy, hfaulty⟩ := hfault
      rw [bind_of_error hend]
      refine ⟨new ++ late, hall, fun hmark => ⟨?_, by simp⟩⟩
      rw [dropWhile_append_of_marked late (hearlier hmark)]
      simp only [Except.error.injEq, exists_eq', true_iff]
      exact ⟨y, List.mem_append_right _ hy, hfaulty⟩
  | ok _ =>
      have hnone : ∀ y ∈ late, ¬ faulty y := by simpa using hiff
      rw [bind_of_ok hend, lift_apply]
      refine ⟨new ++ late, hall, fun hmark => ?_⟩
      obtain ⟨hraise, hS⟩ := hnew (hearlier hmark)
      rw [dropWhile_append_of_marked late (hearlier hmark), filter_append_of_unmarked new hquiet,
        hraise]
      refine ⟨?_, hS⟩
      constructor
      · rintro ⟨y, hy, hfault⟩
        exact ⟨y, List.mem_append_left late hy, hfault⟩
      · rintro ⟨y, hy, hfault⟩
        rcases List.mem_append.mp hy with hy | hy
        · exact ⟨y, hy, hfault⟩
        · exact absurd hfault (hnone y hy)

end BlamesFrom

end Dialogue
