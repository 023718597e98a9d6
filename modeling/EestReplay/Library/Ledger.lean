import Mathlib.Algebra.BigOperators.Group.Finset.Piecewise
import Mathlib.Algebra.BigOperators.Group.List.Basic
import Mathlib.Algebra.Order.Group.Int
import Mathlib.Tactic.Ring

/-! # A ledger of transfers

Accounts hold a balance and count the transfers they have sent. A submitted transfer is
pooled until it is mined, at any price that it allows and in any order. -/

namespace Ledger

variable {A : Type} [DecidableEq A]

/-- A transfer that uses `gas` and pays for it at most `maxFee` a unit. -/
structure Transfer (A : Type) where
  sender : A
  nonce : ℤ
  dest : A
  value : ℤ
  gas : ℤ
  maxFee : ℤ
  deriving DecidableEq

/-- A transfer that is mined, with the price it is mined at. -/
structure Payment (A : Type) where
  transfer : Transfer A
  price : ℤ
  value_nonneg : 0 ≤ transfer.value
  price_nonneg : 0 ≤ price
  price_le : price ≤ transfer.maxFee

/-- What a payment takes from its sender. -/
def Payment.cost (x : Payment A) : ℤ := x.transfer.value + x.transfer.gas * x.price

/-- What a payment adds to the balance of an account. -/
def Payment.effect (x : Payment A) (a : A) : ℤ :=
  (if a = x.transfer.dest then x.transfer.value else 0) -
    (if a = x.transfer.sender then x.cost else 0)

structure Chain (A : Type) where
  balance : A → ℤ
  nonce : A → ℕ
  pool : List (Transfer A)
  mined : List (Payment A)

namespace Chain

def submit (c : Chain A) (t : Transfer A) : Chain A := { c with pool := c.pool ++ [t] }

def mine (c : Chain A) (x : Payment A) : Chain A where
  balance a := c.balance a + x.effect a
  nonce a := if a = x.transfer.sender then c.nonce a + 1 else c.nonce a
  pool := c.pool.erase x.transfer
  mined := c.mined ++ [x]

/-- The gas that was paid for. -/
def gasPaid (c : Chain A) : ℤ := (c.mined.map fun x => x.transfer.gas * x.price).sum

end Chain

/-- Everything that may happen to a ledger while the given transfers are submitted to it. -/
inductive Moves (c : Chain A) : List (Transfer A) → Chain A → Prop where
  | refl : Moves c [] c
  | submit {ts : List (Transfer A)} {d : Chain A} (t : Transfer A) :
      Moves c ts d → Moves c (ts ++ [t]) (d.submit t)
  | mine {ts : List (Transfer A)} {d : Chain A} (x : Payment A) :
      Moves c ts d → x.transfer ∈ d.pool → Moves c ts (d.mine x)

namespace Moves

theorem trans {c d e : Chain A} {ts us : List (Transfer A)} (h : Moves c ts d)
    (h' : Moves d us e) : Moves c (ts ++ us) e := by
  induction h' with
  | refl => simpa using h
  | submit t _ ih => simpa using ih.submit t
  | mine x _ hx ih => exact ih.mine x hx

end Moves

/-! ## Accounting -/

/-- What happened, as its payments: every transfer that was pooled or submitted is paid
or still pooled, and the payments account for every balance. -/
structure Accounts (c : Chain A) (ts : List (Transfer A)) (d : Chain A)
    (paid : List (Payment A)) : Prop where
  mined : d.mined = c.mined ++ paid
  perm : (paid.map Payment.transfer ++ d.pool).Perm (c.pool ++ ts)
  balance : ∀ a, d.balance a = c.balance a + (paid.map fun x => x.effect a).sum

theorem Moves.accounts {c d : Chain A} {ts : List (Transfer A)} (h : Moves c ts d) :
    ∃ paid, Accounts c ts d paid := by
  induction h with
  | refl => exact ⟨[], by simp, by simp, by simp⟩
  | @submit ts d t _ ih =>
      obtain ⟨paid, hmined, hperm, hbalance⟩ := ih
      refine ⟨paid, hmined, ?_, hbalance⟩
      show (paid.map Payment.transfer ++ (d.pool ++ [t])).Perm (c.pool ++ (ts ++ [t]))
      rw [← List.append_assoc, ← List.append_assoc]
      exact hperm.append_right [t]
  | @mine ts d x _ hx ih =>
      obtain ⟨paid, hmined, hperm, hbalance⟩ := ih
      refine ⟨paid ++ [x], ?_, ?_, ?_⟩
      · show d.mined ++ [x] = _
        rw [hmined, List.append_assoc]
      · show ((paid ++ [x]).map Payment.transfer ++ d.pool.erase x.transfer).Perm _
        rw [List.map_append, List.append_assoc]
        exact ((List.perm_cons_erase hx).symm.append_left _).trans hperm
      · intro a
        show d.balance a + x.effect a = _
        rw [hbalance a]
        simp only [List.map_append, List.map_cons, List.map_nil, List.sum_append, List.sum_cons,
          List.sum_nil]
        ring

/-! ## What payments come to -/

namespace Payment

variable {x : Payment A} {a : A}

theorem effect_of_ne_sender (hsender : x.transfer.sender ≠ a) :
    x.effect a = if a = x.transfer.dest then x.transfer.value else 0 := by
  simp [effect, hsender.symm]

theorem effect_of_ne (hdest : x.transfer.dest ≠ a) (hsender : x.transfer.sender ≠ a) :
    x.effect a = 0 := by
  rw [effect_of_ne_sender hsender, if_neg hdest.symm]

theorem effect_of_dest (hdest : x.transfer.dest = a) (hsender : x.transfer.sender ≠ a) :
    x.effect a = x.transfer.value := by
  rw [effect_of_ne_sender hsender, if_pos hdest.symm]

theorem effect_of_sender (hdest : x.transfer.dest ≠ x.transfer.sender) :
    x.effect x.transfer.sender = -x.cost := by
  simp [effect, hdest.symm]

end Payment

section

variable {paid : List (Payment A)} {a : A}

theorem sum_effect_eq_zero (h : ∀ x ∈ paid, x.transfer.dest ≠ a ∧ x.transfer.sender ≠ a) :
    (paid.map fun x => x.effect a).sum = 0 := by
  apply List.sum_eq_zero
  intro effect heffect
  obtain ⟨x, hx, rfl⟩ := List.mem_map.mp heffect
  exact Payment.effect_of_ne (h x hx).1 (h x hx).2

/-- A destination that pays nothing gains the values. -/
theorem sum_effect_of_dest (h : ∀ x ∈ paid, x.transfer.dest = a ∧ x.transfer.sender ≠ a) :
    (paid.map fun x => x.effect a).sum = (paid.map fun x => x.transfer.value).sum := by
  congr 1
  apply List.map_congr_left
  exact fun x hx => Payment.effect_of_dest (h x hx).1 (h x hx).2

/-- A sender that pays once and gains nothing loses the cost of its payment. -/
theorem sum_effect_of_sender {x : Payment A} (hx : x ∈ paid)
    (hnodup : (paid.map fun y => y.transfer.sender).Nodup)
    (hdest : ∀ y ∈ paid, y.transfer.dest ≠ x.transfer.sender) :
    (paid.map fun y => y.effect x.transfer.sender).sum = -x.cost := by
  induction paid with
  | nil => simp at hx
  | cons y paid ih =>
      obtain ⟨hfresh, hnodup⟩ := List.nodup_cons.mp hnodup
      have hgain := hdest y List.mem_cons_self
      have hlater : ∀ z ∈ paid, z.transfer.dest ≠ x.transfer.sender :=
        fun z hz => hdest z (List.mem_cons_of_mem y hz)
      rw [List.map_cons, List.sum_cons]
      rcases List.mem_cons.mp hx with rfl | hx
      · have hrest : (paid.map fun z => z.effect x.transfer.sender).sum = 0 := by
          apply sum_effect_eq_zero
          intro z hz
          exact ⟨hlater z hz, fun heq => hfresh (List.mem_map.mpr ⟨z, hz, heq⟩)⟩
        rw [Payment.effect_of_sender hgain, hrest, add_zero]
      · have hne : y.transfer.sender ≠ x.transfer.sender :=
          fun heq => hfresh (List.mem_map.mpr ⟨x, hx, heq.symm⟩)
        rw [Payment.effect_of_ne hgain hne, ih hx hnodup hlater, zero_add]

omit [DecidableEq A] in
/-- Costs are values and gas. -/
theorem sum_cost : (paid.map Payment.cost).sum = (paid.map fun x => x.transfer.value).sum +
    (paid.map fun x => x.transfer.gas * x.price).sum := by
  rw [← List.sum_map_add]
  rfl

theorem Accounts.gasPaid_eq {c d : Chain A} {ts : List (Transfer A)} (h : Accounts c ts d paid) :
    d.gasPaid = c.gasPaid + (paid.map fun x => x.transfer.gas * x.price).sum := by
  unfold Chain.gasPaid
  rw [h.mined, List.map_append, List.sum_append]

/-- Accounts that pay for everything and gain nothing lose the costs. -/
theorem sum_sum_effect {S : Finset A}
    (h : ∀ x ∈ paid, x.transfer.sender ∈ S ∧ x.transfer.dest ∉ S) :
    ∑ a ∈ S, (paid.map fun x => x.effect a).sum = -(paid.map Payment.cost).sum := by
  induction paid with
  | nil => simp
  | cons x paid ih =>
      obtain ⟨hsender, hdest⟩ := h x List.mem_cons_self
      have hrest := ih fun y hy => h y (List.mem_cons_of_mem x hy)
      have hx : ∑ a ∈ S, x.effect a = -x.cost := by
        simp only [Payment.effect, Finset.sum_sub_distrib, Finset.sum_ite_eq', hdest, hsender,
          if_true, if_false]
        ring
      simp only [List.map_cons, List.sum_cons, Finset.sum_add_distrib, hx, hrest]
      ring

end

/-- What no pending transfer concerns stays as it is. -/
theorem Moves.balance_eq {c d : Chain A} {ts : List (Transfer A)} (h : Moves c ts d) {a : A}
    (hother : ∀ t ∈ c.pool ++ ts, t.dest ≠ a ∧ t.sender ≠ a) : d.balance a = c.balance a := by
  obtain ⟨paid, hpaid⟩ := h.accounts
  rw [hpaid.balance a, sum_effect_eq_zero, add_zero]
  intro x hx
  apply hother x.transfer
  exact hpaid.perm.subset (List.mem_append_left _ (List.mem_map_of_mem hx))

theorem Moves.mem_pool {c d : Chain A} {ts : List (Transfer A)} (h : Moves c ts d)
    {t : Transfer A} (ht : t ∈ d.pool) : t ∈ c.pool ++ ts := by
  obtain ⟨paid, hpaid⟩ := h.accounts
  exact hpaid.perm.subset (List.mem_append_right _ ht)

/-! ## Counts -/

theorem Moves.nonce_le {c d : Chain A} {ts : List (Transfer A)} (h : Moves c ts d) (a : A) :
    c.nonce a ≤ d.nonce a := by
  induction h with
  | refl => exact le_refl _
  | submit t _ ih => exact ih
  | @mine ts d x _ hx ih =>
      show c.nonce a ≤ if a = x.transfer.sender then d.nonce a + 1 else d.nonce a
      split
      · omega
      · exact ih

/-- An account that has sent nothing has lost nothing. -/
theorem Moves.balance_le {c d : Chain A} {ts : List (Transfer A)} (h : Moves c ts d) {a : A}
    (hnonce : d.nonce a = c.nonce a) : c.balance a ≤ d.balance a := by
  induction h with
  | refl => exact le_refl _
  | submit t _ ih => exact ih hnonce
  | @mine ts d x hmoves hx ih =>
      have hle := hmoves.nonce_le a
      have hcount : (if a = x.transfer.sender then d.nonce a + 1 else d.nonce a) = c.nonce a :=
        hnonce
      have hne : a ≠ x.transfer.sender := by
        intro heq
        rw [if_pos heq] at hcount
        omega
      rw [if_neg hne] at hcount
      have hgain : 0 ≤ x.effect a := by
        have hvalue := x.value_nonneg
        rw [Payment.effect_of_ne_sender (Ne.symm hne)]
        split
        · exact hvalue
        · omega
      have hbefore := ih hcount
      show c.balance a ≤ d.balance a + x.effect a
      omega

end Ledger
