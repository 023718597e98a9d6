import EestReplay.Library.Nesting
import EestReplay.Verification.Recover.Account
import Mathlib.Tactic.Linarith

/-! # Faults of a recovery

Which replies the code cannot read. A recovery raises exactly for these, and its wait ends
because the clock goes on. -/

namespace EestReplay.Sweep

open Dialogue

variable {σ : Type} {peer : Peer σ HostReply} {eest : Eest} {target : Target}

/-! ## Readable replies -/

/-- The code can read the reply to a call. -/
def readable : (q : HostCall) → HostReply q → Bool
  | .post _ method _ _, .ok reply =>
    if method = "eth_sendRawTransaction" then (Json.item "result" reply).isOk
    else if method = "eth_getTransactionReceipt" then (Json.get "result" reply).isOk
    else (quantity reply).isOk
  | _, reply => reply.isOk

def Faulty (x : Exchange σ HostReply) : Prop := readable x.query x.reply = false

/-- The hash that an accepted sweep was answered with. -/
def sentHash (x : Exchange σ HostReply) : Option Json :=
  match x with
  | ⟨_, .post _ "eth_sendRawTransaction" _ _, .ok reply⟩ => (Json.item "result" reply).toOption
  | _ => none

@[simp] theorem sentHash_balanceCall (s : σ) (address : String) :
    sentHash (served peer s (balanceCall target address)) = none := rfl

@[simp] theorem sentHash_nonceCall (s : σ) (address : String) :
    sentHash (served peer s (nonceCall target address)) = none := rfl

theorem sentHash_of_idle {x : Exchange σ HostReply} (h : Idle x.query) : sentHash x = none := by
  obtain ⟨s, q, reply⟩ := x
  unfold sentHash
  split
  · rename_i heq
    cases heq
    exact absurd rfl (h _ _ _ _ rfl).2
  · rfl

/-- A reply is read as a quantity, or the lookup raises. -/
theorem readable_balance (s : σ) (address : String) :
    readable (balanceCall target address) (peer.answer s (balanceCall target address)).1 =
      (balanceAt peer target s address).isOk := by
  unfold balanceAt
  cases (peer.answer s (balanceCall target address)).1 with
  | error e => rfl
  | ok reply => rfl

theorem readable_nonce (s : σ) (address : String) :
    readable (nonceCall target address) (peer.answer s (nonceCall target address)).1 =
      (nonceAt peer target s address).isOk := by
  unfold nonceAt
  cases (peer.answer s (nonceCall target address)).1 with
  | error e => rfl
  | ok reply => rfl

theorem has_of_item {key : String} {reply result : Json} (h : Json.item key reply = .ok result) :
    Json.has key reply = .ok true := by
  cases reply with
  | obj fields =>
      cases hlookup : fields.lookup key with
      | none => simp [Json.item, hlookup] at h
      | some value => simp [Json.has, hlookup]
  | null => cases h
  | bool b => cases h
  | int n => cases h
  | float value => cases h
  | str s => cases h
  | arr items => cases h

/-- The code reads the result of a reply, or raises. -/
theorem receive_toOption (address : String) (reply : Json) :
    (receive eest address reply).toOption = (Json.item "result" reply).toOption := by
  unfold receive
  cases hitem : Json.item "result" reply with
  | ok result =>
      rw [has_of_item hitem]
      rfl
  | error e =>
      cases Json.has "result" reply with
      | error e' => rfl
      | ok accepted =>
          cases accepted with
          | true => rfl
          | false =>
              show (Json.get "error" reply >>= fun error => throw _ : Except PyError Json).toOption =
                none
              cases Json.get "error" reply <;> rfl

variable (eest) in
/-- What the code makes of the reply to a sweep is the result in it. -/
theorem hashAt_toOption (s : σ) (address raw : String) :
    (hashAt peer eest target s address raw).toOption =
      sentHash (served peer s (sendCall target raw)) := by
  unfold hashAt served
  cases hreply : (peer.answer s (sendCall target raw)).1 with
  | error e => rfl
  | ok reply => exact receive_toOption address reply

theorem readable_send {s : σ} {raw : String} :
    readable (sendCall target raw) (peer.answer s (sendCall target raw)).1 =
      (sentHash (served peer s (sendCall target raw))).isSome := by
  unfold served
  cases (peer.answer s (sendCall target raw)).1 with
  | error e => rfl
  | ok reply =>
      show (Json.item "result" reply).isOk = (Json.item "result" reply).toOption.isSome
      cases Json.item "result" reply <;> rfl

/-! ## Faults of a scan -/

theorem isOk_eq_false_iff {ε α : Type} {r : Except ε α} :
    r.isOk = false ↔ ∃ e, r = .error e := by
  cases r with
  | ok a => exact iff_of_false (by simp [Except.isOk, Except.toBool]) (by simp)
  | error e => exact iff_of_true rfl ⟨e, rfl⟩

theorem faulty_balance {s : σ} {address : String} :
    Faulty (served peer s (balanceCall target address)) ↔
      ∃ e, balanceAt peer target s address = .error e := by
  rw [← isOk_eq_false_iff, ← readable_balance]
  rfl

theorem faulty_nonce {s : σ} {address : String} :
    Faulty (served peer s (nonceCall target address)) ↔
      ∃ e, nonceAt peer target s address = .error e := by
  rw [← isOk_eq_false_iff, ← readable_nonce]
  rfl

variable (eest) in
theorem faulty_send {s : σ} (address : String) {raw : String} :
    Faulty (served peer s (sendCall target raw)) ↔
      ∃ e, hashAt peer eest target s address raw = .error e := by
  have hreads : (hashAt peer eest target s address raw).isOk =
      (sentHash (served peer s (sendCall target raw))).isSome := by
    rw [← hashAt_toOption eest s address raw]
    cases hashAt peer eest target s address raw <;> rfl
  rw [← isOk_eq_false_iff, hreads, ← readable_send]
  rfl

/-- Sweeping an account raises exactly when one of its replies cannot be read. -/
theorem AccountDerivation.faults {eoaStart : ℤ} {i count : ℕ}
    (hkeys : Keys eest target eoaStart count) (hcounting : Counting peer target) (hi : i < count)
    {w u : HostWorld σ} {r : Except PyError (Option (Json × ℤ))}
    (h : AccountDerivation peer eest target (eoaStart + i) w r u) :
    ∃ new, u.log = w.log ++ new ∧ ((∃ e, r = .error e) ↔ ∃ y ∈ new, Faulty y) := by
  cases h with
  | unaddressed haddr =>
      obtain ⟨address, haddr'⟩ := hkeys.addressed i hi
      rw [haddr'] at haddr
      cases haddr
  | @unread address e _ hbalance =>
      refine ⟨_, readWorld_log w address, ?_⟩
      simp [faulty_balance, hbalance]
  | @low address b _ hbalance hle =>
      refine ⟨_, readWorld_log w address, ?_⟩
      simp [faulty_balance, hbalance]
  | @uncounted address b e _ hbalance hlt hnonce =>
      refine ⟨_, countedWorld_log w address, ?_⟩
      simp [faulty_balance, faulty_nonce, hbalance, hnonce]
  | @unsigned address b n e _ hbalance hlt hnonce hsigned =>
      obtain ⟨hex, hhex⟩ := hkeys.signs i hi n (b - target.reserve) (hcounting _ _ n hnonce)
        (by omega)
      rw [hhex] at hsigned
      cases hsigned
  | @rejected address hex b n e _ hbalance hlt hnonce hsigned hsent =>
      refine ⟨_, sentWorld_log w address (rawHex hex), ?_⟩
      simp [sentLog, faulty_balance, faulty_nonce, faulty_send eest address, hbalance, hnonce, hsent]
  | @swept address hex b n result _ hbalance hlt hnonce hsigned hsent =>
      refine ⟨_, sentWorld_log w address (rawHex hex), ?_⟩
      simp [sentLog, faulty_balance, faulty_nonce, faulty_send eest address, hbalance, hnonce, hsent]

/-- What follows a step without faults has the faults of both. -/
theorem faults_append {first rest : List (Exchange σ HostReply)} {P : Prop}
    (hfirst : ¬ ∃ y ∈ first, Faulty y) (hrest : P ↔ ∃ y ∈ rest, Faulty y) :
    P ↔ ∃ y ∈ first ++ rest, Faulty y := by
  rw [hrest]
  constructor
  · rintro ⟨y, hy, hfault⟩
    exact ⟨y, List.mem_append_right first hy, hfault⟩
  · rintro ⟨y, hy, hfault⟩
    rcases List.mem_append.mp hy with hy | hy
    · exact absurd ⟨y, hy, hfault⟩ hfirst
    · exact ⟨y, hy, hfault⟩

theorem RangeDerivation.faults {eoaStart : ℤ} {n : ℕ} (hkeys : Keys eest target eoaStart n)
    (hcounting : Counting peer target) {i count : ℕ} (hn : i + count ≤ n) {w u : HostWorld σ}
    {r : Except PyError (List RecoveredAccount)}
    (h : RangeDerivation peer eest target eoaStart i count w r u) :
    ∃ new, u.log = w.log ++ new ∧ ((∃ e, r = .error e) ↔ ∃ y ∈ new, Faulty y) := by
  induction h with
  | done => exact ⟨[], by simp, by simp⟩
  | raised hfirst =>
      obtain ⟨new, hlog, hiff⟩ := hfirst.faults hkeys hcounting (by omega)
      exact ⟨new, hlog, iff_of_true ⟨_, rfl⟩ (hiff.mp ⟨_, rfl⟩)⟩
  | skipped hfirst hrest ih =>
      obtain ⟨first, hlog, hiff⟩ := hfirst.faults hkeys hcounting (by omega)
      obtain ⟨rest, hlogRest, hiffRest⟩ := ih (by omega)
      refine ⟨first ++ rest, by rw [hlogRest, hlog, List.append_assoc], ?_⟩
      exact faults_append (hiff.not.mp (by simp)) hiffRest
  | @swept i count w u v r address wei txHash haddr hfirst hrest ih =>
      obtain ⟨first, hlog, hiff⟩ := hfirst.faults hkeys hcounting (by omega)
      obtain ⟨rest, hlogRest, hiffRest⟩ := ih (by omega)
      refine ⟨first ++ rest, by rw [hlogRest, hlog, List.append_assoc], ?_⟩
      refine faults_append (hiff.not.mp (by simp)) (Iff.trans ?_ hiffRest)
      cases r <;> simp [Except.map]

/-! ## The clock -/

/-- A clock that is not set back. -/
structure Clock (peer : Peer σ HostReply) where
  now : σ → ℚ
  mono : ∀ s q, now s ≤ now (peer.answer s q).2
  time : ∀ s (t : ℚ), (peer.answer s .time).1 = .ok t →
    now s ≤ t ∧ t ≤ now (peer.answer s .time).2
  sleep : ∀ s n, (peer.answer s (.sleep n)).1 = .ok () → now s + n ≤ now (peer.answer s (.sleep n)).2

theorem Clock.mono_of_asks (C : Clock peer) {α : Type} {x : Command σ α} {allowed : HostCall → Prop}
    (hx : Asks peer allowed x) (w : HostWorld σ) : C.now w.state ≤ C.now (x w).2.state :=
  (hx w).invariant (I := fun u => C.now w.state ≤ C.now u.state)
    (fun u q _ hu => hu.trans (C.mono u.state q)) (le_refl _)

/-! ## Waiting -/

theorem faulty_receipt {s : σ} {rpcUrl : String} {h reply : Json} :
    Faulty ⟨s, .post rpcUrl "eth_getTransactionReceipt" [h] 30, .ok reply⟩ ↔
      ∃ e, Json.get "result" reply = .error e := by
  rw [← isOk_eq_false_iff]
  rfl

theorem blames_stillPending (rpcUrl : String) (hashes : List Json) :
    Blames Faulty (stillPending peer rpcUrl hashes) := by
  induction hashes with
  | nil => exact Blames.pure _
  | cons h hs ih =>
      apply Blames.call_bind (A := HostCall.Value)
      · exact fun s e => rfl
      · intro s reply hfault
        obtain ⟨e, he⟩ := faulty_receipt.mp hfault
        refine ⟨e, ?_⟩
        rw [he]
        rfl
      · intro s reply hfine
        cases hget : Json.get "result" reply with
        | error e => exact absurd (faulty_receipt.mpr ⟨e, hget⟩) hfine
        | ok receipt =>
            apply Blames.bind (Blames.pure receipt)
            intro receipt
            exact Blames.bind ih fun rest => Blames.pure _

theorem blames_sleep (seconds : ℕ) : Blames Faulty (call peer (.sleep seconds)) := by
  apply Blames.call (A := HostCall.Value)
  intro s r
  exact isOk_eq_false_iff

theorem blames_time : Blames Faulty (call peer .time) := by
  apply Blames.call (A := HostCall.Value)
  intro s r
  exact isOk_eq_false_iff

/-- Enough fuel never runs out: every pass but the last sleeps, and the deadline comes. -/
theorem waitLoop_blamesAt (C : Clock peer) (rpcUrl : String) {deadline : ℚ} {fuel : ℕ}
    (pending : List Json) (w : HostWorld σ) (hfuel : 0 < fuel)
    (h : deadline + 4 ≤ C.now w.state + 4 * fuel) :
    BlamesAt Faulty (waitLoop peer rpcUrl deadline fuel pending) w := by
  induction fuel generalizing pending w with
  | zero => omega
  | succ fuel ih =>
      rw [Nat.cast_succ] at h
      unfold waitLoop
      split
      · exact Blames.pure () w
      · apply BlamesAt.bind (blames_time w)
        intro (now : ℚ) u htime
        rw [call_apply] at htime
        obtain ⟨hreply, rfl⟩ := Prod.mk.inj htime
        obtain ⟨hle, hge⟩ := C.time w.state now hreply
        have hasked : C.now w.state ≤ C.now (w.step peer .time).state := le_trans hle hge
        split
        · rename_i hearly
          have hstart : C.now w.state < deadline := lt_of_le_of_lt hle hearly
          apply BlamesAt.bind (blames_stillPending rpcUrl pending _)
          intro rest v hpass
          have hpassed : C.now (w.step peer .time).state ≤ C.now v.state := by
            have hmono := C.mono_of_asks (asks_stillPending rpcUrl pending) (w.step peer .time)
            rw [hpass] at hmono
            exact hmono
          split
          · exact Blames.pure () v
          · apply BlamesAt.bind (blames_sleep 4 v)
            intro _ x hsleep
            rw [call_apply] at hsleep
            obtain ⟨hslept, rfl⟩ := Prod.mk.inj hsleep
            have hlater : C.now v.state + 4 ≤ C.now (v.step peer (.sleep 4)).state :=
              C.sleep v.state 4 hslept
            apply ih
            · by_contra hzero
              obtain rfl : fuel = 0 := by omega
              rw [Nat.cast_zero, zero_add, mul_one, add_le_add_iff_right] at h
              exact absurd hstart (not_lt.mpr h)
            · linarith
        · exact Blames.pure () _

/-! ## Behind the scan -/

theorem pendingSet_eq_error {recovered : List RecoveredAccount} :
    (∃ e, pendingSet recovered = .error e) ↔ ∃ r ∈ recovered, r.txHash.hashable = false := by
  induction recovered with
  | nil => simp [pendingSet]
  | cons r rest ih =>
      unfold pendingSet
      cases hhash : r.txHash.hashable with
      | false => simp [hhash]
      | true =>
          have hrest : (∃ a ∈ r :: rest, a.txHash.hashable = false) ↔
              ∃ e, pendingSet rest = .error e := by
            rw [ih]
            simp [hhash]
          rw [hrest, if_pos rfl]
          cases pendingSet rest with
          | error e => simp
          | ok hashes =>
              cases r.txHash with
              | str h => simp only []; split <;> simp
              | _ => simp

theorem await_of_guard {fuel : ℕ} {wait : Bool} {recovered : List RecoveredAccount}
    (h : (wait && !recovered.isEmpty) = true) : await peer target fuel wait recovered = (do
      let now : ℚ ← call peer .time
      let pending ← lift (pendingSet recovered)
      waitLoop peer target.rpcUrl (now + 180) fuel pending
      return recovered) := by
  unfold await
  rw [if_pos h]

variable (target) in
/-- A wait for hashes raises for what cannot be read. -/
theorem await_blamesAt (C : Clock peer) {fuel : ℕ} (hfuel : 46 ≤ fuel) (wait : Bool)
    {recovered : List RecoveredAccount} {hashes : List Json} (h : pendingSet recovered = .ok hashes)
    (w : HostWorld σ) : BlamesAt Faulty (await peer target fuel wait recovered) w := by
  cases hguard : (wait && !recovered.isEmpty) with
  | false =>
      unfold await
      rw [hguard]
      exact Blames.pure recovered w
  | true =>
      rw [await_of_guard hguard, h]
      apply BlamesAt.bind (blames_time w)
      intro (now : ℚ) u htime
      rw [call_apply] at htime
      obtain ⟨hreply, rfl⟩ := Prod.mk.inj htime
      have hnow : now ≤ C.now (w.step peer .time).state := (C.time w.state now hreply).2
      apply BlamesAt.bind (Blames.pure hashes _)
      intro pending v hv
      obtain ⟨-, rfl⟩ := Prod.mk.inj hv
      have hcast : (46 : ℚ) ≤ fuel := by exact_mod_cast hfuel
      have hdeadline : now + 180 + 4 ≤ C.now (w.step peer .time).state + 4 * fuel := by
        linarith
      apply BlamesAt.bind (waitLoop_blamesAt C target.rpcUrl pending _ (by omega) hdeadline)
      exact fun _ x _ => Blames.pure recovered x

/-- A wait for something that is no hash raises. -/
theorem await_raises {fuel : ℕ} {recovered : List RecoveredAccount} {e : PyError}
    (h : pendingSet recovered = .error e) (w : HostWorld σ) :
    ∃ e, (await peer target fuel true recovered w).1 = .error e := by
  have hguard : (true && !recovered.isEmpty) = true := by
    cases recovered with
    | nil => cases h
    | cons r rest => rfl
  rw [await_of_guard hguard, h]
  rcases htime : call peer .time w with ⟨r, u⟩
  cases r with
  | error e' => exact ⟨e', congrArg Prod.fst (bind_of_error htime)⟩
  | ok now => exact ⟨e, congrArg Prod.fst (bind_of_ok htime)⟩

variable (target) in
/-- The wait raises for what cannot be read, and for a hash that is not one. -/
theorem await_faults (C : Clock peer) {fuel : ℕ} (hfuel : 46 ≤ fuel) (wait : Bool)
    (recovered : List RecoveredAccount) (w : HostWorld σ) :
    ∃ late, (await peer target fuel wait recovered w).2.log = w.log ++ late ∧
      ((∃ e, (await peer target fuel wait recovered w).1 = .error e) ↔
        (∃ y ∈ late, Faulty y) ∨
          wait = true ∧ ∃ r ∈ recovered, r.txHash.hashable = false) := by
  rw [← pendingSet_eq_error]
  cases h : pendingSet recovered with
  | ok hashes =>
      obtain ⟨late, hlog, hiff⟩ := await_blamesAt target C hfuel wait h w
      exact ⟨late, hlog, by rw [hiff]; simp⟩
  | error e =>
      cases wait with
      | true =>
          obtain ⟨late, hlog, -⟩ := (asks_await fuel true recovered w).log_eq
          exact ⟨late, hlog, iff_of_true (await_raises h w) (.inr ⟨rfl, e, rfl⟩)⟩
      | false => exact ⟨[], by simp [await], by simp [await]⟩

/-- A wait that returns hands on what the scan has recovered. -/
theorem await_ok {fuel : ℕ} {wait : Bool} {recovered l : List RecoveredAccount} {w u : HostWorld σ}
    (h : await peer target fuel wait recovered w = (.ok l, u)) : l = recovered := by
  unfold await at h
  split at h
  · obtain ⟨now, v, -, h⟩ := bind_eq_ok.mp h
    obtain ⟨pending, x, -, h⟩ := bind_eq_ok.mp h
    obtain ⟨_, y, -, h⟩ := bind_eq_ok.mp h
    exact (Except.ok.inj (Prod.mk.inj h).1).symm
  · exact (Except.ok.inj (Prod.mk.inj h).1).symm

/-- A wait returns when everything it asks can be read. -/
theorem await_returns (C : Clock peer) {fuel : ℕ} (hfuel : 46 ≤ fuel) (wait : Bool)
    (hwaits : ∀ s q, Waits target.rpcUrl q → ¬ Faulty (served peer s q))
    {recovered : List RecoveredAccount} (hhash : ∀ r ∈ recovered, r.txHash.hashable = true)
    (w : HostWorld σ) : ∃ u, await peer target fuel wait recovered w = (.ok recovered, u) := by
  obtain ⟨late, hlate, hfaults⟩ := await_faults target C hfuel wait recovered w
  obtain ⟨late', hlate', hread⟩ :=
    (asks_await fuel wait recovered w).log_forall (p := fun y => ¬ Faulty y) hwaits
  obtain rfl : late = late' := List.append_cancel_left (hlate.symm.trans hlate')
  rcases hend : await peer target fuel wait recovered w with ⟨r, u⟩
  rw [hend] at hfaults
  cases r with
  | error e =>
      rcases hfaults.mp ⟨e, rfl⟩ with ⟨y, hy, hfault⟩ | ⟨-, r, hr, hunhashable⟩
      · exact absurd hfault (hread y hy)
      · rw [hhash r hr] at hunhashable
        cases hunhashable
  | ok l =>
      obtain rfl := await_ok hend
      exact ⟨u, rfl⟩

end EestReplay.Sweep
