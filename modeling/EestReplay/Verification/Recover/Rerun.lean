import EestReplay.Verification.Recover.Node

/-! # A recovery beside others

Other recoveries use the ledger at the same time: between any two calls of this one,
transfers may be submitted and pending ones mined. -/

namespace EestReplay.Sweep

open Dialogue Ledger

variable {σ : Type} {peer : Peer σ HostReply} {eest : Eest} {target : Target}
  {A : Type} [DecidableEq A]

namespace LedgerNode

variable (N : LedgerNode peer eest target A)

/-- A node that others use as well. It accepts a transfer with the next nonce of its sender,
if the sender can afford it and has nothing pending. -/
structure Shared : Prop where
  accepts : ∀ s address raw t, N.decode raw = some t →
    (∀ p ∈ (N.view s).pool, p.sender ≠ t.sender) →
    t.nonce = (N.view s).nonce t.sender →
    t.value + t.gas * t.maxFee ≤ (N.view s).balance t.sender →
    ∃ hash, hashAt peer eest target s address raw = .ok (.str hash)
  moves : ∀ s q, ∃ ts, Moves (N.view s) ts (N.view (peer.answer s q).2)

/-- When a sweep is sent, its account has nothing pending, and nothing of it was mined since
its balance was read. -/
def Undisturbed (log : List (Exchange σ HostReply)) : Prop :=
  ∀ x ∈ log, ∀ y ∈ log, ∀ address b raw t, balanceReport x = some (address, b) →
    submission y = some raw → N.decode raw = some t → t.sender = N.account address →
    (∀ p ∈ (N.view y.before).pool, p.sender ≠ t.sender) ∧
      (N.view y.before).nonce t.sender = (N.view x.before).nonce t.sender

/-- The balance of an account was read, and all of it but the reserve was sent and reported if
it exceeds the reserve. -/
def Handled (recovered : List RecoveredAccount) (log : List (Exchange σ HostReply))
    (address : String) : Prop :=
  ∃ x ∈ log, balanceReport x =
      some (address, (N.view x.before).balance (N.account address)) ∧
    (target.reserve < (N.view x.before).balance (N.account address) →
      (∃ r ∈ recovered, r.address = address ∧
        r.sweptWei = (N.view x.before).balance (N.account address) - target.reserve) ∧
      ∃ raw ∈ submissions log, ∃ t, N.decode raw = some t ∧ t.sender = N.account address ∧
        t.value = (N.view x.before).balance (N.account address) - target.reserve)

variable {N}

omit [DecidableEq A] in
theorem Undisturbed.mono {log all : List (Exchange σ HostReply)} (h : N.Undisturbed all)
    (hsub : ∀ x ∈ log, x ∈ all) : N.Undisturbed log :=
  fun x hx y hy => h x (hsub x hx) y (hsub y hy)

omit [DecidableEq A] in
theorem Handled.mono {l m : List RecoveredAccount} {log all : List (Exchange σ HostReply)}
    {address : String} (h : N.Handled l log address) (hl : ∀ r ∈ l, r ∈ m)
    (hlog : ∀ x ∈ log, x ∈ all) : N.Handled m all address := by
  obtain ⟨x, hx, hread, hswept⟩ := h
  refine ⟨x, hlog x hx, hread, fun hlt => ?_⟩
  obtain ⟨⟨r, hr, heq⟩, raw, hraw, ht⟩ := hswept hlt
  obtain ⟨y, hy, hsubmit⟩ := List.mem_filterMap.mp hraw
  exact ⟨⟨r, hl r hr, heq⟩, raw, List.mem_filterMap.mpr ⟨y, hlog y hy, hsubmit⟩, ht⟩

/-! ## One account -/

/-- Nothing of an account is mined between two states with one nonce, so it can still afford
what it could. -/
theorem Shared.balance_le (hshared : N.Shared) {w : HostWorld σ} {address : String}
    (hnonce : (N.view (countedWorld peer target w address).state).nonce (N.account address) =
      (N.view w.state).nonce (N.account address)) :
    (N.view (readWorld peer target w address).state).nonce (N.account address) =
        (N.view w.state).nonce (N.account address) ∧
      (N.view w.state).balance (N.account address) ≤
        (N.view (countedWorld peer target w address).state).balance (N.account address) := by
  obtain ⟨ts, hread⟩ := hshared.moves w.state (balanceCall target address)
  obtain ⟨us, hcount⟩ := hshared.moves (readWorld peer target w address).state
    (nonceCall target address)
  have hle := hread.nonce_le (N.account address)
  have hle' := hcount.nonce_le (N.account address)
  have hall : Moves (N.view w.state) (ts ++ us)
      (N.view (countedWorld peer target w address).state) := hread.trans hcount
  refine ⟨?_, hall.balance_le hnonce⟩
  have hstart : (N.view (readWorld peer target w address).state).nonce (N.account address) =
    (N.view (peer.answer w.state (balanceCall target address)).2).nonce (N.account address) := rfl
  have hend : (N.view (countedWorld peer target w address).state).nonce (N.account address) =
    (N.view (peer.answer (readWorld peer target w address).state
      (nonceCall target address)).2).nonce (N.account address) := rfl
  omega

/-- An undisturbed sweep is accepted. -/
theorem Shared.accepted (hshared : N.Shared) {w : HostWorld σ} {key n : ℤ} {address hex : String}
    (haddr : eest.eoa key = .ok address)
    (hnonce : nonceAt peer target (readWorld peer target w address).state address = .ok n)
    (hsigned : eest.signed (target.transaction key n
      ((N.view w.state).balance (N.account address) - target.reserve)) = .ok hex)
    (hclear : N.Undisturbed (sentLog peer target w address (rawHex hex))) :
    ∃ hash, hashAt peer eest target (countedWorld peer target w address).state address
      (rawHex hex) = .ok (.str hash) := by
  have hdecode := N.decodes _ _ _ _ _ haddr hsigned
  have hread := balanceReport_of_balanceAt (N.balance w.state address)
  obtain ⟨hpending, hsame⟩ := hclear _ (balance_mem_sentLog w address _) _
    (send_mem_sentLog w address _) _ _ _ _ hread (submission_sendCall _ _) hdecode rfl
  obtain ⟨hcount, hafford⟩ := hshared.balance_le hsame
  rw [N.nonce] at hnonce
  obtain rfl := Except.ok.inj hnonce
  apply hshared.accepts _ _ _ _ hdecode hpending
  · show (((N.view (readWorld peer target w address).state).nonce (N.account address) : ℕ) : ℤ) =
      ((N.view (countedWorld peer target w address).state).nonce (N.account address) : ℕ)
    rw [hcount]
    exact congrArg Nat.cast hsame.symm
  · have hcost : (N.view w.state).balance (N.account address) - target.reserve +
        gasTransfer * target.maxFeePerGas = (N.view w.state).balance (N.account address) :=
      sub_add_cancel _ _
    exact hcost.le.trans hafford

/-- Sweeping an account undisturbed. -/
theorem Shared.handled_account (hshared : N.Shared) {eoaStart : ℤ} {n i : ℕ}
    (hkeys : Keys eest target eoaStart n) (hi : i < n) {address : String}
    (haddr : eest.eoa (eoaStart + i) = .ok address) {w u : HostWorld σ}
    {r : Except PyError (Option (Json × ℤ))}
    (h : AccountDerivation peer eest target (eoaStart + i) w r u) :
    ∃ new, u.log = w.log ++ new ∧ (N.Undisturbed new → ∃ result, r = .ok result ∧
      (∀ swept ∈ result, swept.1.hashable = true) ∧
      N.Handled (result.toList.map fun swept => ⟨address, swept.2, swept.1⟩) new address) := by
  have hread := balanceReport_of_balanceAt (N.balance w.state address)
  cases attempt_of_derivation (N := N) hkeys hi haddr h with
  | low hle =>
      refine ⟨_, readWorld_log w address, fun _ => ⟨none, rfl, by simp, ?_⟩⟩
      exact ⟨_, List.mem_cons_self, hread, fun hlt => absurd hlt (not_lt.mpr hle)⟩
  | @sent hex m reply hlt hnonce hsigned hsent =>
      refine ⟨_, sentWorld_log w address (rawHex hex), fun hclear => ?_⟩
      obtain ⟨hash, hhash⟩ := hshared.accepted haddr hnonce hsigned hclear
      obtain rfl : .ok (.str hash) = reply := hhash.symm.trans hsent
      have hdecode := N.decodes _ _ _ _ _ haddr hsigned
      refine ⟨some (.str hash, _), rfl, by simp [Json.hashable], _,
        balance_mem_sentLog w address _, hread,
        fun _ => ⟨⟨_, List.mem_cons_self, rfl, rfl⟩, rawHex hex, ?_, _, hdecode, rfl, rfl⟩⟩
      rw [submissions_sentLog]
      exact List.mem_cons_self

/-! ## The range -/

omit [DecidableEq A] in
/-- The first key of a range and the keys behind it. -/
theorem handled_cons {eoaStart : ℤ} {i count : ℕ} {address : String}
    (haddr : eest.eoa (eoaStart + i) = .ok address) {l m : List RecoveredAccount}
    {first rest : List (Exchange σ HostReply)} (hfirst : N.Handled l first address)
    (hrest : ∀ j, i + 1 ≤ j → j < i + 1 + count → ∀ other,
      eest.eoa (eoaStart + j) = .ok other → N.Handled m rest other) :
    ∀ j, i ≤ j → j < i + (count + 1) → ∀ other, eest.eoa (eoaStart + j) = .ok other →
      N.Handled (l ++ m) (first ++ rest) other := by
  intro j hij hj other hother
  by_cases heq : j = i
  · subst heq
    obtain rfl : address = other := Except.ok.inj (haddr.symm.trans hother)
    exact hfirst.mono (fun _ => List.mem_append_left m) fun _ => List.mem_append_left rest
  · exact (hrest j (by omega) (by omega) other hother).mono (fun _ => List.mem_append_right l)
      fun _ => List.mem_append_right first

/-- Scanning a range undisturbed. -/
theorem Shared.handled_range (hshared : N.Shared) {eoaStart : ℤ} {n : ℕ}
    (hkeys : Keys eest target eoaStart n) {i count : ℕ} (hn : i + count ≤ n)
    {w u : HostWorld σ} {r : Except PyError (List RecoveredAccount)}
    (h : RangeDerivation peer eest target eoaStart i count w r u) :
    ∃ new, u.log = w.log ++ new ∧ (N.Undisturbed new → ∃ recovered, r = .ok recovered ∧
      (∀ account ∈ recovered, account.txHash.hashable = true) ∧
      ∀ j, i ≤ j → j < i + count → ∀ address, eest.eoa (eoaStart + j) = .ok address →
        N.Handled recovered new address) := by
  induction h with
  | @done i w =>
      refine ⟨[], by simp, fun _ => ⟨[], rfl, by simp, ?_⟩⟩
      intro j hij hj
      omega
  | @raised i count w u e hfirst =>
      obtain ⟨address, haddr⟩ := hkeys.addressed i (by omega)
      obtain ⟨new, hlog, hfine⟩ := hshared.handled_account hkeys (by omega) haddr hfirst
      refine ⟨new, hlog, fun hclear => ?_⟩
      obtain ⟨result, hok, -⟩ := hfine hclear
      cases hok
  | @skipped i count w u v r hfirst hrest ih =>
      obtain ⟨address, haddr⟩ := hkeys.addressed i (by omega)
      obtain ⟨first, hlog, hfine⟩ := hshared.handled_account hkeys (by omega) haddr hfirst
      obtain ⟨rest, hlogRest, hfineRest⟩ := ih (by omega)
      refine ⟨first ++ rest, by rw [hlogRest, hlog, List.append_assoc], fun hclear => ?_⟩
      obtain ⟨result, hok, -, hhandled⟩ :=
        hfine (hclear.mono fun _ => List.mem_append_left rest)
      obtain ⟨recovered, hr, hhash, hlater⟩ :=
        hfineRest (hclear.mono fun _ => List.mem_append_right first)
      obtain rfl := Except.ok.inj hok
      exact ⟨recovered, hr, hhash, handled_cons haddr hhandled hlater⟩
  | @swept i count w u v r address wei txHash haddr hfirst hrest ih =>
      obtain ⟨first, hlog, hfine⟩ := hshared.handled_account hkeys (by omega) haddr hfirst
      obtain ⟨rest, hlogRest, hfineRest⟩ := ih (by omega)
      refine ⟨first ++ rest, by rw [hlogRest, hlog, List.append_assoc], fun hclear => ?_⟩
      obtain ⟨result, hok, hfirstHash, hhandled⟩ :=
        hfine (hclear.mono fun _ => List.mem_append_left rest)
      obtain ⟨recovered, hr, hhash, hlater⟩ :=
        hfineRest (hclear.mono fun _ => List.mem_append_right first)
      obtain rfl := Except.ok.inj hok
      subst hr
      refine ⟨⟨address, wei, txHash⟩ :: recovered, rfl, ?_, handled_cons haddr hhandled hlater⟩
      intro account haccount
      rcases List.mem_cons.mp haccount with rfl | haccount
      · exact hfirstHash (txHash, wei) rfl
      · exact hhash account haccount

end LedgerNode

variable {N : LedgerNode peer eest target A}

/-- A recovery that is undisturbed returns, and handles every account of its range. -/
theorem recover_handles (hshared : N.Shared) (C : Clock peer) {eoaStart : ℤ} {count fuel : ℕ}
    (hkeys : Keys eest target eoaStart count) (hfuel : 46 ≤ fuel) (wait : Bool) {w : HostWorld σ}
    (hclear : N.Undisturbed
      (asked (recoverFundedEoas peer eest target eoaStart fuel count wait) w)) :
    ∃ recovered u,
      recoverFundedEoas peer eest target eoaStart fuel count wait w = (.ok recovered, u) ∧
      ∀ i < count, ∀ address, eest.eoa (eoaStart + i) = .ok address → N.Handled recovered
        (asked (recoverFundedEoas peer eest target eoaStart fuel count wait) w) address := by
  rcases recoverFundedEoas_cases peer eest target eoaStart fuel count wait w with
    ⟨e, u, hscan, hrun⟩ | ⟨recovered, u, hscan, hrun⟩
  · obtain ⟨new, hlog, hfine⟩ := hshared.handled_range hkeys (by omega) hscan
    have hasked : asked (recoverFundedEoas peer eest target eoaStart fuel count wait) w = new :=
      asked_eq (by rw [hrun, hlog])
    rw [hasked] at hclear
    obtain ⟨recovered, hok, -⟩ := hfine hclear
    cases hok
  · obtain ⟨new, hlog, hfine⟩ := hshared.handled_range hkeys (by omega) hscan
    obtain ⟨late, hlate, -⟩ := await_log fuel wait recovered u
    have hasked : asked (recoverFundedEoas peer eest target eoaStart fuel count wait) w =
        new ++ late := by
      apply asked_eq
      rw [hrun, hlate, hlog, List.append_assoc]
    rw [hasked] at hclear ⊢
    obtain ⟨recovered', hok, hhash, hhandled⟩ :=
      hfine (hclear.mono fun _ => List.mem_append_left late)
    obtain rfl := Except.ok.inj hok
    obtain ⟨v, hend⟩ := await_returns C hfuel wait N.waits hhash u
    refine ⟨recovered, v, hrun.trans hend, ?_⟩
    intro i hi address haddr
    exact (hhandled i (Nat.zero_le i) (by omega) address haddr).mono (fun _ => id)
      fun _ => List.mem_append_left late

/-! ## Two runs -/

theorem occupied_shared : (pairLedger Mempool.occupied).Shared where
  accepts m address raw t ht hfree _ _ := by
    obtain rfl := Option.some.inj ht
    have hnone : m.occupied (pairTransfer raw) = false := by
      apply List.any_eq_false.mpr
      intro p hp
      simp [hfree p hp]
    refine ⟨raw, ?_⟩
    show receive pairEest address (if m.occupied (pairTransfer raw) = true then _ else _) = _
    rw [hnone]
    rfl
  moves m q := by
    show ∃ ts, Moves _ ts ((pairLedger Mempool.occupied).view (pairNext Mempool.occupied m q))
    unfold pairNext
    split
    · split
      · exact ⟨_, .refl⟩
      · exact ⟨_, Moves.refl.submit (pairTransfer _)⟩
    · exact ⟨_, .refl⟩
    · exact ⟨_, .refl⟩

/-- The world of the two keys before any run. -/
def beforeRuns : HostWorld Mempool := ⟨⟨[], 0⟩, []⟩

theorem beforeRuns_undisturbed : (pairLedger Mempool.occupied).Undisturbed (asked
    (recoverFundedEoas (pairNode Mempool.occupied) pairEest pairTarget 1 46 2 true) beforeRuns) := by
  have hfree : ∀ p ∈ (asked (recoverFundedEoas (pairNode Mempool.occupied) pairEest pairTarget 1 46
      2 true) beforeRuns).map fun y => (y.before.pool.length, (submission y).isSome),
      p.2 = true → p.1 = 0 := by
    decide +kernel
  intro x _ y hy address b raw t _ hsubmit _ _
  have hpool : y.before.pool.length = 0 := by
    apply hfree (y.before.pool.length, (submission y).isSome) (List.mem_map_of_mem hy)
    rw [hsubmit]
    rfl
  refine ⟨fun p hp => ?_, rfl⟩
  have hnil : y.before.pool = [] := List.eq_nil_of_length_eq_zero hpool
  have hmem : p ∈ y.before.pool := hp
  rw [hnil] at hmem
  exact absurd hmem List.not_mem_nil

theorem recover_handles_beforeRuns :
    ∃ recovered u,
      recoverFundedEoas (pairNode Mempool.occupied) pairEest pairTarget 1 46 2 true beforeRuns =
        (.ok recovered, u) ∧
      ∀ i < 2, ∀ address, pairEest.eoa (1 + (i : ℕ)) = .ok address →
        (pairLedger Mempool.occupied).Handled recovered (asked
          (recoverFundedEoas (pairNode Mempool.occupied) pairEest pairTarget 1 46 2 true)
          beforeRuns) address :=
  recover_handles occupied_shared (pairClock Mempool.occupied) (pairEest_keys pairTarget)
    (Nat.le_refl 46) true beforeRuns_undisturbed

/-- The sweep of a first run is still pending when its wait ends, and a second run raises. -/
theorem second_run_raises :
    (pairLedger Mempool.occupied).Shared ∧
      (recoverFundedEoas (pairNode Mempool.occupied) pairEest pairTarget 1 46 2 true
        beforeRuns).1.isOk = true ∧
      (recoverFundedEoas (pairNode Mempool.occupied) pairEest pairTarget 1 46 2 true
        beforeRuns).2.state.pool.length = 1 ∧
      (recoverFundedEoas (pairNode Mempool.occupied) pairEest pairTarget 1 46 2 true
        (recoverFundedEoas (pairNode Mempool.occupied) pairEest pairTarget 1 46 2 true
          beforeRuns).2).1.isOk = false :=
  ⟨occupied_shared, by decide +kernel⟩

end EestReplay.Sweep
