import EestReplay.Library.Through
import EestReplay.Verification.Recover.Account

/-! # Accounts behind a failing one

The scan of a recovery ends at the first account whose balance, nonce or sweep fails. -/

namespace EestReplay.Sweep

open Dialogue Through

variable {σ : Type} {peer : Peer σ HostReply} {eest : Eest} {target : Target}

/-- What a node reports for an account as long as none of its sweeps was submitted: a
balance and a nonce, where the lookups do not fail, and whether it rejects its sweep. -/
structure Assignment (peer : Peer σ HostReply) (eest : Eest) (target : Target) where
  balance : String → Option ℤ
  nonce : String → Option ℤ
  rejects : String → Bool
  sender : String → Option String
  untouched : σ → String → Prop
  nonce_nonneg : ∀ address n, nonce address = some n → 0 ≤ n
  reads : ∀ s address, untouched s address →
    (balanceAt peer target s address).toOption = balance address
  counts : ∀ s address, untouched s address →
    (nonceAt peer target s address).toOption = nonce address
  answers : ∀ s address raw, untouched s address → sender raw = some address →
    (hashAt peer eest target s address raw).isOk = !rejects address
  keeps : ∀ s q address, untouched s address →
    (∀ raw, q = sendCall target raw → sender raw ≠ some address) →
    untouched (peer.answer s q).2 address
  recovers : ∀ key address n wei hex, eest.eoa key = .ok address →
    eest.signed (target.transaction key n wei) = .ok hex → sender (rawHex hex) = some address

namespace Assignment

variable (A : Assignment peer eest target)

/-- The sweep that a recovery submits for a key. -/
def attempt (key : ℤ) : Option String := do
  let address ← (eest.eoa key).toOption
  let b ← A.balance address
  let n ← A.nonce address
  if target.reserve < b then
    return signedRaw eest (target.transaction key n (b - target.reserve))
  else
    none

/-- The account of a key ends the scan: its balance is not reported, or it holds more than
the reserve, and its nonce is not reported or its sweep is rejected. -/
def fails (key : ℤ) : Bool :=
  match eest.eoa key with
  | .error _ => false
  | .ok address =>
    match A.balance address with
    | none => true
    | some b => target.reserve < b && ((A.nonce address).isNone || A.rejects address)

/-- An account that does not fail and holds more than the reserve. -/
structure Due (eoaStart : ℤ) (account : Scanned) : Prop where
  addressed : eest.eoa (eoaStart + account.index) = .ok account.address
  balance_eq : A.balance account.address = some account.balance
  reserve_lt : target.reserve < account.balance
  nonce_eq : A.nonce account.address = some account.nonce
  accepted : A.rejects account.address = false

/-! ## One account -/

theorem attempt_of_due {eoaStart : ℤ} {account : Scanned} (h : A.Due eoaStart account) :
    A.attempt (eoaStart + account.index) =
      some (signedRaw eest (account.sweep target eoaStart)) := by
  unfold attempt
  rw [h.addressed]
  simp [Except.toOption, h.balance_eq, h.nonce_eq, h.reserve_lt, Scanned.sweep]

theorem attempt_eq_none_of_le {key b : ℤ} {address : String} (haddr : eest.eoa key = .ok address)
    (hbalance : A.balance address = some b) (h : b ≤ target.reserve) : A.attempt key = none := by
  have hnot : ¬ target.reserve < b := by omega
  unfold attempt
  rw [haddr]
  cases hnonce : A.nonce address <;> simp [Except.toOption, hbalance, hnonce, hnot]

theorem attempt_eq_none {key : ℤ} {address : String} (haddr : eest.eoa key = .ok address)
    (h : A.balance address = none ∨ A.nonce address = none) : A.attempt key = none := by
  unfold attempt
  rw [haddr]
  rcases h with h | h
  · simp [Except.toOption, h]
  · cases hbalance : A.balance address <;> simp [Except.toOption, hbalance, h]

theorem attempt_eq_some {key b n : ℤ} {address hex : String} (haddr : eest.eoa key = .ok address)
    (hbalance : A.balance address = some b) (hlt : target.reserve < b)
    (hnonce : A.nonce address = some n)
    (hsigned : eest.signed (target.transaction key n (b - target.reserve)) = .ok hex) :
    A.attempt key = some (rawHex hex) := by
  unfold attempt
  rw [haddr]
  simp [Except.toOption, hbalance, hnonce, hlt, signedRaw, hsigned]

theorem fails_eq_true {key : ℤ} {address : String} (haddr : eest.eoa key = .ok address)
    (hbalance : A.balance address = none) : A.fails key = true := by
  simp [fails, haddr, hbalance]

theorem fails_eq {key b : ℤ} {address : String} (haddr : eest.eoa key = .ok address)
    (hbalance : A.balance address = some b) :
    A.fails key = (target.reserve < b && ((A.nonce address).isNone || A.rejects address)) := by
  simp [fails, haddr, hbalance]

/-- An attempt is signed with the key that it is made for. -/
theorem sender_of_attempt {eoaStart : ℤ} {i count : ℕ} (hkeys : Keys eest target eoaStart count)
    (hi : i < count) {raw : String} (h : A.attempt (eoaStart + i) = some raw) :
    ∃ address, eest.eoa (eoaStart + i) = .ok address ∧ A.sender raw = some address := by
  obtain ⟨address, haddr⟩ := hkeys.addressed i hi
  refine ⟨address, haddr, ?_⟩
  cases hbalance : A.balance address with
  | none =>
      rw [A.attempt_eq_none haddr (.inl hbalance)] at h
      cases h
  | some b =>
      cases hnonce : A.nonce address with
      | none =>
          rw [A.attempt_eq_none haddr (.inr hnonce)] at h
          cases h
      | some n =>
          by_cases hlt : target.reserve < b
          · obtain ⟨hex, hhex⟩ := hkeys.signs i hi n (b - target.reserve)
              (A.nonce_nonneg address n hnonce) (by omega)
            rw [A.attempt_eq_some haddr hbalance hlt hnonce hhex] at h
            obtain rfl := Option.some.inj h
            exact A.recovers _ _ _ _ _ haddr hhex
          · rw [A.attempt_eq_none_of_le haddr hbalance (by omega)] at h
            cases h

/-! ## Untouched accounts -/

theorem untouched_readWorld {w : HostWorld σ} {address other : String}
    (h : A.untouched w.state address) :
    A.untouched (readWorld peer target w other).state address :=
  A.keeps _ _ _ h fun raw hq => absurd hq (balanceCall_ne_sendCall other raw)

theorem untouched_countedWorld {w : HostWorld σ} {address other : String}
    (h : A.untouched w.state address) :
    A.untouched (countedWorld peer target w other).state address :=
  A.keeps _ _ _ (A.untouched_readWorld h) fun raw hq => absurd hq (nonceCall_ne_sendCall other raw)

theorem untouched_sentWorld {w : HostWorld σ} {address other raw : String}
    (h : A.untouched w.state address) (hsender : A.sender raw = some other)
    (hne : other ≠ address) : A.untouched (sentWorld peer target w other raw).state address := by
  apply A.keeps _ _ _ (A.untouched_countedWorld h)
  intro raw' hq
  obtain rfl := sendCall_inj hq
  rw [hsender]
  exact fun heq => hne (Option.some.inj heq)

/-- The sweep of an account leaves every other account untouched. -/
theorem untouched_of_accountDerivation {key : ℤ} {address other : String}
    (haddr : eest.eoa key = .ok address) {w u : HostWorld σ}
    {r : Except PyError (Option (Json × ℤ))} (h : AccountDerivation peer eest target key w r u)
    (hother : A.untouched w.state other) (hne : address ≠ other) : A.untouched u.state other := by
  cases h with
  | unaddressed => exact hother
  | unread => exact A.untouched_readWorld hother
  | low => exact A.untouched_readWorld hother
  | uncounted => exact A.untouched_countedWorld hother
  | unsigned => exact A.untouched_countedWorld hother
  | rejected haddr' _ _ _ hsigned =>
      obtain rfl : address = _ := Except.ok.inj (haddr.symm.trans haddr')
      exact A.untouched_sentWorld hother (A.recovers _ _ _ _ _ haddr hsigned) hne
  | swept haddr' _ _ _ hsigned =>
      obtain rfl : address = _ := Except.ok.inj (haddr.symm.trans haddr')
      exact A.untouched_sentWorld hother (A.recovers _ _ _ _ _ haddr hsigned) hne

/-! ## One account -/

theorem balance_eq_none {s : σ} {address : String} {e : PyError} (hfresh : A.untouched s address)
    (h : balanceAt peer target s address = .error e) : A.balance address = none := by
  rw [← A.reads s address hfresh, h]
  rfl

theorem balance_eq_some {s : σ} {address : String} {b : ℤ} (hfresh : A.untouched s address)
    (h : balanceAt peer target s address = .ok b) : A.balance address = some b := by
  rw [← A.reads s address hfresh, h]
  rfl

theorem nonce_eq_none {s : σ} {address : String} {e : PyError} (hfresh : A.untouched s address)
    (h : nonceAt peer target s address = .error e) : A.nonce address = none := by
  rw [← A.counts s address hfresh, h]
  rfl

theorem nonce_eq_some {s : σ} {address : String} {n : ℤ} (hfresh : A.untouched s address)
    (h : nonceAt peer target s address = .ok n) : A.nonce address = some n := by
  rw [← A.counts s address hfresh, h]
  rfl

theorem isOk_hashAt {key n wei : ℤ} {address hex : String} {w : HostWorld σ}
    (hfresh : A.untouched w.state address) (haddr : eest.eoa key = .ok address)
    (hsigned : eest.signed (target.transaction key n wei) = .ok hex) :
    (hashAt peer eest target (countedWorld peer target w address).state address
      (rawHex hex)).isOk = !A.rejects address :=
  A.answers _ _ _ (A.untouched_countedWorld hfresh) (A.recovers _ _ _ _ _ haddr hsigned)

/-- Sending the sweep of an account submits its attempt, and is rejected when it fails. -/
theorem of_sent {key b n : ℤ} {address hex : String} {w : HostWorld σ} {r : Except PyError Json}
    (hfresh : A.untouched w.state address) (haddr : eest.eoa key = .ok address)
    (hbalance : balanceAt peer target w.state address = .ok b) (hlt : target.reserve < b)
    (hnonce : nonceAt peer target (readWorld peer target w address).state address = .ok n)
    (hsigned : eest.signed (target.transaction key n (b - target.reserve)) = .ok hex)
    (hsent : hashAt peer eest target (countedWorld peer target w address).state address
      (rawHex hex) = r) :
    ∃ new, (sentWorld peer target w address (rawHex hex)).log = w.log ++ new ∧
      submissions new = (A.attempt key).toList ∧ A.fails key = !r.isOk := by
  have hsome := A.balance_eq_some hfresh hbalance
  have hcount := A.nonce_eq_some (A.untouched_readWorld hfresh) hnonce
  have hanswer : r.isOk = !A.rejects address := by
    rw [← hsent]
    exact A.isOk_hashAt hfresh haddr hsigned
  refine ⟨_, sentWorld_log w address (rawHex hex), ?_, ?_⟩
  · rw [A.attempt_eq_some haddr hsome hlt hcount hsigned]
    rfl
  · rw [A.fails_eq haddr hsome, decide_eq_true hlt, hcount, hanswer]
    simp

/-- Sweeping an account submits what it attempts, and raises exactly when it fails. -/
theorem of_accountDerivation {eoaStart : ℤ} {i count : ℕ}
    (hkeys : Keys eest target eoaStart count) (hi : i < count) {address : String}
    (haddr : eest.eoa (eoaStart + i) = .ok address) {w u : HostWorld σ}
    (hfresh : A.untouched w.state address) {r : Except PyError (Option (Json × ℤ))}
    (h : AccountDerivation peer eest target (eoaStart + i) w r u) :
    ∃ new, u.log = w.log ++ new ∧ submissions new = (A.attempt (eoaStart + i)).toList ∧
      A.fails (eoaStart + i) = !r.isOk := by
  cases h with
  | unaddressed haddr' =>
      rw [haddr] at haddr'
      cases haddr'
  | unread haddr' hbalance =>
      obtain rfl : address = _ := Except.ok.inj (haddr.symm.trans haddr')
      have hnone := A.balance_eq_none hfresh hbalance
      refine ⟨_, readWorld_log w address, ?_, A.fails_eq_true haddr hnone⟩
      rw [A.attempt_eq_none haddr (.inl hnone)]
      rfl
  | low haddr' hbalance hle =>
      obtain rfl : address = _ := Except.ok.inj (haddr.symm.trans haddr')
      have hsome := A.balance_eq_some hfresh hbalance
      refine ⟨_, readWorld_log w address, ?_, ?_⟩
      · rw [A.attempt_eq_none_of_le haddr hsome hle]
        rfl
      · have hnot : ¬ target.reserve < _ := not_lt.mpr hle
        rw [A.fails_eq haddr hsome, decide_eq_false hnot]
        rfl
  | uncounted haddr' hbalance hlt hnonce =>
      obtain rfl : address = _ := Except.ok.inj (haddr.symm.trans haddr')
      have hsome := A.balance_eq_some hfresh hbalance
      have hnone := A.nonce_eq_none (A.untouched_readWorld hfresh) hnonce
      refine ⟨_, countedWorld_log w address, ?_, ?_⟩
      · rw [A.attempt_eq_none haddr (.inr hnone)]
        rfl
      · rw [A.fails_eq haddr hsome, decide_eq_true hlt, hnone]
        rfl
  | @unsigned _ b n e haddr' hbalance hlt hnonce hsigned =>
      obtain rfl : address = _ := Except.ok.inj (haddr.symm.trans haddr')
      have hcount := A.nonce_eq_some (A.untouched_readWorld hfresh) hnonce
      obtain ⟨hex, hhex⟩ := hkeys.signs i hi n (b - target.reserve)
        (A.nonce_nonneg _ n hcount) (by omega)
      rw [hhex] at hsigned
      cases hsigned
  | rejected haddr' hbalance hlt hnonce hsigned hsent =>
      obtain rfl : address = _ := Except.ok.inj (haddr.symm.trans haddr')
      exact A.of_sent hfresh haddr hbalance hlt hnonce hsigned hsent
  | swept haddr' hbalance hlt hnonce hsigned hsent =>
      obtain rfl : address = _ := Except.ok.inj (haddr.symm.trans haddr')
      exact A.of_sent hfresh haddr hbalance hlt hnonce hsigned hsent

/-! ## The range -/

/-- What the keys of a range attempt, up to the first that fails. -/
def attempts (eoaStart : ℤ) (i count : ℕ) : List String :=
  (through (fun j : ℕ => A.fails (eoaStart + j)) (List.range' i count)).filterMap
    fun j : ℕ => A.attempt (eoaStart + j)

theorem attempts_of_fails {eoaStart : ℤ} {i count : ℕ} (h : A.fails (eoaStart + i) = true) :
    A.attempts eoaStart i (count + 1) = (A.attempt (eoaStart + i)).toList := by
  unfold attempts
  rw [List.range'_succ, through, h]
  cases hattempt : A.attempt (eoaStart + i) <;> simp [hattempt]

theorem attempts_of_not_fails {eoaStart : ℤ} {i count : ℕ} (h : A.fails (eoaStart + i) = false) :
    A.attempts eoaStart i (count + 1) =
      (A.attempt (eoaStart + i)).toList ++ A.attempts eoaStart (i + 1) count := by
  unfold attempts
  rw [List.range'_succ, through, h]
  cases hattempt : A.attempt (eoaStart + i) <;> simp [hattempt]

/-- A key is attempted where none before it fails. -/
theorem mem_attempts {eoaStart : ℤ} {count : ℕ} {raw : String} :
    raw ∈ A.attempts eoaStart 0 count ↔ ∃ j < count, (∀ k < j, A.fails (eoaStart + k) = false) ∧
      A.attempt (eoaStart + j) = some raw := by
  unfold attempts
  simp only [List.mem_filterMap, mem_through_range', Nat.zero_le, true_and, Nat.zero_add,
    forall_const, and_assoc]

/-- No sweep of the keys from index `i` on was submitted. -/
def Fresh (eoaStart : ℤ) (i n : ℕ) (s : σ) : Prop :=
  ∀ j, i ≤ j → j < n → ∀ address, eest.eoa (eoaStart + j) = .ok address → A.untouched s address

/-- The account of a key leaves the keys behind it fresh. -/
theorem Fresh.step {eoaStart : ℤ} {n i : ℕ} (hkeys : Keys eest target eoaStart n) (hi : i < n)
    {w u : HostWorld σ} {r : Except PyError (Option (Json × ℤ))}
    (hfresh : A.Fresh eoaStart i n w.state)
    (h : AccountDerivation peer eest target (eoaStart + i) w r u) :
    A.Fresh eoaStart (i + 1) n u.state := by
  obtain ⟨address, haddr⟩ := hkeys.addressed i hi
  intro j hij hj other hother
  apply A.untouched_of_accountDerivation haddr h (hfresh j (by omega) hj other hother)
  rintro rfl
  have hsame := hkeys.distinct i hi j hj address haddr hother
  omega

/-- The first key of a range. -/
theorem of_first {eoaStart : ℤ} {n i : ℕ} (hkeys : Keys eest target eoaStart n) (hi : i < n)
    {w u : HostWorld σ} {r : Except PyError (Option (Json × ℤ))}
    (hfresh : A.Fresh eoaStart i n w.state)
    (h : AccountDerivation peer eest target (eoaStart + i) w r u) :
    ∃ new, u.log = w.log ++ new ∧ submissions new = (A.attempt (eoaStart + i)).toList ∧
      A.fails (eoaStart + i) = !r.isOk := by
  obtain ⟨address, haddr⟩ := hkeys.addressed i hi
  exact A.of_accountDerivation hkeys hi haddr (hfresh i (Nat.le_refl i) hi address haddr) h

/-- A key that does not fail, and the keys behind it. -/
theorem attempts_cons {eoaStart : ℤ} {n i count : ℕ} (hkeys : Keys eest target eoaStart n)
    (hi : i < n) {w u v : HostWorld σ} {r : Option (Json × ℤ)}
    (hfresh : A.Fresh eoaStart i n w.state)
    (h : AccountDerivation peer eest target (eoaStart + i) w (.ok r) u)
    (hrest : ∃ new, v.log = u.log ++ new ∧ submissions new = A.attempts eoaStart (i + 1) count) :
    ∃ new, v.log = w.log ++ new ∧ submissions new = A.attempts eoaStart i (count + 1) := by
  obtain ⟨first, hlog, hfirst, hnot⟩ := A.of_first hkeys hi hfresh h
  obtain ⟨rest, hlog', hrest⟩ := hrest
  refine ⟨first ++ rest, by rw [hlog', hlog, List.append_assoc], ?_⟩
  rw [submissions_append, hfirst, hrest, A.attempts_of_not_fails hnot]

/-- Scanning a range submits its attempts. -/
theorem of_rangeDerivation {eoaStart : ℤ} {n : ℕ} (hkeys : Keys eest target eoaStart n)
    {i count : ℕ} (hn : i + count ≤ n) {w u : HostWorld σ}
    (hfresh : A.Fresh eoaStart i n w.state) {r : Except PyError (List RecoveredAccount)}
    (h : RangeDerivation peer eest target eoaStart i count w r u) :
    ∃ new, u.log = w.log ++ new ∧ submissions new = A.attempts eoaStart i count := by
  induction h with
  | done => exact ⟨[], by simp, rfl⟩
  | raised hfirst =>
      obtain ⟨new, hlog, hsubmit, hraise⟩ := A.of_first hkeys (by omega) hfresh hfirst
      exact ⟨new, hlog, by rw [hsubmit, A.attempts_of_fails hraise]⟩
  | skipped hfirst hrest ih =>
      have hlater := Fresh.step A hkeys (by omega) hfresh hfirst
      exact A.attempts_cons hkeys (by omega) hfresh hfirst (ih (by omega) hlater)
  | swept haddr hfirst hrest ih =>
      have hlater := Fresh.step A hkeys (by omega) hfresh hfirst
      exact A.attempts_cons hkeys (by omega) hfresh hfirst (ih (by omega) hlater)

/-- What a recovery submits. -/
theorem submissions_recover {eoaStart : ℤ} {count : ℕ} (hkeys : Keys eest target eoaStart count)
    (fuel : ℕ) (wait : Bool) {w : HostWorld σ}
    (hfresh : ∀ i < count, ∀ address, eest.eoa (eoaStart + i) = .ok address →
      A.untouched w.state address) :
    submissions (asked (recoverFundedEoas peer eest target eoaStart fuel count wait) w) =
      A.attempts eoaStart 0 count := by
  have hrange : A.Fresh eoaStart 0 count w.state := fun j _ hj => hfresh j hj
  rcases recoverFundedEoas_cases peer eest target eoaStart fuel count wait w with
    ⟨e, u, hscan, hrun⟩ | ⟨recovered, u, hscan, hrun⟩
  · obtain ⟨new, hlog, hsubmit⟩ := A.of_rangeDerivation hkeys (by omega) hrange hscan
    have hasked : asked (recoverFundedEoas peer eest target eoaStart fuel count wait) w = new :=
      asked_eq (by rw [hrun, hlog])
    rw [hasked, hsubmit]
  · obtain ⟨new, hlog, hsubmit⟩ := A.of_rangeDerivation hkeys (by omega) hrange hscan
    obtain ⟨late, hlate, hidle⟩ := await_log fuel wait recovered u
    have hall : (recoverFundedEoas peer eest target eoaStart fuel count wait w).2.log =
        w.log ++ (new ++ late) := by
      rw [hrun, hlate, hlog, List.append_assoc]
    rw [asked_eq hall, submissions_append, hsubmit, submissions_of_idle hidle, List.append_nil]

end Assignment

/-- A recovery sweeps every account that does not fail and holds more than the reserve exactly
when none of them lies behind a failing account. -/
theorem recover_sweeps_due_iff (A : Assignment peer eest target) {eoaStart : ℤ} {count : ℕ}
    (hkeys : Keys eest target eoaStart count) (fuel : ℕ) (wait : Bool) {w : HostWorld σ}
    (hfresh : ∀ i < count, ∀ address, eest.eoa (eoaStart + i) = .ok address →
      A.untouched w.state address) :
    (∀ account, account.index < count → A.Due eoaStart account →
      signedRaw eest (account.sweep target eoaStart) ∈
        submissions (asked (recoverFundedEoas peer eest target eoaStart fuel count wait) w)) ↔
    ∀ account, account.index < count → A.Due eoaStart account →
      ∀ i < account.index, A.fails (eoaStart + i) = false := by
  rw [A.submissions_recover hkeys fuel wait hfresh]
  constructor
  · intro hall account hindex hdue
    obtain ⟨j, hj, hnone, hattempt⟩ := A.mem_attempts.mp (hall account hindex hdue)
    obtain ⟨address, haddr, hsender⟩ := A.sender_of_attempt hkeys hj hattempt
    obtain ⟨other, hother, hsender'⟩ := A.sender_of_attempt hkeys hindex (A.attempt_of_due hdue)
    obtain rfl : address = other := Option.some.inj (hsender.symm.trans hsender')
    obtain rfl : j = account.index := hkeys.distinct j hj _ hindex address haddr hother
    exact hnone
  · intro hall account hindex hdue
    exact A.mem_attempts.mpr ⟨account.index, hindex, hall account hindex hdue,
      A.attempt_of_due hdue⟩

/-! ## A failing account before a due one -/

/-- A node that reports no balance for the first account, and accepts every sweep. -/
def secondOnly : Peer Unit HostReply where
  answer _ q :=
    (match q with
      | .post _ "eth_getBalance" [.str address, .str "latest"] _ =>
        .ok (if address = "second" then .obj [("result", .str "0x520a")]
          else .obj [("error", .str "header not found")])
      | .post _ "eth_getTransactionCount" _ _ => .ok (.obj [("result", .str "0x0")])
      | .post _ _ _ _ => .ok (.obj [("result", .str "0x01")])
      | .time => .ok (0 : ℚ)
      | .sleep _ => .ok ()
      | _ => .error ⟨.osError, "unavailable"⟩, ())

def secondOnlyAssignment : Assignment secondOnly pairEest pairTarget where
  balance address := if address = "second" then some 21002 else none
  nonce _ := some 0
  rejects _ := false
  sender raw := some (if '1' ∈ raw.toList then "first" else "second")
  untouched _ _ := True
  nonce_nonneg _ _ h := (Option.some.inj h).le
  reads _ address _ := by
    show ((Except.ok (if address = "second" then Json.obj [("result", .str "0x520a")]
      else .obj [("error", .str "header not found")]) : Except PyError Json) >>=
        quantity).toOption = _
    split
    · rfl
    · rfl
  counts _ _ _ := rfl
  answers _ _ _ _ _ := rfl
  keeps _ _ _ _ _ := trivial
  recovers _ _ _ _ _ haddr hsigned := congrArg some (pairEest_signed haddr hsigned).1

theorem recover_sweeps_due_iff_secondOnly :
    (∀ account : Scanned, account.index < 2 → secondOnlyAssignment.Due 1 account →
      signedRaw pairEest (account.sweep pairTarget 1) ∈
        submissions (asked (recoverFundedEoas secondOnly pairEest pairTarget 1 46 2) ⟨(), []⟩)) ↔
    ∀ account : Scanned, account.index < 2 → secondOnlyAssignment.Due 1 account →
      ∀ i < account.index, secondOnlyAssignment.fails (1 + i) = false :=
  recover_sweeps_due_iff secondOnlyAssignment (pairEest_keys pairTarget) 46 true
    fun _ _ _ _ => trivial

/-- The first account has no balance to report, and the second is never looked at. -/
theorem stranded_secondOnly :
    ∃ account : Scanned, account.index < 2 ∧ secondOnlyAssignment.Due 1 account ∧
      signedRaw pairEest (account.sweep pairTarget 1) ∉
        submissions (asked (recoverFundedEoas secondOnly pairEest pairTarget 1 46 2) ⟨(), []⟩) :=
  ⟨⟨1, "second", 21002, 0⟩, by decide, ⟨rfl, rfl, by decide, rfl, rfl⟩, by decide⟩

end EestReplay.Sweep
