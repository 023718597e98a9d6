import EestReplay.Verification.Recover.Node

/-! # Recovery conserves ether

A node that accepts every sweep and mines nothing else: what a recovery takes from the
scanned accounts is what it returns, and a second recovery finds nothing to take. -/

namespace EestReplay.Sweep

open Dialogue Ledger

variable {σ : Type} {peer : Peer σ HostReply} {eest : Eest} {target : Target}
  {A : Type} [DecidableEq A]

namespace LedgerNode

variable (N : LedgerNode peer eest target A)

/-- The node accepts every sweep, and mines nothing but what was submitted to it. -/
structure Sole : Prop where
  accepts : ∀ s address raw t, N.decode raw = some t →
    ∃ hash, hashAt peer eest target s address raw = .ok (.str hash)
  submits : ∀ s raw t, N.decode raw = some t →
    Moves (N.view s) [t] (N.view (peer.answer s (sendCall target raw)).2)
  mines : ∀ s q, (∀ raw, q ≠ sendCall target raw) →
    Moves (N.view s) [] (N.view (peer.answer s q).2)

/-! ## Tallies -/

/-- A sweep of a scanned account: all of the balance that was read for it but the reserve. -/
structure IsSweep (eoaStart : ℤ) (i count : ℕ) (c : Chain A) (new : List (Exchange σ HostReply))
    (t : Transfer A) : Prop where
  read : ∃ j, i ≤ j ∧ j < i + count ∧ ∃ address, eest.eoa (eoaStart + j) = .ok address ∧
    N.account address = t.sender ∧ (address, t.value + target.reserve) ∈ balanceReports new
  dest_eq : t.dest = N.account target.toAddr
  gas_eq : t.gas = gasTransfer
  positive : 0 < t.value
  balance_eq : t.value + target.reserve = c.balance t.sender

/-- What a scan of a range has submitted, on a ledger that it found as `c` and left as `d`. -/
structure Tally (eoaStart : ℤ) (i count : ℕ) (c d : Chain A) (ts : List (Transfer A))
    (recovered : List RecoveredAccount) (new : List (Exchange σ HostReply)) : Prop where
  moves : Moves c ts d
  wei : ts.map Transfer.value = recovered.map RecoveredAccount.sweptWei
  hashes : ∀ r ∈ recovered, r.txHash.hashable = true
  senders : (ts.map Transfer.sender).Nodup
  sweeps : ∀ t ∈ ts, N.IsSweep eoaStart i count c new t
  raws : ∀ raw ∈ submissions new, ∃ t ∈ ts, N.decode raw = some t
  rest : ∀ j, i ≤ j → j < i + count → ∀ a, N.Owns eoaStart j a → a ∉ ts.map Transfer.sender →
    c.balance a ≤ target.reserve

variable {N}

omit [DecidableEq A] in
theorem IsSweep.owner {eoaStart : ℤ} {i count : ℕ} {c : Chain A}
    {new : List (Exchange σ HostReply)} {t : Transfer A} (h : N.IsSweep eoaStart i count c new t) :
    ∃ j, i ≤ j ∧ j < i + count ∧ N.Owns eoaStart j t.sender := by
  obtain ⟨j, hij, hj, address, haddr, haccount, -⟩ := h.read
  exact ⟨j, hij, hj, address, haddr, haccount⟩

/-! ## One account -/

section

variable {w : HostWorld σ} {address raw : String}

theorem Sole.moves_readWorld (h : N.Sole) :
    Moves (N.view w.state) [] (N.view (readWorld peer target w address).state) :=
  h.mines _ _ (balanceCall_ne_sendCall address)

theorem Sole.moves_countedWorld (h : N.Sole) :
    Moves (N.view w.state) [] (N.view (countedWorld peer target w address).state) :=
  h.moves_readWorld.trans (h.mines _ _ (nonceCall_ne_sendCall address))

theorem Sole.moves_sentWorld (h : N.Sole) {t : Transfer A} (ht : N.decode raw = some t) :
    Moves (N.view w.state) [t] (N.view (sentWorld peer target w address raw).state) :=
  h.moves_countedWorld.trans (h.submits _ _ _ ht)

end

omit [DecidableEq A] in
/-- The owner in a range of one. -/
theorem owner_eq {eoaStart : ℤ} {i j : ℕ} {address : String}
    (haddr : eest.eoa (eoaStart + i) = .ok address) (hij : i ≤ j) (hj : j < i + 1) {a : A}
    (h : N.Owns eoaStart j a) : N.account address = a := by
  obtain rfl : i = j := by omega
  obtain ⟨other, hother, rfl⟩ := h
  rw [Except.ok.inj (haddr.symm.trans hother)]

/-- An account that holds no more than the reserve. -/
theorem Sole.tally_low (hsole : N.Sole) {eoaStart : ℤ} {i : ℕ} {address : String}
    (haddr : eest.eoa (eoaStart + i) = .ok address) {w : HostWorld σ}
    (hle : (N.view w.state).balance (N.account address) ≤ target.reserve) :
    N.Tally eoaStart i 1 (N.view w.state) (N.view (readWorld peer target w address).state) [] []
      [served peer w.state (balanceCall target address)] where
  moves := hsole.moves_readWorld
  wei := rfl
  hashes := by simp
  senders := List.nodup_nil
  sweeps := by simp
  raws := by simp [submissions]
  rest := by
    intro j hij hj a howns _
    rw [← owner_eq haddr hij hj howns]
    exact hle

omit [DecidableEq A] in
/-- The transfer that takes all but the reserve is a sweep. -/
theorem isSweep_sentLog {eoaStart : ℤ} {i : ℕ} {address raw : String}
    (haddr : eest.eoa (eoaStart + i) = .ok address) {w : HostWorld σ} (m : ℤ)
    (hlt : target.reserve < (N.view w.state).balance (N.account address)) :
    N.IsSweep eoaStart i 1 (N.view w.state) (sentLog peer target w address raw)
      ⟨N.account address, m, N.account target.toAddr,
        (N.view w.state).balance (N.account address) - target.reserve, gasTransfer,
        target.maxFeePerGas⟩ := by
  have hback : (N.view w.state).balance (N.account address) - target.reserve + target.reserve =
      (N.view w.state).balance (N.account address) := sub_add_cancel _ _
  have hreport := balanceReport_of_balanceAt (N.balance w.state address)
  refine ⟨⟨i, Nat.le_refl i, by omega, address, haddr, rfl, ?_⟩, rfl, rfl, ?_, hback⟩
  · rw [hback]
    exact List.mem_filterMap.mpr ⟨_, balance_mem_sentLog w address raw, hreport⟩
  · show 0 < _ - target.reserve
    omega

/-- An account that is swept. -/
theorem Sole.tally_swept (hsole : N.Sole) {eoaStart m : ℤ} {i : ℕ} {address raw hash : String}
    (haddr : eest.eoa (eoaStart + i) = .ok address) {w : HostWorld σ}
    (hlt : target.reserve < (N.view w.state).balance (N.account address))
    (hdecode : N.decode raw = some ⟨N.account address, m, N.account target.toAddr,
      (N.view w.state).balance (N.account address) - target.reserve, gasTransfer,
      target.maxFeePerGas⟩) :
    N.Tally eoaStart i 1 (N.view w.state) (N.view (sentWorld peer target w address raw).state)
      [⟨N.account address, m, N.account target.toAddr,
        (N.view w.state).balance (N.account address) - target.reserve, gasTransfer,
        target.maxFeePerGas⟩]
      [⟨address, (N.view w.state).balance (N.account address) - target.reserve, .str hash⟩]
      (sentLog peer target w address raw) where
  moves := hsole.moves_sentWorld hdecode
  wei := rfl
  hashes := by simp [Json.hashable]
  senders := List.nodup_singleton _
  sweeps := by
    intro t ht
    obtain rfl := List.mem_singleton.mp ht
    exact isSweep_sentLog haddr m hlt
  raws := by
    intro other hother
    rw [submissions_sentLog] at hother
    obtain rfl := List.mem_singleton.mp hother
    exact ⟨_, List.mem_cons_self, hdecode⟩
  rest := by
    intro j hij hj a howns hfresh
    rw [← owner_eq haddr hij hj howns] at hfresh
    exact absurd List.mem_cons_self hfresh

/-- Sweeping an account, as the tally of a range of one. -/
theorem Sole.tally_account (hsole : N.Sole) {eoaStart : ℤ} {n i : ℕ}
    (hkeys : Keys eest target eoaStart n) (hi : i < n) {address : String}
    (haddr : eest.eoa (eoaStart + i) = .ok address) {w u : HostWorld σ}
    {r : Except PyError (Option (Json × ℤ))}
    (h : AccountDerivation peer eest target (eoaStart + i) w r u) :
    ∃ result ts new, r = .ok result ∧ u.log = w.log ++ new ∧
      N.Tally eoaStart i 1 (N.view w.state) (N.view u.state) ts
        (result.toList.map fun swept => ⟨address, swept.2, swept.1⟩) new := by
  cases attempt_of_derivation (N := N) hkeys hi haddr h with
  | low hle => exact ⟨none, [], _, rfl, readWorld_log w address, hsole.tally_low haddr hle⟩
  | @sent hex m reply hlt hnonce hsigned hsent =>
      have hdecode := N.decodes _ _ _ _ _ haddr hsigned
      obtain ⟨hash, hhash⟩ := hsole.accepts (countedWorld peer target w address).state address _ _
        hdecode
      obtain rfl : .ok (.str hash) = reply := hhash.symm.trans hsent
      exact ⟨some (.str hash, _), [_], _, rfl, sentWorld_log w address (rawHex hex),
        hsole.tally_swept haddr hlt hdecode⟩

/-! ## The range -/

omit [DecidableEq A] in
/-- A sweep of a part of a range, on a ledger where its account had the same balance. -/
theorem IsSweep.widen {eoaStart : ℤ} {i j count other : ℕ} {c d : Chain A}
    {new all : List (Exchange σ HostReply)} {t : Transfer A}
    (h : N.IsSweep eoaStart i count c new t) (hij : j ≤ i) (hcount : i + count ≤ j + other)
    (hreports : ∀ x ∈ balanceReports new, x ∈ balanceReports all)
    (hbalance : c.balance t.sender = d.balance t.sender) : N.IsSweep eoaStart j other d all t where
  read := by
    obtain ⟨k, hik, hk, address, haddr, haccount, hread⟩ := h.read
    exact ⟨k, by omega, by omega, address, haddr, haccount, hreports _ hread⟩
  dest_eq := h.dest_eq
  gas_eq := h.gas_eq
  positive := h.positive
  balance_eq := h.balance_eq.trans hbalance

/-- The first key of a range and the keys behind it, whose balances its sweep left alone. -/
theorem Tally.append {eoaStart : ℤ} {n i count : ℕ} (hsep : N.Separate eoaStart n)
    (hn : i + (count + 1) ≤ n) {c d e : Chain A} {ts us : List (Transfer A)}
    {l m : List RecoveredAccount} {first rest : List (Exchange σ HostReply)}
    (hfirst : N.Tally eoaStart i 1 c d ts l first)
    (hrest : N.Tally eoaStart (i + 1) count d e us m rest)
    (hstay : ∀ j, i + 1 ≤ j → j < n → ∀ a, N.Owns eoaStart j a → d.balance a = c.balance a) :
    N.Tally eoaStart i (count + 1) c e (ts ++ us) (l ++ m) (first ++ rest) where
  moves := hfirst.moves.trans hrest.moves
  wei := by rw [List.map_append, List.map_append, hfirst.wei, hrest.wei]
  hashes := by
    intro r hr
    rcases List.mem_append.mp hr with hr | hr
    · exact hfirst.hashes r hr
    · exact hrest.hashes r hr
  senders := by
    rw [List.map_append]
    refine hfirst.senders.append hrest.senders ?_
    intro a ha hb
    obtain ⟨t, ht, rfl⟩ := List.mem_map.mp ha
    obtain ⟨u, hu, heq⟩ := List.mem_map.mp hb
    obtain ⟨j, hij, hj, howns⟩ := (hfirst.sweeps t ht).owner
    obtain ⟨k, hik, hk, howns'⟩ := (hrest.sweeps u hu).owner
    rw [heq] at howns'
    have hsame := hsep j (by omega) k (by omega) _ howns howns'
    omega
  sweeps := by
    intro t ht
    rcases List.mem_append.mp ht with ht | ht
    · refine (hfirst.sweeps t ht).widen (Nat.le_refl i) (by omega) ?_ rfl
      intro x hx
      rw [balanceReports_append]
      exact List.mem_append_left _ hx
    · obtain ⟨k, hik, hk, howns⟩ := (hrest.sweeps t ht).owner
      refine (hrest.sweeps t ht).widen (by omega) (by omega) ?_ (hstay k hik (by omega) _ howns)
      intro x hx
      rw [balanceReports_append]
      exact List.mem_append_right _ hx
  raws := by
    intro raw hraw
    rw [submissions_append] at hraw
    rcases List.mem_append.mp hraw with hraw | hraw
    · obtain ⟨t, ht, hdecode⟩ := hfirst.raws raw hraw
      exact ⟨t, List.mem_append_left _ ht, hdecode⟩
    · obtain ⟨t, ht, hdecode⟩ := hrest.raws raw hraw
      exact ⟨t, List.mem_append_right _ ht, hdecode⟩
  rest := by
    intro j hij hj a howns hfresh
    rw [List.map_append, List.mem_append, not_or] at hfresh
    by_cases heq : j < i + 1
    · exact hfirst.rest j hij heq a howns hfresh.1
    · rw [← hstay j (by omega) (by omega) a howns]
      exact hrest.rest j (by omega) (by omega) a howns hfresh.2

variable (N) in
/-- What is pending goes to the destination, and from none of the keys from `i` on. -/
def Pending (eoaStart : ℤ) (i n : ℕ) (c : Chain A) : Prop :=
  ∀ t ∈ c.pool, t.dest = N.account target.toAddr ∧
    ∀ j, i ≤ j → j < n → ¬ N.Owns eoaStart j t.sender

/-- Behind its sweep, an account has nothing to do with what is pending for the later ones. -/
theorem Tally.pending {eoaStart : ℤ} {n i : ℕ} (hsep : N.Separate eoaStart n) (hi : i < n)
    {c d : Chain A} {ts : List (Transfer A)} {l : List RecoveredAccount}
    {first : List (Exchange σ HostReply)} (hfirst : N.Tally eoaStart i 1 c d ts l first)
    (hpending : N.Pending eoaStart i n c) : ∀ t ∈ c.pool ++ ts,
      t.dest = N.account target.toAddr ∧ ∀ j, i + 1 ≤ j → j < n → ¬ N.Owns eoaStart j t.sender := by
  intro t ht
  rcases List.mem_append.mp ht with ht | ht
  · obtain ⟨hdest, hsender⟩ := hpending t ht
    exact ⟨hdest, fun j hij hj => hsender j (by omega) hj⟩
  · refine ⟨(hfirst.sweeps t ht).dest_eq, fun j hij hj howns => ?_⟩
    obtain ⟨k, hik, hk, howns'⟩ := (hfirst.sweeps t ht).owner
    have hsame := hsep j hj k (by omega) _ howns howns'
    omega

/-- The tally of a key before that of the keys behind it. -/
theorem Tally.cons {eoaStart : ℤ} {n i count : ℕ} (hsep : N.Separate eoaStart n)
    (hdest : N.account target.toAddr ∉ N.scanned eoaStart n) (hn : i + (count + 1) ≤ n)
    {w u v : HostWorld σ} {ts : List (Transfer A)} {l : List RecoveredAccount}
    {first : List (Exchange σ HostReply)} {r : Except PyError (List RecoveredAccount)}
    (hpending : N.Pending eoaStart i n (N.view w.state)) (hlog : u.log = w.log ++ first)
    (hfirst : N.Tally eoaStart i 1 (N.view w.state) (N.view u.state) ts l first)
    (ih : N.Pending eoaStart (i + 1) n (N.view u.state) →
      ∃ recovered us new, r = .ok recovered ∧ v.log = u.log ++ new ∧
        N.Tally eoaStart (i + 1) count (N.view u.state) (N.view v.state) us recovered new) :
    ∃ recovered us new, r.map (l ++ ·) = .ok recovered ∧ v.log = w.log ++ new ∧
      N.Tally eoaStart i (count + 1) (N.view w.state) (N.view v.state) us recovered new := by
  have hconcerned := hfirst.pending hsep (by omega) hpending
  have hstay : ∀ j, i + 1 ≤ j → j < n → ∀ a, N.Owns eoaStart j a →
      (N.view u.state).balance a = (N.view w.state).balance a := by
    intro j hij hj a howns
    apply hfirst.moves.balance_eq
    intro t ht
    obtain ⟨hto, hsender⟩ := hconcerned t ht
    refine ⟨fun heq => hdest ?_, fun heq => hsender j hij hj (heq ▸ howns)⟩
    rw [← hto, heq]
    exact N.mem_scanned.mpr ⟨j, hj, howns⟩
  obtain ⟨recovered, us, new, rfl, hrest, htally⟩ :=
    ih fun t ht => hconcerned t (hfirst.moves.mem_pool ht)
  exact ⟨l ++ recovered, ts ++ us, first ++ new, rfl, by rw [hrest, hlog, List.append_assoc],
    hfirst.append hsep hn htally hstay⟩

/-- Scanning a range, on a ledger whose pending transfers do not concern it. -/
theorem Sole.tally_range (hsole : N.Sole) {eoaStart : ℤ} {n : ℕ}
    (hkeys : Keys eest target eoaStart n) (hsep : N.Separate eoaStart n)
    (hdest : N.account target.toAddr ∉ N.scanned eoaStart n) {i count : ℕ} (hn : i + count ≤ n)
    {w u : HostWorld σ} {r : Except PyError (List RecoveredAccount)}
    (hpending : N.Pending eoaStart i n (N.view w.state))
    (h : RangeDerivation peer eest target eoaStart i count w r u) :
    ∃ recovered ts new, r = .ok recovered ∧ u.log = w.log ++ new ∧
      N.Tally eoaStart i count (N.view w.state) (N.view u.state) ts recovered new := by
  induction h with
  | @done i w =>
      refine ⟨[], [], [], rfl, by simp, .refl, rfl, by simp, List.nodup_nil, by simp,
        by simp [submissions], ?_⟩
      intro j hij hj
      omega
  | @raised i count w u e hfirst =>
      obtain ⟨address, haddr⟩ := hkeys.addressed i (by omega)
      obtain ⟨result, ts, new, hok, -⟩ := hsole.tally_account hkeys (by omega) haddr hfirst
      cases hok
  | @skipped i count w u v r hfirst hrest ih =>
      obtain ⟨address, haddr⟩ := hkeys.addressed i (by omega)
      obtain ⟨result, ts, first, hok, hlog, htally⟩ :=
        hsole.tally_account hkeys (by omega) haddr hfirst
      obtain rfl := Except.ok.inj hok
      obtain ⟨recovered, us, new, hr, hnew⟩ :=
        htally.cons hsep hdest hn hpending hlog (ih (by omega))
      refine ⟨recovered, us, new, ?_, hnew⟩
      cases r with
      | error e => cases hr
      | ok later => exact hr
  | @swept i count w u v r address wei txHash haddr hfirst hrest ih =>
      obtain ⟨result, ts, first, hok, hlog, htally⟩ :=
        hsole.tally_account hkeys (by omega) haddr hfirst
      obtain rfl := Except.ok.inj hok
      exact htally.cons hsep hdest hn hpending hlog (ih (by omega))

/-! ## The whole recovery -/

/-- Waiting submits nothing. -/
theorem Sole.moves_await (hsole : N.Sole) (fuel : ℕ) (wait : Bool)
    (recovered : List RecoveredAccount) (w : HostWorld σ) :
    Moves (N.view w.state) []
      (N.view (await peer target fuel wait recovered w).2.state) := by
  apply (asks_await fuel wait recovered w).invariant
    (I := fun u => Moves (N.view w.state) [] (N.view u.state)) _ .refl
  intro u q hwaits hmoves
  apply hmoves.trans (hsole.mines u.state q _)
  rintro raw rfl
  exact (idle_of_waits hwaits _ _ _ _ rfl).2 rfl

theorem Tally.idle {eoaStart : ℤ} {i count : ℕ} {c d e : Chain A} {ts : List (Transfer A)}
    {l : List RecoveredAccount} {new late : List (Exchange σ HostReply)}
    (h : N.Tally eoaStart i count c d ts l new) (hmoves : Moves d [] e)
    (hidle : ∀ x ∈ late, Idle x.query) : N.Tally eoaStart i count c e ts l (new ++ late) where
  moves := by simpa using h.moves.trans hmoves
  wei := h.wei
  hashes := h.hashes
  senders := h.senders
  sweeps := by
    intro t ht
    refine (h.sweeps t ht).widen (Nat.le_refl i) (Nat.le_refl _) ?_ rfl
    intro x hx
    rw [balanceReports_append]
    exact List.mem_append_left _ hx
  raws := by
    rw [submissions_append, submissions_of_idle hidle, List.append_nil]
    exact h.raws
  rest := h.rest

/-- A recovery returns, with its tally. -/
theorem Sole.recover_tally (hsole : N.Sole) (C : Clock peer) {eoaStart : ℤ} {count fuel : ℕ}
    (hkeys : Keys eest target eoaStart count) (hsep : N.Separate eoaStart count)
    (hdest : N.account target.toAddr ∉ N.scanned eoaStart count) (hfuel : 46 ≤ fuel) (wait : Bool)
    {w : HostWorld σ} (hpool : (N.view w.state).pool = []) :
    ∃ recovered u ts new,
      recoverFundedEoas peer eest target eoaStart fuel count wait w = (.ok recovered, u) ∧
      u.log = w.log ++ new ∧
      N.Tally eoaStart 0 count (N.view w.state) (N.view u.state) ts recovered new := by
  have hpending : N.Pending eoaStart 0 count (N.view w.state) := by
    intro t ht
    rw [hpool] at ht
    exact absurd ht List.not_mem_nil
  rcases recoverFundedEoas_cases peer eest target eoaStart fuel count wait w with
    ⟨e, u, hscan, hrun⟩ | ⟨recovered, u, hscan, hrun⟩
  · obtain ⟨recovered, ts, new, hok, -⟩ :=
      hsole.tally_range hkeys hsep hdest (by omega) hpending hscan
    cases hok
  · obtain ⟨recovered', ts, new, hok, hlog, htally⟩ :=
      hsole.tally_range hkeys hsep hdest (by omega) hpending hscan
    obtain rfl := Except.ok.inj hok
    obtain ⟨v, hend⟩ := await_returns C hfuel wait N.waits htally.hashes u
    obtain ⟨late, hlate, hidle⟩ := await_log fuel wait recovered u
    have hmoves := hsole.moves_await fuel wait recovered u
    rw [hend] at hlate hmoves
    refine ⟨recovered, v, ts, new ++ late, hrun.trans hend, ?_, htally.idle hmoves hidle⟩
    rw [hlate, hlog, List.append_assoc]

variable (N) in
/-- What the ledger shows once everything that a recovery has submitted is mined. -/
structure Conserved (eoaStart : ℤ) (count : ℕ)
    (c d : Chain A) (recovered : List RecoveredAccount) : Prop where
  gained : d.balance (N.account target.toAddr) =
    c.balance (N.account target.toAddr) + (recovered.map RecoveredAccount.sweptWei).sum
  dropped : ∑ a ∈ N.scanned eoaStart count, d.balance a =
    ∑ a ∈ N.scanned eoaStart count, c.balance a -
      (recovered.map RecoveredAccount.sweptWei).sum - (d.gasPaid - c.gasPaid)
  left : ∀ a ∈ N.scanned eoaStart count, d.balance a ≤ target.reserve

section

variable {eoaStart : ℤ} {count : ℕ} {c d : Chain A} {ts : List (Transfer A)}
  {recovered : List RecoveredAccount} {new : List (Exchange σ HostReply)} {paid : List (Payment A)}

/-- What is paid once everything is mined are the sweeps. -/
theorem Tally.isSweep_paid (h : N.Tally eoaStart 0 count c d ts recovered new)
    (hperm : (paid.map Payment.transfer).Perm ts) {x : Payment A} (hx : x ∈ paid) :
    N.IsSweep eoaStart 0 count c new x.transfer :=
  h.sweeps _ (hperm.subset (List.mem_map_of_mem hx))

theorem IsSweep.sender_mem {t : Transfer A} (h : N.IsSweep eoaStart 0 count c new t) :
    t.sender ∈ N.scanned eoaStart count := by
  obtain ⟨j, -, hj, howns⟩ := h.owner
  exact N.mem_scanned.mpr ⟨j, by omega, howns⟩

/-- The accounts that are swept pay once, and end with what the gas has left of the reserve. -/
theorem Tally.left_of_swept (h : N.Tally eoaStart 0 count c d ts recovered new)
    (hpaid : Accounts c ts d paid) (hperm : (paid.map Payment.transfer).Perm ts) {t : Transfer A}
    (ht : t ∈ ts) (hne : ∀ x ∈ paid, x.transfer.dest ≠ t.sender) :
    d.balance t.sender ≤ target.reserve := by
  have hnodup : (paid.map fun x => x.transfer.sender).Nodup := by
    have hsenders := ((hperm.map Transfer.sender).nodup_iff).mpr h.senders
    rwa [List.map_map] at hsenders
  obtain ⟨x, hx, rfl⟩ := List.mem_map.mp (hperm.mem_iff.mpr ht)
  have hgas : 0 ≤ x.transfer.gas * x.price := by
    rw [(h.isSweep_paid hperm hx).gas_eq]
    exact mul_nonneg (by decide) x.price_nonneg
  have hbalance := (h.isSweep_paid hperm hx).balance_eq
  rw [hpaid.balance, sum_effect_of_sender hx hnodup hne]
  unfold Payment.cost
  omega

theorem Tally.left (hdest : N.account target.toAddr ∉ N.scanned eoaStart count)
    (h : N.Tally eoaStart 0 count c d ts recovered new) (hpaid : Accounts c ts d paid)
    (hperm : (paid.map Payment.transfer).Perm ts) {a : A} (ha : a ∈ N.scanned eoaStart count) :
    d.balance a ≤ target.reserve := by
  obtain ⟨j, hj, howns⟩ := N.mem_scanned.mp ha
  have hne : ∀ x ∈ paid, x.transfer.dest ≠ a := by
    intro x hx heq
    rw [(h.isSweep_paid hperm hx).dest_eq] at heq
    exact hdest (heq ▸ ha)
  by_cases hswept : a ∈ ts.map Transfer.sender
  · obtain ⟨t, ht, rfl⟩ := List.mem_map.mp hswept
    exact h.left_of_swept hpaid hperm ht hne
  · have hnone : ∀ x ∈ paid, x.transfer.dest ≠ a ∧ x.transfer.sender ≠ a := by
      intro x hx
      refine ⟨hne x hx, fun heq => hswept ?_⟩
      rw [← heq]
      exact List.mem_map_of_mem (hperm.subset (List.mem_map_of_mem hx))
    rw [hpaid.balance, sum_effect_eq_zero hnone, add_zero]
    exact h.rest j (Nat.zero_le j) (by omega) a howns hswept

theorem Tally.conserved (hdest : N.account target.toAddr ∉ N.scanned eoaStart count)
    (h : N.Tally eoaStart 0 count c d ts recovered new) (hempty : c.pool = [])
    (hmined : d.pool = []) : N.Conserved eoaStart count c d recovered := by
  obtain ⟨paid, hpaid⟩ := h.moves.accounts
  have hperm : (paid.map Payment.transfer).Perm ts := by
    have hboth := hpaid.perm
    rwa [hempty, hmined, List.append_nil, List.nil_append] at hboth
  have hto : ∀ x ∈ paid, x.transfer.dest = N.account target.toAddr :=
    fun x hx => (h.isSweep_paid hperm hx).dest_eq
  have hsender : ∀ x ∈ paid, x.transfer.sender ∈ N.scanned eoaStart count :=
    fun x hx => (h.isSweep_paid hperm hx).sender_mem
  have hvalue : (paid.map fun x => x.transfer.value).sum =
      (recovered.map RecoveredAccount.sweptWei).sum := by
    have hsum := (hperm.map Transfer.value).sum_eq
    rw [List.map_map, h.wei] at hsum
    exact hsum
  refine ⟨?_, ?_, fun a ha => h.left hdest hpaid hperm ha⟩
  · rw [hpaid.balance, sum_effect_of_dest, hvalue]
    exact fun x hx => ⟨hto x hx, fun heq => hdest (heq ▸ hsender x hx)⟩
  · have htotal : ∑ a ∈ N.scanned eoaStart count, (paid.map fun x => x.effect a).sum =
        -(paid.map Payment.cost).sum := by
      apply sum_sum_effect
      intro x hx
      refine ⟨hsender x hx, ?_⟩
      rw [hto x hx]
      exact hdest
    simp only [hpaid.balance]
    rw [Finset.sum_add_distrib, htotal, sum_cost, hvalue, hpaid.gasPaid_eq]
    ring

end

/-- A tally on a ledger with nothing above the reserve is empty. -/
theorem Tally.submissions_eq_nil {eoaStart : ℤ} {count : ℕ} {c d : Chain A}
    {ts : List (Transfer A)} {recovered : List RecoveredAccount}
    {new : List (Exchange σ HostReply)} (h : N.Tally eoaStart 0 count c d ts recovered new)
    (hlow : ∀ a ∈ N.scanned eoaStart count, c.balance a ≤ target.reserve) :
    submissions new = [] := by
  apply List.eq_nil_iff_forall_not_mem.mpr
  intro raw hraw
  obtain ⟨t, ht, -⟩ := h.raws raw hraw
  have hsweep := h.sweeps t ht
  obtain ⟨j, -, hj, howns⟩ := hsweep.owner
  have hle := hlow t.sender (N.mem_scanned.mpr ⟨j, by omega, howns⟩)
  have hpositive := hsweep.positive
  have hbalance := hsweep.balance_eq
  omega

end LedgerNode

variable {N : LedgerNode peer eest target A}

/-- A recovery conserves ether, and once its sweeps are mined a second one submits nothing. -/
theorem recovery_conserves (hsole : N.Sole) (C : Clock peer) {eoaStart : ℤ} {count fuel : ℕ}
    (hkeys : Keys eest target eoaStart count) (hsep : N.Separate eoaStart count)
    (hdest : N.account target.toAddr ∉ N.scanned eoaStart count) (hfuel : 46 ≤ fuel) (wait : Bool)
    {w : HostWorld σ} (hpool : (N.view w.state).pool = []) :
    ∃ recovered u,
      recoverFundedEoas peer eest target eoaStart fuel count wait w = (.ok recovered, u) ∧
      (∀ raw ∈ submissions
          (asked (recoverFundedEoas peer eest target eoaStart fuel count wait) w),
        ∃ t address b, N.decode raw = some t ∧ N.account address = t.sender ∧
          (address, b) ∈ balanceReports
            (asked (recoverFundedEoas peer eest target eoaStart fuel count wait) w) ∧
          0 < t.value ∧ t.value + gasTransfer * target.maxFeePerGas = b) ∧
      ∀ d, Moves (N.view u.state) [] d → d.pool = [] →
        N.Conserved eoaStart count (N.view w.state) d recovered ∧
        ∀ w' : HostWorld σ, N.view w'.state = d → submissions
          (asked (recoverFundedEoas peer eest target eoaStart fuel count wait) w') = [] := by
  obtain ⟨recovered, u, ts, new, hrun, hlog, htally⟩ :=
    hsole.recover_tally C hkeys hsep hdest hfuel wait hpool
  have hasked : asked (recoverFundedEoas peer eest target eoaStart fuel count wait) w = new :=
    asked_eq (by rw [hrun, hlog])
  refine ⟨recovered, u, hrun, ?_, ?_⟩
  · intro raw hraw
    rw [hasked] at hraw ⊢
    obtain ⟨t, ht, hdecode⟩ := htally.raws raw hraw
    have hsweep := htally.sweeps t ht
    obtain ⟨j, -, -, address, -, haccount, hread⟩ := hsweep.read
    exact ⟨t, address, _, hdecode, haccount, hread, hsweep.positive, rfl⟩
  · intro d hmined hempty
    have hend : N.Tally eoaStart 0 count (N.view w.state) d ts recovered (new ++ []) :=
      htally.idle hmined (by simp)
    have hconserved := hend.conserved hdest hpool hempty
    refine ⟨hconserved, ?_⟩
    rintro w' rfl
    obtain ⟨again, u', ts', new', hrun', hlog', htally'⟩ :=
      hsole.recover_tally C hkeys hsep hdest hfuel wait hempty
    rw [asked_eq (by rw [hrun', hlog'])]
    exact htally'.submissions_eq_nil hconserved.left

/-! ## One account -/

/-- The sweep of the first of the two keys. -/
def firstSweep : Transfer String :=
  ⟨"first", 0, pairTarget.toAddr, 2, gasTransfer, pairTarget.maxFeePerGas⟩

def firstPayment : Payment String := ⟨firstSweep, 1, by decide, by decide, by decide⟩

/-- What is pending, whether the first sweep is mined, and the time. -/
structure Miner where
  pool : List (Transfer String)
  paid : Bool
  now : ℚ

namespace Miner

def chain (m : Miner) : Chain String :=
  let c : Chain String := ⟨fun a => if a = "first" then 21002 else 0, fun _ => 0, m.pool, []⟩
  if m.paid then { c.mine firstPayment with pool := m.pool } else c

def balanceText (m : Miner) (address : String) : String :=
  if m.paid then if address = pairTarget.toAddr then "0x2" else "0x0"
  else if address = "first" then "0x520a" else "0x0"

def nonceText (m : Miner) (address : String) : String :=
  if m.paid then if address = "first" then "0x1" else "0x0" else "0x0"

/-- The first sweep is mined once it is pending. -/
def mines (m : Miner) : Miner :=
  if !m.paid && m.pool.contains firstSweep then
    { m with pool := m.pool.erase firstSweep, paid := true }
  else m

theorem mines_moves (m : Miner) : Moves m.chain [] m.mines.chain := by
  obtain ⟨pool, paid, now⟩ := m
  unfold mines
  split
  · next hmines =>
    obtain ⟨hpaid, hpending⟩ := Bool.and_eq_true_iff.mp hmines
    obtain rfl : paid = false := by simpa using hpaid
    have hmem : firstSweep ∈ pool := by simpa using hpending
    exact Moves.refl.mine firstPayment hmem
  · exact .refl

def reply (m : Miner) : (q : HostCall) → HostReply q
  | .post _ "eth_getBalance" [.str address, .str "latest"] _ =>
    .ok (.obj [("result", .str (m.balanceText address))])
  | .post _ "eth_getTransactionCount" [.str address, _] _ =>
    .ok (.obj [("result", .str (m.nonceText address))])
  | .post _ "eth_sendRawTransaction" [.str raw] _ => .ok (.obj [("result", .str raw)])
  | .post _ _ _ _ => .ok (.obj [("result", if m.paid then .str "0x1" else .null)])
  | .time => .ok m.now
  | .sleep _ => .ok ()
  | _ => .error ⟨.osError, "unavailable"⟩

/-- What waits is mined while the recovery sleeps. -/
def next (m : Miner) : HostCall → Miner
  | .post "http://127.0.0.1:8545" "eth_sendRawTransaction" [.str raw] 30 =>
    { m with pool := m.pool ++ [pairTransfer raw] }
  | .sleep n => { m.mines with now := m.now + n }
  | _ => m

end Miner

/-- A node that accepts everything, and mines the sweep of the first key. -/
def mining : Peer Miner HostReply where
  answer m q := (m.reply q, m.next q)

def miningClock : Clock mining where
  now := Miner.now
  mono m q := by
    show m.now ≤ (m.next q).now
    unfold Miner.next
    split
    · exact le_refl _
    · exact le_add_of_nonneg_right (Nat.cast_nonneg _)
    · exact le_refl _
  time m t h := by
    obtain rfl : m.now = t := Except.ok.inj h
    exact ⟨le_refl _, le_refl _⟩
  sleep m n _ := le_refl _

theorem quantity_balanceText (m : Miner) (address : String) :
    quantity (.obj [("result", .str (m.balanceText address))]) = .ok (m.chain.balance address) := by
  obtain ⟨pool, paid, now⟩ := m
  cases paid with
  | false =>
      simp only [Miner.balanceText, Miner.chain, Bool.false_eq_true, if_false]
      split
      · rfl
      · rfl
  | true =>
      simp only [Miner.balanceText, Miner.chain, if_true, Chain.mine]
      by_cases hfirst : address = "first"
      · subst hfirst
        have hcost : firstPayment.effect "first" = -21002 := by decide +kernel
        rw [hcost]
        rfl
      · by_cases hdest : address = pairTarget.toAddr
        · subst hdest
          have hgain : firstPayment.effect pairTarget.toAddr = 2 := by decide +kernel
          rw [hgain]
          rfl
        · have hother : firstPayment.effect address = 0 :=
            Payment.effect_of_ne (Ne.symm hdest) (Ne.symm hfirst)
          rw [if_neg hfirst, if_neg hdest, hother]
          rfl

theorem quantity_nonceText (m : Miner) (address : String) :
    quantity (.obj [("result", .str (m.nonceText address))]) =
      .ok (m.chain.nonce address : ℤ) := by
  obtain ⟨pool, paid, now⟩ := m
  cases paid with
  | false =>
      simp only [Miner.nonceText, Miner.chain, Bool.false_eq_true, if_false]
      rfl
  | true =>
      have hsender : firstPayment.transfer.sender = "first" := rfl
      simp only [Miner.nonceText, Miner.chain, if_true, Chain.mine, hsender]
      split
      · rfl
      · rfl

/-- It answers whoever waits for a receipt. -/
theorem mining_answers (m : Miner) (q : HostCall) (h : Waits pairTarget.rpcUrl q) :
    ¬ Faulty (served mining m q) := by
  intro hfault
  rcases h with rfl | rfl | ⟨h, rfl⟩
  · cases hfault
  · cases hfault
  · cases hfault

def miningLedger : LedgerNode mining pairEest pairTarget String where
  view := Miner.chain
  account := id
  decode raw := some (pairTransfer raw)
  balance := quantity_balanceText
  nonce := quantity_nonceText
  waits := mining_answers
  decodes := pairTransfer_signed

theorem mining_sole : miningLedger.Sole where
  accepts m address raw t _ := ⟨raw, rfl⟩
  submits m raw t ht := by
    obtain rfl := Option.some.inj ht
    obtain ⟨pool, paid, now⟩ := m
    cases paid with
    | true => exact Moves.refl.submit (pairTransfer raw)
    | false => exact Moves.refl.submit (pairTransfer raw)
  mines m q hq := by
    show Moves m.chain [] (m.next q).chain
    unfold Miner.next
    split
    · exact absurd rfl (hq _)
    · exact m.mines_moves
    · exact .refl

theorem miningLedger_separate : miningLedger.Separate 1 2 := by
  rintro i hi j hj a ⟨address, haddr, rfl⟩ ⟨other, hother, heq⟩
  obtain rfl : other = address := heq
  exact (pairEest_keys pairTarget).distinct i hi j hj _ haddr hother

def miningRun : Command Miner (List RecoveredAccount) :=
  recoverFundedEoas mining pairEest pairTarget 1 46 2 true

/-- The sweep is mined while the recovery waits, and a second recovery finds nothing. -/
theorem recovery_conserves_mining :
    ∃ recovered u, miningRun ⟨⟨[], false, 0⟩, []⟩ = (.ok recovered, u) ∧
      (∀ raw ∈ submissions (asked miningRun ⟨⟨[], false, 0⟩, []⟩),
        ∃ t address b, miningLedger.decode raw = some t ∧
          miningLedger.account address = t.sender ∧
          (address, b) ∈ balanceReports (asked miningRun ⟨⟨[], false, 0⟩, []⟩) ∧
          0 < t.value ∧ t.value + gasTransfer * pairTarget.maxFeePerGas = b) ∧
      u.state.paid = true ∧
      miningLedger.Conserved 1 2 (miningLedger.view ⟨[], false, 0⟩) (miningLedger.view u.state)
        recovered ∧
      submissions (asked miningRun ⟨u.state, []⟩) = [] := by
  have hmined : (miningRun ⟨⟨[], false, 0⟩, []⟩).2.state.paid = true ∧
      (miningRun ⟨⟨[], false, 0⟩, []⟩).2.state.chain.pool = [] := by
    decide +kernel
  have hpool : (miningLedger.view (⟨⟨[], false, 0⟩, []⟩ : HostWorld Miner).state).pool = [] := rfl
  obtain ⟨recovered, u, hrun, hraws, hend⟩ :=
    recovery_conserves mining_sole miningClock (pairEest_keys pairTarget) miningLedger_separate
      (by decide) (Nat.le_refl 46) true hpool
  have hu : (miningRun ⟨⟨[], false, 0⟩, []⟩).2 = u := congrArg Prod.snd hrun
  rw [hu] at hmined
  obtain ⟨hconserved, hagain⟩ := hend _ .refl hmined.2
  exact ⟨recovered, u, hrun, hraws, hmined.1, hconserved, hagain _ rfl⟩

end EestReplay.Sweep
