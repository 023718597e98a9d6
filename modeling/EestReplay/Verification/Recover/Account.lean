import EestReplay.Verification.Recover.Sweep

/-! # The course of a recovery

Sweeping an account and scanning a range as derivations, with a rule for every way an
account can end. They hold of any node: lookups may fail and sweeps may be rejected. -/

namespace EestReplay.Sweep

open Dialogue

section

variable {σ : Type} (peer : Peer σ HostReply) (eest : Eest) (target : Target)

/-! ## What the node reports -/

def balanceAt (s : σ) (address : String) : Except PyError ℤ :=
  (peer.answer s (balanceCall target address)).1 >>= quantity

def nonceAt (s : σ) (address : String) : Except PyError ℤ :=
  (peer.answer s (nonceCall target address)).1 >>= quantity

/-- What `sweep_account` makes of the reply to its transaction. -/
def receive (address : String) (reply : Json) : Except PyError Json := do
  let accepted ← reply.has "result"
  if accepted then
    reply.item "result"
  else
    let error ← reply.get "error"
    throw ⟨.runtimeError, "sweep of " ++ address ++ " rejected: " ++ eest.str error⟩

def hashAt (s : σ) (address raw : String) : Except PyError Json :=
  (peer.answer s (sendCall target raw)).1 >>= receive eest address

/-! ## One account -/

/-- The world behind the balance of an account. -/
def readWorld (w : HostWorld σ) (address : String) : HostWorld σ :=
  w.step peer (balanceCall target address)

/-- The world behind its balance and its nonce. -/
def countedWorld (w : HostWorld σ) (address : String) : HostWorld σ :=
  (readWorld peer target w address).step peer (nonceCall target address)

/-- The world behind its sweep. -/
def sentWorld (w : HostWorld σ) (address raw : String) : HostWorld σ :=
  (countedWorld peer target w address).step peer (sendCall target raw)

/-- Every way in which sweeping an account ends. -/
inductive AccountDerivation (key : ℤ) (w : HostWorld σ) :
    Except PyError (Option (Json × ℤ)) → HostWorld σ → Prop where
  | unaddressed {e : PyError} (haddr : eest.eoa key = .error e) :
      AccountDerivation key w (.error e) w
  | unread {address : String} {e : PyError} (haddr : eest.eoa key = .ok address)
      (hbalance : balanceAt peer target w.state address = .error e) :
      AccountDerivation key w (.error e) (readWorld peer target w address)
  | low {address : String} {b : ℤ} (haddr : eest.eoa key = .ok address)
      (hbalance : balanceAt peer target w.state address = .ok b) (hle : b ≤ target.reserve) :
      AccountDerivation key w (.ok none) (readWorld peer target w address)
  | uncounted {address : String} {b : ℤ} {e : PyError} (haddr : eest.eoa key = .ok address)
      (hbalance : balanceAt peer target w.state address = .ok b) (hlt : target.reserve < b)
      (hnonce : nonceAt peer target (readWorld peer target w address).state address = .error e) :
      AccountDerivation key w (.error e) (countedWorld peer target w address)
  | unsigned {address : String} {b n : ℤ} {e : PyError} (haddr : eest.eoa key = .ok address)
      (hbalance : balanceAt peer target w.state address = .ok b) (hlt : target.reserve < b)
      (hnonce : nonceAt peer target (readWorld peer target w address).state address = .ok n)
      (hsigned : eest.signed (target.transaction key n (b - target.reserve)) = .error e) :
      AccountDerivation key w (.error e) (countedWorld peer target w address)
  | rejected {address hex : String} {b n : ℤ} {e : PyError} (haddr : eest.eoa key = .ok address)
      (hbalance : balanceAt peer target w.state address = .ok b) (hlt : target.reserve < b)
      (hnonce : nonceAt peer target (readWorld peer target w address).state address = .ok n)
      (hsigned : eest.signed (target.transaction key n (b - target.reserve)) = .ok hex)
      (hsent : hashAt peer eest target (countedWorld peer target w address).state address
        (rawHex hex) = .error e) :
      AccountDerivation key w (.error e) (sentWorld peer target w address (rawHex hex))
  | swept {address hex : String} {b n : ℤ} {result : Json} (haddr : eest.eoa key = .ok address)
      (hbalance : balanceAt peer target w.state address = .ok b) (hlt : target.reserve < b)
      (hnonce : nonceAt peer target (readWorld peer target w address).state address = .ok n)
      (hsigned : eest.signed (target.transaction key n (b - target.reserve)) = .ok hex)
      (hsent : hashAt peer eest target (countedWorld peer target w address).state address
        (rawHex hex) = .ok result) :
      AccountDerivation key w (.ok (some (result, b - target.reserve)))
        (sentWorld peer target w address (rawHex hex))

/-- Every way in which scanning `count` keys from index `i` on ends. -/
inductive RangeDerivation (eoaStart : ℤ) : ℕ → ℕ → HostWorld σ →
    Except PyError (List RecoveredAccount) → HostWorld σ → Prop where
  | done {i : ℕ} {w : HostWorld σ} : RangeDerivation eoaStart i 0 w (.ok []) w
  | raised {i count : ℕ} {w u : HostWorld σ} {e : PyError}
      (hfirst : AccountDerivation peer eest target (eoaStart + i) w (.error e) u) :
      RangeDerivation eoaStart i (count + 1) w (.error e) u
  | skipped {i count : ℕ} {w u v : HostWorld σ} {r : Except PyError (List RecoveredAccount)}
      (hfirst : AccountDerivation peer eest target (eoaStart + i) w (.ok none) u)
      (hrest : RangeDerivation eoaStart (i + 1) count u r v) :
      RangeDerivation eoaStart i (count + 1) w r v
  | swept {i count : ℕ} {w u v : HostWorld σ} {r : Except PyError (List RecoveredAccount)}
      {address : String} {wei : ℤ} {txHash : Json}
      (haddr : eest.eoa (eoaStart + i) = .ok address)
      (hfirst : AccountDerivation peer eest target (eoaStart + i) w (.ok (some (txHash, wei))) u)
      (hrest : RangeDerivation eoaStart (i + 1) count u r v) :
      RangeDerivation eoaStart i (count + 1) w (r.map (⟨address, wei, txHash⟩ :: ·)) v

/-- The keys of a range have addresses of their own, and the framework signs for them. -/
structure Keys (eoaStart : ℤ) (count : ℕ) : Prop where
  addressed : ∀ i < count, ∃ address, eest.eoa (eoaStart + i) = .ok address
  distinct : ∀ i < count, ∀ j < count, ∀ address, eest.eoa (eoaStart + i) = .ok address →
    eest.eoa (eoaStart + j) = .ok address → i = j
  signs : ∀ i < count, ∀ n wei, 0 ≤ n → 0 < wei →
    ∃ hex, eest.signed (target.transaction (eoaStart + i) n wei) = .ok hex

/-- The nonces that the node reports are counts. -/
def Counting : Prop := ∀ s address n, nonceAt peer target s address = .ok n → 0 ≤ n

end

variable {σ : Type} {peer : Peer σ HostReply} {eest : Eest} {target : Target}

/-- A call whose answer is known. -/
theorem rpcCall_of_reply {rpcUrl method : String} {params : List Json} {w : HostWorld σ}
    {reply : Except PyError Json}
    (h : (peer.answer w.state (.post rpcUrl method params 30)).1 = reply) :
    rpcCall peer rpcUrl method params w = (reply, w.step peer (.post rpcUrl method params 30)) := by
  rw [rpcCall_apply]
  exact congrArg (fun r => (r, _)) h

/-- What follows the reply to a sweep: a result is kept with the wei that were swept. -/
def settle (eest : Eest) (address : String) (wei : ℤ) (resp : Json) :
    Command σ (Option (Json × ℤ)) := do
  let accepted ← lift (resp.has "result")
  if accepted then
    let result ← lift (resp.item "result")
    return some (result, wei)
  else
    let error ← lift (resp.get "error")
    throw ⟨.runtimeError, "sweep of " ++ address ++ " rejected: " ++ eest.str error⟩

theorem settle_apply (address : String) (wei : ℤ) (resp : Json) (w : HostWorld σ) :
    settle eest address wei resp w =
      ((receive eest address resp).map fun result => some (result, wei), w) := by
  unfold settle receive
  rw [bind_apply, lift_apply]
  cases Json.has "result" resp with
  | error e => rfl
  | ok accepted =>
      cases accepted with
      | true =>
          show (lift (Json.item "result" resp) >>= fun result => pure (some (result, wei))) w = _
          rw [bind_apply, lift_apply]
          cases Json.item "result" resp <;> rfl
      | false =>
          show (lift (Json.get "error" resp) >>= fun error => throw _) w = _
          rw [bind_apply, lift_apply]
          cases Json.get "error" resp <;> rfl

variable (peer eest target) in
theorem send_apply (address raw : String) (wei : ℤ) (w : HostWorld σ) :
    (rpcCall peer target.rpcUrl "eth_sendRawTransaction" [.str raw] >>=
      settle eest address wei) w =
      ((hashAt peer eest target w.state address raw).map fun result => some (result, wei),
        w.step peer (sendCall target raw)) := by
  unfold hashAt
  cases hreply : (peer.answer w.state (sendCall target raw)).1 with
  | error e => exact bind_of_error (rpcCall_of_reply hreply)
  | ok resp => exact (bind_of_ok (rpcCall_of_reply hreply)).trans (settle_apply address wei resp _)

/-- Signing and sending, once the nonce is known. -/
def signAndSend (peer : Peer σ HostReply) (eest : Eest) (target : Target) (key : ℤ)
    (address : String) (wei n : ℤ) : Command σ (Option (Json × ℤ)) := do
  let hex ← lift (eest.signed (target.transaction key n wei))
  rpcCall peer target.rpcUrl "eth_sendRawTransaction" [.str (rawHex hex)] >>=
    settle eest address wei

theorem signAndSend_of_error {key n wei : ℤ} {address : String} {e : PyError} {w : HostWorld σ}
    (h : eest.signed (target.transaction key n wei) = .error e) :
    signAndSend peer eest target key address wei n w = (.error e, w) := by
  unfold signAndSend
  rw [h]
  rfl

theorem signAndSend_of_ok {key n wei : ℤ} {address hex : String} {r : Except PyError Json}
    {w : HostWorld σ} (h : eest.signed (target.transaction key n wei) = .ok hex)
    (hsent : hashAt peer eest target w.state address (rawHex hex) = r) :
    signAndSend peer eest target key address wei n w =
      (r.map fun result => some (result, wei), w.step peer (sendCall target (rawHex hex))) := by
  unfold signAndSend
  rw [h, ← hsent]
  exact send_apply peer eest target address (rawHex hex) wei w

theorem getBalance_of_balanceAt {address : String} {w : HostWorld σ} {r : Except PyError ℤ}
    (h : balanceAt peer target w.state address = r) :
    getBalance peer target.rpcUrl address w = (r, readWorld peer target w address) := by
  rw [getBalance_apply]
  exact congrArg (fun r => (r, _)) h

theorem nonce_of_nonceAt {address : String} {w : HostWorld σ} {r : Except PyError ℤ}
    (h : nonceAt peer target (readWorld peer target w address).state address = r) :
    nonce peer target.rpcUrl address (readWorld peer target w address) =
      (r, countedWorld peer target w address) := by
  rw [nonce_apply]
  exact congrArg (fun r => (r, _)) h

theorem sweepAccount_unread {key : ℤ} {address : String} {e : PyError} {w u : HostWorld σ}
    (haddr : eest.eoa key = .ok address)
    (hread : getBalance peer target.rpcUrl address w = (.error e, u)) :
    sweepAccount peer eest target key 0 w = (.error e, u) := by
  unfold sweepAccount
  rw [bind_apply, lift_apply, haddr]
  exact bind_of_error hread

/-- An account with enough above the reserve is swept. -/
theorem sweepAccount_of_read {key b minSweepWei : ℤ} {address : String} {w u : HostWorld σ}
    (haddr : eest.eoa key = .ok address)
    (hread : getBalance peer target.rpcUrl address w = (.ok b, u))
    (hguard : ¬ (b ≤ target.reserve ∨ b - target.reserve < minSweepWei)) :
    sweepAccount peer eest target key minSweepWei w =
      (nonce peer target.rpcUrl address >>=
        signAndSend peer eest target key address (b - target.reserve)) u := by
  unfold sweepAccount
  rw [bind_apply, lift_apply, haddr]
  refine (bind_of_ok hread).trans ?_
  rw [if_neg hguard]
  rfl

/-! ## The log -/

/-- An exchange as the node answers it. -/
def served (peer : Peer σ HostReply) (s : σ) (q : HostCall) : Exchange σ HostReply :=
  ⟨s, q, (peer.answer s q).1⟩

theorem readWorld_log (w : HostWorld σ) (address : String) :
    (readWorld peer target w address).log =
      w.log ++ [served peer w.state (balanceCall target address)] := rfl

theorem countedWorld_log (w : HostWorld σ) (address : String) :
    (countedWorld peer target w address).log =
      w.log ++ [served peer w.state (balanceCall target address),
        served peer (readWorld peer target w address).state (nonceCall target address)] := by
  unfold countedWorld
  rw [World.step_log, readWorld_log, List.append_assoc]
  rfl

variable (peer target) in
/-- What is asked for an account that is swept. -/
def sentLog (w : HostWorld σ) (address raw : String) : List (Exchange σ HostReply) :=
  [served peer w.state (balanceCall target address),
    served peer (readWorld peer target w address).state (nonceCall target address),
    served peer (countedWorld peer target w address).state (sendCall target raw)]

theorem sentWorld_log (w : HostWorld σ) (address raw : String) :
    (sentWorld peer target w address raw).log = w.log ++ sentLog peer target w address raw := by
  unfold sentWorld
  rw [World.step_log, countedWorld_log, List.append_assoc]
  rfl

@[simp] theorem submission_balanceCall (s : σ) (address : String) :
    submission (served peer s (balanceCall target address)) = none := rfl

@[simp] theorem submission_nonceCall (s : σ) (address : String) :
    submission (served peer s (nonceCall target address)) = none := rfl

@[simp] theorem submission_sendCall (s : σ) (raw : String) :
    submission (served peer s (sendCall target raw)) = some raw := rfl

@[simp] theorem submissions_sentLog (w : HostWorld σ) (address raw : String) :
    submissions (sentLog peer target w address raw) = [raw] := rfl

theorem balance_mem_sentLog (w : HostWorld σ) (address raw : String) :
    served peer w.state (balanceCall target address) ∈ sentLog peer target w address raw :=
  List.mem_cons_self

theorem send_mem_sentLog (w : HostWorld σ) (address raw : String) :
    served peer (countedWorld peer target w address).state (sendCall target raw) ∈
      sentLog peer target w address raw :=
  List.mem_cons_of_mem _ (List.mem_cons_of_mem _ List.mem_cons_self)

theorem balanceCall_ne_sendCall (address raw : String) :
    balanceCall target address ≠ sendCall target raw := by
  simp [balanceCall, sendCall]

theorem nonceCall_ne_sendCall (address raw : String) :
    nonceCall target address ≠ sendCall target raw := by
  simp [nonceCall, sendCall]

theorem sendCall_inj {raw raw' : String} (h : sendCall target raw = sendCall target raw') :
    raw = raw' := by
  simpa [sendCall] using h

theorem balanceReport_of_balanceAt {w : HostWorld σ} {address : String} {b : ℤ}
    (h : balanceAt peer target w.state address = .ok b) :
    balanceReport (served peer w.state (balanceCall target address)) = some (address, b) := by
  unfold served balanceAt at *
  cases hreply : (peer.answer w.state (balanceCall target address)).1 with
  | error e =>
      rw [hreply] at h
      cases h
  | ok reply =>
      rw [hreply] at h
      exact balanceReport_balanceCall h

/-! ## Derivations -/

variable (peer eest target) in
theorem sweepAccount_derivation (key : ℤ) (w : HostWorld σ) :
    AccountDerivation peer eest target key w (sweepAccount peer eest target key 0 w).1
      (sweepAccount peer eest target key 0 w).2 := by
  cases haddr : eest.eoa key with
  | error e =>
      rw [sweepAccount_of_error haddr]
      exact .unaddressed haddr
  | ok address =>
      cases hbalance : balanceAt peer target w.state address with
      | error e =>
          rw [sweepAccount_unread haddr (getBalance_of_balanceAt hbalance)]
          exact .unread haddr hbalance
      | ok b =>
          have hread := getBalance_of_balanceAt hbalance
          by_cases hle : b ≤ target.reserve
          · rw [sweepAccount_of_le haddr hread hle]
            exact .low haddr hbalance hle
          · have hlt : target.reserve < b := by omega
            have hguard : ¬ (b ≤ target.reserve ∨ b - target.reserve < 0) := by omega
            rw [sweepAccount_of_read haddr hread hguard]
            cases hnonce : nonceAt peer target (readWorld peer target w address).state address with
            | error e =>
                rw [bind_of_error (nonce_of_nonceAt hnonce)]
                exact .uncounted haddr hbalance hlt hnonce
            | ok n =>
                rw [bind_of_ok (nonce_of_nonceAt hnonce)]
                cases hsigned : eest.signed (target.transaction key n (b - target.reserve)) with
                | error e =>
                    rw [signAndSend_of_error hsigned]
                    exact .unsigned haddr hbalance hlt hnonce hsigned
                | ok hex =>
                    cases hsent : hashAt peer eest target
                        (countedWorld peer target w address).state address (rawHex hex) with
                    | error e =>
                        rw [signAndSend_of_ok hsigned hsent]
                        exact .rejected haddr hbalance hlt hnonce hsigned hsent
                    | ok result =>
                        rw [signAndSend_of_ok hsigned hsent]
                        exact .swept haddr hbalance hlt hnonce hsigned hsent

variable (peer eest target) in
/-- The loop derives from its range, and puts what it sweeps behind what it had. -/
theorem sweepFrom_derivation (eoaStart : ℤ) (i count : ℕ) (recovered : List RecoveredAccount)
    (w : HostWorld σ) :
    ∃ r, RangeDerivation peer eest target eoaStart i count w r
        (sweepFrom peer eest target eoaStart i count recovered w).2 ∧
      (sweepFrom peer eest target eoaStart i count recovered w).1 = r.map (recovered ++ ·) := by
  induction count generalizing i recovered w with
  | zero => exact ⟨.ok [], .done, by simp [sweepFrom, Except.map]⟩
  | succ count ih =>
      have hfirst := sweepAccount_derivation peer eest target (eoaStart + i) w
      rcases hrun : sweepAccount peer eest target (eoaStart + i) 0 w with ⟨r, u⟩
      rw [hrun] at hfirst
      unfold sweepFrom
      cases r with
      | error e =>
          rw [bind_of_error hrun]
          exact ⟨.error e, .raised hfirst, rfl⟩
      | ok result =>
          rw [bind_of_ok hrun]
          cases result with
          | none =>
              obtain ⟨r, hrest, heq⟩ := ih (i + 1) recovered u
              exact ⟨r, .skipped hfirst hrest, heq⟩
          | some swept =>
              obtain ⟨txHash, wei⟩ := swept
              obtain ⟨address, haddr⟩ : ∃ address, eest.eoa (eoaStart + i) = .ok address := by
                cases hfirst with
                | swept haddr => exact ⟨_, haddr⟩
              let account : RecoveredAccount := ⟨address, wei, txHash⟩
              obtain ⟨r, hrest, heq⟩ := ih (i + 1) (recovered ++ [account]) u
              have hstep : (lift (eest.eoa (eoaStart + i)) >>= fun address =>
                  sweepFrom peer eest target eoaStart (i + 1) count
                    (recovered ++ [⟨address, wei, txHash⟩])) u =
                  sweepFrom peer eest target eoaStart (i + 1) count (recovered ++ [account]) u := by
                rw [haddr]
                rfl
              show ∃ r, RangeDerivation peer eest target eoaStart i (count + 1) w r
                ((lift (eest.eoa (eoaStart + i)) >>= fun address => _) u).2 ∧
                  ((lift (eest.eoa (eoaStart + i)) >>= fun address => _) u).1 = _
              rw [hstep, heq]
              refine ⟨_, .swept haddr hfirst hrest, ?_⟩
              cases r <;> simp [Except.map, account]

variable (peer eest target) in
/-- A recovery ends with its scan when that raises, and waits behind it otherwise. -/
theorem recoverFundedEoas_cases (eoaStart : ℤ) (fuel count : ℕ) (wait : Bool) (w : HostWorld σ) :
    (∃ e u, RangeDerivation peer eest target eoaStart 0 count w (.error e) u ∧
      recoverFundedEoas peer eest target eoaStart fuel count wait w = (.error e, u)) ∨
    ∃ recovered u, RangeDerivation peer eest target eoaStart 0 count w (.ok recovered) u ∧
      recoverFundedEoas peer eest target eoaStart fuel count wait w =
        await peer target fuel wait recovered u := by
  obtain ⟨r, hscan, heq⟩ := sweepFrom_derivation peer eest target eoaStart 0 count [] w
  rw [recoverFundedEoas_eq]
  rcases hrun : sweepFrom peer eest target eoaStart 0 count [] w with ⟨result, u⟩
  rw [hrun] at hscan heq
  cases r with
  | error e =>
      obtain rfl : result = .error e := heq
      exact .inl ⟨e, u, hscan, bind_of_error hrun⟩
  | ok recovered =>
      obtain rfl : result = .ok recovered := heq
      exact .inr ⟨recovered, u, hscan, bind_of_ok hrun⟩

/-! ## Two keys -/

/-- A framework with two keys. A signed transaction shows its sender, its nonce and its
value in unary. -/
def pairEest : Eest where
  eoa key := if key = 1 then .ok "first" else if key = 2 then .ok "second"
    else .error ⟨.valueError, "no such key"⟩
  signed tx :=
    if 0 ≤ tx.nonce ∧ 0 < tx.value then
      .ok (String.ofList ((if tx.sender = 1 then '1' else '2') ::
        (List.replicate tx.nonce.toNat 'n' ++ List.replicate tx.value.toNat 'v')))
    else .error ⟨.valueError, "not serializable"⟩
  keccak256 _ := ""
  transactionGasLimitCap _ := none
  ethText _ := ""
  str _ := "already known"

theorem pairEest_eoa {key : ℤ} {address : String} (h : pairEest.eoa key = .ok address) :
    key = 1 ∧ address = "first" ∨ key = 2 ∧ address = "second" := by
  by_cases hfirst : key = 1
  · subst hfirst
    exact .inl ⟨rfl, (Except.ok.inj h).symm⟩
  · by_cases hsecond : key = 2
    · subst hsecond
      exact .inr ⟨rfl, (Except.ok.inj h).symm⟩
    · simp [pairEest, hfirst, hsecond] at h

theorem pairEest_keys (target : Target) : Keys pairEest target 1 2 where
  addressed i hi := by
    obtain rfl | rfl : i = 0 ∨ i = 1 := by omega
    · exact ⟨"first", rfl⟩
    · exact ⟨"second", rfl⟩
  distinct i hi j hj address hi' hj' := by
    rcases pairEest_eoa hi' with ⟨hkey, rfl⟩ | ⟨hkey, rfl⟩
    · rcases pairEest_eoa hj' with ⟨hkey', -⟩ | ⟨-, hne⟩
      · omega
      · exact absurd hne (by decide)
    · rcases pairEest_eoa hj' with ⟨-, hne⟩ | ⟨hkey', -⟩
      · exact absurd hne (by decide)
      · omega
  signs i hi n wei hn hwei := ⟨_, if_pos ⟨hn, hwei⟩⟩

def pairTarget : Target where
  rpcUrl := "http://127.0.0.1:8545"
  toAddr := "0x0000000000000000000000000000000000000001"
  chainId := 7928
  maxFeePerGas := 1

theorem toList_rawHex {c : Char} (cs : List Char) (hc : c ≠ '0') :
    (rawHex (String.ofList (c :: cs))).toList = '0' :: 'x' :: c :: cs := by
  have hstart : ("0x".toList.isPrefixOf (String.ofList (c :: cs)).toList) = false := by
    have htext : (String.ofList (c :: cs)).toList = c :: cs := String.toList_ofList
    have hne : ('0' == c) = false := beq_false_of_ne (Ne.symm hc)
    rw [htext]
    show ('0' == c && _) = false
    rw [hne]
    rfl
  unfold rawHex Text.removePrefix Text.startsWith
  rw [hstart]
  simp

/-- What a signed transaction of the two keys shows. -/
theorem pairEest_signed {key n wei : ℤ} {address hex : String} {target : Target}
    (haddr : pairEest.eoa key = .ok address)
    (hsigned : pairEest.signed (target.transaction key n wei) = .ok hex) :
    (if '1' ∈ (rawHex hex).toList then "first" else "second") = address ∧
      ((rawHex hex).toList.count 'n' : ℤ) = n ∧ ((rawHex hex).toList.count 'v' : ℤ) = wei := by
  by_cases hvalid : 0 ≤ n ∧ 0 < wei
  · have hhex : hex = String.ofList ((if key = 1 then '1' else '2') ::
        (List.replicate n.toNat 'n' ++ List.replicate wei.toNat 'v')) :=
      (Except.ok.inj ((if_pos hvalid).symm.trans hsigned)).symm
    have hn : (n.toNat : ℤ) = n := Int.toNat_of_nonneg hvalid.1
    have hwei : (wei.toNat : ℤ) = wei := Int.toNat_of_nonneg (le_of_lt hvalid.2)
    rcases pairEest_eoa haddr with ⟨rfl, rfl⟩ | ⟨rfl, rfl⟩
    · rw [hhex, if_pos rfl, toList_rawHex _ (by decide)]
      simp [List.count_append, List.count_replicate, hn, hwei]
    · have hne : ¬ (2 : ℤ) = 1 := by decide
      rw [hhex, if_neg hne, toList_rawHex _ (by decide)]
      simp [List.count_append, List.count_replicate, hn, hwei]
  · have herror : pairEest.signed (target.transaction key n wei) = .error _ := if_neg hvalid
    rw [herror] at hsigned
    cases hsigned

end EestReplay.Sweep
