import EestReplay.Library.Footprint
import EestReplay.Model.Recover

/-! # The sweeps of a recovery

What `recover_funded_eoas` asks a node that answers and accepts: one balance per key, in
order, and behind it a nonce and a sweep when the balance exceeds the reserve. -/

namespace EestReplay.Sweep

open Dialogue

variable {σ : Type} {peer : Peer σ HostReply} {eest : Eest} {target : Target}

/-! ## Reading the log -/

/-- `int(reply["result"], 16)` -/
def quantity (reply : Json) : Except PyError ℤ := do
  let result ← reply.item "result"
  hexInt result

/-- The balance that an exchange reports, with its address. -/
def balanceReport (x : Exchange σ HostReply) : Option (String × ℤ) :=
  match x with
  | ⟨_, .post _ "eth_getBalance" [.str address, .str "latest"] _, .ok reply⟩ =>
    match quantity reply with
    | .ok balance => some (address, balance)
    | .error _ => none
  | _ => none

/-- The raw transaction that an exchange submits. -/
def submission (x : Exchange σ HostReply) : Option String :=
  match x.query with
  | .post _ "eth_sendRawTransaction" [.str raw] _ => some raw
  | _ => none

/-- A call that neither asks for a balance nor submits a transaction. -/
def Idle (q : HostCall) : Prop :=
  ∀ url method params timeout, q = .post url method params timeout →
    method ≠ "eth_getBalance" ∧ method ≠ "eth_sendRawTransaction"

theorem idle_of_ne_post {q : HostCall} (h : ∀ url method params timeout,
    q ≠ .post url method params timeout) : Idle q :=
  fun url method params timeout he => absurd he (h url method params timeout)

/-- The reports and the submissions of a log. -/
def balanceReports (log : List (Exchange σ HostReply)) : List (String × ℤ) :=
  log.filterMap balanceReport

def submissions (log : List (Exchange σ HostReply)) : List String := log.filterMap submission

theorem balanceReport_of_idle {x : Exchange σ HostReply} (h : Idle x.query) :
    balanceReport x = none := by
  obtain ⟨s, q, reply⟩ := x
  unfold balanceReport
  split
  · rename_i heq
    cases heq
    exact absurd rfl (h _ _ _ _ rfl).1
  · rfl

theorem submission_of_idle {x : Exchange σ HostReply} (h : Idle x.query) :
    submission x = none := by
  obtain ⟨s, q, reply⟩ := x
  unfold submission
  split
  · rename_i heq
    exact absurd rfl (h _ _ _ _ heq).2
  · rfl

/-! ## One call -/

def balanceCall (target : Target) (address : String) : HostCall :=
  .post target.rpcUrl "eth_getBalance" [.str address, .str "latest"] 30

def nonceCall (target : Target) (address : String) : HostCall :=
  .post target.rpcUrl "eth_getTransactionCount" [.str address, .str "latest"] 30

def sendCall (target : Target) (raw : String) : HostCall :=
  .post target.rpcUrl "eth_sendRawTransaction" [.str raw] 30

theorem rpcCall_apply (rpcUrl method : String) (params : List Json) (w : HostWorld σ) :
    rpcCall peer rpcUrl method params w =
      ((peer.answer w.state (.post rpcUrl method params 30)).1,
        w.step peer (.post rpcUrl method params 30)) :=
  call_apply peer _ w

/-- Both lookups read a quantity out of the reply to one call. -/
theorem readQuantity_apply (rpcUrl method : String) (params : List Json) (w : HostWorld σ) :
    (do
      let reply ← rpcCall peer rpcUrl method params
      let result ← lift (reply.item "result")
      lift (hexInt result) : Command σ ℤ) w =
      ((peer.answer w.state (.post rpcUrl method params 30)).1 >>= quantity,
        w.step peer (.post rpcUrl method params 30)) := by
  rw [bind_apply, rpcCall_apply]
  cases (peer.answer w.state (.post rpcUrl method params 30)).1 with
  | error e => rfl
  | ok reply =>
      show (lift (Json.item "result" reply) >>= fun result => lift (hexInt result)) _ =
        (quantity reply, _)
      rw [bind_apply, lift_apply]
      unfold quantity
      cases Json.item "result" reply with
      | error e => rfl
      | ok result => exact lift_apply _ _

theorem getBalance_apply (address : String) (w : HostWorld σ) :
    getBalance peer target.rpcUrl address w =
      ((peer.answer w.state (balanceCall target address)).1 >>= quantity,
        w.step peer (balanceCall target address)) :=
  readQuantity_apply _ _ _ w

theorem nonce_apply (address : String) (w : HostWorld σ) :
    nonce peer target.rpcUrl address w =
      ((peer.answer w.state (nonceCall target address)).1 >>= quantity,
        w.step peer (nonceCall target address)) :=
  readQuantity_apply _ _ _ w

/-! ## One account -/

/-- A node that answers the balance and the nonce of every account and accepts every sweep of
one, and a signer that signs each of these sweeps. A sweep has the nonce of its account and
carries something. -/
structure Accepting (peer : Peer σ HostReply) (eest : Eest) (target : Target) : Prop where
  balance : ∀ s key address, eest.eoa key = .ok address → ∃ reply b,
    (peer.answer s (balanceCall target address)).1 = .ok reply ∧ quantity reply = .ok b
  nonce : ∀ s key address, eest.eoa key = .ok address → ∃ reply n,
    (peer.answer s (nonceCall target address)).1 = .ok reply ∧ quantity reply = .ok n ∧ 0 ≤ n
  signs : ∀ key address n wei, eest.eoa key = .ok address → 0 ≤ n → 0 < wei →
    ∃ hex, eest.signed (target.transaction key n wei) = .ok hex
  accepts : ∀ s key address n wei hex, eest.eoa key = .ok address → 0 ≤ n → 0 < wei →
    eest.signed (target.transaction key n wei) = .ok hex → ∃ reply result,
      (peer.answer s (sendCall target (rawHex hex))).1 = .ok reply ∧
        Json.has "result" reply = .ok true ∧ Json.item "result" reply = .ok result

/-- The raw transaction of a signed one. -/
def signedRaw (eest : Eest) (tx : Transaction) : String :=
  match eest.signed tx with
  | .ok hex => rawHex hex
  | .error _ => ""

/-- An account as a recovery finds it. -/
structure Scanned where
  index : ℕ
  address : String
  balance : ℤ
  nonce : ℤ

/-- The sweep of an account: everything above the reserve. -/
def Scanned.sweep (target : Target) (eoaStart : ℤ) (account : Scanned) : Transaction :=
  target.transaction (eoaStart + account.index) account.nonce (account.balance - target.reserve)

/-- What the log of an account's sweep shows. -/
structure Shows (eest : Eest) (target : Target) (eoaStart : ℤ) (account : Scanned)
    (new : List (Exchange σ HostReply)) : Prop where
  reports : balanceReports new = [(account.address, account.balance)]
  submits : submissions new =
    if target.reserve < account.balance then
      [signedRaw eest (account.sweep target eoaStart)] else []

theorem balanceReport_balanceCall {s : σ} {address : String} {reply : Json} {b : ℤ}
    (h : quantity reply = .ok b) :
    balanceReport (⟨s, balanceCall target address, .ok reply⟩ : Exchange σ HostReply) =
      some (address, b) := by
  show (match quantity reply with
    | .ok balance => some (address, balance)
    | .error _ => none) = some (address, b)
  rw [h]

theorem idle_nonceCall (address : String) : Idle (nonceCall target address) := by
  rintro url method params timeout h
  obtain ⟨-, rfl, -, -⟩ := HostCall.post.inj h
  decide

/-- A key without an address ends the recovery. -/
theorem sweepAccount_of_error {key : ℤ} {e : PyError} (h : eest.eoa key = .error e)
    (w : HostWorld σ) : sweepAccount peer eest target key 0 w = (.error e, w) := by
  unfold sweepAccount
  rw [bind_apply, lift_apply, h]

/-- A balance that leaves too little above the reserve is left alone. -/
theorem sweepAccount_of_short {key b minSweepWei : ℤ} {address : String} {w w₁ : HostWorld σ}
    (haddr : eest.eoa key = .ok address)
    (hbalance : getBalance peer target.rpcUrl address w = (.ok b, w₁))
    (h : b ≤ target.reserve ∨ b - target.reserve < minSweepWei) :
    sweepAccount peer eest target key minSweepWei w = (.ok none, w₁) := by
  unfold sweepAccount
  rw [bind_apply, lift_apply, haddr]
  simp only [bind_apply, hbalance, h, if_true]
  rfl

/-- A balance within the reserve is left alone. -/
theorem sweepAccount_of_le {key b : ℤ} {address : String} {w w₁ : HostWorld σ}
    (haddr : eest.eoa key = .ok address)
    (hbalance : getBalance peer target.rpcUrl address w = (.ok b, w₁)) (h : b ≤ target.reserve) :
    sweepAccount peer eest target key 0 w = (.ok none, w₁) :=
  sweepAccount_of_short haddr hbalance (.inl h)

/-- Everything above the reserve is submitted. -/
theorem sweepAccount_of_lt {key b n : ℤ} {address hex : String} {reply result : Json}
    {w w₁ w₂ : HostWorld σ} (haddr : eest.eoa key = .ok address)
    (hbalance : getBalance peer target.rpcUrl address w = (.ok b, w₁)) (h : target.reserve < b)
    (hnonce : Sweep.nonce peer target.rpcUrl address w₁ = (.ok n, w₂))
    (hsigned : eest.signed (target.transaction key n (b - target.reserve)) = .ok hex)
    (hsend : (peer.answer w₂.state (sendCall target (rawHex hex))).1 = .ok reply)
    (hhas : Json.has "result" reply = .ok true) (hitem : Json.item "result" reply = .ok result) :
    sweepAccount peer eest target key 0 w =
      (.ok (some (result, b - target.reserve)), w₂.step peer (sendCall target (rawHex hex))) := by
  have hguard : ¬ (b ≤ target.reserve ∨ b - target.reserve < 0) := by omega
  have hpost : rpcCall peer target.rpcUrl "eth_sendRawTransaction" [.str (rawHex hex)] w₂ =
      (.ok reply, w₂.step peer (sendCall target (rawHex hex))) := by
    rw [rpcCall_apply]
    exact congrArg (fun r => (r, _)) hsend
  unfold sweepAccount
  rw [bind_apply, lift_apply, haddr]
  simp only [bind_apply, hbalance, hguard, if_false, hnonce, lift_apply, hsigned, hpost, hhas,
    if_true, hitem]
  rfl

/-- What sweeping one account does. -/
theorem sweepAccount_run (haccept : Accepting peer eest target) {eoaStart : ℤ} {index : ℕ}
    {address : String} (haddr : eest.eoa (eoaStart + index) = .ok address) (w : HostWorld σ) :
    ∃ account result w' new, account.index = index ∧ account.address = address ∧
      sweepAccount peer eest target (eoaStart + index) 0 w = (.ok result, w') ∧
      w'.log = w.log ++ new ∧ Shows eest target eoaStart account new := by
  obtain ⟨reply, b, hreply, hb⟩ := haccept.balance w.state _ address haddr
  let w₁ := w.step peer (balanceCall target address)
  have hbalance : getBalance peer target.rpcUrl address w = (.ok b, w₁) := by
    rw [getBalance_apply, hreply]
    exact congrArg (fun r => (r, w₁)) hb
  have hlog₁ : w₁.log = w.log ++ [⟨w.state, balanceCall target address, .ok reply⟩] := by
    rw [World.step_log, hreply]
  have hreport : balanceReport (⟨w.state, balanceCall target address, .ok reply⟩ :
      Exchange σ HostReply) = some (address, b) := balanceReport_balanceCall hb
  obtain ⟨nreply, n, hnreply, hn, hcount⟩ := haccept.nonce w₁.state _ address haddr
  let w₂ := w₁.step peer (nonceCall target address)
  have hnonce : Sweep.nonce peer target.rpcUrl address w₁ = (.ok n, w₂) := by
    rw [nonce_apply, hnreply]
    exact congrArg (fun r => (r, w₂)) hn
  let account : Scanned := ⟨index, address, b, n⟩
  by_cases hlow : b ≤ target.reserve
  · have hnot : ¬ target.reserve < b := by omega
    refine ⟨account, none, w₁, _, rfl, rfl, sweepAccount_of_le haddr hbalance hlow, hlog₁, ?_, ?_⟩
    · simp [balanceReports, hreport, account]
    · simp [submissions, submission, balanceCall, account, hnot]
  · have hhigh : target.reserve < b := by omega
    have hvalue : 0 < b - target.reserve := by omega
    obtain ⟨hex, hhex⟩ := haccept.signs _ address n _ haddr hcount hvalue
    obtain ⟨sreply, result, hsend, hhas, hitem⟩ :=
      haccept.accepts w₂.state _ address n _ hex haddr hcount hvalue hhex
    have hraw : signedRaw eest (account.sweep target eoaStart) = rawHex hex := by
      simp [signedRaw, Scanned.sweep, account, hhex]
    let w₃ := w₂.step peer (sendCall target (rawHex hex))
    let x₁ : Exchange σ HostReply := ⟨w.state, balanceCall target address, .ok reply⟩
    let x₂ : Exchange σ HostReply := ⟨w₁.state, nonceCall target address, .ok nreply⟩
    let x₃ : Exchange σ HostReply := ⟨w₂.state, sendCall target (rawHex hex), .ok sreply⟩
    have hidle : Idle x₂.query := idle_nonceCall address
    refine ⟨account, _, w₃, [x₁, x₂, x₃], rfl, rfl,
      sweepAccount_of_lt haddr hbalance hhigh hnonce hhex hsend hhas hitem, ?_, ?_, ?_⟩
    · rw [World.step_log, hsend, World.step_log, hnreply, hlog₁]
      simp [x₁, x₂, x₃]
    · have hreport₁ : balanceReport x₁ = some (address, b) := hreport
      have hreport₃ : balanceReport x₃ = none := rfl
      simp [balanceReports, hreport₁, balanceReport_of_idle hidle, hreport₃, account]
    · have hsubmit₁ : submission x₁ = none := rfl
      have hsubmit₃ : submission x₃ = some (rawHex hex) := rfl
      simp [submissions, hsubmit₁, submission_of_idle hidle, hsubmit₃, hraw, account, hhigh]

/-! ## The range -/

@[simp] theorem balanceReports_append (l m : List (Exchange σ HostReply)) :
    balanceReports (l ++ m) = balanceReports l ++ balanceReports m :=
  List.filterMap_append

@[simp] theorem submissions_append (l m : List (Exchange σ HostReply)) :
    submissions (l ++ m) = submissions l ++ submissions m :=
  List.filterMap_append

/-- A scan of at most `count` keys from index `i` on: in order, every account with the
balance that was reported for it, and a sweep for each that holds more than the reserve.
It is cut short only by a key that has no address. -/
structure Scan (eest : Eest) (target : Target) (eoaStart : ℤ) (i count : ℕ)
    (accounts : List Scanned) (new : List (Exchange σ HostReply)) : Prop where
  indices : accounts.map Scanned.index = List.range' i accounts.length
  length_le : accounts.length ≤ count
  addresses : ∀ a ∈ accounts, eest.eoa (eoaStart + a.index) = .ok a.address
  reports : balanceReports new = accounts.map fun a => (a.address, a.balance)
  submits : submissions new =
    (accounts.filter fun a => target.reserve < a.balance).map
      fun a => signedRaw eest (a.sweep target eoaStart)
  stops : accounts.length < count →
    ∃ e, eest.eoa (eoaStart + (i + accounts.length : ℕ)) = .error e

theorem Scan.nil (eoaStart : ℤ) (i : ℕ) :
    Scan eest target eoaStart i 0 [] ([] : List (Exchange σ HostReply)) :=
  ⟨rfl, Nat.le_refl 0, by simp, rfl, rfl, fun h => absurd h (Nat.lt_irrefl 0)⟩

theorem Scan.stopped {eoaStart : ℤ} {i count : ℕ} {e : PyError}
    (h : eest.eoa (eoaStart + i) = .error e) :
    Scan eest target eoaStart i (count + 1) [] ([] : List (Exchange σ HostReply)) :=
  ⟨rfl, Nat.zero_le _, by simp, rfl, rfl, fun _ => ⟨e, h⟩⟩

theorem Scan.cons {eoaStart : ℤ} {i count : ℕ} {account : Scanned} {accounts : List Scanned}
    {first rest : List (Exchange σ HostReply)} (hindex : account.index = i)
    (haddr : eest.eoa (eoaStart + i) = .ok account.address)
    (hfirst : Shows eest target eoaStart account first)
    (hrest : Scan eest target eoaStart (i + 1) count accounts rest) :
    Scan eest target eoaStart i (count + 1) (account :: accounts) (first ++ rest) where
  indices := by
    rw [List.map_cons, hindex, hrest.indices, List.length_cons, List.range'_succ]
  length_le := by
    have hle := hrest.length_le
    simp only [List.length_cons]
    omega
  addresses := by
    intro a ha
    rcases List.mem_cons.mp ha with rfl | ha
    · rw [hindex]
      exact haddr
    · exact hrest.addresses a ha
  reports := by
    rw [balanceReports_append, hfirst.reports, hrest.reports]
    rfl
  submits := by
    rw [submissions_append, hfirst.submits, hrest.submits]
    by_cases h : target.reserve < account.balance
    · simp [h]
    · simp [h]
  stops := by
    intro hlt
    have hlt' : accounts.length < count := by
      simp only [List.length_cons] at hlt
      omega
    obtain ⟨e, he⟩ := hrest.stops hlt'
    refine ⟨e, ?_⟩
    have heq : i + (account :: accounts).length = i + 1 + accounts.length := by
      simp only [List.length_cons]
      omega
    rw [heq]
    exact he

/-- The loop scans its range, whatever it had recovered before. -/
theorem sweepFrom_scan (haccept : Accepting peer eest target) (eoaStart : ℤ) (i count : ℕ)
    (recovered : List RecoveredAccount) (w : HostWorld σ) :
    ∃ accounts new, (sweepFrom peer eest target eoaStart i count recovered w).2.log =
        w.log ++ new ∧ Scan eest target eoaStart i count accounts new := by
  induction count generalizing i recovered w with
  | zero => exact ⟨[], [], by simp [sweepFrom], Scan.nil eoaStart i⟩
  | succ count ih =>
      unfold sweepFrom
      cases haddr : eest.eoa (eoaStart + i) with
      | error e =>
          refine ⟨[], [], ?_, Scan.stopped haddr⟩
          rw [bind_apply, sweepAccount_of_error haddr]
          simp
      | ok address =>
          obtain ⟨account, result, w', first, hindex, haddress, hrun, hlog, hshows⟩ :=
            sweepAccount_run haccept haddr w
          subst haddress
          rw [bind_apply, hrun]
          cases result with
          | none =>
              obtain ⟨accounts, rest, hrest, hscan⟩ := ih (i + 1) recovered w'
              refine ⟨account :: accounts, first ++ rest, ?_, hscan.cons hindex haddr hshows⟩
              rw [← List.append_assoc, ← hlog]
              exact hrest
          | some swept =>
              obtain ⟨txHash, wei⟩ := swept
              obtain ⟨accounts, rest, hrest, hscan⟩ :=
                ih (i + 1) (recovered ++ [⟨account.address, wei, txHash⟩]) w'
              refine ⟨account :: accounts, first ++ rest, ?_, hscan.cons hindex haddr hshows⟩
              rw [← List.append_assoc, ← hlog]
              exact hrest

/-! ## Waiting -/

/-- A call that waits for a receipt. -/
def Waits (rpcUrl : String) (q : HostCall) : Prop :=
  q = .time ∨ q = .sleep 4 ∨ ∃ h, q = .post rpcUrl "eth_getTransactionReceipt" [h] 30

theorem idle_of_waits {rpcUrl : String} {q : HostCall} (h : Waits rpcUrl q) : Idle q := by
  intro url method params timeout hq
  rcases h with rfl | rfl | ⟨h, rfl⟩
  · exact idle_of_ne_post (by simp) url method params timeout hq
  · exact idle_of_ne_post (by simp) url method params timeout hq
  · obtain ⟨-, rfl, -, -⟩ := HostCall.post.inj hq
    decide

theorem asks_stillPending (rpcUrl : String) (hashes : List Json) :
    Asks peer (Waits rpcUrl) (stillPending peer rpcUrl hashes) := by
  induction hashes with
  | nil => exact Asks.pure _
  | cons h hs ih =>
      apply Asks.bind (Asks.call (.inr (.inr ⟨h, rfl⟩)))
      intro reply
      apply Asks.bind (Asks.lift _)
      intro receipt
      exact Asks.bind ih fun rest => Asks.pure _

theorem asks_waitLoop (rpcUrl : String) (deadline : ℚ) (fuel : ℕ) (pending : List Json) :
    Asks peer (Waits rpcUrl) (waitLoop peer rpcUrl deadline fuel pending) := by
  induction fuel generalizing pending with
  | zero => exact Asks.throw _
  | succ fuel ih =>
      unfold waitLoop
      split
      · exact Asks.pure _
      · apply Asks.bind (Asks.call (.inl rfl))
        intro now
        split
        · apply Asks.bind (asks_stillPending rpcUrl pending)
          intro rest
          split
          · exact Asks.pure _
          · exact Asks.bind (Asks.call (.inr (.inl rfl))) fun _ => ih rest
        · exact Asks.pure _

/-- What a recovery does behind its scan. -/
def await (peer : Peer σ HostReply) (target : Target) (fuel : ℕ) (wait : Bool)
    (recovered : List RecoveredAccount) : Command σ (List RecoveredAccount) :=
  if wait && !recovered.isEmpty then do
    let now : ℚ ← call peer .time
    let pending ← lift (pendingSet recovered)
    waitLoop peer target.rpcUrl (now + 180) fuel pending
    return recovered
  else
    return recovered

theorem recoverFundedEoas_eq (eoaStart : ℤ) (fuel count : ℕ) (wait : Bool) :
    recoverFundedEoas peer eest target eoaStart fuel count wait =
      sweepFrom peer eest target eoaStart 0 count [] >>= await peer target fuel wait := rfl

theorem asks_await (fuel : ℕ) (wait : Bool) (recovered : List RecoveredAccount) :
    Asks peer (Waits target.rpcUrl) (await peer target fuel wait recovered) := by
  unfold await
  split
  · apply Asks.bind (Asks.call (.inl rfl))
    intro now
    apply Asks.bind (Asks.lift _)
    intro pending
    exact Asks.bind (asks_waitLoop _ _ _ _) fun _ => Asks.pure _
  · exact Asks.pure _

/-- Waiting is idle. -/
theorem await_log (fuel : ℕ) (wait : Bool) (recovered : List RecoveredAccount) (w : HostWorld σ) :
    ∃ late, (await peer target fuel wait recovered w).2.log = w.log ++ late ∧
      ∀ x ∈ late, Idle x.query := by
  obtain ⟨late, hlog, hwaits⟩ := (asks_await fuel wait recovered w).log_eq
  exact ⟨late, hlog, fun x hx => idle_of_waits (hwaits x hx)⟩

theorem balanceReports_of_idle {log : List (Exchange σ HostReply)}
    (h : ∀ x ∈ log, Idle x.query) : balanceReports log = [] := by
  apply List.filterMap_eq_nil_iff.mpr
  exact fun x hx => balanceReport_of_idle (h x hx)

theorem submissions_of_idle {log : List (Exchange σ HostReply)}
    (h : ∀ x ∈ log, Idle x.query) : submissions log = [] := by
  apply List.filterMap_eq_nil_iff.mpr
  exact fun x hx => submission_of_idle (h x hx)

/-- Idle calls before or behind a scan do not show in it. -/
theorem Scan.idle {eoaStart : ℤ} {i count : ℕ} {accounts : List Scanned}
    {early new late : List (Exchange σ HostReply)}
    (hscan : Scan eest target eoaStart i count accounts new) (hearly : ∀ x ∈ early, Idle x.query)
    (hlate : ∀ x ∈ late, Idle x.query) :
    Scan eest target eoaStart i count accounts (early ++ (new ++ late)) where
  indices := hscan.indices
  length_le := hscan.length_le
  addresses := hscan.addresses
  reports := by
    simp [balanceReports_of_idle hearly, balanceReports_of_idle hlate, hscan.reports]
  submits := by
    simp [submissions_of_idle hearly, submissions_of_idle hlate, hscan.submits]
  stops := hscan.stops

theorem recoverFundedEoas_scan (haccept : Accepting peer eest target) (eoaStart : ℤ)
    (fuel count : ℕ) (wait : Bool) (w : HostWorld σ) :
    ∃ accounts new, (recoverFundedEoas peer eest target eoaStart fuel count wait w).2.log =
        w.log ++ new ∧ Scan eest target eoaStart 0 count accounts new := by
  obtain ⟨accounts, new, hlog, hscan⟩ := sweepFrom_scan haccept eoaStart 0 count [] w
  rw [recoverFundedEoas_eq]
  rcases hrun : sweepFrom peer eest target eoaStart 0 count [] w with ⟨r, u⟩
  rw [hrun] at hlog
  cases r with
  | error e =>
      rw [bind_of_error hrun]
      exact ⟨accounts, new, hlog, hscan⟩
  | ok recovered =>
      rw [bind_of_ok hrun]
      obtain ⟨late, hlate, hidle⟩ := await_log fuel wait recovered u
      refine ⟨accounts, new ++ late, ?_, ?_⟩
      · rw [← List.append_assoc, ← hlog]
        exact hlate
      · have hnone : ∀ x ∈ ([] : List (Exchange σ HostReply)), Idle x.query := by simp
        exact hscan.idle hnone hidle

end EestReplay.Sweep
