import EestReplay.Verification.Recover.Account

/-! # Valid sweeps

What `sweep_account` submits for a balance, for any fees and any smallest sweep, against the
rules that a node applies to a transaction with a fee cap and a priority fee. -/

namespace EestReplay.Sweep

open Dialogue

section

variable {σ : Type} (peer : Peer σ HostReply) (eest : Eest) (target : Target)

/-- A sweep that a node with this balance of the account may take. -/
structure ValidSweep (minSweepWei balance : ℤ) (tx : Transaction) : Prop where
  positive : 0 < tx.value
  enough : minSweepWei ≤ tx.value
  covered : tx.value + tx.gasLimit * tx.maxFeePerGas ≤ balance
  capped : tx.maxPriorityFeePerGas ≤ tx.maxFeePerGas

/-- A sweep that leaves nothing but its gas. -/
def FullSweep (balance : ℤ) (tx : Transaction) : Prop :=
  tx.value + tx.gasLimit * tx.maxFeePerGas = balance

/-- A call submits valid sweeps only; when it submits none, no full sweep is valid that it
could have submitted, and when it says that there is nothing to sweep, none is at all. -/
structure SubmitsValid (key minSweepWei balance : ℤ) (address : String) (w : HostWorld σ) :
    Prop where
  submitted : ∀ raw ∈ submissions (asked (sweepAccount peer eest target key minSweepWei) w),
    ∃ n wei hex, eest.signed (target.transaction key n wei) = .ok hex ∧ raw = rawHex hex ∧
      ValidSweep minSweepWei balance (target.transaction key n wei)
  unsubmitted : submissions (asked (sweepAccount peer eest target key minSweepWei) w) = [] →
    ∀ n wei hex, nonceAt peer target (readWorld peer target w address).state address = .ok n →
      eest.signed (target.transaction key n wei) = .ok hex →
        FullSweep balance (target.transaction key n wei) →
          ¬ ValidSweep minSweepWei balance (target.transaction key n wei)
  returned : (sweepAccount peer eest target key minSweepWei w).1 = .ok none →
    ∀ n wei, FullSweep balance (target.transaction key n wei) →
      ¬ ValidSweep minSweepWei balance (target.transaction key n wei)

/-- The balance is worth a sweep. -/
def Worth (minSweepWei balance : ℤ) : Prop :=
  target.reserve < balance ∧ minSweepWei ≤ balance - target.reserve

end

variable {σ : Type} {peer : Peer σ HostReply} {eest : Eest} {target : Target}

/-! ## Transactions -/

theorem transaction_cost (key n wei : ℤ) :
    (target.transaction key n wei).gasLimit * (target.transaction key n wei).maxFeePerGas =
      target.reserve := rfl

/-- A full sweep has the one value that `sweep_account` computes. -/
theorem fullSweep_iff {balance key n wei : ℤ} :
    FullSweep balance (target.transaction key n wei) ↔ wei = balance - target.reserve := by
  unfold FullSweep
  rw [transaction_cost]
  show wei + target.reserve = balance ↔ _
  omega

/-- A full sweep of a balance that is worth it breaks no rule but that on the priority fee. -/
theorem validSweep_iff {balance minSweepWei key n : ℤ} :
    ValidSweep minSweepWei balance (target.transaction key n (balance - target.reserve)) ↔
      Worth target minSweepWei balance ∧ target.maxPriorityFeePerGas ≤ target.maxFeePerGas := by
  constructor
  · intro h
    have hpositive : 0 < balance - target.reserve := h.positive
    exact ⟨⟨by omega, h.enough⟩, h.capped⟩
  · rintro ⟨⟨hlt, hmin⟩, hcapped⟩
    have hpositive : 0 < balance - target.reserve := by omega
    refine ⟨hpositive, hmin, ?_, hcapped⟩
    rw [transaction_cost]
    show balance - target.reserve + target.reserve ≤ balance
    omega

/-! ## One call -/

/-- How a call ends once it has read the balance. -/
inductive Ends (peer : Peer σ HostReply) (eest : Eest) (target : Target)
    (key minSweepWei balance : ℤ) (address : String) (w : HostWorld σ) :
    Except PyError (Option (Json × ℤ)) → List String → Prop where
  | short (hworth : ¬ Worth target minSweepWei balance) :
      Ends peer eest target key minSweepWei balance address w (.ok none) []
  | uncounted {e : PyError} (hworth : Worth target minSweepWei balance)
      (hnonce : nonceAt peer target (readWorld peer target w address).state address = .error e) :
      Ends peer eest target key minSweepWei balance address w (.error e) []
  | unsigned {n : ℤ} {e : PyError} (hworth : Worth target minSweepWei balance)
      (hnonce : nonceAt peer target (readWorld peer target w address).state address = .ok n)
      (hsigned : eest.signed (target.transaction key n (balance - target.reserve)) = .error e) :
      Ends peer eest target key minSweepWei balance address w (.error e) []
  | sent (n : ℤ) (hex : String) (r : Except PyError Json)
      (hworth : Worth target minSweepWei balance)
      (hnonce : nonceAt peer target (readWorld peer target w address).state address = .ok n)
      (hsigned : eest.signed (target.transaction key n (balance - target.reserve)) = .ok hex) :
      Ends peer eest target key minSweepWei balance address w
        (r.map fun result => some (result, balance - target.reserve)) [rawHex hex]

theorem asked_of_world {α : Type} {x : Command σ α} {r : Except PyError α} {w u : HostWorld σ}
    {new : List (Exchange σ HostReply)} (hrun : x w = (r, u)) (hlog : u.log = w.log ++ new) :
    asked x w = new := asked_eq (by rw [hrun]; exact hlog)

theorem sweepAccount_ends (minSweepWei : ℤ) {key balance : ℤ} {address : String} {w : HostWorld σ}
    (haddr : eest.eoa key = .ok address)
    (hbalance : balanceAt peer target w.state address = .ok balance) :
    Ends peer eest target key minSweepWei balance address w
      (sweepAccount peer eest target key minSweepWei w).1
      (submissions (asked (sweepAccount peer eest target key minSweepWei) w)) := by
  have hread := getBalance_of_balanceAt hbalance
  by_cases hworth : Worth target minSweepWei balance
  · have hguard : ¬ (balance ≤ target.reserve ∨ balance - target.reserve < minSweepWei) := by
      obtain ⟨hlt, hmin⟩ := hworth
      omega
    have hrun := sweepAccount_of_read haddr hread hguard
    cases hnonce : nonceAt peer target (readWorld peer target w address).state address with
    | error e =>
        rw [bind_of_error (nonce_of_nonceAt hnonce)] at hrun
        rw [asked_of_world hrun (countedWorld_log w address), hrun]
        exact .uncounted hworth hnonce
    | ok n =>
        rw [bind_of_ok (nonce_of_nonceAt hnonce)] at hrun
        cases hsigned : eest.signed (target.transaction key n (balance - target.reserve)) with
        | error e =>
            rw [signAndSend_of_error hsigned] at hrun
            rw [asked_of_world hrun (countedWorld_log w address), hrun]
            exact .unsigned hworth hnonce hsigned
        | ok hex =>
            rw [signAndSend_of_ok hsigned rfl] at hrun
            rw [asked_of_world hrun (sentWorld_log w address (rawHex hex)), hrun]
            exact .sent n hex _ hworth hnonce hsigned
  · have hshort : balance ≤ target.reserve ∨ balance - target.reserve < minSweepWei := by
      unfold Worth at hworth
      omega
    have hrun := sweepAccount_of_short haddr hread hshort
    rw [asked_of_world hrun (readWorld_log w address), hrun]
    exact .short hworth

theorem not_valid_of_not_worth {balance minSweepWei key n wei : ℤ}
    (hworth : ¬ Worth target minSweepWei balance)
    (hfull : FullSweep balance (target.transaction key n wei)) :
    ¬ ValidSweep minSweepWei balance (target.transaction key n wei) := by
  obtain rfl := fullSweep_iff.mp hfull
  exact fun hvalid => hworth (validSweep_iff.mp hvalid).1

/-- A call submits valid sweeps only, and misses none, exactly when the priority fee is within
the fee cap or there is nothing that it can submit. -/
theorem submitsValid_iff (peer : Peer σ HostReply) (eest : Eest) (target : Target)
    (key minSweepWei balance : ℤ) (address : String) (w : HostWorld σ)
    (haddr : eest.eoa key = .ok address)
    (hbalance : balanceAt peer target w.state address = .ok balance) :
    SubmitsValid peer eest target key minSweepWei balance address w ↔
      ∀ n hex, Worth target minSweepWei balance →
        nonceAt peer target (readWorld peer target w address).state address = .ok n →
        eest.signed (target.transaction key n (balance - target.reserve)) = .ok hex →
        target.maxPriorityFeePerGas ≤ target.maxFeePerGas := by
  have hends := sweepAccount_ends minSweepWei haddr hbalance
  generalize hresult : (sweepAccount peer eest target key minSweepWei w).1 = result at hends
  generalize hsubs : submissions (asked (sweepAccount peer eest target key minSweepWei) w) = raws
    at hends
  constructor
  · intro h n hex hworth hnonce hsigned
    cases hends with
    | short hshort => exact absurd hworth hshort
    | uncounted _ hfails =>
        rw [hnonce] at hfails
        cases hfails
    | unsigned _ hn hfails =>
        obtain rfl := Except.ok.inj (hnonce.symm.trans hn)
        rw [hsigned] at hfails
        cases hfails
    | sent m sent r _ _ _ =>
        obtain ⟨_, _, _, _, _, hvalid⟩ := h.submitted _ (hsubs ▸ List.mem_singleton_self _)
        exact hvalid.capped
  · intro hcapped
    cases hends with
    | short hshort =>
        refine ⟨by simp [hsubs], ?_, ?_⟩
        · intro _ n wei hex _ _ hfull
          exact not_valid_of_not_worth hshort hfull
        · intro _ n wei hfull
          exact not_valid_of_not_worth hshort hfull
    | uncounted _ hfails =>
        refine ⟨by simp [hsubs], ?_, by simp [hresult]⟩
        intro _ n wei hex hnonce
        rw [hfails] at hnonce
        cases hnonce
    | unsigned _ hn hfails =>
        refine ⟨by simp [hsubs], ?_, by simp [hresult]⟩
        intro _ m wei hex hnonce hsigned hfull
        obtain rfl := Except.ok.inj (hn.symm.trans hnonce)
        obtain rfl := fullSweep_iff.mp hfull
        rw [hfails] at hsigned
        cases hsigned
    | sent n hex r hworth hnonce hsigned =>
        have hvalid : ValidSweep minSweepWei balance
            (target.transaction key n (balance - target.reserve)) :=
          validSweep_iff.mpr ⟨hworth, hcapped n hex hworth hnonce hsigned⟩
        refine ⟨?_, by simp [hsubs], ?_⟩
        · intro raw hraw
          rw [hsubs] at hraw
          exact ⟨n, balance - target.reserve, hex, hsigned, List.mem_singleton.mp hraw, hvalid⟩
        · intro hnone
          rw [hresult] at hnone
          cases r <;> cases hnone

/-- A node at which every account holds 21002 wei. -/
def evenNode : Peer Unit HostReply where
  answer _ q :=
    (match q with
      | .post _ "eth_getBalance" _ _ => .ok (.obj [("result", .str "0x520a")])
      | .post _ "eth_getTransactionCount" _ _ => .ok (.obj [("result", .str "0x0")])
      | .post _ _ _ _ => .ok (.obj [("result", .str "0x01")])
      | _ => .error ⟨.osError, "unavailable"⟩, ())

/-- Both fees are 1 wei. -/
def evenTarget : Target := { pairTarget with maxPriorityFeePerGas := 1 }

theorem submitsValid_iff_evenTarget :
    SubmitsValid evenNode pairEest evenTarget 1 2 21002 "first" ⟨(), []⟩ ↔
      ∀ n hex, Worth evenTarget 2 21002 →
        nonceAt evenNode evenTarget (readWorld evenNode evenTarget ⟨(), []⟩ "first").state "first" =
          .ok n →
        pairEest.signed (evenTarget.transaction 1 n (21002 - evenTarget.reserve)) = .ok hex →
        evenTarget.maxPriorityFeePerGas ≤ evenTarget.maxFeePerGas :=
  submitsValid_iff evenNode pairEest evenTarget 1 2 21002 "first" ⟨(), []⟩ (by decide) (by decide)

/-- `recover --max-fee-per-gas 1`, with the default priority fee. -/
def cheapOptions : Recover.Options where
  rpcUrl := "http://127.0.0.1:8545"
  toAddr := "0x0000000000000000000000000000000000000001"
  chainId := 7928
  key := some "0x1"
  maxFeePerGas := 1

theorem not_submitsValid_cheap :
    ¬ SubmitsValid evenNode pairEest cheapOptions.target 1 0 21002 "first" ⟨(), []⟩ := by
  intro h
  have hne : submissions (asked (sweepAccount evenNode pairEest cheapOptions.target 1 0) ⟨(), []⟩) ≠ [] := by
    decide +kernel
  obtain ⟨raw, hraw⟩ := List.exists_mem_of_ne_nil _ hne
  obtain ⟨n, wei, hex, -, -, hvalid⟩ := h.submitted raw hraw
  have hcapped : (1000000000 : ℤ) ≤ 1 := hvalid.capped
  exact absurd hcapped (by decide)

end EestReplay.Sweep
