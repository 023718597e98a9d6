import EestReplay.Library.Ledger
import EestReplay.Verification.Recover.Waiting

/-! # A node with a ledger

The ledger behind a node, which is what a recovery reads and changes. -/

namespace EestReplay.Sweep

open Dialogue Ledger

variable {σ : Type} {peer : Peer σ HostReply} {eest : Eest} {target : Target}
  {A : Type} [DecidableEq A]

/-- A node that reports balances and counts of its ledger as they are when it is asked. It
reads the transfer in a signed transaction, and answers everything that a wait asks. -/
structure LedgerNode (peer : Peer σ HostReply) (eest : Eest) (target : Target) (A : Type) where
  view : σ → Chain A
  account : String → A
  decode : String → Option (Transfer A)
  balance : ∀ s address,
    balanceAt peer target s address = .ok ((view s).balance (account address))
  nonce : ∀ s address, nonceAt peer target s address = .ok ((view s).nonce (account address) : ℤ)
  waits : ∀ s q, Waits target.rpcUrl q → ¬ Faulty (served peer s q)
  decodes : ∀ key address n wei hex, eest.eoa key = .ok address →
    eest.signed (target.transaction key n wei) = .ok hex →
    decode (rawHex hex) =
      some ⟨account address, n, account target.toAddr, wei, gasTransfer, target.maxFeePerGas⟩

namespace LedgerNode

variable (N : LedgerNode peer eest target A)

/-- The account of a key of a range. -/
def Owns (eoaStart : ℤ) (i : ℕ) (a : A) : Prop :=
  ∃ address, eest.eoa (eoaStart + i) = .ok address ∧ N.account address = a

/-- The accounts of a range of keys. -/
def scanned (eoaStart : ℤ) (count : ℕ) : Finset A :=
  ((List.range count).filterMap fun i : ℕ =>
    (eest.eoa (eoaStart + i)).toOption.map N.account).toFinset

theorem mem_scanned {eoaStart : ℤ} {count : ℕ} {a : A} :
    a ∈ N.scanned eoaStart count ↔
      ∃ i < count, N.Owns eoaStart i a := by
  unfold scanned Owns
  simp only [List.mem_toFinset, List.mem_filterMap, List.mem_range]
  constructor
  · rintro ⟨i, hi, hsome⟩
    cases haddr : eest.eoa (eoaStart + i) with
    | error e => simp [haddr, Except.toOption] at hsome
    | ok address => exact ⟨i, hi, address, haddr, by simpa [haddr, Except.toOption] using hsome⟩
  · rintro ⟨i, hi, address, haddr, rfl⟩
    exact ⟨i, hi, by simp [haddr, Except.toOption]⟩

/-- The keys of a range have accounts of their own. -/
def Separate (eoaStart : ℤ) (count : ℕ) : Prop :=
  ∀ i < count, ∀ j < count, ∀ a, N.Owns eoaStart i a → N.Owns eoaStart j a → i = j

include N in
omit [DecidableEq A] in
theorem counting : Counting peer target := by
  intro s address n h
  rw [N.nonce s address] at h
  obtain rfl := Except.ok.inj h
  exact Int.natCast_nonneg _

/-- What sweeping the account of a key comes to on the node: there is nothing above the
reserve, or a sweep is sent. -/
inductive Attempt (key : ℤ) (address : String) (w : HostWorld σ) :
    Except PyError (Option (Json × ℤ)) → HostWorld σ → Prop where
  | low (hle : (N.view w.state).balance (N.account address) ≤ target.reserve) :
      Attempt key address w (.ok none) (readWorld peer target w address)
  | sent {hex : String} {n : ℤ} {reply : Except PyError Json}
      (hlt : target.reserve < (N.view w.state).balance (N.account address))
      (hnonce : nonceAt peer target (readWorld peer target w address).state address = .ok n)
      (hsigned : eest.signed (target.transaction key n
        ((N.view w.state).balance (N.account address) - target.reserve)) = .ok hex)
      (hsent : hashAt peer eest target (countedWorld peer target w address).state address
        (rawHex hex) = reply) :
      Attempt key address w
        (reply.map fun result =>
          some (result, (N.view w.state).balance (N.account address) - target.reserve))
        (sentWorld peer target w address (rawHex hex))

variable {N}

omit [DecidableEq A] in
/-- The node reports every balance and every nonce, and the keys sign. -/
theorem attempt_of_derivation {eoaStart : ℤ} {n i : ℕ} (hkeys : Keys eest target eoaStart n)
    (hi : i < n) {address : String} (haddr : eest.eoa (eoaStart + i) = .ok address)
    {w u : HostWorld σ} {r : Except PyError (Option (Json × ℤ))}
    (h : AccountDerivation peer eest target (eoaStart + i) w r u) :
    N.Attempt (eoaStart + i) address w r u := by
  cases h with
  | unaddressed haddr' =>
      rw [haddr] at haddr'
      cases haddr'
  | unread haddr' hbalance =>
      rw [N.balance] at hbalance
      cases hbalance
  | low haddr' hbalance hle =>
      obtain rfl : address = _ := Except.ok.inj (haddr.symm.trans haddr')
      rw [N.balance] at hbalance
      obtain rfl := Except.ok.inj hbalance
      exact .low hle
  | uncounted haddr' hbalance hlt hnonce =>
      rw [N.nonce] at hnonce
      cases hnonce
  | @unsigned _ b m e haddr' hbalance hlt hnonce hsigned =>
      obtain ⟨hex, hhex⟩ := hkeys.signs i hi m (b - target.reserve) (N.counting _ _ m hnonce)
        (by omega)
      rw [hhex] at hsigned
      cases hsigned
  | rejected haddr' hbalance hlt hnonce hsigned hsent =>
      obtain rfl : address = _ := Except.ok.inj (haddr.symm.trans haddr')
      rw [N.balance] at hbalance
      obtain rfl := Except.ok.inj hbalance
      exact .sent hlt hnonce hsigned hsent
  | swept haddr' hbalance hlt hnonce hsigned hsent =>
      obtain rfl : address = _ := Except.ok.inj (haddr.symm.trans haddr')
      rw [N.balance] at hbalance
      obtain rfl := Except.ok.inj hbalance
      exact .sent hlt hnonce hsigned hsent

end LedgerNode

/-! ## A node that mines nothing -/

/-- The transfer that a raw transaction of the two keys shows. -/
def pairTransfer (raw : String) : Transfer String where
  sender := if '1' ∈ raw.toList then "first" else "second"
  nonce := raw.toList.count 'n'
  dest := pairTarget.toAddr
  value := raw.toList.count 'v'
  gas := gasTransfer
  maxFee := pairTarget.maxFeePerGas

theorem pairTransfer_signed (key : ℤ) (address : String) (n wei : ℤ) (hex : String)
    (haddr : pairEest.eoa key = .ok address)
    (hsigned : pairEest.signed (pairTarget.transaction key n wei) = .ok hex) :
    some (pairTransfer (rawHex hex)) =
      some ⟨address, n, pairTarget.toAddr, wei, gasTransfer, pairTarget.maxFeePerGas⟩ := by
  obtain ⟨hsender, hnonce, hwei⟩ := pairEest_signed haddr hsigned
  unfold pairTransfer
  rw [hsender, hnonce, hwei]

/-- What is pending, and the time. -/
structure Mempool where
  pool : List (Transfer String)
  now : ℚ

/-- A transfer of the same sender with the same nonce is pending. -/
def Mempool.occupied (m : Mempool) (t : Transfer String) : Bool :=
  m.pool.any fun p => p.sender = t.sender && p.nonce = t.nonce

/-- A node that rejects what `refuses` tells it to. -/
def pairReply (refuses : Mempool → Transfer String → Bool) (m : Mempool) :
    (q : HostCall) → HostReply q
  | .post _ "eth_getBalance" [.str address, .str "latest"] _ =>
    .ok (.obj [("result", .str (if address = "first" then "0x520a" else "0x0"))])
  | .post _ "eth_getTransactionCount" _ _ => .ok (.obj [("result", .str "0x0")])
  | .post _ "eth_sendRawTransaction" [.str raw] _ =>
    .ok (if refuses m (pairTransfer raw) then .obj [("error", .str "already known")]
      else .obj [("result", .str raw)])
  | .post _ _ _ _ => .ok (.obj [("result", .null)])
  | .time => .ok m.now
  | .sleep _ => .ok ()
  | _ => .error ⟨.osError, "unavailable"⟩

def pairNext (refuses : Mempool → Transfer String → Bool) (m : Mempool) : HostCall → Mempool
  | .post "http://127.0.0.1:8545" "eth_sendRawTransaction" [.str raw] 30 =>
    if refuses m (pairTransfer raw) then m else { m with pool := m.pool ++ [pairTransfer raw] }
  | .sleep n => { m with now := m.now + n }
  | _ => m

/-- Nothing is mined: only the first account holds a balance, and sweeps stay pending. -/
def pairNode (refuses : Mempool → Transfer String → Bool) : Peer Mempool HostReply where
  answer m q := (pairReply refuses m q, pairNext refuses m q)

def pairClock (refuses : Mempool → Transfer String → Bool) : Clock (pairNode refuses) where
  now := Mempool.now
  mono m q := by
    show m.now ≤ (pairNext refuses m q).now
    unfold pairNext
    split
    · split <;> exact le_refl _
    · exact le_add_of_nonneg_right (Nat.cast_nonneg _)
    · exact le_refl _
  time m t h := by
    obtain rfl : m.now = t := Except.ok.inj h
    exact ⟨le_refl _, le_refl _⟩
  sleep m n _ := le_refl _

def pairLedger (refuses : Mempool → Transfer String → Bool) :
    LedgerNode (pairNode refuses) pairEest pairTarget String where
  view m := ⟨fun a => if a = "first" then 21002 else 0, fun _ => 0, m.pool, []⟩
  account := id
  decode raw := some (pairTransfer raw)
  balance m address := by
    show ((Except.ok (Json.obj [("result", .str (if address = "first" then "0x520a" else "0x0"))]) :
      Except PyError Json) >>= quantity) = .ok (if address = "first" then 21002 else 0)
    split
    · rfl
    · rfl
  nonce m address := rfl
  waits m q h := by
    intro hfault
    rcases h with rfl | rfl | ⟨h, rfl⟩
    · cases hfault
    · cases hfault
    · cases hfault
  decodes := pairTransfer_signed

end EestReplay.Sweep
