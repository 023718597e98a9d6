import EestReplay.Verification.Recover.Waiting
import Mathlib.Algebra.BigOperators.Group.List.Basic
import Mathlib.Algebra.Order.Group.Int

/-! # The report of a recovery

What the caller is told, beside what became of the sweeps that the node accepted. -/

namespace EestReplay.Sweep

open Dialogue

variable {σ : Type} {peer : Peer σ HostReply} {eest : Eest} {target : Target}

/-- What becomes of a raw transaction: whether the node accepts it when it is sent, and
whether it has credited its destination by a state. An answer with a hash accepts; any other
answer leaves open what the node did. -/
structure Fate (peer : Peer σ HostReply) (eest : Eest) (target : Target) where
  accepts : σ → String → Bool
  credits : σ → String → Bool
  decode : String → Option (String × ℤ)
  accepts_of_hash : ∀ s raw hash, sentHash (served peer s (sendCall target raw)) = some hash →
    accepts s raw = true
  decodes : ∀ key address n wei hex, eest.eoa key = .ok address →
    eest.signed (target.transaction key n wei) = .ok hex →
    decode (rawHex hex) = some (address, wei)

/-- A sweep that the node has accepted. -/
structure AcceptedSweep where
  address : String
  wei : ℤ
  raw : String
  deriving DecidableEq

/-- What the caller is told: nothing when the recovery raises. -/
def reported : Except PyError (List RecoveredAccount) → List RecoveredAccount
  | .ok recovered => recovered
  | .error _ => []

namespace Fate

variable (F : Fate peer eest target)

/-- The sweep that is accepted in an exchange. -/
def acceptance (x : Exchange σ HostReply) : Option AcceptedSweep := do
  let raw ← submission x
  if F.accepts x.before raw then
    (F.decode raw).map fun sender => ⟨sender.1, sender.2, raw⟩
  else
    none

def acceptedSweeps (log : List (Exchange σ HostReply)) : List AcceptedSweep :=
  log.filterMap F.acceptance

/-- Every accepted sweep is reported, and the wei that are reported are the wei that the
accepted sweeps have credited by `s`. -/
structure Truthful (r : Except PyError (List RecoveredAccount)) (s : σ)
    (log : List (Exchange σ HostReply)) : Prop where
  names : ∀ sweep ∈ F.acceptedSweeps log, sweep.address ∈ (reported r).map RecoveredAccount.address
  sums : ((reported r).map RecoveredAccount.sweptWei).sum =
    (((F.acceptedSweeps log).filter fun sweep => F.credits s sweep.raw).map AcceptedSweep.wei).sum

end Fate

/-- The code can read the reply, and takes its hash for one. -/
def Sound (wait : Bool) (x : Exchange σ HostReply) : Prop :=
  ¬ Faulty x ∧ (wait = true → ∀ hash, sentHash x = some hash → hash.hashable = true)

namespace Fate

variable (F : Fate peer eest target)

@[simp] theorem acceptedSweeps_append (l m : List (Exchange σ HostReply)) :
    F.acceptedSweeps (l ++ m) = F.acceptedSweeps l ++ F.acceptedSweeps m :=
  List.filterMap_append

theorem acceptance_of_submission {x : Exchange σ HostReply} (h : submission x = none) :
    F.acceptance x = none := by
  unfold acceptance
  rw [h]
  rfl

theorem acceptedSweeps_of_idle {log : List (Exchange σ HostReply)}
    (h : ∀ x ∈ log, Idle x.query) : F.acceptedSweeps log = [] :=
  List.filterMap_eq_nil_iff.mpr fun x hx => F.acceptance_of_submission (submission_of_idle (h x hx))

/-! ## A scan that returns -/

/-- A scan in which every sweep was answered with a hash. -/
structure Settled (recovered : List RecoveredAccount) (new : List (Exchange σ HostReply)) :
    Prop where
  hashes : new.filterMap sentHash = recovered.map RecoveredAccount.txHash
  accepted : (F.acceptedSweeps new).map (fun sweep => (sweep.address, sweep.wei)) =
    recovered.map fun r => (r.address, r.sweptWei)
  positive : ∀ sweep ∈ F.acceptedSweeps new, 0 < sweep.wei

theorem Settled.append {l m : List RecoveredAccount} {first rest : List (Exchange σ HostReply)}
    (hfirst : F.Settled l first) (hrest : F.Settled m rest) : F.Settled (l ++ m) (first ++ rest) where
  hashes := by rw [List.filterMap_append, List.map_append, hfirst.hashes, hrest.hashes]
  accepted := by
    rw [acceptedSweeps_append, List.map_append, List.map_append, hfirst.accepted, hrest.accepted]
  positive := by
    intro sweep hsweep
    rw [acceptedSweeps_append] at hsweep
    rcases List.mem_append.mp hsweep with h | h
    · exact hfirst.positive sweep h
    · exact hrest.positive sweep h

theorem settled_of_idle {late : List (Exchange σ HostReply)} (h : ∀ x ∈ late, Idle x.query) :
    F.Settled [] late where
  hashes := List.filterMap_eq_nil_iff.mpr fun x hx => sentHash_of_idle (h x hx)
  accepted := by rw [F.acceptedSweeps_of_idle h]; rfl
  positive := by simp [F.acceptedSweeps_of_idle h]

theorem settled_low {w u : HostWorld σ} {key : ℤ}
    (h : AccountDerivation peer eest target key w (.ok none) u) :
    ∃ new, u.log = w.log ++ new ∧ F.Settled [] new := by
  cases h with
  | @low address b haddr hbalance hle =>
      exact ⟨_, readWorld_log w address, rfl, rfl, by simp [acceptedSweeps, acceptance]⟩

theorem settled_swept {w u : HostWorld σ} {key wei : ℤ} {address : String} {txHash : Json}
    (haddr : eest.eoa key = .ok address)
    (h : AccountDerivation peer eest target key w (.ok (some (txHash, wei))) u) :
    ∃ new, u.log = w.log ++ new ∧ F.Settled [⟨address, wei, txHash⟩] new := by
  cases h with
  | @swept _ hex b n _ haddr' hbalance hlt hnonce hsigned hsent =>
      obtain rfl : address = _ := Except.ok.inj (haddr.symm.trans haddr')
      have hhash : sentHash (served peer (countedWorld peer target w address).state
          (sendCall target (rawHex hex))) = some txHash := by
        rw [← hashAt_toOption eest _ address, hsent]
        rfl
      have haccepted : F.acceptance (served peer (countedWorld peer target w address).state
          (sendCall target (rawHex hex))) = some ⟨address, b - target.reserve, rawHex hex⟩ := by
        have hdecode := F.decodes _ _ _ _ _ haddr hsigned
        have haccepts : F.accepts (countedWorld peer target w address).state (rawHex hex) = true :=
          F.accepts_of_hash _ _ _ hhash
        simp [acceptance, served, submission, sendCall, haccepts, hdecode]
      have hall : F.acceptedSweeps (sentLog peer target w address (rawHex hex)) =
          [⟨address, b - target.reserve, rawHex hex⟩] := by
        unfold acceptedSweeps sentLog
        rw [List.filterMap_cons_none (F.acceptance_of_submission (submission_balanceCall _ _)),
          List.filterMap_cons_none (F.acceptance_of_submission (submission_nonceCall _ _)),
          List.filterMap_cons_some haccepted, List.filterMap_nil]
      refine ⟨_, sentWorld_log w address (rawHex hex), ?_, ?_, ?_⟩
      · unfold sentLog
        rw [List.filterMap_cons_none (sentHash_balanceCall _ _),
          List.filterMap_cons_none (sentHash_nonceCall _ _), List.filterMap_cons_some hhash]
        rfl
      · rw [hall]
        rfl
      · rw [hall]
        intro sweep hsweep
        obtain rfl := List.mem_singleton.mp hsweep
        show 0 < b - target.reserve
        omega

theorem settled_range {eoaStart : ℤ} {i count : ℕ} {w u : HostWorld σ}
    {r : Except PyError (List RecoveredAccount)}
    (h : RangeDerivation peer eest target eoaStart i count w r u) :
    ∀ recovered, r = .ok recovered → ∃ new, u.log = w.log ++ new ∧ F.Settled recovered new := by
  induction h with
  | done =>
      rintro recovered hok
      obtain rfl := Except.ok.inj hok
      exact ⟨[], by simp, rfl, rfl, by simp [acceptedSweeps]⟩
  | raised => exact fun recovered hok => by cases hok
  | skipped hfirst hrest ih =>
      intro recovered hok
      obtain ⟨first, hlog, hsettled⟩ := F.settled_low hfirst
      obtain ⟨rest, hlogRest, hsettledRest⟩ := ih recovered hok
      exact ⟨first ++ rest, by rw [hlogRest, hlog, List.append_assoc], hsettled.append F hsettledRest⟩
  | @swept i count w u v r address wei txHash haddr hfirst hrest ih =>
      intro recovered hok
      cases r with
      | error e => cases hok
      | ok later =>
          obtain rfl := Except.ok.inj hok
          obtain ⟨first, hlog, hsettled⟩ := F.settled_swept haddr hfirst
          obtain ⟨rest, hlogRest, hsettledRest⟩ := ih later rfl
          exact ⟨first ++ rest, by rw [hlogRest, hlog, List.append_assoc],
            hsettled.append F hsettledRest⟩

end Fate

/-! ## The whole recovery -/

/-- Positive amounts lose nothing in a filter exactly when it keeps them all. -/
theorem sum_filter_eq_sum {α : Type} {p : α → Bool} {f : α → ℤ} {l : List α}
    (hpos : ∀ x ∈ l, 0 < f x) : ((l.filter p).map f).sum ≤ (l.map f).sum ∧
      (((l.filter p).map f).sum = (l.map f).sum → ∀ x ∈ l, p x = true) := by
  induction l with
  | nil => simp
  | cons x l ih =>
      obtain ⟨hle, heq⟩ := ih fun y hy => hpos y (List.mem_cons_of_mem x hy)
      have hx := hpos x List.mem_cons_self
      cases hp : p x with
      | true =>
          simp only [List.filter_cons, hp, if_true, List.map_cons, List.sum_cons]
          refine ⟨by omega, fun h y hy => ?_⟩
          rcases List.mem_cons.mp hy with rfl | hy
          · exact hp
          · exact heq (by omega) y hy
      | false =>
          simp only [List.filter_cons, hp, Bool.false_eq_true, if_false, List.map_cons, List.sum_cons]
          exact ⟨by omega, fun h => by omega⟩

/-- Behind a scan that could be read, the replies of the wait and the hashes count. -/
theorem forall_sound_iff {wait : Bool} {recovered : List RecoveredAccount}
    {new late : List (Exchange σ HostReply)} (hnone : ∀ y ∈ new, ¬ Faulty y)
    (hhashes : new.filterMap sentHash = recovered.map RecoveredAccount.txHash)
    (hidle : ∀ y ∈ late, Idle y.query) :
    (∀ y ∈ new ++ late, Sound wait y) ↔
      (∀ y ∈ late, ¬ Faulty y) ∧ (wait = true → ∀ r ∈ recovered, r.txHash.hashable = true) := by
  constructor
  · intro hsound
    refine ⟨fun y hy => (hsound y (List.mem_append_right new hy)).1, ?_⟩
    intro hwait r hr
    have hmem : r.txHash ∈ new.filterMap sentHash := by
      rw [hhashes]
      exact List.mem_map_of_mem hr
    obtain ⟨y, hy, hhash⟩ := List.mem_filterMap.mp hmem
    exact (hsound y (List.mem_append_left late hy)).2 hwait _ hhash
  · rintro ⟨hlate, hhashable⟩ y hy
    rcases List.mem_append.mp hy with hy | hy
    · refine ⟨hnone y hy, fun hwait hash hhash => ?_⟩
      have hmem : hash ∈ recovered.map RecoveredAccount.txHash := by
        rw [← hhashes]
        exact List.mem_filterMap.mpr ⟨y, hy, hhash⟩
      obtain ⟨r, hr, rfl⟩ := List.mem_map.mp hmem
      exact hhashable hwait r hr
    · refine ⟨hlate y hy, fun _ hash hhash => ?_⟩
      rw [sentHash_of_idle (hidle y hy)] at hhash
      cases hhash

variable (F : Fate peer eest target)

/-- What a recovery that raises and one that returns leave behind. -/
theorem recoverFundedEoas_settled (C : Clock peer) {eoaStart : ℤ} {count fuel : ℕ}
    (hkeys : Keys eest target eoaStart count) (hcounting : Counting peer target)
    (hfuel : 46 ≤ fuel) (wait : Bool) (w : HostWorld σ) :
    ∃ new, (recoverFundedEoas peer eest target eoaStart fuel count wait w).2.log = w.log ++ new ∧
      ((∃ e, (recoverFundedEoas peer eest target eoaStart fuel count wait w).1 = .error e) ↔
        ¬ ∀ y ∈ new, Sound wait y) ∧
      ∀ recovered, (recoverFundedEoas peer eest target eoaStart fuel count wait w).1 =
        .ok recovered → F.Settled recovered new := by
  rcases recoverFundedEoas_cases peer eest target eoaStart fuel count wait w with
    ⟨e, u, hscan, hrun⟩ | ⟨recovered, u, hscan, hrun⟩
  · obtain ⟨new, hlog, hiff⟩ := hscan.faults hkeys hcounting (by omega)
    obtain ⟨y, hy, hfault⟩ := hiff.mp ⟨e, rfl⟩
    rw [hrun]
    exact ⟨new, hlog, iff_of_true ⟨e, rfl⟩ fun hsound => (hsound y hy).1 hfault,
      fun recovered hok => by cases hok⟩
  · obtain ⟨new, hlog, hiff⟩ := hscan.faults hkeys hcounting (by omega)
    obtain ⟨new', hlog', hsettled⟩ := F.settled_range hscan recovered rfl
    obtain rfl : new = new' := List.append_cancel_left (hlog.symm.trans hlog')
    obtain ⟨late, hlate, hfaults⟩ := await_faults target C hfuel wait recovered u
    obtain ⟨late', hlate', hidle⟩ := await_log fuel wait recovered u
    obtain rfl : late = late' := List.append_cancel_left (hlate.symm.trans hlate')
    rw [hrun]
    refine ⟨new ++ late, by rw [hlate, hlog, List.append_assoc], ?_, ?_⟩
    · have hnone : ∀ y ∈ new, ¬ Faulty y := by simpa using hiff
      rw [hfaults, forall_sound_iff hnone hsettled.hashes hidle]
      simp only [not_and_or, not_forall, not_not, exists_prop, Bool.not_eq_true]
    · intro l hok
      rcases hend : await peer target fuel wait recovered u with ⟨r, v⟩
      rw [hend] at hok
      obtain rfl : r = .ok l := hok
      obtain rfl := await_ok hend
      simpa using hsettled.append F (F.settled_of_idle hidle)

/-- Nothing is reported by a recovery that raises, so nothing may have been accepted. -/
theorem truthful_error_iff {e : PyError} {s : σ} {new : List (Exchange σ HostReply)} :
    F.Truthful (.error e) s new ↔ F.acceptedSweeps new = [] := by
  constructor
  · intro htrue
    apply List.eq_nil_iff_forall_not_mem.mpr
    intro sweep hsweep
    exact List.not_mem_nil (htrue.names sweep hsweep)
  · intro hnone
    refine ⟨fun sweep hsweep => ?_, ?_⟩
    · rw [hnone] at hsweep
      exact absurd hsweep List.not_mem_nil
    · rw [hnone]
      rfl

/-- Everything accepted is reported by a recovery that returns, as if it were credited. -/
theorem truthful_ok_iff {recovered : List RecoveredAccount} {s : σ}
    {new : List (Exchange σ HostReply)} (h : F.Settled recovered new) :
    F.Truthful (.ok recovered) s new ↔
      ∀ sweep ∈ F.acceptedSweeps new, F.credits s sweep.raw = true := by
  have hsum : (recovered.map RecoveredAccount.sweptWei).sum =
      ((F.acceptedSweeps new).map AcceptedSweep.wei).sum := by
    have hwei := congrArg (List.map Prod.snd) h.accepted
    rw [List.map_map, List.map_map] at hwei
    exact (congrArg List.sum hwei).symm
  constructor
  · intro htrue
    exact (sum_filter_eq_sum h.positive).2 (htrue.sums.symm.trans hsum)
  · intro hcredits
    refine ⟨fun sweep hsweep => ?_, ?_⟩
    · have haddress := congrArg (List.map Prod.fst) h.accepted
      rw [List.map_map, List.map_map] at haddress
      exact haddress ▸ List.mem_map_of_mem (f := AcceptedSweep.address) hsweep
    · rw [List.filter_eq_self.mpr hcredits]
      exact hsum

/-- The report of a recovery is true exactly when no sweep was accepted, or every reply could
be read and every accepted sweep was credited by the end. -/
theorem recover_truthful_iff (C : Clock peer) {eoaStart : ℤ} {count fuel : ℕ}
    (hkeys : Keys eest target eoaStart count) (hcounting : Counting peer target)
    (hfuel : 46 ≤ fuel) (wait : Bool) (w : HostWorld σ) :
    F.Truthful (recoverFundedEoas peer eest target eoaStart fuel count wait w).1
        (recoverFundedEoas peer eest target eoaStart fuel count wait w).2.state
        (asked (recoverFundedEoas peer eest target eoaStart fuel count wait) w) ↔
      F.acceptedSweeps (asked (recoverFundedEoas peer eest target eoaStart fuel count wait) w) =
          [] ∨
        (∀ y ∈ asked (recoverFundedEoas peer eest target eoaStart fuel count wait) w,
          Sound wait y) ∧
        ∀ sweep ∈ F.acceptedSweeps
            (asked (recoverFundedEoas peer eest target eoaStart fuel count wait) w),
          F.credits (recoverFundedEoas peer eest target eoaStart fuel count wait w).2.state
            sweep.raw = true := by
  obtain ⟨new, hlog, hraise, hreturn⟩ :=
    recoverFundedEoas_settled F C hkeys hcounting hfuel wait w
  rw [asked_eq hlog]
  rcases hrun : recoverFundedEoas peer eest target eoaStart fuel count wait w with ⟨r, u⟩
  rw [hrun] at hraise hreturn
  cases r with
  | error e =>
      have hunsound : ¬ ∀ y ∈ new, Sound wait y := hraise.mp ⟨e, rfl⟩
      rw [truthful_error_iff]
      constructor
      · exact fun hnone => .inl hnone
      · rintro (hnone | ⟨hsound, -⟩)
        · exact hnone
        · exact absurd hsound hunsound
  | ok recovered =>
      have hsound : ∀ y ∈ new, Sound wait y := by
        by_contra hunsound
        obtain ⟨e, he⟩ := hraise.mpr hunsound
        cases he
      rw [truthful_ok_iff F (hreturn recovered rfl)]
      constructor
      · exact fun hcredits => .inr ⟨hsound, hcredits⟩
      · rintro (hnone | ⟨-, hcredits⟩)
        · intro sweep hsweep
          rw [hnone] at hsweep
          exact absurd hsweep List.not_mem_nil
        · exact hcredits

/-! ## An accepted sweep before a failing lookup -/

/-- A node that reports no balance for the second account, and accepts every sweep. -/
def firstOnly : Peer Unit HostReply where
  answer _ q :=
    (match q with
      | .post _ "eth_getBalance" [.str address, .str "latest"] _ =>
        .ok (if address = "first" then .obj [("result", .str "0x520a")]
          else .obj [("error", .str "header not found")])
      | .post _ "eth_getTransactionCount" _ _ => .ok (.obj [("result", .str "0x0")])
      | .post _ _ _ _ => .ok (.obj [("result", .str "0x01")])
      | .time => .ok (0 : ℚ)
      | _ => .error ⟨.osError, "unavailable"⟩, ())

def firstOnlyFate : Fate firstOnly pairEest pairTarget where
  accepts _ _ := true
  credits _ _ := true
  decode raw := some (if '1' ∈ raw.toList then "first" else "second", raw.toList.count 'v')
  accepts_of_hash _ _ _ _ := rfl
  decodes _ _ _ _ _ haddr hsigned := by
    obtain ⟨hsender, -, hwei⟩ := pairEest_signed haddr hsigned
    rw [hsender, hwei]

def firstOnlyClock : Clock firstOnly where
  now _ := 0
  mono _ _ := le_refl _
  time _ t h := by
    obtain rfl : 0 = t := Except.ok.inj h
    exact ⟨le_refl _, le_refl _⟩
  sleep _ _ h := by cases h

theorem firstOnly_counting : Counting firstOnly pairTarget :=
  fun _ _ _ h => (Except.ok.inj h).le

theorem recover_truthful_iff_firstOnly :
    firstOnlyFate.Truthful (recoverFundedEoas firstOnly pairEest pairTarget 1 46 2 true ⟨(), []⟩).1
        (recoverFundedEoas firstOnly pairEest pairTarget 1 46 2 true ⟨(), []⟩).2.state
        (asked (recoverFundedEoas firstOnly pairEest pairTarget 1 46 2 true) ⟨(), []⟩) ↔
      firstOnlyFate.acceptedSweeps
          (asked (recoverFundedEoas firstOnly pairEest pairTarget 1 46 2 true) ⟨(), []⟩) = [] ∨
        (∀ y ∈ asked (recoverFundedEoas firstOnly pairEest pairTarget 1 46 2 true) ⟨(), []⟩,
          Sound true y) ∧
        ∀ sweep ∈ firstOnlyFate.acceptedSweeps
            (asked (recoverFundedEoas firstOnly pairEest pairTarget 1 46 2 true) ⟨(), []⟩),
          firstOnlyFate.credits
            (recoverFundedEoas firstOnly pairEest pairTarget 1 46 2 true ⟨(), []⟩).2.state
            sweep.raw = true :=
  recover_truthful_iff firstOnlyFate firstOnlyClock (pairEest_keys pairTarget) firstOnly_counting
    (Nat.le_refl 46) true ⟨(), []⟩

/-- The sweep of the first account was accepted and credited, and the caller is told nothing. -/
theorem untruthful_firstOnly :
    ¬ firstOnlyFate.Truthful
        (recoverFundedEoas firstOnly pairEest pairTarget 1 46 2 true ⟨(), []⟩).1
        (recoverFundedEoas firstOnly pairEest pairTarget 1 46 2 true ⟨(), []⟩).2.state
        (asked (recoverFundedEoas firstOnly pairEest pairTarget 1 46 2 true) ⟨(), []⟩) := by
  intro htrue
  have haccepted : (⟨"first", 2, "0x1vv"⟩ : AcceptedSweep) ∈ firstOnlyFate.acceptedSweeps
      (asked (recoverFundedEoas firstOnly pairEest pairTarget 1 46 2 true) ⟨(), []⟩) := by
    decide
  exact absurd (htrue.names _ haccepted) (by decide)

end EestReplay.Sweep
