import EestReplay.Verification.Submit.Sidecar

/-! # The pre-flight

A run reads the balance of its seed before anything else. It refuses to start `execute` on a
balance below the floor, and goes on without a balance when the lookup raises. -/

namespace EestReplay.Export

open Dialogue

section

variable {σ : Type} (peer : Peer σ HostReply) (eest : Eest)

/-- The world in which the pre-flight looks the balance up. -/
def preflightWorld (args : SubmitArgs) (w : HostWorld σ) : HostWorld σ :=
  (chooseEoaStart peer args w).2

/-- What the lookup of the pre-flight returns or raises. -/
def preflight (args : SubmitArgs) (w : HostWorld σ) : Except PyError ℤ := do
  let seedAddr ← addressFromKey eest args.seedKey
  (Sweep.getBalance peer args.rpcUrl seedAddr (preflightWorld peer args w)).1

/-- A run that starts `execute`. -/
def Starts (args : SubmitArgs) (w : HostWorld σ) : Prop :=
  ∃ x ∈ asked (submitTransactions peer eest args) w, ∃ cmd cwd, x.query = .popen cmd cwd

/-- A run that starts no process and changes no file. -/
def Untouched (args : SubmitArgs) (w : HostWorld σ) : Prop :=
  ∀ x ∈ asked (submitTransactions peer eest args) w, Inert x.query

/-- How a run gets through its pre-flight. -/
inductive Preflight (args : SubmitArgs) (w : HostWorld σ) : Prop where
  | stopped (e : PyError) (huntouched : Untouched peer eest args w)
      (hresult : (submitTransactions peer eest args w).1 = .error e)
  | refused (b floor : ℤ) (seedAddr : String) (hfloor : args.minSeedBalanceWei = some floor)
      (hbalance : preflight peer eest args w = .ok b) (hlt : b < floor)
      (huntouched : Untouched peer eest args w)
      (hresult : (submitTransactions peer eest args w).1 =
        .ok (abortedResult eest args seedAddr b floor))
  | passed (b : ℤ) (hbalance : preflight peer eest args w = .ok b)
      (hfloor : ∀ floor, args.minSeedBalanceWei = some floor → floor ≤ b)
  | unknown (e : PyError) (hbalance : preflight peer eest args w = .error e)
      (he : e.isException = true)

end

variable {σ : Type} {peer : Peer σ HostReply} {eest : Eest}

theorem Untouched.not_starts {args : SubmitArgs} {w : HostWorld σ}
    (h : Untouched peer eest args w) : ¬ Starts peer eest args w := by
  rintro ⟨x, hx, cmd, cwd, hquery⟩
  exact (h x hx).2 cmd cwd hquery

/-- A run that ends where inert calls lead touches nothing. -/
theorem untouched_of_reach {args : SubmitArgs} {w u : HostWorld σ}
    {r : Except PyError SubmitResult} (hrun : submitTransactions peer eest args w = (r, u))
    (hreach : Reach peer Inert w u) : Untouched peer eest args w := by
  obtain ⟨new, hlog, hnew⟩ := hreach.log_eq
  have hasked : asked (submitTransactions peer eest args) w = new :=
    asked_eq (by rw [hrun]; exact hlog)
  intro x hx
  rw [hasked] at hx
  exact hnew x hx

/-- The rest of a run, once the balance is read or not. -/
def afterBalance (peer : Peer σ HostReply) (eest : Eest) (args : SubmitArgs)
    (seedAddr eoaStart : String) (before : Option ℤ) : Command σ SubmitResult :=
  if belowFloor args before then
    return abortedResult eest args seedAddr (before.getD 0) (args.minSeedBalanceWei.getD 0)
  else launch peer eest args seedAddr eoaStart before

theorem submitTransactions_of_addr {args : SubmitArgs} {seedAddr eoaStart : String}
    {w u : HostWorld σ} (hchoose : chooseEoaStart peer args w = (.ok eoaStart, u))
    (haddr : addressFromKey eest args.seedKey = .ok seedAddr) :
    submitTransactions peer eest args w =
      (attempt (Sweep.getBalance peer args.rpcUrl seedAddr) >>=
        afterBalance peer eest args seedAddr eoaStart) u := by
  unfold submitTransactions
  rw [bind_of_ok hchoose, haddr]
  rfl

/-- A balance goes against the floor, if there is one. -/
theorem belowFloor_eq_false {args : SubmitArgs} {b : ℤ} (h : belowFloor args (some b) = false) :
    ∀ floor, args.minSeedBalanceWei = some floor → floor ≤ b := by
  intro floor hfloor
  simpa [belowFloor, hfloor] using h

theorem belowFloor_eq_true {args : SubmitArgs} {b : ℤ} (h : belowFloor args (some b) = true) :
    ∃ floor, args.minSeedBalanceWei = some floor ∧ b < floor := by
  unfold belowFloor at h
  cases hfloor : args.minSeedBalanceWei with
  | none => simp [hfloor] at h
  | some floor => exact ⟨floor, rfl, by simpa [hfloor] using h⟩

variable (peer eest) in
theorem submitTransactions_preflight (args : SubmitArgs) (w : HostWorld σ) :
    Preflight peer eest args w := by
  have hchosen : Reach peer Inert w (chooseEoaStart peer args w).2 := asks_chooseEoaStart w
  rcases hchoose : chooseEoaStart peer args w with ⟨start, u⟩
  rw [hchoose] at hchosen
  cases start with
  | error e =>
      have hrun : submitTransactions peer eest args w = (.error e, u) := bind_of_error hchoose
      exact .stopped e (untouched_of_reach hrun hchosen) (congrArg Prod.fst hrun)
  | ok eoaStart =>
      cases haddr : addressFromKey eest args.seedKey with
      | error e =>
          have hrun : submitTransactions peer eest args w = (.error e, u) := by
            unfold submitTransactions
            rw [bind_of_ok hchoose, haddr]
            rfl
          exact .stopped e (untouched_of_reach hrun hchosen) (congrArg Prod.fst hrun)
      | ok seedAddr =>
          have hrun := submitTransactions_of_addr hchoose haddr
          have hworld : preflightWorld peer args w = u := congrArg Prod.snd hchoose
          have hlookup : Reach peer Inert u (Sweep.getBalance peer args.rpcUrl seedAddr u).2 :=
            asks_getBalance args.rpcUrl seedAddr u
          have hbalance : preflight peer eest args w =
              (Sweep.getBalance peer args.rpcUrl seedAddr u).1 := by
            unfold preflight
            rw [haddr, hworld]
            rfl
          rcases hread : Sweep.getBalance peer args.rpcUrl seedAddr u with ⟨r, v⟩
          rw [hread] at hlookup hbalance
          have hreach : Reach peer Inert w v := hchosen.trans hlookup
          cases r with
          | error e =>
              by_cases he : e.isException = true
              · exact .unknown e hbalance he
              · rw [bind_of_error (by rw [attempt_of_error hread, if_neg he])] at hrun
                exact .stopped e (untouched_of_reach hrun hreach) (congrArg Prod.fst hrun)
          | ok b =>
              cases hfloor : belowFloor args (some b) with
              | false => exact .passed b hbalance (belowFloor_eq_false hfloor)
              | true =>
                  obtain ⟨floor, hsome, hlt⟩ := belowFloor_eq_true hfloor
                  rw [bind_of_ok (attempt_of_ok hread), afterBalance, hfloor, hsome] at hrun
                  exact .refused b floor seedAddr hsome hbalance hlt
                    (untouched_of_reach hrun hreach) (congrArg Prod.fst hrun)

/-! ## The floor -/

/-- What the floor guards: a run that starts `execute` has read a balance that is no lower, or
could not read one; a balance below it ends the run before anything is touched. -/
structure GuardsSpend (peer : Peer σ HostReply) (eest : Eest) (args : SubmitArgs) (floor : ℤ)
    (w : HostWorld σ) : Prop where
  started : Starts peer eest args w →
    (∃ b, preflight peer eest args w = .ok b ∧ floor ≤ b) ∨
      ∃ e, preflight peer eest args w = .error e ∧ e.isException = true
  refused : ∀ b, preflight peer eest args w = .ok b → b < floor →
    Untouched peer eest args w ∧ ¬ Starts peer eest args w ∧
      ∀ result, (submitTransactions peer eest args w).1 = .ok result →
        ∃ seedAddr, result = abortedResult eest args seedAddr b floor

theorem floor_guards (peer : Peer σ HostReply) (eest : Eest) (args : SubmitArgs) (floor : ℤ)
    (w : HostWorld σ) (hfloor : args.minSeedBalanceWei = some floor) :
    GuardsSpend peer eest args floor w := by
  cases submitTransactions_preflight peer eest args w with
  | stopped e huntouched hresult =>
      refine ⟨fun hstarts => absurd hstarts huntouched.not_starts, ?_⟩
      intro b hbalance hlt
      refine ⟨huntouched, huntouched.not_starts, ?_⟩
      intro result hok
      rw [hresult] at hok
      cases hok
  | refused b floor' seedAddr hfloor' hbalance hlt huntouched hresult =>
      obtain rfl := Option.some.inj (hfloor.symm.trans hfloor')
      refine ⟨fun hstarts => absurd hstarts huntouched.not_starts, ?_⟩
      intro b' hbalance' hlt'
      obtain rfl := Except.ok.inj (hbalance.symm.trans hbalance')
      refine ⟨huntouched, huntouched.not_starts, ?_⟩
      intro result hok
      exact ⟨seedAddr, (Except.ok.inj (hresult.symm.trans hok)).symm⟩
  | passed b hbalance hpassed =>
      refine ⟨fun _ => .inl ⟨b, hbalance, hpassed floor hfloor⟩, ?_⟩
      intro b' hbalance' hlt
      obtain rfl := Except.ok.inj (hbalance.symm.trans hbalance')
      have hle := hpassed floor hfloor
      omega
  | unknown e hbalance he =>
      refine ⟨fun _ => .inr ⟨e, hbalance, he⟩, ?_⟩
      intro b hok
      rw [hbalance] at hok
      cases hok

/-- A host on which `execute` passes, with a node that has this answer to every call. -/
def answering (reply : Except PyError Json) : Peer ℤ HostReply where
  answer s q :=
    (match q with
      | .randbits k => .ok ⟨0, Nat.two_pow_pos k⟩
      | .post _ _ _ _ => reply
      | .popen _ _ => .ok ()
      | .communicate _ => .ok { returncode := 0 }
      | _ => .error ⟨.osError, "unavailable"⟩, s)

def flooredArgs : SubmitArgs := { bareArgs with minSeedBalanceWei := some 1 }

theorem floor_guards_empty :
    GuardsSpend (answering (.ok (.obj [("result", .str "0x0")]))) plainEest flooredArgs 1 ⟨0, []⟩ :=
  floor_guards (answering (.ok (.obj [("result", .str "0x0")]))) plainEest flooredArgs 1 ⟨0, []⟩ rfl

/-- The state is the balance of the seed, which the node does not report: `execute` starts on
an empty seed. -/
theorem starts_below_floor :
    Starts (answering (.ok (.obj [("error", .str "header not found")]))) plainEest flooredArgs
        ⟨0, []⟩ ∧
      flooredArgs.minSeedBalanceWei = some 1 ∧
      (preflightWorld (answering (.ok (.obj [("error", .str "header not found")]))) flooredArgs
        ⟨0, []⟩).state < 1 := by
  refine ⟨⟨_, List.mem_of_getElem? (i := 1) rfl, _, _, rfl⟩, rfl, ?_⟩
  decide

end EestReplay.Export
