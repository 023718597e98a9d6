import EestReplay.Verification.Recover.Sweep
import EestReplay.Verification.Submit.Survival
import EestReplay.Verification.Text.Numerals

/-! # Submit, then recover

The sidecar is the only channel between the two commands. It carries the start that
`execute` got, and `recover` scans the keys from it on. -/

namespace EestReplay.Recover

open Dialogue Export

variable {σ τ : Type} {peer : Peer σ HostReply} {peer' : Peer τ HostReply} {eest : Eest}

/-! ## One start for the sidecar and the subprocess -/

/-- A call of a run from `eoaStart`: what it writes into a sidecar and what it starts
`execute` with agree on the start. -/
structure Consistent (eoaStart : String) (q : HostCall) : Prop where
  writes : ∀ path text, q = .writeText path text →
    text.item "eoa_start" = .ok (.str eoaStart)
  starts : ∀ cmd cwd, q = .popen cmd cwd → eoaStartOf cmd = some eoaStart

theorem consistent_of_startsFrom {eoaStart : String} {q : HostCall} (h : StartsFrom eoaStart q) :
    Consistent eoaStart q :=
  ⟨fun path text he => absurd he (h.1 path text), h.2⟩

theorem asks_writeRecoveryMeta (metaPath csvPath : Option Path) (seedAddr eoaStart : String)
    (chainId : ℤ) (fork rpcUrl : String) :
    Asks peer (Consistent eoaStart) (writeRecoveryMeta peer metaPath csvPath
      (recoveryMeta seedAddr eoaStart chainId fork rpcUrl)) := by
  apply Asks.bind (Asks.lift _)
  intro target
  cases target with
  | none => exact Asks.pure _
  | some path =>
      have hmkdir : Consistent eoaStart (.mkdir path.parent) := ⟨by simp, by simp⟩
      have hwrite : Consistent eoaStart
          (.writeText path (recoveryMeta seedAddr eoaStart chainId fork rpcUrl)) := by
        refine ⟨?_, by simp⟩
        rintro other text he
        obtain ⟨-, rfl⟩ := HostCall.writeText.inj he
        rfl
      exact Asks.bind (Asks.call hmkdir) fun _ => (Asks.call hwrite).bind fun _ => Asks.pure _

/-- A random start is a decimal numeral. -/
theorem chooseEoaStart_int {args : SubmitArgs} {eoaStart : String} {w u : HostWorld σ}
    (hrun : chooseEoaStart peer args w = (.ok eoaStart, u)) (hnone : args.eoaStart = none) :
    ∃ k, Text.int 10 eoaStart = .ok k := by
  unfold chooseEoaStart randomEoaStart at hrun
  rw [hnone] at hrun
  obtain ⟨bits, v, -, hend⟩ := bind_eq_ok.mp hrun
  obtain ⟨hstart, -⟩ := Prod.mk.inj hend
  obtain rfl := Except.ok.inj hstart
  have hbits : (bits : Fin (2 ^ 240)).val < 2 ^ 240 := (bits : Fin (2 ^ 240)).isLt
  have hpow : (2 : ℕ) ^ 240 + 2 ^ 16 < 10 ^ 73 := by norm_num
  have hmono : (10 : ℕ) ^ 73 ≤ 10 ^ Text.maxDigits := Nat.pow_le_pow_right (by omega) (by decide)
  exact ⟨_, Text.int_toString (by omega)⟩

/-- Whatever a run writes and starts, it does from one start, and a start that it chose
itself is a decimal numeral. -/
theorem submitTransactions_consistent (args : SubmitArgs) (w : HostWorld σ) :
    ∃ eoaStart new, (submitTransactions peer eest args w).2.log = w.log ++ new ∧
      (∀ x ∈ new, Consistent eoaStart x.query) ∧
      (args.eoaStart = none → ∃ k, Text.int 10 eoaStart = .ok k) := by
  have hinert : ∀ {eoaStart : String} (q : HostCall), Inert q → Consistent eoaStart q :=
    fun q hq => consistent_of_startsFrom (hq.startsFrom _)
  have hchoose : Asks peer Inert (chooseEoaStart peer args) := asks_chooseEoaStart
  obtain ⟨early, hearly, hquiet⟩ := (hchoose w).log_eq
  unfold submitTransactions
  rw [bind_apply]
  rcases hrun : chooseEoaStart peer args w with ⟨r, u⟩
  rw [hrun] at hearly
  cases r with
  | error e => exact ⟨"0", early, hearly, fun x hx => hinert _ (hquiet x hx), fun _ => ⟨0, rfl⟩⟩
  | ok eoaStart =>
      have hrest : Asks peer (Consistent eoaStart) (do
          let seedAddr ← lift (addressFromKey eest args.seedKey)
          let before ← attempt (Sweep.getBalance peer args.rpcUrl seedAddr)
          if belowFloor args before then
            return abortedResult eest args seedAddr (before.getD 0) (args.minSeedBalanceWei.getD 0)
          else launch peer eest args seedAddr eoaStart before : Command σ SubmitResult) := by
        apply Asks.bind (Asks.lift _)
        intro seedAddr
        apply Asks.bind ((asks_attempt (asks_getBalance _ _)).mono hinert)
        intro before
        split
        · exact Asks.pure _
        · rw [launch_eq]
          apply Asks.bind (asks_writeRecoveryMeta _ _ _ _ _ _ _)
          exact fun written => (asks_afterSidecar _ _ _ _ written).mono
            fun q hq => consistent_of_startsFrom hq
      obtain ⟨late, hlate, hconsistent⟩ := (hrest u).log_eq
      refine ⟨eoaStart, early ++ late, ?_, ?_, chooseEoaStart_int hrun⟩
      · rw [← List.append_assoc, ← hearly]
        exact hlate
      · intro x hx
        rcases List.mem_append.mp hx with hx | hx
        · exact hinert _ (hquiet x hx)
        · exact hconsistent x hx

/-! ## The scan of a recovery -/

/-- With a sidecar, the command scans the keys from the start that it records. -/
theorem recoverCmd_scan {options : Options} {sidecar : Path} {text : Json} {start : String} {k : ℤ}
    (hkey : options.key = none) (hoption : options.eoaStart = none)
    (hsidecar : options.sidecar = some sidecar)
    (htext : text.item "eoa_start" = .ok (.str start)) (hint : Text.int 10 start = .ok k)
    (haccept : Sweep.Accepting peer' eest options.target) (fuel : ℕ) (w : HostWorld τ)
    (hread : (peer'.answer w.state (.readText sidecar)).1 = .ok text) :
    ∃ accounts new, (recoverCmd peer' eest options fuel w).2.log = w.log ++ new ∧
      Sweep.Scan eest options.target k 0 options.count accounts new := by
  let read : Exchange τ HostReply := ⟨w.state, .readText sidecar, .ok text⟩
  let w₁ := w.step peer' (.readText sidecar)
  have hlog₁ : w₁.log = w.log ++ [read] := by
    rw [World.step_log, hread]
  have hstart : startValue peer' options w = (.ok (.str start), w₁) := by
    unfold startValue
    rw [hoption, hsidecar]
    show (call peer' (.readText sidecar) >>= fun recorded =>
      lift (Json.item "eoa_start" recorded)) w = _
    rw [bind_apply, call_apply, hread]
    show lift (Json.item "eoa_start" text) w₁ = _
    rw [htext, lift_apply]
  obtain ⟨accounts, new, hlog, hscan⟩ :=
    Sweep.recoverFundedEoas_scan haccept k fuel options.count true w₁
  have hrun : (recoverCmd peer' eest options fuel w).2 =
      (Sweep.recoverFundedEoas peer' eest options.target k fuel options.count true w₁).2 := by
    unfold recoverCmd
    rw [hkey]
    dsimp only
    rw [bind_apply, hstart]
    show ((lift (Text.int 10 start) >>= fun eoaStart =>
      Sweep.recoverFundedEoas peer' eest options.target eoaStart fuel options.count >>=
        fun recovered => pure (.range recovered) : Command τ Report) w₁).2 = _
    rw [bind_apply, hint, lift_apply]
    dsimp only
    rw [bind_apply]
    rcases Sweep.recoverFundedEoas peer' eest options.target k fuel options.count true w₁
      with ⟨r, u⟩
    cases r <;> rfl
  have hidle : Sweep.Idle read.query := Sweep.idle_of_ne_post (by simp [read])
  refine ⟨accounts, [read] ++ (new ++ []), ?_, ?_⟩
  · rw [hrun, hlog, hlog₁]
    simp
  · refine hscan.idle ?_ (by simp)
    intro x hx
    obtain rfl := List.mem_singleton.mp hx
    exact hidle

/-! ## Both commands -/

/-- A run that wrote a sidecar and started `execute`, and a later recovery from what the
sidecar holds: the recovery scans the keys of the run, from the first one on. It reaches
every key of the run below the count, and submits a sweep for exactly those of the keys it
reached that hold more than the reserve. -/
theorem recover_reclaims {args : SubmitArgs} {w : HostWorld σ} {x y : Exchange σ HostReply}
    {path sidecar cwd : Path} {text : Json} {cmd : List String} {options : Options}
    (hx : x ∈ (submitTransactions peer eest args w).2.log.drop w.log.length)
    (hwrote : x.query = .writeText path text)
    (hy : y ∈ (submitTransactions peer eest args w).2.log.drop w.log.length)
    (hstarted : y.query = .popen cmd cwd)
    (hkey : options.key = none) (hoption : options.eoaStart = none)
    (hsidecar : options.sidecar = some sidecar)
    (haccept : Sweep.Accepting peer' eest options.target) (fuel : ℕ) (w' : HostWorld τ)
    (hread : (peer'.answer w'.state (.readText sidecar)).1 = .ok text) :
    ∃ eoaStart, eoaStartOf cmd = some eoaStart ∧
      (args.eoaStart = none → ∃ k, Text.int 10 eoaStart = .ok k) ∧
      ∀ k, Text.int 10 eoaStart = .ok k → ∃ accounts new,
        (recoverCmd peer' eest options fuel w').2.log = w'.log ++ new ∧
        Sweep.Scan eest options.target k 0 options.count accounts new ∧
        ∀ n ≤ options.count, (∀ i < n, ∃ address, eest.eoa (k + i) = .ok address) →
          n ≤ accounts.length := by
  obtain ⟨eoaStart, own, hlog, hconsistent, hrandom⟩ :
      ∃ eoaStart new, (submitTransactions peer eest args w).2.log = w.log ++ new ∧
        (∀ x ∈ new, Consistent eoaStart x.query) ∧
        (args.eoaStart = none → ∃ k, Text.int 10 eoaStart = .ok k) :=
    submitTransactions_consistent args w
  rw [hlog, List.drop_left] at hx hy
  have htext := (hconsistent x hx).writes path text hwrote
  refine ⟨eoaStart, (hconsistent y hy).starts cmd cwd hstarted, hrandom, ?_⟩
  intro k hint
  obtain ⟨accounts, new, hnew, hscan⟩ :=
    recoverCmd_scan hkey hoption hsidecar htext hint haccept fuel w' hread
  refine ⟨accounts, new, hnew, hscan, ?_⟩
  intro n hn haddresses
  by_contra hshort
  obtain ⟨e, he⟩ := hscan.stops (by omega)
  obtain ⟨address, haddr⟩ := haddresses accounts.length (by omega)
  rw [Nat.zero_add, haddr] at he
  cases he

/-- A framework that prints a key as its address. A signed transaction shows its sender, its
nonce and its value. -/
def derivedEest : Eest :=
  { plainEest with
    eoa := fun key =>
      if 0 < key then .ok (toString key) else .error ⟨.valueError, "invalid private key"⟩
    signed := fun tx =>
      if 0 ≤ tx.nonce ∧ 0 < tx.value then
        .ok (toString tx.sender ++ "n" ++ toString tx.nonce ++ "v" ++ toString tx.value)
      else .error ⟨.valueError, "not serializable"⟩ }

/-- A node that accepts everything. One account holds a balance. -/
def node (text : Json) (rich : String) : Peer Unit HostReply where
  answer _ q :=
    (match q with
      | .readText _ => .ok text
      | .post _ "eth_getBalance" [.str address, .str "latest"] _ =>
        .ok (.obj [("result", .str (if address = rich then "0xffffffffffffffff" else "0x0"))])
      | .post _ "eth_getTransactionCount" _ _ => .ok (.obj [("result", .str "0x0")])
      | .post _ _ _ _ => .ok (.obj [("result", .str "0x01")])
      | .time => .ok (0 : ℚ)
      | .sleep _ => .ok ()
      | _ => .error ⟨.osError, "unavailable"⟩, ())

theorem node_accepting (text : Json) (rich : String) (target : Sweep.Target) :
    Sweep.Accepting (node text rich) derivedEest target where
  balance := by
    rintro s key address -
    by_cases h : address = rich
    · exact ⟨.obj [("result", .str "0xffffffffffffffff")], 2 ^ 64 - 1, by
        simp [node, Sweep.balanceCall, h], by decide⟩
    · exact ⟨.obj [("result", .str "0x0")], 0, by simp [node, Sweep.balanceCall, h], by decide⟩
  nonce _ _ _ _ := ⟨_, 0, rfl, by decide, by decide⟩
  signs _ _ _ _ _ hn hwei := ⟨_, if_pos ⟨hn, hwei⟩⟩
  accepts _ _ _ _ _ _ _ _ _ _ := ⟨_, _, rfl, by decide, rfl⟩

def sidecarOptions : Options where
  rpcUrl := "http://127.0.0.1:8545"
  toAddr := "0x0000000000000000000000000000000000000001"
  chainId := 7928
  sidecar := some ⟨"", ["out", "a.recovery.json"]⟩

/-- A run that starts from "1". -/
def firstRun : SubmitArgs := { csvRun "a.csv" "1" with seedKey := "0x01" }

theorem recover_reclaims_firstRun :
    ∃ text cmd eoaStart, eoaStartOf cmd = some eoaStart ∧
      (firstRun.eoaStart = none → ∃ k, Text.int 10 eoaStart = .ok k) ∧
      ∀ k, Text.int 10 eoaStart = .ok k → ∃ accounts new,
        (recoverCmd (node text "3") derivedEest sidecarOptions 9 ⟨(), []⟩).2.log = [] ++ new ∧
        Sweep.Scan derivedEest sidecarOptions.target k 0 sidecarOptions.count accounts new ∧
        ∀ n ≤ sidecarOptions.count, (∀ i < n, ∃ address, derivedEest.eoa (k + i) = .ok address) →
          n ≤ accounts.length :=
  ⟨_, _, @recover_reclaims _ _ memory.peer _ derivedEest firstRun emptyDisk _ _ _ _ _ _ _ _
    (List.mem_of_getElem? (i := 2) rfl) rfl (List.mem_of_getElem? (i := 4) rfl) rfl rfl rfl rfl
    (node_accepting _ "3" _) 9 ⟨(), []⟩ rfl⟩

/-- The 65th key of a run is out of reach: it holds more than the reserve, the node accepts
everything, and nothing is submitted. -/
theorem unswept_sixtyFifth :
    ∃ x ∈ (submitTransactions memory.peer derivedEest firstRun emptyDisk).2.log,
    ∃ y ∈ (submitTransactions memory.peer derivedEest firstRun emptyDisk).2.log,
    ∃ path text cmd cwd,
      x.query = .writeText path text ∧ y.query = .popen cmd cwd ∧
      sidecarOptions.sidecar = some path ∧ eoaStartOf cmd = some "1" ∧
      Text.int 10 "1" = .ok 1 ∧ derivedEest.eoa (1 + (64 : ℕ)) = .ok "65" ∧
      Sweep.Accepting (node text "65") derivedEest sidecarOptions.target ∧
      (∃ balance,
        (Sweep.getBalance (node text "65") sidecarOptions.rpcUrl "65" ⟨(), []⟩).1 = .ok balance ∧
        sidecarOptions.target.reserve < balance) ∧
      Sweep.submissions
        (recoverCmd (node text "65") derivedEest sidecarOptions 9 ⟨(), []⟩).2.log = [] :=
  ⟨_, List.mem_of_getElem? (i := 2) rfl, _, List.mem_of_getElem? (i := 4) rfl, _, _, _, _, rfl,
    rfl, rfl, rfl, by decide, by decide, node_accepting _ _ _, ⟨2 ^ 64 - 1, rfl, by decide⟩,
    by decide +kernel⟩

end EestReplay.Recover
