import EestReplay.Library.Relating
import EestReplay.Model.Bloat
import EestReplay.Verification.Batch.Exit
import EestReplay.Verification.Submit.Sidecar
import Mathlib.Algebra.Order.Floor.Defs
import Mathlib.Data.Rat.Floor
import Mathlib.Tactic.Linarith

/-! # The waits end

A wait for a server probes it until its deadline. With a clock that every probe moves on, so
many passes suffice that more of them change nothing. -/

namespace EestReplay.Session

open Dialogue

variable {σ H A V : Type} {peer : Peer σ (RunReply (H := H) (A := A) (V := V))}

/-- `now` is a clock of the machine that does not go back, and in which a probe takes a tick at
least. -/
structure Keeps (peer : Peer σ (RunReply (H := H) (A := A) (V := V))) (now : σ → ℚ) (tick : ℚ) :
    Prop where
  tick_pos : 0 < tick
  mono : ∀ s q, now s ≤ now (peer.answer s q).2
  time : ∀ s (t : ℚ), (peer.answer s .time).1 = .ok t → now s ≤ t ∧ t ≤ now (peer.answer s .time).2
  probe : ∀ s url body timeout, now s + tick ≤ now (peer.answer s (.probe url body timeout)).2

/-- The passes within thirty seconds, and the one that finds them over. -/
def passes (tick : ℚ) : ℕ := ⌈30 / tick⌉₊ + 1

theorem passes_pos (tick : ℚ) : 0 < passes tick := Nat.succ_pos _

theorem le_passes {timeout tick : ℚ} (htick : 0 < tick) (h : timeout ≤ 30) :
    timeout + tick ≤ tick * passes tick := by
  have hceil : 30 / tick ≤ (⌈30 / tick⌉₊ : ℚ) := Nat.le_ceil _
  have hle : 30 ≤ (⌈30 / tick⌉₊ : ℚ) * tick := (div_le_iff₀ htick).mp hceil
  have hcast : ((passes tick : ℕ) : ℚ) = (⌈30 / tick⌉₊ : ℚ) + 1 := Nat.cast_succ _
  rw [hcast]
  linarith

variable {now : σ → ℚ} {tick : ℚ}

/-- Enough passes do not run out: each that finds the deadline ahead takes a tick. -/
theorem pollUntil_enough (hclock : Keeps peer now tick) (url : String) (body : Option Json)
    {deadline : ℚ} (message : String) {fuel : ℕ} (k : ℕ) (lastErr : String)
    (w : World σ (RunReply (H := H) (A := A) (V := V))) (hfuel : 0 < fuel)
    (h : deadline + tick ≤ now w.state + tick * fuel) :
    pollUntil peer url body deadline message (fuel + k) lastErr w =
      pollUntil peer url body deadline message fuel lastErr w := by
  induction fuel generalizing lastErr w with
  | zero => omega
  | succ fuel ih =>
      rw [Nat.add_right_comm]
      rw [Nat.cast_succ] at h
      unfold pollUntil
      apply bind_congr_at
      intro (told : ℚ) u htime
      rw [call_apply] at htime
      obtain ⟨hreply, rfl⟩ := Prod.mk.inj htime
      obtain ⟨hle, hge⟩ := hclock.time w.state told hreply
      split
      · rename_i hearly
        have hstart : now w.state < deadline := lt_of_le_of_lt hle hearly
        have hasked := hclock.probe (w.step peer .time).state url body 1
        have hstays : 0 < fuel := by
          by_contra hzero
          obtain rfl : fuel = 0 := by omega
          rw [Nat.cast_zero] at h
          linarith
        apply bind_congr_at
        intro (answer : Except PyError ℕ) u hprobe
        obtain ⟨-, rfl⟩ := Prod.mk.inj hprobe
        have hrest : deadline + tick ≤
            now ((w.step peer .time).step peer (.probe url body 1)).state + tick * fuel := by
          simp only [World.step_state] at hasked ⊢
          linarith
        cases answer with
        | ok status =>
            dsimp only
            split
            · rfl
            · exact ih lastErr _ hstays hrest
        | error exc =>
            dsimp only
            split
            · apply bind_congr_at
              intro _ u hsleep
              rw [call_apply] at hsleep
              obtain ⟨-, rfl⟩ := Prod.mk.inj hsleep
              refine ih exc.text _ hstays (hrest.trans ?_)
              have hslept := hclock.mono ((w.step peer .time).step peer (.probe url body 1)).state
                (.sleep (1 / 4))
              simp only [World.step_state] at hslept ⊢
              linarith
            · rfl
      · rfl

/-- A wait of thirty seconds at most, from the time at which it starts. -/
theorem timed_enough (hclock : Keeps peer now tick) (url : String) (body : Option Json)
    {timeout : ℚ} (htimeout : timeout ≤ 30) (message : String) (k : ℕ) :
    (call peer .time >>= fun told : ℚ =>
        pollUntil peer url body (told + timeout) message (passes tick + k) "None") =
      (call peer .time >>= fun told : ℚ =>
        pollUntil peer url body (told + timeout) message (passes tick) "None") := by
  funext w
  apply bind_congr_at
  intro (told : ℚ) u htime
  rw [call_apply] at htime
  obtain ⟨hreply, rfl⟩ := Prod.mk.inj htime
  apply pollUntil_enough hclock url body message k "None" _ (passes_pos tick)
  have hnow := (hclock.time w.state told hreply).2
  have hpasses := le_passes hclock.tick_pos htimeout
  rw [World.step_state]
  linarith

theorem waitForRpc_enough (hclock : Keeps peer now tick) (rpcUrl : String) (k : ℕ) :
    El.waitForRpc peer rpcUrl (passes tick + k) = El.waitForRpc peer rpcUrl (passes tick) :=
  timed_enough hclock rpcUrl _ (le_refl 30) _ k

theorem waitForHealth_enough (hclock : Keeps peer now tick) (baseUrl : String) (k : ℕ) :
    Buildoor.waitForHealth peer baseUrl (passes tick + k) =
      Buildoor.waitForHealth peer baseUrl (passes tick) :=
  timed_enough hclock _ none (by norm_num) _ k

theorem geth_enough {α : Type} (hclock : Keeps peer now tick) (genesis : Json) (workDir : Path)
    (k : ℕ) (body : El.Handles → Running σ H A V α) :
    El.geth peer genesis workDir (passes tick + k) body =
      El.geth peer genesis workDir (passes tick) body := by
  unfold El.geth
  simp only [waitForRpc_enough hclock]

theorem withBuilder_enough {α : Type} (hclock : Keeps peer now tick) (printing : Printing)
    (buildoorBinary : Option Path) (handles : El.Handles) (workDir : Path) (payloadBuildTime : ℚ)
    (k : ℕ) (body : Option String → Running σ H A V α) :
    Runner.withBuilder peer printing buildoorBinary handles workDir payloadBuildTime
        (passes tick + k) body =
      Runner.withBuilder peer printing buildoorBinary handles workDir payloadBuildTime
        (passes tick) body := by
  unfold Runner.withBuilder Buildoor.simbuild
  simp only [waitForHealth_enough hclock]

section

variable [DecidableEq V] (eest : ExecutionTesting H A V) (hash : FixedBytes H)
  (addr : FixedBytes A) (printing : Printing)

theorem replay_enough (hclock : Keeps peer now tick) (k : ℕ) :
    Runner.replay peer eest hash addr printing (passes tick + k) =
      Runner.replay peer eest hash addr printing (passes tick) := by
  funext fixture testId workDir payloadBuildTime buildoorBinary
  unfold Runner.replay
  simp only [geth_enough hclock, withBuilder_enough hclock]

theorem run_enough (hclock : Keeps peer now tick) (validate : Batch.Validate H A V)
    (options : Batch.Options) (k : ℕ) :
    Batch.run peer eest hash addr printing (passes tick + k) validate options =
      Batch.run peer eest hash addr printing (passes tick) validate options := by
  unfold Batch.run
  rw [replay_enough eest hash addr printing hclock]

end

/-! ## The other commands -/

theorem exportTransactions_enough {exporting : Peer σ Export.ExportReply}
    (hclock : Keeps (Export.machineOf exporting) now tick) (eest : Eest) (repr : String → String)
    (args : Export.ExportArgs) (k : ℕ) :
    Export.exportTransactions exporting eest repr (passes tick + k) args =
      Export.exportTransactions exporting eest repr (passes tick) args := by
  unfold Export.exportTransactions Export.withGeth
  simp only [waitForRpc_enough hclock]

theorem bloatCmd_enough {bloating : Peer σ Bloat.BloatReply}
    (hclock : Keeps (Bloat.machineOf bloating) now tick) (eest : Eest) (options : Bloat.Options)
    (k : ℕ) :
    Bloat.bloatCmd bloating eest (passes tick + k) options =
      Bloat.bloatCmd bloating eest (passes tick) options := by
  unfold Bloat.bloatCmd Bloat.gethDevDatadir
  simp only [waitForRpc_enough hclock]

/-- Every wait for a server ends: more passes than the clock leaves to a wait change neither what
a command asks nor how it ends. -/
theorem waits_end [DecidableEq V] (hclock : Keeps peer now tick)
    {exporting : Peer σ Export.ExportReply} {exportNow : σ → ℚ} {exportTick : ℚ}
    (hexport : Keeps (Export.machineOf exporting) exportNow exportTick)
    {bloating : Peer σ Bloat.BloatReply} {bloatNow : σ → ℚ} {bloatTick : ℚ}
    (hbloat : Keeps (Bloat.machineOf bloating) bloatNow bloatTick) (k : ℕ) :
    (∀ (eest : ExecutionTesting H A V) hash addr printing validate options,
      Batch.run peer eest hash addr printing (passes tick + k) validate options =
        Batch.run peer eest hash addr printing (passes tick) validate options) ∧
    (∀ eest repr args,
      Export.exportTransactions exporting eest repr (passes exportTick + k) args =
        Export.exportTransactions exporting eest repr (passes exportTick) args) ∧
    ∀ eest options, Bloat.bloatCmd bloating eest (passes bloatTick + k) options =
      Bloat.bloatCmd bloating eest (passes bloatTick) options :=
  ⟨fun eest hash addr printing validate options =>
      run_enough eest hash addr printing hclock validate options k,
    fun eest repr args => exportTransactions_enough hexport eest repr args k,
    fun eest options => bloatCmd_enough hbloat eest options k⟩

/-! ## A machine on which no server answers -/

/-- Its clock is its state. A probe is refused after a tick. -/
def deaf (tick : ℚ) : Peer ℚ (RunReply (H := Unit) (A := Unit) (V := Unit)) where
  answer now q :=
    match q with
    | .time => (.ok now, now)
    | .sleep seconds =>
      if seconds < 0 then (.error ⟨.valueError, "sleep length must be non-negative"⟩, now)
      else (.ok (), now + seconds)
    | .probe _ _ _ => (.error ⟨.osError, "Connection refused"⟩, now + tick)
    | .isDir _ => (.ok true, now)
    | q => (((Batch.calm Exit.oneFixtureFile).answer () q).1, now)

def deafExport (tick : ℚ) : Peer ℚ Export.ExportReply where
  answer now q :=
    match q with
    | .machine q => (deaf tick).answer now q
    | .host (.mkdir _) => (.ok (), now)
    | .host (.writeText _ _) => (.ok (), now)
    | .host _ => (.error ⟨.osError, "Connection refused"⟩, now)

def deafBloat (tick : ℚ) : Peer ℚ Bloat.BloatReply where
  answer now q :=
    match q with
    | .machine q => (deaf tick).answer now q
    | .resolve path => (.ok path, now)
    | _ => (.error ⟨.osError, "Connection refused"⟩, now)

theorem keeps_deaf {tick : ℚ} (h : 0 < tick) : Keeps (deaf tick) id tick where
  tick_pos := h
  mono now q := by
    have hprobe : now ≤ now + tick := by linarith
    cases q with
    | probe url body timeout => exact hprobe
    | sleep seconds =>
        simp only [deaf]
        split
        · exact le_refl now
        · next hseconds =>
          have hslept : now ≤ now + seconds := by linarith
          exact hslept
    | _ => exact le_refl now
  time now t ht := by
    obtain rfl : now = t := Except.ok.inj ht
    exact ⟨le_refl now, le_refl now⟩
  probe now url body timeout := le_refl (now + tick)

def deafRun (fuel : ℕ) : Running ℚ Unit Unit Unit Batch.RunEnd :=
  Batch.run (deaf 15) Runner.unitTesting Runner.unitBytes Runner.unitBytes Runner.unitPrinting fuel
    Exit.oneFixtureValidate Exit.oneFixtureRun

def deafExportRun (fuel : ℕ) : Export.Exporting ℚ Export.ExportResult :=
  Export.exportTransactions (deafExport 15) Export.plainEest id fuel
    { testSelector := "tests/frontier", fork := "Osaka", outputDir := ⟨"/", ["out"]⟩,
      specsDir := ⟨"/", ["specs"]⟩, workDir := ⟨"/", ["work"]⟩ }

def deafBloatRun (fuel : ℕ) : Bloat.Bloating ℚ (Export.SubmitResult × ℕ) :=
  Bloat.bloatCmd (deafBloat 15) Export.plainEest fuel
    { testSelector := "tests/frontier", fork := "Osaka", datadir := some ⟨"/", ["data"]⟩,
      specsDir := ⟨"/", ["specs"]⟩ }

theorem waits_end_deaf :
    deafRun (passes 15 + 5) = deafRun (passes 15) ∧
      deafExportRun (passes 15 + 5) = deafExportRun (passes 15) ∧
      deafBloatRun (passes 15 + 5) = deafBloatRun (passes 15) := by
  have hclock : Keeps (deaf 15) id 15 := keeps_deaf (by norm_num)
  have hexporting : Keeps (Export.machineOf (deafExport 15)) id 15 := hclock
  have hbloating : Keeps (Bloat.machineOf (deafBloat 15)) id 15 := hclock
  obtain ⟨hrun, hexport, hbloat⟩ := waits_end hclock hexporting hbloating 5
  exact ⟨hrun _ _ _ _ _ _, hexport _ _ _, hbloat _ _⟩

-- Two probes fit into the thirty seconds, and the third pass finds them over.
example : (deafRun 3 ⟨0, []⟩).1.map (·.report.results.map (·.error)) =
    .ok [some ("runner crashed: EL at http://127.0.0.1:30303 did not become ready within 30.0s: " ++
      "Connection refused")] := by
  decide +kernel

end EestReplay.Session
