import EestReplay.Model.Bloat
import EestReplay.Verification.Files.Export
import EestReplay.Verification.Files.Script

/-! # What a bloated run does

The datadir that state-actor is asked for, the geth on it, and the submission to that geth: one
script with one chain id, from the account that the datadir funds. -/

namespace EestReplay.Bloat

open Dialogue Export

variable {σ : Type} {peer : Peer σ BloatReply} {eest : Eest}

def bloatDeed (y : Exchange σ BloatReply) : Option Deed :=
  match y.query, y.reply with
  | .machine q, _ => machineDeed q
  | .host q, r => deed q r
  | .resolve path, .ok real => some (.resolved path real)
  | .runCaptured cmd _, _ => some (.ran cmd)
  | _, _ => none

/-! ## The ground of a bloated run -/

/-- What is done before the submission. -/
structure Site where
  seedAddr : String
  workDir : Path := ⟨"", []⟩
  dir : Path
  datadir : Path := ⟨"", []⟩
  suffix : String := ""
  rpcPort : ℕ := 0

namespace Site

variable (s : Site) (options : Options)

/-- The site with this geth. -/
def on (datadir : Path) (suffix : String) (rpcPort : ℕ) : Site :=
  { s with datadir := datadir, suffix := suffix, rpcPort := rpcPort }

def rpcUrl : String := "http://127.0.0.1:" ++ toString s.rpcPort

/-- state-actor writes the chain under the directory, and is told to fund the seed. -/
def generated : List Deed :=
  match options.stateActorBin with
  | none => []
  | some binary =>
    [.resolved s.workDir s.dir,
      .wroteText (s.dir.child "seed-spec.yaml") (seedSpec s.seedAddr defaultSeedBalanceWei),
      .ran (stateActorCmd binary ((s.dir.child "geth").child "chaindata")
        (s.dir.child "seed-spec.yaml") options.chainId options.fork (some options.targetSize))]

/-- The geth is started on the same directory. -/
def booted : List Deed :=
  [.resolved s.dir s.datadir,
    .ran (gethDevCmd s.datadir ("eest-bloat-" ++ s.suffix) s.rpcPort options.chainId 1 60000000)]

def deeds : List Deed := s.generated options ++ s.booted options

/-- The seed is the account of the key, and the directory is the one that is asked for. -/
structure Placed (eest : Eest) : Prop where
  seed : addressFromKey eest options.seedKey = .ok s.seedAddr
  dir : options.stateActorBin = none → options.datadir = some s.dir
  workDir : ∀ workDir, options.stateActorBin.isSome = true → options.workDir = some workDir →
    s.workDir = workDir

end Site

/-- The deeds are the beginning of a bloated run. -/
def Begun (eest : Eest) (options : Options) (t : List Deed) : Prop :=
  t = [] ∨ ∃ s : Site, s.Placed options eest ∧ (t <+: s.deeds options ∨
    ∃ sent, t = s.deeds options ++ sent ∧ Scripted eest (options.submitArgs s.rpcUrl) sent)

theorem Site.Placed.begun {s : Site} {options : Options} {t : List Deed}
    (hs : s.Placed options eest) (ht : t <+: s.deeds options) : Begun eest options t :=
  .inr ⟨s, hs, .inl ht⟩

/-! ## The parts -/

theorem passing_follows {α : Type} {x : Running σ Unit Unit Unit α}
    {peer : Peer σ (RunReply (H := Unit) (A := Unit) (V := Unit))} (hx : Asks peer Passing x)
    (past : List Deed) :
    Follows bloatDeed Follows.record past (onMachine x) (fun _ t => t = past)
      (fun _ t => t = past) := by
  refine Follows.embed (Follows.of_asks hx fun st q r hq => ?_)
  change advance Follows.record past (machineDeed q) = some past
  rw [show machineDeed q = none from hq, advance_none]

theorem genDir_deeds (options : Options) :
    Follows bloatDeed Follows.record [] (genDir peer options)
      (fun dir t => t = [] ∧ ∀ workDir, options.workDir = some workDir → dir = workDir)
      (fun _ t => t = []) := by
  unfold genDir
  cases options.workDir with
  | some workDir => exact Follows.pure ⟨rfl, fun _ h => Option.some.inj h⟩
  | none => exact Follows.call (fun _ _ => ⟨_, rfl, rfl, fun _ h => by cases h⟩) fun _ _ => ⟨_, rfl, rfl⟩

theorem prepareDatadir_deeds (options : Options) {seedAddr : String}
    (hseed : addressFromKey eest options.seedKey = .ok seedAddr) :
    Follows bloatDeed Follows.record [] (prepareDatadir peer options seedAddr)
      (fun dir t => ∃ s : Site, s.Placed options eest ∧ s.dir = dir ∧ t = s.generated options)
      (fun _ => Begun eest options) := by
  have hnil : Begun eest options [] := .inl rfl
  unfold prepareDatadir
  cases hbin : options.stateActorBin with
  | none =>
      cases hdatadir : options.datadir with
      | none => exact Follows.throw hnil
      | some datadir =>
          let s : Site := { seedAddr := seedAddr, dir := datadir }
          refine Follows.pure ⟨s, ⟨hseed, fun _ => hdatadir, ?_⟩, rfl, ?_⟩
          · simp [hbin]
          · simp [Site.generated, hbin]
  | some binary =>
      refine ((genDir_deeds options).mono_error ?_).bind ?_
      · rintro e t rfl
        exact hnil
      rintro workDir t ⟨rfl, hgiven⟩
      let s : Path → Site := fun dir => { seedAddr := seedAddr, workDir := workDir, dir := dir }
      have hs : ∀ dir, (s dir).Placed options eest := by
        intro dir
        refine ⟨hseed, fun h => ?_, fun given _ h => hgiven given h⟩
        rw [hbin] at h
        cases h
      have hgenerated : ∀ dir, (s dir).generated options =
          [.resolved workDir dir,
            .wroteText (dir.child "seed-spec.yaml") (seedSpec seedAddr defaultSeedBalanceWei),
            .ran (stateActorCmd binary ((dir.child "geth").child "chaindata")
              (dir.child "seed-spec.yaml") options.chainId options.fork
              (some options.targetSize))] := by
        intro dir
        simp [Site.generated, hbin, s]
      have hresolved : ∀ dir, [.resolved workDir dir] = ((s dir).generated options).take 1 := by
        intro dir
        rw [hgenerated]
        rfl
      have hbegun : ∀ dir k, Begun eest options (((s dir).generated options).take k) :=
        fun dir k => (hs dir).begun ((List.take_prefix k _).trans (List.prefix_append _ _))
      unfold runStateActor
      refine Follows.bind (S := fun dir t => t = ((s dir).generated options).take 1) ?_ ?_
      · exact Follows.call (fun st dir => ⟨_, rfl, hresolved dir⟩) fun _ _ => ⟨_, rfl, hnil⟩
      rintro dir t rfl
      refine Follows.call_bind (fun _ _ => rfl) (fun _ => ?_) fun _ => hbegun dir 1
      refine Follows.bind (S := fun path t => path = dir.child "seed-spec.yaml" ∧
        t = ((s dir).generated options).take 2) ?_ ?_
      · have hspec : ((s dir).generated options).take 1 ++
            [.wroteText (dir.child "seed-spec.yaml") (seedSpec seedAddr defaultSeedBalanceWei)] =
              ((s dir).generated options).take 2 := by
          rw [hgenerated]
          rfl
        unfold writeSeedSpec
        refine Follows.bind (S := fun _ t => t = ((s dir).generated options).take 2) ?_ ?_
        · refine Follows.call (fun _ _ => ⟨_, rfl, hspec⟩) fun _ _ => ⟨_, rfl, ?_⟩
          rw [hspec]
          exact hbegun dir 2
        · rintro _ t rfl
          exact Follows.pure ⟨rfl, rfl⟩
      rintro path t ⟨rfl, rfl⟩
      have hran : ((s dir).generated options).take 2 ++
          [.ran (stateActorCmd binary ((dir.child "geth").child "chaindata")
            (dir.child "seed-spec.yaml") options.chainId options.fork (some options.targetSize))] =
            (s dir).generated options := by
        rw [hgenerated]
        rfl
      refine Follows.bind (S := fun _ t => t = (s dir).generated options) ?_ ?_
      · refine Follows.call (fun _ _ => ⟨_, rfl, hran⟩) fun _ _ => ⟨_, rfl, ?_⟩
        rw [hran]
        exact (hs dir).begun (List.prefix_append _ _)
      · rintro done t rfl
        split
        · exact Follows.throw ((hs dir).begun (List.prefix_append _ _))
        · exact Follows.pure ⟨s dir, hs dir, rfl, rfl⟩

theorem startDev_deeds {s : Site} {options : Options} (hs : s.Placed options eest) :
    Follows bloatDeed Follows.record (s.generated options)
      (startDev peer s.dir options.chainId)
      (fun started t => ∃ s' : Site, s'.Placed options eest ∧ started.rpcUrl = s'.rpcUrl ∧
        t = s'.deeds options)
      (fun _ => Begun eest options) := by
  have hon : ∀ datadir suffix rpcPort, (s.on datadir suffix rpcPort).Placed options eest :=
    fun _ _ _ => ⟨hs.seed, hs.dir, hs.workDir⟩
  have hbegun : ∀ datadir k, Begun eest options
      (s.generated options ++ ((s.on datadir "" 0).booted options).take k) := by
    intro datadir k
    refine (hon datadir "" 0).begun ?_
    exact (List.prefix_append_right_inj (s.generated options)).mpr (List.take_prefix k _)
  unfold startDev
  refine Follows.bind
    (S := fun datadir t => t = s.generated options ++ ((s.on datadir "" 0).booted options).take 1)
    (Follows.call (fun st datadir => ⟨s.generated options ++ [.resolved s.dir datadir], rfl, rfl⟩)
      fun _ _ => ⟨_, rfl, hs.begun (List.prefix_append _ _)⟩) ?_
  rintro datadir t rfl
  refine Follows.call_bind (fun _ _ => rfl) (fun present => ?_) fun _ => hbegun datadir 1
  split
  · exact Follows.throw (hbegun datadir 1)
  · refine Follows.call_bind (fun _ _ => rfl) (fun (rpcPort : ℕ) => ?_) fun _ => hbegun datadir 1
    refine Follows.call_bind (fun _ _ => rfl) (fun (suffix : String) => ?_) fun _ => hbegun datadir 1
    refine Follows.call_bind (fun _ _ => rfl) (fun _ => ?_) fun _ => hbegun datadir 1
    let s' := s.on datadir suffix rpcPort
    have hbooted : s.generated options ++ ((s.on datadir "" 0).booted options).take 1 ++
        [.ran (gethDevCmd datadir ("eest-bloat-" ++ suffix) rpcPort options.chainId 1 60000000)] =
          s'.deeds options := by
      rw [List.append_assoc]
      rfl
    refine Follows.bind (S := fun _ t => t = s'.deeds options) ?_ ?_
    · refine Follows.call (fun _ _ => ⟨_, rfl, hbooted⟩) fun _ _ => ⟨_, rfl, ?_⟩
      rw [hbooted]
      exact (hon datadir suffix rpcPort).begun List.prefix_rfl
    · rintro process t rfl
      exact Follows.pure ⟨s', hon datadir suffix rpcPort, rfl, rfl⟩

/-! ## The run -/

/-- The whole script of a bloated run, with a submission of as many captured strings as there are. -/
def Done (eest : Eest) (options : Options) (count : Option ℕ) (t : List Deed) : Prop :=
  ∃ s : Site, s.Placed options eest ∧ ∃ sent, t = s.deeds options ++ sent ∧
    Submitted eest (options.submitArgs s.rpcUrl) count sent

theorem Done.begun {options : Options} {count : Option ℕ} {t : List Deed}
    (h : Done eest options count t) : Begun eest options t := by
  obtain ⟨s, hs, sent, rfl, s', hs', hrows, rfl, -⟩ := h
  exact .inr ⟨s, hs, .inr ⟨_, rfl, .inr ⟨s', hs', .inr ⟨hrows, List.prefix_rfl⟩⟩⟩⟩

/-- The submission of a bloated run has no floor, so that nothing stops it before it starts. -/
theorem submission_deeds {s : Site} {options : Options} (hs : s.Placed options eest) :
    Follows bloatDeed Follows.record (s.deeds options)
      (onHost (submitTransactions (hostOf peer) eest (options.submitArgs s.rpcUrl)))
      (fun result => Done eest options result.submittedCount) (fun _ => Begun eest options) := by
  have hscript : Follows deedOf Follows.record (s.deeds options)
      (submitTransactions (hostOf peer) eest (options.submitArgs s.rpcUrl)) _ _ :=
    (submitTransactions_script (options.submitArgs s.rpcUrl)).append (s.deeds options)
  have hembed : Follows bloatDeed Follows.record (s.deeds options)
      (onHost (submitTransactions (hostOf peer) eest (options.submitArgs s.rpcUrl))) _ _ :=
    Follows.embed hscript
  refine hembed.conseq ?_ ?_
  · rintro result t ⟨sent, rfl, hdone⟩
    rcases hdone with ⟨-, hfloor, -⟩ | hsubmitted
    · cases hfloor
    · exact ⟨s, hs, sent, rfl, hsubmitted⟩
  · rintro e t ⟨sent, rfl, hscripted⟩
    exact .inr ⟨s, hs, .inr ⟨sent, rfl, hscripted⟩⟩

theorem bloatCmd_deeds (fuel : ℕ) (options : Options) :
    Follows bloatDeed Follows.record [] (bloatCmd peer eest fuel options)
      (fun ended t => Done eest options ended.1.submittedCount t ∧ ended.2 = exitCode ended.1)
      (fun _ => Begun eest options) := by
  unfold bloatCmd
  refine Follows.bind (S := fun seedAddr t => t = [] ∧
    addressFromKey eest options.seedKey = .ok seedAddr)
    (Follows.lift (fun _ h => ⟨rfl, h⟩) fun _ _ => .inl rfl) ?_
  rintro seedAddr t ⟨rfl, hseed⟩
  refine (prepareDatadir_deeds options hseed).bind ?_
  rintro dir t ⟨s, hs, rfl, rfl⟩
  refine Follows.bind (S := fun result => Done eest options result.submittedCount) ?_ ?_
  · unfold gethDevDatadir
    refine (startDev_deeds hs).bind ?_
    rintro started t ⟨s', hs', hrpc, rfl⟩
    refine Follows.tryFinally (S := fun result => Done eest options result.submittedCount)
      (E := fun _ => Begun eest options) ?_ ?_ ?_
    · refine ((passing_follows (passing_waitForRpc _ fuel) _).mono_error ?_).bind ?_
      · rintro e t rfl
        exact hs'.begun List.prefix_rfl
      · rintro _ t rfl
        rw [hrpc]
        exact submission_deeds hs'
    · rintro result t hdone
      refine (passing_follows (passing_stop _ _) t).conseq ?_ ?_
      · rintro _ u rfl
        exact hdone
      · rintro _ u rfl
        exact hdone.begun
    · rintro e t hbegun
      refine (passing_follows (passing_stop _ _) t).conseq ?_ ?_
      · rintro _ u rfl
        exact hbegun
      · rintro _ u rfl
        exact hbegun
  · rintro result t hdone
    exact Follows.pure ⟨hdone, rfl⟩

variable (peer eest)

/-- What a bloated run does is the beginning of one script, and the whole of it when it returns.
state-actor is told to fund the account that `execute` spends from, on the chain and the fork of
the run; the geth is started on the directory that state-actor has written, and `execute` goes to
that geth, through the proxy where there is a CSV to write; and the CSV is read back as the
capture. -/
theorem bloat_is_submitted (fuel : ℕ) (options : Options) (writer : CsvWriter) (limit : ℕ)
    (w : BloatWorld σ) :
    let done := seen bloatDeed (asked (bloatCmd peer eest fuel options) w)
    Begun eest options done ∧
      ∀ result code, (bloatCmd peer eest fuel options w).1 = .ok (result, code) →
        (code = 0 ↔ result.executeOk = true) ∧
        ∃ (s : Site) (sub : Submission), s.Placed options eest ∧
          sub.Sound (options.submitArgs s.rpcUrl) eest ∧ sub.seedAddr = s.seedAddr ∧
          done = s.deeds options ++ sub.deeds (options.submitArgs s.rpcUrl) eest ∧
          result.submittedCount = options.csvPath.map (fun _ => sub.rawTxs.length) ∧
          ∀ text, csvText writer sub.rows = some text →
            (Replays limit sub.rawTxs text ↔ Fits writer.str limit sub.rows) := by
  have hfollows : Follows bloatDeed Follows.record [] (bloatCmd peer eest fuel options)
      (fun ended t => Done eest options ended.1.submittedCount t ∧ ended.2 = exitCode ended.1)
      (fun _ => Begun eest options) := bloatCmd_deeds fuel options
  obtain ⟨hok, herr⟩ := hfollows.of_record w
  constructor
  · rcases hended : (bloatCmd peer eest fuel options w).1 with e | ended
    · exact herr e hended
    · exact (hok ended hended).1.begun
  · intro result code hended
    obtain ⟨⟨s, hs, sent, hdone, sub, hsub, hrows, rfl, hcount⟩, hcode⟩ := hok _ hended
    refine ⟨?_, s, sub, hs, hsub, ?_, hdone, hcount, fun text htext => replays_of_rowsOf hrows htext⟩
    · have hexit : code = exitCode result := hcode
      rw [hexit]
      unfold exitCode
      split <;> simp_all
    · exact Except.ok.inj (hsub.seed.symm.trans hs.seed)

end EestReplay.Bloat
