import EestReplay.Verification.Files.Submit

/-! # The script of a submission

Everything that a submission does that lasts: the sidecar, `execute` from the start that it
records, and, where a CSV is to be written, the proxy before it and the capture behind it. -/

namespace EestReplay.Export

open Dialogue

variable {σ : Type} {peer : Peer σ HostReply} {eest : Eest}

/-- What a submission takes from its environment or finds on its way. -/
structure Submission where
  seedAddr : String
  eoaStart : String
  sidecar : Option Path
  proxyUrl : String := ""
  rawTxs : List String := []
  rows : List Row := []

namespace Submission

variable (s : Submission) (args : SubmitArgs)

/-- The path of the sidecar: the one that is given, or one beside the CSV. -/
def sidecarPath : Except PyError (Option Path) :=
  match args.metaPath, args.csvPath with
  | some path, _ => .ok (some path)
  | none, some csv => (csv.withSuffix ".recovery.json").map some
  | none, none => .ok none

def recorded : List Deed :=
  (s.sidecar.map fun path => Deed.wrote path
    (.json (recoveryMeta s.seedAddr s.eoaStart args.chainId args.fork args.rpcUrl))).toList

/-- Without a CSV there is no proxy, and no capture. -/
def sent (eest : Eest) : List Deed :=
  match args.csvPath with
  | none => [.ran (executeCmd (executeArgs eest args s.eoaStart args.rpcUrl))]
  | some _ =>
    [.proxied args.rpcUrl s.proxyUrl,
      .ran (executeCmd (executeArgs eest args s.eoaStart s.proxyUrl)), .captured s.rawTxs]

def output : List Deed := (args.csvPath.map fun path => Deed.wrote path (.csv s.rows)).toList

def upToCapture (eest : Eest) : List Deed := s.recorded args ++ s.sent args eest

def deeds (eest : Eest) : List Deed := s.upToCapture args eest ++ s.output args

/-- The sidecar goes where it belongs, and the run goes from the start that it was given. -/
structure Sound (eest : Eest) : Prop where
  seed : addressFromKey eest args.seedKey = .ok s.seedAddr
  eoaStart : ∀ eoaStart, args.eoaStart = some eoaStart → s.eoaStart = eoaStart
  sidecar : sidecarPath args = .ok s.sidecar

/-- The submission with this capture. -/
def captures (proxyUrl : String) (rawTxs : List String) (rows : List Row) : Submission :=
  { s with proxyUrl := proxyUrl, rawTxs := rawTxs, rows := rows }

variable {s args}

theorem Sound.captures (h : s.Sound args eest) (proxyUrl : String) (rawTxs : List String)
    (rows : List Row) : (s.captures proxyUrl rawTxs rows).Sound args eest :=
  ⟨h.seed, h.eoaStart, h.sidecar⟩

end Submission

/-- The deeds are the beginning of the script of a submission. -/
def Scripted (eest : Eest) (args : SubmitArgs) (t : List Deed) : Prop :=
  t = [] ∨ ∃ s : Submission, s.Sound args eest ∧
    (t <+: s.upToCapture args eest ∨ RowsOf eest 0 s.rawTxs s.rows ∧ t <+: s.deeds args eest)

/-- The whole script, of as many captured strings as there are. -/
def Submitted (eest : Eest) (args : SubmitArgs) (count : Option ℕ) (t : List Deed) : Prop :=
  ∃ s : Submission, s.Sound args eest ∧ RowsOf eest 0 s.rawTxs s.rows ∧ t = s.deeds args eest ∧
    count = args.csvPath.map fun _ => s.rawTxs.length

section Parts

variable {s : Submission} {args : SubmitArgs}

theorem Submission.Sound.begun {t : List Deed} (hs : s.Sound args eest)
    (ht : t <+: s.upToCapture args eest) : Scripted eest args t :=
  .inr ⟨s, hs, .inl ht⟩

/-- The capture behind its proxy. -/
theorem captured_deeds (hs : s.Sound args eest) {csvPath : Path} (hcsv : args.csvPath = some csvPath) :
    Follows deedOf Follows.record (s.recorded args)
      (withProxy peer args.rpcUrl fun proxyUrl => do
        let (executeOk, err) ← runExecute peer (executeArgs eest args s.eoaStart proxyUrl)
        let rawTxs : List String ← call peer .snapshot
        return (executeOk, err, rawTxs))
      (fun captured t => ∃ proxyUrl,
        t = (s.captures proxyUrl captured.2.2 []).upToCapture args eest)
      (fun _ => Scripted eest args) := by
  have hbegun : ∀ proxyUrl rawTxs k, Scripted eest args
      (s.recorded args ++ ((s.captures proxyUrl rawTxs []).sent args eest).take k) := by
    intro proxyUrl rawTxs k
    refine (hs.captures proxyUrl rawTxs []).begun ?_
    exact (List.prefix_append_right_inj (s.recorded args)).mpr (List.take_prefix k _)
  have hsent : ∀ proxyUrl rawTxs, (s.captures proxyUrl rawTxs []).sent args eest =
      [.proxied args.rpcUrl proxyUrl,
        .ran (executeCmd (executeArgs eest args s.eoaStart proxyUrl)), .captured rawTxs] := by
    intro proxyUrl rawTxs
    unfold Submission.sent
    rw [hcsv]
    rfl
  refine withProxy_deeds ?_ (fun proxyUrl => ?_) ?_
  · exact hs.begun (List.prefix_append _ _)
  · have hran : s.recorded args ++ [.proxied args.rpcUrl proxyUrl] ++
        [.ran (executeCmd (executeArgs eest args s.eoaStart proxyUrl))] =
          s.recorded args ++ ((s.captures proxyUrl [] []).sent args eest).take 2 := by
      rw [hsent, List.append_assoc]
      rfl
    have hsnapshot : ∀ rawTxs, s.recorded args ++ ((s.captures proxyUrl [] []).sent args eest).take 2 ++
        [.captured rawTxs] = (s.captures proxyUrl rawTxs []).upToCapture args eest := by
      intro rawTxs
      unfold Submission.upToCapture
      rw [hsent, hsent, List.append_assoc]
      rfl
    refine ((runExecute_deeds _ _).mono_error ?_).bind ?_
    · rintro e t rfl
      rw [hran]
      exact hbegun proxyUrl [] 2
    · rintro ⟨executeOk, err⟩ t rfl
      rw [hran]
      refine Follows.bind (S := fun rawTxs t =>
        t = (s.captures proxyUrl rawTxs []).upToCapture args eest) ?_ ?_
      · exact Follows.call (fun st rawTxs => ⟨_, rfl, hsnapshot rawTxs⟩)
          fun st e => ⟨_, rfl, hbegun proxyUrl [] 2⟩
      · rintro rawTxs t rfl
        exact Follows.pure ⟨proxyUrl, rfl⟩
  · rintro ⟨executeOk, err, rawTxs⟩ t ⟨proxyUrl, rfl⟩
    exact (hs.captures proxyUrl rawTxs []).begun List.prefix_rfl

theorem broadcast_script (hs : s.Sound args eest) :
    Follows deedOf Follows.record (s.recorded args) (broadcast peer eest args s.eoaStart)
      (fun result => Submitted eest args result.2.2) (fun _ => Scripted eest args) := by
  unfold broadcast
  cases hcsv : args.csvPath with
  | none =>
      have hran : s.recorded args ++ [.ran (executeCmd (executeArgs eest args s.eoaStart args.rpcUrl))] =
          (s.captures "" [] []).deeds args eest := by
        unfold Submission.deeds Submission.upToCapture Submission.sent Submission.output
        rw [hcsv]
        simp [Submission.captures, Submission.recorded]
      have hempty : RowsOf eest 0 [] [] := rfl
      refine ((runExecute_deeds _ _).mono_error ?_).bind ?_
      · rintro e t rfl
        rw [hran]
        exact .inr ⟨_, hs.captures "" [] [], .inr ⟨hempty, List.prefix_rfl⟩⟩
      · rintro done t rfl
        rw [hran]
        exact Follows.pure ⟨_, hs.captures "" [] [], hempty, rfl, by rw [hcsv]; rfl⟩
  | some csvPath =>
      dsimp only
      refine (captured_deeds hs hcsv).bind ?_
      rintro ⟨executeOk, err, rawTxs⟩ t ⟨proxyUrl, rfl⟩
      have hcaptured := (hs.captures proxyUrl rawTxs []).begun List.prefix_rfl
      refine ((enrich_deeds _ 0 rawTxs _).mono_error ?_).bind ?_
      · rintro e t rfl
        exact hcaptured
      · rintro rows t ⟨rfl, hrows⟩
        have hmkdir : Asks peer Idle (call peer (.mkdir csvPath.parent)) := Asks.call fun _ => rfl
        have hwritten : (s.captures proxyUrl rawTxs []).upToCapture args eest ++
            [.wrote csvPath (.csv rows)] = (s.captures proxyUrl rawTxs rows).deeds args eest := by
          unfold Submission.deeds Submission.output
          rw [hcsv]
          rfl
        refine idle_bind hmkdir (fun _ => ?_) fun _ => hcaptured
        refine Follows.bind
          (S := fun _ u => u = (s.captures proxyUrl rawTxs rows).deeds args eest) ?_ ?_
        · refine Follows.call (fun _ _ => ⟨_, rfl, hwritten⟩) fun _ _ => ⟨_, rfl, ?_⟩
          rw [hwritten]
          exact .inr ⟨_, hs.captures proxyUrl rawTxs rows, .inr ⟨hrows, List.prefix_rfl⟩⟩
        · rintro _ u rfl
          refine Follows.pure ⟨_, hs.captures proxyUrl rawTxs rows, hrows, rfl, ?_⟩
          rw [hcsv, hrows.length_eq]
          rfl

theorem writeRecoveryMeta_script (hs : s.Sound args eest) :
    Follows deedOf Follows.record []
      (writeRecoveryMeta peer args.metaPath args.csvPath
        (recoveryMeta s.seedAddr s.eoaStart args.chainId args.fork args.rpcUrl))
      (fun written t => written = s.sidecar ∧ t = s.recorded args)
      (fun _ => Scripted eest args) := by
  have hbegun : ∀ t, t <+: s.recorded args → Scripted eest args t :=
    fun t ht => hs.begun (ht.trans (List.prefix_append _ _))
  unfold writeRecoveryMeta
  refine Follows.bind (S := fun target t => t = [] ∧ target = s.sidecar) (Follows.lift ?_ ?_) ?_
  · exact fun target htarget => ⟨rfl, Except.ok.inj (htarget.symm.trans hs.sidecar)⟩
  · exact fun _ _ => .inl rfl
  rintro target t ⟨rfl, rfl⟩
  cases hsidecar : s.sidecar with
  | none =>
      refine Follows.pure ⟨rfl, ?_⟩
      simp [Submission.recorded, hsidecar]
  | some path =>
      have hmkdir : Asks peer Idle (call peer (.mkdir path.parent)) := Asks.call fun _ => rfl
      have hwritten : [.wrote path (.json (recoveryMeta s.seedAddr s.eoaStart args.chainId args.fork
          args.rpcUrl))] = s.recorded args := by
        simp [Submission.recorded, hsidecar]
      refine idle_bind hmkdir (fun _ => ?_) fun _ => .inl rfl
      refine Follows.bind (S := fun _ t => t = s.recorded args) ?_ ?_
      · refine Follows.call (fun _ _ => ⟨_, rfl, hwritten⟩) fun _ _ => ⟨_, rfl, hbegun _ ?_⟩
        rw [← hwritten]
        rfl
      · rintro _ t rfl
        exact Follows.pure ⟨rfl, rfl⟩

end Parts

/-- A submission goes along one script, unless it has a floor and its pre-flight stops it. -/
theorem submitTransactions_script (args : SubmitArgs) :
    Follows deedOf Follows.record [] (submitTransactions peer eest args)
      (fun result t => t = [] ∧ args.minSeedBalanceWei.isSome = true ∧ result.executeOk = false ∨
        Submitted eest args result.submittedCount t)
      (fun _ => Scripted eest args) := by
  have hposts : ∀ {α : Type} {x : Command σ α}, Asks peer Posting x → Asks peer Idle x :=
    fun hx => hx.mono fun _ => Posting.idle
  have hnil : Scripted eest args [] := .inl rfl
  have hstart : Yields (chooseEoaStart peer args)
      fun start => ∀ eoaStart, args.eoaStart = some eoaStart → start = eoaStart := by
    unfold chooseEoaStart
    cases args.eoaStart with
    | none => exact (Yields.any _).mono fun _ _ _ h => by cases h
    | some eoaStart => exact Yields.pure fun _ h => Option.some.inj h
  unfold submitTransactions
  refine ((((idle_follows (hposts posts_chooseEoaStart) []).yields hstart).mono_error ?_)).bind ?_
  · rintro e t rfl
    exact hnil
  rintro eoaStart t ⟨rfl, hgiven⟩
  refine Follows.bind (S := fun seedAddr t => t = [] ∧ addressFromKey eest args.seedKey = .ok seedAddr)
    (Follows.lift (fun seedAddr h => ⟨rfl, h⟩) fun _ _ => hnil) ?_
  rintro seedAddr t ⟨rfl, hseed⟩
  refine idle_bind (hposts (asks_attempt (posts_getBalance _ _))) (fun before => ?_) fun _ => hnil
  split
  · rename_i hbelow
    refine Follows.pure (.inl ⟨rfl, ?_, rfl⟩)
    unfold belowFloor at hbelow
    cases hfloor : args.minSeedBalanceWei with
    | some floor => rfl
    | none => simp [hfloor] at hbelow
  · unfold launch
    cases hsidecar : Submission.sidecarPath args with
    | error exc =>
        -- a CSV without a name has no place beside it
        refine Follows.bind (S := fun _ _ => False) ?_ fun _ _ h => h.elim
        unfold writeRecoveryMeta
        refine Follows.bind (S := fun _ _ => False) (Follows.lift (fun target htarget => ?_) ?_)
          fun _ _ h => h.elim
        · cases htarget.symm.trans hsidecar
        · exact fun _ _ => hnil
    | ok sidecar =>
        let s : Submission := { seedAddr := seedAddr, eoaStart := eoaStart, sidecar := sidecar }
        have hs : s.Sound args eest := ⟨hseed, hgiven, hsidecar⟩
        refine (writeRecoveryMeta_script hs).bind ?_
        rintro written t ⟨rfl, rfl⟩
        refine (broadcast_script hs).bind ?_
        rintro ⟨executeOk, err, count⟩ t hsubmitted
        have hscripted : Scripted eest args t := by
          obtain ⟨s', hs', hrows, rfl, -⟩ := hsubmitted
          exact .inr ⟨s', hs', .inr ⟨hrows, List.prefix_rfl⟩⟩
        exact idle_bind (hposts (posts_spent _ _ _)) (fun _ => Follows.pure (.inr hsubmitted))
          fun _ => hscripted

end EestReplay.Export
