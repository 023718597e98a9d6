import EestReplay.Library.Through
import EestReplay.Library.Trail
import EestReplay.Verification.Batch.Failures
import EestReplay.Verification.Batch.Walk
import EestReplay.Verification.Text.Numerals

/-! # The directories of a batch

No two fixtures of a batch have directories of one name, whatever their files are called and
however many there are. A run makes no directory twice. -/

namespace EestReplay.Batch

open Dialogue Digits Runner Through

/-! ## Names

A name starts with two numerals that are at least as wide as they are padded to, each of
which ends at a dash. -/

theorem toList_padded (width n : ℕ) :
    ∃ k, (padded width n).toList = List.replicate k '0' ++ Nat.toDigits 10 n :=
  ⟨_, by rw [padded, String.toList_append, String.toList_ofList, Text.toList_toString]⟩

/-- The zeros do not change what a numeral says. -/
theorem readDigits_padded (width n : ℕ) : readDigits 10 0 (padded width n).toList = some n := by
  obtain ⟨k, hlist⟩ := toList_padded width n
  rw [hlist, readDigits_append, readDigits_zeros (by decide)]
  exact readDigits_toDigits (by decide) (by decide) n

theorem padded_injective (width : ℕ) : Function.Injective (padded width) := by
  intro n m h
  have hread := readDigits_padded width n
  rw [h, readDigits_padded] at hread
  exact (Option.some.inj hread).symm

theorem dash_not_mem_padded (width n : ℕ) : '-' ∉ (padded width n).toList := by
  obtain ⟨k, hlist⟩ := toList_padded width n
  rw [hlist]
  intro h
  rcases List.mem_append.mp h with h | h
  · have hzero := List.eq_of_mem_replicate h
    cases hzero
  · have hdigit := Nat.isDigit_of_mem_toDigits (by decide) (by decide) h
    cases hdigit

theorem toList_slug (i j : ℕ) (path : Path) :
    (slug i j path).toList =
      (padded 4 i).toList ++ '-' :: ((padded 2 j).toList ++ '-' :: path.stem.toList) := by
  simp [slug]

/-- A name tells the indices of its file and its fixture. -/
theorem slug_injective {i j i' j' : ℕ} {path path' : Path}
    (h : slug i j path = slug i' j' path') : i = i' ∧ j = j' := by
  have hlist := congrArg String.toList h
  rw [toList_slug, toList_slug] at hlist
  obtain ⟨hfile, hrest⟩ :=
    append_cons_inj (dash_not_mem_padded 4 i) (dash_not_mem_padded 4 i') hlist
  obtain ⟨hfixture, -⟩ :=
    append_cons_inj (dash_not_mem_padded 2 j) (dash_not_mem_padded 2 j') hrest
  exact ⟨padded_injective 4 (String.ext hfile), padded_injective 2 (String.ext hfixture)⟩

example : slug 10000 100 ⟨"/", ["4-5.json"]⟩ = "10000-100-4-5" := rfl

/-- The names for a number of fixtures of a file, from an index on. -/
def fileSlugs (fileIdx : ℕ) (path : Path) (fixtureIdx count : ℕ) : List String :=
  (List.range' fixtureIdx count).map fun j => slug fileIdx j path

/-- The names for a batch of files, each with its number of fixtures. -/
def slugs : ℕ → List (Path × ℕ) → List String
  | _, [] => []
  | fileIdx, (path, count) :: files => fileSlugs fileIdx path 0 count ++ slugs (fileIdx + 1) files

theorem mem_slugs {name : String} {fileIdx : ℕ} {files : List (Path × ℕ)}
    (h : name ∈ slugs fileIdx files) : ∃ i j path, fileIdx ≤ i ∧ name = slug i j path := by
  induction files generalizing fileIdx with
  | nil => cases h
  | cons file files ih =>
      obtain ⟨path, count⟩ := file
      rcases List.mem_append.mp h with h | h
      · obtain ⟨j, -, rfl⟩ := List.mem_map.mp h
        exact ⟨fileIdx, j, path, Nat.le_refl _, rfl⟩
      · obtain ⟨i, j, path, hi, hname⟩ := ih h
        exact ⟨i, j, path, by omega, hname⟩

theorem fileSlugs_nodup (fileIdx : ℕ) (path : Path) (fixtureIdx count : ℕ) :
    (fileSlugs fileIdx path fixtureIdx count).Nodup := by
  refine List.Nodup.map ?_ List.nodup_range'
  exact fun j k h => (slug_injective h).2

theorem slugs_nodup (fileIdx : ℕ) (files : List (Path × ℕ)) : (slugs fileIdx files).Nodup := by
  induction files generalizing fileIdx with
  | nil => exact List.nodup_nil
  | cons file files ih =>
      obtain ⟨path, count⟩ := file
      refine List.nodup_append'.mpr ⟨fileSlugs_nodup _ _ _ _, ih (fileIdx + 1), ?_⟩
      intro name hfile hlater
      obtain ⟨j, -, rfl⟩ := List.mem_map.mp hfile
      obtain ⟨i, k, path', hi, hname⟩ := mem_slugs hlater
      have heq := (slug_injective hname).1
      omega

/-! ## Directories -/

/-- The directories that the replay of a fixture makes. -/
def workDirs (base : Path) (name : String) : List Path :=
  [base.child name, (base.child name).child "datadir"]

/-- Where the name of a fixture is in its directories. -/
theorem mem_workDirs {base dir : Path} {name : String} (h : dir ∈ workDirs base name) :
    dir.tail[base.tail.length]? = some name := by
  simp only [workDirs, List.mem_cons, List.not_mem_nil, or_false] at h
  rcases h with rfl | rfl
  · simp [Path.child]
  · simp [Path.child]

theorem workDirs_nodup (base : Path) (name : String) : (workDirs base name).Nodup := by
  simp [workDirs, Path.child]

/-- The directories of a batch. -/
def batchDirs (base : Path) (files : List (Path × ℕ)) : List Path :=
  base :: (slugs 0 files).flatMap (workDirs base)

theorem batchDirs_nodup (base : Path) (files : List (Path × ℕ)) : (batchDirs base files).Nodup := by
  refine List.nodup_cons.mpr ⟨?_, List.nodup_flatMap.mpr ⟨?_, ?_⟩⟩
  · intro h
    obtain ⟨name, -, hdir⟩ := List.mem_flatMap.mp h
    have hname := mem_workDirs hdir
    simp at hname
  · exact fun name _ => workDirs_nodup base name
  · refine (slugs_nodup 0 files).imp ?_
    intro name name' hne dir hdir hdir'
    have hname := mem_workDirs hdir
    rw [mem_workDirs hdir'] at hname
    exact hne (Option.some.inj hname).symm

/-! ## The directories of a replay -/

variable {σ H A V : Type} {peer : Peer σ (RunReply (H := H) (A := A) (V := V))}

/-- The directory that a call makes. -/
def madeDir : RunCall H A V → Option Path
  | .mkdir path => some path
  | _ => none

theorem madeDir_of_serving {q : RunCall H A V} (h : Serving q) : madeDir q = none := by
  cases q with
  | mkdir path => exact absurd rfl (h.2 path)
  | _ => rfl

/-- A call that makes no directory. -/
theorem call_bind_within {α : Type} {q : RunCall H A V} {f : q.Value → Running σ H A V α}
    {dirs : List Path} (hq : Serving q) (hf : ∀ a, Within madeDir (f a) dirs) :
    Within madeDir (call peer q >>= f) dirs :=
  Within.asks_bind (Asks.call hq) (fun _ => madeDir_of_serving) hf

/-- A program of such calls only. -/
theorem within_of_serving {α : Type} {x : Running σ H A V α} {dirs : List Path}
    (hx : Asks peer Serving x) : Within madeDir x dirs :=
  Within.of_asks hx fun _ => madeDir_of_serving

theorem start_within (genesis : Json) (base : Path) (name : String) :
    Within madeDir (El.start peer genesis (base.child name)) (workDirs base name) := by
  unfold El.start
  refine Within.bind (l := [base.child name]) (m := [(base.child name).child "datadir"])
    (Within.call rfl) fun _ => ?_
  refine call_bind_within (by simp [Serving, Outside]) fun _ => ?_
  refine call_bind_within (by simp [Serving, Outside]) fun secret => ?_
  refine call_bind_within (by simp [Serving, Outside]) fun _ => ?_
  refine call_bind_within (by simp [Serving, Outside]) fun _ => ?_
  refine Within.bind (l := [(base.child name).child "datadir"]) (m := []) (Within.call rfl)
    fun _ => ?_
  refine call_bind_within (by simp [Serving, Outside]) fun rpcPort => ?_
  refine call_bind_within (by simp [Serving, Outside]) fun authPort => ?_
  refine call_bind_within (by simp [Serving, Outside]) fun suffix => ?_
  refine call_bind_within (by simp [Serving, Outside]) fun _ => ?_
  refine call_bind_within (by simp [Serving, Outside]) fun _ => ?_
  refine call_bind_within (by simp [Serving, Outside]) fun process => ?_
  exact Within.pure _

theorem geth_within {α : Type} (genesis : Json) (base : Path) (name : String) (fuel : ℕ)
    {body : El.Handles → Running σ H A V α} (hbody : ∀ handles, Within madeDir (body handles) []) :
    Within madeDir (El.geth peer genesis (base.child name) fuel body) (workDirs base name) := by
  refine Within.bind (m := []) (start_within genesis base name) fun started => ?_
  refine Leaves.tryFinally ?_ (asks_stop _ _) fun _ => madeDir_of_serving
  exact Within.asks_bind (asks_waitForRpc _ _) (fun _ => madeDir_of_serving) fun _ => hbody _

theorem withBuilder_within {α : Type} (printing : Printing) (buildoorBinary : Option Path) (handles : El.Handles)
    (workDir : Path) (payloadBuildTime : ℚ) (fuel : ℕ) {body : Option String → Running σ H A V α}
    (hbody : ∀ base, Within madeDir (body base) []) :
    Within madeDir (withBuilder peer printing buildoorBinary handles workDir payloadBuildTime fuel body)
      [] := by
  cases buildoorBinary with
  | none => exact hbody none
  | some binary =>
      refine Within.asks_bind (asks_startBuilder _ _ _ _ _) (fun _ => madeDir_of_serving) ?_
      intro started
      refine Leaves.tryFinally ?_ (asks_stopBuilder _ _) fun _ => madeDir_of_serving
      exact Within.asks_bind (asks_waitForHealth _ _) (fun _ => madeDir_of_serving) fun _ => hbody _

section Replay

variable [DecidableEq V] {eest : ExecutionTesting H A V} {hash : FixedBytes H}
  {addr : FixedBytes A} {printing : Printing}

theorem driveAndFinish_within (fixture : BlockchainEngineFixture H A V) (drive : Drive)
    (startedAt : ℚ) :
    Within madeDir (driveAndFinish peer eest hash addr printing fixture drive startedAt) [] := by
  refine Within.bind (l := []) (m := []) ?_ fun result => within_of_serving (asks_finish _ _ _)
  exact Leaves.embed (fun _ => rfl) (List.nil_sublist [])

/-- A replay makes the directory that it is given, and one in it. -/
theorem replay_within (fuel : ℕ) (fixture : BlockchainEngineFixture H A V) (testId : String)
    (base : Path) (name : String) (payloadBuildTime : ℚ) (buildoorBinary : Option Path) :
    Within madeDir (Runner.replay peer eest hash addr printing fuel fixture testId
      (base.child name) payloadBuildTime buildoorBinary) (workDirs base name) := by
  refine call_bind_within (by simp [Serving, Outside]) fun startedAt => ?_
  have hversion : Asks peer Serving (lift (getPayloadVersion fixture) : Running σ H A V ℕ) :=
    Asks.lift _
  refine Within.asks_bind hversion (fun _ => madeDir_of_serving) fun version => ?_
  refine geth_within _ base name fuel fun handles => ?_
  refine Within.asks_bind (asks_readJwt _) (fun _ => madeDir_of_serving) fun _ => ?_
  exact withBuilder_within _ _ _ _ _ _ fun base => driveAndFinish_within _ _ _

end Replay

/-! ## The directories of a run -/

section Loops

variable {job : Job σ H A V}

/-- Directories for fixtures of a file, from an index on. -/
def OfEntries (base : Path) (fileIdx : ℕ) (path : Path) (fixtureIdx : ℕ) (dirs : List Path) : Prop :=
  ∃ count, dirs.Sublist ((fileSlugs fileIdx path fixtureIdx count).flatMap (workDirs base))

/-- Directories for fixtures of files, from an index on. -/
def OfFiles (base : Path) (fileIdx : ℕ) (dirs : List Path) : Prop :=
  ∃ files, dirs.Sublist ((slugs fileIdx files).flatMap (workDirs base))

theorem ofEntries_nil (base : Path) (fileIdx : ℕ) (path : Path) (fixtureIdx : ℕ) :
    OfEntries base fileIdx path fixtureIdx [] := ⟨0, List.nil_sublist _⟩

theorem ofFiles_nil (base : Path) (fileIdx : ℕ) : OfFiles base fileIdx [] := ⟨[], List.nil_sublist _⟩

/-- The directories of one fixture, and then those of later ones. -/
theorem OfEntries.cons {base : Path} {fileIdx : ℕ} {path : Path} {fixtureIdx : ℕ}
    {dirs later : List Path} (hdirs : dirs.Sublist (workDirs base (slug fileIdx fixtureIdx path)))
    (hlater : OfEntries base fileIdx path (fixtureIdx + 1) later) :
    OfEntries base fileIdx path fixtureIdx (dirs ++ later) := by
  obtain ⟨count, hlater⟩ := hlater
  refine ⟨count + 1, ?_⟩
  rw [fileSlugs, List.range'_succ, List.map_cons, List.flatMap_cons]
  exact hdirs.append hlater

/-- The directories of one file, and then those of later ones. -/
theorem OfFiles.cons {base : Path} {fileIdx : ℕ} {path : Path} {dirs later : List Path}
    (hdirs : OfEntries base fileIdx path 0 dirs) (hlater : OfFiles base (fileIdx + 1) later) :
    OfFiles base fileIdx (dirs ++ later) := by
  obtain ⟨count, hdirs⟩ := hdirs
  obtain ⟨files, hlater⟩ := hlater
  refine ⟨(path, count) :: files, ?_⟩
  rw [slugs, List.flatMap_append]
  exact hdirs.append hlater

/-- The replays of a job make the directories that they are given, and one in each. -/
def Job.MakesWorkDirs (job : Job σ H A V) : Prop :=
  ∀ fixture testId name, Within madeDir (job.replay fixture testId (job.baseWorkDir.child name))
    (workDirs job.baseWorkDir name)

theorem echo_serving (text : String) : Serving (.echo text false : RunCall H A V) := by
  simp [Serving, Outside]

theorem replayEntry_within (hreplay : job.MakesWorkDirs) (fixture : BlockchainEngineFixture H A V)
    (testId name : String) :
    Within madeDir (replayEntry peer job fixture testId (job.baseWorkDir.child name))
      (workDirs job.baseWorkDir name) := by
  refine Within.asks_bind (Asks.call (echo_serving _)) (fun _ => madeDir_of_serving) fun _ => ?_
  refine Within.bind (m := []) (hreplay fixture testId name).capture fun replayed => ?_
  have hlift : Asks peer Serving
      (lift (resultOf job.printing.reprExc testId replayed) : Running σ H A V FixtureResult) :=
    Asks.lift _
  exact within_of_serving hlift

theorem runEntries_leaves (hreplay : job.MakesWorkDirs) (fileIdx : ℕ) (path : Path)
    (fixtureIdx : ℕ) (entries : List (String × Json)) (report : BatchReport) :
    Leaves madeDir (runEntries peer job fileIdx path fixtureIdx entries report)
      (OfEntries job.baseWorkDir fileIdx path fixtureIdx) := by
  induction entries generalizing fixtureIdx report with
  | nil => exact Leaves.pure (ofEntries_nil _ _ _ _)
  | cons entry entries ih =>
      obtain ⟨testId, payload⟩ := entry
      unfold runEntries
      cases hentry : entryFixture job.validate payload with
      | error exc => exact Leaves.pure (ofEntries_nil _ _ _ _)
      | ok fixture =>
          cases fixture with
          | none => exact ih fixtureIdx report
          | some fixture =>
              refine (replayEntry_within hreplay fixture testId _).capture.bind (fun replayed => ?_)
                (ofEntries_nil _ _ _ _) fun _ _ => OfEntries.cons
              cases replayed with
              | error exc => exact Leaves.pure (ofEntries_nil _ _ _ _)
              | ok result =>
                  refine Leaves.asks_bind (asks_printResult echo_serving job.printing result).capture
                    (fun _ => madeDir_of_serving) (fun printed => ?_) (ofEntries_nil _ _ _ _)
                  cases printed with
                  | error exc => exact Leaves.pure (ofEntries_nil _ _ _ _)
                  | ok _ =>
                      dsimp only
                      split
                      · exact Leaves.pure (ofEntries_nil _ _ _ _)
                      · exact ih (fixtureIdx + 1) (report.add result)

theorem runFile_leaves (hreplay : job.MakesWorkDirs) (fileIdx : ℕ) (path : Path)
    (report : BatchReport) (raw : Except PyError Json) :
    Leaves madeDir (runFile peer job fileIdx path report raw)
      (OfEntries job.baseWorkDir fileIdx path 0) := by
  unfold runFile
  cases raw.bind items with
  | error exc => exact Leaves.pure (ofEntries_nil _ _ _ _)
  | ok entries => exact runEntries_leaves hreplay fileIdx path 0 entries report

theorem runFiles_leaves (hreplay : job.MakesWorkDirs) (fileIdx : ℕ) (paths : List Path)
    (report : BatchReport) :
    Leaves madeDir (runFiles peer job fileIdx paths report) (OfFiles job.baseWorkDir fileIdx) := by
  induction paths generalizing fileIdx report with
  | nil => exact Leaves.pure (ofFiles_nil _ _)
  | cons path paths ih =>
      have hread : Serving (.readJson path : RunCall H A V) := by simp [Serving, Outside]
      refine Leaves.asks_bind (Asks.ask hread) (fun _ => madeDir_of_serving) (fun raw => ?_)
        (ofFiles_nil _ _)
      refine (runFile_leaves hreplay fileIdx path report raw).bind (fun progress => ?_)
        (ofFiles_nil _ _) fun _ _ => OfFiles.cons
      split
      · exact Leaves.pure (ofFiles_nil _ _)
      · split
        · exact Leaves.pure (ofFiles_nil _ _)
        · exact ih (fileIdx + 1) progress.report

theorem asks_writeOptional {write : Path → Running σ H A V Unit}
    (hwrite : ∀ path, Asks peer Serving (write path)) (path : Option Path) :
    Asks peer Serving (writeOptional write path) := by
  cases path with
  | none => exact Asks.pure ()
  | some path => exact hwrite path

theorem asks_writeReports (t0 : ℚ) (report : BatchReport) :
    Asks peer Serving (writeReports peer job t0 report) := by
  refine Asks.bind (Asks.call (by simp [Serving, Outside])) fun now => ?_
  refine Asks.bind (Asks.call (echo_serving _)) fun _ => ?_
  refine Asks.bind (asks_writeOptional (fun path => ?_) _) fun _ =>
    asks_writeOptional (fun path => ?_) _
  · exact Asks.bind (Asks.call (by simp [Serving, Outside])) fun _ => Asks.call (echo_serving _)
  · exact Asks.bind (Asks.call (by simp [Serving, Outside])) fun _ => Asks.call (echo_serving _)

theorem runBatch_leaves (hreplay : job.MakesWorkDirs) (path : Path) (files : List Path) :
    Leaves madeDir (runBatch peer job path files) (OfFiles job.baseWorkDir 0) := by
  unfold runBatch
  split
  · have hecho : Serving (.echo ("no fixture JSON files under " ++ path.str) true : RunCall H A V) := by
      simp [Serving, Outside]
    exact Leaves.asks_bind (Asks.call hecho).capture (fun _ => madeDir_of_serving)
      (fun _ => Leaves.pure (ofFiles_nil _ _)) (ofFiles_nil _ _)
  · have hclock : Serving (.monotonic : RunCall H A V) := by simp [Serving, Outside]
    refine Leaves.asks_bind (Asks.call hclock) (fun _ => madeDir_of_serving) (fun (t0 : ℚ) => ?_)
      (ofFiles_nil _ _)
    have hwrite : ∀ progress : Progress, Asks peer Serving (do
        let written ← capture (writeReports peer job t0 progress.report)
        return ⟨progress.report, exitOf written progress⟩ : Running σ H A V RunEnd) :=
      fun progress => (asks_writeReports t0 progress.report).capture.bind fun written => Asks.pure _
    exact (runFiles_leaves hreplay 0 files {}).bind_asks hwrite fun _ => madeDir_of_serving

end Loops

theorem asks_discoverFixtureFiles (path : Path) :
    Asks peer Serving (discoverFixtureFiles peer path) := by
  refine Asks.bind (Asks.call (by simp [Serving, Outside])) fun isFile => ?_
  split
  · exact Asks.pure _
  · refine Asks.bind (Asks.call (by simp [Serving, Outside])) fun isDir => ?_
    split
    · exact Asks.throw _
    · refine Asks.bind (Asks.call (by simp [Serving, Outside])) fun hasEngine => ?_
      exact Asks.bind (Asks.call (by simp [Serving, Outside])) fun found => Asks.pure _

theorem asks_baseWorkDir (options : Options) : Asks peer Serving (baseWorkDir peer options) := by
  unfold baseWorkDir
  cases options.workDir with
  | none => exact Asks.call (by simp [Serving, Outside])
  | some workDir => exact Asks.pure workDir

variable (peer) [DecidableEq V] (eest : ExecutionTesting H A V) (hash : FixedBytes H)
  (addr : FixedBytes A) (printing : Printing) (fuel : ℕ) (validate : Validate H A V)

/-- The directories that a run makes are some of those of a batch, in their order. -/
theorem run_leaves (options : Options) :
    Leaves madeDir (run peer eest hash addr printing fuel validate options)
      fun dirs => ∃ base files, dirs.Sublist (batchDirs base files) := by
  refine Leaves.asks_bind (asks_baseWorkDir options) (fun _ => madeDir_of_serving) (fun base => ?_)
    ⟨options.path, [], List.nil_sublist _⟩
  have hmkdir : Within madeDir (call peer (.mkdir base)) [base] := Within.call rfl
  refine Leaves.bind hmkdir (fun _ => ?_) (ofFiles_nil base 0) ?_
  · refine Leaves.asks_bind (asks_discoverFixtureFiles options.path) (fun _ => madeDir_of_serving)
      (fun files => ?_) (ofFiles_nil base 0)
    apply runBatch_leaves
    exact fun fixture testId name => replay_within fuel fixture testId base name _ _
  · rintro l m hbase ⟨files, hm⟩
    exact ⟨base, files, hbase.append hm⟩

/-- The directories of a batch never collide: the names for its fixtures are distinct, for any
files and any number of fixtures in each, and a run makes no directory twice. -/
theorem run_directories_nodup (options : Options) (w : RunWorld σ H A V) :
    (∀ files : List (Path × ℕ), (slugs 0 files).Nodup) ∧
      (picked madeDir
        (asked (run peer eest hash addr printing fuel validate options) w)).Nodup := by
  refine ⟨slugs_nodup 0, ?_⟩
  obtain ⟨base, files, hdirs⟩ :=
    (run_leaves peer eest hash addr printing fuel validate options).of_asked w
  exact hdirs.nodup (batchDirs_nodup base files)

end EestReplay.Batch
