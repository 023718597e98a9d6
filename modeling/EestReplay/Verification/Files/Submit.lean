import EestReplay.Library.Following
import EestReplay.Model.Throwaway
import EestReplay.Verification.Files.Csv

/-! # The CSV of a submission

What a submission does that lasts, in its order: files, subprocesses, and the capture. A CSV
that it writes is read back as the capture that it has taken before. -/

namespace EestReplay.Export

open Dialogue

variable {σ : Type} {peer : Peer σ HostReply} {eest : Eest}

/-- A proxy, a capture and a resolved path are deeds once the host has answered. Directories,
modes of files and the logs of subprocesses are left out. -/
inductive Deed where
  | wrote (path : Path) (content : Content)
  | wroteText (path : Path) (text : String)
  | resolved (path real : Path)
  | ran (cmd : List String)
  | proxied (target url : String)
  | captured (rawTxs : List String)

def deed : (q : HostCall) → HostReply q → Option Deed
  | .writeText path text, _ => some (.wrote path (.json text))
  | .writeCsv path rows, _ => some (.wrote path (.csv rows))
  | .popen cmd _, _ => some (.ran cmd)
  | .startProxy target, .ok url => some (.proxied target url)
  | .snapshot, .ok rawTxs => some (.captured rawTxs)
  | _, _ => none

def deedOf (x : Exchange σ HostReply) : Option Deed := deed x.query x.reply

/-- The deeds of a log. -/
def deeds (log : List (Exchange σ HostReply)) : List Deed := seen deedOf log

/-! ## Parts without deeds -/

def Idle (q : HostCall) : Prop := ∀ r, deed q r = none

/-- A program that leaves the deeds as they are. -/
theorem idle_follows {α : Type} {x : Command σ α} (hx : Asks peer Idle x) (past : List Deed) :
    Follows deedOf Follows.record past x (fun _ t => t = past) (fun _ t => t = past) := by
  refine Follows.of_asks hx fun st q r hq => ?_
  rw [deedOf, hq r, advance_none]

theorem idle_bind {α β : Type} {x : Command σ α} {f : α → Command σ β} {past : List Deed}
    {T : β → List Deed → Prop} {E : PyError → List Deed → Prop} (hx : Asks peer Idle x)
    (hf : ∀ a, Follows deedOf Follows.record past (f a) T E) (hE : ∀ e, E e past) :
    Follows deedOf Follows.record past (x >>= f) T E := by
  refine ((idle_follows hx past).mono_error ?_).bind ?_
  · rintro e t rfl
    exact hE e
  · rintro a t rfl
    exact hf a

theorem Posting.idle {q : HostCall} (h : Posting q) : Idle q := by
  cases q with
  | post => exact fun _ => rfl
  | randbits => exact fun _ => rfl
  | _ => cases h

theorem idle_waitExecute (timeout : ℤ) : Asks peer Idle (waitExecute peer timeout) := by
  have hcall : ∀ t, Asks peer Idle (call peer (.communicate t)) := fun t => Asks.call fun _ => rfl
  have hkill : Asks peer Idle (killGroup peer) := by
    refine Asks.tryCatch (Asks.call fun _ => rfl) fun e => ?_
    split
    · exact Asks.pure _
    · exact Asks.throw e
  refine Asks.tryCatch ((hcall _).bind fun _ => Asks.pure _) fun e => ?_
  split
  · exact hkill.bind fun _ => (hcall none).bind fun _ => Asks.pure _
  · exact Asks.throw e

/-! ## `execute` and its proxy -/

theorem runRemote_deeds (engine : Option (String × Path)) (args : ExecuteArgs) (past : List Deed) :
    Follows deedOf Follows.record past (runRemote peer engine args)
      (fun _ t => t = past ++ [.ran (remoteCmd engine args)])
      (fun _ t => t = past ++ [.ran (remoteCmd engine args)]) := by
  unfold runRemote
  refine Follows.bind (S := fun _ t => t = past ++ [.ran (remoteCmd engine args)]) ?_ ?_
  · exact Follows.call (fun _ _ => ⟨_, rfl, rfl⟩) fun _ _ => ⟨_, rfl, rfl⟩
  · rintro _ t rfl
    refine idle_bind (idle_waitExecute _) (fun ended => ?_) fun _ => rfl
    cases ended with
    | none => exact Follows.pure rfl
    | some done =>
        dsimp only
        split
        · exact Follows.pure rfl
        · exact Follows.pure rfl

theorem runExecute_deeds (args : ExecuteArgs) (past : List Deed) :
    Follows deedOf Follows.record past (runExecute peer args)
      (fun _ t => t = past ++ [.ran (executeCmd args)])
      (fun _ t => t = past ++ [.ran (executeCmd args)]) := by
  rw [← runRemote_none, ← remoteCmd_none]
  exact runRemote_deeds none args past

/-- What holds of the deeds behind a proxy holds behind its end, too. -/
theorem withProxy_deeds {α : Type} {target : String} {body : String → Command σ α}
    {past : List Deed} {S : α → List Deed → Prop} {I : List Deed → Prop} (hpast : I past)
    (hbody : ∀ url, Follows deedOf Follows.record (past ++ [.proxied target url]) (body url) S
      fun _ => I)
    (hS : ∀ a t, S a t → I t) :
    Follows deedOf Follows.record past (withProxy peer target body) S fun _ => I := by
  have hstop : Asks peer Idle (call peer .stopProxy) := Asks.call fun _ => rfl
  unfold withProxy
  refine Follows.bind (S := fun url t => t = past ++ [.proxied target url]) ?_ ?_
  · exact Follows.call (fun _ _ => ⟨_, rfl, rfl⟩) fun _ _ => ⟨_, rfl, hpast⟩
  · rintro url t rfl
    refine Follows.bind (S := S) ((hbody url).tryCatch ?_) ?_
    · intro e t ht
      exact idle_bind hstop (fun _ => Follows.throw ht) fun _ => ht
    · intro a t ht
      exact idle_bind hstop (fun _ => Follows.pure ht) fun _ => hS a t ht

theorem yields_enrich (rpcUrl : String) (i : ℕ) (rawTxs : List String) :
    Yields (enrich peer eest rpcUrl i rawTxs) (RowsOf eest i rawTxs) := by
  intro w rows hrows
  cases enrich_ends peer eest rpcUrl i rawTxs w with
  | done rows' xs v hrun hlog henriched =>
      rw [hrun] at hrows
      obtain rfl := Except.ok.inj hrows
      exact henriched.rowsOf
  | raised e xs v hrun hlog hbad =>
      rw [hrun] at hrows
      cases hrows

theorem enrich_deeds (rpcUrl : String) (i : ℕ) (rawTxs : List String) (past : List Deed) :
    Follows deedOf Follows.record past (enrich peer eest rpcUrl i rawTxs)
      (fun rows t => t = past ∧ RowsOf eest i rawTxs rows) (fun _ t => t = past) :=
  (idle_follows ((posts_enrich rpcUrl i rawTxs).mono fun _ => Posting.idle) past).yields
    (yields_enrich rpcUrl i rawTxs)

/-! ## The submission -/

/-- A CSV is written to its path only, after the capture of which it holds the rows. -/
def Faithful (eest : Eest) (csvPath : Option Path) : List Deed → Prop :=
  Always fun past x => ∀ path rows, x = .wrote path (.csv rows) → csvPath = some path ∧
    ∃ rawTxs, .captured rawTxs ∈ past ∧ RowsOf eest 0 rawTxs rows

theorem faithful_nil (csvPath : Option Path) : Faithful eest csvPath [] := always_nil _

theorem Faithful.concat {csvPath : Option Path} {past : List Deed} {x : Deed}
    (hpast : Faithful eest csvPath past) (hx : ∀ path rows, x ≠ .wrote path (.csv rows)) :
    Faithful eest csvPath (past ++ [x]) :=
  always_concat.mpr ⟨hpast, fun path rows h => absurd h (hx path rows)⟩

theorem Faithful.concat_csv {csvPath : Path} {past : List Deed} {rawTxs : List String}
    {rows : List Row} (hpast : Faithful eest (some csvPath) past)
    (hcaptured : .captured rawTxs ∈ past) (hrows : RowsOf eest 0 rawTxs rows) :
    Faithful eest (some csvPath) (past ++ [.wrote csvPath (.csv rows)]) := by
  refine always_concat.mpr ⟨hpast, ?_⟩
  intro path rows' h
  obtain ⟨rfl, hcontent⟩ := Deed.wrote.inj h
  obtain rfl := Content.csv.inj hcontent
  exact ⟨rfl, rawTxs, hcaptured, hrows⟩

theorem RowsOf.length_eq {i : ℕ} {rawTxs : List String} {rows : List Row}
    (h : RowsOf eest i rawTxs rows) : rows.length = rawTxs.length := by
  simpa using congrArg List.length h.columns.2

/-- The number of captured strings, when there is a capture. -/
def Counts (count : Option ℕ) (t : List Deed) : Prop :=
  ∀ n, count = some n → ∃ rawTxs, .captured rawTxs ∈ t ∧ rawTxs.length = n

theorem broadcast_deeds (args : SubmitArgs) (eoaStart : String) {past : List Deed}
    (hpast : Faithful eest args.csvPath past) :
    Follows deedOf Follows.record past (broadcast peer eest args eoaStart)
      (fun result t => Faithful eest args.csvPath t ∧ Counts result.2.2 t)
      (fun _ => Faithful eest args.csvPath) := by
  have hran : ∀ {past : List Deed} (cmd : List String), Faithful eest args.csvPath past →
      Faithful eest args.csvPath (past ++ [.ran cmd]) :=
    fun cmd h => h.concat (by simp)
  unfold broadcast
  cases hcsv : args.csvPath with
  | none =>
      rw [hcsv] at hpast hran
      refine ((runExecute_deeds _ past).mono_error ?_).bind ?_
      · rintro e t rfl
        exact hran _ hpast
      · rintro done t rfl
        exact Follows.pure ⟨hran _ hpast, by simp [Counts]⟩
  | some csvPath =>
      rw [hcsv] at hpast hran
      refine Follows.bind (S := fun captured t => Faithful eest (some csvPath) t ∧
        .captured captured.2.2 ∈ t) ?_ ?_
      · refine withProxy_deeds hpast (fun url => ?_) fun _ _ ht => ht.1
        have hproxied : Faithful eest (some csvPath) (past ++ [.proxied args.rpcUrl url]) :=
          hpast.concat (by simp)
        refine ((runExecute_deeds _ _).mono_error ?_).bind ?_
        · rintro e t rfl
          exact hran _ hproxied
        · rintro ended t rfl
          refine Follows.bind (S := fun rawTxs t => Faithful eest (some csvPath) t ∧
            .captured rawTxs ∈ t) ?_ ?_
          · refine Follows.call (fun st rawTxs => ⟨_, rfl, ?_⟩) fun st e => ⟨_, rfl, hran _ hproxied⟩
            exact ⟨(hran _ hproxied).concat (by simp), by simp⟩
          · exact fun rawTxs t ht => Follows.pure ht
      · rintro ⟨executeOk, err, rawTxs⟩ t ⟨ht, hcaptured⟩
        refine ((enrich_deeds _ 0 rawTxs t).mono_error ?_).bind ?_
        · rintro e t rfl
          exact ht
        · rintro rows t ⟨rfl, hrows⟩
          have hmkdir : Asks peer Idle (call peer (.mkdir csvPath.parent)) := Asks.call fun _ => rfl
          refine idle_bind hmkdir (fun _ => ?_) fun _ => ht
          have hwritten := ht.concat_csv hcaptured hrows
          refine Follows.bind (S := fun _ u => u = t ++ [.wrote csvPath (.csv rows)]) ?_ ?_
          · exact Follows.call (fun _ _ => ⟨_, rfl, rfl⟩) fun _ _ => ⟨_, rfl, hwritten⟩
          · rintro _ u rfl
            refine Follows.pure ⟨hwritten, ?_⟩
            rintro n hn
            obtain rfl := Option.some.inj hn
            exact ⟨rawTxs, by simp [hcaptured], hrows.length_eq.symm⟩

theorem writeRecoveryMeta_deeds (metaPath csvPath : Option Path) (text : Json) {past : List Deed}
    {target : Option Path} (hpast : Faithful eest target past) :
    Follows deedOf Follows.record past (writeRecoveryMeta peer metaPath csvPath text)
      (fun _ => Faithful eest target) (fun _ => Faithful eest target) := by
  unfold writeRecoveryMeta
  refine Follows.lift_bind (fun found => ?_) fun _ => hpast
  cases found with
  | none => exact Follows.pure hpast
  | some path =>
      have hmkdir : Asks peer Idle (call peer (.mkdir path.parent)) := Asks.call fun _ => rfl
      have hwritten : Faithful eest target (past ++ [.wrote path (.json text)]) :=
        hpast.concat (by simp)
      refine idle_bind hmkdir (fun _ => ?_) fun _ => hpast
      refine Follows.bind (S := fun _ => Faithful eest target) ?_ fun _ t ht => Follows.pure ht
      exact Follows.call (fun _ _ => ⟨_, rfl, hwritten⟩) fun _ _ => ⟨_, rfl, hwritten⟩

theorem submitTransactions_deeds (args : SubmitArgs) :
    Follows deedOf Follows.record [] (submitTransactions peer eest args)
      (fun result t => Faithful eest args.csvPath t ∧ Counts result.submittedCount t)
      (fun _ => Faithful eest args.csvPath) := by
  have hnil : Faithful eest args.csvPath [] := faithful_nil _
  have hposts : ∀ {α : Type} {x : Command σ α}, Asks peer Posting x → Asks peer Idle x :=
    fun hx => hx.mono fun _ => Posting.idle
  unfold submitTransactions
  refine idle_bind (hposts posts_chooseEoaStart) (fun eoaStart => ?_) fun _ => hnil
  refine Follows.lift_bind (fun seedAddr => ?_) fun _ => hnil
  refine idle_bind (hposts (asks_attempt (posts_getBalance _ _))) (fun before => ?_) fun _ => hnil
  split
  · exact Follows.pure ⟨hnil, by simp [Counts, abortedResult]⟩
  · unfold launch
    refine (writeRecoveryMeta_deeds _ _ _ hnil).bind fun written t ht => ?_
    refine (broadcast_deeds args eoaStart ht).bind ?_
    rintro ⟨executeOk, err, count⟩ t ⟨ht, hcount⟩
    exact idle_bind (hposts (posts_spent _ _ _)) (fun _ => Follows.pure ⟨ht, hcount⟩) fun _ => ht

variable (peer eest)

/-- A CSV that a submission writes is the text of a capture it has taken before: a reader that
takes cells of their length reads the captured strings in their order, each with its number, and
any other reader fails. The count of a result is that of its capture. -/
theorem submit_csv_replays (writer : CsvWriter) (limit : ℕ) (args : SubmitArgs)
    (w : HostWorld σ) :
    let done := deeds (asked (submitTransactions peer eest args) w)
    Always (fun past x => ∀ path rows text, x = .wrote path (.csv rows) →
        csvText writer rows = some text → args.csvPath = some path ∧
          ∃ rawTxs, .captured rawTxs ∈ past ∧ (Replays limit rawTxs text ↔ Fits writer.str limit rows))
      done ∧
    ∀ result, (submitTransactions peer eest args w).1 = .ok result →
      Counts result.submittedCount done := by
  have hfollows : Follows deedOf Follows.record [] (submitTransactions peer eest args)
      (fun result t => Faithful eest args.csvPath t ∧ Counts result.submittedCount t)
      (fun _ => Faithful eest args.csvPath) := submitTransactions_deeds args
  obtain ⟨hok, herr⟩ := hfollows.of_record w
  have hfaithful : Faithful eest args.csvPath
      (deeds (asked (submitTransactions peer eest args) w)) := by
    rcases hresult : (submitTransactions peer eest args w).1 with e | result
    · exact herr e hresult
    · exact (hok result hresult).1
  refine ⟨?_, fun result hresult => (hok result hresult).2⟩
  intro past x rest hdone path rows text hx htext
  obtain ⟨hpath, rawTxs, hcaptured, hrows⟩ := hfaithful past x rest hdone path rows hx
  exact ⟨hpath, rawTxs, hcaptured, replays_of_rowsOf hrows htext⟩

end EestReplay.Export
