import EestReplay.Verification.Submit.Sidecar

/-! # What later writes leave of a sidecar

A sidecar stays readable until another write reaches its file. The writes of the runs that
follow decide: the file holds what the last of them wrote. -/

namespace EestReplay.Export

open Dialogue

variable {σ ι : Type} [DecidableEq ι] {host : Host σ ι} {eest : Eest}

/-! ## The last write to a file -/

/-- The exchange writes to the file. -/
def writesTo (host : Host σ ι) (f : ι) (x : Exchange σ HostReply) : Bool :=
  match x.query.target with
  | some path => host.file path == f
  | none => false

/-- The writes to a file, in their order. -/
def writes (host : Host σ ι) (f : ι) (log : List (Exchange σ HostReply)) :
    List (Exchange σ HostReply) :=
  log.filter (writesTo host f)

theorem writes_append (f : ι) (l m : List (Exchange σ HostReply)) :
    writes host f (l ++ m) = writes host f l ++ writes host f m :=
  List.filter_append l m

theorem writes_eq_nil (f : ι) {log : List (Exchange σ HostReply)}
    (h : ∀ x ∈ log, x.query.target = none) : writes host f log = [] := by
  apply List.filter_eq_nil_iff.mpr
  intro x hx
  simp [writesTo, h x hx]

/-- What a file holds after its writes: the last one's content, or what it held before. -/
def lastContent (before : Option Content) (ws : List (Exchange σ HostReply)) : Option Content :=
  match ws.getLast? with
  | some x => x.query.content
  | none => before

@[simp] theorem lastContent_nil (before : Option Content) :
    lastContent before ([] : List (Exchange σ HostReply)) = before := rfl

@[simp] theorem lastContent_concat (before : Option Content) (ws : List (Exchange σ HostReply))
    (x : Exchange σ HostReply) : lastContent before (ws ++ [x]) = x.query.content := by
  simp [lastContent]

theorem lastContent_eq_getLast (x : Exchange σ HostReply) (ws : List (Exchange σ HostReply)) :
    lastContent x.query.content ws =
      ((x :: ws).getLast (List.cons_ne_nil x ws)).query.content := by
  cases List.eq_nil_or_concat ws with
  | inl hnil =>
      subst hnil
      rfl
  | inr hconcat =>
      obtain ⟨init, y, rfl⟩ := hconcat
      simp [List.concat_eq_append]

/-- After writes that all succeeded, the file holds the content of the last one. -/
theorem disk_of_reach {allowed : HostCall → Prop} {w u : HostWorld σ}
    (hreach : Reach host.peer allowed w u) (f : ι) :
    ∃ new, u.log = w.log ++ new ∧ (∀ x ∈ new, allowed x.query) ∧
      ((∀ x ∈ writes host f new, x.succeeded = true) →
        host.disk u.state f = lastContent (host.disk w.state f) (writes host f new)) := by
  induction hreach with
  | refl => exact ⟨[], by simp, by simp, fun _ => rfl⟩
  | @step u q _ hq ih =>
      obtain ⟨new, hlog, hallowed, hdisk⟩ := ih
      let x : Exchange σ HostReply := ⟨u.state, q, (host.peer.answer u.state q).1⟩
      refine ⟨new ++ [x], by rw [World.step_log, hlog, List.append_assoc], ?_, ?_⟩
      · intro y hy
        rcases List.mem_append.mp hy with hy | hy
        · exact hallowed y hy
        · obtain rfl := List.mem_singleton.mp hy
          exact hq
      · intro hok
        have hsplit : writes host f (new ++ [x]) = writes host f new ++ writes host f [x] :=
          writes_append f new [x]
        have hold : ∀ y ∈ writes host f new, y.succeeded = true := by
          intro y hy
          apply hok
          rw [hsplit]
          exact List.mem_append_left _ hy
        rw [World.step_state, hsplit]
        cases htarget : q.target with
        | none =>
            have hskip : writes host f [x] = [] := by simp [writes, writesTo, x, htarget]
            rw [hskip, List.append_nil, host.frame u.state q f (by simp [htarget])]
            exact hdisk hold
        | some path =>
            by_cases hf : host.file path = f
            · have htake : writes host f [x] = [x] := by simp [writes, writesTo, x, htarget, hf]
              have hx : x.succeeded = true := by
                apply hok
                rw [hsplit, htake]
                exact List.mem_append_right _ (List.mem_singleton_self x)
              rw [htake, lastContent_concat, ← hf]
              exact host.writes u.state q path htarget hx
            · have hskip : writes host f [x] = [] := by simp [writes, writesTo, x, htarget, hf]
              have hframe : host.disk (host.peer.answer u.state q).2 f = host.disk u.state f := by
                apply host.frame
                intro other hother
                obtain rfl := Option.some.inj (htarget.symm.trans hother)
                exact hf
              rw [hskip, List.append_nil, hframe]
              exact hdisk hold

/-! ## One run -/

/-- A run that returned a sidecar path: it wrote its sidecar there before it started
anything, and started `execute` with the start that the sidecar records. -/
def Recorded (host : Host σ ι) (args : SubmitArgs) (w w' : HostWorld σ) (path : Path) : Prop :=
  ∃ u seedAddr eoaStart text, Reach host.peer Inert w u ∧
    Records text seedAddr eoaStart args.chainId args.fork ∧
    (host.peer.answer u.state (.writeText path text)).1.isOk = true ∧
    Reach host.peer (StartsFrom eoaStart) (u.step host.peer (.writeText path text)) w'

omit [DecidableEq ι] in
theorem triple_inert {α : Type} {w : HostWorld σ} {x : Command σ α} (hx : Asks host.peer Inert x) :
    Triple (Reach host.peer Inert w) x (fun _ => Reach host.peer Inert w)
      (fun _ => Reach host.peer Inert w) :=
  hx.triple fun _ q hq hreach => hreach.step q hq

omit [DecidableEq ι] in
theorem writeRecoveryMeta_reach {w : HostWorld σ} (metaPath csvPath : Option Path) (text : Json) :
    Triple (Reach host.peer Inert w) (writeRecoveryMeta host.peer metaPath csvPath text)
      (fun written v => ∀ path, written = some path → ∃ u, Reach host.peer Inert w u ∧
        (host.peer.answer u.state (.writeText path text)).1.isOk = true ∧
        v = u.step host.peer (.writeText path text))
      (fun _ _ => True) := by
  unfold writeRecoveryMeta
  apply Triple.bind (S := fun _ => Reach host.peer Inert w)
  · exact Triple.lift (fun _ _ _ hv => hv) (fun _ _ _ _ => trivial)
  · intro target
    cases target with
    | none => exact Triple.pure fun v hv path hpath => by simp at hpath
    | some path =>
        apply Triple.bind (S := fun _ => Reach host.peer Inert w)
        · apply Triple.call
          · exact fun v _ hv _ => hv.step _ ⟨rfl, by simp [NoPopen]⟩
          · exact fun _ _ _ _ => trivial
        · intro u
          apply Triple.bind (S := fun _ v => ∃ u, Reach host.peer Inert w u ∧
            (host.peer.answer u.state (.writeText path text)).1.isOk = true ∧
            v = u.step host.peer (.writeText path text))
          · apply Triple.call
            · intro v a hv hreply
              exact ⟨v, hv, by rw [hreply]; rfl, rfl⟩
            · exact fun _ _ _ _ => trivial
          · intro a
            apply Triple.pure
            rintro v hv other hother
            obtain rfl := Option.some.inj hother
            exact hv

omit [DecidableEq ι] in
theorem launch_recorded {args : SubmitArgs} {w : HostWorld σ} (seedAddr eoaStart : String)
    (before : Option ℤ) :
    Triple (Reach host.peer Inert w) (launch host.peer eest args seedAddr eoaStart before)
      (fun result w' => ∀ path, result.metaPath = some path → Recorded host args w w' path)
      (fun _ _ => True) := by
  rw [launch_eq]
  apply Triple.bind (writeRecoveryMeta_reach _ _ _)
  intro written v hv
  have hasks : Asks host.peer (StartsFrom eoaStart)
      (afterSidecar host.peer eest args seedAddr eoaStart before written) :=
    asks_afterSidecar args seedAddr eoaStart before written
  have hafter := hasks v
  refine ⟨?_, fun _ _ _ => trivial⟩
  intro result w' hrun path hpath
  have hwritten : written = some path := by
    obtain ⟨r, v₁, -, hrest⟩ := bind_eq_ok.mp hrun
    obtain ⟨spentWei, v₂, -, hend⟩ := bind_eq_ok.mp hrest
    obtain ⟨hresult, -⟩ := Prod.mk.inj hend
    obtain rfl := Except.ok.inj hresult
    exact hpath
  rw [hrun] at hafter
  obtain ⟨u, hreach, hok, rfl⟩ := hv path hwritten
  exact ⟨u, seedAddr, eoaStart, _, hreach, records_recoveryMeta _ _ _ _ _, hok, hafter⟩

omit [DecidableEq ι] in
theorem submitTransactions_recorded {args : SubmitArgs} (w : HostWorld σ) :
    Triple (Reach host.peer Inert w) (submitTransactions host.peer eest args)
      (fun result w' => ∀ path, result.metaPath = some path → Recorded host args w w' path)
      (fun _ _ => True) := by
  have hweak : ∀ {α : Type} {x : Command σ α}, Asks host.peer Inert x →
      Triple (Reach host.peer Inert w) x (fun _ => Reach host.peer Inert w) (fun _ _ => True) :=
    fun hx => (triple_inert hx).conseq (fun _ => id) (fun _ _ => id) fun _ _ _ => trivial
  unfold submitTransactions
  apply Triple.bind (hweak asks_chooseEoaStart)
  intro eoaStart
  apply Triple.bind (hweak (Asks.lift _))
  intro seedAddr
  apply Triple.bind (hweak (asks_attempt (asks_getBalance _ _)))
  intro before
  split
  · exact Triple.pure fun _ _ path hpath => by simp [abortedResult] at hpath
  · exact launch_recorded seedAddr eoaStart before

/-! ## Sequences of runs -/

/-- Runs one after another, however each of them ends. -/
def submitAll (peer : Peer σ HostReply) (eest : Eest) : List SubmitArgs → HostWorld σ → HostWorld σ
  | [], w => w
  | args :: rest, w => submitAll peer eest rest (submitTransactions peer eest args w).2

omit [DecidableEq ι] in
theorem asks_submitTransactions (args : SubmitArgs) :
    Asks host.peer (fun _ => True) (submitTransactions host.peer eest args) := by
  have hany : ∀ {α : Type} {x : Command σ α} {allowed : HostCall → Prop},
      Asks host.peer allowed x → Asks host.peer (fun _ => True) x :=
    fun hx => hx.mono fun _ _ => trivial
  have hcall : ∀ q, Asks host.peer (fun _ => True) (call host.peer q) := fun q => Asks.call trivial
  apply Asks.bind (hany asks_chooseEoaStart)
  intro eoaStart
  apply Asks.bind (Asks.lift _)
  intro seedAddr
  apply Asks.bind (hany (asks_attempt (asks_getBalance _ _)))
  intro before
  split
  · exact Asks.pure _
  · rw [launch_eq]
    refine Asks.bind ?_ fun written => hany (asks_afterSidecar _ _ _ _ written)
    apply Asks.bind (Asks.lift _)
    intro target
    cases target with
    | none => exact Asks.pure _
    | some path => exact (hcall _).bind fun _ => (hcall _).bind fun _ => Asks.pure _

omit [DecidableEq ι] in
theorem reach_submitAll (runs : List SubmitArgs) (w : HostWorld σ) :
    Reach host.peer (fun _ => True) w (submitAll host.peer eest runs w) := by
  induction runs generalizing w with
  | nil => exact .refl
  | cons args runs ih => exact (asks_submitTransactions args w).trans (ih _)

/-- The exchange wrote a JSON text that records the start. -/
def RecordsStart (x : Exchange σ HostReply) (eoaStart : String) : Prop :=
  ∃ path text, x.query = .writeText path text ∧ text.item "eoa_start" = .ok (.str eoaStart)

/-- The start can be read from the file of the path. -/
def Readable (host : Host σ ι) (s : σ) (path : Path) (eoaStart : String) : Prop :=
  ∃ text, host.disk s (host.file path) = some (.json text) ∧
    text.item "eoa_start" = .ok (.str eoaStart)

omit [DecidableEq ι] in
theorem readable_iff_of_content {s : σ} {path : Path} {eoaStart : String}
    {x : Exchange σ HostReply} (h : host.disk s (host.file path) = x.query.content) :
    Readable host s path eoaStart ↔ RecordsStart x eoaStart := by
  unfold Readable RecordsStart
  rw [h]
  cases x.query <;> simp [HostCall.content]

omit [DecidableEq ι] in
/-- The log of a run that returned a sidecar path and started `execute`: its sidecar records
that start, nothing was written before it, and no sidecar behind it. -/
theorem run_log {args : SubmitArgs} {w₁ w₂ : HostWorld σ} {result : SubmitResult} {path : Path}
    {eoaStart : String}
    (hrun : submitTransactions host.peer eest args w₁ = (.ok result, w₂))
    (hpath : result.metaPath = some path)
    (hstart : ∃ x ∈ w₂.log.drop w₁.log.length, ∃ cmd cwd,
      x.query = .popen cmd cwd ∧ eoaStartOf cmd = some eoaStart) :
    ∃ (u : HostWorld σ) (text : Json) (early late : List (Exchange σ HostReply)),
      u.log = w₁.log ++ early ∧ (∀ x ∈ early, Inert x.query) ∧
      text.item "eoa_start" = .ok (.str eoaStart) ∧
      (host.peer.answer u.state (.writeText path text)).1.isOk = true ∧
      Reach host.peer (StartsFrom eoaStart) (u.step host.peer (.writeText path text)) w₂ ∧
      w₂.log = (u.step host.peer (.writeText path text)).log ++ late ∧
      ∀ x ∈ late, StartsFrom eoaStart x.query := by
  have hrecorded : Triple (Reach host.peer Inert w₁) (submitTransactions host.peer eest args)
      (fun result w' => ∀ path, result.metaPath = some path → Recorded host args w₁ w' path)
      (fun _ _ => True) := submitTransactions_recorded w₁
  obtain ⟨u, seedAddr, start, text, hinert, hrecords, hok, hreach⟩ :=
    (hrecorded w₁ .refl).1 result w₂ hrun path hpath
  obtain ⟨early, hearly, hquiet⟩ := hinert.log_eq
  obtain ⟨late, hlate, hstarts⟩ := hreach.log_eq
  -- Only the part behind the sidecar starts `execute`, and it does so from `start`.
  have heq : start = eoaStart := by
    obtain ⟨x, hx, cmd, cwd, hpopen, hcmd⟩ := hstart
    rw [hlate, World.step_log, hearly, List.append_assoc, List.append_assoc, List.drop_left] at hx
    rcases List.mem_append.mp hx with hx | hx
    · exact absurd hpopen ((hquiet x hx).2 cmd cwd)
    · rcases List.mem_cons.mp hx with rfl | hx
      · simp at hpopen
      · have hfrom := (hstarts x hx).2 cmd cwd hpopen
        rw [hfrom] at hcmd
        exact Option.some.inj hcmd
  subst heq
  exact ⟨u, text, early, late, hearly, hquiet, hrecords.eoaStart, hok, hreach, hlate, hstarts⟩

/-- A run's start after the runs that follow it, whatever ran before: the run's own sidecar
is the first write to the file it returned, and when the writes that follow it there
succeed, the start is readable at the end exactly when the last of them all records it. -/
theorem eoaStart_readable_iff {args : SubmitArgs} (after : List SubmitArgs)
    {w₁ w₂ : HostWorld σ} {result : SubmitResult} {path : Path} {eoaStart : String}
    (hrun : submitTransactions host.peer eest args w₁ = (.ok result, w₂))
    (hpath : result.metaPath = some path)
    (hstart : ∃ x ∈ w₂.log.drop w₁.log.length, ∃ cmd cwd,
      x.query = .popen cmd cwd ∧ eoaStartOf cmd = some eoaStart) :
    ∃ own later,
      writes host (host.file path)
        ((submitAll host.peer eest after w₂).log.drop w₁.log.length) = own :: later ∧
      own.succeeded = true ∧ RecordsStart own eoaStart ∧
      ((∀ x ∈ later, x.succeeded = true) →
        (Readable host (submitAll host.peer eest after w₂).state path eoaStart ↔
          RecordsStart ((own :: later).getLast (List.cons_ne_nil own later)) eoaStart)) := by
  obtain ⟨u, text, early, late, hearly, hquiet, hrecords, hok, hreach, -, -⟩ :=
    run_log hrun hpath hstart
  let own : Exchange σ HostReply :=
    ⟨u.state, .writeText path text, (host.peer.answer u.state (.writeText path text)).1⟩
  have hrest : Reach host.peer (fun _ => True) (u.step host.peer (.writeText path text))
      (submitAll host.peer eest after w₂) :=
    (hreach.mono fun _ _ => trivial).trans (reach_submitAll after w₂)
  obtain ⟨new, hnew, -, hdisk⟩ := disk_of_reach hrest (host.file path)
  have hwrites : writes host (host.file path)
      ((submitAll host.peer eest after w₂).log.drop w₁.log.length) =
        own :: writes host (host.file path) new := by
    have hsince : (submitAll host.peer eest after w₂).log =
        w₁.log ++ (early ++ ([own] ++ new)) := by
      rw [hnew, World.step_log, hearly]
      simp [own]
    have hown : writes host (host.file path) [own] = [own] := by
      simp [writes, writesTo, own, HostCall.target]
    rw [hsince, List.drop_left, writes_append, writes_append, hown,
      writes_eq_nil _ fun x hx => (hquiet x hx).1]
    rfl
  refine ⟨own, writes host (host.file path) new, hwrites, hok, ?_, ?_⟩
  · exact ⟨path, text, rfl, hrecords⟩
  · intro hlater
    apply readable_iff_of_content
    have hfirst : host.disk (u.step host.peer (.writeText path text)).state (host.file path) =
        own.query.content :=
      host.writes u.state (.writeText path text) path rfl hok
    rw [hdisk hlater, hfirst]
    exact lastContent_eq_getLast own _

/-! ## The files of a run -/

/-- Where a run puts its sidecar, if anywhere. -/
def SubmitArgs.sidecar (args : SubmitArgs) : Option Path :=
  match args.metaPath, args.csvPath with
  | some path, _ => some path
  | none, some csv => (csv.withSuffix ".recovery.json").toOption
  | none, none => none

/-- What the run writes goes to its sidecar and to its CSV. -/
structure Places (args : SubmitArgs) (q : HostCall) : Prop where
  sidecar : ∀ path text, q = .writeText path text → args.sidecar = some path
  csv : ∀ path rows, q = .writeCsv path rows → args.csvPath = some path

omit [DecidableEq ι] in
theorem places_of_target {args : SubmitArgs} {q : HostCall} (h : q.target = none) :
    Places args q where
  sidecar path text he := by
    rw [he] at h
    cases h
  csv path rows he := by
    rw [he] at h
    cases h

section

variable {peer : Peer σ HostReply}

theorem asks_sidecar (args : SubmitArgs) (text : Json) :
    Asks peer (Places args) (writeRecoveryMeta peer args.metaPath args.csvPath text) := by
  apply Asks.lift_bind
  intro target htarget
  cases target with
  | none => exact Asks.pure _
  | some path =>
      have hsidecar : args.sidecar = some path := by
        unfold SubmitArgs.sidecar
        cases hmeta : args.metaPath with
        | some own =>
            rw [hmeta] at htarget
            exact Except.ok.inj htarget
        | none =>
            rw [hmeta] at htarget
            cases hcsv : args.csvPath with
            | none =>
                rw [hcsv] at htarget
                cases htarget
            | some csv =>
                rw [hcsv] at htarget
                dsimp only at htarget ⊢
                cases hsuffix : csv.withSuffix ".recovery.json" with
                | error e =>
                    rw [hsuffix] at htarget
                    cases htarget
                | ok path' =>
                    rw [hsuffix] at htarget
                    exact Except.ok.inj htarget
      have hwrite : Places args (.writeText path text) := by
        refine ⟨?_, by simp⟩
        rintro other text' he
        obtain ⟨rfl, -⟩ := HostCall.writeText.inj he
        exact hsidecar
      apply Asks.bind (Asks.call (places_of_target rfl))
      intro u
      exact (Asks.call hwrite).bind fun _ => Asks.pure _

theorem broadcast_places (args : SubmitArgs) (eoaStart : String) :
    Asks peer (Places args) (broadcast peer eest args eoaStart) := by
  unfold broadcast
  cases hcsv : args.csvPath with
  | none =>
      apply Asks.bind ((asks_runExecute (executeArgs eest args eoaStart args.rpcUrl)).mono
        fun q hq => places_of_target hq.1)
      exact fun r => Asks.pure _
  | some csvPath =>
      apply Asks.bind ((asks_capture args eoaStart).mono fun q hq => places_of_target hq.1)
      intro r
      apply Asks.bind ((asks_enrich _ _ _).mono fun q hq => places_of_target hq.1)
      intro rows
      have hwrite : Places args (.writeCsv csvPath rows) := by
        refine ⟨by simp, ?_⟩
        rintro other rows' he
        obtain ⟨rfl, -⟩ := HostCall.writeCsv.inj he
        exact hcsv
      apply Asks.bind (Asks.call (places_of_target rfl))
      intro u
      exact (Asks.call hwrite).bind fun _ => Asks.pure _

variable (eest) in
theorem asks_places (args : SubmitArgs) :
    Asks peer (Places args) (submitTransactions peer eest args) := by
  have hinert : ∀ q, Inert q → Places args q := fun q hq => places_of_target hq.1
  apply Asks.bind (asks_chooseEoaStart.mono hinert)
  intro eoaStart
  apply Asks.bind (Asks.lift _)
  intro seedAddr
  apply Asks.bind ((asks_attempt (asks_getBalance _ _)).mono hinert)
  intro before
  split
  · exact Asks.pure _
  · rw [launch_eq]
    apply Asks.bind (asks_sidecar args _)
    intro written
    apply Asks.bind (broadcast_places args eoaStart)
    intro r
    exact ((asks_spent args seedAddr before).mono hinert).bind fun _ => Asks.pure _

end

/-- The run writes nothing to the file. -/
def SubmitArgs.Spares (file : Path → ι) (f : ι) (args : SubmitArgs) : Prop :=
  (∀ path ∈ args.sidecar, file path ≠ f) ∧ ∀ path ∈ args.csvPath, file path ≠ f

instance (file : Path → ι) (f : ι) (args : SubmitArgs) : Decidable (args.Spares file f) :=
  inferInstanceAs (Decidable (_ ∧ _))

/-- Each sidecar of the sequence has its file to itself: neither the CSV of its own run nor the
sidecar or the CSV of a later one goes there. -/
structure Apart (file : Path → ι) (runs : List SubmitArgs) : Prop where
  own : ∀ args ∈ runs, ∀ path ∈ args.sidecar, ∀ csv ∈ args.csvPath, file csv ≠ file path
  later : runs.Pairwise fun args later => ∀ path ∈ args.sidecar, later.Spares file (file path)

omit [DecidableEq ι] in
theorem submitAll_append (before after : List SubmitArgs) (w : HostWorld σ) :
    submitAll host.peer eest (before ++ after) w =
      submitAll host.peer eest after (submitAll host.peer eest before w) := by
  induction before generalizing w with
  | nil => rfl
  | cons args before ih => exact ih _

variable (host eest) in
omit [DecidableEq ι] in
/-- Every write of a sequence of runs is placed by one of them. -/
theorem submitAll_places (runs : List SubmitArgs) (w : HostWorld σ) :
    ∃ new, (submitAll host.peer eest runs w).log = w.log ++ new ∧
      ∀ x ∈ new, ∃ args ∈ runs, Places args x.query := by
  induction runs generalizing w with
  | nil => exact ⟨[], by simp [submitAll], by simp⟩
  | cons args runs ih =>
      obtain ⟨first, hfirst, hplaced⟩ := (asks_places eest args w).log_eq
      obtain ⟨rest, hrest, hothers⟩ := ih (submitTransactions host.peer eest args w).2
      refine ⟨first ++ rest, by rw [submitAll, hrest, hfirst, List.append_assoc], ?_⟩
      intro x hx
      rcases List.mem_append.mp hx with hx | hx
      · exact ⟨args, List.mem_cons_self, hplaced x hx⟩
      · obtain ⟨other, hmem, hother⟩ := hothers x hx
        exact ⟨other, List.mem_cons_of_mem _ hmem, hother⟩

/-- What a run that spares the file writes does not go there. -/
theorem writesTo_of_spares {args : SubmitArgs} {f : ι} {x : Exchange σ HostReply}
    (hplaces : Places args x.query) (hspares : args.Spares host.file f) :
    writesTo host f x = false := by
  obtain ⟨s, q, reply⟩ := x
  cases q with
  | writeText path text =>
      exact beq_false_of_ne (hspares.1 path (hplaces.sidecar path text rfl))
  | writeCsv path rows => exact beq_false_of_ne (hspares.2 path (hplaces.csv path rows rfl))
  | _ => rfl

/-- Behind its sidecar a run writes the CSV only, which goes elsewhere. -/
theorem writesTo_of_startsFrom {args : SubmitArgs} {eoaStart : String} {f : ι}
    {x : Exchange σ HostReply} (hplaces : Places args x.query)
    (hstarts : StartsFrom eoaStart x.query)
    (hcsv : ∀ csv, args.csvPath = some csv → host.file csv ≠ f) : writesTo host f x = false := by
  obtain ⟨s, q, reply⟩ := x
  cases q with
  | writeText path text => exact absurd rfl (hstarts.1 path text)
  | writeCsv path rows => exact beq_false_of_ne (hcsv path (hplaces.csv path rows rfl))
  | _ => rfl

theorem writes_eq_nil_iff {f : ι} {log : List (Exchange σ HostReply)} :
    writes host f log = [] ↔ ∀ x ∈ log, writesTo host f x = false := by
  simp [writes]

/-- In a sequence of runs that keep their files apart, every start is readable at the end from
the path that its run returned. -/
theorem eoaStart_readable_of_apart {before after : List SubmitArgs} {args : SubmitArgs}
    {w w₂ : HostWorld σ} {result : SubmitResult} {path : Path} {eoaStart : String}
    (hapart : Apart host.file (before ++ args :: after))
    (hrun : submitTransactions host.peer eest args (submitAll host.peer eest before w) =
      (.ok result, w₂))
    (hpath : result.metaPath = some path)
    (hstart : ∃ x ∈ w₂.log.drop (submitAll host.peer eest before w).log.length, ∃ cmd cwd,
      x.query = .popen cmd cwd ∧ eoaStartOf cmd = some eoaStart) :
    Readable host (submitAll host.peer eest (before ++ args :: after) w).state path eoaStart := by
  have hend : submitAll host.peer eest (before ++ args :: after) w =
      submitAll host.peer eest after w₂ := by
    rw [submitAll_append, submitAll, hrun]
  obtain ⟨own, later, hwrites, -, hown, hreadable⟩ :=
    eoaStart_readable_iff after hrun hpath hstart
  obtain ⟨u, text, early, late, hearly, hquiet, -, -, -, hlate, hstarts⟩ :=
    run_log hrun hpath hstart
  obtain ⟨rest, hrest, hplaced⟩ := submitAll_places host eest after w₂
  have hself : ∀ x ∈ w₂.log.drop (submitAll host.peer eest before w).log.length,
      Places args x.query := by
    obtain ⟨new, hnew, hplaces⟩ :=
      (asks_places eest args (submitAll host.peer eest before w)).log_eq
    rw [hrun] at hnew
    rw [hnew, List.drop_left]
    exact hplaces
  let sidecar : Exchange σ HostReply :=
    ⟨u.state, .writeText path text, (host.peer.answer u.state (.writeText path text)).1⟩
  have hlog : w₂.log =
      (submitAll host.peer eest before w).log ++ (early ++ ([sidecar] ++ late)) := by
    rw [hlate, World.step_log, hearly]
    simp [sidecar]
  rw [hlog, List.drop_left] at hself
  have hsidecar : args.sidecar = some path :=
    (hself sidecar (by simp)).sidecar path text rfl
  have hlateNil : writes host (host.file path) late = [] := by
    apply writes_eq_nil_iff.mpr
    intro x hx
    exact writesTo_of_startsFrom (hself x (by simp [hx])) (hstarts x hx)
      (hapart.own args (by simp) path hsidecar)
  have hrestNil : writes host (host.file path) rest = [] := by
    apply writes_eq_nil_iff.mpr
    intro x hx
    obtain ⟨run, hmem, hplaces⟩ := hplaced x hx
    have hpairs := (List.pairwise_append.mp hapart.later).2.1
    exact writesTo_of_spares hplaces ((List.pairwise_cons.mp hpairs).1 run hmem path hsidecar)
  have hfirst : writes host (host.file path) [sidecar] = [sidecar] := by
    simp [writes, writesTo, sidecar, HostCall.target]
  have hlater : later = [] := by
    rw [hrest, hlog, List.append_assoc, List.drop_left, writes_append, writes_append, writes_append,
      writes_eq_nil _ fun x hx => (hquiet x hx).1, hfirst, hlateNil, hrestNil] at hwrites
    exact (List.cons.inj hwrites).2.symm
  subst hlater
  rw [hend]
  exact (hreadable (by simp)).mpr hown

/-- A host whose disk is a map, on which `execute` passes and submits nothing. -/
def memory : Host (Path → Option Content) Path where
  peer.answer disk
    | .randbits k => (.ok ⟨0, Nat.two_pow_pos k⟩, disk)
    | .startProxy _ => (.ok "http://127.0.0.1:9000", disk)
    | .snapshot => (.ok [], disk)
    | .stopProxy => (.ok (), disk)
    | .popen _ _ => (.ok (), disk)
    | .communicate _ => (.ok { returncode := 0 }, disk)
    | .mkdir _ => (.ok (), disk)
    | .readText path =>
      (match disk path with
        | some (.json text) => .ok text
        | _ => .error ⟨.osError, "no such file"⟩, disk)
    | .writeText path text => (.ok (), Function.update disk path (some (.json text)))
    | .writeCsv path rows => (.ok (), Function.update disk path (some (.csv rows)))
    | _ => (.error ⟨.osError, "unavailable"⟩, disk)
  file := id
  disk s := s
  frame s q f hq := by
    cases q <;> simp_all [HostCall.target, eq_comm]
  writes s q path htarget hok := by
    cases q <;> simp_all [HostCall.target, HostCall.content]
  reads_text s path text h := by
    dsimp only at h
    split at h
    · rename_i hdisk
      exact hdisk.trans (congrArg (fun t => some (Content.json t)) (Except.ok.inj h))
    · cases h

def csvRun (csv eoaStart : String) : SubmitArgs :=
  { bareArgs with csvPath := some ⟨"", ["out", csv]⟩, eoaStart := some eoaStart }

def emptyDisk : HostWorld (Path → Option Content) := ⟨fun _ => none, []⟩

/-- Two runs whose CSVs differ in their stems. -/
theorem apart_csvRun : Apart memory.file ([] ++ csvRun "a.csv" "1" :: [csvRun "b.csv" "2"]) where
  own := by decide
  later := by decide

theorem eoaStart_readable_of_apart_csvRun :
    ∃ result w₂ path,
      submitTransactions memory.peer plainEest (csvRun "a.csv" "1") emptyDisk =
        (.ok result, w₂) ∧ result.metaPath = some path ∧
      Readable memory
        (submitAll memory.peer plainEest ([] ++ csvRun "a.csv" "1" :: [csvRun "b.csv" "2"])
          emptyDisk).state path "1" := by
  refine ⟨_, _, ⟨"", ["out", "a.recovery.json"]⟩, rfl, rfl, ?_⟩
  have hrun : submitTransactions memory.peer plainEest (csvRun "a.csv" "1")
      (submitAll memory.peer plainEest [] emptyDisk) = (.ok _, _) := rfl
  exact eoaStart_readable_of_apart apart_csvRun hrun rfl
    ⟨_, List.mem_of_getElem? (i := 4) rfl, _, _, rfl, rfl⟩

/-- Two CSVs that differ in their suffix only share one sidecar: the second run replaces
the first run's start. -/
theorem replaced_csvRun :
    ∃ result w₂ path,
      submitTransactions memory.peer plainEest (csvRun "a.csv" "1") emptyDisk =
        (.ok result, w₂) ∧ result.metaPath = some path ∧
      ¬ Readable memory (submitAll memory.peer plainEest [csvRun "a.txt" "2"] w₂).state path "1" := by
  refine ⟨_, _, ⟨"", ["out", "a.recovery.json"]⟩, rfl, rfl, ?_⟩
  rintro ⟨text, hdisk, hstart⟩
  obtain rfl := Content.json.inj (Option.some.inj hdisk)
  have heq : "2" = "1" := Json.str.inj (Except.ok.inj hstart)
  exact absurd heq (by decide)

end EestReplay.Export
