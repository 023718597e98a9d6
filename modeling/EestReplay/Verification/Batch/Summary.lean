import EestReplay.Model.Report

/-! # The summary of a report

The counters of a report against the rows of the table that `write_markdown` prints. -/

namespace EestReplay.BatchReport

/-- The table in the lines of `write_markdown`: a row for each result, under six lines. -/
def tableRows (printing : Printing) (report : BatchReport) : List String :=
  ((report.markdownLines printing).drop 6).take report.total

theorem tableRows_eq (printing : Printing) (report : BatchReport) :
    report.tableRows printing = report.results.map (tableRow printing) := by
  unfold tableRows markdownLines
  simp only [List.cons_append, List.drop_succ_cons, List.drop_zero, List.nil_append]
  exact List.take_left' (by simp [total])

/-- The number of rows that open with a status. -/
def rowsOf (opening : String) (rows : List String) : ℕ :=
  rows.countP (Text.startsWith · ("| " ++ opening ++ " |"))

/-- The summary that the rows of a report make: a counter for each status. -/
structure Summarises (printing : Printing) (report : BatchReport) : Prop where
  passed_eq : report.passed = rowsOf "PASS" (report.tableRows printing)
  failed_eq : report.failed = rowsOf "FAIL" (report.tableRows printing)
  errored_eq : report.errored = rowsOf "ERR" (report.tableRows printing)
  total_eq : report.passed + report.failed + report.errored = report.total

/-! ## The status of a row -/

theorem status_pass_iff (r : FixtureResult) : status r = "PASS" ↔ r.passed = true := by
  unfold status
  split
  · simp [*]
  · split <;> simp [*]

/-- A row says ERR for a text of an error; a passed result has none. -/
theorem status_err_iff (r : FixtureResult) : status r = "ERR" ↔ (nonEmpty r.error).isSome = true := by
  unfold status
  split
  case isTrue hpassed =>
    have hnone : r.error = none := by
      simp only [FixtureResult.passed, Bool.and_eq_true, Option.isNone_iff_eq_none] at hpassed
      exact hpassed.1
    simp [hnone, nonEmpty]
  case isFalse => split <;> simp [*]

/-- Every row opens with one of three statuses. -/
theorem status_cases (r : FixtureResult) :
    status r = "PASS" ∨ status r = "FAIL" ∨ status r = "ERR" := by
  unfold status
  split
  · exact .inl rfl
  · split
    · exact .inr (.inr rfl)
    · exact .inr (.inl rfl)

theorem tableRow_toList (printing : Printing) (r : FixtureResult) :
    ∃ rest, (tableRow printing r).toList = '|' :: ' ' :: (status r).toList ++ ' ' :: '|' :: rest := by
  refine ⟨(" " ++ (nonEmpty r.fork).getD "-" ++ " | " ++ printing.fixed 2 r.elapsedS ++ "s | `" ++
    r.testId ++ "` |").toList, ?_⟩
  simp [tableRow, String.toList_append]

/-- A row opens with the status of its result and with no other. -/
theorem startsWith_tableRow (printing : Printing) (r : FixtureResult) {opening : String}
    (hopening : opening = "PASS" ∨ opening = "FAIL" ∨ opening = "ERR") :
    Text.startsWith (tableRow printing r) ("| " ++ opening ++ " |") = (status r == opening) := by
  obtain ⟨rest, hrow⟩ := tableRow_toList printing r
  unfold Text.startsWith
  rw [hrow]
  rcases hopening with rfl | rfl | rfl <;> rcases status_cases r with h | h | h <;> rw [h] <;>
    simp [List.isPrefixOf]

theorem rowsOf_tableRows (printing : Printing) (report : BatchReport) {opening : String}
    (hopening : opening = "PASS" ∨ opening = "FAIL" ∨ opening = "ERR") :
    rowsOf opening (report.tableRows printing) = report.results.countP (status · == opening) := by
  rw [tableRows_eq, rowsOf, List.countP_map]
  refine List.countP_congr fun r _ => ?_
  rw [Function.comp_apply, startsWith_tableRow printing r hopening]

/-! ## The counters -/

theorem passed_eq_rows (printing : Printing) (report : BatchReport) :
    report.passed = rowsOf "PASS" (report.tableRows printing) := by
  rw [rowsOf_tableRows printing report (.inl rfl)]
  refine List.countP_congr fun r _ => ?_
  simp [status_pass_iff]

/-- Each result has one row. -/
theorem rows_total (printing : Printing) (report : BatchReport) :
    rowsOf "PASS" (report.tableRows printing) + rowsOf "FAIL" (report.tableRows printing) +
      rowsOf "ERR" (report.tableRows printing) = report.total := by
  rw [rowsOf_tableRows printing report (.inl rfl), rowsOf_tableRows printing report (.inr (.inl rfl)),
    rowsOf_tableRows printing report (.inr (.inr rfl)), total]
  induction report.results with
  | nil => rfl
  | cons r rs ih =>
      simp only [List.countP_cons, List.length_cons]
      rcases status_cases r with h | h | h <;> simp [h] <;> omega

/-- `failed` counts the ERR rows as well. -/
theorem failed_eq_rows (printing : Printing) (report : BatchReport) :
    report.failed =
      rowsOf "FAIL" (report.tableRows printing) + rowsOf "ERR" (report.tableRows printing) := by
  have hpassed := passed_eq_rows printing report
  have htotal := rows_total printing report
  unfold failed
  omega

theorem errored_eq_zero_iff (report : BatchReport) :
    report.errored = 0 ↔ ∀ r ∈ report.results, r.error = none := by
  simp [errored, List.countP_eq_zero]

theorem rows_err_eq_zero (printing : Printing) {report : BatchReport}
    (h : ∀ r ∈ report.results, r.error = none) : rowsOf "ERR" (report.tableRows printing) = 0 := by
  rw [rowsOf_tableRows printing report (.inr (.inr rfl)), List.countP_eq_zero]
  intro r hr
  simp [status_err_iff, h r hr, nonEmpty]

/-- A report sums its rows up exactly when no result has an error: an errored result is
counted as failed too. -/
theorem summarises_iff (printing : Printing) (report : BatchReport) :
    Summarises printing report ↔ ∀ r ∈ report.results, r.error = none := by
  have hpassed := passed_eq_rows printing report
  have htotal := rows_total printing report
  have hfailed := failed_eq_rows printing report
  constructor
  · intro h
    rw [← errored_eq_zero_iff]
    have hfail := h.failed_eq
    have herr := h.errored_eq
    omega
  · intro h
    have herr := rows_err_eq_zero printing h
    have herrored := (errored_eq_zero_iff report).mpr h
    exact ⟨hpassed, by omega, by omega, by omega⟩

/-- One errored result: it is counted twice. -/
theorem not_summarises_errored :
    ¬ Summarises ⟨fun value _ => value, fun _ => "0.0", fun _ _ => "0.00", PyError.text, fun _ => 0⟩
      ⟨[{ testId := "tests/test_a.py", blocks := [], error := some "no payloadId for block 1" }]⟩ := by
  intro h
  have htotal := h.total_eq
  revert htotal
  decide

end EestReplay.BatchReport
