import EestReplay.Library.Dict
import EestReplay.Verification.Submit.Rows

/-! # Reading a CSV back

A consumer of the CSV reads its rows by their columns, and submits each `raw` in the order of
`seq`. What it reads is the capture, as long as its reader takes cells of their length. -/

namespace EestReplay.Export

/-- `csv.DictReader`: the first record names the columns, and a record without cells is skipped. -/
def dictRecords : List (List String) → List (List (String × String))
  | [] => []
  | header :: records => (records.filter (· ≠ [])).map header.zip

/-- The rows that a reader with this limit on its cells reads from a text. -/
def dictRows (limit : ℕ) (text : String) : Except Csv.ReadError (List (List (String × String))) :=
  (Csv.read .excel limit text.toList).map fun records =>
    dictRecords (records.map fun record => record.map String.ofList)

/-- One column of the rows. -/
def column (name : String) (rows : List (List (String × String))) : List (Option String) :=
  rows.map fun row => row.lookup name

/-- A captured string as it stands in its column. -/
def prefixed (captured : String) : String :=
  if Text.startsWith captured "0x" then captured else "0x" ++ captured

/-- The text holds the capture: what is read are its strings, numbered in their order. -/
def Replays (limit : ℕ) (rawTxs : List String) (text : String) : Prop :=
  ∃ rows, dictRows limit text = .ok rows ∧
    column "seq" rows = (List.range rawTxs.length).map (fun seq => some (toString seq)) ∧
    column "raw" rows = rawTxs.map fun captured => some (prefixed captured)

variable {pyStr : Json → String} {writer : CsvWriter} {limit : ℕ} {eest : Eest}

/-- The records of the file. -/
def csvRecords (pyStr : Json → String) (rows : List Row) : List (List String) :=
  csvColumns :: rows.map (csvRecord pyStr)

/-- No cell of the file is too long for its reader. -/
def Fits (pyStr : Json → String) (limit : ℕ) (rows : List Row) : Prop :=
  ∀ record ∈ csvRecords pyStr rows, ∀ cell ∈ record, cell.length ≤ limit

theorem dictRows_csvText {rows : List Row} {text : String} (h : csvText writer rows = some text) :
    (Fits writer.str limit rows → dictRows limit text = .ok (dictRecords (csvRecords writer.str rows))) ∧
      (¬ Fits writer.str limit rows → dictRows limit text = .error .fieldTooLong) := by
  have htext : text.toList =
      Csv.writeAll .excel ((csvRecords writer.str rows).map fun record => record.map String.toList) := by
    unfold csvText at h
    split at h
    · rw [← Option.some.inj h, String.toList_ofList]
      rfl
    · cases h
  have hback : ((csvRecords writer.str rows).map fun record => record.map String.toList).map
      (fun record => record.map String.ofList) = csvRecords writer.str rows := by
    simp [Function.comp_def]
  have hfits : (∀ record ∈ (csvRecords writer.str rows).map fun record => record.map String.toList,
      ∀ cell ∈ record, cell.length ≤ limit) ↔ Fits writer.str limit rows := by
    simp [Fits, String.length_toList]
  unfold dictRows
  rw [htext, Csv.read_writeAll]
  constructor
  · intro hyes
    rw [if_pos (hfits.mpr hyes)]
    exact congrArg Except.ok (congrArg dictRecords hback)
  · intro hno
    rw [if_neg (mt hfits.mp hno)]
    rfl

theorem dictRecords_csvRecords (rows : List Row) :
    dictRecords (csvRecords pyStr rows) =
      rows.map fun row => csvColumns.zip (csvRecord pyStr row) := by
  have hcells : ∀ row : Row, csvRecord pyStr row ≠ [] := by
    intro row hnil
    have hlength := congrArg List.length hnil
    simp [csvRecord, csvColumns] at hlength
  have hkept : (rows.map (csvRecord pyStr)).filter (· ≠ []) = rows.map (csvRecord pyStr) := by
    apply List.filter_eq_self.mpr
    intro record hmem
    obtain ⟨row, -, rfl⟩ := List.mem_map.mp hmem
    simpa using hcells row
  rw [csvRecords, dictRecords, hkept, List.map_map]
  rfl

theorem column_csvRecords {name : String} (hname : name ∈ csvColumns) (rows : List Row) :
    column name (dictRecords (csvRecords pyStr rows)) =
      rows.map fun row => some (((row.lookup name).map (cellText pyStr)).getD "") := by
  rw [dictRecords_csvRecords, column, List.map_map]
  apply List.map_congr_left
  intro row _
  exact Dict.lookup_zip_map _ hname

theorem Captures.prefixed {i : ℕ} {captured : String} {row : Row} (h : Captures eest i captured row) :
    row.lookup "raw" = some (.str (prefixed captured)) := by
  obtain ⟨text, hlookup, hstart, hsame⟩ := h.raw
  obtain ⟨cs, hcs⟩ := startsWith_iff.mp hstart
  have htext : text = "0x" ++ String.ofList cs := String.toList_inj.mp (by simp [hcs])
  rw [hlookup, htext]
  rw [htext, removePrefix_append] at hsame
  unfold Export.prefixed
  split
  next h0x =>
    obtain ⟨ds, hds⟩ := startsWith_iff.mp h0x
    have hcaptured : captured = "0x" ++ String.ofList ds := String.toList_inj.mp (by simp [hds])
    rw [hcaptured, removePrefix_append] at hsame
    rw [hcaptured, hsame]
  next h0x =>
    rw [removePrefix_of_not (by simpa using h0x)] at hsame
    rw [hsame]

theorem RowsOf.columns {i : ℕ} {rawTxs : List String} {rows : List Row} (h : RowsOf eest i rawTxs rows) :
    (rows.map fun row => row.lookup "seq") =
        (List.range' i rawTxs.length).map (fun seq : ℕ => some (Json.int seq)) ∧
      (rows.map fun row => row.lookup "raw") =
        rawTxs.map fun captured => some (Json.str (prefixed captured)) := by
  induction rawTxs generalizing i rows with
  | nil =>
      obtain rfl : rows = [] := h
      simp
  | cons captured rawTxs ih =>
      obtain ⟨first, rest, rfl, hfirst, hrest⟩ := h
      obtain ⟨hseqs, hraws⟩ := ih hrest
      constructor
      · simp [hseqs, hfirst.seq, List.range'_succ]
      · simp [hraws, hfirst.prefixed]

/-- The text of a capture's rows is read back, unless a cell is too long for the reader. -/
theorem replays_of_rowsOf {rawTxs : List String} {rows : List Row} {text : String}
    (hrows : RowsOf eest 0 rawTxs rows) (htext : csvText writer rows = some text) :
    Replays limit rawTxs text ↔ Fits writer.str limit rows := by
  have hread : (Fits writer.str limit rows →
      dictRows limit text = .ok (dictRecords (csvRecords writer.str rows))) ∧
        (¬ Fits writer.str limit rows → dictRows limit text = .error .fieldTooLong) :=
    dictRows_csvText htext
  obtain ⟨hyes, hno⟩ := hread
  constructor
  · rintro ⟨read, hread, -⟩
    by_contra hfits
    rw [hno hfits] at hread
    cases hread
  · intro hfits
    refine ⟨_, hyes hfits, ?_⟩
    obtain ⟨hseqs, hraws⟩ := hrows.columns
    have hcolumn : ∀ {name : String}, name ∈ csvColumns →
        column name (dictRecords (csvRecords writer.str rows)) =
          (rows.map fun row => row.lookup name).map fun cell =>
            some ((cell.map (cellText writer.str)).getD "") := fun hname => by
      rw [column_csvRecords hname, List.map_map]
      rfl
    rw [hcolumn (by decide), hcolumn (by decide), hseqs, hraws, List.range_eq_range']
    constructor
    · have hnumeral : ∀ seq : ℕ, toString (seq : ℤ) = toString seq := fun _ => rfl
      simp only [List.map_map, Function.comp_def, Option.map_some, Option.getD_some, cellText, hnumeral]
    · simp [cellText]

end EestReplay.Export
