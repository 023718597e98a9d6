import Mathlib.Data.List.Basic
import Mathlib.Tactic.Common

/-! # CSV texts

A writer that quotes a cell only where it has to, and a reader that goes through the characters
of a file line by line. What is written is read back, as long as no cell is longer than the
reader's limit. -/

namespace Csv

/-- Neither character of a dialect is the other, or breaks a line. -/
structure Dialect where
  delimiter : Char
  quote : Char
  distinct : delimiter ≠ quote
  delimiter_inline : delimiter ≠ '\r' ∧ delimiter ≠ '\n'
  quote_inline : quote ≠ '\r' ∧ quote ≠ '\n'

def Dialect.excel : Dialect where
  delimiter := ','
  quote := '"'
  distinct := by decide
  delimiter_inline := by decide
  quote_inline := by decide

variable (d : Dialect)

/-! ## The writer -/

/-- A character for which its cell is quoted. -/
def Dialect.special (c : Char) : Bool :=
  c = d.delimiter || c = d.quote || c = '\r' || c = '\n'

/-- The quotes of a cell, doubled. -/
def escape : List Char → List Char
  | [] => []
  | c :: cs => if c = d.quote then c :: c :: escape cs else c :: escape cs

def quoted (cell : List Char) : List Char := d.quote :: (escape d cell ++ [d.quote])

def writeCell (cell : List Char) : List Char :=
  if cell.any d.special then quoted d cell else cell

def joinCells : List (List Char) → List Char
  | [] => []
  | [cell] => writeCell d cell
  | cell :: cells => writeCell d cell ++ d.delimiter :: joinCells cells

/-- A single empty cell is quoted, since the line would be empty otherwise. -/
def writeRecord : List (List Char) → List Char
  | [[]] => quoted d [] ++ ['\r', '\n']
  | cells => joinCells d cells ++ ['\r', '\n']

def writeAll (records : List (List (List Char))) : List Char := records.flatMap (writeRecord d)

/-! ## The reader -/

inductive Mode where
  | startRecord
  | startField
  | inField
  | inQuoted
  | quoteInQuoted
  | eatNewline
  deriving DecidableEq

inductive ReadError where
  | fieldTooLong
  | newlineInField
  deriving DecidableEq

structure Reader where
  mode : Mode := .startRecord
  field : List Char := []
  fields : List (List Char) := []
  records : List (List (List Char)) := []

def Reader.add (limit : ℕ) (mode : Mode) (c : Char) (r : Reader) : Except ReadError Reader :=
  if r.field.length < limit then .ok { r with mode := mode, field := r.field ++ [c] }
  else .error .fieldTooLong

def Reader.save (mode : Mode) (r : Reader) : Reader :=
  { r with mode := mode, field := [], fields := r.fields ++ [r.field] }

def Reader.emit (r : Reader) : Reader := { r with fields := [], records := r.records ++ [r.fields] }

def isNewline (c : Char) : Bool := c = '\n' || c = '\r'

/-- A character at the start of a field. -/
def readStart (limit : ℕ) (c : Char) (r : Reader) : Except ReadError Reader :=
  if isNewline c then .ok (r.save .eatNewline)
  else if c = d.quote then .ok { r with mode := .inQuoted }
  else if c = d.delimiter then .ok (r.save .startField)
  else r.add limit .inField c

def readChar (limit : ℕ) (c : Char) (r : Reader) : Except ReadError Reader :=
  match r.mode with
  | .startRecord => if isNewline c then .ok { r with mode := .eatNewline } else readStart d limit c r
  | .startField => readStart d limit c r
  | .inField =>
    if isNewline c then .ok (r.save .eatNewline)
    else if c = d.delimiter then .ok (r.save .startField)
    else r.add limit .inField c
  | .inQuoted => if c = d.quote then .ok { r with mode := .quoteInQuoted } else r.add limit .inQuoted c
  | .quoteInQuoted =>
    if c = d.quote then r.add limit .inQuoted c
    else if c = d.delimiter then .ok (r.save .startField)
    else if isNewline c then .ok (r.save .eatNewline)
    else r.add limit .inField c
  | .eatNewline => if isNewline c then .ok r else .error .newlineInField

/-- The end of a line, which ends the record unless a quote is open. -/
def readLineEnd (r : Reader) : Reader :=
  match r.mode with
  | .startRecord => r.emit
  | .inQuoted => r
  | .eatNewline => { r with mode := .startRecord }.emit
  | _ => (r.save .startRecord).emit

/-- The line ends behind the character: the newlines are those of every platform. -/
def endsLine (c : Char) (rest : List Char) : Bool :=
  c = '\n' || (c = '\r' && rest.head? ≠ some '\n') || rest.isEmpty

def feed (limit : ℕ) : Reader → List Char → Except ReadError Reader
  | r, [] => .ok r
  | r, c :: rest => do
    let r ← readChar d limit c r
    feed limit (if endsLine c rest then readLineEnd r else r) rest

/-- What is left when the file ends within a quote. -/
def Reader.finish (r : Reader) : List (List (List Char)) :=
  if r.field ≠ [] ∨ r.mode = .inQuoted then (r.save .startRecord).emit.records else r.records

/-- The records of a file. -/
def read (limit : ℕ) (text : List Char) : Except ReadError (List (List (List Char))) :=
  (feed d limit {} text).map Reader.finish

/-! ## Reading what was written -/

variable {d} {limit : ℕ}

theorem feed_cons_of_ok {r r' : Reader} {c : Char} {rest : List Char}
    (h : readChar d limit c r = .ok r') :
    feed d limit r (c :: rest) =
      feed d limit (if endsLine c rest then readLineEnd r' else r') rest := by
  simp only [feed, h]
  rfl

theorem feed_cons_of_error {r : Reader} {c : Char} {rest : List Char} {e : ReadError}
    (h : readChar d limit c r = .error e) : feed d limit r (c :: rest) = .error e := by
  simp only [feed, h]
  rfl

theorem endsLine_of_ne {c : Char} {rest : List Char} (hr : c ≠ '\r') (hn : c ≠ '\n')
    (hrest : rest ≠ []) : endsLine c rest = false := by
  simp [endsLine, hr, hn, hrest]

theorem not_special {c : Char} (h : d.special c = false) :
    c ≠ d.delimiter ∧ c ≠ d.quote ∧ c ≠ '\r' ∧ c ≠ '\n' := by
  simpa [Dialect.special, and_assoc] using h

theorem isNewline_eq_false {c : Char} (hr : c ≠ '\r') (hn : c ≠ '\n') : isNewline c = false := by
  simp [isNewline, hr, hn]

/-- Within quotes, the end of a line is nothing. -/
theorem feed_inQuoted {r r' : Reader} {c : Char} {rest : List Char}
    (h : readChar d limit c r = .ok r') (hmode : r'.mode = .inQuoted) :
    feed d limit r (c :: rest) = feed d limit r' rest := by
  rw [feed_cons_of_ok h]
  split
  · simp [readLineEnd, hmode]
  · rfl

/-- The whole of an escaped cell is read into the field. -/
theorem feed_escape (r : Reader) (cell rest : List Char) (hmode : r.mode = .inQuoted)
    (hfield : r.field.length ≤ limit) :
    feed d limit r (escape d cell ++ rest) =
      if r.field.length + cell.length ≤ limit then
        feed d limit { r with field := r.field ++ cell } rest
      else .error .fieldTooLong := by
  induction cell generalizing r with
  | nil => simp [escape, hfield]
  | cons c cell ih =>
      have hadd : ∀ r : Reader, r.mode = .inQuoted → r.field.length < limit →
          feed d limit { r with field := r.field ++ [c] } (escape d cell ++ rest) =
            if r.field.length + (cell.length + 1) ≤ limit then
              feed d limit { r with field := r.field ++ c :: cell } rest
            else .error .fieldTooLong := by
        intro r hmode hroom
        rw [ih { r with field := r.field ++ [c] } hmode (by simp; omega)]
        simp only [List.length_append, List.length_singleton, List.append_assoc,
          List.singleton_append]
        congr 1
        simp only [eq_iff_iff]
        omega
      by_cases hquote : c = d.quote
      · have hopen : readChar d limit c r = .ok { r with mode := .quoteInQuoted } := by
          simp [readChar, hmode, hquote]
        have hends : endsLine c (c :: (escape d cell ++ rest)) = false :=
          endsLine_of_ne (hquote ▸ d.quote_inline.1) (hquote ▸ d.quote_inline.2) (by simp)
        rw [escape, if_pos hquote, List.cons_append, List.cons_append, feed_cons_of_ok hopen, hends]
        by_cases hroom : r.field.length < limit
        · have hread : readChar d limit c { r with mode := .quoteInQuoted } =
              .ok { r with field := r.field ++ [c] } := by
            simp [readChar, hquote, Reader.add, hroom, hmode]
          simpa using (feed_inQuoted hread hmode).trans (hadd r hmode hroom)
        · have hread : readChar d limit c { r with mode := .quoteInQuoted } =
              .error .fieldTooLong := by
            simp [readChar, hquote, Reader.add, hroom]
          have hlong : ¬ r.field.length + (cell.length + 1) ≤ limit := by omega
          simpa [hlong] using feed_cons_of_error hread
      · rw [escape, if_neg hquote, List.cons_append]
        by_cases hroom : r.field.length < limit
        · have hread : readChar d limit c r = .ok { r with field := r.field ++ [c] } := by
            simp [readChar, hmode, hquote, Reader.add, hroom]
          exact (feed_inQuoted hread hmode).trans (hadd r hmode hroom)
        · have hread : readChar d limit c r = .error .fieldTooLong := by
            simp [readChar, hmode, hquote, Reader.add, hroom]
          have hlong : ¬ r.field.length + (cell.length + 1) ≤ limit := by omega
          simpa [hlong] using feed_cons_of_error hread

/-- A cell without quotes is read into the field as it is. -/
theorem feed_plain (r : Reader) (cell rest : List Char) (hmode : r.mode = .inField)
    (hplain : ∀ c ∈ cell, d.special c = false) (hrest : rest ≠ []) (hfield : r.field.length ≤ limit) :
    feed d limit r (cell ++ rest) =
      if r.field.length + cell.length ≤ limit then
        feed d limit { r with field := r.field ++ cell } rest
      else .error .fieldTooLong := by
  induction cell generalizing r with
  | nil => simp [hfield]
  | cons c cell ih =>
      obtain ⟨hdelimiter, -, hr, hn⟩ := not_special (hplain c (by simp))
      by_cases hroom : r.field.length < limit
      · have hread : readChar d limit c r = .ok { r with field := r.field ++ [c] } := by
          simp [readChar, hmode, isNewline_eq_false hr hn, hdelimiter, Reader.add, hroom]
        have hends : endsLine c (cell ++ rest) = false := endsLine_of_ne hr hn (by simp [hrest])
        rw [List.cons_append, feed_cons_of_ok hread, hends]
        have hrec := ih { r with field := r.field ++ [c] } hmode (fun x hx => hplain x (by simp [hx]))
          (by simp; omega)
        simp only [List.length_append, List.length_singleton, List.append_assoc,
          List.singleton_append] at hrec
        simpa [Nat.add_assoc, Nat.add_comm 1] using hrec
      · have hread : readChar d limit c r = .error .fieldTooLong := by
          simp [readChar, hmode, isNewline_eq_false hr hn, hdelimiter, Reader.add, hroom]
        have hlong : ¬ r.field.length + (cell.length + 1) ≤ limit := by omega
        simpa [hlong] using feed_cons_of_error hread

/-- A cell may start here. -/
def Mode.starts : Mode → Bool
  | .startRecord => true
  | .startField => true
  | _ => false

/-- A cell may end here. -/
def Mode.ends : Mode → Bool
  | .startField => true
  | .inField => true
  | .quoteInQuoted => true
  | _ => false

/-- The mode behind a cell. -/
def modeAfter (d : Dialect) (mode : Mode) (cell : List Char) : Mode :=
  if cell.any d.special then .quoteInQuoted else if cell = [] then mode else .inField

theorem readChar_start {c : Char} {r : Reader} (hstarts : r.mode.starts = true)
    (hc : isNewline c = false) : readChar d limit c r = readStart d limit c r := by
  cases hmode : r.mode <;> simp_all [readChar, Mode.starts]

theorem feed_quoted (r : Reader) (cell rest : List Char) (hstarts : r.mode.starts = true)
    (hfield : r.field = []) (hrest : rest ≠ []) :
    feed d limit r (quoted d cell ++ rest) =
      if cell.length ≤ limit then
        feed d limit { r with mode := .quoteInQuoted, field := cell } rest
      else .error .fieldTooLong := by
  have hquote : isNewline d.quote = false := isNewline_eq_false d.quote_inline.1 d.quote_inline.2
  have hopen : readChar d limit d.quote r = .ok { r with mode := .inQuoted } := by
    simp [readChar_start hstarts hquote, readStart, hquote]
  have hclose : readChar d limit d.quote { r with mode := .inQuoted, field := cell } =
      .ok { r with mode := .quoteInQuoted, field := cell } := by
    simp [readChar]
  have hends : endsLine d.quote rest = false := endsLine_of_ne d.quote_inline.1 d.quote_inline.2 hrest
  rw [quoted, List.cons_append, List.append_assoc, feed_inQuoted hopen rfl,
    feed_escape _ _ _ rfl (by simp [hfield])]
  simp only [hfield, List.length_nil, Nat.zero_add, List.nil_append, List.singleton_append]
  rw [feed_cons_of_ok hclose, hends]
  rfl

theorem feed_unquoted (r : Reader) (cell rest : List Char) (hstarts : r.mode.starts = true)
    (hfield : r.field = []) (hplain : ∀ c ∈ cell, d.special c = false) (hrest : rest ≠ []) :
    feed d limit r (cell ++ rest) =
      if cell.length ≤ limit then
        feed d limit { r with mode := if cell = [] then r.mode else .inField, field := cell } rest
      else .error .fieldTooLong := by
  cases cell with
  | nil =>
      have hsame : { r with field := [] } = r := by rw [← hfield]
      simp [hsame]
  | cons c cell =>
      obtain ⟨hdelimiter, hquote, hr, hn⟩ := not_special (hplain c (by simp))
      have hnewline : isNewline c = false := isNewline_eq_false hr hn
      have hstart : readChar d limit c r = r.add limit .inField c := by
        simp [readChar_start hstarts hnewline, readStart, hnewline, hquote, hdelimiter]
      by_cases hroom : 0 < limit
      · have hread : readChar d limit c r = .ok { r with mode := .inField, field := [c] } := by
          simp [hstart, Reader.add, hfield, hroom]
        have hends : endsLine c (cell ++ rest) = false := endsLine_of_ne hr hn (by simp [hrest])
        rw [List.cons_append, feed_cons_of_ok hread, hends]
        have hrec : feed d limit { r with mode := .inField, field := [c] } (cell ++ rest) = _ :=
          feed_plain _ cell rest rfl (fun x hx => hplain x (by simp [hx])) hrest (by simp; omega)
        simpa [Nat.add_comm 1] using hrec
      · have hread : readChar d limit c r = .error .fieldTooLong := by
          simp [hstart, Reader.add, hfield, hroom]
        have hlong : ¬ cell.length + 1 ≤ limit := by omega
        simpa [hlong] using feed_cons_of_error hread

/-- A cell is read as it was written, unless it is too long. -/
theorem feed_writeCell (r : Reader) (cell rest : List Char) (hstarts : r.mode.starts = true)
    (hfield : r.field = []) (hrest : rest ≠ []) :
    feed d limit r (writeCell d cell ++ rest) =
      if cell.length ≤ limit then
        feed d limit { r with mode := modeAfter d r.mode cell, field := cell } rest
      else .error .fieldTooLong := by
  unfold writeCell modeAfter
  by_cases hspecial : cell.any d.special = true
  · simpa only [hspecial, if_true] using feed_quoted r cell rest hstarts hfield hrest
  · have hplain : ∀ c ∈ cell, d.special c = false := by simpa using hspecial
    rw [if_neg hspecial, if_neg hspecial]
    exact feed_unquoted r cell rest hstarts hfield hplain hrest

theorem readChar_delimiter {r : Reader} (h : r.mode = .startRecord ∨ r.mode.ends = true) :
    readChar d limit d.delimiter r = .ok (r.save .startField) := by
  have hnewline : isNewline d.delimiter = false :=
    isNewline_eq_false d.delimiter_inline.1 d.delimiter_inline.2
  cases hmode : r.mode <;>
    simp_all [readChar, readStart, Mode.ends, d.distinct]

theorem feed_delimiter {r : Reader} {rest : List Char} (h : r.mode = .startRecord ∨ r.mode.ends = true)
    (hrest : rest ≠ []) :
    feed d limit r (d.delimiter :: rest) = feed d limit (r.save .startField) rest := by
  rw [feed_cons_of_ok (readChar_delimiter h),
    endsLine_of_ne d.delimiter_inline.1 d.delimiter_inline.2 hrest]
  rfl

/-- The end of a line ends its record. -/
theorem feed_newline {r : Reader} (rest : List Char) (h : r.mode.ends = true) :
    feed d limit r ('\r' :: '\n' :: rest) = feed d limit (r.save .startRecord).emit rest := by
  have hquote : '\r' ≠ d.quote := fun h => d.quote_inline.1 h.symm
  have hdelimiter : '\r' ≠ d.delimiter := fun h => d.delimiter_inline.1 h.symm
  have hreturn : readChar d limit '\r' r = .ok (r.save .eatNewline) := by
    cases hmode : r.mode <;> simp_all [readChar, readStart, Mode.ends, isNewline]
  have hfeed : readChar d limit '\n' (r.save .eatNewline) = .ok (r.save .eatNewline) := by
    simp [readChar, Reader.save, isNewline]
  rw [feed_cons_of_ok hreturn, feed_cons_of_ok (by simpa [endsLine] using hfeed)]
  simp [endsLine, readLineEnd, Reader.save]

/-- The reader after a record. -/
def Reader.next (r : Reader) (record : List (List Char)) : Reader :=
  { records := r.records ++ [record] }

theorem modeAfter_ends {mode : Mode} {cell : List Char} (hstarts : mode.starts = true)
    (h : mode = .startField ∨ cell ≠ []) : (modeAfter d mode cell).ends = true := by
  unfold modeAfter
  split
  · rfl
  · split
    · cases mode <;> simp_all [Mode.starts, Mode.ends]
    · rfl

theorem modeAfter_cases {mode : Mode} (cell : List Char) (hstarts : mode.starts = true) :
    modeAfter d mode cell = .startRecord ∨ (modeAfter d mode cell).ends = true := by
  by_cases h : mode = .startField ∨ cell ≠ []
  · exact .inr (modeAfter_ends hstarts h)
  · cases mode <;> simp_all [modeAfter, Mode.starts]

/-- The cells of a record, up to the end of its line. -/
theorem feed_joinCells (r : Reader) (cell : List Char) (cells : List (List Char)) (rest : List Char)
    (hstarts : r.mode.starts = true) (hfield : r.field = [])
    (hline : r.mode = .startField ∨ cell ≠ [] ∨ cells ≠ []) :
    feed d limit r (joinCells d (cell :: cells) ++ '\r' :: '\n' :: rest) =
      if ∀ x ∈ cell :: cells, x.length ≤ limit then
        feed d limit (r.next (r.fields ++ cell :: cells)) rest
      else .error .fieldTooLong := by
  induction cells generalizing r cell with
  | nil =>
      have hends : (modeAfter d r.mode cell).ends = true :=
        modeAfter_ends hstarts (by simpa using hline)
      rw [joinCells, feed_writeCell r cell _ hstarts hfield (by simp)]
      by_cases hfits : cell.length ≤ limit
      · simp [hfits, feed_newline rest, hends, Reader.save, Reader.emit, Reader.next]
      · simp [hfits]
  | cons cell' cells ih =>
      have hjoin : joinCells d (cell :: cell' :: cells) =
          writeCell d cell ++ d.delimiter :: joinCells d (cell' :: cells) := rfl
      rw [hjoin, List.append_assoc, List.cons_append, feed_writeCell r cell _ hstarts hfield (by simp)]
      by_cases hfits : cell.length ≤ limit
      · rw [if_pos hfits, feed_delimiter (modeAfter_cases cell hstarts) (by simp)]
        rw [ih (({ r with mode := modeAfter d r.mode cell, field := cell } : Reader).save .startField)
          cell' rfl rfl (.inl rfl)]
        simp [hfits, Reader.save, Reader.next]
      · simp [hfits]

theorem feed_writeRecord (r : Reader) (record : List (List Char)) (rest : List Char)
    (hmode : r.mode = .startRecord) (hfield : r.field = []) (hfields : r.fields = []) :
    feed d limit r (writeRecord d record ++ rest) =
      if ∀ x ∈ record, x.length ≤ limit then feed d limit (r.next record) rest
      else .error .fieldTooLong := by
  have hstarts : r.mode.starts = true := by simp [hmode, Mode.starts]
  unfold writeRecord
  split
  next =>
    have hends : feed d limit { r with mode := .quoteInQuoted, field := [] } ('\r' :: '\n' :: rest) =
        _ := feed_newline rest rfl
    rw [List.append_assoc, feed_quoted r [] _ hstarts hfield (by simp), List.cons_append,
      List.singleton_append, hends]
    simp [Reader.save, Reader.emit, Reader.next, hfields]
  next hone =>
    cases record with
    | nil =>
        have hreturn : readChar d limit '\r' r = .ok { r with mode := .eatNewline } := by
          simp [readChar, hmode, isNewline]
        have hfeed : readChar d limit '\n' { r with mode := .eatNewline } =
            .ok { r with mode := .eatNewline } := by
          simp [readChar, isNewline]
        simp only [joinCells, List.nil_append, List.cons_append]
        rw [feed_cons_of_ok hreturn, feed_cons_of_ok (by simpa [endsLine] using hfeed)]
        simp [endsLine, readLineEnd, Reader.emit, Reader.next, hfield, hfields]
    | cons cell cells =>
        have hline : cell ≠ [] ∨ cells ≠ [] := by
          by_contra hboth
          simp only [not_or, not_not] at hboth
          obtain ⟨rfl, rfl⟩ := hboth
          exact hone rfl
        have hjoined : feed d limit r (joinCells d (cell :: cells) ++ '\r' :: '\n' :: rest) = _ :=
          feed_joinCells r cell cells rest hstarts hfield (.inr hline)
        rw [hfields] at hjoined
        rw [List.append_assoc]
        exact hjoined

theorem feed_writeAll (r : Reader) (records : List (List (List Char))) (hmode : r.mode = .startRecord)
    (hfield : r.field = []) (hfields : r.fields = []) :
    feed d limit r (writeAll d records) =
      if ∀ record ∈ records, ∀ x ∈ record, x.length ≤ limit then
        .ok { records := r.records ++ records }
      else .error .fieldTooLong := by
  induction records generalizing r with
  | nil =>
      obtain ⟨mode, field, fields, before⟩ := r
      subst hmode hfield hfields
      simp [writeAll, feed]
  | cons record records ih =>
      rw [writeAll, List.flatMap_cons, feed_writeRecord r record _ hmode hfield hfields]
      by_cases hfits : ∀ x ∈ record, x.length ≤ limit
      · rw [if_pos hfits, ← writeAll, ih (r.next record) rfl rfl rfl]
        have hall : (∀ record' ∈ record :: records, ∀ x ∈ record', x.length ≤ limit) ↔
            ∀ record' ∈ records, ∀ x ∈ record', x.length ≤ limit := by
          simpa using fun _ => hfits
        simp only [hall, Reader.next, List.append_assoc, List.singleton_append]
      · rw [if_neg hfits, if_neg]
        exact fun h => hfits (h record (by simp))

/-- What was written is read back, unless a cell is too long for the reader. -/
theorem read_writeAll (records : List (List (List Char))) :
    read d limit (writeAll d records) =
      if ∀ record ∈ records, ∀ x ∈ record, x.length ≤ limit then .ok records
      else .error .fieldTooLong := by
  rw [read, feed_writeAll {} records rfl rfl rfl]
  split
  · simp [Except.map, Reader.finish]
  · rfl

end Csv
