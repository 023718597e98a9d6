import EestReplay.Library.Csv
import EestReplay.Model.Export

/-! # The CSV of a capture

`_write_csv` of `export.py`: which rows it can write, and the text it writes. -/

namespace EestReplay.Export

/-- `CSV_COLUMNS` -/
def csvColumns : List String :=
  ["seq", "block_number", "tx_index", "tx_hash", "type", "from", "to", "nonce", "value", "gas",
    "gas_price", "max_fee_per_gas", "input_len", "raw"]

mutual

/-- `str(cell)` raises nothing: no number in it has too many digits. -/
def prints : Json → Bool
  | .int n => (Nat.toDigits 10 n.natAbs).length ≤ Text.maxDigits
  | .arr items => printsAll items
  | .obj fields => printsFields fields
  | _ => true

def printsAll : List Json → Bool
  | [] => true
  | item :: items => prints item && printsAll items

def printsFields : List (String × Json) → Bool
  | [] => true
  | (_, value) :: fields => prints value && printsFields fields

end

/-- How a cell becomes a part of the file: `str` of a value that is no atom, and the strings that
the encoding of the file has. Those of ASCII are among them, and none with a lone surrogate. -/
structure CsvWriter where
  str : Json → String
  encodes : String → Bool
  encodes_ascii : ∀ s : String, (∀ c ∈ s.toList, c.toNat < 0x80) → encodes s = true

/-- A cell as `csv` prints it. `pyStr` is `str` of a value that is no atom. -/
def cellText (pyStr : Json → String) : Json → String
  | .null => ""
  | .str s => s
  | .int n => toString n
  | .bool b => if b then "True" else "False"
  | value => pyStr value

/-- The cell is printed and encoded. -/
def CsvWriter.writes (writer : CsvWriter) (value : Json) : Bool :=
  prints value && writer.encodes (cellText writer.str value)

/-- `writer.writerow(row)` raises nothing: the keys are columns, and the cells are written. -/
def writesRow (writer : CsvWriter) (row : Row) : Bool :=
  row.all fun cell => csvColumns.contains cell.1 && writer.writes cell.2

/-- `_write_csv(path, rows)` raises nothing, once the file is open. -/
def writesRows (writer : CsvWriter) (rows : List Row) : Bool := rows.all (writesRow writer)

/-- The cells of a row in the order of the columns, a missing one empty. -/
def csvRecord (pyStr : Json → String) (row : Row) : List String :=
  csvColumns.map fun column => ((row.lookup column).map (cellText pyStr)).getD ""

/-- `_write_csv`: the text of the file, under its header. -/
def csvText (writer : CsvWriter) (rows : List Row) : Option String :=
  if writesRows writer rows then
    let records := csvColumns :: rows.map (csvRecord writer.str)
    some (String.ofList (Csv.writeAll .excel (records.map fun record => record.map String.toList)))
  else none

end EestReplay.Export
