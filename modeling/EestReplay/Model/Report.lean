import EestReplay.Model.Machine

/-! # Batch reports

`report.py`: the aggregate over many results, and the files it is written to. -/

namespace EestReplay

/-- How the runtime rounds, converts and prints numbers and exceptions. `millis` is
`int(seconds * 1000)`. -/
structure Printing where
  round : ℚ → ℕ → ℚ
  str : ℚ → String
  fixed : ℕ → ℚ → String
  reprExc : PyError → String
  millis : ℚ → ℤ

/-- `BatchReport` -/
structure BatchReport where
  results : List FixtureResult := []

namespace BatchReport

def add (report : BatchReport) (result : FixtureResult) : BatchReport :=
  { report with results := report.results ++ [result] }

def total (report : BatchReport) : ℕ := report.results.length

def passed (report : BatchReport) : ℕ := report.results.countP FixtureResult.passed

def failed (report : BatchReport) : ℕ := report.total - report.passed

def errored (report : BatchReport) : ℕ := report.results.countP fun r => r.error.isSome

/-- `elapsed_s`, none when it is the integer 0: the sum of no results is no float. -/
def elapsedS (printing : Printing) (report : BatchReport) : Option ℚ :=
  if report.results.isEmpty then none
  else some (printing.round (report.results.map FixtureResult.elapsedS).sum 3)

def elapsedDict (printing : Printing) (report : BatchReport) : Json :=
  match report.elapsedS printing with
  | none => .int 0
  | some elapsed => .float (some elapsed)

def elapsedStr (printing : Printing) (report : BatchReport) : String :=
  match report.elapsedS printing with
  | none => "0"
  | some elapsed => printing.str elapsed

def optionalStr : Option String → Json
  | some s => .str s
  | none => .null

def blockDict (b : BlockResult) : Json :=
  .obj
    [("number", .int b.blockNumber), ("matched", .bool b.matched),
      ("mismatches", .arr (b.mismatches.map .str))]

def resultDict (r : FixtureResult) : Json :=
  .obj
    [("test_id", .str r.testId), ("fork", optionalStr r.fork),
      ("elapsed_s", .float (some r.elapsedS)), ("passed", .bool r.passed),
      ("error", optionalStr r.error), ("blocks", .arr (r.blocks.map blockDict))]

def toDict (printing : Printing) (report : BatchReport) : Json :=
  .obj
    [("summary", .obj
      [("total", .int report.total), ("passed", .int report.passed),
        ("failed", .int report.failed), ("errored", .int report.errored),
        ("elapsed_s", report.elapsedDict printing)]),
      ("results", .arr (report.results.map resultDict))]

/-- A text that is neither missing nor empty. -/
def nonEmpty : Option String → Option String
  | some s => if s = "" then none else some s
  | none => none

def status (r : FixtureResult) : String :=
  if r.passed then "PASS" else if (nonEmpty r.error).isSome then "ERR" else "FAIL"

def tableRow (printing : Printing) (r : FixtureResult) : String :=
  "| " ++ status r ++ " | " ++ (nonEmpty r.fork).getD "-" ++ " | " ++ printing.fixed 2 r.elapsedS ++
    "s | `" ++ r.testId ++ "` |"

/-- The lines about a block of a failure. -/
def mismatchLines (b : BlockResult) : List String :=
  if b.matched then []
  else ["", "Block " ++ toString b.blockNumber ++ " mismatches:"] ++ b.mismatches.map ("  - " ++ ·)

def failureLines (r : FixtureResult) : List String :=
  ["### `" ++ r.testId ++ "`"] ++
  (match nonEmpty r.error with
    | some error => ["", "Error: " ++ error]
    | none => []) ++
  r.blocks.flatMap mismatchLines ++ [""]

/-- The lines that `write_markdown` joins. -/
def markdownLines (printing : Printing) (report : BatchReport) : List String :=
  let failures := report.results.filter (!·.passed)
  ["# eest-replay report", "",
    toString report.passed ++ "/" ++ toString report.total ++ " fixtures passed (" ++
      toString report.failed ++ " failed, " ++ toString report.errored ++ " errored) in " ++
      report.elapsedStr printing ++ "s wall-clock",
    "", "| status | fork | time | test |", "|---|---|---|---|"] ++
  report.results.map (tableRow printing) ++
  (if failures.isEmpty then [] else ["", "## Failures", ""] ++ failures.flatMap failureLines)

open Dialogue

variable {σ H A V : Type} (peer : Peer σ (RunReply (H := H) (A := A) (V := V)))

def writeJson (printing : Printing) (report : BatchReport) (path : Path) : Running σ H A V Unit :=
  call peer (.writeJson path (report.toDict printing))

def writeMarkdown (printing : Printing) (report : BatchReport) (path : Path) :
    Running σ H A V Unit :=
  call peer (.writeText path ("\n".intercalate (report.markdownLines printing) ++ "\n"))

end BatchReport

end EestReplay
