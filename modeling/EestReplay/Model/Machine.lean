import EestReplay.Model.Path
import EestReplay.Model.Runner

/-! # The machine of a batch

Everything that `run` asks of the machine it runs on: files, ports, processes, probes of a
server, the clocks, the console, and the calls by which a replay drives its chain. -/

namespace EestReplay

/-- `readJson` is `json.loads(path.read_text())` and `writeJson` writes what `json.dumps`
makes of a value. A process is known by a number, and a probe returns a status. `echo` is
`click.echo` of a text, which raises when the console cannot take it. -/
inductive RunCall (H A V : Type) where
  | isFile (path : Path)
  | isDir (path : Path)
  | rglob (root : Path) (pattern : String)
  | readJson (path : Path)
  | readText (path : Path)
  | writeJson (path : Path) (value : Json)
  | writeText (path : Path) (text : String)
  | mkdtemp (start : String)
  | mkdir (path : Path)
  | chmod (path : Path) (mode : ℕ)
  | tokenHex (bytes : ℕ)
  | freePort
  | openLog (path : Path)
  | closeLog (path : Path)
  | run (cmd : List String) (check : Bool)
  | popen (cmd : List String) (log : Path)
  | wait (process : ℕ) (timeout : ℕ)
  | terminate (process : ℕ)
  | kill (process : ℕ)
  | probe (url : String) (body : Option Json) (timeout : ℚ)
  | time
  | monotonic
  | sleep (seconds : ℚ)
  | echo (text : String) (err : Bool)
  | drive (q : ChainCall H A V)

/-- What a call returns when it raises no exception. -/
def RunCall.Value {H A V : Type} : RunCall H A V → Type
  | isFile _ => Bool
  | isDir _ => Bool
  | rglob _ _ => List Path
  | readJson _ => Json
  | readText _ => String
  | mkdtemp _ => Path
  | tokenHex _ => String
  | freePort => ℕ
  | popen _ _ => ℕ
  | probe _ _ _ => ℕ
  | time => ℚ
  | monotonic => ℚ
  | drive q => q.Value
  | _ => Unit

abbrev RunReply {H A V : Type} (q : RunCall H A V) : Type := Except PyError q.Value

abbrev RunWorld (σ H A V : Type) : Type := Dialogue.World σ (RunReply (H := H) (A := A) (V := V))

abbrev Running (σ H A V α : Type) : Type :=
  Dialogue.Program σ (RunReply (H := H) (A := A) (V := V)) PyError α

end EestReplay
