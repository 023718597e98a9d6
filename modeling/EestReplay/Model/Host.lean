import EestReplay.Library.Dialogue
import EestReplay.Model.Path

/-! # The host

Everything the commands ask of the world outside them: random bits, JSON-RPC endpoints,
files, the recording proxy, the `execute` subprocess and the clock. -/

namespace EestReplay

/-- A row of the CSV. -/
abbrev Row := List (String × Json)

/-- What `communicate` returns, with the process's exit code. -/
structure Completed where
  returncode : ℤ
  stdout : String := ""
  stderr : String := ""
  deriving DecidableEq, Repr

/-- A post is one JSON-RPC request, answered with the decoded body of its reply; its
endpoint's URL is parsed as a part of it. -/
inductive HostCall where
  | randbits (k : ℕ)
  | post (rpcUrl method : String) (params : List Json) (timeout : ℕ)
  | mkdir (path : Path)
  | writeText (path : Path) (text : Json)
  | readText (path : Path)
  | writeCsv (path : Path) (rows : List Row)
  | startProxy (targetUrl : String)
  | snapshot
  | stopProxy
  | popen (cmd : List String) (cwd : Path)
  | communicate (timeout : Option ℤ)
  | killpg
  | time
  | sleep (seconds : ℕ)

namespace HostCall

/-- What the host returns when it raises no exception. -/
def Value : HostCall → Type
  | randbits k => Fin (2 ^ k)
  | post _ _ _ _ => Json
  | readText _ => Json
  | startProxy _ => String
  | snapshot => List String
  | communicate _ => Completed
  | time => ℚ
  | _ => Unit

/-- The file a call may change. -/
def target : HostCall → Option Path
  | writeText path _ => some path
  | writeCsv path _ => some path
  | _ => none

end HostCall

abbrev HostReply (q : HostCall) : Type := Except PyError q.Value

abbrev HostWorld (σ : Type) : Type := Dialogue.World σ HostReply

/-- A command asks the host, and returns or raises. -/
abbrev Command (σ α : Type) : Type := Dialogue.Program σ HostReply PyError α

/-- What a file holds: the JSON value whose text was written, or the rows of a CSV. -/
inductive Content where
  | json (text : Json)
  | csv (rows : List Row)

/-- What a call writes. -/
def HostCall.content : HostCall → Option Content
  | writeText _ text => some (.json text)
  | writeCsv _ rows => some (.csv rows)
  | _ => none

/-- A host with a disk. Paths may name the same file, and `disk` is what the files hold. A
write that fails may leave its own file in any condition; nothing else that this program
asks of the host changes a file. -/
structure Host (σ ι : Type) where
  peer : Dialogue.Peer σ HostReply
  file : Path → ι
  disk : σ → ι → Option Content
  frame : ∀ s q f, (∀ path, q.target = some path → file path ≠ f) →
    disk (peer.answer s q).2 f = disk s f
  writes : ∀ s q path, q.target = some path → (peer.answer s q).1.isOk = true →
    disk (peer.answer s q).2 (file path) = q.content
  reads_text : ∀ s path text, (peer.answer s (.readText path)).1 = .ok text →
    disk s (file path) = some (.json text)

end EestReplay
