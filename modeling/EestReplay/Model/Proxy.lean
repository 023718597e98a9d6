import EestReplay.Model.Json
import EestReplay.Library.Runs
import Mathlib.Logic.Function.Basic

/-! # The recording proxy

`rpc_proxy.py`: what `_extract_raw_txs` records of a request body, `do_POST` for one
request, and the transition system of any number of handler threads, the upstream
node behind them and the observer that takes snapshots. -/

namespace EestReplay.Proxy

/-! ## Extraction -/

/-- The elements `_extract_raw_txs` walks: a batch, or the payload alone. -/
def calls : Json → List Json
  | .arr items => items
  | payload => [payload]

/-- `call.get("method") == "eth_sendRawTransaction"`. -/
def isSendRaw (fields : List (String × Json)) : Bool :=
  match fields.lookup "method" with
  | some (.str method) => method == "eth_sendRawTransaction"
  | _ => false

/-- One pass of the loop in `_extract_raw_txs`: the string it records, if any, or the
exception that `params[0]` raises. -/
def recordCall : Json → Except PyError (Option String)
  | .obj fields =>
    if isSendRaw fields then
      let params := Json.orEmpty (fields.lookup "params")
      if params.truthy then
        match params.item0 with
        | .ok (.str rawTx) => .ok (some rawTx)
        | .ok _ => .ok none
        | .error e => .error e
      else .ok none
    else .ok none
  | _ => .ok none

/-- The strings recorded of a list of calls, and the exception that ended the loop. -/
def extractRawTxs : List Json → List String × Option PyError
  | [] => ([], none)
  | call :: rest =>
    match recordCall call with
    | .ok rawTx => (rawTx.toList ++ (extractRawTxs rest).1, (extractRawTxs rest).2)
    | .error e => ([], some e)

/-- The sequence of strings a list of calls hands to the recorder. -/
def emitted (cs : List Json) : List String := (extractRawTxs cs).1

/-- The raw transaction a JSON-RPC node reads in a call: the first of its positional
parameters. -/
def submission : Json → Option String
  | .obj fields =>
    if isSendRaw fields then
      match fields.lookup "params" with
      | some (.arr (.str rawTx :: _)) => some rawTx
      | _ => none
    else none
  | _ => none

/-- The raw transactions of the calls that a reply answers with a result. The `i`-th
flag says whether the reply holds a result for the `i`-th call. -/
def answeredTxs (cs : List Json) (results : List Bool) : List String :=
  (cs.zip results).filterMap fun x => if x.2 then submission x.1 else none

/-- `except (ValueError, TypeError)`. -/
def caught (e : PyError) : Bool :=
  match e.kind with
  | .valueError => true
  | .typeError => true
  | _ => false

/-! ## One request -/

/-- The body of a response: bytes of the upstream, or a value the proxy dumps itself. -/
inductive Data (B : Type) where
  | raw (bytes : B)
  | json (value : Json)

structure Response (B : Type) where
  status : ℕ
  data : Data B

/-- The clean JSON-RPC error sent when the forward fails. -/
def badGateway {B : Type} (exc : PyError) : Response B where
  status := 502
  data := .json <| .obj
    [("jsonrpc", .str "2.0"), ("id", .null),
      ("error", .obj
        [("code", .int (-32000)), ("message", .str ("proxy forward failed: " ++ exc.text))])]

/-- How the forward ends: a reply read to its end, whatever its status; an exception of
`urlopen` or of reading the reply; an exception of reading the body of an HTTP error. -/
inductive Forward (B : Type) where
  | replied (status : ℕ) (data : B)
  | raised (exc : PyError)
  | errorBodyRaised (exc : PyError)

variable {B : Type} (loads : B → Except PyError Json)

/-- The guarded recording block of `do_POST`: what is recorded of a body, and the
exception that escapes the block. -/
def recordBody (body : B) : List String × Option PyError :=
  match loads body with
  | .ok payload =>
    ((extractRawTxs (calls payload)).1, (extractRawTxs (calls payload)).2.filter (!caught ·))
  | .error e => ([], (some e).filter (!caught ·))

/-- `do_POST` on its own: the recorder it leaves, and its response or the exception that
ends the handler. -/
def doPost (rawTxs : List String) (body : B) : Forward B → List String × Except PyError (Response B)
  | .replied status data =>
    (rawTxs ++ (recordBody loads body).1,
      match (recordBody loads body).2 with
      | none => .ok ⟨status, .raw data⟩
      | some e => .error e)
  | .raised exc => (rawTxs, .ok (badGateway exc))
  | .errorBodyRaised exc => (rawTxs, .error exc)

/-! ## Concurrent requests -/

/-- Where a handler thread stands in `do_POST`. -/
inductive Phase (B : Type) where
  | forwarding
  | recording (rest : List Json) (response : Response B)
  | sending (response : Response B)
  | finished (response : Response B)
  | crashed (exc : PyError)

structure Handler (B : Type) where
  body : B
  phase : Phase B

/-- What `recorder.snapshot()` returned, with the transactions that the upstream had
accepted, and had answered with a result, by then. -/
structure Snapshot where
  recorded : List (ℕ × String)
  accepted : List (ℕ × String)
  answered : List (ℕ × String)
  deriving DecidableEq

def Snapshot.rawTxs (shot : Snapshot) : List String := shot.recorded.map Prod.snd

/-- Entries of the recorder carry the thread that appended them. That tag and the last
five fields are history: no step of the proxy reads them. -/
structure State (B : Type) where
  handlers : ℕ → Option (Handler B)
  recorded : List (ℕ × String)
  received : List ℕ
  accepted : List (ℕ × String)
  replied : List ℕ
  answered : List (ℕ × String)
  snapshots : List Snapshot

namespace State

def init : State B where
  handlers := fun _ => none
  recorded := []
  received := []
  accepted := []
  replied := []
  answered := []
  snapshots := []

/-- `recorder.raw_txs`. -/
def rawTxs (s : State B) : List String := s.recorded.map Prod.snd

def goto (s : State B) (h : ℕ) (body : B) (phase : Phase B) : State B :=
  { s with handlers := Function.update s.handlers h (some ⟨body, phase⟩) }

def record (s : State B) (h : ℕ) (rawTx : String) : State B :=
  { s with recorded := s.recorded ++ [(h, rawTx)] }

def snapshot (s : State B) : State B :=
  { s with snapshots := s.snapshots ++ [⟨s.recorded, s.accepted, s.answered⟩] }

end State

/-- The atomic steps. `receive` and `accept` are the upstream's, `snapshot` the
observer's, all others those of the handler thread they name. A `reply` holds for each
call whether the node answers it with a result; one that a gateway sends before the node
has received the request holds none. -/
inductive Label (B : Type) where
  | read (h : ℕ) (body : B)
  | receive (h : ℕ)
  | accept (h : ℕ) (rawTx : String)
  | reply (h : ℕ) (status : ℕ) (data : B) (results : List Bool)
  | forwardFails (h : ℕ) (exc : PyError)
  | errorBodyFails (h : ℕ) (exc : PyError)
  | extract (h : ℕ)
  | send (h : ℕ)
  | sendFails (h : ℕ) (exc : PyError)
  | snapshot

/-- The raw transactions a node finds in a body. -/
def submissions (body : B) : List String :=
  match loads body with
  | .ok payload => (calls payload).filterMap submission
  | .error _ => []

/-- The strings a body hands to the recorder. -/
def emission (body : B) : List String :=
  match loads body with
  | .ok payload => emitted (calls payload)
  | .error _ => []

/-- Where the handler goes with a complete reply: to the recording loop, past it when the
body is no JSON, or out of `do_POST`. -/
def afterReply (body : B) (response : Response B) : Phase B :=
  match loads body with
  | .ok payload => .recording (calls payload) response
  | .error e => if caught e then .sending response else .crashed e

/-- The calls of a body, none when it is no JSON. -/
def bodyCalls (body : B) : List Json :=
  match loads body with
  | .ok payload => calls payload
  | .error _ => []

/-- One step of a handler in its recording loop. -/
def extractStep (s : State B) (h : ℕ) (body : B) (response : Response B) : List Json → State B
  | [] => s.goto h body (.sending response)
  | call :: rest =>
    match recordCall call with
    | .ok none => s.goto h body (.recording rest response)
    | .ok (some rawTx) => (s.record h rawTx).goto h body (.recording rest response)
    | .error e => s.goto h body (if caught e then .sending response else .crashed e)

def step (s : State B) : Label B → Option (State B)
  | .read h body =>
    match s.handlers h with
    | none => some (s.goto h body .forwarding)
    | some _ => none
  | .receive h =>
    match s.handlers h with
    | some _ => if h ∈ s.received then none else some { s with received := s.received ++ [h] }
    | none => none
  | .accept h rawTx =>
    match s.handlers h with
    | some ⟨body, _⟩ =>
      if h ∈ s.received ∧ rawTx ∈ submissions loads body then
        some { s with accepted := s.accepted ++ [(h, rawTx)] }
      else none
    | none => none
  | .reply h status data results =>
    match s.handlers h with
    | some ⟨body, .forwarding⟩ =>
      if h ∈ s.received ∨ results = [] then
        some <| State.goto
          { s with
            replied := s.replied ++ [h]
            answered := s.answered ++
              (answeredTxs (bodyCalls loads body) results).map fun rawTx => (h, rawTx) }
          h body (afterReply loads body ⟨status, .raw data⟩)
      else none
    | _ => none
  | .forwardFails h exc =>
    match s.handlers h with
    | some ⟨body, .forwarding⟩ => some (s.goto h body (.sending (badGateway exc)))
    | _ => none
  | .errorBodyFails h exc =>
    match s.handlers h with
    | some ⟨body, .forwarding⟩ => some (s.goto h body (.crashed exc))
    | _ => none
  | .extract h =>
    match s.handlers h with
    | some ⟨body, .recording rest response⟩ => some (extractStep s h body response rest)
    | _ => none
  | .send h =>
    match s.handlers h with
    | some ⟨body, .sending response⟩ => some (s.goto h body (.finished response))
    | _ => none
  | .sendFails h exc =>
    match s.handlers h with
    | some ⟨body, .sending _⟩ => some (s.goto h body (.crashed exc))
    | _ => none
  | .snapshot => some s.snapshot

/-- The state after a sequence of steps from a proxy that has served nothing. -/
def runs (labels : List (Label B)) : Option (State B) := Runs.run (step loads) State.init labels

end EestReplay.Proxy
