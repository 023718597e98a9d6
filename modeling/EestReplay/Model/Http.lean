import EestReplay.Library.Dict
import EestReplay.Library.Nesting
import EestReplay.Model.Lower
import EestReplay.Model.Proxy
import EestReplay.Model.Text

/-! # The handler of the proxy

`do_POST` and `_send` of `rpc_proxy.py`, with everything a handler asks of its client, of
the upstream and of the recorder, and the redirects that `urlopen` follows on the way. -/

namespace EestReplay.Proxy.Http

open Dialogue

/-- `urllib.request.Request` -/
structure Request (B : Type) where
  url : String
  data : Option B
  headers : List (String × String)
  method : String
  deriving DecidableEq

/-- What the headers of an answer say of another place: nothing, a URL with a scheme that
`HTTPRedirectHandler` does not go to, one that it cannot parse, or the URL that it makes of
them. -/
inductive Location where
  | absent
  | refused
  | malformed (exc : PyError)
  | url (newurl : String)
  deriving DecidableEq

/-- The status line and the headers of an answer. -/
structure Head where
  status : ℕ
  location : Location := .absent
  deriving DecidableEq

/-- What `urlopen` makes of an answer: a reply, or an `HTTPError` with a code. -/
inductive Opened where
  | reply (status : ℕ)
  | httpError (code : ℕ)

/-- An exchange sends one request and reads the head of its answer, whose body is read
afterwards. A response goes out with its status, its headers and its data. -/
inductive HandlerCall (B : Type) where
  | header (name : String)
  | readBody (length : ℤ)
  | exchange (request : Request B) (timeout : ℕ)
  | readReply
  | record (rawTx : String)
  | respond (status : ℕ) (headers : List (String × String)) (data : Data B)

def HandlerCall.Reply {B : Type} : HandlerCall B → Type
  | header _ => Option String
  | readBody _ => Except PyError B
  | exchange _ _ => Except PyError Head
  | readReply => Except PyError B
  | record _ => Unit
  | respond _ _ _ => Except PyError Unit

abbrev Handling (σ B α : Type) : Type :=
  Program σ (HandlerCall.Reply (B := B)) PyError α

/-- What `_make_handler` closes over: the upstream's URL without its credentials, and the
headers that carry them. -/
structure Target where
  cleanUrl : String
  authHeaders : List (String × String)

def defaultUserAgent : String := "Mozilla/5.0 (compatible; eest-replay)"

def Target.request {B : Type} (target : Target) (body : B) : Request B where
  url := target.cleanUrl
  data := some body
  headers := Dict.update
    [("Content-Type", "application/json"), ("User-Agent", defaultUserAgent)] target.authHeaders
  method := "POST"

/-- `int(self.headers.get("Content-Length", 0))` -/
def contentLength : Option String → Except PyError ℤ
  | some text => Text.int 10 text
  | none => .ok 0

/-- How the guarded forward ends: with a reply, with the code of an error whose body is still
to be read, or with an exception that the proxy answers itself. -/
inductive Attempt (B : Type) where
  | replied (status : ℕ) (data : B)
  | httpError (code : ℕ)
  | raised (exc : PyError)

variable {σ B : Type} (peer : Peer σ (HandlerCall.Reply (B := B)))
  (loads : B → Except PyError Json) (size : Data B → ℕ)

/-! ## `urlopen` -/

def Head.opened (head : Head) : Opened :=
  if 200 ≤ head.status ∧ head.status < 300 then .reply head.status else .httpError head.status

/-- `redirect_request`, for a URL that can be gone to. -/
def mayRedirect (code : ℕ) (method : String) : Bool :=
  [301, 302, 303, 307, 308].contains code && (method == "GET" || method == "HEAD") ||
    [301, 302, 303].contains code && method == "POST"

/-- The URL at which `http_error_302` asks for the answer instead, if it does. -/
def redirection (request : Request B) (head : Head) : Except PyError (Option String) :=
  if [301, 302, 303, 307, 308].contains head.status then
    match head.location with
    | .absent => .ok none
    | .refused => .ok none
    | .malformed exc => .error exc
    | .url newurl => .ok (if mayRedirect head.status request.method then some newurl else none)
  else .ok none

/-- The request for it: a `GET` without the data and the headers that belong to them. -/
def Request.redirected (request : Request B) (newurl : String) : Request B where
  url := newurl
  data := none
  headers := request.headers.filter fun header =>
    !(["content-length", "content-type"].contains (String.ofList (Text.lower header.1.toList)))
  method := "GET"

def maxRepeats : ℕ := 4

def maxRedirections : ℕ := 10

/-- `visited.get(newurl, 0)` -/
def visits (newurl : String) (visited : List (String × ℕ)) : ℕ := (visited.lookup newurl).getD 0

/-- `visited[newurl] = visited.get(newurl, 0) + 1` -/
def visit (newurl : String) (visited : List (String × ℕ)) : List (String × ℕ) :=
  Dict.setItem newurl (visits newurl visited + 1) visited

/-- The redirects that the detection of loops still lets through. -/
def room (visited : List (String × ℕ)) : ℕ :=
  (visited.map fun x => maxRepeats - x.2).sum + maxRepeats * (maxRedirections - visited.length)

/-- Each redirect that is let through takes one away. -/
theorem room_visit {newurl : String} {visited : List (String × ℕ)}
    (hvisits : visits newurl visited < maxRepeats) (hlength : visited.length < maxRedirections) :
    room (visit newurl visited) < room visited := by
  unfold visit
  unfold visits at hvisits ⊢
  cases hlookup : visited.lookup newurl with
  | none =>
      rw [Dict.setItem_of_not_mem (Dict.not_mem_keys_of_lookup hlookup)]
      simp only [room, Option.getD_none, List.map_append, List.sum_append, List.map_cons,
        List.map_nil, List.sum_cons, List.sum_nil, List.length_append, List.length_cons,
        List.length_nil, maxRepeats, maxRedirections] at hlength ⊢
      omega
  | some count =>
      obtain ⟨hsame, hsum⟩ := Dict.setItem_of_lookup hlookup (count + 1) (maxRepeats - ·)
      rw [hlookup, Option.getD_some] at hvisits
      rw [room, room, Option.getD_some, hsame]
      omega

/-- `urlopen`, which goes from one answer to the next. -/
def urlopen (timeout : ℕ) (visited : List (String × ℕ)) (request : Request B) :
    Handling σ B Opened := do
  let head : Except PyError Head ← ask peer (.exchange request timeout)
  let head ← lift head
  let newurl ← lift (redirection request head)
  match newurl with
  | none => return head.opened
  | some newurl =>
    if _h : visits newurl visited < maxRepeats ∧ visited.length < maxRedirections then
      let data : Except PyError B ← ask peer .readReply
      let _ ← lift data
      urlopen timeout (visit newurl visited) (request.redirected newurl)
    else return .httpError head.status
termination_by room visited
decreasing_by exact room_visit _h.1 _h.2

/-! ## The handler -/

/-- `_extract_raw_txs`, which hands its finds to the recorder. -/
def extractRawTxs : List Json → Handling σ B Unit
  | [] => return ()
  | call :: rest => do
    let rawTx ← lift (recordCall call)
    match rawTx with
    | some rawTx =>
      let _ : Unit ← ask peer (.record rawTx)
      extractRawTxs rest
    | none => extractRawTxs rest

/-- The recording block, with its handler. -/
def recordRequest (body : B) : Handling σ B Unit :=
  tryCatch
    (do
      let payload ← lift (loads body)
      extractRawTxs peer (calls payload))
    fun e => if caught e then return () else throw e

/-- What the `try` makes of an opened reply. -/
def readOpened : Opened → Handling σ B (Attempt B)
  | .httpError code => return .httpError code
  | .reply status => do
    let data : Except PyError B ← ask peer .readReply
    let data ← lift data
    return .replied status data

/-- The body of the `try` around the forward. -/
def openReply (request : Request B) : Handling σ B (Attempt B) := do
  let opened ← urlopen peer 120 [] request
  readOpened peer opened

/-- The forward, with its `except Exception`. -/
def attempt (request : Request B) : Handling σ B (Attempt B) :=
  tryCatch (openReply peer request) fun exc =>
    if exc.isException then return .raised exc else throw exc

/-- `_send` -/
def send (response : Response B) : Handling σ B Unit := do
  let sent : Except PyError Unit ← ask peer (.respond response.status
    [("Content-Type", "application/json"), ("Content-Length", toString (size response.data))]
    response.data)
  lift sent

/-- What follows a complete reply. -/
def recordAndSend (body : B) (response : Response B) : Handling σ B Unit := do
  recordRequest peer loads body
  send peer size response

/-- What follows the guarded forward. -/
def conclude (body : B) : Attempt B → Handling σ B Unit
  | .replied status data => recordAndSend peer loads size body ⟨status, .raw data⟩
  | .httpError code => do
    let data : Except PyError B ← ask peer .readReply
    let data ← lift data
    recordAndSend peer loads size body ⟨code, .raw data⟩
  | .raised exc => send peer size (badGateway exc)

def doPost (target : Target) : Handling σ B Unit := do
  let header : Option String ← ask peer (.header "Content-Length")
  let length ← lift (contentLength header)
  let body : Except PyError B ← ask peer (.readBody length)
  let body ← lift body
  let attempted ← attempt peer (target.request body)
  conclude peer loads size body attempted

end EestReplay.Proxy.Http
