import EestReplay.Model.Http
import EestReplay.Verification.Proxy.Semantics

/-! # Transparency

What one handler does for one request: the forward, what it records, and the response it
owes. An error body that cannot be read and an exception that the recording block lets
through cost the response; an answer that points to another place is not passed on. -/

namespace EestReplay.Proxy.Http

open Dialogue

variable {σ B : Type} {peer : Peer σ (HandlerCall.Reply (B := B))}
  {loads : B → Except PyError Json} {size : Data B → ℕ} {target : Target}

/-! ## Reading the log -/

def forwardOf (x : Exchange σ (HandlerCall.Reply (B := B))) : Option (Request B) :=
  match x.query with
  | .exchange request _ => some request
  | _ => none

def recordOf (x : Exchange σ (HandlerCall.Reply (B := B))) : Option String :=
  match x.query with
  | .record rawTx => some rawTx
  | _ => none

def responseOf (x : Exchange σ (HandlerCall.Reply (B := B))) : Option (Response B) :=
  match x.query with
  | .respond status _ data => some ⟨status, data⟩
  | _ => none

/-! ## Deeds

`Does x w r forwards records responses`: from `w` the program ends with `r`, and this is
what it forwarded, recorded and responded on its way. -/

structure Does {α : Type} (x : Handling σ B α) (w : World σ (HandlerCall.Reply (B := B)))
    (r : Except PyError α) (forwards : List (Request B)) (records : List String)
    (responses : List (Response B)) : Prop where
  result : (x w).1 = r
  log : ∃ new, (x w).2.log = w.log ++ new ∧ new.filterMap forwardOf = forwards ∧
    new.filterMap recordOf = records ∧ new.filterMap responseOf = responses

namespace Does

variable {α β : Type} {x : Handling σ B α} {w : World σ (HandlerCall.Reply (B := B))}
  {fs fs' : List (Request B)} {rs rs' : List String} {ps ps' : List (Response B)}

protected theorem lift (r : Except PyError α) :
    Does (lift r : Handling σ B α) w r [] [] [] :=
  ⟨by rw [lift_apply], [], by simp, rfl, rfl, rfl⟩

protected theorem pure (a : α) : Does (pure a : Handling σ B α) w (.ok a) [] [] [] :=
  ⟨rfl, [], by simp, rfl, rfl, rfl⟩

protected theorem throw (e : PyError) : Does (throw e : Handling σ B α) w (.error e) [] [] [] :=
  ⟨rfl, [], by simp, rfl, rfl, rfl⟩

protected theorem ask (peer : Peer σ (HandlerCall.Reply (B := B))) (q : HandlerCall B) :
    Does (ask peer q : Handling σ B q.Reply) w (.ok (peer.answer w.state q).1)
      ([⟨w.state, q, (peer.answer w.state q).1⟩].filterMap forwardOf)
      ([⟨w.state, q, (peer.answer w.state q).1⟩].filterMap recordOf)
      ([⟨w.state, q, (peer.answer w.state q).1⟩].filterMap responseOf) :=
  ⟨rfl, _, World.step_log peer w q, rfl, rfl, rfl⟩

theorem bind_ok {a : α} {f : α → Handling σ B β} {r : Except PyError β}
    (hx : Does x w (.ok a) fs rs ps) (hf : Does (f a) (x w).2 r fs' rs' ps') :
    Does (x >>= f) w r (fs ++ fs') (rs ++ rs') (ps ++ ps') := by
  obtain ⟨hresult, new, hlog, rfl, rfl, rfl⟩ := hx
  obtain ⟨hresult', new', hlog', rfl, rfl, rfl⟩ := hf
  have hx : x w = (.ok a, (x w).2) := Prod.ext hresult rfl
  refine ⟨by rw [bind_of_ok hx, hresult'], new ++ new', ?_, ?_, ?_, ?_⟩
  · rw [bind_of_ok hx, hlog', hlog, List.append_assoc]
  · rw [List.filterMap_append]
  · rw [List.filterMap_append]
  · rw [List.filterMap_append]

theorem lift_bind {s : Except PyError α} {a : α} {f : α → Handling σ B β} {r : Except PyError β}
    (hs : s = .ok a) (hf : Does (f a) w r fs rs ps) : Does (lift s >>= f) w r fs rs ps := by
  subst hs
  exact hf

theorem bind_error {e : PyError} {f : α → Handling σ B β}
    (hx : Does x w (.error e) fs rs ps) : Does (x >>= f) w (.error e) fs rs ps := by
  obtain ⟨hresult, new, hlog, hdeeds⟩ := hx
  have hx : x w = (.error e, (x w).2) := Prod.ext hresult rfl
  exact ⟨by rw [bind_of_error hx], new, by rw [bind_of_error hx, hlog], hdeeds⟩

theorem tryCatch_ok {a : α} {handler : PyError → Handling σ B α}
    (hx : Does x w (.ok a) fs rs ps) : Does (tryCatch x handler) w (.ok a) fs rs ps := by
  obtain ⟨hresult, new, hlog, hdeeds⟩ := hx
  have hx : tryCatch x handler w = (.ok a, (x w).2) := by
    rw [tryCatch_apply, show x w = (.ok a, (x w).2) from Prod.ext hresult rfl]
  exact ⟨by rw [hx], new, by rw [hx, hlog], hdeeds⟩

theorem tryCatch_error {e : PyError} {handler : PyError → Handling σ B α} {r : Except PyError α}
    (hx : Does x w (.error e) fs rs ps) (hh : Does (handler e) (x w).2 r fs' rs' ps') :
    Does (tryCatch x handler) w r (fs ++ fs') (rs ++ rs') (ps ++ ps') := by
  obtain ⟨hresult, new, hlog, rfl, rfl, rfl⟩ := hx
  obtain ⟨hresult', new', hlog', rfl, rfl, rfl⟩ := hh
  have hx : tryCatch x handler w = handler e (x w).2 := by
    rw [tryCatch_apply, show x w = (.error e, (x w).2) from Prod.ext hresult rfl]
  refine ⟨by rw [hx, hresult'], new ++ new', by rw [hx, hlog', hlog, List.append_assoc], ?_, ?_, ?_⟩
  · rw [List.filterMap_append]
  · rw [List.filterMap_append]
  · rw [List.filterMap_append]

end Does

/-! ## Recording -/

variable (peer loads size target)

/-- The end of a block, given the exception that escapes it. -/
def ended : Option PyError → Except PyError Unit
  | none => .ok ()
  | some e => .error e

/-- The recorder gets what the loop emits, and nothing else leaves the handler. -/
theorem does_extractRawTxs (cs : List Json) (w : World σ (HandlerCall.Reply (B := B))) :
    Does (extractRawTxs peer cs) w (ended (Proxy.extractRawTxs cs).2) [] (emitted cs) [] := by
  induction cs generalizing w with
  | nil => exact Does.pure ()
  | cons call rest ih =>
      unfold extractRawTxs emitted Proxy.extractRawTxs
      cases hcall : recordCall call with
      | error e => exact (Does.lift _).bind_error
      | ok rawTx =>
          cases rawTx with
          | none => exact (Does.lift _).bind_ok (ih _)
          | some rawTx => exact (Does.lift _).bind_ok ((Does.ask peer (.record rawTx)).bind_ok (ih _))

theorem recordBody_of_ok {body : B} {payload : Json} (h : loads body = .ok payload) :
    recordBody loads body =
      (emitted (calls payload), (Proxy.extractRawTxs (calls payload)).2.filter (!caught ·)) := by
  simp only [recordBody, h, emitted]

theorem recordBody_of_error {body : B} {e : PyError} (h : loads body = .error e) :
    recordBody loads body = ([], (some e).filter (!caught ·)) := by
  simp only [recordBody, h]

/-- The handler of the recording block. -/
def pass (e : PyError) : Handling σ B Unit := if caught e then return () else throw e

/-- It lets through what it does not catch. -/
theorem does_pass (e : PyError) (w : World σ (HandlerCall.Reply (B := B))) :
    Does (pass e) w (ended ((some e).filter (!caught ·))) [] [] [] := by
  unfold pass
  cases hcaught : caught e with
  | true =>
      rw [Option.filter_some, hcaught]
      exact Does.pure ()
  | false =>
      rw [Option.filter_some, hcaught]
      exact Does.throw e

/-- The recording block records `recordBody`, and ends as it does. -/
theorem does_recordRequest (body : B) (w : World σ (HandlerCall.Reply (B := B))) :
    Does (recordRequest peer loads body) w (ended (recordBody loads body).2)
      [] (recordBody loads body).1 [] := by
  show Does (tryCatch (lift (loads body) >>= fun payload => extractRawTxs peer (calls payload))
    pass) w _ _ _ _
  cases hloads : loads body with
  | error e =>
      rw [recordBody_of_error loads hloads]
      exact (Does.lift (.error e)).bind_error.tryCatch_error (does_pass e _)
  | ok payload =>
      rw [recordBody_of_ok loads hloads]
      have hloop : Does (lift (.ok payload) >>= fun payload => extractRawTxs peer (calls payload)) w
          (ended (Proxy.extractRawTxs (calls payload)).2) [] (emitted (calls payload)) [] :=
        (Does.lift (.ok payload)).bind_ok (does_extractRawTxs peer _ _)
      cases hraised : (Proxy.extractRawTxs (calls payload)).2 with
      | none =>
          rw [hraised] at hloop
          exact hloop.tryCatch_ok
      | some e =>
          rw [hraised] at hloop
          have hend := hloop.tryCatch_error (does_pass e _)
          simpa using hend

/-! ## One request -/

/-- What the upstream answers to a request: nothing, or a head and a body that can be read or
not. -/
inductive Answer (B : Type) where
  | silent (exc : PyError)
  | answered (head : Head) (read : Except PyError B)

/-- What the upstream does with a request in a given state. -/
def upstream (peer : Peer σ (HandlerCall.Reply (B := B))) (request : Request B) (s : σ) : Answer B :=
  match peer.answer s (.exchange request 120) with
  | (.error exc, _) => .silent exc
  | (.ok head, s₁) => .answered head (peer.answer s₁ .readReply).1

/-- The client sends a body with its length. The handler then turns to the upstream in
state `s'`. -/
def Receives (peer : Peer σ (HandlerCall.Reply (B := B))) (s : σ) (body : B) (s' : σ) : Prop :=
  ∃ text length u, peer.answer s (.header "Content-Length") = (some text, u) ∧
    Text.int 10 text = .ok length ∧ peer.answer u (.readBody length) = (.ok body, s')

theorem does_send (response : Response B) (w : World σ (HandlerCall.Reply (B := B))) :
    ∃ r, Does (send peer size response) w r [] [] [response] :=
  ⟨_, (Does.ask peer _).bind_ok (Does.lift _)⟩

/-- The recording block lets a response out, or an exception in its place. -/
theorem does_recordAndSend (body : B) (response : Response B)
    (w : World σ (HandlerCall.Reply (B := B))) :
    ∃ r, Does (recordAndSend peer loads size body response) w r [] (recordBody loads body).1
      (if (recordBody loads body).2 = none then [response] else []) := by
  unfold recordAndSend
  have hrecord := does_recordRequest peer loads body w
  cases hescape : (recordBody loads body).2 with
  | some e =>
      rw [hescape] at hrecord
      exact ⟨_, hrecord.bind_error⟩
  | none =>
      rw [hescape] at hrecord
      obtain ⟨r, hsend⟩ := does_send peer size response
        (recordRequest peer loads body w).2
      have hend := hrecord.bind_ok (f := fun _ => send peer size response) hsend
      exact ⟨r, by simpa using hend⟩

/-- What a request records and what it responds, given how its forward ends. -/
def outcome (loads : B → Except PyError Json) (body : B) :
    Forward B → List String × List (Response B)
  | .replied status data =>
    ((recordBody loads body).1,
      if (recordBody loads body).2 = none then [⟨status, .raw data⟩] else [])
  | .raised exc => ([], if exc.isException then [badGateway exc] else [])
  | .errorBodyRaised _ => ([], [])

/-! ## Redirects -/

/-- What `urlopen` does with the place that an answer points to. -/
def pursue (peer : Peer σ (HandlerCall.Reply (B := B))) (timeout : ℕ)
    (visited : List (String × ℕ)) (request : Request B) (head : Head) :
    Option String → Handling σ B Opened
  | none => return head.opened
  | some newurl =>
    if visits newurl visited < maxRepeats ∧ visited.length < maxRedirections then do
      let data : Except PyError B ← ask peer .readReply
      let _ ← lift data
      urlopen peer timeout (visit newurl visited) (request.redirected newurl)
    else return .httpError head.status

/-- What it does with the answer of its exchange. -/
def afterExchange (peer : Peer σ (HandlerCall.Reply (B := B))) (timeout : ℕ)
    (visited : List (String × ℕ)) (request : Request B) (head : Except PyError Head) :
    Handling σ B Opened := do
  let head ← lift head
  let newurl ← lift (redirection request head)
  pursue peer timeout visited request head newurl

theorem urlopen_eq (timeout : ℕ) (visited : List (String × ℕ)) (request : Request B) :
    urlopen peer timeout visited request =
      ask peer (.exchange request timeout) >>= afterExchange peer timeout visited request := by
  rw [urlopen]
  rfl

theorem urlopen_apply (timeout : ℕ) (visited : List (String × ℕ)) (request : Request B)
    (w : World σ (HandlerCall.Reply (B := B))) :
    urlopen peer timeout visited request w =
      afterExchange peer timeout visited request
        (peer.answer w.state (.exchange request timeout)).1
        (w.step peer (.exchange request timeout)) := by
  rw [urlopen_eq]
  exact bind_of_ok (ask_apply peer _ w)

theorem urlopen_silent {timeout : ℕ} (visited : List (String × ℕ)) {request : Request B}
    {exc : PyError} {w : World σ (HandlerCall.Reply (B := B))}
    (h : (peer.answer w.state (.exchange request timeout)).1 = .error exc) :
    urlopen peer timeout visited request w =
      (.error exc, w.step peer (.exchange request timeout)) := by
  rw [urlopen_apply, h]
  rfl

/-- Behind the head of an answer `urlopen` goes where that points. -/
theorem urlopen_answered {timeout : ℕ} (visited : List (String × ℕ)) {request : Request B}
    {head : Head} {w : World σ (HandlerCall.Reply (B := B))}
    (h : (peer.answer w.state (.exchange request timeout)).1 = .ok head) :
    urlopen peer timeout visited request w =
      (lift (redirection request head) >>= pursue peer timeout visited request head)
        (w.step peer (.exchange request timeout)) := by
  rw [urlopen_apply, h]
  rfl

/-- An answer that is not followed leaves its body to be read. -/
theorem does_exchange {α : Type} {x : Handling σ B α} {timeout : ℕ} {request : Request B}
    {w : World σ (HandlerCall.Reply (B := B))} {r : Except PyError α}
    (h : x w = (r, w.step peer (.exchange request timeout))) : Does x w r [request] [] [] := by
  refine ⟨by rw [h], _, by rw [h, World.step_log], rfl, rfl, rfl⟩

/-- What is done behind the first exchange of `urlopen` comes after its request. -/
theorem Does.behind_exchange {α : Type} {x y : Handling σ B α} {timeout : ℕ} {request : Request B}
    {w : World σ (HandlerCall.Reply (B := B))} {r : Except PyError α} {fs : List (Request B)}
    (hy : Does y (w.step peer (.exchange request timeout)) r fs [] [])
    (h : x w = y (w.step peer (.exchange request timeout))) : Does x w r (request :: fs) [] [] := by
  obtain ⟨hresult, new, hlog, rfl, hrecords, hresponses⟩ := hy
  refine ⟨by rw [h, hresult], ⟨w.state, .exchange request timeout,
    (peer.answer w.state (.exchange request timeout)).1⟩ :: new, ?_, rfl, ?_, ?_⟩
  · rw [h, hlog, World.step_log, List.append_assoc]
    rfl
  · exact hrecords
  · exact hresponses

/-- The body of an answer that is followed is read first. -/
theorem pursue_of_room {timeout : ℕ} {visited : List (String × ℕ)} {request : Request B}
    {head : Head} {newurl : String}
    (hroom : visits newurl visited < maxRepeats ∧ visited.length < maxRedirections) :
    pursue peer timeout visited request head (some newurl) =
      ask peer .readReply >>= fun data : Except PyError B => lift data >>= fun _ =>
        urlopen peer timeout (visit newurl visited) (request.redirected newurl) :=
  if_pos hroom

section

variable {timeout : ℕ} {visited : List (String × ℕ)} {request : Request B} {head : Head}
  {newurl : String} {w : World σ (HandlerCall.Reply (B := B))}

/-- One that cannot be read ends the forward. -/
theorem does_unread {exc : PyError}
    (hhead : (peer.answer w.state (.exchange request timeout)).1 = .ok head)
    (hredirect : redirection request head = .ok (some newurl))
    (hroom : visits newurl visited < maxRepeats ∧ visited.length < maxRedirections)
    (hread : (peer.answer (w.step peer (.exchange request timeout)).state .readReply).1 =
      .error exc) :
    Does (urlopen peer timeout visited request) w (.error exc) [request] [] [] := by
  have hopen := urlopen_answered peer visited hhead
  rw [hredirect] at hopen
  have hask := Does.ask peer (w := w.step peer (.exchange request timeout)) .readReply
  rw [hread] at hask
  have hpursue : Does (pursue peer timeout visited request head (some newurl))
      (w.step peer (.exchange request timeout)) (.error exc) [] [] [] := by
    rw [pursue_of_room peer hroom]
    exact hask.bind_ok (Does.lift (.error exc)).bind_error
  exact hpursue.behind_exchange peer hopen

/-- Otherwise the request for the new place follows. -/
theorem does_followed {data : B} {r : Except PyError Opened} {fs : List (Request B)}
    (hhead : (peer.answer w.state (.exchange request timeout)).1 = .ok head)
    (hredirect : redirection request head = .ok (some newurl))
    (hroom : visits newurl visited < maxRepeats ∧ visited.length < maxRedirections)
    (hread : (peer.answer (w.step peer (.exchange request timeout)).state .readReply).1 = .ok data)
    (hnext : Does (urlopen peer timeout (visit newurl visited) (request.redirected newurl))
      ((w.step peer (.exchange request timeout)).step peer .readReply) r fs [] []) :
    Does (urlopen peer timeout visited request) w r (request :: fs) [] [] := by
  have hopen := urlopen_answered peer visited hhead
  rw [hredirect] at hopen
  have hask := Does.ask peer (w := w.step peer (.exchange request timeout)) .readReply
  rw [hread] at hask
  have hpursue : Does (pursue peer timeout visited request head (some newurl))
      (w.step peer (.exchange request timeout)) r fs [] [] := by
    rw [pursue_of_room peer hroom]
    exact hask.bind_ok (Does.lift_bind rfl hnext)
  exact hpursue.behind_exchange peer hopen

end

/-- However far it is redirected, `urlopen` sends the request first and records nothing. -/
theorem does_urlopen (timeout : ℕ) (visited : List (String × ℕ)) (request : Request B)
    (w : World σ (HandlerCall.Reply (B := B))) :
    ∃ r fs, Does (urlopen peer timeout visited request) w r (request :: fs) [] [] := by
  induction hn : room visited using Nat.strong_induction_on generalizing visited request w with
  | _ n ih =>
      cases hhead : (peer.answer w.state (.exchange request timeout)).1 with
      | error exc => exact ⟨_, [], does_exchange peer (urlopen_silent peer visited hhead)⟩
      | ok head =>
          have hopen := urlopen_answered peer visited hhead
          cases hredirect : redirection request head with
          | error exc =>
              rw [hredirect] at hopen
              exact ⟨.error exc, [], does_exchange peer hopen⟩
          | ok newurl =>
              rw [hredirect] at hopen
              cases newurl with
              | none => exact ⟨.ok head.opened, [], does_exchange peer hopen⟩
              | some newurl =>
                  by_cases hroom : visits newurl visited < maxRepeats ∧
                      visited.length < maxRedirections
                  · cases hread : (peer.answer (w.step peer (.exchange request timeout)).state
                      .readReply).1 with
                    | error exc => exact ⟨_, [], does_unread peer hhead hredirect hroom hread⟩
                    | ok data =>
                        obtain ⟨r, fs, hnext⟩ := ih _ (hn ▸ room_visit hroom.1 hroom.2)
                          (visit newurl visited) (request.redirected newurl)
                          ((w.step peer (.exchange request timeout)).step peer .readReply) rfl
                        exact ⟨r, _, does_followed peer hhead hredirect hroom hread hnext⟩
                  · have hstop : pursue peer timeout visited request head (some newurl) =
                        return .httpError head.status := if_neg hroom
                    have hend := Does.pure (w := w.step peer (.exchange request timeout))
                      (Opened.httpError head.status)
                    rw [← hstop] at hend
                    exact ⟨_, _, hend.behind_exchange peer hopen⟩

/-! ## The forward -/

/-- A forward from how the reading of its reply, or of its error body, ends. -/
def replyForward (status : ℕ) : Except PyError B → Forward B
  | .ok data => .replied status data
  | .error exc => .raised exc

def errorForward (code : ℕ) : Except PyError B → Forward B
  | .ok data => .replied code data
  | .error exc => .errorBodyRaised exc

/-- How the forward ends, given what `urlopen` returns and how the body behind it is read. -/
def forwardAfter : Except PyError Opened → Except PyError B → Forward B
  | .error exc, _ => .raised exc
  | .ok (.reply status), read => replyForward status read
  | .ok (.httpError code), read => errorForward code read

/-- An exception inside the `try`, as its handler leaves it. -/
def attemptOf (exc : PyError) : Except PyError (Attempt B) :=
  if exc.isException then .ok (.raised exc) else .error exc

theorem does_attempt_error {request : Request B} {fs : List (Request B)} {exc : PyError}
    {w : World σ (HandlerCall.Reply (B := B))}
    (h : Does (openReply peer request) w (.error exc) fs [] []) :
    Does (attempt peer request) w (attemptOf exc) fs [] [] := by
  let handler : PyError → Handling σ B (Attempt B) := fun exc =>
    if exc.isException then return .raised exc else throw exc
  have hhandler : ∀ u : World σ (HandlerCall.Reply (B := B)),
      Does (handler exc) u (attemptOf exc) [] [] [] := by
    intro u
    unfold handler attemptOf
    cases exc.isException with
    | true => exact Does.pure (Attempt.raised exc)
    | false => exact Does.throw exc
  have hend := h.tryCatch_error (hhandler _)
  rwa [List.append_nil] at hend

/-- An exception of the forward is answered by the proxy itself. -/
theorem does_raised {request : Request B} {body : B} {fs : List (Request B)} {exc : PyError}
    {w : World σ (HandlerCall.Reply (B := B))}
    (h : Does (openReply peer request) w (.error exc) fs [] []) :
    ∃ r, Does (attempt peer request >>= conclude peer loads size body) w r
      fs (outcome loads body (.raised exc)).1 (outcome loads body (.raised exc)).2 := by
  have hattempt := does_attempt_error peer h
  unfold attemptOf at hattempt
  cases hexc : exc.isException with
  | true =>
      have houtcome : outcome loads body (.raised exc) = ([], [badGateway exc]) := by
        simp [outcome, hexc]
      rw [hexc] at hattempt
      rw [houtcome]
      obtain ⟨r, hsend⟩ := does_send peer size (badGateway exc) (attempt peer request w).2
      have hend := hattempt.bind_ok (f := conclude peer loads size body) hsend
      rw [List.append_nil] at hend
      exact ⟨r, hend⟩
  | false =>
      have houtcome : outcome loads body (.raised exc) = ([], []) := by
        simp [outcome, hexc]
      rw [hexc] at hattempt
      rw [houtcome]
      exact ⟨_, hattempt.bind_error⟩

/-- A reply that was read to its end. -/
theorem does_replied {request : Request B} {body : B} {fs : List (Request B)} {status : ℕ}
    {data : B} {w : World σ (HandlerCall.Reply (B := B))}
    (h : Does (openReply peer request) w (.ok (.replied status data)) fs [] []) :
    ∃ r, Does (attempt peer request >>= conclude peer loads size body) w r fs
      (outcome loads body (.replied status data)).1
      (outcome loads body (.replied status data)).2 := by
  have hattempt : Does (attempt peer request) w _ _ _ _ := h.tryCatch_ok
  obtain ⟨r, hend⟩ := does_recordAndSend peer loads size body
    ⟨status, .raw data⟩ (attempt peer request w).2
  have hrun := hattempt.bind_ok (f := conclude peer loads size body) hend
  rw [List.append_nil] at hrun
  exact ⟨r, hrun⟩

theorem does_readReply {status : ℕ} {r : Except PyError B} {u : World σ (HandlerCall.Reply (B := B))}
    (hread : (peer.answer u.state .readReply).1 = r) :
    Does (readOpened peer (.reply status)) u (r.map (.replied status)) [] [] [] := by
  have hask := Does.ask peer (w := u) .readReply
  rw [hread] at hask
  cases r with
  | error exc =>
      exact hask.bind_ok (f := fun data : Except PyError B => lift data >>= fun data =>
        pure (Attempt.replied status data)) (Does.lift (.error exc)).bind_error
  | ok data =>
      exact hask.bind_ok (f := fun data : Except PyError B => lift data >>= fun data =>
        pure (Attempt.replied status data)) ((Does.lift (.ok data)).bind_ok (Does.pure _))

/-- The body of an error response is read outside the `try`. -/
theorem does_conclude_httpError (body : B) (code : ℕ) (u : World σ (HandlerCall.Reply (B := B))) :
    ∃ r, Does (conclude peer loads size body (.httpError code)) u r []
      (outcome loads body (errorForward code (peer.answer u.state .readReply).1)).1
      (outcome loads body (errorForward code (peer.answer u.state .readReply).1)).2 := by
  let rest : Except PyError B → Handling σ B Unit := fun data => lift data >>= fun data =>
    recordAndSend peer loads size body ⟨code, .raw data⟩
  have hask := Does.ask peer (w := u) .readReply
  cases hdata : (peer.answer u.state .readReply).1 with
  | error exc =>
      rw [hdata] at hask
      exact ⟨_, hask.bind_ok (f := rest) (Does.lift (.error exc)).bind_error⟩
  | ok data =>
      rw [hdata] at hask
      obtain ⟨r, hend⟩ := does_recordAndSend peer loads size body
        ⟨code, .raw data⟩ (u.step peer .readReply)
      exact ⟨r, hask.bind_ok (f := rest) ((Does.lift (.ok data)).bind_ok
        (f := fun data => recordAndSend peer loads size body ⟨code, .raw data⟩) hend)⟩

/-- What follows `urlopen`, however it ends. -/
theorem does_behind {request : Request B} (body : B) {r : Except PyError Opened}
    {fs : List (Request B)} {w : World σ (HandlerCall.Reply (B := B))}
    (hopen : Does (urlopen peer 120 [] request) w r fs [] []) :
    ∃ r', Does (attempt peer request >>= conclude peer loads size body) w r' fs
      (outcome loads body (forwardAfter r
        (peer.answer (urlopen peer 120 [] request w).2.state .readReply).1)).1
      (outcome loads body (forwardAfter r
        (peer.answer (urlopen peer 120 [] request w).2.state .readReply).1)).2 := by
  cases r with
  | error exc => exact does_raised peer loads size hopen.bind_error
  | ok opened =>
      cases opened with
      | reply status =>
          have hread := hopen.bind_ok (f := readOpened peer) (does_readReply peer rfl)
          rw [List.append_nil] at hread
          unfold forwardAfter
          cases hdata : (peer.answer (urlopen peer 120 [] request w).2.state .readReply).1 with
          | error exc =>
              rw [hdata] at hread
              exact does_raised peer loads size hread
          | ok data =>
              rw [hdata] at hread
              exact does_replied peer loads size hread
      | httpError code =>
          have hfirst : Does (attempt peer request) w (.ok (.httpError code)) fs [] [] := by
            have hend := hopen.bind_ok (f := readOpened peer)
              (Does.pure (Attempt.httpError code))
            rw [List.append_nil] at hend
            exact hend.tryCatch_ok
          have hworld : (attempt peer request w).2 = (urlopen peer 120 [] request w).2 := by
            have hurl : urlopen peer 120 [] request w =
                (.ok (.httpError code), (urlopen peer 120 [] request w).2) :=
              Prod.ext hopen.result rfl
            have hreply : openReply peer request w =
                (.ok (.httpError code), (urlopen peer 120 [] request w).2) := bind_of_ok hurl
            unfold attempt
            rw [tryCatch_apply, hreply]
          obtain ⟨r', hend⟩ := does_conclude_httpError peer loads size body code
            (attempt peer request w).2
          have hrun := hfirst.bind_ok (f := conclude peer loads size body) hend
          rw [List.append_nil, List.nil_append, List.nil_append, hworld] at hrun
          exact ⟨r', hrun⟩

/-- How a forward ends, with the requests that are sent on its way: one, unless the upstream
points to another place. -/
inductive Forwards (request : Request B) : Answer B → List (Request B) → Forward B → Prop where
  | silent (exc : PyError) : Forwards request (.silent exc) [request] (.raised exc)
  | malformed {head : Head} (read : Except PyError B) {exc : PyError}
      (h : redirection request head = .error exc) :
      Forwards request (.answered head read) [request] (.raised exc)
  | relayed {head : Head} (read : Except PyError B) (h : redirection request head = .ok none) :
      Forwards request (.answered head read) [request] (forwardAfter (.ok head.opened) read)
  | unread {head : Head} {newurl : String} (exc : PyError)
      (h : redirection request head = .ok (some newurl)) :
      Forwards request (.answered head (.error exc)) [request] (.raised exc)
  | followed {head : Head} {newurl : String} (data : B) (rest : List (Request B))
      (forward : Forward B) (h : redirection request head = .ok (some newurl)) :
      Forwards request (.answered head (.ok data))
        (request :: request.redirected newurl :: rest) forward

/-- The first redirect is always let through. -/
theorem room_start (newurl : String) :
    visits newurl [] < maxRepeats ∧ ([] : List (String × ℕ)).length < maxRedirections :=
  ⟨Nat.zero_lt_succ 3, Nat.zero_lt_succ 9⟩

/-- The forward and what follows it. -/
theorem does_forward (request : Request B) (body : B)
    (w : World σ (HandlerCall.Reply (B := B))) :
    ∃ r fs forward, Forwards request (upstream peer request w.state) fs forward ∧
      Does (attempt peer request >>= conclude peer loads size body) w r fs
        (outcome loads body forward).1 (outcome loads body forward).2 := by
  have hupstream : upstream peer request w.state =
      match (peer.answer w.state (.exchange request 120)).1 with
      | .error exc => .silent exc
      | .ok head => .answered head
          (peer.answer (w.step peer (.exchange request 120)).state .readReply).1 := by
    unfold upstream
    rw [World.step_state]
    rcases peer.answer w.state (.exchange request 120) with ⟨_ | _, s₁⟩ <;> rfl
  rw [hupstream]
  cases hhead : (peer.answer w.state (.exchange request 120)).1 with
  | error exc =>
      have hopen := does_exchange peer (urlopen_silent peer [] hhead)
      obtain ⟨r, hend⟩ := does_behind peer loads size body hopen
      exact ⟨r, _, _, .silent exc, hend⟩
  | ok head =>
      have hworld := urlopen_answered peer [] hhead
      cases hredirect : redirection request head with
      | error exc =>
          rw [hredirect] at hworld
          obtain ⟨r, hend⟩ := does_behind peer loads size body
            (does_exchange peer (r := .error exc) hworld)
          exact ⟨r, _, _, .malformed _ hredirect, hend⟩
      | ok newurl =>
          rw [hredirect] at hworld
          cases newurl with
          | none =>
              obtain ⟨r, hend⟩ := does_behind peer loads size body
                (does_exchange peer (r := .ok head.opened) hworld)
              rw [hworld] at hend
              exact ⟨r, _, _, .relayed _ hredirect, hend⟩
          | some newurl =>
              cases hread : (peer.answer (w.step peer (.exchange request 120)).state
                  .readReply).1 with
              | error exc =>
                  obtain ⟨r, hend⟩ := does_behind peer loads size body
                    (does_unread peer hhead hredirect (room_start newurl) hread)
                  exact ⟨r, _, _, .unread exc hredirect, hend⟩
              | ok data =>
                  obtain ⟨r, rest, hnext⟩ := does_urlopen peer 120 (visit newurl [])
                    (request.redirected newurl)
                    ((w.step peer (.exchange request 120)).step peer .readReply)
                  obtain ⟨r', hend⟩ := does_behind peer loads size body
                    (does_followed peer hhead hredirect (room_start newurl) hread hnext)
                  exact ⟨r', _, _, .followed data rest _ hredirect, hend⟩

/-- What a request does, with the upstream doing as it does once the body is read. -/
theorem does_doPost {body : B} {s' : σ} {w : World σ (HandlerCall.Reply (B := B))}
    (hreceives : Receives peer w.state body s') :
    ∃ r fs forward,
      Forwards (target.request body) (upstream peer (target.request body) s') fs forward ∧
        Does (doPost peer loads size target) w r fs
          (outcome loads body forward).1 (outcome loads body forward).2 := by
  obtain ⟨text, length, u, hheader, hlength, hbody⟩ := hreceives
  let afterBody : Except PyError B → Handling σ B Unit := fun body => lift body >>= fun body =>
    attempt peer (target.request body) >>= conclude peer loads size body
  let afterLength : ℤ → Handling σ B Unit := fun length => ask peer (.readBody length) >>= afterBody
  let afterHeader : Option String → Handling σ B Unit := fun header =>
    lift (contentLength header) >>= afterLength
  let w₁ := w.step peer (.header "Content-Length")
  let w₂ := w₁.step peer (.readBody length)
  have hstate₁ : w₁.state = u := by
    rw [World.step_state, hheader]
  have hstate₂ : w₂.state = s' := by
    rw [World.step_state, hstate₁, hbody]
  obtain ⟨r, fs, forward, hforwards, hforward⟩ :=
    does_forward peer loads size (target.request body) body w₂
  rw [hstate₂] at hforwards
  have haskHeader := Does.ask peer (w := w) (.header "Content-Length")
  rw [hheader] at haskHeader
  have haskBody := Does.ask peer (w := w₁) (.readBody length)
  rw [hstate₁, hbody] at haskBody
  have hread : Does (afterBody (.ok body)) w₂ r _ _ _ := (Does.lift (.ok body)).bind_ok
    (f := fun body => attempt peer (target.request body) >>= conclude peer loads size body) hforward
  have hrest : Does (afterHeader (some text)) w₁ r _ _ _ :=
    Does.lift_bind (f := afterLength) hlength (haskBody.bind_ok (f := afterBody) hread)
  exact ⟨r, fs, forward, hforwards, haskHeader.bind_ok (f := afterHeader) hrest⟩

theorem asked_doPost {body : B} {s' : σ} {w : World σ (HandlerCall.Reply (B := B))}
    (hreceives : Receives peer w.state body s') :
    ∃ forward, Forwards (target.request body) (upstream peer (target.request body) s')
        ((asked (doPost peer loads size target) w).filterMap forwardOf) forward ∧
      (asked (doPost peer loads size target) w).filterMap recordOf =
        (outcome loads body forward).1 ∧
      (asked (doPost peer loads size target) w).filterMap responseOf =
        (outcome loads body forward).2 := by
  obtain ⟨r, fs, forward, hforwards, -, new, hlog, rfl, hrecords, hresponses⟩ :=
    does_doPost peer loads size target hreceives
  rw [asked_eq hlog]
  exact ⟨forward, hforwards, hrecords, hresponses⟩

/-! ## When the response goes out -/

/-- The response that a client is owed. -/
def due : Answer B → Response B
  | .silent exc => badGateway exc
  | .answered head (.ok data) => ⟨head.status, .raw data⟩
  | .answered _ (.error exc) => badGateway exc

/-- The parameters of a call that submits a transaction. -/
def sendRawParams : Json → Option Json
  | .obj fields => if isSendRaw fields then fields.lookup "params" else none
  | _ => none

/-- A submission with parameters by name. -/
def byName (call : Json) : Bool :=
  match sendRawParams call with
  | some (.obj fields) => !fields.isEmpty
  | _ => false

/-- A submission whose parameters are a number or a flag, other than zero and `false`. -/
def scalar (call : Json) : Bool :=
  match sendRawParams call with
  | some (.bool b) => b
  | some (.int n) => n != 0
  | some (.float value) => value != some 0
  | _ => false

/-- No submission by name precedes the first one with scalar parameters. -/
def Recordable (loads : B → Except PyError Json) (body : B) : Prop :=
  match loads body with
  | .ok payload => ∀ call ∈ (calls payload).takeWhile (!scalar ·), byName call = false
  | .error e => caught e = true

/-- What the upstream and the body have to be like for the client to be served: an answer is
passed on when it points to no other place, its body can be read, and recording it raises
nothing. -/
def Served (loads : B → Except PyError Json) (body : B) (request : Request B) : Answer B → Prop
  | .silent exc => exc.isException = true
  | .answered head read =>
    match redirection request head, read with
    | .ok none, .ok _ => Recordable loads body
    | .ok none, .error exc => (200 ≤ head.status ∧ head.status < 300) ∧ exc.isException = true
    | .ok (some _), .ok _ => False
    | .ok (some _), .error exc => exc.isException = true
    | .error _, .ok _ => False
    | .error e, .error exc => e.isException = true ∧ e.text = exc.text

/-- How the extraction ends on a call: without an exception, or with one that is caught
exactly when the parameters are scalar. -/
inductive Escapes (call : Json) : Except PyError (Option String) → Prop where
  | none (rawTx : Option String) (hname : byName call = false) (hscalar : scalar call = false) :
      Escapes call (.ok rawTx)
  | byName (e : PyError) (hname : byName call = true) (hscalar : scalar call = false)
      (he : caught e = false) : Escapes call (.error e)
  | scalar (e : PyError) (hname : byName call = false) (hscalar : scalar call = true)
      (he : caught e = true) : Escapes call (.error e)

/-- The `params[0]` of a submission, behind its guard. -/
def recordParams (params : Json) : Except PyError (Option String) :=
  if params.truthy then
    match params.item0 with
    | .ok (.str rawTx) => .ok (some rawTx)
    | .ok _ => .ok none
    | .error e => .error e
  else .ok none

theorem recordParams_of_falsy {params : Json} (h : params.truthy = false) :
    recordParams params = .ok none := by
  simp [recordParams, h]

theorem recordParams_orEmpty (params : Json) :
    recordParams (Json.orEmpty (some params)) = recordParams params := by
  cases htruthy : params.truthy with
  | true => simp [Json.orEmpty, htruthy]
  | false =>
      have hempty : Json.orEmpty (some params) = .arr [] := by simp [Json.orEmpty, htruthy]
      rw [hempty, recordParams_of_falsy htruthy, recordParams_of_falsy rfl]

theorem recordParams_str (s : String) : ∃ rawTx, recordParams (.str s) = .ok rawTx := by
  cases htruthy : (Json.str s).truthy with
  | false => exact ⟨none, recordParams_of_falsy htruthy⟩
  | true =>
      cases hchars : s.toList with
      | nil =>
          obtain rfl : s = "" := by simpa using hchars
          exact ⟨none, rfl⟩
      | cons c cs =>
          have hitem : Json.item0 (.str s) = .ok (.str (String.singleton c)) := by
            simp [Json.item0, hchars]
          exact ⟨some (String.singleton c), by simp only [recordParams, htruthy, if_true, hitem]⟩

theorem recordParams_arr (items : List Json) : ∃ rawTx, recordParams (.arr items) = .ok rawTx := by
  cases items with
  | nil => exact ⟨none, rfl⟩
  | cons item items => cases item <;> exact ⟨_, rfl⟩

/-- A submission with these parameters. -/
theorem recordParams_escapes {call params : Json} (h : sendRawParams call = some params) :
    Escapes call (recordParams params) := by
  cases params with
  | null => exact .none none (by simp [byName, h]) (by simp [scalar, h])
  | bool b =>
      cases b with
      | false => exact .none none (by simp [byName, h]) (by simp [scalar, h])
      | true => exact .scalar _ (by simp [byName, h]) (by simp [scalar, h]) rfl
  | int n =>
      by_cases hn : n = 0
      · subst hn
        exact .none none (by simp [byName, h]) (by simp [scalar, h])
      · have htruthy : Json.truthy (.int n) = true := by simpa [Json.truthy] using hn
        have hraise : recordParams (.int n) = .error ⟨.typeError, "object is not subscriptable"⟩ := by
          simp only [recordParams, htruthy, if_true, Json.item0]
        rw [hraise]
        exact .scalar _ (by simp [byName, h]) (by simpa [scalar, h] using hn) rfl
  | float value =>
      by_cases hvalue : value = some 0
      · subst hvalue
        exact .none none (by simp [byName, h]) (by simp [scalar, h])
      · have htruthy : Json.truthy (.float value) = true := by simpa [Json.truthy] using hvalue
        have hraise : recordParams (.float value) =
            .error ⟨.typeError, "object is not subscriptable"⟩ := by
          simp only [recordParams, htruthy, if_true, Json.item0]
        rw [hraise]
        exact .scalar _ (by simp [byName, h]) (by simpa [scalar, h] using hvalue) rfl
  | str s =>
      obtain ⟨rawTx, hrecord⟩ := recordParams_str s
      rw [hrecord]
      exact .none rawTx (by simp [byName, h]) (by simp [scalar, h])
  | arr items =>
      obtain ⟨rawTx, hrecord⟩ := recordParams_arr items
      rw [hrecord]
      exact .none rawTx (by simp [byName, h]) (by simp [scalar, h])
  | obj fields =>
      cases fields with
      | nil => exact .none none (by simp [byName, h]) (by simp [scalar, h])
      | cons field fields => exact .byName _ (by simp [byName, h]) (by simp [scalar, h]) rfl

theorem recordCall_escapes (call : Json) : Escapes call (recordCall call) := by
  cases call with
  | obj fields =>
      cases hsend : isSendRaw fields with
      | true =>
          have hrecord : recordCall (.obj fields) =
              recordParams (Json.orEmpty (fields.lookup "params")) := if_pos hsend
          have hparams : sendRawParams (.obj fields) = fields.lookup "params" := if_pos hsend
          rw [hrecord]
          cases hlookup : fields.lookup "params" with
          | none =>
              rw [hlookup] at hparams
              exact .none none (by simp [byName, hparams]) (by simp [scalar, hparams])
          | some params =>
              rw [hlookup] at hparams
              rw [recordParams_orEmpty]
              exact recordParams_escapes hparams
      | false =>
          have hparams : sendRawParams (.obj fields) = none := by simp [sendRawParams, hsend]
          have hrecord : recordCall (.obj fields) = .ok none := by simp [recordCall, hsend]
          rw [hrecord]
          exact .none none (by simp [byName, hparams]) (by simp [scalar, hparams])
  | _ => exact .none none rfl rfl

/-- The exception that escapes the loop is that of a submission by name, unless a scalar one
has ended the loop before. -/
theorem extractRawTxs_escape (cs : List Json) :
    (Proxy.extractRawTxs cs).2.filter (!caught ·) = none ↔
      ∀ call ∈ cs.takeWhile (!scalar ·), byName call = false := by
  induction cs with
  | nil => simp [Proxy.extractRawTxs]
  | cons call rest ih =>
      have hcall := recordCall_escapes call
      unfold Proxy.extractRawTxs
      cases hrecord : recordCall call with
      | ok rawTx =>
          rw [hrecord] at hcall
          cases hcall with
          | none _ hname hscalar => simpa [hscalar, hname] using ih
      | error e =>
          rw [hrecord] at hcall
          cases hcall with
          | byName _ hname hscalar he => simp [hscalar, hname, he]
          | scalar _ hname hscalar he => simp [hscalar, he]

theorem recordBody_escape (body : B) :
    (recordBody loads body).2 = none ↔ Recordable loads body := by
  unfold Recordable
  cases hloads : loads body with
  | ok payload =>
      rw [recordBody_of_ok loads hloads]
      exact extractRawTxs_escape (calls payload)
  | error e =>
      rw [recordBody_of_error loads hloads]
      simp

theorem badGateway_inj {exc e : PyError} :
    (badGateway exc : Response B) = badGateway e ↔ exc.text = e.text := by
  simp [badGateway]

/-- The proxy's own answer is the one that is due exactly when nothing else is. -/
theorem outcome_raised {body : B} {exc : PyError} {response : Response B} :
    (outcome loads body (.raised exc)).2 = [response] ↔
      exc.isException = true ∧ badGateway exc = response := by
  by_cases hexc : exc.isException = true <;> simp [outcome, hexc]

/-- One forward and the response that is due, or a client that cannot be served. -/
theorem forwards_iff {body : B} {request : Request B} {answer : Answer B} {fs : List (Request B)}
    {forward : Forward B} (h : Forwards request answer fs forward) :
    (fs = [request] ∧ (outcome loads body forward).2 = [due answer]) ↔
      Served loads body request answer := by
  cases h with
  | silent exc => simp [outcome_raised, due, Served]
  | @malformed head read exc h =>
      rw [outcome_raised]
      cases read with
      | ok data => simp [Served, h, due, badGateway]
      | error e => simp [Served, h, due, badGateway_inj]
  | @relayed head read h =>
      cases read with
      | ok data =>
          have hforward : forwardAfter (.ok head.opened) (.ok data) =
              .replied head.status data := by
            unfold Head.opened
            split <;> rfl
          simp [hforward, outcome, Served, h, due, ← recordBody_escape loads]
      | error exc =>
          unfold Head.opened
          split
          · rename_i hok
            simp [forwardAfter, replyForward, outcome_raised, Served, h, due, hok]
          · rename_i hok
            simp [forwardAfter, errorForward, outcome, Served, h, hok]
  | unread exc h => simp [outcome_raised, Served, h, due]
  | followed data rest forward h => simp [Served, h]

/-! ## The interleaved model -/

/-- Some forward of `doPost` leaves what a request does. -/
theorem exists_doPost (body : B) (forward : Forward B) (rawTxs : List String) :
    ∃ forward', (Proxy.doPost loads rawTxs body forward').1 =
        rawTxs ++ (outcome loads body forward).1 ∧
      (Proxy.doPost loads rawTxs body forward').2.toOption.toList =
        (outcome loads body forward).2 := by
  cases forward with
  | replied status data =>
      refine ⟨.replied status data, rfl, ?_⟩
      unfold outcome Proxy.doPost
      cases (recordBody loads body).2 <;> rfl
  | raised exc =>
      by_cases hexc : exc.isException = true
      · exact ⟨.raised exc, by simp [Proxy.doPost, outcome],
          by simp [Proxy.doPost, outcome, hexc, Except.toOption]⟩
      -- No handler catches it, as when the body of an error cannot be read.
      · exact ⟨.errorBodyRaised exc, by simp [Proxy.doPost, outcome],
          by simp [Proxy.doPost, outcome, hexc, Except.toOption]⟩
  | errorBodyRaised exc =>
      exact ⟨.errorBodyRaised exc, by simp [Proxy.doPost, outcome],
        by simp [Proxy.doPost, outcome, Except.toOption]⟩

/-- What a request records and responds is what the steps of its handler do, taken one after
another in any state of the interleaved model. -/
theorem doPost_steps {body : B} {s' : σ} {w : World σ (HandlerCall.Reply (B := B))}
    (hreceives : Receives peer w.state body s') {t : State B} {h : ℕ}
    (ht : t.handlers h = some ⟨body, .forwarding⟩) :
    ∃ forward n u,
      Runs.run (step loads) t (Forward.label h [] forward :: List.replicate n (.extract h)) =
        some u ∧
      u.rawTxs = t.rawTxs ++ (asked (doPost peer loads size target) w).filterMap recordOf ∧
      ∃ result, u.handlers h = some ⟨body, Phase.ofResult result⟩ ∧
        (asked (doPost peer loads size target) w).filterMap responseOf =
          result.toOption.toList := by
  obtain ⟨forward, -, hrecords, hresponses⟩ := asked_doPost peer loads size target hreceives
  obtain ⟨forward', hraw, hresult⟩ := exists_doPost loads body forward t.rawTxs
  obtain ⟨n, u, hrun, hrecorded, hphase⟩ := run_doPost forward' [] ht (.inr rfl)
  refine ⟨forward', n, u, hrun, ?_, _, hphase, ?_⟩
  · rw [hrecorded, hraw, hrecords]
  · rw [hresponses, hresult]

/-! ## Transparency -/

/-- A client that sends its state as the body, in front of a node that answers everything at
one place and points to it everywhere else. -/
def gateway (place : String) : Peer Json (HandlerCall.Reply (B := Json)) where
  answer body q :=
    (match q with
      | .header _ => some "64"
      | .readBody _ => .ok body
      | .exchange request _ => .ok (if request.url = place then ⟨200, .absent⟩ else ⟨302, .url place⟩)
      | .readReply => .ok (.obj [("result", .null)])
      | .record _ => ()
      | .respond _ _ _ => .ok (), body)

theorem gateway_receives (place : String) (body : Json) :
    Receives (gateway place) body body body :=
  ⟨"64", 64, body, rfl, by decide, rfl⟩

def node : Target := ⟨"http://127.0.0.1:8545", []⟩

/-- Where the node points elsewhere, the client gets what is answered there. -/
example : ¬ Served .ok (sendRaw "0x01") (node.request (sendRaw "0x01"))
    (upstream (gateway "http://127.0.0.1:8546") (node.request (sendRaw "0x01"))
      (sendRaw "0x01")) :=
  id

end EestReplay.Proxy.Http
