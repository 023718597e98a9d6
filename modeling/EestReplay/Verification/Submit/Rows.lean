import EestReplay.Model.Csv
import EestReplay.Verification.Text.Numerals
import EestReplay.Verification.Submit.Sidecar

/-! # The rows of a capture

What becomes of the captured strings: a row for each in the CSV, unless one of them is no hex
or a lookup is answered with something that is no transaction or that cannot be written. -/

namespace EestReplay.Export

open Dialogue

section

variable {σ : Type} (peer : Peer σ HostReply) (eest : Eest)

/-- `execute` behind the recording proxy. -/
def captureExecute (args : SubmitArgs) (eoaStart : String) :
    Command σ (Bool × Option String × List String) :=
  withProxy peer args.rpcUrl fun proxyUrl => do
    let (executeOk, err) ← runExecute peer (executeArgs eest args eoaStart proxyUrl)
    let rawTxs : List String ← call peer .snapshot
    return (executeOk, err, rawTxs)

/-- What follows the rows of a capture. -/
def saveRows (csvPath : Path) (executeOk : Bool) (err : Option String) (rows : List Row) :
    Command σ (Bool × Option String × Option ℕ) := do
  call peer (.mkdir csvPath.parent)
  call peer (.writeCsv csvPath rows)
  return (executeOk, err, some rows.length)

end

variable {σ : Type} {peer : Peer σ HostReply} {eest : Eest}

section

variable {args : SubmitArgs} {csvPath : Path} {eoaStart : String} {w u v : HostWorld σ}
  {executeOk : Bool} {err : Option String} {rawTxs : List String}

theorem broadcast_of_rows {rows : List Row} (hcsv : args.csvPath = some csvPath)
    (hcapture : captureExecute peer eest args eoaStart w = (.ok (executeOk, err, rawTxs), u))
    (hrows : enrich peer eest args.rpcUrl 0 rawTxs u = (.ok rows, v)) :
    broadcast peer eest args eoaStart w = saveRows peer csvPath executeOk err rows v := by
  unfold broadcast
  rw [hcsv]
  exact (bind_of_ok hcapture).trans (bind_of_ok hrows)

theorem broadcast_of_error {e : PyError} (hcsv : args.csvPath = some csvPath)
    (hcapture : captureExecute peer eest args eoaStart w = (.ok (executeOk, err, rawTxs), u))
    (hrows : enrich peer eest args.rpcUrl 0 rawTxs u = (.error e, v)) :
    broadcast peer eest args eoaStart w = (.error e, v) := by
  unfold broadcast
  rw [hcsv]
  exact (bind_of_ok hcapture).trans (bind_of_error hrows)

end

/-! ## Captured strings -/

/-- The bytes that a captured string stands for: hex behind an optional prefix of either
spelling. -/
def denotedBytes (raw : String) : Except PyError (List ℕ) :=
  match raw.toList with
  | '0' :: 'x' :: cs => Text.fromHexChars cs
  | '0' :: 'X' :: cs => Text.fromHexChars cs
  | cs => Text.fromHexChars cs

/-- What the code decodes a captured string to. -/
def decoded (raw : String) : Except PyError (List ℕ) := Text.fromHex (Text.removePrefix raw "0x")

theorem startsWith_iff {s start : String} :
    Text.startsWith s start = true ↔ ∃ cs, s.toList = start.toList ++ cs := by
  rw [Text.startsWith, List.isPrefixOf_iff_prefix]
  exact exists_congr fun cs => eq_comm

theorem startsWith_append (s t : String) : Text.startsWith (s ++ t) s = true :=
  startsWith_iff.mpr ⟨t.toList, String.toList_append⟩

theorem removePrefix_append (s t : String) : Text.removePrefix (s ++ t) s = t := by
  simp [Text.removePrefix, startsWith_append]

theorem removePrefix_of_not {s start : String} (h : Text.startsWith s start = false) :
    Text.removePrefix s start = s := by
  simp [Text.removePrefix, h]

/-- The prefix `0X` is no hex, so that what the code decodes is what the string stands for. -/
theorem denotedBytes_of_decoded {raw : String} {bytes : List ℕ} (h : decoded raw = .ok bytes) :
    denotedBytes raw = .ok bytes := by
  by_cases hstart : Text.startsWith raw "0x" = true
  · obtain ⟨cs, hcs⟩ := startsWith_iff.mp hstart
    have hraw : raw = "0x" ++ String.ofList cs := String.toList_inj.mp (by simp [hcs])
    rw [decoded, hraw, removePrefix_append, Text.fromHex, String.toList_ofList] at h
    simpa [denotedBytes, hcs] using h
  · rw [decoded, removePrefix_of_not (by simpa using hstart), Text.fromHex] at h
    unfold denotedBytes
    split
    next cs hcs => exact absurd (startsWith_iff.mpr ⟨cs, hcs⟩) hstart
    next cs hcs =>
      rw [hcs] at h
      have hx : Digits.digit 16 'X' = none := by decide
      have hspace : Text.isSpace '0' = false := by decide
      simp [Text.fromHexChars, hx, hspace] at h
    next => exact h

/-- The hash as it stands in its column. -/
def txHashOf (eest : Eest) (bytes : List ℕ) : String :=
  if Text.startsWith (eest.keccak256 bytes) "0x" then eest.keccak256 bytes
  else "0x" ++ eest.keccak256 bytes

/-- The row at the index is the one of the captured string. -/
structure Captures (eest : Eest) (i : ℕ) (captured : String) (row : Row) : Prop where
  seq : row.lookup "seq" = some (.int i)
  raw : ∃ text, row.lookup "raw" = some (.str text) ∧ Text.startsWith text "0x" = true ∧
    Text.removePrefix text "0x" = Text.removePrefix captured "0x"
  txHash : ∀ bytes, denotedBytes captured = .ok bytes →
    row.lookup "tx_hash" = some (.str (txHashOf eest bytes))

/-- The rows are those of the captured strings, in their order, from the index on. -/
def RowsOf (eest : Eest) : ℕ → List String → List Row → Prop
  | _, [], rows => rows = []
  | i, captured :: rawTxs, rows =>
    ∃ first rest, rows = first :: rest ∧ Captures eest i captured first ∧
      RowsOf eest (i + 1) rawTxs rest

/-! ## Lookups -/

/-- What `_get_tx` makes of the reply to its post. -/
def gotten (reply : Except PyError Json) : Except PyError Json :=
  match reply >>= Json.get "result" with
  | .ok info => .ok info
  | .error e => if e.isException then .ok .null else .error e

/-- The fields of the transaction that a lookup found, none for an unknown one. -/
def foundFields (x : Exchange σ HostReply) : Except PyError (List (String × Json)) :=
  match x with
  | ⟨_, .post _ _ _ _, reply⟩ => gotten reply >>= infoFields
  | _ => .ok []

/-- The post of a lookup. -/
def lookupCall (rpcUrl txHash : String) : HostCall :=
  .post rpcUrl "eth_getTransactionByHash" [.str txHash] 10

/-- The exchange of a lookup in this world. -/
def lookupExchange (peer : Peer σ HostReply) (rpcUrl txHash : String) (w : HostWorld σ) :
    Exchange σ HostReply :=
  ⟨w.state, lookupCall rpcUrl txHash, (peer.answer w.state (lookupCall rpcUrl txHash)).1⟩

/-- The reply to a lookup in this world. -/
def lookupReply (peer : Peer σ HostReply) (rpcUrl txHash : String) (w : HostWorld σ) :
    Except PyError Json :=
  (lookupExchange peer rpcUrl txHash w).reply

theorem post_apply (rpcUrl txHash : String) (w : HostWorld σ) :
    (call peer (lookupCall rpcUrl txHash) : Command σ Json) w =
      (lookupReply peer rpcUrl txHash w, w.step peer (lookupCall rpcUrl txHash)) :=
  call_apply peer _ w

variable (peer) in
theorem getResult_apply (rpcUrl txHash : String) (w : HostWorld σ) :
    ((call peer (lookupCall rpcUrl txHash) : Command σ Json) >>= fun reply =>
        lift (Json.get "result" reply)) w =
      (lookupReply peer rpcUrl txHash w >>= Json.get "result",
        w.step peer (lookupCall rpcUrl txHash)) := by
  have hpost : (call peer (lookupCall rpcUrl txHash) : Command σ Json) w = _ :=
    post_apply rpcUrl txHash w
  cases hreply : lookupReply peer rpcUrl txHash w with
  | error e =>
      rw [hreply] at hpost
      exact bind_of_error hpost
  | ok reply =>
      rw [hreply] at hpost
      exact (bind_of_ok hpost).trans (lift_apply _ _)

variable (peer) in
theorem getTx_apply (rpcUrl txHash : String) (w : HostWorld σ) :
    getTx peer rpcUrl txHash w =
      (gotten (lookupReply peer rpcUrl txHash w), w.step peer (lookupCall rpcUrl txHash)) := by
  have hget := getResult_apply peer rpcUrl txHash w
  unfold gotten
  cases hresult : lookupReply peer rpcUrl txHash w >>= Json.get "result" with
  | ok info =>
      rw [hresult] at hget
      exact bind_of_ok (attempt_of_ok hget)
  | error e =>
      rw [hresult] at hget
      have hattempt := attempt_of_error hget
      by_cases he : e.isException = true
      · rw [if_pos he] at hattempt
        simp only [if_pos he]
        exact bind_of_ok hattempt
      · rw [if_neg he] at hattempt
        simp only [if_neg he]
        exact bind_of_error hattempt

/-- A row, from the fields of its transaction. -/
def rowOf (seq : ℕ) (captured txHash : String) (fields : List (String × Json)) : Row :=
  [("seq", .int seq), ("block_number", toIntOrNull (field fields "blockNumber" .null)),
    ("tx_index", toIntOrNull (field fields "transactionIndex" .null)), ("tx_hash", .str txHash),
    ("type", toIntOrNull (field fields "type" .null)), ("from", field fields "from" (.str "")),
    ("to", if (field fields "to" .null).truthy then field fields "to" .null else .str ""),
    ("nonce", toIntOrNull (field fields "nonce" .null)),
    ("value", toIntOrNull (field fields "value" .null)),
    ("gas", toIntOrNull (field fields "gas" .null)),
    ("gas_price", toIntOrNull (field fields "gasPrice" .null)),
    ("max_fee_per_gas", toIntOrNull (field fields "maxFeePerGas" .null)),
    ("input_len", .int (inputLen (field fields "input" (.str "0x")))),
    ("raw", .str (if Text.startsWith captured "0x" then captured else "0x" ++ captured))]

theorem row_eq (seq : ℕ) (captured txHash : String) (info : Json) :
    row seq captured txHash info = (infoFields info).map (rowOf seq captured txHash) := by
  unfold row
  cases infoFields info with
  | error e => rfl
  | ok fields => rfl

theorem captures_rowOf {captured : String} {bytes : List ℕ} (h : decoded captured = .ok bytes)
    (i : ℕ) (fields : List (String × Json)) :
    Captures eest i captured (rowOf i captured (txHashOf eest bytes) fields) where
  seq := rfl
  raw := by
    refine ⟨_, rfl, ?_⟩
    by_cases hstart : Text.startsWith captured "0x" = true
    · simp [hstart]
    · rw [if_neg hstart, startsWith_append, removePrefix_append,
        removePrefix_of_not (by simpa using hstart)]
      exact ⟨rfl, rfl⟩
  txHash := by
    intro other hother
    rw [denotedBytes_of_decoded h] at hother
    obtain rfl := Except.ok.inj hother
    rfl

/-! ## The loop -/

/-- The rows of a loop over captured strings, with its lookups. -/
inductive Enriched (eest : Eest) :
    ℕ → List String → List Row → List (Exchange σ HostReply) → Prop
  | nil (i : ℕ) : Enriched eest i [] [] []
  | cons (i : ℕ) (captured : String) (rawTxs : List String) (bytes : List ℕ)
      (x : Exchange σ HostReply) (fields : List (String × Json)) (rest : List Row)
      (xs : List (Exchange σ HostReply)) (hbytes : decoded captured = .ok bytes)
      (hfound : foundFields x = .ok fields) (hrest : Enriched eest (i + 1) rawTxs rest xs) :
      Enriched eest i (captured :: rawTxs)
        (rowOf i captured (txHashOf eest bytes) fields :: rest) (x :: xs)

/-- A captured string that is no hex, or a lookup without a transaction. -/
def Uninterpretable (rawTxs : List String) (xs : List (Exchange σ HostReply)) : Prop :=
  (∃ captured ∈ rawTxs, ∀ bytes, decoded captured ≠ .ok bytes) ∨
    ∃ x ∈ xs, ∀ fields, foundFields x ≠ .ok fields

/-- How the loop ends. -/
inductive Enrichment (peer : Peer σ HostReply) (eest : Eest) (rpcUrl : String) (i : ℕ)
    (rawTxs : List String) (w : HostWorld σ) : Prop where
  | done (rows : List Row) (xs : List (Exchange σ HostReply)) (v : HostWorld σ)
      (hrun : enrich peer eest rpcUrl i rawTxs w = (.ok rows, v)) (hlog : v.log = w.log ++ xs)
      (hrows : Enriched eest i rawTxs rows xs)
  | raised (e : PyError) (xs : List (Exchange σ HostReply)) (v : HostWorld σ)
      (hrun : enrich peer eest rpcUrl i rawTxs w = (.error e, v)) (hlog : v.log = w.log ++ xs)
      (hbad : Uninterpretable rawTxs xs)

theorem Uninterpretable.cons {rawTxs : List String} {xs : List (Exchange σ HostReply)}
    (h : Uninterpretable rawTxs xs) (captured : String) (x : Exchange σ HostReply) :
    Uninterpretable (captured :: rawTxs) (x :: xs) :=
  h.imp (fun ⟨other, hmem, hother⟩ => ⟨other, List.mem_cons_of_mem _ hmem, hother⟩)
    fun ⟨y, hmem, hy⟩ => ⟨y, List.mem_cons_of_mem _ hmem, hy⟩

section

variable {rpcUrl captured : String} {bytes : List ℕ} {i : ℕ} {rawTxs : List String}
  {w : HostWorld σ}

/-- The lookup of a captured string that decodes to these bytes. -/
def lookupOf (peer : Peer σ HostReply) (eest : Eest) (rpcUrl : String) (bytes : List ℕ)
    (w : HostWorld σ) : Exchange σ HostReply :=
  lookupExchange peer rpcUrl (txHashOf eest bytes) w

theorem enrich_cons_of_bytes (hbytes : decoded captured = .ok bytes) :
    enrich peer eest rpcUrl i (captured :: rawTxs) w =
      (getTx peer rpcUrl (txHashOf eest bytes) >>= fun info => do
        let first ← lift (row i captured (txHashOf eest bytes) info)
        let rest ← enrich peer eest rpcUrl (i + 1) rawTxs
        return first :: rest) w := by
  apply bind_of_ok
  rw [lift_apply]
  exact congrArg (·, w) hbytes

theorem enrich_cons_of_unknown {e : PyError} (hbytes : decoded captured = .ok bytes)
    (hfound : foundFields (lookupOf peer eest rpcUrl bytes w) = .error e) :
    enrich peer eest rpcUrl i (captured :: rawTxs) w =
      (.error e, w.step peer (lookupCall rpcUrl (txHashOf eest bytes))) := by
  rw [enrich_cons_of_bytes hbytes]
  have hget := getTx_apply peer rpcUrl (txHashOf eest bytes) w
  cases hinfo : gotten (lookupReply peer rpcUrl (txHashOf eest bytes) w) with
  | error other =>
      have hother : foundFields (lookupOf peer eest rpcUrl bytes w) = .error other :=
        congrArg (· >>= infoFields) hinfo
      obtain rfl := Except.error.inj (hfound.symm.trans hother)
      rw [hinfo] at hget
      exact bind_of_error hget
  | ok info =>
      have hfields : infoFields info = .error e :=
        (congrArg (· >>= infoFields) hinfo).symm.trans hfound
      rw [hinfo] at hget
      refine (bind_of_ok hget).trans (bind_of_error ?_)
      rw [lift_apply, row_eq, hfields]
      rfl

variable (i rawTxs) in
theorem enrich_cons_of_found {fields : List (String × Json)}
    (hbytes : decoded captured = .ok bytes)
    (hfound : foundFields (lookupOf peer eest rpcUrl bytes w) = .ok fields) :
    enrich peer eest rpcUrl i (captured :: rawTxs) w =
      (enrich peer eest rpcUrl (i + 1) rawTxs >>= fun rest =>
        pure (rowOf i captured (txHashOf eest bytes) fields :: rest))
          (w.step peer (lookupCall rpcUrl (txHashOf eest bytes))) := by
  rw [enrich_cons_of_bytes hbytes]
  have hget := getTx_apply peer rpcUrl (txHashOf eest bytes) w
  cases hinfo : gotten (lookupReply peer rpcUrl (txHashOf eest bytes) w) with
  | error other =>
      have hother : foundFields (lookupOf peer eest rpcUrl bytes w) = .error other :=
        congrArg (· >>= infoFields) hinfo
      rw [hother] at hfound
      exact absurd hfound (by simp)
  | ok info =>
      have hfields : infoFields info = .ok fields :=
        (congrArg (· >>= infoFields) hinfo).symm.trans hfound
      rw [hinfo] at hget
      refine (bind_of_ok hget).trans (bind_of_ok ?_)
      rw [lift_apply, row_eq, hfields]
      rfl

end

variable (peer eest) in
theorem enrich_ends (rpcUrl : String) (i : ℕ) (rawTxs : List String) (w : HostWorld σ) :
    Enrichment peer eest rpcUrl i rawTxs w := by
  induction rawTxs generalizing i w with
  | nil => exact .done [] [] w rfl (by simp) (.nil i)
  | cons captured rawTxs ih =>
      cases hbytes : decoded captured with
      | error e =>
          have hrun : enrich peer eest rpcUrl i (captured :: rawTxs) w = (.error e, w) :=
            bind_of_error ((lift_apply _ _).trans (congrArg (·, w) hbytes))
          refine .raised e [] w hrun (by simp) (.inl ⟨captured, List.mem_cons_self, ?_⟩)
          simp [hbytes]
      | ok bytes =>
          let x := lookupOf peer eest rpcUrl bytes w
          let u := w.step peer (lookupCall rpcUrl (txHashOf eest bytes))
          have hstep : u.log = w.log ++ [x] := rfl
          cases hfound : foundFields x with
          | error e =>
              refine .raised e [x] u (enrich_cons_of_unknown hbytes hfound) hstep (.inr ?_)
              exact ⟨x, List.mem_singleton_self x, by simp [hfound]⟩
          | ok fields =>
              have hcons := enrich_cons_of_found i rawTxs hbytes hfound
              cases ih (i + 1) u with
              | done rest xs v hrun hlog hrows =>
                  refine .done _ (x :: xs) v (hcons.trans (bind_of_ok hrun)) ?_
                    (.cons i captured rawTxs bytes x fields rest xs hbytes hfound hrows)
                  rw [hlog, hstep, List.append_assoc, List.singleton_append]
              | raised e xs v hrun hlog hbad =>
                  refine .raised e (x :: xs) v (hcons.trans (bind_of_error hrun)) ?_
                    (hbad.cons captured x)
                  rw [hlog, hstep, List.append_assoc, List.singleton_append]

/-! ## What the rows say -/

theorem Enriched.rowsOf {i : ℕ} {rawTxs : List String} {rows : List Row}
    {xs : List (Exchange σ HostReply)} (h : Enriched eest i rawTxs rows xs) :
    RowsOf eest i rawTxs rows := by
  induction h with
  | nil i => rfl
  | cons i captured rawTxs bytes x fields rest xs hbytes hfound hrest ih =>
      exact ⟨_, rest, rfl, captures_rowOf hbytes i fields, ih⟩

theorem Enriched.length_eq {i : ℕ} {rawTxs : List String} {rows : List Row}
    {xs : List (Exchange σ HostReply)} (h : Enriched eest i rawTxs rows xs) :
    rows.length = rawTxs.length := by
  induction h with
  | nil i => rfl
  | cons i captured rawTxs bytes x fields rest xs hbytes hfound hrest ih =>
      rw [List.length_cons, List.length_cons, ih]

theorem Enriched.decodes {i : ℕ} {rawTxs : List String} {rows : List Row}
    {xs : List (Exchange σ HostReply)} (h : Enriched eest i rawTxs rows xs) :
    ∀ captured ∈ rawTxs, ∃ bytes, decoded captured = .ok bytes := by
  induction h with
  | nil i => simp
  | cons i captured rawTxs bytes x fields rest xs hbytes hfound hrest ih =>
      exact List.forall_mem_cons.mpr ⟨⟨bytes, hbytes⟩, ih⟩

def numberKeys : List String :=
  ["blockNumber", "transactionIndex", "type", "nonce", "value", "gas", "gasPrice", "maxFeePerGas"]

/-- The cells that the fields fill can be written: no number has too many digits, and both
addresses are in the encoding of the file. -/
structure Printed (writer : CsvWriter) (fields : List (String × Json)) : Prop where
  numbers : ∀ key ∈ numberKeys, prints (toIntOrNull (field fields key .null)) = true
  sender : writer.writes (field fields "from" (.str "")) = true
  recipient : (field fields "to" .null).truthy = true →
    writer.writes (field fields "to" .null) = true
  inputLen : prints (.int (inputLen (field fields "input" (.str "0x")))) = true

/-- The lookup found a transaction that can be written, or none. -/
def Legible (writer : CsvWriter) (x : Exchange σ HostReply) : Prop :=
  ∃ fields, foundFields x = .ok fields ∧ Printed writer fields

/-! ## What can be written -/

/-- A text of ASCII. -/
def Ascii (s : String) : Prop := ∀ c ∈ s.toList, c.toNat < 0x80

instance (s : String) : Decidable (Ascii s) :=
  List.decidableBAll (fun c : Char => c.toNat < 0x80) s.toList

theorem ascii_empty : Ascii "" := by decide

theorem ascii_mark : Ascii "0x" := by decide

theorem Ascii.append {s t : String} (hs : Ascii s) (ht : Ascii t) : Ascii (s ++ t) := by
  intro c hc
  rw [String.toList_append, List.mem_append] at hc
  exact hc.elim (hs c) (ht c)

theorem ascii_toString (n : ℕ) : Ascii (toString n) := by
  intro c hc
  rw [Text.toList_toString] at hc
  obtain ⟨d, hd, rfl⟩ := Digits.eq_digitChar_of_mem_toDigits (by decide) hc
  have hall : ∀ d < 10, (Nat.digitChar d).toNat < 0x80 := by decide
  exact hall d hd

theorem ascii_toString_int (n : ℤ) : Ascii (toString n) := by
  cases n with
  | ofNat n => exact ascii_toString n
  | negSucc n => exact Ascii.append (s := "-") (by decide) (ascii_toString (n + 1))

/-- Numbers and what stands for a missing one are in every encoding. -/
theorem writes_of_atom (writer : CsvWriter) {value : Json}
    (h : Ascii (cellText writer.str value)) : writer.writes value = prints value := by
  rw [CsvWriter.writes, writer.encodes_ascii _ h, Bool.and_true]

theorem writes_int (writer : CsvWriter) (n : ℤ) : writer.writes (.int n) = prints (.int n) :=
  writes_of_atom writer (ascii_toString_int n)

theorem writes_toIntOrNull (writer : CsvWriter) (value : Json) :
    writer.writes (toIntOrNull value) = prints (toIntOrNull value) := by
  apply writes_of_atom
  cases value with
  | int n => exact ascii_toString_int n
  | bool b =>
      have hnames : ∀ b : Bool, Ascii (if b then "True" else "False") := by decide
      exact hnames b
  | str s =>
      simp only [toIntOrNull]
      cases Text.int 16 s with
      | ok n => exact ascii_toString_int n
      | error e => exact ascii_empty
  | _ => exact ascii_empty

theorem writes_ascii (writer : CsvWriter) {s : String} (h : Ascii s) :
    writer.writes (.str s) = true :=
  writes_of_atom writer h

theorem writes_recipient (writer : CsvWriter) (value : Json) :
    writer.writes (if value.truthy then value else .str "") = true ↔
      (value.truthy = true → writer.writes value = true) := by
  by_cases h : value.truthy = true
  · simp [h]
  · simp [h, writes_ascii writer ascii_empty]

theorem ascii_of_isSpace {c : Char} (h : Text.isSpace c = true) : c.toNat < 0x80 := by
  rw [Text.isSpace, Bool.or_eq_true, Bool.and_eq_true, decide_eq_true_eq, decide_eq_true_eq] at h
  rcases h with h | h
  · obtain rfl : c = ' ' := by simpa using h
    decide
  · omega

theorem ascii_of_digit {c : Char} {d : ℕ} (h : Digits.digit 16 c = some d) : c.toNat < 0x80 := by
  have hvalue : Digits.digitValue c = some d := (Option.filter_eq_some_iff.mp h).1
  unfold Digits.digitValue at hvalue
  have hle : ∀ last : Char, c ≤ last → c.toNat ≤ last.toNat := fun _ h => h
  split at hvalue
  · rename_i hrange
    exact Nat.lt_of_le_of_lt (hle '9' hrange.2) (by decide)
  · split at hvalue
    · rename_i hrange
      exact Nat.lt_of_le_of_lt (hle 'z' hrange.2) (by decide)
    · split at hvalue
      · rename_i hrange
        exact Nat.lt_of_le_of_lt (hle 'Z' hrange.2) (by decide)
      · cases hvalue

/-- Hex and the spaces between its bytes are ASCII. -/
theorem ascii_of_fromHexChars (cs : List Char) {bytes : List ℕ}
    (h : Text.fromHexChars cs = .ok bytes) : ∀ c ∈ cs, c.toNat < 0x80 := by
  induction cs using Text.fromHexChars.induct generalizing bytes with
  | case1 => simp
  | case2 c hspace => simpa using ascii_of_isSpace hspace
  | case3 c hspace => simp [Text.fromHexChars, hspace] at h
  | case4 c d cs hspace ih =>
      rw [Text.fromHexChars, if_pos hspace] at h
      exact List.forall_mem_cons.mpr ⟨ascii_of_isSpace hspace, ih h⟩
  | case5 c d cs hspace hi lo hlo hhi ih =>
      rw [Text.fromHexChars, if_neg hspace, hhi, hlo] at h
      cases hrest : Text.fromHexChars cs with
      | error e =>
          rw [hrest] at h
          cases h
      | ok rest =>
          exact List.forall_mem_cons.mpr ⟨ascii_of_digit hhi,
            List.forall_mem_cons.mpr ⟨ascii_of_digit hlo, ih hrest⟩⟩
  | case6 c d cs hspace hnone =>
      rw [Text.fromHexChars, if_neg hspace] at h
      split at h
      · rename_i hi lo hhi hlo
        exact absurd hlo (hnone hi lo hhi)
      · cases h

theorem ascii_prefixed {captured : String} {bytes : List ℕ} (h : decoded captured = .ok bytes) :
    Ascii (if Text.startsWith captured "0x" then captured else "0x" ++ captured) := by
  have hchars := ascii_of_fromHexChars _ h
  by_cases hstart : Text.startsWith captured "0x" = true
  · obtain ⟨cs, hcs⟩ := startsWith_iff.mp hstart
    have hcaptured : captured = "0x" ++ String.ofList cs := String.toList_inj.mp (by simp [hcs])
    rw [hcaptured, removePrefix_append] at hchars
    rw [if_pos hstart, hcaptured]
    exact ascii_mark.append hchars
  · rw [removePrefix_of_not (by simpa using hstart)] at hchars
    rw [if_neg hstart]
    exact ascii_mark.append hchars

/-- Every row has the columns of the CSV only, so that its cells decide. -/
theorem writesRow_rowOf (writer : CsvWriter) (i : ℕ) {captured txHash : String} {bytes : List ℕ}
    (fields : List (String × Json)) (hbytes : decoded captured = .ok bytes)
    (hhash : Ascii txHash) :
    writesRow writer (rowOf i captured txHash fields) = true ↔
      prints (.int i) = true ∧ Printed writer fields := by
  have hrow : writesRow writer (rowOf i captured txHash fields) =
      (rowOf i captured txHash fields).all fun cell => writer.writes cell.2 := by
    simp [writesRow, rowOf, csvColumns]
  rw [hrow]
  simp only [rowOf, List.all_cons, List.all_nil, writes_int, writes_toIntOrNull,
    writes_ascii writer hhash, writes_ascii writer (ascii_prefixed hbytes), Bool.and_eq_true,
    Bool.and_true, writes_recipient, true_and]
  constructor
  · rintro ⟨hseq, hblock, hindex, htype, hsender, hrecipient, hnonce, hvalue, hgas, hprice, hmax,
      hinput⟩
    refine ⟨hseq, ?_, hsender, hrecipient, hinput⟩
    simp [numberKeys, *]
  · rintro ⟨hseq, hnumbers, hsender, hrecipient, hinput⟩
    have hnumber : ∀ key, key ∈ numberKeys → prints (toIntOrNull (field fields key .null)) = true :=
      hnumbers
    refine ⟨hseq, hnumber _ ?_, hnumber _ ?_, hnumber _ ?_, hsender, hrecipient, hnumber _ ?_,
      hnumber _ ?_, hnumber _ ?_, hnumber _ ?_, hnumber _ ?_, hinput⟩ <;> simp [numberKeys]

theorem Enriched.writes_iff (writer : CsvWriter)
    (hdigest : ∀ bytes, Ascii (eest.keccak256 bytes)) {i : ℕ} {rawTxs : List String}
    {rows : List Row} {xs : List (Exchange σ HostReply)} (h : Enriched eest i rawTxs rows xs) :
    writesRows writer rows = true ↔
      (∀ x ∈ xs, Legible writer x) ∧ ∀ j < rawTxs.length, prints (.int (i + j : ℕ)) = true := by
  induction h with
  | nil i => simp [writesRows]
  | cons i captured rawTxs bytes x fields rest xs hbytes hfound hrest ih =>
      have hlegible : Legible writer x ↔ Printed writer fields := by
        constructor
        · rintro ⟨other, hother, hprinted⟩
          obtain rfl := Except.ok.inj (hfound.symm.trans hother)
          exact hprinted
        · exact fun hprinted => ⟨fields, hfound, hprinted⟩
      have hhash : Ascii (txHashOf eest bytes) := by
        unfold txHashOf
        split
        · exact hdigest bytes
        · exact ascii_mark.append (hdigest bytes)
      have hsplit : writesRows writer (rowOf i captured (txHashOf eest bytes) fields :: rest) = true ↔
          writesRow writer (rowOf i captured (txHashOf eest bytes) fields) = true ∧
            writesRows writer rest = true := by
        simp [writesRows]
      have hindex : (∀ j < (captured :: rawTxs).length, prints (.int (i + j : ℕ)) = true) ↔
          prints (.int i) = true ∧
            ∀ j < rawTxs.length, prints (.int (i + 1 + j : ℕ)) = true := by
        rw [List.length_cons, Nat.forall_lt_succ_left]
        simp only [Nat.add_zero, Nat.add_assoc, Nat.add_comm 1]
      rw [hsplit, writesRow_rowOf writer i fields hbytes hhash, ih, List.forall_mem_cons, hlegible,
        hindex]
      constructor
      · rintro ⟨⟨hseq, hprinted⟩, hlookups, hnumbers⟩
        exact ⟨⟨hprinted, hlookups⟩, hseq, hnumbers⟩
      · rintro ⟨⟨hprinted, hlookups⟩, hseq, hnumbers⟩
        exact ⟨⟨hseq, hprinted⟩, hlookups, hnumbers⟩

/-! ## The capture branch -/

/-- The disk takes the CSV, as far as its rows can be written. -/
structure Files (peer : Peer σ HostReply) (writer : CsvWriter) (csvPath : Path) : Prop where
  mkdir : ∀ s, (peer.answer s (.mkdir csvPath.parent)).1 = .ok ()
  writeCsv : ∀ s rows, (peer.answer s (.writeCsv csvPath rows)).1.isOk = writesRows writer rows

/-- The capture branch goes to its end: it returns the result of `execute` and the number of
captured strings, and the last that it did was to write a row for each of them. -/
def Saves (peer : Peer σ HostReply) (eest : Eest) (args : SubmitArgs) (csvPath : Path)
    (eoaStart : String) (w : HostWorld σ) (executeOk : Bool) (err : Option String)
    (rawTxs : List String) : Prop :=
  ∃ rows s past v,
    broadcast peer eest args eoaStart w = (.ok (executeOk, err, some rawTxs.length), v) ∧
      v.log = past ++ [⟨s, .writeCsv csvPath rows, .ok ()⟩] ∧ RowsOf eest 0 rawTxs rows

/-- Every captured string is hex without a prefix or behind `0x`, every lookup made is
answered with a transaction that can be written or with none, and the row numbers can be
printed. -/
structure Interpretable (peer : Peer σ HostReply) (eest : Eest) (writer : CsvWriter)
    (rpcUrl : String) (rawTxs : List String) (u : HostWorld σ) : Prop where
  decodes : ∀ captured ∈ rawTxs, ∃ bytes, decoded captured = .ok bytes
  legible : ∀ x ∈ asked (enrich peer eest rpcUrl 0 rawTxs) u, Legible writer x
  numbered : ∀ i < rawTxs.length, prints (.int i) = true

variable {writer : CsvWriter} {args : SubmitArgs} {csvPath : Path} {eoaStart : String} {w u : HostWorld σ}
  {executeOk : Bool} {err : Option String} {rawTxs : List String}

variable (executeOk err) in
/-- Once the rows are there, they are written or the writing of the CSV raises. -/
theorem saveRows_apply (files : Files peer writer csvPath) (rows : List Row) (v : HostWorld σ) :
    ∃ past s r, r.isOk = writesRows writer rows ∧
      (saveRows peer csvPath executeOk err rows v).1 =
        r.map (fun _ => (executeOk, err, some rows.length)) ∧
      (saveRows peer csvPath executeOk err rows v).2.log =
        past ++ [⟨s, .writeCsv csvPath rows, r⟩] := by
  let made := v.step peer (.mkdir csvPath.parent)
  have hmkdir : call peer (.mkdir csvPath.parent) v = (.ok (), made) := by
    rw [call_apply, files.mkdir v.state]
  have hwrite : call peer (.writeCsv csvPath rows) made =
      ((peer.answer made.state (.writeCsv csvPath rows)).1, made.step peer (.writeCsv csvPath rows)) :=
    call_apply peer _ made
  have hok := files.writeCsv made.state rows
  refine ⟨made.log, made.state, (peer.answer made.state (.writeCsv csvPath rows)).1, hok, ?_⟩
  cases hreply : (peer.answer made.state (.writeCsv csvPath rows)).1 with
  | error e =>
      rw [hreply] at hwrite
      have hrun : saveRows peer csvPath executeOk err rows v =
          (.error e, made.step peer (.writeCsv csvPath rows)) :=
        (bind_of_ok hmkdir).trans (bind_of_error hwrite)
      rw [hrun, World.step_log, hreply]
      exact ⟨rfl, rfl⟩
  | ok a =>
      rw [hreply] at hwrite
      have hrun : saveRows peer csvPath executeOk err rows v =
          (.ok (executeOk, err, some rows.length), made.step peer (.writeCsv csvPath rows)) :=
        (bind_of_ok hmkdir).trans (bind_of_ok hwrite)
      rw [hrun, World.step_log, hreply]
      exact ⟨rfl, rfl⟩

/-- What was captured is saved exactly when all of it can be interpreted. -/
theorem saves_iff (files : Files peer writer csvPath)
    (hdigest : ∀ bytes, Ascii (eest.keccak256 bytes)) (hcsv : args.csvPath = some csvPath)
    (hcapture : captureExecute peer eest args eoaStart w = (.ok (executeOk, err, rawTxs), u)) :
    Saves peer eest args csvPath eoaStart w executeOk err rawTxs ↔
      Interpretable peer eest writer args.rpcUrl rawTxs u := by
  cases enrich_ends peer eest args.rpcUrl 0 rawTxs u with
  | raised e xs v hrun hlog hbad =>
      have hasked : asked (enrich peer eest args.rpcUrl 0 rawTxs) u = xs :=
        asked_eq (by rw [hrun]; exact hlog)
      have hraised := broadcast_of_error hcsv hcapture hrun
      constructor
      · rintro ⟨rows, s, past, v', hbroadcast, -⟩
        rw [hraised] at hbroadcast
        exact absurd (congrArg Prod.fst hbroadcast) (by simp)
      · rintro ⟨hdecodes, hlegible, -⟩
        rw [hasked] at hlegible
        rcases hbad with ⟨captured, hmem, hcaptured⟩ | ⟨x, hmem, hx⟩
        · obtain ⟨bytes, hbytes⟩ := hdecodes captured hmem
          exact absurd hbytes (hcaptured bytes)
        · obtain ⟨fields, hfields, -⟩ := hlegible x hmem
          exact absurd hfields (hx fields)
  | done rows xs v hrun hlog hrows =>
      have hasked : asked (enrich peer eest args.rpcUrl 0 rawTxs) u = xs :=
        asked_eq (by rw [hrun]; exact hlog)
      have hsaved := broadcast_of_rows hcsv hcapture hrun
      have hwrites := hrows.writes_iff writer hdigest
      simp only [Nat.zero_add] at hwrites
      obtain ⟨past, s, r, hr, hresult, hlast⟩ :=
        saveRows_apply executeOk err files rows v
      constructor
      · rintro ⟨rows', s', past', v', hbroadcast, -⟩
        have hok : writesRows writer rows = true := by
          rw [← hr]
          rw [hsaved] at hbroadcast
          rw [hbroadcast] at hresult
          cases r with
          | error e => exact absurd hresult (by simp [Except.map])
          | ok a => rfl
        obtain ⟨hlegible, hnumbered⟩ := hwrites.mp hok
        exact ⟨hrows.decodes, by rw [hasked]; exact hlegible, hnumbered⟩
      · rintro ⟨-, hlegible, hnumbered⟩
        rw [hasked] at hlegible
        have hok : writesRows writer rows = true := hwrites.mpr ⟨hlegible, hnumbered⟩
        rw [hok] at hr
        cases r with
        | error e => exact absurd hr (by simp [Except.isOk, Except.toBool])
        | ok a =>
            refine ⟨rows, s, past, (saveRows peer csvPath executeOk err rows v).2, ?_, hlast,
              hrows.rowsOf⟩
            rw [hsaved, ← hrows.length_eq]
            exact Prod.ext hresult rfl

/-- A file in UTF-8. -/
def utf8 : CsvWriter where
  str _ := "[]"
  encodes _ := true
  encodes_ascii _ _ := rfl

/-- A host on which `execute` passes while these strings are recorded, and which knows no
transaction. -/
def recorded (rawTxs : List String) : Peer Unit HostReply where
  answer _
    | .randbits k => (.ok ⟨0, Nat.two_pow_pos k⟩, ())
    | .post _ _ _ _ => (.ok (.obj [("result", .null)]), ())
    | .startProxy _ => (.ok "http://127.0.0.1:9000", ())
    | .snapshot => (.ok rawTxs, ())
    | .communicate _ => (.ok { returncode := 0 }, ())
    | .time => (.ok (0 : ℚ), ())
    | .readText _ => (.error ⟨.osError, "no such file"⟩, ())
    | .writeCsv _ rows => (if writesRows utf8 rows then .ok () else .error ⟨.valueError, "int to str"⟩, ())
    | .mkdir _ => (.ok (), ())
    | .writeText _ _ => (.ok (), ())
    | .stopProxy => (.ok (), ())
    | .popen _ _ => (.ok (), ())
    | .killpg => (.ok (), ())
    | .sleep _ => (.ok (), ())

def recordedCsv : Path := ⟨"", ["out", "a.csv"]⟩

def recordedArgs : SubmitArgs := { bareArgs with csvPath := some recordedCsv }

theorem files_recorded (rawTxs : List String) (path : Path) :
    Files (recorded rawTxs) utf8 path where
  mkdir _ := rfl
  writeCsv _ rows := by
    show (if writesRows utf8 rows then (.ok () : Except PyError Unit) else _).isOk =
      writesRows utf8 rows
    cases writesRows utf8 rows <;> rfl

theorem saves_iff_recorded :
    ∃ u, captureExecute (recorded ["0x02"]) plainEest recordedArgs "1" ⟨(), []⟩ =
        (.ok (true, none, ["0x02"]), u) ∧
      (Saves (recorded ["0x02"]) plainEest recordedArgs recordedCsv "1" ⟨(), []⟩ true none ["0x02"] ↔
        Interpretable (recorded ["0x02"]) plainEest utf8 recordedArgs.rpcUrl ["0x02"] u) :=
  ⟨_, rfl, saves_iff (files_recorded _ _) (fun _ => ascii_empty) rfl rfl⟩

/-- One captured string of odd length takes the whole CSV with it. -/
theorem not_saves_odd :
    ∃ u, captureExecute (recorded ["0x02", "0x0"]) plainEest recordedArgs "1" ⟨(), []⟩ =
        (.ok (true, none, ["0x02", "0x0"]), u) ∧
      ¬ Saves (recorded ["0x02", "0x0"]) plainEest recordedArgs recordedCsv "1" ⟨(), []⟩ true none
        ["0x02", "0x0"] := by
  refine ⟨_, rfl, ?_⟩
  rintro ⟨rows, s, past, v, hbroadcast, -⟩
  have hraised : (broadcast (recorded ["0x02", "0x0"]) plainEest recordedArgs "1" ⟨(), []⟩).1 =
      .error ⟨.valueError, "non-hexadecimal number found"⟩ := rfl
  rw [hbroadcast] at hraised
  exact absurd hraised (by simp)

end EestReplay.Export
