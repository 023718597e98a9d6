import EestReplay.Model.Buildoor
import EestReplay.Model.Simbuild

/-! # One block, two build paths

The attributes that the endpoint reads out of a body of `request_build` are those that the
runner gives to `forkchoiceUpdated`. -/

namespace EestReplay.Simbuild

open Digits Buildoor

/-! ## Numbers -/

/-- The loop reads what its digits say, or fails when that does not fit. -/
theorem parseUintLoop_of_readDigits {n : UInt64} {cs : List Char} {m : ℕ}
    (h : readDigits 16 n.toNat cs = some m) :
    parseUintLoop n cs = if m < 2 ^ 64 then .ok (UInt64.ofNat m) else .error .errRange := by
  induction cs generalizing n with
  | nil =>
      obtain rfl : n.toNat = m := by simpa [readDigits] using h
      rw [if_pos n.toNat_lt, parseUintLoop, UInt64.ofNat_toNat]
  | cons c cs ih =>
      simp only [readDigits] at h
      cases hd : digit 16 c with
      | none => simp [hd] at h
      | some d =>
          rw [hd] at h
          have hlt : d < 16 := digit_lt hd
          have hle : n.toNat * 16 + d ≤ m := le_of_readDigits (by decide) h
          have hcutoff : cutoff.toNat = 2 ^ 60 := rfl
          simp only [parseUintLoop, hd, ge_iff_le, UInt64.le_iff_toNat_le, hcutoff]
          by_cases hn : 2 ^ 60 ≤ n.toNat
          · have hm : ¬ m < 2 ^ 64 := by omega
            rw [if_pos hn, if_neg hm]
          · have hmul : (n * 16).toNat = n.toNat * 16 := by
              rw [UInt64.toNat_mul]
              apply Nat.mod_eq_of_lt
              show n.toNat * 16 < 2 ^ 64
              omega
            have hdigit : (UInt64.ofNat d).toNat = d := by
              apply UInt64.toNat_ofNat_of_lt'
              show d < 2 ^ 64
              omega
            have hadd : (n * 16 + UInt64.ofNat d).toNat = n.toNat * 16 + d := by
              rw [UInt64.toNat_add, hmul, hdigit]
              apply Nat.mod_eq_of_lt
              omega
            have hfits : ¬ n * 16 + UInt64.ofNat d < n * 16 := by
              rw [UInt64.lt_iff_toNat_lt, hadd, hmul]
              omega
            rw [if_neg hn, if_neg hfits]
            apply ih
            rw [hadd]
            exact h

theorem ne_empty_of_toList {s : String} (h : s.toList ≠ []) : s ≠ "" := by
  intro hs
  apply h
  rw [hs]
  rfl

theorem parseHexU64_hex (n : ℕ) : parseHexU64 (Text.hex n) =
    if n < 2 ^ 64 then .ok (UInt64.ofNat n)
    else .error ⟨String.ofList (Nat.toDigits 16 n), .errRange⟩ := by
  obtain ⟨c, cs, hcs⟩ := List.exists_cons_of_ne_nil (Nat.toDigits_ne_nil (b := 16) (n := n))
  have hlist : (Text.hex n).toList = '0' :: 'x' :: c :: cs := by
    rw [← hcs]
    simp [Text.hex]
  have htrim : trimHex (Text.hex n) = String.ofList (c :: cs) := by
    unfold trimHex
    rw [hlist]
    rfl
  have hread : readDigits 16 (0 : UInt64).toNat (c :: cs) = some n := by
    rw [← hcs]
    exact readDigits_toDigits (by decide) (by decide) n
  have hhex : Text.hex n ≠ "" := ne_empty_of_toList (by simp [hlist])
  have hdigits : String.ofList (c :: cs) ≠ "" := ne_empty_of_toList (by simp)
  rw [parseHexU64, if_neg hhex, htrim, if_neg hdigits, parseUint, if_neg hdigits,
    String.toList_ofList, parseUintLoop_of_readDigits hread, hcs]
  split <;> rfl

example : parseHexU64 (Text.hex (2 ^ 64)) = .error ⟨"10000000000000000", .errRange⟩ := by
  decide +kernel

/-- The result is an error because a number does not fit. -/
def OutOfRange {α : Type} (r : Except AttributesError α) : Prop :=
  ∃ e, r = .error e ∧ e.cause.err = .errRange

theorem OutOfRange.bind {α β : Type} {r : Except AttributesError α}
    {f : α → Except AttributesError β} (h : OutOfRange r) : OutOfRange (r >>= f) := by
  obtain ⟨e, rfl, he⟩ := h
  exact ⟨e, rfl, he⟩

theorem number_hex_of_lt {n : ℕ} (field : String) (h : n < 2 ^ 64) :
    number field (Text.hex n) = .ok (UInt64.ofNat n) := by
  rw [number, parseHexU64_hex, if_pos h]
  rfl

theorem number_hex_of_le {n : ℕ} (field : String) (h : 2 ^ 64 ≤ n) :
    OutOfRange (number field (Text.hex n)) := by
  have hn : ¬ n < 2 ^ 64 := by omega
  rw [number, parseHexU64_hex, if_neg hn]
  exact ⟨_, rfl, rfl⟩

/-! ## Transport -/

variable {H A V : Type} {hash : FixedBytes H} {addr : FixedBytes A}

theorem hex_str (codec : FixedBytes H) (h : H) : hex (.other (codec.str h)) = codec.str h := by
  rw [hex, if_pos (codec.hexPrefixed h)]

theorem str_ne_empty (codec : FixedBytes H) (h : H) : codec.str h ≠ "" := by
  intro hs
  have hstart := codec.hexPrefixed h
  rw [hs] at hstart
  exact absurd hstart (by decide)

/-- A withdrawal of the request. -/
def wireWithdrawal (addr : FixedBytes A) (w : Withdrawal A) : BuildWithdrawal :=
  ⟨Text.hex w.index, Text.hex w.validatorIndex, addr.str w.address, Text.hex w.amount⟩

theorem fieldOf_withdrawalTag (field : WithdrawalField) :
    fieldOf WithdrawalField.tag WithdrawalField.all field.tag = some field := by
  cases field <;> rfl

theorem fieldOf_requestTag (field : RequestField) :
    fieldOf RequestField.tag RequestField.all field.tag = some field := by
  cases field <;> rfl

theorem storeWithdrawal_body (w : Withdrawal A) :
    storeWithdrawal {} (withdrawalBody addr w) = (wireWithdrawal addr w, none) := by
  unfold withdrawalBody
  rw [hex_str]
  change storeWithdrawal {} (.obj
    [(WithdrawalField.index.tag, .str (Text.hex w.index)),
      (WithdrawalField.validatorIndex.tag, .str (Text.hex w.validatorIndex)),
      (WithdrawalField.address.tag, .str (addr.str w.address)),
      (WithdrawalField.amount.tag, .str (Text.hex w.amount))]) = _
  simp only [storeWithdrawal, storeMembers, BuildWithdrawal.store, fieldOf_withdrawalTag, storeString]
  rfl

theorem storeItems_body (ws : List (Withdrawal A)) :
    storeItems {} storeWithdrawal [] (ws.map (withdrawalBody addr)) =
      (ws.map (wireWithdrawal addr), none) := by
  induction ws with
  | nil => rfl
  | cons w ws ih =>
      simp only [List.map_cons, storeItems, List.headD_nil, List.tail_nil, storeWithdrawal_body, ih]
      rfl

/-- The parent beacon block root that a build of the payload names. -/
def beaconRoot (payload : EngineNewPayload H A V) : Option H :=
  (payloadAttributes payload).parentBeaconBlockRoot

/-- The request as the endpoint decodes it. -/
def wireRequest (hash : FixedBytes H) (addr : FixedBytes A) (parentHash : String)
    (payload : EngineNewPayload H A V) : BuildRequest where
  parentHash := parentHash
  timestamp := Text.hex payload.expected.timestamp
  prevRandao := hash.str payload.expected.prevRandao
  suggestedFeeRecipient := addr.str payload.expected.feeRecipient
  parentBeaconBlockRoot := ((beaconRoot payload).map hash.str).getD ""
  slotNumber := Text.hex (payload.expected.slotNumber.getD 0)
  targetGasLimit := Text.hex 0
  withdrawals := (payload.expected.withdrawals.getD []).map (wireWithdrawal addr)

/-- The endpoint reads each field of an object by its tag. -/
theorem decode_obj {parentHash timestamp prevRandao recipient root slot target : String}
    {items : List Json} {ws : List BuildWithdrawal}
    (h : storeItems {} storeWithdrawal [] items = (ws, none)) :
    decode (.obj
      [("parent_hash", .str parentHash), ("timestamp", .str timestamp),
        ("prev_randao", .str prevRandao), ("suggested_fee_recipient", .str recipient),
        ("parent_beacon_block_root", .str root), ("slot_number", .str slot),
        ("target_gas_limit", .str target), ("withdrawals", .arr items)]) =
      .ok ⟨parentHash, timestamp, prevRandao, recipient, root, slot, target, ws⟩ := by
  change decode (.obj
      [(RequestField.parentHash.tag, .str parentHash), (RequestField.timestamp.tag, .str timestamp),
        (RequestField.prevRandao.tag, .str prevRandao),
        (RequestField.suggestedFeeRecipient.tag, .str recipient),
        (RequestField.parentBeaconBlockRoot.tag, .str root),
        (RequestField.slotNumber.tag, .str slot), (RequestField.targetGasLimit.tag, .str target),
        (RequestField.withdrawals.tag, .arr items)]) = _
  simp only [decode, storeMembers, Decoding.store, fieldOf_requestTag, storeString]
  cases items with
  | nil =>
      obtain rfl : [] = ws := (Prod.mk.inj h).1
      rfl
  | cons item items =>
      simp only [Decoding.storeWithdrawals, List.append_nil, h]
      rfl

-- The names of a body fold, and a later array is decoded over the elements of an earlier one.
example : decode (.obj [("TIMESTAMP", .str "zz"), ("withdrawals", .arr [.obj [("index", .str "0x1")]]),
    ("Withdrawals", .arr [.obj [("amount", .str "0x2")]])]) =
      .ok { timestamp := "zz", withdrawals := [{ index := "0x1", amount := "0x2" }] } := rfl

theorem decode_requestBody (parentHash : String) (payload : EngineNewPayload H A V) :
    decode (requestBody hash addr parentHash payload) =
      .ok (wireRequest hash addr parentHash payload) := by
  have htarget : "0x0" = Text.hex 0 := by decide
  refine (decode_obj (storeItems_body _)).trans ?_
  unfold wireRequest
  rw [← htarget, hex_str, hex_str]
  congr 2
  · show _ = ((if payload.forkchoiceUpdatedVersion ≥ 3 then payload.params.item2
      else none).map hash.str).getD ""
    cases (if payload.forkchoiceUpdatedVersion ≥ 3 then payload.params.item2 else none) with
    | none => rfl
    | some root => exact hex_str hash root
  · cases payload.expected.slotNumber with
    | none => decide
    | some slot => rfl

/-! ## Withdrawals -/

def EngineWithdrawal.toWithdrawal (w : EngineWithdrawal A) : Withdrawal A :=
  ⟨w.index.toNat, w.validator.toNat, w.address, w.amount.toNat⟩

/-- The numbers of a withdrawal. -/
def quantities (w : Withdrawal A) : List ℕ := [w.index, w.validatorIndex, w.amount]

theorem toWithdrawal_of_lt (addr : FixedBytes A) (i : ℕ) {w : Withdrawal A}
    (h : ∀ n ∈ quantities w, n < 2 ^ 64) :
    ∃ out, toWithdrawal addr i (wireWithdrawal addr w) = .ok out ∧ out.toWithdrawal = w := by
  have hindex : w.index < 2 ^ 64 := h _ (by simp [quantities])
  have hvalidator : w.validatorIndex < 2 ^ 64 := h _ (by simp [quantities])
  have hamount : w.amount < 2 ^ 64 := h _ (by simp [quantities])
  refine ⟨⟨UInt64.ofNat w.index, UInt64.ofNat w.validatorIndex, w.address,
    UInt64.ofNat w.amount⟩, ?_, ?_⟩
  · simp only [toWithdrawal, wireWithdrawal, number_hex_of_lt _ hindex,
      number_hex_of_lt _ hvalidator, number_hex_of_lt _ hamount, addr.ofHex_str]
    rfl
  · simp only [EngineWithdrawal.toWithdrawal, UInt64.toNat_ofNat_of_lt' hindex,
      UInt64.toNat_ofNat_of_lt' hvalidator, UInt64.toNat_ofNat_of_lt' hamount]

theorem toWithdrawal_of_le (i : ℕ) {w : Withdrawal A} (h : ∃ n ∈ quantities w, 2 ^ 64 ≤ n) :
    OutOfRange (toWithdrawal addr i (wireWithdrawal addr w)) := by
  unfold toWithdrawal wireWithdrawal
  by_cases hindex : w.index < 2 ^ 64
  · rw [number_hex_of_lt _ hindex]
    by_cases hvalidator : w.validatorIndex < 2 ^ 64
    · rw [number_hex_of_lt _ hvalidator]
      have hamount : 2 ^ 64 ≤ w.amount := by
        obtain ⟨n, hn, hle⟩ := h
        simp only [quantities, List.mem_cons, List.not_mem_nil, or_false] at hn
        omega
      exact (number_hex_of_le _ hamount).bind
    · exact (number_hex_of_le _ (Nat.le_of_not_lt hvalidator)).bind
  · exact (number_hex_of_le _ (Nat.le_of_not_lt hindex)).bind

theorem toWithdrawals_of_lt (addr : FixedBytes A) (i : ℕ) {ws : List (Withdrawal A)}
    (h : ∀ n ∈ ws.flatMap quantities, n < 2 ^ 64) :
    ∃ out, toWithdrawals addr i (ws.map (wireWithdrawal addr)) = .ok out ∧
      out.map EngineWithdrawal.toWithdrawal = ws := by
  induction ws generalizing i with
  | nil => exact ⟨[], rfl, rfl⟩
  | cons w ws ih =>
      rw [List.flatMap_cons] at h
      have hfit : ∀ n ∈ quantities w, n < 2 ^ 64 := fun n hn => h n (List.mem_append_left _ hn)
      obtain ⟨first, hfirst, hw⟩ := toWithdrawal_of_lt addr i hfit
      obtain ⟨rest, hrest, hws⟩ := ih (i + 1) fun n hn => h n (List.mem_append_right _ hn)
      refine ⟨first :: rest, ?_, ?_⟩
      · rw [List.map_cons, toWithdrawals, hfirst, hrest]
        rfl
      · rw [List.map_cons, hw, hws]

theorem toWithdrawals_of_le (i : ℕ) {ws : List (Withdrawal A)}
    (h : ∃ n ∈ ws.flatMap quantities, 2 ^ 64 ≤ n) :
    OutOfRange (toWithdrawals addr i (ws.map (wireWithdrawal addr))) := by
  induction ws generalizing i with
  | nil => simp at h
  | cons w ws ih =>
      obtain ⟨n, hn, hle⟩ := h
      rw [List.flatMap_cons] at hn
      rw [List.map_cons, toWithdrawals]
      by_cases hfirst : ∃ m ∈ quantities w, 2 ^ 64 ≤ m
      · exact (toWithdrawal_of_le i hfirst).bind
      · simp only [not_exists, not_and, not_le] at hfirst
        obtain ⟨first, hok, -⟩ := toWithdrawal_of_lt addr i hfirst
        have hrest : ∃ m ∈ ws.flatMap quantities, 2 ^ 64 ≤ m := by
          rcases List.mem_append.mp hn with hn | hn
          · exact absurd (hfirst n hn) (by omega)
          · exact ⟨n, hn, hle⟩
        rw [hok]
        exact (ih (i + 1) hrest).bind

/-! ## The request -/

/-- The attributes of the two paths agree. An optional number of the fixture that is absent
leaves no trace in the other ones. -/
structure Agree (engine : EngineAttributes H A) (attrs : PayloadAttributes H A) : Prop where
  timestamp : engine.timestamp.toNat = attrs.timestamp
  prevRandao : engine.prevRandao = attrs.prevRandao
  suggestedFeeRecipient : engine.suggestedFeeRecipient = attrs.suggestedFeeRecipient
  parentBeaconBlockRoot : engine.parentBeaconBlockRoot = attrs.parentBeaconBlockRoot
  slotNumber : ∀ slot, attrs.slotNumber = some slot → engine.slotNumber.toNat = slot
  withdrawals : ∀ ws, attrs.withdrawals = some ws →
    engine.withdrawals.map EngineWithdrawal.toWithdrawal = ws

/-- The numbers of the attributes. -/
def attributeQuantities (attrs : PayloadAttributes H A) : List ℕ :=
  attrs.timestamp :: (attrs.slotNumber.toList ++ (attrs.withdrawals.getD []).flatMap quantities)

/-- An absent root is the empty string, and no root is. -/
theorem ofHex_beaconRoot (root : Option H) :
    (if (root.map hash.str).getD "" ≠ "" then some (hash.ofHex ((root.map hash.str).getD ""))
      else none) = root := by
  cases root with
  | none => rfl
  | some h =>
      show (if hash.str h ≠ "" then some (hash.ofHex (hash.str h)) else none) = some h
      rw [if_pos (str_ne_empty hash h), hash.ofHex_str]

/-- What the endpoint reads from a payload: no withdrawals count as an empty list of them, and
no slot as slot 0. -/
structure Reads (engine : EngineAttributes H A) (attrs : PayloadAttributes H A) : Prop where
  timestamp : engine.timestamp.toNat = attrs.timestamp
  prevRandao : engine.prevRandao = attrs.prevRandao
  suggestedFeeRecipient : engine.suggestedFeeRecipient = attrs.suggestedFeeRecipient
  parentBeaconBlockRoot : engine.parentBeaconBlockRoot = attrs.parentBeaconBlockRoot
  slotNumber : engine.slotNumber.toNat = attrs.slotNumber.getD 0
  withdrawals : engine.withdrawals.map EngineWithdrawal.toWithdrawal = attrs.withdrawals.getD []
  targetGasLimit : engine.targetGasLimit = 0

theorem Reads.agree {engine : EngineAttributes H A} {attrs : PayloadAttributes H A}
    (h : Reads engine attrs) : Agree engine attrs where
  timestamp := h.timestamp
  prevRandao := h.prevRandao
  suggestedFeeRecipient := h.suggestedFeeRecipient
  parentBeaconBlockRoot := h.parentBeaconBlockRoot
  slotNumber := by
    intro slot hslot
    simpa [hslot] using h.slotNumber
  withdrawals := by
    intro ws hws
    simpa [hws] using h.withdrawals

theorem toAttributes_reads (hash : FixedBytes H) (addr : FixedBytes A) (parentHash : String)
    {payload : EngineNewPayload H A V}
    (h : ∀ n ∈ attributeQuantities (payloadAttributes payload), n < 2 ^ 64) :
    ∃ attrs, (wireRequest hash addr parentHash payload).toAttributes hash addr = .ok attrs ∧
      Reads attrs (payloadAttributes payload) := by
  have htime : payload.expected.timestamp < 2 ^ 64 := h _ List.mem_cons_self
  have hslot : payload.expected.slotNumber.getD 0 < 2 ^ 64 := by
    cases hs : payload.expected.slotNumber with
    | none => decide
    | some slot =>
        apply h
        apply List.mem_cons_of_mem
        apply List.mem_append_left
        simp [payloadAttributes, hs]
  have hws : ∀ n ∈ (payload.expected.withdrawals.getD []).flatMap quantities, n < 2 ^ 64 :=
    fun n hn => h n (List.mem_cons_of_mem _ (List.mem_append_right _ hn))
  obtain ⟨ws, hwithdrawals, heq⟩ := toWithdrawals_of_lt addr 0 hws
  refine ⟨⟨UInt64.ofNat payload.expected.timestamp, payload.expected.prevRandao,
    payload.expected.feeRecipient, ws, UInt64.ofNat (payload.expected.slotNumber.getD 0),
    UInt64.ofNat 0, beaconRoot payload⟩, ?_, ?_⟩
  · unfold BuildRequest.toAttributes wireRequest
    rw [number_hex_of_lt _ htime, number_hex_of_lt _ hslot, number_hex_of_lt _ (by decide),
      hwithdrawals, ofHex_beaconRoot, hash.ofHex_str, addr.ofHex_str]
    rfl
  · constructor
    · exact UInt64.toNat_ofNat_of_lt' htime
    · rfl
    · rfl
    · rfl
    · exact UInt64.toNat_ofNat_of_lt' hslot
    · exact heq
    · rfl

theorem toAttributes_of_lt (hash : FixedBytes H) (addr : FixedBytes A) (parentHash : String)
    {payload : EngineNewPayload H A V}
    (h : ∀ n ∈ attributeQuantities (payloadAttributes payload), n < 2 ^ 64) :
    ∃ attrs, (wireRequest hash addr parentHash payload).toAttributes hash addr = .ok attrs ∧
      Agree attrs (payloadAttributes payload) := by
  obtain ⟨attrs, hattrs, hreads⟩ := toAttributes_reads hash addr parentHash h
  exact ⟨attrs, hattrs, hreads.agree⟩

theorem toAttributes_of_le (hash : FixedBytes H) (addr : FixedBytes A) (parentHash : String)
    {payload : EngineNewPayload H A V}
    (h : ∃ n ∈ attributeQuantities (payloadAttributes payload), 2 ^ 64 ≤ n) :
    OutOfRange ((wireRequest hash addr parentHash payload).toAttributes hash addr) := by
  unfold BuildRequest.toAttributes wireRequest
  by_cases htime : payload.expected.timestamp < 2 ^ 64
  · rw [number_hex_of_lt _ htime]
    by_cases hslot : payload.expected.slotNumber.getD 0 < 2 ^ 64
    · rw [number_hex_of_lt _ hslot, number_hex_of_lt _ (by decide : 0 < 2 ^ 64)]
      have hws : ∃ n ∈ (payload.expected.withdrawals.getD []).flatMap quantities, 2 ^ 64 ≤ n := by
        obtain ⟨n, hn, hle⟩ := h
        rcases List.mem_cons.mp hn with rfl | hn
        · exact absurd htime (by simpa [payloadAttributes] using hle)
        · rcases List.mem_append.mp hn with hn | hn
          · have hget : payload.expected.slotNumber = some n := Option.mem_toList.mp hn
            rw [hget] at hslot
            exact absurd hslot (Nat.not_lt.mpr hle)
          · exact ⟨n, hn, hle⟩
      exact (toWithdrawals_of_le 0 hws).bind
    · exact (number_hex_of_le _ (Nat.le_of_not_lt hslot)).bind
  · exact (number_hex_of_le _ (Nat.le_of_not_lt htime)).bind

/-- Whatever is built for a request is built on the parent that it names. -/
theorem requestedBuild_parent {parent head : H} {payload : EngineNewPayload H A V}
    {attrs : EngineAttributes H A}
    (h : requestedBuild hash addr (requestBody hash addr (hash.str parent) payload) =
      .ok (head, attrs)) : head = parent := by
  unfold requestedBuild at h
  rw [decode_requestBody] at h
  let request := wireRequest hash addr (hash.str parent) payload
  change ((request.toAttributes hash addr).mapError BadRequest.invalidAttrs >>= fun out =>
    Except.ok (hash.ofHex (hash.str parent), out)) = _ at h
  cases hattrs : request.toAttributes hash addr with
  | error e =>
      rw [hattrs] at h
      cases h
  | ok out =>
      rw [hattrs] at h
      have hpair := Prod.mk.inj (Except.ok.inj h)
      rw [← hpair.1, hash.ofHex_str]

/-- Both paths request the same block: when every number fits, the endpoint asks for the
parent and the attributes that the runner would ask for, and otherwise it refuses the
request because a number is out of range. -/
theorem requestedBuild_agree (hash : FixedBytes H) (addr : FixedBytes A) (parent : H)
    (payload : EngineNewPayload H A V) :
    ((∀ n ∈ attributeQuantities (payloadAttributes payload), n < 2 ^ 64) →
      ∃ attrs, requestedBuild hash addr (requestBody hash addr (hash.str parent) payload) =
          .ok (parent, attrs) ∧ Agree attrs (payloadAttributes payload)) ∧
    ((∃ n ∈ attributeQuantities (payloadAttributes payload), 2 ^ 64 ≤ n) →
      ∃ e, requestedBuild hash addr (requestBody hash addr (hash.str parent) payload) =
          .error (.invalidAttrs e) ∧ e.cause.err = .errRange) := by
  unfold requestedBuild
  rw [decode_requestBody]
  constructor
  · intro h
    obtain ⟨attrs, hattrs, hagree⟩ := toAttributes_of_lt hash addr (hash.str parent) h
    refine ⟨attrs, ?_, hagree⟩
    show ((wireRequest hash addr (hash.str parent) payload).toAttributes hash addr).mapError
      BadRequest.invalidAttrs >>= _ = _
    rw [hattrs]
    show Except.ok (hash.ofHex (hash.str parent), attrs) = _
    rw [hash.ofHex_str]
  · intro h
    obtain ⟨e, he, hrange⟩ := toAttributes_of_le hash addr (hash.str parent) h
    refine ⟨e, ?_, hrange⟩
    show ((wireRequest hash addr (hash.str parent) payload).toAttributes hash addr).mapError
      BadRequest.invalidAttrs >>= _ = _
    rw [he]
    rfl

/-! ## Full width -/

/-- Strings of `width` hex digits behind `0x`. -/
def fullWidth (width : ℕ) : FixedBytes (Fin (16 ^ width)) where
  str n := "0x" ++ String.ofList
    (List.replicate (width - (Nat.toDigits 16 n).length) '0' ++ Nat.toDigits 16 n)
  ofHex s :=
    ⟨(readDigits 16 0 (s.toList.drop 2)).getD 0 % 16 ^ width,
      Nat.mod_lt _ (Nat.pow_pos (by decide))⟩
  hexPrefixed := by
    intro n
    simp [Text.startsWith]
  ofHex_str := by
    intro n
    apply Fin.ext
    have hread : readDigits 16 0 (Nat.toDigits 16 n.val) = some n.val :=
      readDigits_toDigits (by decide) (by decide) n.val
    have hlt := Nat.mod_eq_of_lt n.isLt
    simp [readDigits_append, readDigits_zeros, hread, hlt]

end EestReplay.Simbuild
