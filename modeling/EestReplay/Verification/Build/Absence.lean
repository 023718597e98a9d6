import EestReplay.Verification.Build.Attributes

/-! # What is absent

Which payloads the builder's endpoint tells apart. It keeps an absent root from a zero one,
and takes absent withdrawals for none and an absent slot for slot 0. -/

namespace EestReplay.Simbuild

open Buildoor

variable {H A V : Type} (hash : FixedBytes H) (addr : FixedBytes A)

/-- The attributes that the endpoint decodes from the request for a payload. -/
def decoded (parentHash : String) (payload : EngineNewPayload H A V) :
    Option (EngineAttributes H A) :=
  (requestedBuild hash addr (requestBody hash addr parentHash payload)).toOption.map Prod.snd

/-- Two payloads for which the runner would ask for different attributes are decoded to
different ones. -/
def Distinguished (p q : EngineNewPayload H A V) : Prop :=
  ∀ parent parent' attrs, decoded hash addr parent p = some attrs →
    decoded hash addr parent' q = some attrs → payloadAttributes p = payloadAttributes q

/-- All numbers of a payload fit 64 bits. -/
def Fits (payload : EngineNewPayload H A V) : Prop :=
  ∀ n ∈ attributeQuantities (payloadAttributes payload), n < 2 ^ 64

/-- Attributes that agree when absent withdrawals count as an empty list of them, and an
absent slot as slot 0. -/
structure Alike (p q : PayloadAttributes H A) : Prop where
  timestamp : p.timestamp = q.timestamp
  prevRandao : p.prevRandao = q.prevRandao
  suggestedFeeRecipient : p.suggestedFeeRecipient = q.suggestedFeeRecipient
  parentBeaconBlockRoot : p.parentBeaconBlockRoot = q.parentBeaconBlockRoot
  slotNumber : p.slotNumber.getD 0 = q.slotNumber.getD 0
  withdrawals : p.withdrawals.getD [] = q.withdrawals.getD []

/-- Both have withdrawals or neither, and both have a slot or neither. -/
def SamePresence (p q : PayloadAttributes H A) : Prop :=
  p.withdrawals.isSome = q.withdrawals.isSome ∧ p.slotNumber.isSome = q.slotNumber.isSome

/-! ## Attributes -/

theorem getD_inj {α : Type} {a b : Option α} {default : α} (hget : a.getD default = b.getD default)
    (hsome : a.isSome = b.isSome) : a = b := by
  cases a with
  | none =>
      cases b with
      | none => rfl
      | some y => cases hsome
  | some x =>
      cases b with
      | none => cases hsome
      | some y => exact congrArg some hget

theorem Alike.eq {p q : PayloadAttributes H A} (h : Alike p q) (hpresence : SamePresence p q) :
    p = q := by
  obtain ⟨timestamp, prevRandao, recipient, withdrawals, root, slot⟩ := p
  obtain ⟨timestamp', prevRandao', recipient', withdrawals', root', slot'⟩ := q
  have hwithdrawals : withdrawals = withdrawals' := getD_inj h.withdrawals hpresence.1
  have hslot : slot = slot' := getD_inj h.slotNumber hpresence.2
  have htime : timestamp = timestamp' := h.timestamp
  have hrandao : prevRandao = prevRandao' := h.prevRandao
  have hrecipient : recipient = recipient' := h.suggestedFeeRecipient
  have hroot : root = root' := h.parentBeaconBlockRoot
  rw [hwithdrawals, hslot, htime, hrandao, hrecipient, hroot]

/-- Attributes that are read the same way are alike. -/
theorem Reads.alike {engine : EngineAttributes H A} {p q : PayloadAttributes H A}
    (hp : Reads engine p) (hq : Reads engine q) : Alike p q where
  timestamp := hp.timestamp.symm.trans hq.timestamp
  prevRandao := hp.prevRandao.symm.trans hq.prevRandao
  suggestedFeeRecipient := hp.suggestedFeeRecipient.symm.trans hq.suggestedFeeRecipient
  parentBeaconBlockRoot := hp.parentBeaconBlockRoot.symm.trans hq.parentBeaconBlockRoot
  slotNumber := hp.slotNumber.symm.trans hq.slotNumber
  withdrawals := hp.withdrawals.symm.trans hq.withdrawals

theorem toWithdrawal_injective :
    Function.Injective (EngineWithdrawal.toWithdrawal : EngineWithdrawal A → Withdrawal A) := by
  intro v w h
  obtain ⟨index, validator, address, amount⟩ := v
  obtain ⟨index', validator', address', amount'⟩ := w
  simp only [EngineWithdrawal.toWithdrawal, Withdrawal.mk.injEq, UInt64.toNat_inj] at h
  rw [h.1, h.2.1, h.2.2.1, h.2.2.2]

/-- Attributes that are alike are read in one way only. -/
theorem Alike.reads_eq {p q : PayloadAttributes H A} (h : Alike p q) {v w : EngineAttributes H A}
    (hv : Reads v p) (hw : Reads w q) : v = w := by
  have htime : v.timestamp = w.timestamp :=
    UInt64.toNat_inj.mp ((hv.timestamp.trans h.timestamp).trans hw.timestamp.symm)
  have hslot : v.slotNumber = w.slotNumber :=
    UInt64.toNat_inj.mp ((hv.slotNumber.trans h.slotNumber).trans hw.slotNumber.symm)
  have hwithdrawals : v.withdrawals = w.withdrawals :=
    List.map_injective_iff.mpr toWithdrawal_injective
      ((hv.withdrawals.trans h.withdrawals).trans hw.withdrawals.symm)
  have hrandao := (hv.prevRandao.trans h.prevRandao).trans hw.prevRandao.symm
  have hrecipient :=
    (hv.suggestedFeeRecipient.trans h.suggestedFeeRecipient).trans hw.suggestedFeeRecipient.symm
  have hroot :=
    (hv.parentBeaconBlockRoot.trans h.parentBeaconBlockRoot).trans hw.parentBeaconBlockRoot.symm
  have htarget := hv.targetGasLimit.trans hw.targetGasLimit.symm
  cases v
  cases w
  simp_all only

/-! ## Payloads -/

theorem decoded_eq (parentHash : String) (payload : EngineNewPayload H A V) :
    decoded hash addr parentHash payload =
      ((wireRequest hash addr parentHash payload).toAttributes hash addr).toOption := by
  unfold decoded requestedBuild
  rw [decode_requestBody]
  show ((((wireRequest hash addr parentHash payload).toAttributes hash addr).mapError
    BadRequest.invalidAttrs >>= fun attrs => Except.ok (hash.ofHex parentHash, attrs)).toOption).map
      Prod.snd = _
  cases (wireRequest hash addr parentHash payload).toAttributes hash addr with
  | ok attrs => rfl
  | error e => rfl

theorem decoded_of_fits (parentHash : String) {payload : EngineNewPayload H A V} (h : Fits payload) :
    ∃ attrs, decoded hash addr parentHash payload = some attrs ∧
      Reads attrs (payloadAttributes payload) := by
  obtain ⟨attrs, hattrs, hreads⟩ := toAttributes_reads hash addr parentHash h
  exact ⟨attrs, by rw [decoded_eq, hattrs]; rfl, hreads⟩

/-- What is decoded fits, and is read as it stands. -/
theorem reads_of_decoded {parentHash : String} {payload : EngineNewPayload H A V}
    {attrs : EngineAttributes H A} (h : decoded hash addr parentHash payload = some attrs) :
    Fits payload ∧ Reads attrs (payloadAttributes payload) := by
  by_cases hfits : Fits payload
  · obtain ⟨attrs', hattrs, hreads⟩ := decoded_of_fits hash addr parentHash hfits
    obtain rfl : attrs' = attrs := Option.some.inj (hattrs.symm.trans h)
    exact ⟨hfits, hreads⟩
  · have hlarge : ∃ n ∈ attributeQuantities (payloadAttributes payload), 2 ^ 64 ≤ n := by
      simpa [Fits] using hfits
    obtain ⟨e, he, -⟩ := toAttributes_of_le hash addr parentHash hlarge
    rw [decoded_eq, he] at h
    cases h

theorem decoded_eq_of_alike (parent parent' : String) {p q : EngineNewPayload H A V} (hp : Fits p)
    (hq : Fits q) (h : Alike (payloadAttributes p) (payloadAttributes q)) :
    ∃ attrs, decoded hash addr parent p = some attrs ∧ decoded hash addr parent' q = some attrs := by
  obtain ⟨v, hv, hreadsV⟩ := decoded_of_fits hash addr parent hp
  obtain ⟨w, hw, hreadsW⟩ := decoded_of_fits hash addr parent' hq
  obtain rfl : v = w := h.reads_eq hreadsV hreadsW
  exact ⟨v, hv, hw⟩

/-- The endpoint tells two payloads apart as the runner does, unless they differ in nothing
but withdrawals that one of them has none of and the other an empty list, or a slot that
one has not and that is 0 in the other. -/
theorem distinguished_iff (p q : EngineNewPayload H A V) :
    Distinguished hash addr p q ↔
      (Fits p → Fits q → Alike (payloadAttributes p) (payloadAttributes q) →
        SamePresence (payloadAttributes p) (payloadAttributes q)) := by
  constructor
  · intro h hp hq halike
    obtain ⟨attrs, hpattrs, hqattrs⟩ := decoded_eq_of_alike hash addr "" "" hp hq halike
    have heq := h "" "" attrs hpattrs hqattrs
    exact heq ▸ ⟨rfl, rfl⟩
  · intro h parent parent' attrs hpattrs hqattrs
    obtain ⟨hp, hreadsP⟩ := reads_of_decoded hash addr hpattrs
    obtain ⟨hq, hreadsQ⟩ := reads_of_decoded hash addr hqattrs
    have halike := hreadsP.alike hreadsQ
    exact halike.eq (h hp hq halike)

/-- A block, with or without an empty list of withdrawals and slot 0. -/
def blockWith (withdrawals : Option (List (Withdrawal (Fin (16 ^ 40))))) (slot : Option ℕ) :
    EngineNewPayload (Fin (16 ^ 64)) (Fin (16 ^ 40)) Unit where
  params := .v1
    { parentHash := (fullWidth 64).ofHex "0x0"
      feeRecipient := (fullWidth 40).ofHex "0x0"
      number := 1
      timestamp := 12
      prevRandao := (fullWidth 64).ofHex "0x0"
      blockHash := (fullWidth 64).ofHex "0x0"
      transactions := []
      withdrawals := withdrawals
      slotNumber := slot
      getattr _ := () }
  newPayloadVersion := 1
  forkchoiceUpdatedVersion := 1
  valid := true

theorem fits_blockWith (slot : Option ℕ) (h : slot.getD 0 < 2 ^ 64)
    {withdrawals : Option (List (Withdrawal (Fin (16 ^ 40))))} (hnil : withdrawals.getD [] = []) :
    Fits (blockWith withdrawals slot) := by
  intro n hn
  simp only [attributeQuantities, payloadAttributes, blockWith, EngineNewPayload.expected,
    NewPayloadParams.item0, hnil, List.flatMap_nil, List.append_nil, List.mem_cons,
    Option.mem_toList] at hn
  rcases hn with rfl | hslot
  · decide
  · simpa [show slot = some n from hslot] using h

/-- Absent withdrawals and an empty list of them, and an absent slot and slot 0. -/
theorem not_distinguished_absent :
    ¬ Distinguished (fullWidth 64) (fullWidth 40) (blockWith none none) (blockWith (some []) none) ∧
      ¬ Distinguished (fullWidth 64) (fullWidth 40) (blockWith (some []) none)
        (blockWith (some []) (some 0)) := by
  constructor
  · intro h
    obtain ⟨attrs, hp, hq⟩ := decoded_eq_of_alike (fullWidth 64) (fullWidth 40) "" ""
      (fits_blockWith none (by decide) rfl) (fits_blockWith none (by decide) rfl)
      (⟨rfl, rfl, rfl, rfl, rfl, rfl⟩ : Alike (payloadAttributes (blockWith none none))
        (payloadAttributes (blockWith (some []) none)))
    cases congrArg PayloadAttributes.withdrawals (h "" "" attrs hp hq)
  · intro h
    obtain ⟨attrs, hp, hq⟩ := decoded_eq_of_alike (fullWidth 64) (fullWidth 40) "" ""
      (fits_blockWith none (by decide) rfl) (fits_blockWith (some 0) (by decide) rfl)
      (⟨rfl, rfl, rfl, rfl, rfl, rfl⟩ : Alike (payloadAttributes (blockWith (some []) none))
        (payloadAttributes (blockWith (some []) (some 0))))
    cases congrArg PayloadAttributes.slotNumber (h "" "" attrs hp hq)

end EestReplay.Simbuild
