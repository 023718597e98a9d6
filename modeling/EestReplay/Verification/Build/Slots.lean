import EestReplay.Model.Engine
import EestReplay.Verification.Build.Attributes

/-! # The slot number of a payload

A payload that is unmarshalled and marshalled again keeps the `slotNumber` of its JSON, and
one that is marshalled and unmarshalled keeps its `SlotNumber`, but for slot 0 and for what an
earlier number leaves. -/

namespace EestReplay.Engine

/-! ## Slot numbers of objects -/

/-- What the value of a member says: a null says nothing. -/
inductive Says (hex : HexUint64) : Json → Option UInt64 → Prop where
  | null : Says hex .null none
  | number {value : Json} {n : UInt64} : value ≠ .null → hex.unmarshalJSON value = some n →
      Says hex value (some n)

/-- The values for the field among the members of an object. -/
def slotMembers (fields : List (String × Json)) : List Json :=
  (fields.filter fun field => isSlotNumber field.1).map Prod.snd

/-- The `slotNumber` of an object, none when it is absent or null. Of several the last counts. -/
def HasSlot (hex : HexUint64) (fields : List (String × Json)) (v : Option UInt64) : Prop :=
  ∃ vs, List.Forall₂ (Says hex) (slotMembers fields) vs ∧ vs.getLast?.getD none = v

/-- What is written for a slot number. -/
def written (hex : HexUint64) (v : Option UInt64) : List Json :=
  v.toList.map fun n => .str (hex.marshalText n)

section

variable {hex : HexUint64}

theorem decodePointer_of_says {value : Json} {v : Option UInt64} (h : Says hex value v) :
    decodePointer hex value = some v := by
  cases h with
  | null => rfl
  | number hne hread =>
      cases value with
      | null => exact absurd rfl hne
      | _ => exact congrArg (Option.map some) hread

/-- The last member decides on the pointer, and without one it stays as it is. -/
theorem decodeSlotNumber_of_says {slotNumber : Option UInt64} {fields : List (String × Json)}
    {vs : List (Option UInt64)} (h : List.Forall₂ (Says hex) (slotMembers fields) vs) :
    decodeSlotNumber hex slotNumber fields = some (vs.getLast?.getD slotNumber) := by
  induction fields generalizing slotNumber vs with
  | nil =>
      cases h
      rfl
  | cons field fields ih =>
      obtain ⟨key, value⟩ := field
      unfold decodeSlotNumber
      cases hkey : isSlotNumber key with
      | false =>
          have hmembers : slotMembers ((key, value) :: fields) = slotMembers fields := by
            simp [slotMembers, hkey]
          rw [hmembers] at h
          exact ih h
      | true =>
          have hmembers : slotMembers ((key, value) :: fields) = value :: slotMembers fields := by
            simp [slotMembers, hkey]
          rw [hmembers] at h
          cases h with
          | @cons _ v _ vs hvalue hrest =>
              rw [if_pos rfl, decodePointer_of_says hvalue, Option.bind_some, ih hrest,
                List.getLast?_cons, Option.getD_some]

theorem HasSlot.decode {fields : List (String × Json)} {v : Option UInt64}
    (h : HasSlot hex fields v) : decodeSlotNumber hex none fields = some v := by
  obtain ⟨vs, hvs, rfl⟩ := h
  exact decodeSlotNumber_of_says hvs

theorem isSlotNumber_tag : isSlotNumber "slotNumber" = true := by decide

theorem slotMembers_slotMember (v : Option UInt64) :
    slotMembers (ExecutionPayload.slotMember hex v) = written hex v := by
  cases v with
  | none => rfl
  | some n => simp [slotMembers, ExecutionPayload.slotMember, isSlotNumber_tag, written]

theorem otherMembers_slotMember (v : Option UInt64) :
    otherMembers (ExecutionPayload.slotMember hex v) = [] := by
  cases v with
  | none => rfl
  | some n => simp [otherMembers, ExecutionPayload.slotMember, isSlotNumber_tag]

theorem slotMembers_of_other {fields : List (String × Json)} (h : otherMembers fields = fields) :
    slotMembers fields = [] := by
  have hother : ∀ field ∈ fields, isSlotNumber field.1 = false := by
    intro field hfield
    rw [← h] at hfield
    simpa using (List.mem_filter.mp hfield).2
  have hnone : fields.filter (fun field => isSlotNumber field.1) = [] := by
    apply List.filter_eq_nil_iff.mpr
    intro field hfield
    simp [hother field hfield]
  rw [slotMembers, hnone]
  rfl

/-- Different slot numbers are written differently. -/
theorem written_injective : Function.Injective (written hex) := by
  intro v w h
  cases v with
  | none =>
      cases w with
      | none => rfl
      | some m => cases h
  | some n =>
      cases w with
      | none => cases h
      | some m =>
          have htext : Json.str (hex.marshalText n) = .str (hex.marshalText m) := (List.cons.inj h).1
          have hread := hex.unmarshal_marshal n
          rw [htext, hex.unmarshal_marshal] at hread
          exact hread.symm

end

/-! ## Payloads -/

section

variable {R : Type} {hex : HexUint64} {others : OtherFields R}

theorem slotMembers_marshal (r : R) (v : Option UInt64) :
    slotMembers (others.marshal r ++ ExecutionPayload.slotMember hex v) = written hex v := by
  have hother := slotMembers_of_other (others.otherMembers_marshal r)
  have hslot : slotMembers (ExecutionPayload.slotMember hex v) = written hex v :=
    slotMembers_slotMember v
  unfold slotMembers at hother hslot ⊢
  rw [List.filter_append, List.map_append, hother, hslot, List.nil_append]

theorem otherMembers_marshal (r : R) (v : Option UInt64) :
    otherMembers (others.marshal r ++ ExecutionPayload.slotMember hex v) = others.marshal r := by
  have hother := others.otherMembers_marshal r
  have hslot : otherMembers (ExecutionPayload.slotMember hex v) = [] := otherMembers_slotMember v
  unfold otherMembers at hother hslot ⊢
  rw [List.filter_append, hother, hslot, List.append_nil]

/-- What is marshalled has the number of the pointer. -/
theorem hasSlot_marshal (r : R) (v : Option UInt64) :
    HasSlot hex (others.marshal r ++ ExecutionPayload.slotMember hex v) v := by
  unfold HasSlot
  rw [slotMembers_marshal]
  cases v with
  | none => exact ⟨[], .nil, rfl⟩
  | some n =>
      have hsays : Says hex (.str (hex.marshalText n)) (some n) :=
        .number (fun h => by cases h) (hex.unmarshal_marshal n)
      exact ⟨[some n], .cons hsays .nil, rfl⟩

/-- A payload takes over the number of an object, and keeps its own where there is none. -/
theorem unmarshalJSON_obj {p : ExecutionPayload R} {fields : List (String × Json)}
    {v : Option UInt64} {r : R} (hslot : HasSlot hex fields v)
    (hother : others.unmarshal p.other (otherMembers fields) = some r) :
    p.unmarshalJSON hex others (.obj fields) = some ⟨r, v.getD p.slotNumber⟩ := by
  unfold ExecutionPayload.unmarshalJSON
  show (decodeSlotNumber hex none fields).bind _ = _
  rw [hslot.decode, Option.bind_some]
  show (others.unmarshal p.other (otherMembers fields)).bind _ = _
  rw [hother, Option.bind_some]
  cases v with
  | none => rfl
  | some n => rfl

end

/-! ## A client -/

/-- Numbers as `hexutil` prints them, which `parseHexU64` reads as well. -/
def hexText : HexUint64 where
  marshalText n := Text.hex n.toNat
  unmarshalJSON
    | .str s => (Simbuild.parseHexU64 s).toOption
    | _ => none
  unmarshal_marshal := by
    intro n
    show (Simbuild.parseHexU64 (Text.hex n.toNat)).toOption = some n
    rw [Simbuild.parseHexU64_hex, if_pos n.toNat_lt, UInt64.ofNat_toNat]
    rfl

/-- The other fields as they came. -/
def asTheyCame : OtherFields (List (String × Json)) where
  unmarshal _ fields := some fields
  marshal r := otherMembers r
  otherMembers_marshal r := by simp [otherMembers]
  unmarshal_marshal _ _ := ⟨_, rfl⟩

/-- A new payload. -/
def newPayload : ExecutionPayload (List (String × Json)) := ⟨[], 0⟩

/-! ## Both directions -/

section

variable {R : Type} (hex : HexUint64) (others : OtherFields R)

/-- What is unmarshalled from the JSON is marshalled to one with the slot number. -/
def Reencodes (p : ExecutionPayload R) (data : Json) (v : Option UInt64) : Prop :=
  ∃ q fields, p.unmarshalJSON hex others data = some q ∧
    q.marshalJSON hex others = .obj fields ∧ slotMembers fields = written hex v

/-- What is marshalled is unmarshalled to a payload with the same slot number. -/
def Restores (p q : ExecutionPayload R) : Prop :=
  ∃ r, p.unmarshalJSON hex others (q.marshalJSON hex others) = some r ∧ r.slotNumber = q.slotNumber

variable {hex others}

theorem reencodes_iff {p : ExecutionPayload R} {fields : List (String × Json)} {v : Option UInt64}
    (hslot : HasSlot hex fields v)
    (hother : ∃ r, others.unmarshal p.other (otherMembers fields) = some r) :
    Reencodes hex others p (.obj fields) v ↔ v ≠ some 0 ∧ (v = none → p.slotNumber = 0) := by
  obtain ⟨r, hr⟩ := hother
  have hread := unmarshalJSON_obj hslot hr
  have hpointer : Reencodes hex others p (.obj fields) v ↔
      (⟨r, v.getD p.slotNumber⟩ : ExecutionPayload R).slotPointer = v := by
    constructor
    · rintro ⟨q, out, hq, hout, hwritten⟩
      rw [hread] at hq
      obtain rfl := Option.some.inj hq
      obtain rfl := Json.obj.inj hout
      rw [slotMembers_marshal] at hwritten
      exact written_injective hwritten
    · intro h
      refine ⟨_, _, hread, rfl, ?_⟩
      rw [slotMembers_marshal, h]
  rw [hpointer]
  cases v with
  | none => simp [ExecutionPayload.slotPointer]
  | some n => simp [ExecutionPayload.slotPointer]

theorem restores_iff {p q : ExecutionPayload R} :
    Restores hex others p q ↔ (q.slotNumber = 0 → p.slotNumber = 0) := by
  obtain ⟨r, hr⟩ := others.unmarshal_marshal p.other q.other
  have hother : others.unmarshal p.other (otherMembers
      (others.marshal q.other ++ ExecutionPayload.slotMember hex q.slotPointer)) = some r := by
    rw [otherMembers_marshal]
    exact hr
  have hread := unmarshalJSON_obj (hasSlot_marshal q.other q.slotPointer) hother
  have hslot : Restores hex others p q ↔ q.slotPointer.getD p.slotNumber = q.slotNumber := by
    constructor
    · rintro ⟨r', hr', heq⟩
      obtain rfl := Option.some.inj (hread.symm.trans hr')
      exact heq
    · intro h
      exact ⟨_, hread, h⟩
  rw [hslot, ExecutionPayload.slotPointer]
  by_cases hq : q.slotNumber = 0
  · simp [hq]
  · simp [hq]

/-- The slot number is preserved in both directions exactly when it is not 0 in the JSON, and
the payload that is unmarshalled into has no number of its own where it is given none. -/
theorem slotNumber_preserved_iff (p q : ExecutionPayload R) {fields : List (String × Json)}
    {v : Option UInt64} (hslot : HasSlot hex fields v)
    (hother : ∃ r, others.unmarshal p.other (otherMembers fields) = some r) :
    (Reencodes hex others p (.obj fields) v ∧ Restores hex others p q) ↔
      v ≠ some 0 ∧ (v = none ∨ q.slotNumber = 0 → p.slotNumber = 0) := by
  rw [reencodes_iff hslot hother, restores_iff, or_imp, and_assoc]

end

theorem slotNumber_preserved_seven :
    Reencodes hexText asTheyCame newPayload
        (.obj [("excessBlobGas", .str "0x0"), ("slotNumber", .str "0x7")]) (some 7) ∧
      Restores hexText asTheyCame newPayload ⟨[], 7⟩ := by
  have hslot : HasSlot hexText [("excessBlobGas", .str "0x0"), ("slotNumber", .str "0x7")]
      (some 7) := ⟨[some 7], .cons (.number (fun h => by cases h) rfl) .nil, rfl⟩
  exact (slotNumber_preserved_iff newPayload ⟨[], 7⟩ hslot ⟨_, rfl⟩).mpr
    ⟨by decide, fun _ => rfl⟩

theorem slot_zero_dropped :
    HasSlot hexText [("slotNumber", .str "0x0")] (some 0) ∧
      (∃ q, newPayload.unmarshalJSON hexText asTheyCame (.obj [("slotNumber", .str "0x0")]) = some q ∧
        q.marshalJSON hexText asTheyCame = .obj []) ∧
      ¬ Reencodes hexText asTheyCame newPayload (.obj [("slotNumber", .str "0x0")]) (some 0) := by
  have hslot : HasSlot hexText [("slotNumber", .str "0x0")] (some 0) :=
    ⟨[some 0], .cons (.number (fun h => by cases h) rfl) .nil, rfl⟩
  refine ⟨hslot, ⟨_, unmarshalJSON_obj hslot rfl, rfl⟩, ?_⟩
  rw [reencodes_iff hslot ⟨_, rfl⟩]
  exact fun h => h.1 rfl

end EestReplay.Engine
