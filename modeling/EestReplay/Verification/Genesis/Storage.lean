import EestReplay.Verification.Genesis.RoundTrip
import Mathlib.Data.Nat.Log

/-! # Storage words of a genesis

The words that a genesis file states for the storage of its accounts, against a reader that
takes pairs of hex digits. -/

namespace EestReplay.Chainspec

open Dict Digits

/-! ## The reader -/

/-- A storage word: an even number of hex digits, at most 64, padded on the left. -/
def readStorageWord (s : String) : Option ℕ :=
  let digits := (Text.removePrefix s "0x").toList
  if digits.length ≤ 64 ∧ digits.length % 2 = 0 then readDigits 16 0 digits else none

/-- The items of an object in a field of an object. -/
def itemsOf (key : String) : Json → List (String × Json)
  | .obj fields =>
    match fields.lookup key with
    | some (.obj items) => items
    | _ => []
  | _ => []

/-- A slot and its value are read from an item of a storage. -/
def SlotReads (slot : ℕ × ℕ) (item : String × Json) : Prop :=
  readStorageWord item.1 = some slot.1 ∧
    ∃ text, item.2 = .str text ∧ readStorageWord text = some slot.2

/-- The storage of an account is read from its entry. -/
def StorageReads (account : Account) (entry : Json) : Prop :=
  List.Forall₂ SlotReads account.storage (itemsOf "storage" entry)

/-! ## Words -/

theorem removePrefix_hex (n : ℕ) :
    (Text.removePrefix (Text.hex n) "0x").toList = Nat.toDigits 16 n := by
  have hstart : Text.startsWith (Text.hex n) "0x" = true := by simp [Text.startsWith, Text.hex]
  rw [Text.removePrefix, if_pos hstart, String.toList_ofList]
  simp [Text.hex]

/-- `hex` prints one digit for each power of 16 up to the number. -/
theorem length_toDigits (n : ℕ) : (Nat.toDigits 16 n).length = Nat.log 16 n + 1 := by
  have hiff : ∀ k, 0 < k → ((Nat.toDigits 16 n).length ≤ k ↔ n < 16 ^ k) :=
    fun k hk => Nat.length_toDigits_le_iff (by decide) hk
  have hle : (Nat.toDigits 16 n).length ≤ Nat.log 16 n + 1 :=
    (hiff _ (Nat.succ_pos _)).mpr (Nat.lt_pow_succ_log_self (by decide) n)
  have hpos : 0 < (Nat.toDigits 16 n).length := Nat.length_toDigits_pos
  by_contra hne
  have hlt : (Nat.toDigits 16 n).length ≤ Nat.log 16 n := by omega
  have hpow : n < 16 ^ Nat.log 16 n := (hiff _ (by omega)).mp hlt
  have hzero : n ≠ 0 := by
    rintro rfl
    simp at hlt
  exact absurd (Nat.pow_log_le_self 16 hzero) (Nat.not_le.mpr hpow)

/-- A printed word is read exactly when it has an even number of digits. -/
theorem readStorageWord_hex {n : ℕ} (h : n < 2 ^ 256) :
    readStorageWord (Text.hex n) = if Odd (Nat.log 16 n) then some n else none := by
  have hlength : (Nat.toDigits 16 n).length ≤ 64 :=
    (Nat.length_toDigits_le_iff (by decide) (by decide)).mpr (by rw [← Nat.pow_mul 2 4 64]; exact h)
  simp only [readStorageWord, removePrefix_hex]
  by_cases hodd : Odd (Nat.log 16 n)
  · have heven : (Nat.toDigits 16 n).length % 2 = 0 := by
      rw [length_toDigits]
      have := Nat.odd_iff.mp hodd
      omega
    rw [if_pos ⟨hlength, heven⟩, if_pos hodd, readDigits_toDigits (by decide) (by decide)]
  · have heven : ¬ (Nat.toDigits 16 n).length % 2 = 0 := by
      rw [length_toDigits]
      rw [Nat.odd_iff] at hodd
      omega
    rw [if_neg (fun hboth => heven hboth.2), if_neg hodd]

theorem readStorageWord_eq_iff {n : ℕ} (h : n < 2 ^ 256) :
    readStorageWord (Text.hex n) = some n ↔ Odd (Nat.log 16 n) := by
  rw [readStorageWord_hex h]
  by_cases hodd : Odd (Nat.log 16 n) <;> simp [hodd]

/-! ## Accounts -/

theorem itemsOf_allocEntry {account : Account} (h : (account.storage.map Prod.fst).Nodup) :
    itemsOf "storage" (allocEntry account) =
      account.storage.map fun x => (Text.hex x.1, .str (Text.hex x.2)) := by
  let value (n : ℕ) : Json := .str (hex (.int n))
  have hitems : fromItems (account.storage.map fun x => (Text.hex x.1, value x.2)) =
      account.storage.map fun x => (Text.hex x.1, value x.2) := fromItems_map hex_injective h
  have hwritten : fromItems (account.storage.map fun x => (hex (.int x.1), Json.str (hex (.int x.2)))) =
      account.storage.map fun x => (Text.hex x.1, .str (Text.hex x.2)) := hitems
  unfold allocEntry
  rw [hwritten]
  simp only [itemsOf, List.lookup_append, lookup_ite, lookup_cons, List.lookup_nil,
    String.reduceEq, and_true, and_false, if_false, Option.none_or, Option.or_none]
  by_cases hnil : account.storage = [] <;> simp [hnil]

/-- The words of an account that are written with an even number of digits. -/
def EvenWords (account : Account) : Prop :=
  ∀ slot ∈ account.storage, Odd (Nat.log 16 slot.1) ∧ Odd (Nat.log 16 slot.2)

theorem forall_slotReads_iff {storage : List (ℕ × ℕ)}
    (h : ∀ slot ∈ storage, slot.1 < 2 ^ 256 ∧ slot.2 < 2 ^ 256) :
    List.Forall₂ SlotReads storage
        (storage.map fun x => (Text.hex x.1, .str (Text.hex x.2))) ↔
      ∀ slot ∈ storage, Odd (Nat.log 16 slot.1) ∧ Odd (Nat.log 16 slot.2) := by
  induction storage with
  | nil => simp
  | cons slot storage ih =>
      have hslot := h slot List.mem_cons_self
      have hrest := ih fun x hx => h x (List.mem_cons_of_mem slot hx)
      have hreads : SlotReads slot (Text.hex slot.1, .str (Text.hex slot.2)) ↔
          Odd (Nat.log 16 slot.1) ∧ Odd (Nat.log 16 slot.2) := by
        simp [SlotReads, readStorageWord_eq_iff hslot.1, readStorageWord_eq_iff hslot.2]
      rw [List.map_cons, List.forall₂_cons, hreads, hrest, List.forall_mem_cons]

/-- The keys and the values of an account's storage are 256-bit words. -/
def HasWords (account : Account) : Prop :=
  ∀ slot ∈ account.storage, slot.1 < 2 ^ 256 ∧ slot.2 < 2 ^ 256

/-- The storage of an account is read back from its entry exactly when all its words are
printed with an even number of digits. -/
theorem storageReads_iff (account : Account) (hslots : (account.storage.map Prod.fst).Nodup)
    (hwords : HasWords account) :
    StorageReads account (allocEntry account) ↔ EvenWords account := by
  rw [StorageReads, itemsOf_allocEntry hslots]
  exact forall_slotReads_iff hwords

theorem storageReads_iff_twoSlots :
    StorageReads ⟨0, 1, [], [(0x10, 0xff), (0xabcd, 0x20)]⟩
        (allocEntry ⟨0, 1, [], [(0x10, 0xff), (0xabcd, 0x20)]⟩) ↔
      EvenWords ⟨0, 1, [], [(0x10, 0xff), (0xabcd, 0x20)]⟩ :=
  storageReads_iff ⟨0, 1, [], [(0x10, 0xff), (0xabcd, 0x20)]⟩ (by decide) (by simp [HasWords])

/-- Slot 1 holds 1: both words are printed with one digit. -/
theorem not_storageReads_one :
    ¬ StorageReads ⟨0, 1, [], [(1, 1)]⟩ (allocEntry ⟨0, 1, [], [(1, 1)]⟩) := by
  intro h
  rw [StorageReads, itemsOf_allocEntry (by decide)] at h
  have hkey : readStorageWord (Text.hex 1) = some 1 := (List.forall₂_cons.mp h).1.1
  have hnone : readStorageWord (Text.hex 1) = none := by decide
  rw [hnone] at hkey
  cases hkey

/-! ## The whole genesis -/

variable {H A V : Type} {hash : FixedBytes H} {addr : FixedBytes A}

/-- The storage of every account of a pre-state is read from a genesis. -/
def GenesisReads (addr : FixedBytes A) (pre : Alloc A) (genesis : Json) : Prop :=
  List.Forall₂ (fun x item => item.1 = addr.str x.1 ∧ StorageReads x.2 item.2) (nonNull pre.root)
    (itemsOf "alloc" genesis)

theorem itemsOf_buildGenesis (fixture : BlockchainEngineFixture H A V) :
    itemsOf "alloc" (buildGenesis hash addr fixture) =
      (nonNull fixture.pre.root).map fun x => (addr.str x.1, allocEntry x.2) := by
  have hloop : itemsOf "alloc" (buildGenesis hash addr fixture) =
      allocLoop addr fixture.pre.root [] := by
    simp [itemsOf, buildGenesis, lookup_cons]
  rw [hloop, allocLoop_eq_update]
  exact fromItems_map (str_injective addr) (nonNull_nodup fixture.pre.addresses_nodup)

/-- One word of an odd number of digits, in any account, spoils the genesis. -/
theorem genesisReads_iff (fixture : BlockchainEngineFixture H A V)
    (hwords : ∀ x ∈ nonNull fixture.pre.root, HasWords x.2) :
    GenesisReads addr fixture.pre (buildGenesis hash addr fixture) ↔
      ∀ x ∈ nonNull fixture.pre.root, EvenWords x.2 := by
  have hreads : ∀ x ∈ nonNull fixture.pre.root,
      (StorageReads x.2 (allocEntry x.2) ↔ EvenWords x.2) := by
    intro x hx
    rw [StorageReads, itemsOf_allocEntry (fixture.pre.slots_nodup x.1 x.2 (mem_nonNull.mp hx))]
    exact forall_slotReads_iff (hwords x hx)
  rw [GenesisReads, itemsOf_buildGenesis, List.forall₂_map_right_iff, List.forall₂_same]
  constructor
  · intro h x hx
    exact (hreads x hx).mp (h x hx).2
  · intro h x hx
    exact ⟨rfl, (hreads x hx).mpr (h x hx)⟩

end EestReplay.Chainspec
