import EestReplay.Model.Genesis
import EestReplay.Verification.Text.Numerals

/-! # Reading a genesis back

A reader of genesis files, and that it recovers the pre-state and the header of the fixture
that a genesis was built from. -/

namespace EestReplay.Chainspec

open Dict Digits

variable {H A V : Type} {hash : FixedBytes H} {addr : FixedBytes A}

/-! ## The reader -/

/-- A natural number in hex. -/
def readNumber (value : Json) : Except PyError ℕ := do
  let n ← hexInt value
  if 0 ≤ n then return n.toNat else throw ⟨.valueError, "negative"⟩

def readBytes : Json → Except PyError Bytes
  | .str s =>
    if Text.startsWith s "0x" then
      (Text.fromHexChars (s.toList.drop 2)).map fun bytes => bytes.map UInt8.ofNat
    else .error ⟨.valueError, "no hex prefix"⟩
  | _ => .error ⟨.typeError, "bytes are a string"⟩

/-- A hash or an address. -/
def readFixed (codec : FixedBytes H) : Json → Except PyError H
  | .str s => .ok (codec.ofHex s)
  | _ => .error ⟨.typeError, "a hash is a string"⟩

/-- A field that stands for a default when it is missing. -/
def readDefault {α : Type} (read : Json → Except PyError α) (default : α) (value : Option Json) :
    Except PyError α :=
  match value with
  | some value => read value
  | none => .ok default

/-- A field that may be missing. -/
def readOptional {α : Type} (read : Json → Except PyError α) (value : Option Json) :
    Except PyError (Option α) :=
  match value with
  | some value => (read value).map some
  | none => .ok none

/-- The items of an object, in their order. -/
def readItems {K α : Type} (readKey : Json → Except PyError K) (read : Json → Except PyError α) :
    List (String × Json) → Except PyError (List (K × α))
  | [] => .ok []
  | (key, value) :: items => do
    let key ← readKey (.str key)
    let value ← read value
    let items ← readItems readKey read items
    return (key, value) :: items

def readStorage : Json → Except PyError (List (ℕ × ℕ))
  | .obj fields => readItems readNumber readNumber fields
  | _ => .error ⟨.typeError, "storage is an object"⟩

def readAccount : Json → Except PyError Account
  | .obj fields => do
    let balance ← readNumber (← Json.item "balance" (.obj fields))
    let nonce ← readDefault readNumber 0 (fields.lookup "nonce")
    let code ← readDefault readBytes [] (fields.lookup "code")
    let storage ← readDefault readStorage [] (fields.lookup "storage")
    return ⟨balance, nonce, code, storage⟩
  | _ => .error ⟨.typeError, "an account is an object"⟩

def readAlloc (addr : FixedBytes A) : Json → Except PyError (List (A × Account))
  | .obj fields => readItems (readFixed addr) readAccount fields
  | _ => .error ⟨.typeError, "alloc is an object"⟩

def readHeader (hash : FixedBytes H) (addr : FixedBytes A) (fields : List (String × Json)) :
    Except PyError (FixtureHeader H A) := do
  let nonce ← readBytes (← Json.item "nonce" (.obj fields))
  let timestamp ← readNumber (← Json.item "timestamp" (.obj fields))
  let extraData ← readBytes (← Json.item "extraData" (.obj fields))
  let gasLimit ← readNumber (← Json.item "gasLimit" (.obj fields))
  let difficulty ← readNumber (← Json.item "difficulty" (.obj fields))
  let prevRandao ← readFixed hash (← Json.item "mixHash" (.obj fields))
  let feeRecipient ← readFixed addr (← Json.item "coinbase" (.obj fields))
  let baseFeePerGas ← readOptional readNumber (fields.lookup "baseFeePerGas")
  let blobGasUsed ← readOptional readNumber (fields.lookup "blobGasUsed")
  let excessBlobGas ← readOptional readNumber (fields.lookup "excessBlobGas")
  let parentBeaconBlockRoot ←
    readOptional (readFixed hash) (fields.lookup "parentBeaconBlockRoot")
  let withdrawalsRoot ← readOptional (readFixed hash) (fields.lookup "withdrawalsRoot")
  let requestsHash ← readOptional (readFixed hash) (fields.lookup "requestsHash")
  let blockAccessListHash ← readOptional (readFixed hash) (fields.lookup "blockAccessListHash")
  let slotNumber ← readOptional readNumber (fields.lookup "slotNumber")
  return {
    nonce := nonce
    timestamp := timestamp
    extraData := extraData
    gasLimit := gasLimit
    difficulty := difficulty
    prevRandao := prevRandao
    feeRecipient := feeRecipient
    baseFeePerGas := baseFeePerGas
    blobGasUsed := blobGasUsed
    excessBlobGas := excessBlobGas
    parentBeaconBlockRoot := parentBeaconBlockRoot
    withdrawalsRoot := withdrawalsRoot
    requestsHash := requestsHash
    blockAccessListHash := blockAccessListHash
    slotNumber := slotNumber }

/-- The accounts and the header that a genesis file states. -/
def readGenesis (hash : FixedBytes H) (addr : FixedBytes A) :
    Json → Except PyError (List (A × Account) × FixtureHeader H A)
  | .obj fields => do
    let accounts ← readAlloc addr (← Json.item "alloc" (.obj fields))
    let header ← readHeader hash addr fields
    return (accounts, header)
  | _ => .error ⟨.typeError, "a genesis is an object"⟩

/-! ## Values -/

@[simp] theorem ok_bind {α β : Type} (a : α) (f : α → Except PyError β) :
    (Except.ok a >>= f) = f a := rfl

@[simp] theorem hex_int (n : ℕ) : hex (.int n) = Text.hex n := rfl

theorem hex_other {s : String} (h : Text.startsWith s "0x" = true) : hex (.other s) = s := by
  simp [hex, Buildoor.hex, h]

@[simp] theorem hex_fixed (codec : FixedBytes H) (h : H) : hex (.other (codec.str h)) = codec.str h :=
  hex_other (codec.hexPrefixed h)

theorem startsWith_bytes (bytes : Bytes) : Text.startsWith (Bytes.str bytes) "0x" = true := by
  simp [Text.startsWith, Bytes.str]

@[simp] theorem hex_bytes (bytes : Bytes) : hex (.other (Bytes.str bytes)) = Bytes.str bytes :=
  hex_other (startsWith_bytes bytes)

@[simp] theorem readNumber_hex (n : ℕ) : readNumber (.str (Text.hex n)) = .ok n := by
  have hint : hexInt (.str (Text.hex n)) = .ok (n : ℤ) := Text.int_hex n
  unfold readNumber
  rw [hint]
  show (if (0 : ℤ) ≤ n then (pure (n : ℤ).toNat : Except PyError ℕ)
    else throw ⟨.valueError, "negative"⟩) = .ok n
  rw [if_pos (Int.natCast_nonneg n), Int.toNat_natCast]
  rfl

@[simp] theorem readFixed_str (codec : FixedBytes H) (h : H) :
    readFixed codec (.str (codec.str h)) = .ok h := by
  simp [readFixed, codec.ofHex_str]

/-- The two digits of a byte read as that byte. -/
theorem fromHexChars_byte (b : UInt8) (cs : List Char) :
    Text.fromHexChars (Nat.digitChar (b.toNat / 16) :: Nat.digitChar (b.toNat % 16) :: cs) =
      (Text.fromHexChars cs).map (b.toNat :: ·) := by
  have hlt : b.toNat < 256 := b.toNat_lt
  have hhi : b.toNat / 16 < 16 := by omega
  have hlo : b.toNat % 16 < 16 := Nat.mod_lt _ (by decide)
  have hspace : ∀ d < 16, Text.isSpace (Nat.digitChar d) = false := by decide
  have hsplit : b.toNat / 16 * 16 + b.toNat % 16 = b.toNat := Nat.div_add_mod' _ _
  rw [Text.fromHexChars, if_neg (by simp [hspace _ hhi]), digit_digitChar (by decide) hhi,
    digit_digitChar (by decide) hlo]
  simp only [hsplit]

@[simp] theorem readBytes_str (bytes : Bytes) : readBytes (.str (Bytes.str bytes)) = .ok bytes := by
  have hchars : Text.fromHexChars
      (bytes.flatMap fun b => [Nat.digitChar (b.toNat / 16), Nat.digitChar (b.toNat % 16)]) =
        .ok (bytes.map UInt8.toNat) := by
    induction bytes with
    | nil => rfl
    | cons b bytes ih =>
        rw [List.flatMap_cons, List.cons_append, List.cons_append, List.nil_append,
          fromHexChars_byte, ih]
        rfl
  have hdrop : (Bytes.str bytes).toList.drop 2 =
      bytes.flatMap fun b => [Nat.digitChar (b.toNat / 16), Nat.digitChar (b.toNat % 16)] := by
    simp [Bytes.str]
  have hbyte : UInt8.ofNat ∘ UInt8.toNat = id := by
    funext b
    exact UInt8.ofNat_toNat
  rw [readBytes, if_pos (startsWith_bytes bytes), hdrop, hchars]
  simp [Except.map, hbyte]

/-! ## Accounts -/

/-- Items whose keys and values are read back are read back in their order. -/
theorem readItems_map {K α : Type} {readKey : Json → Except PyError K}
    {read : Json → Except PyError α} {key : K → String} {value : α → Json} {items : List (K × α)}
    (hkey : ∀ k, readKey (.str (key k)) = .ok k) (hvalue : ∀ x ∈ items, read (value x.2) = .ok x.2) :
    readItems readKey read (items.map fun x => (key x.1, value x.2)) = .ok items := by
  induction items with
  | nil => rfl
  | cons x items ih =>
      obtain ⟨k, a⟩ := x
      have hrest := ih fun y hy => hvalue y (List.mem_cons_of_mem _ hy)
      have hfirst : read (value a) = .ok a := hvalue (k, a) List.mem_cons_self
      rw [List.map_cons, readItems, hkey, hfirst, hrest]
      rfl

/-- Keys that print differently make a dictionary of all their items. -/
theorem fromItems_map {K α β : Type} {key : K → String} {value : α → β} {items : List (K × α)}
    (hkey : Function.Injective key) (h : (items.map Prod.fst).Nodup) :
    fromItems (items.map fun x => (key x.1, value x.2)) =
      items.map fun x => (key x.1, value x.2) := by
  apply fromItems_of_nodup
  have hkeys : keys (items.map fun x => (key x.1, value x.2)) = (items.map Prod.fst).map key := by
    simp [keys]
  rw [hkeys]
  exact h.map hkey

theorem hex_injective : Function.Injective Text.hex := by
  intro m n h
  have hread := congrArg (fun s => readNumber (.str s)) h
  simpa using hread

theorem readStorage_fromItems {storage : List (ℕ × ℕ)} (h : (storage.map Prod.fst).Nodup) :
    readStorage (.obj (fromItems (storage.map fun x =>
      (hex (.int x.1), .str (hex (.int x.2)))))) = .ok storage := by
  let value (n : ℕ) : Json := .str (hex (.int n))
  have hitems : fromItems (storage.map fun x => (Text.hex x.1, value x.2)) =
      storage.map fun x => (Text.hex x.1, value x.2) := fromItems_map hex_injective h
  have hread : ∀ x ∈ storage, readNumber (value x.2) = .ok x.2 := fun x _ => readNumber_hex x.2
  show readStorage (.obj (fromItems (storage.map fun x => (Text.hex x.1, value x.2)))) = .ok storage
  rw [hitems]
  exact readItems_map readNumber_hex hread

theorem readAccount_allocEntry {account : Account} (h : (account.storage.map Prod.fst).Nodup) :
    readAccount (allocEntry account) = .ok account := by
  obtain ⟨balance, nonce, code, storage⟩ := account
  have hstorage := readStorage_fromItems h
  unfold allocEntry
  dsimp only at hstorage ⊢
  generalize hslots : Json.obj (fromItems (storage.map fun x =>
    (hex (.int x.1), Json.str (hex (.int x.2))))) = slots at hstorage ⊢
  generalize hfields : [("balance", Json.str (hex (.int balance)))] ++
    (if nonce ≠ 0 then [("nonce", Json.str (hex (.int nonce)))] else []) ++
    (if code ≠ [] then [("code", Json.str (hex (.other (Bytes.str code))))] else []) ++
    (if storage ≠ [] then [("storage", slots)] else []) = fields
  have hlookup : fields.lookup "balance" = some (.str (Text.hex balance)) ∧
      fields.lookup "nonce" = (if nonce ≠ 0 then some (.str (Text.hex nonce)) else none) ∧
      fields.lookup "code" = (if code ≠ [] then some (.str (Bytes.str code)) else none) ∧
      fields.lookup "storage" = if storage ≠ [] then some slots else none := by
    simp only [← hfields, List.lookup_append, lookup_ite, lookup_cons, List.lookup_nil,
      String.reduceEq, and_true, and_false, if_false, if_true, Option.none_or, Option.or_none,
      hex_int, hex_bytes]
  obtain ⟨hbalance, hnonce, hcode, hslots⟩ := hlookup
  have hreadNonce : readDefault readNumber 0 (fields.lookup "nonce") = .ok nonce := by
    rw [hnonce]
    by_cases hzero : nonce = 0 <;> simp [readDefault, hzero]
  have hreadCode : readDefault readBytes [] (fields.lookup "code") = .ok code := by
    rw [hcode]
    by_cases hnil : code = [] <;> simp [readDefault, hnil]
  have hreadSlots : readDefault readStorage [] (fields.lookup "storage") = .ok storage := by
    rw [hslots]
    by_cases hnil : storage = [] <;> simp [readDefault, hnil, hstorage]
  have hitem : Json.item "balance" (.obj fields) = .ok (.str (Text.hex balance)) := by
    simp only [Json.item, hbalance]
  simp only [readAccount, hitem, ok_bind, readNumber_hex, hreadNonce, hreadCode, hreadSlots]
  rfl

/-- The accounts of a pre-state that are not null. -/
def nonNull (accounts : List (A × Option Account)) : List (A × Account) :=
  accounts.filterMap fun x => x.2.map fun account => (x.1, account)

theorem allocLoop_eq_update (accounts : List (A × Option Account)) (alloc : List (String × Json)) :
    allocLoop addr accounts alloc =
      update alloc ((nonNull accounts).map fun x => (addr.str x.1, allocEntry x.2)) := by
  induction accounts generalizing alloc with
  | nil => rfl
  | cons x accounts ih =>
      obtain ⟨address, account⟩ := x
      cases account with
      | none => exact ih alloc
      | some account =>
          have htext : addrText (addr.str address) = addr.str address := by
            simp [addrText, addr.hexPrefixed]
          rw [allocLoop, htext, ih]
          rfl

theorem mem_nonNull {accounts : List (A × Option Account)} {x : A × Account} :
    x ∈ nonNull accounts ↔ (x.1, some x.2) ∈ accounts := by
  simp only [nonNull, List.mem_filterMap, Option.map_eq_some_iff]
  constructor
  · rintro ⟨⟨address, value⟩, hmem, account, hvalue, rfl⟩
    rw [← hvalue]
    exact hmem
  · intro h
    exact ⟨(x.1, some x.2), h, x.2, rfl, rfl⟩

theorem nonNull_nodup {accounts : List (A × Option Account)} (h : (accounts.map Prod.fst).Nodup) :
    ((nonNull accounts).map Prod.fst).Nodup := by
  have hsub : ((nonNull accounts).map Prod.fst).Sublist (accounts.map Prod.fst) := by
    induction accounts with
    | nil => exact List.Sublist.slnil
    | cons x accounts ih =>
        obtain ⟨hx, hrest⟩ := List.nodup_cons.mp h
        obtain ⟨address, account⟩ := x
        cases account with
        | none => exact (ih hrest).cons _
        | some account => exact (ih hrest).cons_cons _
  exact hsub.nodup h

theorem str_injective (codec : FixedBytes H) : Function.Injective codec.str := by
  intro g h heq
  have hread := congrArg codec.ofHex heq
  rwa [codec.ofHex_str, codec.ofHex_str] at hread

theorem readAlloc_allocLoop (pre : Alloc A) :
    readAlloc addr (.obj (allocLoop addr pre.root [])) = .ok (nonNull pre.root) := by
  have hitems : fromItems ((nonNull pre.root).map fun x => (addr.str x.1, allocEntry x.2)) =
      (nonNull pre.root).map fun x => (addr.str x.1, allocEntry x.2) :=
    fromItems_map (str_injective addr) (nonNull_nodup pre.addresses_nodup)
  have hread : ∀ x ∈ nonNull pre.root, readAccount (allocEntry x.2) = .ok x.2 :=
    fun x hx => readAccount_allocEntry (pre.slots_nodup x.1 x.2 (mem_nonNull.mp hx))
  rw [allocLoop_eq_update]
  show readAlloc addr (.obj (fromItems _)) = _
  rw [hitems]
  exact readItems_map (readFixed_str addr) hread

/-! ## The header -/

theorem lookup_optionalField {k key : String} {value : Option Buildoor.HexArg} :
    (optionalField key value).lookup k =
      if k = key then value.map fun value => .str (hex value) else none := by
  cases value with
  | none => simp [optionalField]
  | some value => simp [optionalField, lookup_cons]

theorem readOptional_number (value : Option ℕ) :
    readOptional readNumber ((value.map Buildoor.HexArg.int).map fun value => .str (hex value)) =
      .ok value := by
  cases value with
  | none => rfl
  | some n => simp [readOptional, Except.map]

theorem readOptional_fixed (codec : FixedBytes H) (value : Option H) :
    readOptional (readFixed codec)
        ((value.map fun h => Buildoor.HexArg.other (codec.str h)).map fun value =>
          .str (hex value)) = .ok value := by
  cases value with
  | none => rfl
  | some h => simp [readOptional, Except.map]

/-- The fields of a genesis as a reader finds them. -/
structure States (hash : FixedBytes H) (addr : FixedBytes A) (header : FixtureHeader H A)
    (fields : List (String × Json)) : Prop where
  nonce : fields.lookup "nonce" = some (.str (Bytes.str header.nonce))
  timestamp : fields.lookup "timestamp" = some (.str (Text.hex header.timestamp))
  extraData : fields.lookup "extraData" = some (.str (Bytes.str header.extraData))
  gasLimit : fields.lookup "gasLimit" = some (.str (Text.hex header.gasLimit))
  difficulty : fields.lookup "difficulty" = some (.str (Text.hex header.difficulty))
  mixHash : fields.lookup "mixHash" = some (.str (hash.str header.prevRandao))
  coinbase : fields.lookup "coinbase" = some (.str (addr.str header.feeRecipient))
  baseFeePerGas : fields.lookup "baseFeePerGas" =
    (header.baseFeePerGas.map Buildoor.HexArg.int).map fun value => .str (hex value)
  blobGasUsed : fields.lookup "blobGasUsed" =
    (header.blobGasUsed.map Buildoor.HexArg.int).map fun value => .str (hex value)
  excessBlobGas : fields.lookup "excessBlobGas" =
    (header.excessBlobGas.map Buildoor.HexArg.int).map fun value => .str (hex value)
  parentBeaconBlockRoot : fields.lookup "parentBeaconBlockRoot" =
    (header.parentBeaconBlockRoot.map fun h => Buildoor.HexArg.other (hash.str h)).map
      fun value => .str (hex value)
  withdrawalsRoot : fields.lookup "withdrawalsRoot" =
    (header.withdrawalsRoot.map fun h => Buildoor.HexArg.other (hash.str h)).map
      fun value => .str (hex value)
  requestsHash : fields.lookup "requestsHash" =
    (header.requestsHash.map fun h => Buildoor.HexArg.other (hash.str h)).map
      fun value => .str (hex value)
  blockAccessListHash : fields.lookup "blockAccessListHash" =
    (header.blockAccessListHash.map fun h => Buildoor.HexArg.other (hash.str h)).map
      fun value => .str (hex value)
  slotNumber : fields.lookup "slotNumber" =
    (header.slotNumber.map Buildoor.HexArg.int).map fun value => .str (hex value)

theorem readHeader_of_states {header : FixtureHeader H A} {fields : List (String × Json)}
    (h : States hash addr header fields) : readHeader hash addr fields = .ok header := by
  simp only [readHeader, Json.item, h.nonce, h.timestamp, h.extraData, h.gasLimit, h.difficulty,
    h.mixHash, h.coinbase, h.baseFeePerGas, h.blobGasUsed, h.excessBlobGas,
    h.parentBeaconBlockRoot, h.withdrawalsRoot, h.requestsHash, h.blockAccessListHash, h.slotNumber,
    ok_bind, readBytes_str, readNumber_hex, readFixed_str, readOptional_number, readOptional_fixed]
  rfl

theorem states_buildGenesis (hash : FixedBytes H) (addr : FixedBytes A)
    (fixture : BlockchainEngineFixture H A V) :
    ∃ fields, buildGenesis hash addr fixture = .obj fields ∧
      fields.lookup "alloc" = some (.obj (allocLoop addr fixture.pre.root [])) ∧
      States hash addr fixture.genesis fields := by
  have hextra : (if fixture.genesis.extraData ≠ [] then
      hex (.other (Bytes.str fixture.genesis.extraData)) else "0x") =
        Bytes.str fixture.genesis.extraData := by
    by_cases hnil : fixture.genesis.extraData = []
    · rw [hnil]
      rfl
    · rw [if_pos hnil, hex_bytes]
  unfold buildGenesis
  dsimp only
  rw [hextra]
  refine ⟨_, rfl, ?_, ?_⟩
  · simp only [List.lookup_append, lookup_cons, String.reduceEq, if_false, if_true, Option.some_or]
  · constructor <;>
    simp only [List.lookup_append, lookup_cons, List.lookup_nil, lookup_optionalField,
      String.reduceEq, if_false, if_true, Option.none_or, Option.or_none, hex_int, hex_bytes,
      hex_fixed]

/-- Reading a generated genesis back yields the accounts of the fixture that are not null,
and its header, with an optional field exactly where the fixture has it. -/
theorem readGenesis_buildGenesis (fixture : BlockchainEngineFixture H A V) :
    readGenesis hash addr (buildGenesis hash addr fixture) =
      .ok (nonNull fixture.pre.root, fixture.genesis) := by
  obtain ⟨fields, hfields, halloc, hstates⟩ :=
    states_buildGenesis hash addr fixture
  have hitem : Json.item "alloc" (.obj fields) =
      .ok (.obj (allocLoop addr fixture.pre.root [])) := by
    simp only [Json.item, halloc]
  rw [hfields]
  simp only [readGenesis, hitem, ok_bind, readAlloc_allocLoop, readHeader_of_states hstates]
  rfl

end EestReplay.Chainspec
