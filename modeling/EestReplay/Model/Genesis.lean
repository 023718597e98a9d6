import EestReplay.Model.Buildoor
import EestReplay.Model.Lower
import EestReplay.Library.Dict

/-! # Genesis files

`chainspec.py`, which builds one from a fixture, and `devnet_genesis.py`, which builds one
for a fork. -/

namespace EestReplay

/-- `Bytes` of `execution_testing` -/
abbrev Bytes := List UInt8

/-- `str(value)` of bytes: two digits for each, behind `0x`. -/
def Bytes.str (bytes : Bytes) : String :=
  "0x" ++ String.ofList
    (bytes.flatMap fun b => [Nat.digitChar (b.toNat / 16), Nat.digitChar (b.toNat % 16)])

structure ForkBlobSchedule where
  targetBlobsPerBlock : ℕ
  maxBlobsPerBlock : ℕ
  baseFeeUpdateFraction : ℕ

structure FixtureConfig where
  chainId : ℕ
  blobSchedule : Option (List (String × ForkBlobSchedule)) := none

/-- An account of a pre-state; its storage maps slots to values. -/
structure Account where
  balance : ℕ
  nonce : ℕ := 0
  code : Bytes := []
  storage : List (ℕ × ℕ) := []

/-- A pre-state: a map of addresses, in which an account may be null. -/
structure Alloc (A : Type) where
  root : List (A × Option Account)
  addresses_nodup : (root.map Prod.fst).Nodup
  slots_nodup : ∀ address account, (address, some account) ∈ root →
    (account.storage.map Prod.fst).Nodup

/-- The pre-state without accounts. -/
def Alloc.empty {A : Type} : Alloc A where
  root := []
  addresses_nodup := List.nodup_nil
  slots_nodup := fun _ _ h => absurd h List.not_mem_nil

/-- `FixtureHeader`, with the fields that a genesis file states. -/
structure FixtureHeader (H A : Type) where
  nonce : Bytes
  timestamp : ℕ
  extraData : Bytes
  gasLimit : ℕ
  difficulty : ℕ
  prevRandao : H
  feeRecipient : A
  baseFeePerGas : Option ℕ := none
  blobGasUsed : Option ℕ := none
  excessBlobGas : Option ℕ := none
  parentBeaconBlockRoot : Option H := none
  withdrawalsRoot : Option H := none
  requestsHash : Option H := none
  blockAccessListHash : Option H := none
  slotNumber : Option ℕ := none

/-- `BlockchainEngineFixture`, with all that a replay reads. -/
structure BlockchainEngineFixture (H A V : Type) extends EngineFixture H A V where
  fork : String
  config : FixtureConfig
  pre : Alloc A
  genesis : FixtureHeader H A

namespace Chainspec

open Dict

def preMergeBlockForks : List String :=
  ["homesteadBlock", "eip150Block", "eip155Block", "eip158Block", "byzantiumBlock",
    "constantinopleBlock", "petersburgBlock", "istanbulBlock", "muirGlacierBlock", "berlinBlock",
    "londonBlock", "arrowGlacierBlock", "grayGlacierBlock", "mergeNetsplitBlock"]

def timestampForks : List (String × String) :=
  [("shanghaiTime", "Shanghai"), ("cancunTime", "Cancun"), ("pragueTime", "Prague"),
    ("osakaTime", "Osaka"), ("bpo1Time", "BPO1"), ("bpo2Time", "BPO2"),
    ("amsterdamTime", "Amsterdam")]

/-- `_hex` -/
def hex (value : Buildoor.HexArg) : String := Buildoor.hex value

/-- `_addr` -/
def addrText (s : String) : String := if Text.startsWith s "0x" then s else "0x" ++ s

/-- The part of `config` that both builders start from. -/
def baseConfig (chainId : ℤ) : List (String × Json) :=
  preMergeBlockForks.foldl (fun config fork => setItem fork (.int 0) config)
    [("chainId", .int chainId), ("terminalTotalDifficulty", .int 0),
      ("terminalTotalDifficultyPassed", .bool true),
      ("depositContractAddress", .str "0x00000000219ab540356cbb839cbe05303d7705fa")]

/-- The loop over the timestamp forks, which a match ends. -/
def activateUntil (targetFork : String) :
    List (String × String) → List (String × Json) → List (String × Json)
  | [], config => config
  | (timeKey, forkName) :: forks, config =>
    let config := setItem timeKey (.int 0) config
    if forkName = targetFork then config else activateUntil targetFork forks config

def blobScheduleEntry (schedule : ForkBlobSchedule) : Json :=
  .obj
    [("target", .int schedule.targetBlobsPerBlock), ("max", .int schedule.maxBlobsPerBlock),
      ("baseFeeUpdateFraction", .int schedule.baseFeeUpdateFraction)]

/-- `name.lower()` -/
def lowerName (name : String) : String := String.ofList (Text.lower name.toList)

/-- The `config` object of `build_genesis`. -/
def genesisConfig (config : FixtureConfig) (targetFork : String) : List (String × Json) :=
  let activated := activateUntil targetFork timestampForks (baseConfig config.chainId)
  match config.blobSchedule with
  | some schedule =>
    setItem "blobSchedule"
      (.obj (fromItems (schedule.map fun x => (lowerName x.1, blobScheduleEntry x.2)))) activated
  | none => activated

/-- `_alloc_entry` -/
def allocEntry (account : Account) : Json :=
  .obj <|
    [("balance", .str (hex (.int account.balance)))] ++
    (if account.nonce ≠ 0 then [("nonce", .str (hex (.int account.nonce)))] else []) ++
    (if account.code ≠ [] then [("code", .str (hex (.other (Bytes.str account.code))))] else []) ++
    (if account.storage ≠ [] then
      [("storage", .obj (fromItems (account.storage.map fun x =>
        (hex (.int x.1), .str (hex (.int x.2))))))]
    else [])

variable {H A V : Type} (hash : FixedBytes H) (addr : FixedBytes A)

/-- The loop over the accounts of a fixture. -/
def allocLoop : List (A × Option Account) → List (String × Json) → List (String × Json)
  | [], alloc => alloc
  | (_, none) :: accounts, alloc => allocLoop accounts alloc
  | (address, some account) :: accounts, alloc =>
    allocLoop accounts (setItem (addrText (addr.str address)) (allocEntry account) alloc)

/-- `if value is not None: genesis[key] = _hex(value)` -/
def optionalField (key : String) (value : Option Buildoor.HexArg) : List (String × Json) :=
  match value with
  | some value => [(key, .str (hex value))]
  | none => []

/-- `build_genesis` -/
def buildGenesis (fixture : BlockchainEngineFixture H A V) : Json :=
  let header := fixture.genesis
  let hashArg (h : H) : Buildoor.HexArg := .other (hash.str h)
  .obj <|
    [("config", .obj (genesisConfig fixture.config fixture.fork)),
      ("nonce", .str (hex (.other (Bytes.str header.nonce)))),
      ("timestamp", .str (hex (.int header.timestamp))),
      ("extraData",
        .str (if header.extraData ≠ [] then hex (.other (Bytes.str header.extraData)) else "0x")),
      ("gasLimit", .str (hex (.int header.gasLimit))),
      ("difficulty", .str (hex (.int header.difficulty))),
      ("mixHash", .str (hex (hashArg header.prevRandao))),
      ("coinbase", .str (hex (.other (addr.str header.feeRecipient)))),
      ("alloc", .obj (allocLoop addr fixture.pre.root []))] ++
    optionalField "baseFeePerGas" (header.baseFeePerGas.map .int) ++
    optionalField "blobGasUsed" (header.blobGasUsed.map .int) ++
    optionalField "excessBlobGas" (header.excessBlobGas.map .int) ++
    optionalField "parentBeaconBlockRoot" (header.parentBeaconBlockRoot.map hashArg) ++
    optionalField "withdrawalsRoot" (header.withdrawalsRoot.map hashArg) ++
    optionalField "requestsHash" (header.requestsHash.map hashArg) ++
    optionalField "blockAccessListHash" (header.blockAccessListHash.map hashArg) ++
    optionalField "slotNumber" (header.slotNumber.map .int)

end Chainspec

namespace DevnetGenesis

open Chainspec Dict

/-- `_BLOB_SCHEDULE` -/
def blobSchedule : List (String × Json) :=
  [("cancun", blobScheduleEntry ⟨3, 6, 3338477⟩), ("prague", blobScheduleEntry ⟨6, 9, 5007716⟩),
    ("osaka", blobScheduleEntry ⟨6, 9, 5007716⟩), ("bpo1", blobScheduleEntry ⟨10, 15, 8346193⟩),
    ("bpo2", blobScheduleEntry ⟨14, 21, 11684671⟩),
    ("amsterdam", blobScheduleEntry ⟨14, 21, 11684671⟩)]

def emptyWithdrawalsRoot : String :=
  "0x56e81f171bcc55a6ff8345e692c0f86e5b48e01b996cadc001622fb5e363b421"

def emptyRequestsHash : String :=
  "0xe3b0c44298fc1c149afbf4c8996fb92427ae41e4649b934ca495991b7852b855"

def emptyBalHash : String :=
  "0x1dcc4de8dec75d7aab85b567b6ccd41ad312451b948a7413f0a142fd40d49347"

def zeroHash : String := "0x" ++ String.ofList (List.replicate 64 '0')

/-- `_fork_index`, with `none` for -1. -/
def forkIndex (fork : String) : Option ℕ := timestampForks.findIdx? fun x => x.2 = fork

/-- The loop over the timestamp forks, which the index of the target bounds. -/
def activateTo (targetIdx : ℕ) : ℕ → List (String × String) →
    List (String × Json) × List (String × Json) → List (String × Json) × List (String × Json)
  | _, [], acc => acc
  | i, (timeKey, name) :: forks, (config, schedule) =>
    if i > targetIdx then (config, schedule)
    else
      let config := setItem timeKey (.int 0) config
      match blobSchedule.lookup (lowerName name) with
      | some entry => activateTo targetIdx (i + 1) forks (config, setItem (lowerName name) entry schedule)
      | none => activateTo targetIdx (i + 1) forks (config, schedule)

/-- The `config` object of `build_devnet_genesis`. -/
def devnetConfig (chainId : ℤ) (targetIdx : ℕ) : List (String × Json) :=
  let (config, schedule) := activateTo targetIdx 0 timestampForks (baseConfig chainId, [])
  if schedule ≠ [] then setItem "blobSchedule" (.obj schedule) config else config

/-- The header fields that Amsterdam adds. -/
def amsterdamFields (targetIdx : ℕ) : List (String × Json) :=
  match forkIndex "Amsterdam" with
  | some amsterdamIdx =>
    if targetIdx ≥ amsterdamIdx then
      [("withdrawalsRoot", .str emptyWithdrawalsRoot), ("requestsHash", .str emptyRequestsHash),
        ("blockAccessListHash", .str emptyBalHash), ("slotNumber", .str "0x0")]
    else []
  | none => []

/-- `build_devnet_genesis`. The text of its error shows the fork as `repr` prints it. -/
def buildDevnetGenesis (repr : String → String) (fork : String) (chainId : ℤ)
    (prefunded : List (String × ℕ)) (gasLimit : ℕ := 0x17D7840) : Except PyError Json :=
  match forkIndex fork with
  | none =>
    .error ⟨.valueError, "unknown or pre-merge fork " ++ repr fork ++ "; expected one of [" ++
      ", ".intercalate (timestampForks.map fun x => repr x.2) ++ "]"⟩
  | some targetIdx =>
    .ok <| .obj <|
      [("config", .obj (devnetConfig chainId targetIdx)), ("nonce", .str "0x0"),
        ("timestamp", .str "0x0"), ("extraData", .str "0x"), ("gasLimit", .str (Text.hex gasLimit)),
        ("difficulty", .str "0x0"), ("mixHash", .str zeroHash),
        ("coinbase", .str "0x0000000000000000000000000000000000000000"),
        ("alloc", .obj (fromItems (prefunded.map fun x =>
          (addrText x.1, .obj [("balance", .str (Text.hex x.2))])))),
        ("baseFeePerGas", .str "0x7"), ("blobGasUsed", .str "0x0"), ("excessBlobGas", .str "0x0"),
        ("parentBeaconBlockRoot", .str zeroHash)] ++
      amsterdamFields targetIdx

end DevnetGenesis

end EestReplay
