import EestReplay.Library.Through
import EestReplay.Model.Genesis
import EestReplay.Verification.Build.Attributes

/-! # The forks of a genesis

Which timestamp forks the two builders activate. One of them stops at a match, the other
at an index, and only a name of the table stops the first. -/

namespace EestReplay.Chainspec

open Dict DevnetGenesis Simbuild Through

variable {H A V : Type} {hash : FixedBytes H} {addr : FixedBytes A}

/-! ## The loops -/

/-- The entries of a table up to and including a name. -/
def upTo (name : String) (forks : List (String × String)) : List (String × String) :=
  through (fun fork => fork.2 = name) forks

theorem mem_keys_activateUntil {targetFork timeKey : String} {forks : List (String × String)}
    {config : List (String × Json)} :
    timeKey ∈ keys (activateUntil targetFork forks config) ↔
      timeKey ∈ (upTo targetFork forks).map Prod.fst ∨ timeKey ∈ keys config := by
  induction forks generalizing config with
  | nil => simp [activateUntil, upTo, through]
  | cons fork forks ih =>
      obtain ⟨key, name⟩ := fork
      unfold activateUntil
      by_cases hname : name = targetFork
      · simp [hname, upTo, through, mem_keys_setItem]
      · have hcons : upTo targetFork ((key, name) :: forks) = (key, name) :: upTo targetFork forks := by
          simp [upTo, through, hname]
        simp only [if_neg hname, ih, hcons, mem_keys_setItem, List.map_cons, List.mem_cons]
        tauto

theorem mem_keys_activateTo {targetIdx i : ℕ} {timeKey : String} {forks : List (String × String)}
    {acc : List (String × Json) × List (String × Json)} :
    timeKey ∈ keys (activateTo targetIdx i forks acc).1 ↔
      timeKey ∈ (forks.take (targetIdx + 1 - i)).map Prod.fst ∨ timeKey ∈ keys acc.1 := by
  induction forks generalizing i acc with
  | nil => simp [activateTo]
  | cons fork forks ih =>
      obtain ⟨key, name⟩ := fork
      obtain ⟨config, schedule⟩ := acc
      unfold activateTo
      by_cases hi : i > targetIdx
      · have hnone : targetIdx + 1 - i = 0 := by omega
        simp [hi, hnone]
      · have hsome : targetIdx + 1 - i = targetIdx + 1 - (i + 1) + 1 := by omega
        have hstep : ∀ schedule' : List (String × Json),
            timeKey ∈ keys (activateTo targetIdx (i + 1) forks
              (setItem key (.int 0) config, schedule')).1 ↔
              (timeKey = key ∨ timeKey ∈ (forks.take (targetIdx + 1 - (i + 1))).map Prod.fst) ∨
                timeKey ∈ keys config := by
          intro schedule'
          rw [ih, mem_keys_setItem]
          tauto
        rw [if_neg hi, hsome, List.take_succ_cons, List.map_cons, List.mem_cons]
        cases hlookup : blobSchedule.lookup (lowerName name) with
        | some entry => exact hstep _
        | none => exact hstep _

/-! ## The configs -/

def timeKeys : List String := timestampForks.map Prod.fst

def forkNames : List String := timestampForks.map Prod.snd

theorem timeKeys_nodup : timeKeys.Nodup := by decide

theorem forkNames_nodup : forkNames.Nodup := by decide

/-- What stands in a config before any timestamp fork is activated. -/
theorem not_mem_baseConfig {timeKey : String} (h : timeKey ∈ timeKeys) (chainId : ℤ) :
    timeKey ∉ keys (baseConfig chainId) := by
  have hkeys : ∀ timeKey ∈ timeKeys, ¬ (timeKey ∈ preMergeBlockForks ∨
      timeKey ∈ ["chainId", "terminalTotalDifficulty", "terminalTotalDifficultyPassed",
        "depositContractAddress"]) := by
    decide
  unfold baseConfig
  rw [mem_keys_foldl_setItem]
  exact hkeys timeKey h

theorem ne_blobSchedule {timeKey : String} (h : timeKey ∈ timeKeys) :
    timeKey ≠ "blobSchedule" := by
  rintro rfl
  revert h
  decide

theorem mem_keys_genesisConfig {timeKey : String} (h : timeKey ∈ timeKeys) (config : FixtureConfig)
    (targetFork : String) :
    timeKey ∈ keys (genesisConfig config targetFork) ↔
      timeKey ∈ (upTo targetFork timestampForks).map Prod.fst := by
  have hbase := not_mem_baseConfig h config.chainId
  unfold genesisConfig
  cases config.blobSchedule with
  | none => simp [mem_keys_activateUntil, hbase]
  | some schedule => simp [mem_keys_setItem, ne_blobSchedule h, mem_keys_activateUntil, hbase]

theorem mem_keys_devnetConfig {timeKey : String} (h : timeKey ∈ timeKeys) (chainId : ℤ)
    (targetIdx : ℕ) :
    timeKey ∈ keys (devnetConfig chainId targetIdx) ↔
      timeKey ∈ (timestampForks.take (targetIdx + 1)).map Prod.fst := by
  have hbase := not_mem_baseConfig h chainId
  have hloop : timeKey ∈ keys (activateTo targetIdx 0 timestampForks (baseConfig chainId, [])).1 ↔
      timeKey ∈ (timestampForks.take (targetIdx + 1)).map Prod.fst := by
    simp [mem_keys_activateTo, hbase]
  unfold devnetConfig
  dsimp only
  split
  · rw [mem_keys_setItem, hloop]
    simp [ne_blobSchedule h]
  · exact hloop

/-! ## The genesis -/

/-- The items of the `config` object of a genesis. -/
def configFields (genesis : Json) : List (String × Json) :=
  match genesis.item "config" with
  | .ok (.obj fields) => fields
  | _ => []

/-- The timestamp forks that a genesis activates. -/
def activated (genesis : Json) : List String :=
  timeKeys.filter fun timeKey => timeKey ∈ keys (configFields genesis)

theorem filter_mem_take {α : Type} [DecidableEq α] {l : List α} (h : l.Nodup) (n : ℕ) :
    l.filter (· ∈ l.take n) = l.take n := by
  have hsplit := List.take_append_drop n l
  have hdisjoint : List.Disjoint (l.take n) (l.drop n) := by
    rw [← hsplit] at h
    exact List.disjoint_of_nodup_append h
  calc
    l.filter (· ∈ l.take n) = (l.take n ++ l.drop n).filter (· ∈ l.take n) := by rw [hsplit]
    _ = (l.take n).filter (· ∈ l.take n) ++ (l.drop n).filter (· ∈ l.take n) :=
      List.filter_append _ _
    _ = l.take n ++ [] := by
      congr 1
      · exact List.filter_eq_self.mpr (by simp)
      · exact List.filter_eq_nil_iff.mpr fun a ha hmem => hdisjoint (by simpa using hmem) ha
    _ = l.take n := List.append_nil _

/-- A config that holds the keys of the first entries activates exactly these. -/
theorem activated_eq_take {genesis : Json} {n : ℕ}
    (h : ∀ timeKey ∈ timeKeys, timeKey ∈ keys (configFields genesis) ↔
      timeKey ∈ (timestampForks.take n).map Prod.fst) :
    activated genesis = (timestampForks.take n).map Prod.fst := by
  have htake : (timestampForks.take n).map Prod.fst = timeKeys.take n := by
    rw [List.map_take]
    rfl
  rw [htake] at h ⊢
  calc
    activated genesis = timeKeys.filter (· ∈ timeKeys.take n) := by
      apply List.filter_congr
      intro timeKey hmem
      simpa using h timeKey hmem
    _ = timeKeys.take n := filter_mem_take timeKeys_nodup n

theorem configFields_buildGenesis (fixture : BlockchainEngineFixture H A V) :
    configFields (buildGenesis hash addr fixture) = genesisConfig fixture.config fixture.fork := rfl

theorem activated_buildGenesis {fixture : BlockchainEngineFixture H A V} {i : ℕ} {timeKey : String}
    (h : timestampForks[i]? = some (timeKey, fixture.fork)) :
    activated (buildGenesis hash addr fixture) = (timestampForks.take (i + 1)).map Prod.fst := by
  apply activated_eq_take
  intro key hkey
  have hupTo : upTo fixture.fork timestampForks = timestampForks.take (i + 1) :=
    through_key_eq_take forkNames_nodup h
  rw [configFields_buildGenesis, mem_keys_genesisConfig hkey, hupTo]

/-- A name outside the table activates all of it. -/
theorem activated_buildGenesis_of_not_mem {fixture : BlockchainEngineFixture H A V}
    (h : fixture.fork ∉ forkNames) :
    activated (buildGenesis hash addr fixture) = timeKeys := by
  have hall : activated (buildGenesis hash addr fixture) =
      (timestampForks.take timestampForks.length).map Prod.fst := by
    apply activated_eq_take
    intro key hkey
    have hupTo : upTo fixture.fork timestampForks = timestampForks := by
      apply through_of_forall_not
      intro fork hfork
      have hne : fork.2 ≠ fixture.fork := fun heq => h (heq ▸ List.mem_map_of_mem hfork)
      simpa using hne
    rw [configFields_buildGenesis, mem_keys_genesisConfig hkey, hupTo, List.take_length]
  rw [hall, List.take_length]
  rfl

theorem forkIndex_of_getElem? {i : ℕ} {timeKey fork : String}
    (h : timestampForks[i]? = some (timeKey, fork)) : forkIndex fork = some i := by
  have hlt : i < timestampForks.length := (List.getElem?_eq_some_iff.mp h).1
  have hall : ∀ i < timestampForks.length, ∀ x, timestampForks[i]? = some x →
      forkIndex x.2 = some i := by
    decide
  exact hall i hlt (timeKey, fork) h

theorem forkIndex_of_not_mem {fork : String} (h : fork ∉ forkNames) : forkIndex fork = none := by
  unfold forkIndex
  rw [List.findIdx?_eq_none_iff]
  intro x hx
  have hne : x.2 ≠ fork := fun heq => h (heq ▸ List.mem_map_of_mem hx)
  simpa using hne

/-! ## Both builders -/

variable {repr : String → String} {prefunded : List (String × ℕ)} {gasLimit : ℕ}

theorem buildDevnetGenesis_of_getElem? {i : ℕ} {timeKey fork : String}
    (h : timestampForks[i]? = some (timeKey, fork)) (chainId : ℤ) :
    ∃ genesis, buildDevnetGenesis repr fork chainId prefunded gasLimit = .ok genesis ∧
      activated genesis = (timestampForks.take (i + 1)).map Prod.fst := by
  unfold buildDevnetGenesis
  rw [forkIndex_of_getElem? h]
  refine ⟨_, rfl, ?_⟩
  apply activated_eq_take
  intro key hkey
  exact mem_keys_devnetConfig hkey chainId i

theorem buildDevnetGenesis_of_not_mem {fork : String} (h : fork ∉ forkNames) (chainId : ℤ) :
    ∃ e, buildDevnetGenesis repr fork chainId prefunded gasLimit = .error e := by
  unfold buildDevnetGenesis
  rw [forkIndex_of_not_mem h]
  exact ⟨_, rfl⟩

/-- The fork set that two builders activate for a name is the one asked for. -/
structure ExactForks (name : String) (fromFixture fromName : Except PyError Json) : Prop where
  inside : ∀ i timeKey, timestampForks[i]? = some (timeKey, name) →
    ∀ built ∈ [fromFixture, fromName], ∃ genesis, built = .ok genesis ∧
      activated genesis = (timestampForks.take (i + 1)).map Prod.fst
  outside : name ∉ forkNames → ∀ built ∈ [fromFixture, fromName], ∀ genesis,
    built = .ok genesis → activated genesis = []
  agree : fromFixture.isOk = fromName.isOk

/-- The builders activate what the name asks for exactly when it is a name of the table. -/
theorem exactForks_iff (fixture : BlockchainEngineFixture H A V) (chainId : ℤ) :
    ExactForks fixture.fork (.ok (buildGenesis hash addr fixture))
        (buildDevnetGenesis repr fixture.fork chainId prefunded gasLimit) ↔
      fixture.fork ∈ forkNames := by
  constructor
  · intro h
    by_contra hout
    have hnone := h.outside hout _ List.mem_cons_self _ rfl
    rw [activated_buildGenesis_of_not_mem hout] at hnone
    exact absurd hnone (by decide)
  · intro hmem
    obtain ⟨⟨timeKey, fork⟩, hfork, heq⟩ := List.mem_map.mp hmem
    obtain ⟨i, hi⟩ := List.mem_iff_getElem?.mp hfork
    obtain rfl : fork = fixture.fork := heq
    obtain ⟨genesis, hbuilt, -⟩ := buildDevnetGenesis_of_getElem? hi chainId
    refine ⟨?_, fun hout => absurd hmem hout, ?_⟩
    · intro j key hj built hbuilt
      rcases List.mem_cons.mp hbuilt with rfl | hbuilt
      · exact ⟨_, rfl, activated_buildGenesis hj⟩
      · obtain rfl := List.mem_singleton.mp hbuilt
        exact buildDevnetGenesis_of_getElem? hj chainId
    · rw [hbuilt]
      rfl

/-- A fixture of a fork that `getPayload` supports and the table does not hold. -/
def parisFixture : BlockchainEngineFixture (Fin (16 ^ 64)) (Fin (16 ^ 40)) ℕ where
  genesisHash := (fullWidth 64).ofHex "0x0"
  payloads := []
  fork := "Paris"
  config := { chainId := 1 }
  pre := .empty
  genesis := {
    nonce := List.replicate 8 0
    timestamp := 0
    extraData := []
    gasLimit := 25000000
    difficulty := 0
    prevRandao := (fullWidth 64).ofHex "0x0"
    feeRecipient := (fullWidth 40).ofHex "0x0" }

theorem not_exactForks_paris :
    ¬ ExactForks parisFixture.fork
      (.ok (buildGenesis (fullWidth 64) (fullWidth 40) parisFixture))
      (buildDevnetGenesis (fun name => "'" ++ name ++ "'") parisFixture.fork 1 []) := by
  intro h
  have hout : parisFixture.fork ∉ forkNames := by decide
  have hall : activated (buildGenesis (fullWidth 64) (fullWidth 40) parisFixture) = timeKeys :=
    activated_buildGenesis_of_not_mem hout
  have hnone : activated (buildGenesis (fullWidth 64) (fullWidth 40) parisFixture) = [] :=
    h.outside hout _ List.mem_cons_self _ rfl
  rw [hall] at hnone
  exact absurd hnone (by decide)

end EestReplay.Chainspec
