import EestReplay.Verification.Genesis.Forks

/-! # What a devnet genesis holds

The chain id and the balances that `build_devnet_genesis` was asked for. -/

namespace EestReplay.DevnetGenesis

open Chainspec Dict

/-- The chain that a genesis is of. -/
def chainIdOf (genesis : Json) : Option Json := (configFields genesis).lookup "chainId"

/-- The items of `alloc`. -/
def allocFields (genesis : Json) : List (String × Json) :=
  match genesis.item "alloc" with
  | .ok (.obj fields) => fields
  | _ => []

/-- The balance that a genesis gives to an address, as it is written there. -/
def balanceOf (genesis : Json) (address : String) : Option Json :=
  ((allocFields genesis).lookup (addrText address)).bind fun account =>
    (account.item "balance").toOption

theorem lookup_setItem_of_ne {key k : String} {value : Json} (h : k ≠ key)
    (config : List (String × Json)) : (setItem key value config).lookup k = config.lookup k := by
  induction config with
  | nil => simp [setItem, lookup_cons, h]
  | cons x config ih =>
      obtain ⟨j, v⟩ := x
      rw [setItem]
      split
      next hj => rw [lookup_cons, lookup_cons, hj, if_neg h, if_neg h]
      next hj => rw [lookup_cons, lookup_cons, ih]

theorem lookup_activateTo {targetIdx : ℕ} {key : String} (forks : List (String × String))
    (h : ∀ fork ∈ forks, key ≠ fork.1) (i : ℕ) (acc : List (String × Json) × List (String × Json)) :
    (activateTo targetIdx i forks acc).1.lookup key = acc.1.lookup key := by
  induction forks generalizing i acc with
  | nil => rfl
  | cons fork forks ih =>
      obtain ⟨timeKey, name⟩ := fork
      obtain ⟨config, schedule⟩ := acc
      have hkey : key ≠ timeKey := h (timeKey, name) List.mem_cons_self
      have hforks : ∀ fork ∈ forks, key ≠ fork.1 := fun fork hmem => h fork (List.mem_cons_of_mem _ hmem)
      unfold activateTo
      split
      · rfl
      · split
        · rw [ih hforks, lookup_setItem_of_ne hkey]
        · rw [ih hforks, lookup_setItem_of_ne hkey]

theorem lookup_chainId_devnetConfig (chainId : ℤ) (targetIdx : ℕ) :
    (devnetConfig chainId targetIdx).lookup "chainId" = some (.int chainId) := by
  have hbase : (baseConfig chainId).lookup "chainId" = some (.int chainId) := by
    simp [baseConfig, preMergeBlockForks, setItem]
  have hloop : (activateTo targetIdx 0 timestampForks (baseConfig chainId, [])).1.lookup "chainId" =
      some (.int chainId) := by
    rw [lookup_activateTo _ (by decide), hbase]
  unfold devnetConfig
  dsimp only
  split
  · rw [lookup_setItem_of_ne (by decide), hloop]
  · exact hloop

variable {repr : String → String} {fork : String} {chainId : ℤ} {genesis : Json} {gasLimit : ℕ}

theorem chainIdOf_buildDevnetGenesis {prefunded : List (String × ℕ)}
    (h : buildDevnetGenesis repr fork chainId prefunded gasLimit = .ok genesis) :
    chainIdOf genesis = some (.int chainId) := by
  unfold buildDevnetGenesis at h
  split at h
  · cases h
  next targetIdx _ =>
    obtain rfl := Except.ok.inj h
    exact lookup_chainId_devnetConfig chainId targetIdx

theorem balanceOf_buildDevnetGenesis {address : String} {wei : ℕ}
    (h : buildDevnetGenesis repr fork chainId [(address, wei)] gasLimit = .ok genesis) :
    balanceOf genesis address = some (.str (Text.hex wei)) := by
  unfold buildDevnetGenesis at h
  split at h
  · cases h
  · obtain rfl := Except.ok.inj h
    have halloc : (fromItems [(addrText address, Json.obj [("balance", .str (Text.hex wei))])]).lookup
        (addrText address) = some (.obj [("balance", .str (Text.hex wei))]) := by
      rw [fromItems_of_nodup (by simp), lookup_cons, if_pos rfl]
    exact congrArg (fun account => account.bind fun x : Json => (x.item "balance").toOption) halloc

/-- It activates the forks up to the one asked for. -/
theorem activated_buildDevnetGenesis {prefunded : List (String × ℕ)}
    (h : buildDevnetGenesis repr fork chainId prefunded gasLimit = .ok genesis) :
    ∃ i timeKey, timestampForks[i]? = some (timeKey, fork) ∧
      activated genesis = (timestampForks.take (i + 1)).map Prod.fst := by
  by_cases hmem : fork ∈ forkNames
  · obtain ⟨⟨timeKey, name⟩, hfork, heq⟩ := List.mem_map.mp hmem
    obtain ⟨i, hi⟩ := List.mem_iff_getElem?.mp hfork
    obtain rfl : name = fork := heq
    have hbuilt : ∃ built, buildDevnetGenesis repr name chainId prefunded gasLimit = .ok built ∧
        activated built = (timestampForks.take (i + 1)).map Prod.fst :=
      buildDevnetGenesis_of_getElem? hi chainId
    obtain ⟨built, hbuilt, hactivated⟩ := hbuilt
    obtain rfl := Except.ok.inj (hbuilt.symm.trans h)
    exact ⟨i, timeKey, hi, hactivated⟩
  · have hraised : ∃ e, buildDevnetGenesis repr fork chainId prefunded gasLimit = .error e :=
      buildDevnetGenesis_of_not_mem hmem chainId
    obtain ⟨e, he⟩ := hraised
    rw [he] at h
    cases h

end EestReplay.DevnetGenesis
