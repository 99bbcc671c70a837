/-
  TransactionRelayer/LookupTables.lean --- the cache of address lookup tables, as
  `refresh_address_lookup_table` of `transaction-relayer/src/main.rs` fills it.

  A refresh asks an RPC server for all lookup table accounts, inserts those that
  deserialise one by one and drops the keys it did not see.  An RPC error leaves the
  cache as it is, and without `--enable-lookup-table-refresh` there is no refresh at
  all.  `cacheAfter` is the cache after any such history.

  The filters of the two forwarding paths look tables up while a refresh is going on.
  `cacheDuring` is the cache between any two of its writes; a table that is there before
  and after a refresh is there all the time (`refresh_exact_and_gapless`).
-/
import FlowraRelayer.Foundation.Chunks
import FlowraRelayer.Foundation.Collect
import FlowraRelayer.Solana.Transaction

set_option autoImplicit false

namespace FlowraRelayer.TransactionRelayer

open FlowraRelayer.Foundation
open FlowraRelayer.Solana

/-- What `get_program_accounts` returns: accounts with their data, or an error. -/
abbrev ProgramAccounts : Type := Option (List (Pubkey × List UInt8))

/-- The body of the insertion loop; `deserialize` is
`AddressLookupTable::deserialize`, of which only the addresses are used. -/
def insertTable (deserialize : List UInt8 → Option (List Pubkey))
    (acc : LookupTableCache × List Pubkey) (account : Pubkey × List UInt8) :
    LookupTableCache × List Pubkey :=
  match deserialize account.2 with
  | none => acc
  | some addresses =>
      (Function.update acc.1 account.1 (some ⟨account.1, addresses⟩), acc.2 ++ [account.1])

/-- `refresh_address_lookup_table`. -/
def refreshAddressLookupTable (deserialize : List UInt8 → Option (List Pubkey))
    (cache : LookupTableCache) (accounts : ProgramAccounts) : LookupTableCache :=
  match accounts with
  | none => cache
  | some accounts =>
      let (lookupTable, newPubkeys) := accounts.foldl (insertTable deserialize) (cache, [])
      fun pubkey => if pubkey ∈ newPubkeys then lookupTable pubkey else none

/-- The cache after a history of refreshes, from the empty one. -/
def cacheAfter (deserialize : List UInt8 → Option (List Pubkey)) (history : List ProgramAccounts) :
    LookupTableCache :=
  history.foldl (refreshAddressLookupTable deserialize) fun _ => none

/-! ## A refresh as it goes on -/

/-- How far a refresh has come: so many accounts are served, or all of them and the
`retain` has visited so many keys. -/
inductive RefreshProgress where
  | inserting (served : Nat)
  | retaining (seen : Nat)
  deriving DecidableEq

/-- `retain` comes to a key. -/
def retainPubkey (newPubkeys : List Pubkey) (lookupTable : LookupTableCache) (pubkey : Pubkey) :
    LookupTableCache :=
  if pubkey ∈ newPubkeys then lookupTable else Function.update lookupTable pubkey none

/-- The cache between two writes of a refresh; `order` is the order in which `retain`
visits the keys. -/
def cacheDuring (deserialize : List UInt8 → Option (List Pubkey)) (cache : LookupTableCache)
    (accounts : List (Pubkey × List UInt8)) (order : List Pubkey) :
    RefreshProgress → LookupTableCache
  | .inserting served => ((accounts.take served).foldl (insertTable deserialize) (cache, [])).1
  | .retaining seen =>
      let (lookupTable, newPubkeys) := accounts.foldl (insertTable deserialize) (cache, [])
      (order.take seen).foldl (retainPubkey newPubkeys) lookupTable

/-- The accounts that deserialise, as they are inserted. -/
def loadedTables (deserialize : List UInt8 → Option (List Pubkey))
    (accounts : List (Pubkey × List UInt8)) : List (Pubkey × AddressLookupTableAccount) :=
  accounts.filterMap fun account =>
    (deserialize account.2).map fun addresses => (account.1, ⟨account.1, addresses⟩)

section Refresh

variable {deserialize : List UInt8 → Option (List Pubkey)} {cache : LookupTableCache}
  {accounts : List (Pubkey × List UInt8)} {pubkey : Pubkey} {table : AddressLookupTableAccount}

theorem mem_loadedTables :
    (pubkey, table) ∈ loadedTables deserialize accounts ↔
      ∃ account ∈ accounts, ∃ addresses, deserialize account.2 = some addresses ∧
        account.1 = pubkey ∧ table = ⟨pubkey, addresses⟩ := by
  simp only [loadedTables, List.mem_filterMap, Option.map_eq_some_iff, Prod.mk.injEq]
  constructor
  · rintro ⟨account, hmem, addresses, haddresses, rfl, rfl⟩
    exact ⟨account, hmem, addresses, haddresses, rfl, rfl⟩
  · rintro ⟨account, hmem, addresses, haddresses, rfl, rfl⟩
    exact ⟨account, hmem, addresses, haddresses, rfl, rfl⟩

/-- A key has a table exactly if one of its accounts deserialises. -/
theorem lastOf_loadedTables_ne_none_iff :
    lastOf (loadedTables deserialize accounts) pubkey ≠ none ↔
      ∃ account ∈ accounts, account.1 = pubkey ∧ deserialize account.2 ≠ none := by
  rw [Ne, lastOf_eq_none_iff]
  constructor
  · intro h
    push Not at h
    obtain ⟨⟨key, table⟩, hmem, rfl⟩ := h
    obtain ⟨account, haccount, addresses, haddresses, hkey, -⟩ := mem_loadedTables.mp hmem
    exact ⟨account, haccount, hkey, by simp [haddresses]⟩
  · rintro ⟨account, haccount, hkey, hsome⟩ hnone
    obtain ⟨addresses, haddresses⟩ := Option.ne_none_iff_exists'.mp hsome
    exact hnone _ (mem_loadedTables.mpr ⟨account, haccount, addresses, haddresses, hkey, rfl⟩) rfl

/-- The last table of a key is that of its last account that deserialises. -/
theorem last_account_of_lastOf (h : lastOf (loadedTables deserialize accounts) pubkey = some table) :
    ∃ before data after, accounts = before ++ (pubkey, data) :: after ∧
      deserialize data = some table.addresses ∧ table.key = pubkey ∧
      ∀ account ∈ after, account.1 = pubkey → deserialize account.2 = none := by
  obtain ⟨before, after, hsplit, hafter⟩ := lastOf_eq_some_iff.mp h
  obtain ⟨front, back, rfl, -, hback⟩ := List.filterMap_eq_append_iff.mp hsplit
  obtain ⟨skipped, account, rest, rfl, -, haccount, hrest⟩ := List.filterMap_eq_cons_iff.mp hback
  obtain ⟨addresses, haddresses, heq⟩ := Option.map_eq_some_iff.mp haccount
  obtain ⟨key, data⟩ := account
  cases heq
  refine ⟨front ++ skipped, data, rest, by simp, haddresses, rfl, ?_⟩
  intro later hlater hkey
  by_contra hsome
  obtain ⟨found, hfound⟩ := Option.ne_none_iff_exists'.mp hsome
  have hmem : (key, (⟨key, found⟩ : AddressLookupTableAccount)) ∈ after := by
    rw [← hrest]
    exact mem_loadedTables.mpr ⟨later, hlater, found, hfound, hkey, rfl⟩
  exact hafter _ hmem rfl

/-- The insertion loop: the tables go in one after the other and their keys are noted. -/
theorem foldl_insertTable (accounts : List (Pubkey × List UInt8)) :
    ∀ acc : LookupTableCache × List Pubkey,
      accounts.foldl (insertTable deserialize) acc =
        ((loadedTables deserialize accounts).foldl
            (fun (cache : LookupTableCache) pair => Function.update cache pair.1 (some pair.2)) acc.1,
          acc.2 ++ (loadedTables deserialize accounts).map Prod.fst) := by
  induction accounts with
  | nil =>
    intro acc
    simp [loadedTables]
  | cons account rest ih =>
    intro acc
    rw [List.foldl_cons, ih]
    cases haddresses : deserialize account.2 with
    | none => simp [insertTable, loadedTables, haddresses]
    | some addresses => simp [insertTable, loadedTables, haddresses]

/-- After the insertion loop a key has its last table, or what it had. -/
theorem cache_foldl_insertTable (accounts : List (Pubkey × List UInt8)) (pubkey : Pubkey) :
    (accounts.foldl (insertTable deserialize) (cache, [])).1 pubkey =
      (lastOf (loadedTables deserialize accounts) pubkey).or (cache pubkey) := by
  rw [foldl_insertTable]
  exact foldl_update_apply _ _ _

theorem mem_newPubkeys_iff (accounts : List (Pubkey × List UInt8)) (pubkey : Pubkey) :
    pubkey ∈ (accounts.foldl (insertTable deserialize) (cache, [])).2 ↔
      lastOf (loadedTables deserialize accounts) pubkey ≠ none := by
  rw [foldl_insertTable, Ne, lastOf_eq_none_iff]
  simp

/-- After a refresh a key has its last table, and nothing else is left. -/
theorem refreshAddressLookupTable_some (accounts : List (Pubkey × List UInt8)) (pubkey : Pubkey) :
    refreshAddressLookupTable deserialize cache (some accounts) pubkey =
      lastOf (loadedTables deserialize accounts) pubkey := by
  change (if pubkey ∈ (accounts.foldl (insertTable deserialize) (cache, [])).2 then
    (accounts.foldl (insertTable deserialize) (cache, [])).1 pubkey else none) = _
  rw [cache_foldl_insertTable]
  split
  · next hmem =>
    obtain ⟨table, htable⟩ := Option.ne_none_iff_exists'.mp ((mem_newPubkeys_iff _ _).mp hmem)
    rw [htable]
    rfl
  · next hmem =>
    rw [mem_newPubkeys_iff, not_not] at hmem
    exact hmem.symm

/-- What `retain` has left of a key: everything if the key is new, and nothing of the
others once it has come to them. -/
theorem foldl_retainPubkey (newPubkeys : List Pubkey) (pubkey : Pubkey) :
    ∀ (order : List Pubkey) (lookupTable : LookupTableCache),
      order.foldl (retainPubkey newPubkeys) lookupTable pubkey =
        if pubkey ∈ order ∧ pubkey ∉ newPubkeys then none else lookupTable pubkey := by
  intro order
  induction order with
  | nil =>
    intro lookupTable
    simp
  | cons head rest ih =>
    intro lookupTable
    rw [List.foldl_cons, ih]
    by_cases hnew : pubkey ∈ newPubkeys
    · have hkept : retainPubkey newPubkeys lookupTable head pubkey = lookupTable pubkey := by
        unfold retainPubkey
        split
        · rfl
        · next hold =>
          refine Function.update_of_ne ?_ _ _
          rintro rfl
          exact hold hnew
      simp [hnew, hkept]
    · by_cases hhead : pubkey = head
      · subst hhead
        simp [retainPubkey, hnew]
      · have hkept : retainPubkey newPubkeys lookupTable head pubkey = lookupTable pubkey := by
          unfold retainPubkey
          split
          · rfl
          · exact Function.update_of_ne hhead _ _
        simp [hnew, hhead, hkept]

/-- The cache while `retain` is going on. -/
theorem cacheDuring_retaining (order : List Pubkey) (seen : Nat) (pubkey : Pubkey) :
    cacheDuring deserialize cache accounts order (.retaining seen) pubkey =
      if pubkey ∈ order.take seen ∧ lastOf (loadedTables deserialize accounts) pubkey = none then none
      else (lastOf (loadedTables deserialize accounts) pubkey).or (cache pubkey) := by
  change (order.take seen).foldl
    (retainPubkey (accounts.foldl (insertTable deserialize) (cache, [])).2) _ pubkey = _
  rw [foldl_retainPubkey, cache_foldl_insertTable]
  simp only [mem_newPubkeys_iff, ne_eq, not_not]

/-- Once `retain` has come to every key of the cache, the refresh is over. -/
theorem cacheDuring_eq_refresh {order : List Pubkey}
    (horder : ∀ pubkey, cache pubkey ≠ none → pubkey ∈ order) :
    cacheDuring deserialize cache accounts order (.retaining order.length) =
      refreshAddressLookupTable deserialize cache (some accounts) := by
  funext pubkey
  rw [cacheDuring_retaining, refreshAddressLookupTable_some, List.take_length]
  cases hlast : lastOf (loadedTables deserialize accounts) pubkey with
  | some table => simp
  | none =>
    by_cases hcached : cache pubkey = none
    · simp [hcached]
    · simp [horder pubkey hcached]

/-- A key that is in the cache before and after is in it at any time between, with its
old table or with one the server sent. -/
theorem cacheDuring_gapless {old new : AddressLookupTableAccount} (hold : cache pubkey = some old)
    (hnew : refreshAddressLookupTable deserialize cache (some accounts) pubkey = some new)
    (order : List Pubkey) (progress : RefreshProgress) :
    ∃ table, cacheDuring deserialize cache accounts order progress pubkey = some table ∧
      (table = old ∨ (pubkey, table) ∈ loadedTables deserialize accounts) := by
  rw [refreshAddressLookupTable_some] at hnew
  cases progress with
  | inserting served =>
    -- the tables served so far are some of those the server sent
    have hsub : loadedTables deserialize (accounts.take served) ⊆ loadedTables deserialize accounts :=
      ((List.take_sublist served accounts).filterMap _).subset
    change ∃ table, ((accounts.take served).foldl (insertTable deserialize) (cache, [])).1 pubkey =
      some table ∧ _
    rw [cache_foldl_insertTable, hold]
    cases hlast : lastOf (loadedTables deserialize (accounts.take served)) pubkey with
    | none => exact ⟨old, rfl, .inl rfl⟩
    | some table => exact ⟨table, rfl, .inr (hsub (mem_of_lastOf hlast))⟩
  | retaining seen =>
    refine ⟨new, ?_, .inr (mem_of_lastOf hnew)⟩
    rw [cacheDuring_retaining, hnew]
    simp

end Refresh

/-- For every cache and every answer of the RPC server: after a refresh the keys are
those with an account that deserialises, each with the addresses of the last such account;
in between, at any point and whatever the order of `retain`, no key that is there before
and after is missing, and it has its old table or one of the answer; at the end of
`retain` the refresh is complete; and a failed call changes nothing. -/
theorem refresh_exact_and_gapless (deserialize : List UInt8 → Option (List Pubkey))
    (cache : LookupTableCache) (accounts : List (Pubkey × List UInt8)) :
    (∀ pubkey, refreshAddressLookupTable deserialize cache (some accounts) pubkey ≠ none ↔
      ∃ account ∈ accounts, account.1 = pubkey ∧ deserialize account.2 ≠ none) ∧
    (∀ pubkey table, refreshAddressLookupTable deserialize cache (some accounts) pubkey = some table →
      ∃ before data after, accounts = before ++ (pubkey, data) :: after ∧
        deserialize data = some table.addresses ∧ table.key = pubkey ∧
        ∀ account ∈ after, account.1 = pubkey → deserialize account.2 = none) ∧
    (∀ order progress pubkey old new, cache pubkey = some old →
      refreshAddressLookupTable deserialize cache (some accounts) pubkey = some new →
      ∃ table, cacheDuring deserialize cache accounts order progress pubkey = some table ∧
        (table = old ∨ ∃ account ∈ accounts, account.1 = pubkey ∧
          deserialize account.2 = some table.addresses ∧ table.key = pubkey)) ∧
    (∀ order : List Pubkey, (∀ pubkey, cache pubkey ≠ none → pubkey ∈ order) →
      cacheDuring deserialize cache accounts order (.retaining order.length) =
        refreshAddressLookupTable deserialize cache (some accounts)) ∧
    refreshAddressLookupTable deserialize cache none = cache := by
  refine ⟨?_, ?_, ?_, fun order horder => cacheDuring_eq_refresh horder, rfl⟩
  · intro pubkey
    rw [refreshAddressLookupTable_some]
    exact lastOf_loadedTables_ne_none_iff
  · intro pubkey table htable
    rw [refreshAddressLookupTable_some] at htable
    exact last_account_of_lastOf htable
  · intro order progress pubkey old new hold hnew
    obtain ⟨table, htable, hfrom⟩ := cacheDuring_gapless hold hnew order progress
    refine ⟨table, htable, hfrom.imp id ?_⟩
    intro hmem
    obtain ⟨account, haccount, addresses, haddresses, hkey, rfl⟩ := mem_loadedTables.mp hmem
    exact ⟨account, haccount, hkey, haddresses, rfl⟩

/-- The bytes of a lookup table account: 56 for the state, which starts with the number of
its variant, then the addresses. -/
def tableData (addresses : List Pubkey) : List UInt8 :=
  [1, 0, 0, 0] ++ List.replicate 52 0 ++ addresses.flatMap Pubkey.bytes

/-- The addresses in such an account. -/
def readTable (data : List UInt8) : Option (List Pubkey) :=
  if data.length < 56 ∨ data.take 4 ≠ [1, 0, 0, 0] then none
  else (chunks 32 (data.drop 56)).mapM Pubkey.tryFrom

/-- A table that is extended, and a closed account of the same key before it. -/
def extendedTable : List (Pubkey × List UInt8) :=
  [(uniformKey 1, []), (uniformKey 1, tableData [uniformKey 7, uniformKey 8])]

/-- A cache with the table before the extension. -/
def cachedTable : LookupTableCache :=
  Function.update (fun _ => none) (uniformKey 1) (some ⟨uniformKey 1, [uniformKey 7]⟩)

theorem refresh_exact_and_gapless_extendedTable :
    refreshAddressLookupTable readTable cachedTable (some extendedTable) (uniformKey 1) =
      some ⟨uniformKey 1, [uniformKey 7, uniformKey 8]⟩ ∧
    ∃ table, cacheDuring readTable cachedTable extendedTable [uniformKey 1] (.inserting 1)
        (uniformKey 1) = some table ∧
      (table = ⟨uniformKey 1, [uniformKey 7]⟩ ∨
        ∃ account ∈ extendedTable, account.1 = uniformKey 1 ∧
          readTable account.2 = some table.addresses ∧ table.key = uniformKey 1) := by
  have hafter : refreshAddressLookupTable readTable cachedTable (some extendedTable) (uniformKey 1) =
      some ⟨uniformKey 1, [uniformKey 7, uniformKey 8]⟩ := by decide +kernel
  obtain ⟨-, -, hgapless, -⟩ := refresh_exact_and_gapless readTable cachedTable extendedTable
  exact ⟨hafter, hgapless _ _ _ _ _ (by decide) hafter⟩

end FlowraRelayer.TransactionRelayer
