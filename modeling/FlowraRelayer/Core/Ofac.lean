/-
  Core/Ofac.lean --- the OFAC check of `core/src/ofac.rs`.

  The three functions below follow the source: the static keys first, then, table
  by table, the writable and the readonly positions against whatever the cache
  holds for the table.  `isTxOfacRelated_iff` says once what the check decides:
  some account of the list the message resolves to *through the cache* is in the
  set.  Nothing here says what the tables hold on chain.
-/
import FlowraRelayer.Solana.Transaction
import Mathlib.Data.Finset.Basic

set_option autoImplicit false

namespace FlowraRelayer.Core

open FlowraRelayer.Solana

/-- `is_ofac_address_in_static_keys`. -/
def isOfacAddressInStaticKeys (tx : VersionedTransaction) (ofacAddresses : Finset Pubkey) : Bool :=
  tx.message.staticAccountKeys.any fun acc => decide (acc ∈ ofacAddresses)

/-- `is_ofac_address_in_lookup_table`: tables absent from the cache and positions
out of range are skipped. -/
def isOfacAddressInLookupTable (tx : VersionedTransaction) (ofacAddresses : Finset Pubkey)
    (cache : LookupTableCache) : Bool :=
  match tx.message.addressTableLookups with
  | none => false
  | some lookupTables =>
      lookupTables.any fun table =>
        match cache table.accountKey with
        | none => false
        | some lookupInfo =>
            (table.writableIndexes ++ table.readonlyIndexes).any fun idx =>
              match lookupInfo.addresses[idx.toNat]? with
              | none => false
              | some account => decide (account ∈ ofacAddresses)

/-- `is_tx_ofac_related`. -/
def isTxOfacRelated (tx : VersionedTransaction) (ofacAddresses : Finset Pubkey)
    (cache : LookupTableCache) : Bool :=
  isOfacAddressInStaticKeys tx ofacAddresses ||
    isOfacAddressInLookupTable tx ofacAddresses cache

/-! ## What the check decides -/

/-- Some account of a resolved list is in the set. -/
def Mentions (ofacAddresses : Finset Pubkey) (accounts : List (Pubkey × Bool)) : Prop :=
  ∃ entry ∈ accounts, entry.1 ∈ ofacAddresses

theorem mentions_append {ofacAddresses : Finset Pubkey} {left right : List (Pubkey × Bool)} :
    Mentions ofacAddresses (left ++ right) ↔
      Mentions ofacAddresses left ∨ Mentions ofacAddresses right := by
  simp only [Mentions, List.mem_append, or_and_right, exists_or]

theorem isOfacAddressInStaticKeys_iff (tx : VersionedTransaction) (ofacAddresses : Finset Pubkey) :
    isOfacAddressInStaticKeys tx ofacAddresses = true ↔
      Mentions ofacAddresses (staticAccounts tx.message) := by
  simp only [isOfacAddressInStaticKeys, List.any_eq_true, decide_eq_true_eq, Mentions]
  constructor
  · rintro ⟨acc, hacc, hofac⟩
    obtain ⟨w, hw⟩ := mem_staticAccounts_fst.mpr hacc
    exact ⟨(acc, w), hw, hofac⟩
  · rintro ⟨⟨acc, w⟩, hmem, hofac⟩
    exact ⟨acc, mem_staticAccounts_fst.mp ⟨w, hmem⟩, hofac⟩

/-- One table: a position of either list selects an OFAC address in it. -/
theorem mentions_tableAccounts_iff {ofacAddresses : Finset Pubkey}
    {tables : Pubkey → Option (List Pubkey)} {table : MessageAddressTableLookup} :
    Mentions ofacAddresses (tableAccounts tables table) ↔
      ∃ addresses, tables table.accountKey = some addresses ∧
        ∃ idx ∈ table.writableIndexes ++ table.readonlyIndexes,
          ∃ account, addresses[idx.toNat]? = some account ∧ account ∈ ofacAddresses := by
  unfold tableAccounts
  cases htable : tables table.accountKey with
  | none => simp [Mentions]
  | some addresses =>
    rw [mentions_append]
    simp only [Mentions, List.mem_map, selectAddresses, List.mem_filterMap, List.mem_append]
    constructor
    · rintro (⟨_, ⟨account, ⟨idx, hidx, hget⟩, rfl⟩, hofac⟩ | ⟨_, ⟨account, ⟨idx, hidx, hget⟩, rfl⟩, hofac⟩)
      · exact ⟨addresses, rfl, idx, Or.inl hidx, account, hget, hofac⟩
      · exact ⟨addresses, rfl, idx, Or.inr hidx, account, hget, hofac⟩
    · rintro ⟨_, hsome, idx, hidx, account, hget, hofac⟩
      cases hsome
      rcases hidx with hidx | hidx
      · exact Or.inl ⟨_, ⟨account, ⟨idx, hidx, hget⟩, rfl⟩, hofac⟩
      · exact Or.inr ⟨_, ⟨account, ⟨idx, hidx, hget⟩, rfl⟩, hofac⟩

/-- All named tables: one of them contributes an OFAC address. -/
theorem mentions_lookupAccounts_iff {ofacAddresses : Finset Pubkey}
    {tables : Pubkey → Option (List Pubkey)} {message : VersionedMessage} :
    Mentions ofacAddresses (lookupAccounts tables message) ↔
      ∃ table ∈ message.addressTableLookups.getD [],
        Mentions ofacAddresses (tableAccounts tables table) := by
  simp only [Mentions, lookupAccounts, List.mem_flatMap]
  constructor
  · rintro ⟨entry, ⟨table, htable, hentry⟩, hofac⟩
    exact ⟨table, htable, entry, hentry, hofac⟩
  · rintro ⟨table, htable, entry, hentry, hofac⟩
    exact ⟨entry, ⟨table, htable, hentry⟩, hofac⟩

theorem isOfacAddressInLookupTable_iff (tx : VersionedTransaction) (ofacAddresses : Finset Pubkey)
    (cache : LookupTableCache) :
    isOfacAddressInLookupTable tx ofacAddresses cache = true ↔
      Mentions ofacAddresses (lookupAccounts cache.tables tx.message) := by
  rw [mentions_lookupAccounts_iff]
  unfold isOfacAddressInLookupTable
  cases tx.message.addressTableLookups with
  | none => simp
  | some lookupTables =>
    simp only [List.any_eq_true, Option.getD_some]
    refine exists_congr fun table => and_congr_right fun _ => ?_
    rw [mentions_tableAccounts_iff]
    simp only [LookupTableCache.tables]
    cases cache table.accountKey with
    | none => simp
    | some lookupInfo =>
      simp only [List.any_eq_true, Option.map_some, Option.some.injEq, exists_eq_left']
      refine exists_congr fun idx => and_congr_right fun _ => ?_
      cases lookupInfo.addresses[idx.toNat]? with
      | none => simp
      | some account => simp

/-- The check holds exactly when an account of the list resolved through the
cache is in the set. -/
theorem isTxOfacRelated_iff (tx : VersionedTransaction) (ofacAddresses : Finset Pubkey)
    (cache : LookupTableCache) :
    isTxOfacRelated tx ofacAddresses cache = true ↔
      Mentions ofacAddresses (resolvedAccounts cache.tables tx.message) := by
  rw [isTxOfacRelated, Bool.or_eq_true, isOfacAddressInStaticKeys_iff,
    isOfacAddressInLookupTable_iff, resolvedAccounts, mentions_append]

end FlowraRelayer.Core
