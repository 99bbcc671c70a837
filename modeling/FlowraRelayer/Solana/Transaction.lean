import FlowraRelayer.Foundation.Base58
set_option autoImplicit false

/-!
# Solana: public keys, messages and address lookup tables

The relayer reads a transaction through three accessors of the Solana SDK:
`static_account_keys`, `address_table_lookups` and `is_maybe_writable(·, None)`.
The SDK is not part of the repository, so a message is modelled by what these
accessors return and by nothing else.

A public key is 32 bytes, shown and parsed as Base58 text.
-/

namespace FlowraRelayer.Solana

open FlowraRelayer.Foundation

/-- `solana_sdk::clock::Slot`. -/
abbrev Slot : Type := Nat

/-! ## Public keys -/

/-- `solana_sdk::pubkey::PUBKEY_BYTES`. -/
def pubkeyBytes : Nat := 32

/-- The longest Base58 text of 32 bytes. -/
def maxBase58Len : Nat := 44

/-- A public key: exactly 32 bytes. -/
structure Pubkey where
  bytes : List UInt8
  length_eq : bytes.length = pubkeyBytes
  deriving DecidableEq

namespace Pubkey

/-- `Pubkey::try_from(Vec<u8>)`. -/
def tryFrom (bytes : List UInt8) : Option Pubkey :=
  if h : bytes.length = pubkeyBytes then some ⟨bytes, h⟩ else none

/-- `Display for Pubkey`. -/
def toText (p : Pubkey) : String := base58Encode p.bytes

/-- `Pubkey::from_str`.  The source counts the bytes of the text; a text with a
multi-byte character is rejected by the alphabet in any case. -/
def fromStr (text : String) : Option Pubkey :=
  if maxBase58Len < text.length then none
  else (base58Decode text).bind tryFrom

theorem length_of_tryFrom {bytes : List UInt8} {p : Pubkey} (h : tryFrom bytes = some p) :
    bytes.length = pubkeyBytes := by
  unfold tryFrom at h
  split at h
  · assumption
  · cases h

theorem tryFrom_bytes (p : Pubkey) : tryFrom p.bytes = some p := by
  simp [tryFrom, p.length_eq]

theorem length_toText_le (p : Pubkey) : p.toText.length ≤ maxBase58Len :=
  length_base58Encode_le (n := 32) (k := 12) (by decide) p.length_eq

/-- The text of a key parses back to the key. -/
theorem fromStr_toText (p : Pubkey) : fromStr p.toText = some p := by
  have hlen : ¬ maxBase58Len < p.toText.length := Nat.not_lt.mpr p.length_toText_le
  rw [fromStr, if_neg hlen, toText, base58Decode_base58Encode, Option.bind_some, tryFrom_bytes]

end Pubkey

/-- The key whose bytes are all `byte`. -/
def uniformKey (byte : UInt8) : Pubkey := ⟨List.replicate pubkeyBytes byte, by simp⟩

/-! ## Messages -/

/-- One table a versioned message names, with the positions it selects in it. -/
structure MessageAddressTableLookup where
  accountKey : Pubkey
  writableIndexes : List UInt8
  readonlyIndexes : List UInt8
  deriving DecidableEq

/-- A message, as far as the relayer reads it.  `addressTableLookups` is `none`
for a legacy message. -/
structure VersionedMessage where
  staticAccountKeys : List Pubkey
  addressTableLookups : Option (List MessageAddressTableLookup)
  isMaybeWritable : Nat → Bool

/-- A transaction; its signatures are never read. -/
structure VersionedTransaction where
  message : VersionedMessage

/-- A lookup table as the relayer caches it. -/
structure AddressLookupTableAccount where
  key : Pubkey
  addresses : List Pubkey
  deriving DecidableEq

/-- `DashMap<Pubkey, AddressLookupTableAccount>`, read key by key. -/
abbrev LookupTableCache : Type := Pubkey → Option AddressLookupTableAccount

/-! ## The accounts a message resolves to -/

/-- The addresses a list of positions selects; positions out of range select
nothing. -/
def selectAddresses (addresses : List Pubkey) (indexes : List UInt8) : List Pubkey :=
  indexes.filterMap fun idx => addresses[idx.toNat]?

/-- What one named table contributes: its writable selection, then its readonly
one; nothing when the table is not known. -/
def tableAccounts (tables : Pubkey → Option (List Pubkey)) (table : MessageAddressTableLookup) :
    List (Pubkey × Bool) :=
  match tables table.accountKey with
  | none => []
  | some addresses =>
      (selectAddresses addresses table.writableIndexes).map (·, true) ++
        (selectAddresses addresses table.readonlyIndexes).map (·, false)

/-- The static keys, each with its `is_maybe_writable` flag. -/
def staticAccounts (message : VersionedMessage) : List (Pubkey × Bool) :=
  message.staticAccountKeys.mapIdx fun idx acc => (acc, message.isMaybeWritable idx)

/-- The accounts the message selects in the tables it names. -/
def lookupAccounts (tables : Pubkey → Option (List Pubkey)) (message : VersionedMessage) :
    List (Pubkey × Bool) :=
  (message.addressTableLookups.getD []).flatMap (tableAccounts tables)

/-- The static keys followed by the selected addresses, each with its
writability. -/
def resolvedAccounts (tables : Pubkey → Option (List Pubkey)) (message : VersionedMessage) :
    List (Pubkey × Bool) :=
  staticAccounts message ++ lookupAccounts tables message

/-- The address lists a cache holds. -/
def LookupTableCache.tables (cache : LookupTableCache) (key : Pubkey) : Option (List Pubkey) :=
  (cache key).map (·.addresses)

theorem mem_staticAccounts_fst {message : VersionedMessage} {acc : Pubkey} :
    (∃ w, (acc, w) ∈ staticAccounts message) ↔ acc ∈ message.staticAccountKeys := by
  simp only [staticAccounts, List.mem_mapIdx, Prod.mk.injEq]
  constructor
  · rintro ⟨_, i, hi, rfl, _⟩
    exact List.getElem_mem hi
  · intro h
    obtain ⟨i, hi, rfl⟩ := List.mem_iff_getElem.mp h
    exact ⟨_, i, hi, rfl, rfl⟩

end FlowraRelayer.Solana
