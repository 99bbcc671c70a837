/-
  BlockEngine/Interest.lean --- the packet filter of `block_engine/src/block_engine.rs`.

  The block engine announces accounts and programs of interest; the relayer keeps
  them in two expiring caches and forwards the packets that touch them.  Every read
  of a cache may evict, so the caches are threaded through the loops, and the loops
  stop at the first hit as the source's `any` and `return true` do.

  The cache crate and the Solana SDK are not part of the repository: the caches are
  any `TimedCache`, and the decoder of transactions is a parameter.  The clock is
  read once per call.
-/
import FlowraRelayer.Core.Ofac
import FlowraRelayer.Foundation.TimedCache
import FlowraRelayer.Protos.Packet

set_option autoImplicit false

namespace FlowraRelayer.BlockEngine

open FlowraRelayer.Foundation
open FlowraRelayer.Solana
open FlowraRelayer.Protos
open FlowraRelayer.Core

/-- `BlockEngineError`. -/
inductive BlockEngineError where
  | authServiceFailure (message : String)
  | blockEngineFailure (message : String)
  deriving DecidableEq

/-- What one connection knows about the block engine's interest. -/
structure InterestState (timed : TimedCache Pubkey) where
  accountsOfInterest : timed.Cache
  programsOfInterest : timed.Cache
  forwardAll : Bool

variable {timed : TimedCache Pubkey}

/-- The state of a new connection. -/
def InterestState.new (timed : TimedCache Pubkey) (aoiCacheTtlS : Nat) : InterestState timed where
  accountsOfInterest := timed.withLifespan aoiCacheTtlS
  programsOfInterest := timed.withLifespan aoiCacheTtlS
  forwardAll := false

/-! ## Announcements -/

/-- The keys of an announcement that parse. -/
def announcedPubkeys (texts : List String) : List Pubkey := texts.filterMap Pubkey.fromStr

/-- Set every announced key. -/
def cacheSetAll (now : Time) (pubkeys : List Pubkey) (cache : timed.Cache) : timed.Cache :=
  pubkeys.foldl (fun cache pubkey => timed.cacheSet now pubkey cache) cache

/-- `handle_aoi`. -/
def handleAoi (maybeMsg : Except String (Option (List String))) (now : Time)
    (s : InterestState timed) : Except BlockEngineError (InterestState timed × Nat) :=
  match maybeMsg with
  | .ok (some accounts) =>
      let pubkeys := announcedPubkeys accounts
      .ok
        ({ s with
            forwardAll := s.forwardAll || accounts.any fun a => a = "*"
            accountsOfInterest := cacheSetAll now pubkeys s.accountsOfInterest },
          pubkeys.length)
  | .ok none => .error (.blockEngineFailure "aoi updates disconnected")
  | .error e => .error (.blockEngineFailure e)

/-- `handle_poi`. -/
def handlePoi (maybeMsg : Except String (Option (List String))) (now : Time)
    (s : InterestState timed) : Except BlockEngineError (InterestState timed × Nat) :=
  match maybeMsg with
  | .ok (some programs) =>
      let pubkeys := announcedPubkeys programs
      .ok
        ({ s with
            forwardAll := s.forwardAll || programs.any fun a => a = "*"
            programsOfInterest := cacheSetAll now pubkeys s.programsOfInterest },
          pubkeys.length)
  | .ok none => .error (.blockEngineFailure "poi disconnected")
  | .error e => .error (.blockEngineFailure e)

/-! ## Interest in a transaction -/

/-- One account: a writable one is looked up among the accounts of interest, and
any among the programs. -/
def isInteresting (now : Time) (account : Pubkey × Bool) (s : InterestState timed) :
    Bool × InterestState timed :=
  let (inAccounts, accountsOfInterest) :=
    if account.2 then timed.cacheGet now account.1 s.accountsOfInterest
    else (false, s.accountsOfInterest)
  let s := { s with accountsOfInterest }
  if inAccounts then (true, s)
  else
    let (inPrograms, programsOfInterest) := timed.cacheGet now account.1 s.programsOfInterest
    (inPrograms, { s with programsOfInterest })

/-- Accounts in order, up to the first interesting one. -/
def anyInteresting (now : Time) :
    List (Pubkey × Bool) → InterestState timed → Bool × InterestState timed
  | [], s => (false, s)
  | account :: rest, s =>
      let (hit, s) := isInteresting now account s
      if hit then (true, s) else anyInteresting now rest s

/-- `is_aoi_in_static_keys`. -/
def isAoiInStaticKeys (now : Time) (tx : VersionedTransaction) (s : InterestState timed) :
    Bool × InterestState timed :=
  anyInteresting now (staticAccounts tx.message) s

/-- The loop over the named tables: in each table the cache knows, the writable
positions first. -/
def anyTableInteresting (now : Time) (cache : LookupTableCache) :
    List MessageAddressTableLookup → InterestState timed → Bool × InterestState timed
  | [], s => (false, s)
  | table :: rest, s =>
      match cache table.accountKey with
      | none => anyTableInteresting now cache rest s
      | some lookupInfo =>
          let (hit, s) := anyInteresting now
            ((selectAddresses lookupInfo.addresses table.writableIndexes).map (·, true)) s
          if hit then (true, s)
          else
            let (hit, s) := anyInteresting now
              ((selectAddresses lookupInfo.addresses table.readonlyIndexes).map (·, false)) s
            if hit then (true, s) else anyTableInteresting now cache rest s

/-- `is_aoi_in_lookup_table`. -/
def isAoiInLookupTable (now : Time) (tx : VersionedTransaction) (cache : LookupTableCache)
    (s : InterestState timed) : Bool × InterestState timed :=
  match tx.message.addressTableLookups with
  | none => (false, s)
  | some lookupTables => anyTableInteresting now cache lookupTables s

/-! ## The filter -/

/-- The parts of `handle_packet_stream`'s surroundings the filter reads. -/
structure FilterConfig where
  decode : List UInt8 → Option VersionedTransaction
  ofacAddresses : Finset Pubkey

/-- `forward_all || is_aoi_in_static_keys(..) || is_aoi_in_lookup_table(..)`. -/
def isOfInterest (now : Time) (tx : VersionedTransaction) (cache : LookupTableCache)
    (s : InterestState timed) : Bool × InterestState timed :=
  if s.forwardAll then (true, s)
  else
    let (hit, s) := isAoiInStaticKeys now tx s
    if hit then (true, s) else isAoiInLookupTable now tx cache s

/-- `is_forwardable`. -/
def isForwardable (cfg : FilterConfig) (now : Time) (tx : VersionedTransaction)
    (cache : LookupTableCache) (s : InterestState timed) : Bool × InterestState timed :=
  if cfg.ofacAddresses = ∅ then isOfInterest now tx cache s
  else if isTxOfacRelated tx cfg.ofacAddresses cache then (false, s)
  else isOfInterest now tx cache s

/-- The body of the filter's inner loop: what a packet adds to the output. -/
def filterPacket (cfg : FilterConfig) (now : Time) (cache : LookupTableCache) (packet : Packet)
    (s : InterestState timed) : List ProtoPacket × InterestState timed :=
  if packet.discard then ([], s)
  else
    match packet.deserializeSlice cfg.decode with
    | none => ([], s)
    | some tx =>
        let (forwardable, s) := isForwardable cfg now tx cache s
        (if forwardable then (packetToProtoPacket packet).toList else [], s)

/-- The inner loop. -/
def filterBatch (cfg : FilterConfig) (now : Time) (cache : LookupTableCache) :
    List Packet → InterestState timed → List ProtoPacket × InterestState timed
  | [], s => ([], s)
  | packet :: rest, s =>
      let (kept, s) := filterPacket cfg now cache packet s
      let (more, s) := filterBatch cfg now cache rest s
      (kept ++ more, s)

/-- The outer loop. -/
def filterBatches (cfg : FilterConfig) (now : Time) (cache : LookupTableCache) :
    BankingPacketBatch → InterestState timed → List ProtoPacket × InterestState timed
  | [], s => ([], s)
  | batch :: rest, s =>
      let (kept, s) := filterBatch cfg now cache batch s
      let (more, s) := filterBatches cfg now cache rest s
      (kept ++ more, s)

/-- `ExpiringPacketBatch`; the header holds the receipt time. -/
structure ExpiringPacketBatch where
  headerTs : Time
  packets : List ProtoPacket
  expiryMs : UInt32
  deriving DecidableEq

/-- `filter_packets`: nothing at all instead of an empty batch. -/
def filterPackets (cfg : FilterConfig) (now : Time) (blockEngineBatches : BlockEnginePackets)
    (cache : LookupTableCache) (s : InterestState timed) :
    Option ExpiringPacketBatch × InterestState timed :=
  let (filteredPackets, s) := filterBatches cfg now cache blockEngineBatches.bankingPacketBatch s
  if filteredPackets = [] then (none, s)
  else (some ⟨blockEngineBatches.stamp, filteredPackets, blockEngineBatches.expiration⟩, s)

end FlowraRelayer.BlockEngine
