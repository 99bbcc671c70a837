import FlowraRelayer.Foundation.Run
import FlowraRelayer.Solana.Transaction
set_option autoImplicit false

/-!
# Protos: packets and their wire form (`jito-protos/src/convert.rs`)

A packet of the perf crate is modelled by its metadata and by the answer of
`data(..)`, which is `none` when the payload must not be read.  Deserialising a
payload is a function of its bytes, taken as a parameter wherever it is needed.
-/

namespace FlowraRelayer.Protos

open FlowraRelayer.Foundation
open FlowraRelayer.Solana

/-- The packet flags the conversion copies. -/
structure PacketFlags where
  discard : Bool
  forwarded : Bool
  repair : Bool
  simpleVoteTx : Bool
  tracerPacket : Bool
  fromStakedNode : Bool
  deriving DecidableEq

/-- Packet metadata; `addr` is the text of the sender's address. -/
structure Meta where
  size : Nat
  addr : String
  port : UInt16
  flags : PacketFlags
  deriving DecidableEq

/-- A packet: its metadata and what `data(..)` returns. -/
structure Packet where
  data : Option (List UInt8)
  info : Meta
  deriving DecidableEq

/-- `meta().discard()`. -/
def Packet.discard (p : Packet) : Bool := p.info.flags.discard

/-- A packet with one byte of payload and no flags. -/
def oneBytePacket (byte : UInt8) : Packet where
  data := some [byte]
  info := ⟨1, "127.0.0.1", 8001, ⟨false, false, false, false, false, false⟩⟩

/-- `agave_banking_stage_ingress_types::BankingPacketBatch`: batches of packets. -/
abbrev BankingPacketBatch : Type := List (List Packet)

/-- The number of packets of a banking batch, discarded ones included. -/
def BankingPacketBatch.numPackets (batch : BankingPacketBatch) : Nat :=
  (batch.map List.length).sum

/-- `BlockEnginePackets`: a batch on its way to the block engine, with the time of
its receipt and the delay after which the validator gets it anyway. -/
structure BlockEnginePackets where
  bankingPacketBatch : BankingPacketBatch
  stamp : Time
  expiration : UInt32

/-- `packet::Meta` of the protocol. -/
structure ProtoMeta where
  size : UInt64
  addr : String
  port : UInt32
  flags : Option PacketFlags
  senderStake : UInt64
  deriving DecidableEq

/-- `packet::Packet` of the protocol. -/
structure ProtoPacket where
  data : List UInt8
  info : Option ProtoMeta
  deriving DecidableEq

/-- `packet_to_proto_packet`. -/
def packetToProtoPacket (p : Packet) : Option ProtoPacket :=
  p.data.map fun data =>
    { data := data
      info := some
        { size := UInt64.ofNat p.info.size
          addr := p.info.addr
          port := p.info.port.toUInt32
          flags := some p.info.flags
          senderStake := 0 } }

theorem packetToProtoPacket_data {p : Packet} {q : ProtoPacket}
    (h : packetToProtoPacket p = some q) : p.data = some q.data := by
  simp only [packetToProtoPacket, Option.map_eq_some_iff] at h
  obtain ⟨data, hdata, rfl⟩ := h
  exact hdata

/-- The wire form keeps the discard flag. -/
theorem packetToProtoPacket_discard {p p' : Packet} {q : ProtoPacket}
    (hp : packetToProtoPacket p = some q) (hp' : packetToProtoPacket p' = some q) :
    p.discard = p'.discard := by
  simp only [packetToProtoPacket, Option.map_eq_some_iff] at hp hp'
  obtain ⟨_, _, rfl⟩ := hp
  obtain ⟨_, _, heq⟩ := hp'
  simp only [ProtoPacket.mk.injEq, Option.some.injEq, ProtoMeta.mk.injEq] at heq
  unfold Packet.discard
  rw [heq.2.2.2.2.1]

theorem isSome_packetToProtoPacket (p : Packet) :
    (packetToProtoPacket p).isSome = p.data.isSome := by
  simp [packetToProtoPacket]

/-- `deserialize_slice::<VersionedTransaction, _>(..)`: read the payload, then
decode it. -/
def Packet.deserializeSlice (decode : List UInt8 → Option VersionedTransaction) (p : Packet) :
    Option VersionedTransaction :=
  p.data.bind decode

end FlowraRelayer.Protos
