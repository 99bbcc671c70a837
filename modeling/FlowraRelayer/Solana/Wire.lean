/-
  Solana/Wire.lean --- a transaction as the bytes of a packet.

  A transaction is its signatures, as many as the message says it needs, and the message
  they sign.  A legacy message starts with its header, and that with the number of
  required signatures; a versioned one starts with a byte whose high bit is set.  What
  follows the header (account keys, blockhash, instructions and, in version 0, the table
  lookups) is left as it is: `body` may be any bytes, so that every message of the format
  is one of these.

  What the module is for is `firstByte_of_fits`: the size of a packet leaves room for
  nineteen signatures, so the first byte of a message that is sent with all of them is at
  most 19 or the version byte.
-/
import FlowraRelayer.Solana.Transaction

set_option autoImplicit false

namespace FlowraRelayer.Solana

/-- `PACKET_DATA_SIZE`. -/
def packetDataSize : Nat := 1232

/-- `MESSAGE_VERSION_PREFIX`, which is also the first byte of version 0. -/
def messageVersionPrefix : UInt8 := 0x80

/-! ## Messages and transactions -/

/-- `Signature`. -/
structure Signature where
  bytes : List UInt8
  length_eq : bytes.length = 64

/-- `MessageHeader`. -/
structure MessageHeader where
  numRequiredSignatures : UInt8
  numReadonlySignedAccounts : UInt8
  numReadonlyUnsignedAccounts : UInt8

/-- A message on the wire. -/
inductive WireMessage where
  | legacy (header : MessageHeader) (body : List UInt8)
  | v0 (header : MessageHeader) (body : List UInt8)

def MessageHeader.serialize (header : MessageHeader) : List UInt8 :=
  [header.numRequiredSignatures, header.numReadonlySignedAccounts,
    header.numReadonlyUnsignedAccounts]

namespace WireMessage

def header : WireMessage → MessageHeader
  | .legacy header _ => header
  | .v0 header _ => header

/-- `VersionedMessage::serialize`: the bytes that are signed. -/
def serialize : WireMessage → List UInt8
  | .legacy header body => header.serialize ++ body
  | .v0 header body => messageVersionPrefix :: (header.serialize ++ body)

end WireMessage

/-- A length as `short_vec` writes it: seven bits a byte, the lowest first. -/
def shortVecLen (n : Nat) : List UInt8 :=
  if n < 2 ^ 7 then [UInt8.ofNat n]
  else if n < 2 ^ 14 then [UInt8.ofNat (n % 2 ^ 7 + 2 ^ 7), UInt8.ofNat (n / 2 ^ 7)]
  else
    [ UInt8.ofNat (n % 2 ^ 7 + 2 ^ 7)
    , UInt8.ofNat (n / 2 ^ 7 % 2 ^ 7 + 2 ^ 7)
    , UInt8.ofNat (n / 2 ^ 14) ]

/-- A transaction, with all the signatures its message requires. -/
structure WireTransaction where
  signatures : List Signature
  message : WireMessage
  signed : signatures.length = message.header.numRequiredSignatures.toNat

namespace WireTransaction

/-- The transaction as it stands in a packet. -/
def serialize (tx : WireTransaction) : List UInt8 :=
  shortVecLen tx.signatures.length ++ tx.signatures.flatMap Signature.bytes ++
    tx.message.serialize

/-- The transaction can be sent in one packet. -/
def Fits (tx : WireTransaction) : Prop := tx.serialize.length ≤ packetDataSize

instance (tx : WireTransaction) : Decidable tx.Fits :=
  inferInstanceAs (Decidable (_ ≤ _))

end WireTransaction

/-! ## The first byte -/

theorem length_flatMap_signatures (signatures : List Signature) :
    (signatures.flatMap Signature.bytes).length = 64 * signatures.length := by
  induction signatures with
  | nil => rfl
  | cons signature rest ih =>
    rw [List.flatMap_cons, List.length_append, signature.length_eq, ih, List.length_cons]
    omega

/-- A packet has room for nineteen signatures. -/
theorem length_signatures_of_fits {tx : WireTransaction} (h : tx.Fits) :
    tx.signatures.length ≤ 19 := by
  unfold WireTransaction.Fits WireTransaction.serialize packetDataSize at h
  rw [List.length_append, List.length_append, length_flatMap_signatures] at h
  omega

/-- The first byte of a message whose transaction can be sent. -/
theorem firstByte_of_fits {tx : WireTransaction} (h : tx.Fits) :
    ∃ first rest, tx.message.serialize = first :: rest ∧
      (first.toNat ≤ 19 ∨ first = messageVersionPrefix) := by
  have hroom := length_signatures_of_fits h
  rw [tx.signed] at hroom
  cases hmessage : tx.message with
  | legacy header body =>
    rw [hmessage] at hroom
    exact ⟨_, _, rfl, .inl hroom⟩
  | v0 header body => exact ⟨_, _, rfl, .inr rfl⟩

end FlowraRelayer.Solana
