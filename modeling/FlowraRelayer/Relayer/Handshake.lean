/-
  Relayer/Handshake.lean --- the two ends of the authentication protocol side by side: the
  client of `block_engine.rs` and the server of `auth_service.rs` and
  `auth_interceptor.rs`.

  Two texts pass between them.  The client signs the challenge with its key in front, and
  the server asks for exactly that: `signed_challenge_no_transaction` says that a server
  that picks the challenge cannot have a transaction signed in this way.  A transaction
  that fits into a packet has at most nineteen signatures, and its message starts with
  their number; a key in Base58 starts with a byte of at least 49.

  The other text is the header with the access token, which the client writes with
  `format!` and the server takes apart with `starts_with` and `split`:
  `bearer_header_exact`.
-/
import FlowraRelayer.BlockEngine.Handler
import FlowraRelayer.Relayer.AuthService
import FlowraRelayer.Solana.Wire

set_option autoImplicit false

namespace FlowraRelayer.Relayer

open FlowraRelayer.Foundation
open FlowraRelayer.Solana
open FlowraRelayer.BlockEngine (AuthServiceClient ClientEnv Keypair Token auth)

/-! ## The signed text -/

/-- `str::as_bytes`. -/
def asBytes (text : String) : List UInt8 := text.toUTF8.data.toList

/-- The bytes of the text are not the message of a transaction that can be sent. -/
def NoTransaction (text : String) : Prop :=
  ∀ tx : WireTransaction, tx.Fits → tx.message.serialize ≠ asBytes text

/-- A character of ASCII in front of a text is a byte in front of its bytes. -/
theorem asBytes_cons {first : Char} (hascii : first.toNat ≤ 127) (rest : List Char) :
    asBytes (String.ofList (first :: rest)) =
      UInt8.ofNat first.toNat :: asBytes (String.ofList rest) := by
  have hchar : String.utf8EncodeChar first = [UInt8.ofNat first.toNat] := if_pos hascii
  simp only [asBytes, String.toUTF8, String.toByteArray_ofList]
  rw [List.utf8Encode_cons, List.utf8Encode_singleton, hchar, ByteArray.data_append]
  simp

theorem firstByte_expectedChallenge (pubkey : Pubkey) (challenge : String) :
    ∃ first rest, asBytes (expectedChallenge pubkey challenge) = first :: rest ∧
      49 ≤ first.toNat ∧ first.toNat ≤ 122 := by
  have hne : pubkey.bytes ≠ [] := by
    intro hnil
    have hlength := pubkey.length_eq
    rw [hnil] at hlength
    cases hlength
  obtain ⟨first, rest, htext, hlow, hhigh⟩ := exists_first_base58Encode hne
  have hchallenge : expectedChallenge pubkey challenge =
      String.ofList (first :: (rest ++ ("-" ++ challenge).toList)) := by
    rw [← String.toList_inj, String.toList_ofList, expectedChallenge, String.append_assoc,
      String.toList_append, Pubkey.toText, htext, List.cons_append]
  have hbyte : (UInt8.ofNat first.toNat).toNat = first.toNat :=
    UInt8.toNat_ofNat_of_lt' (show first.toNat < 256 by omega)
  have hbytes := asBytes_cons (Nat.le_trans hhigh (by decide)) (rest ++ ("-" ++ challenge).toList)
  rw [← hchallenge] at hbytes
  refine ⟨_, _, hbytes, ?_⟩
  rw [hbyte]
  exact ⟨hlow, hhigh⟩

/-- Neither the number of signatures of a transaction that fits nor a version byte is a
character of a key. -/
theorem noTransaction_expectedChallenge (pubkey : Pubkey) (challenge : String) :
    NoTransaction (expectedChallenge pubkey challenge) := by
  intro tx hfits hsame
  obtain ⟨first, rest, hmessage, hfirst⟩ := firstByte_of_fits hfits
  obtain ⟨byte, bytes, hbytes, hlow, hhigh⟩ := firstByte_expectedChallenge pubkey challenge
  rw [hmessage, hbytes, List.cons.injEq] at hsame
  obtain ⟨rfl, -⟩ := hsame
  rcases hfirst with hfew | rfl
  · omega
  · exact absurd hhigh (by decide)

/-- `auth` asks its key for the signature of one text, which starts with the key. -/
theorem auth_congr {env : ClientEnv} {authClient : AuthServiceClient} {keypair keypair' : Keypair}
    (hpubkey : keypair'.pubkey = keypair.pubkey)
    (hsigns : ∀ challenge, keypair'.signMessage (expectedChallenge keypair.pubkey challenge) =
      keypair.signMessage (expectedChallenge keypair.pubkey challenge)) :
    auth env authClient keypair' = auth env authClient keypair := by
  unfold auth
  rw [hpubkey]
  cases authClient.generateAuthChallenge ⟨env.relayerRole, keypair.pubkey.bytes⟩ with
  | error e => rfl
  | ok authResponse =>
    have hsame : keypair'.signMessage (keypair.pubkey.toText ++ "-" ++ authResponse) =
        keypair.signMessage (keypair.pubkey.toText ++ "-" ++ authResponse) := hsigns authResponse
    simp only [Except.mapError, bind, Except.bind, hsame]

/-- For every key and every challenge the text that is signed is not the message of a
transaction that fits into a packet.  A client whose key refused to sign such messages
would authenticate in the same way with every service, so `auth` never asks for one; and
the tokens of `generate_auth_tokens` are only handed out for a text that is none. -/
theorem signed_challenge_no_transaction :
    (∀ (pubkey : Pubkey) (challenge : String), NoTransaction (expectedChallenge pubkey challenge)) ∧
    (∀ (env : ClientEnv) (authClient : AuthServiceClient) (keypair keypair' : Keypair),
      keypair'.pubkey = keypair.pubkey →
      (∀ text, NoTransaction text → keypair'.signMessage text = keypair.signMessage text) →
      auth env authClient keypair' = auth env authClient keypair) ∧
    (∀ (Ip : Type) (env : AuthEnv Ip) (stored : Option (AuthChallenge Ip)) (pubkey : Pubkey)
      (req : TokensRequest Ip) (access refresh : SignedToken),
      tokensAfterGetPriority env stored pubkey req = .ok (access, refresh) →
      (∃ challenge, req.challenge = expectedChallenge pubkey challenge) ∧
        NoTransaction req.challenge) := by
  refine ⟨noTransaction_expectedChallenge, ?_, ?_⟩
  · intro env authClient keypair keypair' hpubkey hsigns
    refine auth_congr hpubkey ?_
    intro challenge
    exact hsigns _ (noTransaction_expectedChallenge keypair.pubkey challenge)
  · intro Ip env stored pubkey req access refresh h
    obtain ⟨authChallenge, -, -, hchallenge, -⟩ := tokensAfterGetPriority_eq_ok h
    refine ⟨⟨_, hchallenge⟩, ?_⟩
    rw [hchallenge]
    exact noTransaction_expectedChallenge pubkey _

/-- The client of `plainKeypair` with a key that refuses to sign the message of a
transaction without accounts. -/
def guardedKeypair : Keypair where
  pubkey := (BlockEngine.plainKeypair).pubkey
  signMessage text := if asBytes text = [1, 0, 0] then [] else [7]

/-- The client of `guardedKeypair` with a key that signs everything. -/
def openKeypair : Keypair where
  pubkey := (BlockEngine.plainKeypair).pubkey
  signMessage _ := [7]

/-- The smallest transaction with one signature. -/
def emptyTransaction : WireTransaction where
  signatures := [⟨List.replicate 64 0, by simp⟩]
  message := .legacy ⟨1, 0, 0⟩ []
  signed := rfl

theorem signed_challenge_no_transaction_guarded :
    emptyTransaction.Fits ∧
      emptyTransaction.message.serialize ≠ asBytes (expectedChallenge (uniformKey 1) "challenge") ∧
      auth BlockEngine.plainClient (BlockEngine.serviceUntil 310 800) guardedKeypair =
        auth BlockEngine.plainClient (BlockEngine.serviceUntil 310 800) openKeypair := by
  have hfits : emptyTransaction.Fits := by decide
  obtain ⟨hnone, hauth, -⟩ := signed_challenge_no_transaction
  refine ⟨hfits, hnone (uniformKey 1) "challenge" emptyTransaction hfits, ?_⟩
  refine hauth _ _ openKeypair guardedKeypair rfl ?_
  intro text htext
  exact if_neg fun hbytes => htext emptyTransaction hfits hbytes.symm

/-! ## The bearer header -/

theorem bearer_ne_nil : bearer.toList ≠ [] := by decide

theorem isPrefixOf_bearer_append (token : String) :
    bearer.toList.isPrefixOf (bearer ++ token).toList = true := by
  rw [List.isPrefixOf_iff_prefix, String.toList_append]
  exact List.prefix_append _ _

/-- What `jwt_from_header` verifies, and when it comes to verifying. -/
theorem bearerToken_eq_ok_iff {authorization : Option MetadataValue} {token : String} :
    bearerToken authorization = .ok token ↔
      authorization = some (.text (bearer ++ token)) ∧ ¬ bearer.toList <:+: token.toList := by
  constructor
  · intro h
    simp only [bearerToken, bind_eq_ok_iff, okOr_eq_ok_iff] at h
    obtain ⟨value, hvalue, h⟩ := h
    cases value with
    | unreadable => cases h
    | text authHeader =>
      simp only [bind_eq_ok_iff, ensure_eq_ok_iff] at h
      obtain ⟨-, hstart, h⟩ := h
      -- the header starts with the separator, so its first piece is empty
      obtain ⟨rest, hrest⟩ := List.isPrefixOf_iff_prefix.mp hstart
      rw [← hrest, splitBy_append bearer_ne_nil] at h
      split at h
      · rename_i piece hpieces
        rw [List.cons.injEq] at hpieces
        obtain ⟨rfl, hnone⟩ := (splitBy_eq_singleton_iff bearer_ne_nil).mp hpieces.2
        rw [pure_eq_ok_iff] at h
        subst h
        refine ⟨?_, by rwa [String.toList_ofList]⟩
        rw [hvalue, Option.some.injEq, MetadataValue.text.injEq, ← String.toList_inj, ← hrest,
          String.toList_append, String.toList_ofList]
      · cases h
  · rintro ⟨rfl, hnone⟩
    have hpieces : splitBy bearer.toList (bearer ++ token).toList = [[], token.toList] := by
      rw [String.toList_append, splitBy_append bearer_ne_nil,
        (splitBy_eq_singleton_iff bearer_ne_nil).mpr ⟨rfl, hnone⟩]
    have hstart := isPrefixOf_bearer_append token
    unfold bearerToken
    rw [bind_eq_ok_iff]
    refine ⟨_, rfl, ?_⟩
    simp only [bind_eq_ok_iff, ensure_eq_ok_iff]
    refine ⟨(), hstart, ?_⟩
    rw [hpieces]
    exact congrArg Except.ok String.ofList_toList

/-- A text without a space does not contain the separator. -/
theorem not_infix_of_no_space {token : String} (hspace : ' ' ∉ token.toList) :
    ¬ bearer.toList <:+: token.toList := by
  intro hwithin
  exact hspace (hwithin.subset (by decide))

/-- The header parser accepts exactly the texts `Bearer t` with no further `Bearer ` in `t`,
and it is `t` that is verified; a token without a space comes back from the header the
client makes of it. -/
theorem bearer_header_exact :
    (∀ (authorization : Option MetadataValue) (token : String),
      bearerToken authorization = .ok token ↔
        authorization = some (.text ("Bearer " ++ token)) ∧
          ¬ "Bearer ".toList <:+: token.toList) ∧
    (∀ (jwt : Jwt) (expectedSigningAlgo : AlgorithmType) (authHeader : String)
      (claims : DeSerClaims),
      jwtFromHeader jwt expectedSigningAlgo (some (.text authHeader)) = .ok claims ↔
        ∃ token, authHeader = "Bearer " ++ token ∧ ¬ "Bearer ".toList <:+: token.toList ∧
          jwt.verify token = some (expectedSigningAlgo, claims)) ∧
    (∀ token : String, ' ' ∉ token.toList →
      bearerToken (some (.text ("Bearer " ++ token))) = .ok token) ∧
    (∀ (env : ClientEnv) (accessToken : Token) (header : String),
      (∀ text value, env.parseHeader text = some value → value = text) →
      ' ' ∉ accessToken.value.toList →
      BlockEngine.interceptorCall env accessToken = .ok header →
      bearerToken (some (.text header)) = .ok accessToken.value) := by
  refine ⟨fun _ _ => bearerToken_eq_ok_iff, ?_, ?_, ?_⟩
  · intro jwt expectedSigningAlgo authHeader claims
    simp only [jwtFromHeader, bind_eq_ok_iff, okOr_eq_ok_iff, ensure_eq_ok_iff, pure_eq_ok_iff,
      bearerToken_eq_ok_iff, Option.some.injEq, MetadataValue.text.injEq]
    constructor
    · rintro ⟨token, ⟨hheader, hnone⟩, ⟨algorithm, verified⟩, hverify, -, rfl, rfl⟩
      exact ⟨token, hheader, hnone, hverify⟩
    · rintro ⟨token, hheader, hnone, hverify⟩
      exact ⟨token, ⟨hheader, hnone⟩, _, hverify, (), rfl, rfl⟩
  · intro token hspace
    exact bearerToken_eq_ok_iff.mpr ⟨rfl, not_infix_of_no_space hspace⟩
  · intro env accessToken header hkeeps hspace hheader
    have htext := hkeeps _ _ (okOr_eq_ok_iff.mp hheader)
    rw [htext]
    exact bearerToken_eq_ok_iff.mpr ⟨rfl, not_infix_of_no_space hspace⟩

theorem bearer_header_exact_plainClient :
    BlockEngine.interceptorCall BlockEngine.plainClient (BlockEngine.tokenUntil 310) =
        .ok "Bearer token" ∧
      bearerToken (some (.text "Bearer token")) = .ok "token" ∧
      ∀ token, bearerToken (some (.text "Bearer a Bearer b")) ≠ .ok token := by
  obtain ⟨hexact, -, -, hclient⟩ := bearer_header_exact
  refine ⟨rfl, ?_, ?_⟩
  · refine hclient BlockEngine.plainClient (BlockEngine.tokenUntil 310) "Bearer token" ?_ ?_ rfl
    · intro text value hvalue
      exact (Option.some.inj hvalue).symm
    · decide
  · intro token htoken
    obtain ⟨hheader, hnone⟩ := (hexact _ _).mp htoken
    have htext : "Bearer " ++ "a Bearer b" = "Bearer " ++ token :=
      MetadataValue.text.inj (Option.some.inj hheader)
    rw [← String.toList_inj, String.toList_append, String.toList_append] at htext
    rw [← List.append_cancel_left htext] at hnone
    exact hnone (by decide)

end FlowraRelayer.Relayer
