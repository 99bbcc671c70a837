/-
  Core/StakedNodes.lean --- the stake map of `core/src/staked_nodes_updater_service.rs`.

  Every few seconds the updater thread asks an RPC server for the vote accounts, current
  and delinquent, and collects a map from node identity to stake out of them.  A node may
  run several vote accounts.  `collect` on a hash map keeps one value for each key, the
  last, so such a node gets the stake of the account that happens to come last and not
  what it has altogether: `stake_aggregation_iff` says for which answers the difference
  shows, `stake_of_one_account_only` is one where it does.

  Left out: what `StakedNodes::new` precomputes from the two maps it is given.
-/
import FlowraRelayer.Foundation.Collect
import FlowraRelayer.Foundation.Run
import FlowraRelayer.Solana.Transaction

set_option autoImplicit false

namespace FlowraRelayer.Core

open FlowraRelayer.Foundation
open FlowraRelayer.Solana

/-- `PK_TO_STAKE_REFRESH_DURATION`. -/
def pkToStakeRefreshDuration : Time := 5 * nanosPerSecond

/-! ## The refresh -/

/-- What is read of an `RpcVoteAccountInfo`. -/
structure VoteAccount where
  nodePubkey : String
  activatedStake : UInt64
  deriving DecidableEq

/-- `RpcVoteAccountStatus`. -/
structure VoteAccounts where
  current : List VoteAccount
  delinquent : List VoteAccount
  deriving DecidableEq

/-- The accounts in the order of `current.iter().chain(delinquent.iter())`. -/
def VoteAccounts.chain (voteAccounts : VoteAccounts) : List VoteAccount :=
  voteAccounts.current ++ voteAccounts.delinquent

/-- `HashMap<Pubkey, u64>`. -/
abbrev StakeMap : Type := AList fun _ : Pubkey => UInt64

/-- The closure of the `filter_map`: nothing for a text that is not a key. -/
def stakePair (voteAccount : VoteAccount) : Option (Pubkey × UInt64) :=
  (Pubkey.fromStr voteAccount.nodePubkey).map fun pubkey => (pubkey, voteAccount.activatedStake)

/-- The pairs that are collected. -/
def VoteAccounts.stakePairs (voteAccounts : VoteAccounts) : List (Pubkey × UInt64) :=
  voteAccounts.chain.filterMap stakePair

/-- The `collect` into a hash map. -/
def collectStakes (voteAccounts : VoteAccounts) : StakeMap :=
  voteAccounts.stakePairs.foldl (fun stakeMap pair => stakeMap.insert pair.1 pair.2) ∅

/-- The two variables `try_refresh_pk_to_stake` is lent. -/
structure StakeRefresh where
  lastStakes : Time
  pubkeyStakeMap : StakeMap

/-- `try_refresh_pk_to_stake`: its result and the variables afterwards.  `checked` is the
clock reading of `elapsed`, `now` the one after the map was built; `none` in place of the
vote accounts is an RPC error, and `none` as result is the error returned. -/
def tryRefreshPkToStake (checked now : Time) (voteAccounts : Option VoteAccounts)
    (s : StakeRefresh) : Option Bool × StakeRefresh :=
  if pkToStakeRefreshDuration < checked - s.lastStakes then
    match voteAccounts with
    | none => (none, s)
    | some voteAccounts => (some true, ⟨now, collectStakes voteAccounts⟩)
  else (some false, s)

/-- `StakedNodes`, by what it is made of. -/
structure StakedNodes where
  stakes : StakeMap
  overrides : StakeMap

/-- The updater thread between two turns: its local `last_stakes` and what it shares. -/
structure StakedNodesUpdater where
  lastStakes : Time
  sharedStakedNodes : StakedNodes

/-- One turn of the thread.  Every turn starts with an empty map, and only a turn that
refreshed it publishes it. -/
def StakedNodesUpdater.turn (overrides : StakeMap) (checked now : Time)
    (voteAccounts : Option VoteAccounts) (u : StakedNodesUpdater) : StakedNodesUpdater :=
  match tryRefreshPkToStake checked now voteAccounts ⟨u.lastStakes, ∅⟩ with
  | (some true, s) => ⟨s.lastStakes, ⟨s.pubkeyStakeMap, overrides⟩⟩
  | (_, s) => { u with lastStakes := s.lastStakes }

/-- A failed call leaves the map and the time of the last refresh as they are, and the
thread publishes nothing. -/
theorem tryRefreshPkToStake_none (checked now : Time) (s : StakeRefresh) :
    (tryRefreshPkToStake checked now none s).2 = s := by
  unfold tryRefreshPkToStake
  split <;> rfl

theorem turn_none (overrides : StakeMap) (checked now : Time) (u : StakedNodesUpdater) :
    u.turn overrides checked now none = u := by
  unfold StakedNodesUpdater.turn tryRefreshPkToStake
  split
  · next h =>
    split at h <;> cases h
  · next h =>
    split at h <;> cases h <;> rfl

/-! ## What the map holds -/

/-- What all pairs of a key amount to. -/
def totalStake (pairs : List (Pubkey × UInt64)) (pubkey : Pubkey) : Nat :=
  ((pairs.filter fun pair => pair.1 = pubkey).map fun pair => pair.2.toNat).sum

/-- The last account of a node decides. -/
theorem lookup_collectStakes (voteAccounts : VoteAccounts) (pubkey : Pubkey) :
    (collectStakes voteAccounts).lookup pubkey = lastOf voteAccounts.stakePairs pubkey := by
  unfold collectStakes
  rw [lookup_foldl_insert]
  simp

theorem totalStake_cons (pair : Pubkey × UInt64) (rest : List (Pubkey × UInt64))
    (pubkey : Pubkey) :
    totalStake (pair :: rest) pubkey =
      (if pair.1 = pubkey then pair.2.toNat else 0) + totalStake rest pubkey := by
  by_cases heq : pair.1 = pubkey <;> simp [totalStake, heq]

theorem totalStake_perm {pairs others : List (Pubkey × UInt64)} (h : pairs.Perm others)
    (pubkey : Pubkey) : totalStake pairs pubkey = totalStake others pubkey :=
  ((h.filter _).map _).sum_eq

/-- Every node identity has the sum of the stakes of its vote accounts. -/
def SumsStakes (voteAccounts : VoteAccounts) : Prop :=
  ∀ pubkey, (∃ account ∈ voteAccounts.chain, Pubkey.fromStr account.nodePubkey = some pubkey) →
    ((collectStakes voteAccounts).lookup pubkey).map UInt64.toNat =
      some (totalStake voteAccounts.stakePairs pubkey)

/-- No other arrangement of the accounts, within the two lists or between them, gives
another map. -/
def OrderIndependent (voteAccounts : VoteAccounts) : Prop :=
  ∀ others : VoteAccounts, others.chain.Perm voteAccounts.chain →
    ∀ pubkey, (collectStakes others).lookup pubkey = (collectStakes voteAccounts).lookup pubkey

/-- Two pairs of one key carry no stake. -/
def Unstaked (pair other : Pubkey × UInt64) : Prop :=
  pair.1 = other.1 → pair.2 = 0 ∧ other.2 = 0

instance (pair other : Pubkey × UInt64) : Decidable (Unstaked pair other) :=
  inferInstanceAs (Decidable (_ → _ ∧ _))

/-- A node with several vote accounts has no stake in any of them. -/
def SharedUnstaked (voteAccounts : VoteAccounts) : Prop :=
  voteAccounts.chain.Pairwise fun account other =>
    ∀ pubkey, Pubkey.fromStr account.nodePubkey = some pubkey →
      Pubkey.fromStr other.nodePubkey = some pubkey →
        account.activatedStake = 0 ∧ other.activatedStake = 0

/-! ## One account with stake -/

theorem unstaked_symm {pair other : Pubkey × UInt64} (h : Unstaked pair other) :
    Unstaked other pair := by
  intro heq
  exact (h heq.symm).symm

/-- With stake in at most one account, what stays is the sum. -/
theorem totalStake_eq_lastOf {pairs : List (Pubkey × UInt64)} (hpairs : pairs.Pairwise Unstaked)
    (pubkey : Pubkey) :
    totalStake pairs pubkey = ((lastOf pairs pubkey).map UInt64.toNat).getD 0 := by
  induction pairs with
  | nil => rfl
  | cons pair rest ih =>
    obtain ⟨hhead, hrest⟩ := List.pairwise_cons.mp hpairs
    rw [totalStake_cons, ih hrest, lastOf_cons]
    by_cases heq : pair.1 = pubkey
    · cases hlast : lastOf rest pubkey with
      | none => simp [heq]
      | some stake =>
        -- a later account of the same node: none of the two has any stake
        obtain ⟨hzero, hlater⟩ := hhead _ (mem_of_lastOf hlast) heq
        simp [hzero]
    · simp [heq]

theorem pairwise_stakePairs {voteAccounts : VoteAccounts} (h : SharedUnstaked voteAccounts) :
    voteAccounts.stakePairs.Pairwise Unstaked := by
  unfold VoteAccounts.stakePairs
  rw [List.pairwise_filterMap]
  refine List.Pairwise.imp ?_ h
  intro account other hshared pair hpair otherPair hother heq
  obtain ⟨pubkey, hpubkey, rfl⟩ := Option.map_eq_some_iff.mp hpair
  obtain ⟨otherPubkey, hotherPubkey, rfl⟩ := Option.map_eq_some_iff.mp hother
  dsimp only at heq
  subst heq
  exact hshared pubkey hpubkey hotherPubkey

/-- A node that is listed has an entry. -/
theorem isSome_lastOf_of_listed {voteAccounts : VoteAccounts} {pubkey : Pubkey}
    (hlisted : ∃ account ∈ voteAccounts.chain, Pubkey.fromStr account.nodePubkey = some pubkey) :
    ∃ stake, lastOf voteAccounts.stakePairs pubkey = some stake := by
  obtain ⟨account, hmem, hpubkey⟩ := hlisted
  have hpair : (pubkey, account.activatedStake) ∈ voteAccounts.stakePairs :=
    List.mem_filterMap.mpr ⟨account, hmem, by simp [stakePair, hpubkey]⟩
  cases hlast : lastOf voteAccounts.stakePairs pubkey with
  | none => exact absurd rfl (lastOf_eq_none_iff.mp hlast _ hpair)
  | some stake => exact ⟨stake, rfl⟩

theorem sumsStakes_of_sharedUnstaked {voteAccounts : VoteAccounts}
    (h : SharedUnstaked voteAccounts) : SumsStakes voteAccounts := by
  intro pubkey hlisted
  obtain ⟨stake, hstake⟩ := isSome_lastOf_of_listed hlisted
  rw [lookup_collectStakes, totalStake_eq_lastOf (pairwise_stakePairs h), hstake]
  rfl

/-- What stays depends on the sum and on who is listed only. -/
theorem lastOf_perm {pairs others : List (Pubkey × UInt64)} (hperm : others.Perm pairs)
    (hpairs : pairs.Pairwise Unstaked) (pubkey : Pubkey) :
    lastOf others pubkey = lastOf pairs pubkey := by
  have hothers : others.Pairwise Unstaked :=
    (hperm.pairwise_iff fun h => unstaked_symm h).mpr hpairs
  have hsum : totalStake others pubkey = totalStake pairs pubkey := totalStake_perm hperm pubkey
  rw [totalStake_eq_lastOf hothers, totalStake_eq_lastOf hpairs] at hsum
  have hnone : lastOf others pubkey = none ↔ lastOf pairs pubkey = none := by
    simp only [lastOf_eq_none_iff, hperm.mem_iff]
  cases hother : lastOf others pubkey with
  | none => exact (hnone.mp hother).symm
  | some stake =>
    cases hpair : lastOf pairs pubkey with
    | none => rw [hnone.mpr hpair] at hother; cases hother
    | some stake' =>
      rw [hother, hpair] at hsum
      exact congrArg some (UInt64.toNat_inj.mp hsum)

theorem orderIndependent_of_sharedUnstaked {voteAccounts : VoteAccounts}
    (h : SharedUnstaked voteAccounts) : OrderIndependent voteAccounts := by
  intro others hperm pubkey
  rw [lookup_collectStakes, lookup_collectStakes]
  exact lastOf_perm (hperm.filterMap stakePair) (pairwise_stakePairs h) pubkey

/-! ## Two accounts with stake -/

/-- The account at the end decides, whatever comes before it. -/
theorem lookup_collectStakes_last {others : VoteAccounts} {account : VoteAccount}
    {pubkey : Pubkey} (rest : List VoteAccount) (hchain : others.chain = rest ++ [account])
    (hpubkey : Pubkey.fromStr account.nodePubkey = some pubkey) :
    (collectStakes others).lookup pubkey = some account.activatedStake := by
  rw [lookup_collectStakes, VoteAccounts.stakePairs, hchain, List.filterMap_append, lastOf_append]
  simp [stakePair, hpubkey, lastOf_cons]

/-- Two accounts of a node add up to no more than the node has. -/
theorem add_le_totalStake {voteAccounts : VoteAccounts} {account other : VoteAccount}
    {rest : List VoteAccount} {pubkey : Pubkey}
    (hperm : voteAccounts.chain.Perm ([account, other] ++ rest))
    (hpubkey : Pubkey.fromStr account.nodePubkey = some pubkey)
    (hother : Pubkey.fromStr other.nodePubkey = some pubkey) :
    account.activatedStake.toNat + other.activatedStake.toNat ≤
      totalStake voteAccounts.stakePairs pubkey := by
  unfold VoteAccounts.stakePairs
  rw [totalStake_perm (hperm.filterMap stakePair)]
  simp [stakePair, hpubkey, hother, totalStake_cons, ← Nat.add_assoc]

theorem sharedUnstaked_of_aggregation {voteAccounts : VoteAccounts}
    (hsums : SumsStakes voteAccounts) (horder : OrderIndependent voteAccounts) :
    SharedUnstaked voteAccounts := by
  refine List.pairwise_iff_forall_sublist.mpr ?_
  intro account other hsublist pubkey hpubkey hother
  obtain ⟨rest, hperm⟩ := hsublist.exists_perm_append
  have hadd := add_le_totalStake hperm hpubkey hother
  -- bring either of the two accounts to the end: it has the whole stake of the node
  have hlast : ∀ {front : List VoteAccount} {last : VoteAccount},
      (front ++ [last]).Perm voteAccounts.chain →
      Pubkey.fromStr last.nodePubkey = some pubkey →
        last.activatedStake.toNat = totalStake voteAccounts.stakePairs pubkey := by
    intro front last hmoved hlast
    have hmem : last ∈ voteAccounts.chain := hmoved.subset (by simp)
    have hstake := horder ⟨front ++ [last], []⟩ (by simpa [VoteAccounts.chain] using hmoved) pubkey
    rw [lookup_collectStakes_last front (by simp [VoteAccounts.chain]) hlast] at hstake
    have htotal := hsums pubkey ⟨last, hmem, hlast⟩
    rw [← hstake] at htotal
    exact Option.some.inj htotal
  have haccountLast : (rest ++ [other] ++ [account]).Perm voteAccounts.chain := by
    rw [List.append_assoc]
    exact List.perm_append_comm.trans (((List.Perm.swap account other []).append_right rest).trans
      hperm.symm)
  have hotherLast : (rest ++ [account] ++ [other]).Perm voteAccounts.chain := by
    rw [List.append_assoc]
    exact List.perm_append_comm.trans hperm.symm
  have haccountTotal := hlast haccountLast hpubkey
  have hotherTotal := hlast hotherLast hother
  constructor
  · refine UInt64.toNat_inj.mp ?_
    rw [UInt64.toNat_zero]
    omega
  · refine UInt64.toNat_inj.mp ?_
    rw [UInt64.toNat_zero]
    omega

/-- For every answer of the RPC server: the map gives every node the sum of the stakes of
its vote accounts, however the accounts are arranged, exactly if no node with several
vote accounts has stake in any of them.  Whether or not, a failed call changes
neither the map, nor the time of the last refresh, nor what is shared. -/
theorem stake_aggregation_iff (voteAccounts : VoteAccounts) :
    (SumsStakes voteAccounts ∧ OrderIndependent voteAccounts ↔ SharedUnstaked voteAccounts) ∧
      (∀ checked now s, (tryRefreshPkToStake checked now none s).2 = s) ∧
      ∀ overrides checked now (u : StakedNodesUpdater), u.turn overrides checked now none = u := by
  refine ⟨⟨?_, ?_⟩, tryRefreshPkToStake_none, turn_none⟩
  · rintro ⟨hsums, horder⟩
    exact sharedUnstaked_of_aggregation hsums horder
  · intro h
    exact ⟨sumsStakes_of_sharedUnstaked h, orderIndependent_of_sharedUnstaked h⟩

/-- A node with two vote accounts. -/
def twoVoteAccounts : VoteAccounts where
  current := [⟨(uniformKey 1).toText, 7⟩]
  delinquent := [⟨(uniformKey 1).toText, 5⟩]

/-- The delinquent account replaces the current one: 5, not 12. -/
theorem stake_of_one_account_only :
    ¬ ∀ voteAccounts : VoteAccounts, SumsStakes voteAccounts ∧ OrderIndependent voteAccounts := by
  intro hall
  have hlisted : ∃ account ∈ twoVoteAccounts.chain,
      Pubkey.fromStr account.nodePubkey = some (uniformKey 1) :=
    ⟨⟨(uniformKey 1).toText, 7⟩, by decide, Pubkey.fromStr_toText _⟩
  have hsum := (hall twoVoteAccounts).1 (uniformKey 1) hlisted
  exact absurd hsum (by decide)

end FlowraRelayer.Core
