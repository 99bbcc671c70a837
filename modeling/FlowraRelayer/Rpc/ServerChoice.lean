/-
  Rpc/ServerChoice.lean --- `rpc_client` and `get_highest_slot` of
  `rpc/src/load_balancer.rs`, while the subscription threads write.

  `get_highest_slot` iterates over `server_to_slot`, a concurrent map, and takes the entry
  with the highest slot; `rpc_client` then looks the server up in `server_to_rpc_client`.
  `chooserStep` interleaves these steps with those of the subscription threads: an insert may
  come between any two entries the iterator yields, and between the two lookups.  How the map
  locks its entries is left open, and so is the order of the iterator; what is used is that it
  yields every key once, and that a slot stays as it is while `max_by` has a reference to it.

  So `rpc_client` need not return the client of the server that is ahead, neither of the one
  that was ahead when the call began nor of the one that is when it returns.
  `rpc_client_choice` is what a caller can rely on.

  `since` records the map as it has been since a call began; no step reads it.
-/
import FlowraRelayer.Foundation.Collect
import FlowraRelayer.Foundation.Scan
import FlowraRelayer.Rpc.SlotFanIn
import Mathlib.Data.List.Dedup

set_option autoImplicit false

namespace FlowraRelayer.Rpc

open FlowraRelayer.Foundation
open FlowraRelayer.Solana

/-! ## State and steps -/

/-- The threads that call `rpc_client`. -/
inductive Caller where
  | stakedNodes
  | leaderSchedule
  | lookupTables
  deriving DecidableEq

/-- `server_to_slot` at one time. -/
abbrev ServerSlots : Type := String → Option Slot

/-- Where a call of `rpc_client` is. -/
inductive RpcPhase where
  /-- in `get_highest_slot`, at the iterator -/
  | scanning (scan : Scan String Slot)
  /-- `get_highest_slot` has returned -/
  | chosen (server : String) (slot : Slot)

/-- A call of `rpc_client` in progress. -/
structure RpcCall where
  phase : RpcPhase
  /-- the map as it has been since the call began, oldest first -/
  since : List ServerSlots

/-- What a call has returned, and what `get_highest_slot` returned to it. -/
structure RpcAnswer where
  server : String
  slot : Slot
  /-- the address of the RPC client -/
  client : String
  since : List ServerSlots

/-- The subscription threads and the calls. -/
structure Chooser where
  feed : FanInState
  calls : Caller → Option RpcCall
  answers : List RpcAnswer
  /-- an `unwrap` failed -/
  panicked : Bool

def Chooser.init (servers : List (String × String)) : Chooser where
  feed := FanInState.init servers
  calls := fun _ => none
  answers := []
  panicked := false

/-- The keys of both maps. -/
def serverKeys (servers : List (String × String)) : List String := (servers.map Prod.snd).dedup

/-- `server_to_rpc_client`, filled pair by pair. -/
def serverToRpcClient (servers : List (String × String)) : String → Option String :=
  lastOf (servers.map Prod.swap)

inductive ChooserLabel where
  | feed (label : FanInLabel)
  | begin (caller : Caller)
  /-- the iterator yields the entry of a server, which `max_by` compares -/
  | compare (caller : Caller) (server : String)
  /-- `get_highest_slot` returns -/
  | getHighestSlot (caller : Caller)
  /-- the lookup of the client, and the return of `rpc_client` -/
  | rpcClient (caller : Caller)

/-- Replace a call. -/
def Chooser.setCall (s : Chooser) (caller : Caller) (call : Option RpcCall) : Chooser :=
  { s with calls := Function.update s.calls caller call }

@[simp] theorem Chooser.calls_setCall_self (s : Chooser) (caller : Caller) (call : Option RpcCall) :
    (s.setCall caller call).calls caller = call := by
  simp [Chooser.setCall]

theorem Chooser.calls_setCall_of_ne (s : Chooser) {caller other : Caller} (call : Option RpcCall)
    (hne : other ≠ caller) : (s.setCall caller call).calls other = s.calls other := by
  simp [Chooser.setCall, hne]

/-- A failed `unwrap` ends the call, and its thread. -/
def Chooser.panic (s : Chooser) (caller : Caller) : Chooser :=
  { s.setCall caller none with panicked := true }

/-- One step of a subscription thread, of the slot receiver, or of a call. -/
def chooserStep (servers : List (String × String)) (s : Chooser) : ChooserLabel → Option Chooser
  | .feed label =>
      (fanInStep servers s.feed label).map fun feed =>
        { s with
          feed
          calls := fun caller => (s.calls caller).map fun call =>
            { call with since := call.since ++ [feed.balancer.serverToSlot] } }
  | .begin caller =>
      match s.calls caller with
      | some _ => none
      | none =>
          some (s.setCall caller
            (some ⟨.scanning (Scan.start (serverKeys servers)), [s.feed.balancer.serverToSlot]⟩))
  | .compare caller server =>
      match s.calls caller with
      | some ⟨.scanning scan, since⟩ =>
          (scan.read s.feed.balancer.serverToSlot server).map fun scan =>
            s.setCall caller (some ⟨.scanning scan, since⟩)
      | _ => none
  | .getHighestSlot caller =>
      match s.calls caller with
      | some ⟨.scanning ⟨[], best⟩, since⟩ =>
          match best with
          | none => some (s.panic caller)
          | some (server, slot) => some (s.setCall caller (some ⟨.chosen server slot, since⟩))
      | _ => none
  | .rpcClient caller =>
      match s.calls caller with
      | some ⟨.chosen server slot, since⟩ =>
          match serverToRpcClient servers server with
          | none => some (s.panic caller)
          | some client =>
              some
                { s.setCall caller none with
                  answers := s.answers ++ [⟨server, slot, client, since⟩] }
      | _ => none

/-- Everything a step can do. -/
inductive ChooserMove (servers : List (String × String)) (s : Chooser) : Chooser → Prop where
  | fed {label : FanInLabel} {feed : FanInState}
      (hfeed : fanInStep servers s.feed label = some feed) :
      ChooserMove servers s
        { s with
          feed
          calls := fun caller => (s.calls caller).map fun call =>
            { call with since := call.since ++ [feed.balancer.serverToSlot] } }
  | begun (caller : Caller) :
      ChooserMove servers s (s.setCall caller
        (some ⟨.scanning (Scan.start (serverKeys servers)), [s.feed.balancer.serverToSlot]⟩))
  | compared {caller : Caller} {server : String} {scan scan' : Scan String Slot}
      {since : List ServerSlots} (hcall : s.calls caller = some ⟨.scanning scan, since⟩)
      (hread : scan.read s.feed.balancer.serverToSlot server = some scan') :
      ChooserMove servers s (s.setCall caller (some ⟨.scanning scan', since⟩))
  | foundNone {caller : Caller} {since : List ServerSlots}
      (hcall : s.calls caller = some ⟨.scanning ⟨[], none⟩, since⟩) :
      ChooserMove servers s (s.panic caller)
  | chose {caller : Caller} {server : String} {slot : Slot} {since : List ServerSlots}
      (hcall : s.calls caller = some ⟨.scanning ⟨[], some (server, slot)⟩, since⟩) :
      ChooserMove servers s (s.setCall caller (some ⟨.chosen server slot, since⟩))
  | noClient {caller : Caller} {server : String} {slot : Slot} {since : List ServerSlots}
      (hcall : s.calls caller = some ⟨.chosen server slot, since⟩)
      (hclient : serverToRpcClient servers server = none) :
      ChooserMove servers s (s.panic caller)
  | returned {caller : Caller} {server client : String} {slot : Slot} {since : List ServerSlots}
      (hcall : s.calls caller = some ⟨.chosen server slot, since⟩)
      (hclient : serverToRpcClient servers server = some client) :
      ChooserMove servers s
        { s.setCall caller none with answers := s.answers ++ [⟨server, slot, client, since⟩] }

theorem move_of_chooserStep {servers : List (String × String)} {s s' : Chooser}
    {label : ChooserLabel} (h : chooserStep servers s label = some s') :
    ChooserMove servers s s' := by
  cases label with
  | feed label =>
    obtain ⟨feed, hfeed, rfl⟩ := Option.map_eq_some_iff.mp h
    exact .fed hfeed
  | begin caller =>
    simp only [chooserStep] at h
    split at h
    · cases h
    · cases h
      exact .begun caller
  | compare caller server =>
    simp only [chooserStep] at h
    split at h
    · next hcall =>
      obtain ⟨scan, hread, rfl⟩ := Option.map_eq_some_iff.mp h
      exact .compared hcall hread
    · cases h
  | getHighestSlot caller =>
    simp only [chooserStep] at h
    split at h
    · next hcall =>
      split at h
      · cases h
        exact .foundNone hcall
      · cases h
        exact .chose hcall
    · cases h
  | rpcClient caller =>
    simp only [chooserStep] at h
    split at h
    · next hcall =>
      split at h
      · next hclient =>
        cases h
        exact .noClient hcall hclient
      · next hclient =>
        cases h
        exact .returned hcall hclient
    · cases h

/-! ## What the subscription threads write -/

/-- Every server has a slot. -/
def AllPresent (servers : List (String × String)) (slots : ServerSlots) : Prop :=
  ∀ server ∈ serverKeys servers, (slots server).isSome = true

section Feed

variable {servers : List (String × String)}

theorem allPresent_new (servers : List (String × String)) :
    AllPresent servers (LoadBalancer.new servers).serverToSlot := by
  intro server hserver
  simp [LoadBalancer.new, List.mem_dedup.mp hserver]

theorem AllPresent.update {slots : ServerSlots} (h : AllPresent servers slots) (written : String)
    (slot : Slot) : AllPresent servers (Function.update slots written (some slot)) := by
  intro server hserver
  by_cases heq : server = written
  · rw [heq, Function.update_self]
    rfl
  · rw [Function.update_of_ne heq]
    exact h server hserver

/-- No thread takes a server out of the map. -/
theorem allPresent_threadStep {exit : Bool} {lb lb' : LoadBalancer} {i : Nat} {label : ThreadLabel}
    (hpresent : AllPresent servers lb.serverToSlot)
    (h : threadStep servers exit lb i label = some lb') : AllPresent servers lb'.serverToSlot := by
  rcases threadStep_cases h with ⟨_, _, _, _, _, rfl⟩ | ⟨_, _, _, _, rfl⟩ |
    ⟨websocketUrl, slot, _, _, rfl⟩ | ⟨_, _, _, rfl⟩ | ⟨_, _, _, _, _, rfl⟩
  · exact hpresent
  · exact hpresent
  · exact hpresent.update websocketUrl slot
  · exact hpresent
  · exact hpresent

theorem allPresent_fanInStep {s s' : FanInState} {label : FanInLabel}
    (hpresent : AllPresent servers s.balancer.serverToSlot)
    (h : fanInStep servers s label = some s') : AllPresent servers s'.balancer.serverToSlot := by
  cases label with
  | setExit =>
    cases h
    exact hpresent
  | thread i sawExit label =>
    simp only [fanInStep, Option.ite_none_right_eq_some, Option.map_eq_some_iff] at h
    obtain ⟨-, balancer, hthread, rfl⟩ := h
    exact allPresent_threadStep hpresent hthread
  | takeSlot =>
    simp only [fanInStep] at h
    split at h
    · cases h
    · cases h
      exact hpresent
  | dropReceiver =>
    cases h
    exact hpresent

end Feed

/-! ## What a call returns -/

/-- What a caller of `rpc_client` can rely on. -/
structure ClientChosen (servers : List (String × String)) (answer : RpcAnswer) : Prop where
  /-- the server had that slot at some time during the call -/
  had : ∃ slots ∈ answer.since, slots answer.server = some answer.slot
  /-- every server had, at some time during the call, a slot that is not higher -/
  highest : ∀ server ∈ servers.map Prod.snd, ∃ slots ∈ answer.since, ∃ slot,
    slots server = some slot ∧ slot ≤ answer.slot
  /-- where no server's slot falls during the call, none was higher when it began -/
  fresh : Scan.Rising answer.since → ∀ first, answer.since.head? = some first →
    ∀ server ∈ servers.map Prod.snd, ∀ slot, first server = some slot → slot ≤ answer.slot
  /-- and the server has not fallen behind that slot when the call returns -/
  kept : Scan.Rising answer.since → ∀ last, answer.since.getLast? = some last →
    ∀ slot, last answer.server = some slot → answer.slot ≤ slot
  /-- the client is the one made for that server, the last of them if there are several -/
  client : ∃ before after, servers = before ++ (answer.client, answer.server) :: after ∧
    ∀ other ∈ after, other.2 ≠ answer.server

/-- What a call knows of the map as it has been. -/
structure CallInv (servers : List (String × String)) (slots : ServerSlots) (call : RpcCall) :
    Prop where
  now : slots ∈ call.since
  present : ∀ earlier ∈ call.since, AllPresent servers earlier
  phase : match call.phase with
    | .scanning scan => scan.Knows (serverKeys servers) call.since
    | .chosen server slot => Scan.Chosen (serverKeys servers) call.since (server, slot)

/-- What holds in every state. -/
structure ChooserInv (servers : List (String × String)) (s : Chooser) : Prop where
  present : AllPresent servers s.feed.balancer.serverToSlot
  calls : ∀ caller call, s.calls caller = some call →
    CallInv servers s.feed.balancer.serverToSlot call
  answers : ∀ answer ∈ s.answers, ClientChosen servers answer
  panicked : servers ≠ [] → s.panicked = false

section Calls

variable {servers : List (String × String)} {s s' : Chooser}

theorem chooserInv_init : ChooserInv servers (Chooser.init servers) where
  present := allPresent_new servers
  calls := by
    intro caller call hcall
    cases hcall
  answers := by
    intro answer hanswer
    cases hanswer
  panicked := fun _ => rfl

/-- Every server has a client. -/
theorem serverToRpcClient_ne_none {server : String} (hserver : server ∈ serverKeys servers) :
    serverToRpcClient servers server ≠ none := by
  intro hnone
  obtain ⟨pair, hpair, rfl⟩ := List.mem_map.mp (List.mem_dedup.mp hserver)
  exact lastOf_eq_none_iff.mp hnone pair.swap (List.mem_map_of_mem hpair) rfl

theorem client_of_lookup {server client : String}
    (h : serverToRpcClient servers server = some client) :
    ∃ before after, servers = before ++ (client, server) :: after ∧
      ∀ other ∈ after, other.2 ≠ server := by
  obtain ⟨before, after, hsplit, hlast⟩ := lastOf_eq_some_iff.mp h
  have hservers : servers = (before ++ (server, client) :: after).map Prod.swap := by
    rw [← hsplit, List.map_map, Prod.swap_swap_eq, List.map_id]
  refine ⟨before.map Prod.swap, after.map Prod.swap, ?_, ?_⟩
  · rw [hservers, List.map_append]
    rfl
  · intro other hother
    obtain ⟨pair, hpair, rfl⟩ := List.mem_map.mp hother
    exact hlast pair hpair

/-- What `rpc_client` returns after `get_highest_slot` has chosen. -/
theorem CallInv.clientChosen {slots : ServerSlots} {server client : String} {slot : Slot}
    {since : List ServerSlots} (h : CallInv servers slots ⟨.chosen server slot, since⟩)
    (hclient : serverToRpcClient servers server = some client) :
    ClientChosen servers ⟨server, slot, client, since⟩ := by
  have hchosen : Scan.Chosen (serverKeys servers) since (server, slot) := h.phase
  have hpresent : ∀ other ∈ servers.map Prod.snd, ∀ earlier ∈ since,
      (earlier other).isSome = true := fun other hother earlier hearlier =>
    h.present earlier hearlier other (List.mem_dedup.mpr hother)
  refine ⟨hchosen.had, ?_, ?_, ?_, client_of_lookup hclient⟩
  · intro other hother
    obtain ⟨earlier, hearlier, hslots⟩ := hchosen.topmost other (List.mem_dedup.mpr hother)
    obtain ⟨read, hread⟩ := Option.isSome_iff_exists.mp (hpresent other hother earlier hearlier)
    obtain ⟨_, ⟨⟩, hle⟩ := hslots read hread
    exact ⟨earlier, hearlier, read, hread, hle⟩
  · intro hrising first hfirst other hother value hvalue
    exact hchosen.le_of_rising hrising hfirst (List.mem_dedup.mpr hother) (hpresent other hother)
      hvalue
  · intro hrising last hlast value hvalue
    exact hchosen.le_last_of_rising hrising hlast hvalue

/-- If there is a server, an iterator that has come to its end has found one. -/
theorem CallInv.found {slots : ServerSlots} {since : List ServerSlots}
    {best : Option (String × Slot)} (h : CallInv servers slots ⟨.scanning ⟨[], best⟩, since⟩)
    (hservers : servers ≠ []) : best.isSome = true := by
  obtain ⟨pair, hpair⟩ := List.exists_mem_of_ne_nil servers hservers
  have hkey : pair.2 ∈ serverKeys servers :=
    List.mem_dedup.mpr (List.mem_map_of_mem hpair)
  have hknows : Scan.Knows (serverKeys servers) since ⟨[], best⟩ := h.phase
  exact hknows.isSome_best rfl hkey fun earlier hearlier => h.present earlier hearlier _ hkey

/-! ## Steps -/

/-- A subscription thread moves while a call is in progress. -/
theorem CallInv.later {slots slots' : ServerSlots} {call : RpcCall} (h : CallInv servers slots call)
    (hpresent : AllPresent servers slots') :
    CallInv servers slots' { call with since := call.since ++ [slots'] } := by
  have hpast : call.since ⊆ call.since ++ [slots'] := List.subset_append_left _ _
  refine ⟨List.mem_append_right _ List.mem_cons_self, ?_, ?_⟩
  · intro earlier hearlier
    rcases List.mem_append.mp hearlier with hold | hnew
    · exact h.present earlier hold
    · obtain rfl := List.mem_singleton.mp hnew
      exact hpresent
  · obtain ⟨phase, since⟩ := call
    have hphase := h.phase
    cases phase with
    | scanning scan => exact Scan.Knows.mono hpast hphase
    | chosen server slot => exact Scan.Chosen.mono hpast hphase

/-- A call that moves on leaves everything else as it is. -/
theorem ChooserInv.setCall (h : ChooserInv servers s) (caller : Caller) {next : Option RpcCall}
    (hnext : ∀ call, next = some call → CallInv servers s.feed.balancer.serverToSlot call) :
    ∀ other call, (s.setCall caller next).calls other = some call →
      CallInv servers s.feed.balancer.serverToSlot call := by
  intro other call hcall
  by_cases heq : other = caller
  · rw [heq, Chooser.calls_setCall_self] at hcall
    exact hnext call hcall
  · rw [Chooser.calls_setCall_of_ne s next heq] at hcall
    exact h.calls other call hcall

/-- A call that ends leaves the others. -/
theorem ChooserInv.endCall (h : ChooserInv servers s) (caller : Caller) :
    ∀ other call, (s.setCall caller none).calls other = some call →
      CallInv servers s.feed.balancer.serverToSlot call :=
  h.setCall caller (by rintro call ⟨⟩)

theorem chooserInv_step {label : ChooserLabel} (h : ChooserInv servers s)
    (hstep : chooserStep servers s label = some s') : ChooserInv servers s' := by
  cases move_of_chooserStep hstep with
  | fed hfeed =>
    have hpresent := allPresent_fanInStep h.present hfeed
    refine ⟨hpresent, ?_, h.answers, h.panicked⟩
    intro caller call hcall
    obtain ⟨earlier, hearlier, rfl⟩ := Option.map_eq_some_iff.mp hcall
    exact (h.calls caller earlier hearlier).later hpresent
  | begun caller =>
    refine ⟨h.present, h.setCall caller ?_, h.answers, h.panicked⟩
    rintro call ⟨⟩
    exact ⟨List.mem_cons_self, List.forall_mem_singleton.mpr h.present, Scan.knows_start _ _⟩
  | compared hcall hread =>
    have hinv := h.calls _ _ hcall
    refine ⟨h.present, h.setCall _ ?_, h.answers, h.panicked⟩
    rintro call ⟨⟩
    exact ⟨hinv.now, hinv.present, Scan.Knows.read hinv.now hinv.phase hread⟩
  | foundNone hcall =>
    refine ⟨h.present, h.endCall _, h.answers, ?_⟩
    intro hservers
    cases (h.calls _ _ hcall).found hservers
  | chose hcall =>
    have hinv := h.calls _ _ hcall
    refine ⟨h.present, h.setCall _ ?_, h.answers, h.panicked⟩
    rintro call ⟨⟩
    exact ⟨hinv.now, hinv.present, Scan.Knows.chosen hinv.phase rfl rfl⟩
  | noClient hcall hclient =>
    have hchosen := (h.calls _ _ hcall).phase
    exact absurd hclient (serverToRpcClient_ne_none hchosen.key)
  | returned hcall hclient =>
    refine ⟨h.present, h.endCall _, ?_, h.panicked⟩
    intro answer hanswer
    rcases List.mem_append.mp hanswer with hold | hnew
    · exact h.answers answer hold
    · obtain rfl := List.mem_singleton.mp hnew
      exact (h.calls _ _ hcall).clientChosen hclient

theorem chooserInv_run {ls : List ChooserLabel}
    (hrun : runSteps (chooserStep servers) (Chooser.init servers) ls = some s) :
    ChooserInv servers s :=
  runSteps_invariant (ChooserInv servers) (fun _ _ _ h hstep => chooserInv_step h hstep) ls
    chooserInv_init hrun

end Calls

/-- The second server announces slot 9 when its entry has been compared, and the first one
slot 6 when `get_highest_slot` has returned. -/
def lateSlotsRun : List ChooserLabel :=
  [ .feed (.thread 0 false (.subscribe 0 true)), .feed (.thread 1 false (.subscribe 0 true)) ] ++
  (announce 0 5).map ChooserLabel.feed ++
  [ .feed (.thread 0 false .send)
  , .begin .leaderSchedule
  , .compare .leaderSchedule "ws-b" ] ++
  (announce 1 9).map ChooserLabel.feed ++
  [ .compare .leaderSchedule "ws-a"
  , .getHighestSlot .leaderSchedule ] ++
  (announce 0 6).map ChooserLabel.feed ++
  [ .rpcClient .leaderSchedule ]

end FlowraRelayer.Rpc
