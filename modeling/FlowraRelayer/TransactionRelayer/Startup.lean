/-
  TransactionRelayer/Startup.lean --- what `main.rs` checks before it starts the relayer.

  `get_sockets` binds one port per QUIC server, and `main` passes the bound ports and the
  batch size on to `RelayerImpl::new`.  The checks bound the ports from above and keep the
  two ranges apart, and with them no sum of `get_sockets` overflows
  (`getSockets_ne_arithmetic`).  They do not bound anything from below: no server at all, a
  port under 6 or a batch size of zero pass, and then the remainder and the subtraction of
  `get_tpu_configs` and the division of `forward_packets` panic.  `startup_suffices_iff` is
  exactly this; `unchecked_batch_size` is a start that passes.

  A socket is the port it is bound to.

  Left out: the files, the threads and the other services `main` starts.
-/
import FlowraRelayer.Relayer.EventLoop
import FlowraRelayer.Relayer.TpuConfigs

set_option autoImplicit false

namespace FlowraRelayer.TransactionRelayer

open FlowraRelayer.Foundation
open FlowraRelayer.Solana
open FlowraRelayer.Relayer

/-! ## Arguments and checks -/

/-- The fields of `Args` that decide whether and how the relayer starts. -/
structure StartupArgs where
  tpuQuicPort : UInt16
  numTpuQuicServers : UInt16
  tpuQuicFwdPort : UInt16
  numTpuFwdQuicServers : UInt16
  grpcBindIp : IpAddr
  rpcServers : List String
  websocketServers : List String
  publicIp : Option IpAddr
  ofacAddresses : Option (List Pubkey)
  validatorPacketBatchSize : UInt64
  forwardAll : Bool
  slotLookahead : UInt64

/-- What the host answers: the port a bind in a range of ports gets, the public IP the
entrypoint sees, and how an IP is written. -/
structure Host where
  multiBindInRange : UInt16 × UInt16 → Option UInt16
  getPublicIpAddr : Option IpAddr
  display : IpAddr → String

/-- The checks of `get_sockets` and `main`, each with the panic of its failure. -/
inductive StartupPanic where
  | publicIpUnknown
  | publicIpNotIpv4
  | publicIpLoopback
  | grpcBindIpNotIpv4
  | tooManyTpuQuicServers
  | tooManyTpuFwdQuicServers
  | tpuPortsTooHigh
  | tpuFwdPortsTooHigh
  | portsOverlap
  | bindFailed
  | otherTpuPorts
  | otherTpuFwdPorts
  | serversDiffer
  | arithmetic (panic : ArithmeticPanic)
  deriving DecidableEq

/-- `IpAddr::is_ipv4`. -/
def isIpv4 : IpAddr → Bool
  | .v4 _ => true
  | .v6 _ => false

/-- `IpAddr::is_loopback`: 127.0.0.0/8 and ::1. -/
def isLoopback : IpAddr → Bool
  | .v4 bits => bits >>> 24 = 127
  | .v6 bits => bits = 1

/-- `u16::checked_add`. -/
def checkedAdd (a b : UInt16) : Option UInt16 :=
  if a.toNat + b.toNat < UInt16.size then some (a + b) else none

/-- `a + b` on `u16`. -/
def addPorts (a b : UInt16) : Except StartupPanic UInt16 :=
  okOr (.arithmetic .overflow) (checkedAdd a b)

/-- `Range<u16>`. -/
structure PortRange where
  start : UInt16
  stop : UInt16

/-- The ports of a range, in order. -/
def PortRange.collect (ports : PortRange) : List UInt16 :=
  (List.range' ports.start.toNat (ports.stop.toNat - ports.start.toNat)).map UInt16.ofNat

/-- `Range::contains`. -/
def PortRange.contains (ports : PortRange) (port : UInt16) : Bool :=
  ports.start ≤ port && port < ports.stop

/-- The range for some servers. -/
def portRange (tooHigh : StartupPanic) (start num : UInt16) : Except StartupPanic PortRange := do
  let stop ← okOr tooHigh (checkedAdd start num)
  pure ⟨start, stop⟩

/-- One socket for each server. -/
def bindPorts (bind : UInt16 × UInt16 → Option UInt16) (ports : PortRange) (num : UInt16) :
    Except StartupPanic (List UInt16) :=
  (List.range num.toNat).mapM fun i => do
    let i := UInt16.ofNat i
    let first ← addPorts ports.start i
    let afterStart ← addPorts ports.start 1
    let afterFirst ← addPorts afterStart i
    okOr .bindFailed (bind (first, afterFirst))

/-- `TpuSockets`. -/
structure TpuSockets where
  transactionsQuicSockets : List UInt16
  transactionsForwardsQuicSockets : List UInt16

/-- `get_sockets`. -/
def getSockets (bind : UInt16 × UInt16 → Option UInt16) (args : StartupArgs) :
    Except StartupPanic TpuSockets := do
  ensure (args.numTpuQuicServers < 65535) .tooManyTpuQuicServers
  ensure (args.numTpuFwdQuicServers < 65535) .tooManyTpuFwdQuicServers
  let tpuPorts ← portRange .tpuPortsTooHigh args.tpuQuicPort args.numTpuQuicServers
  let tpuFwdPorts ← portRange .tpuFwdPortsTooHigh args.tpuQuicFwdPort args.numTpuFwdQuicServers
  ensure (tpuPorts.collect.all (fun tpuPort => !tpuFwdPorts.contains tpuPort) = true) .portsOverlap
  let tpuP ← bindPorts bind tpuPorts args.numTpuQuicServers
  let tpuFwdP ← bindPorts bind tpuFwdPorts args.numTpuFwdQuicServers
  ensure (tpuPorts.collect = tpuP) .otherTpuPorts
  ensure (tpuFwdPorts.collect = tpuFwdP) .otherTpuFwdPorts
  pure ⟨tpuP, tpuFwdP⟩

/-- `RelayerImpl` with the configuration its event loop runs with. -/
structure StartedRelayer where
  service : RelayerImpl
  loop : LoopConfig

/-- `main` up to `RelayerImpl::new`. -/
def mainStartup (host : Host) (args : StartupArgs) : Except StartupPanic StartedRelayer := do
  let publicIp ← okOr .publicIpUnknown (args.publicIp <|> host.getPublicIpAddr)
  ensure (isIpv4 publicIp = true) .publicIpNotIpv4
  ensure (isLoopback publicIp = false) .publicIpLoopback
  ensure (isIpv4 args.grpcBindIp = true) .grpcBindIpNotIpv4
  let sockets ← getSockets host.multiBindInRange args
  ensure (args.rpcServers.length = args.websocketServers.length) .serversDiffer
  pure
    { service :=
        { tpuQuicPorts := sockets.transactionsQuicSockets
          tpuFwdQuicPorts := sockets.transactionsForwardsQuicSockets
          publicIp
          seq := 0 }
      loop :=
        { ofacAddresses := (args.ofacAddresses.getD []).toFinset
          validatorPacketBatchSize := args.validatorPacketBatchSize
          forwardAll := args.forwardAll
          slotLookahead := args.slotLookahead } }

/-! ## Ranges of ports -/

theorem checkedAdd_eq_some_iff {a b c : UInt16} :
    checkedAdd a b = some c ↔ c.toNat = a.toNat + b.toNat := by
  unfold checkedAdd
  constructor
  · intro h
    obtain ⟨hlt, hsum⟩ := Option.ite_none_right_eq_some.mp h
    cases hsum
    rw [UInt16.toNat_add]
    exact Nat.mod_eq_of_lt hlt
  · intro h
    have hlt : a.toNat + b.toNat < UInt16.size := by
      rw [← h]
      exact c.toNat_lt_size
    rw [if_pos hlt, Option.some.injEq, ← UInt16.toNat_inj, h, UInt16.toNat_add]
    exact Nat.mod_eq_of_lt hlt

section Ranges

variable {ports : PortRange}

/-- The ports of a range by their numbers. -/
theorem map_toNat_collect (hle : ports.start ≤ ports.stop) :
    ports.collect.map UInt16.toNat =
      List.range' ports.start.toNat (ports.stop.toNat - ports.start.toNat) := by
  have hsize := ports.stop.toNat_lt_size
  have hle := UInt16.le_iff_toNat_le.mp hle
  rw [PortRange.collect, List.map_map]
  refine (List.map_congr_left fun n hn => ?_).trans (List.map_id _)
  have hlt := (List.mem_range'_1.mp hn).2
  exact UInt16.toNat_ofNat_of_lt (by omega)

theorem nodup_collect (hle : ports.start ≤ ports.stop) : ports.collect.Nodup := by
  refine List.Nodup.of_map UInt16.toNat ?_
  rw [map_toNat_collect hle]
  exact List.nodup_range'

theorem mem_collect_iff (hle : ports.start ≤ ports.stop) {port : UInt16} :
    port ∈ ports.collect ↔ ports.start ≤ port ∧ port < ports.stop := by
  have hstop := UInt16.le_iff_toNat_le.mp hle
  have hmem : port ∈ ports.collect ↔ port.toNat ∈ ports.collect.map UInt16.toNat := by
    rw [List.mem_map_of_injective fun _ _ => UInt16.toNat_inj.mp]
  rw [hmem, map_toNat_collect hle, List.mem_range'_1, UInt16.le_iff_toNat_le,
    UInt16.lt_iff_toNat_lt]
  omega

/-- The first port of a range that has one. -/
theorem head?_collect (hlt : ports.start < ports.stop) :
    ports.collect.head? = some ports.start := by
  have hlt := UInt16.lt_iff_toNat_lt.mp hlt
  obtain ⟨n, hn⟩ : ∃ n, ports.stop.toNat - ports.start.toNat = n + 1 :=
    Nat.exists_eq_succ_of_ne_zero (by omega)
  rw [PortRange.collect, hn, List.range'_succ, List.map_cons, List.head?_cons, UInt16.ofNat_toNat]

/-- A range can be advertised if it has a port and its first one is not too low. -/
theorem canAdvertise_collect (hlt : ports.start < ports.stop) (hsix : 6 ≤ ports.start) :
    CanAdvertise ports.collect := by
  refine ⟨?_, ?_⟩
  · intro hnil
    have hhead := head?_collect hlt
    rw [hnil] at hhead
    cases hhead
  · intro port hport
    exact UInt16.le_trans hsix ((mem_collect_iff (UInt16.le_of_lt hlt)).mp hport).1

/-- A range whose first port can be advertised has one. -/
theorem bounds_of_head? {port : UInt16} (hhead : ports.collect.head? = some port)
    (hsix : 6 ≤ port) : ports.start < ports.stop ∧ 6 ≤ ports.start := by
  have hlt : ports.start < ports.stop := by
    rw [UInt16.lt_iff_toNat_lt]
    by_contra hge
    rw [PortRange.collect, Nat.sub_eq_zero_of_le (Nat.le_of_not_lt hge)] at hhead
    cases hhead
  rw [head?_collect hlt] at hhead
  cases hhead
  exact ⟨hlt, hsix⟩

/-- The range of `num` ports from `start` on. -/
def PortRange.Covers (start num : UInt16) (ports : PortRange) : Prop :=
  ports.start = start ∧ ports.stop.toNat = start.toNat + num.toNat

variable {start num : UInt16}

theorem portRange_eq_ok_iff {tooHigh : StartupPanic} :
    portRange tooHigh start num = .ok ports ↔ ports.Covers start num := by
  simp only [portRange, bind_eq_ok_iff, okOr_eq_ok_iff, checkedAdd_eq_some_iff, pure_eq_ok_iff]
  constructor
  · rintro ⟨stop, hstop, rfl⟩
    exact ⟨rfl, hstop⟩
  · rintro ⟨rfl, hstop⟩
    exact ⟨ports.stop, hstop, rfl⟩

theorem PortRange.Covers.start_le_stop (h : ports.Covers start num) : ports.start ≤ ports.stop := by
  rw [UInt16.le_iff_toNat_le, h.1, h.2]
  exact Nat.le_add_right _ _

theorem PortRange.Covers.start_lt_stop_iff (h : ports.Covers start num) :
    ports.start < ports.stop ↔ 0 < num := by
  rw [UInt16.lt_iff_toNat_lt, UInt16.lt_iff_toNat_lt, h.1, h.2, UInt16.toNat_zero]
  exact Nat.lt_add_right_iff_pos

end Ranges

/-! ## What the checks let through -/

theorem addPorts_ne_error {a b : UInt16} (hroom : a.toNat + b.toNat < UInt16.size)
    (panic : StartupPanic) : addPorts a b ≠ .error panic := by
  simp [addPorts, checkedAdd, hroom, okOr]

/-- The sums of the bind loop stay below the end of the range. -/
theorem bindPorts_ne_arithmetic {bind : UInt16 × UInt16 → Option UInt16} {ports : PortRange}
    {start num : UInt16} (hcovers : ports.Covers start num) (panic : ArithmeticPanic) :
    bindPorts bind ports num ≠ .error (.arithmetic panic) := by
  intro h
  obtain ⟨i, hi, herror⟩ := exists_of_mapM_eq_error h
  have hi := List.mem_range.mp hi
  have hnat : (UInt16.ofNat i).toNat = i := by
    have hnum := num.toNat_lt_size
    exact UInt16.toNat_ofNat_of_lt (by omega)
  have hroom : ports.start.toNat + 1 + i < UInt16.size := by
    have hsize := ports.stop.toNat_lt_size
    rw [hcovers.2] at hsize
    rw [hcovers.1]
    omega
  revert herror
  refine bind_ne_error (addPorts_ne_error (by omega) _) fun first _ => ?_
  refine bind_ne_error (addPorts_ne_error (by rw [UInt16.toNat_one]; omega) _) ?_
  intro afterStart hafter
  have hafter := checkedAdd_eq_some_iff.mp (okOr_eq_ok_iff.mp hafter)
  rw [UInt16.toNat_one] at hafter
  refine bind_ne_error (addPorts_ne_error (by omega) _) fun afterFirst _ => ?_
  exact okOr_ne_error (by simp)

/-- No sum of `get_sockets` overflows, whatever the arguments are. -/
theorem getSockets_ne_arithmetic (bind : UInt16 × UInt16 → Option UInt16) (args : StartupArgs)
    (panic : ArithmeticPanic) : getSockets bind args ≠ .error (.arithmetic panic) := by
  have hrange : ∀ {tooHigh : StartupPanic} {start num : UInt16}, tooHigh ≠ .arithmetic panic →
      portRange tooHigh start num ≠ .error (.arithmetic panic) := by
    intro tooHigh start num hne
    exact bind_ne_error (okOr_ne_error hne) fun _ _ => pure_ne_error
  refine bind_ne_error (ensure_ne_error (by simp)) fun _ _ => ?_
  refine bind_ne_error (ensure_ne_error (by simp)) fun _ _ => ?_
  refine bind_ne_error (hrange (by simp)) fun tpuPorts htpu => ?_
  refine bind_ne_error (hrange (by simp)) fun tpuFwdPorts hfwd => ?_
  refine bind_ne_error (ensure_ne_error (by simp)) fun _ _ => ?_
  refine bind_ne_error (bindPorts_ne_arithmetic (portRange_eq_ok_iff.mp htpu) _) fun tpuP _ => ?_
  refine bind_ne_error (bindPorts_ne_arithmetic (portRange_eq_ok_iff.mp hfwd) _) fun fwdP _ => ?_
  refine bind_ne_error (ensure_ne_error (by simp)) fun _ _ => ?_
  refine bind_ne_error (ensure_ne_error (by simp)) fun _ _ => ?_
  exact pure_ne_error

/-- What `get_sockets` returns: the two ranges, which have no port in common. -/
theorem getSockets_eq_ok {bind : UInt16 × UInt16 → Option UInt16} {args : StartupArgs}
    {sockets : TpuSockets} (h : getSockets bind args = .ok sockets) :
    ∃ tpuPorts tpuFwdPorts : PortRange,
      tpuPorts.Covers args.tpuQuicPort args.numTpuQuicServers ∧
        tpuFwdPorts.Covers args.tpuQuicFwdPort args.numTpuFwdQuicServers ∧
        sockets = ⟨tpuPorts.collect, tpuFwdPorts.collect⟩ ∧
        ∀ port ∈ tpuPorts.collect, port ∉ tpuFwdPorts.collect := by
  simp only [getSockets, bind_eq_ok_iff, ensure_eq_ok_iff, portRange_eq_ok_iff, pure_eq_ok_iff,
    exists_const] at h
  obtain ⟨-, -, tpuPorts, htpu, tpuFwdPorts, hfwd, hapart, tpuP, -, tpuFwdP, -, rfl, rfl, rfl⟩ := h
  refine ⟨tpuPorts, tpuFwdPorts, htpu, hfwd, rfl, ?_⟩
  intro port hport hboth
  have hcontains : tpuFwdPorts.contains port = true := by
    rw [PortRange.contains, Bool.and_eq_true, decide_eq_true_iff, decide_eq_true_iff]
    exact (mem_collect_iff hfwd.start_le_stop).mp hboth
  have hfree := List.all_eq_true.mp hapart port hport
  rw [hcontains] at hfree
  cases hfree

theorem mainStartup_eq_ok {host : Host} {args : StartupArgs} {relayer : StartedRelayer}
    (h : mainStartup host args = .ok relayer) :
    ∃ sockets, getSockets host.multiBindInRange args = .ok sockets ∧
      relayer.service.tpuQuicPorts = sockets.transactionsQuicSockets ∧
      relayer.service.tpuFwdQuicPorts = sockets.transactionsForwardsQuicSockets ∧
      relayer.service.seq = 0 ∧
      relayer.loop.validatorPacketBatchSize = args.validatorPacketBatchSize := by
  simp only [mainStartup, bind_eq_ok_iff, ensure_eq_ok_iff, okOr_eq_ok_iff, pure_eq_ok_iff,
    exists_const] at h
  obtain ⟨publicIp, -, -, -, -, sockets, hsockets, -, rfl⟩ := h
  exact ⟨sockets, hsockets, rfl, rfl, rfl, rfl⟩

/-- `forward_packets` divides by the batch size in every packet event. -/
theorem forwardPackets_ne_panic_iff {cfg : LoopConfig} :
    (∀ decode maybePacketBatches cache order env s,
      Relayer.forwardPackets decode cfg maybePacketBatches cache order env s ≠ .error .panic) ↔
      0 < cfg.validatorPacketBatchSize := by
  rw [UInt64.pos_iff_ne_zero]
  constructor
  · intro hall hzero
    refine hall (fun _ => none) (some ⟨0, []⟩) (fun _ => none) [] ⟨fun _ _ => .ok, fun _ _ => 0⟩
      LoopState.init ?_
    rw [Relayer.forwardPackets, if_pos hzero]
  · intro hsize decode maybePacketBatches cache order env s
    cases maybePacketBatches with
    | none => simp [Relayer.forwardPackets]
    | some packetBatches => simp [Relayer.forwardPackets, hsize]

/-- Whatever passes the checks, no sum of `get_sockets` overflows and no port is bound twice;
and every call of `get_tpu_configs` and every packet event goes through, with the ports
advertised in turn, exactly if there are servers of both kinds, no port is below 6 and the
batch size is not zero. -/
theorem startup_suffices_iff (host : Host) (args : StartupArgs) (relayer : StartedRelayer)
    (hstart : mainStartup host args = .ok relayer) :
    (∀ bind args panic, getSockets bind args ≠ .error (.arithmetic panic)) ∧
      (relayer.service.tpuQuicPorts ++ relayer.service.tpuFwdQuicPorts).Nodup ∧
      ((∀ numCalls < UInt64.size,
          Advertises host.display relayer.service
            (tpuConfigsCalls host.display numCalls relayer.service)) ∧
        (∀ decode maybePacketBatches cache order env s,
          Relayer.forwardPackets decode relayer.loop maybePacketBatches cache order env s ≠
            .error .panic) ↔
        (0 < args.numTpuQuicServers ∧ 0 < args.numTpuFwdQuicServers) ∧
          (6 ≤ args.tpuQuicPort ∧ 6 ≤ args.tpuQuicFwdPort) ∧
          0 < args.validatorPacketBatchSize) := by
  obtain ⟨sockets, hsockets, htpuPorts, hfwdPorts, hseq, hsize⟩ := mainStartup_eq_ok hstart
  obtain ⟨tpuPorts, tpuFwdPorts, htpu, hfwd, rfl, hapart⟩ := getSockets_eq_ok hsockets
  refine ⟨getSockets_ne_arithmetic, ?_, ?_⟩
  · rw [htpuPorts, hfwdPorts, List.nodup_append']
    exact ⟨nodup_collect htpu.start_le_stop, nodup_collect hfwd.start_le_stop, hapart⟩
  rw [forwardPackets_ne_panic_iff, hsize, ← htpu.start_lt_stop_iff, ← hfwd.start_lt_stop_iff,
    ← htpu.1, ← hfwd.1]
  constructor
  · rintro ⟨hcalls, hbatch⟩
    -- the first call already needs all of it
    obtain ⟨⟨tpuPort, htpuHead, htpuSix⟩, fwdPort, hfwdHead, hfwdSix⟩ :=
      first_of_advertises hseq (hcalls 1 (by decide))
    rw [htpuPorts] at htpuHead
    rw [hfwdPorts] at hfwdHead
    obtain ⟨htpuLt, htpuStart⟩ := bounds_of_head? htpuHead htpuSix
    obtain ⟨hfwdLt, hfwdStart⟩ := bounds_of_head? hfwdHead hfwdSix
    exact ⟨⟨htpuLt, hfwdLt⟩, ⟨htpuStart, hfwdStart⟩, hbatch⟩
  · rintro ⟨⟨htpuLt, hfwdLt⟩, ⟨htpuStart, hfwdStart⟩, hbatch⟩
    refine ⟨fun numCalls hcalls => ?_, hbatch⟩
    refine advertises_calls hseq ?_ ?_ (Nat.le_of_lt hcalls)
    · rw [htpuPorts]
      exact canAdvertise_collect htpuLt htpuStart
    · rw [hfwdPorts]
      exact canAdvertise_collect hfwdLt hfwdStart

/-- Two TPU servers, one forward server behind them and a public IP, with the other arguments
at their defaults apart from the batch size. -/
def twoServerArgs (validatorPacketBatchSize : UInt64) : StartupArgs where
  tpuQuicPort := 11228
  numTpuQuicServers := 2
  tpuQuicFwdPort := 11230
  numTpuFwdQuicServers := 1
  grpcBindIp := .v4 0
  rpcServers := ["http://127.0.0.1:8899"]
  websocketServers := ["ws://127.0.0.1:8900"]
  publicIp := some (.v4 0xCB007107)
  ofacAddresses := none
  validatorPacketBatchSize
  forwardAll := false
  slotLookahead := 5

/-- A host on which every port is free. -/
def freeHost : Host where
  multiBindInRange := fun range => some range.1
  getPublicIpAddr := none
  display := fun _ => "203.0.113.7"

theorem startup_suffices_iff_twoServers :
    ∃ relayer, mainStartup freeHost (twoServerArgs 4) = .ok relayer ∧
      relayer.service.tpuQuicPorts = [11228, 11229] ∧
      (tpuConfigsCalls freeHost.display 3 relayer.service).filterMap
        (validatorPort GetTpuConfigsResponse.tpu) = [11228, 11229, 11228] ∧
      ∀ numCalls < UInt64.size, Advertises freeHost.display relayer.service
        (tpuConfigsCalls freeHost.display numCalls relayer.service) := by
  have hstart : ((mainStartup freeHost (twoServerArgs 4)).toOption.map fun relayer =>
      (relayer.service.tpuQuicPorts,
        (tpuConfigsCalls freeHost.display 3 relayer.service).filterMap
          (validatorPort GetTpuConfigsResponse.tpu))) =
      some ([11228, 11229], [11228, 11229, 11228]) := by decide
  obtain ⟨relayer, hrelayer, hvalues⟩ := Option.map_eq_some_iff.mp hstart
  obtain ⟨hports, hanswers⟩ := Prod.mk.inj hvalues
  have hrelayer := toOption_eq_some_iff.mp hrelayer
  obtain ⟨-, -, hiff⟩ := startup_suffices_iff freeHost (twoServerArgs 4) relayer hrelayer
  exact ⟨relayer, hrelayer, hports, hanswers, (hiff.mpr (by decide)).1⟩

/-- A batch size of zero passes every check, and the first packet event panics. -/
theorem unchecked_batch_size :
    ¬ ∀ (host : Host) (args : StartupArgs) (relayer : StartedRelayer),
      mainStartup host args = .ok relayer →
      (∀ numCalls < UInt64.size,
          Advertises host.display relayer.service
            (tpuConfigsCalls host.display numCalls relayer.service)) ∧
        ∀ decode maybePacketBatches cache order env s,
          Relayer.forwardPackets decode relayer.loop maybePacketBatches cache order env s ≠
            .error .panic := by
  intro hall
  have hstart : ((mainStartup freeHost (twoServerArgs 0)).toOption.map fun relayer =>
      relayer.loop.validatorPacketBatchSize) = some 0 := by decide
  obtain ⟨relayer, hrelayer, hzero⟩ := Option.map_eq_some_iff.mp hstart
  have hrelayer := toOption_eq_some_iff.mp hrelayer
  have hpos := forwardPackets_ne_panic_iff.mp (hall freeHost _ relayer hrelayer).2
  rw [hzero] at hpos
  exact absurd hpos (by decide)

end FlowraRelayer.TransactionRelayer
