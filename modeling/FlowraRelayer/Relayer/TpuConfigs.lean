/-
  Relayer/TpuConfigs.lean --- `get_tpu_configs` of `relayer/src/relayer.rs`.

  Each call takes a number from `seq` and answers with the ports at that number, modulo how
  many there are, minus the 6 that the validator adds again.  The remainder, the index and
  the subtraction are where the handler can panic; with overflow checks off the subtraction
  wraps instead, which is taken for a panic too.

  `advertises_calls` says what the ports must be for every call to be answered, with every
  window of calls going once through them; `first_of_advertises` is what the first call alone
  asks of them.

  Left out: the text of an IP address, which is a parameter.
-/
import FlowraRelayer.Foundation.Checks
import Mathlib.Data.List.Rotate

set_option autoImplicit false

namespace FlowraRelayer.Relayer

open FlowraRelayer.Foundation

/-! ## The handler -/

/-- `std::net::IpAddr`, by its bits. -/
inductive IpAddr where
  | v4 (bits : UInt32)
  | v6 (bits : BitVec 128)
  deriving DecidableEq

/-- The panics of integer arithmetic and of indexing. -/
inductive ArithmeticPanic where
  | overflow
  | remainderByZero
  | indexOutOfBounds
  deriving DecidableEq

/-- `shared::Socket`. -/
structure Socket where
  ip : String
  port : Int
  deriving DecidableEq

/-- `GetTpuConfigsResponse`. -/
structure GetTpuConfigsResponse where
  tpu : Option Socket
  tpuForward : Option Socket
  deriving DecidableEq

/-- The fields of `RelayerImpl` that `get_tpu_configs` reads. -/
structure RelayerImpl where
  tpuQuicPorts : List UInt16
  tpuFwdQuicPorts : List UInt16
  publicIp : IpAddr
  seq : UInt64

/-- `(ports[seq as usize % ports.len()] - 6) as i64`. -/
def advertisedPort (ports : List UInt16) (seq : UInt64) : Except ArithmeticPanic Int := do
  ensure (ports.length ≠ 0) .remainderByZero
  let port ← okOr .indexOutOfBounds ports[seq.toNat % ports.length]?
  ensure (6 ≤ port) .overflow
  pure (port - 6).toNat

variable (display : IpAddr → String)

/-- The answer to the call that got the number `seq`. -/
def tpuConfigsAt (svc : RelayerImpl) (seq : UInt64) :
    Except ArithmeticPanic GetTpuConfigsResponse := do
  let tpuPort ← advertisedPort svc.tpuQuicPorts seq
  let tpuForwardPort ← advertisedPort svc.tpuFwdQuicPorts seq
  pure
    { tpu := some ⟨display svc.publicIp, tpuPort⟩
      tpuForward := some ⟨display svc.publicIp, tpuForwardPort⟩ }

/-- `get_tpu_configs`.  A call that panics has taken its number, too. -/
def getTpuConfigs (svc : RelayerImpl) :
    Except ArithmeticPanic GetTpuConfigsResponse × RelayerImpl :=
  (tpuConfigsAt display svc svc.seq, { svc with seq := svc.seq + 1 })

/-- The answers to some calls, in the order of their numbers. -/
def tpuConfigsCalls : Nat → RelayerImpl → List (Except ArithmeticPanic GetTpuConfigsResponse)
  | 0, _ => []
  | n + 1, svc =>
      let (answer, svc) := getTpuConfigs display svc
      answer :: tpuConfigsCalls n svc

/-! ## What is to hold of the answers -/

/-- The port a validator gets from an answer. -/
def validatorPort (socket : GetTpuConfigsResponse → Option Socket)
    (answer : Except ArithmeticPanic GetTpuConfigsResponse) : Option Int :=
  (answer.toOption.bind socket).map fun s => s.port + 6

/-- As many consecutive calls as there are ports advertise each port once. -/
def EachOnce (ports : List UInt16) (socket : GetTpuConfigsResponse → Option Socket)
    (answers : List (Except ArithmeticPanic GetTpuConfigsResponse)) : Prop :=
  ∀ k, k + ports.length ≤ answers.length →
    (((answers.drop k).take ports.length).filterMap (validatorPort socket)).Perm
      (ports.map fun port => (port.toNat : Int))

/-- The socket has the public IP and a port which the validator takes for one of `ports`. -/
def Socket.LeadsTo (svc : RelayerImpl) (ports : List UInt16) (socket : Socket) : Prop :=
  socket.ip = display svc.publicIp ∧ ∃ port ∈ ports, socket.port + 6 = port.toNat

/-- Every call is answered with a TPU port and a TPU forward port, and the calls go through
both kinds of ports in turn. -/
structure Advertises (svc : RelayerImpl)
    (answers : List (Except ArithmeticPanic GetTpuConfigsResponse)) : Prop where
  answered : ∀ answer ∈ answers, ∃ tpu tpuForward : Socket,
    answer = .ok ⟨some tpu, some tpuForward⟩ ∧ tpu.LeadsTo display svc svc.tpuQuicPorts ∧
      tpuForward.LeadsTo display svc svc.tpuFwdQuicPorts
  tpu : EachOnce svc.tpuQuicPorts GetTpuConfigsResponse.tpu answers
  tpuForward : EachOnce svc.tpuFwdQuicPorts GetTpuConfigsResponse.tpuForward answers

/-- There are ports, and the validator's 6 can be taken off each of them. -/
def CanAdvertise (ports : List UInt16) : Prop := ports ≠ [] ∧ ∀ port ∈ ports, 6 ≤ port

/-! ## Going through a list in turn -/

section RoundRobin

variable {α : Type}

/-- The entry for a number, which counts through the list again and again. -/
def inTurn (l : List α) (n : Nat) : Option α := l[n % l.length]?

theorem isSome_inTurn {l : List α} (hl : l ≠ []) (n : Nat) : ∃ a ∈ l, inTurn l n = some a := by
  have hlt : n % l.length < l.length := Nat.mod_lt n (List.length_pos_iff.mpr hl)
  exact ⟨l.get ⟨_, hlt⟩, List.get_mem l _, List.getElem?_eq_getElem hlt⟩

/-- A window of the length of the list is the list, rotated. -/
theorem filterMap_inTurn (l : List α) (n : Nat) :
    (List.range' n l.length).filterMap (inTurn l) = l.rotate n := by
  have hmap : (List.range' n l.length).map (inTurn l) = (l.rotate n).map some := by
    refine List.ext_getElem? fun i => ?_
    rcases Nat.lt_or_ge i l.length with hi | hi
    · have hrange : (List.range' n l.length)[i]? = some (n + i) := by
        rw [List.getElem?_range' hi, Nat.one_mul]
      have hturn : ∃ a, inTurn l (n + i) = some a := by
        obtain ⟨a, -, ha⟩ := isSome_inTurn (List.ne_nil_of_length_pos (Nat.zero_lt_of_lt hi)) (n + i)
        exact ⟨a, ha⟩
      obtain ⟨a, ha⟩ := hturn
      rw [List.getElem?_map, List.getElem?_map, hrange, List.getElem?_rotate hi, Nat.add_comm i n]
      rw [inTurn] at ha
      simp [inTurn, ha]
    · rw [List.getElem?_eq_none (by simpa using hi), List.getElem?_eq_none (by simpa using hi)]
  calc (List.range' n l.length).filterMap (inTurn l)
      = ((List.range' n l.length).map (inTurn l)).filterMap id := by
        rw [List.filterMap_map, Function.id_comp]
    _ = ((l.rotate n).map some).filterMap id := by rw [hmap]
    _ = l.rotate n := by simp

end RoundRobin

/-! ## The calls -/

section Calls

variable {display} {svc : RelayerImpl}

theorem toNat_sub_six {port : UInt16} (h : 6 ≤ port) : (port - 6).toNat + 6 = port.toNat := by
  have hle : 6 ≤ port.toNat := UInt16.le_iff_toNat_le.mp h
  rw [UInt16.toNat_sub_of_le port 6 h]
  exact Nat.sub_add_cancel hle

theorem advertisedPort_eq_ok_iff {ports : List UInt16} {seq : UInt64} {advertised : Int} :
    advertisedPort ports seq = .ok advertised ↔
      ∃ port, inTurn ports seq.toNat = some port ∧ 6 ≤ port ∧ advertised + 6 = port.toNat := by
  simp only [advertisedPort, inTurn, bind_eq_ok_iff, ensure_eq_ok_iff, okOr_eq_ok_iff,
    pure_eq_ok_iff, exists_const]
  constructor
  · rintro ⟨-, port, hport, hsix, rfl⟩
    refine ⟨port, hport, hsix, ?_⟩
    rw [← toNat_sub_six hsix]
    rfl
  · rintro ⟨port, hport, hsix, hadvertised⟩
    refine ⟨?_, port, hport, hsix, ?_⟩
    · intro hlength
      rw [List.length_eq_zero_iff.mp hlength] at hport
      cases hport
    · have hcast : ((port - 6).toNat : Int) + 6 = port.toNat := by
        rw [← toNat_sub_six hsix]
        rfl
      omega

/-- With ports to advertise, every number gets the port whose turn it is. -/
theorem advertisedPort_of_canAdvertise {ports : List UInt16} (hports : CanAdvertise ports)
    (seq : UInt64) :
    ∃ advertised, advertisedPort ports seq = .ok advertised ∧
      ∃ port ∈ ports, inTurn ports seq.toNat = some port ∧ advertised + 6 = port.toNat := by
  obtain ⟨port, hmem, hturn⟩ := isSome_inTurn hports.1 seq.toNat
  have hadvertised : (port.toNat : Int) - 6 + 6 = port.toNat := Int.sub_add_cancel _ _
  refine ⟨port.toNat - 6, ?_, port, hmem, hturn, hadvertised⟩
  exact advertisedPort_eq_ok_iff.mpr ⟨port, hturn, hports.2 port hmem, hadvertised⟩

/-- The calls get consecutive numbers. -/
theorem tpuConfigsCalls_eq (n : Nat) :
    ∀ svc : RelayerImpl, svc.seq.toNat + n ≤ UInt64.size →
      tpuConfigsCalls display n svc =
        (List.range' svc.seq.toNat n).map fun seq =>
          tpuConfigsAt display svc (UInt64.ofNat seq) := by
  induction n with
  | zero =>
    intro svc _
    rfl
  | succ n ih =>
    intro svc hroom
    have hfirst : tpuConfigsCalls display (n + 1) svc =
        tpuConfigsAt display svc svc.seq ::
          tpuConfigsCalls display n { svc with seq := svc.seq + 1 } := rfl
    rw [hfirst, List.range'_succ, List.map_cons, UInt64.ofNat_toNat]
    -- the number after the last one is never taken, so the rest may be empty at the end
    rcases Nat.eq_zero_or_pos n with rfl | hpos
    · rfl
    · have hnext : (svc.seq + 1).toNat = svc.seq.toNat + 1 := by
        rw [UInt64.toNat_add, UInt64.toNat_one]
        exact Nat.mod_eq_of_lt (by change _ < UInt64.size; omega)
      have hrest : (svc.seq + 1).toNat + n ≤ UInt64.size := by omega
      rw [ih { svc with seq := svc.seq + 1 } hrest, hnext]
      rfl

/-- Answers that carry the ports in turn go once through them in every window. -/
theorem eachOnce_of_inTurn {ports : List UInt16} {socket : GetTpuConfigsResponse → Option Socket}
    {answer : Nat → Except ArithmeticPanic GetTpuConfigsResponse} {start n : Nat}
    (h : ∀ seq, seq < start + n →
      validatorPort socket (answer seq) = (inTurn ports seq).map fun port => (port.toNat : Int)) :
    EachOnce ports socket ((List.range' start n).map answer) := by
  intro k hk
  rw [List.length_map, List.length_range'] at hk
  have hsplit : List.range' (start + k) (n - k) =
      List.range' (start + k) ports.length ++
        List.range' (start + k + ports.length) (n - k - ports.length) := by
    rw [List.range'_append_1, Nat.add_sub_cancel' (by omega)]
  have hwindow : (((List.range' start n).map answer).drop k).take ports.length =
      (List.range' (start + k) ports.length).map answer := by
    rw [← List.map_drop, ← List.map_take, List.drop_range', Nat.mul_one, hsplit,
      List.take_left' List.length_range']
  have hports : ((List.range' (start + k) ports.length).map answer).filterMap
        (validatorPort socket) =
      (ports.rotate (start + k)).map fun port => (port.toNat : Int) := by
    rw [List.filterMap_map, ← filterMap_inTurn, List.map_filterMap]
    refine List.filterMap_congr fun seq hseq => ?_
    have hlt := (List.mem_range'_1.mp hseq).2
    exact h seq (by omega)
  rw [hwindow, hports]
  exact (List.rotate_perm ports (start + k)).map _

/-- The answer at a number, with ports to advertise. -/
theorem tpuConfigsAt_of_canAdvertise (htpu : CanAdvertise svc.tpuQuicPorts)
    (hfwd : CanAdvertise svc.tpuFwdQuicPorts) (seq : UInt64) :
    ∃ tpu tpuForward : Socket,
      tpuConfigsAt display svc seq = .ok ⟨some tpu, some tpuForward⟩ ∧
        (tpu.LeadsTo display svc svc.tpuQuicPorts ∧
          tpuForward.LeadsTo display svc svc.tpuFwdQuicPorts) ∧
        some (tpu.port + 6) =
          (inTurn svc.tpuQuicPorts seq.toNat).map (fun port => (port.toNat : Int)) ∧
        some (tpuForward.port + 6) =
          (inTurn svc.tpuFwdQuicPorts seq.toNat).map (fun port => (port.toNat : Int)) := by
  obtain ⟨tpuPort, htpuPort, port, hmem, hturn, hbound⟩ :=
    advertisedPort_of_canAdvertise htpu seq
  obtain ⟨fwdPort, hfwdPort, fwd, hfwdMem, hfwdTurn, hfwdBound⟩ :=
    advertisedPort_of_canAdvertise hfwd seq
  refine ⟨⟨display svc.publicIp, tpuPort⟩, ⟨display svc.publicIp, fwdPort⟩, ?_,
    ⟨⟨rfl, port, hmem, hbound⟩, rfl, fwd, hfwdMem, hfwdBound⟩, ?_, ?_⟩
  · simp only [tpuConfigsAt, bind_eq_ok_iff, pure_eq_ok_iff]
    exact ⟨tpuPort, htpuPort, fwdPort, hfwdPort, rfl⟩
  · rw [hturn, Option.map_some, hbound]
  · rw [hfwdTurn, Option.map_some, hfwdBound]

/-- With ports to advertise, any number of calls up to the end of `seq` is answered. -/
theorem advertises_calls (hseq : svc.seq = 0) (htpu : CanAdvertise svc.tpuQuicPorts)
    (hfwd : CanAdvertise svc.tpuFwdQuicPorts) {n : Nat} (hn : n ≤ UInt64.size) :
    Advertises display svc (tpuConfigsCalls display n svc) := by
  have hstart : svc.seq.toNat = 0 := by
    rw [hseq]
    rfl
  have hnumber : ∀ seq, seq < 0 + n → (UInt64.ofNat seq).toNat = seq := by
    intro seq hlt
    exact UInt64.toNat_ofNat_of_lt (by omega)
  rw [tpuConfigsCalls_eq n svc (by omega), hstart]
  refine ⟨?_, eachOnce_of_inTurn fun seq hlt => ?_, eachOnce_of_inTurn fun seq hlt => ?_⟩
  · intro answer hanswer
    obtain ⟨seq, -, rfl⟩ := List.mem_map.mp hanswer
    obtain ⟨tpu, tpuForward, hok, hleads, -⟩ :=
      tpuConfigsAt_of_canAdvertise htpu hfwd (UInt64.ofNat seq)
    exact ⟨tpu, tpuForward, hok, hleads⟩
  · obtain ⟨tpu, _, hok, -, hturn, -⟩ := tpuConfigsAt_of_canAdvertise htpu hfwd (UInt64.ofNat seq)
    rw [hnumber seq hlt] at hturn
    rw [hok, ← hturn]
    rfl
  · obtain ⟨_, tpuForward, hok, -, -, hturn⟩ :=
      tpuConfigsAt_of_canAdvertise htpu hfwd (UInt64.ofNat seq)
    rw [hnumber seq hlt] at hturn
    rw [hok, ← hturn]
    rfl

/-- The first call needs a first port of each kind, from 6 on. -/
theorem first_of_advertises (hseq : svc.seq = 0)
    (h : Advertises display svc (tpuConfigsCalls display 1 svc)) :
    (∃ port, svc.tpuQuicPorts.head? = some port ∧ 6 ≤ port) ∧
      ∃ port, svc.tpuFwdQuicPorts.head? = some port ∧ 6 ≤ port := by
  have hfirst : ∀ {ports : List UInt16} {advertised : Int},
      advertisedPort ports svc.seq = .ok advertised →
        ∃ port, ports.head? = some port ∧ 6 ≤ port := by
    intro ports advertised hok
    obtain ⟨port, hturn, hsix, -⟩ := advertisedPort_eq_ok_iff.mp hok
    rw [hseq, inTurn, UInt64.toNat_zero, Nat.zero_mod, ← List.head?_eq_getElem?] at hturn
    exact ⟨port, hturn, hsix⟩
  obtain ⟨tpu, tpuForward, hok, -, -⟩ := h.answered _ List.mem_cons_self
  have hok : tpuConfigsAt display svc svc.seq = .ok ⟨some tpu, some tpuForward⟩ := hok
  simp only [tpuConfigsAt, bind_eq_ok_iff] at hok
  obtain ⟨_, htpu, _, hfwd, -⟩ := hok
  exact ⟨hfirst htpu, hfirst hfwd⟩

end Calls

end FlowraRelayer.Relayer
