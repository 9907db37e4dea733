import UavTelemetry.LTS.Basic
import UavTelemetry.Receiver.Decoder

/-!
# The receive buffer

The index at which `decodePdu` writes is a function-static counter: it outlives the frame, and
only one state of the protocol resets it.  The loop of `VirtualReceiver` sets `_protostat` itself,
between any two bytes.  This file runs both in any order and shows that the counter stays within
the buffer.

## Main definitions

* `Decoder.machine` : bytes and the assignments of the loop, in any order.
* `Decoder.indices` : the places of `_rxpdu.data` that a call of `decodePdu` uses.
* `InBounds` : the invariant.

## Main results

* `getElem?_decodePdu`, `decodePdu_congr` : the buffer matters at these indices only.
* `inBounds_of_reachable` : the counter and the indices in every reachable state.
-/

namespace UavTelemetry

namespace VirtualReceiver

/-- What happens to the variables of `decodePdu`. -/
inductive DecoderStep
  /-- `decodePdu` is called with a byte. -/
  | byte (b : UInt8)
  /-- `_protostat = STAT_WAIT_RESPONSE`, behind `send`. -/
  | waitResponse
  /-- `_protostat = STAT_WAIT_COMMAND`, behind a response or a timeout. -/
  | waitCommand
  deriving DecidableEq, Repr

/-- Bytes and assignments in any order. -/
def Decoder.machine : Machine Decoder DecoderStep where
  step d
    | .byte b => some (decodePdu d b).2
    | .waitResponse => some { d with protostat := .statWaitResponse }
    | .waitCommand => some { d with protostat := .statWaitCommand }

/-- The indices of `_rxpdu.data` at which a call of `decodePdu` writes and reads.  The checksum is
taken from the size byte on, so that `getCRC` reads one data byte less than it is told. -/
def Decoder.indices (d : Decoder) : List ℕ :=
  match d.protostat with
  | .statRecvSize => [d.datasize.toNat]
  | .statRecvData =>
    [d.datasize.toNat, d.datasize.toNat] ++ List.range ((d.datasize + 1).toNat - 1)
  | _ => []

theorem mem_indices_recvData {d : Decoder} (hstat : d.protostat = .statRecvData) {i : ℕ} :
    i ∈ d.indices ↔ i = d.datasize.toNat ∨ i < (d.datasize + 1).toNat - 1 := by
  simp [Decoder.indices, hstat]

/-- `decodePdu` changes the buffer at these indices only. -/
theorem getElem?_decodePdu (d : Decoder) (b : UInt8) {i : ℕ} (hi : i ∉ d.indices) :
    (decodePdu d b).2.rxpdu.data[i]? = d.rxpdu.data[i]? := by
  have hset : i ≠ d.datasize.toNat → (d.rxpdu.data.setIfInBounds d.datasize.toNat b)[i]? =
      d.rxpdu.data[i]? := fun hne => Vector.getElem?_setIfInBounds_ne hne.symm
  cases hstat : d.protostat with
  | statRecvSize =>
    simp only [Decoder.indices, hstat, List.mem_singleton] at hi
    simpa only [decodePdu, hstat] using hset hi
  | statRecvData =>
    rw [mem_indices_recvData hstat, not_or] at hi
    simpa only [decodePdu, hstat] using hset hi.1
  | statWaitCommand => simp only [decodePdu, hstat]
  | statWaitResponse => by_cases hb : b = headFlag <;> simp [decodePdu, hstat, hb]
  | statRecvHead => by_cases hb : maxSize ≤ b <;> simp [decodePdu, hstat, hb]

/-- What it returns depends on the buffer at these indices only. -/
theorem decodePdu_congr {d d' : Decoder} (b : UInt8) (hstat : d'.protostat = d.protostat)
    (hsize : d'.rxpdu.size = d.rxpdu.size) (hds : d'.datasize = d.datasize)
    (hdata : ∀ i ∈ d.indices, d'.rxpdu.data[i]? = d.rxpdu.data[i]?) :
    (decodePdu d' b).1 = (decodePdu d b).1 := by
  cases hcase : d.protostat with
  | statRecvData =>
    have hget : ∀ i ∈ d.indices, (d'.rxpdu.data.setIfInBounds d.datasize.toNat b).toList.getD i 0 =
        (d.rxpdu.data.setIfInBounds d.datasize.toNat b).toList.getD i 0 := by
      intro i hi
      have heq : (d'.rxpdu.data.setIfInBounds d.datasize.toNat b)[i]? =
          (d.rxpdu.data.setIfInBounds d.datasize.toNat b)[i]? := by
        by_cases hself : d.datasize.toNat = i
        · subst hself
          simp [Vector.getElem?_setIfInBounds_self]
        · rw [Vector.getElem?_setIfInBounds_ne hself, Vector.getElem?_setIfInBounds_ne hself]
          exact hdata i hi
      rw [List.getD_eq_getElem?_getD, List.getD_eq_getElem?_getD, Vector.getElem?_toList,
        Vector.getElem?_toList, heq]
    have hcrc : getCRC (PDU.fromSize { d'.rxpdu with
          data := d'.rxpdu.data.setIfInBounds d.datasize.toNat b }) (d.datasize + 1) =
        getCRC (PDU.fromSize { d.rxpdu with
          data := d.rxpdu.data.setIfInBounds d.datasize.toNat b }) (d.datasize + 1) := by
      refine List.foldl_ext _ _ _ fun r i hi => ?_
      rw [List.mem_range] at hi
      cases i with
      | zero => simp [PDU.fromSize, hsize]
      | succ i =>
        simp only [PDU.fromSize, List.getD_cons_succ]
        rw [hget i ((mem_indices_recvData hcase).2 (Or.inr (by omega)))]
    simp only [decodePdu, hstat, hcase, hds, checkCRC, hcrc,
      hget _ ((mem_indices_recvData hcase).2 (Or.inl rfl))]
    rfl
  | _ => simp only [decodePdu, hstat, hcase]; try split <;> rfl

/-- While data bytes are read, there is one missing; when the checksum is read, there is none. -/
structure InBounds (d : Decoder) : Prop where
  /-- The data bytes are not complete. -/
  recvSize : d.protostat = .statRecvSize →
    d.datasize.toNat < max d.rxpdu.size.toNat 1 ∧ d.rxpdu.size < maxSize
  /-- The data bytes are complete. -/
  recvData : d.protostat = .statRecvData →
    d.datasize.toNat = max d.rxpdu.size.toNat 1 ∧ d.rxpdu.size < maxSize

/-- In the other states of the protocol there is nothing to keep. -/
theorem InBounds.of_not {d : Decoder} (hsize : d.protostat ≠ .statRecvSize)
    (hdata : d.protostat ≠ .statRecvData) : InBounds d :=
  ⟨fun h => absurd h hsize, fun h => absurd h hdata⟩

/-- One byte, one case per state of the protocol. -/
theorem InBounds.byte {d : Decoder} (h : InBounds d) (b : UInt8) : InBounds (decodePdu d b).2 := by
  cases hstat : d.protostat with
  | statWaitCommand =>
    have hstep : decodePdu d b = (cmdError, d) := by simp [decodePdu, hstat]
    rw [hstep]
    exact h
  | statWaitResponse =>
    by_cases hb : b = headFlag
    · subst hb
      rw [decodePdu_wait_head hstat]
      exact .of_not (by simp) (by simp)
    · rw [decodePdu_wait_ne hstat hb]
      exact h
  | statRecvHead =>
    -- the only state that resets the counter
    by_cases hb : maxSize ≤ b
    · rw [decodePdu_head_bad hstat hb]
      exact h
    · have hb' : b < maxSize := UInt8.not_le.1 hb
      rw [decodePdu_head_size hstat hb']
      refine ⟨fun _ => ⟨?_, hb'⟩, fun hdata => by cases hdata⟩
      exact Nat.lt_of_lt_of_le Nat.zero_lt_one (Nat.le_max_right _ _)
  | statRecvSize =>
    obtain ⟨hlt, hmax⟩ := h.recvSize hstat
    have hsize := toNat_lt_of_lt_maxSize hmax
    obtain ⟨-, hstat', hsize', hds', -⟩ := decodePdu_size b hstat (by omega)
    constructor
    · intro hnext
      rw [hstat'] at hnext
      split_ifs at hnext with hlast
      rw [hsize', hds']
      exact ⟨by omega, hmax⟩
    · intro hnext
      rw [hstat'] at hnext
      split_ifs at hnext with hlast
      rw [hsize', hds']
      exact ⟨by omega, hmax⟩
  | statRecvData =>
    obtain ⟨heq, hmax⟩ := h.recvData hstat
    constructor
    · intro hnext
      simp [decodePdu, hstat] at hnext
    · intro _
      simpa [decodePdu, hstat] using And.intro heq hmax

theorem InBounds.step {d d' : Decoder} {e : DecoderStep} (h : InBounds d)
    (hst : Decoder.machine.step d e = some d') : InBounds d' := by
  cases e with
  | byte b =>
    cases hst
    exact h.byte b
  | waitResponse =>
    cases hst
    exact .of_not (by simp) (by simp)
  | waitCommand =>
    cases hst
    exact .of_not (by simp) (by simp)

/-- What the invariant means for the counter and the indices. -/
theorem InBounds.indices_lt {d : Decoder} (h : InBounds d) :
    (∀ i ∈ d.indices, i < maxSize.toNat) ∧
      ((d.protostat = .statRecvSize ∨ d.protostat = .statRecvData) →
        (d.datasize + 1).toNat = d.datasize.toNat + 1) := by
  have hlt : (d.protostat = .statRecvSize ∨ d.protostat = .statRecvData) →
      d.datasize.toNat < 32 := by
    rintro (hstat | hstat)
    · obtain ⟨hds, hmax⟩ := h.recvSize hstat
      have hsize := toNat_lt_of_lt_maxSize hmax
      omega
    · obtain ⟨hds, hmax⟩ := h.recvData hstat
      have hsize := toNat_lt_of_lt_maxSize hmax
      omega
  have hnext : d.datasize.toNat < 32 → (d.datasize + 1).toNat = d.datasize.toNat + 1 := by
    intro hds
    rw [UInt8.toNat_add]
    simp
    omega
  refine ⟨?_, fun hstat => hnext (hlt hstat)⟩
  intro i hi
  change i < 32
  cases hstat : d.protostat with
  | statRecvSize =>
    have hds := hlt (.inl hstat)
    simp only [Decoder.indices, hstat, List.mem_singleton] at hi
    omega
  | statRecvData =>
    have hds := hlt (.inr hstat)
    have hcrc := hnext hds
    simp only [Decoder.indices, hstat, List.cons_append, List.nil_append, List.mem_cons,
      List.mem_range] at hi
    omega
  | _ => simp [Decoder.indices, hstat] at hi

/-- **The receive buffer is never overrun.**  Whatever the buffer and the counter hold when the
loop starts, and in whatever order bytes and assignments come: in every reachable state there is
a data byte missing in `STAT_RECV_SIZE` and none in `STAT_RECV_DATA`, the size is one, the next
call of `decodePdu` stays within the buffer, and the counter does not wrap. -/
theorem inBounds_of_reachable {d₀ d : Decoder} (h₀ : d₀.protostat = .statWaitCommand)
    (h : Decoder.machine.Reachable d₀ d) :
    (d.protostat = .statRecvSize →
        d.datasize.toNat < max d.rxpdu.size.toNat 1 ∧ d.rxpdu.size < maxSize) ∧
      (d.protostat = .statRecvData →
        d.datasize.toNat = max d.rxpdu.size.toNat 1 ∧ d.rxpdu.size < maxSize) ∧
      (∀ i ∈ d.indices, i < maxSize.toNat) ∧
      ((d.protostat = .statRecvSize ∨ d.protostat = .statRecvData) →
        (d.datasize + 1).toNat = d.datasize.toNat + 1) := by
  have hin : InBounds d := h.invariant (I := InBounds)
    (.of_not (by simp [h₀]) (by simp [h₀])) fun s l s' hs hst => hs.step hst
  exact ⟨hin.recvSize, hin.recvData, hin.indices_lt⟩

/-- A size of zero, a new command in the middle of the frame, and the largest size behind it. -/
theorem inBounds_restarted :
    ∃ d, Decoder.machine.Reachable ⟨.statWaitCommand, ⟨0, 0, Vector.replicate 32 0⟩, 0xFF⟩ d ∧
      d.protostat = .statRecvSize ∧ ∀ i ∈ d.indices, i < maxSize.toNat := by
  have hreach : Decoder.machine.Reachable ⟨.statWaitCommand, ⟨0, 0, Vector.replicate 32 0⟩, 0xFF⟩
      _ := ⟨[.waitResponse, .byte 0x5A, .byte 0, .byte 1, .waitResponse, .byte 0x5A, .byte 31,
        .byte 7], rfl⟩
  exact ⟨_, hreach, rfl, (inBounds_of_reachable rfl hreach).2.2.1⟩

end VirtualReceiver

end UavTelemetry
