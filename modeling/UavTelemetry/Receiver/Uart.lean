import UavTelemetry.LTS.Basic

/-!
# A byte from the line to the decoder

The bytes of the peer are read by the task, not by the interrupt handler: `uart_irq` calls
`RxISRCallback`, which sets `VR_EV_DATAREADY`, and the task then reads the data register as long as
`serial_readable` finds the flag `RXNE` set.  But `uart_irq` clears `RXNE` itself behind the call.

A byte arrives only when the one before has been dealt with and the task is back at
`signal_wait`.  Steps of the handler and of the task may come in any order.

## Main definitions

* `Uart` : the data register and its flag, with `serialReadable`, `serialGetc` and `clearFlag`.
* `Reading` : the handler, the task, and the bytes that have arrived and been decoded.
* `Reading.machine` : arrivals, steps of the handler and steps of the task.
* `Reading.Delivered` : no byte is lost.
* `Reading.ReadFirst` : `RXNE` is cleared by the handler only when the task has read the byte.

## Main results

* `Reading.bytes_delivered_iff` : no byte is lost exactly in the runs in which the task reads first;
  if the handler is not preempted, the task reads nothing at all.
-/

namespace UavTelemetry

namespace VirtualReceiver

/-- The receiver of a UART. -/
structure Uart where
  /-- The data register `DR`. -/
  dr : UInt8
  /-- The flag `RXNE`: the data register is not empty. -/
  rxne : Bool
  deriving DecidableEq, Repr

namespace Uart

/-- A byte arrives. -/
def receive (_ : Uart) (b : UInt8) : Uart := ⟨b, true⟩

/-- `serial_readable`. -/
def serialReadable (u : Uart) : Bool := u.rxne

/-- `serial_getc`: it waits until the register can be read; the read clears `RXNE`. -/
def serialGetc (u : Uart) : Option (UInt8 × Uart) :=
  if u.serialReadable then some (u.dr, { u with rxne := false }) else none

/-- `__HAL_UART_CLEAR_FLAG(&UartHandle, UART_FLAG_RXNE)`. -/
def clearFlag (u : Uart) : Uart := { u with rxne := false }

end Uart

/-- Where the interrupt handler `uart_irq` stands. -/
inductive IrqPc
  /-- It is not running. -/
  | idle
  /-- At the test of `RXNE`. -/
  | entry
  /-- Behind the call of `irq_handler`, at the clear of `RXNE`. -/
  | handled
  deriving DecidableEq, Repr

/-- Where the task stands in its loop. -/
inductive ReadPc
  /-- In `signal_wait`. -/
  | wait
  /-- At `signal_clr(VR_EV_DATAREADY)`. -/
  | signalClr
  /-- At the test of `while (_serial->readable())`. -/
  | readable
  /-- At `decodePdu((uint8_t)_serial->getc())`. -/
  | getc
  deriving DecidableEq, Repr

/-- The way of the bytes. -/
structure Reading where
  /-- The receiver of the UART. -/
  uart : Uart
  /-- The interrupt handler. -/
  irq : IrqPc
  /-- `VR_EV_DATAREADY` is pending. -/
  dataready : Bool
  /-- The task. -/
  pc : ReadPc
  /-- The bytes that have arrived. -/
  arrived : List UInt8
  /-- The bytes passed to `decodePdu`. -/
  decoded : List UInt8
  deriving DecidableEq, Repr

namespace Reading

/-- What happens. -/
inductive Label
  /-- A byte arrives and raises the interrupt. -/
  | arrive (b : UInt8)
  /-- The handler takes a step. -/
  | irq
  /-- The task takes a step. -/
  | task
  deriving DecidableEq, Repr

/-- Nothing has arrived, and the task is in `signal_wait`. -/
def start (dr : UInt8) : Reading := ⟨⟨dr, false⟩, .idle, false, .wait, [], []⟩

/-- The handler is done, the task is blocked in `signal_wait` and its event is not pending. -/
structure AtRest (s : Reading) : Prop where
  /-- The handler is done. -/
  irq : s.irq = .idle
  /-- The task is in its wait. -/
  pc : s.pc = .wait
  /-- The event is not pending. -/
  dataready : s.dataready = false

instance (s : Reading) : Decidable s.AtRest :=
  decidable_of_iff (s.irq = .idle ∧ s.pc = .wait ∧ s.dataready = false)
    ⟨fun h => ⟨h.1, h.2.1, h.2.2⟩, fun h => ⟨h.irq, h.pc, h.dataready⟩⟩

/-- A step of `uart_irq`. -/
def irqStep (s : Reading) : Option Reading :=
  match s.irq with
  | .idle => none
  | .entry =>
    if s.uart.rxne then some { s with dataready := true, irq := .handled }
    else some { s with irq := .idle }
  | .handled => some { s with uart := s.uart.clearFlag, irq := .idle }

/-- A step of the task. -/
def taskStep (s : Reading) : Option Reading :=
  match s.pc with
  | .wait => if s.dataready then some { s with pc := .signalClr } else none
  | .signalClr => some { s with dataready := false, pc := .readable }
  | .readable => some { s with pc := if s.uart.serialReadable then .getc else .wait }
  | .getc =>
    match s.uart.serialGetc with
    | none => some s
    | some (b, uart) => some { s with uart := uart, decoded := s.decoded ++ [b], pc := .readable }

/-- A step. -/
def step (s : Reading) : Label → Option Reading
  | .arrive b =>
    if s.AtRest then
      some { s with uart := s.uart.receive b, irq := .entry, arrived := s.arrived ++ [b] }
    else none
  | .irq => s.irqStep
  | .task => s.taskStep

/-- Arrivals, steps of the handler and steps of the task in any order. -/
def machine : Machine Reading Label := ⟨step⟩

/-- **No byte is lost**: the bytes decoded are the first ones that arrived, in order, and all of
them when the task is blocked with nothing pending. -/
def Delivered (s : Reading) : Prop :=
  s.decoded <+: s.arrived ∧ (s.AtRest → s.decoded = s.arrived)

instance (s : Reading) : Decidable s.Delivered :=
  inferInstanceAs (Decidable (s.decoded <+: s.arrived ∧ (s.AtRest → s.decoded = s.arrived)))

/-- The handler clears `RXNE` only when the task has read the byte. -/
def ReadFirst (s : Reading) (l : Label) : Prop :=
  l = .irq → s.irq = .handled → s.uart.rxne = false

/-- The task does not run before the handler is done. -/
def NotPreempted (s : Reading) (l : Label) : Prop := l = .task → s.irq = .idle

/-! ### Runs in which the task reads first -/

/-- What holds as long as the task reads first. -/
structure Kept (s : Reading) : Prop where
  /-- A byte that has arrived is decoded or in the register. -/
  arrived : s.arrived = s.decoded ++ if s.uart.rxne then [s.uart.dr] else []
  /-- The handler is at the arrival of a byte while the task waits. -/
  entry : s.irq = .entry → s.uart.rxne ∧ s.pc = .wait ∧ s.dataready = false
  /-- Behind the handler's call, the task knows of a byte in the register. -/
  handled : s.irq = .handled → s.uart.rxne → s.dataready ∨ s.pc ≠ .wait
  /-- There is no byte in the register once the handler is done. -/
  idle : s.irq = .idle → s.uart.rxne = false

variable {s s' : Reading} {l : Label}

theorem Kept.delivered (h : s.Kept) : s.Delivered := by
  refine ⟨by rw [h.arrived]; exact List.prefix_append _ _, fun hrest => ?_⟩
  have harrived := h.arrived
  rw [h.idle hrest.irq] at harrived
  simpa using harrived.symm

/-- What a step has done. -/
inductive Stepped (s : Reading) : Label → Reading → Prop
  | arrive (b : UInt8) (rest : s.AtRest) : Stepped s (.arrive b)
    { s with uart := s.uart.receive b, irq := .entry, arrived := s.arrived ++ [b] }
  | raise (irq : s.irq = .entry) (rxne : s.uart.rxne = true) :
    Stepped s .irq { s with dataready := true, irq := .handled }
  | ignore (irq : s.irq = .entry) (rxne : s.uart.rxne = false) :
    Stepped s .irq { s with irq := .idle }
  | clear (irq : s.irq = .handled) :
    Stepped s .irq { s with uart := s.uart.clearFlag, irq := .idle }
  | wake (pc : s.pc = .wait) (dataready : s.dataready = true) :
    Stepped s .task { s with pc := .signalClr }
  | signalClr (pc : s.pc = .signalClr) :
    Stepped s .task { s with dataready := false, pc := .readable }
  | test (pc : s.pc = .readable) :
    Stepped s .task { s with pc := if s.uart.serialReadable then .getc else .wait }
  | stay (pc : s.pc = .getc) (rxne : s.uart.rxne = false) : Stepped s .task s
  | read (pc : s.pc = .getc) (rxne : s.uart.rxne = true) : Stepped s .task
    { s with
      uart := { s.uart with rxne := false }
      decoded := s.decoded ++ [s.uart.dr]
      pc := .readable }

theorem step_cases (h : s.step l = some s') : s.Stepped l s' := by
  cases l with
  | arrive b =>
    simp only [step] at h
    split_ifs at h with hrest
    cases h
    exact .arrive b hrest
  | irq =>
    simp only [step, irqStep] at h
    cases hirq : s.irq with
    | idle => simp [hirq] at h
    | entry =>
      simp only [hirq] at h
      split_ifs at h with hrxne
      · cases h
        exact .raise hirq hrxne
      · cases h
        exact .ignore hirq (Bool.eq_false_iff.2 hrxne)
    | handled =>
      simp only [hirq, Option.some.injEq] at h
      subst h
      exact .clear hirq
  | task =>
    simp only [step, taskStep] at h
    cases hpc : s.pc with
    | wait =>
      simp only [hpc] at h
      split_ifs at h with hready
      cases h
      exact .wake hpc hready
    | signalClr =>
      simp only [hpc, Option.some.injEq] at h
      subst h
      exact .signalClr hpc
    | readable =>
      simp only [hpc, Option.some.injEq] at h
      subst h
      exact .test hpc
    | getc =>
      simp only [hpc, Uart.serialGetc, Uart.serialReadable] at h
      cases hrxne : s.uart.rxne with
      | false =>
        simp only [hrxne, Bool.false_eq_true, if_false, Option.some.injEq] at h
        subst h
        exact .stay hpc hrxne
      | true =>
        simp only [hrxne, if_true, Option.some.injEq] at h
        subst h
        exact .read hpc hrxne

theorem Kept.step (h : s.Kept) (hl : ReadFirst s l) (hst : s.step l = some s') : s'.Kept := by
  have harrived := h.arrived
  -- the handler is not at its entry once the task is behind its wait
  have hentry : s.pc ≠ .wait → s.irq ≠ .entry := fun hpc hirq => hpc (h.entry hirq).2.1
  cases step_cases hst with
  | arrive b hrest =>
    rw [h.idle hrest.irq] at harrived
    refine ⟨?_, fun _ => ⟨rfl, hrest.pc, hrest.dataready⟩, ?_, ?_⟩
    · simp [Uart.receive, harrived]
    · intro hirq
      cases hirq
    · intro hirq
      cases hirq
  | raise hirq hrxne =>
    exact ⟨h.arrived, fun hirq => (by cases hirq), fun _ _ => Or.inl rfl,
      fun hirq => (by cases hirq)⟩
  | ignore hirq hrxne =>
    rw [(h.entry hirq).1] at hrxne
    cases hrxne
  | clear hirq =>
    -- the register is empty already, so that the clear changes nothing
    have hrxne := hl rfl hirq
    rw [hrxne] at harrived
    exact ⟨by simpa [Uart.clearFlag] using harrived, fun hirq => (by cases hirq),
      fun hirq => (by cases hirq), fun _ => rfl⟩
  | wake hpc hready =>
    refine ⟨h.arrived, fun hirq => ?_, fun _ _ => Or.inl hready, h.idle⟩
    have hclear := (h.entry hirq).2.2
    rw [hready] at hclear
    cases hclear
  | signalClr hpc =>
    exact ⟨h.arrived, fun hirq => absurd hirq (hentry (by simp [hpc])),
      fun _ _ => Or.inr (by simp), h.idle⟩
  | test hpc =>
    refine ⟨h.arrived, fun hirq => absurd hirq (hentry (by simp [hpc])), fun _ hrxne => ?_, h.idle⟩
    have hread : s.uart.serialReadable = true := hrxne
    exact Or.inr (by simp [hread])
  | stay hpc hrxne => exact h
  | read hpc hrxne =>
    rw [hrxne] at harrived
    exact ⟨by simpa using harrived, fun hirq => absurd hirq (hentry (by simp [hpc])),
      fun _ hrxne => (by cases hrxne), fun _ => rfl⟩

theorem kept_start (dr : UInt8) : (start dr).Kept :=
  ⟨rfl, fun hirq => (by cases hirq), fun hirq => (by cases hirq), fun _ => rfl⟩

/-! ### Lost bytes -/

/-- What holds in every run. -/
structure Sane (s : Reading) : Prop where
  /-- No byte is decoded that has not arrived. -/
  length_le : s.decoded.length + s.uart.rxne.toNat ≤ s.arrived.length
  /-- There is no byte in the register once the handler is done. -/
  idle : s.irq = .idle → s.uart.rxne = false

/-- The number of bytes that are neither decoded nor in the register. -/
def lost (s : Reading) : ℕ := s.arrived.length - (s.decoded.length + s.uart.rxne.toNat)

theorem sane_start (dr : UInt8) : (start dr).Sane := ⟨Nat.le_refl _, fun _ => rfl⟩

/-- A step loses a byte exactly when the handler clears `RXNE` before the task has read. -/
theorem Sane.step (h : s.Sane) (hst : s.step l = some s') :
    s'.Sane ∧ s.lost ≤ s'.lost ∧ (s'.lost = s.lost → ReadFirst s l) := by
  have hle := h.length_le
  cases step_cases hst with
  | arrive b hrest =>
    have hrxne := h.idle hrest.irq
    rw [hrxne] at hle
    refine ⟨⟨?_, fun hirq => (by cases hirq)⟩, ?_, fun _ hirq => (by cases hirq)⟩
    · simpa [Uart.receive] using hle
    · simp [lost, Uart.receive, hrxne]
  | raise hirq hrxne =>
    exact ⟨⟨hle, fun hirq => (by cases hirq)⟩, Nat.le_refl _,
      fun _ _ hh => by cases hirq.symm.trans hh⟩
  | ignore hirq hrxne =>
    exact ⟨⟨hle, fun _ => hrxne⟩, Nat.le_refl _, fun _ _ hh => by cases hirq.symm.trans hh⟩
  | clear hirq =>
    cases hrxne : s.uart.rxne with
    | false =>
      rw [hrxne] at hle
      exact ⟨⟨hle, fun _ => rfl⟩, by simp [lost, Uart.clearFlag, hrxne], fun _ _ _ => hrxne⟩
    | true =>
      rw [hrxne] at hle
      simp only [Bool.toNat_true] at hle
      refine ⟨⟨?_, fun _ => rfl⟩, ?_, fun hsame => ?_⟩
      · simp only [Uart.clearFlag, Bool.toNat_false]
        omega
      · simp only [lost, Uart.clearFlag, hrxne, Bool.toNat_false, Bool.toNat_true]
        omega
      · simp only [lost, Uart.clearFlag, hrxne, Bool.toNat_false, Bool.toNat_true] at hsame
        omega
  | wake | signalClr | test | stay =>
    exact ⟨⟨hle, h.idle⟩, Nat.le_refl _, fun _ hl => by cases hl⟩
  | read hpc hrxne =>
    -- the byte moves from the register to the decoder
    have hcount : (s.decoded ++ [s.uart.dr]).length + false.toNat =
        s.decoded.length + s.uart.rxne.toNat := by simp [hrxne]
    refine ⟨⟨hcount ▸ hle, fun _ => rfl⟩, ?_, fun _ hl => by cases hl⟩
    exact Nat.le_of_eq (by rw [lost, lost, hcount])

/-- A run that ends with the task blocked and all bytes decoded has lost no byte on its way. -/
theorem allSteps_readFirst {dr : UInt8} {ls : List Label}
    (hrun : machine.run (start dr) ls = some s) (hrest : s.AtRest)
    (hall : s.decoded = s.arrived) : machine.AllSteps ReadFirst (start dr) ls := by
  have hsane : s.Sane :=
    Machine.Reachable.invariant ⟨ls, hrun⟩ (sane_start dr) fun _ _ _ hs hst => (hs.step hst).1
  refine Machine.allSteps_of_measure (I := Sane) (μ := lost) (sane_start dr)
    (fun _ _ _ hs hst => (hs.step hst).1) (fun _ _ _ hs hst => (hs.step hst).2) hrun ?_
  simp [lost, start, hall, hsane.idle hrest.irq]

/-! ### Runs in which the handler is not preempted -/

/-- What holds as long as the handler is not preempted. -/
structure Unread (s : Reading) : Prop where
  /-- No byte has been decoded. -/
  decoded : s.decoded = []
  /-- There is no byte in the register once the handler is done. -/
  idle : s.irq = .idle → s.uart.rxne = false
  /-- The task does not come to read. -/
  pc : s.pc ≠ .getc

theorem unread_start (dr : UInt8) : (start dr).Unread := ⟨rfl, fun _ => rfl, by simp [start]⟩

theorem Unread.step (h : s.Unread) (hl : NotPreempted s l) (hst : s.step l = some s') :
    s'.Unread := by
  cases step_cases hst with
  | arrive | raise => exact ⟨h.decoded, fun hirq => (by cases hirq), h.pc⟩
  | ignore hirq hrxne => exact ⟨h.decoded, fun _ => hrxne, h.pc⟩
  | clear hirq => exact ⟨h.decoded, fun _ => rfl, h.pc⟩
  | wake hpc | signalClr hpc => exact ⟨h.decoded, h.idle, by simp⟩
  | test hpc =>
    -- the handler is done and has cleared the flag, so that the task finds nothing to read
    have hrxne : s.uart.serialReadable = false := h.idle (hl rfl)
    exact ⟨h.decoded, h.idle, by simp [hrxne]⟩
  | stay hpc | read hpc => exact absurd hpc h.pc

/-- **A byte that arrives is lost unless the task reads it before the handler clears `RXNE`.**  No
byte is lost in a run in which the task reads first; a run that ends with the task blocked and has
lost no byte is one of those; and if the handler is not preempted, the task reads no byte. -/
theorem bytes_delivered_iff (dr : UInt8) (ls : List Label) :
    (machine.AllSteps ReadFirst (start dr) ls → machine.AllStates Delivered (start dr) ls) ∧
      (∀ s, machine.run (start dr) ls = some s → s.AtRest →
        (machine.AllStates Delivered (start dr) ls ↔ machine.AllSteps ReadFirst (start dr) ls)) ∧
      (machine.AllSteps NotPreempted (start dr) ls →
        machine.AllStates (fun s => s.decoded = []) (start dr) ls) := by
  have hread : machine.AllSteps ReadFirst (start dr) ls →
      machine.AllStates Delivered (start dr) ls := fun h =>
    (Machine.allStates_of_allSteps (kept_start dr) (fun _ _ _ hs hl hst => hs.step hl hst) h).mono
      fun _ => Kept.delivered
  refine ⟨hread, fun s hrun hrest => ⟨fun h => ?_, hread⟩, fun h => ?_⟩
  · exact allSteps_readFirst hrun hrest ((h.last hrun).2 hrest)
  · exact (Machine.allStates_of_allSteps (unread_start dr)
      (fun _ _ _ hs hl hst => hs.step hl hst) h).mono fun _ => Unread.decoded

/-- A byte arrives and the handler runs to its end; the task wakes up, finds `RXNE` cleared and
blocks again, with nothing decoded. -/
theorem not_delivered_arrive :
    ¬ machine.AllStates Delivered (start 0) [.arrive 90, .irq, .irq, .task, .task, .task] := by
  decide

end Reading

end VirtualReceiver

end UavTelemetry
