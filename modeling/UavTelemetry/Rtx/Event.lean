import Mathlib.Data.Nat.Notation
import Mathlib.Tactic.Common

/-!
# Event flags of the RTX kernel

Every thread owns sixteen event flags.  This file translates the parts of the kernel that wait
for them, set them and clear them (`rt_Event.c`, the signal service calls of `rt_CMSIS.c`), for
one thread: its task control block and the post service queue through which interrupt handlers
reach it.

`svcSignalWait` with a nonzero mask waits until **all** flags of the mask are set
(`rtEvtWait _ _ _ true`); only the mask `0` waits for any flag.

## Main definitions

* `OsTcb` : the fields of a task control block that the event functions use.
* `rtEvtWait`, `rtEvtSet`, `rtEvtPsh`, `rtEvtClr` : the event functions.
* `svcSignalWait`, `rtPopReq` : the service call and the handler of posted requests.
* `OsTcb.Blocked` : the thread is blocked in a wait for event flags.
-/

namespace UavTelemetry

namespace Rtx

/-- The event flags of a thread (`U16`). -/
abbrev Flags := BitVec 16

/-- The states of a task that the event functions tell apart. -/
inductive TaskState
  | ready
  | running
  | waitOr
  | waitAnd
  deriving DecidableEq, Repr

/-- The statuses of an `osEvent` that `svcSignalWait` returns. -/
inductive OsStatus
  | osOK
  | osEventSignal
  | osEventTimeout
  | osErrorValue
  deriving DecidableEq, Repr

/-- `osEvent` as returned by a wait for signals. -/
structure OsEvent where
  /-- Status code. -/
  status : OsStatus
  /-- `value.signals`. -/
  signals : BitVec 32
  deriving DecidableEq, Repr

/-- The fields of `OS_TCB` that the event functions use, and the return registers saved on the
stack of the thread. -/
structure OsTcb where
  /-- Task state. -/
  state : TaskState
  /-- Event flags. -/
  events : Flags
  /-- Wait flags. -/
  waits : Flags
  /-- The task is in the delay list `os_dly`. -/
  delayed : Bool
  /-- The registers in which the pending service call returns. -/
  ret : OsEvent
  deriving DecidableEq, Repr

/-- `rt_init_context`: no flags set, no flags waited for. -/
def OsTcb.init : OsTcb := ⟨.running, 0, 0, false, ⟨.osOK, 0⟩⟩

/-- `osWaitForever`. -/
def osWaitForever : ℕ := 0xFFFFFFFF

/-- `rt_ms2tick`, with a system tick of 1000 microseconds. -/
def rtMs2tick (millisec : ℕ) : ℕ :=
  if millisec = osWaitForever then 0xFFFF
  else if millisec > 4000000 then 0xFFFE
  else
    let tick := (1000 * millisec + 1000 - 1) / 1000
    if tick > 0xFFFE then 0xFFFE else tick

/-- `rt_block`, for the task that gives up the processor. -/
def rtBlock (t : OsTcb) (timeout : ℕ) (blockState : TaskState) : OsTcb :=
  if timeout ≠ 0 then
    { t with state := blockState, delayed := if timeout < 0xFFFF then true else t.delayed }
  else t

/-- `rt_evt_wait`: whether the wait is over at once, and the task afterwards. -/
def rtEvtWait (t : OsTcb) (waitFlags : Flags) (timeout : ℕ) (andWait : Bool) : Bool × OsTcb :=
  if andWait then
    if t.events &&& waitFlags = waitFlags then
      (true, { t with events := t.events &&& ~~~waitFlags })
    else (false, rtBlock { t with waits := waitFlags } timeout .waitAnd)
  else
    if t.events &&& waitFlags ≠ 0 then
      (true, { t with waits := t.events &&& waitFlags, events := t.events &&& ~~~waitFlags })
    else (false, rtBlock { t with waits := waitFlags } timeout .waitOr)

/-- The label `wkup` of `rt_evt_set` and `rdy` of `rt_evt_psh`: the task is made ready and its
wait returns the flags in `waits`.  `eventFlags` are the flags waited for. -/
def OsTcb.wake (t : OsTcb) (eventFlags : Flags) : OsTcb :=
  { t with
    events := t.events &&& ~~~eventFlags
    delayed := false
    state := .ready
    ret := ⟨.osEventSignal, t.waits.setWidth 32⟩ }

/-- `rt_evt_set`: set event flags of a task and wake it if its wait is over. -/
def rtEvtSet (t : OsTcb) (eventFlags : Flags) : OsTcb :=
  let t := { t with events := t.events ||| eventFlags }
  let eventFlags := t.waits
  if t.state = .waitAnd ∧ t.events &&& eventFlags = eventFlags then t.wake eventFlags
  else if t.state = .waitOr ∧ t.events &&& eventFlags ≠ 0 then
    { t with waits := t.waits &&& t.events }.wake eventFlags
  else t

/-- `rt_evt_psh`: the same for a request posted by an interrupt handler.  It differs from
`rt_evt_set` only in that it puts the woken task in the ready list without dispatching it. -/
def rtEvtPsh (t : OsTcb) (setFlags : Flags) : OsTcb := rtEvtSet t setFlags

/-- `rt_evt_clr`. -/
def rtEvtClr (t : OsTcb) (clearFlags : Flags) : OsTcb :=
  { t with events := t.events &&& ~~~clearFlags }

/-- The part of `rt_dec_dly` that ends the wait of a delayed task: its service call returns what
is in its return registers. -/
def rtDecDly (t : OsTcb) : OsTcb := { t with state := .ready, delayed := false }

/-- `rt_pop_req`: the requests posted to the task are served in turn. -/
def rtPopReq (t : OsTcb) (psq : List Flags) : OsTcb := psq.foldl rtEvtPsh t

/-- The return registers after a wait for `signals` with a timeout of `millisec`. -/
def waitResult (res : Bool) (signals : BitVec 32) (millisec : ℕ) (waits : Flags) : OsEvent :=
  if res then ⟨.osEventSignal, if signals ≠ 0 then signals else waits.setWidth 32⟩
  else ⟨if millisec ≠ 0 then .osEventTimeout else .osOK, 0⟩

/-- The bits of a signal mask beyond the `osFeature_Signals` flags of a thread. -/
def reservedSignals : BitVec 32 := 0xFFFFFFFF <<< 16

/-- `svcSignalWait`.  The task is blocked afterwards or still running; in both cases `ret` holds
what the call returns unless `wake` overwrites it. -/
def svcSignalWait (t : OsTcb) (signals : BitVec 32) (millisec : ℕ) : OsTcb :=
  if signals &&& reservedSignals ≠ 0 then { t with ret := ⟨.osErrorValue, 0⟩ }
  else
    let r :=
      if signals ≠ 0 then rtEvtWait t (signals.setWidth 16) (rtMs2tick millisec) true
      else rtEvtWait t 0xFFFF (rtMs2tick millisec) false
    { r.2 with ret := waitResult r.1 signals millisec r.2.waits }

/-- `svcSignalWait` as the event loops use it: it waits until **any** flag of the mask is set and
returns those that are. -/
def svcSignalWaitAny (t : OsTcb) (signals : BitVec 32) (millisec : ℕ) : OsTcb :=
  let r := rtEvtWait t (signals.setWidth 16) (rtMs2tick millisec) false
  { r.2 with ret := waitResult r.1 0 millisec r.2.waits }

/-- The thread is blocked in a wait for event flags. -/
def OsTcb.Blocked (t : OsTcb) : Prop := t.state = .waitAnd ∨ t.state = .waitOr

instance (t : OsTcb) : Decidable t.Blocked :=
  inferInstanceAs (Decidable (t.state = .waitAnd ∨ t.state = .waitOr))

/-! ### Flag sets -/

theorem or_and_of_and_eq_zero {a b m : Flags} (ha : a &&& m = 0) :
    (a ||| b) &&& m = b &&& m := by
  rw [BitVec.and_or_distrib_right, ha]
  simp

theorem or_and_of_and_eq {a m : Flags} (ha : a &&& m = m) (b : Flags) : (a ||| b) &&& m = m := by
  rw [BitVec.and_or_distrib_right, ha]
  refine BitVec.eq_of_getElem_eq fun i hi => ?_
  simp only [BitVec.getElem_or, BitVec.getElem_and]
  cases m[i] <;> simp

/-- The union of a list of flag sets. -/
def orFlags (fs : List Flags) : Flags := fs.foldr (· ||| ·) 0

@[simp] theorem orFlags_cons (f : Flags) (fs : List Flags) :
    orFlags (f :: fs) = f ||| orFlags fs := rfl

/-- The flags of a thread are none of the reserved bits. -/
theorem setWidth_and_reservedSignals (f : Flags) : f.setWidth 32 &&& reservedSignals = 0 := by
  have h : reservedSignals = BitVec.allOnes 32 <<< 16 := by decide
  refine BitVec.eq_of_getElem_eq fun i hi => ?_
  rw [h, BitVec.getElem_and, BitVec.getElem_shiftLeft]
  by_cases hlow : i < 16
  · simp [hlow]
  · simp [BitVec.getLsbD_of_ge f i (Nat.le_of_not_lt hlow)]

/-! ### Waiting for all flags -/

/-- The task is blocked in a wait for all flags of `mask`. -/
structure OsTcb.AwaitsAll (t : OsTcb) (mask : Flags) : Prop where
  /-- It waits for all flags. -/
  state : t.state = .waitAnd
  /-- It waits for `mask`. -/
  waits : t.waits = mask

theorem OsTcb.AwaitsAll.blocked {t : OsTcb} {mask : Flags} (h : t.AwaitsAll mask) : t.Blocked :=
  Or.inl h.state

/-- A wait for all flags of a nonzero mask, with a timeout that is not zero: it is over at once if
all flags are pending, and otherwise leaves the flags as they are and blocks the task. -/
theorem svcSignalWait_cases {t : OsTcb} {signals : BitVec 32} {millisec : ℕ}
    (hne : signals ≠ 0) (hsmall : signals &&& reservedSignals = 0)
    (htick : rtMs2tick millisec ≠ 0) :
    (t.events &&& signals.setWidth 16 = signals.setWidth 16 ∧
        (svcSignalWait t signals millisec).state = t.state) ∨
      (t.events &&& signals.setWidth 16 ≠ signals.setWidth 16 ∧
        (svcSignalWait t signals millisec).AwaitsAll (signals.setWidth 16) ∧
        (svcSignalWait t signals millisec).events = t.events) := by
  have hr : ¬ signals &&& reservedSignals ≠ 0 := fun h => h hsmall
  by_cases hall : t.events &&& signals.setWidth 16 = signals.setWidth 16
  · refine Or.inl ⟨hall, ?_⟩
    simp only [svcSignalWait, if_neg hr, if_pos hne, rtEvtWait, if_pos hall, if_true]
  · have hwait : rtEvtWait t (signals.setWidth 16) (rtMs2tick millisec) true =
        (false, rtBlock { t with waits := signals.setWidth 16 } (rtMs2tick millisec) .waitAnd) := by
      simp only [rtEvtWait, if_neg hall, if_true]
    refine Or.inr ⟨hall, ⟨?_, ?_⟩, ?_⟩ <;>
      simp only [svcSignalWait, if_neg hr, if_pos hne, hwait, rtBlock, if_pos htick]

/-- Setting flags wakes a task that waits for all flags of `mask` exactly when that completes
`mask`; otherwise the flags stay pending. -/
theorem rtEvtSet_cases {t : OsTcb} {mask : Flags} (h : t.AwaitsAll mask) (f : Flags) :
    ((t.events ||| f) &&& mask = mask ∧ (rtEvtSet t f).state = .ready) ∨
      ((t.events ||| f) &&& mask ≠ mask ∧ (rtEvtSet t f).AwaitsAll mask ∧
        (rtEvtSet t f).events = t.events ||| f) := by
  by_cases hall : (t.events ||| f) &&& mask = mask
  · exact Or.inl ⟨hall, by simp [rtEvtSet, h.state, h.waits, hall, OsTcb.wake]⟩
  · exact Or.inr ⟨hall, ⟨by simp [rtEvtSet, h.state, h.waits, hall],
      by simp [rtEvtSet, h.state, h.waits, hall]⟩, by simp [rtEvtSet, h.state, h.waits, hall]⟩

/-- Setting flags does not touch the state of a task that does not wait for any. -/
theorem rtEvtSet_state {t : OsTcb} (h : ¬ t.Blocked) (f : Flags) :
    (rtEvtSet t f).state = t.state := by
  simp only [OsTcb.Blocked, not_or] at h
  simp [rtEvtSet, h.1, h.2]

theorem rtPopReq_state {t : OsTcb} (h : ¬ t.Blocked) (psq : List Flags) :
    (rtPopReq t psq).state = t.state := by
  induction psq generalizing t with
  | nil => rfl
  | cons f psq ih =>
    have hf : (rtEvtPsh t f).state = t.state := rtEvtSet_state h f
    have hnot : ¬ (rtEvtPsh t f).Blocked := by rwa [OsTcb.Blocked, hf]
    exact (ih hnot).trans hf

/-- Serving posted requests wakes a task that waits for all flags of `mask`, of which some are
not pending, exactly when the requests together complete `mask`. -/
theorem rtPopReq_cases {t : OsTcb} {mask : Flags} (h : t.AwaitsAll mask)
    (hpart : t.events &&& mask ≠ mask) (psq : List Flags) :
    ((t.events ||| orFlags psq) &&& mask = mask ∧ ¬ (rtPopReq t psq).Blocked) ∨
      ((t.events ||| orFlags psq) &&& mask ≠ mask ∧ (rtPopReq t psq).AwaitsAll mask ∧
        (rtPopReq t psq).events = t.events ||| orFlags psq) := by
  induction psq generalizing t with
  | nil => exact Or.inr ⟨by simpa [orFlags] using hpart, h, by simp [orFlags, rtPopReq]⟩
  | cons f psq ih =>
    rw [orFlags_cons, ← BitVec.or_assoc]
    rcases rtEvtSet_cases h f with ⟨hall, hready⟩ | ⟨hnot, hwait, hevents⟩
    -- woken by `f`: the later requests find a task that waits for nothing
    · have hrun : ¬ (rtEvtPsh t f).Blocked := by
        rw [OsTcb.Blocked, rtEvtPsh, hready]
        decide
      refine Or.inl ⟨or_and_of_and_eq hall _, ?_⟩
      have hstate : (rtPopReq t (f :: psq)).state = (rtEvtPsh t f).state :=
        rtPopReq_state hrun psq
      rwa [OsTcb.Blocked, hstate]
    · rw [← hevents] at hnot ⊢
      exact ih hwait hnot

end Rtx

end UavTelemetry
