import Mathlib.Logic.Function.Iterate
import UavTelemetry.Rtx.Event

/-!
# Timers of the RTX kernel

A periodic timer counts down from the count with which it was started, and starts again from its
*initial count*.  The initial count is stored only when a stopped timer is started: a timer that is
started while it runs waits for the new count once and then goes on with the old one.

## Main definitions

* `OsTimer` : the fields of a timer control block.
* `OsTimer.svcTimerStart`, `OsTimer.svcTimerStop` : the service calls.
* `OsTimer.sysTimerTick` : a tick of the system.
* `Driven` : a device whose timer drives it; `Driven.tick` is a tick for it.

## Main results

* `Driven.iterate_tick` : the device waits while its timer counts down.
* `Driven.iterate_tick_tcnt` : then its callback runs.
-/

namespace UavTelemetry

namespace Rtx

/-- The fields of `os_timer_cb` that the service calls use, for a timer that has been created.
`os_timer_head` lists the running timers with the differences of their counts; `tcnt` is the whole
count. -/
structure OsTimer where
  /-- The timer is running (`osTimerRunning`), not stopped (`osTimerStopped`). -/
  running : Bool
  /-- Timer delay count: the ticks that are left. -/
  tcnt : ℕ
  /-- Timer initial count. -/
  icnt : ℕ
  deriving DecidableEq, Repr

namespace OsTimer

/-- `svcTimerStart`: start or restart the timer. -/
def svcTimerStart (pt : OsTimer) (millisec : ℕ) : OsTimer :=
  let tcnt := rtMs2tick millisec
  if tcnt = 0 then pt
  else if pt.running then { pt with tcnt := tcnt }
  else { running := true, tcnt := tcnt, icnt := tcnt % 0x10000 }

/-- `svcTimerStop`: stop the timer. -/
def svcTimerStop (pt : OsTimer) : OsTimer := { pt with running := false }

/-- `sysTimerTick`, for a periodic timer: whether it expires, and the timer afterwards.  A timer
that expires is inserted again with its initial count. -/
def sysTimerTick (pt : OsTimer) : Bool × OsTimer :=
  if pt.running then
    let tcnt := pt.tcnt - 1
    if tcnt = 0 then (true, { pt with tcnt := pt.icnt }) else (false, { pt with tcnt := tcnt })
  else (false, pt)

variable {pt : OsTimer} {millisec : ℕ}

/-- A tick is a millisecond. -/
theorem rtMs2tick_of_lt (h : millisec < 0xFFFF) : rtMs2tick millisec = millisec := by
  have hforever : millisec ≠ osWaitForever := by
    have : osWaitForever = 4294967295 := rfl
    omega
  have htick : (1000 * millisec + 1000 - 1) / 1000 = millisec := by omega
  rw [rtMs2tick, if_neg hforever, if_neg (by omega), htick]
  exact if_neg (by omega)

theorem svcTimerStart_of_running (h : pt.running = true) (hpos : 0 < millisec)
    (hlt : millisec < 0xFFFF) : pt.svcTimerStart millisec = { pt with tcnt := millisec } := by
  simp only [svcTimerStart, rtMs2tick_of_lt hlt, h, if_neg (Nat.ne_of_gt hpos), if_true]

theorem svcTimerStart_of_stopped (h : pt.running = false) (hpos : 0 < millisec)
    (hlt : millisec < 0xFFFF) : pt.svcTimerStart millisec = ⟨true, millisec, millisec⟩ := by
  have hmod : millisec % 0x10000 = millisec := Nat.mod_eq_of_lt (by omega)
  simp only [svcTimerStart, rtMs2tick_of_lt hlt, h, if_neg (Nat.ne_of_gt hpos), hmod,
    Bool.false_eq_true, if_false]

theorem sysTimerTick_of_stopped (h : pt.running = false) : pt.sysTimerTick = (false, pt) := by
  simp [sysTimerTick, h]

theorem sysTimerTick_of_lt (h : pt.running = true) (hcnt : 1 < pt.tcnt) :
    pt.sysTimerTick = (false, { pt with tcnt := pt.tcnt - 1 }) := by
  have hne : pt.tcnt - 1 ≠ 0 := by omega
  simp [sysTimerTick, h, hne]

theorem sysTimerTick_of_one (h : pt.running = true) (hcnt : pt.tcnt = 1) :
    pt.sysTimerTick = (true, { pt with tcnt := pt.icnt }) := by
  simp [sysTimerTick, h, hcnt]

end OsTimer

/-- A device of type `σ` with a periodic timer whose callback changes the device. -/
structure Driven (σ : Type*) where
  /-- The timer of the device. -/
  tmr : σ → OsTimer
  /-- The device with another state of its timer. -/
  setTmr : σ → OsTimer → σ
  /-- The callback of the timer. -/
  callback : σ → σ
  tmr_setTmr : ∀ s pt, tmr (setTmr s pt) = pt
  setTmr_tmr : ∀ s, setTmr s (tmr s) = s
  setTmr_setTmr : ∀ s pt pt', setTmr (setTmr s pt) pt' = setTmr s pt'

namespace Driven

variable {σ : Type*} (D : Driven σ)

/-- A tick of the system: when the timer expires, its callback runs at once. -/
def tick (s : σ) : σ :=
  let r := (D.tmr s).sysTimerTick
  let s := D.setTmr s r.2
  if r.1 then D.callback s else s

variable {D} {s : σ}

theorem tick_of_stopped (h : (D.tmr s).running = false) : D.tick s = s := by
  rw [tick, OsTimer.sysTimerTick_of_stopped h]
  exact D.setTmr_tmr s

/-- A device whose timer is stopped rests. -/
theorem iterate_tick_of_stopped (h : (D.tmr s).running = false) (n : ℕ) : D.tick^[n] s = s :=
  Function.iterate_fixed (tick_of_stopped h) n

theorem tick_of_lt (h : (D.tmr s).running = true) (hcnt : 1 < (D.tmr s).tcnt) :
    D.tick s = D.setTmr s { D.tmr s with tcnt := (D.tmr s).tcnt - 1 } := by
  rw [tick, OsTimer.sysTimerTick_of_lt h hcnt]
  rfl

theorem tick_of_one (h : (D.tmr s).running = true) (hcnt : (D.tmr s).tcnt = 1) :
    D.tick s = D.callback (D.setTmr s { D.tmr s with tcnt := (D.tmr s).icnt }) := by
  rw [tick, OsTimer.sysTimerTick_of_one h hcnt]
  rfl

/-- **The device waits while its timer counts down.** -/
theorem iterate_tick (h : (D.tmr s).running = true) {k : ℕ} (hk : k < (D.tmr s).tcnt) :
    D.tick^[k] s = D.setTmr s { D.tmr s with tcnt := (D.tmr s).tcnt - k } := by
  induction k with
  | zero => exact (D.setTmr_tmr s).symm
  | succ k ih =>
    rw [Function.iterate_succ_apply', ih (Nat.lt_of_succ_lt hk), tick_of_lt]
    · rw [D.tmr_setTmr, D.setTmr_setTmr]
      rfl
    · rw [D.tmr_setTmr]
      exact h
    · rw [D.tmr_setTmr]
      show 1 < (D.tmr s).tcnt - k
      omega

/-- **Then the callback runs**, with the timer already inserted again. -/
theorem iterate_tick_tcnt (h : (D.tmr s).running = true) (hpos : 0 < (D.tmr s).tcnt) :
    D.tick^[(D.tmr s).tcnt] s =
      D.callback (D.setTmr s { D.tmr s with tcnt := (D.tmr s).icnt }) := by
  obtain ⟨k, hk⟩ := Nat.exists_eq_succ_of_ne_zero (Nat.ne_of_gt hpos)
  rw [hk, Function.iterate_succ_apply', iterate_tick h (by omega), tick_of_one]
  · rw [D.tmr_setTmr, D.setTmr_setTmr]
  · rw [D.tmr_setTmr]
    exact h
  · rw [D.tmr_setTmr]
    show (D.tmr s).tcnt - k = 1
    omega

end Driven

end Rtx

end UavTelemetry
