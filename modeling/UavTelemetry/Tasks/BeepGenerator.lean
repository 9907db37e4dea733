import Mathlib.Algebra.Order.Floor.Semiring
import Mathlib.Data.Rat.Floor
import UavTelemetry.Rtx.Timer
import UavTelemetry.Tasks.SysManager

/-!
# The beep generator

`BeepGenerator` sounds a buzzer in patterns of short beeps.  Its timer drives a state machine:
every callback ends a beep or a silence, and after the ordered number of beeps the generator stops
or waits for the next cycle.

## Main definitions

* `PwmOut` : the output of the buzzer, with `read`, `write`, `periodUs` and `pulsewidthUs`.
* `BeepGenerator` : the generator; `BeepGenerator.construct` is its constructor.
* `BeepGenerator.beepTimer` : the callback of its timer.
* `BeepGenerator.beepStart`, `BeepGenerator.beepStop` : the orders.
* `BeepGenerator.driven` : the generator as a device that its timer drives.
-/

namespace UavTelemetry

open Rtx

/-- The fields of `pwmout_t` that set the output, in microseconds.  The duty cycle is an exact
number. -/
structure PwmOut where
  /-- The period. -/
  period : ℕ
  /-- The part of the period for which the output is high. -/
  pulse : ℕ
  deriving DecidableEq, Repr

namespace PwmOut

/-- `pwmout_read`: the duty cycle. -/
def read (p : PwmOut) : ℚ :=
  let value : ℚ := if p.period > 0 then p.pulse / p.period else 0
  if value > 1 then 1 else value

/-- `pwmout_write`: set the duty cycle. -/
def write (p : PwmOut) (value : ℚ) : PwmOut :=
  let value := if value < 0 then 0 else if value > 1 then 1 else value
  { p with pulse := ⌊(p.period : ℚ) * value⌋₊ }

/-- `pwmout_period_us`: set the duty cycle again, and then the period. -/
def periodUs (p : PwmOut) (us : ℕ) : PwmOut := { p.write p.read with period := us }

/-- `pwmout_pulsewidth_us`. -/
def pulsewidthUs (p : PwmOut) (us : ℕ) : PwmOut := p.write (us / p.period)

end PwmOut

/-- `BeepGenerator::ShotTimeEnum`. -/
inductive BeepGenerator.ShotTime
  | shortTime
  | longTime
  deriving DecidableEq, Repr

/-- `BeepGenerator::BeepStateEnum`. -/
inductive BeepGenerator.BeepState
  | stopped
  | beep
  | silence
  | waitCycle
  deriving DecidableEq, Repr

/-- The beep generator. -/
structure BeepGenerator where
  /-- `_buzzer`. -/
  buzzer : PwmOut
  /-- `_mode`. -/
  mode : BeepGenerator.ShotMode
  /-- `_time`. -/
  time : BeepGenerator.ShotTime
  /-- `_repeat`. -/
  rep : BeepGenerator.ShotRepeat
  /-- `_status`. -/
  status : BeepGenerator.BeepState
  /-- `_tmr`. -/
  tmr : OsTimer
  /-- `_shots`. -/
  shots : UInt8
  deriving DecidableEq, Repr

namespace BeepGenerator

/-- The value of a mode: the number of shots. -/
def ShotMode.val : ShotMode → UInt8
  | .oneShot => 1
  | .dualShot => 2
  | .quadShot => 4

/-- The value of a time, in milliseconds. -/
def ShotTime.val : ShotTime → ℕ
  | .shortTime => 200
  | .longTime => 1000

variable (me : BeepGenerator)

/-- `beepTimer`, the callback of the timer. -/
def beepTimer : BeepGenerator :=
  match me.status with
  | .stopped => { me with tmr := me.tmr.svcTimerStop }
  | .beep => { me with buzzer := me.buzzer.periodUs 0, status := .silence }
  | .silence =>
    let me := { me with shots := me.shots - 1 }
    if me.shots = 0 then
      match me.rep with
      | .noRepeat => { me with tmr := me.tmr.svcTimerStop, status := .stopped }
      | .repeatForever =>
        { me with
          tmr := me.tmr.svcTimerStop.svcTimerStart (9 * ShotTime.shortTime.val)
          status := .waitCycle }
    else me
  | .waitCycle =>
    { me with
      shots := me.mode.val
      status := .beep
      buzzer := me.buzzer.periodUs 125
      tmr := me.tmr.svcTimerStart me.time.val }

/-- The constructor, on memory that holds anything: it leaves the order and the shots as they
are. -/
def construct (buzzer : PwmOut) : BeepGenerator :=
  { me with
    buzzer := (buzzer.periodUs 250).pulsewidthUs 0
    status := .stopped
    tmr := { me.tmr with running := false } }

/-- `beepStart`. -/
def beepStart (mode : ShotMode) (time : ShotTime) (rep : ShotRepeat) : BeepGenerator where
  buzzer := me.buzzer.periodUs 125
  mode := mode
  time := time
  rep := rep
  status := .beep
  tmr := me.tmr.svcTimerStop.svcTimerStart time.val
  shots := mode.val

/-- `beepStop`. -/
def beepStop : BeepGenerator :=
  { me with
    tmr := me.tmr.svcTimerStop
    buzzer := me.buzzer.periodUs 0
    status := .stopped
    shots := 0 }

/-- The generator, driven by its timer. -/
def driven : Driven BeepGenerator where
  tmr := tmr
  setTmr me pt := { me with tmr := pt }
  callback := beepTimer
  tmr_setTmr _ _ := rfl
  setTmr_tmr _ := rfl
  setTmr_setTmr _ _ _ := rfl

/-! ### What a callback keeps -/

variable {me}

@[simp] theorem beepTimer_mode : me.beepTimer.mode = me.mode := by
  unfold beepTimer
  cases me.status with
  | silence =>
    simp only
    split_ifs
    · cases me.rep <;> rfl
    · rfl
  | _ => rfl

@[simp] theorem beepTimer_time : me.beepTimer.time = me.time := by
  unfold beepTimer
  cases me.status with
  | silence =>
    simp only
    split_ifs
    · cases me.rep <;> rfl
    · rfl
  | _ => rfl

@[simp] theorem beepTimer_rep : me.beepTimer.rep = me.rep := by
  unfold beepTimer
  cases me.status with
  | silence =>
    simp only
    split_ifs
    · cases me.rep <;> rfl
    · rfl
  | _ => rfl

/-- A pattern that is repeated does not end by itself. -/
theorem beepTimer_status_ne (hrep : me.rep = .repeatForever) (hstatus : me.status ≠ .stopped) :
    me.beepTimer.status ≠ .stopped := by
  unfold beepTimer
  cases hst : me.status with
  | stopped => exact absurd hst hstatus
  | beep => simp
  | silence =>
    simp only [hrep]
    split_ifs
    · simp
    · simp
  | waitCycle => simp

end BeepGenerator

end UavTelemetry
