import UavTelemetry.Data.Phases
import UavTelemetry.LTS.Basic
import UavTelemetry.Rtx.Timer
import UavTelemetry.Tasks.SysManager

/-!
# The LED flasher

`LedFlasher` flashes a LED in patterns of flashes, pauses and waits.  Every callback of its timer
restarts the timer with the time of the next phase, so it never relies on the periodic reload.

## Main definitions

* `LedFlasher` : the flasher; `LedFlasher.construct` is its constructor.
* `LedFlasher.ledTimer` : the callback of its timer.
* `LedFlasher.ledStart`, `LedFlasher.ledStop` : the orders.
* `LedFlasher.machine` : the runs of the flasher, tick by tick.
* `LedFlasher.Pattern` : what an order for a flashing mode demands of the ticks behind it.
* `LedFlasher.Flashing` : the invariant of a flashing mode.

## Main results

* `LedFlasher.pattern_of_reachable` : the LED is lit exactly in a flash, and every order is
  followed for ever, whatever came before it.
-/

namespace UavTelemetry

open Rtx

/-- `LedFlasher::ShotStatusEnum`. -/
inductive LedFlasher.ShotStatus
  | stopped
  | statFlash
  | statOff
  | statWait
  deriving DecidableEq, Repr

/-- `LedFlasher::ShotTimeEnum`. -/
inductive LedFlasher.ShotTime
  | timeDisabled
  | timeFast
  | timeSlow
  | timeWait
  deriving DecidableEq, Repr

/-- The LED flasher. -/
structure LedFlasher where
  /-- The output `_led`. -/
  led : Bool
  /-- `_mode`. -/
  mode : LedFlasher.ShotMode
  /-- `_on_time`. -/
  onTime : LedFlasher.ShotTime
  /-- `_off_time`. -/
  offTime : LedFlasher.ShotTime
  /-- `_wait_time`. -/
  waitTime : LedFlasher.ShotTime
  /-- `_status`. -/
  status : LedFlasher.ShotStatus
  /-- `_tmr`. -/
  tmr : OsTimer
  /-- `_shots`. -/
  shots : UInt8
  deriving DecidableEq, Repr

namespace LedFlasher

/-- The value of a time, in milliseconds. -/
def ShotTime.val : ShotTime → ℕ
  | .timeDisabled => 0
  | .timeFast => 500
  | .timeSlow => 1000
  | .timeWait => 1500

variable (me : LedFlasher)

/-- `ledTimer`, the callback of the timer. -/
def ledTimer : LedFlasher :=
  match me.status with
  | .stopped => me
  | .statFlash =>
    { me with status := .statOff, led := false, tmr := me.tmr.svcTimerStart me.offTime.val }
  | .statOff =>
    if me.waitTime = .timeDisabled then
      { me with status := .statFlash, led := true, tmr := me.tmr.svcTimerStart me.onTime.val }
    else if me.mode = .singleFastFlashing then
      { me with status := .statWait, tmr := me.tmr.svcTimerStart me.waitTime.val }
    else if me.shots = 0 then
      { me with
        shots := me.shots + 1
        status := .statFlash
        led := true
        tmr := me.tmr.svcTimerStart me.onTime.val }
    else
      { me with shots := 0, status := .statWait, tmr := me.tmr.svcTimerStart me.waitTime.val }
  | .statWait =>
    { me with status := .statFlash, led := true, tmr := me.tmr.svcTimerStart me.onTime.val }

/-- The constructor, on memory that holds anything: it leaves the mode, the times and the shots as
they are. -/
def construct : LedFlasher :=
  { me with led := false, status := .stopped, tmr := { me.tmr with running := false } }

/-- `ledStart`. -/
def ledStart (mode : ShotMode) : LedFlasher :=
  let me := { me with tmr := me.tmr.svcTimerStop, mode := mode }
  match mode with
  | .onForever => { me with status := .statFlash, led := true }
  | .slowFlashing =>
    { me with
      status := .statFlash
      led := true
      onTime := .timeSlow
      offTime := .timeSlow
      waitTime := .timeDisabled
      tmr := me.tmr.svcTimerStart ShotTime.timeSlow.val }
  | .singleFastFlashing | .dualFastFlashing =>
    { me with
      status := .statFlash
      led := true
      onTime := .timeFast
      offTime := .timeFast
      waitTime := .timeWait
      shots := 0
      tmr := me.tmr.svcTimerStart ShotTime.timeFast.val }
  | .continuousFastFlashing =>
    { me with
      status := .statFlash
      led := true
      onTime := .timeFast
      offTime := .timeFast
      waitTime := .timeDisabled
      tmr := me.tmr.svcTimerStart ShotTime.timeFast.val }

/-- `ledStop`. -/
def ledStop : LedFlasher :=
  { me with tmr := me.tmr.svcTimerStop, status := .stopped, led := false }

/-- The flasher, driven by its timer. -/
def driven : Driven LedFlasher where
  tmr := tmr
  setTmr me pt := { me with tmr := pt }
  callback := ledTimer
  tmr_setTmr _ _ := rfl
  setTmr_tmr _ := rfl
  setTmr_setTmr _ _ _ := rfl

/-- What happens to the flasher. -/
inductive Label
  | ledStart (mode : ShotMode)
  | ledStop
  /-- A tick of the system, with the callback if the timer expires. -/
  | tick

/-- An order or a tick. -/
def step (me : LedFlasher) : Label → Option LedFlasher
  | .ledStart mode => some (me.ledStart mode)
  | .ledStop => some me.ledStop
  | .tick => some (driven.tick me)

/-- The runs of the flasher. -/
def machine : Machine LedFlasher Label := ⟨step⟩

/-- The states in the ticks that follow. -/
def statuses (n : ℕ) : ShotStatus := (driven.tick^[n] me).status

/-- How many ticks a phase should last. -/
def phaseTime : ShotStatus → ℕ
  | .stopped => 0
  | .statFlash => me.onTime.val
  | .statOff => me.offTime.val
  | .statWait => me.waitTime.val

/-- The timer is stopped, and no tick changes anything. -/
structure Rests : Prop where
  stopped : me.tmr.running = false
  fixed : ∀ n, driven.tick^[n] me = me

/-- There are `k` flashes before the first wait and between two waits: at the beginning of every
wait there have been `k` flashes for it and for each wait before. -/
def Flashes (f : ℕ → ShotStatus) (k : ℕ) : Prop :=
  ∀ n, Begins f n → f n = .statWait →
    phases f .statFlash n = k * (phases f .statWait n + 1)

/-- The times of a flash, of a pause and of a wait in the flashing modes. -/
def times : ShotMode → ShotTime × ShotTime × ShotTime
  | .onForever => (.timeDisabled, .timeDisabled, .timeDisabled)
  | .slowFlashing => (.timeSlow, .timeSlow, .timeDisabled)
  | .singleFastFlashing | .dualFastFlashing => (.timeFast, .timeFast, .timeWait)
  | .continuousFastFlashing => (.timeFast, .timeFast, .timeDisabled)

/-- A wait comes again and again. -/
def Recurs (f : ℕ → ShotStatus) : Prop := ∀ n, ∃ m, n ≤ m ∧ f m = .statWait

/-- The pattern of a flashing mode, from the order on. -/
structure Pattern (mode : ShotMode) : Prop where
  /-- The first flash begins. -/
  status : me.status = .statFlash
  /-- The times are those of the mode. -/
  times : (me.onTime, me.offTime, me.waitTime) = times mode
  /-- Every phase has its length. -/
  keepTime : ∀ N, KeepTime me.statuses me.phaseTime N
  /-- There is a wait only if it has a time. -/
  waits : ∀ n, me.statuses n = .statWait → me.waitTime ≠ .timeDisabled
  /-- One flash between two waits, which come for ever. -/
  single : mode = .singleFastFlashing → Flashes me.statuses 1 ∧ Recurs me.statuses
  /-- Two flashes between two waits, which come for ever. -/
  dual : mode = .dualFastFlashing → Flashes me.statuses 2 ∧ Recurs me.statuses

variable {me} {s₀ : LedFlasher} {mode : ShotMode}

/-! ### Callbacks -/

theorem ledTimer_of_flash (h : me.status = .statFlash) : me.ledTimer =
    { me with status := .statOff, led := false, tmr := me.tmr.svcTimerStart me.offTime.val } := by
  simp [ledTimer, h]

theorem ledTimer_of_wait (h : me.status = .statWait) : me.ledTimer =
    { me with status := .statFlash, led := true, tmr := me.tmr.svcTimerStart me.onTime.val } := by
  simp [ledTimer, h]

theorem ledTimer_of_disabled (h : me.status = .statOff) (hwait : me.waitTime = .timeDisabled) :
    me.ledTimer =
      { me with status := .statFlash, led := true, tmr := me.tmr.svcTimerStart me.onTime.val } := by
  simp [ledTimer, h, hwait]

theorem ledTimer_of_single (h : me.status = .statOff) (hwait : me.waitTime ≠ .timeDisabled)
    (hmode : me.mode = .singleFastFlashing) : me.ledTimer =
      { me with status := .statWait, tmr := me.tmr.svcTimerStart me.waitTime.val } := by
  simp [ledTimer, h, hwait, hmode]

/-- The first of two flashes is over. -/
theorem ledTimer_of_first (h : me.status = .statOff) (hwait : me.waitTime ≠ .timeDisabled)
    (hmode : me.mode ≠ .singleFastFlashing) (hshots : me.shots = 0) : me.ledTimer =
      { me with
        shots := 1
        status := .statFlash
        led := true
        tmr := me.tmr.svcTimerStart me.onTime.val } := by
  simp [ledTimer, h, hwait, hmode, hshots]

/-- The second of two flashes is over. -/
theorem ledTimer_of_second (h : me.status = .statOff) (hwait : me.waitTime ≠ .timeDisabled)
    (hmode : me.mode ≠ .singleFastFlashing) (hshots : me.shots ≠ 0) : me.ledTimer =
      { me with
        shots := 0, status := .statWait, tmr := me.tmr.svcTimerStart me.waitTime.val } := by
  simp [ledTimer, h, hwait, hmode, hshots]

/-! ### The invariant of a flashing mode -/

/-- The flasher follows the order behind which it was in state `s₀`. -/
structure Flashing (s₀ me : LedFlasher) : Prop where
  mode_eq : me.mode = s₀.mode
  onTime_eq : me.onTime = s₀.onTime
  offTime_eq : me.offTime = s₀.offTime
  waitTime_eq : me.waitTime = s₀.waitTime
  /-- A flash has a time. -/
  onTime_ne : s₀.onTime ≠ .timeDisabled
  /-- A pause has a time. -/
  offTime_ne : s₀.offTime ≠ .timeDisabled
  /-- The flasher is not stopped. -/
  status_ne : me.status ≠ .stopped
  /-- It waits only if a wait has a time. -/
  waitTime_ne : me.status = .statWait → s₀.waitTime ≠ .timeDisabled
  /-- Its timer runs. -/
  running : me.tmr.running = true
  /-- Something is left of the phase. -/
  pos : 0 < me.tmr.tcnt
  /-- The timer is inserted again with a count. -/
  again : 0 < me.tmr.icnt

theorem ShotTime.val_bounds {t : ShotTime} (h : t ≠ .timeDisabled) : 0 < t.val ∧ t.val < 0xFFFF := by
  revert h
  cases t <;> decide

/-- A callback that goes to state `st` and starts the timer for it. -/
theorem Flashing.goes {me' : LedFlasher} {t : ShotTime} (h : Flashing s₀ me)
    (ht : t ≠ .timeDisabled) (htmr : me'.tmr = me.tmr.svcTimerStart t.val)
    (htime : s₀.phaseTime me'.status = t.val) (hstatus : me'.status ≠ .stopped)
    (hwait : me'.status = .statWait → s₀.waitTime ≠ .timeDisabled) (hmode : me'.mode = me.mode)
    (hon : me'.onTime = me.onTime) (hoff : me'.offTime = me.offTime)
    (hwaitTime : me'.waitTime = me.waitTime) :
    Flashing s₀ me' ∧ me'.tmr.tcnt = s₀.phaseTime me'.status := by
  obtain ⟨hpos, hlt⟩ := ShotTime.val_bounds ht
  rw [OsTimer.svcTimerStart_of_running h.running hpos hlt] at htmr
  refine ⟨⟨hmode.trans h.mode_eq, hon.trans h.onTime_eq, hoff.trans h.offTime_eq,
    hwaitTime.trans h.waitTime_eq, h.onTime_ne, h.offTime_ne, hstatus, hwait, ?_, ?_, ?_⟩, ?_⟩
  · rw [htmr]
    exact h.running
  · rw [htmr]
    exact hpos
  · rw [htmr]
    exact h.again
  · rw [htmr, htime]

/-- **A callback** ends the phase and starts the timer for the next. -/
theorem Flashing.ledTimer (h : Flashing s₀ me) :
    Flashing s₀ me.ledTimer ∧ me.ledTimer.tmr.tcnt = s₀.phaseTime me.ledTimer.status ∧
      me.ledTimer.status ≠ me.status := by
  have hon : me.onTime ≠ .timeDisabled := h.onTime_eq ▸ h.onTime_ne
  have hoff : me.offTime ≠ .timeDisabled := h.offTime_eq ▸ h.offTime_ne
  have honTime : s₀.phaseTime .statFlash = me.onTime.val := by rw [h.onTime_eq]; rfl
  have hoffTime : s₀.phaseTime .statOff = me.offTime.val := by rw [h.offTime_eq]; rfl
  have hwaitTime : s₀.phaseTime .statWait = me.waitTime.val := by rw [h.waitTime_eq]; rfl
  cases hst : me.status with
  | stopped => exact absurd hst h.status_ne
  | statFlash =>
    rw [ledTimer_of_flash hst, ← and_assoc]
    exact ⟨h.goes hoff rfl hoffTime (by simp) (by simp) rfl rfl rfl rfl, by simp⟩
  | statWait =>
    rw [ledTimer_of_wait hst, ← and_assoc]
    exact ⟨h.goes hon rfl honTime (by simp) (by simp) rfl rfl rfl rfl, by simp⟩
  | statOff =>
    rw [← and_assoc]
    by_cases hwait : me.waitTime = .timeDisabled
    · rw [ledTimer_of_disabled hst hwait]
      exact ⟨h.goes hon rfl honTime (by simp) (by simp) rfl rfl rfl rfl, by simp⟩
    · have hwait' : s₀.waitTime ≠ .timeDisabled := h.waitTime_eq ▸ hwait
      by_cases hmode : me.mode = .singleFastFlashing
      · rw [ledTimer_of_single hst hwait hmode]
        exact ⟨h.goes hwait rfl hwaitTime (by simp) (fun _ => hwait') rfl rfl rfl rfl, by simp⟩
      · by_cases hshots : me.shots = 0
        · rw [ledTimer_of_first hst hwait hmode hshots]
          exact ⟨h.goes hon rfl honTime (by simp) (by simp) rfl rfl rfl rfl, by simp⟩
        · rw [ledTimer_of_second hst hwait hmode hshots]
          exact ⟨h.goes hwait rfl hwaitTime (by simp) (fun _ => hwait') rfl rfl rfl rfl, by simp⟩

/-- **A tick**: the timer counts down, or its callback runs. -/
theorem Flashing.tick (h : Flashing s₀ me) :
    (1 < me.tmr.tcnt ∧
        driven.tick me = { me with tmr := { me.tmr with tcnt := me.tmr.tcnt - 1 } }) ∨
      (me.tmr.tcnt = 1 ∧
        driven.tick me = { me with tmr := { me.tmr with tcnt := me.tmr.icnt } }.ledTimer) := by
  rcases Nat.lt_or_ge 1 me.tmr.tcnt with hmore | hlast
  · exact Or.inl ⟨hmore, Driven.tick_of_lt (D := driven) h.running hmore⟩
  · have hone : me.tmr.tcnt = 1 := Nat.le_antisymm hlast h.pos
    exact Or.inr ⟨hone, Driven.tick_of_one (D := driven) h.running hone⟩

/-- Another count of the timer. -/
theorem Flashing.setTcnt (h : Flashing s₀ me) {tcnt : ℕ} (hpos : 0 < tcnt) :
    Flashing s₀ { me with tmr := { me.tmr with tcnt := tcnt } } :=
  ⟨h.mode_eq, h.onTime_eq, h.offTime_eq, h.waitTime_eq, h.onTime_ne, h.offTime_ne, h.status_ne,
    h.waitTime_ne, h.running, hpos, h.again⟩

theorem Flashing.next (h : Flashing s₀ me) : Flashing s₀ (driven.tick me) := by
  rcases h.tick with ⟨hmore, heq⟩ | ⟨-, heq⟩
  · rw [heq]
    exact h.setTcnt (by omega)
  · rw [heq]
    exact (h.setTcnt h.again).ledTimer.1

theorem Flashing.iterate (h : Flashing s₀ me) (n : ℕ) : Flashing s₀ (driven.tick^[n] me) := by
  induction n with
  | zero => exact h
  | succ n ih =>
    rw [Function.iterate_succ_apply']
    exact ih.next

/-- The count of the timer is a countdown of the phases. -/
theorem Flashing.countdown (h : Flashing s₀ s₀) (hstart : s₀.tmr.tcnt = s₀.phaseTime s₀.status) :
    Countdown s₀.statuses s₀.phaseTime (fun n => (driven.tick^[n] s₀).tmr.tcnt) := by
  refine ⟨hstart, fun n => (h.iterate n).pos, fun n hn => ?_, fun n hn => ?_⟩
  · simp only [statuses, Function.iterate_succ_apply']
    rcases (h.iterate n).tick with ⟨-, heq⟩ | ⟨hone, -⟩
    · rw [heq]
      exact ⟨rfl, Nat.sub_add_cancel (h.iterate n).pos⟩
    · omega
  · simp only [statuses, Function.iterate_succ_apply']
    rcases (h.iterate n).tick with ⟨hmore, -⟩ | ⟨-, heq⟩
    · omega
    · obtain ⟨-, hcnt, hne⟩ := ((h.iterate n).setTcnt (h.iterate n).again).ledTimer
      rw [heq]
      exact ⟨hne, hcnt⟩

/-! ### Counting flashes -/

/-- The flashes of a cycle. -/
def perWait (mode : ShotMode) : ℕ := if mode = .singleFastFlashing then 1 else 2

/-- The flashes since the last wait. -/
def pending (me : LedFlasher) : ℕ :=
  if me.status = .statWait then 0
  else if me.mode = .singleFastFlashing then 1 else me.shots.toNat + 1

/-- The shots are counted: none of two flashes is over, or one. -/
structure Counted (me : LedFlasher) : Prop where
  /-- The mode has waits. -/
  waitTime : me.waitTime ≠ .timeDisabled
  /-- With two flashes, one of them may be over, but not in a wait. -/
  shots : me.mode ≠ .singleFastFlashing →
    me.shots = 0 ∨ me.shots = 1 ∧ me.status ≠ .statWait
  /-- The flasher is not stopped. -/
  status : me.status ≠ .stopped

/-- **A callback** begins a flash more or goes on to the wait behind the last flash of the cycle. -/
theorem Counted.ledTimer (h : Counted me) :
    Counted me.ledTimer ∧
      me.ledTimer.pending + perWait me.mode * (if me.ledTimer.status = .statWait then 1 else 0) =
        me.pending + if me.ledTimer.status = .statFlash then 1 else 0 := by
  cases hst : me.status with
  | stopped => exact absurd hst h.status
  | statFlash =>
    rw [ledTimer_of_flash hst]
    refine ⟨⟨h.waitTime, fun hmode => ?_, by simp⟩, by simp [pending, hst]⟩
    exact (h.shots hmode).imp id fun hone => ⟨hone.1, by simp⟩
  | statWait =>
    rw [ledTimer_of_wait hst]
    have hzero : me.mode ≠ .singleFastFlashing → me.shots = 0 := fun hmode =>
      (h.shots hmode).resolve_right fun hone => hone.2 hst
    refine ⟨⟨h.waitTime, fun hmode => Or.inl (hzero hmode), by simp⟩, ?_⟩
    by_cases hmode : me.mode = .singleFastFlashing
    · simp [pending, hst, hmode]
    · simp [pending, hst, hmode, hzero hmode]
  | statOff =>
    by_cases hmode : me.mode = .singleFastFlashing
    · rw [ledTimer_of_single hst h.waitTime hmode]
      exact ⟨⟨h.waitTime, fun hne => absurd hmode hne, by simp⟩,
        by simp [pending, perWait, hst, hmode]⟩
    · rcases h.shots hmode with hzero | ⟨hone, -⟩
      · rw [ledTimer_of_first hst h.waitTime hmode hzero]
        exact ⟨⟨h.waitTime, fun _ => Or.inr ⟨rfl, by simp⟩, by simp⟩,
          by simp [pending, hst, hmode, hzero]⟩
      · rw [ledTimer_of_second hst h.waitTime hmode (by rw [hone]; decide)]
        exact ⟨⟨h.waitTime, fun _ => Or.inl rfl, by simp⟩,
          by simp [pending, perWait, hst, hmode, hone]⟩

/-- **A tick** changes nothing that is counted, or it begins a phase that is. -/
theorem Counted.tick (hc : Counted me) (h : Flashing s₀ me) :
    Counted (driven.tick me) ∧
      ((driven.tick me).status = me.status ∧ (driven.tick me).pending = me.pending ∨
        (driven.tick me).status ≠ me.status ∧
          (driven.tick me).pending +
              perWait me.mode * (if (driven.tick me).status = .statWait then 1 else 0) =
            me.pending + if (driven.tick me).status = .statFlash then 1 else 0) := by
  rcases h.tick with ⟨-, heq⟩ | ⟨-, heq⟩
  · rw [heq]
    exact ⟨⟨hc.waitTime, hc.shots, hc.status⟩, Or.inl ⟨rfl, rfl⟩⟩
  · obtain ⟨-, -, hne⟩ := (h.setTcnt h.again).ledTimer
    have hc' : Counted { me with tmr := { me.tmr with tcnt := me.tmr.icnt } } :=
      ⟨hc.waitTime, hc.shots, hc.status⟩
    obtain ⟨hnext, hbalance⟩ := hc'.ledTimer
    rw [heq]
    exact ⟨hnext, Or.inr ⟨hne, hbalance⟩⟩

/-- The flashes up to a tick are those of the cycles behind and the pending ones. -/
theorem Flashing.flashed (h : Flashing s₀ s₀) (hcounted : Counted s₀)
    (hstatus : s₀.status = .statFlash) (hpending : s₀.pending = 1) (n : ℕ) :
    Counted (driven.tick^[n] s₀) ∧ phases s₀.statuses .statFlash (n + 1) =
      perWait s₀.mode * phases s₀.statuses .statWait (n + 1) + (driven.tick^[n] s₀).pending := by
  induction n with
  | zero =>
    refine ⟨hcounted, ?_⟩
    simp [phases_succ, statuses, hstatus, hpending]
  | succ n ih =>
    obtain ⟨hc, hcount⟩ := ih
    obtain ⟨hnext, htick⟩ := hc.tick (h.iterate n)
    rw [(h.iterate n).mode_eq, ← Function.iterate_succ_apply' driven.tick] at htick
    rw [← Function.iterate_succ_apply' driven.tick] at hnext
    refine ⟨hnext, ?_⟩
    rcases htick with ⟨hsame, hpending⟩ | ⟨hne, hbalance⟩
    -- within a phase nothing is counted
    · have hbegins : ¬ Begins s₀.statuses (n + 1) := by
        rw [begins_succ]
        exact fun hne => hne hsame.symm
      rw [phases_succ_of_not_begins hbegins, phases_succ_of_not_begins hbegins, hcount, hpending]
    · have hbegins : Begins s₀.statuses (n + 1) := by
        rw [begins_succ]
        exact fun hsame => hne hsame.symm
      rw [phases_succ_of_begins hbegins, phases_succ_of_begins hbegins, hcount, Nat.mul_add,
        Nat.add_assoc, Nat.add_assoc]
      exact congrArg (perWait s₀.mode * phases s₀.statuses .statWait (n + 1) + ·)
        (hbalance.symm.trans (Nat.add_comm _ _))

/-- **Flashes between waits.** -/
theorem Flashing.flashes (h : Flashing s₀ s₀) (hcounted : Counted s₀)
    (hstatus : s₀.status = .statFlash) (hpending : s₀.pending = 1) :
    Flashes s₀.statuses (perWait s₀.mode) := by
  intro n hbegins hwait
  obtain ⟨-, hcount⟩ := h.flashed hcounted hstatus hpending n
  have hnone : (driven.tick^[n] s₀).pending = 0 := if_pos hwait
  rw [phases_succ_of_begins hbegins, phases_succ_of_begins hbegins, hwait, hnone] at hcount
  simpa using hcount

/-! ### Waits -/

/-- The number of callbacks until a wait. -/
def untilWait (me : LedFlasher) : ℕ :=
  match me.status with
  | .stopped | .statWait => 0
  | .statOff => if me.mode = .singleFastFlashing ∨ me.shots ≠ 0 then 1 else 3
  | .statFlash => if me.mode = .singleFastFlashing ∨ me.shots ≠ 0 then 2 else 4

/-- **A callback** brings the wait nearer. -/
theorem Counted.untilWait_ledTimer (h : Counted me) (hne : me.status ≠ .statWait) :
    me.ledTimer.untilWait < me.untilWait := by
  cases hst : me.status with
  | stopped => exact absurd hst h.status
  | statWait => exact absurd hst hne
  | statFlash =>
    rw [ledTimer_of_flash hst]
    simp only [untilWait, hst]
    split_ifs <;> omega
  | statOff =>
    by_cases hmode : me.mode = .singleFastFlashing
    · rw [ledTimer_of_single hst h.waitTime hmode]
      simp [untilWait, hst, hmode]
    · by_cases hshots : me.shots = 0
      · rw [ledTimer_of_first hst h.waitTime hmode hshots]
        simp [untilWait, hst, hmode, hshots]
      · rw [ledTimer_of_second hst h.waitTime hmode hshots]
        simp [untilWait, hst, hshots]

/-- The callback comes when the timer has counted down. -/
theorem Flashing.iterate_tcnt (h : Flashing s₀ me) :
    driven.tick^[me.tmr.tcnt] me = { me with tmr := { me.tmr with tcnt := me.tmr.icnt } }.ledTimer :=
  Driven.iterate_tick_tcnt (D := driven) h.running h.pos

/-- A flasher that counts shots comes to a wait. -/
theorem Flashing.exists_wait (h : Flashing s₀ me) (hc : Counted me) :
    ∃ n, (driven.tick^[n] me).status = .statWait := by
  induction hleft : me.untilWait using Nat.strong_induction_on generalizing me with
  | _ left ih =>
    by_cases hwait : me.status = .statWait
    · exact ⟨0, hwait⟩
    · have hc' : Counted { me with tmr := { me.tmr with tcnt := me.tmr.icnt } } :=
        ⟨hc.waitTime, hc.shots, hc.status⟩
      obtain ⟨hcounted, -⟩ := hc'.ledTimer
      have hnearer := hc'.untilWait_ledTimer hwait
      obtain ⟨n, hn⟩ := ih _ (hleft ▸ hnearer) (h.setTcnt h.again).ledTimer.1 hcounted rfl
      refine ⟨n + me.tmr.tcnt, ?_⟩
      rw [Function.iterate_add_apply, h.iterate_tcnt]
      exact hn

/-- **Waits come for ever.** -/
theorem Flashing.recurs (h : Flashing s₀ s₀) (hcounted : Counted s₀)
    (hstatus : s₀.status = .statFlash) (hpending : s₀.pending = 1) : Recurs s₀.statuses := by
  intro n
  obtain ⟨hc, -⟩ := h.flashed hcounted hstatus hpending n
  obtain ⟨m, hm⟩ := (h.iterate n).exists_wait hc
  refine ⟨m + n, Nat.le_add_left n m, ?_⟩
  rw [statuses, Function.iterate_add_apply]
  exact hm

/-! ### Orders -/

/-- An order starts a stopped timer with the time of the first flash. -/
theorem flashing_start (pt : OsTimer) (t : ShotTime) (hstatus : me.status = .statFlash)
    (ht : t ≠ .timeDisabled) (htmr : me.tmr = pt.svcTimerStop.svcTimerStart t.val)
    (hon : me.onTime = t) (hoff : me.offTime = t) :
    Flashing me me ∧ me.tmr.tcnt = me.phaseTime me.status := by
  obtain ⟨hpos, hlt⟩ := ShotTime.val_bounds ht
  rw [OsTimer.svcTimerStart_of_stopped rfl hpos hlt] at htmr
  refine ⟨⟨rfl, rfl, rfl, rfl, by rwa [hon], by rwa [hoff], by simp [hstatus], by simp [hstatus],
    ?_, ?_, ?_⟩, ?_⟩
  · rw [htmr]
  · rw [htmr]
    exact hpos
  · rw [htmr]
    exact hpos
  · rw [htmr, hstatus, phaseTime, hon]

/-- An order for a flashing mode starts its pattern, whatever was going on before. -/
theorem flashing_ledStart (me : LedFlasher) (hmode : mode ≠ .onForever) :
    Flashing (me.ledStart mode) (me.ledStart mode) ∧
      (me.ledStart mode).tmr.tcnt = (me.ledStart mode).phaseTime (me.ledStart mode).status := by
  cases mode with
  | onForever => exact absurd rfl hmode
  | slowFlashing => exact flashing_start me.tmr .timeSlow rfl ShotTime.noConfusion rfl rfl rfl
  | singleFastFlashing =>
    exact flashing_start me.tmr .timeFast rfl ShotTime.noConfusion rfl rfl rfl
  | dualFastFlashing =>
    exact flashing_start me.tmr .timeFast rfl ShotTime.noConfusion rfl rfl rfl
  | continuousFastFlashing =>
    exact flashing_start me.tmr .timeFast rfl ShotTime.noConfusion rfl rfl rfl

/-- **The pattern of a flashing mode.** -/
theorem pattern_ledStart (me : LedFlasher) (hmode : mode ≠ .onForever) :
    Pattern (me.ledStart mode) mode := by
  obtain ⟨hflashing, hstart⟩ := flashing_ledStart me hmode
  refine ⟨?_, ?_, (hflashing.countdown hstart).keepTime,
    fun n => (hflashing.iterate n).waitTime_ne, ?_, ?_⟩
  · cases mode <;> rfl
  · cases mode with
    | onForever => exact absurd rfl hmode
    | slowFlashing | singleFastFlashing | dualFastFlashing | continuousFastFlashing => rfl
  · rintro rfl
    have hcounted : Counted (me.ledStart .singleFastFlashing) :=
      ⟨ShotTime.noConfusion, fun h => absurd rfl h, ShotStatus.noConfusion⟩
    exact ⟨hflashing.flashes hcounted rfl rfl, hflashing.recurs hcounted rfl rfl⟩
  · rintro rfl
    have hcounted : Counted (me.ledStart .dualFastFlashing) :=
      ⟨ShotTime.noConfusion, fun _ => Or.inl rfl, ShotStatus.noConfusion⟩
    exact ⟨hflashing.flashes hcounted rfl rfl, hflashing.recurs hcounted rfl rfl⟩

/-- A flasher with a stopped timer rests. -/
theorem rests_of_stopped (h : me.tmr.running = false) : Rests me :=
  ⟨h, Driven.iterate_tick_of_stopped (D := driven) h⟩

/-! ### Runs -/

/-- The LED is lit exactly in a flash. -/
def Lit (me : LedFlasher) : Prop := me.led = true ↔ me.status = .statFlash

theorem Lit.ledTimer (h : Lit me) : Lit me.ledTimer := by
  unfold Lit LedFlasher.ledTimer
  cases hst : me.status with
  | stopped => exact h
  | statFlash => simp
  | statWait => simp
  | statOff =>
    have hled : me.led = false := by
      rw [Lit, hst] at h
      simpa using h
    simp only
    split_ifs <;> simp [hled]

theorem Lit.ledStart (me : LedFlasher) (mode : ShotMode) : Lit (me.ledStart mode) := by
  cases mode <;> simp [Lit, LedFlasher.ledStart]

/-- A step keeps the LED lit in flashes only. -/
theorem Lit.step {l : Label} {me' : LedFlasher} (h : Lit me) (hst : machine.step me l = some me') :
    Lit me' := by
  cases l with
  | ledStart mode =>
    cases hst
    exact Lit.ledStart me mode
  | ledStop =>
    cases hst
    simp [Lit, LedFlasher.ledStop]
  | tick =>
    cases hst
    have hset : Lit (driven.setTmr me (driven.tmr me).sysTimerTick.2) := h
    rw [Driven.tick]
    split_ifs
    · exact hset.ledTimer
    · exact hset

/-- The ticks behind a reachable state. -/
theorem reachable_ticks {me₀ me : LedFlasher} (h : machine.Reachable me₀ me) (n : ℕ) :
    machine.Reachable me₀ (driven.tick^[n] me) := by
  induction n with
  | zero => exact h
  | succ n ih =>
    rw [Function.iterate_succ_apply']
    exact ih.tail (l := .tick) rfl

/-- **The LED follows its orders for ever.**  In every state that a constructed flasher reaches by
orders and ticks, the LED is lit exactly in a flash; behind `ON_FOREVER` it is lit and behind
`ledStop` it is dark, and in both cases the timer is stopped and nothing changes; and an order for a
flashing mode begins a flash with the times of the mode, every phase lasts as long as its time,
there are waits only if they have a time, and in the modes with waits these come for ever, with one
flash or two between them. -/
theorem pattern_of_reachable {me₀ me : LedFlasher} (h : machine.Reachable me₀.construct me) :
    Lit me ∧
      (Rests (me.ledStart .onForever) ∧ (me.ledStart .onForever).status = .statFlash ∧
        (me.ledStart .onForever).led = true) ∧
      (Rests me.ledStop ∧ me.ledStop.status = .stopped ∧ me.ledStop.led = false) ∧
      ∀ mode, mode ≠ .onForever → Pattern (me.ledStart mode) mode := by
  refine ⟨?_, ⟨rests_of_stopped rfl, rfl, rfl⟩, ⟨rests_of_stopped rfl, rfl, rfl⟩,
    fun mode => pattern_ledStart me⟩
  exact h.invariant (by simp [Lit, construct]) fun _ _ _ hs hst => hs.step hst

/-- A flasher in memory that was filled with zeros. -/
def blank : LedFlasher :=
  ⟨false, .onForever, .timeDisabled, .timeDisabled, .timeDisabled, .stopped, ⟨false, 0, 0⟩, 0⟩

/-- An order for one flash comes in the pause between two. -/
theorem pattern_single_in_dual :
    Pattern ((driven.tick^[600] (blank.construct.ledStart .dualFastFlashing)).ledStart
      .singleFastFlashing) .singleFastFlashing :=
  (pattern_of_reachable (reachable_ticks (⟨[.ledStart .dualFastFlashing], rfl⟩ :
    machine.Reachable blank.construct (blank.construct.ledStart .dualFastFlashing)) 600)).2.2.2
      .singleFastFlashing (by decide)

end LedFlasher

end UavTelemetry
