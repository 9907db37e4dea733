import UavTelemetry.Data.Phases
import UavTelemetry.LTS.Basic
import UavTelemetry.Tasks.BeepGenerator

/-!
# The pattern of a beep order

An order names a number of shots, their time and whether the pattern is repeated.  The beep
generator gives one beep for every order, and no sound:

* `fulfils_iff` : a silence that ends before the last shot is followed by a silence, so there is
  one beep in every cycle, whatever number was ordered.
* `keepTime_iff` : the timer is restarted while it runs when a cycle ends, so it goes on with the
  time of the wait; and the silences of several shots are one long phase.
* `allStates_sounds_iff` : the constructor sets the duty cycle to zero, and changes of the period
  carry it over.

## Main definitions

* `Fulfils` : callbacks give the number of beeps that was ordered.
* `phaseTime` : how long the phases of a pattern should last.
* `machine` : the runs of the generator; `Sounds` : the buzzer sounds exactly in the state `beep`.
-/

namespace UavTelemetry

open Rtx

namespace BeepGenerator

variable {me : BeepGenerator}

/-! ### Callbacks -/

theorem beepTimer_of_beep (h : me.status = .beep) :
    me.beepTimer = { me with buzzer := me.buzzer.periodUs 0, status := .silence } := by
  simp [beepTimer, h]

/-- A silence before the last shot goes on. -/
theorem beepTimer_of_silence (h : me.status = .silence) (hshots : me.shots - 1 ≠ 0) :
    me.beepTimer = { me with shots := me.shots - 1 } := by
  simp [beepTimer, h, hshots]

theorem beepTimer_of_noRepeat (h : me.status = .silence) (hshots : me.shots - 1 = 0)
    (hrep : me.rep = .noRepeat) : me.beepTimer =
      { me with shots := 0, tmr := me.tmr.svcTimerStop, status := .stopped } := by
  simp [beepTimer, h, hshots, hrep]

theorem beepTimer_of_repeatForever (h : me.status = .silence) (hshots : me.shots - 1 = 0)
    (hrep : me.rep = .repeatForever) : me.beepTimer =
      { me with
        shots := 0
        tmr := me.tmr.svcTimerStop.svcTimerStart (9 * ShotTime.shortTime.val)
        status := .waitCycle } := by
  simp [beepTimer, h, hshots, hrep]

theorem beepTimer_of_waitCycle (h : me.status = .waitCycle) : me.beepTimer =
    { me with
      shots := me.mode.val
      status := .beep
      buzzer := me.buzzer.periodUs 125
      tmr := me.tmr.svcTimerStart me.time.val } := by
  simp [beepTimer, h]

theorem beepTimer_of_stopped (h : me.status = .stopped) :
    me.beepTimer = { me with tmr := me.tmr.svcTimerStop } := by
  simp [beepTimer, h]

/-! ### The number of beeps -/

/-- In the callbacks from `a` to `b` the beeps ordered by `mode` are given: the states are beeps
and silences, and there are as many phases with a beep as `mode` says. -/
structure Shots (f : ℕ → BeepState) (a b : ℕ) (mode : ShotMode) : Prop where
  /-- There are callbacks. -/
  lt : a < b
  /-- Beeps alternate with silences. -/
  alternate : ∀ i, a ≤ i → i < b → f i = .beep ∨ f i = .silence
  /-- The number of beeps. -/
  count : phases (fun i => f (a + i)) .beep (b - a) = mode.val.toNat

/-- The states `s` after the callbacks that follow an order fulfil it: the generator gives the
beeps and stops, or gives them again in every cycle, with a wait between the cycles. -/
def Fulfils (mode : ShotMode) (rep : ShotRepeat) (s : ℕ → BeepGenerator) : Prop :=
  match rep with
  | .noRepeat => ∃ b, Shots (fun n => (s n).status) 0 b mode ∧
      ∀ n, b ≤ n → (s n).status = .stopped ∧ (s n).tmr.running = false
  | .repeatForever => ∃ a b : ℕ → ℕ, a 0 = 0 ∧ ∀ k, Shots (fun n => (s n).status) (a k) (b k) mode ∧
      b k < a (k + 1) ∧ ∀ n, b k ≤ n → n < a (k + 1) → (s n).status = .waitCycle

/-- A cycle begins. -/
structure Shooting (me : BeepGenerator) : Prop where
  /-- The state is a beep. -/
  status : me.status = .beep
  /-- The shots are loaded. -/
  shots : me.shots = me.mode.val

theorem shooting_beepStart (mode : ShotMode) (time : ShotTime) (rep : ShotRepeat) :
    Shooting (me.beepStart mode time rep) := ⟨rfl, rfl⟩

theorem ShotMode.val_toNat_pos (mode : ShotMode) : 0 < mode.val.toNat := by
  cases mode <;> decide

theorem iterate_beepTimer_mode (n : ℕ) : (beepTimer^[n] me).mode = me.mode := by
  induction n with
  | zero => rfl
  | succ n ih => rw [Function.iterate_succ_apply', beepTimer_mode, ih]

theorem iterate_beepTimer_rep (n : ℕ) : (beepTimer^[n] me).rep = me.rep := by
  induction n with
  | zero => rfl
  | succ n ih => rw [Function.iterate_succ_apply', beepTimer_rep, ih]

theorem shots_pred {shots : UInt8} (h : 1 < shots.toNat) :
    (shots - 1).toNat + 1 = shots.toNat ∧ shots - 1 ≠ 0 := by
  have hpred : (shots - 1).toNat + 1 = shots.toNat := by
    rw [UInt8.toNat_sub_of_le _ _ (UInt8.le_iff_toNat_le.2 (by simp; omega))]
    simp
    omega
  refine ⟨hpred, fun h0 => ?_⟩
  rw [h0] at hpred
  simp at hpred
  omega

/-- Behind the beep, the shots are counted down in silence. -/
theorem Shooting.silent (h : Shooting me) {k : ℕ} (hk : k < me.mode.val.toNat) :
    (beepTimer^[k + 1] me).status = .silence ∧
      (beepTimer^[k + 1] me).shots.toNat + k = me.mode.val.toNat := by
  induction k with
  | zero =>
    rw [Function.iterate_one, beepTimer_of_beep h.status]
    exact ⟨rfl, congrArg UInt8.toNat h.shots⟩
  | succ k ih =>
    obtain ⟨hstatus, hshots⟩ := ih (Nat.lt_of_succ_lt hk)
    have hmore : 1 < (beepTimer^[k + 1] me).shots.toNat := by omega
    obtain ⟨hpred, hne⟩ := shots_pred hmore
    rw [Function.iterate_succ_apply', beepTimer_of_silence hstatus hne]
    refine ⟨hstatus, ?_⟩
    show ((beepTimer^[k + 1] me).shots - 1).toNat + (k + 1) = _
    omega

/-- Then the last shot is counted. -/
theorem Shooting.last (h : Shooting me) :
    (beepTimer^[me.mode.val.toNat] me).status = .silence ∧
      (beepTimer^[me.mode.val.toNat] me).shots - 1 = 0 := by
  obtain ⟨k, hk⟩ := Nat.exists_eq_succ_of_ne_zero (Nat.ne_of_gt me.mode.val_toNat_pos)
  obtain ⟨hstatus, hshots⟩ := h.silent (k := k) (by omega)
  rw [hk]
  refine ⟨hstatus, ?_⟩
  have hone : (beepTimer^[k + 1] me).shots = 1 := by
    refine UInt8.toNat_inj.1 ?_
    show (beepTimer^[k + 1] me).shots.toNat = 1
    omega
  show (beepTimer^[k + 1] me).shots - 1 = 0
  rw [hone]
  rfl

/-- A pattern that is not repeated stops, for ever. -/
theorem Shooting.stops (h : Shooting me) (hrep : me.rep = .noRepeat) {n : ℕ}
    (hn : me.mode.val.toNat < n) :
    (beepTimer^[n] me).status = .stopped ∧ (beepTimer^[n] me).tmr.running = false := by
  obtain ⟨k, rfl⟩ := Nat.exists_eq_add_of_lt hn
  induction k with
  | zero =>
    obtain ⟨hstatus, hshots⟩ := h.last
    rw [Nat.add_zero, Function.iterate_succ_apply',
      beepTimer_of_noRepeat hstatus hshots (by rw [iterate_beepTimer_rep, hrep])]
    exact ⟨rfl, rfl⟩
  | succ k ih =>
    obtain ⟨hstatus, hrunning⟩ := ih (by omega)
    rw [← Nat.add_assoc, Function.iterate_succ_apply', beepTimer_of_stopped hstatus]
    exact ⟨hstatus, rfl⟩

/-- A pattern that is repeated waits for the next cycle. -/
theorem Shooting.waits (h : Shooting me) (hrep : me.rep = .repeatForever) :
    (beepTimer^[me.mode.val.toNat + 1] me).status = .waitCycle := by
  obtain ⟨hstatus, hshots⟩ := h.last
  rw [Function.iterate_succ_apply',
    beepTimer_of_repeatForever hstatus hshots (by rw [iterate_beepTimer_rep, hrep])]

/-- The next cycle begins. -/
theorem Shooting.next (h : Shooting me) (hrep : me.rep = .repeatForever) :
    Shooting (beepTimer^[me.mode.val.toNat + 2] me) := by
  rw [Function.iterate_succ_apply', beepTimer_of_waitCycle (h.waits hrep)]
  exact ⟨rfl, rfl⟩

/-- Every cycle begins. -/
theorem Shooting.cycle (h : Shooting me) (hrep : me.rep = .repeatForever) (k : ℕ) :
    Shooting (beepTimer^[k * (me.mode.val.toNat + 2)] me) := by
  induction k with
  | zero =>
    rw [Nat.zero_mul]
    exact h
  | succ k ih =>
    have hnext := ih.next (by rw [iterate_beepTimer_rep, hrep])
    rw [iterate_beepTimer_mode, ← Function.iterate_add_apply] at hnext
    rw [Nat.succ_mul, Nat.add_comm]
    exact hnext

/-- A beep and a silence are one shot. -/
theorem shots_oneShot {f : ℕ → BeepState} {a : ℕ} (h₀ : f a = .beep) (h₁ : f (a + 1) = .silence) :
    Shots f a (a + 2) .oneShot := by
  refine ⟨by omega, fun i hai hib => ?_, ?_⟩
  · have hi : i = a ∨ i = a + 1 := by omega
    rcases hi with rfl | rfl
    · exact Or.inl h₀
    · exact Or.inr h₁
  · rw [Nat.add_sub_cancel_left]
    simp [phases_succ, h₀, h₁, ShotMode.val]

/-- A cycle has one beep, so it does not give several shots. -/
theorem Shooting.not_shots (h : Shooting me) (hmode : me.mode ≠ .oneShot) (b : ℕ) :
    ¬ Shots (fun n => (beepTimer^[n] me).status) 0 b me.mode := by
  rintro ⟨-, halternate, hcount⟩
  have hend : (beepTimer^[me.mode.val.toNat + 1] me).status ≠ .beep ∧
      (beepTimer^[me.mode.val.toNat + 1] me).status ≠ .silence := by
    cases hrep : me.rep with
    | noRepeat =>
      rw [(h.stops hrep (Nat.lt_succ_self _)).1]
      decide
    | repeatForever =>
      rw [h.waits hrep]
      decide
  have hquiet : ∀ i, 0 < i → i < b → (beepTimer^[0 + i] me).status ≠ .beep := by
    intro i hi hib
    rw [Nat.zero_add]
    rcases Nat.lt_or_ge me.mode.val.toNat i with hlate | hearly
    -- the cycle is over before the `i`-th callback
    · rcases halternate (me.mode.val.toNat + 1) (Nat.zero_le _) (by omega) with hbeep | hsilence
      · exact absurd hbeep hend.1
      · exact absurd hsilence hend.2
    · obtain ⟨k, rfl⟩ := Nat.exists_eq_succ_of_ne_zero (Nat.ne_of_gt hi)
      rw [(h.silent (k := k) (by omega)).1]
      decide
  have hle := phases_le_one hquiet
  rw [Nat.sub_zero] at hcount
  rw [hcount] at hle
  revert hle hmode
  cases me.mode <;> decide

/-- An order for one shot is fulfilled. -/
theorem Shooting.fulfils (h : Shooting me) (hmode : me.mode = .oneShot) :
    Fulfils .oneShot me.rep (fun n => beepTimer^[n] me) := by
  cases hrep : me.rep with
  | noRepeat =>
    have hsilent := (h.silent (k := 0) (by rw [hmode]; decide)).1
    refine ⟨2, shots_oneShot (f := fun n => (beepTimer^[n] me).status) h.status hsilent,
      fun n hn => h.stops hrep ?_⟩
    rw [hmode]
    exact hn
  | repeatForever =>
    refine ⟨fun k => k * 3, fun k => k * 3 + 2, rfl, fun k => ?_⟩
    have hmode' : (beepTimer^[k * 3] me).mode = .oneShot := by rw [iterate_beepTimer_mode, hmode]
    have hcycle : Shooting (beepTimer^[k * 3] me) := by
      have hshooting := h.cycle hrep k
      rw [hmode] at hshooting
      exact hshooting
    have hat : ∀ i, beepTimer^[k * 3 + i] me = beepTimer^[i] (beepTimer^[k * 3] me) := by
      intro i
      rw [← Function.iterate_add_apply, Nat.add_comm]
    refine ⟨shots_oneShot (f := fun n => (beepTimer^[n] me).status) hcycle.status ?_,
      (by omega : k * 3 + 2 < (k + 1) * 3), fun n hn hlt => ?_⟩
    · show (beepTimer^[k * 3 + 1] me).status = .silence
      rw [hat 1]
      exact (hcycle.silent (k := 0) (by rw [hmode']; decide)).1
    · have hn' : n = k * 3 + 2 := by
        have hle : k * 3 + 2 ≤ n := hn
        have hlt' : n < (k + 1) * 3 := hlt
        omega
      have hwaits := hcycle.waits (by rw [iterate_beepTimer_rep, hrep])
      rw [hmode'] at hwaits
      show (beepTimer^[n] me).status = .waitCycle
      rw [hn', hat 2]
      exact hwaits

theorem Shooting.not_fulfils (h : Shooting me) (hmode : me.mode ≠ .oneShot) :
    ¬ Fulfils me.mode me.rep (fun n => beepTimer^[n] me) := by
  cases me.rep with
  | noRepeat =>
    rintro ⟨b, hshots, -⟩
    exact h.not_shots hmode b hshots
  | repeatForever =>
    rintro ⟨a, b, ha, hcycles⟩
    have hshots := (hcycles 0).1
    rw [ha] at hshots
    exact h.not_shots hmode (b 0) hshots

/-- **How many beeps an order gives.**  In any state of the generator, the callbacks after an order
give the beeps that were ordered, once or in every cycle, exactly if one shot was ordered. -/
theorem fulfils_iff (me : BeepGenerator) (mode : ShotMode) (time : ShotTime) (rep : ShotRepeat) :
    Fulfils mode rep (fun n => beepTimer^[n] (me.beepStart mode time rep)) ↔ mode = .oneShot := by
  have h : Shooting (me.beepStart mode time rep) := shooting_beepStart mode time rep
  constructor
  · intro hfulfils
    by_contra hmode
    exact h.not_fulfils hmode hfulfils
  · intro hmode
    have hfulfils := h.fulfils hmode
    rw [← show mode = ShotMode.oneShot from hmode] at hfulfils
    exact hfulfils

/-- A generator in memory that was filled with zeros. -/
def blank : BeepGenerator := ⟨⟨0, 0⟩, .oneShot, .shortTime, .noRepeat, .stopped, ⟨false, 0, 0⟩, 0⟩

/-- An order for two shots gives one beep. -/
theorem not_fulfils_dualShot :
    ¬ Fulfils .dualShot .noRepeat
      (fun n => beepTimer^[n] ((blank.construct ⟨20000, 0⟩).beepStart .dualShot .shortTime .noRepeat)) :=
  (shooting_beepStart .dualShot .shortTime .noRepeat).not_fulfils (by decide)

/-! ### The length of the phases -/

/-- How many ticks a phase should last.  A generator that repeats its pattern does not stop. -/
def phaseTime (time : ShotTime) : BeepState → ℕ
  | .stopped => 0
  | .beep => time.val
  | .silence => time.val
  | .waitCycle => 9 * ShotTime.shortTime.val

/-- The tick at which the first phase that is too long should have ended. -/
def late (mode : ShotMode) (time : ShotTime) : ℕ :=
  match mode with
  | .oneShot => 4 * time.val + 9 * ShotTime.shortTime.val
  | .dualShot => 2 * time.val
  | .quadShot => 2 * time.val

/-- The generator repeats a pattern in state `st`, its timer running. -/
structure Stands (mode : ShotMode) (time : ShotTime) (st : BeepState) (shots : UInt8)
    (tcnt icnt : ℕ) (me : BeepGenerator) : Prop where
  mode_eq : me.mode = mode
  time_eq : me.time = time
  rep_eq : me.rep = .repeatForever
  status_eq : me.status = st
  shots_eq : me.shots = shots
  tmr_eq : me.tmr = ⟨true, tcnt, icnt⟩

variable {mode : ShotMode} {time : ShotTime} {st : BeepState} {shots : UInt8} {tcnt icnt : ℕ}

theorem ShotTime.val_bounds (time : ShotTime) :
    0 < time.val ∧ time.val < 9 * ShotTime.shortTime.val ∧ time.val < 0xFFFF := by
  cases time <;> decide

theorem stands_beepStart (mode : ShotMode) (time : ShotTime) :
    Stands mode time .beep mode.val time.val time.val (me.beepStart mode time .repeatForever) := by
  obtain ⟨hpos, -, hlt⟩ := time.val_bounds
  exact ⟨rfl, rfl, rfl, rfl, rfl, OsTimer.svcTimerStart_of_stopped rfl hpos hlt⟩

namespace Stands

/-- The generator while its timer counts down. -/
theorem during (h : Stands mode time st shots tcnt icnt me) {k : ℕ} (hk : k < tcnt) :
    (driven.tick^[k] me).status = st := by
  have htmr : driven.tmr me = ⟨true, tcnt, icnt⟩ := h.tmr_eq
  rw [Driven.iterate_tick (by rw [htmr]) (by rw [htmr]; exact hk)]
  exact h.status_eq

/-- The callback at the end of a phase. -/
theorem expires (h : Stands mode time st shots tcnt icnt me) (hpos : 0 < tcnt) :
    Stands mode time st shots icnt icnt { me with tmr := ⟨true, icnt, icnt⟩ } ∧
      driven.tick^[tcnt] me = beepTimer { me with tmr := ⟨true, icnt, icnt⟩ } := by
  have htmr : driven.tmr me = ⟨true, tcnt, icnt⟩ := h.tmr_eq
  refine ⟨⟨h.mode_eq, h.time_eq, h.rep_eq, h.status_eq, h.shots_eq, rfl⟩, ?_⟩
  have hexpires := Driven.iterate_tick_tcnt (D := driven) (s := me) (by rw [htmr])
    (by rw [htmr]; exact hpos)
  rw [htmr] at hexpires
  exact hexpires

theorem beep_expires (h : Stands mode time .beep shots tcnt icnt me) (hpos : 0 < tcnt) :
    Stands mode time .silence shots icnt icnt (driven.tick^[tcnt] me) := by
  obtain ⟨hat, heq⟩ := h.expires hpos
  rw [heq, beepTimer_of_beep hat.status_eq]
  exact ⟨hat.mode_eq, hat.time_eq, hat.rep_eq, rfl, hat.shots_eq, rfl⟩

/-- A silence before the last shot goes on. -/
theorem silence_expires (h : Stands mode time .silence shots tcnt icnt me) (hpos : 0 < tcnt)
    (hshots : shots - 1 ≠ 0) :
    Stands mode time .silence (shots - 1) icnt icnt (driven.tick^[tcnt] me) := by
  obtain ⟨hat, heq⟩ := h.expires hpos
  rw [heq, beepTimer_of_silence hat.status_eq (by rw [hat.shots_eq]; exact hshots)]
  exact ⟨hat.mode_eq, hat.time_eq, hat.rep_eq, hat.status_eq, by rw [hat.shots_eq], rfl⟩

/-- The wait starts a stopped timer. -/
theorem last_expires (h : Stands mode time .silence 1 tcnt icnt me) (hpos : 0 < tcnt) :
    Stands mode time .waitCycle 0 (9 * ShotTime.shortTime.val) (9 * ShotTime.shortTime.val)
      (driven.tick^[tcnt] me) := by
  obtain ⟨hat, heq⟩ := h.expires hpos
  have hwait : 0 < 9 * ShotTime.shortTime.val ∧ 9 * ShotTime.shortTime.val < 0xFFFF := by decide
  rw [heq, beepTimer_of_repeatForever hat.status_eq (by rw [hat.shots_eq]; rfl) hat.rep_eq]
  refine ⟨hat.mode_eq, hat.time_eq, hat.rep_eq, rfl, rfl, ?_⟩
  simp only [OsTimer.svcTimerStop]
  rw [OsTimer.svcTimerStart_of_stopped rfl hwait.1 hwait.2]

/-- The next cycle restarts a running timer, which keeps the initial count of the wait. -/
theorem wait_expires (h : Stands mode time .waitCycle shots tcnt icnt me) (hpos : 0 < tcnt) :
    Stands mode time .beep mode.val time.val icnt (driven.tick^[tcnt] me) := by
  obtain ⟨hat, heq⟩ := h.expires hpos
  obtain ⟨htime, -, hlt⟩ := time.val_bounds
  rw [heq, beepTimer_of_waitCycle hat.status_eq]
  refine ⟨hat.mode_eq, hat.time_eq, hat.rep_eq, rfl, by rw [hat.mode_eq], ?_⟩
  rw [hat.time_eq]
  exact OsTimer.svcTimerStart_of_running rfl htime hlt

/-- A phase as a block of the sequence of states. -/
theorem block {a : ℕ} (h : Stands mode time st shots tcnt icnt (driven.tick^[a] me)) :
    ∀ i, i < tcnt → (driven.tick^[a + i] me).status = st := by
  intro i hi
  rw [Nat.add_comm, Function.iterate_add_apply]
  exact h.during hi

end Stands

/-- One shot: the second silence lasts as long as a wait. -/
theorem keepTime_iff_of_oneShot (me : BeepGenerator) (time : ShotTime) (N : ℕ) :
    KeepTime (fun n => (driven.tick^[n] (me.beepStart .oneShot time .repeatForever)).status)
        (phaseTime time) N ↔ N < late .oneShot time := by
  obtain ⟨hpos, hlt, -⟩ := time.val_bounds
  have hwait : 0 < 9 * ShotTime.shortTime.val := by decide
  set s := me.beepStart .oneShot time .repeatForever
  have h₀ : Stands .oneShot time .beep 1 time.val time.val (driven.tick^[0] s) :=
    stands_beepStart .oneShot time
  have h₁ := h₀.beep_expires hpos
  rw [← Function.iterate_add_apply, Nat.add_comm] at h₁
  have h₂ := h₁.last_expires hpos
  rw [← Function.iterate_add_apply, Nat.add_comm] at h₂
  have h₃ := h₂.wait_expires hwait
  rw [← Function.iterate_add_apply, Nat.add_comm] at h₃
  have h₄ := h₃.beep_expires hpos
  rw [← Function.iterate_add_apply, Nat.add_comm] at h₄
  have hblocks : Blocks (fun n => (driven.tick^[n] s).status) 0
      ([(.beep, time.val), (.silence, time.val), (.waitCycle, 9 * ShotTime.shortTime.val),
        (.beep, time.val)] ++ [(.silence, 9 * ShotTime.shortTime.val)]) :=
    ⟨h₀.block, h₁.block, h₂.block, h₃.block, h₄.block, trivial⟩
  have hlengths : ∀ b ∈ [(BeepState.beep, time.val), (.silence, time.val),
      (.waitCycle, 9 * ShotTime.shortTime.val), (.beep, time.val)],
      0 < b.2 ∧ phaseTime time b.1 = b.2 := by
    simp [phaseTime, hpos, hwait]
  rw [keepTime_iff_of_blocks hblocks hlengths (by simp) hpos hlt]
  simp only [totalLength, phaseTime, late]
  omega

/-- Several shots: the silence behind the first goes on. -/
theorem keepTime_iff_of_shots (me : BeepGenerator) {mode : ShotMode} (hmode : mode ≠ .oneShot)
    (time : ShotTime) (N : ℕ) :
    KeepTime (fun n => (driven.tick^[n] (me.beepStart mode time .repeatForever)).status)
        (phaseTime time) N ↔ N < late mode time := by
  obtain ⟨hpos, -, -⟩ := time.val_bounds
  have hshots : mode.val - 1 ≠ 0 := by
    revert hmode
    cases mode <;> decide
  have hlate : late mode time = 2 * time.val := by
    cases mode with
    | oneShot => exact absurd rfl hmode
    | dualShot => rfl
    | quadShot => rfl
  set s := me.beepStart mode time .repeatForever
  have h₀ : Stands mode time .beep mode.val time.val time.val (driven.tick^[0] s) :=
    stands_beepStart mode time
  have h₁ := h₀.beep_expires hpos
  rw [← Function.iterate_add_apply, Nat.add_comm] at h₁
  have h₂ := h₁.silence_expires hpos hshots
  rw [← Function.iterate_add_apply, Nat.add_comm] at h₂
  have hsilence : ∀ i, i < time.val + time.val →
      (driven.tick^[0 + time.val + i] s).status = .silence := by
    intro i hi
    rcases Nat.lt_or_ge i time.val with hin | hout
    · exact h₁.block i hin
    · have hlast := h₂.block (i - time.val) (by omega)
      rwa [Nat.add_assoc, Nat.add_sub_of_le hout] at hlast
  have hblocks : Blocks (fun n => (driven.tick^[n] s).status) 0
      ([(.beep, time.val)] ++ [(.silence, time.val + time.val)]) :=
    ⟨h₀.block, hsilence, trivial⟩
  have hlengths : ∀ b ∈ [(BeepState.beep, time.val)], 0 < b.2 ∧ phaseTime time b.1 = b.2 := by
    simp [phaseTime, hpos]
  rw [keepTime_iff_of_blocks hblocks hlengths (by simp) hpos (Nat.lt_add_of_pos_left hpos), hlate]
  simp only [totalLength, phaseTime]
  omega

/-- **How long a pattern keeps time.**  In any state of the generator, `N` ticks after an order for
a repeated pattern all its phases have lasted as long as they should, exactly if `N` is before the
first phase that is too long should have ended. -/
theorem keepTime_iff (me : BeepGenerator) (mode : ShotMode) (time : ShotTime) (N : ℕ) :
    KeepTime (fun n => (driven.tick^[n] (me.beepStart mode time .repeatForever)).status)
        (phaseTime time) N ↔ N < late mode time := by
  by_cases hmode : mode = .oneShot
  · rw [hmode]
    exact keepTime_iff_of_oneShot me time N
  · exact keepTime_iff_of_shots me hmode time N

/-- The second silence of short beeps should have ended after 2600 ticks. -/
theorem not_keepTime_secondCycle :
    ¬ KeepTime (fun n => (driven.tick^[n] ((blank.construct ⟨20000, 0⟩).beepStart .oneShot .shortTime
      .repeatForever)).status) (phaseTime .shortTime) 2600 := by
  rw [keepTime_iff_of_oneShot]
  decide

/-! ### The sound -/

/-- What happens to the generator. -/
inductive Label
  | beepStart (mode : ShotMode) (time : ShotTime) (rep : ShotRepeat)
  | beepStop
  /-- The timer expires. -/
  | callback

/-- An order, or a callback while the timer runs. -/
def step (me : BeepGenerator) : Label → Option BeepGenerator
  | .beepStart mode time rep => some (me.beepStart mode time rep)
  | .beepStop => some me.beepStop
  | .callback => if me.tmr.running then some me.beepTimer else none

/-- The runs of the generator. -/
def machine : Machine BeepGenerator Label := ⟨step⟩

/-- The buzzer sounds exactly in the state `beep`. -/
def Sounds (me : BeepGenerator) : Prop := me.buzzer.pulse ≠ 0 ↔ me.status = .beep

/-- The step is not an order to beep. -/
def Unordered (_ : BeepGenerator) (l : Label) : Prop :=
  ∀ mode time rep, l ≠ .beepStart mode time rep

end BeepGenerator

namespace PwmOut

variable {p : PwmOut}

theorem write_zero : (p.write 0).pulse = 0 := by
  have hone : ¬ (1 : ℚ) < 0 := not_lt.2 zero_le_one
  simp [write, hone]

/-- A change of the period carries a duty cycle of zero over. -/
theorem periodUs_pulse (h : p.pulse = 0) (us : ℕ) : (p.periodUs us).pulse = 0 := by
  have hread : p.read = 0 := by simp [read, h]
  rw [periodUs, hread]
  exact write_zero

theorem pulsewidthUs_zero : (p.pulsewidthUs 0).pulse = 0 := by
  rw [pulsewidthUs, Nat.cast_zero, zero_div]
  exact write_zero

end PwmOut

namespace BeepGenerator

/-- The generator rests without a sound. -/
structure Silent (me : BeepGenerator) : Prop where
  pulse : me.buzzer.pulse = 0
  status : me.status = .stopped

theorem silent_construct (me : BeepGenerator) (buzzer : PwmOut) : Silent (me.construct buzzer) :=
  ⟨PwmOut.pulsewidthUs_zero, rfl⟩

theorem Silent.sounds (h : Silent me) : Sounds me := by
  rw [Sounds, h.pulse, h.status]
  decide

/-- **When the buzzer sounds as it should.**  In any run from the construction of a generator on
any output, the buzzer sounds exactly in the state `beep` as long as no beep is ordered. -/
theorem allStates_sounds_iff (me : BeepGenerator) (buzzer : PwmOut) (ls : List Label) :
    machine.AllStates Sounds (me.construct buzzer) ls ↔
      machine.AllSteps Unordered (me.construct buzzer) ls := by
  refine Machine.allStates_iff_of_strengthening (silent_construct me buzzer) (fun _ => Silent.sounds)
    ?_ ?_
  · intro s l s' hs hl hst
    cases l with
    | beepStart mode time rep => exact absurd rfl (hl mode time rep)
    | beepStop =>
      cases hst
      exact ⟨PwmOut.periodUs_pulse hs.pulse 0, rfl⟩
    | callback =>
      simp only [machine, step] at hst
      split_ifs at hst
      rw [← Option.some.inj hst, beepTimer_of_stopped hs.status]
      exact ⟨hs.pulse, hs.status⟩
  -- the first order is answered with the state `beep` and no pulse
  · intro s l s' hs hl hst
    cases l with
    | beepStart mode time rep =>
      cases hst
      have hpulse : (s.beepStart mode time rep).buzzer.pulse = 0 :=
        PwmOut.periodUs_pulse hs.pulse 125
      exact fun hsounds => hsounds.2 rfl hpulse
    | beepStop => exact absurd (fun _ _ _ => Label.noConfusion) hl
    | callback => exact absurd (fun _ _ _ => Label.noConfusion) hl

/-- The buzzer does not sound when a beep is ordered. -/
theorem not_sounds_beepStart :
    ¬ machine.AllStates Sounds (blank.construct ⟨20000, 0⟩)
      [.beepStart .oneShot .shortTime .noRepeat] := by
  intro h
  have hsounds : Sounds ((blank.construct ⟨20000, 0⟩).beepStart .oneShot .shortTime .noRepeat) :=
    (h.2 _ rfl).head
  exact hsounds.2 rfl (PwmOut.periodUs_pulse (silent_construct blank ⟨20000, 0⟩).pulse 125)

end BeepGenerator

end UavTelemetry
