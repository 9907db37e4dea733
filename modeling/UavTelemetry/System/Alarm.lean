import UavTelemetry.System.World
import UavTelemetry.Tasks.BeepGenerator

/-!
# The alarm and the user

`SysManager` answers an update of `/alarm` with a beep pattern that is repeated until the user acts,
that is, until an update of `/keyb`.  But all four branches of the loop start the one beeper, so
that an update of `/gps` or `/stat` ends the alarm as well, and so does a key that was pressed
before the alarm and is handled in the same pass or later.

This file runs `SysManager` alone with its beeper: each wake-up delivers any updates, the timer of
the beeper calls back at any time while it runs, and the broker and the other tasks do anything.

## Main definitions

* `SysManager.Solo` : `SysManager` and its beeper; `SysManager.Solo.machine` are the runs.
* `SysManager.Watch` : whether an alarm is on, that is, raised and not acted upon by the user.
* `SysManager.Solo.Sounds` : the beeper sounds the alarm as long as it is on.
* `SysManager.Solo.Undisturbed` : the wake-up delivers nothing that disturbs the alarm.

## Main results

* `SysManager.Solo.sounds_iff` : the alarm sounds until the user acts exactly if no wake-up
  disturbs it.
-/

namespace UavTelemetry

open MsgBroker Rtx

variable {β : Type}

/-- The pattern of an alarm. -/
structure BeepGenerator.AlarmPattern (b : BeepGenerator) : Prop where
  /-- Four shots. -/
  mode : b.mode = .quadShot
  /-- Short ones. -/
  time : b.time = .shortTime
  /-- They are repeated. -/
  rep : b.rep = .repeatForever
  /-- The beeper is not stopped. -/
  status : b.status ≠ .stopped

instance (b : BeepGenerator) : Decidable b.AlarmPattern :=
  decidable_of_iff (b.mode = .quadShot ∧ b.time = .shortTime ∧ b.rep = .repeatForever ∧
      b.status ≠ .stopped)
    ⟨fun h => ⟨h.1, h.2.1, h.2.2.1, h.2.2.2⟩, fun h => ⟨h.mode, h.time, h.rep, h.status⟩⟩

namespace SysManager

/-- `SysManager` and its beeper, with everything around them. -/
structure Solo (β : Type) where
  /-- The broker and the variables. -/
  world : World β
  /-- The beeper. -/
  beeper : BeepGenerator
  /-- Place in the loop. -/
  pc : Pc Stmt

/-- What happens to `SysManager`. -/
inductive Solo.Label (β : Type)
  /-- `signal_wait` returns.  `later` tells whether an update of `/keyb` that was received after
  the last update of `/alarm` is among the updates delivered. -/
  | wake (oe : OsEvent) (later : Bool)
  /-- The next statement runs. -/
  | run
  /-- The timer of the beeper calls back. -/
  | timer
  /-- The others change everything but the variables of `SysManager`. -/
  | env (w : World β)

/-- What has become of the alarms. -/
structure Watch where
  /-- An alarm has been handled, and no update of `/keyb` received after it. -/
  on : Bool
  /-- The current pass handles an alarm. -/
  alarm : Bool
  /-- The current pass handles an update of `/keyb` received after the last alarm. -/
  user : Bool
  deriving DecidableEq, Repr

/-- What a statement does to the beeper. -/
def Stmt.beeper (st : Stmt) (b : BeepGenerator) : BeepGenerator :=
  match st with
  | .beepStart mode rep => b.beepStart mode .shortTime rep
  | _ => b

namespace Solo

variable (io : BrokerImpl β)

/-- A step of `SysManager` or of its timer.  A fault ends the run. -/
def step (s : Solo β) : Label β → Option (Solo β)
  | .wake oe _ =>
    match s.pc with
    | .head =>
      if oe.status = .osEventTimeout ∧ s.world.sys.sm.timeout = osWaitForever then none
      else some { s with pc := .body (body oe) }
    | _ => none
  | .run =>
    match s.pc with
    | .body [] => some { s with pc := .head }
    | .body (st :: sts) =>
      match exec io s.world st with
      | .error _ => none
      | .ok (w, new) => some ⟨w, st.beeper s.beeper, .body (new ++ sts)⟩
    | _ => none
  | .timer => if s.beeper.tmr.running then some { s with beeper := s.beeper.beepTimer } else none
  | .env w => some { s with world := ⟨w.broker, { w.sys with sm := s.world.sys.sm }⟩ }

/-- What a step means for the alarm: the user acts with the pass that handles a later update of
`/keyb`, and an alarm is on from the end of its pass. -/
def watch (s : Solo β) (l : Label β) (_ : Solo β) (t : Watch) : Watch :=
  match l, s.pc with
  | .wake oe later, _ =>
    let user := oe.signalled keyEvReady && later
    ⟨t.on && !user, oe.signalled alarmEvReady, user⟩
  | .run, .body [] => { t with on := (t.on || t.alarm) && !t.user }
  | _, _ => t

/-- The runs of `SysManager`, with a watch on the alarm. -/
def machine : Machine (Solo β × Watch) (Label β) := Machine.observe ⟨step io⟩ watch

/-- `SysManager` enters its loop: it has stopped the beeper, and no alarm is on. -/
def start (w : World β) (b : BeepGenerator) : Solo β × Watch :=
  (⟨w, b.beepStop, .head⟩, ⟨false, false, false⟩)

/-- **An alarm sounds until the user acts.** -/
def Sounds (s : Solo β × Watch) : Prop := s.2.on → s.1.beeper.AlarmPattern

instance (s : Solo β × Watch) : Decidable (Sounds s) :=
  inferInstanceAs (Decidable (s.2.on → s.1.beeper.AlarmPattern))

/-- A wake-up does not disturb the alarm that is on or that it delivers: unless the user acts, it
delivers no other update. -/
def Undisturbed (s : Solo β × Watch) : Label β → Prop
  | .wake oe later =>
    s.2.on ∨ oe.signalled alarmEvReady → (oe.signalled keyEvReady && later) = false →
      oe.signalled keyEvReady = false ∧ oe.signalled gpsEvReady = false ∧
        oe.signalled statEvReady = false
  | _ => True

end Solo

/-! ### The beeper in a pass of the loop -/

/-- The beeper after some statements, without callbacks. -/
def beeperAfter (b : BeepGenerator) (sts : List Stmt) : BeepGenerator :=
  sts.foldl (fun b st => st.beeper b) b

/-- A statement that may start the beeper starts the alarm. -/
def Stmt.Alarming (st : Stmt) : Prop :=
  ∀ mode rep, st = .beepStart mode rep → mode = .quadShot ∧ rep = .repeatForever

variable {io : BrokerImpl β} {w w' : World β} {b : BeepGenerator} {st : Stmt} {sts new : List Stmt}
  {oe : OsEvent}

theorem exec_new (h : exec io w st = .ok (w', new)) : new = [] := by
  cases st with
  | consumed _ | getTopicData _ =>
    obtain ⟨_, -, h⟩ := bind_eq_ok h
    cases h
    rfl
  | ledSwitch =>
    simp only [exec] at h
    split at h
    · cases h
    · cases h
      rfl
  | _ =>
    cases h
    rfl

@[simp] theorem beeperAfter_nil : beeperAfter b [] = b := rfl

@[simp] theorem beeperAfter_cons :
    beeperAfter b (st :: sts) = beeperAfter (st.beeper b) sts := rfl

theorem beeperAfter_append {sts' : List Stmt} :
    beeperAfter b (sts ++ sts') = beeperAfter (beeperAfter b sts) sts' := List.foldl_append

/-- Whether the pattern is repeated in the end depends on the beeper only by its repetition. -/
theorem beeperAfter_rep_congr {b' : BeepGenerator} (h : b.rep = b'.rep) :
    (beeperAfter b sts).rep = (beeperAfter b' sts).rep := by
  induction sts generalizing b b' with
  | nil => exact h
  | cons st sts ih =>
    refine ih ?_
    cases st with
    | beepStart mode rep => rfl
    | _ => exact h

/-- Every branch but the one of `/alarm` ends with a pattern that is not repeated. -/
theorem beeperAfter_body (h : oe.signalled keyEvReady ∨ oe.signalled gpsEvReady ∨
    oe.signalled statEvReady) : (beeperAfter b (body oe)).rep = .noRepeat := by
  simp only [body, beeperAfter_append]
  cases hstat : oe.signalled statEvReady with
  | true => rfl
  | false =>
    cases hgps : oe.signalled gpsEvReady with
    | true => rfl
    | false =>
      have hkey : oe.signalled keyEvReady = true := by simpa [hgps, hstat] using h
      simp only [hkey, if_true]
      rfl

/-- Without another update, a pass starts the alarm or nothing. -/
theorem body_of_undisturbed (hkey : oe.signalled keyEvReady = false)
    (hgps : oe.signalled gpsEvReady = false) (hstat : oe.signalled statEvReady = false) :
    body oe = if oe.signalled alarmEvReady then
      [.signalClr alarmEvReady, .beepStart .quadShot .repeatForever] else [] := by
  simp [body, hkey, hgps, hstat]

theorem beeper_alarmPattern (halarming : st.Alarming)
    (h : st = .beepStart .quadShot .repeatForever ∨ b.AlarmPattern) :
    (st.beeper b).AlarmPattern := by
  cases st with
  | beepStart mode rep =>
    obtain ⟨rfl, rfl⟩ := halarming mode rep rfl
    exact ⟨rfl, rfl, rfl, by simp [Stmt.beeper, BeepGenerator.beepStart]⟩
  | _ => simpa [Stmt.beeper] using h

theorem alarmPattern_beepTimer (h : b.AlarmPattern) : b.beepTimer.AlarmPattern :=
  ⟨BeepGenerator.beepTimer_mode.trans h.mode, BeepGenerator.beepTimer_time.trans h.time,
    BeepGenerator.beepTimer_rep.trans h.rep, BeepGenerator.beepTimer_status_ne h.rep h.status⟩

namespace Solo

/-! ### What a step does -/

variable {s s' : Solo β} {p p' : Solo β × Watch} {l : Label β}

theorem step_of_machine (h : (machine io).step p l = some p') :
    step io p.1 l = some p'.1 ∧ p'.2 = watch p.1 l p'.1 p.2 :=
  Machine.observe_step h

theorem wake_cases {later : Bool} (h : step io s (.wake oe later) = some s') :
    s.pc = .head ∧ s' = { s with pc := .body (body oe) } := by
  simp only [step] at h
  split at h
  · rename_i hpc
    split_ifs at h
    exact ⟨hpc, (Option.some.inj h).symm⟩
  · cases h

theorem run_cases (h : step io s .run = some s') :
    (s.pc = .body [] ∧ s' = { s with pc := .head }) ∨
      ∃ st sts w, s.pc = .body (st :: sts) ∧ s' = ⟨w, st.beeper s.beeper, .body sts⟩ := by
  simp only [step] at h
  split at h
  · rename_i hpc
    exact Or.inl ⟨hpc, (Option.some.inj h).symm⟩
  · rename_i st sts hpc
    split at h
    · cases h
    · rename_i w new hexec
      rw [exec_new hexec] at h
      exact Or.inr ⟨st, sts, w, hpc, (Option.some.inj h).symm⟩
  · cases h

theorem timer_cases (h : step io s .timer = some s') :
    s' = { s with beeper := s.beeper.beepTimer } := by
  simp only [step] at h
  split_ifs at h
  exact (Option.some.inj h).symm

/-! ### Runs without a disturbance -/

/-- What holds as long as no wake-up disturbs the alarm. -/
structure Kept (s : Solo β) (t : Watch) : Prop where
  /-- The alarm sounds. -/
  sounds : t.on → s.beeper.AlarmPattern
  /-- The alarm is off once the user acts. -/
  user : t.user → t.on = false
  /-- A pass for the alarm starts nothing else. -/
  alarming : ∀ sts, s.pc = .body sts → t.user = false → t.on ∨ t.alarm → ∀ st ∈ sts, st.Alarming
  /-- A pass that handles an alarm has started it, or will. -/
  started : ∀ sts, s.pc = .body sts → t.user = false → t.alarm →
    .beepStart .quadShot .repeatForever ∈ sts ∨ s.beeper.AlarmPattern

theorem kept_start (w : World β) (b : BeepGenerator) : (start w b).1.Kept (start w b).2 where
  sounds hon := by cases hon
  user _ := rfl
  alarming _ hpc := by cases hpc
  started _ hpc := by cases hpc

theorem Kept.wake {t : Watch} {later : Bool} (h : s.Kept t)
    (hl : Undisturbed (s, t) (.wake oe later)) :
    Kept { s with pc := .body (body oe) }
      ⟨t.on && !(oe.signalled keyEvReady && later), oe.signalled alarmEvReady,
        oe.signalled keyEvReady && later⟩ := by
  have hbody : t.on ∨ oe.signalled alarmEvReady → (oe.signalled keyEvReady && later) = false →
      body oe = if oe.signalled alarmEvReady then
        [.signalClr alarmEvReady, .beepStart .quadShot .repeatForever] else [] := by
    intro hon huser
    obtain ⟨hkey, hgps, hstat⟩ := hl hon huser
    exact body_of_undisturbed hkey hgps hstat
  have hon_of {user : Bool} (hon : (t.on && !user) = true) : t.on = true :=
    (Bool.and_eq_true_iff.1 hon).1
  refine ⟨fun hon => h.sounds (hon_of hon), fun huser => ?_, ?_, ?_⟩
  · have huser : (oe.signalled keyEvReady && later) = true := huser
    simp [huser]
  · intro sts hpc huser hon st hst
    cases hpc
    rw [hbody (hon.imp hon_of id) huser] at hst
    split_ifs at hst
    · simp only [List.mem_cons, List.not_mem_nil, or_false] at hst
      obtain rfl | rfl := hst
      · intro mode rep heq
        cases heq
      · intro mode rep heq
        cases heq
        exact ⟨rfl, rfl⟩
    · cases hst
  · intro sts hpc huser halarm
    cases hpc
    rw [hbody (Or.inr halarm) huser, if_pos halarm]
    exact Or.inl (by simp)

theorem Kept.run {t : Watch} {w : World β} (h : s.Kept t) (hpc : s.pc = .body (st :: sts)) :
    Kept ⟨w, st.beeper s.beeper, .body sts⟩ t := by
  have halarming := h.alarming _ hpc
  have hkeep : t.user = false → t.on ∨ t.alarm →
      st = .beepStart .quadShot .repeatForever ∨ s.beeper.AlarmPattern →
      (st.beeper s.beeper).AlarmPattern := fun huser hon hst =>
    beeper_alarmPattern (halarming huser hon st List.mem_cons_self) hst
  refine ⟨fun hon => ?_, h.user, ?_, ?_⟩
  · have huser : t.user = false := by
      by_contra huser
      have hoff := h.user (by simpa using huser)
      rw [hoff] at hon
      cases hon
    exact hkeep huser (Or.inl hon) (Or.inr (h.sounds hon))
  · intro sts' hpc' huser hon st' hst'
    cases hpc'
    exact halarming huser hon st' (List.mem_cons_of_mem _ hst')
  · intro sts' hpc' huser halarm
    cases hpc'
    rcases h.started _ hpc huser halarm with hmem | hpattern
    · rcases List.mem_cons.1 hmem with hst | hmem
      · exact Or.inr (hkeep huser (Or.inr halarm) (Or.inl hst.symm))
      · exact Or.inl hmem
    · exact Or.inr (hkeep huser (Or.inr halarm) (Or.inr hpattern))

/-- The end of a pass. -/
theorem Kept.head {t : Watch} (h : s.Kept t) (hpc : s.pc = .body []) :
    Kept { s with pc := .head } { t with on := (t.on || t.alarm) && !t.user } := by
  have hsounds : ((t.on || t.alarm) && !t.user) = true → s.beeper.AlarmPattern := by
    intro hon
    simp only [Bool.and_eq_true, Bool.or_eq_true, Bool.not_eq_true'] at hon
    obtain ⟨hon | halarm, huser⟩ := hon
    · exact h.sounds hon
    · rcases h.started [] hpc huser halarm with hmem | hpattern
      · cases hmem
      · exact hpattern
  refine ⟨hsounds, fun huser => ?_, ?_, ?_⟩
  · have huser : t.user = true := huser
    simp [huser]
  · intro _ hhead
    cases hhead
  · intro _ hhead
    cases hhead

theorem Kept.timer {t : Watch} (h : s.Kept t) :
    Kept { s with beeper := s.beeper.beepTimer } t :=
  ⟨fun hon => alarmPattern_beepTimer (h.sounds hon), h.user, h.alarming,
    fun sts hpc huser halarm => (h.started sts hpc huser halarm).imp id alarmPattern_beepTimer⟩

theorem Kept.step (h : p.1.Kept p.2) (hl : Undisturbed p l) (hst : (machine io).step p l = some p') :
    p'.1.Kept p'.2 := by
  obtain ⟨hstep, hwatch⟩ := step_of_machine hst
  rw [hwatch]
  cases l with
  | wake oe later =>
    obtain ⟨-, hs'⟩ := wake_cases hstep
    rw [hs']
    exact h.wake hl
  | run =>
    obtain ⟨hpc, hs'⟩ | ⟨st, sts, w, hpc, hs'⟩ := run_cases hstep
    · rw [hs']
      simpa only [watch, hpc] using h.head hpc
    · rw [hs']
      simpa only [watch, hpc] using h.run hpc
  | timer =>
    rw [timer_cases hstep]
    exact h.timer
  | env w =>
    rw [← Option.some.inj hstep]
    exact ⟨h.sounds, h.user, h.alarming, h.started⟩

/-! ### Runs with a disturbance -/

/-- The pass under way will leave a pattern that is not repeated, although an alarm is on. -/
def Doomed (p : Solo β × Watch) : Prop :=
  ∃ sts, p.1.pc = .body sts ∧ p.2.user = false ∧ (p.2.on ∨ p.2.alarm) ∧
    (beeperAfter p.1.beeper sts).rep = .noRepeat

theorem doomed_of_disturbed (hl : ¬ Undisturbed p l) (hst : (machine io).step p l = some p') :
    Doomed p' := by
  obtain ⟨hstep, hwatch⟩ := step_of_machine hst
  cases l with
  | wake oe later =>
    obtain ⟨-, hs'⟩ := wake_cases hstep
    simp only [Undisturbed, Classical.not_imp] at hl
    obtain ⟨hon, huser, hdisturbed⟩ := hl
    refine ⟨body oe, by rw [hs'], ?_, ?_, ?_⟩
    · rw [hwatch]
      exact huser
    · rw [hwatch]
      exact hon.imp (fun hon => by simp [watch, hon, huser]) id
    · rw [hs']
      refine beeperAfter_body ?_
      by_contra hnone
      simp only [not_or, Bool.not_eq_true] at hnone
      exact hdisturbed hnone
  | _ => exact absurd trivial hl

/-- The end of a doomed pass silences the alarm. -/
theorem Doomed.step (h : Doomed p) (hst : (machine io).step p l = some p') (hsounds : Sounds p') :
    Doomed p' := by
  obtain ⟨sts, hpc, huser, hon, hrep⟩ := h
  obtain ⟨hstep, hwatch⟩ := step_of_machine hst
  cases l with
  | wake oe later =>
    have hhead := (wake_cases hstep).1
    rw [hpc] at hhead
    cases hhead
  | run =>
    obtain ⟨hpc', hs'⟩ | ⟨st, sts', w, hpc', hs'⟩ := run_cases hstep
    · cases hpc.symm.trans hpc'
      have hon' : p'.2.on = true := by
        simp only [hwatch, watch, hpc, huser, Bool.not_false, Bool.and_true, Bool.or_eq_true]
        exact hon
      have hforever := (hsounds hon').rep
      rw [hs'] at hforever
      exact absurd (hrep.symm.trans hforever) (by decide)
    · cases hpc.symm.trans hpc'
      refine ⟨sts', by rw [hs'], ?_, ?_, ?_⟩
      · simpa only [hwatch, watch, hpc] using huser
      · simpa only [hwatch, watch, hpc] using hon
      · rw [hs']
        exact hrep
  | timer =>
    have hs' := timer_cases hstep
    refine ⟨sts, by rw [hs']; exact hpc, ?_, ?_, ?_⟩
    · simpa only [hwatch, watch] using huser
    · simpa only [hwatch, watch] using hon
    · rw [hs']
      exact (beeperAfter_rep_congr BeepGenerator.beepTimer_rep).trans hrep
  | env w =>
    have hs' := (Option.some.inj hstep).symm
    refine ⟨sts, by rw [hs']; exact hpc, ?_, ?_, ?_⟩
    · simpa only [hwatch, watch] using huser
    · simpa only [hwatch, watch] using hon
    · rw [hs']
      exact hrep

/-- **When an alarm sounds until the user acts.**  In a run in which no wake-up delivers another
update together with an alarm or while one is on, unless the user acts, the alarm sounds in every
state; and a run of whole passes in which it does is one of those. -/
theorem sounds_iff (io : BrokerImpl β) (w : World β) (b : BeepGenerator) (ls : List (Label β)) :
    ((machine io).AllSteps Undisturbed (start w b) ls →
      (machine io).AllStates Sounds (start w b) ls) ∧
    ∀ p, (machine io).run (start w b) ls = some p → p.1.pc = .head →
      ((machine io).AllStates Sounds (start w b) ls ↔
        (machine io).AllSteps Undisturbed (start w b) ls) := by
  have hsounds : (machine io).AllSteps Undisturbed (start w b) ls →
      (machine io).AllStates Sounds (start w b) ls := fun hC =>
    (Machine.allStates_of_allSteps (I := fun p : Solo β × Watch => p.1.Kept p.2)
      (kept_start w b) (fun _ _ _ hp hl hst => hp.step hl hst) hC).mono fun _ hp => hp.sounds
  refine ⟨hsounds, fun p hrun hpc => ⟨fun h => ?_, hsounds⟩⟩
  refine Machine.allSteps_of_doomed (D := Doomed) (E := fun p => p.1.pc = .head)
    (fun _ _ _ hst hl => doomed_of_disturbed hl hst) (fun _ _ _ hp hst hq => hp.step hst hq) ?_
    h hrun hpc
  rintro p ⟨sts, hbody, -⟩ hhead
  rw [hbody] at hhead
  cases hhead

end Solo

/-! ### A position update silences the alarm -/

/-- `SysManager` enters its loop. -/
def entered : Solo (Reference Task Task Buffer) × Watch :=
  Solo.start ⟨Reference.setup, Sys.boot⟩
    ⟨⟨250, 0⟩, .oneShot, .shortTime, .noRepeat, .stopped, ⟨false, 0, 0⟩, 0⟩

/-- A wake-up with an update of `/alarm`, and one with an update of `/gps`. -/
theorem not_sounds_alarmAndGps :
    ¬ (Solo.machine Reference.impl).AllStates Solo.Sounds entered
      (.wake ⟨.osEventSignal, 0b100⟩ false :: List.replicate 3 .run ++
        .wake ⟨.osEventSignal, 0b1⟩ false :: List.replicate 4 .run) := by
  decide +kernel

end SysManager

end UavTelemetry
