import UavTelemetry.LTS.Basic
import UavTelemetry.Rtx.Event

/-!
# Event loops

A task of the application is an endless loop: it waits for its event flags, runs the body of the
loop for the `osEvent` that the wait returned, and waits again.  A body is a list of statements
between which other tasks and interrupts run.

`EventLoop.machine` is such a loop in an environment that sets flags at any time, from threads
(`rtEvtSet`, at once) and from interrupt handlers (`isr_evt_set`, which posts a request that
PendSV serves later).  Of the statements only the flags that they clear matter here, so the
machine may take any of the continuations of a statement.

## Main definitions

* `Thread` : a task control block and the place of the task in its loop.
* `EventLoop` : the flags waited for, the timeouts, and the body of the loop.
* `EventLoop.Asleep` : the task is blocked in its wait while one of its events is pending.
* `EventLoop.Whole` : the step leaves a blocked task with no pending event of its own.

## Main results

* `EventLoop.waits_of_reachable` : a blocked task waits for all of its events at once.
* `EventLoop.allStates_awake_iff` : a task stays awake exactly in the runs whose steps are whole.
-/

namespace UavTelemetry

namespace Rtx

/-- Where a task stands in its event loop. -/
inductive Pc (Stmt : Type)
  /-- At the call of `signal_wait`. -/
  | head
  /-- In `signal_wait`. -/
  | wait
  /-- In the body of the loop, with these statements to run. -/
  | body (todo : List Stmt)
  deriving DecidableEq, Repr

/-- A task: its control block and its place in the loop. -/
structure Thread (Stmt : Type) where
  /-- Task control block. -/
  tcb : OsTcb
  /-- Place in the loop. -/
  pc : Pc Stmt
  deriving DecidableEq, Repr

namespace Thread

variable {Stmt : Type}

/-- A new task, before its first wait. -/
def init : Thread Stmt := ⟨.init, .head⟩

/-- `signal_set`, called by a thread. -/
def signalSet (t : Thread Stmt) (signals : Flags) : Thread Stmt :=
  { t with tcb := rtEvtSet t.tcb signals }

/-- `signal_clr`. -/
def signalClr (t : Thread Stmt) (signals : Flags) : Thread Stmt :=
  { t with tcb := rtEvtClr t.tcb signals }

/-- The return from `signal_wait`, once the task is not blocked any more. -/
def resume (t : Thread Stmt) (body : OsEvent → List Stmt) : Option (Thread Stmt) :=
  match t.pc with
  | .wait =>
    if t.tcb.Blocked then none
    else some ⟨{ t.tcb with state := .running }, .body (body t.tcb.ret)⟩
  | _ => none

/-- The end of a delay: the wait returns with a timeout. -/
def expire (t : Thread Stmt) : Option (Thread Stmt) :=
  if t.tcb.delayed then some { t with tcb := rtDecDly t.tcb } else none

end Thread

/-- `oe.status == osEventSignal && (oe.value.signals & signals) != 0`. -/
def OsEvent.signalled (oe : OsEvent) (signals : Flags) : Bool :=
  oe.status = .osEventSignal ∧ oe.signals &&& signals.setWidth 32 ≠ 0

/-- `osFifoSize`: the requests that the post service queue holds. -/
def osFifoSize : ℕ := 32

/-- An event loop, as far as the event flags of its task are concerned. -/
structure EventLoop (Stmt : Type) where
  /-- The events that the body of the loop handles. -/
  events : Flags
  /-- The flags passed to `signal_wait`. -/
  signals : BitVec 32
  /-- The timeouts passed to `signal_wait`. -/
  timeouts : List ℕ
  /-- The statements of the body, for the result of the wait. -/
  body : OsEvent → List Stmt
  /-- The statements that may replace a statement when it has run. -/
  next : Stmt → List (List Stmt)
  /-- The flags that a statement clears. -/
  clr : Stmt → Flags
  /-- The loop waits for the events that it handles. -/
  signals_eq : signals = events.setWidth 32
  /-- It handles some event. -/
  events_ne : events ≠ 0
  /-- No timeout is zero. -/
  timeouts_ne : ∀ ms ∈ timeouts, rtMs2tick ms ≠ 0

namespace EventLoop

/-- A task and the requests posted to it by interrupt handlers. -/
structure State (Stmt : Type) where
  /-- The task. -/
  th : Thread Stmt
  /-- The posted requests (`os_psq`). -/
  psq : List Flags
  deriving DecidableEq, Repr

/-- What happens to a task. -/
inductive Label
  /-- The task calls `signal_wait`. -/
  | call (millisec : ℕ)
  /-- `signal_wait` returns. -/
  | resume
  /-- The task runs the next statement of the body and goes on as its `i`-th continuation says. -/
  | exec (i : ℕ)
  /-- A thread sets flags of the task. -/
  | set (signals : Flags)
  /-- An interrupt handler sets flags of the task. -/
  | isrSet (signals : Flags)
  /-- PendSV serves the posted requests. -/
  | popReq
  /-- The timeout of the wait expires. -/
  | timeout
  deriving DecidableEq, Repr

variable {Stmt : Type} (L : EventLoop Stmt)

/-- The step of the machine. -/
def step (s : State Stmt) : Label → Option (State Stmt)
  | .call ms =>
    match s.th.pc with
    | .head =>
      if ms ∈ L.timeouts then
        some { s with th := ⟨svcSignalWait s.th.tcb L.signals ms, .wait⟩ }
      else none
    | _ => none
  | .resume => (s.th.resume L.body).map fun th => { s with th := th }
  | .exec i =>
    match s.th.pc with
    | .body [] => some { s with th := { s.th with pc := .head } }
    | .body (st :: todo) => ((L.next st)[i]?).map fun sts =>
        { s with th := ⟨rtEvtClr s.th.tcb (L.clr st), .body (sts ++ todo)⟩ }
    | _ => none
  | .set f => some { s with th := s.th.signalSet f }
  | .isrSet f => if s.psq.length < osFifoSize then some { s with psq := s.psq ++ [f] } else none
  | .popReq => some ⟨{ s.th with tcb := rtPopReq s.th.tcb s.psq }, []⟩
  | .timeout => s.th.expire.map fun th => { s with th := th }

/-- A task in its loop, with its environment. -/
def machine : Machine (State Stmt) Label := ⟨L.step⟩

/-- The task before its first wait. -/
def init : State Stmt := ⟨.init, []⟩

/-- The task is blocked in its wait while one of its events is pending. -/
def Asleep (s : State Stmt) : Prop := s.th.tcb.Blocked ∧ s.th.tcb.events &&& L.events ≠ 0

/-- None or all of the events of the loop are among `f`. -/
def NoneOrAll (f : Flags) : Prop := f &&& L.events = 0 ∨ f &&& L.events = L.events

/-- The task starts to wait with none or all of its events pending; while it is blocked, a thread
sets none or all of them, and so do the requests that PendSV serves together. -/
def Whole (s : State Stmt) : Label → Prop
  | .call _ => L.NoneOrAll s.th.tcb.events
  | .set f => s.th.tcb.Blocked → L.NoneOrAll f
  | .popReq => s.th.tcb.Blocked → L.NoneOrAll (orFlags s.psq)
  | _ => True

/-- A blocked task is in its wait, for all of its events, and they are not all pending. -/
def Waits (s : State Stmt) : Prop :=
  s.th.tcb.Blocked →
    s.th.pc = .wait ∧ s.th.tcb.AwaitsAll L.events ∧ s.th.tcb.events &&& L.events ≠ L.events

variable {L}

theorem setWidth_signals : L.signals.setWidth 16 = L.events := by
  rw [L.signals_eq]
  simp

theorem svcSignalWait_events_cases {t : OsTcb} {ms : ℕ} (hms : ms ∈ L.timeouts) :
    (t.events &&& L.events = L.events ∧ (svcSignalWait t L.signals ms).state = t.state) ∨
      (t.events &&& L.events ≠ L.events ∧
        (svcSignalWait t L.signals ms).AwaitsAll L.events ∧
        (svcSignalWait t L.signals ms).events = t.events) := by
  have hne : L.signals ≠ 0 := by
    intro h
    apply L.events_ne
    rw [← setWidth_signals, h]
    rfl
  have hsmall : L.signals &&& reservedSignals = 0 := by
    rw [L.signals_eq]
    exact setWidth_and_reservedSignals L.events
  simpa only [setWidth_signals] using svcSignalWait_cases hne hsmall (L.timeouts_ne ms hms)

/-! ### What a step does to a waiting task -/

section

variable {s s' : State Stmt} {l : Label}

theorem Waits.not_blocked (hw : L.Waits s) (hpc : s.th.pc ≠ .wait) : ¬ s.th.tcb.Blocked :=
  fun hb => hpc (hw hb).1

theorem waits_of_not_blocked (h : ¬ s.th.tcb.Blocked) : L.Waits s := fun hb => absurd hb h

theorem not_asleep_of_not_blocked (h : ¬ s.th.tcb.Blocked) : ¬ L.Asleep s := fun ha => h ha.1

/-- While a task that is not asleep is blocked, none of its events is pending. -/
theorem events_eq_zero (hna : ¬ L.Asleep s) (hb : s.th.tcb.Blocked) :
    s.th.tcb.events &&& L.events = 0 := by
  by_contra h
  exact hna ⟨hb, h⟩

/-- What a step does: it keeps `Waits`, and a task that is not asleep is not asleep afterwards
exactly if the step is whole. -/
def Outcome (L : EventLoop Stmt) (s : State Stmt) (l : Label) (s' : State Stmt) : Prop :=
  L.Waits s' ∧ (¬ L.Asleep s → (¬ L.Asleep s' ↔ L.Whole s l))

theorem Outcome.of_not_blocked (h : ¬ s'.th.tcb.Blocked) (hW : ¬ L.Asleep s → L.Whole s l) :
    L.Outcome s l s' :=
  ⟨waits_of_not_blocked h, fun hna => ⟨fun _ => hW hna, fun _ => not_asleep_of_not_blocked h⟩⟩

/-- A task that blocks, or stays blocked, with the flags `f` joined to its events. -/
theorem Outcome.of_awaitsAll {f : Flags} (hpc : s'.th.pc = .wait)
    (hwait : s'.th.tcb.AwaitsAll L.events) (hpart : s'.th.tcb.events &&& L.events ≠ L.events)
    (hf : ¬ L.Asleep s → s'.th.tcb.events &&& L.events = f &&& L.events)
    (hW : L.Whole s l ↔ L.NoneOrAll f) : L.Outcome s l s' := by
  refine ⟨fun _ => ⟨hpc, hwait, hpart⟩, fun hna => ?_⟩
  rw [hW, NoneOrAll, ← hf hna, or_iff_left hpart]
  exact ⟨fun h => events_eq_zero h hwait.blocked, fun h ha => ha.2 h⟩

theorem outcome_call {ms : ℕ} (hw : L.Waits s) (hst : L.step s (.call ms) = some s') :
    L.Outcome s (.call ms) s' := by
  simp only [step] at hst
  split at hst
  case h_2 => cases hst
  case h_1 hpc =>
    split_ifs at hst with hms
    cases hst
    have hrun : ¬ s.th.tcb.Blocked := hw.not_blocked (by simp [hpc])
    rcases svcSignalWait_events_cases hms (t := s.th.tcb) with ⟨hall, hstate⟩ | ⟨hpart, hwait, hev⟩
    -- all events are pending, and the call returns at once
    · refine .of_not_blocked ?_ fun _ => Or.inr hall
      rwa [OsTcb.Blocked, hstate]
    · exact .of_awaitsAll (f := s.th.tcb.events) rfl hwait (by rwa [hev]) (fun _ => by rw [hev])
        Iff.rfl

theorem outcome_resume (hst : L.step s .resume = some s') : L.Outcome s .resume s' := by
  obtain ⟨th, hth, rfl⟩ := Option.map_eq_some_iff.1 hst
  simp only [Thread.resume] at hth
  split at hth
  case h_2 => cases hth
  case h_1 =>
    split_ifs at hth
    cases hth
    exact .of_not_blocked (by simp [OsTcb.Blocked]) fun _ => trivial

theorem outcome_exec {i : ℕ} (hw : L.Waits s) (hst : L.step s (.exec i) = some s') :
    L.Outcome s (.exec i) s' := by
  simp only [step] at hst
  split at hst
  · rename_i hpc
    cases hst
    exact .of_not_blocked (hw.not_blocked (by simp [hpc])) fun _ => trivial
  · rename_i hpc
    obtain ⟨sts, -, rfl⟩ := Option.map_eq_some_iff.1 hst
    exact .of_not_blocked (hw.not_blocked (by simp [hpc])) fun _ => trivial
  · cases hst

theorem outcome_set {f : Flags} (hw : L.Waits s) (hst : L.step s (.set f) = some s') :
    L.Outcome s (.set f) s' := by
  cases hst
  by_cases hb : s.th.tcb.Blocked
  · obtain ⟨hpc, hwait, -⟩ := hw hb
    rcases rtEvtSet_cases hwait f with ⟨hall, hready⟩ | ⟨hpart, hwait', hev⟩
    -- the task is woken: with none of its events pending before, `f` has all of them
    · refine .of_not_blocked (by simp [Thread.signalSet, OsTcb.Blocked, hready]) fun hna _ => ?_
      rw [or_and_of_and_eq_zero (events_eq_zero hna hb)] at hall
      exact Or.inr hall
    -- it stays blocked: it is awake exactly if `f` has none of its events
    · refine .of_awaitsAll (f := f) hpc hwait' (by rwa [Thread.signalSet, hev]) (fun hna => ?_)
        ⟨fun h => h hb, fun h _ => h⟩
      rw [Thread.signalSet, hev, or_and_of_and_eq_zero (events_eq_zero hna hb)]
  · refine .of_not_blocked ?_ fun _ hb' => absurd hb' hb
    rwa [Thread.signalSet, OsTcb.Blocked, rtEvtSet_state hb]

theorem outcome_popReq (hw : L.Waits s) (hst : L.step s .popReq = some s') :
    L.Outcome s .popReq s' := by
  cases hst
  by_cases hb : s.th.tcb.Blocked
  · obtain ⟨hpc, hwait, hpart⟩ := hw hb
    rcases rtPopReq_cases hwait hpart s.psq with ⟨hall, hrun⟩ | ⟨hpart', hwait', hev⟩
    · refine .of_not_blocked hrun fun hna _ => ?_
      rw [or_and_of_and_eq_zero (events_eq_zero hna hb)] at hall
      exact Or.inr hall
    · refine .of_awaitsAll (f := orFlags s.psq) hpc hwait' (by rwa [hev]) (fun hna => ?_)
        ⟨fun h => h hb, fun h _ => h⟩
      rw [hev, or_and_of_and_eq_zero (events_eq_zero hna hb)]
  · refine .of_not_blocked ?_ fun _ hb' => absurd hb' hb
    rwa [OsTcb.Blocked, rtPopReq_state hb]

theorem outcome_timeout (hst : L.step s .timeout = some s') : L.Outcome s .timeout s' := by
  obtain ⟨th, hth, rfl⟩ := Option.map_eq_some_iff.1 hst
  simp only [Thread.expire] at hth
  split_ifs at hth
  cases hth
  exact .of_not_blocked (by simp [rtDecDly, OsTcb.Blocked]) fun _ => trivial

/-- **Every step**: it keeps `Waits`, and lets an awake task fall asleep exactly if it is not
whole. -/
theorem outcome_of_step (hw : L.Waits s) (hst : L.step s l = some s') : L.Outcome s l s' := by
  cases l with
  | call ms => exact outcome_call hw hst
  | resume => exact outcome_resume hst
  | exec i => exact outcome_exec hw hst
  | set f => exact outcome_set hw hst
  | isrSet f =>
    simp only [step] at hst
    split_ifs at hst
    cases hst
    exact ⟨hw, fun hna => ⟨fun _ => trivial, fun _ => hna⟩⟩
  | popReq => exact outcome_popReq hw hst
  | timeout => exact outcome_timeout hst

end

theorem not_blocked_init : ¬ (init : State Stmt).th.tcb.Blocked := by
  simp [init, Thread.init, OsTcb.init, OsTcb.Blocked]

/-- A blocked task waits for all of its events, and they are not all pending, in every reachable
state. -/
theorem waits_of_reachable {s : State Stmt} (h : L.machine.Reachable init s) : L.Waits s :=
  h.invariant (waits_of_not_blocked not_blocked_init) fun _ _ _ hw hst => (outcome_of_step hw hst).1

/-- **The runs in which a task never sleeps on an event** are those whose steps are all whole. -/
theorem allStates_awake_iff (ls : List Label) :
    L.machine.AllStates (fun s => ¬ L.Asleep s) init ls ↔ L.machine.AllSteps L.Whole init ls :=
  Machine.allStates_iff_allSteps (waits_of_not_blocked not_blocked_init)
    (not_asleep_of_not_blocked not_blocked_init) (fun _ _ _ hw hst => (outcome_of_step hw hst).1)
    fun _ _ _ hw hna hst => (outcome_of_step hw hst).2 hna

end EventLoop

end Rtx

end UavTelemetry
