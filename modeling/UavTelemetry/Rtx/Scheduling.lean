import UavTelemetry.Rtx.DelayList
import UavTelemetry.Rtx.TaskLists

/-!
# Task switching

The part of the kernel that decides which task runs: `rt_Task.c`, `rt_Robin.c`, the tick of
`rt_System.c` and `rt_dec_dly`.  It works on the lists of `TaskLists` and `DelayList` and on the
states and priorities of the tasks.

Between two entries of the kernel every task but the running one has its place: a ready task is in
the ready list, a task that waits for an object is in the list of that object, any other task is in
no list.  While the kernel is at work it has some tasks *in hand*, which it has taken from their
places and not yet put back.  `Sched.Placed s q d pos X` describes this, `X` being the tasks in
hand; each list function takes a task from its place or puts one back.

## Main definitions

* `Sched` : the part of the state of the kernel.
* `Sched.rtDispatch`, `Sched.rtBlock`, `Sched.rtTskPass`, `Sched.rtTskPrio`, `Sched.rtChkRobin`,
  `Sched.rtDecDly` : the functions.
* `Fits` : the place of a task fits its state.
* `Sched.Placed` : every task has its place, but for those in hand.

## Main results

* `Sched.Placed.putReady`, `Sched.Placed.getFirst`, `Sched.Placed.wait` and the lemmas next to
  them : the moves of one task.
-/

namespace UavTelemetry

namespace Rtx

/-- The states of a task. -/
inductive TcbState
  | inactive
  | ready
  | running
  | waitDly
  | waitOr
  | waitAnd
  | waitSem
  | waitMbx
  | waitMut
  deriving DecidableEq, Repr

/-- The objects that tasks wait for: semaphores, mutexes and mailboxes. -/
inductive Obj (ι : Type)
  | sem (s : ι)
  | mut (m : ι)
  | mbx (b : ι)
  deriving DecidableEq, Repr

/-- The state in which a task waits for the object. -/
def Obj.waitState {ι : Type} : Obj ι → TcbState
  | .sem _ => .waitSem
  | .mut _ => .waitMut
  | .mbx _ => .waitMbx

theorem Obj.waitState_ne_waitDly {ι : Type} (o : Obj ι) : o.waitState ≠ .waitDly := by
  cases o <;> simp [Obj.waitState]

/-- The state of the kernel, as far as it decides which task runs. -/
structure Sched (τ ι : Type) where
  /-- The ready list and the waiting lists. -/
  links : Links τ (Obj ι)
  /-- The delay list. -/
  delays : Delays τ
  /-- Execution priority. -/
  prio : τ → ℕ
  /-- Task state. -/
  state : τ → TcbState
  /-- `os_tsk.run`: the running task. -/
  run : τ
  /-- `os_tsk.new_tsk`: the task that runs when the kernel is left. -/
  newTsk : τ
  /-- `os_time`: the free running tick counter. -/
  time : ℕ
  /-- `os_robin.task`: the round robin task. -/
  robinTask : Option τ
  /-- `os_robin.time`: the round robin switch time. -/
  robinTime : ℕ
  /-- `os_idle_TCB`: the idle demon. -/
  idle : τ

/-- `OS_ROBINTOUT`: the round robin time-out. -/
def osRobintout : ℕ := 5

namespace Sched

variable {τ ι : Type} [DecidableEq τ] [DecidableEq ι]

/-- The state of a task is set. -/
def setState (s : Sched τ ι) (t : τ) (st : TcbState) : Sched τ ι :=
  { s with state := Function.update s.state t st }

/-- `rt_switch_req`: switch to the task. -/
def rtSwitchReq (s : Sched τ ι) (new : τ) : Sched τ ι :=
  { s.setState new .running with newTsk := new }

/-- `rt_put_prio`, on the lists of the kernel. -/
def rtPutPrio [Fintype τ] (s : Sched τ ι) (pCb : Cb τ (Obj ι)) (t : τ) : Except Fault (Sched τ ι) :=
  (s.links.rtPutPrio s.prio pCb t).map fun l => { s with links := l }

/-- `rt_get_first`, on the lists of the kernel. -/
def rtGetFirst (s : Sched τ ι) (pCb : Cb τ (Obj ι)) : Except Fault (τ × Sched τ ι) :=
  (s.links.rtGetFirst pCb).map fun r => (r.1, { s with links := r.2 })

/-- `rt_put_rdy_first`, on the lists of the kernel. -/
def rtPutRdyFirst (s : Sched τ ι) (t : τ) : Sched τ ι := { s with links := s.links.rtPutRdyFirst t }

/-- `rt_resort_prio`, on the lists of the kernel. -/
def rtResortPrio [Fintype τ] (s : Sched τ ι) (t : τ) : Except Fault (Sched τ ι) :=
  (s.links.rtResortPrio s.prio (s.state t = .ready) t).map fun l => { s with links := l }

/-- `rt_rmv_dly`, on the lists of the kernel. -/
def rtRmvDly (s : Sched τ ι) (t : τ) : Sched τ ι := { s with delays := s.delays.rtRmvDly t }

/-- The macro `rt_rdy_prio`: the priority of the first ready task. -/
def rtRdyPrio (s : Sched τ ι) : Except Fault ℕ :=
  match s.links.lnk .rdy with
  | none => .error .nullPointer
  | some first => .ok (s.prio first)

/-- How the kernel chooses the next task: the highest ready task is taken and switched to. -/
def runFirst (s : Sched τ ι) : Except Fault (Sched τ ι) := do
  let r ← s.rtGetFirst .rdy
  return r.2.rtSwitchReq r.1

/-- `rt_dispatch`: dispatch the next task, or the highest ready task if there is none. -/
def rtDispatch [Fintype τ] (s : Sched τ ι) : Option τ → Except Fault (Sched τ ι)
  | none => s.runFirst
  | some next =>
    if s.prio next > s.prio s.run then
      .ok (((s.rtPutRdyFirst s.run).setState s.run .ready).rtSwitchReq next)
    else (s.setState next .ready).rtPutPrio .rdy next

/-- `rt_block`: block the running task and choose the next one. -/
def rtBlock [Fintype τ] (s : Sched τ ι) (timeout : ℕ) (blockState : TcbState) :
    Except Fault (Sched τ ι) :=
  if timeout ≠ 0 then do
    let d ← s.delays.putTimeout s.run timeout
    let s := { s with delays := d }
    (s.setState s.run blockState).runFirst
  else .ok s

/-- How the running task waits for an object: it is put into the list of the object and blocked. -/
def waitFor [Fintype τ] (s : Sched τ ι) (o : Obj ι) (timeout : ℕ) : Except Fault (Sched τ ι) := do
  let l ← s.links.chainIn s.prio o s.run
  { s with links := l }.rtBlock timeout o.waitState

/-- How the first task that waits for an object is taken out of the lists. -/
def takeWaiter (s : Sched τ ι) (o : Obj ι) : Except Fault (τ × Sched τ ι) := do
  let r ← s.rtGetFirst (.obj o)
  return (r.1, r.2.rtRmvDly r.1)

/-- How a task becomes ready without being dispatched. -/
def makeReady [Fintype τ] (s : Sched τ ι) (t : τ) : Except Fault (Sched τ ι) :=
  (s.setState t .ready).rtPutPrio .rdy t

/-- The start of the interrupt handlers of the kernel: the running task is suspended. -/
def suspend (s : Sched τ ι) : Sched τ ι := (s.setState s.run .ready).rtPutRdyFirst s.run

/-- `rt_tsk_pass`: let a task of the same priority run. -/
def rtTskPass [Fintype τ] (s : Sched τ ι) : Except Fault (Sched τ ι) := do
  let r ← s.links.rtGetSameRdyPrio s.prio (s.prio s.run)
  let s := { s with links := r.2 }
  match r.1 with
  | none => return s
  | some new =>
    let s ← s.rtPutPrio .rdy s.run
    return (s.setState s.run .ready).rtSwitchReq new

/-- The running task is preempted: it becomes ready, and the highest ready task runs. -/
def preempt [Fintype τ] (s : Sched τ ι) : Except Fault (Sched τ ι) := do
  let s ← s.rtPutPrio .rdy s.run
  (s.setState s.run .ready).rtDispatch none

/-- The end of several functions: the running task is preempted if the priority of the first ready
task, `rdyPrio`, is higher. -/
def giveWay [Fintype τ] (s : Sched τ ι) (rdyPrio : ℕ) : Except Fault (Sched τ ι) :=
  if rdyPrio > s.prio s.run then s.preempt else .ok s

/-- The same where there may be no ready task. -/
def giveWayIfAny [Fintype τ] (s : Sched τ ι) : Except Fault (Sched τ ι) :=
  match s.links.lnk .rdy with
  | none => .ok s
  | some first => s.giveWay (s.prio first)

/-- The end of `rt_mut_release`: the task to which the mutex is handed over is dispatched, or both
it and the running task give way to a ready task of a higher priority. -/
def handOver [Fintype τ] (s : Sched τ ι) (t : τ) : Except Fault (Sched τ ι) := do
  let rdy ← s.rtRdyPrio
  if s.prio s.run ≥ rdy then s.rtDispatch (some t)
  else do
    let s ← s.rtPutPrio .rdy s.run
    let s ← s.rtPutPrio .rdy t
    ((s.setState s.run .ready).setState t .ready).rtDispatch none

/-- `rt_tsk_prio`, with `none` for the calling task; the result says if the task was found. -/
def rtTskPrio [Fintype τ] (s : Sched τ ι) (taskId : Option τ) (newPrio : ℕ) :
    Except Fault (Bool × Sched τ ι) :=
  let t := taskId.getD s.run
  let s' := { s with prio := Function.update s.prio t newPrio }
  if taskId ≠ none ∧ s.state t = .inactive then .ok (false, s)
  else if t = s.run then do
    return (true, ← s'.giveWay (← s'.rtRdyPrio))
  else do
    let s' ← s'.rtResortPrio t
    if s'.state t = .ready then
      let r ← s'.rtGetFirst .rdy
      return (true, ← r.2.rtDispatch (some r.1))
    else return (true, s')

/-- `rt_chk_robin`: switch to the next ready task if the round robin time-out has expired. -/
def rtChkRobin [Fintype τ] (s : Sched τ ι) : Except Fault (Sched τ ι) :=
  let s :=
    if s.robinTask ≠ s.links.lnk .rdy then
      { s with
        robinTask := s.links.lnk .rdy
        robinTime := (s.time % 0x10000 + osRobintout - 1) % 0x10000 }
    else s
  if s.robinTime = s.time % 0x10000 then do
    let r ← { s with robinTask := none }.rtGetFirst .rdy
    r.2.rtPutPrio .rdy r.1
  else .ok s

/-- The loop of `rt_dec_dly`: the tasks that are due are removed from the lists in which they wait
and become ready. -/
def rtDecDlyLoop [Fintype τ] : ℕ → Sched τ ι → Except Fault (Sched τ ι)
  | 0, _ => .error .diverges
  | fuel + 1, s =>
    match s.delays.dlnk none with
    | none => .ok s
    | some rdy =>
      if s.delays.delta none = 0 then do
        let s ← { s with links := s.links.rmvWaiting rdy }.rtPutPrio .rdy rdy
        rtDecDlyLoop fuel
          { s with delays := s.delays.takeFirst rdy, state := Function.update s.state rdy .ready }
      else .ok s

/-- `rt_dec_dly`: a tick for the delay list. -/
def rtDecDly [Fintype τ] (s : Sched τ ι) : Except Fault (Sched τ ι) :=
  if s.delays.dlnk none = none then .ok s
  else rtDecDlyLoop (Fintype.card τ + 1) { s with delays := s.delays.decHead }

/-- What `rt_systick` does to the tasks. -/
def systick [Fintype τ] (s : Sched τ ι) : Except Fault (Sched τ ι) := do
  let s ← s.suspend.rtChkRobin
  let s ← { s with time := (s.time + 1) % 0x100000000 }.rtDecDly
  s.runFirst

end Sched

/-! ### Places -/

section places

variable {τ ι : Type}

/-- The place of a task fits its state: the list in which it is, if any, and whether it is in the
delay list. -/
def Fits (st : TcbState) (pos : Option (Option (Obj ι))) (timed : Prop) : Prop :=
  match st with
  | .inactive => pos = none ∧ ¬ timed
  | .ready => pos = some none ∧ ¬ timed
  | .running => False
  | .waitDly | .waitOr | .waitAnd => pos = none
  | st => ∃ o, pos = some (some o) ∧ o.waitState = st

theorem fits_waitState (o : Obj ι) (timed : Prop) : Fits o.waitState (some (some o)) timed := by
  cases o <;> exact ⟨_, rfl, rfl⟩

variable {st : TcbState} {pos : Option (Option (Obj ι))} {timed timed' : Prop} {o : Obj ι}

theorem Fits.congr (h : Fits st pos timed) (htimed : timed' ↔ timed) : Fits st pos timed' :=
  propext htimed ▸ h

/-- Only ready tasks are in the ready list. -/
theorem Fits.ready (h : Fits st (some (none : Option (Obj ι))) timed) :
    st = .ready ∧ ¬ timed := by
  cases st <;> simp_all [Fits]

/-- A task in a waiting list waits for the object. -/
theorem Fits.waitState (h : Fits st (some (some o)) timed) : st = o.waitState := by
  cases st <;> simp_all [Fits]

variable [DecidableEq τ] [DecidableEq ι]

/-- **Every task has its place**, but for the tasks `X` in hand: the lists are `q`, the delay list
is `d`, and `pos` tells in which list a task is. -/
structure Placed (l : Links τ (Obj ι)) (dl : Delays τ) (prio : τ → ℕ) (st : τ → TcbState)
    (idle : τ) (q : Option (Obj ι) → List τ) (d : List (τ × ℕ)) (pos : τ → Option (Option (Obj ι)))
    (X : List τ) : Prop where
  links : l.Rep q
  delays : dl.Rep d
  mem_iff : ∀ t h, t ∈ q h ↔ pos t = some h
  /-- The lists are ordered by priority. -/
  sorted : ∀ h, Ascending (rank prio) (q h)
  fits : ∀ t ∉ X, Fits (st t) (pos t) (t ∈ d.map Prod.fst)
  out : ∀ t ∈ X, pos t = none ∧ t ∉ d.map Prod.fst
  /-- The idle demon never waits. -/
  idle_ready : idle ∉ X → st idle = .ready

namespace Placed

variable {l l' : Links τ (Obj ι)} {dl dl' : Delays τ} {prio : τ → ℕ} {st : τ → TcbState} {i t u : τ}
  {q : Option (Obj ι) → List τ} {d d' : List (τ × ℕ)} {pos : τ → Option (Option (Obj ι))}
  {X xs ys : List τ} {hd : Option (Obj ι)} {o : Obj ι}

omit [DecidableEq τ] [DecidableEq ι] in
/-- A task that is in hand is in no list. -/
theorem notMem (h : Placed l dl prio st i q d pos (t :: X)) (hd : Option (Obj ι)) : t ∉ q hd := by
  rw [h.mem_iff, (h.out t List.mem_cons_self).1]
  nofun

omit [DecidableEq τ] [DecidableEq ι] in
/-- A task that is in a list is not in hand. -/
theorem notMem_of_pos (h : Placed l dl prio st i q d pos X) (ht : pos t = some hd) : t ∉ X := by
  intro hX
  rw [(h.out t hX).1] at ht
  cases ht

/-- **A task is put back** into a list. -/
theorem put {stt : TcbState} (h : Placed l dl prio st i q d pos (t :: X)) (ht : t ∉ X)
    (hrep : l'.Rep (Function.update q hd xs)) (hmem : ∀ u, u ∈ xs ↔ u = t ∨ u ∈ q hd)
    (hsorted : Ascending (rank prio) xs) (hdl : dl'.Rep d')
    (hd' : ∀ u, u ≠ t → (u ∈ d'.map Prod.fst ↔ u ∈ d.map Prod.fst))
    (hfits : Fits stt (some hd) (t ∈ d'.map Prod.fst)) (hidle : t = i → stt = .ready) :
    Placed l' dl' prio (Function.update st t stt) i (Function.update q hd xs) d'
      (Function.update pos t (some hd)) X := by
  refine ⟨hrep, hdl, fun u h' => ?_, fun h' => ?_, fun u hu => ?_, fun u hu => ?_,
    fun hi => ?_⟩
  · by_cases hne : h' = hd
    · subst hne
      rw [Function.update_self, hmem]
      by_cases hut : u = t
      · subst hut
        rw [Function.update_self]
        exact iff_of_true (Or.inl rfl) rfl
      · rw [Function.update_of_ne hut, ← h.mem_iff]
        exact or_iff_right hut
    · rw [Function.update_of_ne hne]
      by_cases hut : u = t
      · subst hut
        rw [Function.update_self]
        exact iff_of_false (h.notMem h') fun heq => hne (Option.some.inj heq).symm
      · rw [Function.update_of_ne hut, h.mem_iff]
  · by_cases hne : h' = hd
    · subst hne
      rwa [Function.update_self]
    · rw [Function.update_of_ne hne]
      exact h.sorted h'
  · by_cases hut : u = t
    · subst hut
      rwa [Function.update_self, Function.update_self]
    · rw [Function.update_of_ne hut, Function.update_of_ne hut]
      exact (h.fits u fun hmem => (List.mem_cons.1 hmem).elim hut hu).congr (hd' u hut)
  · have hut : u ≠ t := ne_of_mem_of_not_mem hu ht
    rw [Function.update_of_ne hut, hd' u hut]
    exact h.out u (List.mem_cons_of_mem _ hu)
  · by_cases hit : i = t
    · rw [hit, Function.update_self]
      exact hidle hit.symm
    · rw [Function.update_of_ne hit]
      exact h.idle_ready fun hmem => (List.mem_cons.1 hmem).elim hit hi

/-- **A task is taken in hand.** -/
theorem take (h : Placed l dl prio st i q d pos X) (hq : q hd = xs ++ t :: ys)
    (hrep : l'.Rep (Function.update q hd (xs ++ ys))) (hdl : dl'.Rep d')
    (hd' : ∀ u, u ≠ t → (u ∈ d'.map Prod.fst ↔ u ∈ d.map Prod.fst)) (ht : t ∉ d'.map Prod.fst) :
    Placed l' dl' prio st i (Function.update q hd (xs ++ ys)) d' (Function.update pos t none)
      (t :: X) := by
  have hpos : pos t = some hd := (h.mem_iff t hd).1 (by rw [hq]; simp)
  have hnodup := h.links.nodup hd
  rw [hq] at hnodup
  refine ⟨hrep, hdl, fun u h' => ?_, fun h' => ?_, fun u hu => ?_, fun u hu => ?_,
    fun hi => h.idle_ready fun hmem => hi (List.mem_cons_of_mem _ hmem)⟩
  · by_cases hut : u = t
    · subst hut
      rw [Function.update_self]
      refine iff_of_false (fun hmem => ?_) nofun
      by_cases hne : h' = hd
      · subst hne
        rw [Function.update_self] at hmem
        exact (List.nodup_cons.1 (List.nodup_middle.1 hnodup)).1 hmem
      · rw [Function.update_of_ne hne, h.mem_iff, hpos] at hmem
        exact hne (Option.some.inj hmem).symm
    · rw [Function.update_of_ne hut, ← h.mem_iff]
      by_cases hne : h' = hd
      · subst hne
        rw [Function.update_self, hq]
        simp [hut]
      · rw [Function.update_of_ne hne]
  · by_cases hne : h' = hd
    · subst hne
      rw [Function.update_self]
      refine (h.sorted h').sublist ?_
      rw [hq]
      exact List.Sublist.append_left (List.sublist_cons_self ..) xs
    · rw [Function.update_of_ne hne]
      exact h.sorted h'
  · rw [List.mem_cons, not_or] at hu
    rw [Function.update_of_ne hu.1]
    exact (h.fits u hu.2).congr (hd' u hu.1)
  · by_cases hut : u = t
    · subst hut
      exact ⟨Function.update_self .., ht⟩
    · rw [Function.update_of_ne hut, hd' u hut]
      exact h.out u ((List.mem_cons.1 hu).resolve_left hut)

/-- A task in hand becomes ready. -/
theorem putReady [Fintype τ] (h : Placed l dl prio st i q d pos (t :: X)) (ht : t ∉ X) :
    ∃ l', l.rtPutPrio prio .rdy t = .ok l' ∧
      Placed l' dl prio (Function.update st t .ready) i
        (Function.update q none (insertLast (rank prio) t (q none))) d
        (Function.update pos t (some none)) X := by
  obtain ⟨l', hl', hrep⟩ := h.links.rtPutPrio prio none h.notMem
  refine ⟨l', hl', h.put ht hrep (fun u => mem_insertLast) (h.sorted none).insertLast h.delays
    (fun _ _ => Iff.rfl) ⟨rfl, (h.out t List.mem_cons_self).2⟩ fun _ => rfl⟩

/-- A task of the highest priority becomes ready, in front of the others. -/
theorem putFirst (h : Placed l dl prio st i q d pos (t :: X)) (ht : t ∉ X)
    (htop : ∀ u, pos u = some none → prio u ≤ prio t) :
    Placed (l.rtPutRdyFirst t) dl prio (Function.update st t .ready) i
      (Function.update q none (t :: q none)) d (Function.update pos t (some none)) X := by
  refine h.put ht (h.links.rtPutRdyFirst h.notMem) (fun u => List.mem_cons) ?_ h.delays
    (fun _ _ => Iff.rfl) ⟨rfl, (h.out t List.mem_cons_self).2⟩ fun _ => rfl
  exact List.pairwise_cons.2 ⟨fun u hu => htop u ((h.mem_iff u none).1 hu), h.sorted none⟩

omit [DecidableEq ι] in
/-- The tasks with a time-out, without one of them. -/
theorem mem_others (ht : u ≠ t) :
    u ∈ (d.filter fun e => e.1 ≠ t).map Prod.fst ↔ u ∈ d.map Prod.fst := by
  simp only [List.mem_map, List.mem_filter, decide_eq_true_eq]
  constructor
  · rintro ⟨e, ⟨he, -⟩, rfl⟩
    exact ⟨e, he, rfl⟩
  · rintro ⟨e, he, rfl⟩
    exact ⟨e, ⟨he, ht⟩, rfl⟩

omit [DecidableEq ι] in
theorem notMem_others : t ∉ (d.filter fun e => e.1 ≠ t).map Prod.fst := by
  simp

omit [DecidableEq τ] [DecidableEq ι] in
/-- While the idle demon is not in hand, a task is ready. -/
theorem ready_ne_nil (h : Placed l dl prio st i q d pos X) (hi : i ∉ X) : q none ≠ [] := by
  have hfits := h.fits i hi
  rw [h.idle_ready hi] at hfits
  exact List.ne_nil_of_mem ((h.mem_iff i none).2 hfits.1)

/-- The highest ready task is taken. -/
theorem getReady (h : Placed l dl prio st i q d pos X) (hne : q none ≠ []) :
    ∃ t xs l', q none = t :: xs ∧ l.rtGetFirst .rdy = .ok (t, l') ∧
      (∀ u, pos u = some none → prio u ≤ prio t) ∧ t ∉ X ∧ st t = .ready ∧
      Placed l' dl prio st i (Function.update q none xs) d (Function.update pos t none) (t :: X) := by
  obtain ⟨t, xs, hq⟩ := List.exists_cons_of_ne_nil hne
  obtain ⟨l', hl', hrep⟩ := h.links.rtGetFirst hq
  have hpos : pos t = some none := (h.mem_iff t none).1 (hq ▸ List.mem_cons_self)
  have htX := h.notMem_of_pos hpos
  have hfits := h.fits t htX
  rw [hpos] at hfits
  have hsorted := h.sorted none
  rw [hq] at hsorted
  refine ⟨t, xs, l', hq, hl', fun u hu => ?_, htX, hfits.ready.1,
    h.take (show q none = [] ++ t :: xs from hq) hrep h.delays (fun _ _ => Iff.rfl) hfits.ready.2⟩
  have hmem := (h.mem_iff u none).2 hu
  rw [hq] at hmem
  cases hmem with
  | head => exact le_rfl
  | tail _ hmem => exact hsorted.head_le u hmem

/-- The first task that waits for an object is taken, also out of the delay list. -/
theorem getFirst (h : Placed l dl prio st i q d pos X) (hq : q (some o) = t :: xs) :
    ∃ l', l.rtGetFirst (.obj o) = .ok (t, l') ∧ t ∉ X ∧ st t = o.waitState ∧
      (∀ u, pos u = some (some o) → prio u ≤ prio t) ∧
      Placed l' (dl.rtRmvDly t) prio st i (Function.update q (some o) xs)
        (d.filter fun e => e.1 ≠ t) (Function.update pos t none) (t :: X) := by
  obtain ⟨l', hl', hrep⟩ := h.links.rtGetFirst hq
  have hpos : pos t = some (some o) := (h.mem_iff t (some o)).1 (hq ▸ List.mem_cons_self)
  have htX := h.notMem_of_pos hpos
  have hfits := h.fits t htX
  rw [hpos] at hfits
  have hsorted := h.sorted (some o)
  rw [hq] at hsorted
  refine ⟨l', hl', htX, hfits.waitState, fun u hu => ?_,
    h.take (show q (some o) = [] ++ t :: xs from hq) hrep (h.delays.rtRmvDly t)
      (fun _ => mem_others) notMem_others⟩
  have hmem := (h.mem_iff u (some o)).2 hu
  rw [hq] at hmem
  cases hmem with
  | head => exact le_rfl
  | tail _ hmem => exact hsorted.head_le u hmem

omit [DecidableEq τ] [DecidableEq ι] in
/-- A task that waits in no list is taken out of the delay list. -/
theorem hold (h : Placed l dl prio st i q d pos X) (hpos : pos t = none) (hdl : dl'.Rep d')
    (hd' : ∀ u, u ≠ t → (u ∈ d'.map Prod.fst ↔ u ∈ d.map Prod.fst)) (ht : t ∉ d'.map Prod.fst) :
    Placed l dl' prio st i q d' pos (t :: X) := by
  refine ⟨h.links, hdl, h.mem_iff, h.sorted, fun u hu => ?_, fun u hu => ?_,
    fun hi => h.idle_ready fun hmem => hi (List.mem_cons_of_mem _ hmem)⟩
  · rw [List.mem_cons, not_or] at hu
    exact (h.fits u hu.2).congr (hd' u hu.1)
  · by_cases hut : u = t
    · subst hut
      exact ⟨hpos, ht⟩
    · have hout := h.out u ((List.mem_cons.1 hu).resolve_left hut)
      exact ⟨hout.1, fun hmem => hout.2 ((hd' u hut).1 hmem)⟩

/-- The delay list after a task has blocked with a time-out. -/
def delayed (t : τ) (timeout : ℕ) (d : List (τ × ℕ)) : List (τ × ℕ) :=
  if timeout < 0xFFFF then insertFirst Prod.snd (t, timeout) d else d

omit [DecidableEq ι] in
/-- The delay list, when a task blocks. -/
theorem putDly [Fintype τ] (h : dl.Rep d) (ht : t ∉ d.map Prod.fst) (timeout : ℕ) :
    ∃ dl', dl.putTimeout t timeout = .ok dl' ∧
      dl'.Rep (delayed t timeout d) ∧
      ∀ u, u ≠ t → (u ∈ (delayed t timeout d).map Prod.fst ↔ u ∈ d.map Prod.fst) := by
  by_cases hlt : timeout < 0xFFFF
  · obtain ⟨dl', hdl', hrep⟩ := h.rtPutDly ht hlt.le
    simp only [delayed, Delays.putTimeout, if_pos hlt]
    refine ⟨dl', hdl', hrep, fun u hu => ?_⟩
    simp only [List.mem_map, mem_insertFirst]
    constructor
    · rintro ⟨e, rfl | he, rfl⟩
      · exact absurd rfl hu
      · exact ⟨e, he, rfl⟩
    · rintro ⟨e, he, rfl⟩
      exact ⟨e, Or.inr he, rfl⟩
  · have hsame : delayed t timeout d = d := if_neg hlt
    rw [hsame, Delays.putTimeout, if_neg hlt]
    exact ⟨dl, rfl, h, fun _ _ => Iff.rfl⟩

/-- A task in hand waits for an object. -/
theorem wait [Fintype τ] (h : Placed l dl prio st i q d pos (t :: X)) (ht : t ∉ X) (hi : t ≠ i)
    (o : Obj ι) (timeout : ℕ) :
    ∃ l' dl', l.chainIn prio o t = .ok l' ∧
      dl.putTimeout t timeout = .ok dl' ∧
      Placed l' dl' prio (Function.update st t o.waitState) i
        (Function.update q (some o) (insertLast (rank prio) t (q (some o)))) (delayed t timeout d)
        (Function.update pos t (some (some o))) X := by
  obtain ⟨l', hl', hrep⟩ := h.links.chainIn prio o h.notMem
  obtain ⟨dl', hdl', hrepd, hd⟩ := putDly h.delays (h.out t List.mem_cons_self).2 timeout
  exact ⟨l', dl', hl', hdl', h.put ht hrep (fun u => mem_insertLast) (h.sorted (some o)).insertLast
    hrepd hd (fits_waitState o _) fun heq => absurd heq hi⟩

omit [DecidableEq ι] in
/-- A task in hand waits in no list. -/
theorem block [Fintype τ] {stt : TcbState} (h : Placed l dl prio st i q d pos (t :: X))
    (ht : t ∉ X) (hi : t ≠ i) (timeout : ℕ)
    (hfits : ∀ timed, Fits stt (none : Option (Option (Obj ι))) timed) :
    ∃ dl', dl.putTimeout t timeout = .ok dl' ∧
      Placed l dl' prio (Function.update st t stt) i q (delayed t timeout d) pos X := by
  obtain ⟨dl', hdl', hrepd, hd⟩ := putDly h.delays (h.out t List.mem_cons_self).2 timeout
  refine ⟨dl', hdl', h.links, hrepd, h.mem_iff, h.sorted, fun u hu => ?_, fun u hu => ?_,
    fun hiX => ?_⟩
  · by_cases hut : u = t
    · subst hut
      rw [Function.update_self, (h.out u List.mem_cons_self).1]
      exact hfits _
    · rw [Function.update_of_ne hut]
      exact (h.fits u fun hmem => (List.mem_cons.1 hmem).elim hut hu).congr (hd u hut)
  · rw [hd u (ne_of_mem_of_not_mem hu ht)]
    exact h.out u (List.mem_cons_of_mem _ hu)
  · rw [Function.update_of_ne hi.symm]
    exact h.idle_ready fun hmem => (List.mem_cons.1 hmem).elim (fun heq => hi heq.symm) hiX

omit [DecidableEq ι] in
/-- The order of a list, when the priority of a task has changed that is not in it. -/
theorem ascending_update {p : ℕ} (h : Ascending (rank prio) xs) (ht : t ∉ xs) :
    Ascending (rank (Function.update prio t p)) xs := by
  refine List.Pairwise.imp_of_mem (fun {a b} ha hb hab => ?_) h
  simpa only [rank, Function.update_of_ne (ne_of_mem_of_not_mem ha ht),
    Function.update_of_ne (ne_of_mem_of_not_mem hb ht)] using hab

omit [DecidableEq ι] in
/-- The priority of a task changes that is in no list. -/
theorem setPrio (h : Placed l dl prio st i q d pos X) (hpos : pos t = none) (p : ℕ) :
    Placed l dl (Function.update prio t p) st i q d pos X := by
  refine ⟨h.links, h.delays, h.mem_iff, fun h' => ascending_update (h.sorted h') ?_, h.fits, h.out,
    h.idle_ready⟩
  rw [h.mem_iff, hpos]
  nofun

/-- **The priority of a task changes**, and the list in which it is, if any, is sorted again. -/
theorem resort [Fintype τ] (h : Placed l dl prio st i q d pos X) (ht : t ∉ X) (p : ℕ) :
    ∃ l' q', l.rtResortPrio (Function.update prio t p) (st t = .ready) t = .ok l' ∧
      (∀ h', (q' h').Perm (q h')) ∧ Placed l' dl (Function.update prio t p) st i q' d pos X := by
  have hfits := h.fits t ht
  cases hpos : pos t with
  | none =>
    have hrlnk : l.rlnk t = none := h.links.free t fun o hmem => by
      rw [h.mem_iff, hpos] at hmem
      cases hmem
    have hready : ¬ st t = .ready := by
      intro hready
      rw [hready, hpos] at hfits
      cases hfits.1
    refine ⟨l, q, ?_, fun _ => List.Perm.refl _, h.setPrio hpos p⟩
    rw [Links.rtResortPrio, hrlnk]
    simp [hready]
  | some hd =>
    obtain ⟨xs, ys, hq⟩ := List.append_of_mem ((h.mem_iff t hd).2 hpos)
    have hready : decide (st t = .ready) = hd.isNone := by
      rw [hpos] at hfits
      cases hd with
      | none => simpa using hfits.ready.1
      | some o =>
        rw [hfits.waitState]
        cases o <;> rfl
    obtain ⟨l', hl', hrep⟩ := h.links.rtResortPrio (Function.update prio t p) hq hready
    have hperm : (insertLast (rank (Function.update prio t p)) t (xs ++ ys)).Perm (q hd) := by
      rw [hq]
      exact perm_insertLast.trans List.perm_middle.symm
    have hperms : ∀ h', (Function.update q hd
        (insertLast (rank (Function.update prio t p)) t (xs ++ ys)) h').Perm (q h') := by
      intro h'
      by_cases hne : h' = hd
      · rw [hne, Function.update_self]
        exact hperm
      · rw [Function.update_of_ne hne]
    refine ⟨l', _, hl', hperms, hrep, h.delays, fun u h' => ?_, fun h' => ?_, h.fits, h.out,
      h.idle_ready⟩
    · rw [(hperms h').mem_iff, h.mem_iff]
    · by_cases hne : h' = hd
      · subst hne
        rw [Function.update_self]
        have hnodup := h.links.nodup h'
        have hsorted := h.sorted h'
        rw [hq] at hnodup hsorted
        refine (ascending_update (hsorted.sublist ?_) ?_).insertLast
        · exact List.Sublist.append_left (List.sublist_cons_self ..) xs
        · exact (List.nodup_cons.1 (List.nodup_middle.1 hnodup)).1
      · rw [Function.update_of_ne hne]
        refine ascending_update (h.sorted h') ?_
        rw [h.mem_iff, hpos]
        exact fun heq => hne (Option.some.inj heq).symm

omit [DecidableEq ι] in
/-- A list without one of its tasks. -/
theorem filter_ne_append (h : (xs ++ t :: ys).Nodup) :
    (xs ++ t :: ys).filter (fun u => u ≠ t) = xs ++ ys := by
  have ht := (List.nodup_cons.1 (List.nodup_middle.1 h)).1
  rw [List.mem_append, not_or] at ht
  have hne : ∀ {zs : List τ}, t ∉ zs → zs.filter (fun u => u ≠ t) = zs := fun hzs =>
    List.filter_eq_self.2 fun u hu => decide_eq_true (ne_of_mem_of_not_mem hu hzs)
  rw [List.filter_append, List.filter_cons_of_neg (by simp), hne ht.1, hne ht.2]

/-- The first task of the delay list becomes ready when it is due. -/
theorem wakeFirst [Fintype τ] (h : Placed l dl prio st i q ((t, 0) :: d) pos X) :
    ∃ l', (l.rmvWaiting t).rtPutPrio prio .rdy t = .ok l' ∧ t ∉ X ∧ pos t ≠ some none ∧
      ∃ q', (∀ o, q' (some o) = (q (some o)).filter fun u => u ≠ t) ∧
        q' none = insertLast (rank prio) t (q none) ∧
        Placed l' (dl.takeFirst t) prio (Function.update st t .ready) i q' d
          (Function.update pos t (some none)) X := by
  have htX : t ∉ X := fun hX => (h.out t hX).2 List.mem_cons_self
  have hfits := h.fits t htX
  have hready : pos t ≠ some none := by
    intro hpos
    rw [hpos] at hfits
    exact hfits.ready.2 List.mem_cons_self
  have hd : ∀ u, u ≠ t → (u ∈ d.map Prod.fst ↔ u ∈ ((t, 0) :: d).map Prod.fst) := fun u hu =>
    ⟨List.mem_cons_of_mem _, fun hmem => (List.mem_cons.1 hmem).resolve_left hu⟩
  have htd : t ∉ d.map Prod.fst := (List.nodup_cons.1 h.delays.nodup).1
  have hother : ∀ h', pos t ≠ some h' → (q h').filter (fun u => u ≠ t) = q h' := by
    intro h' hne
    refine List.filter_eq_self.2 fun u hu => decide_eq_true ?_
    rintro rfl
    exact hne ((h.mem_iff u h').1 hu)
  cases hpos : pos t with
  | none =>
    have hfree : l.rmvWaiting t = l := h.links.rmvWaiting_of_free fun o hmem => by
      rw [h.mem_iff, hpos] at hmem
      cases hmem
    obtain ⟨l', hl', hput⟩ := (h.hold hpos h.delays.takeFirst hd htd).putReady htX
    rw [hfree]
    refine ⟨l', hl', htX, nofun, _, fun o => ?_, Function.update_self .., hput⟩
    rw [hother (some o) (by rw [hpos]; nofun)]
    exact Function.update_of_ne (Option.some_ne_none o) ..
  | some hd' =>
    obtain ⟨o, rfl⟩ := Option.ne_none_iff_exists'.1 fun hnone => hready (hpos.trans (hnone ▸ rfl))
    obtain ⟨xs, ys, hq⟩ := List.append_of_mem ((h.mem_iff t (some o)).2 hpos)
    have htake := h.take hq (h.links.rmvWaiting hq) h.delays.takeFirst hd htd
    obtain ⟨l', hl', hput⟩ := htake.putReady htX
    rw [Function.update_of_ne (Option.some_ne_none o).symm, Function.update_idem] at hput
    refine ⟨l', hl', htX, by simp, _, fun o' => ?_, Function.update_self .., hput⟩
    rw [Function.update_of_ne (Option.some_ne_none o')]
    by_cases ho : o' = o
    · subst ho
      have hnodup := h.links.nodup (some o')
      rw [hq] at hnodup
      rw [Function.update_self, hq, filter_ne_append hnodup]
    · rw [Function.update_of_ne (fun heq => ho (Option.some.inj heq)), hother (some o')]
      rw [hpos]
      exact fun heq => ho (Option.some.inj (Option.some.inj heq)).symm

end Placed

end places

end Rtx

end UavTelemetry
