import Mathlib.Data.Fintype.Basic
import UavTelemetry.Data.Countdown
import UavTelemetry.Data.Path
import UavTelemetry.Rtx.Timer

/-!
# The list of running timers

The kernel chains the control blocks of the running timers in the order in which they expire.  A
block holds the ticks that pass between the expiry of the timer before it and its own, so that a
tick of the system decrements the first block only.  This file translates the list and the service
calls on it (`rt_CMSIS.c`) down to the pointers, and shows what each of them does to the sequence
of running timers that the blocks represent.

## Main definitions

* `TimerMem` : the timer control blocks and `os_timer_head`.
* `TimerMem.rtTimerInsert`, `TimerMem.rtTimerRemove` : the list operations.
* `TimerMem.svcTimerCreate`, `TimerMem.svcTimerStart`, `TimerMem.svcTimerStop`,
  `TimerMem.svcTimerDelete`, `TimerMem.sysTimerTick` : the service calls and the tick.
* `TimerMem.Rep` : the blocks represent a queue of countdowns.

## Main results

* `TimerMem.Rep.rtTimerInsert`, `TimerMem.Rep.rtTimerRemove` : the list operations insert and
  remove an entry of the queue.
* `TimerMem.Rep.sysTimerTick` : a tick lets all entries count down and visits those that are due.
-/

namespace UavTelemetry

namespace Rtx

/-- The sum of two `uint16_t`. -/
def addU16 (a b : ℕ) : ℕ := (a + b) % 0x10000

/-- The difference of two `uint16_t`. -/
def subU16 (a b : ℕ) : ℕ := (a + 0x10000 - b) % 0x10000

/-- The states of a timer. -/
inductive TimerState
  | osTimerInvalid
  | osTimerStopped
  | osTimerRunning
  deriving DecidableEq, Repr

/-- `os_timer_type`. -/
inductive OsTimerType
  | osTimerOnce
  | osTimerPeriodic
  deriving DecidableEq, Repr

/-- The statuses that the service calls for timers return. -/
inductive TimerStatus
  | osOK
  | osErrorParameter
  | osErrorResource
  | osErrorValue
  deriving DecidableEq, Repr

/-- The timer control blocks, each field on its own. -/
structure TimerMem (τ : Type) where
  /-- Pointer to the next active timer: `os_timer_head` at `none`, `pt->next` at `some pt`. -/
  next : Option τ → Option τ
  /-- Timer state. -/
  state : τ → TimerState
  /-- Timer type. -/
  type : τ → OsTimerType
  /-- Timer delay count. -/
  tcnt : τ → ℕ
  /-- Timer initial count. -/
  icnt : τ → ℕ

namespace TimerMem

variable {τ : Type} [DecidableEq τ] [Fintype τ]

/-- The control blocks before the first timer is created. -/
def init : TimerMem τ :=
  ⟨fun _ => none, fun _ => .osTimerInvalid, fun _ => .osTimerOnce, fun _ => 0, fun _ => 0⟩

/-- The condition of the loop in `rt_timer_insert`, with the count that is left. -/
def insertAdv (m : TimerMem τ) (tcnt : ℕ) (p : τ) : Option ℕ :=
  if tcnt < m.tcnt p then none else some (tcnt - m.tcnt p)

/-- The end of `rt_timer_insert`: the timer is chained behind `prev` with the count that is
left. -/
def insertBehind (m : TimerMem τ) (pt : τ) (tcnt : ℕ) (prev : Option τ) : TimerMem τ :=
  let p := m.next prev
  let next := Function.update m.next (some pt) p
  let cnt := Function.update m.tcnt pt (tcnt % 0x10000)
  { m with
    tcnt := match p with
      | none => cnt
      | some p => Function.update cnt p (subU16 (cnt p) (cnt pt))
    next := Function.update next prev (some pt) }

/-- `rt_timer_insert`: insert the timer into the list sorted by time. -/
def rtTimerInsert (m : TimerMem τ) (pt : τ) (tcnt : ℕ) : Except Fault (TimerMem τ) :=
  (walk some m.next m.insertAdv (Fintype.card τ + 1) tcnt none).map fun r =>
    m.insertBehind pt r.1 r.2

/-- The end of `rt_timer_remove`: the timer behind `prev` is taken out. -/
def removeBehind (m : TimerMem τ) (pt : τ) (prev : Option τ) : TimerMem τ :=
  { m with
    next := Function.update m.next prev (m.next (some pt))
    tcnt := match m.next (some pt) with
      | none => m.tcnt
      | some q => Function.update m.tcnt q (addU16 (m.tcnt q) (m.tcnt pt)) }

/-- `rt_timer_remove`: remove the timer from the list; the result says if it was there. -/
def rtTimerRemove (m : TimerMem τ) (pt : τ) : Except Fault (Bool × TimerMem τ) :=
  (walk some m.next (upTo pt) (Fintype.card τ + 1) () none).map fun r =>
    if m.next r.2 = none then (false, m) else (true, m.removeBehind pt r.2)

/-- `svcTimerCreate`: the result says if the timer was created. -/
def svcTimerCreate (m : TimerMem τ) (pt : τ) (type : OsTimerType) : Bool × TimerMem τ :=
  if m.state pt = .osTimerInvalid then
    (true,
      { m with
        state := Function.update m.state pt .osTimerStopped
        type := Function.update m.type pt type })
  else (false, m)

/-- `svcTimerStart`: start or restart the timer. -/
def svcTimerStart (m : TimerMem τ) (timerId : Option τ) (millisec : ℕ) :
    Except Fault (TimerStatus × TimerMem τ) :=
  match timerId with
  | none => .ok (.osErrorParameter, m)
  | some pt =>
    let tcnt := rtMs2tick millisec
    if tcnt = 0 then .ok (.osErrorValue, m)
    else
      match m.state pt with
      | .osTimerRunning => do
        let r ← m.rtTimerRemove pt
        if r.1 then return (.osOK, ← r.2.rtTimerInsert pt tcnt)
        else return (.osErrorResource, r.2)
      | .osTimerStopped => do
        let m :=
          { m with
            state := Function.update m.state pt .osTimerRunning
            icnt := Function.update m.icnt pt (tcnt % 0x10000) }
        return (.osOK, ← m.rtTimerInsert pt tcnt)
      | .osTimerInvalid => .ok (.osErrorResource, m)

/-- `svcTimerStop`: stop the timer. -/
def svcTimerStop (m : TimerMem τ) (timerId : Option τ) : Except Fault (TimerStatus × TimerMem τ) :=
  match timerId with
  | none => .ok (.osErrorParameter, m)
  | some pt =>
    if m.state pt ≠ .osTimerRunning then .ok (.osErrorResource, m)
    else do
      let m := { m with state := Function.update m.state pt .osTimerStopped }
      let r ← m.rtTimerRemove pt
      return (if r.1 then .osOK else .osErrorResource, r.2)

/-- `svcTimerDelete`: delete the timer. -/
def svcTimerDelete (m : TimerMem τ) (timerId : Option τ) :
    Except Fault (TimerStatus × TimerMem τ) :=
  match timerId with
  | none => .ok (.osErrorParameter, m)
  | some pt =>
    match m.state pt with
    | .osTimerRunning => do
      let r ← m.rtTimerRemove pt
      return (.osOK, { r.2 with state := Function.update r.2.state pt .osTimerInvalid })
    | .osTimerStopped =>
      .ok (.osOK, { m with state := Function.update m.state pt .osTimerInvalid })
    | .osTimerInvalid => .ok (.osErrorResource, m)

/-- What the loop of `sysTimerTick` does with a timer that expires, after its message. -/
def expire (m : TimerMem τ) (pt : τ) : Except Fault (TimerMem τ) :=
  match m.type pt with
  | .osTimerPeriodic => m.rtTimerInsert pt (m.icnt pt)
  | .osTimerOnce => .ok { m with state := Function.update m.state pt .osTimerStopped }

/-- The loop of `sysTimerTick`.  The result lists the timers for which `isrMessagePut` is called, in
this order.  The loop ignores what it returns; `Kernel.systickTimers` makes the calls. -/
def sysTimerTickLoop : ℕ → TimerMem τ → Option τ → Except Fault (List τ × TimerMem τ)
  | 0, _, _ => .error .diverges
  | _ + 1, m, none => .ok ([], m)
  | fuel + 1, m, some pt =>
    if m.tcnt pt = 0 then do
      let p := m.next (some pt)
      let m := { m with next := Function.update m.next none p }
      let m ← m.expire pt
      let r ← sysTimerTickLoop fuel m p
      return (pt :: r.1, r.2)
    else .ok ([], m)

/-- `sysTimerTick`: the timer tick, called in each tick of the system, with the timers for which it
calls `isrMessagePut`. -/
def sysTimerTick (m : TimerMem τ) : Except Fault (List τ × TimerMem τ) :=
  match m.next none with
  | none => .ok ([], m)
  | some p =>
    let m := { m with tcnt := Function.update m.tcnt p (subU16 (m.tcnt p) 1) }
    sysTimerTickLoop (Fintype.card τ + 1) m (some p)

end TimerMem

/-- The calls that reach the timers. -/
inductive TimerCall (τ : Type)
  | create (pt : τ) (type : OsTimerType)
  | start (timerId : Option τ) (millisec : ℕ)
  | stop (timerId : Option τ)
  | delete (timerId : Option τ)
  | tick
  deriving DecidableEq, Repr

/-- What the calls answer; a tick lists the timers that expire. -/
inductive TimerAnswer (τ : Type)
  | created (ok : Bool)
  | status (s : TimerStatus)
  | expired (pts : List τ)
  deriving DecidableEq, Repr

variable {τ : Type} [DecidableEq τ] [Fintype τ]

/-- A call on the timers. -/
def TimerMem.call (m : TimerMem τ) : TimerCall τ → Except Fault (TimerAnswer τ × TimerMem τ)
  | .create pt type =>
    let r := m.svcTimerCreate pt type
    .ok (.created r.1, r.2)
  | .start pt millisec => (m.svcTimerStart pt millisec).map fun r => (.status r.1, r.2)
  | .stop pt => (m.svcTimerStop pt).map fun r => (.status r.1, r.2)
  | .delete pt => (m.svcTimerDelete pt).map fun r => (.status r.1, r.2)
  | .tick => m.sysTimerTick.map fun r => (.expired r.1, r.2)

/-- The answers to a sequence of calls. -/
def TimerMem.answers : TimerMem τ → List (TimerCall τ) → Except Fault (List (TimerAnswer τ))
  | _, [] => .ok []
  | m, c :: cs => do
    let r ← m.call c
    return r.1 :: (← TimerMem.answers r.2 cs)

theorem subU16_of_le {a b : ℕ} (hle : b ≤ a) (ha : a ≤ 0xFFFF) : subU16 a b = a - b := by
  rw [subU16]
  omega

theorem addU16_of_le {a b : ℕ} (h : a + b ≤ 0xFFFF) : addU16 a b = a + b := by
  rw [addU16]
  omega

namespace TimerMem

/-! ### The list operations -/

/-- The running timers are chained in the order of `q`, with the ticks that are left for them. -/
structure Rep (m : TimerMem τ) (q : List (τ × ℕ)) : Prop where
  /-- The links. -/
  path : Path some m.next none (q.map Prod.fst) none
  /-- The counts. -/
  gaps : Gaps m.tcnt 0 q
  /-- All counts fit. -/
  le : ∀ e ∈ q, e.2 ≤ 0xFFFF

/-- The fields that the list operations leave as they are. -/
structure Same (m m' : TimerMem τ) : Prop where
  state : m'.state = m.state
  type : m'.type = m.type
  icnt : m'.icnt = m.icnt

variable {m : TimerMem τ} {q : List (τ × ℕ)} {pt : τ} {t b : ℕ}

omit [DecidableEq τ] [Fintype τ] in
/-- The loop of `rt_timer_insert` passes the timers that expire no later. -/
theorem insertAdv_walk (h : Gaps m.tcnt b q) (hb : b ≤ t) :
    passed m.insertAdv (t - b) (q.map Prod.fst) = (q.takeWhile fun e => e.2 ≤ t).map Prod.fst ∧
      carried m.insertAdv (t - b) (q.map Prod.fst) =
        t - lastTime b (q.takeWhile fun e => e.2 ≤ t) := by
  induction q generalizing b with
  | nil => exact ⟨rfl, rfl⟩
  | cons e q ih =>
    have he : b + m.tcnt e.1 = e.2 := h.1
    by_cases hle : e.2 ≤ t
    · have hadv : m.insertAdv (t - b) e.1 = some (t - e.2) := by
        rw [insertAdv, if_neg (by omega), Nat.sub_sub, he]
      obtain ⟨hpassed, hcarried⟩ := ih h.2 hle
      rw [List.takeWhile_cons_of_pos (by simpa using hle)]
      simp only [List.map_cons, passed, carried, hadv, lastTime_cons, hpassed, hcarried, true_and]
    · have hadv : m.insertAdv (t - b) e.1 = none := by
        rw [insertAdv, if_pos (by omega)]
      rw [List.takeWhile_cons_of_neg (by simpa using hle)]
      simp only [List.map_cons, passed, carried, hadv, lastTime_nil, List.map_nil, true_and]

omit [DecidableEq τ] in
theorem Rep.length_lt (h : m.Rep q) : (q.map Prod.fst).length < Fintype.card τ + 1 :=
  Nat.lt_succ_of_le h.path.length_le

omit [DecidableEq τ] [Fintype τ] in
theorem Rep.nodup (h : m.Rep q) : (q.map Prod.fst).Nodup := h.path.nodup_nodes

omit [Fintype τ] in
theorem Rep.insertBehind {p r : List (τ × ℕ)} (h : m.Rep (p ++ r))
    (hpt : pt ∉ (p ++ r).map Prod.fst) (ht : t ≤ 0xFFFF) (hlast : lastTime 0 p ≤ t)
    (hafter : ∀ e ∈ r, t ≤ e.2) :
    (m.insertBehind pt (t - lastTime 0 p) (lastCell some none (p.map Prod.fst))).Rep
      (p ++ (pt, t) :: r) := by
  have hpath := h.path
  rw [List.map_append] at hpath hpt
  have hnext := hpath.next_lastCell
  have hmod : (t - lastTime 0 p) % 0x10000 = t - lastTime 0 p := Nat.mod_eq_of_lt (by omega)
  refine ⟨?_, ?_, ?_⟩
  · rw [List.map_append, List.map_cons]
    exact hpath.insert (by simpa using hpt)
  · simp only [TimerMem.insertBehind, hnext, hmod]
    rw [List.mem_append, not_or] at hpt
    cases r with
    | nil =>
      refine h.gaps.insert (Function.update_self ..) hlast (fun e he => nomatch he) fun e he => ?_
      have hne : e.1 ≠ pt := by
        rintro rfl
        exact hpt.1 (List.mem_map_of_mem (by simpa using he))
      exact Function.update_of_ne hne ..
    | cons e' r =>
      have hgap : lastTime 0 p + m.tcnt e'.1 = e'.2 := (gaps_append.1 h.gaps).2.1
      have hle := hafter e' List.mem_cons_self
      have hmax := h.le e' (List.mem_append_right _ List.mem_cons_self)
      have hne : e'.1 ≠ pt := by
        rintro rfl
        exact hpt.2 List.mem_cons_self
      have hsub : subU16 (m.tcnt e'.1) (t - lastTime 0 p) = m.tcnt e'.1 - (t - lastTime 0 p) :=
        subU16_of_le (by omega) (by omega)
      simp only [List.map_cons, headPtr_cons, Function.update_self, Function.update_of_ne hne, hsub]
      refine h.gaps.insert ?_ hlast (fun e he => ?_) fun e he => ?_
      · rw [Function.update_of_ne hne.symm, Function.update_self]
      · obtain rfl : e' = e := by simpa using he
        rw [Function.update_of_ne hne.symm, Function.update_self, Function.update_self]
        exact ⟨hle, rfl⟩
      · have hne' : e.1 ≠ e'.1 := ne_of_nodup_items h.nodup he
        have hnept : e.1 ≠ pt := by
          rintro rfl
          have hmem := List.mem_map_of_mem (f := Prod.fst) he
          rw [List.tail_cons, List.map_append, List.mem_append] at hmem
          exact hmem.elim hpt.1 fun hr => hpt.2 (List.mem_cons_of_mem _ hr)
        rw [Function.update_of_ne hne', Function.update_of_ne hnept]
  · intro e he
    have hmem : e ∈ (pt, t) :: (p ++ r) := List.perm_middle.mem_iff.1 he
    cases hmem with
    | head => exact ht
    | tail _ hmem => exact h.le e hmem

/-- **`rt_timer_insert` inserts a timer behind those that expire no later.** -/
theorem Rep.rtTimerInsert (h : m.Rep q) (hpt : pt ∉ q.map Prod.fst) (ht : t ≤ 0xFFFF) :
    ∃ m', m.rtTimerInsert pt t = .ok m' ∧ m'.Rep (insertLast Prod.snd (pt, t) q) ∧
      m.Same m' := by
  obtain ⟨hpassed, hcarried⟩ := insertAdv_walk h.gaps (Nat.zero_le t)
  have hwalk := walk_eq m.insertAdv t h.path h.length_lt
  rw [Nat.sub_zero] at hpassed hcarried
  rw [hpassed, hcarried] at hwalk
  have hins : insertLast Prod.snd (pt, t) q =
    (q.takeWhile fun e => e.2 ≤ t) ++ (pt, t) :: q.dropWhile fun e => e.2 ≤ t := insertLast_eq
  have hafter := h.gaps.ascending.dropWhile_le (c := t)
  have hsplit := (List.takeWhile_append_dropWhile (p := fun e : τ × ℕ => e.2 ≤ t) (l := q)).symm
  have hbefore : ∀ e ∈ q.takeWhile fun e => e.2 ≤ t, e.2 ≤ t := fun e he => by
    simpa using List.mem_takeWhile_imp he
  generalize (q.takeWhile fun e => e.2 ≤ t) = p at hwalk hins hsplit hbefore
  generalize (q.dropWhile fun e => e.2 ≤ t) = r at hins hafter hsplit
  subst hsplit
  have hlast : lastTime 0 p ≤ t := le_lastTime (Nat.zero_le t) hbefore
  refine ⟨m.insertBehind pt (t - lastTime 0 p) (lastCell some none (p.map Prod.fst)),
    by rw [TimerMem.rtTimerInsert, hwalk]; rfl, ?_, ⟨rfl, rfl, rfl⟩⟩
  rw [hins]
  exact h.insertBehind hpt ht hlast fun e he => (hafter e he).le

omit [Fintype τ] in
theorem Rep.removeBehind {p r : List (τ × ℕ)} (h : m.Rep (p ++ (pt, t) :: r)) :
    (m.removeBehind pt (lastCell some none (p.map Prod.fst))).Rep (p ++ r) := by
  have hpath := h.path
  rw [List.map_append, List.map_cons] at hpath
  have hnext : m.next (some pt) = headPtr none (r.map Prod.fst) :=
    (path_append.1 hpath).2.2.headPtr_eq
  refine ⟨?_, ?_, fun e he => h.le e ?_⟩
  · rw [List.map_append]
    exact hpath.remove
  · simp only [TimerMem.removeBehind, hnext]
    cases r with
    | nil => exact h.gaps.remove (fun e he => nomatch he) fun e he => rfl
    | cons e' r =>
      have hgap := (gaps_append.1 h.gaps).2
      have hpt : lastTime 0 p + m.tcnt pt = t := hgap.1
      have he' : t + m.tcnt e'.1 = e'.2 := hgap.2.1
      have hmax := h.le e' (by simp)
      have hadd : addU16 (m.tcnt e'.1) (m.tcnt pt) = m.tcnt e'.1 + m.tcnt pt :=
        addU16_of_le (by omega)
      simp only [List.map_cons, headPtr_cons, hadd]
      refine h.gaps.remove (fun e he => ?_) fun e he => ?_
      · obtain rfl : e' = e := by simpa using he
        exact Function.update_self ..
      · have hsplit : p ++ (pt, t) :: e' :: r = (p ++ [(pt, t)]) ++ e' :: r := by simp
        have hmem : e ∈ (p ++ [(pt, t)]) ++ r := by
          rw [List.tail_cons, List.mem_append] at he
          simp only [List.mem_append]
          tauto
        exact Function.update_of_ne (ne_of_nodup_items (hsplit ▸ h.nodup) hmem) ..
  · rw [List.mem_append] at he
    rw [List.mem_append, List.mem_cons]
    tauto

/-- **`rt_timer_remove` takes a timer out of the list.** -/
theorem Rep.rtTimerRemove (h : m.Rep q) (hpt : pt ∈ q.map Prod.fst) :
    ∃ m', m.rtTimerRemove pt = .ok (true, m') ∧ m'.Rep (q.filter fun e => e.1 ≠ pt) ∧
      m.Same m' := by
  obtain ⟨⟨x, t⟩, hmem, rfl⟩ := List.mem_map.1 hpt
  obtain ⟨p, r, rfl⟩ := List.append_of_mem hmem
  have hpath := h.path
  have hnodup := h.nodup
  rw [List.map_append, List.map_cons] at hpath hnodup
  have hx := (List.nodup_cons.1 (List.nodup_middle.1 hnodup)).1
  rw [List.mem_append, not_or] at hx
  have hwalk := walk_eq (upTo x) () h.path h.length_lt
  rw [List.map_append, List.map_cons, passed_upTo hx.1] at hwalk
  refine ⟨m.removeBehind x (lastCell some none (p.map Prod.fst)), ?_, ?_, rfl, rfl, rfl⟩
  · have hnext : m.next (lastCell some none (p.map Prod.fst)) ≠ none := by
      rw [hpath.next_lastCell]
      exact Option.some_ne_none x
    rw [TimerMem.rtTimerRemove, hwalk]
    exact congrArg Except.ok (if_neg hnext)
  · rw [filter_item_ne h.nodup]
    exact h.removeBehind

/-! ### The tick -/

/-- A timer that has expired is inserted again if it is periodic. -/
def rearmOne (m : TimerMem τ) (pt : τ) (q : List (τ × ℕ)) : List (τ × ℕ) :=
  match m.type pt with
  | .osTimerPeriodic => insertLast Prod.snd (pt, m.icnt pt) q
  | .osTimerOnce => q

/-- The timers of `due` have expired, in this order. -/
def rearm (m : TimerMem τ) (due q : List (τ × ℕ)) : List (τ × ℕ) :=
  due.foldl (fun q e => m.rearmOne e.1 q) q

/-- The fields that the tick leaves as they are. -/
structure SameTypes (m m' : TimerMem τ) : Prop where
  type : m'.type = m.type
  icnt : m'.icnt = m.icnt

/-- The states after the timers of `due` have expired. -/
def stateAfter (m : TimerMem τ) (due : List τ) (pt : τ) : TimerState :=
  if pt ∈ due ∧ m.type pt = .osTimerOnce then .osTimerStopped else m.state pt

omit [Fintype τ] in
/-- The first timer is taken out when it is due. -/
theorem Rep.tail (h : m.Rep ((pt, 0) :: q)) :
    ({ m with next := Function.update m.next none (m.next (some pt)) } : TimerMem τ).Rep q :=
  ⟨Path.remove (show Path some m.next none ([] ++ pt :: q.map Prod.fst) none from h.path), h.gaps.2,
    fun e he => h.le e (List.mem_cons_of_mem _ he)⟩

theorem Rep.expire {due : List (τ × ℕ)} (h : m.Rep (due ++ q)) (hdue : ∀ e ∈ due, e.2 = 0)
    (hpt : pt ∉ (due ++ q).map Prod.fst) (hicnt : m.icnt pt ≤ 0xFFFF) :
    ∃ m', m.expire pt = .ok m' ∧ m'.Rep (due ++ m.rearmOne pt q) ∧ m.SameTypes m' ∧
      m'.state = m.stateAfter [pt] := by
  cases htype : m.type pt with
  | osTimerPeriodic =>
    obtain ⟨m', hm', hrep, hsame⟩ := h.rtTimerInsert hpt hicnt
    refine ⟨m', by rw [TimerMem.expire, htype]; exact hm', ?_, ⟨hsame.type, hsame.icnt⟩, ?_⟩
    · rw [insertLast_append fun e he => by simp [hdue e he]] at hrep
      rwa [rearmOne, htype]
    · rw [hsame.state]
      funext x
      refine (if_neg fun hx => ?_).symm
      rw [List.mem_singleton] at hx
      rw [hx.1, htype] at hx
      cases hx.2
  | osTimerOnce =>
    refine ⟨{ m with state := Function.update m.state pt .osTimerStopped },
      by rw [TimerMem.expire, htype], ?_, ⟨rfl, rfl⟩, ?_⟩
    · rw [rearmOne, htype]
      exact ⟨h.path, h.gaps, h.le⟩
    · funext x
      by_cases hx : x = pt
      · subst hx
        simp [stateAfter, htype]
      · simp [stateAfter, hx]

omit [Fintype τ] in
theorem stateAfter_cons {m' : TimerMem τ} {due : List τ} (hstate : m'.state = m.stateAfter [pt])
    (htype : m'.type = m.type) : m'.stateAfter due = m.stateAfter (pt :: due) := by
  funext y
  simp only [stateAfter, hstate, htype, List.mem_cons, List.not_mem_nil, or_false]
  by_cases hy : y = pt ∧ m.type y = .osTimerOnce
  · obtain ⟨rfl, hy⟩ := hy
    simp [hy]
  · by_cases hdue : y ∈ due ∧ m.type y = .osTimerOnce
    · simp [hdue]
    · rw [if_neg hdue, if_neg hy, if_neg fun h => h.1.elim (fun he => hy ⟨he, h.2⟩)
        fun hd => hdue ⟨hd, h.2⟩]

omit [Fintype τ] [DecidableEq τ] in
theorem SameTypes.rearm_eq {m' : TimerMem τ} (h : m.SameTypes m') (due : List (τ × ℕ)) :
    m'.rearm due q = m.rearm due q := by
  simp only [rearm, rearmOne, h.type, h.icnt]

omit [DecidableEq τ] [Fintype τ] in
/-- The first timer that is not due has a count left, also behind one that is inserted again. -/
theorem Rep.gap_pos {m' : TimerMem τ} {e : τ × ℕ} (h : m'.Rep (m.rearmOne pt (e :: q)))
    (he : 0 < e.2) : 0 < m'.tcnt e.1 := by
  have hgaps := h.gaps
  rw [rearmOne] at hgaps
  split at hgaps
  · exact hgaps.gap_pos he
  · have hgap : 0 + m'.tcnt e.1 = e.2 := hgaps.1
    omega

/-- **The loop of `sysTimerTick`** visits the timers that are due, one after the other. -/
theorem Rep.sysTimerTickLoop {due : List (τ × ℕ)} {p : Option τ} {fuel : ℕ}
    (h : m.Rep (due ++ q)) (hdue : ∀ e ∈ due, e.2 = 0)
    (hp : if due = [] then ∀ y ∈ p, m.tcnt y ≠ 0 else p = headPtr none (due.map Prod.fst))
    (hq : ∀ e ∈ q, 0 < e.2) (hicnt : ∀ e ∈ due, 0 < m.icnt e.1 ∧ m.icnt e.1 ≤ 0xFFFF)
    (hfuel : due.length < fuel) :
    ∃ m', m.sysTimerTickLoop fuel p = .ok (due.map Prod.fst, m') ∧
      m'.Rep (m.rearm due q) ∧ m.SameTypes m' ∧ m'.state = m.stateAfter (due.map Prod.fst) := by
  induction due generalizing m q p fuel with
  | nil =>
    obtain ⟨fuel, rfl⟩ := Nat.exists_eq_succ_of_ne_zero (Nat.ne_zero_of_lt hfuel)
    refine ⟨m, ?_, h, ⟨rfl, rfl⟩, by funext x; simp [stateAfter]⟩
    cases p with
    | none => rfl
    | some y =>
      have hy : m.tcnt y ≠ 0 := hp y rfl
      simp only [TimerMem.sysTimerTickLoop, if_neg hy, List.map_nil]
  | cons e due ih =>
    obtain ⟨fuel, rfl⟩ := Nat.exists_eq_succ_of_ne_zero (Nat.ne_zero_of_lt hfuel)
    obtain ⟨x, t⟩ := e
    obtain ⟨ht, hdue'⟩ := List.forall_mem_cons.1 hdue
    obtain ⟨hx, hicnt'⟩ := List.forall_mem_cons.1 hicnt
    obtain rfl : t = 0 := ht
    obtain rfl : p = some x := hp
    have hcnt : m.tcnt x = 0 := by
      have hgap : 0 + m.tcnt x = 0 := h.gaps.1
      omega
    have hnext : m.next (some x) = headPtr none ((due ++ q).map Prod.fst) := h.path.2.headPtr_eq
    have hnotMem : x ∉ (due ++ q).map Prod.fst := (List.nodup_cons.1 h.nodup).1
    obtain ⟨m₂, hm₂, hrep₂, hsame₂, hstate₂⟩ := h.tail.expire hdue' hnotMem hx.2
    -- the local pointer of the loop still leads to the first of the other timers
    have hp₂ : if due = [] then ∀ y ∈ m.next (some x), m₂.tcnt y ≠ 0
        else m.next (some x) = headPtr none (due.map Prod.fst) := by
      cases due with
      | nil =>
        rw [if_pos rfl, hnext]
        cases q with
        | nil => exact fun y hy => nomatch hy
        | cons e q =>
          intro y hy
          obtain rfl : e.1 = y := Option.some.inj hy
          exact (hrep₂.gap_pos (hq e List.mem_cons_self)).ne'
      | cons e due =>
        rw [if_neg (List.cons_ne_nil e due), hnext]
        rfl
    have hq₂ : ∀ e ∈ m.rearmOne x q, 0 < e.2 := by
      rw [rearmOne]
      split
      · intro e he
        obtain rfl | he := mem_insertLast.1 he
        · exact hx.1
        · exact hq e he
      · exact hq
    obtain ⟨m', hm', hrep', hsame', hstate'⟩ := ih hrep₂ hdue' hp₂ hq₂
      (by rw [hsame₂.icnt]; exact hicnt') (Nat.lt_of_succ_lt_succ hfuel)
    refine ⟨m', ?_, ?_, ⟨hsame'.type.trans hsame₂.type, hsame'.icnt.trans hsame₂.icnt⟩, ?_⟩
    · simp only [TimerMem.sysTimerTickLoop, hcnt, if_true]
      rw [hm₂, ok_bind, hm', ok_bind]
      rfl
    · rwa [hsame₂.rearm_eq] at hrep'
    · rw [hstate', stateAfter_cons hstate₂ hsame₂.type, List.map_cons]
      rfl

/-- **A tick of the system** lets every timer count down and visits those that are due. -/
theorem Rep.sysTimerTick (h : m.Rep q) (hpos : ∀ e ∈ q, 0 < e.2)
    (hicnt : ∀ e ∈ q, 0 < m.icnt e.1 ∧ m.icnt e.1 ≤ 0xFFFF) :
    ∃ m', m.sysTimerTick =
        .ok (((elapse q).takeWhile fun e => e.2 = 0).map Prod.fst, m') ∧
      m'.Rep (m.rearm ((elapse q).takeWhile fun e => e.2 = 0)
        ((elapse q).dropWhile fun e => e.2 = 0)) ∧ m.SameTypes m' ∧
      m'.state = m.stateAfter (((elapse q).takeWhile fun e => e.2 = 0).map Prod.fst) := by
  cases q with
  | nil =>
    have hnext : m.next none = none := h.path
    refine ⟨m, by simp [TimerMem.sysTimerTick, hnext], h, ⟨rfl, rfl⟩, ?_⟩
    funext x
    simp [stateAfter]
  | cons e q =>
    have hnext : m.next none = some e.1 := h.path.1
    have hgap : 0 + m.tcnt e.1 = e.2 := h.gaps.1
    have hle := h.le e List.mem_cons_self
    have he := hpos e List.mem_cons_self
    have hsub : subU16 (m.tcnt e.1) 1 = m.tcnt e.1 - 1 := subU16_of_le (by omega) (by omega)
    have hrep : ({ m with tcnt := Function.update m.tcnt e.1 (m.tcnt e.1 - 1) } : TimerMem τ).Rep
        (elapse (e :: q)) := by
      refine ⟨by rw [map_fst_elapse]; exact h.path, h.gaps.elapse he (Function.update_self ..) ?_, ?_⟩
      · exact fun e' he' => Function.update_of_ne (ne_of_nodup_items (p := []) h.nodup he') ..
      · intro e' he'
        obtain ⟨e'', he'', rfl⟩ := List.mem_map.1 he'
        exact (Nat.sub_le _ 1).trans (h.le e'' he'')
    have hicnt' : ∀ e' ∈ elapse (e :: q), 0 < m.icnt e'.1 ∧ m.icnt e'.1 ≤ 0xFFFF := by
      intro e' he'
      obtain ⟨e'', he'', rfl⟩ := List.mem_map.1 he'
      exact hicnt e'' he''
    have hascending := hrep.gaps.ascending
    have hlen := hrep.length_lt
    rw [TimerMem.sysTimerTick, hnext]
    simp only [hsub]
    have hsplit := List.takeWhile_append_dropWhile (p := fun e : τ × ℕ => e.2 = 0)
      (l := elapse (e :: q))
    have hdue := hascending.takeWhile_due
    have hlater := hascending.dropWhile_due
    rw [← hsplit] at hrep
    refine Exists.imp (fun m' h' => ⟨h'.1, h'.2.1, ⟨h'.2.2.1.type, h'.2.2.1.icnt⟩, h'.2.2.2⟩)
      (hrep.sysTimerTickLoop (fun e' he' => ?_) ?_ (fun e' he' => ?_) (fun e' he' => hicnt' e' ?_) ?_)
    · rw [hdue, List.mem_filter] at he'
      simpa using he'.2
    · by_cases hz : e.2 - 1 = 0
      · rw [elapse_cons, List.takeWhile_cons_of_pos (by simpa using hz), if_neg (List.cons_ne_nil _ _)]
        rfl
      · rw [elapse_cons, List.takeWhile_cons_of_neg (by simpa using hz), if_pos rfl]
        rintro y ⟨⟩
        show Function.update m.tcnt e.1 (m.tcnt e.1 - 1) e.1 ≠ 0
        rw [Function.update_self]
        omega
    · rw [hlater, List.mem_filter] at he'
      exact Nat.pos_of_ne_zero (by simpa using he'.2)
    · exact List.takeWhile_sublist _ |>.subset he'
    · refine lt_of_le_of_lt (List.Sublist.length_le (List.takeWhile_sublist _)) ?_
      rwa [List.length_map] at hlen

end TimerMem

end Rtx

end UavTelemetry
