import UavTelemetry.Rtx.TimerList

/-!
# Independent clocks

The list of running timers stores differences of counts, and each call on one timer may change the
count in the block of another.  This file shows that the timers do not notice: every sequence of
calls is answered as if each timer counted by itself, and the timers that expire in one tick do so
in the order in which they were started.

## Main definitions

* `Clocks` : timers that count by themselves, in the order in which they were started.
* `TimerMem.Shows` : the control blocks represent the clocks.
* `TimerCall.concerns` : the calls for a timer, and the ticks.
* `Clocks.Alike` : two families of clocks agree on a timer.

## Main results

* `TimerMem.answers_eq` : every sequence of calls is answered as by independent clocks.
* `TimerMem.expiries_eq` : a periodic timer in the list expires as an `OsTimer` does.
* `TimerMem.alone_eq` : a timer does not notice the calls for other timers.
-/

namespace UavTelemetry

namespace Rtx

variable {τ : Type} [DecidableEq τ]

/-- Timers that count by themselves. -/
structure Clocks (τ : Type) where
  /-- Timer state. -/
  state : τ → TimerState
  /-- Timer type. -/
  type : τ → OsTimerType
  /-- Timer initial count. -/
  icnt : τ → ℕ
  /-- The running timers with the ticks left, in the order in which they were started. -/
  armed : List (τ × ℕ)

namespace Clocks

/-- No timer is created. -/
def init : Clocks τ := ⟨fun _ => .osTimerInvalid, fun _ => .osTimerOnce, fun _ => 0, []⟩

/-- The other running timers. -/
def others (c : Clocks τ) (pt : τ) : List (τ × ℕ) := c.armed.filter fun e => e.1 ≠ pt

/-- The timers that a tick makes expire, in the order in which they were started. -/
def due (c : Clocks τ) : List (τ × ℕ) := (elapse c.armed).filter fun e => e.2 = 0

/-- The timers that go on after a tick. -/
def later (c : Clocks τ) : List (τ × ℕ) := (elapse c.armed).filter fun e => e.2 ≠ 0

/-- A timer is created, if it does not exist. -/
def create (c : Clocks τ) (pt : τ) (type : OsTimerType) : Bool × Clocks τ :=
  if c.state pt = .osTimerInvalid then
    (true,
      { c with
        state := Function.update c.state pt .osTimerStopped
        type := Function.update c.type pt type })
  else (false, c)

/-- A timer is started, and becomes the last one. -/
def start (c : Clocks τ) (timerId : Option τ) (millisec : ℕ) : TimerStatus × Clocks τ :=
  match timerId with
  | none => (.osErrorParameter, c)
  | some pt =>
    let tcnt := rtMs2tick millisec
    if tcnt = 0 then (.osErrorValue, c)
    else
      match c.state pt with
      | .osTimerRunning => (.osOK, { c with armed := c.others pt ++ [(pt, tcnt)] })
      | .osTimerStopped =>
        (.osOK,
          { c with
            state := Function.update c.state pt .osTimerRunning
            icnt := Function.update c.icnt pt (tcnt % 0x10000)
            armed := c.armed ++ [(pt, tcnt)] })
      | .osTimerInvalid => (.osErrorResource, c)

/-- A timer is stopped. -/
def stop (c : Clocks τ) (timerId : Option τ) : TimerStatus × Clocks τ :=
  match timerId with
  | none => (.osErrorParameter, c)
  | some pt =>
    if c.state pt ≠ .osTimerRunning then (.osErrorResource, c)
    else
      (.osOK, { c with state := Function.update c.state pt .osTimerStopped, armed := c.others pt })

/-- A timer is deleted. -/
def delete (c : Clocks τ) (timerId : Option τ) : TimerStatus × Clocks τ :=
  match timerId with
  | none => (.osErrorParameter, c)
  | some pt =>
    if c.state pt = .osTimerInvalid then (.osErrorResource, c)
    else
      (.osOK, { c with state := Function.update c.state pt .osTimerInvalid, armed := c.others pt })

/-- Every running timer counts down.  Of those that expire, the periodic ones start again and the
others are stopped. -/
def tick (c : Clocks τ) : List τ × Clocks τ :=
  (c.due.map Prod.fst,
    { c with
      state := fun pt =>
        if pt ∈ c.due.map Prod.fst ∧ c.type pt = .osTimerOnce then .osTimerStopped else c.state pt
      armed := c.later ++
        (c.due.filter fun e => c.type e.1 = .osTimerPeriodic).map fun e => (e.1, c.icnt e.1) })

/-- A call. -/
def call (c : Clocks τ) : TimerCall τ → TimerAnswer τ × Clocks τ
  | .create pt type => let r := c.create pt type; (.created r.1, r.2)
  | .start pt millisec => let r := c.start pt millisec; (.status r.1, r.2)
  | .stop pt => let r := c.stop pt; (.status r.1, r.2)
  | .delete pt => let r := c.delete pt; (.status r.1, r.2)
  | .tick => let r := c.tick; (.expired r.1, r.2)

/-- The answers to a sequence of calls. -/
def answers : Clocks τ → List (TimerCall τ) → List (TimerAnswer τ)
  | _, [] => []
  | c, a :: as => (c.call a).1 :: answers (c.call a).2 as

end Clocks

/-- What holds of the clocks between two calls. -/
structure Clocks.Good (c : Clocks τ) : Prop where
  nodup : (c.armed.map Prod.fst).Nodup
  running : ∀ pt, c.state pt = .osTimerRunning ↔ pt ∈ c.armed.map Prod.fst
  /-- A timer that runs has a tick left. -/
  pos : ∀ e ∈ c.armed, 0 < e.2
  icnt : ∀ pt, c.state pt = .osTimerRunning → 0 < c.icnt pt ∧ c.icnt pt ≤ 0xFFFF

theorem rtMs2tick_le (millisec : ℕ) : rtMs2tick millisec ≤ 0xFFFF := by
  rw [rtMs2tick]
  split
  · exact Nat.le_refl _
  · split
    · decide
    · simp only
      split
      · decide
      · omega

namespace Clocks

variable {c : Clocks τ} {pt : τ}

theorem mem_others {x : τ} :
    x ∈ (c.others pt).map Prod.fst ↔ x ≠ pt ∧ x ∈ c.armed.map Prod.fst := by
  simp only [others, List.mem_map, List.mem_filter, decide_eq_true_eq]
  constructor
  · rintro ⟨e, ⟨he, hne⟩, rfl⟩
    exact ⟨hne, e, he, rfl⟩
  · rintro ⟨hne, e, he, rfl⟩
    exact ⟨e, ⟨he, hne⟩, rfl⟩

theorem others_eq (h : pt ∉ c.armed.map Prod.fst) : c.others pt = c.armed := by
  refine List.filter_eq_self.2 fun e he => decide_eq_true ?_
  rintro rfl
  exact h (List.mem_map_of_mem he)

namespace Good

omit [DecidableEq τ] in
theorem init : (init : Clocks τ).Good where
  nodup := List.nodup_nil
  running pt := by simp [Clocks.init]
  pos e he := nomatch he
  icnt pt h := nomatch h

/-- A timer leaves the queue. -/
theorem disarm (h : c.Good) (pt : τ) {st : TimerState} (hst : st ≠ .osTimerRunning) :
    ({ c with state := Function.update c.state pt st, armed := c.others pt } : Clocks τ).Good where
  nodup := h.nodup.sublist (List.filter_sublist.map _)
  running x := by
    show Function.update c.state pt st x = .osTimerRunning ↔ x ∈ (c.others pt).map Prod.fst
    rw [mem_others]
    by_cases hx : x = pt
    · subst hx
      simp [hst]
    · rw [Function.update_of_ne hx, h.running]
      simp [hx]
  pos e he := h.pos e (List.mem_of_mem_filter he)
  icnt x hx := by
    have hx : Function.update c.state pt st x = .osTimerRunning := hx
    by_cases hne : x = pt
    · subst hne
      rw [Function.update_self] at hx
      exact absurd hx hst
    · rw [Function.update_of_ne hne] at hx
      exact h.icnt x hx

theorem create (h : c.Good) (pt : τ) (type : OsTimerType) : (c.create pt type).2.Good := by
  rw [Clocks.create]
  split
  · rename_i hst
    have hmem : pt ∉ c.armed.map Prod.fst := by
      rw [← h.running, hst]
      exact TimerState.noConfusion
    have hgood := h.disarm pt (show TimerState.osTimerStopped ≠ _ from TimerState.noConfusion)
    rw [others_eq hmem] at hgood
    exact ⟨hgood.nodup, hgood.running, hgood.pos, hgood.icnt⟩
  · exact h

theorem stop (h : c.Good) (timerId : Option τ) : (c.stop timerId).2.Good := by
  cases timerId with
  | none => exact h
  | some pt =>
    rw [Clocks.stop]
    split
    · exact h
    · exact h.disarm _ TimerState.noConfusion

theorem delete (h : c.Good) (timerId : Option τ) : (c.delete timerId).2.Good := by
  cases timerId with
  | none => exact h
  | some pt =>
    rw [Clocks.delete]
    split
    · exact h
    · exact h.disarm _ TimerState.noConfusion

theorem start (h : c.Good) (timerId : Option τ) (millisec : ℕ) :
    (c.start timerId millisec).2.Good := by
  cases timerId with
  | none => exact h
  | some pt =>
    have hle := rtMs2tick_le millisec
    have hmod : rtMs2tick millisec % 0x10000 = rtMs2tick millisec := Nat.mod_eq_of_lt (by omega)
    simp only [Clocks.start]
    split
    · exact h
    · rename_i htcnt
      have hpos := Nat.pos_of_ne_zero htcnt
      split
      · rename_i hst
        refine ⟨?_, fun x => ?_, fun e he => ?_, h.icnt⟩
        · rw [List.map_append, List.map_singleton, ← List.concat_eq_append]
          exact (h.nodup.sublist (List.filter_sublist.map _)).concat fun hx => (mem_others.1 hx).1 rfl
        · rw [h.running, List.map_append, List.mem_append, mem_others, List.map_singleton,
            List.mem_singleton]
          have hpt := (h.running pt).1 hst
          by_cases hx : x = pt
          · simp [hx, hpt]
          · simp [hx]
        · obtain he | he := List.mem_append.1 he
          · exact h.pos e (List.mem_of_mem_filter he)
          · obtain rfl := List.mem_singleton.1 he
            exact hpos
      · rename_i hst
        refine ⟨?_, fun x => ?_, fun e he => ?_, fun x hx => ?_⟩
        · rw [List.map_append, List.map_singleton, ← List.concat_eq_append]
          refine h.nodup.concat fun hx => ?_
          rw [← h.running, hst] at hx
          cases hx
        · rw [List.map_append, List.mem_append, List.map_singleton, List.mem_singleton, ← h.running]
          by_cases hx : x = pt
          · simp [hx]
          · simp [hx]
        · obtain he | he := List.mem_append.1 he
          · exact h.pos e he
          · obtain rfl := List.mem_singleton.1 he
            exact hpos
        · by_cases hne : x = pt
          · subst hne
            simpa [hmod] using ⟨hpos, hle⟩
          · simp only [Function.update_of_ne hne] at hx ⊢
            exact h.icnt x hx
      · exact h

omit [DecidableEq τ] in
theorem nodup_elapse (h : c.Good) : ((elapse c.armed).map Prod.fst).Nodup := by
  rw [map_fst_elapse]
  exact h.nodup

omit [DecidableEq τ] in
/-- A timer that runs is due in the next tick or goes on. -/
theorem mem_armed_iff (x : τ) : x ∈ c.armed.map Prod.fst ↔
    x ∈ c.due.map Prod.fst ∨ x ∈ c.later.map Prod.fst := by
  rw [← map_fst_elapse, Clocks.due, Clocks.later, ← List.mem_append, ← List.map_append]
  refine List.Perm.mem_iff (List.Perm.map _ ?_)
  simpa using (List.filter_append_perm (fun e : τ × ℕ => e.2 = 0) (elapse c.armed)).symm

omit [DecidableEq τ] in
theorem notMem_later (h : c.Good) {x : τ} (hx : x ∈ c.due.map Prod.fst) :
    x ∉ c.later.map Prod.fst := by
  intro hx'
  obtain ⟨e, he, rfl⟩ := List.mem_map.1 hx
  obtain ⟨e', he', heq⟩ := List.mem_map.1 hx'
  rw [Clocks.due, List.mem_filter, decide_eq_true_eq] at he
  rw [Clocks.later, List.mem_filter, decide_eq_true_eq] at he'
  obtain rfl := List.inj_on_of_nodup_map h.nodup_elapse he'.1 he.1 heq
  exact he'.2 he.2

omit [DecidableEq τ] in
theorem mem_periodic {x : τ} :
    x ∈ ((c.due.filter fun e => c.type e.1 = .osTimerPeriodic).map
        fun e => (e.1, c.icnt e.1)).map Prod.fst ↔
      x ∈ c.due.map Prod.fst ∧ c.type x = .osTimerPeriodic := by
  simp only [List.map_map, List.mem_map, List.mem_filter, decide_eq_true_eq, Function.comp_apply]
  constructor
  · rintro ⟨e, ⟨he, htype⟩, rfl⟩
    exact ⟨⟨e, he, rfl⟩, htype⟩
  · rintro ⟨⟨e, he, rfl⟩, htype⟩
    exact ⟨e, ⟨he, htype⟩, rfl⟩

theorem tick (h : c.Good) : c.tick.2.Good where
  nodup := by
    show (List.map _ (_ ++ _)).Nodup
    rw [List.map_append]
    refine List.nodup_append.2 ⟨h.nodup_elapse.sublist (List.filter_sublist.map _), ?_, ?_⟩
    · rw [List.map_map]
      exact h.nodup_elapse.sublist ((List.filter_sublist.trans List.filter_sublist).map _)
    · rintro x hx _ hy rfl
      exact h.notMem_later (mem_periodic.1 hy).1 hx
  running x := by
    show (if _ then _ else _) = _ ↔ x ∈ List.map _ (_ ++ _)
    rw [List.map_append, List.mem_append, mem_periodic]
    have hx := (h.running x).trans (mem_armed_iff x)
    cases htype : c.type x with
    | osTimerPeriodic =>
      rw [if_neg fun hc => OsTimerType.noConfusion hc.2, hx]
      simp only [and_true, or_comm]
    | osTimerOnce =>
      by_cases hdue : x ∈ c.due.map Prod.fst
      · rw [if_pos ⟨hdue, rfl⟩]
        simp [h.notMem_later hdue]
      · rw [if_neg fun hc => hdue hc.1, hx]
        simp [hdue]
  pos e he := by
    obtain he | he := List.mem_append.1 he
    · rw [Clocks.later, List.mem_filter, decide_eq_true_eq] at he
      exact Nat.pos_of_ne_zero he.2
    · obtain ⟨e', he', rfl⟩ := List.mem_map.1 he
      have hdue := List.mem_map_of_mem (f := Prod.fst) (List.mem_of_mem_filter he')
      exact (h.icnt e'.1 ((h.running _).2 ((mem_armed_iff _).2 (Or.inl hdue)))).1
  icnt x hx := by
    have hx : (if x ∈ c.due.map Prod.fst ∧ c.type x = .osTimerOnce then TimerState.osTimerStopped
      else c.state x) = .osTimerRunning := hx
    split at hx
    · cases hx
    · exact h.icnt x hx

theorem call (h : c.Good) (a : TimerCall τ) : (c.call a).2.Good := by
  cases a with
  | create pt type => exact h.create pt type
  | start pt millisec => exact h.start pt millisec
  | stop pt => exact h.stop pt
  | delete pt => exact h.delete pt
  | tick => exact h.tick

end Good

end Clocks

/-! ### The control blocks show the clocks -/

variable [Fintype τ]

namespace TimerMem

/-- The control blocks represent the clocks: the list holds the running timers in the order in
which they expire. -/
structure Shows (m : TimerMem τ) (c : Clocks τ) : Prop where
  state : m.state = c.state
  type : m.type = c.type
  icnt : m.icnt = c.icnt
  queue : ∃ q, m.Rep q ∧ StableSort Prod.snd q c.armed
  good : c.Good

namespace Shows

variable {m : TimerMem τ} {c : Clocks τ}

omit [Fintype τ] in
theorem create (h : m.Shows c) (pt : τ) (type : OsTimerType) :
    (m.svcTimerCreate pt type).1 = (c.create pt type).1 ∧
      (m.svcTimerCreate pt type).2.Shows (c.create pt type).2 := by
  have hgood := h.good.create pt type
  obtain ⟨q, hrep, hsort⟩ := h.queue
  simp only [svcTimerCreate, Clocks.create, h.state] at hgood ⊢
  split
  · rename_i hst
    rw [if_pos hst] at hgood
    refine ⟨rfl, rfl, ?_, h.icnt, ⟨q, ⟨hrep.path, hrep.gaps, hrep.le⟩, hsort⟩, hgood⟩
    show Function.update m.type pt type = _
    rw [h.type]
  · exact ⟨rfl, h⟩

omit [Fintype τ] [DecidableEq τ] in
theorem mem_queue (h : c.Good) {q : List (τ × ℕ)} (hsort : StableSort Prod.snd q c.armed)
    (pt : τ) : pt ∈ q.map Prod.fst ↔ c.state pt = .osTimerRunning := by
  rw [h.running]
  exact (hsort.perm.map Prod.fst).mem_iff

/-- A running timer is taken out of the list, whatever else has changed of the control blocks. -/
theorem remove (h : m.Shows c) (m₁ : TimerMem τ) (hnext : m₁.next = m.next)
    (htcnt : m₁.tcnt = m.tcnt) {pt : τ} (hst : c.state pt = .osTimerRunning) :
    ∃ m₂, m₁.rtTimerRemove pt = .ok (true, m₂) ∧ m₁.Same m₂ ∧
      ∃ q, m₂.Rep q ∧ pt ∉ q.map Prod.fst ∧ StableSort Prod.snd q (c.others pt) := by
  obtain ⟨q, hrep, hsort⟩ := h.queue
  have hrep₁ : m₁.Rep q := ⟨hnext ▸ hrep.path, htcnt ▸ hrep.gaps, hrep.le⟩
  obtain ⟨m₂, hm₂, hrep₂, hsame⟩ := hrep₁.rtTimerRemove ((mem_queue h.good hsort pt).2 hst)
  refine ⟨m₂, hm₂, hsame, _, hrep₂, fun hmem => ?_, hsort.filter _⟩
  obtain ⟨e, he, rfl⟩ := List.mem_map.1 hmem
  exact (of_decide_eq_true (List.mem_filter.1 he).2) rfl

theorem stop (h : m.Shows c) (timerId : Option τ) :
    ∃ m', m.svcTimerStop timerId = .ok ((c.stop timerId).1, m') ∧
      m'.Shows (c.stop timerId).2 := by
  have hgood := h.good.stop timerId
  cases timerId with
  | none => exact ⟨m, rfl, h⟩
  | some pt =>
    by_cases hst : c.state pt = .osTimerRunning
    · simp only [svcTimerStop, Clocks.stop, h.state, hst, ne_eq, not_true, if_false] at hgood ⊢
      let m₁ : TimerMem τ := { m with state := Function.update c.state pt .osTimerStopped }
      obtain ⟨m₂, hm₂, hsame, q, hrep, -, hsort⟩ := h.remove m₁ rfl rfl hst
      refine ⟨m₂, by rw [hm₂, ok_bind]; rfl, hsame.state, hsame.type.trans h.type,
        hsame.icnt.trans h.icnt, ⟨q, hrep, hsort⟩, hgood⟩
    · refine ⟨m, ?_, ?_⟩
      · simp [svcTimerStop, Clocks.stop, h.state, hst]
      · simpa [Clocks.stop, hst] using h

theorem delete (h : m.Shows c) (timerId : Option τ) :
    ∃ m', m.svcTimerDelete timerId = .ok ((c.delete timerId).1, m') ∧
      m'.Shows (c.delete timerId).2 := by
  have hgood := h.good.delete timerId
  cases timerId with
  | none => exact ⟨m, rfl, h⟩
  | some pt =>
    cases hst : c.state pt with
    | osTimerRunning =>
      simp only [svcTimerDelete, Clocks.delete, h.state, hst, reduceCtorEq, if_false] at hgood ⊢
      obtain ⟨m₂, hm₂, hsame, q, hrep, -, hsort⟩ := h.remove _ rfl rfl hst
      refine ⟨{ m₂ with state := Function.update m₂.state pt .osTimerInvalid },
        by rw [hm₂, ok_bind]; rfl, ?_, hsame.type.trans h.type, hsame.icnt.trans h.icnt,
        ⟨q, ⟨hrep.path, hrep.gaps, hrep.le⟩, hsort⟩, hgood⟩
      show Function.update m₂.state pt _ = _
      rw [hsame.state, h.state]
    | osTimerStopped =>
      have hmem : pt ∉ c.armed.map Prod.fst := by
        rw [← h.good.running, hst]
        exact TimerState.noConfusion
      obtain ⟨q, hrep, hsort⟩ := h.queue
      simp only [svcTimerDelete, Clocks.delete, h.state, hst, reduceCtorEq, if_false] at hgood ⊢
      rw [Clocks.others_eq hmem] at hgood ⊢
      exact ⟨_, rfl, rfl, h.type, h.icnt, ⟨q, ⟨hrep.path, hrep.gaps, hrep.le⟩, hsort⟩, hgood⟩
    | osTimerInvalid =>
      refine ⟨m, ?_, ?_⟩
      · simp [svcTimerDelete, Clocks.delete, h.state, hst]
      · simpa [Clocks.delete, hst] using h

theorem start (h : m.Shows c) (timerId : Option τ) (millisec : ℕ) :
    ∃ m', m.svcTimerStart timerId millisec = .ok ((c.start timerId millisec).1, m') ∧
      m'.Shows (c.start timerId millisec).2 := by
  have hgood := h.good.start timerId millisec
  have hle := rtMs2tick_le millisec
  cases timerId with
  | none => exact ⟨m, rfl, h⟩
  | some pt =>
    by_cases htcnt : rtMs2tick millisec = 0
    · simp only [svcTimerStart, Clocks.start, if_pos htcnt]
      exact ⟨m, rfl, h⟩
    simp only [svcTimerStart, Clocks.start, if_neg htcnt, h.state] at hgood ⊢
    cases hst : c.state pt with
    | osTimerRunning =>
      simp only [hst] at hgood ⊢
      obtain ⟨m₂, hm₂, hsame, q, hrep, hpt, hsort⟩ := h.remove _ rfl rfl hst
      obtain ⟨m₃, hm₃, hrep₃, hsame₃⟩ := hrep.rtTimerInsert hpt hle
      refine ⟨m₃, ?_, (hsame₃.state.trans hsame.state).trans h.state,
        (hsame₃.type.trans hsame.type).trans h.type, (hsame₃.icnt.trans hsame.icnt).trans h.icnt,
        ⟨_, hrep₃, hsort.insertLast⟩, hgood⟩
      rw [hm₂, ok_bind, if_pos rfl, hm₃, ok_bind]
      rfl
    | osTimerStopped =>
      simp only [hst] at hgood ⊢
      obtain ⟨q, hrep, hsort⟩ := h.queue
      have hpt : pt ∉ q.map Prod.fst := by
        rw [mem_queue h.good hsort, hst]
        exact TimerState.noConfusion
      have hrep₁ : ({ m with
          state := Function.update c.state pt .osTimerRunning
          icnt := Function.update m.icnt pt (rtMs2tick millisec % 0x10000) } : TimerMem τ).Rep q :=
        ⟨hrep.path, hrep.gaps, hrep.le⟩
      obtain ⟨m₂, hm₂, hrep₂, hsame⟩ := hrep₁.rtTimerInsert hpt hle
      refine ⟨m₂, by rw [hm₂, ok_bind]; rfl, hsame.state, hsame.type.trans h.type, ?_,
        ⟨_, hrep₂, hsort.insertLast⟩, hgood⟩
      rw [hsame.icnt, h.icnt]
    | osTimerInvalid =>
      simp only [hst] at hgood ⊢
      exact ⟨m, rfl, h⟩

omit [Fintype τ] [DecidableEq τ] in
/-- The periodic ones of the timers that expire are started again, in this order. -/
theorem sort_rearm {q l : List (τ × ℕ)} (m : TimerMem τ) (due : List (τ × ℕ))
    (h : StableSort Prod.snd q l) :
    StableSort Prod.snd (m.rearm due q)
      (l ++ (due.filter fun e => m.type e.1 = .osTimerPeriodic).map fun e => (e.1, m.icnt e.1)) := by
  induction due generalizing q l with
  | nil =>
    rw [List.filter_nil, List.map_nil, List.append_nil]
    exact h
  | cons e due ih =>
    show StableSort Prod.snd (m.rearm due (m.rearmOne e.1 q)) _
    rw [rearmOne]
    cases htype : m.type e.1 with
    | osTimerPeriodic =>
      rw [List.filter_cons_of_pos (by simpa using htype), List.map_cons, List.append_cons]
      exact ih h.insertLast
    | osTimerOnce =>
      rw [List.filter_cons_of_neg (by simp [htype])]
      exact ih h

theorem tick (h : m.Shows c) :
    ∃ m', m.sysTimerTick = .ok (c.tick.1, m') ∧ m'.Shows c.tick.2 := by
  obtain ⟨q, hrep, hsort⟩ := h.queue
  have hpos : ∀ e ∈ q, 0 < e.2 := fun e he => h.good.pos e (hsort.mem_iff.1 he)
  have hicnt : ∀ e ∈ q, 0 < m.icnt e.1 ∧ m.icnt e.1 ≤ 0xFFFF := by
    intro e he
    rw [h.icnt]
    exact h.good.icnt _ ((mem_queue h.good hsort _).1 (List.mem_map_of_mem he))
  have helapse := hsort.elapse h.good.pos
  have hdue : ((elapse q).takeWhile fun e => e.2 = 0) = c.due := helapse.due
  obtain ⟨m', hm', hrep', hsame, hstate⟩ := hrep.sysTimerTick hpos hicnt
  rw [hdue] at hm' hrep' hstate
  refine ⟨m', hm', ?_, hsame.type.trans h.type, hsame.icnt.trans h.icnt, ⟨_, hrep', ?_⟩, h.good.tick⟩
  · rw [hstate]
    funext pt
    simp only [stateAfter, h.type, h.state]
    rfl
  · have hrearm := sort_rearm m c.due helapse.later
    rw [h.type, h.icnt] at hrearm
    exact hrearm

/-- **A call on the list** is answered as by the independent clocks. -/
theorem call (h : m.Shows c) (a : TimerCall τ) :
    ∃ m', m.call a = .ok ((c.call a).1, m') ∧ m'.Shows (c.call a).2 := by
  cases a with
  | create pt type =>
    obtain ⟨hans, hshows⟩ := h.create pt type
    exact ⟨_, by rw [TimerMem.call, hans]; rfl, hshows⟩
  | start pt millisec =>
    obtain ⟨m', hm', hshows⟩ := h.start pt millisec
    exact ⟨m', by rw [TimerMem.call, hm']; rfl, hshows⟩
  | stop pt =>
    obtain ⟨m', hm', hshows⟩ := h.stop pt
    exact ⟨m', by rw [TimerMem.call, hm']; rfl, hshows⟩
  | delete pt =>
    obtain ⟨m', hm', hshows⟩ := h.delete pt
    exact ⟨m', by rw [TimerMem.call, hm']; rfl, hshows⟩
  | tick =>
    obtain ⟨m', hm', hshows⟩ := h.tick
    exact ⟨m', by rw [TimerMem.call, hm']; rfl, hshows⟩

theorem answers (h : m.Shows c) (as : List (TimerCall τ)) : m.answers as = .ok (c.answers as) := by
  induction as generalizing m c with
  | nil => rfl
  | cons a as ih =>
    obtain ⟨m', hm', hshows⟩ := h.call a
    rw [TimerMem.answers, hm', ok_bind, ih hshows]
    rfl

omit [Fintype τ] [DecidableEq τ] in
theorem init : (init : TimerMem τ).Shows Clocks.init :=
  ⟨rfl, rfl, rfl, ⟨[], ⟨rfl, trivial, fun _ he => nomatch he⟩, StableSort.nil⟩, Clocks.Good.init⟩

end Shows

/-- **The list of timers is a queue of independent clocks**: from the start of the kernel on, every
sequence of calls runs without a fault and is answered as if each timer counted by itself, also in
the order in which the timers of one tick expire. -/
theorem answers_eq (as : List (TimerCall τ)) :
    (init : TimerMem τ).answers as = .ok ((Clocks.init : Clocks τ).answers as) :=
  Shows.init.answers as

end TimerMem

/-! ### One timer among others -/

omit [Fintype τ]

/-- What a call does to the timer `pt`. -/
def OsTimer.follow (pt : τ) (t : OsTimer) : TimerCall τ → OsTimer
  | .start (some p) millisec => if p = pt then t.svcTimerStart millisec else t
  | .stop (some p) => if p = pt then t.svcTimerStop else t
  | .tick => t.sysTimerTick.2
  | _ => t

/-- Whether the timer expires in a call. -/
def OsTimer.expires (t : OsTimer) : TimerCall τ → Bool
  | .tick => t.sysTimerTick.1
  | _ => false

/-- In which of a sequence of calls the timer `pt` expires. -/
def OsTimer.expiries (pt : τ) : OsTimer → List (TimerCall τ) → List Bool
  | _, [] => []
  | t, a :: as => t.expires a :: OsTimer.expiries pt (t.follow pt a) as

/-- The answer tells that `pt` expires. -/
def TimerAnswer.reports (pt : τ) : TimerAnswer τ → Bool
  | .expired pts => decide (pt ∈ pts)
  | _ => false

theorem OsTimer.sysTimerTick_fst (t : OsTimer) :
    t.sysTimerTick.1 = decide (t.running = true ∧ t.tcnt - 1 = 0) := by
  by_cases hrun : t.running = true
  · by_cases hcnt : t.tcnt - 1 = 0
    · simp [OsTimer.sysTimerTick, hrun, hcnt]
    · simp [OsTimer.sysTimerTick, hrun, hcnt]
  · simp [OsTimer.sysTimerTick, hrun]

namespace Clocks

/-- The clock of `pt` is the periodic timer `t`. -/
structure Sees (c : Clocks τ) (pt : τ) (t : OsTimer) : Prop where
  type : c.type pt = .osTimerPeriodic
  state : c.state pt = if t.running then .osTimerRunning else .osTimerStopped
  armed : t.running = true → (pt, t.tcnt) ∈ c.armed ∧ c.icnt pt = t.icnt

variable {c : Clocks τ} {pt : τ} {t : OsTimer}

namespace Sees

theorem create (h : c.Sees pt t) (p : τ) (type : OsTimerType) : (c.create p type).2.Sees pt t := by
  rw [Clocks.create]
  split
  · rename_i hst
    have hne : pt ≠ p := by
      rintro rfl
      rw [h.state] at hst
      split at hst <;> cases hst
    exact ⟨by simpa [Function.update_of_ne hne] using h.type,
      by simpa [Function.update_of_ne hne] using h.state, h.armed⟩
  · exact h

theorem mem_others (h : (pt, t.tcnt) ∈ c.armed) {p : τ} (hne : pt ≠ p) :
    (pt, t.tcnt) ∈ c.others p := List.mem_filter.2 ⟨h, decide_eq_true hne⟩

theorem start (h : c.Sees pt t) (p : τ) (millisec : ℕ) :
    (c.start (some p) millisec).2.Sees pt (if p = pt then t.svcTimerStart millisec else t) := by
  simp only [Clocks.start, OsTimer.svcTimerStart]
  by_cases htcnt : rtMs2tick millisec = 0
  · simp only [if_pos htcnt, ite_self]
    exact h
  simp only [if_neg htcnt]
  by_cases hp : p = pt
  · subst hp
    simp only [if_true]
    cases hrun : t.running with
    | true =>
      have hst : c.state p = .osTimerRunning := by rw [h.state, hrun]; rfl
      simp only [hst]
      exact ⟨h.type, hst.trans (by simp),
        fun _ => ⟨List.mem_append_right _ (List.mem_singleton_self _), (h.armed hrun).2⟩⟩
    | false =>
      have hst : c.state p = .osTimerStopped := by rw [h.state, hrun]; rfl
      simp only [hst]
      exact ⟨h.type, Function.update_self .., fun _ =>
        ⟨List.mem_append_right _ (List.mem_singleton_self _), Function.update_self ..⟩⟩
  · have hne : pt ≠ p := Ne.symm hp
    simp only [if_neg hp]
    split
    · exact ⟨h.type, h.state, fun hrun =>
        ⟨List.mem_append_left _ (mem_others (h.armed hrun).1 hne), (h.armed hrun).2⟩⟩
    · refine ⟨h.type, ?_, fun hrun => ⟨List.mem_append_left _ (h.armed hrun).1, ?_⟩⟩
      · exact (Function.update_of_ne hne ..).trans h.state
      · exact (Function.update_of_ne hne ..).trans (h.armed hrun).2
    · exact h

theorem stop (h : c.Sees pt t) (p : τ) :
    (c.stop (some p)).2.Sees pt (if p = pt then t.svcTimerStop else t) := by
  rw [Clocks.stop]
  by_cases hp : p = pt
  · subst hp
    rw [if_pos rfl]
    split
    · rename_i hst
      rw [h.state] at hst
      have hrun : t.running = false := by
        cases hrun : t.running with
        | true => simp [hrun] at hst
        | false => rfl
      exact ⟨h.type, by rw [h.state, hrun]; rfl, fun hrun => nomatch hrun⟩
    · exact ⟨h.type, Function.update_self .., fun hrun => nomatch hrun⟩
  · have hne : pt ≠ p := Ne.symm hp
    rw [if_neg hp]
    split
    · exact h
    · exact ⟨h.type, (Function.update_of_ne hne ..).trans h.state, fun hrun =>
        ⟨mem_others (h.armed hrun).1 hne, (h.armed hrun).2⟩⟩

theorem delete (h : c.Sees pt t) {p : τ} (hne : pt ≠ p) : (c.delete (some p)).2.Sees pt t := by
  rw [Clocks.delete]
  split
  · exact h
  · exact ⟨h.type, (Function.update_of_ne hne ..).trans h.state, fun hrun =>
      ⟨mem_others (h.armed hrun).1 hne, (h.armed hrun).2⟩⟩

omit [DecidableEq τ] in
/-- A timer is due when one tick is left for it. -/
theorem mem_due_iff (h : c.Sees pt t) (hgood : c.Good) :
    pt ∈ c.due.map Prod.fst ↔ t.running = true ∧ t.tcnt - 1 = 0 := by
  constructor
  · intro hdue
    have hrun : t.running = true := by
      have hst := (hgood.running pt).2 ((Good.mem_armed_iff pt).2 (Or.inl hdue))
      rw [h.state] at hst
      cases hrun : t.running with
      | true => rfl
      | false => simp [hrun] at hst
    refine ⟨hrun, ?_⟩
    obtain ⟨e, he, rfl⟩ := List.mem_map.1 hdue
    rw [Clocks.due, List.mem_filter, decide_eq_true_eq] at he
    have hmem : (e.1, t.tcnt - 1) ∈ elapse c.armed := List.mem_map_of_mem (h.armed hrun).1
    have heq := List.inj_on_of_nodup_map hgood.nodup_elapse he.1 hmem rfl
    rw [heq] at he
    exact he.2
  · rintro ⟨hrun, hcnt⟩
    refine List.mem_map.2 ⟨(pt, t.tcnt - 1), List.mem_filter.2 ⟨?_, decide_eq_true hcnt⟩, rfl⟩
    exact List.mem_map_of_mem (h.armed hrun).1

theorem tick (h : c.Sees pt t) (hgood : c.Good) : c.tick.2.Sees pt t.sysTimerTick.2 := by
  have hstate : c.tick.2.state pt = c.state pt :=
    if_neg fun hc => OsTimerType.noConfusion (h.type.symm.trans hc.2)
  cases hrun : t.running with
  | false =>
    rw [OsTimer.sysTimerTick_of_stopped hrun]
    exact ⟨h.type, hstate.trans h.state, fun hr => by rw [hrun] at hr; cases hr⟩
  | true =>
    have hdue := h.mem_due_iff hgood
    obtain ⟨hmem, hicnt⟩ := h.armed hrun
    have hmem' : (pt, t.tcnt - 1) ∈ elapse c.armed := List.mem_map_of_mem hmem
    by_cases hcnt : t.tcnt - 1 = 0
    · have htick : t.sysTimerTick.2 = { t with tcnt := t.icnt } := by
        simp [OsTimer.sysTimerTick, hrun, hcnt]
      rw [htick]
      refine ⟨h.type, hstate.trans h.state, fun _ => ⟨List.mem_append_right _ ?_, hicnt⟩⟩
      refine List.mem_map.2 ⟨(pt, t.tcnt - 1), List.mem_filter.2
        ⟨List.mem_filter.2 ⟨hmem', decide_eq_true hcnt⟩, decide_eq_true h.type⟩, ?_⟩
      rw [hicnt]
    · have htick : t.sysTimerTick.2 = { t with tcnt := t.tcnt - 1 } := by
        simp [OsTimer.sysTimerTick, hrun, hcnt]
      rw [htick]
      exact ⟨h.type, hstate.trans h.state, fun _ =>
        ⟨List.mem_append_left _ (List.mem_filter.2 ⟨hmem', decide_eq_true hcnt⟩), hicnt⟩⟩

theorem call (h : c.Sees pt t) (hgood : c.Good) {a : TimerCall τ} (ha : a ≠ .delete (some pt)) :
    (c.call a).2.Sees pt (t.follow pt a) ∧ (c.call a).1.reports pt = t.expires a := by
  cases a with
  | create p type => exact ⟨h.create p type, rfl⟩
  | start p millisec =>
    cases p with
    | none => exact ⟨h, rfl⟩
    | some p => exact ⟨h.start p millisec, rfl⟩
  | stop p =>
    cases p with
    | none => exact ⟨h, rfl⟩
    | some p => exact ⟨h.stop p, rfl⟩
  | delete p =>
    cases p with
    | none => exact ⟨h, rfl⟩
    | some p =>
      refine ⟨h.delete ?_, rfl⟩
      rintro rfl
      exact ha rfl
  | tick =>
    refine ⟨h.tick hgood, ?_⟩
    show decide (pt ∈ c.due.map Prod.fst) = t.sysTimerTick.1
    rw [OsTimer.sysTimerTick_fst, decide_eq_decide]
    exact h.mem_due_iff hgood

theorem answers (h : c.Sees pt t) (hgood : c.Good) {as : List (TimerCall τ)}
    (has : .delete (some pt) ∉ as) :
    (c.answers as).map (TimerAnswer.reports pt) = t.expiries pt as := by
  induction as generalizing c t with
  | nil => rfl
  | cons a as ih =>
    rw [List.mem_cons, not_or] at has
    obtain ⟨hsees, hreports⟩ := h.call hgood (Ne.symm has.1)
    rw [Clocks.answers, List.map_cons, hreports, ih hsees (hgood.call a) has.2, OsTimer.expiries]

end Sees

/-- The clocks after a sequence of calls. -/
def after (c : Clocks τ) (as : List (TimerCall τ)) : Clocks τ :=
  as.foldl (fun c a => (c.call a).2) c

theorem answers_append (c : Clocks τ) (as bs : List (TimerCall τ)) :
    c.answers (as ++ bs) = c.answers as ++ (c.after as).answers bs := by
  induction as generalizing c with
  | nil => rfl
  | cons a as ih => exact congrArg _ (ih _)

theorem length_answers (c : Clocks τ) (as : List (TimerCall τ)) :
    (c.answers as).length = as.length := by
  induction as generalizing c with
  | nil => rfl
  | cons a as ih => exact congrArg (· + 1) (ih _)

theorem Good.after (h : c.Good) (as : List (TimerCall τ)) : (c.after as).Good := by
  induction as generalizing c with
  | nil => exact h
  | cons a as ih => exact ih (h.call a)

/-- A timer that nobody creates does not exist. -/
theorem state_call (h : c.state pt = .osTimerInvalid) (hgood : c.Good) {a : TimerCall τ}
    (ha : ∀ type, a ≠ .create pt type) : (c.call a).2.state pt = .osTimerInvalid := by
  have hne : ∀ p, c.state p ≠ .osTimerInvalid → pt ≠ p := fun p hp heq => hp (heq ▸ h)
  cases a with
  | create p type =>
    have hp : pt ≠ p := by
      rintro rfl
      exact ha type rfl
    simp only [Clocks.call, Clocks.create]
    split
    · exact (Function.update_of_ne hp ..).trans h
    · exact h
  | start p millisec =>
    cases p with
    | none => exact h
    | some p =>
      simp only [Clocks.call, Clocks.start]
      split
      · exact h
      · split
        · exact h
        · rename_i hst
          exact (Function.update_of_ne (hne p (by simp [hst])) ..).trans h
        · exact h
  | stop p =>
    cases p with
    | none => exact h
    | some p =>
      simp only [Clocks.call, Clocks.stop]
      split
      · exact h
      · rename_i hst
        exact (Function.update_of_ne (hne p (by simp_all)) ..).trans h
  | delete p =>
    cases p with
    | none => exact h
    | some p =>
      simp only [Clocks.call, Clocks.delete]
      split
      · exact h
      · rename_i hst
        exact (Function.update_of_ne (hne p hst) ..).trans h
  | tick =>
    have hdue : pt ∉ c.due.map Prod.fst := by
      intro hdue
      have hst := (hgood.running pt).2 ((Good.mem_armed_iff pt).2 (Or.inl hdue))
      rw [h] at hst
      cases hst
    exact (if_neg fun hc => hdue hc.1).trans h

theorem state_after (h : c.state pt = .osTimerInvalid) (hgood : c.Good) {as : List (TimerCall τ)}
    (has : ∀ type, .create pt type ∉ as) : (c.after as).state pt = .osTimerInvalid := by
  induction as generalizing c with
  | nil => exact h
  | cons a as ih =>
    refine ih (state_call h hgood fun type heq => has type ?_) (hgood.call a)
      fun type hmem => has type (List.mem_cons_of_mem _ hmem)
    rw [heq]
    exact List.mem_cons_self

end Clocks

/-- **A periodic timer in the list runs as an `OsTimer`**: from its first creation on, and as long as
it is not deleted, it expires in the same ticks. -/
theorem TimerMem.expiries_eq [Fintype τ] (pt : τ) (as bs : List (TimerCall τ))
    (has : ∀ type, .create pt type ∉ as) (hbs : .delete (some pt) ∉ bs) :
    ∃ ans ans', (init : TimerMem τ).answers (as ++ .create pt .osTimerPeriodic :: bs) =
        .ok (ans ++ ans') ∧ ans.length = as.length + 1 ∧
      ans'.map (TimerAnswer.reports pt) = OsTimer.expiries pt ⟨false, 0, 0⟩ bs := by
  have hgood : ((Clocks.init : Clocks τ).after as).Good := Clocks.Good.init.after as
  have hst := Clocks.state_after (show Clocks.init.state pt = _ from rfl) Clocks.Good.init has
  have hcreate : (((Clocks.init : Clocks τ).after as).create pt .osTimerPeriodic).2.Sees pt
      ⟨false, 0, 0⟩ := by
    rw [Clocks.create, if_pos hst]
    exact ⟨Function.update_self .., Function.update_self .., fun hrun => nomatch hrun⟩
  rw [answers_eq, Clocks.answers_append]
  refine ⟨Clocks.init.answers as ++ [((Clocks.init.after as).call
    (.create pt .osTimerPeriodic)).1], _, ?_, ?_, hcreate.answers (hgood.create pt _) hbs⟩
  · rw [Clocks.answers, List.append_cons]
    rfl
  · rw [List.length_append, Clocks.length_answers]
    rfl

-- one timer is started before and one after the creation
example : ∃ ans ans', (TimerMem.init : TimerMem (Fin 2)).answers
      ([.create 1 .osTimerOnce, .start (some 1) 1] ++ .create 0 .osTimerPeriodic ::
        [.start (some 0) 2, .tick, .tick]) = .ok (ans ++ ans') ∧ ans.length = 2 + 1 ∧
    ans'.map (TimerAnswer.reports 0) = [false, false, true] :=
  TimerMem.expiries_eq 0 [.create 1 .osTimerOnce, .start (some 1) 1] [.start (some 0) 2, .tick, .tick]
    (by simp) (by decide)

/-! ### Timers do not disturb each other -/

/-- The call concerns the timer `pt`: it is a service call for it, or a tick. -/
def TimerCall.concerns (pt : τ) : TimerCall τ → Bool
  | .create p _ => p = pt
  | .start timerId _ | .stop timerId | .delete timerId => timerId = some pt
  | .tick => true

/-- What an answer tells about the timer `pt`. -/
def TimerAnswer.about (pt : τ) : TimerAnswer τ → TimerAnswer τ
  | .expired pts => .expired (pts.filter fun p => p = pt)
  | .created ok => .created ok
  | .status s => .status s

/-- The entries of a timer. -/
def own (pt : τ) (l : List (τ × ℕ)) : List (τ × ℕ) := l.filter fun e => e.1 = pt

theorem own_append (pt : τ) (l l' : List (τ × ℕ)) : own pt (l ++ l') = own pt l ++ own pt l' :=
  List.filter_append ..

theorem own_filter (pt : τ) (p : τ × ℕ → Bool) (l : List (τ × ℕ)) :
    own pt (l.filter p) = (own pt l).filter p := by
  simp only [own, List.filter_filter, Bool.and_comm]

theorem own_map (pt : τ) (f : τ × ℕ → ℕ) (l : List (τ × ℕ)) :
    own pt (l.map fun e => (e.1, f e)) = (own pt l).map fun e => (e.1, f e) := by
  rw [own, List.filter_map]
  rfl

theorem mem_own {pt : τ} {l : List (τ × ℕ)} {e : τ × ℕ} (he : e ∈ own pt l) : e.1 = pt :=
  of_decide_eq_true (List.mem_filter.1 he).2

theorem mem_iff_own (pt : τ) (l : List (τ × ℕ)) :
    pt ∈ l.map Prod.fst ↔ pt ∈ (own pt l).map Prod.fst := by
  simp [own]

theorem map_fst_own (pt : τ) (l : List (τ × ℕ)) :
    (l.map Prod.fst).filter (fun p => p = pt) = (own pt l).map Prod.fst := by
  rw [own, List.filter_map]
  rfl

namespace Clocks

variable {c c' : Clocks τ} {pt p : τ}

theorem own_others (c : Clocks τ) : own p (c.others p) = [] := by
  rw [own, Clocks.others, List.filter_filter]
  exact List.filter_eq_nil_iff.2 fun e _ => by simp

theorem own_others_of_ne (c : Clocks τ) (hne : p ≠ pt) : own pt (c.others p) = own pt c.armed := by
  rw [own, Clocks.others, List.filter_filter]
  refine List.filter_congr fun e _ => ?_
  by_cases heq : e.1 = pt
  · simp [heq, Ne.symm hne]
  · simp [heq]

theorem own_singleton_of_ne (hne : p ≠ pt) (n : ℕ) : own pt [(p, n)] = [] := by
  simp [own, hne]

/-- The clocks agree on the timer `pt`. -/
structure Alike (pt : τ) (c c' : Clocks τ) : Prop where
  state : c.state pt = c'.state pt
  type : c.type pt = c'.type pt
  icnt : c.icnt pt = c'.icnt pt
  armed : own pt c.armed = own pt c'.armed

namespace Alike

theorem own_due (h : Alike pt c c') : own pt c.due = own pt c'.due := by
  rw [due, due, own_filter, own_filter, elapse, elapse, own_map, own_map, h.armed]

theorem own_later (h : Alike pt c c') : own pt c.later = own pt c'.later := by
  rw [later, later, own_filter, own_filter, elapse, elapse, own_map, own_map, h.armed]

/-- The periodic timers that start again. -/
theorem own_restarted (c : Clocks τ) (pt : τ) :
    own pt ((c.due.filter fun e => c.type e.1 = .osTimerPeriodic).map fun e => (e.1, c.icnt e.1)) =
      ((own pt c.due).filter fun _ => c.type pt = .osTimerPeriodic).map
        fun e => (e.1, c.icnt pt) := by
  rw [own_map, own_filter]
  refine (List.map_congr_left fun e he => ?_).trans (congrArg _ (List.filter_congr fun e he => ?_))
  · rw [mem_own (List.mem_filter.1 he).1]
  · rw [mem_own he]

/-- A tick. -/
theorem tick (h : Alike pt c c') : Alike pt c.tick.2 c'.tick.2 where
  state := by
    simp only [Clocks.tick, mem_iff_own pt c.due, mem_iff_own pt c'.due, h.own_due, h.type, h.state]
  type := h.type
  icnt := h.icnt
  armed := by
    simp only [Clocks.tick, own_append, own_restarted, h.own_later, h.own_due, h.type, h.icnt]

/-- **A call that concerns the timer** is answered alike. -/
theorem call (h : Alike pt c c') {a : TimerCall τ} (ha : a.concerns pt = true) :
    (c.call a).1.about pt = (c'.call a).1.about pt ∧ Alike pt (c.call a).2 (c'.call a).2 := by
  cases a with
  | create p type =>
    obtain rfl : p = pt := of_decide_eq_true ha
    simp only [Clocks.call, Clocks.create, h.state]
    split
    · exact ⟨rfl, by simp, by simp, h.icnt, h.armed⟩
    · exact ⟨rfl, h⟩
  | start timerId millisec =>
    obtain rfl : timerId = some pt := of_decide_eq_true ha
    simp only [Clocks.call, Clocks.start, h.state]
    split
    · exact ⟨rfl, h⟩
    · split
      · exact ⟨rfl, h.state, h.type, h.icnt, by simp only [own_append, own_others]⟩
      · exact ⟨rfl, by simp, h.type, by simp, by simp only [own_append, h.armed]⟩
      · exact ⟨rfl, h⟩
  | stop timerId =>
    obtain rfl : timerId = some pt := of_decide_eq_true ha
    simp only [Clocks.call, Clocks.stop, h.state]
    split
    · exact ⟨rfl, h⟩
    · exact ⟨rfl, by simp, h.type, h.icnt, by simp only [own_others]⟩
  | delete timerId =>
    obtain rfl : timerId = some pt := of_decide_eq_true ha
    simp only [Clocks.call, Clocks.delete, h.state]
    split
    · exact ⟨rfl, h⟩
    · exact ⟨rfl, by simp, h.type, h.icnt, by simp only [own_others]⟩
  | tick =>
    refine ⟨congrArg TimerAnswer.expired ?_, h.tick⟩
    show (c.due.map Prod.fst).filter _ = (c'.due.map Prod.fst).filter _
    rw [map_fst_own, map_fst_own, h.own_due]

/-- **A call for another timer** changes nothing of this one. -/
theorem skip (h : Alike pt c c') {a : TimerCall τ} (ha : a.concerns pt = false) :
    Alike pt (c.call a).2 c' := by
  cases a with
  | create p type =>
    have hne : pt ≠ p := fun heq => of_decide_eq_false ha heq.symm
    simp only [Clocks.call, Clocks.create]
    split
    · exact ⟨(Function.update_of_ne hne ..).trans h.state,
        (Function.update_of_ne hne ..).trans h.type, h.icnt, h.armed⟩
    · exact h
  | start timerId millisec =>
    cases timerId with
    | none => exact h
    | some p =>
      have hne : p ≠ pt := fun heq => of_decide_eq_false ha (congrArg some heq)
      simp only [Clocks.call, Clocks.start]
      split
      · exact h
      · split
        · exact ⟨h.state, h.type, h.icnt, by
            rw [own_append, own_others_of_ne c hne, own_singleton_of_ne hne, List.append_nil, h.armed]⟩
        · exact ⟨(Function.update_of_ne hne.symm ..).trans h.state, h.type,
            (Function.update_of_ne hne.symm ..).trans h.icnt, by
            rw [own_append, own_singleton_of_ne hne, List.append_nil, h.armed]⟩
        · exact h
  | stop timerId =>
    cases timerId with
    | none => exact h
    | some p =>
      have hne : p ≠ pt := fun heq => of_decide_eq_false ha (congrArg some heq)
      simp only [Clocks.call, Clocks.stop]
      split
      · exact h
      · exact ⟨(Function.update_of_ne hne.symm ..).trans h.state, h.type, h.icnt,
          (own_others_of_ne c hne).trans h.armed⟩
  | delete timerId =>
    cases timerId with
    | none => exact h
    | some p =>
      have hne : p ≠ pt := fun heq => of_decide_eq_false ha (congrArg some heq)
      simp only [Clocks.call, Clocks.delete]
      split
      · exact h
      · exact ⟨(Function.update_of_ne hne.symm ..).trans h.state, h.type, h.icnt,
          (own_others_of_ne c hne).trans h.armed⟩
  | tick => cases ha

/-- **Any sequence of calls**: what the timer sees of it. -/
theorem answers (h : Alike pt c c') (as : List (TimerCall τ)) :
    ((as.zip (c.answers as)).filter fun x => x.1.concerns pt).map (fun x => x.2.about pt) =
      (c'.answers (as.filter (TimerCall.concerns pt))).map (TimerAnswer.about pt) := by
  induction as generalizing c c' with
  | nil => rfl
  | cons a as ih =>
    cases ha : a.concerns pt with
    | true =>
      obtain ⟨hanswer, hnext⟩ := h.call ha
      simp only [Clocks.answers, List.zip_cons_cons, List.filter_cons, ha, if_true, List.map_cons,
        hanswer, ih hnext]
    | false =>
      simp only [Clocks.answers, List.zip_cons_cons, List.filter_cons, ha, Bool.false_eq_true,
        if_false, ih (h.skip ha)]

end Alike

end Clocks

/-- **Timers do not disturb each other.**  In every sequence of calls, the calls for a timer are
answered, and it expires in the ticks, as if the calls for the other timers were not made. -/
theorem TimerMem.alone_eq [Fintype τ] (pt : τ) (as : List (TimerCall τ)) :
    ∃ ans ans', (init : TimerMem τ).answers as = .ok ans ∧ ans.length = as.length ∧
      (init : TimerMem τ).answers (as.filter (TimerCall.concerns pt)) = .ok ans' ∧
      ((as.zip ans).filter fun x => x.1.concerns pt).map (fun x => x.2.about pt) =
        ans'.map (TimerAnswer.about pt) :=
  ⟨_, _, answers_eq as, Clocks.length_answers _ as, answers_eq _,
    Clocks.Alike.answers ⟨rfl, rfl, rfl, rfl⟩ as⟩

end Rtx

end UavTelemetry
