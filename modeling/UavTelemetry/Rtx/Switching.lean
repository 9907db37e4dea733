import UavTelemetry.Rtx.Scheduling

/-!
# The highest ready task runs

What the functions of `Scheduling` do to a kernel in which every task but the running one has its
place and the running one has the highest priority (`Sched.Valid`).  No function follows a null
pointer, and each leaves the kernel in such a state.

## Main definitions

* `Sched.Valid s q d pos` : the state of the kernel between two entries.
* `Sched.Turn` : what a part of a service call leaves as it is.
* `Sched.InSlice` : the round robin task has time left.

## Main results

* `Sched.Valid.rtDispatch`, `Sched.Valid.rtBlock`, `Sched.Valid.wakeFirst`, `Sched.Valid.waitFor`,
  `Sched.Valid.rtTskPass`, `Sched.Valid.rtTskPrio` : the service calls of a running task.
* `Sched.Valid.systick` : the tick.
-/

namespace UavTelemetry

namespace Rtx

variable {τ ι : Type} [DecidableEq τ] [DecidableEq ι]

namespace Placed

variable {l : Links τ (Obj ι)} {dl : Delays τ} {prio : τ → ℕ} {st : τ → TcbState} {i t : τ}
  {q : Option (Obj ι) → List τ} {d : List (τ × ℕ)} {pos : τ → Option (Option (Obj ι))}
  {X Y : List τ}

omit [DecidableEq τ] [DecidableEq ι] in
/-- The order of the tasks in hand does not matter. -/
theorem swap (h : Placed l dl prio st i q d pos X) (hX : ∀ t, t ∈ Y ↔ t ∈ X) :
    Placed l dl prio st i q d pos Y :=
  ⟨h.links, h.delays, h.mem_iff, h.sorted, fun t ht => h.fits t (mt (hX t).2 ht),
    fun t ht => h.out t ((hX t).1 ht), fun hi => h.idle_ready (mt (hX i).2 hi)⟩

omit [DecidableEq ι] in
/-- The state of a task in hand does not matter. -/
theorem setState (h : Placed l dl prio st i q d pos X) (ht : t ∈ X) (stt : TcbState) :
    Placed l dl prio (Function.update st t stt) i q d pos X := by
  refine ⟨h.links, h.delays, h.mem_iff, h.sorted, fun u hu => ?_, h.out, fun hi => ?_⟩
  · rw [Function.update_of_ne (ne_of_mem_of_not_mem ht hu).symm]
    exact h.fits u hu
  · rw [Function.update_of_ne (ne_of_mem_of_not_mem ht hi).symm]
    exact h.idle_ready hi

end Placed

namespace Sched

/-- A part of a service call, by which the tasks `T` are ready or running afterwards: the states of
the other tasks, the clock and the round robin are left as they are. -/
structure Turn (s s' : Sched τ ι) (T : List τ) : Prop where
  run : s'.run = s.run
  time : s'.time = s.time
  robinTask : s'.robinTask = s.robinTask
  robinTime : s'.robinTime = s.robinTime
  idle : s'.idle = s.idle
  others : ∀ u ∉ T, s'.state u = s.state u
  awake : ∀ u ∈ T, s'.state u = .ready ∨ s'.state u = .running

/-- The clock and the round robin are left as they are. -/
structure SameSlice (s s' : Sched τ ι) : Prop where
  time : s'.time = s.time
  robinTask : s'.robinTask = s.robinTask
  robinTime : s'.robinTime = s.robinTime

omit [DecidableEq τ] [DecidableEq ι] in
theorem Turn.slice {s s' : Sched τ ι} {T : List τ} (h : s.Turn s' T) : s.SameSlice s' :=
  ⟨h.time, h.robinTask, h.robinTime⟩

omit [DecidableEq τ] [DecidableEq ι] in
theorem SameSlice.trans {s₁ s₂ s₃ : Sched τ ι} (h₁ : s₁.SameSlice s₂) (h₂ : s₂.SameSlice s₃) :
    s₁.SameSlice s₃ :=
  ⟨h₂.time.trans h₁.time, h₂.robinTask.trans h₁.robinTask, h₂.robinTime.trans h₁.robinTime⟩

/-- The round robin task has at most 3 ticks left before the tick that ends its turn. -/
def InSlice (s : Sched τ ι) : Prop :=
  s.robinTask ≠ none → ∃ j < 4, s.robinTime = (s.time + j) % 0x10000

omit [DecidableEq τ] [DecidableEq ι] in
theorem InSlice.congr {s s' : Sched τ ι} (h : s.InSlice) (hs : s.SameSlice s') : s'.InSlice := by
  intro hne
  rw [hs.robinTask] at hne
  rw [hs.robinTime, hs.time]
  exact h hne

/-- The state of the kernel between two entries: every task but the running one has its place, and
the running task has the highest priority. -/
structure Valid (s : Sched τ ι) (q : Option (Obj ι) → List τ) (d : List (τ × ℕ))
    (pos : τ → Option (Option (Obj ι))) : Prop where
  placed : Placed s.links s.delays s.prio s.state s.idle q d pos [s.newTsk]
  running : s.state s.newTsk = .running
  top : ∀ t, pos t = some none → s.prio t ≤ s.prio s.newTsk
  /-- No time-out has expired. -/
  due : ∀ e ∈ d, 0 < e.2

variable {s : Sched τ ι} {q : Option (Obj ι) → List τ} {d : List (τ × ℕ)}
  {pos : τ → Option (Option (Obj ι))} {t : τ} {o : Obj ι} {xs : List τ}

omit [DecidableEq ι] in
theorem turn_running {s' : Sched τ ι} (hrun : s'.run = s.run) (htime : s'.time = s.time)
    (htask : s'.robinTask = s.robinTask) (hrobin : s'.robinTime = s.robinTime)
    (hidle : s'.idle = s.idle) (hstate : s'.state = Function.update s.state t .running) :
    s.Turn s' [t] := by
  refine ⟨hrun, htime, htask, hrobin, hidle, fun u hu => ?_, fun u hu => Or.inr ?_⟩
  · rw [hstate]
    exact Function.update_of_ne (by simpa using hu) ..
  · rw [hstate, List.mem_singleton.1 hu]
    exact Function.update_self ..

/-- **The highest ready task is dispatched** when every task has its place. -/
theorem dispatchFirst [Fintype τ]
    (h : Placed s.links s.delays s.prio s.state s.idle q d pos []) (hdue : ∀ e ∈ d, 0 < e.2) :
    ∃ t xs s', q none = t :: xs ∧ s.runFirst = .ok s' ∧ s.Turn s' [t] ∧ s'.prio = s.prio ∧
      s'.newTsk = t ∧ s'.Valid (Function.update q none xs) d (Function.update pos t none) := by
  obtain ⟨t, xs, l', hq, hl', htop, -, -, hplaced⟩ := h.getReady (h.ready_ne_nil List.not_mem_nil)
  refine ⟨t, xs, ({ s with links := l' } : Sched τ ι).rtSwitchReq t, hq, ?_,
    turn_running rfl rfl rfl rfl rfl rfl, rfl, rfl, hplaced.setState List.mem_cons_self _,
    Function.update_self .., fun u hu => ?_, hdue⟩
  · simp only [runFirst, rtGetFirst, hl']
    rfl
  · refine htop u ?_
    by_cases hut : u = t
    · rw [hut, Function.update_self] at hu
      cases hu
    · rwa [Function.update_of_ne hut] at hu

/-- **A task in hand is dispatched**: it runs if its priority is higher than that of the running
task, else it becomes ready. -/
theorem dispatchSome [Fintype τ]
    (h : Placed s.links s.delays s.prio s.state s.idle q d pos [t, s.newTsk])
    (hrun : s.run = s.newTsk) (ht : t ≠ s.newTsk) (hrunning : s.state s.newTsk = .running)
    (htop : ∀ u, pos u = some none → s.prio u ≤ s.prio s.newTsk) (hdue : ∀ e ∈ d, 0 < e.2) :
    ∃ s' q' pos', s.rtDispatch (some t) = .ok s' ∧ s.Turn s' [t, s.newTsk] ∧ s'.prio = s.prio ∧
      (∀ o, q' (some o) = q (some o)) ∧ s'.Valid q' d pos' := by
  by_cases hlt : s.prio s.run < s.prio t
  · have hfirst := (h.swap (Y := [s.run, t]) (fun u => by simp [hrun, or_comm])).putFirst
      (by simpa [hrun] using ht.symm) (hrun ▸ htop)
    refine ⟨_, _, _, if_pos hlt, ⟨rfl, rfl, rfl, rfl, rfl, fun u hu => ?_, fun u hu => ?_⟩, rfl,
      fun o => Function.update_of_ne (Option.some_ne_none o) ..,
      hfirst.setState List.mem_cons_self _, Function.update_self .., fun u hu => ?_, hdue⟩
    · rw [List.mem_cons, List.mem_singleton, not_or, ← hrun] at hu
      exact (Function.update_of_ne hu.1 ..).trans (Function.update_of_ne hu.2 ..)
    · rw [List.mem_cons, List.mem_singleton, ← hrun] at hu
      by_cases hut : u = t
      · exact Or.inr (hut ▸ Function.update_self ..)
      · refine Or.inl ((Function.update_of_ne hut ..).trans ?_)
        exact hu.resolve_left hut ▸ Function.update_self ..
    · by_cases hur : u = s.run
      · exact hur ▸ hlt.le
      · rw [Function.update_of_ne hur] at hu
        exact ((htop u hu).trans (hrun ▸ le_rfl)).trans hlt.le
  · obtain ⟨l', hl', hput⟩ := h.putReady (by simpa using ht)
    refine ⟨{ s.setState t .ready with links := l' }, _, _, ?_,
      ⟨rfl, rfl, rfl, rfl, rfl, fun u hu => ?_, fun u hu => ?_⟩, rfl,
      fun o => Function.update_of_ne (Option.some_ne_none o) .., hput, ?_, fun u hu => ?_,
      hdue⟩
    · simp only [rtDispatch, gt_iff_lt, if_neg hlt]
      exact congrArg (Except.map _) hl'
    · exact Function.update_of_ne (show u ≠ t from fun heq => hu (heq ▸ List.mem_cons_self)) ..
    · rw [List.mem_cons, List.mem_singleton] at hu
      by_cases hut : u = t
      · exact Or.inl (hut ▸ Function.update_self ..)
      · refine Or.inr ((Function.update_of_ne hut ..).trans ?_)
        rw [hu.resolve_left hut, hrunning]
    · exact (Function.update_of_ne ht.symm ..).trans hrunning
    · show s.prio u ≤ s.prio s.newTsk
      by_cases hut : u = t
      · rw [hut, ← hrun]
        exact not_lt.1 hlt
      · rw [Function.update_of_ne hut] at hu
        exact htop u hu

omit [DecidableEq τ] [DecidableEq ι] in
/-- `rt_rdy_prio` is the highest priority of a ready task. -/
theorem rtRdyPrio_eq {X : List τ} (h : Placed s.links s.delays s.prio s.state s.idle q d pos X)
    (hne : q none ≠ []) :
    ∃ f, pos f = some none ∧ s.rtRdyPrio = .ok (s.prio f) ∧
      ∀ u, pos u = some none → s.prio u ≤ s.prio f := by
  obtain ⟨f, xs, hq⟩ := List.exists_cons_of_ne_nil hne
  have hpath := h.links.path none
  rw [hq] at hpath
  have hhead : s.links.lnk .rdy = some f := hpath.1
  have hsorted := h.sorted none
  rw [hq] at hsorted
  refine ⟨f, (h.mem_iff f none).1 (hq ▸ List.mem_cons_self), by rw [rtRdyPrio, hhead], fun u hu => ?_⟩
  have hmem := (h.mem_iff u none).2 hu
  rw [hq] at hmem
  cases hmem with
  | head => exact le_rfl
  | tail _ hmem => exact hsorted.head_le u hmem

/-- The running task becomes ready and the highest ready task runs. -/
theorem preempt_eq [Fintype τ]
    (h : Placed s.links s.delays s.prio s.state s.idle q d pos [s.newTsk])
    (hrun : s.run = s.newTsk) (hdue : ∀ e ∈ d, 0 < e.2) :
    ∃ T s' q' pos', s.preempt = .ok s' ∧ s.Turn s' T ∧
      (∀ u ∈ T, pos u = some none ∨ u = s.newTsk) ∧ s'.prio = s.prio ∧
      (∀ o, q' (some o) = q (some o)) ∧ s'.Valid q' d pos' := by
  rw [← hrun] at h
  obtain ⟨l', hl', hput⟩ := h.putReady List.not_mem_nil
  obtain ⟨t, xs, s', hq, hs', hturn, hprio, -, hvalid⟩ := dispatchFirst
    (s := ({ s with links := l' } : Sched τ ι).setState s.run .ready) hput hdue
  have ht : pos t = some none ∨ t = s.run := by
    have hmem := (hput.mem_iff t none).1 (hq ▸ List.mem_cons_self)
    by_cases htr : t = s.run
    · exact Or.inr htr
    · rw [Function.update_of_ne htr] at hmem
      exact Or.inl hmem
  refine ⟨[t, s.newTsk], s', _, _, ?_, ⟨hturn.run, hturn.time, hturn.robinTask, hturn.robinTime,
    hturn.idle, fun u hu => ?_, fun u hu => ?_⟩, fun u hu => ?_, hprio, fun o => ?_, hvalid⟩
  · rw [preempt, rtPutPrio, hl']
    exact hs'
  · rw [List.mem_cons, List.mem_singleton, not_or, ← hrun] at hu
    exact (hturn.others u (by simpa using hu.1)).trans (Function.update_of_ne hu.2 ..)
  · rw [List.mem_cons, List.mem_singleton, ← hrun] at hu
    by_cases hut : u = t
    · exact hturn.awake u (hut ▸ List.mem_singleton_self _)
    · refine Or.inl ((hturn.others u (by simpa using hut)).trans ?_)
      exact hu.resolve_left hut ▸ Function.update_self ..
  · rw [List.mem_cons, List.mem_singleton] at hu
    obtain rfl | hu := hu
    · exact hrun ▸ ht
    · exact Or.inr hu
  · exact (Function.update_of_ne (Option.some_ne_none o) ..).trans
      (Function.update_of_ne (Option.some_ne_none o) ..)

omit [DecidableEq τ] [DecidableEq ι] in
theorem turn_refl (s : Sched τ ι) : s.Turn s [] :=
  ⟨rfl, rfl, rfl, rfl, rfl, fun _ _ => rfl, fun _ hu => nomatch hu⟩

/-- The running task gives way if a ready task has a higher priority, which may be so after its own
priority has changed. -/
theorem giveWay_eq [Fintype τ]
    (h : Placed s.links s.delays s.prio s.state s.idle q d pos [s.newTsk])
    (hrunning : s.state s.newTsk = .running) (hrun : s.run = s.newTsk) (hdue : ∀ e ∈ d, 0 < e.2)
    {p : ℕ} (hp : ∀ u, pos u = some none → s.prio u ≤ p) :
    ∃ T s' q' pos', s.giveWay p = .ok s' ∧ s.Turn s' T ∧
      (∀ u ∈ T, pos u = some none ∨ u = s.newTsk) ∧ s'.prio = s.prio ∧
      (∀ o, q' (some o) = q (some o)) ∧ s'.Valid q' d pos' := by
  rw [giveWay]
  split
  · exact preempt_eq h hrun hdue
  · rename_i hle
    exact ⟨[], s, q, pos, rfl, turn_refl s, (fun _ hu => nomatch hu), rfl, fun _ => rfl, h, hrunning,
      fun u hu => hrun ▸ (hp u hu).trans (not_lt.1 hle), hdue⟩

namespace Valid

omit [DecidableEq τ] [DecidableEq ι] in
/-- The running task is in no list. -/
theorem pos_run (h : s.Valid q d pos) : pos s.newTsk = none :=
  (h.placed.out _ List.mem_cons_self).1

omit [DecidableEq τ] [DecidableEq ι] in
theorem ne_run (h : s.Valid q d pos) (ht : s.state t ≠ .running) : t ≠ s.newTsk := by
  rintro rfl
  exact ht h.running

omit [DecidableEq τ] [DecidableEq ι] in
theorem fits (h : s.Valid q d pos) (ht : t ≠ s.newTsk) :
    Fits (s.state t) (pos t) (t ∈ d.map Prod.fst) :=
  h.placed.fits t (by simpa using ht)

/-! ### The running task waits -/

/-- The running task gives up the processor and the highest ready task runs. -/
theorem giveUp [Fintype τ] {l' : Links τ (Obj ι)} {dl' : Delays τ} {stt : TcbState}
    {q' : Option (Obj ι) → List τ} {d' : List (τ × ℕ)} {pos' : τ → Option (Option (Obj ι))}
    (hdue : ∀ e ∈ d', 0 < e.2)
    (h : Placed l' dl' s.prio (Function.update s.state s.run stt) s.idle q' d' pos' []) :
    ∃ t xs s', ({ s with links := l', delays := dl' }.setState s.run stt).runFirst = .ok s' ∧
      q' none = t :: xs ∧
      (s.setState s.run stt).Turn s' [t] ∧ s'.prio = s.prio ∧ s'.newTsk = t ∧
      s'.Valid (Function.update q' none xs) d' (Function.update pos' t none) := by
  obtain ⟨t, xs, s', hq, hs', hturn, hprio, hnew, hvalid⟩ := dispatchFirst
    (s := ({ s with links := l', delays := dl' } : Sched τ ι).setState s.run stt) h hdue
  exact ⟨t, xs, s', hs', hq, ⟨hturn.run, hturn.time, hturn.robinTask, hturn.robinTime, hturn.idle,
    hturn.others, hturn.awake⟩, hprio, hnew, hvalid⟩

omit [DecidableEq τ] [DecidableEq ι] in
theorem due_delayed [DecidableEq τ] {timeout : ℕ} (hdue : ∀ e ∈ d, 0 < e.2) (ht : timeout ≠ 0) :
    ∀ e ∈ Placed.delayed t timeout d, 0 < e.2 := by
  intro e he
  rw [Placed.delayed] at he
  split at he
  · obtain rfl | he := mem_insertFirst.1 he
    · exact Nat.pos_of_ne_zero ht
    · exact hdue e he
  · exact hdue e he

/-- **`rt_block`, for a wait that needs no list.** -/
theorem rtBlock [Fintype τ] (h : s.Valid q d pos) (hrun : s.run = s.newTsk) (hi : s.run ≠ s.idle)
    {timeout : ℕ} (ht : timeout ≠ 0) {stt : TcbState}
    (hfits : ∀ timed, Fits stt (none : Option (Option (Obj ι))) timed) :
    ∃ t xs s', s.rtBlock timeout stt = .ok s' ∧ q none = t :: xs ∧
      (s.setState s.run stt).Turn s' [t] ∧ s'.prio = s.prio ∧ s'.newTsk = t ∧
      s'.Valid (Function.update q none xs) (Placed.delayed s.run timeout d)
        (Function.update pos t none) := by
  have hplaced := h.placed
  rw [← hrun] at hplaced
  obtain ⟨dl', hdl', hblock⟩ := hplaced.block List.not_mem_nil hi timeout hfits
  obtain ⟨t, xs, s', hs', hq, hrest⟩ := giveUp (due_delayed h.due ht) hblock
  refine ⟨t, xs, s', ?_, hq, hrest⟩
  rw [Sched.rtBlock, if_pos ht, hdl', ok_bind]
  exact hs'

/-- **The running task waits for an object.** -/
theorem waitFor [Fintype τ] (h : s.Valid q d pos) (hrun : s.run = s.newTsk) (hi : s.run ≠ s.idle)
    (o : Obj ι) {timeout : ℕ} (ht : timeout ≠ 0) :
    ∃ t xs s', s.waitFor o timeout = .ok s' ∧ q none = t :: xs ∧
      (s.setState s.run o.waitState).Turn s' [t] ∧ s'.prio = s.prio ∧ s'.newTsk = t ∧
      s'.Valid (Function.update (Function.update q (some o)
          (insertLast (rank s.prio) s.run (q (some o)))) none xs)
        (Placed.delayed s.run timeout d)
        (Function.update (Function.update pos s.run (some (some o))) t none) := by
  have hplaced := h.placed
  rw [← hrun] at hplaced
  obtain ⟨l', dl', hl', hdl', hwait⟩ := hplaced.wait List.not_mem_nil hi o timeout
  obtain ⟨t, xs, s', hs', hq, hrest⟩ := giveUp (due_delayed h.due ht) hwait
  refine ⟨t, xs, s', ?_, hq, hrest⟩
  rw [Sched.waitFor, hl', ok_bind, Sched.rtBlock, if_pos ht]
  show (s.delays.putTimeout s.run timeout >>= _) = _
  rw [hdl', ok_bind]
  exact hs'

/-! ### The running task wakes another -/

/-- The first task that waits for an object is taken in hand. -/
theorem takeWaiter (h : s.Valid q d pos) (hq : q (some o) = t :: xs) :
    ∃ l', s.takeWaiter o = .ok (t, { s with links := l', delays := s.delays.rtRmvDly t }) ∧
      t ≠ s.newTsk ∧ s.state t = o.waitState ∧
      (∀ u, pos u = some (some o) → s.prio u ≤ s.prio t) ∧
      Placed l' (s.delays.rtRmvDly t) s.prio s.state s.idle (Function.update q (some o) xs)
        (d.filter fun e => e.1 ≠ t) (Function.update pos t none) [t, s.newTsk] := by
  obtain ⟨l', hl', ht, hstate, htop, hplaced⟩ := h.placed.getFirst hq
  refine ⟨l', ?_, by simpa using ht, hstate, htop, hplaced⟩
  rw [Sched.takeWaiter, rtGetFirst, hl']
  rfl

omit [DecidableEq ι] in
theorem top_update (h : s.Valid q d pos) {u : τ}
    (hu : Function.update pos t none u = some none) : s.prio u ≤ s.prio s.newTsk := by
  refine h.top u ?_
  by_cases hut : u = t
  · rw [hut, Function.update_self] at hu
    cases hu
  · rwa [Function.update_of_ne hut] at hu

omit [DecidableEq ι] in
theorem due_filter (hdue : ∀ e ∈ d, 0 < e.2) : ∀ e ∈ d.filter fun e => e.1 ≠ t, 0 < e.2 :=
  fun e he => hdue e (List.mem_of_mem_filter he)

/-- **The first task that waits for an object is dispatched.** -/
theorem wakeFirst [Fintype τ] (h : s.Valid q d pos) (hrun : s.run = s.newTsk)
    (hq : q (some o) = t :: xs) :
    ∃ s₁ s' q' pos', s.takeWaiter o = .ok (t, s₁) ∧ s₁.rtDispatch (some t) = .ok s' ∧
      s.Turn s' [t, s.newTsk] ∧ s'.prio = s.prio ∧ q' (some o) = xs ∧
      (∀ o', o' ≠ o → q' (some o') = q (some o')) ∧
      s'.Valid q' (d.filter fun e => e.1 ≠ t) pos' := by
  obtain ⟨l', hl', ht, -, -, hplaced⟩ := h.takeWaiter hq
  obtain ⟨s', q', pos', hs', hturn, hprio, hq', hvalid⟩ := dispatchSome
    (s := { s with links := l', delays := s.delays.rtRmvDly t }) hplaced hrun ht h.running
    (fun u hu => h.top_update hu) (due_filter h.due)
  refine ⟨_, s', q', pos', hl', hs', ⟨hturn.run, hturn.time, hturn.robinTask, hturn.robinTime,
    hturn.idle, hturn.others, hturn.awake⟩, hprio, (hq' o).trans (Function.update_self ..),
    fun o' ho => (hq' o').trans (Function.update_of_ne (fun heq => ho (Option.some.inj heq)) ..),
    hvalid⟩

/-- **A task that waits for events is dispatched.** -/
theorem wakeEvent [Fintype τ] (h : s.Valid q d pos) (hrun : s.run = s.newTsk)
    (ht : s.state t = .waitOr ∨ s.state t = .waitAnd) :
    ∃ s' q' pos', ((s.rtRmvDly t).setState t .ready).rtDispatch (some t) = .ok s' ∧
      s.Turn s' [t, s.newTsk] ∧ s'.prio = s.prio ∧ (∀ o, q' (some o) = q (some o)) ∧
      s'.Valid q' (d.filter fun e => e.1 ≠ t) pos' := by
  have hne : t ≠ s.newTsk := h.ne_run (by obtain ht | ht := ht <;> rw [ht] <;> nofun)
  have hpos : pos t = none := by
    have hfits := h.fits hne
    obtain ht | ht := ht <;> rw [ht] at hfits <;> exact hfits
  have hhold := h.placed.hold hpos (h.placed.delays.rtRmvDly t) (fun _ => Placed.mem_others)
    Placed.notMem_others
  have hrunning : ((s.rtRmvDly t).setState t .ready).state s.newTsk = .running :=
    (Function.update_of_ne hne.symm ..).trans h.running
  obtain ⟨s', q', pos', hs', hturn, hprio, hq', hvalid⟩ := dispatchSome
    (s := (s.rtRmvDly t).setState t .ready) (hhold.setState List.mem_cons_self _) hrun hne hrunning
    h.top (due_filter h.due)
  refine ⟨s', q', pos', hs', ⟨hturn.run, hturn.time, hturn.robinTask, hturn.robinTime,
    hturn.idle, fun u hu => (hturn.others u hu).trans ?_, hturn.awake⟩, hprio, hq', hvalid⟩
  exact Function.update_of_ne (show u ≠ t from fun heq => hu (heq ▸ List.mem_cons_self)) ..

/-! ### The running task gives way -/

omit [DecidableEq τ] [DecidableEq ι] in
/-- While another task runs, the idle demon is ready. -/
theorem ready_ne_nil (h : s.Valid q d pos) (hi : s.newTsk ≠ s.idle) : q none ≠ [] :=
  h.placed.ready_ne_nil (by simpa using hi.symm)

/-- `rt_tsk_pass` lets a ready task of the same priority run. -/
theorem rtTskPass [Fintype τ] (h : s.Valid q d pos) (hrun : s.run = s.newTsk)
    (hi : s.newTsk ≠ s.idle) :
    ∃ T s' q' pos', s.rtTskPass = .ok s' ∧ s.Turn s' T ∧ (∀ u ∈ T, pos u = some none ∨ u = s.newTsk) ∧
      s'.prio = s.prio ∧ (∀ o, q' (some o) = q (some o)) ∧ s'.Valid q' d pos' := by
  obtain ⟨f, xs, hq⟩ := List.exists_cons_of_ne_nil (h.ready_ne_nil hi)
  have hpos : pos f = some none := (h.placed.mem_iff f none).1 (hq ▸ List.mem_cons_self)
  have hsame := h.placed.links.rtGetSameRdyPrio s.prio (s.prio s.run) hq
  split at hsame
  · rename_i hprio
    obtain ⟨l₁, hl₁, hrep₁⟩ := hsame
    have hf : f ≠ s.run := by
      rintro rfl
      rw [hrun, h.pos_run] at hpos
      cases hpos
    have hfits := h.fits (hrun ▸ hf)
    rw [hpos] at hfits
    have htake := h.placed.take (show q none = [] ++ f :: xs from hq) hrep₁ h.placed.delays
      (fun _ _ => Iff.rfl) hfits.ready.2
    rw [← hrun] at htake
    obtain ⟨l₂, hl₂, hput⟩ := (htake.swap (Y := [s.run, f]) (fun u => by simp [or_comm])).putReady
      (by simpa using hf.symm)
    have hrunning := hput.setState List.mem_cons_self TcbState.running
    refine ⟨[f, s.run], (({ s with links := l₂ } : Sched τ ι).setState s.run .ready).rtSwitchReq f, _,
      _, ?_, ⟨rfl, rfl, rfl, rfl, rfl, fun u hu => ?_, fun u hu => ?_⟩, fun u hu => ?_, rfl,
      fun o => ?_, hrunning, Function.update_self .., fun u hu => ?_, h.due⟩
    · rw [Sched.rtTskPass, hl₁, ok_bind]
      show (Except.map _ _ >>= _) = _
      rw [hl₂]
      rfl
    · rw [List.mem_cons, List.mem_singleton, not_or] at hu
      exact (Function.update_of_ne hu.1 ..).trans (Function.update_of_ne hu.2 ..)
    · rw [List.mem_cons, List.mem_singleton] at hu
      by_cases huf : u = f
      · exact Or.inr (huf ▸ Function.update_self ..)
      · refine Or.inl ((Function.update_of_ne huf ..).trans ?_)
        exact hu.resolve_left huf ▸ Function.update_self ..
    · rw [List.mem_cons, List.mem_singleton, hrun] at hu
      exact hu.imp_left fun heq : u = f => heq ▸ hpos
    · exact (Function.update_of_ne (Option.some_ne_none o) ..).trans
        (Function.update_of_ne (Option.some_ne_none o) ..)
    · show s.prio u ≤ s.prio f
      rw [hprio]
      by_cases hur : u = s.run
      · rw [hur]
      · rw [Function.update_of_ne hur] at hu
        exact hrun ▸ h.top_update hu
  · refine ⟨[], s, q, pos, ?_, turn_refl s, (fun _ hu => nomatch hu), rfl, fun _ => rfl, h⟩
    rw [Sched.rtTskPass, hsame]
    rfl

/-- `rt_tsk_prio` changes the priority of a task. -/
theorem rtTskPrio [Fintype τ] (h : s.Valid q d pos) (hrun : s.run = s.newTsk)
    (hne : q none ≠ []) (taskId : Option τ) (p : ℕ) :
    ∃ r T s' q' pos', s.rtTskPrio taskId p = .ok (r, s') ∧ s.Turn s' T ∧
      (∀ u ∈ T, pos u = some none ∨ u = s.newTsk) ∧
      (s'.prio = s.prio ∨ s'.prio = Function.update s.prio (taskId.getD s.run) p) ∧
      (∀ o, (q' (some o)).Perm (q (some o))) ∧ s'.Valid q' d pos' := by
  by_cases hfound : taskId ≠ none ∧ s.state (taskId.getD s.run) = .inactive
  · exact ⟨false, [], s, q, pos, if_pos hfound, turn_refl s, (fun _ hu => nomatch hu), Or.inl rfl,
      fun _ => List.Perm.refl _, h⟩
  by_cases ht : taskId.getD s.run = s.run
  · -- the running task
    have hset := h.placed.setPrio (t := s.run) (hrun ▸ h.pos_run) p
    obtain ⟨f, hf, hrdy, htop⟩ :=
      rtRdyPrio_eq (s := { s with prio := Function.update s.prio s.run p }) hset hne
    obtain ⟨T, s', q', pos', hs', hturn, hT, hprio, hq', hvalid⟩ :=
      giveWay_eq (s := { s with prio := Function.update s.prio s.run p }) hset h.running hrun h.due htop
    refine ⟨true, T, s', q', pos', ?_, ⟨hturn.run, hturn.time, hturn.robinTask, hturn.robinTime,
      hturn.idle, hturn.others, hturn.awake⟩, hT, Or.inr (ht.symm ▸ hprio),
      fun o => hq' o ▸ List.Perm.refl _, hvalid⟩
    rw [Sched.rtTskPrio, if_neg hfound, if_pos ht]
    simp only [ht, hrdy, ok_bind, hs']
    rfl
  · have htnew : taskId.getD s.run ≠ s.newTsk := hrun ▸ ht
    obtain ⟨l', q₁, hl', hperm, hplaced⟩ := h.placed.resort (by simpa using htnew) p
    have hprio : ∀ u, u ≠ taskId.getD s.run →
        Function.update s.prio (taskId.getD s.run) p u = s.prio u := fun u hu =>
      Function.update_of_ne hu ..
    by_cases hready : s.state (taskId.getD s.run) = .ready
    · have hne₁ : q₁ none ≠ [] := fun hnil => hne ((hnil ▸ hperm none).nil_eq.symm)
      obtain ⟨f, xs, l₂, hq₁, hl₂, htop, hf, -, htake⟩ := hplaced.getReady hne₁
      have hfr : f ≠ s.newTsk := by simpa using hf
      -- the priority may have been raised, but then it is the first ready task that has it
      have htop' : ∀ u, Function.update pos f none u = some none →
          Function.update s.prio (taskId.getD s.run) p u ≤
            Function.update s.prio (taskId.getD s.run) p s.newTsk := by
        intro u hu
        have huf : u ≠ f := by
          rintro rfl
          rw [Function.update_self] at hu
          cases hu
        rw [Function.update_of_ne huf] at hu
        rw [hprio _ (Ne.symm htnew)]
        by_cases hut : u = taskId.getD s.run
        · have hle := htop u hu
          rw [hprio f (hut ▸ huf.symm)] at hle
          exact hle.trans (h.top f ((h.placed.mem_iff f none).1
            ((hperm none).mem_iff.1 (hq₁ ▸ List.mem_cons_self))))
        · rw [hprio u hut]
          exact h.top u hu
      obtain ⟨s', q', pos', hs', hturn, hprio', hq', hvalid⟩ := dispatchSome
        (s := { s with links := l₂, prio := Function.update s.prio (taskId.getD s.run) p }) htake
        hrun hfr h.running htop' h.due
      refine ⟨true, [f, s.newTsk], s', q', pos', ?_, ⟨hturn.run, hturn.time, hturn.robinTask,
        hturn.robinTime, hturn.idle, hturn.others, hturn.awake⟩, fun u hu => ?_, Or.inr hprio',
        fun o => ?_, hvalid⟩
      · rw [Sched.rtTskPrio, if_neg hfound, if_neg ht]
        simp only [Sched.rtResortPrio, hl', Except.map, ok_bind, if_pos hready, rtGetFirst, hl₂, hs']
        rfl
      · rw [List.mem_cons, List.mem_singleton] at hu
        refine hu.imp_left fun heq : u = f => ?_
        rw [heq]
        exact (h.placed.mem_iff f none).1 ((hperm none).mem_iff.1 (hq₁ ▸ List.mem_cons_self))
      · rw [hq' o, Function.update_of_ne (Option.some_ne_none o)]
        exact hperm (some o)
    · refine ⟨true, [], { s with links := l', prio := Function.update s.prio (taskId.getD s.run) p },
        q₁, pos, ?_, ⟨rfl, rfl, rfl, rfl, rfl, fun _ _ => rfl, fun _ hu => nomatch hu⟩,
        (fun _ hu => nomatch hu), Or.inr rfl, fun o => hperm (some o), hplaced, h.running,
        fun u hu => ?_, h.due⟩
      · rw [Sched.rtTskPrio, if_neg hfound, if_neg ht]
        simp only [Sched.rtResortPrio, hl', Except.map, ok_bind, if_neg hready]
        rfl
      · have hut : u ≠ taskId.getD s.run := by
          rintro rfl
          have hfits := h.fits htnew
          rw [hu] at hfits
          exact hready hfits.ready.1
        show Function.update s.prio _ p u ≤ Function.update s.prio _ p s.newTsk
        rw [hprio u hut, hprio _ (Ne.symm htnew)]
        exact h.top u hu

end Valid

/-- The first task that waits for an object is taken in hand. -/
theorem takeWaiter_eq {X : List τ}
    (h : Placed s.links s.delays s.prio s.state s.idle q d pos X) (hq : q (some o) = t :: xs) :
    ∃ l', s.takeWaiter o = .ok (t, { s with links := l', delays := s.delays.rtRmvDly t }) ∧ t ∉ X ∧
      s.state t = o.waitState ∧
      Placed l' (s.delays.rtRmvDly t) s.prio s.state s.idle (Function.update q (some o) xs)
        (d.filter fun e => e.1 ≠ t) (Function.update pos t none) (t :: X) := by
  obtain ⟨l', hl', ht, hstate, -, hplaced⟩ := h.getFirst hq
  refine ⟨l', ?_, ht, hstate, hplaced⟩
  rw [takeWaiter, rtGetFirst, hl']
  rfl

/-- A task in hand becomes ready. -/
theorem makeReady_eq [Fintype τ] {X : List τ}
    (h : Placed s.links s.delays s.prio s.state s.idle q d pos (t :: X)) (ht : t ∉ X) :
    ∃ l', s.makeReady t = .ok { s.setState t .ready with links := l' } ∧
      Placed l' s.delays s.prio (Function.update s.state t .ready) s.idle
        (Function.update q none (insertLast (rank s.prio) t (q none))) d
        (Function.update pos t (some none)) X := by
  obtain ⟨l', hl', hput⟩ := h.putReady ht
  exact ⟨l', congrArg (Except.map _) hl', hput⟩

/-- The running task gives way, where there may be no ready task. -/
theorem giveWayIfAny_eq [Fintype τ]
    (h : Placed s.links s.delays s.prio s.state s.idle q d pos [s.newTsk])
    (hrunning : s.state s.newTsk = .running) (hrun : s.run = s.newTsk) (hdue : ∀ e ∈ d, 0 < e.2) :
    ∃ T s' q' pos', s.giveWayIfAny = .ok s' ∧ s.Turn s' T ∧
      (∀ u ∈ T, pos u = some none ∨ u = s.newTsk) ∧ s'.prio = s.prio ∧
      (∀ o, q' (some o) = q (some o)) ∧ s'.Valid q' d pos' := by
  by_cases hnil : q none = []
  · have hlnk : s.links.lnk .rdy = none := by
      have hpath := h.links.path none
      rw [hnil] at hpath
      exact hpath
    refine ⟨[], s, q, pos, by rw [giveWayIfAny, hlnk], turn_refl s, (fun _ hu => nomatch hu), rfl,
      fun _ => rfl, h, hrunning, fun u hu => ?_, hdue⟩
    have hmem := (h.mem_iff u none).2 hu
    rw [hnil] at hmem
    cases hmem
  · obtain ⟨f, -, hrdy, htop⟩ := rtRdyPrio_eq h hnil
    cases hlnk : s.links.lnk .rdy with
    | none => simp [rtRdyPrio, hlnk] at hrdy
    | some first =>
      have hfirst : s.prio first = s.prio f := by simpa [rtRdyPrio, hlnk] using hrdy
      rw [giveWayIfAny, hlnk]
      show ∃ T s' q' pos', s.giveWay (s.prio first) = .ok s' ∧ _
      rw [hfirst]
      exact giveWay_eq h hrunning hrun hdue htop

/-- **The mutex is handed over** to a task in hand, while the running task may have lost its
priority. -/
theorem handOver_eq [Fintype τ]
    (h : Placed s.links s.delays s.prio s.state s.idle q d pos [t, s.newTsk])
    (hrunning : s.state s.newTsk = .running) (hrun : s.run = s.newTsk) (ht : t ≠ s.newTsk)
    (hdue : ∀ e ∈ d, 0 < e.2) (hne : q none ≠ []) :
    ∃ T s' q' pos', s.handOver t = .ok s' ∧ s.Turn s' T ∧
      (∀ u ∈ T, pos u = some none ∨ u = t ∨ u = s.newTsk) ∧ t ∈ T ∧ s'.prio = s.prio ∧
      (∀ o, q' (some o) = q (some o)) ∧ s'.Valid q' d pos' := by
  obtain ⟨f, -, hrdy, htop⟩ := rtRdyPrio_eq h hne
  rw [handOver, hrdy, ok_bind]
  by_cases hge : s.prio s.run ≥ s.prio f
  · obtain ⟨s', q', pos', hs', hturn, hprio, hq', hvalid⟩ := dispatchSome h hrun ht hrunning
      (fun u hu => (htop u hu).trans (hrun ▸ hge)) hdue
    refine ⟨[t, s.newTsk], s', q', pos', (if_pos hge).trans hs', hturn, fun u hu => Or.inr ?_,
      List.mem_cons_self, hprio, hq', hvalid⟩
    simpa using hu
  · rw [if_neg hge]
    obtain ⟨l₁, hl₁, hput₁⟩ := (h.swap (Y := [s.run, t]) (fun u => by simp [hrun, or_comm])).putReady
      (by simpa [hrun] using ht.symm)
    obtain ⟨l₂, hl₂, hput₂⟩ := hput₁.putReady List.not_mem_nil
    obtain ⟨t', xs, s', hq, hs', hturn, hprio, -, hvalid⟩ := dispatchFirst
      (s := ((({ s with links := l₂ } : Sched τ ι).setState s.run .ready).setState t .ready)) hput₂
      hdue
    refine ⟨[t', t, s.newTsk], s', _, _, ?_, ⟨hturn.run, hturn.time, hturn.robinTask,
      hturn.robinTime, hturn.idle, fun u hu => ?_, fun u hu => ?_⟩, fun u hu => ?_, by simp, hprio,
      fun o => ?_, hvalid⟩
    · have h₁ : s.rtPutPrio .rdy s.run = .ok { s with links := l₁ } := congrArg (Except.map _) hl₁
      have h₂ : ({ s with links := l₁ } : Sched τ ι).rtPutPrio .rdy t = .ok { s with links := l₂ } :=
        congrArg (Except.map _) hl₂
      rw [h₁, ok_bind, h₂, ok_bind]
      exact hs'
    · simp only [List.mem_cons, List.not_mem_nil, or_false, not_or, ← hrun] at hu
      exact (hturn.others u (by simpa using hu.1)).trans ((Function.update_of_ne hu.2.1 ..).trans
        (Function.update_of_ne hu.2.2 ..))
    · simp only [List.mem_cons, List.not_mem_nil, or_false, ← hrun] at hu
      by_cases hut' : u = t'
      · exact hturn.awake u (hut' ▸ List.mem_singleton_self _)
      · refine Or.inl ((hturn.others u (by simpa using hut')).trans ?_)
        by_cases hut : u = t
        · exact hut ▸ Function.update_self ..
        · refine (Function.update_of_ne hut ..).trans ?_
          exact (hu.resolve_left hut').resolve_left hut ▸ Function.update_self ..
    · simp only [List.mem_cons, List.not_mem_nil, or_false] at hu
      obtain rfl | hu := hu
      · have hmem := (hput₂.mem_iff u none).1 (hq ▸ List.mem_cons_self)
        by_cases hut : u = t
        · exact Or.inr (Or.inl hut)
        · by_cases hur : u = s.run
          · exact Or.inr (Or.inr (hrun ▸ hur))
          · rw [Function.update_of_ne hut, Function.update_of_ne hur] at hmem
            exact Or.inl hmem
      · exact Or.inr hu
    · simp only [Function.update_of_ne (Option.some_ne_none o)]

/-! ### The tick -/

/-- The running task is suspended: every task has its place. -/
theorem Valid.suspend (h : s.Valid q d pos) (hrun : s.run = s.newTsk) :
    Placed s.suspend.links s.suspend.delays s.suspend.prio s.suspend.state s.suspend.idle
      (Function.update q none (s.run :: q none)) d (Function.update pos s.run (some none)) [] := by
  have hplaced := h.placed
  rw [← hrun] at hplaced
  exact hplaced.putFirst List.not_mem_nil (hrun ▸ h.top)

/-- The fields that belong to the tasks and their lists; the handlers change others. -/
structure SameTasks (s s' : Sched τ ι) : Prop where
  prio : s'.prio = s.prio
  state : s'.state = s.state
  delays : s'.delays = s.delays
  run : s'.run = s.run
  idle : s'.idle = s.idle

/-- The time at which the first ready task has to give way. -/
def robinEnd (s : Sched τ ι) (t : τ) : ℕ :=
  if s.robinTask = some t then s.robinTime else (s.time % 0x10000 + osRobintout - 1) % 0x10000

/-- The round robin task after `rt_chk_robin`. -/
def nextRobin (s : Sched τ ι) (t : τ) : Option τ :=
  if s.robinEnd t = s.time % 0x10000 then none else some t

/-- The ready list after `rt_chk_robin`. -/
def afterRobin (s : Sched τ ι) : List τ → List τ
  | [] => []
  | t :: xs =>
    if s.robinEnd t = s.time % 0x10000 then insertLast (rank s.prio) t xs else t :: xs

omit [DecidableEq ι] in
theorem mem_afterRobin : t ∈ s.afterRobin xs ↔ t ∈ xs := by
  cases xs with
  | nil => exact Iff.rfl
  | cons f xs =>
    rw [afterRobin]
    split
    · rw [mem_insertLast, List.mem_cons]
    · exact Iff.rfl

/-- **`rt_chk_robin` puts the first ready task behind its equals** when its time is over. -/
theorem rtChkRobin_eq [Fintype τ]
    (h : Placed s.links s.delays s.prio s.state s.idle q d pos []) :
    ∃ s', s.rtChkRobin = .ok s' ∧ s.SameTasks s' ∧ s'.time = s.time ∧
      (∀ t xs, q none = t :: xs → s'.robinTask = s.nextRobin t ∧ s'.robinTime = s.robinEnd t) ∧
      Placed s'.links s'.delays s'.prio s'.state s'.idle
        (Function.update q none (s.afterRobin (q none))) d pos [] := by
  obtain ⟨t, xs, hq⟩ := List.exists_cons_of_ne_nil (h.ready_ne_nil List.not_mem_nil)
  have hpath := h.links.path none
  rw [hq] at hpath
  have hhead : s.links.lnk .rdy = some t := hpath.1
  have hsame : Function.update q none (t :: xs) = q := by rw [← hq, Function.update_eq_self]
  -- the round robin variables after the first part
  obtain ⟨s₁, hs₁, hlinks, hstasks, htime, htask, hrobin⟩ : ∃ s₁ : Sched τ ι,
      (if s.robinTask ≠ s.links.lnk .rdy then
        { s with
          robinTask := s.links.lnk .rdy
          robinTime := (s.time % 0x10000 + osRobintout - 1) % 0x10000 }
      else s) = s₁ ∧ s₁.links = s.links ∧ s.SameTasks s₁ ∧ s₁.time = s.time ∧
      s₁.robinTask = some t ∧ s₁.robinTime = s.robinEnd t := by
    by_cases htask : s.robinTask = some t
    · exact ⟨s, if_neg (by simp [htask, hhead]), rfl, ⟨rfl, rfl, rfl, rfl, rfl⟩, rfl,
        htask, (if_pos htask).symm⟩
    · exact ⟨_, if_pos (by simpa [hhead] using htask), rfl, ⟨rfl, rfl, rfl, rfl, rfl⟩, rfl,
        hhead, (if_neg htask).symm⟩
  have hplaced : Placed s₁.links s₁.delays s₁.prio s₁.state s₁.idle q d pos [] := by
    rw [hlinks, hstasks.delays, hstasks.prio, hstasks.state, hstasks.idle]
    exact h
  rw [rtChkRobin, hs₁, hq, afterRobin]
  by_cases hover : s.robinEnd t = s.time % 0x10000
  · rw [if_pos hover]
    obtain ⟨t', xs', l₁, hq', hl₁, -, -, hready, htake⟩ :=
      hplaced.getReady (h.ready_ne_nil List.not_mem_nil)
    obtain ⟨rfl, rfl⟩ : t = t' ∧ xs = xs' := by simpa [hq] using hq'
    obtain ⟨l₂, hl₂, hput⟩ := htake.putReady List.not_mem_nil
    have hpos : pos t = some none := (h.mem_iff t none).1 (hq ▸ List.mem_cons_self)
    rw [Function.update_idem, Function.update_idem, ← hpos, Function.update_eq_self,
      Function.update_self, ← hready, Function.update_eq_self, hstasks.prio] at hput
    refine ⟨{ s₁ with links := l₂, robinTask := none }, ?_, ⟨hstasks.prio, hstasks.state,
      hstasks.delays, hstasks.run, hstasks.idle⟩, htime, fun t' xs' ht' => ?_, hstasks.prio.symm ▸ hput⟩
    · show (if s₁.robinTime = s₁.time % 0x10000 then _ else _) = _
      rw [if_pos (by rw [hrobin, htime, hover])]
      simp only [rtGetFirst, hl₁, Except.map, ok_bind, rtPutPrio, hl₂]
    · obtain ⟨rfl, -⟩ := List.cons.inj ht'
      exact ⟨(if_pos hover).symm, hrobin⟩
  · rw [if_neg hover, hsame]
    refine ⟨s₁, if_neg ?_, hstasks, htime, fun t' xs' ht' => ?_, hplaced⟩
    · rw [hrobin, htime]
      exact hover
    · obtain ⟨rfl, -⟩ := List.cons.inj ht'
      exact ⟨htask.trans (if_neg hover).symm, hrobin⟩

/-- The states after the tasks of `due` have been woken. -/
def wakeAll (st : τ → TcbState) (due : List τ) (u : τ) : TcbState :=
  if u ∈ due then .ready else st u

/-- The fields that the delay list leaves as they are. -/
structure SameClock (s s' : Sched τ ι) : Prop where
  prio : s'.prio = s.prio
  run : s'.run = s.run
  time : s'.time = s.time
  idle : s'.idle = s.idle
  robinTask : s'.robinTask = s.robinTask
  robinTime : s'.robinTime = s.robinTime

/-- **The loop of `rt_dec_dly`** wakes the tasks in front that are due. -/
theorem rtDecDlyLoop_eq [Fintype τ] {due : List (τ × ℕ)} {fuel : ℕ}
    (h : Placed s.links s.delays s.prio s.state s.idle q (due ++ d) pos [])
    (hzero : ∀ e ∈ due, e.2 = 0) (hdue : ∀ e ∈ d, 0 < e.2) (hfuel : due.length < fuel) :
    ∃ s' q' pos', s.rtDecDlyLoop fuel = .ok s' ∧ s.SameClock s' ∧
      s'.state = wakeAll s.state (due.map Prod.fst) ∧
      (∀ o, q' (some o) = (q (some o)).filter fun u => u ∉ due.map Prod.fst) ∧
      q' none = due.foldl (fun xs e => insertLast (rank s.prio) e.1 xs) (q none) ∧
      Placed s'.links s'.delays s'.prio s'.state s'.idle q' d pos' [] := by
  induction due generalizing s q pos fuel with
  | nil =>
    obtain ⟨fuel, rfl⟩ := Nat.exists_eq_succ_of_ne_zero (Nat.ne_zero_of_lt hfuel)
    refine ⟨s, q, pos, ?_, ⟨rfl, rfl, rfl, rfl, rfl, rfl⟩,
      funext fun u => (if_neg List.not_mem_nil).symm, fun o => by simp, rfl, h⟩
    cases d with
    | nil =>
      have hnil : s.delays.dlnk none = none := h.delays.nil_iff.2 rfl
      rw [rtDecDlyLoop, hnil]
    | cons e d =>
      have hfirst : s.delays.dlnk none = some e.1 := h.delays.path.1
      have hsum : lastTime 0 [] + s.delays.delta none = e.2 :=
        (show s.delays.Rep ([] ++ e :: d) from h.delays).lastTime_add_gap
      have hpos := hdue e List.mem_cons_self
      rw [lastTime_nil] at hsum
      simp only [rtDecDlyLoop, hfirst]
      exact if_neg (by omega)
  | cons e due ih =>
    obtain ⟨fuel, rfl⟩ := Nat.exists_eq_succ_of_ne_zero (Nat.ne_zero_of_lt hfuel)
    obtain ⟨t, r⟩ := e
    obtain rfl : r = 0 := hzero _ List.mem_cons_self
    have hfirst : s.delays.dlnk none = some t := h.delays.path.1
    have hsum : lastTime 0 [] + s.delays.delta none = 0 :=
      (show s.delays.Rep ([] ++ (t, 0) :: (due ++ d)) from h.delays).lastTime_add_gap
    obtain ⟨l', hl', -, -, q₁, hq₁, hq₁r, hplaced⟩ := h.wakeFirst
    obtain ⟨s', q', pos', hs', hsame, hstate, hq', hq'r, hplaced'⟩ := ih
      (s := { s with
        links := l', delays := s.delays.takeFirst t, state := Function.update s.state t .ready })
      hplaced (fun e he => hzero e (List.mem_cons_of_mem _ he)) (Nat.lt_of_succ_lt_succ hfuel)
    refine ⟨s', q', pos', ?_, { hsame with }, ?_, fun o => ?_, ?_,
      hplaced'⟩
    · simp only [rtDecDlyLoop, hfirst]
      rw [if_pos (by omega), rtPutPrio, hl']
      exact hs'
    · rw [hstate]
      funext u
      simp only [wakeAll, List.map_cons, List.mem_cons]
      by_cases hu : u ∈ due.map Prod.fst
      · rw [if_pos hu, if_pos (Or.inr hu)]
      · rw [if_neg hu]
        by_cases hut : u = t
        · rw [if_pos (Or.inl hut), hut, Function.update_self]
        · rw [if_neg (not_or.2 ⟨hut, hu⟩), Function.update_of_ne hut]
    · rw [hq', hq₁, List.filter_filter]
      refine List.filter_congr fun u _ => ?_
      simp only [List.map_cons, List.mem_cons, not_or, Bool.decide_and, Bool.and_comm]
    · rw [hq'r, hq₁r]
      rfl

/-- What a tick leaves of the time-outs. -/
def tickDown (d : List (τ × ℕ)) : List (τ × ℕ) := elapse (d.filter fun e => e.2 ≠ 1)

/-- The tasks whose time-outs expire with a tick. -/
def expiring (d : List (τ × ℕ)) : List τ := (d.filter fun e => e.2 = 1).map Prod.fst

omit [DecidableEq τ] [DecidableEq ι] in
theorem due_tickDown (hdue : ∀ e ∈ d, 0 < e.2) : ∀ e ∈ tickDown d, 0 < e.2 := by
  intro e he
  obtain ⟨e', he', rfl⟩ := List.mem_map.1 he
  have hne : e'.2 ≠ 1 := by simpa using (List.mem_filter.1 he').2
  have hpos := hdue e' (List.mem_filter.1 he').1
  show 0 < e'.2 - 1
  omega

/-- The ready list when the tasks `due` are woken. -/
def wakeList (prio : τ → ℕ) (due xs : List τ) : List τ :=
  due.foldl (fun xs t => insertLast (rank prio) t xs) xs

omit [DecidableEq τ] in
theorem mem_wakeList {prio : τ → ℕ} {due : List τ} :
    t ∈ wakeList prio due xs ↔ t ∈ due ∨ t ∈ xs := by
  induction due generalizing xs with
  | nil => simp [wakeList]
  | cons u due ih =>
    have hfold : wakeList prio (u :: due) xs = wakeList prio due (insertLast (rank prio) u xs) := rfl
    rw [hfold, ih, mem_insertLast, List.mem_cons]
    tauto

/-- **`rt_dec_dly` wakes the tasks whose time-outs expire.** -/
theorem rtDecDly_eq [Fintype τ]
    (h : Placed s.links s.delays s.prio s.state s.idle q d pos []) (hdue : ∀ e ∈ d, 0 < e.2) :
    ∃ s' q' pos', s.rtDecDly = .ok s' ∧ s.SameClock s' ∧
      s'.state = wakeAll s.state (expiring d) ∧
      (∀ o, q' (some o) = (q (some o)).filter fun u => u ∉ expiring d) ∧
      q' none = wakeList s.prio (expiring d) (q none) ∧
      Placed s'.links s'.delays s'.prio s'.state s'.idle q' (tickDown d) pos' [] := by
  cases d with
  | nil =>
    exact ⟨s, q, pos, if_pos (h.delays.nil_iff.2 rfl), ⟨rfl, rfl, rfl, rfl, rfl, rfl⟩,
      funext fun u => (if_neg List.not_mem_nil).symm, fun o => by simp [expiring], rfl, h⟩
  | cons e d =>
    have hne : s.delays.dlnk none ≠ none := fun hnil => nomatch h.delays.nil_iff.1 hnil
    have hdec := h.delays.decHead (hdue e List.mem_cons_self)
    have hsorted := h.delays.gaps.ascending.elapse
    have hsplit := List.takeWhile_append_dropWhile (p := fun e : τ × ℕ => e.2 = 0)
      (l := elapse (e :: d))
    rw [hsorted.takeWhile_due, hsorted.dropWhile_due, filter_elapse_due hdue,
      filter_elapse_later hdue] at hsplit
    have hplaced : Placed s.links s.delays.decHead s.prio s.state s.idle q
        (elapse ((e :: d).filter fun e => e.2 = 1) ++ tickDown (e :: d)) pos [] := by
      rw [tickDown, hsplit]
      refine ⟨h.links, hdec, h.mem_iff, h.sorted, fun u hu => ?_, (fun _ hu => nomatch hu),
        h.idle_ready⟩
      rw [map_fst_elapse]
      exact h.fits u hu
    have hzero : ∀ e' ∈ elapse ((e :: d).filter fun e => e.2 = 1), e'.2 = 0 := by
      intro e' he'
      rw [← filter_elapse_due hdue] at he'
      simpa using (List.mem_filter.1 he').2
    have hlen : (elapse ((e :: d).filter fun e => e.2 = 1)).length < Fintype.card τ + 1 := by
      refine lt_of_le_of_lt ?_ h.delays.length_lt
      rw [elapse, List.length_map, List.length_map]
      exact List.length_filter_le ..
    obtain ⟨s', q', pos', hs', hsame, hstate, hq', hq'r, hplaced'⟩ := rtDecDlyLoop_eq
      (s := { s with delays := s.delays.decHead }) hplaced hzero (due_tickDown hdue) hlen
    rw [map_fst_elapse] at hstate hq'
    refine ⟨s', q', pos', (if_neg hne).trans hs', { hsame with },
      hstate, hq', ?_, hplaced'⟩
    rw [hq'r, elapse, List.foldl_map, wakeList, expiring, List.foldl_map]

omit [DecidableEq ι] in
/-- The first ready task has to give way in the fifth tick at the latest. -/
theorem InSlice.robinEnd (h : s.InSlice) (t : τ) :
    ∃ j < 5, s.robinEnd t = (s.time + j) % 0x10000 := by
  rw [Sched.robinEnd]
  split
  · rename_i hsome
    obtain ⟨j, hj, hend⟩ := h (by rw [hsome]; nofun)
    exact ⟨j, by omega, hend⟩
  · exact ⟨4, by omega, by rw [osRobintout]; omega⟩

omit [DecidableEq ι] in
/-- The slice of the round robin task goes on, or is over. -/
theorem InSlice.systick {s' : Sched τ ι} (h : s.InSlice) (htime : s'.time = (s.time + 1) % 0x100000000)
    (htask : s'.robinTask = s.nextRobin t) (hrobin : s'.robinTime = s.robinEnd t) : s'.InSlice := by
  intro hne
  obtain ⟨j, hj, hend⟩ := h.robinEnd t
  have hgoes : s.robinEnd t ≠ s.time % 0x10000 := by
    intro hover
    rw [htask, nextRobin, if_pos hover] at hne
    exact hne rfl
  refine ⟨j - 1, by omega, ?_⟩
  rw [hrobin, hend, htime]
  rw [hend] at hgoes
  have hj0 : j ≠ 0 := by
    rintro rfl
    exact hgoes rfl
  omega

/-- **A tick**: the tasks whose time-outs expire are woken, and the highest ready task runs. -/
theorem Valid.systick [Fintype τ] (h : s.Valid q d pos) (hrun : s.run = s.newTsk) :
    ∃ t xs s' q' pos', s.systick = .ok s' ∧
      wakeList s.prio (expiring d) (s.suspend.afterRobin (s.run :: q none)) = t :: xs ∧
      q' none = xs ∧ (∀ o, q' (some o) = (q (some o)).filter fun u => u ∉ expiring d) ∧
      s'.state = Function.update (wakeAll s.suspend.state (expiring d)) t .running ∧
      s'.prio = s.prio ∧ s'.newTsk = t ∧ s'.time = (s.time + 1) % 0x100000000 ∧ s'.idle = s.idle ∧
      s'.robinTask = s.nextRobin s.run ∧ s'.robinTime = s.robinEnd s.run ∧
      s'.Valid q' (tickDown d) pos' := by
  obtain ⟨s₁, hs₁, hsame₁, htime₁, hrobin₁, hplaced₁⟩ := rtChkRobin_eq (h.suspend hrun)
  obtain ⟨htask, htime⟩ := hrobin₁ _ _ (Function.update_self ..)
  obtain ⟨s₂, q₂, pos₂, hs₂, hsame₂, hstate₂, hq₂, hq₂r, hplaced₂⟩ := rtDecDly_eq
    (s := { s₁ with time := (s₁.time + 1) % 0x100000000 }) hplaced₁ h.due
  obtain ⟨t, xs, l', hq, hl', htop, -, -, htake⟩ :=
    hplaced₂.getReady (hplaced₂.ready_ne_nil List.not_mem_nil)
  have hprio : s₂.prio = s.prio := hsame₂.prio.trans hsame₁.prio
  refine ⟨t, xs, ({ s₂ with links := l' } : Sched τ ι).rtSwitchReq t, Function.update q₂ none xs,
    Function.update pos₂ t none, ?_, ?_, Function.update_self .., fun o => ?_, ?_, hprio, rfl, ?_, ?_,
    hsame₂.robinTask.trans htask, hsame₂.robinTime.trans htime,
    htake.setState List.mem_cons_self _, Function.update_self .., fun u hu => ?_,
    due_tickDown h.due⟩
  · rw [Sched.systick, hs₁, ok_bind, hs₂, ok_bind, runFirst, rtGetFirst, hl']
    rfl
  · rw [← hq, hq₂r, Function.update_self]
    exact congrArg (wakeList · _ _) hsame₁.prio.symm
  · rw [Function.update_of_ne (Option.some_ne_none o), hq₂,
      Function.update_of_ne (Option.some_ne_none o),
      Function.update_of_ne (Option.some_ne_none o)]
  · show Function.update s₂.state t .running = _
    rw [hstate₂, hsame₁.state]
  · exact hsame₂.time.trans (congrArg (fun x => (x + 1) % 0x100000000) htime₁)
  · exact hsame₂.idle.trans hsame₁.idle
  · refine htop u ?_
    by_cases hut : u = t
    · rw [hut, Function.update_self] at hu
      cases hu
    · rwa [Function.update_of_ne hut] at hu

end Sched

end Rtx

end UavTelemetry
