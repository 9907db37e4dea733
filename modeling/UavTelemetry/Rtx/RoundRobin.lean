import UavTelemetry.Rtx.Histories

/-!
# Round robin

Tasks of the same priority take turns.  While the ready tasks of the highest priority only compute,
a ready task among them with `i` others in front of it runs after `5 * (i + 1)` ticks at the latest.

## Main definitions

* `quietTick` : a tick at which no timer expires and no interrupt arrives.

## Main results

* `Kernel.Ready.quiet`, `Kernel.Ready.quiet_stay`, `Kernel.Ready.quiet_rotate` : what such a tick does.
* `Kernel.Ready.takesTurn` : a task takes its turn.
* `Kernel.exec_rotates`.
-/

namespace UavTelemetry

namespace Rtx

variable {τ ι M : Type} [DecidableEq τ] [DecidableEq ι]

/-- A tick at which no timer expires and no interrupt arrives. -/
def quietTick : Round τ ι M := ⟨[], .tick [], []⟩

omit [DecidableEq τ] in
/-- Tasks that are woken go behind the ready tasks that are as important. -/
theorem wakeList_append {prio : τ → ℕ} {due xs : List τ} (ys : List τ)
    (h : ∀ u ∈ due, ∀ v ∈ ys, prio u ≤ prio v) :
    Sched.wakeList prio due (ys ++ xs) = ys ++ Sched.wakeList prio due xs := by
  induction due generalizing xs with
  | nil => rfl
  | cons u due ih =>
    rw [List.forall_mem_cons] at h
    show Sched.wakeList prio due (insertLast (rank prio) u (ys ++ xs)) = _
    rw [insertLast_append h.1, ih h.2]
    rfl

section due

variable {prio : τ → ℕ} {d : List (τ × ℕ)} {t : τ} {m : ℕ}

omit [DecidableEq τ] in
/-- No more important task is woken in the next tick. -/
theorem expiring_le (h : ∀ e ∈ d, e.2 ≤ m + 1 → prio e.1 ≤ prio t) :
    ∀ u ∈ Sched.expiring d, prio u ≤ prio t := by
  intro u hu
  obtain ⟨e, he, rfl⟩ := List.mem_map.1 hu
  rw [List.mem_filter, decide_eq_true_eq] at he
  exact h e he.1 (by omega)

omit [DecidableEq τ] in
/-- No more important task is woken in the ticks after the next. -/
theorem tickDown_le (h : ∀ e ∈ d, e.2 ≤ m + 1 → prio e.1 ≤ prio t) :
    ∀ e ∈ Sched.tickDown d, e.2 ≤ m → prio e.1 ≤ prio t := by
  intro e he hle
  obtain ⟨e', he', rfl⟩ := List.mem_map.1 he
  have hle' : e'.2 - 1 ≤ m := hle
  exact h e' (List.mem_filter.1 he').1 (by omega)

end due

namespace Kernel

variable {k : Kernel τ ι M} {q : Option (Obj ι) → List τ} {d : List (τ × ℕ)}
  {pos : τ → Option (Option (Obj ι))} {t f : τ} {ts : TimerService τ ι} {j : ℕ}

/-- A quiet tick leads to `k'`, where the other ready tasks are those of `q' none`. -/
structure Ticks [Fintype τ] (ts : TimerService τ ι) (k : Kernel τ ι M) (d : List (τ × ℕ))
    (k' : Kernel τ ι M) (q' : Option (Obj ι) → List τ) : Prop where
  exec : ∀ as, k.exec ts (quietTick :: as) = k'.exec ts as
  ready : ∃ pos', k'.Ready q' (Sched.tickDown d) pos'
  empty : k'.psq.count = 0
  running : k'.osRunning = true
  prio : k'.prio = k.prio

namespace Ready

/-- **A quiet tick** chooses the next task and does nothing else. -/
theorem quiet [Fintype τ] (h : k.Ready q d pos) (hempty : k.psq.count = 0)
    (hon : k.osRunning = true) (ts : TimerService τ ι) :
    ∃ k' q', k.Ticks ts d k' q' ∧
      Sched.wakeList k.prio (Sched.expiring d) (k.toSched.suspend.afterRobin (k.run :: q none)) =
        k'.run :: q' none ∧ k'.time = (k.time + 1) % 0x100000000 ∧
      k'.robinTask = k.toSched.nextRobin k.run ∧ k'.robinTime = k.toSched.robinEnd k.run := by
  have hpost : ∀ r ∈ k.psq.contents, k.Postable r := by
    rw [Ring.contents_eq_nil hempty]
    exact fun r hr => nomatch hr
  obtain ⟨s', q', pos', hs', hready, -, hlist, hprio, htime, htask, hrobin⟩ := h.tick hpost hon
  have hturn : k.turn ts quietTick = .ok ({ k with toSched := s' } : Kernel τ ι M).sysSwitch := by
    simp only [Kernel.turn, quietTick, Kernel.isrs, ok_bind, Kernel.act, Kernel.rtSystick, hs',
      List.map_nil]
    exact if_neg (not_not.2 hempty)
  refine ⟨_, q', ⟨fun as => ?_, ⟨pos', hready⟩, hempty, hon, hprio⟩, hlist, htime, htask, hrobin⟩
  rw [Kernel.exec, if_pos (show k.Possible ts (quietTick : Round τ ι M).cause from hon), hturn, ok_bind]

/-- **The running task computes on** while its time is not over. -/
theorem quiet_stay [Fintype τ] {pre suf : List τ} (h : k.Ready q d pos) (hempty : k.psq.count = 0)
    (hon : k.osRunning = true) (ts : TimerService τ ι) (hlist : k.run :: q none = f :: pre ++ t :: suf)
    (hpre : ∀ u ∈ f :: pre, k.prio u = k.prio t) (hdue : ∀ u ∈ Sched.expiring d, k.prio u ≤ k.prio t)
    (hend : k.toSched.robinEnd f = (k.time + (j + 1)) % 0x10000) (hj : j < 4) :
    ∃ k' q' suf', k.Ticks ts d k' q' ∧ k'.run :: q' none = f :: pre ++ t :: suf' ∧
      k'.toSched.robinEnd f = (k'.time + j) % 0x10000 := by
  obtain ⟨k', q', hticks, hnext, htime, htask, hrobin⟩ := h.quiet hempty hon ts
  obtain ⟨rfl, hrest⟩ := List.cons.inj (hlist : _ = f :: (pre ++ t :: suf))
  have hgoes : k.toSched.robinEnd k.run ≠ k.time % 0x10000 := by omega
  have hrobin' : k.toSched.suspend.afterRobin (k.run :: q none) = (k.run :: pre ++ [t]) ++ suf := by
    rw [Sched.afterRobin]
    refine (if_neg hgoes).trans ?_
    rw [hrest, List.append_assoc]
    rfl
  have hahead : ∀ u ∈ Sched.expiring d, ∀ v ∈ k.run :: pre ++ [t], k.prio u ≤ k.prio v := by
    intro u hu v hv
    refine (hdue u hu).trans ?_
    rw [List.mem_append, List.mem_singleton] at hv
    obtain hv | rfl := hv
    · exact (hpre v hv).ge
    · exact le_rfl
  rw [hrobin', wakeList_append _ hahead] at hnext
  refine ⟨k', q', _, hticks, hnext.symm.trans (List.append_cons ..).symm, ?_⟩
  rw [Sched.nextRobin, if_neg hgoes] at htask
  rw [Sched.robinEnd, if_pos htask, hrobin, hend, htime]
  omega

/-- **The running task gives way** when its time is over. -/
theorem quiet_rotate [Fintype τ] {pre suf : List τ} (h : k.Ready q d pos) (hempty : k.psq.count = 0)
    (hon : k.osRunning = true) (ts : TimerService τ ι) (hlist : k.run :: q none = f :: pre ++ t :: suf)
    (hpre : ∀ u ∈ f :: pre, k.prio u = k.prio t) (hdue : ∀ u ∈ Sched.expiring d, k.prio u ≤ k.prio t)
    (hend : k.toSched.robinEnd f = k.time % 0x10000) :
    ∃ k' q' suf', k.Ticks ts d k' q' ∧ k'.run :: q' none = pre ++ t :: suf' ∧
      ∀ g, k'.toSched.robinEnd g = (k'.time + 4) % 0x10000 := by
  obtain ⟨k', q', hticks, hnext, -, htask, -⟩ := h.quiet hempty hon ts
  obtain ⟨rfl, hrest⟩ := List.cons.inj (hlist : _ = f :: (pre ++ t :: suf))
  rw [List.forall_mem_cons] at hpre
  have hahead : ∀ v ∈ pre ++ [t], k.prio v = k.prio t := by
    intro v hv
    rw [List.mem_append, List.mem_singleton] at hv
    obtain hv | rfl := hv
    · exact hpre.2 v hv
    · rfl
  have hrobin' : k.toSched.suspend.afterRobin (k.run :: q none) =
      (pre ++ [t]) ++ insertLast (rank k.prio) k.run suf := by
    have hsuf : pre ++ t :: suf = (pre ++ [t]) ++ suf := List.append_cons ..
    rw [Sched.afterRobin]
    refine (if_pos hend).trans ?_
    rw [show q none = (pre ++ [t]) ++ suf from (hrest : _ = pre ++ t :: suf).trans hsuf]
    exact insertLast_append fun v hv =>
      (show rank k.prio v ≤ rank k.prio k.run from ((hahead v hv).trans hpre.1.symm).ge)
  rw [hrobin', wakeList_append _ fun u hu v hv => (hdue u hu).trans (hahead v hv).ge] at hnext
  refine ⟨k', q', _, hticks, hnext.symm.trans (List.append_cons ..).symm, fun g => ?_⟩
  rw [Sched.nextRobin, if_pos hend] at htask
  rw [Sched.robinEnd, if_neg (by simp [htask]), osRobintout]
  omega

/-- **A task takes its turn** after those in front of it, of which the first has `j + 1` ticks left. -/
theorem takesTurn [Fintype τ] {pre suf : List τ} (ts : TimerService τ ι) (m : ℕ) (h : k.Ready q d pos)
    (hempty : k.psq.count = 0) (hon : k.osRunning = true)
    (hlist : k.run :: q none = f :: pre ++ t :: suf) (hpre : ∀ u ∈ f :: pre, k.prio u = k.prio t)
    (hend : k.toSched.robinEnd f = (k.time + j) % 0x10000) (hj : j < 5)
    (hm : m = j + 5 * pre.length) (hdue : ∀ e ∈ d, e.2 ≤ m + 1 → k.prio e.1 ≤ k.prio t) :
    ∃ n ≤ m + 1, ∃ k', k.exec ts (List.replicate n quietTick) = .ok k' ∧ k'.run = t := by
  induction m generalizing k q d pos f pre suf j with
  | zero =>
    obtain rfl : j = 0 := by omega
    obtain rfl : pre = [] := List.length_eq_zero_iff.1 (by omega)
    obtain ⟨k', q', suf', hticks, hnext, -⟩ :=
      h.quiet_rotate hempty hon ts hlist hpre (expiring_le hdue) hend
    exact ⟨1, le_rfl, k', hticks.exec [], (List.cons.inj hnext).1⟩
  | succ m ih =>
    have hstep : ∀ {k' : Kernel τ ι M} {q' : Option (Obj ι) → List τ} {f' : τ} {pre' suf' : List τ}
        {j' : ℕ}, k.Ticks ts d k' q' → k'.run :: q' none = f' :: pre' ++ t :: suf' →
        (∀ u ∈ f' :: pre', k.prio u = k.prio t) →
        k'.toSched.robinEnd f' = (k'.time + j') % 0x10000 → j' < 5 → m = j' + 5 * pre'.length →
        ∃ n ≤ m + 2, ∃ k'', k.exec ts (List.replicate n quietTick) = .ok k'' ∧ k''.run = t := by
      intro k' q' f' pre' suf' j' hticks hlist' hpre' hend' hj' hm'
      obtain ⟨pos', h'⟩ := hticks.ready
      obtain ⟨n, hn, k'', hexec, hrun⟩ := ih h' hticks.empty hticks.running hlist'
        (hticks.prio ▸ hpre') hend' hj' hm' (hticks.prio ▸ tickDown_le hdue)
      refine ⟨n + 1, Nat.succ_le_succ hn, k'', ?_, hrun⟩
      rw [List.replicate_succ, hticks.exec, hexec]
    obtain _ | j := j
    · obtain ⟨k', q', suf', hticks, hnext, hend'⟩ :=
        h.quiet_rotate hempty hon ts hlist hpre (expiring_le hdue) hend
      cases pre with
      | nil => exact absurd hm (by simp)
      | cons g pre =>
        rw [List.length_cons] at hm
        exact hstep hticks hnext (fun u hu => hpre u (List.mem_cons_of_mem _ hu)) (hend' g)
          (by omega) (by omega)
    · obtain ⟨k', q', suf', hticks, hnext, hend'⟩ :=
        h.quiet_stay hempty hon ts hlist hpre (expiring_le hdue) hend (by omega)
      exact hstep hticks hnext hpre hend' (by omega) (by omega)

end Ready

/-- **Tasks of the same priority take turns.**  In any state that the kernel can reach, a ready task
that is as important as the running one and has `i` ready tasks in front of it runs after at most
`5 * (i + 1)` ticks, if meanwhile the tasks only compute, no interrupt arrives, no timer expires, and
no time-out of a more important task expires. -/
theorem exec_rotates [Fintype τ] [Inhabited M] (ts : TimerService τ ι) (idle : τ)
    (as : List (Round τ ι M)) :
    Safe (fun k => ∃ q d, k.Orderly q d ∧ ∀ i t, (q none)[i]? = some t → k.prio t = k.prio k.run →
      (∀ e ∈ d, e.2 ≤ 5 * (i + 1) → k.prio e.1 ≤ k.prio t) →
      ∃ n ≤ 5 * (i + 1), ∃ k', k.exec ts (List.replicate n quietTick) = .ok k' ∧ k'.run = t)
      ((boot idle).exec ts as) := by
  refine (exec_ready ts idle as).mono fun k hk => ?_
  obtain ⟨q, d, pos, h, hempty⟩ := hk
  have horderly := h.orderly
  refine ⟨q, d, horderly, fun i t hi hprio hdue => ?_⟩
  obtain ⟨hlt, hget⟩ := List.getElem?_eq_some_iff.1 hi
  have hmem : t ∈ q none := hget ▸ List.getElem_mem hlt
  have hne : t ≠ k.run := by
    rintro rfl
    have hready := (horderly.ready _).1 hmem
    rw [(horderly.running _).2 rfl] at hready
    cases hready
  -- before the start of the kernel no task is as important as the main program
  have hon : k.osRunning = true := by
    by_contra hoff
    rw [Bool.not_eq_true] at hoff
    obtain ⟨hmax, hless⟩ := h.booting hoff
    have hidle : k.run = k.idle := h.run.trans (h.booting.newTsk_eq h.good.valid hoff)
    have hlt := hless t (hidle ▸ hne)
    rw [hprio, hidle, hmax] at hlt
    exact absurd hlt (lt_irrefl _)
  have hsplit : q none = (q none).take i ++ t :: (q none).drop (i + 1) := by
    rw [← hget, List.getElem_cons_drop, List.take_append_drop]
  have hsorted := horderly.sorted none
  rw [hsplit] at hsorted
  have hpre : ∀ u ∈ k.run :: (q none).take i, k.prio u = k.prio t := by
    refine List.forall_mem_cons.2 ⟨hprio.symm, fun u hu => le_antisymm ?_ ?_⟩
    · rw [hprio]
      exact horderly.top u ((horderly.ready u).1 (List.mem_of_mem_take hu))
    · exact (List.pairwise_append.1 hsorted).2.2 u hu t List.mem_cons_self
  obtain ⟨j, hj, hend⟩ := h.slice.robinEnd k.run
  have hlen : ((q none).take i).length = i := by
    rw [List.length_take]
    omega
  obtain ⟨n, hn, k', hexec, hrun⟩ := h.takesTurn ts (j + 5 * i) hempty hon
    (congrArg (k.run :: ·) hsplit) hpre hend hj (by rw [hlen])
    fun e he hle => hdue e he (by omega)
  exact ⟨n, by omega, k', hexec, hrun⟩

end Kernel

end Rtx

end UavTelemetry
