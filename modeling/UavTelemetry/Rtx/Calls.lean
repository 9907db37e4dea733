import UavTelemetry.Rtx.Serving

/-!
# Calls of the running task

What the functions of the objects do when the running task calls them: they wake the first task that
waits for the object, or block the running task, and keep the accounts.  The accounts are those after
the call has returned, since it is the returned value that the history keeps.

## Main definitions

* `Kernel.Good k q d pos` : the state of the kernel between two entries, with the accounts.
* `Kernel.Timed` : the time-out with which a task waits.
* `Kernel.Kept` : what a call leaves as it was.
* `Kernel.Waitable` : the condition under which tasks wait for an object.

## Main results

* `Kernel.Good.rtEvtSet`, `Kernel.Good.rtSemSend`, `Kernel.Good.rtSemWait`,
  `Kernel.Good.rtMutRelease`, `Kernel.Good.rtMutWait`, `Kernel.Good.rtMbxSend`,
  `Kernel.Good.rtMbxWait` and the lemmas next to them : the calls.
-/

namespace UavTelemetry

namespace Rtx

variable {τ ι M : Type} [DecidableEq τ] [DecidableEq ι]

namespace Kernel

variable {k k' : Kernel τ ι M} {q q' : Option (Obj ι) → List τ} {d d' : List (τ × ℕ)}
  {pos : τ → Option (Option (Obj ι))} {o : Obj ι} {s m b : ι} {t : τ} {n : ℕ}
  {es : List (Effect τ ι M)}

/-- The kernel between two entries. -/
structure Good (k : Kernel τ ι M) (q : Option (Obj ι) → List τ) (d : List (τ × ℕ))
    (pos : τ → Option (Option (Obj ι))) : Prop where
  valid : k.toSched.Valid q d pos
  sound : k.Sound q (effects k.log)

/-- The task is awake, unless it waits with a time-out of `n` ticks. -/
def Timed (k : Kernel τ ι M) (d : List (τ × ℕ)) (t : τ) (n : ℕ) : Prop :=
  Awake (k.state t) ∨ (n < 0xFFFF → (t, n) ∈ d)

/-- What a call of the running task leaves as it was.  It may block the running task, for `n` ticks at
most, and wake others, but no task that has called `osDelay`. -/
structure Kept (k : Kernel τ ι M) (n : ℕ) (k' : Kernel τ ι M) (q' : Option (Obj ι) → List τ)
    (d d' : List (τ × ℕ)) : Prop where
  run : k'.run = k.run
  idle : k'.idle = k.idle
  slice : k.toSched.SameSlice k'.toSched
  requests : k.SameRequests k'
  running : k.osRunning = true → k'.osRunning = true
  live : ∀ b, k.live (.mbx b) = true → k'.live (.mbx b) = true
  /-- Where there has been room for a message, no task waits to send one. -/
  room : ∀ b, k.live (.mbx b) = true → (k.mbx b).count < (k.mbx b).size →
    q' (some (.mbx b)) ≠ [] → k'.mbxState b = 1
  timed : ∀ e ∈ d, e ∈ d' ∨ Awake (k'.state e.1)
  delay : ∀ u, k.state u = .waitDly → k'.state u = .waitDly
  own : k'.Timed d' k.newTsk n

/-- What a call with the time-out `n` achieves. -/
def Done (k : Kernel τ ι M) (n : ℕ) (d : List (τ × ℕ)) (k' : Kernel τ ι M) : Prop :=
  ∃ q' d' pos', k'.Good q' d' pos' ∧ k.Kept n k' q' d d'

/-- The accounts after a call has returned. -/
theorem Sound.ret {c : Call τ ι M} {v : Ret M} (hcall : k.pending t = c)
    (h : k.Sound q (effects k.log ++ (Note.returned t c v).effect.toList)) :
    (k.rtRetVal t v).Sound q (effects (k.rtRetVal t v).log) :=
  (effects_rtRetVal hcall).symm ▸ h.mono ⟨rfl, rfl, rfl, rfl, rfl, rfl, rfl, rfl⟩
    fun _ => List.Subset.refl _

/-- A call has returned a value that says nothing about the objects. -/
theorem Done.ret {c : Call τ ι M} {v : Ret M} (h : k.Done n d k') (hcall : k.pending k.run = c)
    (hv : (Note.returned k.run c v).effect = none) : k.Done n d (k'.rtRetVal k.run v) := by
  obtain ⟨q', d', pos', hgood, hkept⟩ := h
  have hcall' : k'.pending k.run = c := (congrFun hkept.requests.pending _).trans hcall
  refine ⟨q', d', pos', ⟨hgood.valid, Sound.ret hcall' ?_⟩,
    { hkept with requests := hkept.requests.ret _ _ }⟩
  rw [hv]
  exact (List.append_nil _).symm ▸ hgood.sound

/-- A mailbox with room has no task that waits to send. -/
theorem Sound.room (h : k.Sound q es) (hroom : (k.mbx b).count < (k.mbx b).size)
    (hne : q (some (.mbx b)) ≠ []) : k.mbxState b = 1 := by
  obtain ⟨hone, -⟩ | ⟨-, hfull⟩ := h.boxes.blocked b hne
  · exact hone
  · omega

omit [DecidableEq τ] [DecidableEq ι] in
/-- The time-outs when the tasks `T` have been woken. -/
theorem timed_of_turn {s' : Sched τ ι} {T : List τ} (hturn : k.toSched.Turn s' T)
    (hd : ∀ e ∈ d, e ∈ d' ∨ e.1 ∈ T) : ∀ e ∈ d, e ∈ d' ∨ Awake (s'.state e.1) :=
  fun e he => (hd e he).imp_right (hturn.awake e.1)

omit [DecidableEq τ] [DecidableEq ι] in
/-- A task that is awake stays awake when others are woken. -/
theorem awake_of_turn {s s' : Sched τ ι} {T : List τ} (hturn : s.Turn s' T) {u : τ}
    (hu : Awake (s.state u)) : Awake (s'.state u) := by
  by_cases hmem : u ∈ T
  · exact hturn.awake u hmem
  · rw [hturn.others u hmem]
    exact hu

omit [DecidableEq τ] [DecidableEq ι] in
theorem delay_of_turn {s' : Sched τ ι} {T : List τ} (hturn : k.toSched.Turn s' T)
    (hT : ∀ u ∈ T, k.state u ≠ .waitDly) (u : τ) (hu : k.state u = .waitDly) :
    s'.state u = .waitDly :=
  (hturn.others u fun hmem => hT u hmem hu).trans hu

/-- **A call by which tasks have been woken** keeps the rest. -/
theorem kept_of_turn {s' : Sched τ ι} {T : List τ} (h : k.Good q d pos) (hturn : k.toSched.Turn s' T)
    (hk : k'.toSched = s') (hT : ∀ u ∈ T, k.state u ≠ .waitDly) (hd : ∀ e ∈ d, e ∈ d' ∨ e.1 ∈ T)
    (hrequests : k.SameRequests k') (hrunning : k'.osRunning = k.osRunning)
    (hlive : ∀ b, k'.live (.mbx b) = k.live (.mbx b)) (hstate : k'.mbxState = k.mbxState)
    (hlists : ∀ o, q' (some o) ⊆ q (some o)) : k.Kept n k' q' d d' := by
  subst hk
  refine ⟨hturn.run, hturn.idle, hturn.slice, hrequests, fun hrun => hrunning.trans hrun,
    fun b hb => (hlive b).trans hb, fun b hb hroom hne => ?_, timed_of_turn hturn hd,
    delay_of_turn hturn hT, Or.inl (awake_of_turn hturn (Or.inr h.valid.running))⟩
  rw [hstate]
  exact h.sound.room hroom fun hnil => hne (List.subset_nil.1 (hnil ▸ hlists _))

namespace Good

/-- A task that may be chosen does not wait. -/
theorem ne_waitDly (h : k.Good q d pos) {u : τ} (hu : pos u = some none ∨ u = k.newTsk) :
    k.state u ≠ .waitDly := by
  obtain hu | rfl := hu
  · by_cases hrun : u = k.newTsk
    · rw [hrun, h.valid.running]
      nofun
    · have hfits := h.valid.fits hrun
      rw [hu] at hfits
      rw [hfits.ready.1]
      nofun
  · rw [h.valid.running]
    nofun

/-- The running task is in no list. -/
theorem ne_newTsk (h : k.Good q d pos) {hd : Option (Obj ι)} (ht : t ∈ q hd) : t ≠ k.newTsk := by
  rintro rfl
  rw [h.valid.placed.mem_iff, h.valid.pos_run] at ht
  cases ht

/-- A call by which no task is woken or blocked. -/
theorem stay (h : k.Good q d pos) (hsched : k'.toSched = k.toSched)
    (hsound : k'.Sound q (effects k'.log)) (hrequests : k.SameRequests k')
    (hrunning : k'.osRunning = k.osRunning)
    (hlive : ∀ b, k.live (.mbx b) = true → k'.live (.mbx b) = true)
    (hroom : ∀ b, k.live (.mbx b) = true → (k.mbx b).count < (k.mbx b).size →
      q (some (.mbx b)) ≠ [] → k'.mbxState b = 1) : k.Done n d k' := by
  refine ⟨q, d, pos, ⟨hsched ▸ h.valid, hsound⟩, congrArg Sched.run hsched,
    congrArg Sched.idle hsched, hsched ▸ ⟨rfl, rfl, rfl⟩, hrequests, fun hr => hrunning.trans hr, hlive,
    hroom, fun _ => Or.inl, fun u hu => ?_, Or.inl ?_⟩
  · rw [hsched]
    exact hu
  · rw [hsched, h.valid.running]
    exact Or.inr rfl

/-- A call that is about no object and does not wake or block a task. -/
theorem same (h : k.Good q d pos) (hsched : k'.toSched = k.toSched) (hobj : k.Neutral k') :
    k.Done n d k' := by
  refine h.stay hsched (hobj.effects.symm ▸ h.sound.mono hobj.toSameObjects
    fun _ => List.Subset.refl _) hobj.toSameRequests hobj.osRunning (fun b hb => ?_)
    fun b _ hroom hne => ?_
  · rwa [hobj.live]
  · rw [hobj.mbxState]
    exact h.sound.room hroom hne

/-- **The first task that waits for an object is dispatched.** -/
theorem wake [Fintype τ] {xs : List τ} (h : k.Good q d pos) (hrun : k.run = k.newTsk)
    (hq : q (some o) = t :: xs) :
    ∃ s₁ s' q', k.toSched.takeWaiter o = .ok (t, s₁) ∧ s₁.rtDispatch (some t) = .ok s' ∧
      (∀ o, q' (some o) ⊆ q (some o)) ∧
      ∀ k' : Kernel τ ι M, k'.toSched = s' → k.SameRequests k' → k'.osRunning = k.osRunning →
        k'.live = k.live → k'.mbxState = k.mbxState → k'.Sound q' (effects k'.log) →
        k.Done n d k' := by
  obtain ⟨s₁, s', q', pos', hs₁, hs', hturn, -, hxs, hothers, hvalid⟩ := h.valid.wakeFirst hrun hq
  have hlists := lists_of_waiter hq hxs hothers
  have hst : k.state t = o.waitState := by
    have hmem : t ∈ q (some o) := hq ▸ List.mem_cons_self
    have hfits := h.valid.fits (h.ne_newTsk hmem)
    rw [(h.valid.placed.mem_iff t _).1 hmem] at hfits
    exact hfits.waitState
  refine ⟨s₁, s', q', hs₁, hs', hlists, fun k' hk hrequests hrunning hlive hstate hsound =>
    ⟨q', d.filter fun e => e.1 ≠ t, pos', ⟨hk ▸ hvalid, hsound⟩, kept_of_turn h hturn hk
    (fun u hu => ?_) (fun e he => ?_) hrequests hrunning (fun _ => congrFun hlive _) hstate hlists⟩⟩
  · rw [List.mem_cons, List.mem_singleton] at hu
    obtain rfl | hu := hu
    · exact hst ▸ o.waitState_ne_waitDly
    · exact h.ne_waitDly (Or.inr hu)
  · by_cases het : e.1 = t
    · exact Or.inr (het ▸ List.mem_cons_self)
    · exact Or.inl (List.mem_filter.2 ⟨he, by simpa using het⟩)

/-- The tasks that wait for an object, seen from its control block. -/
theorem exists_waiter (h : k.Good q d pos) (hwaited : k.waited o = true) :
    ∃ t xs, q (some o) = t :: xs :=
  List.exists_cons_of_ne_nil ((waited_iff h.valid.placed).1 hwaited)

theorem eq_nil (h : k.Good q d pos) (hwaited : ¬ k.waited o = true) : q (some o) = [] := by
  by_contra hne
  exact hwaited ((waited_iff h.valid.placed).2 hne)

/-! ### Giving way -/

/-- `rt_tsk_pass`, as a service call. -/
theorem rtTskPass [Fintype τ] (h : k.Good q d pos) (hrun : k.run = k.newTsk)
    (hi : k.newTsk ≠ k.idle) : Safe (k.Done n d) (k.sched k.toSched.rtTskPass) := by
  obtain ⟨T, s', q', pos', hs', hturn, hT, -, hq', hvalid⟩ := h.valid.rtTskPass hrun hi
  have hlists : ∀ o, q' (some o) ⊆ q (some o) := fun o => hq' o ▸ List.Subset.refl _
  refine safe_of_eq (congrArg (sched k) hs') ⟨q', d, pos', ⟨hvalid, h.sound.mono
    (neutral_switch k s').toSameObjects hlists⟩, kept_of_turn h hturn rfl
    (fun u hu => h.ne_waitDly (hT u hu)) (fun _ => Or.inl) ⟨rfl, rfl, rfl, rfl⟩ rfl (fun _ => rfl) rfl
    hlists⟩

/-- `rt_tsk_prio`, as a service call. -/
theorem rtTskPrio [Fintype τ] (h : k.Good q d pos) (hrun : k.run = k.newTsk) (hne : q none ≠ [])
    (taskId : Option τ) (p : ℕ) :
    Safe (k.Done n d) (k.sched ((k.toSched.rtTskPrio taskId p).map Prod.snd)) := by
  obtain ⟨r, T, s', q', pos', hs', hturn, hT, -, hq', hvalid⟩ := h.valid.rtTskPrio hrun hne taskId p
  have hlists : ∀ o, q' (some o) ⊆ q (some o) := fun o => (hq' o).subset
  refine safe_of_eq (congrArg (sched k ∘ Except.map Prod.snd) hs') ⟨q', d, pos', ⟨hvalid,
    h.sound.mono (neutral_switch k s').toSameObjects hlists⟩, kept_of_turn h hturn rfl
    (fun u hu => h.ne_waitDly (hT u hu)) (fun _ => Or.inl) ⟨rfl, rfl, rfl, rfl⟩ rfl (fun _ => rfl) rfl
    hlists⟩

/-! ### Event flags -/

/-- **`rt_evt_set` wakes the task if its wait is over.** -/
theorem rtEvtSet [Fintype τ] (h : k.Good q d pos) (hrun : k.run = k.newTsk) (eventFlags : Flags)
    (t : τ) : Safe (k.Done n d) (k.rtEvtSet eventFlags t) := by
  obtain ⟨hobj, hcases⟩ := k.evtArrive_cases eventFlags t
  rw [Kernel.rtEvtSet]
  by_cases hwake : (k.evtArrive eventFlags t).1 = true
  · rw [if_pos hwake] at hcases
    obtain ⟨ht, hsched⟩ := hcases
    obtain ⟨s', q', pos', hs', hturn, -, hq', hvalid⟩ := h.valid.wakeEvent hrun ht
    have hlists : ∀ o, q' (some o) ⊆ q (some o) := fun o => hq' o ▸ List.Subset.refl _
    simp only [if_pos hwake, hsched]
    have hsound := (h.sound.mono hobj.toSameObjects hlists).mono
      (neutral_switch _ s').toSameObjects fun _ => List.Subset.refl _
    refine safe_of_eq (congrArg (sched _) hs') ⟨q', _, pos', ⟨hvalid, hobj.effects.symm ▸ hsound⟩,
      kept_of_turn h hturn rfl (fun u hu => ?_) (fun e he => ?_)
      ⟨hobj.psq, hobj.pending, hobj.posted, hobj.served⟩ hobj.osRunning (fun _ => congrFun hobj.live _)
      hobj.mbxState hlists⟩
    · rw [List.mem_cons, List.mem_singleton] at hu
      obtain rfl | hu := hu
      · obtain ht | ht := ht <;> rw [ht] <;> nofun
      · exact h.ne_waitDly (Or.inr hu)
    · by_cases het : e.1 = t
      · exact Or.inr (het ▸ List.mem_cons_self)
      · exact Or.inl (List.mem_filter.2 ⟨he, by simpa using het⟩)
  · rw [if_neg hwake] at hcases
    simp only [if_neg hwake]
    exact h.same hcases hobj

/-! ### Waiting -/

/-- The running task has been blocked and another one chosen. -/
theorem kept_of_block {s' : Sched τ ι} {stt : TcbState} {timeout : ℕ} {xs : List τ}
    (h : k.Good q d pos) (hrun : k.run = k.newTsk) (hq : q none = t :: xs)
    (hturn : (k.toSched.setState k.run stt).Turn s' [t]) (hk : k'.toSched = s')
    (hrequests : k.SameRequests k') (hrunning : k'.osRunning = k.osRunning)
    (hlive : ∀ b, k'.live (.mbx b) = k.live (.mbx b))
    (hroom : ∀ b, k.live (.mbx b) = true → (k.mbx b).count < (k.mbx b).size →
      q' (some (.mbx b)) ≠ [] → k'.mbxState b = 1) :
    k.Kept timeout k' q' d (Placed.delayed k.run timeout d) := by
  subst hk
  have ht : k.state t ≠ .waitDly :=
    h.ne_waitDly (Or.inl ((h.valid.placed.mem_iff t none).1 (hq ▸ List.mem_cons_self)))
  refine ⟨hturn.run, hturn.idle, ⟨hturn.time, hturn.robinTask, hturn.robinTime⟩, hrequests,
    fun hr => hrunning.trans hr, fun b hb => (hlive b).trans hb, hroom, fun e he => Or.inl ?_,
    fun u hu => ?_, Or.inr fun hlt => ?_⟩
  · rw [Placed.delayed]
    split
    · exact mem_insertFirst.2 (Or.inr he)
    · exact he
  · have hut : u ∉ [t] := by
      rw [List.mem_singleton]
      rintro rfl
      exact ht hu
    have hur : u ≠ k.run := by
      rintro rfl
      rw [hrun, h.valid.running] at hu
      cases hu
    exact (hturn.others u hut).trans ((Function.update_of_ne hur ..).trans hu)
  · rw [Placed.delayed, if_pos hlt, hrun]
    exact mem_insertFirst.2 (Or.inl rfl)

/-- **The running task is blocked without waiting in a list.** -/
theorem rtBlock [Fintype τ] (h : k.Good q d pos) (hrun : k.run = k.newTsk) (hi : k.run ≠ k.idle)
    (timeout : ℕ) {stt : TcbState}
    (hfits : ∀ timed, Fits stt (none : Option (Option (Obj ι))) timed) :
    Safe (k.Done timeout d) (k.sched (k.toSched.rtBlock timeout stt)) := by
  by_cases ht : timeout = 0
  · rw [Sched.rtBlock, if_neg (not_not.2 ht)]
    exact h.same rfl (neutral_switch k k.toSched)
  · obtain ⟨t, xs, s', hs', hq, hturn, -, -, hvalid⟩ := h.valid.rtBlock hrun hi ht hfits
    have hlists : ∀ o, Function.update q none xs (some o) ⊆ q (some o) := fun o =>
      Function.update_of_ne (Option.some_ne_none o) xs q ▸ List.Subset.refl _
    refine safe_of_eq (congrArg (sched k) hs') ⟨_, _, _, ⟨hvalid, h.sound.mono
      (neutral_switch k s').toSameObjects hlists⟩, h.kept_of_block hrun hq hturn rfl ⟨rfl, rfl, rfl, rfl⟩
      rfl (fun _ => rfl) fun b _ hroom hne => h.sound.room hroom fun hnil => hne ?_⟩
    exact List.subset_nil.1 (hnil ▸ hlists _)

/-- **`rt_evt_wait` takes the flags or blocks the running task.** -/
theorem rtEvtWait [Fintype τ] (h : k.Good q d pos) (hrun : k.run = k.newTsk) (hi : k.run ≠ k.idle)
    (waitFlags : Flags) (timeout : ℕ) (andWait : Bool) :
    Safe (fun r => k.Done timeout d r.2) (k.rtEvtWait waitFlags timeout andWait) := by
  have hblock : ∀ st, (∀ timed, Fits st (none : Option (Option (Obj ι))) timed) →
      Safe (fun r => k.Done timeout d r.2) (k.blockEvt waitFlags timeout st) := by
    intro st hfits
    have hgood : ({ k with waits := Function.update k.waits k.run waitFlags } :
        Kernel τ ι M).Good q d pos :=
      ⟨h.valid, h.sound.mono ⟨rfl, rfl, rfl, rfl, rfl, rfl, rfl, rfl⟩
        fun _ => List.Subset.refl _⟩
    refine (hgood.rtBlock hrun hi timeout hfits).bind fun k' hk' => ?_
    obtain ⟨q', d', pos', hgood', hkept⟩ := hk'
    exact ⟨q', d', pos', hgood', { hkept with
      requests := hkept.requests.since ⟨rfl, rfl, rfl, rfl⟩ }⟩
  have hsame : ∀ k' : Kernel τ ι M, k'.toSched = k.toSched → k.Neutral k' → k.Done timeout d k' :=
    fun _ => h.same
  rw [Kernel.rtEvtWait]
  split
  · split
    · exact hsame _ rfl ⟨⟨rfl, rfl, rfl, rfl, rfl, rfl, rfl, rfl⟩, rfl, rfl, rfl, rfl, rfl⟩
    · exact hblock _ fun _ => rfl
  · split
    · exact hsame _ rfl ⟨⟨rfl, rfl, rfl, rfl, rfl, rfl, rfl, rfl⟩, rfl, rfl, rfl, rfl, rfl⟩
    · exact hblock _ fun _ => rfl

end Good

/-- The condition under which tasks wait for an object. -/
def Waitable (k : Kernel τ ι M) : Obj ι → Prop
  | .sem s => k.tokens s = 0
  | .mut m => k.level m ≠ 0
  | .mbx b => (k.mbxState b = 1 ∧ (k.mbx b).count = 0) ∨
      (k.mbxState b = 2 ∧ (k.mbx b).count = (k.mbx b).size)

/-- Another task waits for an object. -/
theorem Sound.wait (h : k.Sound q es) (hlive : k.live o = true) (ho : k.Waitable o)
    (hasked : ∀ u ∈ q' (some o), k.Asks u o)
    (hothers : ∀ o', o' ≠ o → q' (some o') = q (some o')) : k.Sound q' es := by
  refine ⟨fun o' ho' => ?_, fun o' u hu => ?_, ⟨fun s hs => ?_, h.sems.count⟩, ⟨fun m hm => ?_,
    h.muts.owned, h.muts.nesting⟩, ⟨h.boxes.fits, h.boxes.unused, fun b hb => ?_, h.boxes.fifo⟩⟩
  · have hne : o' ≠ o := by
      rintro rfl
      rw [hlive] at ho'
      cases ho'
    rw [hothers o' hne]
    exact h.dead o' ho'
  · by_cases heq : o' = o
    · subst heq
      exact hasked u hu
    · rw [hothers _ heq] at hu
      exact h.asked o' u hu
  · by_cases heq : Obj.sem s = o
    · subst heq
      exact ho
    · rw [hothers _ heq] at hs
      exact h.sems.empty s hs
  · by_cases heq : Obj.mut m = o
    · subst heq
      exact ho
    · rw [hothers _ heq] at hm
      exact h.muts.held m hm
  · by_cases heq : Obj.mbx b = o
    · subst heq
      exact ho
    · rw [hothers _ heq] at hb
      exact h.boxes.blocked b hb

namespace Good

/-- **The running task waits for an object.** -/
theorem waitFor [Fintype τ] (h : k.Good q d pos) (hrun : k.run = k.newTsk) (hi : k.run ≠ k.idle)
    (hlive : k.live o = true) (ho : k.Waitable o) (hasks : k.Asks k.run o) {timeout : ℕ}
    (ht : timeout ≠ 0)
    (hroom : ∀ b, o = .mbx b → (k.mbx b).count < (k.mbx b).size → k.mbxState b = 1) :
    Safe (k.Done timeout d) (k.sched (k.toSched.waitFor o timeout)) := by
  obtain ⟨t, xs, s', hs', hq, hturn, -, -, hvalid⟩ := h.valid.waitFor hrun hi o ht
  set q' := Function.update (Function.update q (some o)
    (insertLast (rank k.prio) k.run (q (some o)))) none xs with hq'
  have hothers : ∀ o', o' ≠ o → q' (some o') = q (some o') := by
    intro o' hne
    rw [hq', Function.update_of_ne (Option.some_ne_none o'),
      Function.update_of_ne fun heq => hne (Option.some.inj heq)]
  have hasked : ∀ u ∈ q' (some o), k.Asks u o := by
    intro u hu
    rw [hq', Function.update_of_ne (Option.some_ne_none o), Function.update_self, mem_insertLast] at hu
    obtain rfl | hu := hu
    · exact hasks
    · exact h.sound.asked o u hu
  refine safe_of_eq (congrArg (sched k) hs') ⟨q', _, _, ⟨hvalid,
    (h.sound.wait hlive ho hasked hothers).mono (neutral_switch k s').toSameObjects
      fun _ => List.Subset.refl _⟩,
    h.kept_of_block hrun hq hturn rfl ⟨rfl, rfl, rfl, rfl⟩ rfl (fun _ => rfl) fun b _ hcount hne => ?_⟩
  by_cases hb : o = .mbx b
  · exact hroom b hb hcount
  · rw [hothers _ (Ne.symm hb)] at hne
    exact h.sound.room hcount hne

/-! ### Semaphores -/

/-- **`rt_sem_send` hands the token to the first task that waits**, or stores it. -/
theorem rtSemSend [Fintype τ] (h : k.Good q d pos) (hrun : k.run = k.newTsk) (s : ι)
    (hcall : k.pending k.run = .semaphoreRelease s) :
    Safe (fun k' => k.Done n d (k'.rtRetVal k.run .osOK)) (k.rtSemSend s) := by
  rw [Kernel.rtSemSend]
  by_cases hwaited : k.waited (.sem s) = true
  · obtain ⟨t, xs, hq⟩ := h.exists_waiter hwaited
    obtain ⟨s₁, s', q', hs₁, hs', hlists, hdone⟩ := h.wake hrun hq
    have hasked : k.Asks t (.sem s) := h.sound.asked _ t (hq ▸ List.mem_cons_self)
    simp only [if_pos hwaited, semGrant, takeWaiter, hs₁, ok_bind]
    set k₁ : Kernel τ ι M := { ({ k with toSched := s₁ } : Kernel τ ι M).rtRetVal t (.tokens 1) with
      toSched := s' } with hk₁
    have heffects : effects k₁.log = effects k.log ++ [.taken t s] :=
      effects_grant (k := { k with toSched := s₁ }) hasked
    have hsound : k₁.Sound q' (effects k₁.log ++ [.released s]) :=
      heffects.symm ▸ h.sound.grant.mono ⟨rfl, rfl, rfl, rfl, rfl, rfl, rfl, rfl⟩ hlists
    have hrequests : k.SameRequests k₁ :=
      ((neutral_switch k s₁).toSameRequests.ret t (.tokens 1)).trans ⟨rfl, rfl, rfl, rfl⟩
    exact safe_of_eq (congrArg (sched _) hs')
      (hdone _ rfl (hrequests.ret _ _) rfl rfl rfl (Sound.ret hcall hsound))
  · rw [if_neg hwaited]
    have hsound : (k.semStore s).Sound q (effects k.log ++ [.released s]) :=
      h.sound.store (h.eq_nil hwaited)
    have hrequests : k.SameRequests (k.semStore s) := ⟨rfl, rfl, rfl, rfl⟩
    exact h.stay rfl (Sound.ret hcall hsound) (hrequests.ret _ _) rfl (fun _ hb => hb)
      fun b _ hroom hne => h.sound.room hroom hne

end Good

/-- The accounts after a token has been taken. -/
theorem Sound.takeToken (h : k.Sound q es) (hs : k.tokens s ≠ 0) (t : τ) :
    ({ k with tokens := Function.update k.tokens s (k.tokens s - 1) } : Kernel τ ι M).Sound q
      (es ++ [.taken t s]) := by
  have hmuts := h.muts.note (x := .taken t s) nofun
  have hboxes := h.boxes.note (x := .taken t s) nofun
  refine ⟨h.dead, h.asked, ⟨fun s' hs' => ?_, fun s' => ?_⟩, ⟨hmuts.held, hmuts.owned, hmuts.nesting⟩,
    ⟨hboxes.fits, hboxes.unused, hboxes.blocked, hboxes.fifo⟩⟩
  · have hzero := h.sems.empty s' hs'
    show Function.update k.tokens s _ s' = 0
    rw [Function.update_of_ne (by rintro rfl; exact hs hzero)]
    exact hzero
  · obtain ⟨lost, hlost⟩ := h.sems.count s'
    refine ⟨lost, ?_⟩
    show Function.update k.tokens s (k.tokens s - 1) s' + taken s' (es ++ [.taken t s]) +
      0x10000 * lost = supplied s' (es ++ [.taken t s])
    simp only [taken_concat, supplied_concat, Effect.resets, Effect.supply, Effect.take,
      Bool.false_eq_true, if_false]
    by_cases hss : s' = s
    · subst hss
      rw [Function.update_self, if_pos rfl]
      omega
    · rw [Function.update_of_ne hss, if_neg (Ne.symm hss)]
      omega

/-- The accounts after a semaphore has been created. -/
theorem Sound.createSem (h : k.Sound q es) (hs : k.live (.sem s) = false) (n : ℕ) :
    (k.rtSemInit s n).Sound q (es ++ [.created (.sem s) n]) := by
  have hnil := h.dead _ hs
  have hmuts := h.muts.note (x := .created (.sem s) n) (fun _ => nofun)
  have hboxes := h.boxes.note (x := .created (.sem s) n) (fun _ => nofun)
  have hlive : ∀ o, o ≠ .sem s → (k.rtSemInit s n).live o = k.live o := fun o ho =>
    Function.update_of_ne ho ..
  refine ⟨fun o ho => ?_, h.asked, ⟨fun s' hs' => ?_, fun s' => ?_⟩,
    hmuts.congr (fun m => hlive _ nofun) rfl rfl fun _ => List.Subset.refl _,
    hboxes.congr (fun b => hlive _ nofun) rfl rfl fun _ => List.Subset.refl _⟩
  · by_cases heq : o = .sem s
    · rw [heq, hnil]
    · rw [hlive o heq] at ho
      exact h.dead o ho
  · show Function.update k.tokens s n s' = 0
    rw [Function.update_of_ne (by rintro rfl; exact hs' hnil)]
    exact h.sems.empty s' hs'
  · obtain ⟨lost, hlost⟩ := h.sems.count s'
    show ∃ lost, Function.update k.tokens s n s' + taken s' (es ++ [.created (.sem s) n]) +
      0x10000 * lost = supplied s' (es ++ [.created (.sem s) n])
    by_cases hss : s' = s
    · subst hss
      refine ⟨0, ?_⟩
      simp [Effect.resets, Effect.supply, Effect.take]
    · have hne : (Effect.created (.sem s) n : Effect τ ι M).obj ≠ .sem s' := fun heq =>
        hss (Obj.sem.inj heq).symm
      refine ⟨lost, ?_⟩
      rw [taken_of_ne hne, supplied_of_ne hne, Function.update_of_ne hss]
      exact hlost

namespace Good

/-- **`rt_sem_wait` takes a token or blocks the running task.** -/
theorem rtSemWait [Fintype τ] (h : k.Good q d pos) (hrun : k.run = k.newTsk) (hi : k.run ≠ k.idle)
    (hlive : k.live (.sem s) = true) {millisec : ℕ}
    (hcall : k.pending k.run = .semaphoreWait s millisec) (timeout : ℕ) :
    Safe (fun r => k.Done timeout d
      (if r.1 then r.2.rtRetVal k.run (.tokens (r.2.tokens s + 1)) else r.2))
      (k.rtSemWait s timeout) := by
  rw [Kernel.rtSemWait]
  split
  · rename_i hs
    set k₁ : Kernel τ ι M := { k with tokens := Function.update k.tokens s (k.tokens s - 1) } with hk₁
    have hrequests : k.SameRequests k₁ := ⟨rfl, rfl, rfl, rfl⟩
    refine h.stay rfl (Sound.ret (k := k₁) hcall ?_) (hrequests.ret _ _) rfl (fun _ hb => hb)
      fun b _ hroom hne => h.sound.room hroom hne
    rw [Note.effect, if_pos (by omega)]
    exact h.sound.takeToken hs k.run
  · rename_i hs
    split
    · exact h.same rfl (neutral_switch k k.toSched)
    · rename_i ht
      exact (h.waitFor hrun hi hlive (not_not.1 hs) ⟨millisec, hcall⟩ ht fun b hb => by cases hb).bind
        fun k' hk' => hk'

end Good

end Kernel

end Rtx

end UavTelemetry
