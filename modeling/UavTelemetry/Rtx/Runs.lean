import UavTelemetry.Rtx.Mailboxes
import UavTelemetry.Rtx.Mutexes
import UavTelemetry.Rtx.ServiceCalls

/-!
# Runs of the kernel

Every sequence of service calls, ticks and interrupts from the start of the system on runs without a
null pointer and without a loop that does not end; the kernel may only stop in `os_error`.  Between
two rounds every task has its place, the running task has the highest priority, and the accounts of
the objects hold.

## Main definitions

* `Kernel.Ready k q d pos` : the state of the kernel between two rounds.
* `Kernel.Acted n k k' d d'` : what a round with `n` ticks does to the tasks that wait.

## Main results

* `Kernel.Ready.call` : the service calls.
* `Kernel.Ready.rtPopReq` : the service of posted requests.
* `Kernel.Ready.turn` : a round.
* `Kernel.exec_ready` : every run from the initialisation on.
-/

namespace UavTelemetry

namespace Rtx

variable {τ ι M : Type} [DecidableEq τ] [DecidableEq ι]

/-- The ticks for which a call may block its caller; other calls do not block. -/
def Call.timeout : Call τ ι M → ℕ
  | .delay millisec | .signalWait _ millisec | .mutexWait _ millisec | .semaphoreWait _ millisec
  | .messagePut _ _ millisec | .messageGet _ millisec => rtMs2tick millisec
  | _ => 0

/-- The ticks of a cause. -/
def Cause.ticks : Cause τ ι M → ℕ
  | .tick _ => 1
  | _ => 0

namespace Kernel

variable {k k' : Kernel τ ι M} {q q' : Option (Obj ι) → List τ} {d d' : List (τ × ℕ)}
  {pos : τ → Option (Option (Obj ι))} {t : τ} {n : ℕ} {ts : TimerService τ ι}

/-- Before the start of the kernel the main program has a higher priority than any thread. -/
def Booting (k : Kernel τ ι M) : Prop :=
  k.osRunning = false → k.prio k.idle = 255 ∧ ∀ t, t ≠ k.idle → k.prio t < 255

/-- A request can be posted: a message if the mailbox has room for it. -/
def Postable (k : Kernel τ ι M) : Request τ ι M → Prop
  | .mcb b _ => k.live (.mbx b) = true ∧ (k.mbx b).count < (k.mbx b).size
  | _ => True

/-- The queue holds the requests that have been posted and not yet served, all of them `P`. -/
structure Queued (k : Kernel τ ι M) (P : Request τ ι M → Prop) : Prop where
  fits : k.psq.Fits
  all : ∀ r ∈ k.psq.contents, P r
  /-- Accepted calls of interrupt handlers are served in their order. -/
  queued : served k.log ++ k.psq.contents = posted k.log

/-- The kernel between two rounds. -/
structure Ready (k : Kernel τ ι M) (q : Option (Obj ι) → List τ) (d : List (τ × ℕ))
    (pos : τ → Option (Option (Obj ι))) : Prop where
  good : k.Good q d pos
  run : k.run = k.newTsk
  queue : k.Queued (k.Servable q)
  booting : k.Booting
  slice : k.toSched.InSlice

/-- What a round with `n` ticks does to the tasks that wait: a time-out of more than `n` ticks goes on
unless its task has been woken, and a task that has called `osDelay` is woken by nothing else. -/
structure Acted (n : ℕ) (k k' : Kernel τ ι M) (d d' : List (τ × ℕ)) : Prop where
  idle : k'.idle = k.idle
  running : k.osRunning = true → k'.osRunning = true
  timed : ∀ e ∈ d, (n < e.2 ∧ (e.1, e.2 - n) ∈ d') ∨ Awake (k'.state e.1)
  delay : ∀ u, k.state u = .waitDly → k'.state u = .waitDly ∨ ∃ r ≤ n, (u, r) ∈ d

omit [DecidableEq τ] [DecidableEq ι] in
/-- Before the start of the kernel the main program runs. -/
theorem Booting.newTsk_eq (h : k.Booting) (hvalid : k.toSched.Valid q d pos)
    (hoff : k.osRunning = false) : k.newTsk = k.idle := by
  by_contra hne
  have hidle := hvalid.placed.idle_ready (by simpa using fun heq => hne (Eq.symm heq))
  have hfits := hvalid.fits (Ne.symm hne)
  rw [hidle] at hfits
  have htop := hvalid.top _ hfits.1
  rw [(h hoff).1] at htop
  exact absurd htop (not_le.2 ((h hoff).2 _ hne))

/-! ### Posting -/

/-- Requests have been posted, and nothing else has happened. -/
structure Posts (k k' : Kernel τ ι M) : Prop where
  eq : k' = { k with psq := k'.psq, log := k'.log }
  effects : effects k'.log = effects k.log

omit [DecidableEq τ] [DecidableEq ι] in
theorem Posts.refl (k : Kernel τ ι M) : k.Posts k := ⟨rfl, rfl⟩

omit [DecidableEq τ] [DecidableEq ι] in
theorem Posts.trans {k₁ : Kernel τ ι M} (h₁ : k.Posts k₁) (h₂ : k₁.Posts k') : k.Posts k' := by
  refine ⟨?_, h₂.effects.trans h₁.effects⟩
  rw [h₂.eq, h₁.eq]

omit [DecidableEq τ] [DecidableEq ι] in
/-- **An accepted call of a handler** puts its request behind the others. -/
theorem Queued.post {P : Request τ ι M → Prop} (h : k.Queued P) {c : IsrCall τ ι M}
    (hc : P c.request) : Safe (fun k' => k.Posts k' ∧ k'.Queued P) (k.post c) := by
  rw [Kernel.post, rtPsqEnq]
  split
  · rename_i hroom
    have hcontents : (k.psq.put c.request).inc.contents = k.psq.contents ++ [c.request] :=
      Ring.contents_put h.fits hroom
    refine ⟨⟨rfl, effects_concat.trans (List.append_nil _)⟩, h.fits.put hroom _, fun r hr => ?_, ?_⟩
    · have hmem : r ∈ (k.psq.put c.request).inc.contents := hr
      rw [hcontents, List.mem_append, List.mem_singleton] at hmem
      obtain hmem | rfl := hmem
      · exact h.all r hmem
      · exact hc
    · show served (k.log ++ [.posted c]) ++ (k.psq.put c.request).inc.contents =
        posted (k.log ++ [.posted c])
      rw [hcontents, served_concat, posted_concat, ← h.queued]
      simp [Note.serve, Note.post]
  · trivial

omit [DecidableEq τ] [DecidableEq ι] in
/-- **The interrupt handlers post requests that can be served.** -/
theorem isrs_safe {P : Request τ ι M → Prop} (cs : List (IsrCall τ ι M)) (hP : ∀ r, k.Postable r → P r)
    (hk : k.Queued P) : Safe (fun k' => k.Posts k' ∧ k'.Queued P) (k.isrs cs) := by
  induction cs generalizing k with
  | nil => exact ⟨.refl k, hk⟩
  | cons c cs ih =>
    have hstep : Safe (fun k' => k.Posts k' ∧ k'.Queued P) (k.isr c) := by
      cases c with
      | signalSet t signals =>
        rw [isr]
        split
        · exact ⟨.refl k, hk⟩
        · exact hk.post (hP _ trivial)
      | semaphoreRelease s =>
        rw [isr]
        split
        · exact ⟨.refl k, hk⟩
        · exact hk.post (hP _ trivial)
      | messagePut b x =>
        rw [isr]
        split
        · exact ⟨.refl k, hk⟩
        · rename_i hno
          rw [not_or, not_not, rtMbxCheck] at hno
          exact hk.post (hP _ ⟨hno.1, by omega⟩)
    rw [isrs]
    refine hstep.bind fun k₁ hk₁ => ?_
    obtain ⟨hposts, hqueued⟩ := hk₁
    refine (ih (k := k₁) (fun r hpost => hP r ?_) hqueued).mono fun k₂ hk₂ =>
      ⟨hposts.trans hk₂.1, hk₂.2⟩
    rw [hposts.eq] at hpost
    cases r <;> exact hpost

/-! ### Service calls -/

/-- What a service call with the time-out `n` achieves. -/
def Called (k : Kernel τ ι M) (n : ℕ) (d : List (τ × ℕ)) (k' : Kernel τ ι M) : Prop :=
  ∃ q' d' pos', k'.Good q' d' pos' ∧ k.Kept n k' q' d d' ∧ k'.Booting

/-- A call has returned a value that says nothing about the objects. -/
theorem Called.ret {c : Call τ ι M} {v : Ret M} (h : k.Called n d k') (hcall : k.pending k.run = c)
    (hv : (Note.returned k.run c v).effect = none) : k.Called n d (k'.rtRetVal k.run v) := by
  obtain ⟨q', d', pos', hgood, hkept, hboot⟩ := h
  obtain ⟨q'', d'', pos'', hgood', hkept'⟩ := Done.ret ⟨q', d', pos', hgood, hkept⟩ hcall hv
  exact ⟨q'', d'', pos'', hgood', hkept', hboot⟩

omit [DecidableEq τ] [DecidableEq ι] in
/-- A wait that is not over at once says nothing about the objects. -/
@[simp] theorem effect_timeoutStatus {c : Call τ ι M} {millisec : ℕ} :
    (Note.returned t c (timeoutStatus millisec false)).effect = none := by
  simp only [timeoutStatus, Bool.false_eq_true, if_false]
  split <;> cases c <;> rfl

/-- The header of an object that does not exist is clear. -/
theorem Good.clearHead (h : k.Good q d pos) {o : Obj ι} (ho : k.live o = false) :
    ({ k.toSched with links :=
      { k.links with lnk := Function.update k.links.lnk (.obj o) none } } : Sched τ ι) =
      k.toSched := by
  have hlnk : k.links.lnk (.obj o) = none := by
    have hpath := h.valid.placed.links.path (some o)
    rw [h.sound.dead o ho] at hpath
    exact hpath
  rw [← hlnk, Function.update_eq_self]

omit [DecidableEq τ] in
/-- The mailboxes are still there when another object is created. -/
theorem live_create (o : Obj ι) (ho : ∀ b, o ≠ .mbx b) {b : ι} (hb : k.live (.mbx b) = true) :
    Function.update k.live o true (.mbx b) = true :=
  (Function.update_of_ne (ho b).symm ..).trans hb

/-- **A thread is created**: it runs, or becomes ready. -/
theorem Good.startThread [Fintype τ] (h : k.Good q d pos) (hrun : k.run = k.newTsk)
    (ht : k.state t = .inactive) (htid : k.rtGetTid ≠ 0) (tpriority : ℤ) :
    ∃ s' q' pos', k.startThread t tpriority =
        .ok { ({ k with activeTcb := Function.update k.activeTcb (k.rtGetTid - 1) (some t) } :
          Kernel τ ι M).rtInitContext t (taskPrio tpriority) with toSched := s' } ∧
      k.toSched.Turn s' [t, k.newTsk] ∧ s'.prio = Function.update k.prio t (taskPrio tpriority) ∧
      (∀ o, q' (some o) = q (some o)) ∧ s'.Valid q' d pos' := by
  have hne : t ≠ k.newTsk := by
    rintro rfl
    rw [h.valid.running] at ht
    cases ht
  have hfits := h.valid.fits hne
  rw [ht] at hfits
  have hfree : ∀ h', t ∉ q h' := by
    intro h' hmem
    rw [h.valid.placed.mem_iff, hfits.1] at hmem
    cases hmem
  have hplaced := ((h.valid.placed.setPrio hfits.1 (taskPrio tpriority)).hold hfits.1
    (h.valid.placed.delays.initContext hfits.2) (fun _ _ => Iff.rfl) hfits.2).setState
    List.mem_cons_self .ready
  have hplaced' : Placed (k.rtInitContext t (taskPrio tpriority)).links
      (k.rtInitContext t (taskPrio tpriority)).delays (k.rtInitContext t (taskPrio tpriority)).prio
      (k.rtInitContext t (taskPrio tpriority)).state k.idle q d pos [t, k.newTsk] :=
    ⟨h.valid.placed.links.initContext hfree, hplaced.delays, hplaced.mem_iff, hplaced.sorted,
      hplaced.fits, hplaced.out, hplaced.idle_ready⟩
  have htop : ∀ u, pos u = some none → Function.update k.prio t (taskPrio tpriority) u ≤
      Function.update k.prio t (taskPrio tpriority) k.newTsk := by
    intro u hu
    have hut : u ≠ t := by
      rintro rfl
      rw [hfits.1] at hu
      cases hu
    rw [Function.update_of_ne hut, Function.update_of_ne hne.symm]
    exact h.valid.top u hu
  obtain ⟨s', q', pos', hs', hturn, hprio, hq', hvalid⟩ := Sched.dispatchSome
    (s := (k.rtInitContext t (taskPrio tpriority)).toSched) hplaced' hrun hne
    ((Function.update_of_ne hne.symm ..).trans h.valid.running) htop h.valid.due
  refine ⟨s', q', pos', (if_neg htid).trans (congrArg (sched _) hs'), ⟨hturn.run, hturn.time,
    hturn.robinTask, hturn.robinTime, hturn.idle, fun u hu => (hturn.others u hu).trans ?_,
    hturn.awake⟩, hprio, hq', hvalid⟩
  exact Function.update_of_ne (show u ≠ t from fun heq => hu (heq ▸ List.mem_cons_self)) ..

theorem taskPrio_lt {priority : ℤ} (h : validPriority priority = true) : taskPrio priority < 255 := by
  have hrange := of_decide_eq_true h
  simp only [osPriorityIdle, osPriorityRealtime] at hrange
  simp only [taskPrio, osPriorityIdle]
  omega

omit [DecidableEq ι] in
/-- The priorities before the start of the kernel, when a thread is created. -/
theorem Booting.create (h : k.Booting) (ht : t ≠ k.idle) {p : ℕ} (hp : p < 255)
    (hoff : k'.osRunning = k.osRunning) (hidle : k'.idle = k.idle)
    (hprio : k'.prio = Function.update k.prio t p) : k'.Booting := by
  intro hk'
  obtain ⟨hmax, hlt⟩ := h (hoff ▸ hk')
  rw [hprio, hidle]
  refine ⟨(Function.update_of_ne ht.symm ..).trans hmax, fun u hu => ?_⟩
  by_cases hut : u = t
  · rw [hut, Function.update_self]
    exact hp
  · rw [Function.update_of_ne hut]
    exact hlt u hu

namespace Ready

/-- The idle demon is not inactive. -/
theorem ne_idle (h : k.Ready q d pos) (ht : k.state t = .inactive) : t ≠ k.idle := by
  rintro rfl
  by_cases hrun : k.idle = k.newTsk
  · rw [hrun, h.good.valid.running] at ht
    cases ht
  · rw [h.good.valid.placed.idle_ready (by simpa using hrun)] at ht
    cases ht

/-- After the start of the kernel, a call of a thread. -/
theorem called (h : k.Ready q d pos) (hi : k.run ≠ k.idle) (hk : k.Done n d k') : k.Called n d k' := by
  obtain ⟨q', d', pos', hgood, hkept⟩ := hk
  refine ⟨q', d', pos', hgood, hkept, fun hoff => ?_⟩
  have hrunning : k.osRunning = false := by
    by_contra hon
    rw [hkept.running (by simpa using hon)] at hoff
    cases hoff
  exact absurd (h.run.trans (h.booting.newTsk_eq h.good.valid hrunning)) hi

/-- A call that changes no priority, before or after the start of the kernel. -/
theorem called_of_prio (h : k.Ready q d pos) (hk : k.Done n d k')
    (hoff : k'.osRunning = k.osRunning) (hprio : k'.prio = k.prio) : k.Called n d k' := by
  obtain ⟨q', d', pos', hgood, hkept⟩ := hk
  refine ⟨q', d', pos', hgood, hkept, fun hk' => ?_⟩
  rw [hprio, hkept.idle]
  exact h.booting (hoff ▸ hk')

/-- `svcThreadCreate`. -/
theorem startThread [Fintype τ] (h : k.Ready q d pos) (ht : k.state t = .inactive)
    (htid : k.rtGetTid ≠ 0) {tpriority : ℤ} (hp : taskPrio tpriority < 255) :
    Safe (k.Called n d) (k.startThread t tpriority) := by
  obtain ⟨s', q', pos', hs', hturn, hprio, hq', hvalid⟩ := h.good.startThread h.run ht htid tpriority
  have hlists : ∀ o, q' (some o) ⊆ q (some o) := fun o => hq' o ▸ List.Subset.refl _
  refine safe_of_eq hs' ⟨q', d, pos', ⟨hvalid, h.good.sound.mono
    ⟨rfl, rfl, rfl, rfl, rfl, rfl, rfl, rfl⟩ hlists⟩, kept_of_turn h.good hturn rfl
    (fun u hu => ?_) (fun _ => Or.inl) ⟨rfl, rfl, rfl, rfl⟩ rfl (fun _ => rfl) rfl hlists,
    h.booting.create (h.ne_idle ht) hp rfl hturn.idle hprio⟩
  rw [List.mem_cons, List.mem_singleton] at hu
  obtain rfl | hu := hu
  · rw [ht]
    nofun
  · exact h.good.ne_waitDly (Or.inr hu)

/-- **`svcKernelStart`** creates the timer thread and gives the main program the lowest priority. -/
theorem svcKernelStart [Fintype τ] (h : k.Ready q d pos) (hoff : k.osRunning = false)
    (ht : k.state ts.thread = .inactive) (hb : k.live (.mbx ts.queue) = false)
    (htid : k.rtGetTid ≠ 0) (hcall : k.pending k.run = .kernelStart) :
    Safe (fun r => k.Called n d (r.2.rtRetVal k.run r.1)) (k.svcKernelStart ts) := by
  have hidle := h.booting.newTsk_eq h.good.valid hoff
  have hne := h.ne_idle ht
  set k₀ := k.rtMbxInit ts.queue osTimercbqs with hk₀
  have hsched : k₀.toSched = k.toSched := h.good.clearHead hb
  have hgood : k₀.Good q d pos :=
    ⟨hsched ▸ h.good.valid, h.good.sound.createMbx hb (by decide)⟩
  obtain ⟨s₁, q₁, pos₁, hs₁, hturn₁, hprio₁, hq₁, hvalid₁⟩ := hgood.startThread
    (t := ts.thread) (hsched ▸ h.run) (hsched ▸ ht) htid (osTimerprio - 3)
  rw [hsched] at hturn₁ hprio₁
  set k₁ : Kernel τ ι M :=
    { ({ k₀ with activeTcb := Function.update k₀.activeTcb (k₀.rtGetTid - 1) (some ts.thread) } :
        Kernel τ ι M).rtInitContext ts.thread (taskPrio (osTimerprio - 3)) with
      toSched := s₁ } with hk₁
  have hboot : k₁.Booting := h.booting.create hne (by decide) rfl hturn₁.idle hprio₁
  have hnew : s₁.newTsk = s₁.idle := hboot.newTsk_eq hvalid₁ hoff
  have hrun₁ : s₁.run = s₁.newTsk := by
    rw [hturn₁.run, hnew, hturn₁.idle, h.run, hidle]
  -- the timer thread is ready now
  have hready : q₁ none ≠ [] := by
    have hthread : ts.thread ≠ s₁.newTsk := by rwa [hnew, hturn₁.idle]
    have hfits := hvalid₁.fits hthread
    obtain hst | hst := hturn₁.awake _ List.mem_cons_self <;> rw [hst] at hfits
    · exact List.ne_nil_of_mem ((hvalid₁.placed.mem_iff _ none).2 hfits.1)
    · exact hfits.elim
  obtain ⟨r, T, s₂, q₂, pos₂, hs₂, hturn₂, hT, -, hq₂, hvalid₂⟩ :=
    hvalid₁.rtTskPrio hrun₁ hready none 0
  have hgood₁ : k₁.Good q₁ d pos₁ := ⟨hvalid₁, hgood.sound.mono
    ⟨rfl, rfl, rfl, rfl, rfl, rfl, rfl, rfl⟩ fun o => hq₁ o ▸ List.Subset.refl _⟩
  have hlists : ∀ o, q₂ (some o) ⊆ q (some o) := fun o => hq₁ o ▸ (hq₂ o).subset
  have hkernel : k.svcKernelStart ts =
      .ok (.osOK, { k₁ with toSched := s₂, osRunning := true }) := by
    have hprio : k₁.sched ((k₁.toSched.rtTskPrio none 0).map Prod.snd) =
        .ok { k₁ with toSched := s₂ } := congrArg (sched k₁ ∘ Except.map Prod.snd) hs₂
    rw [Kernel.svcKernelStart, hoff]
    simp only [Bool.false_eq_true, if_false, ← hk₀, hs₁, ok_bind, hprio]
    rfl
  refine safe_of_eq hkernel (Called.ret ⟨q₂, d, pos₂, ⟨hvalid₂, hgood.sound.mono
    ⟨rfl, rfl, rfl, rfl, rfl, rfl, rfl, rfl⟩ hlists⟩, ?_, fun hon => nomatch hon⟩ hcall rfl)
  · refine ⟨hturn₂.run.trans hturn₁.run, hturn₂.idle.trans hturn₁.idle,
      hturn₁.slice.trans (hturn₂.slice : s₁.SameSlice s₂), ⟨rfl, rfl, rfl, rfl⟩, fun _ => rfl,
      fun b hb' => ?_,
      fun b hb' hroom hne' => ?_,
      fun _ => Or.inl, fun u hu => ?_, Or.inl (awake_of_turn hturn₂ (awake_of_turn hturn₁
        (Or.inr h.good.valid.running)))⟩
    · by_cases heq : (Obj.mbx b : Obj ι) = .mbx ts.queue
      · rw [heq] at hb'
        exact absurd (hb.symm.trans hb') nofun
      · exact (Function.update_of_ne heq ..).trans hb'
    · have heq : b ≠ ts.queue := by
        rintro rfl
        exact absurd (hb.symm.trans hb') nofun
      refine (Function.update_of_ne heq ..).trans (h.good.sound.room hroom fun hnil => hne' ?_)
      exact List.subset_nil.1 (hnil ▸ hlists _)
    · have hstate : s₁.state u = .waitDly := by
        refine delay_of_turn hturn₁ (fun v hv => ?_) u hu
        rw [List.mem_cons, List.mem_singleton] at hv
        obtain rfl | hv := hv
        · rw [ht]
          nofun
        · exact h.good.ne_waitDly (Or.inr hv)
      exact delay_of_turn (k := k₁) hturn₂ (fun v hv => hgood₁.ne_waitDly (hT v hv)) u hstate

/-- `svcSignalWait`. -/
theorem svcSignalWait [Fintype τ] (h : k.Ready q d pos) (hi : k.run ≠ k.idle)
    (signals : BitVec 32) (millisec : ℕ) (hcall : k.pending k.run = .signalWait signals millisec) :
    Safe (fun r => k.Called (rtMs2tick millisec) d (r.2.rtRetVal k.run r.1))
      (k.svcSignalWait signals millisec) := by
  have hret : ∀ k' v, k.Done (rtMs2tick millisec) d k' →
      k.Called (rtMs2tick millisec) d (k'.rtRetVal k.run v) := by
    intro k' v hk'
    refine (h.called hi hk').ret hcall ?_
    cases v <;> rfl
  rw [Kernel.svcSignalWait]
  split
  · exact hret k _ (h.good.same rfl (neutral_switch k k.toSched))
  · split
    · exact (h.good.rtEvtWait h.run hi _ _ _).bind fun r hr => hret r.2 _ hr
    · exact (h.good.rtEvtWait h.run hi _ _ _).bind fun r hr => hret r.2 _ hr

/-- A call that waits with a time-out. -/
theorem timed (h : k.Ready q d pos) (hi : k.run ≠ k.idle) {c : Call τ ι M}
    (hcall : k.pending k.run = c) (millisec : ℕ) {ok : Bool}
    (hk : k.Done n d (if ok then k'.rtRetVal k.run .osOK else k')) :
    k.Called n d (k'.rtRetVal k.run (timeoutStatus millisec ok)) := by
  cases ok with
  | true => exact h.called hi hk
  | false => exact (h.called hi hk).ret hcall effect_timeoutStatus

/-- **A service call that the callers of the kernel may make**, after it has returned. -/
theorem call [Fintype τ] (h : k.Ready q d pos) {c : Call τ ι M} (hc : k.Proper ts c)
    (hcall : k.pending k.run = c) :
    Safe (fun r => k.Called c.timeout d (r.2.rtRetVal k.run r.1)) (k.call ts c) := by
  have hsame : ∀ v : Ret M, ∀ n, (Note.returned k.run c v).effect = none →
      Safe (fun r => k.Called n d (r.2.rtRetVal k.run r.1)) (.ok (v, k)) := fun v n hv =>
    (h.called_of_prio (h.good.same rfl (neutral_switch k k.toSched)) rfl rfl).ret hcall hv
  cases c with
  | kernelStart => exact h.svcKernelStart hc.2.1 hc.2.2.1 hc.2.2.2.1 hc.2.2.2.2 hcall
  | threadCreate t tpriority =>
    rw [Kernel.call]
    split
    · rename_i hvalid
      exact (h.startThread hc.2.1 hc.2.2 (taskPrio_lt hvalid)).bind fun k' hk' => hk'.ret hcall rfl
    · exact hsame _ _ rfl
  | threadYield =>
    have hi : k.newTsk ≠ k.idle := h.run ▸ hc
    exact (h.good.rtTskPass h.run hi).bind fun k' hk' => (h.called hc hk').ret hcall rfl
  | threadSetPriority t priority =>
    rw [Kernel.call]
    split
    · exact hsame _ _ rfl
    · split
      · exact hsame _ _ rfl
      · exact (h.good.rtTskPrio h.run (h.good.valid.ready_ne_nil (h.run ▸ hc)) _ _).bind
          fun k' hk' => (h.called hc hk').ret hcall rfl
  | delay millisec =>
    rw [Kernel.call]
    split
    · exact hsame _ _ rfl
    · exact (h.good.rtBlock h.run hc _ (show ∀ timed, Fits .waitDly (none : Option (Option (Obj ι)))
        timed from fun _ => rfl)).bind fun k' hk' => (h.called hc hk').ret hcall rfl
  | signalSet t signals =>
    rw [Kernel.call]
    split
    · exact hsame _ _ rfl
    · exact (h.good.rtEvtSet h.run _ _).bind fun k' hk' => (h.called hc hk').ret hcall rfl
  | signalClear t signals =>
    rw [Kernel.call]
    split
    · exact hsame _ _ rfl
    · have hclear : k.Neutral (k.rtEvtClr (signals.setWidth 16) t) :=
        ⟨⟨rfl, rfl, rfl, rfl, rfl, rfl, rfl, rfl⟩, rfl, rfl, rfl, rfl, rfl⟩
      exact Called.ret (h.called hc (h.good.same rfl hclear)) hcall rfl
  | signalWait signals millisec => exact h.svcSignalWait hc signals millisec hcall
  | mutexCreate m =>
    rw [Kernel.call]
    split
    · exact hsame _ _ rfl
    · rename_i hlive
      have hdead : k.live (.mut m) = false := by simpa using hlive
      have hrequests : k.SameRequests (k.rtMutInit m) := ⟨rfl, rfl, rfl, rfl⟩
      exact h.called_of_prio (h.good.stay (h.good.clearHead hdead)
        (Sound.ret (k := k.rtMutInit m) hcall (h.good.sound.createMut hdead)) (hrequests.ret _ _) rfl
        (fun b hb => live_create (.mut m) (fun _ => nofun) hb)
        fun b _ hroom hne => h.good.sound.room hroom hne) rfl rfl
  | mutexWait m millisec =>
    rw [Kernel.call]
    split
    · rename_i hlive
      exact (h.good.rtMutWait h.run hc.1 hlive hc.2 hcall _).bind fun r hr =>
        h.timed hc.1 hcall millisec hr
    · exact hsame _ _ rfl
  | mutexRelease m =>
    rw [Kernel.call]
    split
    · rename_i hlive
      refine (h.good.rtMutRelease (n := 0) h.run hc hlive hcall).bind fun r hr => ?_
      obtain ⟨ok, k'⟩ := r
      cases ok with
      | true => exact h.called hc hr
      | false => exact (h.called hc hr).ret hcall rfl
    · exact hsame _ _ rfl
  | mutexDelete m =>
    rw [Kernel.call]
    split
    · exact (h.good.rtMutDelete h.run m hcall).bind fun k' hk' => h.called hc hk'
    · exact hsame _ _ rfl
  | semaphoreCreate s count =>
    rw [Kernel.call]
    split
    · exact hsame _ _ rfl
    · rename_i hno
      rw [not_or] at hno
      have hdead : k.live (.sem s) = false := by simpa using hno.1
      have hrequests : k.SameRequests (k.rtSemInit s (count % 0x10000).toNat) := ⟨rfl, rfl, rfl, rfl⟩
      exact h.called_of_prio (h.good.stay (h.good.clearHead hdead)
        (Sound.ret (k := k.rtSemInit s (count % 0x10000).toNat) hcall
          (h.good.sound.createSem hdead _)) (hrequests.ret _ _) rfl
        (fun b hb => live_create (.sem s) (fun _ => nofun) hb)
        fun b _ hroom hne => h.good.sound.room hroom hne) rfl rfl
  | semaphoreWait s millisec =>
    rw [Kernel.call]
    split
    · rename_i hlive
      refine (h.good.rtSemWait h.run hc hlive hcall _).bind fun r hr => ?_
      obtain ⟨ok, k'⟩ := r
      cases ok with
      | true => exact h.called hc hr
      | false => exact (h.called hc hr).ret hcall Note.effect_tokens_zero
    · exact hsame _ _ rfl
  | semaphoreRelease s =>
    rw [Kernel.call]
    split
    · exact hsame _ _ rfl
    · split
      · exact hsame _ _ rfl
      · exact (h.good.rtSemSend h.run s hcall).bind fun k' hk' => h.called hc hk'
  | semaphoreDelete s =>
    rw [Kernel.call]
    split
    · exact (h.good.rtSemDelete h.run s).bind fun k' hk' => (h.called hc hk').ret hcall rfl
    · exact hsame _ _ rfl
  | messageCreate b queueSz =>
    rw [Kernel.call]
    split
    · exact hsame _ _ rfl
    · rename_i hno
      rw [not_or] at hno
      have hdead : k.live (.mbx b) = false := by simpa using hno.2
      have hne : ∀ b', k.live (.mbx b') = true → b' ≠ b := by
        rintro b' hb' rfl
        exact absurd (hdead.symm.trans hb') nofun
      refine Called.ret (c := .messageCreate b queueSz) (h.called_of_prio (h.good.stay
        (h.good.clearHead hdead) (h.good.sound.createMbx hdead (Nat.pos_of_ne_zero hno.1))
        ⟨rfl, rfl, rfl, rfl⟩ rfl (fun b' hb' => ?_) fun b' hb' hroom hq => ?_) rfl rfl) hcall rfl
      · exact (Function.update_of_ne (fun heq => hne b' hb' (Obj.mbx.inj heq)) ..).trans hb'
      · exact (Function.update_of_ne (hne b' hb') ..).trans (h.good.sound.room hroom hq)
  | messagePut b x millisec =>
    rw [Kernel.call]
    split
    · rename_i hlive
      exact (h.good.rtMbxSend h.run hc hlive hcall _).bind fun r hr => h.timed hc hcall millisec hr
    · exact hsame _ _ rfl
  | messageGet b millisec =>
    rw [Kernel.call]
    split
    · rename_i hlive
      refine (h.good.rtMbxWait h.run hc hlive hcall _).bind fun r hr => ?_
      obtain ⟨x, k'⟩ := r
      cases x with
      | some x => exact h.called hc hr
      | none =>
        refine (h.called hc hr).ret hcall ?_
        show (Note.returned k.run _ (if millisec ≠ 0 then .osEventTimeout else .osOK)).effect = none
        split <;> rfl
    · exact hsame _ _ rfl

end Ready

/-! ### Rounds -/

omit [DecidableEq τ] [DecidableEq ι] in
/-- A round without a tick has taken effect. -/
theorem Kept.acted (h : k.Kept n k' q' d d') (hdue : ∀ e ∈ d, 0 < e.2) : Acted 0 k k' d d' :=
  ⟨h.idle, h.running, fun e he => (h.timed e he).imp_left fun he' => ⟨hdue e he, he'⟩,
    fun u hu => Or.inl (h.delay u hu)⟩

omit [DecidableEq τ] [DecidableEq ι] in
/-- The posted requests are served after a cause. -/
theorem Acted.trans {n : ℕ} {k₁ k₂ : Kernel τ ι M} {d₁ d₂ : List (τ × ℕ)} (h₁ : Acted n k k₁ d d₁)
    (h₂ : Acted 0 k₁ k₂ d₁ d₂) (hdue : ∀ e ∈ d₁, 0 < e.2)
    (hawake : ∀ u, Awake (k₁.state u) → Awake (k₂.state u)) : Acted n k k₂ d d₂ := by
  refine ⟨h₂.idle.trans h₁.idle, fun hon => h₂.running (h₁.running hon), fun e he => ?_,
    fun u hu => ?_⟩
  · obtain ⟨hlt, he₁⟩ | hup := h₁.timed e he
    · exact (h₂.timed _ he₁).imp_left fun he₂ => ⟨hlt, he₂.2⟩
    · exact Or.inr (hawake _ hup)
  · obtain hu₁ | hdue₁ := h₁.delay u hu
    · obtain hu₂ | ⟨r, hr, hmem⟩ := h₂.delay u hu₁
      · exact Or.inl hu₂
      · exact absurd (hdue _ hmem) (not_lt.2 hr)
    · exact Or.inr hdue₁

/-- A cause has taken its effect, and the requests that have been posted can be served. -/
def Effected (n : ℕ) (k : Kernel τ ι M) (d : List (τ × ℕ)) (k' : Kernel τ ι M) : Prop :=
  ∃ q' d' pos', k'.Ready q' d' pos' ∧ Acted n k k' d d'

omit [DecidableEq τ] [DecidableEq ι] in
/-- Posted requests make no cause impossible. -/
theorem Possible.posted {c : Cause τ ι M} (h : k.Possible ts c) (hk : k.Posts k') :
    k'.Possible ts c := by
  rw [hk.eq]
  cases c with
  | svc c => cases c <;> exact h
  | tick xs => exact h
  | irq => trivial

namespace Ready

/-- Requests have been posted that can be served. -/
theorem posted (h : k.Ready q d pos) (hk : k.Posts k') (hqueue : k'.Queued (k.Servable q)) :
    k'.Ready q d pos := by
  have hsound : k'.Sound q (effects k'.log) := by
    rw [hk.effects, hk.eq]
    exact h.good.sound.mono (sameObjects_requests ..) fun _ => List.Subset.refl _
  have hservable : ∀ r ∈ k'.psq.contents, k'.Servable q r := by
    intro r hr
    have hserv := hqueue.all r hr
    rw [hk.eq]
    cases r <;> exact hserv
  have hready : k'.toSched.Valid q d pos ∧ k'.run = k'.newTsk ∧ k'.Booting ∧ k'.toSched.InSlice := by
    rw [hk.eq]
    exact ⟨h.good.valid, h.run, h.booting, h.slice⟩
  exact ⟨⟨hready.1, hsound⟩, hready.2.1, ⟨hqueue.fits, hservable, hqueue.queued⟩, hready.2.2.1,
    hready.2.2.2⟩

theorem servable_of_postable (h : k.Ready q d pos) {r : Request τ ι M} (hr : k.Postable r) :
    k.Servable q r := by
  cases r with
  | mcb b x => exact ⟨hr.1, h.good.sound.room hr.2⟩
  | tcb _ _ => trivial
  | scb _ => trivial

/-- Interrupts that arrive after the cause. -/
theorem isrs (h : k.Ready q d pos) (cs : List (IsrCall τ ι M)) :
    Safe (fun k' => k.Posts k' ∧ k'.Ready q d pos) (k.isrs cs) :=
  (isrs_safe cs (fun _ => h.servable_of_postable) h.queue).mono
    fun _ hk' => ⟨hk'.1, h.posted hk'.1 hk'.2⟩

/-- The running task enters a service call. -/
theorem enter (h : k.Ready q d pos) (c : Call τ ι M) :
    ({ k with pending := Function.update k.pending k.run c } : Kernel τ ι M).Ready q d pos := by
  set k₀ : Kernel τ ι M := { k with pending := Function.update k.pending k.run c }
  have hsound := h.good.sound
  have hasked : ∀ o, ∀ u ∈ q (some o), k₀.Asks u o := by
    intro o u hu
    have hasked := hsound.asked o u hu
    have hpending : k₀.pending u = k.pending u :=
      Function.update_of_ne (h.run ▸ h.good.ne_newTsk hu) ..
    cases o <;> rw [Asks, hpending] <;> exact hasked
  have hservable : ∀ r ∈ k₀.psq.contents, k₀.Servable q r := by
    intro r hr
    have hserv := h.queue.all r hr
    cases r <;> exact hserv
  exact ⟨⟨h.good.valid, hsound.dead, hasked, ⟨hsound.sems.empty, hsound.sems.count⟩,
    ⟨hsound.muts.held, hsound.muts.owned, hsound.muts.nesting⟩, ⟨hsound.boxes.fits,
    hsound.boxes.unused, hsound.boxes.blocked, hsound.boxes.fifo⟩⟩, h.run, ⟨h.queue.fits, hservable,
    h.queue.queued⟩, h.booting, h.slice⟩

/-- **A service call and the requests that have been posted before it.** -/
theorem svc [Fintype τ] (h : k.Ready q d pos) (hpost : ∀ r ∈ k.psq.contents, k.Postable r)
    {c : Call τ ι M} (hc : k.Proper ts c) :
    Safe (fun k' => ∃ q' d' pos', k'.Ready q' d' pos' ∧ Acted 0 k k' d d' ∧
      k'.Timed d' k.run c.timeout) (k.svc ts c) := by
  have hc₀ : ({ k with pending := Function.update k.pending k.run c } : Kernel τ ι M).Proper ts c := by
    cases c <;> exact hc
  refine ((h.enter c).call hc₀ (Function.update_self ..)).bind fun r hr => ?_
  obtain ⟨q', d', pos', hgood, hkept, hboot⟩ := hr
  have hrun : r.2.run = k.run := hkept.run
  rw [hrun]
  have hsame : (r.2.rtRetVal k.run r.1).SameObjects (r.2.rtRetVal k.run r.1).sysSwitch :=
    ⟨rfl, rfl, rfl, rfl, rfl, rfl, rfl, rfl⟩
  have hsound := hgood.sound.mono hsame fun _ => List.Subset.refl _
  have hvalid : (r.2.rtRetVal k.run r.1).sysSwitch.toSched.Valid q' d' pos' :=
    ⟨hgood.valid.placed, hgood.valid.running, hgood.valid.top, hgood.valid.due⟩
  have hacted := hkept.acted h.good.valid.due
  have hpsq : (r.2.rtRetVal k.run r.1).psq = k.psq := hkept.requests.psq
  have hservable : ∀ x ∈ (r.2.rtRetVal k.run r.1).psq.contents,
      (r.2.rtRetVal k.run r.1).sysSwitch.Servable q' x := by
    intro x hx
    rw [hpsq] at hx
    cases x with
    | mcb b m => exact ⟨hkept.live b (hpost _ hx).1, hkept.room b (hpost _ hx).1 (hpost _ hx).2⟩
    | tcb _ _ => trivial
    | scb _ => trivial
  have hqueued : served (r.2.rtRetVal k.run r.1).log ++ (r.2.rtRetVal k.run r.1).psq.contents =
      Rtx.posted (r.2.rtRetVal k.run r.1).log := by
    rw [hpsq, hkept.requests.posted, hkept.requests.served]
    exact h.queue.queued
  exact ⟨q', d', pos', ⟨⟨hvalid, hsound⟩, rfl, ⟨hpsq.symm ▸ h.queue.fits, hservable, hqueued⟩, hboot,
      h.slice.congr ⟨hkept.slice.time, hkept.slice.robinTask, hkept.slice.robinTime⟩⟩,
    ⟨hacted.idle, hacted.running, hacted.timed, hacted.delay⟩, h.run ▸ hkept.own⟩

/-- What a tick does to the tasks that wait. -/
theorem acted_systick [Fintype τ] (h : k.Ready q d pos) {s' : Sched τ ι} {xs : List τ}
    (hlist : Sched.wakeList k.prio (Sched.expiring d)
      (k.toSched.suspend.afterRobin (k.run :: q none)) = t :: xs)
    (hstate : s'.state =
      Function.update (Sched.wakeAll k.toSched.suspend.state (Sched.expiring d)) t .running)
    (hidle : s'.idle = k.idle) (hk : k'.toSched = s') (hon : k'.osRunning = k.osRunning) :
    Acted 1 k k' d (Sched.tickDown d) := by
  subst hk
  refine ⟨hidle, fun hrun => hon.trans hrun, fun e he => ?_, fun u hu => ?_⟩
  · by_cases hone : e.2 = 1
    · have hmem : e.1 ∈ Sched.expiring d :=
        List.mem_map_of_mem (List.mem_filter.2 ⟨he, decide_eq_true hone⟩)
      refine Or.inr ?_
      rw [hstate]
      by_cases het : e.1 = t
      · exact Or.inr (het ▸ Function.update_self ..)
      · rw [Function.update_of_ne het]
        exact Or.inl (if_pos hmem)
    · have hpos := h.good.valid.due e he
      refine Or.inl ⟨by omega, List.mem_map.2 ⟨e, List.mem_filter.2 ⟨he, ?_⟩, rfl⟩⟩
      exact decide_eq_true hone
  · have hrun : u ≠ k.run := by
      rintro rfl
      rw [h.run, h.good.valid.running] at hu
      cases hu
    by_cases hdue : u ∈ Sched.expiring d
    · obtain ⟨e, he, rfl⟩ := List.mem_map.1 hdue
      rw [List.mem_filter, decide_eq_true_eq] at he
      exact Or.inr ⟨1, le_rfl, he.2 ▸ he.1⟩
    · have hut : u ≠ t := by
        rintro rfl
        have hmem : u ∈ u :: xs := List.mem_cons_self
        rw [← hlist, Sched.mem_wakeList, Sched.mem_afterRobin, List.mem_cons] at hmem
        have hready := (hmem.resolve_left hdue).resolve_left hrun
        exact h.good.ne_waitDly (Or.inl ((h.good.valid.placed.mem_iff u none).1 hready)) hu
      refine Or.inl ?_
      rw [hstate, Function.update_of_ne hut, Sched.wakeAll, if_neg hdue]
      exact (Function.update_of_ne hrun ..).trans hu

/-- **A tick**: the next task is chosen. -/
theorem tick [Fintype τ] (h : k.Ready q d pos) (hpost : ∀ r ∈ k.psq.contents, k.Postable r)
    (hon : k.osRunning = true) :
    ∃ s' q' pos', k.toSched.systick = .ok s' ∧
      (({ k with toSched := s' } : Kernel τ ι M).sysSwitch).Ready q' (Sched.tickDown d) pos' ∧
      Acted 1 k ({ k with toSched := s' } : Kernel τ ι M).sysSwitch d (Sched.tickDown d) ∧
      Sched.wakeList k.prio (Sched.expiring d) (k.toSched.suspend.afterRobin (k.run :: q none)) =
        s'.newTsk :: q' none ∧ s'.prio = k.prio ∧ s'.time = (k.time + 1) % 0x100000000 ∧
      s'.robinTask = k.toSched.nextRobin k.run ∧ s'.robinTime = k.toSched.robinEnd k.run := by
  obtain ⟨t, ys, s', q', pos', hs', hlist, rfl, hq', hstate, hprio, rfl, htime, hidle, htask, hrobin,
    hvalid⟩ := h.good.valid.systick h.run
  have hlists : ∀ o, q' (some o) ⊆ q (some o) := fun o => by
    rw [hq' o]
    exact List.filter_subset_self ..
  have hacted : Acted 1 k { k with toSched := s' } d (Sched.tickDown d) :=
    h.acted_systick hlist hstate hidle rfl rfl
  have hservable : ∀ x ∈ k.psq.contents,
      ({ k with toSched := s' } : Kernel τ ι M).sysSwitch.Servable q' x := by
    intro x hx
    have hx' := hpost x hx
    cases x with
    | mcb b m =>
      exact ⟨hx'.1, fun hne => h.good.sound.room hx'.2 fun hnil =>
        hne (List.subset_nil.1 (hnil ▸ hlists _))⟩
    | tcb _ _ => trivial
    | scb _ => trivial
  exact ⟨s', q', pos', hs', ⟨⟨⟨hvalid.placed, hvalid.running, hvalid.top, hvalid.due⟩,
    h.good.sound.mono ⟨rfl, rfl, rfl, rfl, rfl, rfl, rfl, rfl⟩ hlists⟩, rfl,
    ⟨h.queue.fits, hservable, h.queue.queued⟩, fun hoff => absurd (hon.symm.trans hoff) nofun,
    (h.slice.systick htime htask hrobin).congr ⟨rfl, rfl, rfl⟩⟩,
    ⟨hacted.idle, hacted.running, hacted.timed, hacted.delay⟩, hlist, hprio, htime, htask, hrobin⟩

/-- **A tick**, with the messages that the timers post. -/
theorem rtSystick [Fintype τ] (h : k.Ready q d pos) (hpost : ∀ r ∈ k.psq.contents, k.Postable r)
    (hon : k.osRunning = true) (xs : List M) : Safe (k.Effected 1 d) (k.rtSystick ts xs) := by
  obtain ⟨s', q', pos', hs', hready, hacted, -⟩ := h.tick hpost hon
  rw [Kernel.rtSystick, hs']
  refine (hready.isrs _).mono fun k₂ hk₂ => ?_
  obtain ⟨hposts, hready₂⟩ := hk₂
  refine ⟨q', _, pos', hready₂, ?_⟩
  rw [hposts.eq]
  exact ⟨hacted.idle, hacted.running, hacted.timed, hacted.delay⟩

/-- **The posted requests are served**, and the highest ready task runs. -/
theorem rtPopReq [Fintype τ] (h : k.Ready q d pos) :
    Safe (fun k' => k.Effected 0 d k' ∧ k'.psq.count = 0 ∧
      ∀ u, Awake (k.state u) → Awake (k'.state u)) k.rtPopReq := by
  set k₀ : Kernel τ ι M := { k with toSched := k.toSched.suspend } with hk₀
  set q₀ := Function.update q none (k.run :: q none) with hq₀
  have hsome : ∀ o, q₀ (some o) = q (some o) := fun o =>
    Function.update_of_ne (Option.some_ne_none o) ..
  have hwork : k₀.AtWork q₀ d (Function.update pos k.run (some none)) [] (effects k₀.log) :=
    ⟨h.good.valid.suspend h.run, h.good.valid.due, h.good.sound.mono
      (neutral_switch k _).toSameObjects fun o => hsome o ▸ List.Subset.refl _⟩
  have hservable : ∀ r ∈ k₀.psq.contents, k₀.Servable q₀ r := by
    intro r hr
    have hr' := h.queue.all r hr
    cases r with
    | mcb b x => exact ⟨hr'.1, fun hne => hr'.2 (hsome (.mbx b) ▸ hne)⟩
    | tcb _ _ => trivial
    | scb _ => trivial
  rw [Kernel.rtPopReq]
  refine (hwork.rtPopReqLoop h.queue.fits hservable (Nat.lt_succ_self _)).bind fun k₁ hk₁ => ?_
  obtain ⟨q₁, d₁, pos₁, h₁, hwakes, hfits, hcount, hposted, hserved⟩ := hk₁
  have hnil : k₁.psq.contents = [] := Ring.contents_eq_nil hcount
  have hqueued : served k₁.log ++ k₁.psq.contents = Rtx.posted k₁.log := by
    rw [hnil, List.append_nil, hserved, hposted]
    exact h.queue.queued
  obtain ⟨t, xs, s', hq₁, hs', hturn, hprio, -, hvalid⟩ := Sched.dispatchFirst h₁.placed h₁.due
  have ht : k₁.state t = .ready := by
    have hplace := h₁.placed.fits t List.not_mem_nil
    rw [(h₁.placed.mem_iff t none).1 (hq₁ ▸ List.mem_cons_self)] at hplace
    exact hplace.ready.1
  have hslice : k.toSched.SameSlice k₁.toSched :=
    ⟨hwakes.slice.time, hwakes.slice.robinTask, hwakes.slice.robinTime⟩
  have hrunFirst : k₁.sched k₁.toSched.runFirst = .ok { k₁ with toSched := s' } :=
    congrArg (sched k₁) hs'
  have hawake : ∀ u, Awake (k₁.state u) → Awake (s'.state u) := fun _ => awake_of_turn hturn
  rw [hrunFirst]
  refine ⟨⟨_, d₁, _, ⟨⟨⟨hvalid.placed, hvalid.running, hvalid.top, hvalid.due⟩, h₁.sound.mono
    ⟨rfl, rfl, rfl, rfl, rfl, rfl, rfl, rfl⟩ fun o => ?_⟩, rfl, ⟨hfits, fun r hr => ?_, hqueued⟩,
    fun hoff => ?_, h.slice.congr (hslice.trans ⟨hturn.time, hturn.robinTask, hturn.robinTime⟩)⟩,
    hturn.idle.trans hwakes.idle, fun hon => hwakes.osRunning.trans hon, fun e he => ?_,
    fun u hu => ?_⟩, hcount,
    fun u hu => hawake u (hwakes.awake u ?_)⟩
  · rw [Function.update_of_ne (Option.some_ne_none o)]
    exact List.Subset.refl _
  · have hr' : r ∈ k₁.psq.contents := hr
    rw [hnil] at hr'
    cases hr'
  · have hbooting := h.booting (hwakes.osRunning.symm.trans hoff)
    show s'.prio s'.idle = 255 ∧ ∀ t, t ≠ s'.idle → s'.prio t < 255
    rw [hprio, hturn.idle, hwakes.idle, hwakes.prio]
    exact hbooting
  · exact (hwakes.timed e he).imp (fun he' => ⟨h.good.valid.due e he, he'⟩) (hawake e.1)
  · have hrun : u ≠ k.run := by
      rintro rfl
      rw [h.run, h.good.valid.running] at hu
      cases hu
    have hu₁ : k₁.state u = .waitDly :=
      hwakes.delay u ((Function.update_of_ne hrun ..).trans hu)
    refine Or.inl ((hturn.others u ?_).trans hu₁)
    rw [List.mem_singleton]
    rintro rfl
    rw [ht] at hu₁
    cases hu₁
  · exact awake_of_update hu

/-- The interrupts before the cause. -/
theorem start (h : k.Ready q d pos) (hempty : k.psq.count = 0) (cs : List (IsrCall τ ι M)) :
    Safe (fun k' => k.Posts k' ∧ k'.Ready q d pos ∧ ∀ r ∈ k'.psq.contents, k'.Postable r)
      (k.isrs cs) := by
  have hnil : ∀ r ∈ k.psq.contents, k.Postable r := by
    rw [Ring.contents_eq_nil hempty]
    exact fun r hr => nomatch hr
  refine (isrs_safe cs (fun _ hr => hr) ⟨h.queue.fits, hnil, h.queue.queued⟩).mono fun k' hk' => ?_
  obtain ⟨hposts, hqueue⟩ := hk'
  have hservable : k'.Queued (k.Servable q) :=
    ⟨hqueue.fits, fun r hr => h.servable_of_postable (hqueue.all r hr), hqueue.queued⟩
  refine ⟨hposts, h.posted hposts hservable, fun r hr => ?_⟩
  have hr' := hqueue.all r hr
  rw [hposts.eq]
  cases r <;> exact hr'

/-- **The cause.** -/
theorem act [Fintype τ] (h : k.Ready q d pos) (hpost : ∀ r ∈ k.psq.contents, k.Postable r)
    {c : Cause τ ι M} (hc : k.Possible ts c) : Safe (k.Effected c.ticks d) (k.act ts c) := by
  cases c with
  | svc c =>
    refine (h.svc hpost hc).mono fun k' hk' => ?_
    obtain ⟨q', d', pos', h', hacted, -⟩ := hk'
    exact ⟨q', d', pos', h', hacted⟩
  | tick xs => exact h.rtSystick hpost hc xs
  | irq =>
    exact ⟨q, d, pos, h, rfl, id, fun e he => Or.inl ⟨h.good.valid.due e he, he⟩,
      fun _ hu => Or.inl hu⟩

/-- The interrupts after the cause, and the service of all requests. -/
theorem finish [Fintype τ] (h : k.Ready q d pos) (cs : List (IsrCall τ ι M)) :
    Safe (fun k' => k.Effected 0 d k' ∧ k'.psq.count = 0 ∧
        ∀ u, Awake (k.state u) → Awake (k'.state u))
      (do
        let k ← k.isrs cs
        if k.psq.count ≠ 0 then k.rtPopReq else return k) := by
  refine (h.isrs cs).bind fun k₁ hk₁ => ?_
  obtain ⟨hposts, h₁⟩ := hk₁
  split
  · refine h₁.rtPopReq.mono fun k₂ hk₂ => ?_
    obtain ⟨⟨q₂, d₂, pos₂, h₂, hacted⟩, hcount, hawake⟩ := hk₂
    rw [hposts.eq] at hacted hawake
    exact ⟨⟨q₂, d₂, pos₂, h₂, hacted.idle, hacted.running, hacted.timed, hacted.delay⟩, hcount, hawake⟩
  · rename_i hcount
    refine ⟨⟨q, d, pos, h₁, ?_⟩, not_not.1 hcount, ?_⟩
    · rw [hposts.eq]
      exact ⟨rfl, id, fun e he => Or.inl ⟨h.good.valid.due e he, he⟩, fun _ hu => Or.inl hu⟩
    · rw [hposts.eq]
      exact fun _ hu => hu

/-- **A cause with the interrupts around it.** -/
theorem turn [Fintype τ] (h : k.Ready q d pos) (hempty : k.psq.count = 0) (a : Round τ ι M)
    (ha : k.Possible ts a.cause) :
    Safe (fun k' => k.Effected a.cause.ticks d k' ∧ k'.psq.count = 0) (k.turn ts a) := by
  rw [Kernel.turn]
  refine (h.start hempty a.before).bind fun k₁ hk₁ => ?_
  obtain ⟨hposts, h₁, hpost⟩ := hk₁
  refine (h₁.act hpost (ha.posted hposts)).bind fun k₂ hk₂ => ?_
  obtain ⟨q₂, d₂, pos₂, h₂, hacted⟩ := hk₂
  rw [hposts.eq] at hacted
  refine (h₂.finish a.after).mono fun k₃ hk₃ => ?_
  obtain ⟨⟨q₃, d₃, pos₃, h₃, hacted₃⟩, hcount, hawake⟩ := hk₃
  have hacted₂ : Acted a.cause.ticks k k₂ d d₂ :=
    ⟨hacted.idle, hacted.running, hacted.timed, hacted.delay⟩
  exact ⟨⟨q₃, d₃, pos₃, h₃, hacted₂.trans hacted₃ h₂.good.valid.due hawake⟩, hcount⟩

end Ready

/-! ### Runs -/

/-- The kernel after its initialisation: no task but the main program, and no object. -/
theorem ready_boot [Inhabited M] (idle : τ) :
    (boot idle : Kernel τ ι M).Ready (fun _ => []) [] (fun _ => none) := by
  have hlinks : (boot idle : Kernel τ ι M).links.Rep fun _ => [] :=
    ⟨fun _ => rfl, fun _ => trivial, fun _ _ => rfl, fun _ _ _ hmem => nomatch hmem⟩
  have hdelays : (boot idle : Kernel τ ι M).delays.Rep [] :=
    ⟨rfl, trivial, fun _ _ => rfl, trivial, rfl, fun _ hmem => nomatch hmem⟩
  have hplaced : Placed (boot idle : Kernel τ ι M).links (boot idle : Kernel τ ι M).delays
      (boot idle : Kernel τ ι M).prio (boot idle : Kernel τ ι M).state idle (fun _ => []) []
      (fun _ => none) [idle] := by
    refine ⟨hlinks, hdelays, fun t h => iff_of_false List.not_mem_nil nofun,
      fun _ => List.Pairwise.nil, fun t ht => ?_, fun _ _ => ⟨rfl, List.not_mem_nil⟩,
      fun hi => absurd (List.mem_singleton_self _) hi⟩
    have hti : t ≠ idle := by simpa using ht
    have hstate : (boot idle : Kernel τ ι M).state t = .inactive := by simp [boot, hti]
    rw [hstate]
    exact ⟨rfl, List.not_mem_nil⟩
  have hrunning : (boot idle : Kernel τ ι M).state idle = .running := by simp [boot]
  have hsound : (boot idle : Kernel τ ι M).Sound (fun _ => []) [] :=
    ⟨fun _ _ => rfl, fun _ _ ht => (nomatch ht), ⟨fun _ _ => rfl, fun _ => ⟨0, rfl⟩⟩,
      ⟨fun _ hne => absurd rfl hne, fun _ hne => absurd rfl hne, fun _ _ => rfl⟩,
      ⟨fun _ hb => (nomatch hb), fun _ _ => rfl, fun _ hne => absurd rfl hne, fun _ => rfl⟩⟩
  refine ⟨⟨⟨hplaced, hrunning, fun _ ht => (nomatch ht), fun _ he => (nomatch he)⟩, hsound⟩, rfl,
    ⟨⟨Nat.zero_lt_succ _, Nat.zero_le _, rfl⟩, fun _ hr => (nomatch hr), rfl⟩,
    fun _ => ⟨?_, fun t ht => ?_⟩, fun hne => absurd rfl hne⟩
  · simp [boot]
  · have hti : t ≠ idle := ht
    simp [boot, hti]

/-- **A run leads from a good state to a good state.** -/
theorem Ready.exec [Fintype τ] (as : List (Round τ ι M)) (h : k.Ready q d pos)
    (hempty : k.psq.count = 0) :
    Safe (fun k' => ∃ q' d' pos', k'.Ready q' d' pos' ∧ k'.psq.count = 0) (k.exec ts as) := by
  induction as generalizing k q d pos with
  | nil => exact ⟨q, d, pos, h, hempty⟩
  | cons a as ih =>
    rw [Kernel.exec]
    split
    · rename_i ha
      refine (h.turn hempty a ha).bind fun k₁ hk₁ => ?_
      obtain ⟨⟨q₁, d₁, pos₁, h₁, -⟩, hempty₁⟩ := hk₁
      exact ih h₁ hempty₁
    · exact ih h hempty

/-- **The states that are reached from the initialisation on.** -/
theorem exec_ready [Fintype τ] [Inhabited M] (ts : TimerService τ ι) (idle : τ)
    (as : List (Round τ ι M)) :
    Safe (fun k => ∃ q d pos, k.Ready q d pos ∧ k.psq.count = 0) ((boot idle).exec ts as) :=
  (ready_boot idle).exec as rfl

end Kernel

end Rtx

end UavTelemetry
