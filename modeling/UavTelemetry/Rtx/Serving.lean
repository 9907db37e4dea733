import UavTelemetry.Rtx.Accounts
import UavTelemetry.Rtx.Switching

/-!
# Serving posted requests

The handler of the post service queue suspends the running task, so that every task has its place,
and serves the requests one after the other.  Each may wake one task.  Afterwards the highest ready
task runs.

The only error that can come up is the one of `rt_mbx_psh` when a mailbox overflows.

## Main definitions

* `Safe P x` : `x` meets `P`, or the kernel has stopped in `os_error`; it has not followed a null
  pointer and has not gone round in a loop.
* `Kernel.AtWork k q d pos X` : the kernel at work, with the tasks `X` in hand.
* `Kernel.Wakes` : what the service of requests leaves as it was.

## Main results

* `Kernel.AtWork.serve` : a request is served.
* `Kernel.AtWork.rtPopReqLoop` : all requests are served.
-/

namespace UavTelemetry

namespace Rtx

/-- The result meets `P`, unless the kernel has stopped in `os_error`. -/
def Safe {α : Type} (P : α → Prop) : Except Stop α → Prop
  | .ok a => P a
  | .error (.osError _) => True
  | .error (.fault _) => False

section safe

variable {α β : Type} {P : α → Prop} {Q : β → Prop} {x : Except Stop α}

theorem Safe.bind {f : α → Except Stop β} (hx : Safe P x) (hf : ∀ a, P a → Safe Q (f a)) :
    Safe Q (x >>= f) := by
  cases x with
  | ok a => exact hf a hx
  | error e =>
    cases e with
    | osError _ => trivial
    | fault _ => exact hx

theorem Safe.mono {P' : α → Prop} (hx : Safe P x) (hP : ∀ a, P a → P' a) : Safe P' x := by
  cases x with
  | ok a => exact hP a hx
  | error e => cases e <;> exact hx

theorem safe_of_eq {a : α} (hx : x = .ok a) (ha : P a) : Safe P x := hx ▸ ha

end safe

/-- The task does not wait. -/
def Awake (st : TcbState) : Prop := st = .ready ∨ st = .running

variable {τ ι M : Type} [DecidableEq τ] [DecidableEq ι]

section placed

variable {s : Sched τ ι} {q : Option (Obj ι) → List τ} {d : List (τ × ℕ)}
  {pos : τ → Option (Option (Obj ι))} {o : Obj ι} {t : τ} {xs X : List τ}

/-- **A waiting task becomes ready**: the first one that waits for the object. -/
theorem Sched.wakeWaiter [Fintype τ]
    (h : Placed s.links s.delays s.prio s.state s.idle q d pos X) (hq : q (some o) = t :: xs) :
    ∃ s₁ l q' pos', s.takeWaiter o = .ok (t, s₁) ∧
      s₁.makeReady t = .ok { s.setState t .ready with
        links := l, delays := s.delays.rtRmvDly t } ∧ s.state t = o.waitState ∧ t ∉ X ∧
      q' (some o) = xs ∧ (∀ o', o' ≠ o → q' (some o') = q (some o')) ∧
      Placed l (s.delays.rtRmvDly t) s.prio (Function.update s.state t .ready) s.idle q'
        (d.filter fun e => e.1 ≠ t) pos' X := by
  obtain ⟨l₁, hl₁, ht, hstate, hplaced⟩ := takeWaiter_eq h hq
  obtain ⟨l₂, hl₂, hput⟩ := makeReady_eq
    (s := { s with links := l₁, delays := s.delays.rtRmvDly t }) hplaced ht
  refine ⟨_, l₂, _, _, hl₁, hl₂, hstate, ht, ?_, fun o' ho => ?_, hput⟩
  · rw [Function.update_of_ne (Option.some_ne_none o), Function.update_self]
  · rw [Function.update_of_ne (Option.some_ne_none o'),
      Function.update_of_ne fun heq => ho (Option.some.inj heq)]

/-- **A task that waits for events becomes ready.** -/
theorem Sched.wakeEventReady [Fintype τ]
    (h : Placed s.links s.delays s.prio s.state s.idle q d pos [])
    (ht : s.state t = .waitOr ∨ s.state t = .waitAnd) :
    ∃ l q' pos', ((s.rtRmvDly t).setState t .ready).rtPutPrio .rdy t =
        .ok { s.setState t .ready with links := l, delays := s.delays.rtRmvDly t } ∧
      (∀ o, q' (some o) = q (some o)) ∧
      Placed l (s.delays.rtRmvDly t) s.prio (Function.update s.state t .ready) s.idle q'
        (d.filter fun e => e.1 ≠ t) pos' [] := by
  have hpos : pos t = none := by
    have hfits := h.fits t List.not_mem_nil
    obtain ht | ht := ht <;> rw [ht] at hfits <;> exact hfits
  have hhold := h.hold hpos (h.delays.rtRmvDly t) (fun _ => Placed.mem_others) Placed.notMem_others
  obtain ⟨l, hl, hput⟩ := hhold.putReady List.not_mem_nil
  refine ⟨l, _, _, congrArg (Except.map _) hl, fun o => ?_, hput⟩
  exact Function.update_of_ne (Option.some_ne_none o) ..

end placed

namespace Kernel

variable {k k' k₁ k₂ : Kernel τ ι M} {q q' q₁ q₂ : Option (Obj ι) → List τ}
  {d d' d₁ d₂ : List (τ × ℕ)} {pos : τ → Option (Option (Obj ι))} {X : List τ}
  {es : List (Effect τ ι M)}

/-- The kernel at work, with the tasks `X` in hand; while requests are served, there are none. -/
structure AtWork (k : Kernel τ ι M) (q : Option (Obj ι) → List τ) (d : List (τ × ℕ))
    (pos : τ → Option (Option (Obj ι))) (X : List τ) (es : List (Effect τ ι M)) : Prop where
  placed : Placed k.links k.delays k.prio k.state k.idle q d pos X
  due : ∀ e ∈ d, 0 < e.2
  sound : k.Sound q es

/-- Tasks may have been woken, and nothing else has happened to them: no task has gone to sleep, no
priority has changed, and a time-out stands as it did unless its task has been woken. -/
structure Wakes (k k' : Kernel τ ι M) (q q' : Option (Obj ι) → List τ) (d d' : List (τ × ℕ)) :
    Prop where
  run : k'.run = k.run
  newTsk : k'.newTsk = k.newTsk
  idle : k'.idle = k.idle
  prio : k'.prio = k.prio
  slice : k.toSched.SameSlice k'.toSched
  live : k'.live = k.live
  mbxState : k'.mbxState = k.mbxState
  pending : k'.pending = k.pending
  psq : k'.psq = k.psq
  osRunning : k'.osRunning = k.osRunning
  lists : ∀ o, q' (some o) ⊆ q (some o)
  timed : ∀ e ∈ d, e ∈ d' ∨ Awake (k'.state e.1)
  delay : ∀ u, k.state u = .waitDly → k'.state u = .waitDly
  awake : ∀ u, Awake (k.state u) → Awake (k'.state u)

omit [DecidableEq τ] [DecidableEq ι] in
theorem Wakes.refl (k : Kernel τ ι M) (q : Option (Obj ι) → List τ) (d : List (τ × ℕ)) :
    k.Wakes k q q d d :=
  ⟨rfl, rfl, rfl, rfl, ⟨rfl, rfl, rfl⟩, rfl, rfl, rfl, rfl, rfl, fun _ => List.Subset.refl _,
    fun _ => Or.inl, fun _ => id, fun _ => id⟩

omit [DecidableEq τ] [DecidableEq ι] in
theorem Wakes.trans (h₁ : k.Wakes k₁ q q₁ d d₁) (h₂ : k₁.Wakes k₂ q₁ q₂ d₁ d₂) :
    k.Wakes k₂ q q₂ d d₂ :=
  ⟨h₂.run.trans h₁.run, h₂.newTsk.trans h₁.newTsk, h₂.idle.trans h₁.idle, h₂.prio.trans h₁.prio,
    h₁.slice.trans h₂.slice, h₂.live.trans h₁.live, h₂.mbxState.trans h₁.mbxState,
    h₂.pending.trans h₁.pending, h₂.psq.trans h₁.psq, h₂.osRunning.trans h₁.osRunning,
    fun o => List.Subset.trans (h₂.lists o) (h₁.lists o),
    fun e he => (h₁.timed e he).elim (h₂.timed e) fun hawake => Or.inr (h₂.awake _ hawake),
    fun u hu => h₂.delay u (h₁.delay u hu), fun u hu => h₂.awake u (h₁.awake u hu)⟩

omit [DecidableEq ι] in
/-- The changes to the tasks when one of them, which waits, becomes ready. -/
theorem timed_of_update {st : τ → TcbState} {t : τ} {e : τ × ℕ} (he : e ∈ d) :
    e ∈ d.filter (fun e => e.1 ≠ t) ∨ Awake (Function.update st t .ready e.1) := by
  by_cases het : e.1 = t
  · exact Or.inr (Or.inl (het ▸ Function.update_self ..))
  · exact Or.inl (List.mem_filter.2 ⟨he, by simpa using het⟩)

omit [DecidableEq ι] in
theorem delay_of_update {st : τ → TcbState} {t u : τ} (ht : st t ≠ .waitDly)
    (hu : st u = .waitDly) : Function.update st t .ready u = .waitDly := by
  have hut : u ≠ t := by
    rintro rfl
    exact ht hu
  rwa [Function.update_of_ne hut]

omit [DecidableEq ι] in
theorem awake_of_update {st : τ → TcbState} {t u : τ} (hu : Awake (st u)) :
    Awake (Function.update st t .ready u) := by
  by_cases hut : u = t
  · exact Or.inl (hut ▸ Function.update_self ..)
  · rwa [Function.update_of_ne hut]

omit [DecidableEq τ] [DecidableEq ι] in
theorem waited_iff {X : List τ} {o : Obj ι}
    (h : Placed k.links k.delays k.prio k.state k.idle q d pos X) :
    k.waited o = true ↔ q (some o) ≠ [] := by
  have hpath := (h.links.path (some o)).headPtr_eq
  rw [waited, show k.links.lnk (.obj o) = _ from hpath]
  cases q (some o) <;> simp

/-- What the service of a request with the effects `es` achieves, before the history says that it has
been served. -/
def Pushed (k : Kernel τ ι M) (q : Option (Obj ι) → List τ) (d : List (τ × ℕ))
    (es : List (Effect τ ι M)) (k' : Kernel τ ι M) : Prop :=
  ∃ q' d' pos', k'.AtWork q' d' pos' [] (effects k'.log ++ es) ∧ k.Wakes k' q q' d d' ∧
    k.SameRequests k'

/-- What the service of a request achieves. -/
def Served (k : Kernel τ ι M) (q : Option (Obj ι) → List τ) (d : List (τ × ℕ))
    (r : Request τ ι M) (k' : Kernel τ ι M) : Prop :=
  ∃ q' d' pos', k'.AtWork q' d' pos' [] (effects k'.log) ∧ k.Wakes k' q q' d d' ∧
    posted k'.log = posted k.log ∧ served k'.log = served k.log ++ [r]

/-- A waiting task has been woken. -/
theorem AtWork.woken (k' : Kernel τ ι M) {l : Links τ (Obj ι)} {t : τ}
    {pos' : τ → Option (Option (Obj ι))} (h : k.AtWork q d pos X es)
    (hk : k'.toSched = { k.toSched.setState t .ready with
      links := l, delays := k.delays.rtRmvDly t })
    (hplaced : Placed l (k.delays.rtRmvDly t) k.prio (Function.update k.state t .ready) k.idle q'
      (d.filter fun e => e.1 ≠ t) pos' X) (ht : k.state t ≠ .waitDly)
    (hlists : ∀ o, q' (some o) ⊆ q (some o)) (hlive : k'.live = k.live)
    (hstate : k'.mbxState = k.mbxState) (hpending : k'.pending = k.pending) (hpsq : k'.psq = k.psq)
    (hrunning : k'.osRunning = k.osRunning) {es' : List (Effect τ ι M)} (hsound : k'.Sound q' es') :
    k'.AtWork q' (d.filter fun e => e.1 ≠ t) pos' X es' ∧
      k.Wakes k' q q' d (d.filter fun e => e.1 ≠ t) := by
  have hst : k'.state = Function.update k.state t .ready := congrArg Sched.state hk
  refine ⟨⟨?_, Sched.Valid.due_filter h.due, hsound⟩, (congrArg Sched.run hk :),
    (congrArg Sched.newTsk hk :), (congrArg Sched.idle hk :), (congrArg Sched.prio hk :),
    hk ▸ ⟨rfl, rfl, rfl⟩, hlive, hstate, hpending, hpsq, hrunning, hlists, fun e he => ?_,
    fun u hu => ?_, fun u hu => ?_⟩
  · rw [hk]
    exact hplaced
  · rw [hst]
    exact timed_of_update he
  · rw [hst]
    exact delay_of_update ht hu
  · rw [hst]
    exact awake_of_update hu

omit [DecidableEq τ] in
/-- The tasks that still wait after the first one that waits for an object has been woken. -/
theorem lists_of_waiter {o : Obj ι} {t : τ} {xs : List τ} (hq : q (some o) = t :: xs)
    (hxs : q' (some o) = xs) (hothers : ∀ o', o' ≠ o → q' (some o') = q (some o')) (o' : Obj ι) :
    q' (some o') ⊆ q (some o') := by
  by_cases ho : o' = o
  · rw [ho, hxs, hq]
    exact List.subset_cons_self ..
  · rw [hothers o' ho]
    exact List.Subset.refl _

/-! ### Event flags -/

omit [DecidableEq ι] in
/-- **`rt_evt_set` and `rt_evt_psh` wake the task if its wait is over.** -/
theorem evtArrive_cases (k : Kernel τ ι M) (eventFlags : Flags) (t : τ) :
    k.Neutral (k.evtArrive eventFlags t).2 ∧
      if (k.evtArrive eventFlags t).1 then
        (k.state t = .waitOr ∨ k.state t = .waitAnd) ∧
          (k.evtArrive eventFlags t).2.toSched = (k.toSched.rtRmvDly t).setState t .ready
      else (k.evtArrive eventFlags t).2.toSched = k.toSched := by
  simp only [evtArrive]
  split
  · rename_i hand
    exact ⟨Neutral.ret ⟨⟨rfl, rfl, rfl, rfl, rfl, rfl, rfl, rfl⟩, rfl, rfl, rfl, rfl, rfl⟩
      Note.effect_signal, Or.inr hand.1, rfl⟩
  · split
    · rename_i hor
      exact ⟨Neutral.ret ⟨⟨rfl, rfl, rfl, rfl, rfl, rfl, rfl, rfl⟩, rfl, rfl, rfl, rfl, rfl⟩
        Note.effect_signal, Or.inl hor.1, rfl⟩
    · exact ⟨⟨⟨rfl, rfl, rfl, rfl, rfl, rfl, rfl, rfl⟩, rfl, rfl, rfl, rfl, rfl⟩, rfl⟩

/-- **A posted event wakes its task if the wait is over.** -/
theorem AtWork.rtEvtPsh [Fintype τ] (h : k.AtWork q d pos [] (effects k.log)) (setFlags : Flags)
    (t : τ) : Safe (k.Pushed q d []) (k.rtEvtPsh setFlags t) := by
  obtain ⟨hobj, hcases⟩ := k.evtArrive_cases setFlags t
  have hlog : effects (k.evtArrive setFlags t).2.log ++ [] = effects k.log := by
    rw [List.append_nil, hobj.effects]
  rw [Kernel.rtEvtPsh]
  by_cases hwake : (k.evtArrive setFlags t).1 = true
  · rw [if_pos hwake] at hcases
    obtain ⟨ht, hsched⟩ := hcases
    obtain ⟨l, q', pos', hl, hq', hplaced⟩ := k.toSched.wakeEventReady h.placed ht
    have hlists : ∀ o, q' (some o) ⊆ q (some o) := fun o => hq' o ▸ List.Subset.refl _
    simp only [if_pos hwake, hsched, hl]
    obtain ⟨hwork, hwakes⟩ := h.woken
      { (k.evtArrive setFlags t).2 with
        toSched := { k.toSched.setState t .ready with links := l, delays := k.delays.rtRmvDly t } }
      rfl hplaced (by obtain ht | ht := ht <;> rw [ht] <;> nofun) hlists hobj.live hobj.mbxState
      hobj.pending hobj.psq hobj.osRunning ((h.sound.mono hobj.toSameObjects hlists).mono
      (neutral_switch _ _).toSameObjects fun _ => List.Subset.refl _)
    exact ⟨q', _, pos', hlog.symm ▸ hwork, hwakes, hobj.psq, hobj.pending, hobj.posted, hobj.served⟩
  · rw [if_neg hwake] at hcases
    simp only [if_neg hwake]
    have hstate : (k.evtArrive setFlags t).2.state = k.state := congrArg Sched.state hcases
    refine ⟨q, d, pos, ⟨?_, h.due, hlog.symm ▸ h.sound.mono hobj.toSameObjects
      fun _ => List.Subset.refl _⟩, ⟨(congrArg Sched.run hcases :), (congrArg Sched.newTsk hcases :),
      (congrArg Sched.idle hcases :), (congrArg Sched.prio hcases :), hcases ▸ ⟨rfl, rfl, rfl⟩,
      hobj.live, hobj.mbxState, hobj.pending, hobj.psq, hobj.osRunning, fun _ => List.Subset.refl _,
      fun _ => Or.inl, fun u hu => ?_, fun u hu => ?_⟩, hobj.toSameRequests⟩
    · rw [hcases]
      exact h.placed
    · rwa [hstate]
    · rwa [hstate]

/-! ### Semaphores -/

/-- The accounts after the first waiting task has obtained the token that a semaphore is given. -/
theorem Sound.grant {s : ι} {t : τ} (h : k.Sound q es) :
    k.Sound q (es ++ [.taken t s] ++ [.released s]) := by
  refine ⟨h.dead, h.asked, ⟨h.sems.empty, fun s' => ?_⟩,
    (h.muts.note (x := .taken t s) nofun).note (x := .released s) nofun,
    (h.boxes.note (x := .taken t s) nofun).note (x := .released s) nofun⟩
  obtain ⟨lost, hlost⟩ := h.sems.count s'
  refine ⟨lost, ?_⟩
  simp only [taken_concat, supplied_concat, Effect.resets, Effect.supply, Effect.take,
    Bool.false_eq_true, if_false]
  omega

/-- The accounts after a token has been stored. -/
theorem Sound.store {s : ι} (h : k.Sound q es) (hq : q (some (.sem s)) = []) :
    (k.semStore s).Sound q (es ++ [.released s]) := by
  have hmuts := h.muts.note (x := .released s) nofun
  have hboxes := h.boxes.note (x := .released s) nofun
  refine ⟨h.dead, h.asked, ⟨fun s' hs' => ?_, fun s' => ?_⟩, ⟨hmuts.held, hmuts.owned, hmuts.nesting⟩,
    ⟨hboxes.fits, hboxes.unused, hboxes.blocked, hboxes.fifo⟩⟩
  · show Function.update k.tokens s _ s' = 0
    rw [Function.update_of_ne (by rintro rfl; exact hs' hq)]
    exact h.sems.empty s' hs'
  · obtain ⟨lost, hlost⟩ := h.sems.count s'
    show ∃ lost, Function.update k.tokens s (addU16 (k.tokens s) 1) s' +
      taken s' (es ++ [.released s]) + 0x10000 * lost = supplied s' (es ++ [.released s])
    simp only [taken_concat, supplied_concat, Effect.resets, Effect.supply, Effect.take,
      Bool.false_eq_true, if_false]
    by_cases hs : s' = s
    · subst hs
      rw [Function.update_self, if_pos rfl, addU16]
      have hdiv := Nat.mod_add_div (k.tokens s' + 1) 0x10000
      exact ⟨lost + (k.tokens s' + 1) / 0x10000, by omega⟩
    · rw [Function.update_of_ne hs, if_neg (Ne.symm hs)]
      exact ⟨lost, by omega⟩

/-- **A released token goes to the first task that waits**, or is stored. -/
theorem AtWork.rtSemPsh [Fintype τ] (h : k.AtWork q d pos [] (effects k.log)) (s : ι) :
    Safe (k.Pushed q d [.released s]) (k.rtSemPsh s) := by
  rw [Kernel.rtSemPsh]
  by_cases hwaited : k.waited (.sem s) = true
  · have hne := (waited_iff h.placed).1 hwaited
    obtain ⟨t, xs, hq⟩ := List.exists_cons_of_ne_nil hne
    obtain ⟨s₁, l, q', pos', hs₁, hs₂, hst, -, hxs, hothers, hplaced⟩ :=
      k.toSched.wakeWaiter h.placed hq
    have hlists := lists_of_waiter hq hxs hothers
    have hasked : k.Asks t (.sem s) := h.sound.asked _ t (hq ▸ List.mem_cons_self)
    rw [if_pos hwaited]
    simp only [semGrant, takeWaiter, hs₁, ok_bind]
    obtain ⟨hwork, hwakes⟩ := h.woken
      { ({ k with toSched := s₁ } : Kernel τ ι M).rtRetVal t (.tokens 1) with
        toSched := { k.toSched.setState t .ready with links := l, delays := k.delays.rtRmvDly t } }
      rfl hplaced (by rw [hst]; nofun) hlists rfl rfl rfl rfl rfl
      (h.sound.grant.mono ⟨rfl, rfl, rfl, rfl, rfl, rfl, rfl, rfl⟩ hlists)
    refine safe_of_eq (congrArg (sched _) hs₂) ⟨q', _, pos', ?_, hwakes,
      ((neutral_switch k s₁).toSameRequests.ret t _).trans ⟨rfl, rfl, rfl, rfl⟩⟩
    exact (effects_grant (k := { k with toSched := s₁ }) hasked).symm ▸ hwork
  · have hnil : q (some (.sem s)) = [] := by
      by_contra hne
      exact hwaited ((waited_iff h.placed).2 hne)
    rw [if_neg hwaited]
    have hwakes := Wakes.refl k q d
    exact ⟨q, d, pos, ⟨h.placed, h.due, h.sound.store hnil⟩, { hwakes with }, rfl, rfl, rfl, rfl⟩

/-! ### Mailboxes -/

/-- The accounts after a message has been passed to a task that waits for one. -/
theorem Sound.pass {b : ι} {t : τ} {x : M} (h : k.Sound q es) (hcount : (k.mbx b).count = 0) :
    k.Sound q (es ++ [.received t b x] ++ [.sent b x]) := by
  refine ⟨h.dead, h.asked, (h.sems.note (x := .received t b x) nofun).note (x := .sent b x) nofun,
    (h.muts.note (x := .received t b x) nofun).note (x := .sent b x) nofun,
    h.boxes.fits, h.boxes.unused, h.boxes.blocked, fun b' => ?_⟩
  have hfifo := h.boxes.fifo b'
  simp only [received_concat, sent_concat, Effect.enter, Effect.leave, Option.toList_none,
    List.append_nil]
  by_cases hb : b = b'
  · subst hb
    rw [Ring.contents_eq_nil hcount, List.append_nil] at hfifo
    rw [Ring.contents_eq_nil hcount, List.append_nil, hfifo]
  · simpa [if_neg hb] using hfifo

/-- The accounts after a message has entered a mailbox with room for it. -/
theorem Sound.enter {b : ι} {x : M} (h : k.Sound q es) (hlive : k.live (.mbx b) = true)
    (hroom : (k.mbx b).count < (k.mbx b).size) (hq : q (some (.mbx b)) = []) :
    (k.setMbx b ((k.mbx b).put x).inc).Sound q (es ++ [.sent b x]) := by
  have hsems := h.sems.note (x := .sent b x) nofun
  have hmuts := h.muts.note (x := .sent b x) nofun
  have hfits := h.boxes.fits b hlive
  refine ⟨h.dead, h.asked, ⟨hsems.empty, hsems.count⟩, ⟨hmuts.held, hmuts.owned, hmuts.nesting⟩,
    h.boxes.change (fun _ _ => rfl) (fun _ _ => rfl) rfl (fun b' hb' => ⟨received_of_ne ?_,
    sent_of_ne ?_⟩) (fun _ _ => List.Subset.refl _) hlive (hfits.put hroom x)
    (fun hne => absurd hq hne) ?_⟩
  · exact fun heq => hb' (Obj.mbx.inj heq).symm
  · exact fun heq => hb' (Obj.mbx.inj heq).symm
  · simp [Effect.enter, Effect.leave, Ring.contents_put hfits hroom, ← h.boxes.fifo b]

/-- **A posted message goes to the first task that waits for one**, or enters the mailbox; if there
is no room, the kernel stops. -/
theorem AtWork.rtMbxPsh [Fintype τ] (h : k.AtWork q d pos [] (effects k.log)) {b : ι} (x : M)
    (hlive : k.live (.mbx b) = true) (hstate : q (some (.mbx b)) ≠ [] → k.mbxState b = 1) :
    Safe (k.Pushed q d [.sent b x]) (k.rtMbxPsh b x) := by
  rw [Kernel.rtMbxPsh]
  by_cases hwaited : k.waited (.mbx b) = true
  · have hne := (waited_iff h.placed).1 hwaited
    have hone := hstate hne
    have hcount : (k.mbx b).count = 0 := by
      obtain ⟨-, hcount⟩ | ⟨htwo, -⟩ := h.sound.boxes.blocked b hne
      · exact hcount
      · rw [hone] at htwo
        cases htwo
    obtain ⟨t, xs, hq⟩ := List.exists_cons_of_ne_nil hne
    obtain ⟨s₁, l, q', pos', hs₁, hs₂, hst, -, hxs, hothers, hplaced⟩ :=
      k.toSched.wakeWaiter h.placed hq
    have hlists := lists_of_waiter hq hxs hothers
    have hasked : k.Asks t (.mbx b) := h.sound.asked _ t (hq ▸ List.mem_cons_self)
    simp only [if_pos hwaited, hone, mbxPass, takeWaiter, hs₁, ok_bind]
    obtain ⟨hwork, hwakes⟩ := h.woken
      { ({ k with toSched := s₁ } : Kernel τ ι M).rtRetVal t (.osEventMessage x) with
        toSched := { k.toSched.setState t .ready with links := l, delays := k.delays.rtRmvDly t } }
      rfl hplaced (by rw [hst]; nofun) hlists rfl rfl rfl rfl rfl
      ((h.sound.pass hcount).mono ⟨rfl, rfl, rfl, rfl, rfl, rfl, rfl, rfl⟩ hlists)
    refine safe_of_eq (congrArg (sched _) hs₂) ⟨q', _, pos', ?_, hwakes,
      ((neutral_switch k s₁).toSameRequests.ret t _).trans ⟨rfl, rfl, rfl, rfl⟩⟩
    exact (effects_pass (k := { k with toSched := s₁ }) hasked hone).symm ▸ hwork
  · have hnil : q (some (.mbx b)) = [] := by
      by_contra hne
      exact hwaited ((waited_iff h.placed).2 hne)
    simp only [if_neg hwaited]
    split
    · rename_i hroom
      have hwakes := Wakes.refl k q d
      exact ⟨q, d, pos, ⟨h.placed, h.due, h.sound.enter hlive hroom hnil⟩, { hwakes with }, rfl, rfl,
        rfl, rfl⟩
    · trivial

/-! ### The queue -/

/-- The requests of the queue can be served: the mailboxes exist, and no task waits to send. -/
def Servable (k : Kernel τ ι M) (q : Option (Obj ι) → List τ) (r : Request τ ι M) : Prop :=
  match r with
  | .mcb b _ => k.live (.mbx b) = true ∧ (q (some (.mbx b)) ≠ [] → k.mbxState b = 1)
  | _ => True

omit [DecidableEq τ] [DecidableEq ι] in
theorem Servable.wakes {r : Request τ ι M} (h : k.Servable q r) (hk : k.Wakes k' q q' d d') :
    k'.Servable q' r := by
  cases r with
  | mcb b x =>
    rw [Servable, hk.live, hk.mbxState]
    exact ⟨h.1, fun hne => h.2 fun hnil => hne (List.subset_nil.1 (hnil ▸ hk.lists _))⟩
  | tcb _ _ => trivial
  | scb _ => trivial

/-- **A request is served**, and the history says so. -/
theorem AtWork.serve [Fintype τ] (h : k.AtWork q d pos [] (effects k.log)) {r : Request τ ι M}
    (hr : k.Servable q r) : Safe (k.Served q d r) (k.serve r) := by
  have hpush : Safe (k.Pushed q d (Note.served r).effect.toList) (k.push r) := by
    cases r with
    | tcb t flags => exact h.rtEvtPsh flags t
    | mcb b x => exact h.rtMbxPsh x hr.1 hr.2
    | scb s => exact h.rtSemPsh s
  refine hpush.bind fun k₁ hk₁ => ?_
  obtain ⟨q₁, d₁, pos₁, h₁, hwakes, hrequests⟩ := hk₁
  refine ⟨q₁, d₁, pos₁, ⟨h₁.placed, h₁.due, ?_⟩, { hwakes with }, ?_, ?_⟩
  · exact effects_concat.symm ▸ h₁.sound.mono ⟨rfl, rfl, rfl, rfl, rfl, rfl, rfl, rfl⟩
      fun _ => List.Subset.refl _
  · exact posted_concat.trans ((List.append_nil _).trans hrequests.posted)
  · exact served_concat.trans (congrArg (· ++ [r]) hrequests.served)

/-- The requests have been served, all of them and in their order. -/
def Emptied (k : Kernel τ ι M) (q : Option (Obj ι) → List τ) (d : List (τ × ℕ))
    (k' : Kernel τ ι M) : Prop :=
  ∃ q' d' pos', k'.AtWork q' d' pos' [] (effects k'.log) ∧
    ({ k with psq := k'.psq }).Wakes k' q q' d d' ∧ k'.psq.Fits ∧ k'.psq.count = 0 ∧
    posted k'.log = posted k.log ∧ served k'.log = served k.log ++ k.psq.contents

/-- **All requests are served.** -/
theorem AtWork.rtPopReqLoop [Fintype τ] {fuel : ℕ} (h : k.AtWork q d pos [] (effects k.log))
    (hfits : k.psq.Fits) (hr : ∀ r ∈ k.psq.contents, k.Servable q r) (hfuel : k.psq.count < fuel) :
    Safe (k.Emptied q d) (k.rtPopReqLoop fuel) := by
  induction fuel generalizing k q d pos with
  | zero => cases hfuel
  | succ fuel ih =>
    rw [Kernel.rtPopReqLoop]
    by_cases hcount : k.psq.count = 0
    · rw [if_neg (not_not.2 hcount)]
      refine ⟨q, d, pos, h, Wakes.refl k q d, hfits, hcount, rfl, ?_⟩
      rw [Ring.contents_eq_nil hcount, List.append_nil]
    · rw [if_pos hcount]
      have hpos : 0 < k.psq.count := Nat.pos_of_ne_zero hcount
      have hcontents := Ring.contents_take hfits hpos
      rw [hcontents] at hr
      refine (h.serve (hr _ List.mem_cons_self)).bind fun k₁ hk₁ => ?_
      obtain ⟨q₁, d₁, pos₁, h₁, hwakes, hposted, hserved⟩ := hk₁
      have hpsq : k₁.psq.take.dec = k.psq.take.dec := by rw [hwakes.psq]
      have hnext : ({ k₁ with psq := k₁.psq.take.dec } : Kernel τ ι M).AtWork q₁ d₁ pos₁ []
          (effects k₁.log) :=
        ⟨h₁.placed, h₁.due, h₁.sound.mono (sameObjects_requests ..) fun _ => List.Subset.refl _⟩
      have hserve := ih hnext (hpsq ▸ hfits.take hpos) (fun r hmem => ?_) (?_)
      · refine hserve.mono fun k₂ hk₂ => ?_
        obtain ⟨q₂, d₂, pos₂, h₂, hwakes₂, hfits₂, hcount₂, hposted₂, hserved₂⟩ := hk₂
        refine ⟨q₂, d₂, pos₂, h₂, ?_, hfits₂, hcount₂, hposted₂.trans hposted, ?_⟩
        · have hwakes₁ : ({ k with psq := k₂.psq } : Kernel τ ι M).Wakes { k₁ with psq := k₂.psq } q q₁
              d d₁ := { hwakes with psq := rfl }
          exact hwakes₁.trans hwakes₂
        · have hrest : served k₂.log = served k₁.log ++ k.psq.take.dec.contents := hpsq ▸ hserved₂
          rw [hrest, hserved, hcontents, List.append_assoc, List.singleton_append]
      · have hmem' : r ∈ k.psq.take.dec.contents := hpsq ▸ hmem
        have hserv : k₁.Servable q₁ r := (hr r (List.mem_cons_of_mem _ hmem')).wakes hwakes
        exact hserv
      · show k₁.psq.take.dec.count < fuel
        rw [hpsq]
        show k.psq.count - 1 < fuel
        omega

end Kernel

end Rtx

end UavTelemetry
