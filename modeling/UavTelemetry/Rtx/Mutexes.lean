import UavTelemetry.Rtx.Calls

/-!
# Calls that change priorities or wake all tasks

The mutex functions, which lend the priority of a waiting task to the owner and take it back, and the
functions that delete a semaphore or a mutex, which wake all tasks that wait for it.

## Main results

* `Kernel.Good.rtMutWait`, `Kernel.Good.rtMutRelease`, `Kernel.Good.rtMutDelete`,
  `Kernel.Good.rtSemDelete` : the calls.
* `Kernel.AtWork.drain` : all tasks that wait for an object are woken.
-/

namespace UavTelemetry

namespace Rtx

variable {τ ι M : Type} [DecidableEq τ] [DecidableEq ι]

namespace Kernel

variable {k k' : Kernel τ ι M} {q q' : Option (Obj ι) → List τ} {d d' : List (τ × ℕ)}
  {pos : τ → Option (Option (Obj ι))} {o : Obj ι} {s m : ι} {t : τ} {n : ℕ} {X xs : List τ}
  {es : List (Effect τ ι M)}

/-! ### The accounts -/

/-- The effect is about no other mutex. -/
theorem locks_others (es : List (Effect τ ι M)) {x : Effect τ ι M} (hx : x.obj = .mut m) (u : τ)
    {m' : ι} (hne : m' ≠ m) :
    locks u m' (es ++ [x]) = locks u m' es ∧ unlocks u m' (es ++ [x]) = unlocks u m' es := by
  have hobj : x.obj ≠ .mut m' := by
    rw [hx]
    exact fun heq => hne (Obj.mut.inj heq).symm
  exact ⟨locks_of_ne hobj, unlocks_of_ne hobj⟩

/-- The accounts after a free mutex has been locked. -/
theorem Sound.lockFree (h : k.Sound q es) (hlive : k.live (.mut m) = true) (hm : k.level m = 0)
    (t : τ) :
    ({ k with
      owner := Function.update k.owner m (some t)
      mutPrio := Function.update k.mutPrio m (k.prio t)
      level := Function.update k.level m (addU16 (k.level m) 1) } : Kernel τ ι M).Sound q
      (es ++ [.locked t m]) := by
  have hsems := h.sems.note (x := .locked t m) nofun
  have hboxes := h.boxes.note (x := .locked t m) nofun
  refine ⟨h.dead, h.asked, ⟨hsems.empty, hsems.count⟩, h.muts.change (fun _ _ => rfl) rfl rfl
    (fun u _ hne => locks_others es rfl u hne) (fun _ _ => List.Subset.refl _) hlive
    (fun _ => by rw [hm]; decide) (fun _ => ⟨t, rfl⟩) fun u => ?_,
    ⟨hboxes.fits, hboxes.unused, hboxes.blocked, hboxes.fifo⟩⟩
  have hnest := h.muts.nesting u m
  rw [holds_of_live hlive, hm, ite_self, Nat.add_zero] at hnest
  rw [locks_concat, unlocks_concat, hnest, hm]
  by_cases hut : t = u
  · simp [Effect.resets, Effect.lock, Effect.unlock, hut, addU16]
  · simp [Effect.resets, Effect.lock, Effect.unlock, hut]

/-- The accounts after the owner of a mutex has locked it again. -/
theorem Sound.lockAgain (h : k.Sound q es) (hlive : k.live (.mut m) = true)
    (howner : k.owner m = some t) (hlevel : k.level m < 0xFFFF) :
    ({ k with level := Function.update k.level m (addU16 (k.level m) 1) } : Kernel τ ι M).Sound q
      (es ++ [.locked t m]) := by
  have hsems := h.sems.note (x := .locked t m) nofun
  have hboxes := h.boxes.note (x := .locked t m) nofun
  have hadd : addU16 (k.level m) 1 = k.level m + 1 := addU16_of_le (by omega)
  refine ⟨h.dead, h.asked, ⟨hsems.empty, hsems.count⟩, h.muts.change (w := k.owner m) (fun _ _ => rfl)
    rfl (Function.update_eq_self m k.owner).symm (fun u _ hne => locks_others es rfl u hne)
    (fun _ _ => List.Subset.refl _) hlive (fun _ => by omega) (fun _ => ⟨t, howner⟩) fun u => ?_,
    ⟨hboxes.fits, hboxes.unused, hboxes.blocked, hboxes.fifo⟩⟩
  have hnest := h.muts.nesting u m
  rw [holds_of_live hlive] at hnest
  rw [locks_concat, unlocks_concat, hnest, howner, hadd]
  by_cases hut : t = u
  · simp [Effect.resets, Effect.lock, Effect.unlock, hut]
    omega
  · simp [Effect.resets, Effect.lock, Effect.unlock, hut]

/-- The accounts after the owner of a mutex has unlocked it; no task waits for it if it is free. -/
theorem Sound.unlock (h : k.Sound q es) (hlive : k.live (.mut m) = true) (hm : k.level m ≠ 0)
    (howner : k.owner m = some t) (hq : q (some (.mut m)) ≠ [] → k.level m - 1 ≠ 0) :
    ({ k with level := Function.update k.level m (k.level m - 1) } : Kernel τ ι M).Sound q
      (es ++ [.unlocked t m]) := by
  have hsems := h.sems.note (x := .unlocked t m) nofun
  have hboxes := h.boxes.note (x := .unlocked t m) nofun
  refine ⟨h.dead, h.asked, ⟨hsems.empty, hsems.count⟩, h.muts.change (w := k.owner m) (fun _ _ => rfl)
    rfl (Function.update_eq_self m k.owner).symm (fun u _ hne => locks_others es rfl u hne)
    (fun _ _ => List.Subset.refl _) hlive hq (fun _ => ⟨t, howner⟩) fun u => ?_,
    ⟨hboxes.fits, hboxes.unused, hboxes.blocked, hboxes.fifo⟩⟩
  have hnest := h.muts.nesting u m
  rw [holds_of_live hlive] at hnest
  rw [locks_concat, unlocks_concat, hnest, howner]
  by_cases hut : t = u
  · simp [Effect.resets, Effect.lock, Effect.unlock, hut]
    omega
  · simp [Effect.resets, Effect.lock, Effect.unlock, hut]

/-- The accounts after a mutex has been passed to the first task that waits. -/
theorem Sound.passMut {u : τ} (h : k.Sound q es) (hlive : k.live (.mut m) = true)
    (hm : k.level m = 1) (howner : k.owner m = some t) :
    ({ k with
      level := Function.update k.level m 1
      owner := Function.update k.owner m (some u) } : Kernel τ ι M).Sound q
      (es ++ [.locked u m] ++ [.unlocked t m]) := by
  have hsems := (h.sems.note (x := .locked u m) nofun).note (x := .unlocked t m) nofun
  have hboxes := (h.boxes.note (x := .locked u m) nofun).note (x := .unlocked t m) nofun
  refine ⟨h.dead, h.asked, ⟨hsems.empty, hsems.count⟩, h.muts.change (fun _ _ => rfl) rfl rfl
    (fun v m' hne => ?_) (fun _ _ => List.Subset.refl _) hlive (fun _ => one_ne_zero)
    (fun _ => ⟨u, rfl⟩) fun v => ?_, ⟨hboxes.fits, hboxes.unused, hboxes.blocked, hboxes.fifo⟩⟩
  · have hlocked := locks_others es (x := .locked u m) rfl v hne
    have hunlocked := locks_others (es ++ [.locked u m]) (x := .unlocked t m) rfl v hne
    exact ⟨hunlocked.1.trans hlocked.1, hunlocked.2.trans hlocked.2⟩
  · have hnest := h.muts.nesting v m
    rw [holds_of_live hlive] at hnest
    rw [locks_concat, unlocks_concat, locks_concat, unlocks_concat, hnest, howner, hm]
    simp only [Effect.resets, Effect.lock, Effect.unlock, Bool.false_eq_true, if_false, and_true,
      Option.some.injEq]
    omega

/-- The accounts after a mutex has been created. -/
theorem Sound.createMut (h : k.Sound q es) (hm : k.live (.mut m) = false) :
    (k.rtMutInit m).Sound q (es ++ [.created (.mut m) 0]) := by
  have hnil := h.dead _ hm
  have hsems := h.sems.note (x := .created (.mut m) 0) (fun _ => nofun)
  have hboxes := h.boxes.note (x := .created (.mut m) 0) (fun _ => nofun)
  have hlive : ∀ o, o ≠ .mut m → (k.rtMutInit m).live o = k.live o := fun o ho =>
    Function.update_of_ne ho ..
  refine ⟨fun o ho => ?_, h.asked, ⟨hsems.empty, hsems.count⟩, h.muts.change
    (fun m' hne => hlive _ fun heq => hne (Obj.mut.inj heq)) rfl rfl
    (fun u _ hne => locks_others es rfl u hne) (fun _ _ => List.Subset.refl _) (Function.update_self ..)
    (fun hne => absurd hnil hne) (fun hne => absurd rfl hne) fun u => ?_,
    hboxes.congr (fun b => hlive _ nofun) rfl rfl fun _ => List.Subset.refl _⟩
  · by_cases heq : o = .mut m
    · rw [heq, hnil]
    · rw [hlive o heq] at ho
      exact h.dead o ho
  · simp [Effect.resets, Effect.lock, Effect.unlock]

/-- The accounts after a semaphore has been deleted. -/
theorem Sound.deleteSem (h : k.Sound q es) (hnil : q (some (.sem s)) = []) :
    ({ k with live := Function.update k.live (.sem s) false } : Kernel τ ι M).Sound q es := by
  have hlive : ∀ o : Obj ι, o ≠ .sem s → Function.update k.live (.sem s) false o = k.live o :=
    fun o ho => Function.update_of_ne ho ..
  refine ⟨fun o ho => ?_, h.asked, ⟨h.sems.empty, h.sems.count⟩,
    h.muts.congr (fun m => hlive (.mut m) nofun) rfl rfl fun _ => List.Subset.refl _,
    h.boxes.congr (fun b => hlive (.mbx b) nofun) rfl rfl fun _ => List.Subset.refl _⟩
  by_cases heq : o = .sem s
  · rw [heq, hnil]
  · exact h.dead o ((hlive o heq).symm.trans ho)

/-- The accounts after a mutex has been deleted, and the tasks that waited for it have returned. -/
theorem Sound.deleteMut {xs : List (Effect τ ι M)} (h : k.Sound q es)
    (hnil : q (some (.mut m)) = []) (hxs : ∀ x ∈ xs, x.obj = .mut m) :
    ({ k with live := Function.update k.live (.mut m) false } : Kernel τ ι M).Sound q
      (es ++ xs ++ [.deleted m]) := by
  have hlive : ∀ o : Obj ι, o ≠ .mut m → Function.update k.live (.mut m) false o = k.live o :=
    fun o ho => Function.update_of_ne ho ..
  have hsem : ∀ s : ι, (Obj.sem s : Obj ι) ≠ .mut m := fun s => by simp
  have hmbx : ∀ b : ι, (Obj.mbx b : Obj ι) ≠ .mut m := fun b => by simp
  have hobj : ∀ o : Obj ι, o ≠ .mut m → ∀ x ∈ xs ++ [.deleted m], x.obj ≠ o := by
    intro o ho x hx heq
    rw [List.mem_append, List.mem_singleton] at hx
    obtain hx | rfl := hx
    · exact ho (heq.symm.trans (hxs x hx))
    · exact ho heq.symm
  rw [List.append_assoc]
  refine ⟨fun o ho => ?_, h.asked, ⟨h.sems.empty, fun s => ?_⟩, ⟨h.muts.held, h.muts.owned,
    fun t m' => ?_⟩, ⟨fun b hb => ?_, fun b hb => ?_, h.boxes.blocked, fun b => ?_⟩⟩
  · by_cases heq : o = .mut m
    · rw [heq, hnil]
    · exact h.dead o ((hlive o heq).symm.trans ho)
  · rw [append_of_ne (fun _ _ => taken_of_ne) (hobj _ (hsem s)),
      append_of_ne (fun _ _ => supplied_of_ne) (hobj _ (hsem s))]
    exact h.sems.count s
  · by_cases heq : m' = m
    · subst heq
      rw [← List.append_assoc, locks_concat, unlocks_concat]
      simp [Effect.resets, Effect.lock, Effect.unlock, holds]
    · have hne : (Obj.mut m' : Obj ι) ≠ .mut m := fun h => heq (Obj.mut.inj h)
      rw [append_of_ne (fun _ _ => locks_of_ne) (hobj _ hne),
        append_of_ne (fun _ _ => unlocks_of_ne) (hobj _ hne)]
      simp only [holds, hlive _ hne]
      exact h.muts.nesting t m'
  · exact h.boxes.fits b ((hlive _ (hmbx b)).symm.trans hb)
  · exact h.boxes.unused b ((hlive _ (hmbx b)).symm.trans hb)
  · rw [append_of_ne (fun _ _ => received_of_ne) (hobj _ (hmbx b)),
      append_of_ne (fun _ _ => sent_of_ne) (hobj _ (hmbx b))]
    exact h.boxes.fifo b

/-! ### All waiting tasks are woken -/

/-- **The loop of `rt_sem_delete` and `rt_mut_delete`** wakes all tasks that wait for the object; what
they return has the effects `P`. -/
theorem AtWork.drain [Fintype τ] {fuel : ℕ} {P : Effect τ ι M → Prop} (h : k.AtWork q d pos X es)
    (v : Ret M) (hv : ∀ t, k.Asks t o → ∀ x ∈ (Note.returned t (k.pending t) v).effect, P x)
    (hxs : q (some o) = xs) (hfuel : xs.length < fuel) :
    Safe (fun k' => ∃ q' d' pos' ls, k'.AtWork q' d' pos' X es ∧ k.Wakes k' q q' d d' ∧
      k.SameRequests k' ∧ effects k'.log = effects k.log ++ ls ∧ (∀ x ∈ ls, P x) ∧
      (∀ u ∈ X, k'.state u = k.state u) ∧ q' (some o) = []) (drain o v fuel k) := by
  induction xs generalizing k q d pos fuel with
  | nil =>
    obtain ⟨fuel, rfl⟩ := Nat.exists_eq_succ_of_ne_zero (Nat.ne_zero_of_lt hfuel)
    have hwaited : ¬ k.waited o = true := fun hw => (waited_iff h.placed).1 hw hxs
    rw [Kernel.drain, if_neg hwaited]
    exact ⟨q, d, pos, [], h, Wakes.refl k q d, ⟨rfl, rfl, rfl, rfl⟩, (List.append_nil _).symm,
      List.forall_mem_nil _, fun _ _ => rfl, hxs⟩
  | cons t xs ih =>
    obtain ⟨fuel, rfl⟩ := Nat.exists_eq_succ_of_ne_zero (Nat.ne_zero_of_lt hfuel)
    have hwaited : k.waited o = true :=
      (waited_iff h.placed).2 (hxs ▸ List.cons_ne_nil t xs)
    have hasked : k.Asks t o := h.sound.asked o t (hxs ▸ List.mem_cons_self)
    obtain ⟨s₁, l, q₁, pos₁, hs₁, hs₂, hst, htX, hxs₁, hothers, hplaced⟩ :=
      k.toSched.wakeWaiter h.placed hxs
    have hlists := lists_of_waiter hxs hxs₁ hothers
    have hmake : (({ k with toSched := s₁ } : Kernel τ ι M).rtRetVal t v).toSched.makeReady t = _ :=
      hs₂
    simp only [Kernel.drain, if_pos hwaited, takeWaiter, hs₁, ok_bind, hmake, sched]
    set k₁ : Kernel τ ι M := { ({ k with toSched := s₁ } : Kernel τ ι M).rtRetVal t v with
      toSched := { k.toSched.setState t .ready with links := l, delays := k.delays.rtRmvDly t } }
    have hne : k.state t ≠ .waitDly := hst ▸ o.waitState_ne_waitDly
    obtain ⟨h₁, hwakes₁⟩ := h.woken k₁ rfl hplaced hne hlists rfl rfl rfl rfl rfl
      (h.sound.mono ⟨rfl, rfl, rfl, rfl, rfl, rfl, rfl, rfl⟩ hlists)
    have hrequests₁ : k.SameRequests k₁ :=
      ((neutral_switch k s₁).toSameRequests.ret t v).trans ⟨rfl, rfl, rfl, rfl⟩
    have heffects₁ : effects k₁.log =
        effects k.log ++ (Note.returned t (k.pending t) v).effect.toList :=
      effects_rtRetVal (k := { k with toSched := s₁ }) rfl
    have hv₁ : ∀ u, k₁.Asks u o → ∀ x ∈ (Note.returned u (k₁.pending u) v).effect, P x := by
      intro u hu
      refine hv u ?_
      cases o <;> exact hu
    refine (ih h₁ hv₁ hxs₁ (Nat.lt_of_succ_lt_succ hfuel)).mono fun k₂ hk₂ => ?_
    obtain ⟨q₂, d₂, pos₂, ls, h₂, hwakes₂, hrequests₂, heffects₂, hls, hX, hnil⟩ := hk₂
    refine ⟨q₂, d₂, pos₂, _, h₂, hwakes₁.trans hwakes₂, hrequests₁.trans hrequests₂,
      (heffects₂.trans (congrArg (· ++ ls) heffects₁)).trans (List.append_assoc ..),
      List.forall_mem_append.2 ⟨fun x hx => hv t hasked x (Option.mem_toList.1 hx), hls⟩,
      fun u hu => (hX u hu).trans ?_, hnil⟩
    exact Function.update_of_ne (ne_of_mem_of_not_mem hu htX) ..

/-- The calls that first wake tasks and then let the running task give way. -/
theorem kept_of_wakes_turn {k₁ : Kernel τ ι M} {q₁ : Option (Obj ι) → List τ} {d₁ : List (τ × ℕ)}
    {s' : Sched τ ι} {T : List τ} (h : k.Sound q es) (hawake : Awake (k.state k.newTsk))
    (hw : k.Wakes k₁ q q₁ d d₁) (hturn : k₁.toSched.Turn s' T) (hT : ∀ u ∈ T, k₁.state u ≠ .waitDly)
    (hlists : ∀ o, q' (some o) ⊆ q₁ (some o)) (hk : k'.toSched = s') (hrequests : k.SameRequests k')
    (hrunning : k'.osRunning = k₁.osRunning) (hlive : ∀ b, k'.live (.mbx b) = k₁.live (.mbx b))
    (hstate : k'.mbxState = k₁.mbxState) : k.Kept n k' q' d d₁ := by
  subst hk
  refine ⟨hturn.run.trans hw.run, hturn.idle.trans hw.idle, hw.slice.trans hturn.slice,
    hrequests, fun hr => (hrunning.trans hw.osRunning).trans hr, fun b hb => ?_,
    fun b hb hroom hne => ?_, fun e he => ?_, fun u hu => ?_, Or.inl ?_⟩
  · rw [hlive, hw.live]
    exact hb
  · rw [hstate, hw.mbxState]
    refine h.room hroom fun hnil => hne (List.subset_nil.1 ?_)
    exact hnil ▸ List.Subset.trans (hlists _) (hw.lists _)
  · exact (hw.timed e he).imp_right (awake_of_turn hturn)
  · exact delay_of_turn hturn hT u (hw.delay u hu)
  · exact awake_of_turn hturn (hw.awake _ hawake)

/-- A task that may be chosen does not wait. -/
theorem AtWork.ne_waitDly {u : τ} (h : k.AtWork q d pos [k.newTsk] es)
    (hrunning : k.state k.newTsk = .running) (hu : pos u = some none ∨ u = k.newTsk) :
    k.state u ≠ .waitDly := by
  by_cases hne : u = k.newTsk
  · rw [hne, hrunning]
    nofun
  · have hfits := h.placed.fits u (by simpa using hne)
    rw [hu.resolve_right hne] at hfits
    rw [hfits.ready.1]
    nofun

/-- What the deletion of an object achieves: the tasks that have waited for it have returned, with
effects `P`.  The accounts of the object are still open. -/
def Deleted (k : Kernel τ ι M) (n : ℕ) (d : List (τ × ℕ)) (o : Obj ι) (P : Effect τ ι M → Prop)
    (es : List (Effect τ ι M)) (k' : Kernel τ ι M) : Prop :=
  ∃ q' d' pos' ls, k'.toSched.Valid q' d' pos' ∧
    ({ k' with live := k.live } : Kernel τ ι M).Sound q' es ∧ q' (some o) = [] ∧
    effects k'.log = effects k.log ++ ls ∧ (∀ x ∈ ls, P x) ∧ k.Kept n k' q' d d' ∧
    k'.live = Function.update k.live o false ∧ k'.pending = k.pending

/-- The end of `rt_sem_delete` and `rt_mut_delete`. -/
theorem AtWork.delete [Fintype τ] {P : Effect τ ι M → Prop} (h : k.AtWork q d pos [k.newTsk] es)
    (hrun : k.run = k.newTsk) (hrunning : k.state k.newTsk = .running) (v : Ret M)
    (hv : ∀ t, k.Asks t o → ∀ x ∈ (Note.returned t (k.pending t) v).effect, P x)
    (ho : ∀ b, o ≠ .mbx b) :
    Safe (k.Deleted n d o P es) (do
      let k ← Kernel.drain o v (Fintype.card τ + 1) k
      let k ← k.sched k.toSched.giveWayIfAny
      return { k with live := Function.update k.live o false }) := by
  refine (h.drain v hv rfl (h.placed.links.length_lt (some o))).bind fun k₁ hk₁ => ?_
  obtain ⟨q₁, d₁, pos₁, ls, h₁, hwakes, hrequests, heffects, hls, hX, hnil⟩ := hk₁
  have hrunning₁ : k₁.state k₁.newTsk = .running := by
    rw [hwakes.newTsk, hX _ (List.mem_singleton_self _), hrunning]
  rw [← hwakes.newTsk] at h₁
  obtain ⟨T, s', q', pos', hs', hturn, hT, -, hq', hvalid⟩ := Sched.giveWayIfAny_eq h₁.placed hrunning₁
    (by rw [hwakes.run, hrun, hwakes.newTsk]) h₁.due
  have hlists : ∀ o, q' (some o) ⊆ q₁ (some o) := fun o => hq' o ▸ List.Subset.refl _
  have hlive : ∀ o', o' ≠ o → Function.update k₁.live o false o' = k₁.live o' := fun o' hne =>
    Function.update_of_ne hne ..
  rw [hs']
  refine ⟨q', d₁, pos', ls, hvalid, h₁.sound.mono ⟨hwakes.live.symm, rfl, rfl, rfl, rfl, rfl, rfl, rfl⟩
    hlists, (hq' o).trans hnil, heffects, hls, kept_of_wakes_turn h.sound (Or.inr hrunning) hwakes hturn
    (fun u hu => h₁.ne_waitDly hrunning₁ (hT u hu)) hlists rfl
    (hrequests.trans ⟨rfl, rfl, rfl, rfl⟩) rfl (fun b => hlive _ (ho b).symm) rfl,
    congrArg (Function.update · o false) hwakes.live, hwakes.pending⟩

namespace Good

theorem atWork (h : k.Good q d pos) : k.AtWork q d pos [k.newTsk] (effects k.log) :=
  ⟨h.valid.placed, h.valid.due, h.sound⟩

/-- **`rt_sem_delete` wakes the tasks that wait for the semaphore**, without a token. -/
theorem rtSemDelete [Fintype τ] (h : k.Good q d pos) (hrun : k.run = k.newTsk) (s : ι) :
    Safe (k.Done n d) (k.rtSemDelete s) := by
  have hv : ∀ t, k.Asks t (.sem s) →
      ∀ x ∈ (Note.returned t (k.pending t) (.tokens 0)).effect, False := by
    intro t _ x hx
    rw [Note.effect_tokens_zero] at hx
    cases hx
  refine (h.atWork.delete (n := n) hrun h.valid.running (.tokens 0) hv fun _ => nofun).mono
    fun k' hk' => ?_
  obtain ⟨q', d', pos', ls, hvalid, hsound, hnil, heffects, hls, hkept, hlive, -⟩ := hk'
  obtain rfl : ls = [] := List.eq_nil_iff_forall_not_mem.2 hls
  rw [List.append_nil] at heffects
  exact ⟨q', d', pos', ⟨hvalid, heffects.symm ▸ (hsound.deleteSem hnil).mono
    ⟨hlive, rfl, rfl, rfl, rfl, rfl, rfl, rfl⟩ fun _ => List.Subset.refl _⟩, hkept⟩

end Good

/-! ### Mutexes -/

/-- **The priority of the owner is set**, and the lists stay sorted. -/
theorem AtWork.setOwnerPrio [Fintype τ] (h : k.AtWork q d pos [k.newTsk] es)
    (howner : k.owner m = some t) (p : ℕ) (resort : τ → Bool) (hresort : resort t = true ↔ t ≠ k.newTsk) :
    ∃ l q', k.setOwnerPrio m p resort = .ok { k with toSched := { k.toSched with
        links := l, prio := Function.update k.prio t p } } ∧
      (∀ h', (q' h').Perm (q h')) ∧
      Placed l k.delays (Function.update k.prio t p) k.state k.idle q' d pos [k.newTsk] := by
  rw [Kernel.setOwnerPrio, howner]
  by_cases ht : t = k.newTsk
  · have hfalse : ¬ resort t = true := fun htrue => hresort.1 htrue ht
    have hpos : pos t = none := (h.placed.out t (ht ▸ List.mem_singleton_self _)).1
    simp only [if_neg hfalse]
    exact ⟨k.links, q, rfl, fun _ => List.Perm.refl _, h.placed.setPrio hpos p⟩
  · obtain ⟨l, q', hl, hperm, hplaced⟩ := h.placed.resort (by simpa using ht) p
    refine ⟨l, q', ?_, hperm, hplaced⟩
    simp only [if_pos (hresort.2 ht), Sched.rtResortPrio, hl]
    rfl

namespace Good

/-- **`rt_mut_delete` restores the priority of the owner and wakes the tasks that wait for the
mutex.** -/
theorem rtMutDelete [Fintype τ] (h : k.Good q d pos) (hrun : k.run = k.newTsk) (m : ι)
    (hcall : k.pending k.run = .mutexDelete m) :
    Safe (fun k' => k.Done n d (k'.rtRetVal k.run .osOK)) (k.rtMutDelete m) := by
  have hdone : ∀ k', k.Deleted n d (.mut m) (·.obj = .mut m) (effects k.log) k' →
      k.Done n d (k'.rtRetVal k.run .osOK) := by
    rintro k' ⟨q', d', pos', ls, hvalid, hsound, hnil, heffects, hls, hkept, hlive, hpending⟩
    refine ⟨q', d', pos', ⟨hvalid, Sound.ret (hpending ▸ hcall) ?_⟩,
      { hkept with requests := hkept.requests.ret _ _ }⟩
    rw [heffects]
    exact (hsound.deleteMut hnil hls).mono ⟨hlive, rfl, rfl, rfl, rfl, rfl, rfl, rfl⟩
      fun _ => List.Subset.refl _
  have hv : ∀ t, k.Asks t (.mut m) →
      ∀ x ∈ (Note.returned t (k.pending t) .osOK).effect, x.obj = .mut m := by
    rintro t ⟨millisec, hpending⟩ x hx
    rw [hpending] at hx
    cases hx
    rfl
  rw [Kernel.rtMutDelete, restoreOwner]
  by_cases hm : k.level m = 0
  · rw [if_neg (not_not.2 hm)]
    exact (h.atWork.delete hrun h.valid.running .osOK hv fun _ => nofun).mono hdone
  · obtain ⟨t, howner⟩ := h.sound.muts.owned m hm
    obtain ⟨l, q', hset, hperm, hplaced⟩ := h.atWork.setOwnerPrio howner (k.mutPrio m)
      (fun t => t ≠ k.run) (by simp [hrun])
    rw [if_pos hm, hset]
    have hwork : ({ k with toSched := { k.toSched with
        links := l, prio := Function.update k.prio t (k.mutPrio m) } } : Kernel τ ι M).AtWork q' d pos
        [k.newTsk] (effects k.log) :=
      ⟨hplaced, h.valid.due, h.sound.mono (neutral_switch k _).toSameObjects
        fun o => (hperm _).subset⟩
    refine (hwork.delete (n := n) (o := .mut m) hrun h.valid.running .osOK hv fun _ => nofun).mono
      fun k' hk' => hdone k' ?_
    obtain ⟨q'', d', pos', ls, hvalid, hsound, hnil, heffects, hls, hkept, hlive, hpending⟩ := hk'
    exact ⟨q'', d', pos', ls, hvalid, hsound, hnil, heffects, hls, { hkept with
      slice := ⟨hkept.slice.time, hkept.slice.robinTask, hkept.slice.robinTime⟩
      requests := hkept.requests.since ⟨rfl, rfl, rfl, rfl⟩ }, hlive, hpending⟩

/-- **`rt_mut_wait` locks the mutex, or blocks the running task and raises the priority of the
owner.** -/
theorem rtMutWait [Fintype τ] (h : k.Good q d pos) (hrun : k.run = k.newTsk) (hi : k.run ≠ k.idle)
    (hlive : k.live (.mut m) = true) (hlevel : k.level m < 0xFFFF) {millisec : ℕ}
    (hcall : k.pending k.run = .mutexWait m millisec) (timeout : ℕ) :
    Safe (fun r => k.Done timeout d (if r.1 then r.2.rtRetVal k.run .osOK else r.2))
      (k.rtMutWait m timeout) := by
  have hroom : ∀ b, k.live (.mbx b) = true → (k.mbx b).count < (k.mbx b).size →
      q (some (.mbx b)) ≠ [] → k.mbxState b = 1 := fun b _ hroom hne => h.sound.room hroom hne
  have hlocked : ∀ k' : Kernel τ ι M, k'.toSched = k.toSched → k.SameRequests k' →
      k'.osRunning = k.osRunning → k'.live = k.live → k'.mbxState = k.mbxState →
      k'.Sound q (effects k'.log ++ [.locked k.run m]) →
      k.Done timeout d (k'.rtRetVal k.run .osOK) := by
    intro k' hsched hrequests hrunning hlive' hstate hsound
    have hcall' : k'.pending k.run = .mutexWait m millisec :=
      (congrFun hrequests.pending _).trans hcall
    exact h.stay hsched (Sound.ret hcall' hsound) (hrequests.ret _ _) hrunning
      (fun b hb => (congrFun hlive' _).trans hb)
      fun b hb hroom' hne => (congrFun hstate b).trans (hroom b hb hroom' hne)
  have hasks : k.Asks k.run (.mut m) := ⟨millisec, hcall⟩
  rw [Kernel.rtMutWait]
  by_cases hm : k.level m = 0
  · simp only [if_pos hm]
    exact hlocked _ rfl ⟨rfl, rfl, rfl, rfl⟩ rfl rfl rfl (h.sound.lockFree hlive hm k.run)
  simp only [if_neg hm]
  by_cases howner : k.owner m = some k.run
  · simp only [if_pos howner]
    exact hlocked _ rfl ⟨rfl, rfl, rfl, rfl⟩ rfl rfl rfl (h.sound.lockAgain hlive howner hlevel)
  simp only [if_neg howner]
  by_cases ht : timeout = 0
  · rw [if_pos ht]
    exact h.same rfl (neutral_switch k k.toSched)
  rw [if_neg ht, raiseOwner]
  by_cases hprio : k.mutPrio m < k.prio k.run
  · obtain ⟨t, ht'⟩ := h.sound.muts.owned m hm
    have hne : t ≠ k.newTsk := by
      rintro rfl
      exact howner (hrun ▸ ht')
    obtain ⟨l, q', hset, hperm, hplaced⟩ := h.atWork.setOwnerPrio ht' (k.prio k.run) (fun _ => true)
      (by simpa using hne)
    rw [if_pos hprio, hset, ok_bind]
    have hgood : ({ k with toSched := { k.toSched with
        links := l, prio := Function.update k.prio t (k.prio k.run) } } : Kernel τ ι M).Good q' d
        pos := by
      refine ⟨⟨hplaced, h.valid.running, fun u hu => ?_, h.valid.due⟩,
        h.sound.mono (neutral_switch k _).toSameObjects fun o => (hperm _).subset⟩
      show Function.update k.prio t _ u ≤ Function.update k.prio t _ k.newTsk
      rw [Function.update_of_ne hne.symm]
      by_cases hut : u = t
      · rw [hut, Function.update_self, hrun]
      · rw [Function.update_of_ne hut]
        exact h.valid.top u hu
    refine (hgood.waitFor hrun hi hlive hm hasks ht fun b hb => by cases hb).bind fun k' hk' => ?_
    obtain ⟨q'', d', pos', hgood', hkept⟩ := hk'
    exact ⟨q'', d', pos', hgood', { hkept with
      slice := ⟨hkept.slice.time, hkept.slice.robinTask, hkept.slice.robinTime⟩
      requests := hkept.requests.since ⟨rfl, rfl, rfl, rfl⟩ }⟩
  · rw [if_neg hprio]
    exact (h.waitFor hrun hi hlive hm hasks ht fun b hb => by cases hb).bind fun k' hk' => hk'

/-- The priority of the running task changes. -/
theorem setRunPrio (h : k.Good q d pos) (hrun : k.run = k.newTsk) (p : ℕ) :
    Placed k.links k.delays (Function.update k.prio k.run p) k.state k.idle q d pos [k.newTsk] :=
  h.valid.placed.setPrio (hrun ▸ h.valid.pos_run) p

/-- A released mutex for which no task waits. -/
theorem mutFree [Fintype τ] (h : k.Good q d pos) (hrun : k.run = k.newTsk) (hi : k.run ≠ k.idle)
    (k₁ : Kernel τ ι M) {p : ℕ}
    (hk₁ : k₁.toSched = { k.toSched with prio := Function.update k.prio k.run p })
    (hcall : k₁.pending k.run = .mutexRelease m)
    (hsound : k₁.Sound q (effects k₁.log ++ [.unlocked k.run m])) (hrequests : k.SameRequests k₁)
    (hrunning : k₁.osRunning = k.osRunning) (hlive : k₁.live = k.live)
    (hstate : k₁.mbxState = k.mbxState) :
    Safe (fun k' => k.Done n d (k'.rtRetVal k.run .osOK)) k₁.mutFree := by
  have hplaced := h.setRunPrio hrun p
  obtain ⟨f, -, hrdy, htop⟩ := Sched.rtRdyPrio_eq
    (s := { k.toSched with prio := Function.update k.prio k.run p }) hplaced
    (h.valid.ready_ne_nil (hrun ▸ hi))
  obtain ⟨T, s', q', pos', hs', hturn, hT, -, hq', hvalid⟩ := Sched.giveWay_eq
    (s := { k.toSched with prio := Function.update k.prio k.run p }) hplaced h.valid.running hrun
    h.valid.due htop
  have hlists : ∀ o, q' (some o) ⊆ q (some o) := fun o => hq' o ▸ List.Subset.refl _
  have hturn' : k.toSched.Turn s' T := ⟨hturn.run, hturn.time, hturn.robinTask, hturn.robinTime,
    hturn.idle, hturn.others, hturn.awake⟩
  have hrequests' : k.SameRequests { k₁ with toSched := s' } := hrequests.trans ⟨rfl, rfl, rfl, rfl⟩
  have hsound' : ({ k₁ with toSched := s' } : Kernel τ ι M).Sound q'
      (effects k₁.log ++ [.unlocked k.run m]) :=
    hsound.mono (neutral_switch k₁ s').toSameObjects hlists
  rw [Kernel.mutFree, hk₁, hrdy, ok_bind, hs']
  exact ⟨q', d, pos', ⟨hvalid, Sound.ret (k := { k₁ with toSched := s' }) hcall hsound'⟩,
    kept_of_turn h hturn' rfl (fun u hu => h.ne_waitDly (hT u hu)) (fun _ => Or.inl)
    (hrequests'.ret _ _) hrunning (fun _ => congrFun hlive _) hstate hlists⟩

/-- A released mutex for which tasks wait. -/
theorem mutPass [Fintype τ] (h : k.Good q d pos) (hrun : k.run = k.newTsk) (hi : k.run ≠ k.idle)
    (k₁ : Kernel τ ι M) {p : ℕ} (hq : q (some (.mut m)) = t :: xs)
    (hk₁ : k₁.toSched = { k.toSched with prio := Function.update k.prio k.run p })
    (hcall : k₁.pending k.run = .mutexRelease m) (hasked : k₁.Asks t (.mut m))
    (hsound : ({ k₁ with
      level := Function.update k₁.level m 1
      owner := Function.update k₁.owner m (some t) } : Kernel τ ι M).Sound q
      (effects k₁.log ++ [.locked t m] ++ [.unlocked k.run m]))
    (hrequests : k.SameRequests k₁) (hrunning : k₁.osRunning = k.osRunning)
    (hlive : k₁.live = k.live) (hstate : k₁.mbxState = k.mbxState) :
    Safe (fun k' => k.Done n d (k'.rtRetVal k.run .osOK)) (k₁.mutPass m) := by
  obtain ⟨l, htake, ht, hst, hplaced⟩ := Sched.takeWaiter_eq
    (s := { k.toSched with prio := Function.update k.prio k.run p }) (h.setRunPrio hrun p) hq
  have hne : t ≠ k.newTsk := by simpa using ht
  have hready : Function.update q (some (.mut m)) xs none ≠ [] := by
    rw [Function.update_of_ne (Option.some_ne_none (Obj.mut m)).symm]
    exact h.valid.ready_ne_nil (hrun ▸ hi)
  obtain ⟨T, s', q', pos', hs', hturn, hT, htT, -, hq', hvalid⟩ := Sched.handOver_eq
    (s := { k.toSched with
      prio := Function.update k.prio k.run p, links := l, delays := k.delays.rtRmvDly t })
    hplaced h.valid.running hrun hne (Sched.Valid.due_filter h.valid.due) hready
  have hlists : ∀ o, q' (some o) ⊆ q (some o) := by
    intro o
    rw [hq' o]
    by_cases ho : o = .mut m
    · rw [ho, Function.update_self, hq]
      exact List.subset_cons_self ..
    · rw [Function.update_of_ne fun heq => ho (Option.some.inj heq)]
      exact List.Subset.refl _
  have hturn' : k.toSched.Turn s' T := ⟨hturn.run, hturn.time, hturn.robinTask, hturn.robinTime,
    hturn.idle, hturn.others, hturn.awake⟩
  rw [Kernel.mutPass, takeWaiter, hk₁, htake, ok_bind]
  set s₁ : Sched τ ι := { k.toSched with
    prio := Function.update k.prio k.run p, links := l, delays := k.delays.rtRmvDly t }
  set k₂ : Kernel τ ι M := { ({ k₁ with toSched := s₁ } : Kernel τ ι M).rtRetVal t .osOK with
    level := Function.update k₁.level m 1
    owner := Function.update k₁.owner m (some t)
    mutPrio := Function.update k₁.mutPrio m (s₁.prio t)
    toSched := s' }
  have heffects : effects k₂.log = effects k₁.log ++ [.locked t m] :=
    effects_handOver (k := { k₁ with toSched := s₁ }) hasked
  have hsound₂ : k₂.Sound q' (effects k₂.log ++ [.unlocked k.run m]) :=
    heffects.symm ▸ hsound.mono ⟨rfl, rfl, rfl, rfl, rfl, rfl, rfl, rfl⟩ hlists
  have hrequests₂ : k.SameRequests k₂ := ((hrequests.trans
    (neutral_switch k₁ s₁).toSameRequests).ret t .osOK).trans ⟨rfl, rfl, rfl, rfl⟩
  refine safe_of_eq (congrArg (sched _) hs') ⟨q', d.filter fun e => e.1 ≠ t, pos', ⟨hvalid,
    Sound.ret (k := k₂) hcall hsound₂⟩, kept_of_turn h hturn' rfl (fun u hu => ?_) (fun e he => ?_)
    (hrequests₂.ret _ _) hrunning (fun _ => congrFun hlive _) hstate hlists⟩
  · obtain hu | rfl | hu := hT u hu
    · by_cases hut : u = t
      · rw [hut, Function.update_self] at hu
        cases hu
      · rw [Function.update_of_ne hut] at hu
        exact h.ne_waitDly (Or.inl hu)
    · exact (show k.state u = _ from hst) ▸ Obj.waitState_ne_waitDly _
    · exact h.ne_waitDly (Or.inr hu)
  · by_cases het : e.1 = t
    · exact Or.inr (het ▸ htT)
    · exact Or.inl (List.mem_filter.2 ⟨he, by simpa using het⟩)

/-- **`rt_mut_release` unlocks the mutex and hands it over to the first task that waits.** -/
theorem rtMutRelease [Fintype τ] (h : k.Good q d pos) (hrun : k.run = k.newTsk)
    (hi : k.run ≠ k.idle) (hlive : k.live (.mut m) = true)
    (hcall : k.pending k.run = .mutexRelease m) :
    Safe (fun r => k.Done n d (if r.1 then r.2.rtRetVal k.run .osOK else r.2))
      (k.rtMutRelease m) := by
  rw [Kernel.rtMutRelease]
  by_cases hnot : k.level m = 0 ∨ k.owner m ≠ some k.run
  · rw [if_pos hnot]
    exact h.same rfl (neutral_switch k k.toSched)
  rw [if_neg hnot]
  rw [not_or, not_not] at hnot
  obtain ⟨hm, howner⟩ := hnot
  set k₁ : Kernel τ ι M := { k with level := Function.update k.level m (k.level m - 1) } with hk₁
  have hlevel : k₁.level m = k.level m - 1 := Function.update_self ..
  by_cases hlast : k.level m - 1 = 0
  · simp only [hlevel, hlast, ne_eq, not_true, if_false]
    set k₂ : Kernel τ ι M := { k₁ with prio := Function.update k₁.prio k₁.run (k₁.mutPrio m) } with hk₂
    by_cases hwaited : k₂.waited (.mut m) = true
    · obtain ⟨t, xs, hq⟩ := h.exists_waiter hwaited
      have hone : k.level m = 1 := by omega
      have hpass : ({ k₂ with
          level := Function.update k₂.level m 1
          owner := Function.update k₂.owner m (some t) } : Kernel τ ι M).Sound q
          (effects k₂.log ++ [.locked t m] ++ [.unlocked k.run m]) :=
        (h.sound.passMut hlive hone howner (u := t)).mono
          ⟨rfl, rfl, Function.update_idem .., rfl, rfl, rfl, rfl, rfl⟩ fun _ => List.Subset.refl _
      have hasked : k.Asks t (.mut m) := h.sound.asked _ t (hq ▸ List.mem_cons_self)
      rw [if_pos hwaited]
      exact (h.mutPass hrun hi k₂ hq rfl hcall hasked hpass ⟨rfl, rfl, rfl, rfl⟩ rfl rfl rfl).bind
        fun k' hk' => hk'
    · have hfree : k₂.Sound q (effects k₂.log ++ [.unlocked k.run m]) :=
        (h.sound.unlock hlive hm howner fun hne => absurd (h.eq_nil hwaited) hne).mono
          ⟨rfl, rfl, rfl, rfl, rfl, rfl, rfl, rfl⟩ fun _ => List.Subset.refl _
      rw [if_neg hwaited]
      exact (h.mutFree hrun hi k₂ rfl hcall hfree ⟨rfl, rfl, rfl, rfl⟩ rfl rfl rfl).bind
        fun k' hk' => hk'
  · simp only [hlevel, ne_eq, hlast, not_false_iff, if_true]
    have hrequests : k.SameRequests k₁ := ⟨rfl, rfl, rfl, rfl⟩
    exact h.stay rfl (Sound.ret (k := k₁) hcall (h.sound.unlock hlive hm howner fun _ => hlast))
      (hrequests.ret _ _) rfl (fun _ hb => hb) fun b _ hroom hne => h.sound.room hroom hne

end Good

end Kernel

end Rtx

end UavTelemetry
