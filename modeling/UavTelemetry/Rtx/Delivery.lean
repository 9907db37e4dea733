import UavTelemetry.Rtx.EventLoop

/-!
# Delivery of event flags

A task whose wait ends as soon as any of its flags is set receives every flag once: a flag that
has been set is either still set in the task control block or granted to the task by a wait that
is over.  This file follows one flag through the steps of a task, and from there through the body
of its loop to the statement that acknowledges it.

## Main definitions

* `Thread.WaitsAny` : a blocked task waits for any of its flags, and none of them is set.
* `Thread.notified` : how often a flag is set or granted.
* `Duty` : a flag of a loop, and the statement that acknowledges it.
* `Duty.owed` : the acknowledgements that a task still owes.

## Main results

* `Thread.WaitsAny.call`, `Thread.WaitsAny.resume`, ... : the steps of a task lose no flag.
* `Duty.Kept.call`, `Duty.Kept.exec`, ... : what the steps of a task do to what it owes.
-/

namespace UavTelemetry

namespace Rtx

/-! ### The event functions in a wait for any flag -/

theorem svcSignalWaitAny_cases (t : OsTcb) (signals : BitVec 32) (ms : ℕ) :
    (t.events &&& signals.setWidth 16 ≠ 0 ∧ svcSignalWaitAny t signals ms =
        { t with
          waits := t.events &&& signals.setWidth 16
          events := t.events &&& ~~~(signals.setWidth 16)
          ret := ⟨.osEventSignal, (t.events &&& signals.setWidth 16).setWidth 32⟩ }) ∨
      (t.events &&& signals.setWidth 16 = 0 ∧ ∃ ret, ret.status ≠ .osEventSignal ∧
        svcSignalWaitAny t signals ms =
          { rtBlock { t with waits := signals.setWidth 16 } (rtMs2tick ms) .waitOr with
            ret := ret }) := by
  by_cases h : t.events &&& signals.setWidth 16 = 0
  · refine Or.inr ⟨h, waitResult false 0 ms (signals.setWidth 16), ?_, ?_⟩
    · by_cases hms : ms = 0 <;> simp [waitResult, hms]
    · simp only [svcSignalWaitAny, rtEvtWait, h, ne_eq, not_true_eq_false, if_false,
        Bool.false_eq_true, waitResult]
  · refine Or.inl ⟨h, ?_⟩
    simp only [svcSignalWaitAny, rtEvtWait, ne_eq, h, not_false_eq_true, if_true, if_false,
      Bool.false_eq_true, waitResult, not_true_eq_false]

theorem rtEvtSet_waitOr_cases {t : OsTcb} (hs : t.state = .waitOr) (f : Flags) :
    ((t.events ||| f) &&& t.waits ≠ 0 ∧ rtEvtSet t f =
        { t with
          events := (t.events ||| f) &&& ~~~t.waits
          waits := t.waits &&& (t.events ||| f)
          delayed := false
          state := .ready
          ret := ⟨.osEventSignal, (t.waits &&& (t.events ||| f)).setWidth 32⟩ }) ∨
      ((t.events ||| f) &&& t.waits = 0 ∧ rtEvtSet t f = { t with events := t.events ||| f }) := by
  have hand : ¬ (t.state = .waitAnd ∧ (t.events ||| f) &&& t.waits = t.waits) := by simp [hs]
  by_cases h : (t.events ||| f) &&& t.waits = 0
  · refine Or.inr ⟨h, ?_⟩
    have hor : ¬ (t.state = .waitOr ∧ (t.events ||| f) &&& t.waits ≠ 0) := fun hor => hor.2 h
    simp only [rtEvtSet, if_neg hand, if_neg hor]
  · refine Or.inl ⟨h, ?_⟩
    have hor : t.state = .waitOr ∧ (t.events ||| f) &&& t.waits ≠ 0 := ⟨hs, h⟩
    simp only [rtEvtSet, if_neg hand, if_pos hor, OsTcb.wake]

theorem rtEvtSet_of_not_blocked {t : OsTcb} (h : ¬ t.Blocked) (f : Flags) :
    rtEvtSet t f = { t with events := t.events ||| f } := by
  simp only [OsTcb.Blocked, not_or] at h
  simp [rtEvtSet, h.1, h.2]

theorem getLsbD_eq_false_of_and_eq_zero {a b : Flags} {k : ℕ} (h : a &&& b = 0)
    (hk : b.getLsbD k = true) : a.getLsbD k = false := by
  have hbit := congrArg (fun x : Flags => x.getLsbD k) h
  simpa [hk] using hbit

/-- The wait returned with the flag `k`. -/
def OsEvent.got (oe : OsEvent) (k : ℕ) : Bool :=
  decide (oe.status = .osEventSignal) && oe.signals.getLsbD k

theorem OsEvent.got_of_status_ne {oe : OsEvent} (h : oe.status ≠ .osEventSignal) (k : ℕ) :
    oe.got k = false := by
  simp [got, h]

/-- The test of a single flag in the body of a loop. -/
theorem OsEvent.signalled_bit (oe : OsEvent) {k : ℕ} (hk : k < 16) :
    oe.signalled ((1 : Flags) <<< k) = oe.got k := by
  have hflag : ((1 : Flags) <<< k).setWidth 32 = BitVec.twoPow 32 k := by
    refine BitVec.eq_of_getLsbD_eq fun i hi => ?_
    change (BitVec.setWidth 32 (BitVec.twoPow 16 k)).getLsbD i = _
    rw [BitVec.getLsbD_setWidth, BitVec.getLsbD_twoPow, BitVec.getLsbD_twoPow]
    have hk' : k < 32 := by omega
    simp [hi, hk, hk']
  have hne : BitVec.twoPow 32 k ≠ 0#32 := by
    intro h
    have hbit := congrArg (fun x : BitVec 32 => x.getLsbD k) h
    have hk' : k < 32 := by omega
    simp [hk'] at hbit
  -- the mask is the power of two of `k`, and testing it is reading the bit
  rw [signalled, got, hflag, BitVec.and_twoPow]
  cases oe.signals.getLsbD k <;> simp [hne]

namespace Thread

variable {Stmt : Type}

/-- The flag `k` is set. -/
def pending (t : Thread Stmt) (k : ℕ) : Bool := t.tcb.events.getLsbD k

/-- A wait that is over, but has not returned yet, grants the flag `k`. -/
def granted (t : Thread Stmt) (k : ℕ) : Bool :=
  match t.pc with
  | .wait => !decide t.tcb.Blocked && t.tcb.ret.got k
  | _ => false

/-- How often the flag `k` is set or granted. -/
def notified (t : Thread Stmt) (k : ℕ) : ℕ := (t.pending k).toNat + (t.granted k).toNat

/-- The statements that are left of the body of the loop. -/
def todo (t : Thread Stmt) : List Stmt :=
  match t.pc with
  | .body sts => sts
  | _ => []

/-- The waits of the task end as soon as any flag of `mask` is set. -/
structure WaitsAny (t : Thread Stmt) (mask : Flags) : Prop where
  /-- A blocked task is in its wait. -/
  pc : t.tcb.Blocked → t.pc = .wait
  /-- It waits for any flag. -/
  state : t.tcb.Blocked → t.tcb.state = .waitOr
  /-- It waits for the flags of `mask`. -/
  waits : t.tcb.Blocked → t.tcb.waits = mask
  /-- None of them is set. -/
  events : t.tcb.Blocked → t.tcb.events &&& mask = 0
  /-- Unless it is woken, its wait does not return a signal. -/
  ret : t.tcb.Blocked → t.tcb.ret.status ≠ .osEventSignal
  /-- Only blocked tasks are in the delay list. -/
  delayed : t.tcb.delayed = true → t.tcb.Blocked

variable {t t' : Thread Stmt} {mask : Flags} {k : ℕ}

theorem pc_of_todo {st : Stmt} {sts : List Stmt} (h : t.todo = st :: sts) :
    t.pc = .body (st :: sts) := by
  unfold todo at h
  cases hpc : t.pc with
  | body _ =>
    rw [hpc] at h
    rw [← h]
  | _ =>
    rw [hpc] at h
    cases h

theorem waitsAny_of_not_blocked (h : ¬ t.tcb.Blocked) (hd : t.tcb.delayed = false) :
    t.WaitsAny mask :=
  ⟨fun hb => absurd hb h, fun hb => absurd hb h, fun hb => absurd hb h, fun hb => absurd hb h,
    fun hb => absurd hb h, fun hd' => by simp [hd] at hd'⟩

theorem waitsAny_init : (init : Thread Stmt).WaitsAny mask :=
  waitsAny_of_not_blocked (by simp [init, OsTcb.init, OsTcb.Blocked]) rfl

theorem notified_of_pc_ne (hpc : t.pc ≠ .wait) : t.notified k = (t.pending k).toNat := by
  have hgranted : t.granted k = false := by
    unfold granted
    split
    · contradiction
    · rfl
  simp [notified, hgranted]

theorem notified_eq_zero_iff :
    t.notified k = 0 ↔ t.pending k = false ∧ t.granted k = false := by
  unfold notified
  cases t.pending k <;> cases t.granted k <;> simp

namespace WaitsAny

theorem not_delayed (h : t.WaitsAny mask) (hb : ¬ t.tcb.Blocked) : t.tcb.delayed = false := by
  cases hd : t.tcb.delayed with
  | false => rfl
  | true => exact absurd (h.delayed hd) hb

theorem not_blocked (h : t.WaitsAny mask) (hpc : t.pc ≠ .wait) : ¬ t.tcb.Blocked :=
  fun hb => hpc (h.pc hb)

/-- A blocked task has not been notified. -/
theorem notified_eq_zero (h : t.WaitsAny mask) (hb : t.tcb.Blocked)
    (hk : mask.getLsbD k = true) : t.notified k = 0 := by
  refine notified_eq_zero_iff.2 ⟨getLsbD_eq_false_of_and_eq_zero (h.events hb) hk, ?_⟩
  simp [granted, h.pc hb, hb]

/-- **The call of `signal_wait`** turns the flags that are set into a grant, and blocks the task
if there are none. -/
theorem call (h : t.WaitsAny mask) (hpc : t.pc = .head) {signals : BitVec 32}
    (hsignals : signals.setWidth 16 = mask) (ms : ℕ) :
    WaitsAny (⟨svcSignalWaitAny t.tcb signals ms, .wait⟩ : Thread Stmt) mask ∧
      ∀ k, mask.getLsbD k = true →
        notified (⟨svcSignalWaitAny t.tcb signals ms, .wait⟩ : Thread Stmt) k = t.notified k := by
  have hne : t.pc ≠ .wait := by simp [hpc]
  have hrun : ¬ t.tcb.Blocked := h.not_blocked hne
  rcases svcSignalWaitAny_cases t.tcb signals ms with ⟨-, heq⟩ | ⟨hnone, ret, hret, heq⟩
  -- some flags are set: they are cleared and granted
  · rw [heq, hsignals]
    refine ⟨waitsAny_of_not_blocked hrun (h.not_delayed hrun), fun k hk => ?_⟩
    have hlt : k < 16 := BitVec.lt_of_getLsbD hk
    have hlt' : k < 32 := by omega
    rw [notified_of_pc_ne hne]
    unfold OsTcb.Blocked at hrun
    have hk' : mask[k] = true := hk
    simp [notified, pending, granted, OsEvent.got, OsTcb.Blocked, hrun, hk', hlt, hlt']
  -- no flag is set: the call returns no signal unless it is woken
  · rw [heq, hsignals]
    rw [hsignals] at hnone
    by_cases htick : rtMs2tick ms = 0
    -- without a delay the task does not block
    · simp only [rtBlock, htick, ne_eq, not_true_eq_false, if_false]
      refine ⟨waitsAny_of_not_blocked hrun (h.not_delayed hrun), fun k hk => ?_⟩
      rw [notified_of_pc_ne hne]
      simp [notified, pending, granted, OsEvent.got_of_status_ne hret]
    · simp only [rtBlock, ne_eq, htick, not_false_eq_true, if_true]
      refine ⟨⟨fun _ => rfl, fun _ => rfl, fun _ => rfl, fun _ => hnone, fun _ => hret,
        fun _ => Or.inr rfl⟩, fun k _ => ?_⟩
      rw [notified_of_pc_ne hne]
      simp [notified, pending, granted, OsEvent.got_of_status_ne hret]

/-- **The return from `signal_wait`** hands over what was granted. -/
theorem resume (h : t.WaitsAny mask) {body : OsEvent → List Stmt}
    (hres : t.resume body = some t') :
    t'.WaitsAny mask ∧ ∃ oe, t'.pc = .body (body oe) ∧
      ∀ k, t.notified k = t'.notified k + (oe.got k).toNat := by
  unfold Thread.resume at hres
  split at hres
  case h_2 => cases hres
  case h_1 hpc =>
    split_ifs at hres with hb
    cases hres
    refine ⟨waitsAny_of_not_blocked (by simp [OsTcb.Blocked]) (h.not_delayed hb),
      t.tcb.ret, rfl, fun k => ?_⟩
    have hafter : notified (⟨{ t.tcb with state := .running }, .body (body t.tcb.ret)⟩ : Thread Stmt)
        k = (t.pending k).toNat := notified_of_pc_ne (by simp)
    rw [hafter, notified, granted, hpc]
    simp [hb]

/-- A statement does not touch the flags that it does not clear. -/
theorem exec (h : t.WaitsAny mask) (hpc : t.pc ≠ .wait) {pc : Pc Stmt} (hpc' : pc ≠ .wait)
    (clr : Flags) :
    WaitsAny ⟨rtEvtClr t.tcb clr, pc⟩ mask ∧
      ∀ k, (clr.getLsbD k = true → t.pending k = false) →
        notified ⟨rtEvtClr t.tcb clr, pc⟩ k = t.notified k := by
  have hrun : ¬ t.tcb.Blocked := h.not_blocked hpc
  refine ⟨waitsAny_of_not_blocked hrun (h.not_delayed hrun), fun k hk => ?_⟩
  rw [notified_of_pc_ne hpc, notified_of_pc_ne hpc']
  unfold pending at hk ⊢
  have hbit : (rtEvtClr t.tcb clr).events.getLsbD k =
      (t.tcb.events.getLsbD k && (decide (k < 16) && !clr.getLsbD k)) := by
    rw [rtEvtClr, BitVec.getLsbD_and, BitVec.getLsbD_not]
  rw [hbit]
  -- beyond the sixteen flags there is nothing to clear
  by_cases hlt : k < 16
  · cases hclr : clr.getLsbD k with
    | false => simp only [hlt, decide_true, Bool.not_false, Bool.and_true]
    | true => simp only [hk hclr, Bool.false_and]
  · rw [BitVec.getLsbD_of_ge _ _ (Nat.le_of_not_lt hlt), Bool.false_and]

/-- **Setting a flag** that the task waits for notifies it once. -/
theorem signalSet (h : t.WaitsAny mask) (f : Flags) :
    (t.signalSet f).WaitsAny mask ∧ (t.signalSet f).pc = t.pc ∧
      ∀ k, mask.getLsbD k = true → (f.getLsbD k = false ∨ t.notified k = 0) →
        (t.signalSet f).notified k = t.notified k + (f.getLsbD k).toNat := by
  by_cases hb : t.tcb.Blocked
  · have hwaits := h.waits hb
    rcases rtEvtSet_waitOr_cases (h.state hb) f with ⟨-, heq⟩ | ⟨hnone, heq⟩
    -- the flag ends the wait
    · have hzero : ∀ k, mask.getLsbD k = true → t.tcb.events.getLsbD k = false :=
        fun k hk => getLsbD_eq_false_of_and_eq_zero (h.events hb) hk
      refine ⟨?_, rfl, fun k hk _ => ?_⟩
      · rw [Thread.signalSet, heq]
        exact waitsAny_of_not_blocked (by simp [OsTcb.Blocked]) rfl
      · have hlt : k < 16 := BitVec.lt_of_getLsbD hk
        have hlt' : k < 32 := by omega
        rw [h.notified_eq_zero hb hk, Thread.signalSet, heq, hwaits]
        have hmask : mask[k] = true := hk
        have hevents : t.tcb.events[k] = false := hzero k hk
        simp [notified, pending, granted, h.pc hb, OsTcb.Blocked, OsEvent.got, hmask, hevents, hlt,
          hlt']
    -- none of the flags set is waited for, and the task stays blocked
    · rw [hwaits] at hnone
      have hset : t.signalSet f = { t with tcb := { t.tcb with events := t.tcb.events ||| f } } := by
        rw [Thread.signalSet, heq]
      have hb' : (t.signalSet f).tcb.Blocked := by
        rw [hset]
        exact hb
      have hany : (t.signalSet f).WaitsAny mask := by
        rw [hset]
        exact ⟨fun _ => h.pc hb, fun _ => h.state hb, fun _ => hwaits, fun _ => hnone,
          fun _ => h.ret hb, fun _ => hb⟩
      refine ⟨hany, rfl, fun k hk _ => ?_⟩
      have hf : f.getLsbD k = false := by
        have hbit := getLsbD_eq_false_of_and_eq_zero hnone hk
        rw [BitVec.getLsbD_or, Bool.or_eq_false_iff] at hbit
        exact hbit.2
      rw [h.notified_eq_zero hb hk, hany.notified_eq_zero hb' hk, hf]
      rfl
  -- the task is not blocked: the flag stays set until the next wait
  · have hset : t.signalSet f = { t with tcb := { t.tcb with events := t.tcb.events ||| f } } := by
      rw [Thread.signalSet, rtEvtSet_of_not_blocked hb]
    refine ⟨?_, rfl, fun k _ hk => ?_⟩
    · rw [hset]
      exact waitsAny_of_not_blocked hb (h.not_delayed hb)
    · rw [hset]
      have hgranted : ∀ e : Flags,
          granted ({ t with tcb := { t.tcb with events := e } } : Thread Stmt) k = t.granted k :=
        fun _ => rfl
      unfold notified
      rw [hgranted]
      rcases hk with hk | hk
      · simp [pending, hk]
      · obtain ⟨hpending, hgranted⟩ := notified_eq_zero_iff.1 hk
        unfold pending at hpending
        simp [pending, hpending, hgranted]

/-- **The end of a delay** notifies a task of nothing. -/
theorem expire (h : t.WaitsAny mask) (hexp : t.expire = some t') :
    t'.WaitsAny mask ∧ t'.pc = t.pc ∧
      ∀ k, mask.getLsbD k = true → t'.notified k = t.notified k := by
  unfold Thread.expire at hexp
  split_ifs at hexp with hd
  cases hexp
  have hb := h.delayed hd
  refine ⟨waitsAny_of_not_blocked (by simp [rtDecDly, OsTcb.Blocked]) rfl, rfl, fun k hk => ?_⟩
  rw [h.notified_eq_zero hb hk, notified_eq_zero_iff]
  refine ⟨getLsbD_eq_false_of_and_eq_zero (h.events hb) hk, ?_⟩
  simp [granted, rtDecDly, h.pc hb, OsEvent.got_of_status_ne (h.ret hb)]

end WaitsAny

end Thread

/-! ### Acknowledging a flag -/

namespace EventLoop

variable {Stmt : Type}

/-- Whenever a statement clears the flag `k`, the statement `ack` comes after it. -/
def Guards (L : EventLoop Stmt) (k : ℕ) (ack : Stmt) : List Stmt → Prop
  | [] => True
  | st :: sts => ((L.clr st).getLsbD k = true → ack ∈ sts) ∧ L.Guards k ack sts

instance decidableGuards [DecidableEq Stmt] (L : EventLoop Stmt) (k : ℕ) (ack : Stmt) :
    (sts : List Stmt) → Decidable (L.Guards k ack sts)
  | [] => inferInstanceAs (Decidable True)
  | st :: sts =>
    have := decidableGuards L k ack sts
    inferInstanceAs (Decidable (((L.clr st).getLsbD k = true → ack ∈ sts) ∧ L.Guards k ack sts))

theorem Guards.append {L : EventLoop Stmt} {k : ℕ} {ack : Stmt} {sts : List Stmt}
    (h : L.Guards k ack sts) {new : List Stmt} (hnew : ∀ st ∈ new, (L.clr st).getLsbD k = false) :
    L.Guards k ack (new ++ sts) := by
  induction new with
  | nil => exact h
  | cons st new ih =>
    rw [List.forall_mem_cons] at hnew
    exact ⟨fun hclr => by simp [hnew.1] at hclr, ih hnew.2⟩

end EventLoop

/-- A flag of a loop, and the statement by which the loop acknowledges it. -/
structure Duty {Stmt : Type} [DecidableEq Stmt] (L : EventLoop Stmt) where
  /-- The flag. -/
  bit : ℕ
  /-- The statement. -/
  ack : Stmt
  /-- The loop waits for the flag. -/
  bit_mem : L.events.getLsbD bit = true
  /-- The body of the loop acknowledges the flag once, if it was granted. -/
  count_body : ∀ oe, (L.body oe).count ack = (oe.got bit).toNat
  /-- It clears the flag only ahead of the acknowledgement. -/
  guards_body : ∀ oe, L.Guards bit ack (L.body oe)
  /-- Statements that replace another one do not acknowledge the flag. -/
  ack_notMem_next : ∀ st, ∀ sts ∈ L.next st, ack ∉ sts
  /-- They do not clear it. -/
  clr_next : ∀ st, ∀ sts ∈ L.next st, ∀ st' ∈ sts, (L.clr st').getLsbD bit = false

namespace Duty

open Thread (WaitsAny)

variable {Stmt : Type} [DecidableEq Stmt] {L : EventLoop Stmt} (d : Duty L)

/-- The acknowledgements that a task owes: one for every notification, and those that are left to
run in the body of its loop. -/
def owed (t : Thread Stmt) : ℕ := t.notified d.bit + t.todo.count d.ack

/-- What the steps of a task keep, as far as a duty is concerned. -/
structure Kept (t : Thread Stmt) : Prop where
  /-- The waits of the task end with any flag. -/
  waits : t.WaitsAny L.events
  /-- The flag is cleared only ahead of the acknowledgement. -/
  guards : L.Guards d.bit d.ack t.todo

theorem kept_init : d.Kept Thread.init := ⟨Thread.waitsAny_init, trivial⟩

theorem owed_init : d.owed Thread.init = 0 := by
  simp [owed, Thread.notified, Thread.pending, Thread.granted, Thread.init, OsTcb.init,
    Thread.todo]

variable {d} {t t' : Thread Stmt}

namespace Kept

theorem call (h : d.Kept t) (hpc : t.pc = .head) (ms : ℕ) :
    d.Kept ⟨svcSignalWaitAny t.tcb L.signals ms, .wait⟩ ∧
      d.owed ⟨svcSignalWaitAny t.tcb L.signals ms, .wait⟩ = d.owed t := by
  obtain ⟨hwaits, hnotified⟩ := h.waits.call hpc EventLoop.setWidth_signals ms
  refine ⟨⟨hwaits, trivial⟩, ?_⟩
  rw [owed, owed, hnotified d.bit d.bit_mem]
  simp [Thread.todo, hpc]

theorem resume (h : d.Kept t) (hres : t.resume L.body = some t') :
    d.Kept t' ∧ d.owed t' = d.owed t := by
  have hpc : t.pc = .wait := by
    unfold Thread.resume at hres
    split at hres
    · assumption
    · cases hres
  obtain ⟨hwaits, oe, hpc', hnotified⟩ := h.waits.resume hres
  refine ⟨⟨hwaits, by simpa [Thread.todo, hpc'] using d.guards_body oe⟩, ?_⟩
  rw [owed, owed, hnotified d.bit]
  simp [Thread.todo, hpc, hpc', d.count_body oe]

theorem done (h : d.Kept t) (hpc : t.pc = .body []) :
    d.Kept { t with pc := .head } ∧ d.owed { t with pc := .head } = d.owed t := by
  have hrun := h.waits.not_blocked (by simp [hpc])
  refine ⟨⟨Thread.waitsAny_of_not_blocked hrun (h.waits.not_delayed hrun), trivial⟩, ?_⟩
  simp [owed, Thread.notified, Thread.pending, Thread.granted, Thread.todo, hpc]

/-- A task that owes no more than one acknowledgement clears a flag only when it is not set. -/
theorem pending_eq_false (h : d.Kept t) {st : Stmt} {sts : List Stmt} (hpc : t.pc = .body (st :: sts))
    (howed : d.owed t ≤ 1) (hclr : (L.clr st).getLsbD d.bit = true) : t.pending d.bit = false := by
  -- the acknowledgement is still to come, so the task owes it already
  have hmem : d.ack ∈ sts := by
    have hguards := h.guards
    simp only [Thread.todo, hpc] at hguards
    exact hguards.1 hclr
  have hcount : 0 < (st :: sts).count d.ack := List.count_pos_iff.2 (List.mem_cons_of_mem st hmem)
  refine (Thread.notified_eq_zero_iff.1 ?_).1
  simp only [owed, Thread.todo, hpc] at howed
  omega

/-- **A statement** that clears the flag only when it is not set: the task owes one
acknowledgement less if this was it. -/
theorem exec (h : d.Kept t) {st : Stmt} {sts new : List Stmt} (hpc : t.pc = .body (st :: sts))
    (hclr : (L.clr st).getLsbD d.bit = true → t.pending d.bit = false) (hnew : new ∈ L.next st) :
    d.Kept ⟨rtEvtClr t.tcb (L.clr st), .body (new ++ sts)⟩ ∧
      d.owed ⟨rtEvtClr t.tcb (L.clr st), .body (new ++ sts)⟩ + (if st = d.ack then 1 else 0) =
        d.owed t := by
  have hne : Pc.body (new ++ sts) ≠ .wait := by simp
  obtain ⟨hwaits, hnotified⟩ := h.waits.exec (by simp [hpc]) hne (L.clr st)
  have hguards := h.guards
  simp only [Thread.todo, hpc] at hguards
  refine ⟨⟨hwaits, hguards.2.append (d.clr_next st new hnew)⟩, ?_⟩
  have hcount : (new ++ sts).count d.ack = sts.count d.ack := by
    rw [List.count_append, List.count_eq_zero.2 (d.ack_notMem_next st new hnew), Nat.zero_add]
  simp only [owed, hnotified d.bit hclr, Thread.todo, hpc, hcount, List.count_cons, beq_iff_eq]
  omega

theorem signalSet (h : d.Kept t) (f : Flags) (hf : f.getLsbD d.bit = false ∨ d.owed t = 0) :
    d.Kept (t.signalSet f) ∧
      d.owed (t.signalSet f) = d.owed t + (f.getLsbD d.bit).toNat := by
  obtain ⟨hwaits, hpc, hnotified⟩ := h.waits.signalSet f
  have htodo : (t.signalSet f).todo = t.todo := by rw [Thread.todo, Thread.todo, hpc]
  refine ⟨⟨hwaits, by rw [htodo]; exact h.guards⟩, ?_⟩
  have hzero : f.getLsbD d.bit = false ∨ t.notified d.bit = 0 :=
    hf.imp_right fun h0 => (Nat.add_eq_zero_iff.1 h0).1
  rw [owed, owed, htodo, hnotified d.bit d.bit_mem hzero]
  omega

theorem expire (h : d.Kept t) (hexp : t.expire = some t') :
    d.Kept t' ∧ d.owed t' = d.owed t := by
  obtain ⟨hwaits, hpc, hnotified⟩ := h.waits.expire hexp
  have htodo : t'.todo = t.todo := by rw [Thread.todo, Thread.todo, hpc]
  refine ⟨⟨hwaits, by rw [htodo]; exact h.guards⟩, ?_⟩
  rw [owed, owed, htodo, hnotified d.bit d.bit_mem]

end Kept

end Duty

end Rtx

end UavTelemetry
