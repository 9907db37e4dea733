import UavTelemetry.Rtx.Delivery

/-!
# Flags in a wait for all of them

The wait of the kernel ends when **all** flags of its mask are set, and then it grants all of them
at once.  A flag that is set twice before that counts once, so a task that waits this way receives
a flag at most as often as it has been set, and a loop acknowledges a flag at most that often.  If
one flag of the mask is never set, the task receives none.

## Main definitions

* `Thread.WaitsAll` : a blocked task waits for all of its flags, and not all of them are set.

## Main results

* `Thread.WaitsAll.call`, `Thread.WaitsAll.signalSet`, ... : no step of a task multiplies a flag.
* `Thread.WaitsAll.resume_of_lacking` : a task that lacks a flag returns without a signal.
* `Duty.owed_call`, `Duty.owed_exec`, ... : what the steps do to the acknowledgements it owes.
-/

namespace UavTelemetry

namespace Rtx

/-! ### The event functions in a wait for all flags -/

theorem svcSignalWait_eq_cases (t : OsTcb) {signals : BitVec 32} (hne : signals ≠ 0)
    (hsmall : signals &&& reservedSignals = 0) (ms : ℕ) :
    (t.events &&& signals.setWidth 16 = signals.setWidth 16 ∧ svcSignalWait t signals ms =
        { t with
          events := t.events &&& ~~~(signals.setWidth 16)
          ret := ⟨.osEventSignal, signals⟩ }) ∨
      (t.events &&& signals.setWidth 16 ≠ signals.setWidth 16 ∧
        ∃ ret, ret.status ≠ .osEventSignal ∧ svcSignalWait t signals ms =
          { rtBlock { t with waits := signals.setWidth 16 } (rtMs2tick ms) .waitAnd with
            ret := ret }) := by
  have hr : ¬ signals &&& reservedSignals ≠ 0 := fun h => h hsmall
  by_cases hall : t.events &&& signals.setWidth 16 = signals.setWidth 16
  · refine Or.inl ⟨hall, ?_⟩
    simp only [svcSignalWait, if_neg hr, if_pos hne, rtEvtWait, if_pos hall, if_true, waitResult]
  · refine Or.inr ⟨hall, waitResult false signals ms (signals.setWidth 16), ?_, ?_⟩
    · by_cases hms : ms = 0 <;> simp [waitResult, hms]
    · simp only [svcSignalWait, if_neg hr, if_pos hne, rtEvtWait, if_neg hall, if_true,
        Bool.false_eq_true, if_false, waitResult]

theorem rtEvtSet_waitAnd_cases {t : OsTcb} (hs : t.state = .waitAnd) (f : Flags) :
    ((t.events ||| f) &&& t.waits = t.waits ∧ rtEvtSet t f =
        { t with
          events := (t.events ||| f) &&& ~~~t.waits
          delayed := false
          state := .ready
          ret := ⟨.osEventSignal, t.waits.setWidth 32⟩ }) ∨
      ((t.events ||| f) &&& t.waits ≠ t.waits ∧
        rtEvtSet t f = { t with events := t.events ||| f }) := by
  by_cases hall : (t.events ||| f) &&& t.waits = t.waits
  · refine Or.inl ⟨hall, ?_⟩
    have hand : t.state = .waitAnd ∧ (t.events ||| f) &&& t.waits = t.waits := ⟨hs, hall⟩
    simp only [rtEvtSet, if_pos hand, OsTcb.wake]
  · refine Or.inr ⟨hall, ?_⟩
    have hand : ¬ (t.state = .waitAnd ∧ (t.events ||| f) &&& t.waits = t.waits) :=
      fun hand => hall hand.2
    have hor : ¬ (t.state = .waitOr ∧ (t.events ||| f) &&& t.waits ≠ 0) := by simp [hs]
    simp only [rtEvtSet, if_neg hand, if_neg hor]

theorem getLsbD_of_and_eq {a b : Flags} {k : ℕ} (h : a &&& b = b) (hk : b.getLsbD k = true) :
    a.getLsbD k = true := by
  have hbit := congrArg (fun x : Flags => x.getLsbD k) h
  simpa [hk] using hbit

theorem getLsbD_and_not_self {a b : Flags} {k : ℕ} (hk : b.getLsbD k = true) :
    (a &&& ~~~b).getLsbD k = false := by
  rw [BitVec.getLsbD_and, BitVec.getLsbD_not, hk]
  simp

theorem getLsbD_setWidth_flags (f : Flags) (k : ℕ) :
    (f.setWidth 32).getLsbD k = f.getLsbD k := by
  rw [BitVec.getLsbD_setWidth]
  by_cases hk : k < 32
  · simp [hk]
  · rw [BitVec.getLsbD_of_ge f k (by omega)]
    simp

namespace Thread

variable {Stmt : Type}

/-- The waits of the task end when all flags of `mask` are set. -/
structure WaitsAll (t : Thread Stmt) (mask : Flags) : Prop where
  /-- A blocked task is in its wait. -/
  pc : t.tcb.Blocked → t.pc = .wait
  /-- It waits for all flags. -/
  state : t.tcb.Blocked → t.tcb.state = .waitAnd
  /-- It waits for the flags of `mask`. -/
  waits : t.tcb.Blocked → t.tcb.waits = mask
  /-- Unless it is woken, its wait does not return a signal. -/
  ret : t.tcb.Blocked → t.tcb.ret.status ≠ .osEventSignal
  /-- A signal is that of all flags. -/
  signals : t.tcb.ret.status = .osEventSignal → t.tcb.ret.signals = mask.setWidth 32
  /-- Only blocked tasks are in the delay list. -/
  delayed : t.tcb.delayed = true → t.tcb.Blocked

variable {t t' : Thread Stmt} {mask : Flags} {k : ℕ}

theorem waitsAll_of_not_blocked (h : ¬ t.tcb.Blocked) (hd : t.tcb.delayed = false)
    (hs : t.tcb.ret.status = .osEventSignal → t.tcb.ret.signals = mask.setWidth 32) :
    t.WaitsAll mask :=
  ⟨fun hb => absurd hb h, fun hb => absurd hb h, fun hb => absurd hb h, fun hb => absurd hb h, hs,
    fun hd' => by simp [hd] at hd'⟩

theorem waitsAll_init : (init : Thread Stmt).WaitsAll mask :=
  waitsAll_of_not_blocked (by simp [init, OsTcb.init, OsTcb.Blocked]) rfl
    (by simp [init, OsTcb.init])

/-- A wait that does not return a signal grants nothing. -/
theorem notified_of_status_ne (h : t.tcb.ret.status ≠ .osEventSignal) :
    t.notified k = (t.pending k).toNat := by
  have hgranted : t.granted k = false := by
    unfold granted
    split
    · rw [OsEvent.got_of_status_ne h, Bool.and_false]
    · rfl
  rw [notified, hgranted]
  rfl

namespace WaitsAll

theorem not_delayed (h : t.WaitsAll mask) (hb : ¬ t.tcb.Blocked) : t.tcb.delayed = false := by
  cases hd : t.tcb.delayed with
  | false => rfl
  | true => exact absurd (h.delayed hd) hb

theorem not_blocked (h : t.WaitsAll mask) (hpc : t.pc ≠ .wait) : ¬ t.tcb.Blocked :=
  fun hb => hpc (h.pc hb)

/-- **The call of `signal_wait`** turns the flags into grants if all of them are set, and blocks
the task otherwise. -/
theorem call (h : t.WaitsAll mask) (hpc : t.pc = .head) {signals : BitVec 32}
    (hsignals : signals = mask.setWidth 32) (hne : signals ≠ 0) (ms : ℕ) :
    WaitsAll (⟨svcSignalWait t.tcb signals ms, .wait⟩ : Thread Stmt) mask ∧
      ∀ k, mask.getLsbD k = true →
        notified (⟨svcSignalWait t.tcb signals ms, .wait⟩ : Thread Stmt) k = t.notified k := by
  have hnot : t.pc ≠ .wait := by simp [hpc]
  have hrun : ¬ t.tcb.Blocked := h.not_blocked hnot
  have hmask : signals.setWidth 16 = mask := by simp [hsignals]
  have hsmall : signals &&& reservedSignals = 0 := by
    rw [hsignals]
    exact setWidth_and_reservedSignals mask
  rcases svcSignalWait_eq_cases t.tcb hne hsmall ms with ⟨hall, heq⟩ | ⟨-, ret, hret, heq⟩
  -- all flags are set: they are cleared and granted
  · rw [hmask] at hall
    rw [heq, hmask]
    refine ⟨waitsAll_of_not_blocked hrun (h.not_delayed hrun) fun _ => hsignals, fun k hk => ?_⟩
    have hset : t.pending k = true := getLsbD_of_and_eq hall hk
    have hclr : (t.tcb.events &&& ~~~mask).getLsbD k = false := getLsbD_and_not_self hk
    have hgot : signals.getLsbD k = true := by rw [hsignals, getLsbD_setWidth_flags, hk]
    unfold OsTcb.Blocked at hrun
    rw [notified_of_pc_ne hnot, hset]
    simp only [notified, pending, granted, hclr, OsEvent.got, OsTcb.Blocked, hrun, hgot,
      decide_false, decide_true, Bool.not_false, Bool.and_true]
    rfl
  -- some flag is not set: the call returns no signal unless the task is woken
  · rw [heq, hmask]
    have hnotified : ∀ (tcb : OsTcb) (k : ℕ), tcb.events = t.tcb.events → tcb.ret = ret →
        notified (⟨tcb, .wait⟩ : Thread Stmt) k = t.notified k := by
      intro tcb k hevents htcb
      rw [notified_of_pc_ne hnot, notified_of_status_ne (by rw [htcb]; exact hret)]
      simp only [pending, hevents]
    by_cases htick : rtMs2tick ms = 0
    -- without a delay the task does not block
    · simp only [rtBlock, htick, ne_eq, not_true_eq_false, if_false]
      exact ⟨waitsAll_of_not_blocked hrun (h.not_delayed hrun) fun hs => absurd hs hret,
        fun k _ => hnotified _ k rfl rfl⟩
    · simp only [rtBlock, ne_eq, htick, not_false_eq_true, if_true]
      exact ⟨⟨fun _ => rfl, fun _ => rfl, fun _ => rfl, fun _ => hret, fun hs => absurd hs hret,
        fun _ => Or.inl rfl⟩, fun k _ => hnotified _ k rfl rfl⟩

/-- **The return from `signal_wait`** hands over what was granted. -/
theorem resume (h : t.WaitsAll mask) {body : OsEvent → List Stmt}
    (hres : t.resume body = some t') :
    t'.WaitsAll mask ∧ ∃ oe, t'.pc = .body (body oe) ∧
      (oe.status = .osEventSignal → oe.signals = mask.setWidth 32) ∧
      ∀ k, t.notified k = t'.notified k + (oe.got k).toNat := by
  unfold Thread.resume at hres
  split at hres
  case h_2 => cases hres
  case h_1 hpc =>
    split_ifs at hres with hb
    cases hres
    refine ⟨waitsAll_of_not_blocked (by simp [OsTcb.Blocked]) (h.not_delayed hb) h.signals,
      t.tcb.ret, rfl, h.signals, fun k => ?_⟩
    have hafter : notified
        (⟨{ t.tcb with state := .running }, .body (body t.tcb.ret)⟩ : Thread Stmt) k =
          (t.pending k).toNat := notified_of_pc_ne (by simp)
    rw [hafter, notified, granted, hpc]
    simp [hb]

/-- A statement notifies the task of nothing. -/
theorem exec (h : t.WaitsAll mask) (hpc : t.pc ≠ .wait) {pc : Pc Stmt} (hpc' : pc ≠ .wait)
    (clr : Flags) :
    WaitsAll ⟨rtEvtClr t.tcb clr, pc⟩ mask ∧
      ∀ k, notified ⟨rtEvtClr t.tcb clr, pc⟩ k ≤ t.notified k := by
  have hrun : ¬ t.tcb.Blocked := h.not_blocked hpc
  refine ⟨waitsAll_of_not_blocked hrun (h.not_delayed hrun) h.signals, fun k => ?_⟩
  rw [notified_of_pc_ne hpc, notified_of_pc_ne hpc', pending, pending, rtEvtClr,
    BitVec.getLsbD_and]
  cases t.tcb.events.getLsbD k <;> cases (~~~clr).getLsbD k <;> decide

/-- **Setting a flag** notifies a task that waits for it at most once. -/
theorem signalSet (h : t.WaitsAll mask) (f : Flags) :
    (t.signalSet f).WaitsAll mask ∧ (t.signalSet f).pc = t.pc ∧
      ∀ k, mask.getLsbD k = true →
        (t.signalSet f).notified k ≤ t.notified k + (f.getLsbD k).toNat := by
  -- whether a flag is set afterwards, as long as the task is not woken
  have hpending : ∀ k, ((t.tcb.events ||| f).getLsbD k).toNat ≤
      (t.pending k).toNat + (f.getLsbD k).toNat := by
    intro k
    rw [BitVec.getLsbD_or, pending]
    cases t.tcb.events.getLsbD k <;> cases f.getLsbD k <;> simp
  by_cases hb : t.tcb.Blocked
  · have hwaits := h.waits hb
    have hbefore : ∀ k, t.notified k = (t.pending k).toNat :=
      fun k => notified_of_status_ne (h.ret hb)
    rcases rtEvtSet_waitAnd_cases (h.state hb) f with ⟨hall, heq⟩ | ⟨hpart, heq⟩
    -- the flags are complete: they are cleared and granted
    · rw [hwaits] at hall
      refine ⟨?_, rfl, fun k hk => ?_⟩
      · rw [Thread.signalSet, heq]
        exact waitsAll_of_not_blocked (by simp [OsTcb.Blocked]) rfl fun _ => by rw [hwaits]
      · have hclr : ((t.tcb.events ||| f) &&& ~~~mask).getLsbD k = false := getLsbD_and_not_self hk
        have hafter : (t.signalSet f).notified k = 1 := by
          have hlt : k < 32 := Nat.lt_trans (BitVec.lt_of_getLsbD hk) (by decide)
          rw [Thread.signalSet, heq, hwaits]
          simp [notified, pending, granted, hclr, h.pc hb, OsEvent.got, OsTcb.Blocked, hk, hlt]
        have hone : (t.tcb.events ||| f).getLsbD k = true := getLsbD_of_and_eq hall hk
        have hle := hpending k
        rw [hone, Bool.toNat_true] at hle
        rw [hafter, hbefore]
        exact hle
    -- a flag is missing, and the task stays blocked
    · refine ⟨?_, rfl, fun k _ => ?_⟩
      · rw [Thread.signalSet, heq]
        exact ⟨fun _ => h.pc hb, fun _ => h.state hb, fun _ => hwaits, fun _ => h.ret hb,
          h.signals, fun _ => hb⟩
      · have hafter : (t.signalSet f).notified k = ((t.signalSet f).pending k).toNat := by
          refine notified_of_status_ne ?_
          rw [Thread.signalSet, heq]
          exact h.ret hb
        rw [hafter, hbefore, Thread.signalSet, heq]
        exact hpending k
  -- the task is not blocked: the flag stays set until the next wait
  · have hset : t.signalSet f = { t with tcb := { t.tcb with events := t.tcb.events ||| f } } := by
      rw [Thread.signalSet, rtEvtSet_of_not_blocked hb]
    refine ⟨?_, rfl, fun k _ => ?_⟩
    · rw [hset]
      exact waitsAll_of_not_blocked hb (h.not_delayed hb) h.signals
    · have hgranted : (t.signalSet f).granted k = t.granted k := by
        rw [hset]
        rfl
      have hle : ((t.signalSet f).pending k).toNat ≤
          (t.pending k).toNat + (f.getLsbD k).toNat := by
        rw [hset]
        exact hpending k
      unfold notified
      rw [hgranted]
      omega

/-- **The end of a delay** notifies a task of nothing. -/
theorem expire (h : t.WaitsAll mask) (hexp : t.expire = some t') :
    t'.WaitsAll mask ∧ t'.pc = t.pc ∧ ∀ k, t'.notified k = t.notified k := by
  unfold Thread.expire at hexp
  split_ifs at hexp with hd
  cases hexp
  have hret := h.ret (h.delayed hd)
  refine ⟨waitsAll_of_not_blocked (by simp [rtDecDly, OsTcb.Blocked]) rfl h.signals, rfl,
    fun k => ?_⟩
  rw [notified_of_status_ne hret, notified_of_status_ne (t := ({ t with tcb := rtDecDly t.tcb } :
    Thread Stmt)) hret]
  rfl

/-- **A task that lacks a flag** returns from its wait without a signal, if it returns at all. -/
theorem resume_of_lacking (h : t.WaitsAll mask) {body : OsEvent → List Stmt}
    (hk : mask.getLsbD k = true) (hlack : t.notified k = 0) (hres : t.resume body = some t') :
    ∃ oe, t'.pc = .body (body oe) ∧ oe.status ≠ .osEventSignal := by
  obtain ⟨-, oe, hpc, hsignals, hnotified⟩ := h.resume hres
  refine ⟨oe, hpc, fun hs => ?_⟩
  have hgot : oe.got k = true := by
    rw [OsEvent.got, hs, hsignals hs, getLsbD_setWidth_flags, hk]
    rfl
  have hsum := hnotified k
  rw [hlack, hgot, Bool.toNat_true] at hsum
  omega

end WaitsAll

end Thread

/-! ### Acknowledging a flag -/

namespace Duty

variable {Stmt : Type} [DecidableEq Stmt] {L : EventLoop Stmt} {d : Duty L} {t t' : Thread Stmt}

omit [DecidableEq Stmt] in
theorem signals_ne_zero : L.signals ≠ 0 := by
  intro h
  apply L.events_ne
  rw [← EventLoop.setWidth_signals, h]
  rfl

theorem owed_call (h : t.WaitsAll L.events) (hpc : t.pc = .head) (ms : ℕ) :
    d.owed ⟨svcSignalWait t.tcb L.signals ms, .wait⟩ = d.owed t := by
  obtain ⟨-, hnotified⟩ := h.call hpc L.signals_eq signals_ne_zero ms
  rw [owed, owed, hnotified d.bit d.bit_mem]
  simp [Thread.todo, hpc]

theorem owed_resume (h : t.WaitsAll L.events) (hres : t.resume L.body = some t') :
    d.owed t' = d.owed t := by
  have hpc : t.pc = .wait := by
    unfold Thread.resume at hres
    split at hres
    · assumption
    · cases hres
  obtain ⟨-, oe, hpc', -, hnotified⟩ := h.resume hres
  rw [owed, owed, hnotified d.bit]
  simp [Thread.todo, hpc, hpc', d.count_body oe]

theorem owed_done (hpc : t.pc = .body []) : d.owed { t with pc := .head } = d.owed t := by
  simp [owed, Thread.notified, Thread.pending, Thread.granted, Thread.todo, hpc]

/-- **A statement**: the task owes one acknowledgement less if this was it. -/
theorem owed_exec (h : t.WaitsAll L.events) {st : Stmt} {sts new : List Stmt}
    (hpc : t.pc = .body (st :: sts)) (hnew : new ∈ L.next st) :
    d.owed ⟨rtEvtClr t.tcb (L.clr st), .body (new ++ sts)⟩ + (if st = d.ack then 1 else 0) ≤
      d.owed t := by
  have hne : Pc.body (new ++ sts) ≠ .wait := by simp
  obtain ⟨-, hnotified⟩ := h.exec (by simp [hpc]) hne (L.clr st)
  have hcount : (new ++ sts).count d.ack = sts.count d.ack := by
    rw [List.count_append, List.count_eq_zero.2 (d.ack_notMem_next st new hnew), Nat.zero_add]
  have hle := hnotified d.bit
  simp only [owed, Thread.todo, hpc, hcount, List.count_cons, beq_iff_eq]
  omega

theorem owed_signalSet (h : t.WaitsAll L.events) (f : Flags) :
    d.owed (t.signalSet f) ≤ d.owed t + (f.getLsbD d.bit).toNat := by
  obtain ⟨-, hpc, hnotified⟩ := h.signalSet f
  have htodo : (t.signalSet f).todo = t.todo := by rw [Thread.todo, Thread.todo, hpc]
  have hle := hnotified d.bit d.bit_mem
  rw [owed, owed, htodo]
  omega

theorem owed_expire (h : t.WaitsAll L.events) (hexp : t.expire = some t') :
    d.owed t' = d.owed t := by
  obtain ⟨-, hpc, hnotified⟩ := h.expire hexp
  have htodo : t'.todo = t.todo := by rw [Thread.todo, Thread.todo, hpc]
  rw [owed, owed, htodo, hnotified d.bit]

end Duty

end Rtx

end UavTelemetry
