import UavTelemetry.Rtx.AllFlags
import UavTelemetry.System.Commands
import UavTelemetry.System.Frame

/-!
# The system with the wait of the kernel

The loops test their flags one by one, but the wait of the kernel ends only when all of them are
set.  `SysManager` waits for a flag that its own callback never raises, so it never leaves its
wait: it starts no pattern and acknowledges nothing.  A topic to which it has attached is therefore
never free again once it has been published, and as `VirtualReceiver` hears of a topic only when it
is published, it forwards each of its two topics at most once.

## Main definitions

* `Outlet` : a topic that `VirtualReceiver` forwards.
* `Outlet.left` : what `VirtualReceiver` may still send for it.
* `Still` : the invariant of the runs.
* `World.Entered` : the system when the tasks enter their loops.

## Main results

* `Still.move` : every step keeps the invariant.
* `World.standstill` : what the runs of the system come to.
-/

namespace UavTelemetry

open Rtx MsgBroker

/-! ### The flags of the loops -/

namespace SysManager

/-- The update of `/stat`, for which the callback raises no flag. -/
def statDuty : Duty loop where
  bit := 3
  ack := .consumed "/stat"
  bit_mem := by decide
  count_body oe := by
    rw [show loop.body oe = _ from body_eq oe]
    cases oe.got 0 <;> cases oe.got 1 <;> cases oe.got 2 <;> cases oe.got 3 <;> decide
  guards_body oe := by
    rw [show loop.body oe = _ from body_eq oe]
    cases oe.got 0 <;> cases oe.got 1 <;> cases oe.got 2 <;> cases oe.got 3 <;> decide
  ack_notMem_next _ sts hsts := by simp [List.mem_singleton.1 hsts]
  clr_next _ sts hsts := by simp [List.mem_singleton.1 hsts]

theorem statDuty_callback {name : String} {f : Flags} (h : onTopicUpdateCallback name = some f) :
    f.getLsbD statDuty.bit = false := by
  unfold onTopicUpdateCallback at h
  split_ifs at h
  · cases h
    decide
  · cases h
    decide
  · cases h
    decide

/-- Without a signal the body of the loop is empty. -/
theorem body_of_status_ne {oe : OsEvent} (h : oe.status ≠ .osEventSignal) : body oe = [] := by
  simp [body_eq, OsEvent.got_of_status_ne h]

end SysManager

namespace VirtualReceiver

/-- The body of the loop sends a command once for an update, behind the `signal_clr` of its flag. -/
theorem sendCommand_body (oe : OsEvent) :
    ((loop.body oe).count (.sendCommand cmdSetKey Topic.sizeofKeyData) = (oe.got 1).toNat ∧
        loop.Guards 1 (.sendCommand cmdSetKey Topic.sizeofKeyData) (loop.body oe)) ∧
      ((loop.body oe).count (.sendCommand cmdSetGps Topic.sizeofGpsData) = (oe.got 0).toNat ∧
        loop.Guards 0 (.sendCommand cmdSetGps Topic.sizeofGpsData) (loop.body oe)) := by
  rw [show loop.body oe = _ from body_eq oe]
  cases decide (oe.status = .osEventTimeout) <;> cases oe.got 0 <;> cases oe.got 1 <;>
    cases oe.got 2 <;> decide

theorem sendCommand_notMem_next (cmd : UInt8) (size : ℕ) {st : Stmt} {sts : List Stmt}
    (hsts : sts ∈ loop.next st) : Stmt.sendCommand cmd size ∉ sts := by
  intro h
  simpa [missingResponse, statusReady] using mem_next hsts h

/-- The command for an update of `/keyb`. -/
def keyCommand : Duty loop where
  bit := 1
  ack := .sendCommand cmdSetKey Topic.sizeofKeyData
  bit_mem := keyDuty.bit_mem
  count_body oe := (sendCommand_body oe).1.1
  guards_body oe := (sendCommand_body oe).1.2
  ack_notMem_next _ _ hsts := sendCommand_notMem_next _ _ hsts
  clr_next := keyDuty.clr_next

/-- The command for an update of `/gps`. -/
def gpsCommand : Duty loop where
  bit := 0
  ack := .sendCommand cmdSetGps Topic.sizeofGpsData
  bit_mem := gpsDuty.bit_mem
  count_body oe := (sendCommand_body oe).2.1
  guards_body oe := (sendCommand_body oe).2.2
  ack_notMem_next _ _ hsts := sendCommand_notMem_next _ _ hsts
  clr_next := gpsDuty.clr_next

end VirtualReceiver

/-- A topic that `VirtualReceiver` forwards. -/
inductive Outlet
  | keyb
  | gps
  deriving DecidableEq, Repr

namespace Outlet

/-- The name of the topic. -/
def name : Outlet → String
  | keyb => "/keyb"
  | gps => "/gps"

/-- How `VirtualReceiver` acknowledges an update. -/
def ack : Outlet → Duty VirtualReceiver.loop
  | keyb => VirtualReceiver.keyDuty
  | gps => VirtualReceiver.gpsDuty

/-- How it forwards an update. -/
def command : Outlet → Duty VirtualReceiver.loop
  | keyb => VirtualReceiver.keyCommand
  | gps => VirtualReceiver.gpsCommand

theorem bit_command (F : Outlet) : F.command.bit = F.ack.bit := by cases F <;> rfl

theorem answers (F : Outlet) : Task.virtualReceiver.Answers F.ack F.name := by
  cases F with
  | keyb => exact VirtualReceiver.keyDuty_answers
  | gps => exact VirtualReceiver.gpsDuty_answers

theorem ack_ack (F : Outlet) : F.ack.ack = VirtualReceiver.Stmt.consumed F.name := by
  cases F <;> rfl

end Outlet

namespace VirtualReceiver

/-- The statement acknowledges and forwards no other topic. -/
def Stmt.Served : Stmt → Prop
  | .consumed topicname => ∃ F : Outlet, topicname = F.name
  | .sendCommand cmd size => ∃ F : Outlet, F.command.ack = .sendCommand cmd size
  | _ => True

theorem served_of_mem_next {st st' : Stmt} {sts : List Stmt} (hsts : sts ∈ loop.next st)
    (h : st' ∈ sts) : st'.Served := by
  cases st' with
  | consumed topicname => exact absurd h (ack_notMem_next topicname hsts)
  | sendCommand cmd size => exact absurd h (sendCommand_notMem_next cmd size hsts)
  | _ => trivial

theorem served_topicBranch (F : Outlet) {event : Flags} {cmd : UInt8} {size : ℕ}
    (hF : F.command.ack = .sendCommand cmd size) {st : Stmt}
    (h : st ∈ topicBranch event F.name cmd size) : st.Served := by
  simp only [topicBranch, List.mem_cons, List.not_mem_nil, or_false] at h
  rcases h with rfl | rfl | rfl | rfl | rfl | rfl
  · trivial
  · trivial
  · trivial
  · exact ⟨F, rfl⟩
  · exact ⟨F, hF⟩
  · trivial

theorem served_body {oe : OsEvent} {st : Stmt} (h : st ∈ body oe) : st.Served := by
  simp only [body, List.mem_append] at h
  rcases h with ((h | h) | h) | h
  · split_ifs at h
    · rw [List.mem_singleton.1 h]
      trivial
    · cases h
  · split_ifs at h
    · rcases List.mem_pair.1 h with rfl | rfl <;> trivial
    · cases h
  · split_ifs at h
    · exact served_topicBranch .keyb rfl h
    · cases h
  · split_ifs at h
    · exact served_topicBranch .gps rfl h
    · cases h

end VirtualReceiver

/-! ### The invariant -/

/-- What the statements left to a task may be.  `SysManager` has none. -/
def Task.Calm : (t : Task) → List t.Stmt → Prop
  | .keyDecoder, _ => True
  | .virtualReceiver, sts => ∀ st ∈ sts, VirtualReceiver.Stmt.Served st
  | .sysManager, sts => sts = []

/-- `SysManager` has attached to a topic, and `VirtualReceiver` at most once. -/
structure Attended (observers : List (Observer Task Task)) : Prop where
  /-- `SysManager`. -/
  sysManager : ∃ obs ∈ observers, obs.notify = .sysManager
  /-- `VirtualReceiver`. -/
  virtualReceiver : observers.countP (fun obs => obs.notify = .virtualReceiver) ≤ 1

theorem Attended.countP_lt {observers : List (Observer Task Task)} (h : Attended observers) :
    observers.countP (fun obs => obs.notify = .virtualReceiver) < observers.length := by
  obtain ⟨obs, hobs, hnotify⟩ := h.sysManager
  refine Nat.lt_of_le_of_ne List.countP_le_length fun heq => ?_
  have hall := List.countP_eq_length.1 heq obs hobs
  simp [hnotify] at hall

namespace Outlet

variable (F : Outlet)

/-- The topic is installed and attended; while it is pending, its count is more than what
`VirtualReceiver` owes, and otherwise `VirtualReceiver` knows of no update. -/
structure Taken (m : Reference Task Task Buffer) (th : Thread VirtualReceiver.Stmt)
    (e : TopicEntry) : Prop where
  /-- The topic is installed. -/
  lookup : m.lookup F.name = some e
  /-- The observers. -/
  attended : Attended e.observers
  /-- The topic is pending. -/
  pending : e.count ≠ 0 → F.ack.owed th + 1 ≤ e.count
  /-- It has never been published. -/
  free : e.count = 0 → F.ack.owed th = 0 ∧ F.command.owed th = 0

/-- The frames that `VirtualReceiver` may still send for the topic. -/
def left (th : Thread VirtualReceiver.Stmt) (e : TopicEntry) : ℕ :=
  F.command.owed th + if e.count = 0 then 1 else 0

end Outlet

/-- The invariant: `SysManager` is out of the body of its loop and lacks a flag, and the topics are
taken.  `left` bounds what may still be sent for each topic. -/
structure Still (m : Reference Task Task Buffer) (ths : Threads) (left : Outlet → ℕ) : Prop where
  /-- The waits of the tasks end with all flags. -/
  waits : ∀ t, (ths t).WaitsAll t.loop.events
  /-- What the tasks have left to run. -/
  calm : ∀ t : Task, t.Calm (ths t).todo
  /-- `SysManager` lacks the flag of `/stat`. -/
  lacks : SysManager.statDuty.owed (ths .sysManager) = 0
  /-- The topics. -/
  taken : ∀ F : Outlet, ∃ e, F.Taken m (ths .virtualReceiver) e ∧
    F.left (ths .virtualReceiver) e ≤ left F

/-! ### Notifications -/

section

variable {ths : Threads} {t : Task} {name : String} {c : ℕ} (d : Duty t.loop)

/-- A callback notifies a task at most once, and other tasks of nothing. -/
theorem onTopicUpdate_waitsAll (h : ∀ t, (ths t).WaitsAll t.loop.events) (notify sub : Task)
    (hc : ∀ f, t.onTopicUpdateCallback name = some f → (f.getLsbD d.bit).toNat ≤ c) :
    (∀ t, (Threads.onTopicUpdate notify sub name ths t).WaitsAll t.loop.events) ∧
      d.owed (Threads.onTopicUpdate notify sub name ths t) ≤
        d.owed (ths t) + c * if notify = t then 1 else 0 := by
  unfold Threads.onTopicUpdate
  cases hcb : notify.onTopicUpdateCallback name with
  | none => exact ⟨h, Nat.le_add_right _ _⟩
  | some f =>
    refine ⟨fun t' => ?_, ?_⟩
    · by_cases ht : t' = notify
      · subst ht
        simp only [Threads.signalSet, Function.update_self]
        exact ((h t').signalSet f).1
      · simp only [Threads.signalSet, Function.update_of_ne ht]
        exact h t'
    · by_cases ht : notify = t
      · subst ht
        have howed := Duty.owed_signalSet (d := d) (h notify) f
        have hle := hc f hcb
        simp only [Threads.signalSet, Function.update_self, if_true]
        omega
      · simp only [Threads.signalSet, Function.update_of_ne (Ne.symm ht), if_neg ht]
        exact Nat.le_add_right _ _

theorem notifyAll_waitsAll (h : ∀ t, (ths t).WaitsAll t.loop.events) (name : String) (c : ℕ)
    (hc : ∀ f, t.onTopicUpdateCallback name = some f → (f.getLsbD d.bit).toNat ≤ c)
    (observers : List (Observer Task Task)) :
    (∀ t, (Reference.notifyAll Threads.onTopicUpdate name observers ths t).WaitsAll t.loop.events) ∧
      d.owed (Reference.notifyAll Threads.onTopicUpdate name observers ths t) ≤
        d.owed (ths t) + c * observers.countP (fun obs => obs.notify = t) := by
  induction observers generalizing ths with
  | nil => exact ⟨h, Nat.le_add_right _ _⟩
  | cons obs observers ih =>
    obtain ⟨hwaits, hfirst⟩ := onTopicUpdate_waitsAll d h obs.notify obs.observer hc
    obtain ⟨hwaits', hrest⟩ := ih hwaits
    refine ⟨hwaits', hrest.trans ?_⟩
    rw [List.countP_cons, Nat.mul_add]
    by_cases ht : obs.notify = t
    · simp only [ht, if_true, decide_true, Nat.mul_one] at hfirst ⊢
      omega
    · simp only [ht, if_false, decide_false, Nat.mul_zero, Bool.false_eq_true] at hfirst ⊢
      omega

end

/-! ### Steps -/

namespace Outlet

variable (F : Outlet) {m m' : Reference Task Task Buffer} {th th' : Thread VirtualReceiver.Stmt}
  {e : TopicEntry}

/-- The notifications of an update of the topic, or of another one. -/
theorem owed_notifyAll {ths : Threads} (h : ∀ t, (ths t).WaitsAll t.loop.events) (name : String)
    (observers : List (Observer Task Task)) :
    F.ack.owed (Reference.notifyAll Threads.onTopicUpdate name observers ths .virtualReceiver) ≤
        F.ack.owed (ths .virtualReceiver) + (if name = F.name then 1 else 0) *
          observers.countP (fun obs => obs.notify = .virtualReceiver) ∧
      F.command.owed (Reference.notifyAll Threads.onTopicUpdate name observers ths
        .virtualReceiver) ≤
        F.command.owed (ths .virtualReceiver) + (if name = F.name then 1 else 0) *
          observers.countP (fun obs => obs.notify = .virtualReceiver) := by
  have hc : ∀ f, VirtualReceiver.onTopicUpdateCallback name = some f →
      (f.getLsbD F.ack.bit).toNat ≤ if name = F.name then 1 else 0 := by
    intro f hf
    by_cases hname : name = F.name
    · rw [if_pos hname]
      exact Bool.toNat_le _
    · rw [if_neg hname, F.answers.callback_ne name f hname hf]
      exact Nat.le_refl 0
  refine ⟨(notifyAll_waitsAll (t := .virtualReceiver) F.ack h name _ hc observers).2,
    (notifyAll_waitsAll (t := .virtualReceiver) F.command h name _ ?_ observers).2⟩
  rwa [F.bit_command]

variable {F}

/-- A statement of `VirtualReceiver`. -/
theorem owed_exec (F : Outlet) (h : th.WaitsAll VirtualReceiver.loop.events)
    {st : VirtualReceiver.Stmt} {sts new : List VirtualReceiver.Stmt}
    (hpc : th.pc = .body (st :: sts)) (hnew : new ∈ VirtualReceiver.loop.next st) :
    F.ack.owed ⟨rtEvtClr th.tcb (VirtualReceiver.loop.clr st), .body (new ++ sts)⟩ +
        (if st = F.ack.ack then 1 else 0) ≤ F.ack.owed th ∧
      F.command.owed ⟨rtEvtClr th.tcb (VirtualReceiver.loop.clr st), .body (new ++ sts)⟩ +
        (if st = F.command.ack then 1 else 0) ≤ F.command.owed th :=
  ⟨Duty.owed_exec h hpc hnew, Duty.owed_exec h hpc hnew⟩

/-- `VirtualReceiver` owes no more than before. -/
theorem Taken.mono (h : F.Taken m th e) (hm : m'.lookup F.name = m.lookup F.name)
    (hack : F.ack.owed th' ≤ F.ack.owed th) (hcommand : F.command.owed th' ≤ F.command.owed th) :
    F.Taken m' th' e ∧ F.left th' e ≤ F.left th e := by
  refine ⟨⟨hm.trans h.lookup, h.attended, fun hne => ?_, fun h0 => ?_⟩, ?_⟩
  · exact (Nat.add_le_add_right hack 1).trans (h.pending hne)
  · obtain ⟨hack0, hcommand0⟩ := h.free h0
    omega
  · exact Nat.add_le_add_right hcommand _

/-- **An acknowledgement** leaves the topic pending. -/
theorem Taken.consumed (h : F.Taken m th e) (hack : F.ack.owed th' + 1 ≤ F.ack.owed th)
    (hcommand : F.command.owed th' ≤ F.command.owed th) :
    F.Taken (m.consumed F.name).1 th' { e with count := e.count - 1 } ∧
      F.left th' { e with count := e.count - 1 } ≤ F.left th e := by
  -- `VirtualReceiver` owes the acknowledgement, so the count is more than one
  have hne : e.count ≠ 0 := by
    intro h0
    have hfree := (h.free h0).1
    omega
  have hcount := h.pending hne
  have hne' : e.count - 1 ≠ 0 := by omega
  refine ⟨⟨Reference.lookup_consumed_self h.lookup, h.attended, fun _ => ?_,
    fun h0 => absurd h0 hne'⟩, ?_⟩
  · change F.ack.owed th' + 1 ≤ e.count - 1
    omega
  · unfold left
    simp only [if_neg hne', if_neg hne]
    omega

end Outlet

namespace Still

variable {m m' : Reference Task Task Buffer} {ths ths' : Threads} {left : Outlet → ℕ}

/-- A step of a task in which it comes to owe nothing new. -/
theorem update (h : Still m ths left) {t : Task} {th : Thread t.Stmt}
    (hwaits : th.WaitsAll t.loop.events) (hcalm : t.Calm th.todo)
    (howed : ∀ d : Duty t.loop, d.owed th ≤ d.owed (ths t)) :
    Still m (Function.update ths t th) left := by
  refine ⟨fun t' => ?_, fun t' => ?_, ?_, fun F => ?_⟩
  · by_cases ht : t' = t
    · subst ht
      rwa [Function.update_self]
    · rw [Function.update_of_ne ht]
      exact h.waits t'
  · by_cases ht : t' = t
    · subst ht
      rwa [Function.update_self]
    · rw [Function.update_of_ne ht]
      exact h.calm t'
  · by_cases ht : Task.sysManager = t
    · subst ht
      have hle := howed SysManager.statDuty
      rw [Function.update_self]
      exact Nat.le_zero.1 (hle.trans (Nat.le_of_eq h.lacks))
    · rw [Function.update_of_ne ht]
      exact h.lacks
  · obtain ⟨e, he, hleft⟩ := h.taken F
    by_cases ht : Task.virtualReceiver = t
    · subst ht
      obtain ⟨he', hleft'⟩ := he.mono rfl (howed F.ack) (howed F.command)
      rw [Function.update_self]
      exact ⟨e, he', hleft'.trans hleft⟩
    · rw [Function.update_of_ne ht]
      exact ⟨e, he, hleft⟩

theorem todo_notifyAll (name : String) (observers : List (Observer Task Task)) (t : Task) :
    (Reference.notifyAll Threads.onTopicUpdate name observers ths t).todo = (ths t).todo := by
  rw [Thread.todo, Thread.todo, Reference.notifyAll_pc]

/-- **A publication** uses up the one update of the topic. -/
theorem publish (h : Still m ths left) (name : String) (data : Option Buffer) (datasize : ℕ) :
    Still (Reference.publish Threads.onTopicUpdate m name data datasize ths).1
      (Reference.publish Threads.onTopicUpdate m name data datasize ths).2.2 left := by
  rcases Reference.publish_cases m name data datasize ths with
    ⟨-, e, -, heq⟩ | ⟨e, he, h0, -, heq⟩
  · rw [heq]
    exact h
  · rw [heq]
    have hstat := notifyAll_waitsAll (t := .sysManager) SysManager.statDuty h.waits name 0
      (fun f hf => by rw [SysManager.statDuty_callback hf]; exact Nat.le_refl 0) e.observers
    refine ⟨hstat.1, fun t => ?_, ?_, fun F => ?_⟩
    · rw [todo_notifyAll]
      exact h.calm t
    · have hlacks := hstat.2
      rw [Nat.zero_mul, Nat.add_zero] at hlacks
      exact Nat.le_zero.1 (hlacks.trans (Nat.le_of_eq h.lacks))
    · obtain ⟨eF, heF, hleft⟩ := h.taken F
      by_cases hname : name = F.name
      -- the topic itself: `SysManager` is one of those who are notified, and it will not answer
      · subst hname
        obtain rfl : e = eF := Option.some.inj (he.symm.trans heF.lookup)
        obtain ⟨hack0, hcommand0⟩ := heF.free h0
        obtain ⟨hack, hcommand⟩ := F.owed_notifyAll h.waits F.name e.observers
        rw [if_pos rfl] at hack hcommand
        have hlt := heF.attended.countP_lt
        have hle := heF.attended.virtualReceiver
        have hne : e.observers.length ≠ 0 := by omega
        have hpending : F.ack.owed (Reference.notifyAll Threads.onTopicUpdate F.name e.observers ths
            .virtualReceiver) + 1 ≤ e.observers.length := by omega
        refine ⟨_, ⟨OrderedMap.lookup_modify_self he, heF.attended, fun _ => hpending,
          fun hlen => absurd hlen hne⟩, ?_⟩
        unfold Outlet.left at hleft ⊢
        simp only [if_neg hne, if_pos h0] at hleft ⊢
        omega
      · obtain ⟨hack, hcommand⟩ := F.owed_notifyAll h.waits name e.observers
        rw [if_neg hname, Nat.zero_mul, Nat.add_zero] at hack hcommand
        refine ⟨eF, (heF.mono ?_ hack hcommand).imp_right fun hle => hle.trans hleft⟩
        exact OrderedMap.lookup_modify_of_ne (Ne.symm hname)

/-- A statement of `VirtualReceiver` that does not acknowledge. -/
theorem stmt_ne (h : Still m ths left) {t : Task} {st : t.Stmt} {sts new : List t.Stmt}
    (hpc : (ths t).pc = .body (st :: sts)) (hnew : new ∈ t.loop.next st)
    (hcalm : t.Calm (new ++ sts)) :
    Still m (Function.update ths t ⟨rtEvtClr (ths t).tcb (t.loop.clr st), .body (new ++ sts)⟩)
      left := by
  have hne : Pc.body (new ++ sts) ≠ .wait := by simp
  refine h.update ((h.waits t).exec (by simp [hpc]) hne _).1 hcalm fun d => ?_
  have howed := Duty.owed_exec (d := d) (h.waits t) hpc hnew
  omega

/-- **A frame** for a topic that has been published uses up what is left for it. -/
theorem command (h : Still m ths left) (F : Outlet) {sts new : List VirtualReceiver.Stmt}
    (hpc : (ths .virtualReceiver).pc = .body (F.command.ack :: sts))
    (hnew : new ∈ VirtualReceiver.loop.next F.command.ack)
    (hcalm : Task.Calm .virtualReceiver (new ++ sts)) :
    0 < left F ∧ Still m
      (Function.update ths .virtualReceiver
        ⟨rtEvtClr (ths .virtualReceiver).tcb (VirtualReceiver.loop.clr F.command.ack),
          .body (new ++ sts)⟩)
      (Function.update left F (left F - 1)) := by
  have hstill := h.stmt_ne (t := .virtualReceiver) hpc hnew hcalm
  obtain ⟨hack, hcommand⟩ := F.owed_exec (h.waits .virtualReceiver) hpc hnew
  rw [if_pos rfl] at hcommand
  obtain ⟨e, he, hleft⟩ := h.taken F
  obtain ⟨he', -⟩ := he.mono rfl (Nat.le_of_add_right_le hack) (Nat.le_of_add_right_le hcommand)
  have hleft' : F.left ⟨rtEvtClr (ths .virtualReceiver).tcb
      (VirtualReceiver.loop.clr F.command.ack), .body (new ++ sts)⟩ e + 1 ≤ left F := by
    unfold Outlet.left at hleft ⊢
    omega
  refine ⟨by omega, hstill.waits, hstill.calm, hstill.lacks, fun F' => ?_⟩
  by_cases hF : F' = F
  · subst hF
    rw [Function.update_self, Function.update_self]
    exact ⟨e, he', Nat.le_sub_one_of_lt hleft'⟩
  · rw [Function.update_of_ne hF]
    exact hstill.taken F'

/-- **A statement.** -/
theorem stmt (h : Still m ths left) {t : Task} {st : t.Stmt} {sts new : List t.Stmt}
    (hpc : (ths t).pc = .body (st :: sts)) (hnew : new ∈ t.loop.next st)
    (happ : (t.access st).Applies m ths m' ths') :
    Still m' (Function.update ths' t ⟨rtEvtClr (ths' t).tcb (t.loop.clr st), .body (new ++ sts)⟩)
      left := by
  have htodo : (ths t).todo = st :: sts := by rw [Thread.todo, hpc]
  have hcalm := h.calm t
  rw [htodo] at hcalm
  have hcalm' : t.Calm (new ++ sts) := by
    cases t with
    | keyDecoder => trivial
    | virtualReceiver =>
      intro st' hst'
      rcases List.mem_append.1 hst' with hst' | hst'
      · exact VirtualReceiver.served_of_mem_next hnew hst'
      · exact hcalm st' (List.mem_cons_of_mem _ hst')
    | sysManager => cases hcalm
  generalize ha : t.access st = a at happ
  cases happ with
  | none => exact h.stmt_ne hpc hnew hcalm'
  | publish name data datasize =>
    refine (h.publish name (some data) datasize).stmt_ne ?_ hnew hcalm'
    rw [Reference.publish_pc, hpc]
  | consumed hname =>
    rename_i name
    -- only `VirtualReceiver` acknowledges
    cases t with
    | keyDecoder => cases st <;> cases ha
    | sysManager => cases hcalm
    | virtualReceiver =>
      obtain rfl : st = .consumed name := VirtualReceiver.access_eq_consumed_iff.1 ha
      obtain ⟨F, rfl⟩ : ∃ F : Outlet, name = F.name := hcalm _ List.mem_cons_self
      have hstill := h.stmt_ne (t := .virtualReceiver) hpc hnew hcalm'
      refine ⟨hstill.waits, hstill.calm, hstill.lacks, fun F' => ?_⟩
      by_cases hF : F' = F
      · subst hF
        obtain ⟨e, he, hleft⟩ := h.taken F'
        obtain ⟨hack, hcommand⟩ := F'.owed_exec (h.waits .virtualReceiver) hpc hnew
        rw [if_pos F'.ack_ack.symm] at hack
        rw [Function.update_self]
        exact ⟨_, (he.consumed hack (Nat.le_of_add_right_le hcommand)).imp_right
          fun hle => hle.trans hleft⟩
      · obtain ⟨e, he, hleft⟩ := hstill.taken F'
        have hne : F'.name ≠ F.name := by
          cases F <;> cases F' <;> first | exact absurd rfl hF | decide
        exact ⟨e, (he.mono (Reference.lookup_consumed_of_ne hne) (Nat.le_refl _)
          (Nat.le_refl _)).imp_right fun hle => hle.trans hleft⟩

/-- An interrupt handler raises no flag that the invariant counts. -/
theorem interrupt (h : Still m ths left) {t : Task} {signals : Flags}
    (hsignals : signals ∈ t.interrupts) : Still m (ths.signalSet t signals) left := by
  have hwaits : ∀ t', (ths.signalSet t signals t').WaitsAll t'.loop.events := by
    intro t'
    by_cases ht : t' = t
    · subst ht
      rw [Threads.signalSet, Function.update_self]
      exact ((h.waits t').signalSet signals).1
    · rw [Threads.signalSet, Function.update_of_ne ht]
      exact h.waits t'
  refine ⟨hwaits, fun t' => ?_, ?_, fun F => ?_⟩
  · rw [Thread.todo, Threads.signalSet_pc, ← Thread.todo]
    exact h.calm t'
  · cases t with
    | sysManager => cases hsignals
    | _ => exact h.lacks
  · cases t with
    | virtualReceiver =>
      have hbit := F.answers.interrupts signals hsignals
      have hack := Duty.owed_signalSet (d := F.ack) (h.waits .virtualReceiver) signals
      have hcommand := Duty.owed_signalSet (d := F.command) (h.waits .virtualReceiver) signals
      rw [hbit, Bool.toNat_false, Nat.add_zero] at hack
      rw [F.bit_command, hbit, Bool.toNat_false, Nat.add_zero] at hcommand
      obtain ⟨e, he, hleft⟩ := h.taken F
      rw [Threads.signalSet, Function.update_self]
      exact ⟨e, (he.mono rfl hack hcommand).imp_right fun hle => hle.trans hleft⟩
    | _ => exact h.taken F

/-- **Every step keeps the invariant.** -/
theorem move {a : Access} (h : Still m ths left) (hmove : Move svcSignalWait m ths a m' ths') :
    Still m' ths' left := by
  cases hmove with
  | idle => exact h
  | interrupt t hsignals => exact h.interrupt hsignals
  | publish name data datasize => exact h.publish name (some data) datasize
  | call t ms hpc =>
    have hwaits := h.waits t
    refine h.update (hwaits.call hpc t.loop.signals_eq Duty.signals_ne_zero ms).1 ?_
      fun d => Nat.le_of_eq (Duty.owed_call hwaits hpc ms)
    have hcalm := h.calm t
    rw [Thread.todo, hpc] at hcalm
    exact hcalm
  | resume t hres =>
    have hwaits := h.waits t
    refine h.update (hwaits.resume hres).1 ?_ fun d => Nat.le_of_eq (Duty.owed_resume hwaits hres)
    cases t with
    | keyDecoder => trivial
    | virtualReceiver =>
      obtain ⟨-, oe, hpc, -, -⟩ := hwaits.resume hres
      intro st hst
      rw [Thread.todo, hpc] at hst
      exact VirtualReceiver.served_body hst
    | sysManager =>
      -- the flag of `/stat` is missing
      have hlack := (Nat.add_eq_zero_iff.1 h.lacks).1
      obtain ⟨oe, hpc, hoe⟩ := hwaits.resume_of_lacking SysManager.statDuty.bit_mem hlack hres
      change Thread.todo _ = []
      rw [Thread.todo, hpc]
      exact SysManager.body_of_status_ne hoe
  | done t hpc =>
    have hwaits := h.waits t
    have hrun := hwaits.not_blocked (by simp [hpc])
    refine h.update (Thread.waitsAll_of_not_blocked hrun (hwaits.not_delayed hrun) hwaits.signals)
      ?_ fun d => Nat.le_of_eq (Duty.owed_done hpc)
    have hcalm := h.calm t
    rw [Thread.todo, hpc] at hcalm
    exact hcalm
  | expire t hexp =>
    have hwaits := h.waits t
    obtain ⟨hwaits', hpc, -⟩ := hwaits.expire hexp
    refine h.update hwaits' ?_ fun d => Nat.le_of_eq (Duty.owed_expire hwaits hexp)
    rw [Thread.todo, hpc, ← Thread.todo]
    exact h.calm t
  | stmt t hpc hnew happ => exact h.stmt hpc hnew happ

/-- A statement acknowledges a topic only while its count is more than one. -/
theorem one_lt_count (h : Still m ths left) {t : Task} {st : t.Stmt} {sts : List t.Stmt}
    (hpc : (ths t).pc = .body (st :: sts)) {name : String} (ha : t.access st = .consumed name) :
    ∃ e, m.lookup name = some e ∧ 1 < e.count := by
  have hcalm := h.calm t
  rw [Thread.todo, hpc] at hcalm
  cases t with
  | keyDecoder => cases st <;> cases ha
  | sysManager => cases hcalm
  | virtualReceiver =>
    obtain rfl : st = .consumed name := VirtualReceiver.access_eq_consumed_iff.1 ha
    obtain ⟨F, rfl⟩ : ∃ F : Outlet, name = F.name := hcalm _ List.mem_cons_self
    obtain ⟨e, he, -⟩ := h.taken F
    obtain ⟨hack, -⟩ := F.owed_exec (h.waits .virtualReceiver) hpc (List.mem_singleton_self [])
    rw [if_pos F.ack_ack.symm] at hack
    have hne : e.count ≠ 0 := by
      intro h0
      have hfree := (he.free h0).1
      omega
    have hcount := he.pending hne
    exact ⟨e, he.lookup, by omega⟩

end Still

/-- The topic is pending and holds `data`. -/
def MsgBroker.Reference.Pends (m : Reference Task Task Buffer) (name : String)
    (data : Option Buffer) : Prop :=
  ∃ e, m.lookup name = some e ∧ e.count ≠ 0 ∧ e.data = data

section

variable {m m' : Reference Task Task Buffer} {ths ths' : Threads} {left : Outlet → ℕ}
  {name : String} {data : Option Buffer}

theorem MsgBroker.Reference.Pends.publish (h : m.Pends name data) (name' : String)
    (data' : Option Buffer) (datasize : ℕ) :
    (Reference.publish Threads.onTopicUpdate m name' data' datasize ths).1.Pends name data := by
  obtain ⟨e, he, hne, hdata⟩ := h
  by_cases hname : name = name'
  · subst hname
    rcases Reference.publish_cases m name data' datasize ths with
      ⟨-, e', -, heq⟩ | ⟨e', he', h0, -, -⟩
    · rw [heq]
      exact ⟨e, he, hne, hdata⟩
    · obtain rfl : e = e' := Option.some.inj (he.symm.trans he')
      exact absurd h0 hne
  · exact ⟨e, (Reference.lookup_publish_of_ne hname).trans he, hne, hdata⟩

/-- **A pending topic stays pending.** -/
theorem Still.pends (h : Still m ths left) {a : Access}
    (hmove : Move svcSignalWait m ths a m' ths') (hp : m.Pends name data) : m'.Pends name data := by
  cases hmove with
  | publish name' data' datasize => exact hp.publish name' (some data') datasize
  | stmt t hpc hnew happ =>
    rename_i st sts new ths₁
    generalize ha : t.access st = a at happ
    cases happ with
    | none => exact hp
    | publish name' data' datasize => exact hp.publish name' (some data') datasize
    | consumed hname =>
      rename_i name'
      obtain ⟨e, he, hne, hdata⟩ := hp
      by_cases heq : name = name'
      · subst heq
        obtain ⟨e', he', hcount⟩ := h.one_lt_count hpc ha
        obtain rfl : e = e' := Option.some.inj (he.symm.trans he')
        refine ⟨_, Reference.lookup_consumed_self he, ?_, hdata⟩
        change e.count - 1 ≠ 0
        omega
      · exact ⟨e, (Reference.lookup_consumed_of_ne heq).trans he, hne, hdata⟩
  | _ => exact hp

end

/-! ### The runs of the system -/

namespace World

variable {v v' : World (Reference Task Task Buffer)} {topics : List String} {l : Label}
  {sm : SysManager.Vars}

/-- The variables of `SysManager` are `sm`, and what has been sent and what is left to send are
bounded. -/
def Quiet (sm : SysManager.Vars) (v : World (Reference Task Task Buffer)) : Prop :=
  v.sys.sm = sm ∧ ∃ left, Still v.broker v.sys.ths left ∧
    v.sys.tx.length + (left .keyb + left .gps) ≤ 2

/-- A frame that `VirtualReceiver` sends was left to be sent. -/
theorem Quiet.sendCommand (h : v.Quiet sm) {cmd : UInt8} {size : ℕ}
    {sts : List VirtualReceiver.Stmt}
    (hpc : (v.sys.ths .virtualReceiver).pc = .body (.sendCommand cmd size :: sts))
    {u : World (Reference Task Task Buffer)} {new : List VirtualReceiver.Stmt}
    (hexec : VirtualReceiver.exec Reference.impl v (.sendCommand cmd size) = .ok (u, new)) :
    (u.setTh .virtualReceiver ⟨rtEvtClr (u.sys.ths .virtualReceiver).tcb
      (VirtualReceiver.loop.clr (.sendCommand cmd size)), .body (new ++ sts)⟩).Quiet sm := by
  obtain ⟨hsm, left, hstill, hle⟩ := h
  have hcalm := hstill.calm .virtualReceiver
  rw [Thread.todo, hpc] at hcalm
  obtain ⟨F, hF⟩ : ∃ F : Outlet, F.command.ack = .sendCommand cmd size :=
    hcalm _ List.mem_cons_self
  cases hexec
  rw [← hF] at hpc ⊢
  have hnew : [] ∈ VirtualReceiver.loop.next F.command.ack := by
    rw [hF]
    exact List.mem_singleton_self []
  obtain ⟨hpos, hstill'⟩ := hstill.command F hpc hnew fun st hst =>
    hcalm st (List.mem_cons_of_mem _ hst)
  refine ⟨hsm, _, hstill', ?_⟩
  change (v.sys.tx ++ [_]).length + _ ≤ 2
  rw [List.length_append, List.length_singleton]
  cases F with
  | keyb =>
    rw [Function.update_self, Function.update_of_ne (by decide)]
    omega
  | gps =>
    rw [Function.update_self, Function.update_of_ne (by decide)]
    omega

theorem Quiet.step (h : v.Quiet sm)
    (hst : (machine Reference.impl svcSignalWait topics).step v l = some v') : v'.Quiet sm := by
  have hquiet := h
  obtain ⟨hsm, left, hstill, hle⟩ := h
  have hstill' := hstill.move (move_of_step hst)
  cases step_cases hst with
  | edge | rxByte | txSent | write | timeout => exact ⟨hsm, left, hstill', hle⟩
  | publish name n datasize hu =>
    rw [Quiet, publish_sys hu]
    exact ⟨hsm, left, hstill', hle⟩
  | run t hrun =>
    rcases runTask_cases hrun with ⟨-, rfl⟩ | ⟨-, -, th, -, -, rfl⟩ | ⟨-, rfl⟩ |
      ⟨st, sts, u, new, hpc, hexec, rfl⟩
    · exact ⟨hsm, left, hstill', hle⟩
    · exact ⟨hsm, left, hstill', hle⟩
    · exact ⟨hsm, left, hstill', hle⟩
    · cases t with
      | keyDecoder =>
        have hsys := KeyDecoder.exec_sys hexec
        refine ⟨?_, left, hstill', ?_⟩
        · change u.sys.sm = sm
          rw [hsys]
          exact hsm
        · change u.sys.tx.length + _ ≤ 2
          rw [hsys]
          exact hle
      | sysManager =>
        -- `SysManager` has no statement to run
        have hcalm := hstill.calm .sysManager
        rw [Thread.todo, hpc] at hcalm
        cases hcalm
      | virtualReceiver =>
        change VirtualReceiver.Stmt at st
        change VirtualReceiver.exec Reference.impl v st = .ok (u, new) at hexec
        by_cases hst : st.frames = 0
        · refine ⟨?_, left, hstill', ?_⟩
          · change u.sys.sm = sm
            rw [VirtualReceiver.exec_sys hexec]
            exact hsm
          · change u.sys.tx.length + _ ≤ 2
            rw [(VirtualReceiver.exec_spec hexec).2.2.1, hst]
            exact hle
        · cases st with
          | sendCommand cmd size => exact hquiet.sendCommand hpc hexec
          | _ => exact absurd rfl hst

theorem Quiet.run {ls : List Label} (h : v.Quiet sm)
    (hrun : (machine Reference.impl svcSignalWait topics).run v ls = some v') : v'.Quiet sm :=
  Machine.Reachable.invariant ⟨ls, hrun⟩ h fun _ _ _ hquiet hst => hquiet.step hst

/-- Once a topic is pending, it is so in the whole run. -/
theorem Quiet.pends {ls : List Label} (h : v.Quiet sm)
    (hrun : (machine Reference.impl svcSignalWait topics).run v ls = some v') {name : String}
    {data : Option Buffer} (hp : v.broker.Pends name data) : v'.broker.Pends name data := by
  have hboth : v'.Quiet sm ∧ v'.broker.Pends name data :=
    Machine.Reachable.invariant (I := fun u => u.Quiet sm ∧ u.broker.Pends name data) ⟨ls, hrun⟩
      ⟨h, hp⟩ fun _ _ _ hu hst => by
        obtain ⟨left, hstill, -⟩ := hu.1.2
        exact ⟨hu.1.step hst, hstill.pends (move_of_step hst) hu.2⟩
  exact hboth.2

/-- The tasks enter their loops: nothing has been sent or published, and `SysManager` has attached
to the topics that `VirtualReceiver` forwards. -/
structure Entered (w : World (MsgBroker Task Task Buffer)) : Prop where
  /-- No task has waited yet. -/
  ths : ∀ t, w.sys.ths t = .init
  /-- Nothing has been sent. -/
  tx : w.sys.tx = []
  /-- The topics. -/
  topics : ∃ m : Reference Task Task Buffer, w.broker.Represents m ∧
    ∀ F : Outlet, ∃ e, m.lookup F.name = some e ∧ Attended e.observers ∧ e.count = 0

theorem attended_of_both {observers : List (Observer Task Task)} (h : Both observers) :
    Attended observers := by
  rcases h with rfl | rfl
  · exact ⟨⟨observer .sysManager, by decide⟩, by decide⟩
  · exact ⟨⟨observer .sysManager, by decide⟩, by decide⟩

/-- So they do when both tasks have attached. -/
theorem Start.entered {w : World (MsgBroker Task Task Buffer)} (h : w.Start) : w.Entered := by
  obtain ⟨hs, m, hm, gps, keyb, hgps, hkeyb, hentries⟩ := h
  refine ⟨hs.ths, hs.tx, m, hm, fun F => ?_⟩
  cases F with
  | keyb =>
    refine ⟨⟨Topic.sizeofKeyData, none, 0, keyb⟩, ?_, attended_of_both hkeyb, rfl⟩
    rw [OrderedMap.lookup, hentries]
    rfl
  | gps =>
    refine ⟨⟨Topic.sizeofGpsData, none, 0, gps⟩, ?_, attended_of_both hgps, rfl⟩
    rw [OrderedMap.lookup, hentries]
    rfl

theorem quiet_of_entered {m : Reference Task Task Buffer} {s : Sys} (hths : ∀ t, s.ths t = .init)
    (htx : s.tx = [])
    (hm : ∀ F : Outlet, ∃ e, m.lookup F.name = some e ∧ Attended e.observers ∧ e.count = 0) :
    Quiet s.sm ⟨m, s⟩ := by
  refine ⟨rfl, fun _ => 1, ⟨fun t => ?_, fun t => ?_, ?_, fun F => ?_⟩, ?_⟩
  · rw [hths t]
    exact Thread.waitsAll_init
  · rw [hths t]
    cases t with
    | keyDecoder => trivial
    | virtualReceiver =>
      intro st hst
      cases hst
    | sysManager => rfl
  · rw [hths .sysManager]
    exact SysManager.statDuty.owed_init
  · obtain ⟨e, he, hobs, hcount⟩ := hm F
    have hleft : F.left Thread.init e ≤ 1 := by
      unfold Outlet.left
      rw [hcount, if_pos rfl, F.command.owed_init]
    rw [hths .virtualReceiver]
    exact ⟨e, ⟨he, hobs, fun hne => absurd hcount hne,
      fun _ => ⟨F.ack.owed_init, F.command.owed_init⟩⟩, hleft⟩
  · rw [htx]
    exact Nat.le_refl 2

/-- **The system comes to a standstill.**  With the wait of the kernel, whatever the order of the
steps: `SysManager` changes none of its variables and so starts no pattern, `VirtualReceiver` sends
at most two frames, and a topic that has been published once is never published again: an update
that is accepted is counted for every observer of its topic, and a topic that is pending stays so,
with the same pointer to its data. -/
theorem standstill {w₀ w₁ w₂ : World (MsgBroker Task Task Buffer)} (h₀ : w₀.Entered)
    (topics : List String) {ls₁ ls₂ : List Label}
    (h₁ : (machine MsgBroker.impl svcSignalWait topics).run w₀ ls₁ = some w₁)
    (h₂ : (machine MsgBroker.impl svcSignalWait topics).run w₁ ls₂ = some w₂) :
    w₂.sys.sm = w₀.sys.sm ∧ w₂.sys.tx.length ≤ 2 ∧
      (∀ name data datasize w', w₁.publish MsgBroker.impl name data datasize =
          .ok (w', .noErrors) → ∃ e, MsgBroker.impl.entry w'.broker name = some e ∧
            e.data = some data ∧ e.count = e.observers.length) ∧
      ∀ name e, MsgBroker.impl.entry w₁.broker name = some e → e.count ≠ 0 →
        ∃ e', MsgBroker.impl.entry w₂.broker name = some e' ∧ e'.count ≠ 0 ∧ e'.data = e.data := by
  obtain ⟨hths, htx, m, hm, htopics⟩ := h₀
  have hbisim := mirrors_bisimulation svcSignalWait topics
  have hmirrors : w₀.Mirrors ⟨m, w₀.sys⟩ := ⟨hm, rfl⟩
  obtain ⟨v₁, hv₁, hwv₁⟩ := hbisim.run hmirrors h₁
  obtain ⟨v₂, hv₂, hwv₂⟩ := hbisim.run hwv₁ h₂
  have hquiet₁ := (quiet_of_entered hths htx htopics).run hv₁
  obtain ⟨hsm, left, -, hle⟩ := hquiet₁.run hv₂
  refine ⟨?_, ?_, fun _ _ _ _ hw => hwv₁.accepted hw, fun name e he hne => ?_⟩
  · rw [hwv₂.2]
    exact hsm
  · rw [hwv₂.2]
    exact Nat.le_of_add_right_le hle
  · rw [hwv₁.entry] at he
    obtain ⟨e', he', hne', hdata⟩ := hquiet₁.pends hv₂ ⟨e, he, hne, rfl⟩
    exact ⟨e', (hwv₂.entry name).trans he', hne', hdata⟩

/-- The calls of `main` and of `SysManager`: `main` starts no `VirtualReceiver`. -/
def mainCalls : List (MsgBroker.Call Task Task Buffer) := installTopics ++ attachSysManager

/-- The map that they lead to. -/
def mainSetup : Reference Task Task Buffer :=
  (Reference.run Threads.onTopicUpdate .empty (fun _ => .init) mainCalls).1.1

theorem exists_entered : ∃ w : World (MsgBroker Task Task Buffer),
    w.Entered ∧ w.Mirrors ⟨mainSetup, Sys.boot⟩ := by
  obtain ⟨b₀, -, h₀⟩ := represents_init (σ := Task) (κ := Task) (δ := Buffer)
  obtain ⟨b, -, hb⟩ := h₀.run Threads.onTopicUpdate (fun _ => .init) mainCalls
    ⟨trivial, trivial, trivial, trivial, trivial, trivial, trivial, trivial, trivial⟩
  refine ⟨⟨b, Sys.boot⟩, ⟨fun _ => rfl, rfl, mainSetup, hb, fun F => ?_⟩, hb, rfl⟩
  have hobs : Attended [observer .sysManager] :=
    ⟨⟨observer .sysManager, List.mem_singleton_self _, rfl⟩, by decide⟩
  cases F with
  | keyb => exact ⟨⟨Topic.sizeofKeyData, none, 0, [observer .sysManager]⟩, rfl, hobs, rfl⟩
  | gps => exact ⟨⟨Topic.sizeofGpsData, none, 0, [observer .sysManager]⟩, rfl, hobs, rfl⟩

theorem numKeys_pos : 0 < KeyDecoder.numKeys := by decide

/-- A key is pressed and released, `KeyDecoder` passes through its loop, and `SysManager` waits. -/
def keyStroke : List Label :=
  [.edge ⟨0, numKeys_pos⟩ true, .edge ⟨0, numKeys_pos⟩ false] ++
    List.replicate 22 (.run .keyDecoder) ++ [.run .sysManager]

/-- The program as `main` starts it, after one key stroke and while another one is answered: the
second update of `/keyb` is refused. -/
theorem standstill_keyStroke : ∃ w₀ w₁ w₂ : World (MsgBroker Task Task Buffer), w₀.Entered ∧
    (machine MsgBroker.impl svcSignalWait []).run w₀ keyStroke = some w₁ ∧
    (machine MsgBroker.impl svcSignalWait []).run w₁ (keyStroke.take 24) = some w₂ ∧
    w₂.sys.kd.exception = .topicPending ∧ w₂.sys.sm = w₀.sys.sm ∧ w₂.sys.tx.length ≤ 2 ∧
    ∀ name e, MsgBroker.impl.entry w₁.broker name = some e → e.count ≠ 0 →
      ∃ e', MsgBroker.impl.entry w₂.broker name = some e' ∧ e'.count ≠ 0 ∧ e'.data = e.data := by
  obtain ⟨w₀, h₀, hmirrors⟩ := exists_entered
  have hbisim := mirrors_bisimulation svcSignalWait []
  have hstrokes : ((machine Reference.impl svcSignalWait []).run ⟨mainSetup, Sys.boot⟩
      (keyStroke ++ keyStroke.take 24)).map (fun v => v.sys.kd.exception) =
        some .topicPending := by
    decide +kernel
  obtain ⟨v, hv, hexc⟩ := Option.map_eq_some_iff.1 hstrokes
  obtain ⟨w₂, hw₂, hwv⟩ := hbisim.symm.run hmirrors hv
  rw [Machine.run_append] at hw₂
  obtain ⟨w₁, hw₁, hw₂⟩ := Option.bind_eq_some_iff.1 hw₂
  obtain ⟨hsm, htx, -, hpends⟩ := standstill h₀ [] hw₁ hw₂
  refine ⟨w₀, w₁, w₂, h₀, hw₁, hw₂, ?_, hsm, htx, hpends⟩
  rw [hwv.2]
  exact hexc

end World

end UavTelemetry
