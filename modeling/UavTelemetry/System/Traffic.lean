import UavTelemetry.System.Mirror

/-!
# What a step does to topics and flags

Over the reference map, a step of the system changes the map and the threads in one of a few ways
(`Move`): an interrupt sets a flag, a task or its environment publishes, or a task takes a step of
its loop, in which it may consume a topic.  All invariants of topics and flags are proved from
these.

## Main definitions

* `Access` : what a statement does to the topics.
* `World.access` : what a step does to the topics.
* `Move` : what a step does to the map and the threads.
* `MsgBroker.Reference.layout` : what no step changes about the topics.

## Main results

* `Task.exec_access` : what the statements of the tasks do to the topics.
* `World.move_of_step` : every step is a move.
* `Move.layout_eq` : no step changes the sizes or the observers of the topics.
-/

namespace UavTelemetry

open Rtx MsgBroker

/-- A call of the broker that changes a topic. -/
inductive Access
  /-- The statement changes no topic. -/
  | none
  /-- The statement publishes. -/
  | publish (name : String) (data : Buffer) (datasize : ℕ)
  /-- The statement consumes. -/
  | consumed (name : String)
  deriving DecidableEq, Repr

/-- What an access does to the map and to the threads. -/
inductive Access.Applies (m : Reference Task Task Buffer) (ths : Threads) :
    Access → Reference Task Task Buffer → Threads → Prop
  | none : Applies m ths .none m ths
  | publish (name : String) (data : Buffer) (datasize : ℕ) :
    Applies m ths (.publish name data datasize)
      (Reference.publish Threads.onTopicUpdate m name (some data) datasize ths).1
      (Reference.publish Threads.onTopicUpdate m name (some data) datasize ths).2.2
  | consumed {name : String} (hname : m.lookup name ≠ .none) :
    Applies m ths (.consumed name) (m.consumed name).1 ths

/-- The call of the broker in a statement. -/
def Task.access : (t : Task) → t.Stmt → Access
  | .keyDecoder, .publish => .publish "/keyb" .keydata Topic.sizeofKeyData
  | .virtualReceiver, .publishAlarm => .publish "/alarm" .alarmdata Topic.sizeofAlarmData
  | .virtualReceiver, .publishStat => .publish "/stat" .alarmdata Topic.sizeofAlarmData
  | .virtualReceiver, .consumed topicname => .consumed topicname
  | .sysManager, .consumed topicname => .consumed topicname
  | _, _ => .none

variable {v v' : World (Reference Task Task Buffer)}

/-! ### Statements -/

theorem applies_publish {name : String} {data : Buffer} {datasize : ℕ} {e : MsgBroker.Exception}
    (h : v.publish Reference.impl name data datasize = .ok (v', e)) :
    Access.Applies v.broker v.sys.ths (.publish name data datasize) v'.broker v'.sys.ths := by
  cases h
  exact .publish name data datasize

theorem applies_consumed {name : String} {e : MsgBroker.Exception}
    (h : v.consumed Reference.impl name = .ok (v', e)) :
    Access.Applies v.broker v.sys.ths (.consumed name) v'.broker v'.sys.ths := by
  simp only [World.consumed, Reference.impl] at h
  cases hm : v.broker.lookup name with
  | none =>
    simp only [hm] at h
    cases h
  | some _ =>
    simp only [hm, ok_bind] at h
    cases h
    exact .consumed (by simp [hm])

theorem KeyDecoder.exec_access {st : KeyDecoder.Stmt} {new : List KeyDecoder.Stmt}
    (h : KeyDecoder.exec Reference.impl v st = .ok (v', new)) :
    new = [] ∧ Access.Applies v.broker v.sys.ths (Task.access .keyDecoder st) v'.broker
      v'.sys.ths := by
  cases st with
  | publish =>
    obtain ⟨⟨w, e⟩, hw, h⟩ := bind_eq_ok h
    have happ := applies_publish hw
    cases h
    exact ⟨rfl, happ⟩
  | _ =>
    cases h
    exact ⟨rfl, .none⟩

theorem SysManager.exec_access {st : SysManager.Stmt} {new : List SysManager.Stmt}
    (h : SysManager.exec Reference.impl v st = .ok (v', new)) :
    new = [] ∧ Access.Applies v.broker v.sys.ths (Task.access .sysManager st) v'.broker
      v'.sys.ths := by
  cases st with
  | consumed _ =>
    obtain ⟨⟨w, e⟩, hw, h⟩ := bind_eq_ok h
    have happ := applies_consumed hw
    cases h
    exact ⟨rfl, happ⟩
  | ledSwitch =>
    simp only [SysManager.exec] at h
    split at h
    · cases h
    · cases h
      exact ⟨rfl, .none⟩
  | _ =>
    cases h
    exact ⟨rfl, .none⟩

theorem VirtualReceiver.exec_access {st : VirtualReceiver.Stmt} {new : List VirtualReceiver.Stmt}
    (h : VirtualReceiver.exec Reference.impl v st = .ok (v', new)) :
    new ∈ st.next ∧ Access.Applies v.broker v.sys.ths (Task.access .virtualReceiver st)
      v'.broker v'.sys.ths := by
  cases st with
  | checkTimeout =>
    cases h
    refine ⟨?_, .none⟩
    split_ifs <;> simp [Stmt.next]
  | publishAlarm | publishStat =>
    obtain ⟨⟨w, e⟩, hw, h⟩ := bind_eq_ok h
    have happ := applies_publish hw
    cases h
    exact ⟨List.mem_singleton_self _, happ⟩
  | readSerial =>
    simp only [VirtualReceiver.exec] at h
    split at h
    · cases h
      exact ⟨by simp [Stmt.next], .none⟩
    · cases h
      refine ⟨?_, .none⟩
      unfold afterByte
      split_ifs <;> simp [Stmt.next]
  | consumed _ =>
    obtain ⟨⟨w, e⟩, hw, h⟩ := bind_eq_ok h
    have happ := applies_consumed hw
    cases h
    exact ⟨List.mem_singleton_self _, happ⟩
  | copyTopic _ =>
    simp only [VirtualReceiver.exec] at h
    split at h
    · cases h
    · simp only [pure_eq_ok, Except.ok.injEq, Prod.mk.injEq] at h
      obtain ⟨rfl, rfl⟩ := h
      rw [World.setVr_broker, World.setVr_ths]
      exact ⟨List.mem_singleton_self _, .none⟩
  | sendCommand _ _ =>
    simp only [VirtualReceiver.exec, pure_eq_ok, Except.ok.injEq, Prod.mk.injEq] at h
    obtain ⟨rfl, rfl⟩ := h
    exact ⟨List.mem_singleton_self _, .none⟩
  | getTopicData _ =>
    cases h
    exact ⟨List.mem_singleton_self _, .none⟩
  | _ =>
    simp only [VirtualReceiver.exec, pure_eq_ok, Except.ok.injEq, Prod.mk.injEq] at h
    obtain ⟨rfl, rfl⟩ := h
    rw [World.setVr_broker, World.setVr_ths]
    exact ⟨List.mem_singleton_self _, .none⟩

/-- **The statements of the tasks**: how they go on, and what they do to the topics. -/
theorem Task.exec_access {t : Task} {st : t.Stmt} {new : List t.Stmt}
    (h : t.exec Reference.impl v st = .ok (v', new)) :
    new ∈ t.loop.next st ∧
      Access.Applies v.broker v.sys.ths (t.access st) v'.broker v'.sys.ths := by
  cases t with
  | keyDecoder =>
    obtain ⟨hnew, happ⟩ := KeyDecoder.exec_access h
    exact ⟨List.mem_singleton.2 hnew, happ⟩
  | virtualReceiver => exact VirtualReceiver.exec_access h
  | sysManager =>
    obtain ⟨hnew, happ⟩ := SysManager.exec_access h
    exact ⟨List.mem_singleton.2 hnew, happ⟩

/-! ### Steps -/

/-- The call of the broker in a step. -/
def World.access {β : Type} (w : World β) : Label → Access
  | .publish name n datasize => .publish name (.other n) datasize
  | .run t =>
    match (w.sys.ths t).pc with
    | .body (st :: _) => t.access st
    | _ => .none
  | _ => .none

theorem World.access_run {β : Type} (w : World β) (t : Task) :
    w.access (.run t) = .none ∨
      ∃ st sts, (w.sys.ths t).pc = .body (st :: sts) ∧ w.access (.run t) = t.access st := by
  simp only [access]
  split
  · rename_i st sts hpc
    exact Or.inr ⟨st, sts, hpc, rfl⟩
  · exact Or.inl rfl

/-- What a step with a given call of the broker does to the map and the threads. -/
inductive Move (wait : OsTcb → BitVec 32 → ℕ → OsTcb) (m : Reference Task Task Buffer)
    (ths : Threads) : Access → Reference Task Task Buffer → Threads → Prop
  /-- Nothing. -/
  | idle : Move wait m ths .none m ths
  /-- An interrupt handler sets a flag. -/
  | interrupt (t : Task) {signals : Flags} (h : signals ∈ t.interrupts) :
    Move wait m ths .none m (ths.signalSet t signals)
  /-- Another task publishes. -/
  | publish (name : String) (data : Buffer) (datasize : ℕ) :
    Move wait m ths (.publish name data datasize)
      (Reference.publish Threads.onTopicUpdate m name (some data) datasize ths).1
      (Reference.publish Threads.onTopicUpdate m name (some data) datasize ths).2.2
  /-- A task calls `signal_wait`. -/
  | call (t : Task) (ms : ℕ) (hpc : (ths t).pc = .head) :
    Move wait m ths .none m (Function.update ths t ⟨wait (ths t).tcb t.loop.signals ms, .wait⟩)
  /-- `signal_wait` returns. -/
  | resume (t : Task) {th : Thread t.Stmt} (h : (ths t).resume t.loop.body = some th) :
    Move wait m ths .none m (Function.update ths t th)
  /-- A task comes to the end of the body of its loop. -/
  | done (t : Task) (hpc : (ths t).pc = .body []) :
    Move wait m ths .none m (Function.update ths t { ths t with pc := .head })
  /-- The timeout of a task expires. -/
  | expire (t : Task) {th : Thread t.Stmt} (h : (ths t).expire = some th) :
    Move wait m ths .none m (Function.update ths t th)
  /-- A task runs a statement. -/
  | stmt (t : Task) {st : t.Stmt} {sts new : List t.Stmt} {m' : Reference Task Task Buffer}
    {ths' : Threads} (hpc : (ths t).pc = .body (st :: sts)) (hnew : new ∈ t.loop.next st)
    (happ : (t.access st).Applies m ths m' ths') :
    Move wait m ths (t.access st) m'
      (Function.update ths' t ⟨rtEvtClr (ths' t).tcb (t.loop.clr st), .body (new ++ sts)⟩)

variable {wait : OsTcb → BitVec 32 → ℕ → OsTcb} {topics : List String} {l : Label}

theorem World.move_of_runTask {t : Task} (h : v.runTask Reference.impl wait t = some v') :
    Move wait v.broker v.sys.ths (v.access (.run t)) v'.broker v'.sys.ths := by
  simp only [World.runTask] at h
  split at h
  case h_1 hpc =>
    cases h
    simp only [access, hpc]
    exact .call t _ hpc
  case h_2 hpc =>
    obtain ⟨th, hth, rfl⟩ := Option.map_eq_some_iff.1 h
    simp only [access, hpc]
    exact .resume t hth
  case h_3 hpc =>
    cases h
    simp only [access, hpc]
    exact .done t hpc
  case h_4 st sts hpc =>
    -- a fault is no step
    unfold World.runStmt at h
    split at h
    · cases h
    · rename_i w new hexec
      cases h
      obtain ⟨hnew, happ⟩ := Task.exec_access hexec
      simp only [access, hpc]
      exact .stmt t hpc hnew happ

/-- **Every step is a move.** -/
theorem World.move_of_step (h : (machine Reference.impl wait topics).step v l = some v') :
    Move wait v.broker v.sys.ths (v.access l) v'.broker v'.sys.ths := by
  cases step_cases h with
  | edge i pressed hsignals => exact .interrupt .keyDecoder hsignals
  | rxByte b hsignals => exact .interrupt .virtualReceiver hsignals
  | txSent hsignals => exact .interrupt .virtualReceiver hsignals
  | write => exact .idle
  | publish name n datasize hu =>
    cases hu
    exact .publish name (.other n) datasize
  | timeout t hth => exact .expire t hth
  | run t hrun => exact move_of_runTask hrun

/-! ### What does not change -/

namespace MsgBroker

variable {m m' : Reference Task Task Buffer}

/-- The topics, with their sizes and observers. -/
def Reference.layout (m : Reference Task Task Buffer) :
    List (String × ℕ × List (Observer Task Task)) :=
  m.entries.map fun e => (e.1, e.2.datasize, e.2.observers)

theorem Reference.layout_modify {name : String} {f : TopicEntry → TopicEntry}
    (hf : ∀ e, (f e).datasize = e.datasize ∧ (f e).observers = e.observers) :
    Reference.layout (OrderedMap.modify m name f) = m.layout := by
  unfold layout OrderedMap.modify
  rw [List.map_map]
  refine List.map_congr_left fun e _ => ?_
  by_cases h : name = e.1
  · simp [h, hf e.2]
  · simp [h]

end MsgBroker

theorem layout_publish {m : Reference Task Task Buffer} {ths : Threads} {name : String}
    {data : Option Buffer} {datasize : ℕ} :
    (Reference.publish Threads.onTopicUpdate m name data datasize ths).1.layout = m.layout := by
  unfold Reference.publish
  split
  · rfl
  · split_ifs
    · rfl
    · rfl
    · exact Reference.layout_modify fun _ => ⟨rfl, rfl⟩

theorem Access.Applies.layout_eq {a : Access} {m m' : Reference Task Task Buffer}
    {ths ths' : Threads} (h : a.Applies m ths m' ths') : m'.layout = m.layout := by
  cases h with
  | none => rfl
  | publish => exact layout_publish
  | consumed hname =>
    unfold Reference.consumed
    split
    · rfl
    · exact Reference.layout_modify fun _ => ⟨rfl, rfl⟩

/-- The layout tells the size of a topic. -/
theorem MsgBroker.Reference.map_datasize_lookup (m : Reference Task Task Buffer) (name : String) :
    (m.lookup name).map Entry.datasize =
      (m.layout.find? fun x => name = x.1).map fun x => x.2.1 := by
  rw [layout, List.find?_map, OrderedMap.lookup, Option.map_map, Option.map_map]
  rfl

theorem Move.layout_eq {a : Access} {m m' : Reference Task Task Buffer} {ths ths' : Threads}
    (h : Move wait m ths a m' ths') : m'.layout = m.layout := by
  cases h with
  | publish => exact layout_publish
  | stmt _ _ _ happ => exact happ.layout_eq
  | _ => rfl

theorem Move.map_datasize_eq {a : Access} {m m' : Reference Task Task Buffer} {ths ths' : Threads}
    (h : Move wait m ths a m' ths') (name : String) :
    (m'.lookup name).map Entry.datasize = (m.lookup name).map Entry.datasize := by
  rw [Reference.map_datasize_lookup, Reference.map_datasize_lookup, h.layout_eq]

/-- No run changes the size of a topic. -/
theorem World.map_datasize_of_reachable (h : (machine Reference.impl wait topics).Reachable v v')
    (name : String) : (v'.broker.lookup name).map Entry.datasize =
      (v.broker.lookup name).map Entry.datasize :=
  h.invariant (I := fun u => (u.broker.lookup name).map Entry.datasize =
      (v.broker.lookup name).map Entry.datasize) rfl
    fun _ _ _ hsize hst => ((move_of_step hst).map_datasize_eq name).trans hsize

end UavTelemetry
