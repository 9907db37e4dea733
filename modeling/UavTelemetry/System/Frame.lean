import UavTelemetry.System.Balance

/-!
# What a step leaves alone

The variables of a task and its place in its loop change only when the task itself takes a step.
The serial line is written by `VirtualReceiver` only, and what it has received is only added to.

## Main results

* `World.runTask_cases` : the four kinds of steps of a task.
* `World.pc_eq_of_step`, `World.kd_eq_of_step`, `World.line_eq_of_step` : what a step leaves alone.
* `World.change_of_step` : what a step does to the acknowledgements that other tasks owe.
* `Move.entry_of_pending` : a pending topic holds the data of the last accepted update.
* `Move.waitsAny` : a blocked task is in its wait, for any of its events.
-/

namespace UavTelemetry

open Rtx MsgBroker

section

variable {β : Type} {io : BrokerImpl β} {w w' : World β}

namespace World

theorem publish_sys {name : String} {data : Buffer} {datasize : ℕ} {e : MsgBroker.Exception}
    (h : w.publish io name data datasize = .ok (w', e)) :
    w'.sys = { w.sys with ths := w'.sys.ths } := by
  obtain ⟨⟨b, e', ths⟩, -, h⟩ := bind_eq_ok h
  cases h
  rfl

theorem consumed_sys {name : String} {e : MsgBroker.Exception}
    (h : w.consumed io name = .ok (w', e)) : w'.sys = w.sys := by
  obtain ⟨⟨b, e'⟩, -, h⟩ := bind_eq_ok h
  cases h
  rfl

theorem getTopicData_sys {name : String} {e : MsgBroker.Exception} {data : Option Buffer}
    (h : w.getTopicData io name = .ok (w', e, data)) : w'.sys = w.sys := by
  obtain ⟨⟨b, r⟩, -, h⟩ := bind_eq_ok h
  cases h
  rfl

/-- **The steps of a task**: it calls `signal_wait`, returns from it, comes to the end of the
body, or runs a statement. -/
theorem runTask_cases {wait : OsTcb → BitVec 32 → ℕ → OsTcb} {t : Task}
    (h : w.runTask io wait t = some w') :
    ((w.sys.ths t).pc = .head ∧
      w' = w.setTh t ⟨wait (w.sys.ths t).tcb t.loop.signals (w.sys.timeout t), .wait⟩) ∨
    ((w.sys.ths t).pc = .wait ∧ ∃ oe th, (w.sys.ths t).resume t.loop.body = some th ∧
      th.pc = .body (t.loop.body oe) ∧ w' = w.setTh t th) ∨
    ((w.sys.ths t).pc = .body [] ∧ w' = w.setTh t { w.sys.ths t with pc := .head }) ∨
    ∃ st sts u new, (w.sys.ths t).pc = .body (st :: sts) ∧ t.exec io w st = .ok (u, new) ∧
      w' = u.setTh t ⟨rtEvtClr (u.sys.ths t).tcb (t.loop.clr st), .body (new ++ sts)⟩ := by
  simp only [World.runTask] at h
  split at h
  case h_1 hpc => exact Or.inl ⟨hpc, (Option.some.inj h).symm⟩
  case h_2 hpc =>
    obtain ⟨th, hth, rfl⟩ := Option.map_eq_some_iff.1 h
    refine Or.inr (Or.inl ⟨hpc, (w.sys.ths t).tcb.ret, th, hth, ?_, rfl⟩)
    simp only [Thread.resume, hpc] at hth
    split_ifs at hth
    cases hth
    rfl
  case h_3 hpc => exact Or.inr (Or.inr (Or.inl ⟨hpc, (Option.some.inj h).symm⟩))
  case h_4 st sts hpc =>
    unfold World.runStmt at h
    split at h
    · cases h
    · rename_i u new hexec
      exact Or.inr (Or.inr (Or.inr ⟨st, sts, u, new, hpc, hexec, (Option.some.inj h).symm⟩))

/-- A statement that does not fault. -/
theorem runTask_of_exec {wait : OsTcb → BitVec 32 → ℕ → OsTcb} {t : Task} {st : t.Stmt}
    {sts new : List t.Stmt} (hpc : (w.sys.ths t).pc = .body (st :: sts))
    (hexec : t.exec io w st = .ok (w', new)) :
    w.runTask io wait t =
      some (w'.setTh t ⟨rtEvtClr (w'.sys.ths t).tcb (t.loop.clr st), .body (new ++ sts)⟩) := by
  simp only [runTask, hpc, runStmt, hexec]

end World

/-- What `KeyDecoder` does to everything but its variables. -/
theorem KeyDecoder.exec_sys {st : KeyDecoder.Stmt} {new : List KeyDecoder.Stmt}
    (h : KeyDecoder.exec io w st = .ok (w', new)) :
    w'.sys = { w.sys with ths := w'.sys.ths, kd := w'.sys.kd } := by
  cases st with
  | publish =>
    obtain ⟨⟨u, e⟩, hu, h⟩ := bind_eq_ok h
    have hsys := World.publish_sys hu
    cases h
    simp only [World.setKd]
    rw [hsys]
  | _ =>
    cases h
    rfl

/-- What `SysManager` does to everything but its variables. -/
theorem SysManager.exec_sys {st : SysManager.Stmt} {new : List SysManager.Stmt}
    (h : SysManager.exec io w st = .ok (w', new)) : w'.sys = { w.sys with sm := w'.sys.sm } := by
  cases st with
  | consumed _ =>
    obtain ⟨⟨u, e⟩, hu, h⟩ := bind_eq_ok h
    have hsys := World.consumed_sys hu
    cases h
    simp only [World.setSm]
    rw [hsys]
  | getTopicData _ =>
    obtain ⟨⟨u, e, data⟩, hu, h⟩ := bind_eq_ok h
    have hsys := World.getTopicData_sys hu
    cases h
    simp only [World.setSm]
    rw [hsys]
  | ledSwitch =>
    simp only [SysManager.exec] at h
    split at h
    · cases h
    · cases h
      rfl
  | _ =>
    cases h
    rfl

/-- What `VirtualReceiver` does to everything but its variables and the serial line. -/
theorem VirtualReceiver.exec_sys {st : VirtualReceiver.Stmt} {new : List VirtualReceiver.Stmt}
    (h : VirtualReceiver.exec io w st = .ok (w', new)) :
    w'.sys = { w.sys with
      ths := w'.sys.ths, vr := w'.sys.vr, rx := w'.sys.rx, tx := w'.sys.tx } := by
  cases st with
  | publishAlarm | publishStat =>
    obtain ⟨⟨u, e⟩, hu, h⟩ := bind_eq_ok h
    have hsys := World.publish_sys hu
    cases h
    simp only [World.setVr]
    rw [hsys]
  | consumed _ =>
    obtain ⟨⟨u, e⟩, hu, h⟩ := bind_eq_ok h
    have hsys := World.consumed_sys hu
    cases h
    simp only [World.setVr]
    rw [hsys]
  | getTopicData _ =>
    obtain ⟨⟨u, e, data⟩, hu, h⟩ := bind_eq_ok h
    have hsys := World.getTopicData_sys hu
    cases h
    simp only [World.setVr]
    rw [hsys]
  | readSerial =>
    simp only [VirtualReceiver.exec] at h
    split at h
    · cases h
      rfl
    · cases h
      rfl
  | copyTopic _ =>
    simp only [VirtualReceiver.exec] at h
    split at h
    · cases h
    · simp only [pure_eq_ok, Except.ok.injEq, Prod.mk.injEq] at h
      obtain ⟨rfl, rfl⟩ := h
      simp only [World.setVr]
  | checkTimeout =>
    cases h
    rfl
  | _ =>
    simp only [VirtualReceiver.exec, pure_eq_ok, Except.ok.injEq, Prod.mk.injEq] at h
    obtain ⟨rfl, rfl⟩ := h
    simp only [World.setVr]

end

/-! ### Places and variables -/

/-- What other tasks may do to what a task owes: it comes to owe one acknowledgement by an accepted
update. -/
inductive Feed.Change (F : Feed) (t : Task) (m : Reference Task Task Buffer) (ths ths' : Threads)
    (a : Access) : Prop
  /-- The task is notified of an accepted update. -/
  | notified (data : Buffer) (datasize : ℕ) (ha : a = .publish F.name data datasize)
    (hacc : (Reference.publish Threads.onTopicUpdate m F.name (some data) datasize ths).2.1 =
      .noErrors)
    (howed : F.owed t (ths t) = 0) (howed' : F.owed t (ths' t) = 1)
  /-- There is no accepted update. -/
  | same (ha : ∀ data datasize, a = .publish F.name data datasize →
      (Reference.publish Threads.onTopicUpdate m F.name (some data) datasize ths).2.1 ≠ .noErrors)
    (howed : F.owed t (ths' t) = F.owed t (ths t))

/-- The place of `KeyDecoder` in its loop. -/
def Sys.kdPc (s : Sys) : Pc KeyDecoder.Stmt := (s.ths .keyDecoder).pc

/-- The statements that `KeyDecoder` has left in this pass of its loop. -/
def Sys.kdTodo (s : Sys) : List KeyDecoder.Stmt :=
  match s.kdPc with
  | .body sts => sts
  | _ => []

theorem Sys.kdTodo_eq (s : Sys) : s.kdTodo = (s.ths .keyDecoder).todo := by
  unfold kdTodo kdPc Thread.todo
  cases (s.ths .keyDecoder).pc <;> rfl

theorem Sys.kdPc_of_kdTodo {s : Sys} {st : KeyDecoder.Stmt} {sts : List KeyDecoder.Stmt}
    (h : s.kdTodo = st :: sts) : s.kdPc = .body (st :: sts) := by
  rw [kdTodo_eq] at h
  exact Thread.pc_of_todo h

/-- The place of `VirtualReceiver` in its loop. -/
def Sys.vrPc (s : Sys) : Pc VirtualReceiver.Stmt := (s.ths .virtualReceiver).pc

/-- The statements that `VirtualReceiver` has left in this pass of its loop. -/
def Sys.vrTodo (s : Sys) : List VirtualReceiver.Stmt :=
  match s.vrPc with
  | .body sts => sts
  | _ => []

theorem Sys.vrTodo_eq (s : Sys) : s.vrTodo = (s.ths .virtualReceiver).todo := by
  unfold vrTodo vrPc Thread.todo
  cases (s.ths .virtualReceiver).pc <;> rfl

theorem Sys.vrTodo_of_body {s : Sys} {sts : List VirtualReceiver.Stmt} (h : s.vrPc = .body sts) :
    s.vrTodo = sts := by rw [vrTodo, h]

theorem Sys.vrPc_of_vrTodo {s : Sys} {st : VirtualReceiver.Stmt} {sts : List VirtualReceiver.Stmt}
    (h : s.vrTodo = st :: sts) : s.vrPc = .body (st :: sts) := by
  rw [vrTodo_eq] at h
  exact Thread.pc_of_todo h

theorem Sys.vrTodo_congr {s s' : Sys}
    (h : (s'.ths .virtualReceiver).pc = (s.ths .virtualReceiver).pc) : s'.vrTodo = s.vrTodo := by
  unfold vrTodo vrPc
  rw [h]

theorem Sys.vrTodo_eq_nil {s : Sys} (h : s.vrPc = .head ∨ s.vrPc = .wait) : s.vrTodo = [] := by
  rcases h with h | h
  · rw [vrTodo, h]
  · rw [vrTodo, h]

variable {wait : OsTcb → BitVec 32 → ℕ → OsTcb} {topics : List String} {l : Label}
  {v v' : World (Reference Task Task Buffer)}

theorem Access.Applies.pc_eq {a : Access} {m m' : Reference Task Task Buffer} {ths ths' : Threads}
    (h : a.Applies m ths m' ths') (t : Task) : (ths' t).pc = (ths t).pc := by
  cases h with
  | publish => exact Reference.publish_pc t
  | _ => rfl

namespace World

theorem pc_eq_of_runTask {t t' : Task} (h : v.runTask Reference.impl wait t' = some v')
    (hne : t ≠ t') : (v'.sys.ths t).pc = (v.sys.ths t).pc := by
  rcases runTask_cases h with ⟨-, rfl⟩ | ⟨-, -, th, -, -, rfl⟩ | ⟨-, rfl⟩ |
    ⟨st, sts, u, new, -, hexec, rfl⟩
  · rw [setTh_ths_of_ne _ hne]
  · rw [setTh_ths_of_ne _ hne]
  · rw [setTh_ths_of_ne _ hne]
  · rw [setTh_ths_of_ne _ hne]
    exact (Task.exec_access hexec).2.pc_eq t

theorem pc_eq_of_expire {t t' : Task} {th : Thread t'.Stmt}
    (h : (v.sys.ths t').expire = some th) : ((v.setTh t' th).sys.ths t).pc = (v.sys.ths t).pc := by
  by_cases ht : t = t'
  · subst ht
    unfold Thread.expire at h
    split_ifs at h
    cases h
    rw [setTh_ths_self]
  · rw [setTh_ths_of_ne _ ht]

theorem kdPc_setTh {β : Type} (w : World β) (th : Thread (Task.Stmt .keyDecoder)) :
    (w.setTh .keyDecoder th).sys.kdPc = th.pc :=
  congrArg Thread.pc (setTh_ths_self w .keyDecoder th)

theorem vrPc_setTh {β : Type} (w : World β) (th : Thread (Task.Stmt .virtualReceiver)) :
    (w.setTh .virtualReceiver th).sys.vrPc = th.pc :=
  congrArg Thread.pc (setTh_ths_self w .virtualReceiver th)

/-- A task moves in its loop only by its own steps. -/
theorem pc_eq_of_step {t : Task} (h : (machine Reference.impl wait topics).step v l = some v')
    (hne : l ≠ .run t) : (v'.sys.ths t).pc = (v.sys.ths t).pc := by
  cases step_cases h with
  | edge | rxByte | txSent => exact Threads.signalSet_pc _ _ _ _
  | write => rfl
  | publish name n datasize hu =>
    cases hu
    exact Reference.publish_pc t
  | timeout t' hth => exact pc_eq_of_expire hth
  | run t' hrun => exact pc_eq_of_runTask hrun fun ht => hne (by rw [ht])

section

variable {β : Type} {io : BrokerImpl β} {w w' : World β}

/-- The variables of `KeyDecoder` change only by its own steps. -/
theorem kd_eq_of_step (h : (machine io wait topics).step w l = some w')
    (hne : l ≠ .run .keyDecoder) : w'.sys.kd = w.sys.kd := by
  cases step_cases h with
  | edge | rxByte | txSent | write | timeout => rfl
  | publish name n datasize hu => rw [publish_sys hu]
  | run t hrun =>
    rcases runTask_cases hrun with ⟨-, rfl⟩ | ⟨-, -, th, -, -, rfl⟩ | ⟨-, rfl⟩ |
      ⟨st, sts, u, new, -, hexec, rfl⟩
    · rfl
    · rfl
    · rfl
    · change u.sys.kd = w.sys.kd
      cases t with
      | keyDecoder => exact absurd rfl hne
      | virtualReceiver => rw [VirtualReceiver.exec_sys hexec]
      | sysManager => rw [SysManager.exec_sys hexec]

/-- The variables of `VirtualReceiver` and what it has sent change only by its own steps, and no
other step takes away from what has been received. -/
theorem line_eq_of_step (h : (machine io wait topics).step w l = some w')
    (hne : l ≠ .run .virtualReceiver) :
    w'.sys.vr = w.sys.vr ∧ w'.sys.tx = w.sys.tx ∧ w.sys.rx <+: w'.sys.rx := by
  cases step_cases h with
  | edge | txSent | write | timeout => exact ⟨rfl, rfl, List.prefix_rfl⟩
  | rxByte b => exact ⟨rfl, rfl, List.prefix_append _ _⟩
  | publish name n datasize hu =>
    rw [publish_sys hu]
    exact ⟨rfl, rfl, List.prefix_rfl⟩
  | run t hrun =>
    rcases runTask_cases hrun with ⟨-, rfl⟩ | ⟨-, -, th, -, -, rfl⟩ | ⟨-, rfl⟩ |
      ⟨st, sts, u, new, -, hexec, rfl⟩
    · exact ⟨rfl, rfl, List.prefix_rfl⟩
    · exact ⟨rfl, rfl, List.prefix_rfl⟩
    · exact ⟨rfl, rfl, List.prefix_rfl⟩
    · change u.sys.vr = w.sys.vr ∧ u.sys.tx = w.sys.tx ∧ w.sys.rx <+: u.sys.rx
      cases t with
      | keyDecoder =>
        rw [KeyDecoder.exec_sys hexec]
        exact ⟨rfl, rfl, List.prefix_rfl⟩
      | virtualReceiver => exact absurd rfl hne
      | sysManager =>
        rw [SysManager.exec_sys hexec]
        exact ⟨rfl, rfl, List.prefix_rfl⟩

end

/-- The broker's answer to `KeyDecoder`. -/
theorem exception_of_publish {sts : List KeyDecoder.Stmt}
    (hpc : v.sys.kdPc = .body (.publish :: sts))
    (hst : v.runTask Reference.impl wait .keyDecoder = some v') :
    v'.sys.kd.exception = (Reference.publish Threads.onTopicUpdate v.broker "/keyb"
      (some .keydata) Topic.sizeofKeyData v.sys.ths).2.1 := by
  unfold Sys.kdPc at hpc
  simp only [runTask, hpc] at hst
  cases hst
  rfl

/-- The statement that stores the key code does not call the broker. -/
theorem broker_of_setKeydata {sts : List KeyDecoder.Stmt}
    (hpc : v.sys.kdPc = .body (.setKeydata :: sts))
    (hst : v.runTask Reference.impl wait .keyDecoder = some v') : v'.broker = v.broker := by
  unfold Sys.kdPc at hpc
  simp only [runTask, hpc] at hst
  cases hst
  rfl

/-- `KeyDecoder` stores the key code in one statement only. -/
theorem keydata_of_runTask (hst : v.runTask Reference.impl wait .keyDecoder = some v') :
    v'.sys.kd.keydata =
      if v.sys.kdTodo.head? = some .setKeydata then
        { v.sys.kd.keydata with keycode := v.sys.kd.currentkey ^^^ v.sys.kd.lastkey }
      else v.sys.kd.keydata := by
  rcases runTask_cases hst with ⟨hpc, rfl⟩ | ⟨hpc, -, th, -, -, rfl⟩ | ⟨hpc, rfl⟩ |
    ⟨st, sts, u, new, hpc, hexec, rfl⟩
  · have hkd : v.sys.kdPc = .head := hpc
    simp [Sys.kdTodo, hkd, setTh]
  · have hkd : v.sys.kdPc = .wait := hpc
    simp [Sys.kdTodo, hkd, setTh]
  · have hkd : v.sys.kdPc = .body [] := hpc
    simp [Sys.kdTodo, hkd, setTh]
  · have hkd : v.sys.kdPc = .body (st :: sts) := hpc
    change KeyDecoder.Stmt at st
    change KeyDecoder.exec Reference.impl v st = .ok (u, new) at hexec
    have hhead : v.sys.kdTodo.head? = some st := by
      rw [Sys.kdTodo, hkd]
      rfl
    change u.sys.kd.keydata = _
    rw [hhead]
    -- of all statements only `setKeydata` writes the key data
    cases st with
    | publish =>
      cases hexec
      rfl
    | readPin i =>
      cases hexec
      rw [if_neg (by simp)]
      simp only [World.setKd, KeyDecoder.Vars.exec]
      split_ifs
      · rfl
      · rfl
    | _ =>
      cases hexec
      rfl

/-- `KeyDecoder` never changes `_lastkey`. -/
theorem lastkey_of_runTask (hst : v.runTask Reference.impl wait .keyDecoder = some v') :
    v'.sys.kd.lastkey = v.sys.kd.lastkey := by
  rcases runTask_cases hst with ⟨-, rfl⟩ | ⟨-, -, th, -, -, rfl⟩ | ⟨-, rfl⟩ |
    ⟨st, sts, u, new, -, hexec, rfl⟩
  · rfl
  · rfl
  · rfl
  · change KeyDecoder.Stmt at st
    change KeyDecoder.exec Reference.impl v st = .ok (u, new) at hexec
    change u.sys.kd.lastkey = _
    cases st with
    | readPin i =>
      cases hexec
      simp only [World.setKd, KeyDecoder.Vars.exec]
      split_ifs
      · rfl
      · rfl
    | _ =>
      cases hexec
      rfl

/-- **What other tasks do to what a task owes.** -/
theorem change_of_step {F : Feed} {t : Task} (h : F.Balanced v.broker v.sys.ths)
    (hst : (machine Reference.impl wait topics).step v l = some v') (hne : l ≠ .run t)
    (ht : t ≠ .keyDecoder) : F.Change t v.broker v.sys.ths v'.sys.ths (v.access l) := by
  have hidle : (∀ data datasize, v.access l ≠ .publish F.name data datasize) →
      F.owed t (v'.sys.ths t) = F.owed t (v.sys.ths t) →
      F.Change t v.broker v.sys.ths v'.sys.ths (v.access l) :=
    fun hne howed => .same (fun data datasize ha => absurd ha (hne data datasize)) howed
  -- interrupt handlers raise no flag of the topic
  have hinterrupt : ∀ t' signals, signals ∈ Task.interrupts t' →
      F.owed t (v.sys.ths.signalSet t' signals t) = F.owed t (v.sys.ths t) :=
    fun t' signals hsignals => (Feed.Same.signalSet h.kept
      (fun d hd => (Feed.duty_answers hd).interrupts _ hsignals) t).2
  have hpublish : ∀ name data datasize, v.access l = .publish name data datasize →
      v'.sys.ths t = (Reference.publish Threads.onTopicUpdate v.broker name (some data) datasize
        v.sys.ths).2.2 t → F.Change t v.broker v.sys.ths v'.sys.ths (v.access l) := by
    intro name data datasize haccess hths
    rw [haccess]
    rcases h.publish_owed name (some data) datasize with ⟨rfl, hacc, howed⟩ | ⟨hno, hsame⟩
    · refine .notified data datasize rfl hacc (howed t ht).1 ?_
      rw [hths]
      exact (howed t ht).2
    · refine .same (fun data' datasize' haccess' => ?_) ?_
      · cases haccess'
        exact hno rfl
      · rw [hths]
        exact (hsame t).2
  cases step_cases hst with
  | edge i pressed hsignals => exact hidle (by simp [access]) (hinterrupt _ _ hsignals)
  | rxByte b hsignals => exact hidle (by simp [access]) (hinterrupt _ _ hsignals)
  | txSent hsignals => exact hidle (by simp [access]) (hinterrupt _ _ hsignals)
  | write => exact hidle (by simp [access]) rfl
  | publish name n datasize hu =>
    cases hu
    exact hpublish name (.other n) datasize rfl rfl
  | timeout t' hth =>
    exact hidle (by simp [access]) (Feed.Same.update h.kept (fun d _ hkept => hkept.expire hth) t).2
  | run t' hrun =>
    have htt' : t ≠ t' := fun heq => hne (by rw [heq])
    rcases runTask_cases hrun with ⟨hpc, rfl⟩ | ⟨hpc, -, th, -, -, rfl⟩ | ⟨hpc, rfl⟩ |
      ⟨st, sts, u, new, hpc, hexec, rfl⟩
    · exact hidle (by simp [access, hpc]) (by rw [setTh_ths_of_ne _ htt'])
    · exact hidle (by simp [access, hpc]) (by rw [setTh_ths_of_ne _ htt'])
    · exact hidle (by simp [access, hpc]) (by rw [setTh_ths_of_ne _ htt'])
    -- the step of another task: what counts is its call of the broker
    · have haccess : v.access (.run t') = t'.access st := by simp only [access, hpc]
      obtain ⟨-, happ⟩ := Task.exec_access hexec
      rw [← haccess] at happ
      rw [setTh_ths_of_ne _ htt'] at hpublish hidle
      generalize (u.setTh t' _).sys.ths = ths'' at hpublish hidle ⊢
      generalize v.access (.run t') = a at happ hpublish hidle ⊢
      generalize u.sys.ths = ths' at happ hpublish hidle
      generalize u.broker = m' at happ
      cases happ with
      | none => exact hidle (by simp) rfl
      | publish name data datasize => exact hpublish name data datasize rfl rfl
      | consumed hname => exact hidle (by simp) rfl

end World

/-! ### Topics -/

/-- A topic that is pending after a step has been before, with the same data, or has just been
updated. -/
theorem Move.entry_of_pending {a : Access} {m m' : Reference Task Task Buffer} {ths ths' : Threads}
    (hmove : Move wait m ths a m' ths') {name : String} {e' : TopicEntry}
    (he' : m'.lookup name = some e') (hpos : 0 < e'.count) :
    (∃ data datasize, a = .publish name data datasize ∧
      (Reference.publish Threads.onTopicUpdate m name (some data) datasize ths).2.1 = .noErrors ∧
      e'.data = some data) ∨
    ∃ e, m.lookup name = some e ∧ 0 < e.count ∧ e.data = e'.data := by
  have hpublish : ∀ name' data datasize, (Reference.publish Threads.onTopicUpdate m name'
      (some data) datasize ths).1.lookup name = some e' →
      (∃ d n, Access.publish name' data datasize = .publish name d n ∧
        (Reference.publish Threads.onTopicUpdate m name (some d) n ths).2.1 = .noErrors ∧
        e'.data = some d) ∨
      ∃ e, m.lookup name = some e ∧ 0 < e.count ∧ e.data = e'.data := by
    intro name' data datasize he'
    by_cases hname : name = name'
    · subst hname
      rcases Reference.publish_cases m name (some data) datasize ths with
        ⟨-, e, -, heq⟩ | ⟨e, he, -, -, heq⟩
      · rw [heq] at he'
        exact Or.inr ⟨e', he', hpos, rfl⟩
      · refine Or.inl ⟨data, datasize, rfl, by rw [heq], ?_⟩
        rw [heq, OrderedMap.lookup_modify_self he] at he'
        cases he'
        rfl
    · rw [Reference.lookup_publish_of_ne hname] at he'
      exact Or.inr ⟨e', he', hpos, rfl⟩
  cases hmove with
  | publish name' data datasize => exact hpublish name' data datasize he'
  | stmt t hpc hnew happ =>
    generalize t.access _ = a at happ
    cases happ with
    | none => exact Or.inr ⟨e', he', hpos, rfl⟩
    | publish name' data datasize => exact hpublish name' data datasize he'
    | consumed hname' =>
      -- the count after `consumed` is positive, so it was before
      rename_i name'
      by_cases hname : name = name'
      · subst hname
        obtain ⟨e, he⟩ := Option.ne_none_iff_exists'.1 hname'
        rw [Reference.lookup_consumed_self he] at he'
        cases he'
        exact Or.inr ⟨e, he, Nat.lt_of_lt_of_le hpos (Nat.sub_le _ _), rfl⟩
      · rw [Reference.lookup_consumed_of_ne hname] at he'
        exact Or.inr ⟨e', he', hpos, rfl⟩
  | _ => exact Or.inr ⟨e', he', hpos, rfl⟩

/-! ### Waiting -/

/-- Every task waits for any of its events. -/
def Threads.WaitAny (ths : Threads) : Prop := ∀ t, (ths t).WaitsAny t.loop.events

theorem Threads.WaitAny.update {ths : Threads} (h : ths.WaitAny) {t : Task} {th : Thread t.Stmt}
    (hth : th.WaitsAny t.loop.events) : Threads.WaitAny (Function.update ths t th) := by
  intro t'
  by_cases ht : t' = t
  · subst ht
    rwa [Function.update_self]
  · rw [Function.update_of_ne ht]
    exact h t'

theorem Threads.WaitAny.onTopicUpdate {ths : Threads} (h : ths.WaitAny) (notify subscriber : Task)
    (name : String) : Threads.WaitAny (Threads.onTopicUpdate notify subscriber name ths) := by
  unfold Threads.onTopicUpdate
  cases notify.onTopicUpdateCallback name with
  | none => exact h
  | some signals => exact h.update ((h notify).signalSet signals).1

theorem Threads.WaitAny.publish {m : Reference Task Task Buffer} {ths : Threads} (h : ths.WaitAny)
    (name : String) (data : Option Buffer) (datasize : ℕ) :
    Threads.WaitAny
      (Reference.publish Threads.onTopicUpdate m name data datasize ths).2.2 := by
  have hnotify : ∀ (observers : List (Observer Task Task)) (ths : Threads), ths.WaitAny →
      Threads.WaitAny (Reference.notifyAll Threads.onTopicUpdate name observers ths) := by
    intro observers
    induction observers with
    | nil => exact fun _ h => h
    | cons obs observers ih => exact fun ths h => ih _ (h.onTopicUpdate obs.notify obs.observer name)
  rcases Reference.publish_cases m name data datasize ths with ⟨-, e, -, heq⟩ | ⟨e, -, -, -, heq⟩
  · rw [heq]
    exact h
  · rw [heq]
    exact hnotify _ _ h

/-- A blocked task is in its wait, for any of its events. -/
theorem Move.waitsAny {a : Access} {m m' : Reference Task Task Buffer} {ths ths' : Threads}
    (hmove : Move svcSignalWaitAny m ths a m' ths') (h : ths.WaitAny) : ths'.WaitAny := by
  cases hmove with
  | idle => exact h
  | interrupt t _ => exact h.update ((h t).signalSet _).1
  | publish name data datasize => exact h.publish name (some data) datasize
  | call t ms hpc => exact h.update ((h t).call hpc EventLoop.setWidth_signals ms).1
  | resume t hres => exact h.update ((h t).resume hres).1
  | done t hpc =>
    have hrun := (h t).not_blocked (by simp [hpc])
    exact h.update (Thread.waitsAny_of_not_blocked hrun ((h t).not_delayed hrun))
  | expire t hexp => exact h.update ((h t).expire hexp).1
  | stmt t hpc hnew happ =>
    rename_i st sts new ths₁
    -- the call of the broker first, then the place of the task that made it
    have h' : ths₁.WaitAny := by
      generalize t.access st = a at happ
      cases happ with
      | none => exact h
      | publish name data datasize => exact h.publish name (some data) datasize
      | consumed _ => exact h
    have hpc' := happ.pc_eq t
    rw [hpc] at hpc'
    exact h'.update ((h' t).exec (by simp [hpc']) (by simp) _).1

end UavTelemetry
