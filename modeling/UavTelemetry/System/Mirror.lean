import UavTelemetry.LTS.Bisimulation
import UavTelemetry.System.World

/-!
# The system over the reference map

The system does the same over the broker of the source and over the map that the broker stands
for.  What holds along the runs of the system may therefore be proved over the map.

## Main definitions

* `World.Mirrors` : the same system over the broker and over the map.

## Main results

* `World.mirrors_bisimulation` : the two machines behave alike.
* `World.exists_start` : the calls of `main` and of the tasks leave the broker as the loops
  expect it.
-/

namespace UavTelemetry

open Rtx

/-- Both results are faults, or both are values that are related. -/
def ExceptRel {ε α β : Type} (R : α → β → Prop) : Except ε α → Except ε β → Prop
  | .error _, .error _ => True
  | .ok a, .ok b => R a b
  | _, _ => False

theorem ExceptRel.cases {ε α β : Type} {R : α → β → Prop} {x : Except ε α} {y : Except ε β}
    (h : ExceptRel R x y) :
    (∃ e e', x = .error e ∧ y = .error e') ∨ ∃ a b, x = .ok a ∧ y = .ok b ∧ R a b := by
  cases x with
  | error e =>
    cases y with
    | error e' => exact Or.inl ⟨e, e', rfl, rfl⟩
    | ok _ => cases h
  | ok a =>
    cases y with
    | error _ => cases h
    | ok b => exact Or.inr ⟨a, b, rfl, rfl, h⟩

theorem ExceptRel.bind {α β γ δ : Type} {R : α → β → Prop} {S : γ → δ → Prop}
    {x : Except Fault α} {y : Except Fault β} {f : α → Except Fault γ} {g : β → Except Fault δ}
    (h : ExceptRel R x y) (hfg : ∀ a b, R a b → ExceptRel S (f a) (g b)) :
    ExceptRel S (x >>= f) (y >>= g) := by
  rcases h.cases with ⟨e, e', rfl, rfl⟩ | ⟨a, b, rfl, rfl, hab⟩
  · trivial
  · exact hfg a b hab

namespace World

open MsgBroker

/-- The same system over the broker and over the map that it stands for. -/
def Mirrors (w : World (MsgBroker Task Task Buffer)) (v : World (Reference Task Task Buffer)) :
    Prop :=
  w.broker.Represents v.broker ∧ w.sys = v.sys

variable {w : World (MsgBroker Task Task Buffer)} {v : World (Reference Task Task Buffer)}

/-- To go on with the same from systems that mirror each other. -/
theorem bind_mirrors {α γ δ : Type} {S : γ → δ → Prop}
    {x : Except Fault (World (MsgBroker Task Task Buffer) × α)}
    {y : Except Fault (World (Reference Task Task Buffer) × α)}
    {f : World (MsgBroker Task Task Buffer) × α → Except Fault γ}
    {g : World (Reference Task Task Buffer) × α → Except Fault δ}
    (h : ExceptRel (fun a b => a.1.Mirrors b.1 ∧ a.2 = b.2) x y)
    (hfg : ∀ b m s r, b.Represents m → ExceptRel S (f (⟨b, s⟩, r)) (g (⟨m, s⟩, r))) :
    ExceptRel S (x >>= f) (y >>= g) := by
  refine h.bind ?_
  rintro ⟨⟨b, s⟩, r⟩ ⟨⟨m, s'⟩, r'⟩ ⟨⟨hb, hs⟩, hr⟩
  obtain rfl : s = s' := hs
  obtain rfl : r = r' := hr
  exact hfg b m s r hb

/-! ### The operations of the broker -/

theorem Mirrors.publish (h : w.Mirrors v) (name : String) (data : Buffer) (datasize : ℕ) :
    ExceptRel (fun a b => a.1.Mirrors b.1 ∧ a.2 = b.2)
      (w.publish MsgBroker.impl name data datasize)
      (v.publish Reference.impl name data datasize) := by
  obtain ⟨hb, hs⟩ := h
  obtain ⟨b, hrun, hb'⟩ := hb.publish Threads.onTopicUpdate name (some data) datasize v.sys.ths
  simp only [World.publish, MsgBroker.impl, Reference.impl, hs, hrun, ok_bind, pure_eq_ok]
  exact ⟨⟨hb', rfl⟩, rfl⟩

theorem Mirrors.consumed (h : w.Mirrors v) (name : String) :
    ExceptRel (fun a b => a.1.Mirrors b.1 ∧ a.2 = b.2)
      (w.consumed MsgBroker.impl name) (v.consumed Reference.impl name) := by
  obtain ⟨hb, hs⟩ := h
  cases hm : v.broker.lookup name with
  | none =>
    -- `consumed` goes on with a null pointer
    obtain ⟨l, hl, hold⟩ := hb
    obtain ⟨l', hfind, -⟩ := findTopic_of_lookup_none hold hm
    simp only [World.consumed, MsgBroker.impl, Reference.impl, MsgBroker.consumed, hl, hfind, hm,
      ok_bind, consumedAt]
    trivial
  | some e =>
    have hname : v.broker.lookup name ≠ none := by simp [hm]
    obtain ⟨b, hrun, hb'⟩ := hb.consumed hname
    simp only [World.consumed, MsgBroker.impl, Reference.impl, hm, hrun, ok_bind, pure_eq_ok]
    exact ⟨⟨hb', hs⟩, rfl⟩

theorem Mirrors.getTopicData (h : w.Mirrors v) (name : String) :
    ExceptRel (fun a b => a.1.Mirrors b.1 ∧ a.2 = b.2)
      (w.getTopicData MsgBroker.impl name) (v.getTopicData Reference.impl name) := by
  obtain ⟨hb, hs⟩ := h
  obtain ⟨b, hrun, hb'⟩ := hb.getTopicData name
  simp only [World.getTopicData, MsgBroker.impl, Reference.impl, hrun, ok_bind, pure_eq_ok]
  exact ⟨⟨hb', hs⟩, rfl⟩

/-- The entry read off the lists is that of the map. -/
theorem Mirrors.entry (h : w.Mirrors v) (name : String) :
    MsgBroker.impl.entry w.broker name = Reference.impl.entry v.broker name := by
  simp only [MsgBroker.impl, Reference.impl, MsgBroker.entry, h.1.view, OrderedMap.lookup]

/-- An update that is accepted stays until each observer has consumed it. -/
theorem Mirrors.accepted {w w' : World (MsgBroker Task Task Buffer)}
    {v : World (Reference Task Task Buffer)} (h : w.Mirrors v) {name : String} {data : Buffer}
    {datasize : ℕ} (hw : w.publish MsgBroker.impl name data datasize = .ok (w', .noErrors)) :
    ∃ e, MsgBroker.impl.entry w'.broker name = some e ∧ e.data = some data ∧
      e.count = e.observers.length := by
  rcases (h.publish name data datasize).cases with ⟨_, _, hw', -⟩ | ⟨⟨w₁, x₁⟩, ⟨v₁, x₂⟩, hw', hv, hm, he⟩
  · rw [hw] at hw'
    cases hw'
  rw [hw] at hw'
  cases hw'
  obtain rfl : MsgBroker.Exception.noErrors = x₂ := he
  rw [hm.entry]
  cases hlookup : v.broker.lookup name with
  | none => simp [World.publish, Reference.impl, Reference.publish, hlookup] at hv
  | some e =>
    simp only [World.publish, Reference.impl, Reference.publish, hlookup] at hv
    split at hv
    · cases hv
    · split at hv
      · cases hv
      · cases hv
        exact ⟨_, OrderedMap.lookup_modify_self hlookup, rfl, rfl⟩

/-! ### The statements -/

/-- Two statements lead to the same. -/
abbrev SameExec {Stmt : Type}
    (x : Except Fault (World (MsgBroker Task Task Buffer) × List Stmt))
    (y : Except Fault (World (Reference Task Task Buffer) × List Stmt)) : Prop :=
  ExceptRel (fun a b => a.1.Mirrors b.1 ∧ a.2 = b.2) x y

theorem Mirrors.setKd (h : w.Mirrors v) (kd : KeyDecoder.Vars) : (w.setKd kd).Mirrors (v.setKd kd) :=
  ⟨h.1, by simp only [World.setKd, h.2]⟩

theorem Mirrors.setSm (h : w.Mirrors v) (sm : SysManager.Vars) : (w.setSm sm).Mirrors (v.setSm sm) :=
  ⟨h.1, by simp only [World.setSm, h.2]⟩

theorem Mirrors.setVr (h : w.Mirrors v) (vr : VirtualReceiver.Vars) :
    (w.setVr vr).Mirrors (v.setVr vr) :=
  ⟨h.1, by simp only [World.setVr, h.2]⟩

theorem Mirrors.keyDecoder_exec (h : w.Mirrors v) (st : KeyDecoder.Stmt) :
    SameExec (KeyDecoder.exec MsgBroker.impl w st) (KeyDecoder.exec Reference.impl v st) := by
  cases st with
  | publish =>
    exact bind_mirrors (h.publish _ _ _) fun _ _ _ _ hb => ⟨⟨hb, rfl⟩, rfl⟩
  | _ =>
    simp only [KeyDecoder.exec, h.2]
    exact ⟨h.setKd _, rfl⟩

theorem Mirrors.sysManager_exec (h : w.Mirrors v) (st : SysManager.Stmt) :
    SameExec (SysManager.exec MsgBroker.impl w st) (SysManager.exec Reference.impl v st) := by
  cases st with
  | signalClr _ => exact ⟨h, rfl⟩
  | beepStart _ _ =>
    simp only [SysManager.exec, h.2]
    exact ⟨h.setSm _, rfl⟩
  | consumed _ =>
    exact bind_mirrors (h.consumed _) fun _ _ _ _ hb => ⟨⟨hb, rfl⟩, rfl⟩
  | getTopicData _ =>
    exact bind_mirrors (h.getTopicData _) fun _ _ _ _ hb => ⟨⟨hb, rfl⟩, rfl⟩
  | ledSwitch =>
    simp only [SysManager.exec, h.2]
    cases v.sys.sm.statdata with
    | none => trivial
    | some p => exact ⟨h.setSm _, rfl⟩

theorem Mirrors.virtualReceiver_exec (h : w.Mirrors v) (st : VirtualReceiver.Stmt) :
    SameExec (VirtualReceiver.exec MsgBroker.impl w st)
      (VirtualReceiver.exec Reference.impl v st) := by
  cases st with
  | checkTimeout => exact ⟨h, by rw [h.2]⟩
  | publishAlarm | publishStat =>
    exact bind_mirrors (h.publish _ _ _) fun _ _ _ _ hb => ⟨⟨hb, rfl⟩, rfl⟩
  | readSerial =>
    simp only [VirtualReceiver.exec, h.2]
    cases v.sys.rx with
    | nil => exact ⟨h, rfl⟩
    | cons b rx => exact ⟨⟨h.1, rfl⟩, rfl⟩
  | getTopicData _ =>
    exact bind_mirrors (h.getTopicData _) fun _ _ _ _ hb => ⟨⟨hb, rfl⟩, rfl⟩
  | copyTopic _ =>
    simp only [VirtualReceiver.exec, h.2]
    cases v.sys.vr.topicdata with
    | none => trivial
    | some p => exact ⟨h.setVr _, rfl⟩
  | consumed _ =>
    exact bind_mirrors (h.consumed _) fun _ _ _ _ hb => ⟨⟨hb, rfl⟩, rfl⟩
  | sendCommand _ _ =>
    simp only [VirtualReceiver.exec, h.2]
    exact ⟨⟨h.1, rfl⟩, rfl⟩
  | _ =>
    simp only [VirtualReceiver.exec, h.2]
    exact ⟨h.setVr _, rfl⟩

theorem Mirrors.exec (h : w.Mirrors v) (t : Task) (st : t.Stmt) :
    SameExec (t.exec MsgBroker.impl w st) (t.exec Reference.impl v st) := by
  cases t with
  | keyDecoder => exact h.keyDecoder_exec st
  | virtualReceiver => exact h.virtualReceiver_exec st
  | sysManager => exact h.sysManager_exec st

/-! ### The steps -/

theorem Mirrors.setTh (h : w.Mirrors v) (t : Task) (th : Thread t.Stmt) :
    (w.setTh t th).Mirrors (v.setTh t th) :=
  ⟨h.1, by simp only [World.setTh, h.2]⟩

theorem Mirrors.map_setTh (h : w.Mirrors v) (t : Task) (th : Option (Thread t.Stmt)) :
    Option.Rel Mirrors (th.map (w.setTh t)) (th.map (v.setTh t)) := by
  cases th with
  | none => exact .none
  | some th => exact .some (h.setTh t th)

theorem Mirrors.runStmt (h : w.Mirrors v) (t : Task) (st : t.Stmt) (sts : List t.Stmt) :
    Option.Rel Mirrors (w.runStmt MsgBroker.impl t st sts) (v.runStmt Reference.impl t st sts) := by
  unfold World.runStmt
  rcases (h.exec t st).cases with ⟨e, e', hw, hv⟩ | ⟨⟨w', new⟩, ⟨v', new'⟩, hw, hv, h', hnew⟩
  · rw [hw, hv]
    exact .none
  · obtain rfl : new = new' := hnew
    replace h' : w'.Mirrors v' := h'
    simp only [hw, hv, h'.2]
    exact .some (h'.setTh _ _)

theorem Mirrors.runTask (h : w.Mirrors v) (wait : OsTcb → BitVec 32 → ℕ → OsTcb) (t : Task) :
    Option.Rel Mirrors (w.runTask MsgBroker.impl wait t) (v.runTask Reference.impl wait t) := by
  simp only [World.runTask, h.2]
  cases (v.sys.ths t).pc with
  | head => exact .some (h.setTh _ _)
  | wait => exact h.map_setTh _ _
  | body sts =>
    cases sts with
    | nil => exact .some (h.setTh _ _)
    | cons st sts => exact h.runStmt t st sts

/-- **The two machines behave alike**: a step is enabled over the broker exactly if it is over the
map, and leads to the same. -/
theorem mirrors_bisimulation (wait : OsTcb → BitVec 32 → ℕ → OsTcb) (topics : List String) :
    (machine MsgBroker.impl wait topics).Bisimulation (machine Reference.impl wait topics)
      Mirrors := by
  intro w v l h
  have hb := h.1
  cases l with
  | edge i pressed =>
    simp only [machine, step, signalSet, h.2]
    split_ifs
    · exact .none
    · exact .some ⟨hb, rfl⟩
    · exact .some ⟨hb, rfl⟩
  | rxByte b =>
    simp only [machine, step, signalSet, h.2]
    exact .some ⟨hb, rfl⟩
  | txSent =>
    simp only [machine, step, signalSet, h.2]
    exact .some ⟨hb, rfl⟩
  | write n bytes =>
    simp only [machine, step, h.2]
    exact .some ⟨hb, rfl⟩
  | publish name n datasize =>
    simp only [machine, step]
    split_ifs with hname
    · rcases (h.publish name (.other n) datasize).cases with
        ⟨e, e', hw, hv⟩ | ⟨r, r', hw, hv, h', -⟩
      · rw [hw, hv]
        exact .none
      · rw [hw, hv]
        exact .some h'
    · exact .none
  | timeout t =>
    simp only [machine, step, h.2]
    exact h.map_setTh _ _
  | run t => exact h.runTask wait t

/-! ### The start -/

/-- A system at its start mirrors one over a map. -/
theorem Start.mirrors (h : w.Start) :
    ∃ v : World (Reference Task Task Buffer), w.Mirrors v ∧ v.sys.Start ∧ v.broker.Ready := by
  obtain ⟨hs, m, hb, hm⟩ := h
  exact ⟨⟨m, w.sys⟩, ⟨hb, rfl⟩, hs, hm⟩

/-- **The calls of `main` and of the tasks** leave the broker as the loops expect it. -/
theorem exists_start :
    ∃ w : World (MsgBroker Task Task Buffer), w.Start ∧ w.Mirrors ⟨Reference.setup, Sys.boot⟩ := by
  obtain ⟨b₀, -, h₀⟩ := represents_init (σ := Task) (κ := Task) (δ := Buffer)
  obtain ⟨b, -, hb⟩ := h₀.run Threads.onTopicUpdate (fun _ => .init) MsgBroker.setup
    ⟨trivial, trivial, trivial, trivial, trivial, trivial, trivial, trivial, trivial, trivial,
      trivial⟩
  exact ⟨⟨b, Sys.boot⟩, ⟨Sys.start_boot, _, hb, Reference.ready_setup⟩, hb, rfl⟩

end World

end UavTelemetry
