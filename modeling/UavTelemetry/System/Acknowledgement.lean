import UavTelemetry.System.Balance

/-!
# Every notification is acknowledged

Once `SysManager` and `VirtualReceiver` have done all that they were notified of, no topic should
be pending, so that the next update is accepted.  This holds of `/keyb` and `/gps`.  `SysManager`
answers an update of `/alarm` without consuming it, and its callback ignores the updates of
`/stat`, so a topic of these two is pending for ever after its first accepted update.

## Main definitions

* `Task.AtRest` : a task is back at `signal_wait` with nothing to do.
* `World.Acknowledged` : when the subscribers are at rest, no topic is pending.
* `World.SparesAlarmAndStat` : the step is no update of `/alarm` or `/stat` of the right size.

## Main results

* `World.acknowledged_of_sparesAlarmAndStat` : every notification is acknowledged in the runs
  without such updates.
-/

namespace UavTelemetry

open Rtx MsgBroker

/-- A task is back at `signal_wait`, and none of the events that it waits for is pending. -/
def Task.AtRest (t : Task) (th : Thread t.Stmt) : Prop :=
  (th.pc = .head ∨ th.pc = .wait ∧ th.tcb.Blocked) ∧ th.tcb.events &&& t.loop.events = 0

namespace World

variable {β : Type}

/-- When both subscribers are at rest no topic is pending, and the next update of the right size
is accepted. -/
def Acknowledged (io : BrokerImpl β) (w : World β) : Prop :=
  Task.AtRest .sysManager (w.sys.ths .sysManager) →
  Task.AtRest .virtualReceiver (w.sys.ths .virtualReceiver) →
    ∀ name e, io.entry w.broker name = some e →
      e.count = 0 ∧ ∀ data, ∃ w', w.publish io name data e.datasize = .ok (w', .noErrors)

/-- The step does not publish an update of `/alarm` or `/stat` of the right size. -/
def SparesAlarmAndStat (w : World β) (l : Label) : Prop :=
  ∀ data, w.access l ≠ .publish "/alarm" data Topic.sizeofAlarmData ∧
    w.access l ≠ .publish "/stat" data Topic.sizeofStatusData

instance (w : World β) (l : Label) : Decidable (w.SparesAlarmAndStat l) :=
  match h : w.access l with
  | .publish name _ datasize =>
    decidable_of_iff (¬ (name = "/alarm" ∧ datasize = Topic.sizeofAlarmData) ∧
      ¬ (name = "/stat" ∧ datasize = Topic.sizeofStatusData)) <| by
        simp only [SparesAlarmAndStat, h, ne_eq, Access.publish.injEq]
        grind
  | .consumed _ => isTrue fun _ => by simp [h]
  | .none => isTrue fun _ => by simp [h]

end World

/-! ### Over the reference map -/

namespace MsgBroker.Reference

variable {m m' : Reference Task Task Buffer} {name : String} {size : ℕ}

/-- A topic is installed with a size, and is not pending. -/
def Free (m : Reference Task Task Buffer) (name : String) (size : ℕ) : Prop :=
  ∃ e, m.lookup name = some e ∧ e.datasize = size ∧ e.count = 0

/-- A topic stays free unless an update of its size is published. -/
theorem Free.move {wait : OsTcb → BitVec 32 → ℕ → OsTcb} {ths ths' : Threads} {a : Access}
    (h : m.Free name size) (hmove : Move wait m ths a m' ths')
    (ha : ∀ data, a ≠ .publish name data size) : m'.Free name size := by
  obtain ⟨e, he, hsize, hcount⟩ := h
  have hpublish : ∀ name' data datasize,
      (∀ d, Access.publish name' data datasize ≠ .publish name d size) →
      (Reference.publish Threads.onTopicUpdate m name' (some data) datasize ths).1.Free name
        size := by
    intro name' data datasize hne
    by_cases hname : name = name'
    · subst hname
      rcases publish_cases m name (some data) datasize ths with ⟨-, e', -, heq⟩ | ⟨e', he', -, hs, -⟩
      · rw [heq]
        exact ⟨e, he, hsize, hcount⟩
      -- an accepted update has the size of the topic
      · obtain rfl : e = e' := Option.some.inj (he.symm.trans he')
        exact absurd (by rw [hs, hsize]) (hne data)
    · exact ⟨e, by rw [lookup_publish_of_ne hname, he], hsize, hcount⟩
  cases hmove with
  | publish name' data datasize => exact hpublish name' data datasize ha
  | stmt t hpc hnew happ =>
    generalize t.access _ = a at happ ha
    cases happ with
    | none => exact ⟨e, he, hsize, hcount⟩
    | publish name' data datasize => exact hpublish name' data datasize ha
    | consumed hname' =>
      rename_i name'
      -- the decrement stops at `0`
      by_cases hname : name = name'
      · subst hname
        refine ⟨_, lookup_consumed_self he, hsize, ?_⟩
        change e.count - 1 = 0
        rw [hcount]
      · exact ⟨e, by rw [lookup_consumed_of_ne hname, he], hsize, hcount⟩
  | _ => exact ⟨e, he, hsize, hcount⟩

/-- An update of the right size of a topic that is not pending is accepted. -/
theorem publish_of_count_eq_zero {e : TopicEntry} (he : m.lookup name = some e) (h : e.count = 0)
    (data : Option Buffer) (ths : Threads) :
    (Reference.publish Threads.onTopicUpdate m name data e.datasize ths).2.1 = .noErrors := by
  rcases publish_cases m name data e.datasize ths with ⟨hno, -⟩ | ⟨e', -, -, -, heq⟩
  · rcases hno with hno | ⟨e', he', hno⟩
    · rw [he] at hno
      cases hno
    · obtain rfl : e = e' := Option.some.inj (he.symm.trans he')
      exact absurd hno (by simp [h])
  · rw [heq]

end MsgBroker.Reference

/-- A task at rest owes nothing. -/
theorem Feed.owed_of_atRest {F : Feed} {t : Task} {th : Thread t.Stmt} (h : t.AtRest th) :
    F.owed t th = 0 := by
  obtain ⟨hpc, hevents⟩ := h
  unfold Feed.owed
  cases hd : F.duty t with
  | none => rfl
  | some d =>
    have hpending : th.pending d.bit = false := getLsbD_eq_false_of_and_eq_zero hevents d.bit_mem
    rcases hpc with hpc | ⟨hpc, hb⟩
    · simp [Duty.owed, Thread.notified, Thread.granted, Thread.todo, hpc, hpending]
    · simp [Duty.owed, Thread.notified, Thread.granted, Thread.todo, hpc, hpending, hb]

namespace World

variable {v v' : World (Reference Task Task Buffer)}

/-- What keeps every notification acknowledged: the balance of `/keyb` and `/gps`, and that
`/alarm` and `/stat` have not been updated. -/
structure Settled (v : World (Reference Task Task Buffer)) : Prop where
  /-- `/keyb` is balanced. -/
  keyb : Feed.keyb.Balanced v.broker v.sys.ths
  /-- `/gps` is balanced. -/
  gps : Feed.gps.Balanced v.broker v.sys.ths
  /-- `/alarm` is free. -/
  alarm : v.broker.Free "/alarm" Topic.sizeofAlarmData
  /-- `/stat` is free. -/
  stat : v.broker.Free "/stat" Topic.sizeofStatusData
  /-- There are no other topics. -/
  topics : v.broker.layout.map Prod.fst = ["/gps", "/keyb", "/alarm", "/stat"]

theorem Settled.acknowledged (h : v.Settled) : v.Acknowledged Reference.impl := by
  intro hsm hvr name e he
  have hname : name ∈ ["/gps", "/keyb", "/alarm", "/stat"] := by
    rw [← h.topics, Reference.layout, List.map_map]
    change name ∈ v.broker.keys
    by_contra hno
    have hnone := OrderedMap.lookup_eq_none_iff.2 hno
    rw [show v.broker.lookup name = some e from he] at hnone
    cases hnone
  -- of `/keyb` and `/gps` the count is what the subscribers owe
  have hfeed : ∀ F : Feed, F.Balanced v.broker v.sys.ths → name = F.name → e.count = 0 := by
    intro F hF hname
    obtain ⟨e', he', -, hcount⟩ := hF.entry
    obtain rfl : e = e' := Option.some.inj (he.symm.trans (hname ▸ he'))
    rw [hcount, Feed.owed_of_atRest hsm, Feed.owed_of_atRest hvr]
  -- `/alarm` and `/stat` have never been updated
  have hfree : ∀ size, v.broker.Free name size → e.count = 0 := by
    rintro size ⟨e', he', -, hcount⟩
    obtain rfl : e = e' := Option.some.inj (he.symm.trans he')
    exact hcount
  have hcount : e.count = 0 := by
    simp only [List.mem_cons, List.not_mem_nil, or_false] at hname
    rcases hname with rfl | rfl | rfl | rfl
    · exact hfeed .gps h.gps rfl
    · exact hfeed .keyb h.keyb rfl
    · exact hfree _ h.alarm
    · exact hfree _ h.stat
  refine ⟨hcount, fun data => ?_⟩
  have haccept := Reference.publish_of_count_eq_zero he hcount (some data) v.sys.ths
  simp only [publish, Reference.impl, ok_bind, pure_eq_ok, haccept]
  exact ⟨_, rfl⟩

theorem Settled.step {topics : List String} {l : Label} (h : v.Settled)
    (hspare : v.SparesAlarmAndStat l)
    (hst : (machine Reference.impl svcSignalWaitAny topics).step v l = some v') : v'.Settled := by
  have hmove := move_of_step hst
  exact ⟨h.keyb.move hmove, h.gps.move hmove, h.alarm.move hmove fun data => (hspare data).1,
    h.stat.move hmove fun data => (hspare data).2, by rw [hmove.layout_eq, h.topics]⟩

theorem settled_start (hs : v.sys.Start) (hm : v.broker.Ready) : v.Settled := by
  obtain ⟨gps, keyb, hgps, hkeyb, hentries⟩ := hm
  have hlookup : ∀ name, v.broker.lookup name = _ := fun name => by
    rw [OrderedMap.lookup, hentries]
  exact ⟨.start hs.ths ⟨_, hlookup "/keyb", hkeyb, rfl⟩, .start hs.ths ⟨_, hlookup "/gps", hgps, rfl⟩,
    ⟨_, hlookup "/alarm", rfl, rfl⟩, ⟨_, hlookup "/stat", rfl, rfl⟩,
    by rw [Reference.layout, hentries]; rfl⟩

/-! ### Over the broker of the source -/

section

variable {w : World (MsgBroker Task Task Buffer)}

theorem Mirrors.acknowledged_iff (h : w.Mirrors v) :
    w.Acknowledged MsgBroker.impl ↔ v.Acknowledged Reference.impl := by
  unfold Acknowledged
  rw [h.2]
  refine imp_congr_right fun _ => imp_congr_right fun _ => forall_congr' fun name =>
    forall_congr' fun e => ?_
  rw [h.entry]
  refine imp_congr_right fun _ => and_congr_right fun _ => forall_congr' fun data => ?_
  -- over the map the publication has the same exception
  rcases (h.publish name data e.datasize).cases with
    ⟨_, _, hw, hv⟩ | ⟨⟨w', e₁⟩, ⟨v', e₂⟩, hw, hv, -, he⟩
  · simp [hw, hv]
  · obtain rfl : e₁ = e₂ := he
    simp [hw, hv]

theorem Mirrors.sparesAlarmAndStat_iff (h : w.Mirrors v) (l : Label) :
    w.SparesAlarmAndStat l ↔ v.SparesAlarmAndStat l := by
  unfold SparesAlarmAndStat access
  rw [h.2]

end

/-- **Every notification is acknowledged, under a condition**: if no step of a run publishes an
update of `/alarm` or `/stat` of the right size, then in every state of the run in which
`SysManager` and `VirtualReceiver` are at rest no topic is pending and the next update of any
topic is accepted. -/
theorem acknowledged_of_sparesAlarmAndStat (topics : List String)
    {w : World (MsgBroker Task Task Buffer)} (h : w.Start) {ls : List Label}
    (hls : (machine MsgBroker.impl svcSignalWaitAny topics).AllSteps SparesAlarmAndStat w ls) :
    (machine MsgBroker.impl svcSignalWaitAny topics).AllStates (Acknowledged MsgBroker.impl) w
      ls := by
  obtain ⟨v, hwv, hs, hm⟩ := h.mirrors
  have hbisim := mirrors_bisimulation svcSignalWaitAny topics
  rw [hbisim.allStates_iff (fun _ _ h => h.acknowledged_iff) hwv]
  rw [hbisim.allSteps_iff (fun _ _ l h => h.sparesAlarmAndStat_iff l) hwv] at hls
  exact (Machine.allStates_of_allSteps (settled_start hs hm)
    (fun _ _ _ h hspare hst => h.step hspare hst) hls).mono fun _ h => h.acknowledged

/-- Another task publishes `/gps`, `SysManager` beeps twice, and `VirtualReceiver` sends the position
and consumes it. -/
def gpsAnswered : List Label :=
  .publish "/gps" 0 Topic.sizeofGpsData ::
    (List.replicate 6 (.run .sysManager) ++ List.replicate 9 (.run .virtualReceiver))

/-- Both tasks are at rest again, and the topic is not pending. -/
theorem acknowledged_gps : ∃ w w' : World (MsgBroker Task Task Buffer), w.Start ∧
    (machine MsgBroker.impl svcSignalWaitAny ["/gps"]).run w gpsAnswered = some w' ∧
    Task.AtRest .sysManager (w'.sys.ths .sysManager) ∧
    Task.AtRest .virtualReceiver (w'.sys.ths .virtualReceiver) ∧
    (∃ e, MsgBroker.impl.entry w'.broker "/gps" = some e ∧ e.count = 0) ∧
    (machine MsgBroker.impl svcSignalWaitAny ["/gps"]).AllStates (Acknowledged MsgBroker.impl) w
      gpsAnswered := by
  obtain ⟨w, hw, hmirrors⟩ := exists_start
  have hbisim := mirrors_bisimulation svcSignalWaitAny ["/gps"]
  have hspares : (machine Reference.impl svcSignalWaitAny ["/gps"]).AllSteps SparesAlarmAndStat
      ⟨Reference.setup, Sys.boot⟩ gpsAnswered := by decide +kernel
  have hall := acknowledged_of_sparesAlarmAndStat ["/gps"] hw
    ((hbisim.allSteps_iff (fun _ _ l h => h.sparesAlarmAndStat_iff l) hmirrors).2 hspares)
  obtain ⟨v, hrun, hsm, hvr, e, he⟩ : ∃ v : World (Reference Task Task Buffer),
      (machine Reference.impl svcSignalWaitAny ["/gps"]).run ⟨Reference.setup, Sys.boot⟩
        gpsAnswered = some v ∧
      Task.AtRest .sysManager (v.sys.ths .sysManager) ∧
      Task.AtRest .virtualReceiver (v.sys.ths .virtualReceiver) ∧
      ∃ e, Reference.impl.entry v.broker "/gps" = some e :=
    ⟨_, rfl, ⟨.inl rfl, rfl⟩, ⟨.inl rfl, rfl⟩, _, rfl⟩
  obtain ⟨w', hrun', hm⟩ := hbisim.symm.run hmirrors hrun
  rw [← hm.2] at hsm hvr
  rw [← hm.entry] at he
  exact ⟨w, w', hw, hrun', hsm, hvr, ⟨e, he, (hall.last hrun' hsm hvr "/gps" e he).1⟩, hall⟩

/-- After one update of `/alarm`, which `SysManager` has answered, the topic is still pending. -/
theorem not_acknowledged_alarm :
    ¬ ∀ (topics : List String) (w : World (MsgBroker Task Task Buffer)), w.Start →
      ∀ ls, (machine MsgBroker.impl svcSignalWaitAny topics).AllStates
        (Acknowledged MsgBroker.impl) w ls := by
  intro h
  obtain ⟨w, hw, hmirrors⟩ := exists_start
  have hall := h ["/alarm"] w hw
    (.publish "/alarm" 0 Topic.sizeofAlarmData :: List.replicate 5 (.run .sysManager))
  rw [(mirrors_bisimulation svcSignalWaitAny ["/alarm"]).allStates_iff
    (fun _ _ h => h.acknowledged_iff) hmirrors] at hall
  obtain ⟨v, hrun, hsm, hvr, e, he, hcount⟩ : ∃ v : World (Reference Task Task Buffer),
      (machine Reference.impl svcSignalWaitAny ["/alarm"]).run ⟨Reference.setup, Sys.boot⟩
        (.publish "/alarm" 0 Topic.sizeofAlarmData :: List.replicate 5 (.run .sysManager)) =
          some v ∧
      Task.AtRest .sysManager (v.sys.ths .sysManager) ∧
      Task.AtRest .virtualReceiver (v.sys.ths .virtualReceiver) ∧
      ∃ e, Reference.impl.entry v.broker "/alarm" = some e ∧ e.count = 1 :=
    ⟨_, rfl, ⟨.inl rfl, rfl⟩, ⟨.inl rfl, rfl⟩, _, rfl, rfl⟩
  have hzero := (hall.last hrun hsm hvr "/alarm" e he).1
  omega

end World

end UavTelemetry
