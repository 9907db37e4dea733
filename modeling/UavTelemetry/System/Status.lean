import UavTelemetry.Receiver.Frames
import UavTelemetry.System.Frame

/-!
# Status responses

A response without the `CMD_NACK` bit carries a `StatusData_t`, which should become the next update
of `/stat`.  `VirtualReceiver` copies it to `_statdata`, but then it calls `publish` with
`_alarmdata` and the size of that.  The broker compares the size with the one that `main` installed
`/stat` with and refuses, and the loop ignores the exception.

## Main definitions

* `VirtualReceiver.Frame.IsStatus` : a response that carries a status.
* `World.Completes` : `VirtualReceiver` is about to read the last byte of a frame.
* `World.StatusPublished` : `/stat` has been updated with the status in a frame.

## Main results

* `World.not_statusPublished` : no response ever reaches `/stat`.
-/

namespace UavTelemetry

open Rtx MsgBroker VirtualReceiver

/-- The frame is a response without the `CMD_NACK` bit, with a status behind the command byte. -/
def VirtualReceiver.Frame.IsStatus (f : Frame) : Prop :=
  f.data.getD 0 0 &&& cmdNack = 0 ∧ Topic.sizeofStatusData + 1 ≤ f.data.length

namespace World

variable {β : Type}

/-- `VirtualReceiver` has read a frame up to the last byte, which has been received and which it
reads next, and `/stat` is not pending. -/
structure Completes (io : BrokerImpl β) (w : World β) (f : Frame) : Prop where
  /-- The loop over the serial line. -/
  reading : ∃ sts, w.sys.vrPc = .body (.readSerial :: sts)
  /-- The frame has been decoded up to the last byte. -/
  decoded : ∃ d : Decoder, d.protostat = .statWaitResponse ∧ w.sys.vr.decoder = after d f.init
  /-- The last byte. -/
  received : ∃ rx, w.sys.rx = f.checksum :: rx
  /-- `/stat` is not pending. -/
  free : ∀ e, io.entry w.broker "/stat" = some e → e.count = 0

/-- `/stat` has just been updated with the status in a frame. -/
structure StatusPublished (io : BrokerImpl β) (w : World β) (f : Frame) : Prop where
  /-- The broker reports no exception. -/
  exception : w.sys.vr.exception = .noErrors
  /-- The data are the status in the frame, and every observer has been notified once. -/
  entry : ∃ e data, io.entry w.broker "/stat" = some e ∧ e.data = some data ∧
    (List.range Topic.sizeofStatusData).map (w.sys.read data) =
      (f.data.drop 1).take Topic.sizeofStatusData ∧
    e.count = e.observers.length

/-- `/stat` is installed with the size of its data. -/
def StatInstalled (w : World (MsgBroker Task Task Buffer)) : Prop :=
  ∃ m : Reference Task Task Buffer, w.broker.Represents m ∧
    (m.lookup "/stat").map Entry.datasize = some Topic.sizeofStatusData

end World

/-! ### The last byte of a frame -/

namespace VirtualReceiver

/-- The last byte of a frame is answered with `cmdReady`, and the command byte is in the receive
buffer. -/
theorem decodePdu_checksum (f : Frame) {d : Decoder} (hd : d.protostat = .statWaitResponse) :
    (decodePdu (after d f.init) f.checksum).1 = cmdReady ∧
      (decodePdu (after d f.init) f.checksum).2.rxpdu.data[0]? = f.data[0]? := by
  obtain ⟨hcodes, hat, -⟩ := decode_frame f hd
  rw [Frame.bytes, codes_append] at hcodes
  rw [Frame.bytes, after_append] at hat
  have hlast := congrArg List.getLast? hcodes
  rw [List.getLast?_append, List.getLast?_append] at hlast
  refine ⟨by simpa using hlast, ?_⟩
  have hpos := f.pos
  have hdata := congrArg (fun l => l[0]?) hat.data_eq
  simp only [after_cons, after_nil, List.getElem?_take] at hdata
  rw [if_pos (by omega)] at hdata
  rw [← hdata]
  simp

/-- The statements that a status response leads to. -/
theorem afterByte_checksum {f : Frame} (hf : f.IsStatus) {d : Decoder}
    (hd : d.protostat = .statWaitResponse) :
    afterByte (decodePdu (after d f.init) f.checksum).1
        (decodePdu (after d f.init) f.checksum).2.rxpdu = statusReady ++ [.readSerial] := by
  obtain ⟨hcode, hdata⟩ := decodePdu_checksum f hd
  have hcmd := hf.1
  rw [List.getD_eq_getElem?_getD, ← hdata] at hcmd
  unfold afterByte
  rw [if_pos ⟨hcode, by simpa using hcmd⟩]

end VirtualReceiver

/-! ### Over the reference map -/

namespace World

variable {v v' : World (Reference Task Task Buffer)} {f : Frame} {k : ℕ} {l : Label}
  {wait : OsTcb → BitVec 32 → ℕ → OsTcb} {topics : List String}

/-- How far `VirtualReceiver` has come with the last byte of a status response. -/
inductive Stage (v : World (Reference Task Task Buffer)) (f : Frame) : ℕ → Prop
  /-- It reads the byte next. -/
  | reading {sts : List VirtualReceiver.Stmt} {d : Decoder} {rx : List UInt8}
    (hpc : v.sys.vrPc = .body (.readSerial :: sts)) (hd : d.protostat = .statWaitResponse)
    (hdec : v.sys.vr.decoder = after d f.init) (hrx : v.sys.rx = f.checksum :: rx) : Stage v f 0
  /-- It copies the status next. -/
  | copying {sts : List VirtualReceiver.Stmt}
    (hpc : v.sys.vrPc = .body (.copyStat :: .publishStat :: sts)) : Stage v f 1
  /-- It publishes next. -/
  | publishing {sts : List VirtualReceiver.Stmt}
    (hpc : v.sys.vrPc = .body (.publishStat :: sts)) : Stage v f 2

/-- Other steps do not disturb it. -/
theorem Stage.of_other (h : v.Stage f k) (hne : l ≠ .run .virtualReceiver)
    (hst : (machine Reference.impl wait topics).step v l = some v') : v'.Stage f k := by
  have hpc' : v'.sys.vrPc = v.sys.vrPc := pc_eq_of_step hst hne
  obtain ⟨hvr, -, hrx'⟩ := line_eq_of_step hst hne
  cases h with
  | reading hpc hd hdec hrx =>
    rw [hrx] at hrx'
    obtain ⟨rx, hrx'⟩ := hrx'
    exact .reading (hpc'.trans hpc) hd (by rw [hvr, hdec]) hrx'.symm
  | copying hpc => exact .copying (hpc'.trans hpc)
  | publishing hpc => exact .publishing (hpc'.trans hpc)

/-- Its own steps bring it to the publication. -/
theorem Stage.run_virtualReceiver (h : v.Stage f k) (hf : f.IsStatus) (hk : k < 2) :
    ∃ v', (machine Reference.impl wait topics).step v (.run .virtualReceiver) = some v' ∧
      v'.Stage f (k + 1) := by
  cases h with
  | reading hpc hd hdec hrx =>
    rename_i sts d rx
    have hexec : VirtualReceiver.exec Reference.impl v .readSerial =
        .ok (⟨v.broker, { v.sys with
          rx := rx
          vr := { v.sys.vr with decoder := (decodePdu (after d f.init) f.checksum).2 } }⟩,
          statusReady ++ [.readSerial]) := by
      simp only [VirtualReceiver.exec, hrx, hdec, afterByte_checksum hf hd, pure_eq_ok]
    exact ⟨_, runTask_of_exec hpc hexec, .copying (vrPc_setTh _ _)⟩
  | copying hpc =>
    have hexec : VirtualReceiver.exec Reference.impl v .copyStat =
        .ok (v.setVr (v.sys.vr.exec .copyStat), []) := by
      simp only [VirtualReceiver.exec, pure_eq_ok]
    exact ⟨_, runTask_of_exec hpc hexec, .publishing (vrPc_setTh _ _)⟩
  | publishing _ => omega

/-- **The publication is refused**: the size of `_alarmdata` is not that of `/stat`. -/
theorem Stage.publish (h : v.Stage f 2)
    (hsize : (v.broker.lookup "/stat").map Entry.datasize = some Topic.sizeofStatusData) :
    ∃ v', (machine Reference.impl wait topics).step v (.run .virtualReceiver) = some v' ∧
      v'.sys.vr.exception ≠ .noErrors := by
  cases h with | publishing hpc =>
  refine ⟨_, runTask_of_exec hpc rfl, ?_⟩
  change (Reference.publish Threads.onTopicUpdate v.broker "/stat" (some .alarmdata)
    Topic.sizeofAlarmData v.sys.ths).2.1 ≠ .noErrors
  rcases Reference.publish_cases v.broker "/stat" (some .alarmdata) Topic.sizeofAlarmData
    v.sys.ths with ⟨-, e, hne, heq⟩ | ⟨e, he, -, hsize', -⟩
  · rw [heq]
    exact hne
  · rw [he, Option.map_some, ← hsize'] at hsize
    exact absurd hsize (by decide)

/-- A run with as many steps of `VirtualReceiver` as it takes to come to the publication. -/
theorem Stage.run {ls : List Label} (h : v.Stage f k) (hf : f.IsStatus)
    (hcount : ls.count (.run .virtualReceiver) + k = 2)
    (hrun : (machine Reference.impl wait topics).run v ls = some v') : v'.Stage f 2 := by
  induction ls generalizing v k with
  | nil =>
    cases hrun
    rw [List.count_nil, Nat.zero_add] at hcount
    exact hcount ▸ h
  | cons l ls ih =>
    obtain ⟨u, hu, hrun'⟩ := Option.bind_eq_some_iff.1 hrun
    by_cases hl : l = .run .virtualReceiver
    · subst hl
      rw [List.count_cons_self] at hcount
      obtain ⟨u', hu', hstage⟩ : ∃ u', (machine Reference.impl wait topics).step v
          (.run .virtualReceiver) = some u' ∧ u'.Stage f (k + 1) :=
        h.run_virtualReceiver hf (by omega)
      obtain rfl : u = u' := Option.some.inj (hu.symm.trans hu')
      exact ih hstage (by omega) hrun'
    · rw [List.count_cons_of_ne hl] at hcount
      exact ih (h.of_other hl hu) hcount hrun'

/-- Whatever the other tasks do in between, the publication is refused. -/
theorem Stage.exception_ne {ls : List Label} (h : v.Stage f 0) (hf : f.IsStatus)
    (hsize : (v.broker.lookup "/stat").map Entry.datasize = some Topic.sizeofStatusData)
    (hcount : ls.count (.run .virtualReceiver) = 2)
    (hrun : (machine Reference.impl wait topics).run v (ls ++ [.run .virtualReceiver]) = some v') :
    v'.sys.vr.exception ≠ .noErrors := by
  rw [Machine.run_append] at hrun
  obtain ⟨u, hu, hrun⟩ := Option.bind_eq_some_iff.1 hrun
  have hstage := h.run hf hcount hu
  have hsize' := (map_datasize_of_reachable ⟨ls, hu⟩ "/stat").trans hsize
  obtain ⟨u', hu', hne⟩ : ∃ u', (machine Reference.impl wait topics).step u
      (.run .virtualReceiver) = some u' ∧ u'.sys.vr.exception ≠ .noErrors := hstage.publish hsize'
  rw [Machine.run_cons, hu'] at hrun
  cases hrun
  exact hne

/-- `VirtualReceiver` can go on. -/
theorem Stage.exists_run (h : v.Stage f 0) (hf : f.IsStatus)
    (hsize : (v.broker.lookup "/stat").map Entry.datasize = some Topic.sizeofStatusData) :
    ∃ v', (machine Reference.impl wait topics).run v
      (List.replicate 3 (.run .virtualReceiver)) = some v' := by
  obtain ⟨v₁, hv₁, h₁⟩ : ∃ v₁, (machine Reference.impl wait topics).step v
      (.run .virtualReceiver) = some v₁ ∧ v₁.Stage f 1 := h.run_virtualReceiver hf (by omega)
  obtain ⟨v₂, hv₂, h₂⟩ : ∃ v₂, (machine Reference.impl wait topics).step v₁
      (.run .virtualReceiver) = some v₂ ∧ v₂.Stage f 2 := h₁.run_virtualReceiver hf (by omega)
  have hsize₂ := ((move_of_step hv₂).map_datasize_eq "/stat").trans
    (((move_of_step hv₁).map_datasize_eq "/stat").trans hsize)
  obtain ⟨v₃, hv₃, -⟩ : ∃ v₃, (machine Reference.impl wait topics).step v₂
      (.run .virtualReceiver) = some v₃ ∧ v₃.sys.vr.exception ≠ .noErrors := h₂.publish hsize₂
  refine ⟨v₃, ?_⟩
  simp only [List.replicate, Machine.run_cons, Machine.run_nil, hv₁, hv₂, hv₃, Option.bind_some]

end World

/-! ### Over the broker of the source -/

namespace World

/-- **No status response reaches `/stat`**: from every reachable state in which `VirtualReceiver` is
about to read the last byte of a status response, it comes to the publication, and in every run in
which it does, whatever the other tasks do in between, `/stat` is not updated with the status. -/
theorem not_statusPublished (wait : OsTcb → BitVec 32 → ℕ → OsTcb) (topics : List String)
    {w₀ w : World (MsgBroker Task Task Buffer)} (h₀ : w₀.StatInstalled)
    (hw : (machine MsgBroker.impl wait topics).Reachable w₀ w) {f : Frame} (hf : f.IsStatus)
    (hc : w.Completes MsgBroker.impl f) :
    (∃ w', (machine MsgBroker.impl wait topics).run w
      (List.replicate 3 (.run .virtualReceiver)) = some w') ∧
    ∀ ls w', ls.count (.run .virtualReceiver) = 2 →
      (machine MsgBroker.impl wait topics).run w (ls ++ [.run .virtualReceiver]) = some w' →
        ¬ w'.StatusPublished MsgBroker.impl f := by
  obtain ⟨m₀, hm₀, hsize₀⟩ := h₀
  have hbisim := mirrors_bisimulation wait topics
  have hmirrors : w₀.Mirrors ⟨m₀, w₀.sys⟩ := ⟨hm₀, rfl⟩
  -- over the map, `VirtualReceiver` is two of its steps before the publication
  obtain ⟨v, hv, hwv⟩ := hbisim.reachable hmirrors hw
  have hsize := (map_datasize_of_reachable hv "/stat").trans hsize₀
  have hstage : v.Stage f 0 := by
    obtain ⟨⟨sts, hpc⟩, ⟨d, hd, hdec⟩, ⟨rx, hrx⟩, -⟩ := hc
    rw [hwv.2] at hpc hdec hrx
    exact .reading hpc hd hdec hrx
  constructor
  · obtain ⟨v', hv'⟩ : ∃ v', (machine Reference.impl wait topics).run v
        (List.replicate 3 (.run .virtualReceiver)) = some v' := hstage.exists_run hf hsize
    obtain ⟨w', hw', -⟩ := hbisim.symm.run hwv hv'
    exact ⟨w', hw'⟩
  · intro ls w' hcount hrun hpublished
    obtain ⟨v', hv', hwv'⟩ := hbisim.run hwv hrun
    have hne := hstage.exception_ne hf hsize hcount hv'
    rw [← hwv'.2] at hne
    exact hne hpublished.exception

/-- The status of a disarmed vehicle at the origin, in answer to a key command. -/
def statusFrame : Frame where
  data := cmdSetKey :: Topic.modeDisarmed :: List.replicate 19 0
  pos := by decide
  lt := by decide

theorem statusFrame_isStatus : statusFrame.IsStatus := by
  unfold Frame.IsStatus
  decide

/-- Other tasks publish `/keyb` and `/gps`. -/
def publishBoth : List Label :=
  [.publish "/keyb" 0 Topic.sizeofKeyData, .publish "/gps" 1 Topic.sizeofGpsData]

/-- `VirtualReceiver` sends the commands for two updates.  With the next updates the response
arrives, and it reads all of it but the last byte. -/
def responseArrives : List Label :=
  publishBoth ++ .rxByte 0 :: List.replicate 18 (.run .virtualReceiver) ++
    publishBoth ++ statusFrame.bytes.map .rxByte ++ List.replicate 26 (.run .virtualReceiver)

theorem exists_statInstalled : ∃ w : World (MsgBroker Task Task Buffer),
    w.StatInstalled ∧ w.Mirrors ⟨Reference.receiverSetup, Sys.boot⟩ := by
  obtain ⟨b₀, -, h₀⟩ := represents_init (σ := Task) (κ := Task) (δ := Buffer)
  obtain ⟨b, -, hb⟩ := h₀.run Threads.onTopicUpdate (fun _ => .init)
    (installTopics ++ attachVirtualReceiver)
    ⟨trivial, trivial, trivial, trivial, trivial, trivial, trivial⟩
  exact ⟨⟨b, Sys.boot⟩, ⟨_, hb, rfl⟩, hb, rfl⟩

/-- The response arrives, whether a wait ends with all flags or with any of them. -/
theorem exists_completes (wait : OsTcb → BitVec 32 → ℕ → OsTcb)
    (hwait : wait ∈ [svcSignalWait, svcSignalWaitAny]) :
    ∃ w₀ w w' : World (MsgBroker Task Task Buffer), w₀.StatInstalled ∧
      (machine MsgBroker.impl wait ["/gps", "/keyb"]).Reachable w₀ w ∧
      w.Completes MsgBroker.impl statusFrame ∧
      (machine MsgBroker.impl wait ["/gps", "/keyb"]).run w
        (List.replicate 3 (.run .virtualReceiver)) = some w' ∧
      w'.sys.vr.exception = .topicSize := by
  obtain ⟨w₀, h₀, hmirrors⟩ := exists_statInstalled
  have hbisim := mirrors_bisimulation wait ["/gps", "/keyb"]
  set d : Decoder := ⟨.statWaitResponse, Sys.boot.vr.decoder.rxpdu, 0⟩
  have harrives : ((machine Reference.impl wait ["/gps", "/keyb"]).run
      ⟨Reference.receiverSetup, Sys.boot⟩ responseArrives).map (fun v =>
        (v.sys.vrTodo.head?, decide (v.sys.vr.decoder = after d statusFrame.init), v.sys.rx,
          (Reference.impl.entry v.broker "/stat").map Entry.count)) =
      some (some .readSerial, true, [statusFrame.checksum], some 0) := by
    rcases List.mem_pair.1 hwait with rfl | rfl
    · decide +kernel
    · decide +kernel
  have hrefused : ((machine Reference.impl wait ["/gps", "/keyb"]).run
      ⟨Reference.receiverSetup, Sys.boot⟩
      (responseArrives ++ List.replicate 3 (.run .virtualReceiver))).map
        (fun v => v.sys.vr.exception) = some .topicSize := by
    rcases List.mem_pair.1 hwait with rfl | rfl
    · decide +kernel
    · decide +kernel
  obtain ⟨v, hv, heq⟩ := Option.map_eq_some_iff.1 harrives
  simp only [Prod.mk.injEq, decide_eq_true_eq] at heq
  obtain ⟨hhead, hdec, hrx, hcount⟩ := heq
  rw [Machine.run_append, hv, Option.bind_some] at hrefused
  obtain ⟨v', hv', hexc⟩ := Option.map_eq_some_iff.1 hrefused
  obtain ⟨sts, hsts⟩ := List.head?_eq_some_iff.1 hhead
  obtain ⟨w, hw, hwv⟩ := hbisim.symm.run hmirrors hv
  obtain ⟨w', hw', hwv'⟩ := hbisim.symm.run hwv hv'
  refine ⟨w₀, w, w', h₀, ⟨_, hw⟩, ⟨⟨sts, ?_⟩, ⟨d, rfl, ?_⟩, ⟨[], ?_⟩, fun e he => ?_⟩, hw', ?_⟩
  · rw [hwv.2]
    exact Sys.vrPc_of_vrTodo hsts
  · rw [hwv.2]
    exact hdec
  · rw [hwv.2]
    exact hrx
  · rw [hwv.entry] at he
    rw [he] at hcount
    exact Option.some.inj hcount
  · rw [hwv'.2]
    exact hexc

/-- The response with a wait that ends with any of its flags. -/
theorem not_statusPublished_disarmed : ∃ w : World (MsgBroker Task Task Buffer),
    w.Completes MsgBroker.impl statusFrame ∧
    ∀ ls w', ls.count (.run .virtualReceiver) = 2 →
      (machine MsgBroker.impl svcSignalWaitAny ["/gps", "/keyb"]).run w
          (ls ++ [.run .virtualReceiver]) = some w' →
        ¬ w'.StatusPublished MsgBroker.impl statusFrame := by
  obtain ⟨w₀, w, -, h₀, hw, hc, -⟩ := exists_completes svcSignalWaitAny (by simp)
  exact ⟨w, hc, (not_statusPublished svcSignalWaitAny _ h₀ hw statusFrame_isStatus hc).2⟩

/-- The response with the wait of the kernel: it is decoded, and the broker refuses it. -/
theorem statusFrame_refused : ∃ w₀ w w' : World (MsgBroker Task Task Buffer),
    w₀.StatInstalled ∧
    (machine MsgBroker.impl svcSignalWait ["/gps", "/keyb"]).Reachable w₀ w ∧
    w.Completes MsgBroker.impl statusFrame ∧
    (machine MsgBroker.impl svcSignalWait ["/gps", "/keyb"]).run w
      (List.replicate 3 (.run .virtualReceiver)) = some w' ∧
    w'.sys.vr.exception = .topicSize ∧ ¬ w'.StatusPublished MsgBroker.impl statusFrame := by
  obtain ⟨w₀, w, w', h₀, hw, hc, hw', hexc⟩ := exists_completes svcSignalWait (by simp)
  refine ⟨w₀, w, w', h₀, hw, hc, hw', hexc, fun hpublished => ?_⟩
  have hnone := hpublished.exception
  rw [hexc] at hnone
  cases hnone

end World

end UavTelemetry
