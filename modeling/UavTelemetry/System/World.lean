import Mathlib.Logic.Function.Basic
import UavTelemetry.Broker.Refinement
import UavTelemetry.LTS.Basic
import UavTelemetry.Tasks.Task

/-!
# The tasks and the broker together

`KeyDecoder`, `SysManager` and `VirtualReceiver` run next to each other, to interrupts and to
further tasks that publish.  The tasks share the broker, which keeps pointers into their data, and
they notify each other through event flags.  One step of a task is the call of `signal_wait`, the
return from it or one statement of the body of its loop, so any order of steps is a preemption
between statements.

The machine takes the broker and the wait for event flags as parameters: `MsgBroker.impl` is the
broker of the source and `MsgBroker.Reference.impl` the map it stands for; `svcSignalWait` is the
wait of the kernel and `svcSignalWaitAny` the one that the loops are written for.

## Main definitions

* `Buffer` : what a published pointer points to.
* `Threads`, `Sys`, `World` : the state.
* `BrokerImpl` : the operations of the broker that the tasks call.
* `Task.exec` : the statements of the loops.
* `World.machine` : the steps of the system.
* `Sys.Start`, `MsgBroker.Reference.Ready` : the state in which the loops start.
* `Sys.boot`, `MsgBroker.setup` : one such state, and the calls that lead to it.
-/

namespace UavTelemetry

open Rtx

/-! ### The state -/

/-- What a published pointer points to. -/
inductive Buffer
  /-- `KeyDecoder::_keydata`. -/
  | keydata
  /-- `VirtualReceiver::_alarmdata`. -/
  | alarmdata
  /-- `VirtualReceiver::_statdata`. -/
  | statdata
  /-- The data of another task. -/
  | other (n : ℕ)
  deriving DecidableEq, Repr

/-- The threads of the tasks. -/
abbrev Threads := (t : Task) → Thread t.Stmt

namespace Threads

/-- `signal_set` for the thread of a task. -/
def signalSet (ths : Threads) (t : Task) (signals : Flags) : Threads :=
  Function.update ths t ((ths t).signalSet signals)

/-- The call of the notification callback of a task, which is registered with the task itself as
the subscriber. -/
def onTopicUpdate (notify _subscriber : Task) (topicname : String) (ths : Threads) : Threads :=
  match notify.onTopicUpdateCallback topicname with
  | some signals => ths.signalSet notify signals
  | none => ths

end Threads

/-- The variables of `KeyDecoder`. -/
structure KeyDecoder.Vars where
  /-- `result` in `readKeyboard`. -/
  result : BitVec 32
  /-- `_currentkey`. -/
  currentkey : BitVec 32
  /-- `_lastkey`. -/
  lastkey : BitVec 32
  /-- `_keydata`. -/
  keydata : Topic.KeyData
  /-- `_timeout`. -/
  timeout : ℕ
  /-- The exception reported by the broker. -/
  exception : MsgBroker.Exception

/-- The variables of `SysManager`, and the patterns that it started last. -/
structure SysManager.Vars where
  /-- `_timeout`. -/
  timeout : ℕ
  /-- `statdata`. -/
  statdata : Option Buffer
  /-- The exception reported by the broker. -/
  exception : MsgBroker.Exception
  /-- The beep pattern. -/
  beep : Option (BeepGenerator.ShotMode × BeepGenerator.ShotRepeat)
  /-- The led pattern. -/
  led : Option LedFlasher.ShotMode

/-- The variables of `VirtualReceiver`. -/
structure VirtualReceiver.Vars where
  /-- `_timeout`. -/
  timeout : ℕ
  /-- `_alarmdata`. -/
  alarmdata : Vector UInt8 8
  /-- `_statdata`. -/
  statdata : Vector UInt8 20
  /-- `_protostat`, `_rxpdu` and the counter of `decodePdu`. -/
  decoder : VirtualReceiver.Decoder
  /-- `_txpdu`. -/
  txpdu : VirtualReceiver.PDU
  /-- `keydata` and `gpsdata`. -/
  topicdata : Option Buffer
  /-- The exception reported by the broker. -/
  exception : MsgBroker.Exception

/-- Everything but the broker. -/
structure Sys where
  /-- The threads. -/
  ths : Threads
  /-- The variables of `KeyDecoder`. -/
  kd : KeyDecoder.Vars
  /-- The variables of `SysManager`. -/
  sm : SysManager.Vars
  /-- The variables of `VirtualReceiver`. -/
  vr : VirtualReceiver.Vars
  /-- The keys that are pressed, that is, whose pins read 0. -/
  pressed : Fin KeyDecoder.numKeys → Bool
  /-- The data of other tasks. -/
  others : ℕ → ℕ → UInt8
  /-- The bytes received on the serial line and not read. -/
  rx : List UInt8
  /-- The bytes sent on the serial line, one list for each `send`. -/
  tx : List (List UInt8)

/-- The bytes behind a published pointer. -/
def Sys.read (s : Sys) : Buffer → ℕ → UInt8
  | .keydata => fun i => s.kd.keydata.bytes.getD i 0
  | .alarmdata => fun i => s.vr.alarmdata.toList.getD i 0
  | .statdata => fun i => s.vr.statdata.toList.getD i 0
  | .other n => s.others n

/-- The system, with a broker in state `β`. -/
structure World (β : Type) where
  /-- The broker. -/
  broker : β
  /-- Everything else. -/
  sys : Sys

/-- What a topic holds. -/
abbrev MsgBroker.TopicEntry := MsgBroker.Entry Task Task Buffer

/-- A broker as the tasks see it: the operations that they call, and what a topic holds. -/
structure BrokerImpl (β : Type) where
  /-- `publish`, which runs the callbacks of the observers. -/
  publish : β → String → Option Buffer → ℕ → Threads →
    Except Fault (β × MsgBroker.Exception × Threads)
  /-- `consumed`. -/
  consumed : β → String → Except Fault (β × MsgBroker.Exception)
  /-- `getTopicData`. -/
  getTopicData : β → String → Except Fault (β × MsgBroker.Exception × Option Buffer)
  /-- What a topic holds. -/
  entry : β → String → Option MsgBroker.TopicEntry

namespace MsgBroker

/-- What a topic holds, read off the linked lists. -/
def entry (b : MsgBroker Task Task Buffer) (name : String) : Option TopicEntry :=
  match b.view with
  | .error _ => none
  | .ok entries => (entries.find? fun e => name = e.1).map Prod.snd

/-- The broker of the source. -/
def impl : BrokerImpl (MsgBroker Task Task Buffer) where
  publish b name data datasize ths := b.publish Threads.onTopicUpdate name data datasize ths
  consumed b name := b.consumed name
  getTopicData b name := b.getTopicData name
  entry b name := b.entry name

/-- The map that the broker stands for.  To consume a topic that is not installed is a fault. -/
def Reference.impl : BrokerImpl (Reference Task Task Buffer) where
  publish m name data datasize ths :=
    .ok (Reference.publish Threads.onTopicUpdate m name data datasize ths)
  consumed m name :=
    match m.lookup name with
    | none => .error .nullPointer
    | some _ => .ok (m.consumed name)
  getTopicData m name := .ok (m, m.getTopicData name)
  entry m name := m.lookup name

end MsgBroker

/-! ### The statements of the loops -/

variable {β : Type} (io : BrokerImpl β)

namespace World

/-- `MsgBroker::publish`. -/
def publish (w : World β) (name : String) (data : Buffer) (datasize : ℕ) :
    Except Fault (World β × MsgBroker.Exception) := do
  let (broker, exception, ths) ← io.publish w.broker name (some data) datasize w.sys.ths
  return (⟨broker, { w.sys with ths := ths }⟩, exception)

/-- `MsgBroker::consumed`. -/
def consumed (w : World β) (name : String) : Except Fault (World β × MsgBroker.Exception) := do
  let (broker, exception) ← io.consumed w.broker name
  return ({ w with broker := broker }, exception)

/-- `MsgBroker::getTopicData`. -/
def getTopicData (w : World β) (name : String) :
    Except Fault (World β × MsgBroker.Exception × Option Buffer) := do
  let (broker, exception, data) ← io.getTopicData w.broker name
  return ({ w with broker := broker }, exception, data)

/-- The variables of `KeyDecoder` change. -/
def setKd (w : World β) (kd : KeyDecoder.Vars) : World β := ⟨w.broker, { w.sys with kd := kd }⟩

/-- The variables of `SysManager` change. -/
def setSm (w : World β) (sm : SysManager.Vars) : World β := ⟨w.broker, { w.sys with sm := sm }⟩

/-- The variables of `VirtualReceiver` change. -/
def setVr (w : World β) (vr : VirtualReceiver.Vars) : World β :=
  ⟨w.broker, { w.sys with vr := vr }⟩

section

variable (w : World β) (kd : KeyDecoder.Vars) (sm : SysManager.Vars) (vr : VirtualReceiver.Vars)

@[simp] theorem setKd_broker : (w.setKd kd).broker = w.broker := rfl

@[simp] theorem setKd_ths : (w.setKd kd).sys.ths = w.sys.ths := rfl

@[simp] theorem setSm_broker : (w.setSm sm).broker = w.broker := rfl

@[simp] theorem setSm_ths : (w.setSm sm).sys.ths = w.sys.ths := rfl

@[simp] theorem setVr_broker : (w.setVr vr).broker = w.broker := rfl

@[simp] theorem setVr_ths : (w.setVr vr).sys.ths = w.sys.ths := rfl

end

end World

namespace KeyDecoder

/-- The statements of `KeyDecoder` that do not call the broker.  `signal_clr` is left to the
thread, and a delay takes time only. -/
def Vars.exec (v : Vars) (pressed : Fin numKeys → Bool) : Stmt → Vars
  | .readStart => { v with result := 0 }
  | .readPin i => if pressed i then { v with result := v.result ||| 1 <<< i.val } else v
  | .storeKey => { v with currentkey := v.result }
  | .setKeydata =>
    { v with keydata := { v.keydata with keycode := v.currentkey ^^^ v.lastkey } }
  | .setTimeout =>
    { v with timeout := if v.currentkey = 0 then osWaitForever else repeatTimeout }
  | _ => v

/-- A statement of `KeyDecoder`. -/
def exec (w : World β) (st : Stmt) : Except Fault (World β × List Stmt) :=
  match st with
  | .publish => do
    let (w, e) ← w.publish io "/keyb" .keydata Topic.sizeofKeyData
    return (w.setKd { w.sys.kd with exception := e }, [])
  | st => return (w.setKd (w.sys.kd.exec w.sys.pressed st), [])

end KeyDecoder

namespace SysManager

/-- A statement of `SysManager`. -/
def exec (w : World β) (st : Stmt) : Except Fault (World β × List Stmt) :=
  match st with
  | .signalClr _ => return (w, [])
  | .beepStart mode rep => return (w.setSm { w.sys.sm with beep := some (mode, rep) }, [])
  | .consumed topicname => do
    let (w, e) ← w.consumed io topicname
    return (w.setSm { w.sys.sm with exception := e }, [])
  | .getTopicData topicname => do
    let (w, e, statdata) ← w.getTopicData io topicname
    return (w.setSm { w.sys.sm with exception := e, statdata := statdata }, [])
  | .ledSwitch =>
    match w.sys.sm.statdata with
    | none => .error .nullPointer
    | some p =>
      let led := (ledStarts (w.sys.read p 0)).foldl (fun _ mode => some mode) w.sys.sm.led
      return (w.setSm { w.sys.sm with led := led }, [])

end SysManager

namespace VirtualReceiver

/-- `memcpy(&pdu.data[1], data, size)`. -/
def PDU.copy (pdu : PDU) (data : ℕ → UInt8) (size : ℕ) : PDU :=
  { pdu with
    data := Vector.ofFn fun i =>
      if 1 ≤ i.val ∧ i.val ≤ size then data (i.val - 1) else pdu.data.get i }

/-- The code stored by `_alarmdata.alarm[0] = ...`. -/
def alarmCode : ProtocolStat → UInt8
  | .statWaitResponse => Topic.alarmMissingResponse
  | _ => Topic.alarmWrongResponse

/-- The statements of `VirtualReceiver` that neither call the broker nor use the serial line nor
dereference a pointer.  `signal_clr` is left to the thread. -/
def Vars.exec (v : Vars) : Stmt → Vars
  | .setAlarm =>
    { v with alarmdata := v.alarmdata.set 0 (alarmCode v.decoder.protostat) }
  | .waitCommand =>
    { v with timeout := osWaitForever, decoder.protostat := .statWaitCommand }
  | .copyStat =>
    { v with statdata := Vector.ofFn fun i => v.decoder.rxpdu.data.get ⟨i.val + 1, by omega⟩ }
  | .waitResponse =>
    { v with timeout := timeToValidResponse, decoder.protostat := .statWaitResponse }
  | _ => v

/-- What the loop over the serial line does next when `decodePdu` has returned `code`. -/
def afterByte (code : UInt8) (rxpdu : PDU) : List Stmt :=
  if code = cmdReady ∧ rxpdu.data[0] &&& cmdNack = 0 then statusReady ++ [.readSerial]
  else [.readSerial]

/-- The byte completes a response without the `CMD_NACK` bit. -/
def Accepts (d : Decoder) (b : UInt8) : Prop :=
  (decodePdu d b).1 = cmdReady ∧ (decodePdu d b).2.rxpdu.data[0] &&& cmdNack = 0

instance (d : Decoder) (b : UInt8) : Decidable (Accepts d b) := inferInstanceAs (Decidable (_ ∧ _))

theorem afterByte_of_accepts {d : Decoder} {b : UInt8} (h : Accepts d b) :
    afterByte (decodePdu d b).1 (decodePdu d b).2.rxpdu = statusReady ++ [.readSerial] := if_pos h

theorem afterByte_of_not_accepts {d : Decoder} {b : UInt8} (h : ¬ Accepts d b) :
    afterByte (decodePdu d b).1 (decodePdu d b).2.rxpdu = [.readSerial] := if_neg h

/-- A statement of `VirtualReceiver`, and the statements that it goes on with. -/
def exec (w : World β) (st : Stmt) : Except Fault (World β × List Stmt) :=
  match st with
  | .checkTimeout =>
    return (w, if w.sys.vr.decoder.protostat = .statWaitCommand then [] else missingResponse)
  | .publishAlarm => do
    let (w, e) ← w.publish io "/alarm" .alarmdata Topic.sizeofAlarmData
    return (w.setVr { w.sys.vr with exception := e }, [])
  | .readSerial =>
    match w.sys.rx with
    | [] => return (w, [])
    | b :: rx =>
      let (code, decoder) := decodePdu w.sys.vr.decoder b
      return (⟨w.broker, { w.sys with rx := rx, vr := { w.sys.vr with decoder := decoder } }⟩,
        afterByte code decoder.rxpdu)
  | .publishStat => do
    let (w, e) ← w.publish io "/stat" .alarmdata Topic.sizeofAlarmData
    return (w.setVr { w.sys.vr with exception := e }, [])
  | .getTopicData topicname => do
    let (w, e, topicdata) ← w.getTopicData io topicname
    return (w.setVr { w.sys.vr with exception := e, topicdata := topicdata }, [])
  | .copyTopic size =>
    match w.sys.vr.topicdata with
    | none => .error .nullPointer
    | some p =>
      let txpdu := w.sys.vr.txpdu.copy (w.sys.read p) size
      return (w.setVr { w.sys.vr with txpdu := txpdu }, [])
  | .consumed topicname => do
    let (w, e) ← w.consumed io topicname
    return (w.setVr { w.sys.vr with exception := e }, [])
  | .sendCommand cmd size =>
    let txpdu := w.sys.vr.txpdu
    let (bytes, txpdu) := send
      { txpdu with size := UInt8.ofNat (size + 1), data := txpdu.data.set 0 cmd }
    return (⟨w.broker, { w.sys with
      tx := w.sys.tx ++ [bytes], vr := { w.sys.vr with txpdu := txpdu } }⟩, [])
  | st => return (w.setVr (w.sys.vr.exec st), [])

end VirtualReceiver

/-! ### The steps of the system -/

/-- A statement of a task. -/
def Task.exec (w : World β) : (t : Task) → t.Stmt → Except Fault (World β × List t.Stmt)
  | .keyDecoder => KeyDecoder.exec io w
  | .virtualReceiver => VirtualReceiver.exec io w
  | .sysManager => SysManager.exec io w

/-- The timeout that a task passes to `signal_wait`. -/
def Sys.timeout (s : Sys) : Task → ℕ
  | .keyDecoder => s.kd.timeout
  | .virtualReceiver => s.vr.timeout
  | .sysManager => s.sm.timeout

/-- What happens in the system. -/
inductive Label
  /-- A key is pressed or released. -/
  | edge (i : Fin KeyDecoder.numKeys) (pressed : Bool)
  /-- A byte is received on the serial line. -/
  | rxByte (b : UInt8)
  /-- A byte has been sent on the serial line. -/
  | txSent
  /-- Another task writes its data. -/
  | write (n : ℕ) (bytes : List UInt8)
  /-- Another task publishes its data. -/
  | publish (name : String) (n datasize : ℕ)
  /-- The timeout of a task expires. -/
  | timeout (t : Task)
  /-- A task takes a step. -/
  | run (t : Task)
  deriving DecidableEq, Repr

namespace World

/-- The thread of a task changes. -/
def setTh (w : World β) (t : Task) (th : Thread t.Stmt) : World β :=
  ⟨w.broker, { w.sys with ths := Function.update w.sys.ths t th }⟩

@[simp] theorem setTh_ths_self (w : World β) (t : Task) (th : Thread t.Stmt) :
    (w.setTh t th).sys.ths t = th := Function.update_self _ _ _

theorem setTh_ths_of_ne (w : World β) {t t' : Task} (h : t' ≠ t) (th : Thread t.Stmt) :
    (w.setTh t th).sys.ths t' = w.sys.ths t' := Function.update_of_ne h _ _

/-- `signal_set` for the thread of a task. -/
def signalSet (w : World β) (t : Task) (signals : Flags) : World β :=
  ⟨w.broker, { w.sys with ths := w.sys.ths.signalSet t signals }⟩

/-- A task runs the statement `st` and has `sts` left.  A fault ends the run. -/
def runStmt (w : World β) (t : Task) (st : t.Stmt) (sts : List t.Stmt) : Option (World β) :=
  match t.exec io w st with
  | .error _ => none
  | .ok (w, new) =>
    some (w.setTh t ⟨rtEvtClr (w.sys.ths t).tcb (t.loop.clr st), .body (new ++ sts)⟩)

/-- A step of a task. -/
def runTask (wait : OsTcb → BitVec 32 → ℕ → OsTcb) (w : World β) (t : Task) :
    Option (World β) :=
  let th := w.sys.ths t
  match th.pc with
  | .head => some (w.setTh t ⟨wait th.tcb t.loop.signals (w.sys.timeout t), .wait⟩)
  | .wait => (th.resume t.loop.body).map (w.setTh t)
  | .body [] => some (w.setTh t { th with pc := .head })
  | .body (st :: sts) => w.runStmt io t st sts

/-- A step of the system.  Tasks other than the three publish on the topics `topics`. -/
def step (wait : OsTcb → BitVec 32 → ℕ → OsTcb) (topics : List String) (w : World β) :
    Label → Option (World β)
  | .edge i pressed =>
    if w.sys.pressed i = pressed then none
    else
      let w := w.signalSet .keyDecoder
        (if pressed then KeyDecoder.keyEvPressed else KeyDecoder.keyEvReleased)
      some ⟨w.broker, { w.sys with pressed := Function.update w.sys.pressed i pressed }⟩
  | .rxByte b =>
    let w := w.signalSet .virtualReceiver VirtualReceiver.vrEvDataready
    some ⟨w.broker, { w.sys with rx := w.sys.rx ++ [b] }⟩
  | .txSent => some (w.signalSet .virtualReceiver VirtualReceiver.vrEvDatasent)
  | .write n bytes =>
    some ⟨w.broker, { w.sys with
      others := Function.update w.sys.others n fun i => bytes.getD i 0 }⟩
  | .publish name n datasize =>
    if name ∈ topics then
      match w.publish io name (.other n) datasize with
      | .error _ => none
      | .ok (w, _) => some w
    else none
  | .timeout t => (w.sys.ths t).expire.map (w.setTh t)
  | .run t => w.runTask io wait t

/-- The system. -/
def machine (wait : OsTcb → BitVec 32 → ℕ → OsTcb) (topics : List String) :
    Machine (World β) Label := ⟨step io wait topics⟩

/-- What a step has done: an interrupt handler has raised a flag, data of another task has changed
or was published, a timeout has expired, or a task has taken a step. -/
inductive Stepped (w : World β) (io : BrokerImpl β) (wait : OsTcb → BitVec 32 → ℕ → OsTcb) :
    Label → World β → Prop
  | edge (i : Fin KeyDecoder.numKeys) (pressed : Bool) {signals : Flags}
    (h : signals ∈ Task.interrupts .keyDecoder) :
    Stepped w io wait (.edge i pressed) ⟨w.broker, { (w.signalSet .keyDecoder signals).sys with
      pressed := Function.update w.sys.pressed i pressed }⟩
  | rxByte (b : UInt8) {signals : Flags} (h : signals ∈ Task.interrupts .virtualReceiver) :
    Stepped w io wait (.rxByte b) ⟨w.broker, { (w.signalSet .virtualReceiver signals).sys with
      rx := w.sys.rx ++ [b] }⟩
  | txSent {signals : Flags} (h : signals ∈ Task.interrupts .virtualReceiver) :
    Stepped w io wait .txSent (w.signalSet .virtualReceiver signals)
  | write (n : ℕ) (bytes : List UInt8) :
    Stepped w io wait (.write n bytes) ⟨w.broker, { w.sys with
      others := Function.update w.sys.others n fun i => bytes.getD i 0 }⟩
  | publish (name : String) (n datasize : ℕ) {u : World β} {e : MsgBroker.Exception}
    (h : w.publish io name (.other n) datasize = .ok (u, e)) :
    Stepped w io wait (.publish name n datasize) u
  | timeout (t : Task) {th : Thread t.Stmt} (h : (w.sys.ths t).expire = some th) :
    Stepped w io wait (.timeout t) (w.setTh t th)
  | run (t : Task) {w' : World β} (h : w.runTask io wait t = some w') : Stepped w io wait (.run t) w'

variable {io} in
theorem step_cases {wait : OsTcb → BitVec 32 → ℕ → OsTcb} {topics : List String} {w w' : World β}
    {l : Label} (h : (machine io wait topics).step w l = some w') : w.Stepped io wait l w' := by
  simp only [machine] at h
  cases l with
  | edge i pressed =>
    simp only [step] at h
    split_ifs at h
    · cases h
      have hflag : KeyDecoder.keyEvPressed ∈ Task.interrupts .keyDecoder := List.mem_cons_self
      exact .edge i pressed hflag
    · cases h
      have hflag : KeyDecoder.keyEvReleased ∈ Task.interrupts .keyDecoder :=
        List.mem_cons_of_mem _ List.mem_cons_self
      exact .edge i pressed hflag
  | rxByte b =>
    cases h
    have hflag : VirtualReceiver.vrEvDataready ∈ Task.interrupts .virtualReceiver :=
      List.mem_cons_self
    exact .rxByte b hflag
  | txSent =>
    cases h
    have hflag : VirtualReceiver.vrEvDatasent ∈ Task.interrupts .virtualReceiver :=
      List.mem_cons_of_mem _ List.mem_cons_self
    exact .txSent hflag
  | write n bytes =>
    cases h
    exact .write n bytes
  | publish name n datasize =>
    simp only [step] at h
    split_ifs at h
    split at h
    · cases h
    · rename_i u e hu
      cases h
      exact .publish name n datasize hu
  | timeout t =>
    obtain ⟨th, hth, rfl⟩ := Option.map_eq_some_iff.1 h
    exact .timeout t hth
  | run t => exact .run t h

end World

/-! ### The start -/

/-- The tasks enter their loops.  What their constructors do not initialise may be anything. -/
structure Sys.Start (s : Sys) : Prop where
  /-- No task has waited yet. -/
  ths : ∀ t, s.ths t = .init
  /-- No key was pressed when `KeyDecoder` read the keyboard. -/
  currentkey : s.kd.currentkey = 0
  /-- Neither before. -/
  lastkey : s.kd.lastkey = 0
  /-- The tasks wait for ever. -/
  timeout : ∀ t, s.timeout t = osWaitForever
  /-- `VirtualReceiver` waits for commands. -/
  protostat : s.vr.decoder.protostat = .statWaitCommand
  /-- Nothing has been sent. -/
  tx : s.tx = []

namespace MsgBroker

/-- The registration of a task. -/
def observer (t : Task) : Observer Task Task := ⟨t, t⟩

/-- `SysManager` and `VirtualReceiver` have attached, one after the other. -/
def Both (observers : List (Observer Task Task)) : Prop :=
  observers = [observer .sysManager, observer .virtualReceiver] ∨
    observers = [observer .virtualReceiver, observer .sysManager]

/-- The topics as `main` installs them and the tasks attach to them. -/
def Reference.Ready (m : Reference Task Task Buffer) : Prop :=
  ∃ gps keyb, Both gps ∧ Both keyb ∧ m.entries =
    [("/gps", ⟨Topic.sizeofGpsData, none, 0, gps⟩),
      ("/keyb", ⟨Topic.sizeofKeyData, none, 0, keyb⟩),
      ("/alarm", ⟨Topic.sizeofAlarmData, none, 0, [observer .sysManager]⟩),
      ("/stat", ⟨Topic.sizeofStatusData, none, 0, [observer .sysManager]⟩)]

theorem Reference.Ready.lookup_keyb {m : Reference Task Task Buffer} (h : m.Ready) :
    ∃ keyb, Both keyb ∧ m.lookup "/keyb" = some ⟨Topic.sizeofKeyData, none, 0, keyb⟩ := by
  obtain ⟨gps, keyb, -, hkeyb, hentries⟩ := h
  refine ⟨keyb, hkeyb, ?_⟩
  rw [OrderedMap.lookup, hentries]
  rfl

/-- The calls of `main`. -/
def installTopics : List (Call Task Task Buffer) :=
  [.installTopic "/gps" Topic.sizeofGpsData, .installTopic "/keyb" Topic.sizeofKeyData,
    .installTopic "/alarm" Topic.sizeofAlarmData, .installTopic "/stat" Topic.sizeofStatusData]

/-- The calls of `SysManager::run` before its loop. -/
def attachSysManager : List (Call Task Task Buffer) :=
  [.attach "/gps" .sysManager .sysManager, .attach "/keyb" .sysManager .sysManager,
    .attach "/alarm" .sysManager .sysManager, .attach "/stat" .sysManager .sysManager]

/-- The calls of `VirtualReceiver::run` before its loop. -/
def attachVirtualReceiver : List (Call Task Task Buffer) :=
  [.attach "/gps" .virtualReceiver .virtualReceiver,
    .attach "/keyb" .virtualReceiver .virtualReceiver]

/-- The calls before the loops. -/
def setup : List (Call Task Task Buffer) :=
  installTopics ++ attachSysManager ++ attachVirtualReceiver

/-- The map that they lead to. -/
def Reference.setup : Reference Task Task Buffer :=
  (Reference.run Threads.onTopicUpdate .empty (fun _ => .init) MsgBroker.setup).1.1

/-- The map before `SysManager` has attached. -/
def Reference.receiverSetup : Reference Task Task Buffer :=
  (Reference.run Threads.onTopicUpdate .empty (fun _ => .init)
    (installTopics ++ attachVirtualReceiver)).1.1

theorem Reference.ready_setup : Reference.setup.Ready := ⟨_, _, .inl rfl, .inl rfl, rfl⟩

end MsgBroker

/-- The tasks enter their loops, with the other variables zero and no key pressed. -/
def Sys.boot : Sys where
  ths _ := .init
  kd := ⟨0, 0, 0, ⟨0, 0⟩, osWaitForever, .noErrors⟩
  sm := ⟨osWaitForever, none, .noErrors, none, none⟩
  vr := ⟨osWaitForever, Vector.replicate 8 0, Vector.replicate 20 0,
    ⟨.statWaitCommand, ⟨0, 0, Vector.replicate 32 0⟩, 0⟩, ⟨0, 0, Vector.replicate 32 0⟩, none,
    .noErrors⟩
  pressed _ := false
  others _ _ := 0
  rx := []
  tx := []

theorem Sys.start_boot : Sys.boot.Start :=
  ⟨fun _ => rfl, rfl, rfl, fun t => by cases t <;> rfl, rfl, rfl⟩

/-- An edge of the first key, and the pass of the loop of `KeyDecoder` that it starts. -/
def World.edgePass (pressed : Bool) : List Label :=
  .edge ⟨0, by decide⟩ pressed :: List.replicate 22 (.run .keyDecoder)

/-- The system when the tasks enter their loops. -/
def World.Start (w : World (MsgBroker Task Task Buffer)) : Prop :=
  w.sys.Start ∧ ∃ m : MsgBroker.Reference Task Task Buffer, w.broker.Represents m ∧ m.Ready

end UavTelemetry
