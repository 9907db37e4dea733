import UavTelemetry.Receiver.Pdu
import UavTelemetry.Rtx.EventLoop
import UavTelemetry.Tasks.Topics

/-!
# The loop of `VirtualReceiver`

`VirtualReceiver` forwards the updates of `/gps` and `/keyb` as commands on the serial line and
decodes the responses.  A valid response is published as `/stat`; a missing one raises `/alarm`.

## Main definitions

* `VirtualReceiver.onTopicUpdateCallback` : the flag raised for a topic.
* `VirtualReceiver.Stmt`, `VirtualReceiver.body` : the statements of the loop and the order in
  which they run.
* `VirtualReceiver.loop` : the loop as an event loop.
-/

namespace UavTelemetry

open Rtx

namespace VirtualReceiver

/-- `GPS_EV_READY`. -/
def gpsEvReady : Flags := 1 <<< 0

/-- `KEY_EV_READY`. -/
def keyEvReady : Flags := 1 <<< 1

/-- `VR_EV_DATAREADY`. -/
def vrEvDataready : Flags := 1 <<< 2

/-- `VR_EV_DATASENT`. -/
def vrEvDatasent : Flags := 1 <<< 3

/-- Milliseconds within which a command must be answered (`TIME_TO_VALID_RESPONSE`). -/
def timeToValidResponse : ℕ := 5000

/-- `OnTopicUpdateCallback`: the event of which the task is notified, if any. -/
def onTopicUpdateCallback (topicname : String) : Option Flags :=
  if topicname = "/keyb" then some keyEvReady
  else if topicname = "/gps" then some gpsEvReady
  else none

/-- The statements of the loop. -/
inductive Stmt
  /-- `if (_protostat >= STAT_WAIT_RESPONSE)` in the timeout branch. -/
  | checkTimeout
  /-- `_alarmdata.alarm[0] = ...`. -/
  | setAlarm
  /-- `MsgBroker::publish("/alarm", &_alarmdata, sizeof(Topic::AlarmData_t), &e)`. -/
  | publishAlarm
  /-- `_timeout = osWaitForever; _protostat = STAT_WAIT_COMMAND`. -/
  | waitCommand
  /-- `_th->signal_clr(signals)`. -/
  | signalClr (signals : Flags)
  /-- `while (_serial->readable())`, with the decoding of one byte. -/
  | readSerial
  /-- `memcpy(&_statdata, &_rxpdu.data[1], sizeof(Topic::StatusData_t))`. -/
  | copyStat
  /-- `MsgBroker::publish("/stat", &_alarmdata, sizeof(Topic::AlarmData_t), &e)`. -/
  | publishStat
  /-- `topicdata = MsgBroker::getTopicData(topicname, &e)`. -/
  | getTopicData (topicname : String)
  /-- `memcpy(&_txpdu.data[1], topicdata, size)`. -/
  | copyTopic (size : ℕ)
  /-- `MsgBroker::consumed(topicname, &e)`. -/
  | consumed (topicname : String)
  /-- `_txpdu.size = size + 1; _txpdu.data[0] = cmd; send()`. -/
  | sendCommand (cmd : UInt8) (size : ℕ)
  /-- `_timeout = TIME_TO_VALID_RESPONSE; _protostat = STAT_WAIT_RESPONSE`. -/
  | waitResponse
  deriving DecidableEq, Repr

/-- The body of `if (_protostat >= STAT_WAIT_RESPONSE)`. -/
def missingResponse : List Stmt := [.setAlarm, .publishAlarm, .waitCommand]

/-- The `CMD_READY` case of a response without the `CMD_NACK` bit. -/
def statusReady : List Stmt := [.copyStat, .publishStat, .waitCommand]

/-- The branch for an update of a topic of `size` bytes, sent as the command `cmd`. -/
def topicBranch (event : Flags) (topicname : String) (cmd : UInt8) (size : ℕ) : List Stmt :=
  [.signalClr event, .getTopicData topicname, .copyTopic size, .consumed topicname,
    .sendCommand cmd size, .waitResponse]

/-- The body of the loop. -/
def body (oe : OsEvent) : List Stmt :=
  (if oe.status = .osEventTimeout then [.checkTimeout] else []) ++
  (if oe.signalled vrEvDataready then [.signalClr vrEvDataready, .readSerial] else []) ++
  (if oe.signalled keyEvReady then
    topicBranch keyEvReady "/keyb" cmdSetKey Topic.sizeofKeyData else []) ++
  (if oe.signalled gpsEvReady then
    topicBranch gpsEvReady "/gps" cmdSetGps Topic.sizeofGpsData else [])

/-- The statements that may replace a statement when it has run. -/
def Stmt.next : Stmt → List (List Stmt)
  | .checkTimeout => [[], missingResponse]
  | .readSerial => [[], [.readSerial], statusReady ++ [.readSerial]]
  | _ => [[]]

/-- The flags that a statement clears. -/
def Stmt.clr : Stmt → Flags
  | .signalClr signals => signals
  | _ => 0

/-- The event loop: `_timeout` is set by `waitCommand` and `waitResponse`. -/
def loop : EventLoop Stmt where
  events := vrEvDataready ||| keyEvReady ||| gpsEvReady
  signals := 0b111
  timeouts := [osWaitForever, timeToValidResponse]
  body := body
  next := Stmt.next
  clr := Stmt.clr
  signals_eq := by decide
  events_ne := by decide
  timeouts_ne := by decide

end VirtualReceiver

end UavTelemetry
