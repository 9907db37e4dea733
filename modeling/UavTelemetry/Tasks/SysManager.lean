import UavTelemetry.Rtx.EventLoop
import UavTelemetry.Tasks.Topics

/-!
# The loop of `SysManager`

`SysManager` subscribes to all four topics and turns their updates into beeps and led patterns.
Its callback raises an event flag for each topic but `/stat`.

## Main definitions

* `SysManager.onTopicUpdateCallback` : the flag raised for a topic.
* `SysManager.Stmt`, `SysManager.body` : the statements of the loop and the order in which they
  run.
* `SysManager.loop` : the loop as an event loop.
-/

namespace UavTelemetry

open Rtx

/-- `BeepGenerator::ShotModeEnum`. -/
inductive BeepGenerator.ShotMode
  | oneShot
  | dualShot
  | quadShot
  deriving DecidableEq, Repr

/-- `BeepGenerator::ShotRepeatEnum`. -/
inductive BeepGenerator.ShotRepeat
  | noRepeat
  | repeatForever
  deriving DecidableEq, Repr

/-- `LedFlasher::ShotModeEnum`. -/
inductive LedFlasher.ShotMode
  | onForever
  | slowFlashing
  | singleFastFlashing
  | dualFastFlashing
  | continuousFastFlashing
  deriving DecidableEq, Repr

namespace SysManager

/-- `GPS_EV_READY`. -/
def gpsEvReady : Flags := 1 <<< 0

/-- `KEY_EV_READY`. -/
def keyEvReady : Flags := 1 <<< 1

/-- `ALARM_EV_READY`. -/
def alarmEvReady : Flags := 1 <<< 2

/-- `STAT_EV_READY`. -/
def statEvReady : Flags := 1 <<< 3

/-- `OnTopicUpdateCallback`: the event of which the task is notified, if any. -/
def onTopicUpdateCallback (topicname : String) : Option Flags :=
  if topicname = "/alarm" then some alarmEvReady
  else if topicname = "/keyb" then some keyEvReady
  else if topicname = "/gps" then some gpsEvReady
  else none

/-- The statements of the loop. -/
inductive Stmt
  /-- `_th->signal_clr(signals)`. -/
  | signalClr (signals : Flags)
  /-- `beepStart(mode, SHORT_TIME, repeat)`. -/
  | beepStart (mode : BeepGenerator.ShotMode) (rep : BeepGenerator.ShotRepeat)
  /-- `MsgBroker::consumed(topicname, &e)`. -/
  | consumed (topicname : String)
  /-- `statdata = MsgBroker::getTopicData(topicname, &e)`. -/
  | getTopicData (topicname : String)
  /-- `switch (statdata->mode)`, which starts a led pattern. -/
  | ledSwitch
  deriving DecidableEq, Repr

/-- The body of the loop. -/
def body (oe : OsEvent) : List Stmt :=
  (if oe.signalled alarmEvReady then
    [.signalClr alarmEvReady, .beepStart .quadShot .repeatForever] else []) ++
  (if oe.signalled keyEvReady then
    [.signalClr keyEvReady, .consumed "/keyb", .beepStart .oneShot .noRepeat] else []) ++
  (if oe.signalled gpsEvReady then
    [.signalClr gpsEvReady, .consumed "/gps", .beepStart .dualShot .noRepeat] else []) ++
  (if oe.signalled statEvReady then
    [.signalClr statEvReady, .getTopicData "/stat", .ledSwitch, .consumed "/stat",
      .beepStart .dualShot .noRepeat] else [])

/-- The led patterns started by `switch (statdata->mode)`, in order. -/
def ledStarts (mode : UInt8) : List LedFlasher.ShotMode :=
  if mode = Topic.modeDisarmed then [.onForever]
  else if mode = Topic.modeManual then [.slowFlashing]
  else
    (if mode &&& Topic.modeLoc ≠ 0 then [.singleFastFlashing] else []) ++
    (if mode &&& Topic.modeAlt ≠ 0 then [.dualFastFlashing] else []) ++
    (if mode &&& Topic.modeRth ≠ 0 then [.continuousFastFlashing] else [])

/-- The flags that a statement clears. -/
def Stmt.clr : Stmt → Flags
  | .signalClr signals => signals
  | _ => 0

/-- The event loop; `_timeout` is always `osWaitForever`. -/
def loop : EventLoop Stmt where
  events := gpsEvReady ||| keyEvReady ||| alarmEvReady ||| statEvReady
  signals := 0b1111
  timeouts := [osWaitForever]
  body := body
  next _ := [[]]
  clr := Stmt.clr
  signals_eq := by decide
  events_ne := by decide
  timeouts_ne := by decide

end SysManager

end UavTelemetry
