import UavTelemetry.Tasks.KeyDecoder
import UavTelemetry.Tasks.SysManager
import UavTelemetry.Tasks.VirtualReceiver

/-!
# The tasks

The three tasks whose loops wait for several events, with the flags that their callbacks raise
when a topic is updated.

## Main definitions

* `Task` : the tasks.
* `Task.loop` : the event loop of a task.
* `Task.onTopicUpdateCallback` : the flag that its callback raises for a topic.
* `Task.interrupts` : the flags that interrupt handlers raise.
-/

namespace UavTelemetry

open Rtx

/-- The tasks with an event loop over several events. -/
inductive Task
  | keyDecoder
  | virtualReceiver
  | sysManager
  deriving DecidableEq, Repr

namespace Task

/-- A property of all tasks can be evaluated. -/
instance decidableForall (P : Task → Prop) [DecidablePred P] : Decidable (∀ t, P t) :=
  decidable_of_iff (P keyDecoder ∧ P virtualReceiver ∧ P sysManager)
    ⟨fun ⟨hk, hv, hs⟩ t => by cases t <;> assumption,
      fun h => ⟨h keyDecoder, h virtualReceiver, h sysManager⟩⟩

/-- The statements of a task. -/
def Stmt : Task → Type
  | keyDecoder => KeyDecoder.Stmt
  | virtualReceiver => VirtualReceiver.Stmt
  | sysManager => SysManager.Stmt

instance (t : Task) : DecidableEq t.Stmt :=
  match t with
  | keyDecoder => inferInstanceAs (DecidableEq KeyDecoder.Stmt)
  | virtualReceiver => inferInstanceAs (DecidableEq VirtualReceiver.Stmt)
  | sysManager => inferInstanceAs (DecidableEq SysManager.Stmt)

/-- The event loop of a task. -/
def loop : (t : Task) → EventLoop t.Stmt
  | keyDecoder => KeyDecoder.loop
  | virtualReceiver => VirtualReceiver.loop
  | sysManager => SysManager.loop

/-- The callbacks `OnTopicUpdateCallback`.  `KeyDecoder` subscribes to no topic. -/
def onTopicUpdateCallback : Task → String → Option Flags
  | keyDecoder => fun _ => none
  | virtualReceiver => VirtualReceiver.onTopicUpdateCallback
  | sysManager => SysManager.onTopicUpdateCallback

/-- The flags that interrupt handlers raise. -/
def interrupts : Task → List Flags
  | keyDecoder => [KeyDecoder.keyEvPressed, KeyDecoder.keyEvReleased]
  | virtualReceiver => [VirtualReceiver.vrEvDataready, VirtualReceiver.vrEvDatasent]
  | sysManager => []

end Task

end UavTelemetry
