import UavTelemetry.Tasks.Task

/-!
# When the tasks wake up

Each of the three tasks waits for several event flags in one `signal_wait` and tests them one by
one in the body of its loop.  The wait, however, ends only when **all** of the flags are set, so a
task may stay blocked with an event pending.

## Main results

* `Task.awake_iff` : a task is never blocked with an event pending exactly in the runs whose steps
  all bring its events together.
-/

namespace UavTelemetry

open Rtx

namespace Task

/-- **No event is slept on, under a condition**: no state of a run has the task blocked in its
`signal_wait` while one of its events is pending, exactly if the steps of the run are whole: the
task starts to wait with none or all of its events pending, and while it is blocked they are set
none or all together. -/
theorem awake_iff (t : Task) (ls : List EventLoop.Label) :
    t.loop.machine.AllStates (fun s => ¬ t.loop.Asleep s) EventLoop.init ls ↔
      t.loop.machine.AllSteps t.loop.Whole EventLoop.init ls :=
  EventLoop.allStates_awake_iff ls

/-- Blocked without timeout, `KeyDecoder` sleeps on the first key press. -/
theorem keyDecoder_asleep_after_press :
    ¬ ∀ (t : Task) (s : EventLoop.State t.Stmt),
      t.loop.machine.Reachable EventLoop.init s → ¬ t.loop.Asleep s := by
  intro h
  refine h .keyDecoder ⟨⟨⟨.waitAnd, KeyDecoder.keyEvPressed, 0b11, false, ⟨.osEventTimeout, 0⟩⟩,
    .wait⟩, []⟩ ⟨[.call osWaitForever, .isrSet KeyDecoder.keyEvPressed, .popReq], ?_⟩ ⟨?_, ?_⟩
  · rfl
  · exact Or.inl rfl
  · decide

end Task

end UavTelemetry
