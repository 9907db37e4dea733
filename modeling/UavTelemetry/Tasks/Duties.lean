import UavTelemetry.Rtx.Delivery
import UavTelemetry.Tasks.SysManager
import UavTelemetry.Tasks.VirtualReceiver

/-!
# What the subscribers acknowledge

`SysManager` and `VirtualReceiver` answer an update of `/keyb` and of `/gps` by one call of
`MsgBroker::consumed`.  Of the two other topics of `SysManager`, `/alarm` is never consumed, and
the flag of `/stat` is never set.

## Main definitions

* `SysManager.keyDuty`, `SysManager.gpsDuty` : the flags that `SysManager` acknowledges.
* `VirtualReceiver.keyDuty`, `VirtualReceiver.gpsDuty` : those that `VirtualReceiver` does.
-/

namespace UavTelemetry

open Rtx

namespace SysManager

theorem body_eq (oe : OsEvent) : body oe =
    (if oe.got 2 then [.signalClr alarmEvReady, .beepStart .quadShot .repeatForever] else []) ++
    (if oe.got 1 then [.signalClr keyEvReady, .consumed "/keyb", .beepStart .oneShot .noRepeat]
      else []) ++
    (if oe.got 0 then [.signalClr gpsEvReady, .consumed "/gps", .beepStart .dualShot .noRepeat]
      else []) ++
    (if oe.got 3 then [.signalClr statEvReady, .getTopicData "/stat", .ledSwitch,
      .consumed "/stat", .beepStart .dualShot .noRepeat] else []) := by
  have h₀ : oe.signalled gpsEvReady = oe.got 0 := oe.signalled_bit (by decide)
  have h₁ : oe.signalled keyEvReady = oe.got 1 := oe.signalled_bit (by decide)
  have h₂ : oe.signalled alarmEvReady = oe.got 2 := oe.signalled_bit (by decide)
  have h₃ : oe.signalled statEvReady = oe.got 3 := oe.signalled_bit (by decide)
  rw [body, h₀, h₁, h₂, h₃]

/-- The body of the loop consumes an update once, behind the `signal_clr` of its flag. -/
theorem consumed_body (oe : OsEvent) :
    ((loop.body oe).count (.consumed "/keyb") = (oe.got 1).toNat ∧
        loop.Guards 1 (.consumed "/keyb") (loop.body oe)) ∧
      ((loop.body oe).count (.consumed "/gps") = (oe.got 0).toNat ∧
        loop.Guards 0 (.consumed "/gps") (loop.body oe)) := by
  rw [show loop.body oe = _ from body_eq oe]
  cases oe.got 0 <;> cases oe.got 1 <;> cases oe.got 2 <;> cases oe.got 3 <;> decide

/-- The update of `/keyb`. -/
def keyDuty : Duty loop where
  bit := 1
  ack := .consumed "/keyb"
  bit_mem := by decide
  count_body oe := (consumed_body oe).1.1
  guards_body oe := (consumed_body oe).1.2
  ack_notMem_next _ sts hsts := by simp [List.mem_singleton.1 hsts]
  clr_next _ sts hsts := by simp [List.mem_singleton.1 hsts]

/-- The update of `/gps`. -/
def gpsDuty : Duty loop where
  bit := 0
  ack := .consumed "/gps"
  bit_mem := by decide
  count_body oe := (consumed_body oe).2.1
  guards_body oe := (consumed_body oe).2.2
  ack_notMem_next _ sts hsts := by simp [List.mem_singleton.1 hsts]
  clr_next _ sts hsts := by simp [List.mem_singleton.1 hsts]

end SysManager

namespace VirtualReceiver

theorem body_eq (oe : OsEvent) : body oe =
    (if decide (oe.status = .osEventTimeout) then [.checkTimeout] else []) ++
    (if oe.got 2 then [.signalClr vrEvDataready, .readSerial] else []) ++
    (if oe.got 1 then topicBranch keyEvReady "/keyb" cmdSetKey Topic.sizeofKeyData else []) ++
    (if oe.got 0 then topicBranch gpsEvReady "/gps" cmdSetGps Topic.sizeofGpsData else []) := by
  have h₀ : oe.signalled gpsEvReady = oe.got 0 := oe.signalled_bit (by decide)
  have h₁ : oe.signalled keyEvReady = oe.got 1 := oe.signalled_bit (by decide)
  have h₂ : oe.signalled vrEvDataready = oe.got 2 := oe.signalled_bit (by decide)
  rw [body, h₀, h₁, h₂]
  simp only [decide_eq_true_eq]

/-- The body of the loop consumes an update once, behind the `signal_clr` of its flag. -/
theorem consumed_body (oe : OsEvent) :
    ((loop.body oe).count (.consumed "/keyb") = (oe.got 1).toNat ∧
        loop.Guards 1 (.consumed "/keyb") (loop.body oe)) ∧
      ((loop.body oe).count (.consumed "/gps") = (oe.got 0).toNat ∧
        loop.Guards 0 (.consumed "/gps") (loop.body oe)) := by
  rw [show loop.body oe = _ from body_eq oe]
  cases decide (oe.status = .osEventTimeout) <;> cases oe.got 0 <;> cases oe.got 1 <;>
    cases oe.got 2 <;> decide

/-- The statements that replace another one belong to the timeout branch or to the branch of the
serial line. -/
theorem mem_next {st st' : Stmt} {sts : List Stmt} (hsts : sts ∈ loop.next st) (h : st' ∈ sts) :
    st' ∈ missingResponse ++ statusReady ++ [.readSerial] := by
  cases st with
  | checkTimeout =>
    rcases List.mem_pair.1 hsts with rfl | rfl
    · cases h
    · exact List.mem_append_left _ (List.mem_append_left _ h)
  | readSerial =>
    simp only [loop, Stmt.next, List.mem_cons, List.not_mem_nil, or_false] at hsts
    rcases hsts with rfl | rfl | rfl
    · cases h
    · exact List.mem_append_right _ h
    · rw [List.append_assoc]
      exact List.mem_append_right _ h
  | _ =>
    rw [List.mem_singleton.1 hsts] at h
    cases h

theorem ack_notMem_next (topicname : String) {st : Stmt} {sts : List Stmt}
    (hsts : sts ∈ loop.next st) : Stmt.consumed topicname ∉ sts := by
  intro h
  simpa [missingResponse, statusReady] using mem_next hsts h

theorem clr_next {st st' : Stmt} {sts : List Stmt} (hsts : sts ∈ loop.next st) (h : st' ∈ sts) :
    loop.clr st' = 0 := by
  have hclr : ∀ st' ∈ missingResponse ++ statusReady ++ [.readSerial], loop.clr st' = 0 := by decide
  exact hclr st' (mem_next hsts h)

/-- The update of `/keyb`. -/
def keyDuty : Duty loop where
  bit := 1
  ack := .consumed "/keyb"
  bit_mem := by decide
  count_body oe := (consumed_body oe).1.1
  guards_body oe := (consumed_body oe).1.2
  ack_notMem_next _ _ hsts := ack_notMem_next _ hsts
  clr_next _ _ hsts _ h := by rw [clr_next hsts h]; rfl

/-- The update of `/gps`. -/
def gpsDuty : Duty loop where
  bit := 0
  ack := .consumed "/gps"
  bit_mem := by decide
  count_body oe := (consumed_body oe).2.1
  guards_body oe := (consumed_body oe).2.2
  ack_notMem_next _ _ hsts := ack_notMem_next _ hsts
  clr_next _ _ hsts _ h := by rw [clr_next hsts h]; rfl

end VirtualReceiver

end UavTelemetry
