import UavTelemetry.Rtx.Clocks
import UavTelemetry.Rtx.Runs

/-!
# The messages of the timers

A tick of the system, for the timers and the kernel together.  For every timer that expires,
`sysTimerTick` calls `isrMessagePut` with the queue of the timer thread, and ignores what it returns.
While the queue has room, all these messages are posted, in the order in which the timers expire; when
it is full, none of them is, and the expiries are lost.

## Main definitions

* `Kernel.Accepts` : messages for a mailbox are accepted from interrupt handlers.
* `Kernel.systickTimers` : `rt_systick` with `sysTimerTick`.

## Main results

* `Kernel.Ready.systickTimers` : a tick posts the messages of the timers that expire, or none.
-/

namespace UavTelemetry

namespace Rtx

variable {τ ι M σ : Type} [DecidableEq τ] [DecidableEq ι] [DecidableEq σ]

namespace Kernel

variable {k : Kernel τ ι M} {q : Option (Obj ι) → List τ} {d : List (τ × ℕ)}
  {pos : τ → Option (Option (Obj ι))} {ts : TimerService τ ι} {b : ι}

/-- The check of `isrMessagePut`: the mailbox exists and has room. -/
def Accepts (k : Kernel τ ι M) (b : ι) : Prop := k.live (.mbx b) = true ∧ k.rtMbxCheck b ≠ 0

instance (k : Kernel τ ι M) (b : ι) : Decidable (k.Accepts b) :=
  inferInstanceAs (Decidable (_ ∧ _))

/-- `rt_systick` with `sysTimerTick`, which sends a message for each timer that expires. -/
def systickTimers [Fintype τ] [Fintype σ] (ts : TimerService τ ι) (message : σ → M)
    (k : Kernel τ ι M) (m : TimerMem σ) : Except Stop (Kernel τ ι M × TimerMem σ) :=
  match m.sysTimerTick with
  | .ok (pts, m) => do return (← k.rtSystick ts (pts.map message), m)
  | .error f => .error (.fault f)

omit [DecidableEq τ] [DecidableEq ι] in
/-- A handler that sends messages to one mailbox: all of them are posted, or none. -/
theorem isrs_messagePut (b : ι) (xs : List M) {P : Request τ ι M → Prop}
    (hP : ∀ r, k.Postable r → P r) (hk : k.Queued P) :
    Safe (fun k' => Rtx.posted k'.log =
        Rtx.posted k.log ++ if k.Accepts b then xs.map (Request.mcb b) else [])
      (k.isrs (xs.map (IsrCall.messagePut b))) := by
  induction xs generalizing k with
  | nil =>
    show Rtx.posted k.log = _
    rw [List.map_nil, ite_self, List.append_nil]
  | cons x xs ih =>
    simp only [List.map_cons]
    rw [Kernel.isrs, isr]
    by_cases hroom : k.Accepts b
    · obtain ⟨hlive, hcheck⟩ := hroom
      have hno : ¬ (¬ k.live (.mbx b) = true ∨ k.rtMbxCheck b = 0) := by
        rintro (hdead | hfull)
        · exact hdead hlive
        · exact hcheck hfull
      have hpostable : k.Postable (.mcb b x) := by
        rw [rtMbxCheck] at hcheck
        exact ⟨hlive, by omega⟩
      rw [if_neg hno]
      have hpost := hk.post (c := .messagePut b x) (hP _ hpostable)
      have hlog : Safe (fun k' => Rtx.posted k'.log = Rtx.posted k.log ++ [Request.mcb b x])
          (k.post (.messagePut b x)) := by
        rw [Kernel.post, rtPsqEnq]
        split
        · exact posted_concat
        · trivial
      cases hk₁ : k.post (.messagePut b x) with
      | error e =>
        rw [hk₁] at hpost
        cases e with
        | osError _ => trivial
        | fault _ => exact hpost
      | ok k₁ =>
        rw [hk₁] at hpost hlog
        obtain ⟨hposts, hqueued⟩ := hpost
        have hpost₁ : ∀ r, k₁.Postable r → P r := by
          intro r hr
          refine hP r ?_
          rw [hposts.eq] at hr
          cases r <;> exact hr
        have hroom₁ : k₁.Accepts b := by
          rw [hposts.eq]
          exact ⟨hlive, hcheck⟩
        have hlog₁ : Rtx.posted k₁.log = Rtx.posted k.log ++ [Request.mcb b x] := hlog
        refine (ih hpost₁ hqueued).mono fun k₂ hk₂ => ?_
        rw [hk₂, if_pos hroom₁, if_pos ⟨hlive, hcheck⟩, hlog₁, List.append_assoc,
          List.singleton_append]
    · have hyes : ¬ k.live (.mbx b) = true ∨ k.rtMbxCheck b = 0 := by
        by_contra hno
        rw [not_or, not_not] at hno
        exact hroom hno
      rw [if_pos hyes, ok_bind]
      refine (ih hP hk).mono fun k₂ hk₂ => ?_
      rw [hk₂, if_neg hroom, if_neg hroom]

/-- **A tick of the kernel and of the timers.**  The timers count down as independent clocks, and the
messages of those that expire are posted in their order, unless the queue of the timer thread is full:
then none of them is. -/
theorem Ready.systickTimers [Fintype τ] [Fintype σ] {m : TimerMem σ} {c : Clocks σ}
    (h : k.Ready q d pos) (hpost : ∀ r ∈ k.psq.contents, k.Postable r) (hon : k.osRunning = true)
    (hm : m.Shows c) (message : σ → M) :
    Safe (fun r => r.2.Shows c.tick.2 ∧ Rtx.posted r.1.log = Rtx.posted k.log ++
        if k.Accepts ts.queue then (c.tick.1.map message).map (Request.mcb ts.queue) else [])
      (k.systickTimers ts message m) := by
  obtain ⟨m', hm', hshows⟩ := hm.tick
  obtain ⟨s', q', pos', hs', hready, -⟩ := h.tick hpost hon
  rw [Kernel.systickTimers, hm']
  simp only [Kernel.rtSystick, hs']
  refine (isrs_messagePut ts.queue _ (fun _ => hready.servable_of_postable) hready.queue).bind
    fun k₁ hk₁ => ⟨hshows, hk₁⟩

end Kernel

end Rtx

end UavTelemetry
