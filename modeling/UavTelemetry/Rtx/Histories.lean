import UavTelemetry.Rtx.Runs

/-!
# What the kernel promises

The properties of all runs of the kernel, from its initialisation on and for any of the modelled
service calls, ticks and calls of interrupt handlers: the tasks are where they belong and the right
one runs, no token of a semaphore is lost or made up, a mutex has one owner, and a mailbox neither
loses nor duplicates nor reorders messages.  What has been given and handed out is what the callers
have been told: the effects of the values that their calls have returned.

## Main definitions

* `Kernel.Orderly k q d` : the tasks are where they belong.

## Main results

* `Kernel.exec_orderly`, `Kernel.exec_conserves`, `Kernel.exec_excludes`, `Kernel.exec_delivers`.
-/

namespace UavTelemetry

namespace Rtx

variable {τ ι M : Type} [DecidableEq τ] [DecidableEq ι]

namespace Kernel

/-- **The tasks are where they belong.**  The lists of the kernel hold the queues `q` and the delays
`d`; the ready tasks are in the ready list and those that wait for an object in the list of that
object, highest priority first; the running task is the only one, and no ready task has a higher
priority; no time-out has expired. -/
structure Orderly (k : Kernel τ ι M) (q : Option (Obj ι) → List τ) (d : List (τ × ℕ)) : Prop where
  links : k.links.Rep q
  delays : k.delays.Rep d
  sorted : ∀ h, Ascending (rank k.prio) (q h)
  ready : ∀ t, t ∈ q none ↔ k.state t = .ready
  waiting : ∀ t o, t ∈ q (some o) → k.state t = o.waitState
  waits : ∀ t, k.state t = .waitSem ∨ k.state t = .waitMut ∨ k.state t = .waitMbx →
    ∃ o, t ∈ q (some o)
  running : ∀ t, k.state t = .running ↔ t = k.run
  top : ∀ t, k.state t = .ready → k.prio t ≤ k.prio k.run
  timed : ∀ e ∈ d, 0 < e.2 ∧ ¬ Awake (k.state e.1) ∧ k.state e.1 ≠ .inactive

variable {k : Kernel τ ι M} {q : Option (Obj ι) → List τ} {d : List (τ × ℕ)}
  {pos : τ → Option (Option (Obj ι))}

theorem Ready.orderly (h : k.Ready q d pos) : k.Orderly q d := by
  have hvalid := h.good.valid
  have hfits : ∀ t, t ≠ k.run → Fits (k.state t) (pos t) (t ∈ d.map Prod.fst) := fun t ht =>
    hvalid.fits (h.run ▸ ht)
  have hrunning : k.state k.run = .running := h.run ▸ hvalid.running
  have hnone : ∀ t hd, t ∈ q hd → t ≠ k.run := by
    rintro t hd hmem rfl
    rw [hvalid.placed.mem_iff, h.run, hvalid.pos_run] at hmem
    cases hmem
  have hready : ∀ t, t ∈ q none ↔ k.state t = .ready := by
    intro t
    constructor
    · intro hmem
      have hplace := hfits t (hnone t none hmem)
      rw [(hvalid.placed.mem_iff t none).1 hmem] at hplace
      exact hplace.ready.1
    · intro hst
      have hplace := hfits t (by rintro rfl; rw [hrunning] at hst; cases hst)
      rw [hst] at hplace
      exact (hvalid.placed.mem_iff t none).2 hplace.1
  refine ⟨hvalid.placed.links, hvalid.placed.delays, hvalid.placed.sorted, hready, fun t o hmem => ?_,
    fun t hst => ?_, fun t => ⟨fun hst => ?_, fun ht => ht ▸ hrunning⟩, fun t hst => ?_,
    fun e he => ⟨hvalid.due e he, ?_⟩⟩
  · have hplace := hfits t (hnone t _ hmem)
    rw [(hvalid.placed.mem_iff t _).1 hmem] at hplace
    exact hplace.waitState
  · have hne : t ≠ k.run := by
      rintro rfl
      rw [hrunning] at hst
      simp at hst
    have hplace := hfits t hne
    obtain hst | hst | hst := hst <;> rw [hst] at hplace <;> obtain ⟨o, ho, -⟩ := hplace <;>
      exact ⟨o, (hvalid.placed.mem_iff t _).2 ho⟩
  · by_contra hne
    have hplace := hfits t hne
    rw [hst] at hplace
    exact hplace
  · rw [h.run]
    exact hvalid.top t ((hvalid.placed.mem_iff t none).1 ((hready t).2 hst))
  · have htimed : e.1 ∈ d.map Prod.fst := List.mem_map_of_mem he
    have hne : e.1 ≠ k.run := by
      intro heq
      rw [heq, h.run] at htimed
      exact (hvalid.placed.out _ (List.mem_singleton_self _)).2 htimed
    have hplace := hfits e.1 hne
    constructor
    · rintro (hst | hst) <;> rw [hst] at hplace
      · exact hplace.2 htimed
      · exact hplace
    · intro hst
      rw [hst] at hplace
      exact hplace.2 htimed

/-- **The kernel schedules.**  Whatever modelled calls, ticks and interrupts follow the initialisation,
the kernel follows no null pointer and goes round in no endless loop; unless it stops in `os_error`,
the tasks are where they belong and the running task has the highest priority. -/
theorem exec_orderly [Fintype τ] [Inhabited M] (ts : TimerService τ ι) (idle : τ)
    (as : List (Round τ ι M)) :
    Safe (fun k => ∃ q d, k.Orderly q d) ((boot idle).exec ts as) := by
  refine (exec_ready ts idle as).mono fun k hk => ?_
  obtain ⟨q, d, pos, h, -⟩ := hk
  exact ⟨q, d, h.orderly⟩

/-- Between two rounds no request is left. -/
theorem Ready.served_eq (h : k.Ready q d pos) (hempty : k.psq.count = 0) :
    served k.log = Rtx.posted k.log := by
  rw [← h.queue.queued, Ring.contents_eq_nil hempty, List.append_nil]

/-- **Semaphores neither lose nor make up tokens.**  The accepted calls of interrupt handlers have been
served once and in their order.  Since its last creation, the tokens that a semaphore has handed out to
tasks whose `osSemaphoreWait` has returned one, and those that it still has, are those with which it
has been created and those of the calls of `osSemaphoreRelease` that have been accepted, but for
multiples of 65536 lost when its counter runs over; and while it has a token, nobody waits for it. -/
theorem exec_conserves [Fintype τ] [Inhabited M] (ts : TimerService τ ι) (idle : τ)
    (as : List (Round τ ι M)) :
    Safe (fun k => served k.log = posted k.log ∧ ∀ s,
      (∃ lost, k.tokens s + taken s (effects k.log) + 0x10000 * lost =
          supplied s (effects k.log)) ∧
        (k.tokens s ≠ 0 → k.waited (.sem s) = false)) ((boot idle).exec ts as) := by
  refine (exec_ready ts idle as).mono fun k hk => ?_
  obtain ⟨q, d, pos, h, hempty⟩ := hk
  refine ⟨h.served_eq hempty, fun s => ⟨h.good.sound.sems.count s, fun htokens => ?_⟩⟩
  by_contra hwaited
  have hne := (waited_iff h.good.valid.placed).1 (by simpa using hwaited)
  exact htokens (h.good.sound.sems.empty s hne)

/-- **A mutex has one owner.**  Since its last creation or deletion, no task has unlocked it more often
than it has locked it, and at most one task has locked it more often than it has unlocked it, counted
by the calls of `osMutexWait` and `osMutexRelease` that have returned `osOK`; while tasks wait for the
mutex, there is such a task. -/
theorem exec_excludes [Fintype τ] [Inhabited M] (ts : TimerService τ ι) (idle : τ)
    (as : List (Round τ ι M)) :
    Safe (fun k => ∀ m,
      (∀ t, unlocks t m (effects k.log) ≤ locks t m (effects k.log)) ∧
        (∀ t u, unlocks t m (effects k.log) < locks t m (effects k.log) →
          unlocks u m (effects k.log) < locks u m (effects k.log) → t = u) ∧
        (k.waited (.mut m) = true →
          ∃ t, unlocks t m (effects k.log) < locks t m (effects k.log)))
      ((boot idle).exec ts as) := by
  refine (exec_ready ts idle as).mono fun k hk m => ?_
  obtain ⟨q, d, pos, h, -⟩ := hk
  have hsound := h.good.sound
  have hmuts := hsound.muts
  have howner : ∀ t, unlocks t m (effects k.log) < locks t m (effects k.log) →
      k.owner m = some t := by
    intro t hlt
    by_contra hne
    have hnest := hmuts.nesting t m
    rw [holds, if_neg fun hholds => hne hholds.2] at hnest
    omega
  refine ⟨fun t => ?_, fun t u ht hu => ?_, fun hwaited => ?_⟩
  · have hnest := hmuts.nesting t m
    omega
  · exact Option.some.inj ((howner t ht).symm.trans (howner u hu))
  · have hne := (waited_iff h.good.valid.placed).1 hwaited
    have hlive : k.live (.mut m) = true := by
      by_contra hdead
      exact hne (hsound.dead _ (by simpa using hdead))
    have hlevel := hmuts.held m hne
    obtain ⟨t, ht⟩ := hmuts.owned m hlevel
    have hnest := hmuts.nesting t m
    rw [holds_of_live hlive, if_pos ht] at hnest
    exact ⟨t, by omega⟩

/-- **Mailboxes deliver every message once and in order.**  The accepted calls of interrupt handlers
have been served once and in their order.  The messages with which calls of `osMessageGet` have
returned, followed by those that are in the mailbox, are those of the calls of `osMessagePut` that have
been accepted; a mailbox that has been created holds no more than its size; and tasks wait for it only
when it is empty or full. -/
theorem exec_delivers [Fintype τ] [Inhabited M] (ts : TimerService τ ι) (idle : τ)
    (as : List (Round τ ι M)) :
    Safe (fun k => served k.log = posted k.log ∧ ∀ b,
      received b (effects k.log) ++ (k.mbx b).contents = sent b (effects k.log) ∧
        (k.mbx b).contents.length ≤ (k.mbx b).size ∧
        (k.waited (.mbx b) = true → (k.mbx b).contents = [] ∨
          (k.mbx b).contents.length = (k.mbx b).size)) ((boot idle).exec ts as) := by
  refine (exec_ready ts idle as).mono fun k hk => ?_
  obtain ⟨q, d, pos, h, hempty⟩ := hk
  have hboxes := h.good.sound.boxes
  refine ⟨h.served_eq hempty, fun b => ⟨hboxes.fifo b, ?_, fun hwaited => ?_⟩⟩
  · rw [Ring.length_contents]
    cases hlive : k.live (.mbx b) with
    | true => exact (hboxes.fits b hlive).count_le
    | false =>
      rw [hboxes.unused b hlive]
      exact Nat.zero_le _
  · rw [Ring.length_contents]
    obtain ⟨-, hzero⟩ | ⟨-, hfull⟩ := hboxes.blocked b ((waited_iff h.good.valid.placed).1 hwaited)
    · exact Or.inl (Ring.contents_eq_nil hzero)
    · exact Or.inr hfull

end Kernel

end Rtx

end UavTelemetry
