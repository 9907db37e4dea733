import UavTelemetry.Rtx.Calls

/-!
# Mailbox calls

What `rt_mbx_send` and `rt_mbx_wait` do for the running task.  The tasks in the waiting list of a
mailbox all wait for the same reason, which the first of them leaves in the state of the mailbox.

## Main results

* `Kernel.Good.rtMbxSend`, `Kernel.Good.rtMbxWait` : the calls.
-/

namespace UavTelemetry

namespace Rtx

variable {τ ι M : Type} [DecidableEq τ] [DecidableEq ι]

namespace Kernel

variable {k k' : Kernel τ ι M} {q q' : Option (Obj ι) → List τ} {d d' : List (τ × ℕ)}
  {pos : τ → Option (Option (Obj ι))} {b : ι} {t : τ} {n : ℕ} {x : M} {es : List (Effect τ ι M)}

/-! ### The accounts -/

/-- The accounts after a task has received the oldest message, and the message of a task that waited
to send has entered the mailbox. -/
theorem Sound.exchange {y : M} (h : k.Sound q es) (hlive : k.live (.mbx b) = true)
    (hcount : (k.mbx b).count ≠ 0) (hfull : (k.mbx b).count = (k.mbx b).size)
    (hstate : k.mbxState b = 2) :
    ({ k with mbx := Function.update k.mbx b ((k.mbx b).take.put y) } : Kernel τ ι M).Sound q
      (es ++ [.sent b y] ++ [.received t b (k.mbx b).oldest]) := by
  have hsems := (h.sems.note (x := .sent b y) nofun).note (x := .received t b (k.mbx b).oldest) nofun
  have hmuts := (h.muts.note (x := .sent b y) nofun).note (x := .received t b (k.mbx b).oldest) nofun
  have hpos := Nat.pos_of_ne_zero hcount
  have hfits := h.boxes.fits b hlive
  have hfifo := h.boxes.fifo b
  rw [Ring.contents_take hfits hpos] at hfifo
  refine ⟨h.dead, h.asked, ⟨hsems.empty, hsems.count⟩, ⟨hmuts.held, hmuts.owned, hmuts.nesting⟩,
    h.boxes.change (fun _ _ => rfl) (fun _ _ => rfl) rfl (fun b' hb' => ?_)
    (fun _ _ => List.Subset.refl _) hlive (hfits.exchange hpos y) (fun _ => Or.inr ⟨hstate, hfull⟩) ?_⟩
  · have hobj : (Effect.received t b (k.mbx b).oldest : Effect τ ι M).obj ≠ .mbx b' := fun heq =>
      hb' (Obj.mbx.inj heq).symm
    have hobj' : (Effect.sent b y : Effect τ ι M).obj ≠ .mbx b' := fun heq =>
      hb' (Obj.mbx.inj heq).symm
    exact ⟨(received_of_ne hobj).trans (received_of_ne hobj'),
      (sent_of_ne hobj).trans (sent_of_ne hobj')⟩
  · rw [received_concat, sent_concat, received_concat, sent_concat, ← hfifo,
      Ring.contents_exchange hfits hpos]
    simp [Effect.enter, Effect.leave]

/-- The accounts after a task has received the oldest message. -/
theorem Sound.leave (h : k.Sound q es) (hlive : k.live (.mbx b) = true) (hcount : (k.mbx b).count ≠ 0)
    (hq : q (some (.mbx b)) = []) :
    ({ k with mbx := Function.update k.mbx b (k.mbx b).take.dec } : Kernel τ ι M).Sound q
      (es ++ [.received t b (k.mbx b).oldest]) := by
  have hsems := h.sems.note (x := .received t b (k.mbx b).oldest) nofun
  have hmuts := h.muts.note (x := .received t b (k.mbx b).oldest) nofun
  have hpos := Nat.pos_of_ne_zero hcount
  have hfits := h.boxes.fits b hlive
  have hfifo := h.boxes.fifo b
  rw [Ring.contents_take hfits hpos] at hfifo
  refine ⟨h.dead, h.asked, ⟨hsems.empty, hsems.count⟩, ⟨hmuts.held, hmuts.owned, hmuts.nesting⟩,
    h.boxes.change (fun _ _ => rfl) (fun _ _ => rfl) rfl (fun b' hb' => ?_)
    (fun _ _ => List.Subset.refl _) hlive (hfits.take hpos) (fun hne => absurd hq hne) ?_⟩
  · have hobj : (Effect.received t b (k.mbx b).oldest : Effect τ ι M).obj ≠ .mbx b' := fun heq =>
      hb' (Obj.mbx.inj heq).symm
    exact ⟨received_of_ne hobj, sent_of_ne hobj⟩
  · rw [received_concat, sent_concat, ← hfifo]
    simp [Effect.enter, Effect.leave]

/-- The accounts after a mailbox has been created. -/
theorem Sound.createMbx (h : k.Sound q es) (hb : k.live (.mbx b) = false) {size : ℕ}
    (hsize : 0 < size) : (k.rtMbxInit b size).Sound q es := by
  have hnil := h.dead _ hb
  have hlive : ∀ o, o ≠ .mbx b → (k.rtMbxInit b size).live o = k.live o := fun o ho =>
    Function.update_of_ne ho ..
  refine ⟨fun o ho => ?_, fun o t ht => ?_, ⟨h.sems.empty, h.sems.count⟩,
    h.muts.congr (fun m => hlive _ nofun) rfl rfl fun _ => List.Subset.refl _,
    h.boxes.change (fun b' hb' => hlive _ fun heq => hb' (Obj.mbx.inj heq))
    (fun b' hb' => Function.update_of_ne hb' ..) rfl (fun _ _ => ⟨rfl, rfl⟩)
    (fun _ _ => List.Subset.refl _) (Function.update_self ..) ⟨hsize, Nat.zero_le _, ?_⟩
    (fun hne => absurd hnil hne) ?_⟩
  · by_cases heq : o = .mbx b
    · rw [heq, hnil]
    · rw [hlive o heq] at ho
      exact h.dead o ho
  · have hasked := h.asked o t ht
    cases o with
    | mbx b' =>
      have hne : b' ≠ b := by
        rintro rfl
        rw [hnil] at ht
        cases ht
      simpa [Asks, rtMbxInit, hne] using hasked
    | _ => exact hasked
  · exact (Nat.zero_mod _).symm
  · have hfifo := h.boxes.fifo b
    rw [Ring.contents_eq_nil (h.boxes.unused b hb)] at hfifo
    rw [Ring.contents_eq_nil rfl]
    exact hfifo

namespace Good

/-- **The running task waits for a mailbox.** -/
theorem mbxBlock [Fintype τ] (h : k.Good q d pos) (hrun : k.run = k.newTsk) (hi : k.run ≠ k.idle)
    (hlive : k.live (.mbx b) = true) {state timeout : ℕ} (ht : timeout ≠ 0)
    (hwaited : k.waited (.mbx b) = true → k.mbxState b = state)
    (hreason : (state = 1 ∧ (k.mbx b).count = 0) ∨
      (state = 2 ∧ (k.mbx b).count = (k.mbx b).size))
    (hasks : (state = 1 → ∃ millisec, k.pending k.run = .messageGet b millisec) ∧
      (state = 2 → ∃ millisec, k.pending k.run = .messagePut b (k.msg k.run) millisec)) :
    Safe (k.Done timeout d) (k.mbxBlock b state timeout) := by
  set k₁ : Kernel τ ι M := { k with
    mbxState := if k.waited (.mbx b) then k.mbxState else Function.update k.mbxState b state } with hk₁
  have hothers : ∀ b', b' ≠ b → k₁.mbxState b' = k.mbxState b' := by
    intro b' hb'
    rw [hk₁]
    dsimp only
    split
    · rfl
    · exact Function.update_of_ne hb' ..
  have hself : k₁.mbxState b = state := by
    rw [hk₁]
    dsimp only
    split
    · rename_i hw
      exact hwaited hw
    · exact Function.update_self ..
  have hasked : ∀ o, ∀ u ∈ q (some o), k₁.Asks u o := by
    intro o u hu
    have hasked := h.sound.asked o u hu
    cases o with
    | mbx b' =>
      have hstate : k₁.mbxState b' = k.mbxState b' := by
        by_cases heq : b' = b
        · subst heq
          exact hself.trans
            (hwaited ((waited_iff h.valid.placed).2 (List.ne_nil_of_mem hu))).symm
        · exact hothers b' heq
      rw [Asks, hstate]
      exact hasked
    | _ => exact hasked
  have hsound : k₁.Sound q (effects k₁.log) := by
    refine ⟨h.sound.dead, hasked, ⟨h.sound.sems.empty, h.sound.sems.count⟩, ⟨h.sound.muts.held,
      h.sound.muts.owned, h.sound.muts.nesting⟩, h.sound.boxes.fits, h.sound.boxes.unused,
      fun b' hb' => ?_, h.sound.boxes.fifo⟩
    by_cases heq : b' = b
    · rw [heq, hself]
      exact hreason
    · rw [hothers b' heq]
      exact h.sound.boxes.blocked b' hb'
  have hgood : k₁.Good q d pos := ⟨h.valid, hsound⟩
  have hwaitable : k₁.Waitable (.mbx b) := by
    rw [Waitable, hself]
    exact hreason
  have hasks₁ : k₁.Asks k₁.run (.mbx b) := by
    rw [Asks, hself]
    exact hasks
  refine (hgood.waitFor hrun hi hlive hwaitable hasks₁ ht fun b' hb' hroom => ?_).mono fun k' hk' => ?_
  · obtain rfl : b = b' := Obj.mbx.inj hb'
    rw [hself]
    have hcount : (k.mbx b).count < (k.mbx b).size := hroom
    omega
  · obtain ⟨q', d', pos', hgood', hkept⟩ := hk'
    exact ⟨q', d', pos', hgood', { hkept with
      requests := hkept.requests.since ⟨rfl, rfl, rfl, rfl⟩ }⟩

/-- **`rt_mbx_send` passes the message to a task that waits for one**, or stores it, or blocks the
running task. -/
theorem rtMbxSend [Fintype τ] (h : k.Good q d pos) (hrun : k.run = k.newTsk) (hi : k.run ≠ k.idle)
    (hlive : k.live (.mbx b) = true) {millisec : ℕ}
    (hcall : k.pending k.run = .messagePut b x millisec) (timeout : ℕ) :
    Safe (fun r => k.Done timeout d (if r.1 then r.2.rtRetVal k.run .osOK else r.2))
      (k.rtMbxSend b x timeout) := by
  rw [Kernel.rtMbxSend]
  by_cases hpass : k.waited (.mbx b) = true ∧ k.mbxState b = 1
  · obtain ⟨t, xs, hq⟩ := h.exists_waiter hpass.1
    obtain ⟨s₁, s', q', hs₁, hs', hlists, hdone⟩ := h.wake hrun hq
    have hcount : (k.mbx b).count = 0 := by
      obtain ⟨-, hcount⟩ | ⟨htwo, -⟩ := h.sound.boxes.blocked b (hq ▸ List.cons_ne_nil t xs)
      · exact hcount
      · rw [hpass.2] at htwo
        cases htwo
    have hasked : k.Asks t (.mbx b) := h.sound.asked _ t (hq ▸ List.mem_cons_self)
    simp only [if_pos hpass, Kernel.mbxPass, takeWaiter, hs₁, ok_bind]
    set k₁ : Kernel τ ι M := { ({ k with toSched := s₁ } : Kernel τ ι M).rtRetVal t
      (.osEventMessage x) with toSched := s' }
    have heffects : effects k₁.log = effects k.log ++ [.received t b x] :=
      effects_pass (k := { k with toSched := s₁ }) hasked hpass.2
    have hsound : k₁.Sound q' (effects k₁.log ++ [.sent b x]) :=
      heffects.symm ▸ (h.sound.pass hcount).mono ⟨rfl, rfl, rfl, rfl, rfl, rfl, rfl, rfl⟩ hlists
    have hrequests : k.SameRequests k₁ :=
      ((neutral_switch k s₁).toSameRequests.ret t (.osEventMessage x)).trans ⟨rfl, rfl, rfl, rfl⟩
    refine Safe.bind (P := fun k' : Kernel τ ι M => k.Done timeout d (k'.rtRetVal k.run .osOK))
      (safe_of_eq (congrArg (sched _) hs') ?_) fun k' hk' => hk'
    exact hdone _ rfl (hrequests.ret _ _) rfl rfl rfl (Sound.ret (k := k₁) hcall hsound)
  rw [if_neg hpass]
  by_cases hfull : (k.mbx b).count = (k.mbx b).size
  · rw [if_pos hfull]
    by_cases ht : timeout = 0
    · rw [if_pos ht]
      exact h.same rfl (neutral_switch k k.toSched)
    · rw [if_neg ht]
      set k₁ : Kernel τ ι M := { k with msg := Function.update k.msg k.run x } with hk₁
      have hasked : ∀ o, ∀ u ∈ q (some o), k₁.Asks u o := by
        intro o u hu
        have hasked := h.sound.asked o u hu
        have hne : u ≠ k.run := hrun ▸ h.ne_newTsk hu
        cases o with
        | mbx b' =>
          have hmsg : k₁.msg u = k.msg u := Function.update_of_ne hne ..
          rw [Asks, hmsg]
          exact hasked
        | _ => exact hasked
      have hgood : k₁.Good q d pos :=
        ⟨h.valid, h.sound.dead, hasked, ⟨h.sound.sems.empty, h.sound.sems.count⟩, ⟨h.sound.muts.held,
          h.sound.muts.owned, h.sound.muts.nesting⟩, ⟨h.sound.boxes.fits, h.sound.boxes.unused,
          h.sound.boxes.blocked, h.sound.boxes.fifo⟩⟩
      have hasks : k₁.pending k₁.run = .messagePut b (k₁.msg k₁.run) millisec := by
        rw [show k₁.msg k₁.run = x from Function.update_self ..]
        exact hcall
      refine (hgood.mbxBlock hrun hi hlive ht (fun hw => ?_) (Or.inr ⟨rfl, hfull⟩)
        ⟨fun heq => absurd heq (by decide), fun _ => ⟨millisec, hasks⟩⟩).bind fun k' hk' => ?_
      · obtain ⟨hone, -⟩ | ⟨htwo, -⟩ :=
          h.sound.boxes.blocked b ((waited_iff h.valid.placed).1 hw)
        · exact absurd ⟨hw, hone⟩ hpass
        · exact htwo
      · obtain ⟨q', d', pos', hgood', hkept⟩ := hk'
        exact ⟨q', d', pos', hgood', { hkept with
          requests := hkept.requests.since ⟨rfl, rfl, rfl, rfl⟩ }⟩
  · rw [if_neg hfull]
    have hroom : (k.mbx b).count < (k.mbx b).size :=
      lt_of_le_of_ne (h.sound.boxes.fits b hlive).count_le hfull
    have hnil : q (some (.mbx b)) = [] := by
      by_contra hne
      exact hpass ⟨(waited_iff h.valid.placed).2 hne, h.sound.room hroom hne⟩
    have hrequests : k.SameRequests (k.setMbx b ((k.mbx b).put x).inc) := ⟨rfl, rfl, rfl, rfl⟩
    exact h.stay rfl (Sound.ret (k := k.setMbx b ((k.mbx b).put x).inc) hcall
      (h.sound.enter hlive hroom hnil)) (hrequests.ret _ _) rfl (fun _ hb => hb)
      fun b _ hroom hne => h.sound.room hroom hne

/-- **`rt_mbx_wait` takes the oldest message**, which may make room for a task that waits to send, or
blocks the running task. -/
theorem rtMbxWait [Fintype τ] (h : k.Good q d pos) (hrun : k.run = k.newTsk) (hi : k.run ≠ k.idle)
    (hlive : k.live (.mbx b) = true) {millisec : ℕ}
    (hcall : k.pending k.run = .messageGet b millisec) (timeout : ℕ) :
    Safe (fun r => k.Done timeout d (r.1.elim r.2 fun x => r.2.rtRetVal k.run (.osEventMessage x)))
      (k.rtMbxWait b timeout) := by
  rw [Kernel.rtMbxWait]
  by_cases hcount : (k.mbx b).count = 0
  · rw [if_neg (not_not.2 hcount)]
    by_cases ht : timeout = 0
    · rw [if_pos ht]
      exact h.same rfl (neutral_switch k k.toSched)
    · rw [if_neg ht]
      refine (h.mbxBlock hrun hi hlive ht (fun hw => ?_) (Or.inl ⟨rfl, hcount⟩)
        ⟨fun _ => ⟨millisec, hcall⟩, fun heq => absurd heq (by decide)⟩).bind fun k' hk' => hk'
      obtain ⟨hone, -⟩ | ⟨-, hfull⟩ := h.sound.boxes.blocked b ((waited_iff h.valid.placed).1 hw)
      · exact hone
      · have := (h.sound.boxes.fits b hlive).size_pos
        omega
  rw [if_pos hcount]
  dsimp only
  set x := (k.mbx b).oldest with hx
  set k₁ := k.setMbx b (k.mbx b).take with hk₁
  have hmbx : k₁.mbx b = (k.mbx b).take := Function.update_self ..
  by_cases hadmit : k₁.waited (.mbx b) = true ∧ k₁.mbxState b = 2
  · obtain ⟨t, xs, hq⟩ := h.exists_waiter hadmit.1
    obtain ⟨s₁, s', q', hs₁, hs', hlists, hdone⟩ := h.wake hrun hq
    have hfull : (k.mbx b).count = (k.mbx b).size := by
      obtain ⟨hone, -⟩ | ⟨-, hfull⟩ := h.sound.boxes.blocked b (hq ▸ List.cons_ne_nil t xs)
      · rw [show k.mbxState b = 2 from hadmit.2] at hone
        cases hone
      · exact hfull
    have hasked : k.Asks t (.mbx b) := h.sound.asked _ t (hq ▸ List.mem_cons_self)
    have hs₁' : k₁.toSched.takeWaiter (.mbx b) = .ok (t, s₁) := hs₁
    simp only [if_pos hadmit, Kernel.mbxAdmit, takeWaiter, hs₁', ok_bind]
    set k₂ : Kernel τ ι M := { (({ k₁ with toSched := s₁ } : Kernel τ ι M).rtRetVal t .osOK).setMbx b
      ((k₁.mbx b).put (k.msg t)) with toSched := s' }
    have heffects : effects k₂.log = effects k.log ++ [.sent b (k.msg t)] :=
      effects_admit (k := { k₁ with toSched := s₁ }) hasked hadmit.2
    have hsound : k₂.Sound q' (effects k₂.log ++ [.received k.run b x]) := by
      refine heffects.symm ▸ (h.sound.exchange (t := k.run) (y := k.msg t) hlive hcount hfull
        hadmit.2).mono ⟨rfl, rfl, rfl, rfl, rfl, ?_, rfl, rfl⟩ hlists
      show Function.update k₁.mbx b ((k₁.mbx b).put (k.msg t)) = _
      rw [hmbx]
      exact Function.update_idem ..
    have hrequests₁ : k.SameRequests { k₁ with toSched := s₁ } := ⟨rfl, rfl, rfl, rfl⟩
    have hrequests : k.SameRequests k₂ := (hrequests₁.ret t .osOK).trans ⟨rfl, rfl, rfl, rfl⟩
    refine Safe.bind (P := fun k' : Kernel τ ι M =>
      k.Done timeout d (k'.rtRetVal k.run (.osEventMessage x)))
      (safe_of_eq (congrArg (sched _) hs') ?_) fun k' hk' => hk'
    exact hdone _ rfl (hrequests.ret _ _) rfl rfl rfl (Sound.ret (k := k₂) hcall hsound)
  · rw [if_neg hadmit]
    have hnil : q (some (.mbx b)) = [] := by
      by_contra hne
      obtain ⟨-, hzero⟩ | ⟨htwo, -⟩ := h.sound.boxes.blocked b hne
      · exact hcount hzero
      · exact hadmit ⟨(waited_iff h.valid.placed).2 hne, htwo⟩
    have hrequests : k.SameRequests (k₁.setMbx b (k₁.mbx b).dec) := ⟨rfl, rfl, rfl, rfl⟩
    refine h.stay rfl (Sound.ret (k := k₁.setMbx b (k₁.mbx b).dec) hcall
      ((h.sound.leave (t := k.run) hlive hcount hnil).mono ⟨rfl, rfl, rfl, rfl, rfl, ?_, rfl, rfl⟩
      fun _ => List.Subset.refl _)) (hrequests.ret _ _) rfl (fun _ hb => hb)
      fun b _ hroom hne => h.sound.room hroom hne
    show Function.update k₁.mbx b (k₁.mbx b).dec = _
    rw [hmbx]
    exact Function.update_idem ..

end Good

end Kernel

end Rtx

end UavTelemetry
