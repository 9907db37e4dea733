import UavTelemetry.System.Frame

/-!
# The snapshot of the keyboard

`KeyDecoder` clears its events, reads twelve pins one after the other and stores the snapshot, while
the keys go on bouncing.  A pin that changes before it is read is read with its new value; one that
changes later leaves an event pending.  So when the task is blocked with nothing pending, the
snapshot is what the pins show.

This file runs `KeyDecoder` alone: any pin changes at any moment, `signal_wait` returns any event
(whether it waits for one flag or for all of them), with a timeout only while one is armed, and the
broker and the other tasks do anything.

## Main definitions

* `KeyDecoder.Solo` : `KeyDecoder` and its pins; `KeyDecoder.Solo.machine` are the runs.
* `KeyDecoder.Shows` : a key code shows the state of the pins.
* `KeyDecoder.Solo.Blocked` : the task is in `signal_wait` with neither flag pending.
* `KeyDecoder.Solo.Kept` : the invariant, from the statements that are still to run.

## Main results

* `KeyDecoder.Solo.snapshot_of_reachable` : a blocked task has a current snapshot, and a timeout
  exactly if a key is held.
-/

namespace UavTelemetry

open MsgBroker Rtx

variable {β : Type}

namespace KeyDecoder

/-- `KeyDecoder` and its pins, with everything around them. -/
structure Solo (β : Type) where
  /-- The broker, the variables and the pins. -/
  world : World β
  /-- The event flags that are pending. -/
  flags : Flags
  /-- Place in the loop; at its head the task is in `signal_wait`. -/
  pc : Pc Stmt

/-- What happens to `KeyDecoder`. -/
inductive Solo.Label (β : Type)
  /-- `signal_wait` returns.  The kernel clears some flags when it returns a signal. -/
  | wake (oe : OsEvent) (cleared : Flags)
  /-- The next statement runs. -/
  | run
  /-- A key is pressed or released. -/
  | edge (i : Fin numKeys)
  /-- The others change everything but the variables of `KeyDecoder` and the pins. -/
  | env (w : World β)

namespace Solo

variable (io : BrokerImpl β)

/-- The task is in `signal_wait` with neither flag pending. -/
def Blocked (s : Solo β) : Prop :=
  s.pc = .head ∧ s.flags &&& (keyEvPressed ||| keyEvReleased) = 0

/-- The callback of the pin: `KeyPressedISRCallback` on its fall, `KeyReleasedISRCallback` on its
rise. -/
def isrCallback (pressed : Bool) : Flags := if pressed then keyEvPressed else keyEvReleased

/-- A step of `KeyDecoder` or of a pin.  A fault ends the run. -/
def step (s : Solo β) : Label β → Option (Solo β)
  | .wake oe cleared =>
    match s.pc with
    | .head =>
      if oe.signalled (keyEvPressed ||| keyEvReleased) then
        some { s with flags := s.flags &&& ~~~cleared, pc := .body (body oe) }
      else if oe.status = .osEventTimeout ∧ s.world.sys.kd.timeout = osWaitForever then none
      else some { s with pc := .body (body oe) }
    | _ => none
  | .run =>
    match s.pc with
    | .body [] => some { s with pc := .head }
    | .body (st :: sts) =>
      match exec io s.world st with
      | .error _ => none
      | .ok (w, new) => some ⟨w, s.flags &&& ~~~st.clr, .body (new ++ sts)⟩
    | _ => none
  | .edge i =>
    let pressed := Function.update s.world.sys.pressed i !(s.world.sys.pressed i)
    some { s with
      world := ⟨s.world.broker, { s.world.sys with pressed := pressed }⟩
      flags := s.flags ||| isrCallback (pressed i) }
  | .env w =>
    some { s with
      world := ⟨w.broker, { w.sys with kd := s.world.sys.kd, pressed := s.world.sys.pressed }⟩ }

/-- The runs of `KeyDecoder`. -/
def machine : Machine (Solo β) (Label β) := ⟨step io⟩

/-- `KeyDecoder` enters its loop with all keys released. -/
structure Start (s : Solo β) : Prop where
  /-- It is at the head of the loop. -/
  pc : s.pc = .head
  /-- No key is pressed. -/
  pressed : ∀ i, s.world.sys.pressed i = false
  /-- `_currentkey` is `KEY_NONE`. -/
  currentkey : s.world.sys.kd.currentkey = 0
  /-- `_timeout`. -/
  timeout : s.world.sys.kd.timeout = osWaitForever

end Solo

/-- A key code shows the state of the pins: bit `i` tells whether key `i` is pressed, and there are
no other bits. -/
def Shows (keycode : BitVec 32) (pressed : Fin numKeys → Bool) : Prop :=
  (∀ i, keycode.getLsbD i.val = pressed i) ∧ ∀ j, numKeys ≤ j → keycode.getLsbD j = false

/-! ### The order of the statements -/

/-- What stands behind a statement. -/
def Stmt.Precedes (st : Stmt) (sts : List Stmt) : Prop :=
  match st with
  | .signalClr _ => Stmt.readStart ∈ sts ∧ Stmt.storeKey ∈ sts
  | .readStart => (∀ i, Stmt.readPin i ∈ sts) ∧ Stmt.storeKey ∈ sts
  | .readPin i => Stmt.readPin i ∉ sts
  | .storeKey =>
    (Stmt.readStart ∉ sts ∧ ∀ i, Stmt.readPin i ∉ sts) ∧ Stmt.storeKey ∉ sts ∧
      Stmt.setTimeout ∈ sts
  | _ => True

instance (st : Stmt) (sts : List Stmt) : Decidable (st.Precedes sts) :=
  match st with
  | .signalClr _ => inferInstanceAs (Decidable (_ ∧ _))
  | .readStart => inferInstanceAs (Decidable (_ ∧ _))
  | .readPin _ => inferInstanceAs (Decidable (_ ∉ _))
  | .storeKey => inferInstanceAs (Decidable (_ ∧ _))
  | .delay _ | .setKeydata | .setTimeout | .publish => inferInstanceAs (Decidable True)

/-- Events are cleared before the pins are read, every pin is read once, and the timeout is set
when the snapshot has been stored. -/
def Reads : List Stmt → Prop
  | [] => True
  | st :: sts => st.Precedes sts ∧ Reads sts

instance decidableReads : (sts : List Stmt) → Decidable (Reads sts)
  | [] => inferInstanceAs (Decidable True)
  | st :: sts =>
    have := decidableReads sts
    inferInstanceAs (Decidable (st.Precedes sts ∧ Reads sts))

theorem reads_body (oe : OsEvent) : Reads (body oe) := by
  obtain ⟨-, hbody⟩ | ⟨-, hbody | hbody⟩ := body_cases oe
  all_goals
    rw [hbody]
    decide

/-! ### The invariant -/

/-- What holds of the variables `v` and the pins when `sts` are still to run and `flags` are
pending.  A pin that differs from what was read of it has left an event pending. -/
structure Fresh (sts : List Stmt) (flags : Flags) (v : Vars) (pressed : Fin numKeys → Bool) :
    Prop where
  /-- The order of the statements. -/
  reads : Reads sts
  /-- A pin that is still to be read has not been found pressed. -/
  unread : .readStart ∉ sts → .storeKey ∈ sts →
    ∀ i, Stmt.readPin i ∈ sts → v.result.getLsbD i.val = false
  /-- A pin that has been read shows the value read. -/
  read : .readStart ∉ sts → .storeKey ∈ sts → flags &&& (keyEvPressed ||| keyEvReleased) = 0 →
    ∀ i, Stmt.readPin i ∉ sts → v.result.getLsbD i.val = pressed i
  /-- Only pins are read. -/
  high : .readStart ∉ sts → .storeKey ∈ sts → ∀ j, numKeys ≤ j → v.result.getLsbD j = false
  /-- The snapshot that has been stored is current. -/
  stored : .storeKey ∉ sts → flags &&& (keyEvPressed ||| keyEvReleased) = 0 →
    Shows v.currentkey pressed
  /-- A timeout is armed while a key is held. -/
  armed : .setTimeout ∉ sts →
    v.timeout = if v.currentkey = 0 then osWaitForever else repeatTimeout

variable {sts new : List Stmt} {st : Stmt} {flags : Flags} {v : Vars}
  {pressed : Fin numKeys → Bool} {oe : OsEvent}

/-- A statement that neither clears events nor reads or stores a snapshot. -/
theorem Fresh.tail (h : Fresh (st :: sts) flags v pressed) {v' : Vars}
    (hstart : st ≠ .readStart) (hpin : ∀ i, st ≠ .readPin i) (hstore : st ≠ .storeKey)
    (hresult : v'.result = v.result) (hcurrentkey : v'.currentkey = v.currentkey)
    (harmed : .setTimeout ∉ sts →
      v'.timeout = if v.currentkey = 0 then osWaitForever else repeatTimeout) :
    Fresh sts flags v' pressed := by
  have hstart' : Stmt.readStart ∉ sts → Stmt.readStart ∉ st :: sts := by simp [hstart.symm]
  have hstore' : Stmt.storeKey ∉ sts → Stmt.storeKey ∉ st :: sts := by simp [hstore.symm]
  refine ⟨h.reads.2, ?_, ?_, ?_, ?_, ?_⟩
  · intro hs hk i hi
    rw [hresult]
    exact h.unread (hstart' hs) (List.mem_cons_of_mem _ hk) i (List.mem_cons_of_mem _ hi)
  · intro hs hk hquiet i hi
    rw [hresult]
    exact h.read (hstart' hs) (List.mem_cons_of_mem _ hk) hquiet i (by simp [(hpin i).symm, hi])
  · intro hs hk j hj
    rw [hresult]
    exact h.high (hstart' hs) (List.mem_cons_of_mem _ hk) j hj
  · intro hk hquiet
    rw [hcurrentkey]
    exact h.stored (hstore' hk) hquiet
  · intro ht
    rw [hcurrentkey]
    exact harmed ht

/-- A statement that leaves the reading to those behind it. -/
theorem Fresh.of_start {flags' : Flags} {v' : Vars} (hreads : Reads sts)
    (hstart : .readStart ∈ sts) (hstore : .storeKey ∈ sts)
    (harmed : .setTimeout ∉ sts →
      v'.timeout = if v'.currentkey = 0 then osWaitForever else repeatTimeout) :
    Fresh sts flags' v' pressed :=
  ⟨hreads, fun hs => absurd hstart hs, fun hs => absurd hstart hs, fun hs => absurd hstart hs,
    fun hk => absurd hstore hk, harmed⟩

/-- A pin sets its own bit. -/
theorem getLsbD_readPin {i : Fin numKeys} {j : ℕ} :
    (v.exec pressed (.readPin i)).result.getLsbD j =
      if j = i.val then v.result.getLsbD j || pressed i else v.result.getLsbD j := by
  have hsize : i.val < 32 := Nat.lt_of_lt_of_le i.isLt (by decide)
  simp only [Vars.exec]
  cases hpressed : pressed i with
  | false => simp
  | true =>
    simp only [if_true, BitVec.natCast_eq_ofNat, BitVec.getLsbD_or, BitVec.getLsbD_ofNat,
      Nat.one_shiftLeft, Nat.testBit_two_pow]
    split_ifs with hj
    · simp [hj, hsize]
    · simp [Ne.symm hj]

theorem readPin_currentkey {i : Fin numKeys} :
    (v.exec pressed (.readPin i)).currentkey = v.currentkey := by
  simp only [Vars.exec]
  split_ifs <;> rfl

theorem readPin_timeout {i : Fin numKeys} :
    (v.exec pressed (.readPin i)).timeout = v.timeout := by
  simp only [Vars.exec]
  split_ifs <;> rfl

theorem clr_eq (hclr : st.clr = 0) : flags &&& ~~~st.clr = flags := by
  rw [hclr]
  show flags &&& BitVec.allOnes 16 = flags
  exact BitVec.and_allOnes

/-- A statement keeps the invariant. -/
theorem Fresh.exec (h : Fresh (st :: sts) flags v pressed) :
    Fresh sts (flags &&& ~~~st.clr) (v.exec pressed st) pressed := by
  have hprec := h.reads.1
  have harmed : st ≠ .setTimeout → Stmt.setTimeout ∉ sts →
      v.timeout = if v.currentkey = 0 then osWaitForever else repeatTimeout := fun hne ht =>
    h.armed (by simp [hne.symm, ht])
  cases st with
  | signalClr signals =>
    exact .of_start h.reads.2 hprec.1 hprec.2 (harmed (by simp))
  | readStart =>
    rw [clr_eq rfl]
    refine ⟨h.reads.2, fun _ _ i _ => by simp [Vars.exec], fun _ _ _ i hi => ?_,
      fun _ _ j _ => by simp [Vars.exec], fun hk => absurd hprec.2 hk, harmed (by simp)⟩
    exact absurd (hprec.1 i) hi
  | readPin i =>
    rw [clr_eq rfl]
    have hlater : Stmt.readStart ∉ sts → Stmt.readStart ∉ .readPin i :: sts := by simp
    have hsize : i.val < 32 := Nat.lt_of_lt_of_le i.isLt (by decide)
    refine ⟨h.reads.2, ?_, ?_, ?_, ?_, ?_⟩
    · intro hs hk i' hi'
      have hne : i'.val ≠ i.val := fun heq => hprec (Fin.ext heq ▸ hi')
      rw [getLsbD_readPin, if_neg hne]
      exact h.unread (hlater hs) (List.mem_cons_of_mem _ hk) i' (List.mem_cons_of_mem _ hi')
    · intro hs hk hquiet i' hi'
      rw [getLsbD_readPin]
      split_ifs with heq
      -- the pin just read was not found pressed before
      · have hunread := h.unread (hlater hs) (List.mem_cons_of_mem _ hk) i List.mem_cons_self
        rw [heq, hunread, Fin.ext heq]
        rfl
      · have hne : i' ≠ i := fun h => heq (congrArg Fin.val h)
        exact h.read (hlater hs) (List.mem_cons_of_mem _ hk) hquiet i' (by simp [hne, hi'])
    · intro hs hk j hj
      have hne : j ≠ i.val := by
        have hi := i.isLt
        omega
      rw [getLsbD_readPin, if_neg hne]
      exact h.high (hlater hs) (List.mem_cons_of_mem _ hk) j hj
    · intro hk hquiet
      rw [readPin_currentkey]
      exact h.stored (by simp [hk]) hquiet
    · intro ht
      rw [readPin_currentkey, readPin_timeout]
      exact harmed (by simp) ht
  | storeKey =>
    rw [clr_eq rfl]
    obtain ⟨⟨hstart, hpins⟩, hstore, htimeout⟩ := hprec
    refine ⟨h.reads.2, fun _ hk => absurd hk hstore, fun _ hk => absurd hk hstore,
      fun _ hk => absurd hk hstore, fun _ hquiet => ⟨fun i => ?_, fun j hj => ?_⟩,
      fun ht => absurd htimeout ht⟩
    · exact h.read (by simp [hstart]) List.mem_cons_self hquiet i (by simp [hpins i])
    · exact h.high (by simp [hstart]) List.mem_cons_self j hj
  | setTimeout =>
    rw [clr_eq rfl]
    exact h.tail (by simp) (by simp) (by simp) rfl rfl fun _ => rfl
  | delay _ | setKeydata | publish =>
    rw [clr_eq rfl]
    exact h.tail (by simp) (by simp) (by simp) rfl rfl (harmed (by simp))

/-- A wake-up: either the pins will be read, or the body does nothing and no event was cleared. -/
theorem Fresh.wake {cleared : Flags} (h : Fresh [] flags v pressed) :
    Fresh (body oe)
      (if oe.signalled (keyEvPressed ||| keyEvReleased) then flags &&& ~~~cleared else flags)
      v pressed := by
  obtain ⟨-, hbody⟩ | ⟨hsignal, hbody | hbody⟩ := body_cases oe
  · refine .of_start (reads_body oe) ?_ ?_ fun ht => absurd ?_ ht
    all_goals
      rw [hbody]
      decide
  · refine .of_start (reads_body oe) ?_ ?_ fun ht => absurd ?_ ht
    all_goals
      rw [hbody]
      decide
  · simp only [hsignal, Bool.false_eq_true, if_false]
    rw [hbody]
    refine ⟨⟨trivial, trivial⟩, fun _ hk => absurd hk (by decide), fun _ hk => absurd hk (by decide),
      fun _ hk => absurd hk (by decide), fun _ => h.stored (by simp), fun _ => h.armed (by simp)⟩

/-- An edge leaves an event pending. -/
theorem Fresh.edge (h : Fresh sts flags v pressed) (pressed' : Fin numKeys → Bool) (b : Bool) :
    Fresh sts (flags ||| Solo.isrCallback b) v pressed' := by
  have hpending :
      (flags ||| Solo.isrCallback b) &&& (keyEvPressed ||| keyEvReleased) ≠ 0 := by
    intro hquiet
    cases b with
    | true => simpa [Solo.isrCallback, keyEvPressed, keyEvReleased] using
        congrArg (BitVec.getLsbD · 0) hquiet
    | false => simpa [Solo.isrCallback, keyEvPressed, keyEvReleased] using
        congrArg (BitVec.getLsbD · 1) hquiet
  exact ⟨h.reads, h.unread, fun _ _ hquiet => absurd hquiet hpending, h.high,
    fun _ hquiet => absurd hquiet hpending, h.armed⟩

namespace Solo

/-! ### Runs -/

variable {io : BrokerImpl β} {w w' : World β} {s s' : Solo β} {l : Label β}

/-- The statements that are still to run. -/
def todo (s : Solo β) : List Stmt :=
  match s.pc with
  | .body sts => sts
  | _ => []

/-- The invariant. -/
def Kept (s : Solo β) : Prop := Fresh s.todo s.flags s.world.sys.kd s.world.sys.pressed

theorem exec_spec (h : exec io w st = .ok (w', new)) :
    new = [] ∧ w'.sys.pressed = w.sys.pressed ∧
      w'.sys.kd = { w.sys.kd.exec w.sys.pressed st with exception := w'.sys.kd.exception } := by
  cases st with
  | publish =>
    obtain ⟨⟨u, e⟩, hu, h⟩ := bind_eq_ok h
    have hsys := World.publish_sys hu
    cases h
    simp only [World.setKd, true_and]
    rw [hsys]
    exact ⟨rfl, rfl⟩
  | readPin i =>
    cases h
    refine ⟨rfl, rfl, ?_⟩
    simp only [World.setKd, Vars.exec]
  | _ =>
    cases h
    exact ⟨rfl, rfl, rfl⟩

theorem Start.kept (h : s.Start) : s.Kept := by
  have htodo : s.todo = [] := by rw [todo, h.pc]
  rw [Kept, htodo]
  refine ⟨trivial, fun _ hk => absurd hk (by simp), fun _ hk => absurd hk (by simp),
    fun _ hk => absurd hk (by simp), fun _ _ => ⟨fun i => ?_, fun j _ => ?_⟩, fun _ => ?_⟩
  · rw [h.currentkey, h.pressed i]
    simp
  · rw [h.currentkey]
    simp
  · rw [h.currentkey, h.timeout]
    rfl

theorem wake_cases {oe : OsEvent} {cleared : Flags} (hst : step io s (.wake oe cleared) = some s') :
    s.pc = .head ∧ (oe.signalled (keyEvPressed ||| keyEvReleased) = false →
        oe.status = .osEventTimeout → s.world.sys.kd.timeout ≠ osWaitForever) ∧
      s' = { s with
        flags := if oe.signalled (keyEvPressed ||| keyEvReleased) then s.flags &&& ~~~cleared
          else s.flags
        pc := .body (body oe) } := by
  simp only [Solo.step] at hst
  split at hst
  · rename_i hpc
    split_ifs at hst with hsignal htimeout
    · exact ⟨hpc, by simp [hsignal], by rw [if_pos hsignal]; exact (Option.some.inj hst).symm⟩
    · refine ⟨hpc, fun _ hstatus hforever => htimeout ⟨hstatus, hforever⟩, ?_⟩
      rw [if_neg hsignal]
      exact (Option.some.inj hst).symm
  · cases hst

theorem run_cases (hst : step io s .run = some s') :
    (s.pc = .body [] ∧ s' = { s with pc := .head }) ∨
      ∃ st sts w new, s.pc = .body (st :: sts) ∧ exec io s.world st = .ok (w, new) ∧
        s' = ⟨w, s.flags &&& ~~~st.clr, .body (new ++ sts)⟩ := by
  simp only [Solo.step] at hst
  split at hst
  · rename_i hpc
    exact Or.inl ⟨hpc, (Option.some.inj hst).symm⟩
  · rename_i st sts hpc
    split at hst
    · cases hst
    · rename_i w new hexec
      exact Or.inr ⟨st, sts, w, new, hpc, hexec, (Option.some.inj hst).symm⟩
  · cases hst

theorem Kept.step (h : s.Kept) (hst : step io s l = some s') : s'.Kept := by
  cases l with
  | wake oe cleared =>
    obtain ⟨hpc, -, rfl⟩ := wake_cases hst
    have htodo : s.todo = [] := by rw [todo, hpc]
    rw [Kept, htodo] at h
    exact h.wake
  | run =>
    obtain ⟨hpc, rfl⟩ | ⟨st, sts, w, new, hpc, hexec, rfl⟩ := run_cases hst
    · have htodo : s.todo = [] := by rw [todo, hpc]
      rw [Kept, htodo] at h
      exact h
    · have htodo : s.todo = st :: sts := by rw [todo, hpc]
      rw [Kept, htodo] at h
      obtain ⟨hnew, hpressed, hkd⟩ := exec_spec hexec
      have hfresh := h.exec
      show Fresh (new ++ sts) _ w.sys.kd w.sys.pressed
      rw [hnew, hpressed, hkd]
      exact ⟨hfresh.reads, hfresh.unread, hfresh.read, hfresh.high, hfresh.stored, hfresh.armed⟩
  | edge i =>
    rw [← Option.some.inj hst]
    exact h.edge _ _
  | env w =>
    rw [← Option.some.inj hst]
    exact h

/-- **The snapshot of a blocked task is current**: `_currentkey` shows the pins, and a timeout is
armed if and only if a key is held. -/
theorem snapshot_of_reachable {s₀ : Solo β} (h₀ : s₀.Start) (h : (machine io).Reachable s₀ s)
    (hblocked : s.Blocked) :
    Shows s.world.sys.kd.currentkey s.world.sys.pressed ∧
      (s.world.sys.kd.timeout = osWaitForever ↔ s.world.sys.kd.currentkey = 0) ∧
      (s.world.sys.kd.currentkey ≠ 0 → s.world.sys.kd.timeout = repeatTimeout) := by
  have hkept : s.Kept := h.invariant h₀.kept fun _ _ _ hs hst => hs.step hst
  have htodo : s.todo = [] := by rw [todo, hblocked.1]
  rw [Kept, htodo] at hkept
  have harmed := hkept.armed (by simp)
  refine ⟨hkept.stored (by simp) hblocked.2, ?_, fun hne => ?_⟩
  · rw [harmed]
    split_ifs with hnone
    · exact iff_of_true rfl hnone
    · exact iff_of_false (by decide) hnone
  · rw [harmed, if_neg hne]

end Solo

/-! ### A key is pressed -/

/-- `KeyDecoder` enters its loop. -/
def entered : Solo (Reference Task Task Buffer) := ⟨⟨Reference.setup, Sys.boot⟩, 0, .head⟩

theorem start_entered : entered.Start := ⟨rfl, fun _ => rfl, rfl, rfl⟩

/-- After a press the task is blocked with the key in its snapshot and a timeout armed. -/
theorem snapshot_press :
    ∃ s, (Solo.machine Reference.impl).run entered
        (.edge ⟨3, by decide⟩ :: .wake ⟨.osEventSignal, 0b1⟩ 0b1 :: List.replicate 20 .run) = some s ∧
      Shows s.world.sys.kd.currentkey s.world.sys.pressed ∧
      s.world.sys.kd.timeout = repeatTimeout := by
  have heval : ((Solo.machine Reference.impl).run entered
      (.edge ⟨3, by decide⟩ :: .wake ⟨.osEventSignal, 0b1⟩ 0b1 :: List.replicate 20 .run)).map
        (fun s => (s.pc, s.flags, s.world.sys.kd.currentkey)) = some (.head, 0, 8) := by
    decide +kernel
  obtain ⟨s, hrun, heq⟩ := Option.map_eq_some_iff.1 heval
  simp only [Prod.mk.injEq] at heq
  obtain ⟨hpc, hflags, hkey⟩ := heq
  obtain ⟨hshows, -, harmed⟩ :=
    Solo.snapshot_of_reachable start_entered ⟨_, hrun⟩ ⟨hpc, by rw [hflags]; rfl⟩
  exact ⟨s, hrun, hshows, harmed (by rw [hkey]; decide)⟩

end KeyDecoder

end UavTelemetry
