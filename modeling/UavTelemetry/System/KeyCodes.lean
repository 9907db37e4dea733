import UavTelemetry.System.Snapshot

/-!
# The key codes that are published

`KeyDecoder` publishes a key code for every press and release, and again for every repeat.  The
loop computes the code as the difference between the snapshot of the keyboard and `_lastkey`, which
it never updates, and only for a press or a release.  So the code of an event is the whole snapshot
read for it, and a repeat publishes the snapshot of the last event, not its own.

A history variable records the updates as they are published, in the runs of
`UavTelemetry.System.Snapshot`.

## Main definitions

* `KeyDecoder.Update` : an update with the snapshot read before it; `KeyDecoder.History` records
  them.
* `KeyDecoder.ReportChanges` : every event is published with the keys that changed since the event
  before.
* `KeyDecoder.RepeatHeld` : every repeat is published with keys held in its snapshot.
* `KeyDecoder.Coded` : the invariant, from the statements that are still to run.

## Main results

* `KeyDecoder.reportChanges_iff` : the key codes are changes as long as no event follows one that
  left a key held.
* `KeyDecoder.repeatHeld_iff` : repeats report held keys as long as all keys of the last event are
  still held.
-/

namespace UavTelemetry

open MsgBroker Rtx

variable {β : Type}

namespace KeyDecoder

/-- `KEY_NONE`. -/
def keyNone : BitVec 32 := 0

/-- An update of `/keyb` as it is published. -/
structure Update where
  /-- The pass of the loop is one for a press or a release. -/
  event : Bool
  /-- `_currentkey`, the snapshot read in the pass. -/
  snapshot : BitVec 32
  /-- The key code in `_keydata`. -/
  keycode : BitVec 32
  deriving DecidableEq, Repr

/-- The updates published so far, the latest first. -/
structure History where
  /-- The pass under way is one for a press or a release. -/
  event : Bool
  /-- The updates. -/
  updates : List Update
  deriving DecidableEq, Repr

/-- The snapshot read for the last event. -/
def lastEvent : List Update → BitVec 32
  | [] => keyNone
  | u :: us => if u.event then u.snapshot else lastEvent us

/-- The exclusive or of the key codes published for events. -/
def xorEvents : List Update → BitVec 32
  | [] => 0
  | u :: us => if u.event then u.keycode ^^^ xorEvents us else xorEvents us

/-- All `keys` are among the keys `held`. -/
def KeysIn (keys held : BitVec 32) : Prop := ∀ j, keys.getLsbD j = true → held.getLsbD j = true

/-- Only the bits of the word matter. -/
theorem keysIn_iff {keys held : BitVec 32} :
    KeysIn keys held ↔ ∀ j : Fin 32, keys.getLsbD j.val = true → held.getLsbD j.val = true := by
  refine ⟨fun h j => h j.val, fun h j hj => ?_⟩
  exact h ⟨j, BitVec.lt_of_getLsbD hj⟩ hj

instance (keys held : BitVec 32) : Decidable (KeysIn keys held) := decidable_of_iff _ keysIn_iff.symm

/-- The update `u` for an event, published after `us`, reports the keys that changed. -/
structure Update.ReportsChange (u : Update) (us : List Update) : Prop where
  /-- The key code is the change since the snapshot of the event before. -/
  change : u.keycode = u.snapshot ^^^ lastEvent us
  /-- The key codes so far add up to the keys held. -/
  held : u.keycode ^^^ xorEvents us = u.snapshot
  /-- A release has the code of the keys released. -/
  released : KeysIn u.snapshot (lastEvent us) → u.keycode = lastEvent us &&& ~~~u.snapshot

/-- Every event is published with the keys that changed. -/
def ReportChanges : List Update → Prop
  | [] => True
  | u :: us => (u.event = true → u.ReportsChange us) ∧ ReportChanges us

/-- The update `u` for a repeat reports held keys. -/
structure Update.ReportsHeld (u : Update) : Prop where
  /-- Some key is held. -/
  held : u.snapshot ≠ keyNone
  /-- Every key reported is held. -/
  keys : KeysIn u.keycode u.snapshot

/-- Every repeat is published with held keys. -/
def RepeatHeld : List Update → Prop
  | [] => True
  | u :: us => (u.event = false → u.ReportsHeld) ∧ RepeatHeld us

namespace Solo

variable (io : BrokerImpl β)

/-- The step publishes an update. -/
def Publishing (s : Solo β) : Label β → Prop
  | .run => s.todo.head? = some .publish
  | _ => False

instance (s : Solo β) (l : Label β) : Decidable (s.Publishing l) :=
  match l with
  | .run => inferInstanceAs (Decidable (_ = _))
  | .wake _ _ | .edge _ | .env _ => inferInstanceAs (Decidable False)

/-- The update that is published next. -/
def update (s : Solo β) (h : History) : Update :=
  ⟨h.event, s.world.sys.kd.currentkey, s.world.sys.kd.keydata.keycode⟩

/-- The history after a step. -/
def record (s : Solo β) (l : Label β) (_ : Solo β) (h : History) : History :=
  match l with
  | .wake oe _ => { h with event := oe.signalled (keyEvPressed ||| keyEvReleased) }
  | l => if s.Publishing l then { h with updates := s.update h :: h.updates } else h

/-- The runs of `KeyDecoder` with the updates published in them. -/
def recorded : Machine (Solo β × History) (Label β) := (machine io).observe record

/-- `KeyDecoder` enters its loop when the last snapshot was `KEY_NONE`. -/
structure Entered (s : Solo β) : Prop extends s.Start where
  /-- `_lastkey` is `KEY_NONE`. -/
  lastkey : s.world.sys.kd.lastkey = keyNone

/-- An update for an event is published only if the event before left no key held. -/
def NoneHeld (s : Solo β × History) (l : Label β) : Prop :=
  s.1.Publishing l → s.2.event = true → lastEvent s.2.updates = keyNone

instance (s : Solo β × History) (l : Label β) : Decidable (NoneHeld s l) :=
  inferInstanceAs (Decidable (_ → _ → _))

/-- An update for a repeat is published only if all keys of the last event are still held. -/
def StillHeld (s : Solo β × History) (l : Label β) : Prop :=
  s.1.Publishing l → s.2.event = false →
    KeysIn (lastEvent s.2.updates) s.1.world.sys.kd.currentkey

instance (s : Solo β × History) (l : Label β) : Decidable (StillHeld s l) :=
  inferInstanceAs (Decidable (_ → _ → _))

end Solo

/-! ### The order of the statements -/

/-- What stands behind a statement in a pass for an event, or for a repeat. -/
def Stmt.Orders (event : Bool) (st : Stmt) (sts : List Stmt) : Prop :=
  match st with
  | .storeKey => event = true → Stmt.setKeydata ∈ sts ∧ Stmt.setTimeout ∈ sts
  | .setKeydata => event = true ∧ Stmt.publish ∈ sts
  | .setTimeout => Stmt.publish ∈ sts
  | .publish => Stmt.setKeydata ∉ sts ∧ Stmt.setTimeout ∉ sts ∧ Stmt.publish ∉ sts
  | _ => True

instance (event : Bool) (st : Stmt) (sts : List Stmt) : Decidable (st.Orders event sts) :=
  match st with
  | .storeKey => inferInstanceAs (Decidable (_ → _))
  | .setKeydata => inferInstanceAs (Decidable (_ ∧ _))
  | .setTimeout => inferInstanceAs (Decidable (_ ∈ _))
  | .publish => inferInstanceAs (Decidable (_ ∧ _))
  | .delay _ | .signalClr _ | .readStart | .readPin _ => inferInstanceAs (Decidable True)

/-- In a pass for an event the key code and the timeout are set behind the snapshot; in a pass for
a repeat only the timeout is.  What is set is set before it is published. -/
def CodeOrder (event : Bool) : List Stmt → Prop
  | [] => True
  | st :: sts => st.Orders event sts ∧ CodeOrder event sts

instance decidableCodeOrder (event : Bool) : (sts : List Stmt) → Decidable (CodeOrder event sts)
  | [] => inferInstanceAs (Decidable True)
  | st :: sts =>
    have := decidableCodeOrder event sts
    inferInstanceAs (Decidable (st.Orders event sts ∧ CodeOrder event sts))

/-! ### The invariant -/

/-- What holds of the variables `v` when `sts` are still to run in a pass of the loop, and `e` is
the snapshot read for the last event published. -/
structure Coded (sts : List Stmt) (event : Bool) (v : Vars) (e : BitVec 32) : Prop where
  /-- The order of the statements. -/
  order : CodeOrder event sts
  /-- `_lastkey` is never updated. -/
  lastkey : v.lastkey = keyNone
  /-- The key code of an event is its snapshot. -/
  coded : event = true → .publish ∈ sts → .setKeydata ∉ sts → v.keydata.keycode = v.currentkey
  /-- A timeout is armed for the event only if its snapshot has a key. -/
  armed : event = true → .publish ∈ sts → .setTimeout ∉ sts → v.timeout ≠ osWaitForever →
    v.currentkey ≠ keyNone
  /-- The key code of a repeat is the one of the last event. -/
  repeated : event = false → .publish ∈ sts → v.keydata.keycode = e ∧ e ≠ keyNone
  /-- The same holds while a timeout may come. -/
  idle : .publish ∉ sts → v.timeout ≠ osWaitForever → v.keydata.keycode = e ∧ e ≠ keyNone

variable {sts new : List Stmt} {st : Stmt} {event : Bool} {v : Vars} {e : BitVec 32}
  {pressed : Fin numKeys → Bool} {oe : OsEvent}

/-- What the broker returned is not in the invariant. -/
theorem Coded.exception (h : Coded sts event v e) (exception : Exception) :
    Coded sts event { v with exception } e :=
  ⟨h.order, h.lastkey, h.coded, h.armed, h.repeated, h.idle⟩

/-- A statement that leaves the variables of the invariant as they are. -/
theorem Coded.tail (h : Coded (st :: sts) event v e) {v' : Vars} (hkeydata : st ≠ .setKeydata)
    (htimeout : st ≠ .setTimeout) (hpublish : st ≠ .publish) (hlastkey : v'.lastkey = v.lastkey)
    (hcode : v'.keydata = v.keydata) (hkey : v'.currentkey = v.currentkey)
    (htime : v'.timeout = v.timeout) : Coded sts event v' e := by
  have hmem : Stmt.publish ∈ sts → Stmt.publish ∈ st :: sts := List.mem_cons_of_mem _
  refine ⟨h.order.2, hlastkey.trans h.lastkey, ?_, ?_, ?_, ?_⟩
  · intro hev hp hs
    rw [hcode, hkey]
    exact h.coded hev (hmem hp) (by simp [hkeydata.symm, hs])
  · intro hev hp hs hne
    rw [hkey]
    exact h.armed hev (hmem hp) (by simp [htimeout.symm, hs]) (htime ▸ hne)
  · intro hev hp
    rw [hcode]
    exact h.repeated hev (hmem hp)
  · intro hp hne
    rw [hcode]
    exact h.idle (by simp [hpublish.symm, hp]) (htime ▸ hne)

/-- A statement that publishes nothing keeps the invariant. -/
theorem Coded.exec (h : Coded (st :: sts) event v e) (hpublish : st ≠ .publish) :
    Coded sts event (v.exec pressed st) e := by
  have horder := h.order.1
  have hmem : Stmt.publish ∈ sts → Stmt.publish ∈ st :: sts := List.mem_cons_of_mem _
  have hnot : Stmt.publish ∉ sts → Stmt.publish ∉ st :: sts := by simp [hpublish.symm]
  cases st with
  | storeKey =>
    refine ⟨h.order.2, h.lastkey, ?_, ?_, fun hev hp => h.repeated hev (hmem hp),
      fun hp hne => h.idle (hnot hp) hne⟩
    -- in a pass for an event the key code and the timeout are still to be set
    · exact fun hev _ hs => absurd (horder hev).1 hs
    · exact fun hev _ hs => absurd (horder hev).2 hs
  | setKeydata =>
    obtain ⟨hevent, hp⟩ := horder
    refine ⟨h.order.2, h.lastkey, fun _ _ _ => ?_, ?_, ?_, fun hp' => absurd hp hp'⟩
    · show v.currentkey ^^^ v.lastkey = v.currentkey
      rw [h.lastkey]
      exact BitVec.xor_zero
    · exact fun hev _ hs hne => h.armed hev (hmem hp) (by simp [hs]) hne
    · exact fun hev => absurd (hevent.symm.trans hev) (by decide)
  | setTimeout =>
    refine ⟨h.order.2, h.lastkey, ?_, ?_, fun hev hp => h.repeated hev (hmem hp),
      fun hp => absurd horder hp⟩
    · exact fun hev hp hs => h.coded hev (hmem hp) (by simp [hs])
    · intro _ _ _ hne hnone
      refine hne ?_
      show (if v.currentkey = 0 then osWaitForever else repeatTimeout) = osWaitForever
      exact if_pos hnone
  | readPin i =>
    refine h.tail (by simp) (by simp) (by simp) ?_ ?_ readPin_currentkey readPin_timeout
    all_goals
      simp only [Vars.exec]
      split_ifs <;> rfl
  | delay _ | signalClr _ | readStart =>
    exact h.tail (by simp) (by simp) (by simp) rfl rfl rfl rfl
  | publish => exact absurd rfl hpublish

/-- The update leaves the snapshot of the last event behind. -/
theorem Coded.publish (h : Coded (.publish :: sts) event v e) :
    Coded sts event v (if event then v.currentkey else e) := by
  obtain ⟨hkeydata, htimeout, hpublish⟩ := h.order.1
  refine ⟨h.order.2, h.lastkey, fun _ hp => absurd hp hpublish, fun _ hp => absurd hp hpublish,
    fun _ hp => absurd hp hpublish, fun _ hne => ?_⟩
  cases event with
  | true =>
    exact ⟨h.coded rfl List.mem_cons_self (by simp [hkeydata]),
      h.armed rfl List.mem_cons_self (by simp [htimeout]) hne⟩
  | false => exact h.repeated rfl List.mem_cons_self

/-- A wake-up: a pass for an event sets everything, and one for a repeat comes from a timeout. -/
theorem Coded.wake (h : Coded [] event v e)
    (htimeout : oe.status = .osEventTimeout → v.timeout ≠ osWaitForever) :
    Coded (body oe) (oe.signalled (keyEvPressed ||| keyEvReleased)) v e := by
  have hidle : v.timeout ≠ osWaitForever → v.keydata.keycode = e ∧ e ≠ keyNone :=
    h.idle (by simp)
  obtain ⟨hsignal, hbody⟩ | ⟨hsignal, hbody⟩ := body_cases oe
  · rw [hsignal, hbody]
    refine ⟨by decide, h.lastkey, fun _ _ hs => absurd (by decide) hs,
      fun _ _ hs => absurd (by decide) hs, fun hev => absurd hev (by decide),
      fun hp => absurd (by decide) hp⟩
  · rw [hsignal]
    refine ⟨?_, h.lastkey, fun hev => absurd hev (by decide), fun hev => absurd hev (by decide),
      fun _ hp => ?_, fun _ => hidle⟩
    · rcases hbody with hbody | hbody <;> rw [hbody] <;> decide
    · refine hidle (htimeout ?_)
      by_contra hne
      simp [body, hsignal, hne] at hp

namespace Solo

variable {io : BrokerImpl β} {s₀ s s' : Solo β} {h h' : History} {l : Label β}

/-- The invariant of a state and its history. -/
def Codes (s : Solo β × History) : Prop :=
  Coded s.1.todo s.2.event s.1.world.sys.kd (lastEvent s.2.updates)

theorem Entered.codes (h₀ : s₀.Entered) : Codes (s₀, ⟨false, []⟩) := by
  have htodo : s₀.todo = [] := by rw [todo, h₀.pc]
  rw [Codes, htodo]
  exact ⟨trivial, h₀.lastkey, fun hev => absurd hev Bool.false_ne_true,
    fun hev => absurd hev Bool.false_ne_true, fun _ hp => absurd hp (by simp),
    fun _ hne => absurd h₀.timeout hne⟩

theorem Publishing.todo_eq (hl : s.Publishing l) : ∃ sts, s.todo = .publish :: sts := by
  cases l with
  | run => exact ⟨_, List.eq_cons_of_mem_head? hl⟩
  | wake oe cleared => exact hl.elim
  | edge i => exact hl.elim
  | env w => exact hl.elim

theorem record_updates :
    (record s l s' h).updates = if s.Publishing l then s.update h :: h.updates else h.updates := by
  cases l with
  | run =>
    simp only [record]
    split_ifs <;> rfl
  | wake oe cleared => rfl
  | edge i => rfl
  | env w => rfl

theorem record_event_run : (record s .run s' h).event = h.event := by
  simp only [record]
  split_ifs <;> rfl

/-- A step keeps the invariant. -/
theorem Codes.step (hs : Codes (s, h)) (hst : Solo.step io s l = some s') :
    Codes (s', record s l s' h) := by
  cases l with
  | wake oe cleared =>
    obtain ⟨hpc, htimeout, rfl⟩ := wake_cases hst
    have htodo : s.todo = [] := by rw [todo, hpc]
    have hcoded : Coded [] h.event s.world.sys.kd (lastEvent h.updates) := htodo ▸ hs
    refine hcoded.wake fun hstatus => htimeout ?_ hstatus
    simp [OsEvent.signalled, hstatus]
  | run =>
    obtain ⟨hpc, rfl⟩ | ⟨st, sts, w, new, hpc, hexec, rfl⟩ := run_cases hst
    · have htodo : s.todo = [] := by rw [todo, hpc]
      have hcoded : Coded [] h.event s.world.sys.kd (lastEvent h.updates) := htodo ▸ hs
      have hl : ¬ s.Publishing (.run : Label β) := by simp [Publishing, htodo]
      rw [Codes, record_event_run, record_updates, if_neg hl]
      exact hcoded
    · have htodo : s.todo = st :: sts := by rw [todo, hpc]
      have hcoded : Coded (st :: sts) h.event s.world.sys.kd (lastEvent h.updates) := htodo ▸ hs
      obtain ⟨hnew, -, hkd⟩ := exec_spec hexec
      rw [Codes, record_event_run, record_updates]
      show Coded (new ++ sts) h.event w.sys.kd _
      rw [hnew, hkd]
      have hiff : s.Publishing (.run : Label β) ↔ st = .publish := by
        rw [Publishing, htodo, List.head?_cons, Option.some_inj]
      split_ifs with hl
      · obtain rfl := hiff.1 hl
        exact hcoded.publish.exception _
      · have hnext : Coded sts h.event (s.world.sys.kd.exec s.world.sys.pressed st)
            (lastEvent h.updates) := hcoded.exec fun h => hl (hiff.2 h)
        exact hnext.exception _
  | edge i =>
    rw [← Option.some.inj hst]
    exact hs
  | env w =>
    rw [← Option.some.inj hst]
    exact hs

theorem Codes.recorded {s s' : Solo β × History} (hs : Codes s)
    (hst : (recorded io).step s l = some s') : Codes s' := by
  obtain ⟨hsolo, hrec⟩ := Machine.observe_step hst
  have hnext : Codes (s'.1, record s.1 l s'.1 s.2) := Codes.step hs hsolo
  rw [← hrec] at hnext
  exact hnext

/-- What a step publishes. -/
theorem recorded_updates {s s' : Solo β × History} (hst : (recorded io).step s l = some s') :
    s'.2.updates = if s.1.Publishing l then s.1.update s.2 :: s.2.updates else s.2.updates := by
  rw [(Machine.observe_step hst).2]
  exact record_updates

/-- What is published next: the snapshot for an event, the last event for a repeat. -/
theorem Codes.update (hs : Codes (s, h)) (hl : s.Publishing l) :
    (h.event = true → (s.update h).keycode = (s.update h).snapshot) ∧
      (h.event = false → (s.update h).keycode = lastEvent h.updates ∧
        lastEvent h.updates ≠ keyNone) := by
  obtain ⟨sts, htodo⟩ := hl.todo_eq
  have hcoded : Coded (.publish :: sts) h.event s.world.sys.kd (lastEvent h.updates) := htodo ▸ hs
  have hkeydata : Stmt.setKeydata ∉ Stmt.publish :: sts := by
    simpa using hcoded.order.1.1
  exact ⟨fun hev => hcoded.coded hev List.mem_cons_self hkeydata,
    fun hev => hcoded.repeated hev List.mem_cons_self⟩

end Solo

/-! ### Key codes as changes -/

/-- The changes that have been published add up to the last snapshot. -/
theorem xorEvents_eq {us : List Update} (h : ReportChanges us) : xorEvents us = lastEvent us := by
  induction us with
  | nil => rfl
  | cons u us ih =>
    obtain ⟨hu, hus⟩ := h
    rw [xorEvents, lastEvent]
    split_ifs with hev
    · exact (hu hev).held
    · exact ih hus

/-- A snapshot is the change since the event before exactly when that had none. -/
theorem Update.reportsChange_iff {u : Update} {us : List Update} (hcode : u.keycode = u.snapshot)
    (hus : ReportChanges us) : u.ReportsChange us ↔ lastEvent us = keyNone := by
  constructor
  · rintro ⟨hchange, -, -⟩
    have hself : u.snapshot ^^^ u.snapshot = u.snapshot ^^^ (u.snapshot ^^^ lastEvent us) :=
      congrArg (u.snapshot ^^^ ·) (hcode.symm.trans hchange)
    rw [← BitVec.xor_assoc, BitVec.xor_self, BitVec.zero_xor] at hself
    exact hself.symm
  · intro hnone
    refine ⟨?_, ?_, fun hkeys => ?_⟩
    · rw [hnone, hcode, keyNone]
      simp
    · rw [xorEvents_eq hus, hnone, hcode, keyNone]
      simp
    -- nothing can have been released
    · rw [hnone] at hkeys ⊢
      have hzero : u.snapshot = 0 := by
        refine BitVec.eq_of_getLsbD_eq fun j _ => ?_
        have hj := hkeys j
        simp only [keyNone, BitVec.ofNat_eq_ofNat, BitVec.getLsbD_zero, Bool.false_eq_true,
          imp_false, Bool.not_eq_true] at hj
        simpa using hj
      rw [hcode, hzero]
      rfl

/-- **When key codes are changes.**  `KeyDecoder` alone, in any run from the entry to its loop:
every event is published with the change since the event before, the changes add up to the keys
held, and a release has the code of its keys, as long as every event is published when the event
before left no key held. -/
theorem reportChanges_iff (io : BrokerImpl β) {s₀ : Solo β} (h₀ : s₀.Entered)
    (ls : List (Solo.Label β)) :
    (Solo.recorded io).AllStates (fun s => ReportChanges s.2.updates) (s₀, ⟨false, []⟩) ls ↔
      (Solo.recorded io).AllSteps Solo.NoneHeld (s₀, ⟨false, []⟩) ls := by
  refine Machine.allStates_iff_allSteps h₀.codes trivial (fun _ _ _ => Solo.Codes.recorded) ?_
  intro s l s' hcodes hgood hst
  rw [Solo.recorded_updates hst]
  split_ifs with hl
  · have hiff : s.2.event = true →
        ((s.1.update s.2).ReportsChange s.2.updates ↔ lastEvent s.2.updates = keyNone) :=
      fun hev => Update.reportsChange_iff ((hcodes.update hl).1 hev) hgood
    constructor
    · exact fun hnew _ hev => (hiff hev).1 (hnew.1 hev)
    · exact fun hnone => ⟨fun hev => (hiff hev).2 (hnone hl hev), hgood⟩
  · exact iff_of_true hgood fun h => absurd h hl

/-- The steps of a pass for an event, with the flag that has caused it. -/
def pass (flag : Flags) : List (Solo.Label (Reference Task Task Buffer)) :=
  .wake ⟨.osEventSignal, flag.setWidth 32⟩ flag :: List.replicate 20 .run

/-- The key `KEY_N`, which reports as bit 0. -/
def keyN : Fin numKeys := ⟨0, Nat.succ_pos 11⟩

/-- `KEY_N` is pressed and released. -/
def pressRelease : List (Solo.Label (Reference Task Task Buffer)) :=
  .edge keyN :: pass keyEvPressed ++ .edge keyN :: pass keyEvReleased

theorem entered_entered : Solo.Entered entered := ⟨start_entered, rfl⟩

/-- The updates published for the press and the release of a key. -/
theorem updates_pressRelease :
    ((Solo.recorded Reference.impl).run (entered, ⟨false, []⟩) pressRelease).map
      (fun s => s.2.updates) = some [⟨true, 0, 0⟩, ⟨true, 1, 1⟩] := by
  decide +kernel

/-- The release of a key is published with no key in its code. -/
theorem not_reportChanges_release :
    ¬ (Solo.recorded Reference.impl).AllStates (fun s => ReportChanges s.2.updates)
      (entered, ⟨false, []⟩) pressRelease := by
  intro h
  obtain ⟨s, hrun, hupdates⟩ := Option.map_eq_some_iff.1 updates_pressRelease
  have hlast : ReportChanges s.2.updates := h.last hrun
  rw [hupdates] at hlast
  exact absurd (hlast.1 rfl).change (by decide)

/-- A single press is published with its key. -/
theorem reportChanges_press :
    (Solo.recorded Reference.impl).AllStates (fun s => ReportChanges s.2.updates)
      (entered, ⟨false, []⟩) (.edge keyN :: pass keyEvPressed) :=
  (reportChanges_iff Reference.impl entered_entered _).2 (by decide +kernel)

/-! ### Repeats -/

/-- A repeat of the last event reports held keys exactly if all of its keys are still held. -/
theorem Update.reportsHeld_iff {u : Update} {e : BitVec 32} (hcode : u.keycode = e)
    (he : e ≠ keyNone) : u.ReportsHeld ↔ KeysIn e u.snapshot := by
  constructor
  · intro h
    rw [← hcode]
    exact h.keys
  · intro hkeys
    refine ⟨fun hnone => he ?_, by rw [hcode]; exact hkeys⟩
    refine BitVec.eq_of_getLsbD_eq fun j _ => ?_
    have hj := hkeys j
    rw [hnone] at hj
    cases hbit : e.getLsbD j with
    | false => simp [keyNone]
    | true => simpa [keyNone] using hj hbit

/-- **When repeats report held keys.**  `KeyDecoder` alone, in any run from the entry to its loop:
every repeat is published with a key held in its own snapshot and with no other keys, as long as
the snapshot of every repeat has all the keys of the last event. -/
theorem repeatHeld_iff (io : BrokerImpl β) {s₀ : Solo β} (h₀ : s₀.Entered)
    (ls : List (Solo.Label β)) :
    (Solo.recorded io).AllStates (fun s => RepeatHeld s.2.updates) (s₀, ⟨false, []⟩) ls ↔
      (Solo.recorded io).AllSteps Solo.StillHeld (s₀, ⟨false, []⟩) ls := by
  refine Machine.allStates_iff_allSteps h₀.codes trivial (fun _ _ _ => Solo.Codes.recorded) ?_
  intro s l s' hcodes hgood hst
  rw [Solo.recorded_updates hst]
  split_ifs with hl
  · have hiff : s.2.event = false → ((s.1.update s.2).ReportsHeld ↔
        KeysIn (lastEvent s.2.updates) s.1.world.sys.kd.currentkey) := by
      intro hev
      obtain ⟨hcode, hne⟩ := (hcodes.update hl).2 hev
      exact Update.reportsHeld_iff hcode hne
    constructor
    · exact fun hnew _ hev => (hiff hev).1 (hnew.1 hev)
    · exact fun hheld => ⟨fun hev => (hiff hev).2 (hheld hl hev), hgood⟩
  · exact iff_of_true hgood fun h => absurd h hl

/-- The timeout of a held key, and `ls` during the debounce delay behind it. -/
def repeatPass (ls : List (Solo.Label (Reference Task Task Buffer))) :
    List (Solo.Label (Reference Task Task Buffer)) :=
  .wake ⟨.osEventTimeout, 0⟩ 0 :: ls ++ List.replicate 18 .run

/-- `KEY_N` is pressed, and released during the delay behind the timeout. -/
def pressRepeat : List (Solo.Label (Reference Task Task Buffer)) :=
  .edge keyN :: pass keyEvPressed ++ repeatPass [.edge keyN]

/-- The updates published for the press and the repeat. -/
theorem updates_pressRepeat :
    ((Solo.recorded Reference.impl).run (entered, ⟨false, []⟩) pressRepeat).map
      (fun s => s.2.updates) = some [⟨false, 0, 1⟩, ⟨true, 1, 1⟩] := by
  decide +kernel

/-- A key that is not held any more is repeated. -/
theorem not_repeatHeld_released :
    ¬ (Solo.recorded Reference.impl).AllStates (fun s => RepeatHeld s.2.updates)
      (entered, ⟨false, []⟩) pressRepeat := by
  intro h
  obtain ⟨s, hrun, hupdates⟩ := Option.map_eq_some_iff.1 updates_pressRepeat
  have hlast : RepeatHeld s.2.updates := h.last hrun
  rw [hupdates] at hlast
  exact (hlast.1 rfl).held rfl

/-- A key that is still held is repeated. -/
theorem repeatHeld_held :
    (Solo.recorded Reference.impl).AllStates (fun s => RepeatHeld s.2.updates)
      (entered, ⟨false, []⟩) (.edge keyN :: pass keyEvPressed ++ repeatPass []) :=
  (repeatHeld_iff Reference.impl entered_entered _).2 (by decide +kernel)

end KeyDecoder

end UavTelemetry
