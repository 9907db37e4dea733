import UavTelemetry.System.Frame

/-!
# Key events reach the subscribers

After every press or release `KeyDecoder` reads the keyboard and publishes the snapshot as `/keyb`.
If an earlier update is still pending the broker refuses, and `KeyDecoder` does nothing about it.
A history variable follows the snapshots: a snapshot that differs from that of the previous event
has to be carried by a publication that the broker accepts.

## Main definitions

* `KeyHistory` : the snapshot of the last event, and what has become of it.
* `World.KeysDelivered` : no changed snapshot has been refused, and `KeyDecoder` is not blocked
  for ever with one that it has not delivered.
* `World.PublishesUnowed` : `KeyDecoder` publishes a changed snapshot only when no subscriber owes
  an acknowledgement of `/keyb`.

## Main results

* `World.keysDelivered_iff` : the runs in which every changed snapshot is delivered.
-/

namespace UavTelemetry

open Rtx MsgBroker

/-- What becomes of the key events of a run. -/
structure KeyHistory where
  /-- The snapshot read after the last event. -/
  last : BitVec 32
  /-- A snapshot that differed from that of the event before has not been carried by an accepted
  publication yet. -/
  undelivered : Bool
  /-- The broker has refused such a snapshot, or accepted something else in its place. -/
  dropped : Bool
  deriving DecidableEq, Repr

/-- Before the first event, when no key was pressed. -/
def KeyHistory.start : KeyHistory := ⟨0, false, false⟩

/-- A step from `s` to `s'`.  The snapshot of an event becomes the key code in `setKeydata`, and an
accepted publication delivers it if the key data still hold it. -/
def KeyHistory.observe (s : Sys) (l : Label) (s' : Sys) (h : KeyHistory) : KeyHistory :=
  if l = .run .keyDecoder then
    match s.kdPc with
    | .body (.setKeydata :: _) =>
      { h with
        last := s.kd.currentkey
        undelivered := h.undelivered || s.kd.currentkey != h.last }
    | .body (.publish :: _) =>
      if s'.kd.exception = .noErrors ∧ s.kd.keydata.keycode = h.last then
        { h with undelivered := false }
      else { h with dropped := h.dropped || h.undelivered }
    | _ => h
  else h

namespace World

variable {β : Type}

/-- The system with the history of its key events. -/
def keyMachine (io : BrokerImpl β) (wait : OsTcb → BitVec 32 → ℕ → OsTcb) (topics : List String) :
    Machine (World β × KeyHistory) Label :=
  (machine io wait topics).observe fun w l w' => KeyHistory.observe w.sys l w'.sys

/-- No changed snapshot has been refused, and `KeyDecoder` is not blocked without a timeout while
its last one has not been carried by an accepted publication. -/
def KeysDelivered (p : World β × KeyHistory) : Prop :=
  p.2.dropped = false ∧
    ((p.1.sys.ths .keyDecoder).tcb.Blocked → p.1.sys.kd.timeout = osWaitForever →
      p.2.undelivered = false)

/-- When `KeyDecoder` publishes a changed snapshot, no subscriber owes an acknowledgement of an
earlier update of `/keyb`. -/
def PublishesUnowed (p : World β × KeyHistory) (l : Label) : Prop :=
  l = .run .keyDecoder → p.1.sys.kdTodo.head? = some .publish → p.2.undelivered = true →
    ∀ t, Feed.keyb.owed t (p.1.sys.ths t) = 0

instance (p : World β × KeyHistory) : Decidable (KeysDelivered p) :=
  inferInstanceAs (Decidable (_ ∧ _))

instance (p : World β × KeyHistory) (l : Label) : Decidable (PublishesUnowed p l) :=
  inferInstanceAs (Decidable (_ → _))

end World

/-! ### The order of the statements -/

namespace KeyDecoder

/-- Behind the assignment of the key code come the timeout and the publication. -/
def Ordered : List Stmt → Prop
  | [] => True
  | st :: sts => (st = .setKeydata → sts = [.setTimeout, .publish]) ∧ Ordered sts

instance decidableOrdered : (sts : List Stmt) → Decidable (Ordered sts)
  | [] => inferInstanceAs (Decidable True)
  | st :: sts =>
    have := decidableOrdered sts
    inferInstanceAs (Decidable ((st = .setKeydata → sts = [.setTimeout, .publish]) ∧ Ordered sts))

theorem ordered_body (oe : OsEvent) : Ordered (body oe) := by
  obtain ⟨-, hbody⟩ | ⟨-, hbody | hbody⟩ := body_cases oe
  all_goals
    rw [hbody]
    decide

end KeyDecoder

/-! ### Over the reference map -/

namespace World

variable {v v' : World (Reference Task Task Buffer)} {x : KeyHistory} {topics : List String}
  {l : Label}

/-- What keeps the snapshots delivered. -/
structure KeysOnTime (v : World (Reference Task Task Buffer)) (x : KeyHistory) : Prop where
  /-- `/keyb` is balanced. -/
  balanced : Feed.keyb.Balanced v.broker v.sys.ths
  /-- The size of `/keyb`. -/
  size : (v.broker.lookup "/keyb").map Entry.datasize = some Topic.sizeofKeyData
  /-- The tasks wait for any of their events. -/
  waits : v.sys.ths.WaitAny
  /-- No key was pressed when `KeyDecoder` started. -/
  lastkey : v.sys.kd.lastkey = 0
  /-- The order of the statements of `KeyDecoder`. -/
  ordered : KeyDecoder.Ordered v.sys.kdTodo
  /-- No changed snapshot has been refused. -/
  kept : x.dropped = false
  /-- A changed snapshot that has not been accepted is in the key data, and about to be
  published. -/
  soon : x.undelivered = true → v.sys.kd.keydata.keycode = x.last ∧
    (v.sys.kdPc = .body [.setTimeout, .publish] ∨ v.sys.kdPc = .body [.publish])

theorem KeysOnTime.keysDelivered (h : v.KeysOnTime x) : KeysDelivered (v, x) := by
  refine ⟨h.kept, fun hb _ => ?_⟩
  by_contra hne
  have hpc : v.sys.kdPc = .wait := (h.waits .keyDecoder).pc hb
  rcases (h.soon (by simpa using hne)).2 with hsoon | hsoon
  · rw [hpc] at hsoon
    cases hsoon
  · rw [hpc] at hsoon
    cases hsoon

theorem observe_of_ne {s s' : Sys} (h : ∀ st sts, s.kdPc = .body (st :: sts) →
    st ≠ .setKeydata ∧ st ≠ .publish) : x.observe s l s' = x := by
  unfold KeyHistory.observe
  by_cases hl : l = .run .keyDecoder
  · rw [if_pos hl]
    split
    · rename_i sts hpc
      exact absurd rfl (h _ sts hpc).1
    · rename_i sts hpc
      exact absurd rfl (h _ sts hpc).2
    · rfl
  · rw [if_neg hl]

/-- Between two statements nothing is observed, and every changed snapshot has been accepted. -/
theorem KeysOnTime.of_not_stmt (h : v.KeysOnTime x) (hpc : ∀ st sts, v.sys.kdPc ≠ .body (st :: sts))
    (s' : Sys) : x.observe v.sys l s' = x ∧ x.undelivered = false := by
  refine ⟨observe_of_ne fun st sts hbody => absurd hbody (hpc st sts), ?_⟩
  by_contra hne
  rcases (h.soon (by simpa using hne)).2 with hsoon | hsoon
  · exact hpc _ _ hsoon
  · exact hpc _ _ hsoon

theorem observe_setKeydata {s s' : Sys} {sts : List KeyDecoder.Stmt}
    (hpc : s.kdPc = .body (.setKeydata :: sts)) :
    (x.observe s (.run .keyDecoder) s').dropped = x.dropped ∧
      (x.observe s (.run .keyDecoder) s').last = s.kd.currentkey := by
  simp only [KeyHistory.observe, hpc, if_true, and_self]

theorem observe_publish {s s' : Sys} {sts : List KeyDecoder.Stmt}
    (hpc : s.kdPc = .body (.publish :: sts)) :
    x.observe s (.run .keyDecoder) s' =
      if s'.kd.exception = .noErrors ∧ s.kd.keydata.keycode = x.last then
        { x with undelivered := false }
      else { x with dropped := x.dropped || x.undelivered } := by
  simp only [KeyHistory.observe, hpc, if_true]

/-- What a step of `KeyDecoder` has to keep. -/
def KeysSoon (s : Sys) (x : KeyHistory) : Prop :=
  KeyDecoder.Ordered s.kdTodo ∧ x.dropped = false ∧
    (x.undelivered = true → s.kd.keydata.keycode = x.last ∧
      (s.kdPc = .body [.setTimeout, .publish] ∨ s.kdPc = .body [.publish]))

/-- A statement of `KeyDecoder`. -/
theorem KeysOnTime.soon_of_stmt (h : v.KeysOnTime x)
    (hC : PublishesUnowed (v, x) (.run .keyDecoder)) {st : KeyDecoder.Stmt}
    {sts : List KeyDecoder.Stmt} (hpc : v.sys.kdPc = .body (st :: sts))
    (hpc' : v'.sys.kdPc = .body sts)
    (hst : v.runTask Reference.impl svcSignalWaitAny .keyDecoder = some v') :
    KeysSoon v'.sys (x.observe v.sys (.run .keyDecoder) v'.sys) := by
  have hordered : KeyDecoder.Ordered (st :: sts) := by
    have htodo : v.sys.kdTodo = st :: sts := by rw [Sys.kdTodo, hpc]
    rw [← htodo]
    exact h.ordered
  refine ⟨?_, ?_⟩
  · have htodo : v'.sys.kdTodo = sts := by rw [Sys.kdTodo, hpc']
    rw [htodo]
    exact hordered.2
  · have hkeydata := keydata_of_runTask hst
    have hhead : v.sys.kdTodo.head? = some st := by
      rw [Sys.kdTodo, hpc]
      rfl
    by_cases hset : st = .setKeydata
    -- the snapshot is stored: the publication comes next
    · subst hset
      obtain ⟨hdropped, hlast⟩ :
          (x.observe v.sys (.run .keyDecoder) v'.sys).dropped = x.dropped ∧
            (x.observe v.sys (.run .keyDecoder) v'.sys).last = v.sys.kd.currentkey :=
        observe_setKeydata hpc
      refine ⟨by rw [hdropped, h.kept], fun _ => ⟨?_, Or.inl ?_⟩⟩
      · rw [hkeydata, if_pos hhead, hlast, h.lastkey]
        exact BitVec.xor_zero
      · rw [hpc', hordered.1 rfl]
    by_cases hpub : st = .publish
    · subst hpub
      rw [observe_publish hpc, exception_of_publish hpc hst]
      by_cases hx : x.undelivered = true
      -- nobody owes an acknowledgement, so the broker accepts
      · have howed := hC rfl hhead hx
        have hacc : (Reference.publish Threads.onTopicUpdate v.broker "/keyb" (some .keydata)
            Topic.sizeofKeyData v.sys.ths).2.1 = .noErrors :=
          (h.balanced.accepted_iff h.size _).2 howed
        rw [if_pos ⟨hacc, (h.soon hx).1⟩]
        exact ⟨h.kept, fun hne => by simp at hne⟩
      -- a repeated snapshot may be refused
      · rw [Bool.not_eq_true] at hx
        split_ifs
        · exact ⟨h.kept, fun hne => by simp at hne⟩
        · exact ⟨by simp [h.kept, hx], fun hne => by simp [hx] at hne⟩
    -- any other statement leaves the snapshot on its way
    · have hobs : x.observe v.sys (.run .keyDecoder) v'.sys = x := by
        refine observe_of_ne fun st' sts' hbody => ?_
        rw [hpc] at hbody
        cases hbody
        exact ⟨hset, hpub⟩
      rw [hobs]
      refine ⟨h.kept, fun hne => ?_⟩
      obtain ⟨hcode, hsoon⟩ := h.soon hne
      refine ⟨?_, ?_⟩
      · rw [hkeydata, if_neg (by simp [hhead, hset])]
        exact hcode
      · rcases hsoon with hsoon | hsoon
        · rw [hpc] at hsoon
          cases hsoon
          exact Or.inr hpc'
        · rw [hpc] at hsoon
          cases hsoon
          exact absurd rfl hpub

/-- A step of `KeyDecoder` that is no statement. -/
theorem KeysOnTime.soon_of_not_stmt (h : v.KeysOnTime x)
    (hpc : ∀ st sts, v.sys.kdPc ≠ .body (st :: sts)) {s' : Sys}
    (hordered : KeyDecoder.Ordered s'.kdTodo) : KeysSoon s' (x.observe v.sys l s') := by
  obtain ⟨hobs, hx⟩ := h.of_not_stmt (l := l) hpc s'
  rw [hobs]
  exact ⟨hordered, h.kept, fun hne => by simp [hx] at hne⟩

/-- A step of `KeyDecoder`. -/
theorem KeysOnTime.soon_of_run (h : v.KeysOnTime x) (hC : PublishesUnowed (v, x) (.run .keyDecoder))
    (hst : v.runTask Reference.impl svcSignalWaitAny .keyDecoder = some v') :
    KeysSoon v'.sys (x.observe v.sys (.run .keyDecoder) v'.sys) := by
  rcases runTask_cases hst with ⟨hpc, hv'⟩ | ⟨hpc, oe, th, -, hth, hv'⟩ | ⟨hpc, hv'⟩ |
    ⟨st, sts, u, new, hpc, hexec, hv'⟩
  -- the call of `signal_wait`, the return from it, the end of the body, a statement
  · have hkd : v.sys.kdPc = .head := hpc
    refine h.soon_of_not_stmt (by simp [hkd]) ?_
    rw [hv', Sys.kdTodo, kdPc_setTh]
    trivial
  · have hkd : v.sys.kdPc = .wait := hpc
    have hkd' : (v.setTh .keyDecoder th).sys.kdPc = .body (KeyDecoder.body oe) :=
      (kdPc_setTh v th).trans hth
    refine h.soon_of_not_stmt (by simp [hkd]) ?_
    rw [hv', Sys.kdTodo, hkd']
    exact KeyDecoder.ordered_body oe
  · have hkd : v.sys.kdPc = .body [] := hpc
    refine h.soon_of_not_stmt (by simp [hkd]) ?_
    rw [hv', Sys.kdTodo, kdPc_setTh]
    trivial
  · refine h.soon_of_stmt hC hpc ?_ hst
    have hnew : new = [] := (KeyDecoder.exec_access hexec).1
    rw [hv', hnew]
    exact kdPc_setTh u _

theorem KeysOnTime.step (h : v.KeysOnTime x) (hC : PublishesUnowed (v, x) l)
    (hst : (machine Reference.impl svcSignalWaitAny topics).step v l = some v') :
    v'.KeysOnTime (x.observe v.sys l v'.sys) := by
  have hmove := move_of_step hst
  have hsoon : KeysSoon v'.sys (x.observe v.sys l v'.sys) := by
    by_cases hl : l = .run .keyDecoder
    · subst hl
      exact h.soon_of_run hC hst
    · have hpc : v'.sys.kdPc = v.sys.kdPc := pc_eq_of_step hst hl
      have hobs : x.observe v.sys l v'.sys = x := if_neg hl
      rw [hobs, KeysSoon, Sys.kdTodo, hpc, kd_eq_of_step hst hl]
      exact ⟨h.ordered, h.kept, h.soon⟩
  have hlastkey : v'.sys.kd.lastkey = v.sys.kd.lastkey := by
    by_cases hl : l = .run .keyDecoder
    · subst hl
      exact lastkey_of_runTask hst
    · rw [kd_eq_of_step hst hl]
  exact ⟨h.balanced.move hmove, (hmove.map_datasize_eq "/keyb").trans h.size,
    hmove.waitsAny h.waits, hlastkey.trans h.lastkey, hsoon.1, hsoon.2.1, hsoon.2.2⟩

/-- A changed snapshot that is published while an acknowledgement is owed is refused. -/
theorem KeysOnTime.not_keysDelivered (h : v.KeysOnTime x) (hC : ¬ PublishesUnowed (v, x) l)
    (hst : (machine Reference.impl svcSignalWaitAny topics).step v l = some v') :
    ¬ KeysDelivered (v', x.observe v.sys l v'.sys) := by
  unfold PublishesUnowed at hC
  push Not at hC
  obtain ⟨rfl, htodo, hx, t, howed⟩ := hC
  obtain ⟨sts, htodo⟩ := List.head?_eq_some_iff.1 htodo
  have hpc := Sys.kdPc_of_kdTodo htodo
  rintro ⟨hkept, -⟩
  have hrefused : v'.sys.kd.exception ≠ .noErrors := by
    rw [exception_of_publish hpc hst]
    intro hacc
    exact howed ((h.balanced.accepted_iff h.size _).1 hacc t)
  rw [observe_publish hpc, if_neg fun hdelivered => hrefused hdelivered.1] at hkept
  change (x.dropped || x.undelivered) = false at hkept
  rw [show x.undelivered = true from hx, Bool.or_true] at hkept
  cases hkept

theorem keysOnTime_start (hs : v.sys.Start) (hm : v.broker.Ready) : v.KeysOnTime .start := by
  obtain ⟨keyb, hkeyb, hlookup⟩ := hm.lookup_keyb
  refine ⟨.start hs.ths ⟨_, hlookup, hkeyb, rfl⟩, by rw [hlookup]; rfl, fun t => ?_, hs.lastkey,
    ?_, rfl, fun hne => by cases hne⟩
  · rw [hs.ths t]
    exact Thread.waitsAny_init
  · have hkd : v.sys.kdPc = .head := congrArg Thread.pc (hs.ths .keyDecoder)
    rw [Sys.kdTodo, hkd]
    trivial

/-! ### Over the broker of the source -/

theorem keyMachine_bisimulation (wait : OsTcb → BitVec 32 → ℕ → OsTcb) (topics : List String) :
    (keyMachine MsgBroker.impl wait topics).Bisimulation (keyMachine Reference.impl wait topics)
      fun p q => p.1.Mirrors q.1 ∧ p.2 = q.2 :=
  (mirrors_bisimulation wait topics).observe fun _ _ _ _ _ h h' => by rw [h.2, h'.2]

section

variable {w : World (MsgBroker Task Task Buffer)} {v : World (Reference Task Task Buffer)}
  {topics : List String} {x : KeyHistory} {ls : List Label}

theorem Mirrors.allStates_keysDelivered_iff (h : w.Mirrors v) :
    (keyMachine MsgBroker.impl svcSignalWaitAny topics).AllStates KeysDelivered (w, x) ls ↔
      (keyMachine Reference.impl svcSignalWaitAny topics).AllStates KeysDelivered (v, x) ls := by
  refine (keyMachine_bisimulation svcSignalWaitAny topics).allStates_iff ?_ ⟨h, rfl⟩
  intro p q hpq
  rw [KeysDelivered, KeysDelivered, hpq.1.2, hpq.2]

theorem Mirrors.allSteps_publishesUnowed_iff (h : w.Mirrors v) :
    (keyMachine MsgBroker.impl svcSignalWaitAny topics).AllSteps PublishesUnowed (w, x) ls ↔
      (keyMachine Reference.impl svcSignalWaitAny topics).AllSteps PublishesUnowed (v, x) ls := by
  refine (keyMachine_bisimulation svcSignalWaitAny topics).allSteps_iff ?_ ⟨h, rfl⟩
  intro p q l hpq
  rw [PublishesUnowed, PublishesUnowed, hpq.1.2, hpq.2]

end

/-- **The runs in which no key change is lost**: every snapshot that differs from that of the
previous event is carried by a publication that the broker accepts, and `KeyDecoder` never blocks
for ever without having delivered the last one, exactly if no subscriber owes an acknowledgement of
`/keyb` whenever `KeyDecoder` publishes such a snapshot. -/
theorem keysDelivered_iff (topics : List String) {w : World (MsgBroker Task Task Buffer)}
    (h : w.Start) (ls : List Label) :
    (keyMachine MsgBroker.impl svcSignalWaitAny topics).AllStates KeysDelivered (w, .start) ls ↔
      (keyMachine MsgBroker.impl svcSignalWaitAny topics).AllSteps PublishesUnowed (w, .start)
        ls := by
  obtain ⟨v, hwv, hs, hm⟩ := h.mirrors
  rw [hwv.allStates_keysDelivered_iff, hwv.allSteps_publishesUnowed_iff]
  refine Machine.allStates_iff_of_strengthening (J := fun p => p.1.KeysOnTime p.2)
    (keysOnTime_start hs hm) (fun p hp => hp.keysDelivered) ?_ ?_
  · rintro ⟨v, x⟩ l ⟨v', x'⟩ hp hC hst
    obtain ⟨hst, hx'⟩ := Machine.observe_step hst
    rw [hx']
    exact hp.step hC hst
  · rintro ⟨v, x⟩ l ⟨v', x'⟩ hp hC hst
    obtain ⟨hst, hx'⟩ := Machine.observe_step hst
    change x' = _ at hx'
    rw [hx']
    exact hp.not_keysDelivered hC hst

/-- The first key is pressed. -/
theorem keysDelivered_press : ∃ w : World (MsgBroker Task Task Buffer), w.Start ∧
    (keyMachine MsgBroker.impl svcSignalWaitAny []).AllStates KeysDelivered (w, .start)
      (edgePass true) := by
  obtain ⟨w, hw, hmirrors⟩ := exists_start
  refine ⟨w, hw, (keysDelivered_iff [] hw _).2 ?_⟩
  rw [hmirrors.allSteps_publishesUnowed_iff]
  decide +kernel

/-- A key is pressed and released before the subscribers have run: the broker refuses the second
update, and `KeyDecoder` blocks for ever without having delivered the release. -/
theorem not_keysDelivered_release :
    ∃ w : World (MsgBroker Task Task Buffer), w.Start ∧
      ¬ (keyMachine MsgBroker.impl svcSignalWaitAny []).AllStates KeysDelivered (w, .start)
        (edgePass true ++ edgePass false ++ [.run .keyDecoder]) ∧
      ∃ p, (keyMachine MsgBroker.impl svcSignalWaitAny []).run (w, .start)
          (edgePass true ++ edgePass false ++ [.run .keyDecoder]) = some p ∧
        (p.1.sys.ths .keyDecoder).tcb.Blocked ∧ p.1.sys.kd.timeout = osWaitForever ∧
          p.2.undelivered = true := by
  obtain ⟨w, hw, hmirrors⟩ := exists_start
  obtain ⟨q, hq, hblocked, htimeout, hx⟩ : ∃ q : World (Reference Task Task Buffer) × KeyHistory,
      (keyMachine Reference.impl svcSignalWaitAny []).run (⟨Reference.setup, Sys.boot⟩, .start)
        (edgePass true ++ edgePass false ++ [.run .keyDecoder]) = some q ∧
      (q.1.sys.ths .keyDecoder).tcb.Blocked ∧ q.1.sys.kd.timeout = osWaitForever ∧
        q.2.undelivered = true := ⟨_, rfl, .inr rfl, rfl, rfl⟩
  obtain ⟨p, hp, hpq⟩ := (keyMachine_bisimulation svcSignalWaitAny []).symm.run
    (t := (w, .start)) ⟨hmirrors, rfl⟩ hq
  have hlost : (p.1.sys.ths .keyDecoder).tcb.Blocked ∧ p.1.sys.kd.timeout = osWaitForever ∧
      p.2.undelivered = true := by
    rw [hpq.1.2, hpq.2]
    exact ⟨hblocked, htimeout, hx⟩
  refine ⟨w, hw, fun hall => ?_, p, hp, hlost⟩
  have hdelivered := (hall.last hp).2 hlost.1 hlost.2.1
  rw [hlost.2.2] at hdelivered
  cases hdelivered

end World

end UavTelemetry
