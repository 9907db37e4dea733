import UavTelemetry.Broker.Refinement

/-!
# Calls that cannot be carried out

Every operation of the broker stores an exception when it cannot be carried out.  This file says
which exceptions match a call in a state, with allocations that may fail, and when the operation
reports one of them and leaves everything as it was.

`removeTopic`, `detach` and `publish` return behind each `THROW`.  `consumed`, `getTopicData` and
`getTopicDatasize` do not return behind some of theirs and go on with a null pointer; `attach`
does not look at what `malloc` returned, and neither does `List::addItem`, which `installTopic`
and `attach` call.

## Main definitions

* `HasState` : the broker is not initialised, or initialised and holds a map.
* `performWith` : a call, with the allocations that succeed.
* `refusals` : the exceptions that match a call which cannot be carried out.
* `Reported` : such a call reports one of them and changes nothing.
* `Guarded` : the call meets no missing test.

## Main results

* `reported_iff` : a call is reported exactly if it is guarded.
* `HasState.runWith` : every run that returns leaves a broker in one of these states.
-/

namespace UavTelemetry

/-- There is memory for the observer and its link in `attach`. -/
def Malloc.attaches (m : Malloc) : Bool := m.block && m.node

/-- There is memory for the topic, its observer list and its link in `installTopic`. -/
def Malloc.installs (m : Malloc) : Bool := m.block && m.list && m.node

namespace MsgBroker

variable {σ κ δ ω : Type}

/-- The state of a broker: `none` before `init` and after `deinit`, otherwise the map that its
lists hold. -/
def HasState (b : MsgBroker σ κ δ) : Option (Reference σ κ δ) → Prop
  | none => b.topicList = none
  | some r => b.Represents r

/-- The call meets no missing test: it does not go on behind a `THROW` or with a null pointer
from `malloc`. -/
def Guarded (s : Option (Reference σ κ δ)) (m : Malloc) (c : Call σ κ δ) : Prop :=
  match s, c with
  | none, .getTopicData _ | none, .getTopicDatasize _ => False
  | some r, .consumed name | some r, .getTopicDatasize name => r.lookup name ≠ none
  | some r, .installTopic name _ => r.lookup name = none → m.block → m.installs
  | some r, .attach name _ _ => r.lookup name ≠ none → m.attaches
  | _, _ => True

section

variable [DecidableEq σ]

/-- The exceptions that match a call which cannot be carried out; `[]` if it can be.  A pending
topic and a wrong size may come together. -/
def refusals (s : Option (Reference σ κ δ)) (m : Malloc) (c : Call σ κ δ) : List Exception :=
  match s, c with
  | _, .init => []
  | none, _ => [.deinit]
  | some r, .installTopic name _ =>
    match r.lookup name with
    | some _ => [.topicExists]
    | none => if m.installs then [] else [.outOfMemory]
  | some r, .attach name _ _ =>
    match r.lookup name with
    | none => [.topicNotFound]
    | some _ => if m.attaches then [] else [.outOfMemory]
  | some r, .detach name subscriber =>
    match r.lookup name with
    | none => [.topicNotFound]
    | some e =>
      if e.observers.any fun obs => subscriber = obs.observer then [] else [.subscriberNotFound]
  | some r, .publish name _ datasize =>
    match r.lookup name with
    | none => [.topicNotFound]
    | some e =>
      (if e.count > 0 then [.topicPending] else []) ++
        (if datasize ≠ e.datasize then [.topicSize] else [])
  | some r, .removeTopic name | some r, .consumed name | some r, .getTopicData name
  | some r, .getTopicDatasize name =>
    match r.lookup name with
    | none => [.topicNotFound]
    | some _ => []

variable (call : κ → σ → String → ω → ω)

/-- A call of the broker for which the allocations `m` succeed. -/
def performWith (m : Malloc) (b : MsgBroker σ κ δ) (w : ω) :
    Call σ κ δ → Except Fault ((MsgBroker σ κ δ × ω) × Exception × Reply δ)
  | .init => do
    let b ← b.init m.list
    return ((b, w), .noErrors, .done)
  | .installTopic name datasize => do
    let (b, e, topic) ← b.installTopic m name datasize
    return ((b, w), e, .pointer topic.isSome)
  | .attach name subscriber notify => do
    let (b, e, obs) ← b.attach m name subscriber notify
    return ((b, w), e, .pointer obs.isSome)
  | c => perform call b w c

/-- A list of calls, each with the allocations that succeed for it. -/
def runWith (b : MsgBroker σ κ δ) (w : ω) :
    List (Malloc × Call σ κ δ) → Except Fault ((MsgBroker σ κ δ × ω) × List (Exception × Reply δ))
  | [] => .ok ((b, w), [])
  | c :: cs => do
    let (s, reply) ← performWith call c.1 b w c.2
    let (s, replies) ← runWith s.1 s.2 cs
    return (s, reply :: replies)

/-- If the call cannot be carried out, it returns with a matching exception, notifies nobody, and
leaves the topics with their observers, data, sizes and counts as they were. -/
def Reported (b : MsgBroker σ κ δ) (s : Option (Reference σ κ δ)) (w : ω) (m : Malloc)
    (c : Call σ κ δ) : Prop :=
  refusals s m c ≠ [] →
    ∃ b' e reply, performWith call m b w c = .ok ((b', w), e, reply) ∧ e ∈ refusals s m c ∧
      b'.HasState s ∧ b'.view = b.view

end

variable {b : MsgBroker σ κ δ} {m : Malloc} {r : Reference σ κ δ} {name : String} {e : Entry σ κ δ}

/-! ### Allocations that fail -/

theorem Represents.installTopic_of_lookup (h : b.Represents r) (hm : r.lookup name = some e)
    (m : Malloc) (datasize : ℕ) :
    ∃ b' topic, b.installTopic m name datasize = .ok (b', .topicExists, some topic) ∧
      b'.Represents r := by
  obtain ⟨l, hl, hold⟩ := h
  obtain ⟨l', a, t, hfind, hh⟩ := findTopic_of_lookup hold hm
  refine ⟨⟨some l'⟩, a, ?_, l', rfl, hh.holds⟩
  simp only [MsgBroker.installTopic, hl, hfind, ok_bind, pure_eq_ok]

/-- Without memory for the topic, nothing is installed. -/
theorem Represents.installTopic_noMemory (h : b.Represents r) (hm : r.lookup name = none)
    (hblock : m.block = false) (datasize : ℕ) :
    ∃ b', b.installTopic m name datasize = .ok (b', .outOfMemory, none) ∧ b'.Represents r := by
  obtain ⟨l, hl, hold⟩ := h
  obtain ⟨l', hfind, hold'⟩ := findTopic_of_lookup_none hold hm
  refine ⟨⟨some l'⟩, ?_, l', rfl, hold'⟩
  simp only [MsgBroker.installTopic, hl, hfind, ok_bind, hblock, Bool.false_eq_true, if_false,
    pure_eq_ok]

/-- With memory for the topic only, `installTopic` does not return. -/
theorem Represents.installTopic_fault (h : b.Represents r) (hm : r.lookup name = none)
    (hblock : m.block = true) (hm' : ¬ m.installs) (datasize : ℕ) :
    ∃ f, b.installTopic m name datasize = .error f := by
  obtain ⟨l, hl, hold⟩ := h
  obtain ⟨l', hfind, -⟩ := findTopic_of_lookup_none hold hm
  cases hlist : m.list with
  | false =>
    refine ⟨.noMemory, ?_⟩
    simp only [MsgBroker.installTopic, hl, hfind, ok_bind, hblock, hlist, if_true,
      Bool.false_eq_true, if_false]
  | true =>
    have hnode : m.node = false := by simpa [Malloc.installs, hblock, hlist] using hm'
    refine ⟨.nullPointer, ?_⟩
    simp only [MsgBroker.installTopic, hl, hfind, ok_bind, hblock, hlist, if_true, hnode,
      ItemList.addItem, Bool.false_eq_true, if_false]
    rfl

theorem Represents.attach_of_lookup_none (h : b.Represents r) (hm : r.lookup name = none)
    (m : Malloc) (subscriber : σ) (notify : κ) :
    ∃ b', b.attach m name subscriber notify = .ok (b', .topicNotFound, none) ∧
      b'.Represents r := by
  obtain ⟨l, hl, hold⟩ := h
  obtain ⟨l', hfind, hold'⟩ := findTopic_of_lookup_none hold hm
  refine ⟨⟨some l'⟩, ?_, l', rfl, hold'⟩
  simp only [MsgBroker.attach, hl, hfind, ok_bind, pure_eq_ok]

/-- Without memory for the observer or its link, `attach` writes through a null pointer. -/
theorem Represents.attach_fault (h : b.Represents r) (hm : r.lookup name = some e)
    (hm' : ¬ m.attaches) (subscriber : σ) (notify : κ) :
    b.attach m name subscriber notify = .error .nullPointer := by
  obtain ⟨l, hl, hold⟩ := h
  obtain ⟨l', a, t, hfind, hh⟩ := findTopic_of_lookup hold hm
  cases hblock : m.block with
  | false =>
    simp only [MsgBroker.attach, hl, hfind, ok_bind, hblock, Bool.false_eq_true, if_false]
  | true =>
    have hnode : m.node = false := by simpa [Malloc.attaches, hblock] using hm'
    simp only [MsgBroker.attach, hl, hfind, ok_bind, hblock, if_true,
      Store.deref_of_read hh.read, hnode, ItemList.addItem, Bool.false_eq_true, if_false]
    rfl

/-- `attach` allocates no list object. -/
theorem attach_eq_ok (hm : m.attaches) (subscriber : σ) (notify : κ) :
    b.attach m name subscriber notify = b.attach .ok name subscriber notify := by
  obtain ⟨block, list, node⟩ := m
  simp only [Malloc.attaches, Bool.and_eq_true] at hm
  obtain ⟨rfl, rfl⟩ := hm
  rfl

theorem eq_ok_of_installs (hm : m.installs) : m = .ok := by
  obtain ⟨block, list, node⟩ := m
  simp only [Malloc.installs, Bool.and_eq_true] at hm
  obtain ⟨⟨rfl, rfl⟩, rfl⟩ := hm
  rfl

/-! ### Calls that look up a missing topic -/

theorem Represents.consumed_fault (h : b.Represents r) (hm : r.lookup name = none) :
    b.consumed name = .error .nullPointer := by
  obtain ⟨l, hl, hold⟩ := h
  obtain ⟨l', hfind, -⟩ := findTopic_of_lookup_none hold hm
  simp only [MsgBroker.consumed, hl, hfind, ok_bind, MsgBroker.consumedAt, Store.deref]
  rfl

theorem Represents.getTopicDatasize_fault (h : b.Represents r) (hm : r.lookup name = none) :
    b.getTopicDatasize name = .error .nullPointer := by
  obtain ⟨l, hl, hold⟩ := h
  obtain ⟨l', hfind, -⟩ := findTopic_of_lookup_none hold hm
  simp only [MsgBroker.getTopicDatasize, hl, hfind, ok_bind, Store.deref]
  rfl

/-! ### The operations -/

section

variable [DecidableEq σ] (call : κ → σ → String → ω → ω) {w : ω} {c : Call σ κ δ}

theorem refusals_none (hc : c ≠ .init) :
    refusals (none : Option (Reference σ κ δ)) m c = [.deinit] := by
  cases c with
  | init => exact absurd rfl hc
  | _ => rfl

/-- On a broker that is not initialised, the operations return behind `THROW(DEINIT)`. -/
theorem performWith_deinit (h : b.topicList = none) (hc : c ≠ .init) (hg : Guarded none m c) :
    ∃ reply, performWith call m b w c = .ok ((b, w), .deinit, reply) := by
  cases c with
  | init => exact absurd rfl hc
  | installTopic name datasize =>
    exact ⟨.pointer false, by simp only [performWith, installTopic, h]; rfl⟩
  | removeTopic name => exact ⟨.done, by simp only [performWith, perform, removeTopic, h]; rfl⟩
  | attach name subscriber notify =>
    exact ⟨.pointer false, by simp only [performWith, attach, h]; rfl⟩
  | detach name subscriber => exact ⟨.done, by simp only [performWith, perform, detach, h]; rfl⟩
  | publish name data datasize =>
    exact ⟨.done, by simp only [performWith, perform, publish, h]; rfl⟩
  | consumed name => exact ⟨.done, by simp only [performWith, perform, consumed, h]; rfl⟩
  | getTopicData name => exact hg.elim
  | getTopicDatasize name => exact hg.elim

/-- A refused call leaves the map as it is, and replies with a matching exception. -/
theorem Reference.perform_refused (hr : refusals (some r) .ok c ≠ []) :
    (r.perform call w c).1 = (r, w) ∧ (r.perform call w c).2.1 ∈ refusals (some r) .ok c := by
  cases c with
  | init => exact absurd rfl hr
  | installTopic name datasize =>
    cases hm : r.lookup name with
    | none => exact absurd (by simp [refusals, hm, Malloc.installs, Malloc.ok]) hr
    | some e => simp [Reference.perform, Reference.installTopic, refusals, hm]
  | removeTopic name =>
    cases hm : r.lookup name with
    | none => simp [Reference.perform, Reference.removeTopic, refusals, hm]
    | some e => exact absurd (by simp [refusals, hm]) hr
  | attach name subscriber notify =>
    cases hm : r.lookup name with
    | none => simp [Reference.perform, Reference.attach, refusals, hm]
    | some e => exact absurd (by simp [refusals, hm, Malloc.attaches, Malloc.ok]) hr
  | detach name subscriber =>
    cases hm : r.lookup name with
    | none => simp [Reference.perform, Reference.detach, refusals, hm]
    | some e =>
      by_cases hany : e.observers.any fun obs => subscriber = obs.observer
      · exact absurd (by simp only [refusals, hm, hany, if_true]) hr
      · simp only [Reference.perform, Reference.detach, refusals, hm, hany]
        simp
  | publish name data datasize =>
    cases hm : r.lookup name with
    | none => simp [Reference.perform, Reference.publish, refusals, hm]
    | some e =>
      -- a pending topic is reported as such, whatever the size
      by_cases hcount : e.count > 0
      · simp only [Reference.perform, Reference.publish, refusals, hm, hcount, if_true]
        simp
      · by_cases hds : datasize = e.datasize
        · exact absurd (by simp [refusals, hm, hcount, hds]) hr
        · simp only [Reference.perform, Reference.publish, refusals, hm, hcount, if_false, ne_eq,
            hds, not_false_eq_true, if_true]
          simp
  | consumed name =>
    cases hm : r.lookup name with
    | none => simp [Reference.perform, Reference.consumed, refusals, hm]
    | some e => exact absurd (by simp [refusals, hm]) hr
  | getTopicData name =>
    cases hm : r.lookup name with
    | none => simp [Reference.perform, Reference.getTopicData, refusals, hm]
    | some e => exact absurd (by simp [refusals, hm]) hr
  | getTopicDatasize name =>
    cases hm : r.lookup name with
    | none => simp [Reference.perform, Reference.getTopicDatasize, refusals, hm]
    | some e => exact absurd (by simp [refusals, hm]) hr

/-- No refusal is reported as `NO_ERRORS`. -/
theorem noErrors_notMem_refusals (s : Option (Reference σ κ δ)) (m : Malloc) (c : Call σ κ δ) :
    Exception.noErrors ∉ refusals s m c := by
  intro h
  cases s with
  | none => cases c <;> simp [refusals] at h
  | some r =>
    cases c with
    | init => simp [refusals] at h
    | installTopic name _ =>
      cases hm : r.lookup name <;> simp only [refusals, hm] at h
      · split_ifs at h <;> simp at h
      · simp at h
    | attach name _ _ =>
      cases hm : r.lookup name <;> simp only [refusals, hm] at h
      · simp at h
      · split_ifs at h <;> simp at h
    | detach name _ =>
      cases hm : r.lookup name <;> simp only [refusals, hm] at h
      · simp at h
      · split_ifs at h <;> simp at h
    | publish name _ _ =>
      cases hm : r.lookup name <;> simp only [refusals, hm] at h
      · simp at h
      · split_ifs at h <;> simp at h
    | removeTopic name | consumed name | getTopicData name | getTopicDatasize name =>
      cases hm : r.lookup name <;> simp [refusals, hm] at h

/-- An update is not refused if none is being processed and its size is that of the topic. -/
theorem of_refusals_publish {data : Option δ} {datasize : ℕ} (hm : r.lookup name = some e)
    (hr : refusals (some r) m (.publish name data datasize) = []) :
    ¬ e.count > 0 ∧ ¬ datasize ≠ e.datasize := by
  simp only [refusals, hm, List.append_eq_nil_iff] at hr
  constructor
  · intro hcount
    simp [hcount] at hr
  · intro hds
    simp [hds] at hr

/-- A call that is not refused reports `NO_ERRORS`. -/
theorem Reference.perform_carried (hr : refusals (some r) m c = []) :
    (r.perform call w c).2.1 = .noErrors := by
  cases c with
  | init => rfl
  | installTopic name datasize =>
    cases hm : r.lookup name with
    | none => simp [Reference.perform, Reference.installTopic, hm]
    | some e => simp [refusals, hm] at hr
  | removeTopic name =>
    cases hm : r.lookup name with
    | none => simp [refusals, hm] at hr
    | some e => simp [Reference.perform, Reference.removeTopic, hm]
  | attach name subscriber notify =>
    cases hm : r.lookup name with
    | none => simp [refusals, hm] at hr
    | some e => simp [Reference.perform, Reference.attach, hm]
  | detach name subscriber =>
    cases hm : r.lookup name with
    | none => simp [refusals, hm] at hr
    | some e =>
      have hany : e.observers.any fun obs => subscriber = obs.observer := by
        by_contra hany
        simp only [refusals, hm, hany] at hr
        simp at hr
      simp only [Reference.perform, Reference.detach, hm, hany, if_true]
  | publish name data datasize =>
    cases hm : r.lookup name with
    | none => simp [refusals, hm] at hr
    | some e =>
      obtain ⟨hcount, hds⟩ := of_refusals_publish hm hr
      simp only [Reference.perform, Reference.publish, hm, hcount, hds, if_false]
  | consumed name =>
    cases hm : r.lookup name with
    | none => simp [refusals, hm] at hr
    | some e => simp [Reference.perform, Reference.consumed, hm]
  | getTopicData name =>
    cases hm : r.lookup name with
    | none => simp [refusals, hm] at hr
    | some e => simp [Reference.perform, Reference.getTopicData, hm]
  | getTopicDatasize name =>
    cases hm : r.lookup name with
    | none => simp [refusals, hm] at hr
    | some e => simp [Reference.perform, Reference.getTopicDatasize, hm]

/-- A refused call that allocates nothing. -/
theorem Represents.perform_refused (h : b.Represents r) (hc : r.Permits c)
    (hr : refusals (some r) .ok c ≠ []) :
    ∃ b' e reply, MsgBroker.perform call b w c = .ok ((b', w), e, reply) ∧
      e ∈ refusals (some r) .ok c ∧ b'.Represents r := by
  obtain ⟨b', hrun, h'⟩ := h.perform call w c hc
  obtain ⟨hmap, hmem⟩ := Reference.perform_refused call (w := w) hr
  rw [hmap] at hrun h'
  exact ⟨b', _, _, hrun, hmem, h'⟩

/-- **A guarded call that cannot be carried out** is reported and changes nothing. -/
theorem Represents.refused (h : b.Represents r) (hg : Guarded (some r) m c)
    (hr : refusals (some r) m c ≠ []) :
    ∃ b' e reply, performWith call m b w c = .ok ((b', w), e, reply) ∧
      e ∈ refusals (some r) m c ∧ b'.Represents r := by
  cases c with
  | init => exact absurd rfl hr
  | installTopic name datasize =>
    cases hm : r.lookup name with
    | some e =>
      obtain ⟨b', topic, hrun, h'⟩ := h.installTopic_of_lookup hm m datasize
      exact ⟨b', .topicExists, .pointer true, by simp only [performWith, hrun]; rfl,
        by simp [refusals, hm], h'⟩
    | none =>
      have hinstalls : ¬ m.installs := fun hi => hr (by simp [refusals, hm, hi])
      have hblock : m.block = false := by
        by_contra hblock
        exact hinstalls (hg hm (by simpa using hblock))
      obtain ⟨b', hrun, h'⟩ := h.installTopic_noMemory hm hblock datasize
      exact ⟨b', .outOfMemory, .pointer false, by simp only [performWith, hrun]; rfl,
        by simp [refusals, hm, hinstalls], h'⟩
  | attach name subscriber notify =>
    cases hm : r.lookup name with
    | none =>
      obtain ⟨b', hrun, h'⟩ := h.attach_of_lookup_none hm m subscriber notify
      exact ⟨b', .topicNotFound, .pointer false, by simp only [performWith, hrun]; rfl,
        by simp [refusals, hm], h'⟩
    | some e =>
      have hattaches : m.attaches := hg (by simp [hm])
      exact absurd (by simp [refusals, hm, hattaches]) hr
  | removeTopic name => exact h.perform_refused call (c := .removeTopic name) trivial hr
  | detach name subscriber => exact h.perform_refused call (c := .detach name subscriber) trivial hr
  | publish name data datasize => exact h.perform_refused call (c := .publish name data datasize) trivial hr
  | consumed name => exact h.perform_refused call (c := .consumed name) hg hr
  | getTopicData name => exact h.perform_refused call (c := .getTopicData name) trivial hr
  | getTopicDatasize name => exact h.perform_refused call (c := .getTopicDatasize name) hg hr

/-- **A call that is not guarded** cannot be carried out, and does not return. -/
theorem HasState.fault {s : Option (Reference σ κ δ)} (h : b.HasState s) (hg : ¬ Guarded s m c) :
    refusals s m c ≠ [] ∧ ∃ f, performWith call m b w c = .error f := by
  cases s with
  | none =>
    have hnone : b.topicList = none := h
    cases c with
    | getTopicData name =>
      exact ⟨by simp [refusals],
        .nullPointer, by simp only [performWith, perform, getTopicData, hnone]; rfl⟩
    | getTopicDatasize name =>
      exact ⟨by simp [refusals],
        .nullPointer, by simp only [performWith, perform, getTopicDatasize, hnone]; rfl⟩
    | _ => exact absurd trivial hg
  | some r =>
    have hrep : b.Represents r := h
    cases c with
    | installTopic name datasize =>
      simp only [Guarded, not_forall] at hg
      obtain ⟨hm, hblock, hinstalls⟩ := hg
      obtain ⟨f, hrun⟩ := hrep.installTopic_fault hm hblock hinstalls datasize
      exact ⟨by simp [refusals, hm, hinstalls], f, by simp only [performWith, hrun]; rfl⟩
    | attach name subscriber notify =>
      simp only [Guarded, not_forall] at hg
      obtain ⟨hm, hattaches⟩ := hg
      obtain ⟨e, hm⟩ := Option.ne_none_iff_exists'.1 hm
      exact ⟨by simp [refusals, hm, hattaches], .nullPointer,
        by simp only [performWith, hrep.attach_fault hm hattaches]; rfl⟩
    | consumed name =>
      have hm : r.lookup name = none := not_not.1 hg
      exact ⟨by simp [refusals, hm], .nullPointer,
        by simp only [performWith, perform, hrep.consumed_fault hm]; rfl⟩
    | getTopicDatasize name =>
      have hm : r.lookup name = none := not_not.1 hg
      exact ⟨by simp [refusals, hm], .nullPointer,
        by simp only [performWith, perform, hrep.getTopicDatasize_fault hm]; rfl⟩
    | _ => exact absurd trivial hg

/-- **When errors are reported and harmless.**  In every state of the broker, before `init` and
after `deinit` included, and with allocations that may fail: a call that cannot be carried out
reports a matching exception and changes nothing, exactly if it is guarded. -/
theorem reported_iff {s : Option (Reference σ κ δ)} (h : b.HasState s) (w : ω) (m : Malloc)
    (c : Call σ κ δ) : Reported call b s w m c ↔ Guarded s m c := by
  constructor
  · intro hreported
    by_contra hg
    obtain ⟨hr, f, hrun⟩ := h.fault call (w := w) hg
    obtain ⟨b', e, reply, hrun', -⟩ := hreported hr
    rw [hrun] at hrun'
    cases hrun'
  · intro hg hr
    cases s with
    | none =>
      have hc : c ≠ .init := by
        rintro rfl
        exact hr rfl
      obtain ⟨reply, hrun⟩ := performWith_deinit call (w := w) h hc hg
      exact ⟨b, .deinit, reply, hrun, by simp [refusals_none hc], h, rfl⟩
    | some r =>
      have hrep : b.Represents r := h
      obtain ⟨b', e, reply, hrun, hmem, h'⟩ := hrep.refused call (w := w) hg hr
      exact ⟨b', e, reply, hrun, hmem, h', by rw [h'.view, hrep.view]⟩

end

/-- An initialised broker without topics refuses to publish. -/
theorem reported_publish :
    Reported (fun _ _ _ w => w) (⟨some .new⟩ : MsgBroker ℕ Unit ℕ) (some .empty) () .ok
      (.publish "/gps" none 16) :=
  (reported_iff (fun _ _ _ w => w) (s := some .empty) ⟨_, rfl, [], ItemList.rep_new, .nil⟩ () .ok
    (.publish "/gps" none 16)).2 trivial

/-- An initialised broker without topics does not return from `consumed`. -/
theorem not_reported_consumed :
    HasState (⟨some .new⟩ : MsgBroker ℕ Unit ℕ) (some .empty) ∧
      ¬ Reported (fun _ _ _ w => w) (⟨some .new⟩ : MsgBroker ℕ Unit ℕ) (some .empty) () .ok
        (.consumed "/gps") := by
  refine ⟨⟨_, rfl, [], ItemList.rep_new, .nil⟩, ?_⟩
  intro h
  have hr : refusals (some .empty : Option (Reference ℕ Unit ℕ)) .ok (.consumed "/gps") ≠ [] :=
    List.cons_ne_nil _ _
  obtain ⟨b', e, reply, hrun, -⟩ := h hr
  have hfault : performWith (fun _ _ _ w => w) .ok (⟨some .new⟩ : MsgBroker ℕ Unit ℕ) ()
      (.consumed "/gps") = .error .nullPointer := rfl
  rw [hfault] at hrun
  cases hrun

/-! ### Runs -/

section

variable [DecidableEq σ] (call : κ → σ → String → ω → ω) {w w' : ω} {c : Call σ κ δ}
  {b' : MsgBroker σ κ δ}

/-- A call that can be carried out finds the memory and the topic that it needs. -/
theorem Represents.performWith_eq (h : b.Represents r) (hr : refusals (some r) m c = []) :
    performWith call m b w c = MsgBroker.perform call b w c ∧ r.Permits c := by
  cases c with
  | init => exact ⟨by simp only [performWith, MsgBroker.perform, h.init], trivial⟩
  | installTopic name datasize =>
    cases hm : r.lookup name with
    | some e => simp [refusals, hm] at hr
    | none =>
      have hinstalls : m.installs := by simpa [refusals, hm] using hr
      rw [eq_ok_of_installs hinstalls]
      exact ⟨rfl, trivial⟩
  | attach name subscriber notify =>
    cases hm : r.lookup name with
    | none => simp [refusals, hm] at hr
    | some e =>
      have hattaches : m.attaches := by simpa [refusals, hm] using hr
      exact ⟨by simp only [performWith, MsgBroker.perform, attach_eq_ok hattaches], trivial⟩
  | consumed name =>
    refine ⟨rfl, fun hm => ?_⟩
    simp [refusals, hm] at hr
  | getTopicDatasize name =>
    refine ⟨rfl, fun hm => ?_⟩
    simp [refusals, hm] at hr
  | _ => exact ⟨rfl, trivial⟩

/-- A call that returns does what the map does, or is refused and leaves the map as it is. -/
theorem Represents.performWith_cases {reply : Exception × Reply δ} (h : b.Represents r)
    (hrun : performWith call m b w c = .ok ((b', w'), reply)) :
    (refusals (some r) m c = [] ∧ r.Permits c ∧ b'.Represents (r.perform call w c).1.1 ∧
        w' = (r.perform call w c).1.2 ∧ reply = (r.perform call w c).2) ∨
      (reply.1 ∈ refusals (some r) m c ∧ b'.Represents r ∧ w' = w) := by
  by_cases hr : refusals (some r) m c = []
  · obtain ⟨heq, hpermits⟩ := h.performWith_eq call (w := w) hr
    obtain ⟨b₁, hrun', h'⟩ := h.perform call w c hpermits
    rw [heq, hrun'] at hrun
    cases hrun
    exact Or.inl ⟨hr, hpermits, h', rfl, rfl⟩
  · by_cases hg : Guarded (some r) m c
    · obtain ⟨b₁, e, reply', hrun', hmem, h'⟩ := h.refused call (w := w) hg hr
      rw [hrun'] at hrun
      cases hrun
      exact Or.inr ⟨hmem, h', rfl⟩
    · have hs : b.HasState (some r) := h
      obtain ⟨-, f, hrun'⟩ := hs.fault call (w := w) hg
      rw [hrun'] at hrun
      cases hrun

/-- **One call**: the broker is in one of the states again. -/
theorem HasState.performWith {s : Option (Reference σ κ δ)} {reply : Exception × Reply δ}
    (h : b.HasState s) (hrun : performWith call m b w c = .ok ((b', w'), reply)) :
    ∃ s', b'.HasState s' := by
  cases s with
  | none =>
    by_cases hg : Guarded none m c
    · by_cases hc : c = .init
      · subst hc
        have hnone : b.topicList = none := h
        obtain ⟨b₁, hinit, hb₁⟩ := bind_eq_ok hrun
        cases hb₁
        simp only [MsgBroker.init, hnone] at hinit
        split_ifs at hinit
        cases hinit
        exact ⟨some .empty, _, rfl, [], ItemList.rep_new, .nil⟩
      · obtain ⟨reply', hrun'⟩ := performWith_deinit call (w := w) h hc hg
        rw [hrun'] at hrun
        cases hrun
        exact ⟨none, h⟩
    · obtain ⟨-, f, hrun'⟩ := h.fault call (w := w) hg
      rw [hrun'] at hrun
      cases hrun
  | some r =>
    have hrep : b.Represents r := h
    rcases hrep.performWith_cases call hrun with ⟨-, -, h', -⟩ | ⟨-, h', -⟩
    · exact ⟨some _, h'⟩
    · exact ⟨some r, h'⟩

/-- **Runs**: whatever is called on a broker and whichever allocations fail, as long as the calls
return, the broker is in one of the states. -/
theorem HasState.runWith {s : Option (Reference σ κ δ)} {cs : List (Malloc × Call σ κ δ)}
    {replies : List (Exception × Reply δ)} (h : b.HasState s)
    (hrun : runWith call b w cs = .ok ((b', w'), replies)) : ∃ s', b'.HasState s' := by
  induction cs generalizing b w s replies with
  | nil =>
    cases hrun
    exact ⟨s, h⟩
  | cons c cs ih =>
    obtain ⟨⟨⟨b₁, w₁⟩, reply⟩, hstep, hrun⟩ := bind_eq_ok hrun
    obtain ⟨⟨s₂, replies'⟩, hrest, heq⟩ := bind_eq_ok hrun
    cases heq
    obtain ⟨s₁, h₁⟩ := h.performWith call hstep
    exact ih h₁ hrest

end

end MsgBroker

end UavTelemetry
