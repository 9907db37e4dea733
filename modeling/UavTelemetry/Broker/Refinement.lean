import UavTelemetry.Broker.Reference

/-!
# The broker implements the reference map

`Represents b m` says that the linked lists of the broker `b` hold the map `m`.  Every operation
keeps it, and reports what the same operation on the map reports.

## Main definitions

* `MsgBroker.view` : the entries read off the linked lists.
* `MsgBroker.Represents` : the broker holds a map.
* `Handle` : what `findTopic` hands to the operations.

## Main results

* `findTopic_of_lookup`, `findTopic_of_lookup_none` : what `findTopic` finds.
* `Represents.installTopic`, ... : the operations on the broker and on the map.
* `run_refines` : every run of the broker is a run of the map.
-/

namespace UavTelemetry

namespace MsgBroker

variable {σ κ δ ω : Type}

/-- The entry of a topic, read off its observer list. -/
def Topic.view (t : Topic σ κ δ) : Except Fault (String × Entry σ κ δ) := do
  let observers ← t.observerList.contents
  return (t.name, ⟨t.datasize, t.data, t.count, observers⟩)

/-- The entries of the topics, read off the topic list. -/
def view (b : MsgBroker σ κ δ) : Except Fault (List (String × Entry σ κ δ)) :=
  match b.topicList with
  | none => .error .nullPointer
  | some l => do
    let topics ← l.contents
    topics.mapM Topic.view

open ItemList (Slot)

/-- A topic holds an entry. -/
def Topic.Rep (t : Topic σ κ δ) (e : Entry σ κ δ) : Prop :=
  t.datasize = e.datasize ∧ t.data = e.data ∧ t.count = e.count ∧
    ∃ os, t.observerList.Rep os ∧ os.map Slot.value = e.observers

/-- A slot of the topic list holds the entry of a name. -/
def SlotRep (x : Slot (Topic σ κ δ)) (e : String × Entry σ κ δ) : Prop :=
  x.value.name = e.1 ∧ x.value.Rep e.2

/-- A topic list holds a map. -/
def Holds (l : TopicList σ κ δ) (m : Reference σ κ δ) : Prop :=
  ∃ xs, l.Rep xs ∧ List.Forall₂ SlotRep xs m.entries

/-- A broker is initialised and holds a map. -/
def Represents (b : MsgBroker σ κ δ) (m : Reference σ κ δ) : Prop :=
  ∃ l, b.topicList = some l ∧ Holds l m

/-- What `findTopic` hands over for an installed topic: a pointer to a topic that holds the entry
of the name, through which the entry can be changed or removed. -/
structure Handle (l : TopicList σ κ δ) (m : Reference σ κ δ) (name : String) (e : Entry σ κ δ)
    (a : Addr) (t : Topic σ κ δ) : Prop where
  /-- The list still holds the map. -/
  holds : Holds l m
  /-- The pointer leads to the topic. -/
  read : l.items.read a = some t
  /-- The topic has the name that was searched. -/
  name_eq : t.name = name
  /-- It holds the entry. -/
  rep : t.Rep e
  /-- Overwriting the topic changes the entry. -/
  write : ∀ (t' : Topic σ κ δ) (f : Entry σ κ δ → Entry σ κ δ), t'.name = name → t'.Rep (f e) →
    Holds { l with items := l.items.write a t' } (m.modify name f)
  /-- Removing the topic removes the entry. -/
  remove : ∃ l', l.removeItem a = .ok l' ∧
    Holds { l' with items := l'.items.free a } (m.erase name)

/-! ### Finding a topic -/

theorem forall₂_split {α β : Type} {R : α → β → Prop} {xs : List α} {es fs : List β} {e : β}
    (h : List.Forall₂ R xs (es ++ e :: fs)) :
    ∃ ys x zs, xs = ys ++ x :: zs ∧ List.Forall₂ R ys es ∧ R x e ∧ List.Forall₂ R zs fs := by
  induction es generalizing xs with
  | nil =>
    cases h with
    | cons hx hzs => exact ⟨[], _, _, rfl, .nil, hx, hzs⟩
  | cons e' es ih =>
    cases h with
    | cons hy hrest =>
      obtain ⟨ys, x, zs, rfl, hys, hx, hzs⟩ := ih hrest
      exact ⟨_ :: ys, x, zs, rfl, .cons hy hys, hx, hzs⟩

theorem names_ne {name : String} {xs : List (Slot (Topic σ κ δ))}
    {es : List (String × Entry σ κ δ)} (h : List.Forall₂ SlotRep xs es)
    (hne : ∀ e ∈ es, name ≠ e.1) : ∀ x ∈ xs, name ≠ x.value.name := by
  induction h with
  | nil => simp
  | cons hx _ ih =>
    rw [List.forall_mem_cons] at hne ⊢
    exact ⟨fun heq => hne.1 (heq.trans hx.1), ih hne.2⟩

theorem find?_eq_none {name : String} {xs : List (Slot (Topic σ κ δ))}
    (h : ∀ x ∈ xs, name ≠ x.value.name) : (xs.find? fun x => name = x.value.name) = none :=
  List.find?_eq_none.2 fun x hx => by simpa using h x hx

variable {l : TopicList σ κ δ} {m : Reference σ κ δ} {name : String} {e : Entry σ κ δ}

/-- A name that is not installed is not found. -/
theorem findTopic_of_lookup_none (h : Holds l m) (hm : m.lookup name = none) :
    ∃ l', findTopic l name = .ok (l', none) ∧ Holds l' m := by
  obtain ⟨xs, hrep, hxs⟩ := h
  have hne : ∀ e ∈ m.entries, name ≠ e.1 := fun e he heq =>
    OrderedMap.lookup_eq_none_iff.1 hm (List.mem_map.2 ⟨e, he, heq.symm⟩)
  refine ⟨_, ?_, xs, hrep.search none, hxs⟩
  rw [findTopic, hrep.find, find?_eq_none (names_ne hxs hne)]
  rfl

/-- **Finding a topic**: an installed name is found. -/
theorem findTopic_of_lookup (h : Holds l m) (hm : m.lookup name = some e) :
    ∃ l' a t, findTopic l name = .ok (l', some a) ∧ Handle l' m name e a t := by
  obtain ⟨xs, hrep, hxs⟩ := h
  obtain ⟨es, fs, hentries, hes, hfs⟩ := OrderedMap.split hm
  rw [hentries] at hxs
  obtain ⟨ys, x, zs, rfl, hys, hx, hzs⟩ := forall₂_split hxs
  have hfind : ((ys ++ x :: zs).find? fun x => name = x.value.name) = some x := by
    rw [List.find?_append, find?_eq_none (names_ne hys hes), List.find?_cons_of_pos]
    · rfl
    · exact decide_eq_true hx.1.symm
  have hrep' := hrep.search (some x.node)
  refine ⟨_, x.item, x.value, by rw [findTopic, hrep.find, hfind]; rfl, ?_⟩
  refine ⟨⟨_, hrep', by rwa [hentries]⟩, hrep'.read x (by simp), hx.1, hx.2, ?_, ?_⟩
  · intro t' f hname ht'
    refine ⟨_, hrep'.write_item t', ?_⟩
    rw [OrderedMap.modify_entries hentries hes hfs]
    exact List.rel_append hys (.cons ⟨hname, ht'⟩ hzs)
  · obtain ⟨l', hremove, -, hrep''⟩ := hrep'.removeItem
    refine ⟨l', hremove, _, hrep'', ?_⟩
    rw [OrderedMap.erase_entries hentries hes hfs]
    exact List.rel_append hys hzs

/-! ### The operations -/

variable {b : MsgBroker σ κ δ}

theorem represents_init : ∃ b : MsgBroker σ κ δ, start.init true = .ok b ∧ b.Represents .empty :=
  ⟨_, rfl, _, rfl, [], ItemList.rep_new, .nil⟩

theorem Represents.init (h : b.Represents m) (list : Bool) : b.init list = .ok b := by
  obtain ⟨l, hl, -⟩ := h
  simp only [MsgBroker.init, hl]

theorem Represents.installTopic (h : b.Represents m) (name : String) (datasize : ℕ) :
    ∃ b' topic, b.installTopic .ok name datasize =
        .ok (b', (m.installTopic name datasize).2.1, topic) ∧
      topic.isSome = (m.installTopic name datasize).2.2 ∧
      b'.Represents (m.installTopic name datasize).1 := by
  obtain ⟨l, hl, hold⟩ := h
  cases hm : m.lookup name with
  | some e =>
    obtain ⟨l', a, t, hfind, hh⟩ := findTopic_of_lookup hold hm
    refine ⟨⟨some l'⟩, some a, ?_, ?_, ?_⟩
    · simp only [MsgBroker.installTopic, hl, hfind, ok_bind, Reference.installTopic, hm, pure_eq_ok]
    · simp only [Reference.installTopic, hm, Option.isSome_some]
    · simp only [Reference.installTopic, hm]
      exact ⟨l', rfl, hh.holds⟩
  | none =>
    obtain ⟨l', hfind, xs, hrep, hxs⟩ := findTopic_of_lookup_none hold hm
    obtain ⟨l'', hadd, hrep', -, -, -⟩ := hrep.push ⟨.new, name, none, datasize, 0⟩
    refine ⟨⟨some l''⟩, some l'.items.fresh, ?_, ?_, ?_⟩
    · simp only [MsgBroker.installTopic, hl, hfind, ok_bind, Malloc.ok, if_true, hadd,
        Reference.installTopic, hm, pure_eq_ok]
    · simp only [Reference.installTopic, hm, Option.isSome_some]
    · simp only [Reference.installTopic, hm]
      refine ⟨l'', rfl, _, hrep', ?_⟩
      rw [OrderedMap.push_entries hm]
      exact List.rel_append hxs (.cons ⟨rfl, rfl, rfl, rfl, [], ItemList.rep_new, rfl⟩ .nil)

theorem Represents.removeTopic (h : b.Represents m) (name : String) :
    ∃ b', b.removeTopic name = .ok (b', (m.removeTopic name).2) ∧
      b'.Represents (m.removeTopic name).1 := by
  obtain ⟨l, hl, hold⟩ := h
  cases hm : m.lookup name with
  | some e =>
    obtain ⟨l', a, t, hfind, hh⟩ := findTopic_of_lookup hold hm
    obtain ⟨l'', hremove, hold'⟩ := hh.remove
    refine ⟨⟨some { l'' with items := l''.items.free a }⟩, ?_, ?_⟩
    · simp only [MsgBroker.removeTopic, hl, hfind, ok_bind, hremove, Reference.removeTopic, hm,
        pure_eq_ok]
    · simp only [Reference.removeTopic, hm]
      exact ⟨_, rfl, hold'⟩
  | none =>
    obtain ⟨l', hfind, hold'⟩ := findTopic_of_lookup_none hold hm
    refine ⟨⟨some l'⟩, ?_, ?_⟩
    · simp only [MsgBroker.removeTopic, hl, hfind, ok_bind, Reference.removeTopic, hm, pure_eq_ok]
    · simp only [Reference.removeTopic, hm]
      exact ⟨l', rfl, hold'⟩

theorem Represents.attach (h : b.Represents m) (name : String) (subscriber : σ) (notify : κ) :
    ∃ b' obs, b.attach .ok name subscriber notify =
        .ok (b', (m.attach name subscriber notify).2.1, obs) ∧
      obs.isSome = (m.attach name subscriber notify).2.2 ∧
      b'.Represents (m.attach name subscriber notify).1 := by
  obtain ⟨l, hl, hold⟩ := h
  cases hm : m.lookup name with
  | some e =>
    obtain ⟨l', a, t, hfind, hh⟩ := findTopic_of_lookup hold hm
    obtain ⟨hsize, hdata, hcount, os, hos, hobs⟩ := hh.rep
    obtain ⟨list, hadd, hrep, -, -, -⟩ := hos.push ⟨subscriber, notify⟩
    refine ⟨⟨some { l' with items := l'.items.write a { t with observerList := list } }⟩,
      some t.observerList.items.fresh, ?_, ?_, ?_⟩
    · simp only [MsgBroker.attach, hl, hfind, ok_bind, Malloc.ok, if_true,
        Store.deref_of_read hh.read, hadd, Store.update_of_read hh.read, Reference.attach, hm,
        pure_eq_ok]
    · simp only [Reference.attach, hm, Option.isSome_some]
    · simp only [Reference.attach, hm]
      exact ⟨_, rfl, hh.write _ _ hh.name_eq ⟨hsize, hdata, hcount, _, hrep, by simp [hobs]⟩⟩
  | none =>
    obtain ⟨l', hfind, hold'⟩ := findTopic_of_lookup_none hold hm
    refine ⟨⟨some l'⟩, none, ?_, ?_, ?_⟩
    · simp only [MsgBroker.attach, hl, hfind, ok_bind, Reference.attach, hm, pure_eq_ok]
    · simp only [Reference.attach, hm, Option.isSome_none]
    · simp only [Reference.attach, hm]
      exact ⟨l', rfl, hold'⟩

/-- The observers of a list in which `findObserver` finds none, or of which it finds the first. -/
theorem findObserver_cases [DecidableEq σ] {list : ItemList (Observer σ κ)}
    {os : List (Slot (Observer σ κ))} (h : list.Rep os) (subscriber : σ) :
    ((os.map Slot.value).any (fun obs => subscriber = obs.observer) = false ∧
        ∃ list', findObserver list subscriber = .ok (list', none) ∧ list'.Rep os) ∨
      ((os.map Slot.value).any (fun obs => subscriber = obs.observer) = true ∧
        ∃ list' xs x ys, findObserver list subscriber = .ok (list', some x.item) ∧
          list'.Rep (xs ++ x :: ys) ∧
          (xs ++ ys).map Slot.value =
            (os.map Slot.value).eraseP fun obs => subscriber = obs.observer) := by
  cases hfind : os.find? fun x => subscriber = x.value.observer with
  | none =>
    refine Or.inl ⟨?_, _, by rw [findObserver, h.find, hfind]; rfl, h.search _⟩
    rw [List.any_eq_false]
    intro obs hobs
    obtain ⟨x, hx, rfl⟩ := List.mem_map.1 hobs
    exact List.find?_eq_none.1 hfind x hx
  | some x =>
    obtain ⟨hx, xs, ys, rfl, hxs⟩ := List.find?_eq_some_iff_append.1 hfind
    refine Or.inr ⟨?_, _, xs, x, ys, by rw [findObserver, h.find, hfind]; rfl, h.search _, ?_⟩
    · rw [List.any_eq_true]
      exact ⟨x.value, by simp, hx⟩
    · rw [List.map_append, List.map_append, List.map_cons, List.eraseP_append_right]
      · simp [of_decide_eq_true hx]
      · intro obs hobs
        obtain ⟨y, hy, rfl⟩ := List.mem_map.1 hobs
        simpa using hxs y hy

theorem Handle.write_same {l' : TopicList σ κ δ} {a : Addr} {t t' : Topic σ κ δ}
    (h : Handle l' m name e a t) (hname : t'.name = name) (ht' : t'.Rep e) :
    Holds { l' with items := l'.items.write a t' } m := by
  have hwrite := h.write t' (fun e => e) hname ht'
  rwa [OrderedMap.modify_id] at hwrite

theorem Represents.detach [DecidableEq σ] (h : b.Represents m) (name : String) (subscriber : σ) :
    ∃ b', b.detach name subscriber = .ok (b', (m.detach name subscriber).2) ∧
      b'.Represents (m.detach name subscriber).1 := by
  obtain ⟨l, hl, hold⟩ := h
  cases hm : m.lookup name with
  | some e =>
    obtain ⟨l', a, t, hfind, hh⟩ := findTopic_of_lookup hold hm
    obtain ⟨hsize, hdata, hcount, os, hos, hobs⟩ := hh.rep
    rcases findObserver_cases hos subscriber with
      ⟨hany, list, hobserver, hrep⟩ | ⟨hany, list, xs, x, ys, hobserver, hrep, herase⟩
    -- no observer of the subscriber: only the cursor of the observer list has moved
    · rw [hobs] at hany
      refine ⟨⟨some { l' with items := l'.items.write a { t with observerList := list } }⟩,
        ?_, ?_⟩
      · simp only [MsgBroker.detach, hl, hfind, ok_bind, Store.deref_of_read hh.read, hobserver,
          Store.update_of_read hh.read, Reference.detach, hm, hany, pure_eq_ok, Bool.false_eq_true,
          if_false]
      · simp only [Reference.detach, hm, hany, Bool.false_eq_true, if_false]
        exact ⟨_, rfl, hh.write_same hh.name_eq ⟨hsize, hdata, hcount, os, hrep, hobs⟩⟩
    -- the first observer of the subscriber is removed and freed
    · rw [hobs] at hany herase
      obtain ⟨list', hremove, -, hrep'⟩ := hrep.removeItem
      refine ⟨⟨some { l' with items := l'.items.write a { t with
        observerList := { list' with items := list'.items.free x.item } } }⟩, ?_, ?_⟩
      · simp only [MsgBroker.detach, hl, hfind, ok_bind, Store.deref_of_read hh.read, hobserver,
          hremove, Store.update_of_read hh.read, Reference.detach, hm, hany, pure_eq_ok, if_true]
      · simp only [Reference.detach, hm, hany, if_true]
        exact ⟨_, rfl, hh.write _ _ hh.name_eq ⟨hsize, hdata, hcount, _, hrep', herase⟩⟩
  | none =>
    obtain ⟨l', hfind, hold'⟩ := findTopic_of_lookup_none hold hm
    refine ⟨⟨some l'⟩, ?_, ?_⟩
    · simp only [MsgBroker.detach, hl, hfind, ok_bind, Reference.detach, hm, pure_eq_ok]
    · simp only [Reference.detach, hm]
      exact ⟨l', rfl, hold'⟩

/-- The loop of `publish` counts and notifies the observers from the cursor on. -/
theorem notifyLoop_eq (call : κ → σ → String → ω → ω) {t : Topic σ κ δ}
    {ps os : List (Slot (Observer σ κ))} (h : t.observerList.Rep (ps ++ os))
    (hs : t.observerList.search = os.head?.map Slot.node) {fuel : ℕ} (hfuel : os.length < fuel)
    (w : ω) :
    notifyLoop call fuel t (os.head?.map Slot.item) w =
      .ok ({ t with
          count := t.count + os.length
          observerList := { t.observerList with search := none } },
        Reference.notifyAll call t.name (os.map Slot.value) w) := by
  induction os generalizing t ps fuel w with
  | nil =>
    obtain ⟨fuel, rfl⟩ := Nat.exists_eq_succ_of_ne_zero (Nat.ne_zero_of_lt hfuel)
    simp only [List.head?_nil, Option.map_none] at hs
    simp only [List.head?_nil, Option.map_none, notifyLoop]
    rw [← hs]
    rfl
  | cons x os ih =>
    obtain ⟨fuel, rfl⟩ := Nat.exists_eq_succ_of_ne_zero (Nat.ne_zero_of_lt hfuel)
    simp only [List.head?_cons, Option.map_some] at hs
    have hread : t.observerList.items.deref (some x.item) = .ok x.value :=
      Store.deref_of_read (h.read x (by simp))
    have h' : { t.observerList with search := os.head?.map Slot.node }.Rep (ps ++ [x] ++ os) := by
      simpa using h.search _
    -- one round: `x` is counted and called, and the cursor moves to the observers `os`
    have hrest := ih (t := { t with
        count := t.count + 1
        observerList := { t.observerList with search := os.head?.map Slot.node } })
      h' rfl (Nat.lt_of_succ_lt_succ hfuel) (call x.value.notify x.value.observer t.name w)
    simp only [List.head?_cons, Option.map_some, notifyLoop, hread, ok_bind, h.getNextItem hs,
      hrest, List.length_cons, Nat.add_assoc, Nat.add_comm 1]
    rfl

/-- `publish` behind its checks leaves the observers as they are. -/
theorem notifyAll_of_rep (call : κ → σ → String → ω → ω) {t : Topic σ κ δ}
    {os : List (Slot (Observer σ κ))} (hos : t.observerList.Rep os) (data : Option δ)
    (datasize : ℕ) (w : ω) :
    notifyAll call t data datasize w =
      .ok ({ t with
          data := data
          datasize := datasize
          count := t.count + os.length
          observerList := { t.observerList with search := none } },
        Reference.notifyAll call t.name (os.map Slot.value) w) := by
  have hos' : { t.observerList with search := os.head?.map Slot.node }.Rep ([] ++ os) :=
    hos.search _
  have hloop := notifyLoop_eq call (t := { t with
      data := data
      datasize := datasize
      observerList := { t.observerList with search := os.head?.map Slot.node } })
    hos' rfl hos.length_lt_fuel w
  simp only [notifyAll, hos.getFirstItem, ok_bind]
  exact hloop

/-- **Publishing** behind the checks: every observer is counted and notified once. -/
theorem notifyAll_eq (call : κ → σ → String → ω → ω) {t : Topic σ κ δ} (h : t.Rep e)
    (hcount : e.count = 0) (data : Option δ) (w : ω) :
    ∃ t', notifyAll call t data e.datasize w =
        .ok (t', Reference.notifyAll call t.name e.observers w) ∧ t'.name = t.name ∧
      t'.Rep { e with data := data, count := e.observers.length } := by
  obtain ⟨-, -, hcount', os, hos, hobs⟩ := h
  have hrun := notifyAll_of_rep call hos data e.datasize w
  rw [hobs] at hrun
  refine ⟨_, hrun, rfl, rfl, rfl, ?_, os, hos.search none, hobs⟩
  simp [hcount', hcount, ← hobs]

theorem Represents.publish (call : κ → σ → String → ω → ω) (h : b.Represents m) (name : String)
    (data : Option δ) (datasize : ℕ) (w : ω) :
    ∃ b', b.publish call name data datasize w =
        .ok (b', (m.publish call name data datasize w).2) ∧
      b'.Represents (m.publish call name data datasize w).1 := by
  obtain ⟨l, hl, hold⟩ := h
  cases hm : m.lookup name with
  | some e =>
    obtain ⟨l', a, t, hfind, hh⟩ := findTopic_of_lookup hold hm
    have hsize := hh.rep.1
    have hcount := hh.rep.2.2.1
    -- the three answers of `publish` for an installed topic: pending, accepted, wrong size
    by_cases hpending : e.count > 0
    · refine ⟨⟨some l'⟩, ?_, ?_⟩
      · simp only [MsgBroker.publish, hl, hfind, ok_bind, Store.deref_of_read hh.read, hcount,
          Reference.publish, hm, hpending, if_true, pure_eq_ok]
      · simp only [Reference.publish, hm, hpending, if_true]
        exact ⟨l', rfl, hh.holds⟩
    by_cases hds : datasize = e.datasize
    · subst hds
      obtain ⟨t', hnotify, hname, hrep⟩ :=
        notifyAll_eq call hh.rep (Nat.eq_zero_of_not_pos hpending) data w
      refine ⟨⟨some { l' with items := l'.items.write a t' }⟩, ?_, ?_⟩
      · simp only [MsgBroker.publish, hl, hfind, ok_bind, Store.deref_of_read hh.read, hcount,
          hsize, Reference.publish, hm, hpending, if_false, ne_eq, not_true_eq_false, hnotify,
          hh.name_eq, Store.update_of_read hh.read, pure_eq_ok]
      · simp only [Reference.publish, hm, hpending, if_false, ne_eq, not_true_eq_false]
        exact ⟨_, rfl, hh.write t' (fun e => { e with data := data, count := e.observers.length })
          (hname.trans hh.name_eq) hrep⟩
    · refine ⟨⟨some l'⟩, ?_, ?_⟩
      · simp only [MsgBroker.publish, hl, hfind, ok_bind, Store.deref_of_read hh.read, hcount,
          hsize, Reference.publish, hm, hpending, if_false, ne_eq, hds, not_false_eq_true, if_true,
          pure_eq_ok]
      · simp only [Reference.publish, hm, hpending, if_false, ne_eq, hds, not_false_eq_true,
          if_true]
        exact ⟨l', rfl, hh.holds⟩
  | none =>
    obtain ⟨l', hfind, hold'⟩ := findTopic_of_lookup_none hold hm
    refine ⟨⟨some l'⟩, ?_, ?_⟩
    · simp only [MsgBroker.publish, hl, hfind, ok_bind, Reference.publish, hm, pure_eq_ok]
    · simp only [Reference.publish, hm]
      exact ⟨l', rfl, hold'⟩

/-- Behind `findTopic`, one notification of the topic found is acknowledged. -/
theorem Handle.consumedAt {l' : TopicList σ κ δ} {a : Addr} {t : Topic σ κ δ}
    (h : Handle l' m name e a t) :
    ∃ b', MsgBroker.consumedAt l' (some a) = .ok (b', .noErrors) ∧
      b'.Represents (m.modify name fun e => { e with count := e.count - 1 }) := by
  obtain ⟨hsize, hdata, hcount, hobs⟩ := h.rep
  by_cases hzero : t.count = 0
  -- the count stays `0`, and nothing is written
  · refine ⟨⟨some l'⟩, ?_, l', rfl, ?_⟩
    · simp only [MsgBroker.consumedAt, Store.deref_of_read h.read, ok_bind, hzero, ne_eq,
        not_true_eq_false, if_false, Option.isNone_some, Bool.false_eq_true, pure_eq_ok]
    · have hwrite := h.write t (fun e => { e with count := e.count - 1 }) h.name_eq
        ⟨hsize, hdata, by simp [← hcount, hzero], hobs⟩
      rwa [Store.write_same h.read] at hwrite
  · refine ⟨⟨some { l' with items := l'.items.write a { t with count := t.count - 1 } }⟩, ?_,
      _, rfl, ?_⟩
    · simp only [MsgBroker.consumedAt, Store.deref_of_read h.read, ok_bind, hzero, ne_eq,
        not_false_eq_true, if_true, Store.update_of_read h.read, Option.isNone_some,
        Bool.false_eq_true, if_false, pure_eq_ok]
    · exact h.write _ (fun e => { e with count := e.count - 1 }) h.name_eq
        ⟨hsize, hdata, by simp [hcount], hobs⟩

theorem Represents.consumed (h : b.Represents m) (hm : m.lookup name ≠ none) :
    ∃ b', b.consumed name = .ok (b', (m.consumed name).2) ∧
      b'.Represents (m.consumed name).1 := by
  obtain ⟨l, hl, hold⟩ := h
  obtain ⟨e, hm⟩ := Option.ne_none_iff_exists'.1 hm
  obtain ⟨l', a, t, hfind, hh⟩ := findTopic_of_lookup hold hm
  simp only [MsgBroker.consumed, hl, hfind, ok_bind, Reference.consumed, hm]
  exact hh.consumedAt

theorem Represents.getTopicData (h : b.Represents m) (name : String) :
    ∃ b', b.getTopicData name = .ok (b', m.getTopicData name) ∧ b'.Represents m := by
  obtain ⟨l, hl, hold⟩ := h
  cases hm : m.lookup name with
  | some e =>
    obtain ⟨l', a, t, hfind, hh⟩ := findTopic_of_lookup hold hm
    refine ⟨⟨some l'⟩, ?_, l', rfl, hh.holds⟩
    simp only [MsgBroker.getTopicData, hl, hfind, ok_bind, Store.deref_of_read hh.read, hh.rep.2.1,
      Reference.getTopicData, hm, pure_eq_ok]
  | none =>
    obtain ⟨l', hfind, hold'⟩ := findTopic_of_lookup_none hold hm
    refine ⟨⟨some l'⟩, ?_, l', rfl, hold'⟩
    simp only [MsgBroker.getTopicData, hl, hfind, ok_bind, Reference.getTopicData, hm, pure_eq_ok]

theorem Represents.getTopicDatasize (h : b.Represents m) (hm : m.lookup name ≠ none) :
    ∃ b', b.getTopicDatasize name = .ok (b', m.getTopicDatasize name) ∧ b'.Represents m := by
  obtain ⟨l, hl, hold⟩ := h
  obtain ⟨e, hm⟩ := Option.ne_none_iff_exists'.1 hm
  obtain ⟨l', a, t, hfind, hh⟩ := findTopic_of_lookup hold hm
  refine ⟨⟨some l'⟩, ?_, l', rfl, hh.holds⟩
  simp only [MsgBroker.getTopicDatasize, hl, hfind, ok_bind, Store.deref_of_read hh.read,
    hh.rep.1, Reference.getTopicDatasize, hm, Option.isNone_some, Bool.false_eq_true, if_false,
    pure_eq_ok]

/-! ### Runs -/

theorem Topic.Rep.view {t : Topic σ κ δ} (h : t.Rep e) : t.view = .ok (t.name, e) := by
  obtain ⟨hsize, hdata, hcount, os, hos, hobs⟩ := h
  simp only [Topic.view, hos.contents, ok_bind, hsize, hdata, hcount, hobs, pure_eq_ok]

theorem mapM_view {xs : List (Slot (Topic σ κ δ))} {es : List (String × Entry σ κ δ)}
    (h : List.Forall₂ SlotRep xs es) : (xs.map Slot.value).mapM Topic.view = .ok es := by
  induction h with
  | nil => rfl
  | cons hx _ ih =>
    rw [List.map_cons, List.mapM_cons, hx.2.view, hx.1, ok_bind, ih]
    rfl

/-- The entries read off the lists are those of the map. -/
theorem Represents.view (h : b.Represents m) : b.view = .ok m.entries := by
  obtain ⟨l, hl, xs, hrep, hxs⟩ := h
  simp only [MsgBroker.view, hl, hrep.contents, ok_bind]
  exact mapM_view hxs

section

variable [DecidableEq σ] (call : κ → σ → String → ω → ω)

/-- **One call**: the broker does and replies what the map does and replies. -/
theorem Represents.perform (h : b.Represents m) (w : ω) (c : Call σ κ δ) (hc : m.Permits c) :
    ∃ b', MsgBroker.perform call b w c =
        .ok ((b', (m.perform call w c).1.2), (m.perform call w c).2) ∧
      b'.Represents (m.perform call w c).1.1 := by
  cases c with
  | init => exact ⟨b, by simp only [MsgBroker.perform, h.init]; rfl, h⟩
  | installTopic name datasize =>
    obtain ⟨b', topic, hrun, htopic, h'⟩ := h.installTopic name datasize
    exact ⟨b', by simp only [MsgBroker.perform, hrun, ok_bind, htopic]; rfl, h'⟩
  | removeTopic name =>
    obtain ⟨b', hrun, h'⟩ := h.removeTopic name
    exact ⟨b', by simp only [MsgBroker.perform, hrun]; rfl, h'⟩
  | attach name subscriber notify =>
    obtain ⟨b', obs, hrun, hobs, h'⟩ := h.attach name subscriber notify
    exact ⟨b', by simp only [MsgBroker.perform, hrun, ok_bind, hobs]; rfl, h'⟩
  | detach name subscriber =>
    obtain ⟨b', hrun, h'⟩ := h.detach name subscriber
    exact ⟨b', by simp only [MsgBroker.perform, hrun]; rfl, h'⟩
  | publish name data datasize =>
    obtain ⟨b', hrun, h'⟩ := h.publish call name data datasize w
    exact ⟨b', by simp only [MsgBroker.perform, hrun]; rfl, h'⟩
  | consumed name =>
    obtain ⟨b', hrun, h'⟩ := h.consumed hc
    exact ⟨b', by simp only [MsgBroker.perform, hrun]; rfl, h'⟩
  | getTopicData name =>
    obtain ⟨b', hrun, h'⟩ := h.getTopicData name
    exact ⟨b', by simp only [MsgBroker.perform, hrun]; rfl, h'⟩
  | getTopicDatasize name =>
    obtain ⟨b', hrun, h'⟩ := h.getTopicDatasize hc
    exact ⟨b', by simp only [MsgBroker.perform, hrun]; rfl, h'⟩

/-- **Runs**: the broker does and replies what the map does and replies. -/
theorem Represents.run (h : b.Represents m) (w : ω) (cs : List (Call σ κ δ))
    (hcs : m.Admissible call w cs) :
    ∃ b', MsgBroker.run call b w cs =
        .ok ((b', (m.run call w cs).1.2), (m.run call w cs).2) ∧
      b'.Represents (m.run call w cs).1.1 := by
  induction cs generalizing b m w with
  | nil => exact ⟨b, rfl, h⟩
  | cons c cs ih =>
    obtain ⟨b₁, hstep, h₁⟩ := h.perform call w c hcs.1
    obtain ⟨b', hrun, h'⟩ := ih h₁ _ hcs.2
    refine ⟨b', ?_, h'⟩
    simp only [MsgBroker.run, hstep, ok_bind, hrun, pure_eq_ok]
    rfl

/-- A call leaves the entries of the topics that it does not name as they are. -/
theorem Reference.perform_others (m : Reference σ κ δ) (w : ω) {c : Call σ κ δ} {name : String}
    (hname : c.name = some name) : (m.perform call w c).1.1.others name = m.others name := by
  cases c with
  | init => cases hname
  | installTopic _ _ =>
    cases hname
    simp only [Reference.perform, Reference.installTopic]
    split
    · rfl
    · exact OrderedMap.others_push
  | removeTopic _ =>
    cases hname
    simp only [Reference.perform, Reference.removeTopic]
    split
    · rfl
    · exact OrderedMap.others_erase
  | attach _ _ _ =>
    cases hname
    simp only [Reference.perform, Reference.attach]
    split
    · rfl
    · exact OrderedMap.others_modify
  | detach _ _ =>
    cases hname
    simp only [Reference.perform, Reference.detach]
    split
    · rfl
    · split_ifs
      · exact OrderedMap.others_modify
      · rfl
  | publish _ _ _ =>
    cases hname
    simp only [Reference.perform, Reference.publish]
    split
    · rfl
    · split_ifs
      · rfl
      · rfl
      · exact OrderedMap.others_modify
  | consumed _ =>
    cases hname
    simp only [Reference.perform, Reference.consumed]
    split
    · rfl
    · exact OrderedMap.others_modify
  | getTopicData _ => rfl
  | getTopicDatasize _ => rfl

/-- **The broker is a finite map in installation order**: after `init`, every list of permitted
calls runs to its end and reports what the map reports; the lists of the broker then hold the
entries of the map, and one more call changes the entry of no other topic than the one it
names. -/
theorem run_refines (w : ω) (cs : List (Call σ κ δ))
    (hcs : Reference.Admissible call .empty w cs) :
    ∃ b₀ b, start.init true = .ok b₀ ∧
      MsgBroker.run call b₀ w cs = .ok ((b, (Reference.run call .empty w cs).1.2),
        (Reference.run call .empty w cs).2) ∧
      b.view = .ok (Reference.run call .empty w cs).1.1.entries ∧
      ∀ c name, c.name = some name → (Reference.run call .empty w cs).1.1.Permits c →
        ∃ b' w' reply entries,
          MsgBroker.perform call b (Reference.run call .empty w cs).1.2 c =
            .ok ((b', w'), reply) ∧
          b'.view = .ok entries ∧
          entries.filter (fun e => name ≠ e.1) =
            (Reference.run call .empty w cs).1.1.entries.filter (fun e => name ≠ e.1) := by
  obtain ⟨b₀, hinit, h₀⟩ := represents_init (σ := σ) (κ := κ) (δ := δ)
  obtain ⟨b, hrun, h⟩ := h₀.run call w cs hcs
  refine ⟨b₀, b, hinit, hrun, h.view, fun c name hname hc => ?_⟩
  obtain ⟨b', hstep, h'⟩ := h.perform call _ c hc
  exact ⟨b', _, _, _, hstep, h'.view, Reference.perform_others call _ _ hname⟩

end

/-- Two topics, two observers of the second one, and a publication refused until it has been
consumed. -/
theorem run_refines_keyb :
    ∃ b₀ b : MsgBroker ℕ Unit ℕ, start.init true = .ok b₀ ∧
      MsgBroker.run (fun _ s name w => (s, name) :: w) b₀ [] [.installTopic "/gps" 16,
          .installTopic "/keyb" 8, .attach "/keyb" 1 (), .attach "/keyb" 2 (),
          .publish "/keyb" (some 0) 8, .consumed "/keyb", .publish "/keyb" (some 0) 8,
          .removeTopic "/gps"] =
        .ok ((b, [(2, "/keyb"), (1, "/keyb")]),
          [(.noErrors, .pointer true), (.noErrors, .pointer true), (.noErrors, .pointer true),
            (.noErrors, .pointer true), (.noErrors, .done), (.noErrors, .done),
            (.topicPending, .done), (.noErrors, .done)]) := by
  obtain ⟨b₀, b, hinit, hrun, -⟩ := run_refines (σ := ℕ) (κ := Unit) (δ := ℕ)
    (fun _ s name w => (s, name) :: w) [] [.installTopic "/gps" 16, .installTopic "/keyb" 8,
      .attach "/keyb" 1 (), .attach "/keyb" 2 (), .publish "/keyb" (some 0) 8,
      .consumed "/keyb", .publish "/keyb" (some 0) 8, .removeTopic "/gps"]
    ⟨trivial, trivial, trivial, trivial, trivial, Option.isSome_iff_ne_none.1 rfl, trivial,
      trivial, trivial⟩
  exact ⟨b₀, b, hinit, hrun⟩

end MsgBroker

end UavTelemetry
