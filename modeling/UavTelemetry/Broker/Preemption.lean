import UavTelemetry.Broker.Refinement

/-!
# Lookups under preemption

`MUTEX_LOCK` and `MUTEX_UNLOCK` are empty, and every lookup moves the one cursor of the topic
list.  This file runs `findTopic` of a task with other tasks in between: at each pair of calls of
`getFirstItem` and `getNextItem`, tasks of higher priority may run operations of the broker to
their end.

## Main definitions

* `findTopicPreempted`, `consumedPreempted` : the preempted operations, for a schedule of calls.
* `Survives` : the lookup of a name is right under every schedule of calls on the given names.
* `Scan` : the cursor of the topic list stands at an index.

## Main results

* `Scan.perform` : a call leaves the cursor at the topic that it looks up.
* `survives_iff` : the names for which a lookup survives.
-/

namespace UavTelemetry

namespace MsgBroker

variable {σ κ δ ω : Type}

/-- The call is a `publish`, `consumed`, `getTopicData` or `attach` on one of the names. -/
def Call.LooksUp (names : List String) : Call σ κ δ → Prop
  | .publish name _ _ => name ∈ names
  | .consumed name => name ∈ names
  | .getTopicData name => name ∈ names
  | .attach name _ _ => name ∈ names
  | _ => False

section

variable [DecidableEq σ] (call : κ → σ → String → ω → ω)

/-- The loop of `findTopic` with the topic at hand.  The calls at the head of the schedule run
before the next call of `getNextItem`; behind the end of the schedule the loop runs on without
preemption. -/
def findTopicFrom (topicName : String) :
    List (List (Call σ κ δ)) → MsgBroker σ κ δ → ω → Option Addr →
      Except Fault ((MsgBroker σ κ δ × ω) × Option Addr)
  | _, b, w, none => .ok ((b, w), none)
  | [], b, w, some topic =>
    match b.topicList with
    | none => .error .nullPointer
    | some l => do
      let (l, topic) ← ItemList.findLoop (fun t => topicName = t.name) l.fuel l (some topic)
      return ((⟨some l⟩, w), topic)
  | calls :: sched, b, w, some topic =>
    match b.topicList with
    | none => .error .nullPointer
    | some l => do
      let t ← l.items.deref (some topic)
      if topicName = t.name then return ((b, w), some topic)
      else
        let (s, _) ← run call b w calls
        match s.1.topicList with
        | none => .error .nullPointer
        | some l =>
          let (l, next) ← l.getNextItem
          findTopicFrom topicName sched ⟨some l⟩ s.2 next

/-- `findTopic` of a task that is preempted as the schedule says. -/
def findTopicPreempted (b : MsgBroker σ κ δ) (w : ω) (topicName : String)
    (sched : List (List (Call σ κ δ))) : Except Fault ((MsgBroker σ κ δ × ω) × Option Addr) :=
  match b.topicList with
  | none => .error .nullPointer
  | some l => do
    let (l, topic) ← l.getFirstItem
    findTopicFrom call topicName sched ⟨some l⟩ w topic

/-- `consumed` of a task that is preempted in its `findTopic`. -/
def consumedPreempted (b : MsgBroker σ κ δ) (w : ω) (topicName : String)
    (sched : List (List (Call σ κ δ))) : Except Fault ((MsgBroker σ κ δ × ω) × Exception) := do
  let (s, topic) ← findTopicPreempted call b w topicName sched
  match s.1.topicList with
  | none => .error .nullPointer
  | some l =>
    let (b, exception) ← consumedAt l topic
    return ((b, s.2), exception)

/-- What `findTopic` returns when it is not preempted, null if it faults. -/
def topicOf (b : MsgBroker σ κ δ) (topicName : String) : Option Addr :=
  match b.topicList with
  | none => none
  | some l =>
    match findTopic l topicName with
    | .error _ => none
    | .ok r => r.2

/-- Under every schedule of calls on `names`, `findTopic` returns what it returns when it is not
preempted, and `consumed` does not report `TOPIC_NOT_FOUND` or go on with a null topic. -/
def Survives (b : MsgBroker σ κ δ) (w : ω) (topicName : String) (names : List String) : Prop :=
  ∀ sched : List (List (Call σ κ δ)), (∀ calls ∈ sched, ∀ c ∈ calls, c.LooksUp names) →
    (∃ s, findTopicPreempted call b w topicName sched = .ok (s, topicOf b topicName)) ∧
      ∃ s, consumedPreempted call b w topicName sched = .ok (s, .noErrors)

end

/-- The place of a name in the order of installation. -/
def Reference.position (m : Reference σ κ δ) (name : String) : ℕ := m.keys.idxOf name

/-! ### Searching from an index on -/

section

variable {α β : Type} [DecidableEq β] {f : α → β} {k : β} {ys : List α} {i : ℕ}

/-- A search that starts no later than at the index of a key finds the key. -/
theorem find?_drop_of_le (hmem : k ∈ ys.map f) (hi : i ≤ (ys.map f).idxOf k) :
    ((ys.drop i).find? fun y => k = f y) = ys[(ys.map f).idxOf k]? := by
  induction ys generalizing i with
  | nil => simp at hmem
  | cons y ys ih =>
    by_cases hy : f y = k
    · subst hy
      obtain rfl : i = 0 := by simpa using hi
      simp
    · have hidx : ((y :: ys).map f).idxOf k = (ys.map f).idxOf k + 1 := by
        simp [hy]
      have hmem' : k ∈ ys.map f := by
        rw [List.map_cons, List.mem_cons] at hmem
        exact hmem.resolve_left fun heq => hy heq.symm
      -- the key is behind `y`: a search from `y` passes over it
      rw [hidx] at hi ⊢
      cases i with
      | zero =>
        rw [List.drop_zero, List.find?_cons_of_neg (by simpa using Ne.symm hy)]
        exact ih hmem' (Nat.zero_le _)
      | succ i => exact ih hmem' (Nat.le_of_succ_le_succ hi)

/-- A search that starts behind the only entry of a key finds nothing. -/
theorem find?_drop_of_lt (hnodup : (ys.map f).Nodup) (hi : (ys.map f).idxOf k < i) :
    ((ys.drop i).find? fun y => k = f y) = none := by
  rw [List.find?_eq_none]
  intro y hy heq
  obtain ⟨j, hj, rfl⟩ := List.mem_iff_getElem.1 hy
  rw [List.length_drop] at hj
  have hlen : i + j < (ys.map f).length := by
    rw [List.length_map]
    omega
  have hk : (ys.map f)[i + j] = k := by simpa using (of_decide_eq_true heq).symm
  have hidx := hnodup.idxOf_getElem (i + j) hlen
  rw [hk] at hidx
  omega

end

/-! ### The cursor -/

open ItemList (Slot links)

/-- The topic list consists of the links `ks`, its topics have the names `names`, and its cursor
stands at the index `i`. -/
def Scan (b : MsgBroker σ κ δ) (names : List String) (ks : List (Addr × Addr)) (i : ℕ) : Prop :=
  ∃ l xs, ∃ m : Reference σ κ δ, b.topicList = some l ∧ l.Rep xs ∧
    List.Forall₂ SlotRep xs m.entries ∧ links xs = ks ∧ m.keys = names ∧
    l.search = xs[i]?.map Slot.node

variable {b : MsgBroker σ κ δ} {l : TopicList σ κ δ} {m : Reference σ κ δ} {names : List String}
  {ks : List (Addr × Addr)} {xs : List (Slot (Topic σ κ δ))} {name : String} {i : ℕ}

theorem map_name_eq {es : List (String × Entry σ κ δ)} (h : List.Forall₂ SlotRep xs es) :
    xs.map (fun x => x.value.name) = es.map Prod.fst := by
  induction h with
  | nil => rfl
  | cons hx _ ih => rw [List.map_cons, List.map_cons, hx.1, ih]

theorem map_item_eq : xs[i]?.map Slot.item = (links xs)[i]?.map Prod.snd := by
  rw [links, List.getElem?_map, Option.map_map]
  rfl

theorem map_node_eq : xs[i]?.map Slot.node = (links xs)[i]?.map Prod.fst := by
  rw [links, List.getElem?_map, Option.map_map]
  rfl

/-- The loop of `findTopic` from the cursor on, as long as the cursor is not behind the name. -/
theorem Scan.findLoop_of_le (h : Scan b names ks i) (hmem : name ∈ names)
    (hi : i ≤ names.idxOf name) :
    ∃ l l', b.topicList = some l ∧
      ItemList.findLoop (fun t => name = t.name) l.fuel l (ks[i]?.map Prod.snd) =
        .ok (l', ks[names.idxOf name]?.map Prod.snd) ∧
      Scan ⟨some l'⟩ names ks (names.idxOf name) := by
  obtain ⟨l, xs, m, hl, hrep, hxs, rfl, rfl, hs⟩ := h
  have hnames := map_name_eq hxs
  have hfind : ((xs.drop i).find? fun x => name = x.value.name) = xs[m.keys.idxOf name]? := by
    rw [OrderedMap.keys, ← hnames] at hmem hi ⊢
    exact find?_drop_of_le hmem hi
  refine ⟨l, { l with search := xs[m.keys.idxOf name]?.map Slot.node }, hl, ?_, _, xs, m, rfl,
    hrep.search _, hxs, rfl, rfl, rfl⟩
  rw [← map_item_eq, ← map_item_eq, hrep.findLoop_index hs, hfind]

/-- The loop of `findTopic` from the cursor on, once the cursor is behind the name. -/
theorem Scan.findLoop_of_lt (h : Scan b names ks i) (hi : names.idxOf name < i) :
    ∃ l l', b.topicList = some l ∧
      ItemList.findLoop (fun t => name = t.name) l.fuel l (ks[i]?.map Prod.snd) =
        .ok (l', none) := by
  obtain ⟨l, xs, m, hl, hrep, hxs, rfl, rfl, hs⟩ := h
  have hnames := map_name_eq hxs
  have hfind : ((xs.drop i).find? fun x => name = x.value.name) = none := by
    have hnodup := m.nodup
    rw [OrderedMap.keys] at hi
    rw [← hnames] at hi hnodup
    exact find?_drop_of_lt hnodup hi
  refine ⟨l, { l with search := none }, hl, ?_⟩
  rw [← map_item_eq, hrep.findLoop_index hs, hfind]
  rfl

/-- `getNextItem` moves the cursor on. -/
theorem Scan.getNextItem (h : Scan b names ks i) (hi : i < ks.length) :
    ∃ l l', b.topicList = some l ∧ l.getNextItem = .ok (l', ks[i + 1]?.map Prod.snd) ∧
      Scan ⟨some l'⟩ names ks (i + 1) := by
  obtain ⟨l, xs, m, hl, hrep, hxs, rfl, rfl, hs⟩ := h
  have hlt : i < xs.length := by simpa [links] using hi
  refine ⟨l, { l with search := xs[i + 1]?.map Slot.node }, hl, ?_, _, xs, m, rfl,
    hrep.search _, hxs, rfl, rfl, rfl⟩
  rw [← map_item_eq, hrep.getNextItem_index hlt hs]

/-- `getFirstItem` moves the cursor to the first topic. -/
theorem Represents.getFirstItem (h : b.Represents m) :
    ∃ ks l l', b.topicList = some l ∧ l.getFirstItem = .ok (l', ks[0]?.map Prod.snd) ∧
      Scan ⟨some l'⟩ m.keys ks 0 ∧ ks.length = m.keys.length := by
  obtain ⟨l, hl, xs, hrep, hxs⟩ := h
  refine ⟨links xs, l, { l with search := xs[0]?.map Slot.node }, hl, ?_,
    ⟨_, xs, m, rfl, hrep.search _, hxs, rfl, rfl, rfl⟩, ?_⟩
  · rw [← map_item_eq, hrep.getFirstItem, List.head?_eq_getElem?]
  · rw [links, List.length_map, OrderedMap.keys, List.length_map, hxs.length_eq]

/-- The topic at an index. -/
theorem Scan.read (h : Scan b names ks i) {a : Addr} (hi : ks[i]?.map Prod.snd = some a) :
    ∃ l t, b.topicList = some l ∧ l.items.read a = some t ∧ names[i]? = some t.name := by
  obtain ⟨l, xs, m, hl, hrep, hxs, rfl, rfl, -⟩ := h
  rw [← map_item_eq] at hi
  obtain ⟨x, hx, rfl⟩ := Option.map_eq_some_iff.1 hi
  refine ⟨l, x.value, hl, hrep.read x (List.mem_of_getElem? hx), ?_⟩
  rw [OrderedMap.keys, ← map_name_eq hxs, List.getElem?_map, hx]
  rfl

theorem Call.LooksUp.exists_name {c : Call σ κ δ} (hc : c.LooksUp names) :
    ∃ name ∈ names, c.name = some name := by
  cases c with
  | publish name _ _ => exact ⟨name, hc, rfl⟩
  | consumed name => exact ⟨name, hc, rfl⟩
  | getTopicData name => exact ⟨name, hc, rfl⟩
  | attach name _ _ => exact ⟨name, hc, rfl⟩
  | _ => exact hc.elim

/-- Without preemption, an installed name is found at its index. -/
theorem topicOf_eq {l' : TopicList σ κ δ} (hl : b.topicList = some l)
    (hfirst : l.getFirstItem = .ok (l', ks[0]?.map Prod.snd)) (h : Scan ⟨some l'⟩ names ks 0)
    (hmem : name ∈ names) : topicOf b name = ks[names.idxOf name]?.map Prod.snd := by
  obtain ⟨l₁, l₂, hl₁, hfind, -⟩ := h.findLoop_of_le hmem (Nat.zero_le _)
  obtain rfl := Option.some.inj hl₁
  simp only [topicOf, hl, findTopic, ItemList.find, hfirst, ok_bind, hfind]

theorem consumedAt_of_read {a : Addr} {t : Topic σ κ δ} (h : l.items.read a = some t) :
    ∃ b', consumedAt l (some a) = .ok (b', .noErrors) := by
  by_cases hzero : t.count = 0
  · exact ⟨⟨some l⟩, by simp [consumedAt, Store.deref_of_read h, hzero]⟩
  · exact ⟨⟨some { l with items := l.items.write a { t with count := t.count - 1 } }⟩, by
      simp [consumedAt, Store.deref_of_read h, hzero, Store.update_of_read h]⟩

section

variable [DecidableEq σ] (call : κ → σ → String → ω → ω)

/-- A call that looks up a topic leaves the topic list as the lookup leaves it, but for the
contents of the topics. -/
theorem perform_topicList {w w' : ω} {c : Call σ κ δ} {l₁ : TopicList σ κ δ} {a : Addr}
    {b' : MsgBroker σ κ δ} {r : Exception × Reply δ} (hc : c.LooksUp names)
    (hname : c.name = some name) (hl : b.topicList = some l)
    (hfind : findTopic l name = .ok (l₁, some a)) (hrun : perform call b w c = .ok ((b', w'), r)) :
    ∃ items, b'.topicList = some { l₁ with items := items } := by
  cases c with
  | publish _ data datasize =>
    cases hname
    simp only [perform, publish, hl, hfind, ok_bind] at hrun
    obtain ⟨s, hrun, hs⟩ := bind_eq_ok hrun
    obtain ⟨t, -, hrun⟩ := bind_eq_ok hrun
    -- pending, wrong size, accepted: only the last writes a topic
    split_ifs at hrun
    · cases hrun
      cases hs
      exact ⟨l₁.items, rfl⟩
    · cases hrun
      cases hs
      exact ⟨l₁.items, rfl⟩
    · obtain ⟨t', -, hrun⟩ := bind_eq_ok hrun
      obtain ⟨items, -, hrun⟩ := bind_eq_ok hrun
      cases hrun
      cases hs
      exact ⟨items, rfl⟩
  | consumed _ =>
    cases hname
    simp only [perform, consumed, consumedAt, hl, hfind, ok_bind, Option.isNone_some,
      Bool.false_eq_true, if_false] at hrun
    obtain ⟨s, hrun, hs⟩ := bind_eq_ok hrun
    obtain ⟨t, -, hrun⟩ := bind_eq_ok hrun
    split_ifs at hrun
    · obtain ⟨items, -, hrun⟩ := bind_eq_ok hrun
      cases hrun
      cases hs
      exact ⟨items, rfl⟩
    · cases hrun
      cases hs
      exact ⟨l₁.items, rfl⟩
  | getTopicData _ =>
    cases hname
    simp only [perform, getTopicData, hl, hfind, ok_bind] at hrun
    obtain ⟨s, hrun, hs⟩ := bind_eq_ok hrun
    obtain ⟨t, -, hrun⟩ := bind_eq_ok hrun
    cases hrun
    cases hs
    exact ⟨l₁.items, rfl⟩
  | attach _ subscriber notify =>
    cases hname
    simp only [perform, attach, hl, hfind, ok_bind, Malloc.ok, if_true] at hrun
    obtain ⟨s, hrun, hs⟩ := bind_eq_ok hrun
    obtain ⟨t, -, hrun⟩ := bind_eq_ok hrun
    obtain ⟨list, -, hrun⟩ := bind_eq_ok hrun
    obtain ⟨items, -, hrun⟩ := bind_eq_ok hrun
    cases hrun
    cases hs
    exact ⟨items, rfl⟩
  | _ => exact hc.elim

/-- A call that looks up a topic removes none and installs none. -/
theorem Reference.perform_keys (w : ω) {c : Call σ κ δ} (hc : c.LooksUp names) :
    (m.perform call w c).1.1.keys = m.keys := by
  cases c with
  | publish _ _ _ =>
    simp only [Reference.perform, Reference.publish]
    split
    · rfl
    · split_ifs
      · rfl
      · rfl
      · exact OrderedMap.keys_modify
  | consumed _ =>
    simp only [Reference.perform, Reference.consumed]
    split
    · rfl
    · exact OrderedMap.keys_modify
  | getTopicData _ => rfl
  | attach _ _ _ =>
    simp only [Reference.perform, Reference.attach]
    split
    · rfl
    · exact OrderedMap.keys_modify
  | _ => exact hc.elim

/-- **A call moves the cursor** to the topic that it looks up. -/
theorem Scan.perform {ns : List String} (h : Scan b names ks i) (w : ω) {c : Call σ κ δ}
    (hc : c.LooksUp ns) (hns : ∀ k ∈ ns, k ∈ names) :
    ∃ b' w' r k, MsgBroker.perform call b w c = .ok ((b', w'), r) ∧ k ∈ ns ∧
      Scan b' names ks (names.idxOf k) := by
  obtain ⟨l, xs, m, hl, hrep, hxs, rfl, rfl, -⟩ := h
  obtain ⟨k, hk, hname⟩ := hc.exists_name
  have hlookup : m.lookup k ≠ none := fun hnone =>
    OrderedMap.lookup_eq_none_iff.1 hnone (hns k hk)
  have hpermits : m.Permits c := by
    cases c with
    | consumed _ =>
      cases hname
      exact hlookup
    | getTopicDatasize _ => exact hc.elim
    | _ => trivial
  obtain ⟨b', hrun, l', hl', ys, hrep', hys⟩ :=
    Represents.perform call ⟨l, hl, xs, hrep, hxs⟩ w c hpermits
  have hfind : (xs.find? fun x => k = x.value.name) = xs[m.keys.idxOf k]? := by
    have hmem := hns k hk
    rw [OrderedMap.keys, ← map_name_eq hxs] at hmem ⊢
    simpa using find?_drop_of_le hmem (Nat.zero_le _)
  have hlt : m.keys.idxOf k < xs.length := by
    rw [hxs.length_eq, ← List.length_map Prod.fst]
    exact List.idxOf_lt_length_iff.2 (hns k hk)
  have hfind' : findTopic l k = .ok ({ l with search := xs[m.keys.idxOf k]?.map Slot.node },
      some xs[m.keys.idxOf k].item) := by
    rw [findTopic, hrep.find, hfind, List.getElem?_eq_getElem hlt]
    rfl
  -- the topics may have changed, the links have not
  obtain ⟨items, hitems⟩ := perform_topicList call hc hname hl hfind' hrun
  obtain rfl := Option.some.inj (hl'.symm.trans hitems)
  have hlinks : links ys = links xs :=
    hrep'.chain.unique hrep.chain (hrep'.first.symm.trans hrep.first)
  refine ⟨b', _, _, k, hrun, hk, _, ys, _, hl', hrep', hys, hlinks,
    Reference.perform_keys call w hc, ?_⟩
  change xs[m.keys.idxOf k]?.map Slot.node = _
  rw [map_node_eq, ← hlinks, ← map_node_eq]

/-- The calls of one preemption leave the cursor where it was, if there are none, or at the topic
of one of their names. -/
theorem Scan.run {ns : List String} (h : Scan b names ks i) (w : ω) {cs : List (Call σ κ δ)}
    (hcs : ∀ c ∈ cs, c.LooksUp ns) (hns : ∀ k ∈ ns, k ∈ names) :
    ∃ s rs j, MsgBroker.run call b w cs = .ok (s, rs) ∧ Scan s.1 names ks j ∧
      (j = i ∨ ∃ k ∈ ns, j = names.idxOf k) := by
  induction cs generalizing b w i with
  | nil => exact ⟨(b, w), [], i, rfl, h, Or.inl rfl⟩
  | cons c cs ih =>
    rw [List.forall_mem_cons] at hcs
    obtain ⟨b₁, w₁, r, k, hstep, hk, h₁⟩ := h.perform call w hcs.1 hns
    obtain ⟨s, rs, j, hrun, hscan, hj⟩ := ih h₁ w₁ hcs.2
    refine ⟨s, r :: rs, j, ?_, hscan, Or.inr ?_⟩
    · simp only [MsgBroker.run, hstep, ok_bind, hrun, pure_eq_ok]
    · exact hj.elim (fun heq => ⟨k, hk, heq⟩) fun hj => hj

/-! ### Which lookups survive -/

/-- **Sufficiency**: as long as the cursor is not behind the name and every preemption leaves it
in front of the name, the loop finds the name. -/
theorem Scan.findTopicFrom {ns : List String} (h : Scan b names ks i) (hmem : name ∈ names)
    (hnodup : names.Nodup) (hlen : ks.length = names.length) (hi : i ≤ names.idxOf name)
    (hns : ∀ k ∈ ns, k ∈ names)
    (hfront : names.idxOf name = i ∨ ∀ k ∈ ns, names.idxOf k < names.idxOf name)
    (w : ω) {sched : List (List (Call σ κ δ))} (hsched : ∀ cs ∈ sched, ∀ c ∈ cs, c.LooksUp ns) :
    ∃ s, MsgBroker.findTopicFrom call name sched b w (ks[i]?.map Prod.snd) =
        .ok (s, ks[names.idxOf name]?.map Prod.snd) ∧
      Scan s.1 names ks (names.idxOf name) := by
  have hlt : names.idxOf name < ks.length := hlen ▸ List.idxOf_lt_length_iff.2 hmem
  induction sched generalizing b w i with
  | nil =>
    obtain ⟨l, l', hl, hfind, h'⟩ := h.findLoop_of_le hmem hi
    rw [List.getElem?_eq_getElem (Nat.lt_of_le_of_lt hi hlt)] at hfind ⊢
    refine ⟨(⟨some l'⟩, w), ?_, h'⟩
    simp only [Option.map_some] at hfind
    simp only [MsgBroker.findTopicFrom, Option.map_some, hl, hfind, ok_bind, pure_eq_ok]
  | cons cs sched ih =>
    rw [List.forall_mem_cons] at hsched
    have hik : i < ks.length := Nat.lt_of_le_of_lt hi hlt
    have hget : ks[i]?.map Prod.snd = some ks[i].2 := by
      rw [List.getElem?_eq_getElem hik, Option.map_some]
    obtain ⟨l, t, hl, hread, ht⟩ := h.read hget
    have hderef := Store.deref_of_read hread
    rw [hget]
    by_cases hhere : i = names.idxOf name
    -- the name is at hand
    · have hname : name = t.name := by
        subst hhere
        rw [List.getElem?_idxOf hmem] at ht
        exact Option.some.inj ht
      subst hhere
      refine ⟨(b, w), ?_, h⟩
      simp only [MsgBroker.findTopicFrom, hl, hderef, ok_bind, if_pos hname, pure_eq_ok, hget]
    -- the cursor is in front of the name, and stays there
    · have hfront := hfront.resolve_left (Ne.symm hhere)
      have hname : name ≠ t.name := by
        rintro rfl
        obtain ⟨hin, hgetName⟩ := List.getElem?_eq_some_iff.1 ht
        exact hhere (hgetName ▸ (hnodup.idxOf_getElem i hin).symm)
      obtain ⟨s, rs, j, hrun, hscan, hj⟩ := h.run call w hsched.1 hns
      have hjlt : j < names.idxOf name := by
        rcases hj with rfl | ⟨k, hk, rfl⟩
        · omega
        · exact hfront k hk
      obtain ⟨l', l'', hl', hnext, hscan'⟩ := hscan.getNextItem (Nat.lt_trans hjlt hlt)
      obtain ⟨s', hfind, hs'⟩ := ih hscan' hjlt (Or.inr hfront) s.2 hsched.2
      refine ⟨s', ?_, hs'⟩
      simp only [MsgBroker.findTopicFrom, hl, hderef, ok_bind, if_neg hname, hrun, hl', hnext,
        hfind]

/-- Behind the name, the loop of `findTopic` runs to the end of the list. -/
theorem Scan.findTopicFrom_of_lt (h : Scan b names ks i) (hi : names.idxOf name < i) (w : ω) :
    ∃ s, MsgBroker.findTopicFrom call name [] b w (ks[i]?.map Prod.snd) = .ok (s, none) := by
  obtain ⟨l, l', hl, hfind⟩ := h.findLoop_of_lt hi
  cases hk : ks[i]?.map Prod.snd with
  | none => exact ⟨(b, w), rfl⟩
  | some a =>
    rw [hk] at hfind
    exact ⟨(⟨some l'⟩, w), by
      simp only [MsgBroker.findTopicFrom, hl, hfind, ok_bind, pure_eq_ok]⟩

/-- **Sufficiency**: the lookup of the first topic survives, and so does a lookup during which
only topics in front of the one searched are looked up. -/
theorem survives_of_front {ns : List String} (h : b.Represents m) (hname : name ∈ m.keys)
    (hns : ∀ k ∈ ns, k ∈ m.keys)
    (hfront : m.position name = 0 ∨ ∀ k ∈ ns, m.position k < m.position name) (w : ω) :
    Survives call b w name ns := by
  intro sched hsched
  obtain ⟨ks, l, l', hl, hfirst, hscan, hlen⟩ := h.getFirstItem
  obtain ⟨s, hfind, hs⟩ := hscan.findTopicFrom call hname m.nodup hlen (Nat.zero_le _) hns hfront
    w hsched
  have hfind' : findTopicPreempted call b w name sched =
      .ok (s, ks[m.keys.idxOf name]?.map Prod.snd) := by
    simp only [findTopicPreempted, hl, hfirst, ok_bind, hfind]
  have hlt : m.keys.idxOf name < ks.length := hlen ▸ List.idxOf_lt_length_iff.2 hname
  have hget : ks[m.keys.idxOf name]?.map Prod.snd = some ks[m.keys.idxOf name].2 := by
    rw [List.getElem?_eq_getElem hlt, Option.map_some]
  obtain ⟨l₁, t, hl₁, hread, -⟩ := hs.read hget
  obtain ⟨b', hconsumed⟩ := consumedAt_of_read hread
  refine ⟨⟨s, by rw [hfind', topicOf_eq hl hfirst hscan hname]⟩, (b', s.2), ?_⟩
  simp only [consumedPreempted, hfind', hget, ok_bind, hl₁, hconsumed, pure_eq_ok]

/-- **Necessity**: one `getTopicData` on the topic searched, or on one behind it, lets the lookup
of a topic that is not the first miss it. -/
theorem not_survives_of_behind {ns : List String} (h : b.Represents m) (hname : name ∈ m.keys)
    {k : String} (hk : k ∈ ns) (hkm : k ∈ m.keys) (hpos : m.position name ≠ 0)
    (hbehind : m.position name ≤ m.position k) (w : ω) : ¬ Survives call b w name ns := by
  intro hsurvives
  obtain ⟨ks, l, l', hl, hfirst, hscan, hlen⟩ := h.getFirstItem
  obtain ⟨⟨s, hfind⟩, -⟩ := hsurvives [[.getTopicData k]] (by simpa [Call.LooksUp] using hk)
  have hlt : m.keys.idxOf name < ks.length := hlen ▸ List.idxOf_lt_length_iff.2 hname
  have hzero : 0 < ks.length := Nat.lt_of_le_of_lt (Nat.zero_le _) hlt
  have hget : ks[0]?.map Prod.snd = some ks[0].2 := by
    rw [List.getElem?_eq_getElem hzero, Option.map_some]
  obtain ⟨l₁, t, hl₁, hread, ht⟩ := hscan.read hget
  obtain rfl : l' = l₁ := Option.some.inj hl₁
  have hne : name ≠ t.name := by
    rintro rfl
    obtain ⟨hin, hgetName⟩ := List.getElem?_eq_some_iff.1 ht
    exact hpos (hgetName ▸ m.nodup.idxOf_getElem 0 hin)
  -- the intruder leaves the cursor at `k`, from where the search goes on behind the name
  obtain ⟨b₁, w₁, r, k', hrun, hk', hscan₁⟩ := hscan.perform call w
    (show (Call.getTopicData k : Call σ κ δ).LooksUp [k] from List.mem_singleton_self k)
    (by simpa using hkm)
  rw [List.mem_singleton.1 hk'] at hscan₁
  obtain ⟨l₂, l₃, hl₂, hnext, hscan₂⟩ :=
    hscan₁.getNextItem (hlen ▸ List.idxOf_lt_length_iff.2 hkm)
  obtain ⟨s', hmiss⟩ := hscan₂.findTopicFrom_of_lt call (Nat.lt_succ_of_le hbehind) w₁
  have hmiss' : findTopicPreempted call b w name [[.getTopicData k]] = .ok (s', none) := by
    simp only [findTopicPreempted, hl, hfirst, ok_bind, hget, findTopicFrom,
      Store.deref_of_read hread, if_neg hne, run, hrun, hl₂, hnext, hmiss, pure_eq_ok]
  rw [hfind, topicOf_eq hl hfirst hscan hname, List.getElem?_eq_getElem hlt] at hmiss'
  cases hmiss'

/-- **Which lookups survive preemption**: the lookup of an installed name is right under every
schedule of calls on the names `ns` exactly if its topic is the first in the list, or each of
`ns` is installed in front of it. -/
theorem survives_iff {ns : List String} (h : b.Represents m) (hname : name ∈ m.keys)
    (hns : ∀ k ∈ ns, k ∈ m.keys) (w : ω) :
    Survives call b w name ns ↔
      m.position name = 0 ∨ ∀ k ∈ ns, m.position k < m.position name := by
  refine ⟨fun hsurvives => ?_, fun hfront => survives_of_front call h hname hns hfront w⟩
  by_contra hnot
  simp only [not_or, not_forall, Nat.not_lt] at hnot
  obtain ⟨hpos, k, hk, hbehind⟩ := hnot
  exact not_survives_of_behind call h hname hk (hns k hk) hpos hbehind w hsurvives

end

/-- The topics that `main` installs. -/
theorem exists_represents_main :
    ∃ (b : MsgBroker ℕ Unit ℕ) (m : Reference ℕ Unit ℕ), b.Represents m ∧
      m.keys = ["/gps", "/keyb", "/alarm", "/stat"] := by
  obtain ⟨b₀, -, h₀⟩ := represents_init (σ := ℕ) (κ := Unit) (δ := ℕ)
  obtain ⟨b, -, h⟩ := h₀.run (fun _ _ _ w => w) () [.installTopic "/gps" 16,
    .installTopic "/keyb" 8, .installTopic "/alarm" 8, .installTopic "/stat" 20]
    ⟨trivial, trivial, trivial, trivial, trivial⟩
  exact ⟨b, _, h, rfl⟩

/-- A lookup of `/alarm` survives lookups of the two topics in front of it. -/
theorem survives_iff_alarm :
    ∃ b : MsgBroker ℕ Unit ℕ, Survives (fun _ _ _ w => w) b () "/alarm" ["/gps", "/keyb"] := by
  obtain ⟨b, m, h, hkeys⟩ := exists_represents_main
  refine ⟨b, (survives_iff _ h (by simp [hkeys]) (by simp [hkeys]) ()).2 (Or.inr ?_)⟩
  simp only [Reference.position, hkeys]
  decide

/-- A lookup of `/keyb`, the second topic, does not survive another lookup of `/keyb`. -/
theorem not_survives_keyb :
    ¬ ∀ (b : MsgBroker ℕ Unit ℕ) (m : Reference ℕ Unit ℕ) (name : String) (ns : List String),
      b.Represents m → name ∈ m.keys → (∀ k ∈ ns, k ∈ m.keys) →
        Survives (fun _ _ _ w => w) b () name ns := by
  intro hall
  obtain ⟨b, m, h, hkeys⟩ := exists_represents_main
  have hkeyb : "/keyb" ∈ m.keys := by simp [hkeys]
  refine not_survives_of_behind _ h hkeyb (List.mem_singleton_self "/keyb") hkeyb ?_ (Nat.le_refl _)
    () (hall b m "/keyb" ["/keyb"] h hkeyb (by simp [hkeys]))
  simp only [Reference.position, hkeys]
  decide

end MsgBroker

end UavTelemetry
