import UavTelemetry.Broker.Accounts

/-!
# The blocks of the broker from `init` to `deinit`

A run of the broker starts with `init` and ends with `deinit`.  Only the removal of a topic loses
blocks: it frees the topic and its link, but neither the observers nor the list of them.  What has
been lost is live at the end.

## Main definitions

* `Traced.lifetime` : calls between `init` and `deinit`.
* `Balanced` : every block is freed once, and no freed block is used.
* `Calm` : no installed topic is removed, and `consumed` finds its topic.

## Main results

* `Accounts.performWith` : a careful call loses no blocks.
* `balanced_iff` : which runs are balanced.
-/

namespace UavTelemetry

open Logged Machine

namespace MsgBroker

variable {σ κ δ ω : Type}

section

variable [DecidableEq σ] (call : κ → σ → String → ω → ω)

/-- Calls of an initialised broker, and `deinit`. -/
def Traced.finish (b : MsgBroker σ κ δ) (w : ω) :
    List (Call σ κ δ) → Logged (Event Block) Fault (MsgBroker σ κ δ × ω)
  | [] => do
    let b ← Traced.deinit b
    return (b, w)
  | c :: cs => do
    let (s, _) ← Traced.performWith call .ok b w c
    Traced.finish s.1 s.2 cs

/-- `init`, calls, and `deinit`; memory does not run out. -/
def Traced.lifetime (w : ω) (cs : List (Call σ κ δ)) :
    Logged (Event Block) Fault (MsgBroker σ κ δ × ω) := do
  let b ← Traced.init start true
  Traced.finish call b w cs

/-- Every call returns, every block that is allocated is freed once, no freed block is used, and
`topic_list` is null again. -/
def Balanced (w : ω) (cs : List (Call σ κ δ)) : Prop :=
  ∃ w', heap.Ends 0 (Traced.lifetime call w cs) (start, w') 0

end

/-- With the topics `ns` installed, the call removes no topic, and it finds the topic that it does
not go without. -/
def Careful (ns : List String) : Call σ κ δ → Prop
  | .removeTopic name => name ∉ ns
  | .consumed name => name ∈ ns
  | .getTopicDatasize name => name ∈ ns
  | _ => True

/-- The topics installed after a careful call. -/
def namesAfter (ns : List String) : Call σ κ δ → List String
  | .installTopic name _ => if name ∈ ns then ns else ns ++ [name]
  | _ => ns

/-- All calls are careful. -/
def Calm (ns : List String) : List (Call σ κ δ) → Prop
  | [] => True
  | c :: cs => Careful ns c ∧ Calm (namesAfter ns c) cs

variable {l : TopicList σ κ δ} {xs : List (Owned σ κ δ)} {live live' lost : Multiset Block}
  {name : String}

/-! ### The calls -/

/-- The call returns, with the broker `broker a` among its results `a`.  The blocks `lost` have been
lost, and the topics have the names `ns`. -/
def Returns {γ : Type} (x : Logged (Event Block) Fault γ) (live lost : Multiset Block)
    (ns : List String) (broker : γ → MsgBroker σ κ δ) : Prop :=
  ∃ a live' l' xs, heap.Ends live x a live' ∧ broker a = ⟨some l'⟩ ∧
    Accounts l' xs live' lost ∧ names xs = ns

namespace Accounts

theorem installTopic (h : Accounts l xs live lost) (name : String) (datasize : ℕ) :
    Returns (Traced.installTopic ⟨some l⟩ .ok name datasize) live lost
      (if name ∈ names xs then names xs else names xs ++ [name]) (·.1) := by
  obtain ⟨l₁, h₁, ⟨hname, hfind⟩ | ⟨ys, x, zs, rfl, hname, hfind⟩⟩ := h.findTopic name
  · set t : Topic σ κ δ := ⟨.new, name, none, datasize, 0⟩ with ht
    obtain ⟨l₂, hadd, h₂⟩ := h₁.addTopic (t := t) rfl
    have hlist : (observers l₁.items.fresh).list ∉ {.topic l₁.items.fresh} + live := by
      simpa using h₁.observerList_notMem
    have hlink : topics.link l₁.nodes.fresh ∉
        {.observerList l₁.items.fresh} + ({.topic l₁.items.fresh} + live) := by
      simpa using h₁.topicLink_notMem
    have hends : heap.Ends live (Traced.installTopic ⟨some l⟩ .ok name datasize)
        (⟨some l₂⟩, .noErrors, some l₁.items.fresh)
        ({topics.link l₁.nodes.fresh} +
          ({.observerList l₁.items.fresh} + ({.topic l₁.items.fresh} + live))) := by
      refine ends_acquire.bind (hfind.bind ?_)
      simp only [Malloc.ok, if_true]
      refine (ends_alloc h₁.topic_notMem).bind <| (ItemList.Traced.ends_new hlist).bind <|
        (ItemList.Traced.ends_addItem hadd ?_ hlink).bind <| ends_release.bind .pure
      simp [h₁.topicList_mem]
    refine ⟨_, _, l₂, _, hends, rfl, h₂, ?_⟩
    rw [if_neg hname]
    simp [names, ht]
  · have hmem : name ∈ names (ys ++ x :: zs) := by simp [names, hname]
    rw [if_pos hmem]
    exact ⟨_, live, l₁, _, ends_acquire.bind (hfind.bind (ends_release.bind .pure)), rfl, h₁, rfl⟩

theorem removeTopic_of_notMem (h : Accounts l xs live lost) (hname : name ∉ names xs) :
    Returns (Traced.removeTopic ⟨some l⟩ name) live lost (names xs) (·.1) := by
  obtain ⟨l₁, h₁, ⟨-, hfind⟩ | ⟨ys, x, zs, rfl, rfl, -⟩⟩ := h.findTopic name
  · exact ⟨_, live, l₁, xs, ends_acquire.bind (hfind.bind (ends_release.bind .pure)), rfl, h₁, rfl⟩
  · exact absurd (by simp [names]) hname

/-- The removal of a topic loses blocks. -/
theorem removeTopic_of_mem (h : Accounts l xs live lost) (hname : name ∈ names xs) :
    ∃ lost' ns, lost' ≠ 0 ∧
      Returns (Traced.removeTopic ⟨some l⟩ name) live lost' ns (·.1) := by
  obtain ⟨l₁, h₁, ⟨hnot, -⟩ | ⟨ys, x, zs, rfl, -, hfind⟩⟩ := h.findTopic name
  · exact absurd hname hnot
  have hrep : l₁.Rep (ys.map Owned.slot ++ x.slot :: zs.map Owned.slot) := by
    simpa using h₁.owns.rep
  obtain ⟨l₂, rest, hremove, hlive, hmem, h₂⟩ := h₁.eraseTopic
  have hlist : topics.list ∈ {.topic x.slot.item} + rest := Multiset.mem_add.2 (Or.inr hmem)
  have hends : heap.Ends live (Traced.removeTopic ⟨some l⟩ name)
      (⟨some { l₂ with items := l₂.items.free x.slot.item }⟩, .noErrors) rest := by
    refine ends_acquire.bind (hfind.bind ?_)
    rw [hlive]
    exact (ItemList.Traced.ends_removeItem hrep hlist hremove).bind <|
      ends_free.bind <| ends_release.bind .pure
  refine ⟨x.rest + lost, _, fun hzero => ?_, _, rest, _, _, hends, rfl, h₂, rfl⟩
  have hlost : Block.observerList x.slot.item ∈ x.rest + lost := by simp [Owned.rest]
  rw [hzero] at hlost
  exact Multiset.notMem_zero _ hlost

theorem attach (h : Accounts l xs live lost) (name : String) (subscriber : σ) (notify : κ) :
    Returns (Traced.attach ⟨some l⟩ .ok name subscriber notify) live lost (names xs) (·.1) := by
  obtain ⟨l₁, h₁, ⟨-, hfind⟩ | ⟨ys, x, zs, rfl, -, hfind⟩⟩ := h.findTopic name
  · exact ⟨_, live, l₁, xs, ends_acquire.bind (hfind.bind (ends_release.bind .pure)), rfl, h₁, rfl⟩
  obtain ⟨list, os, hadd, h₂⟩ := h₁.addObserver ⟨subscriber, notify⟩
  have hlist : (MsgBroker.observers x.slot.item).list ∈
      {.observer x.slot.item x.slot.value.observerList.items.fresh} + live :=
    Multiset.mem_add.2 (Or.inr h₁.observerList_mem)
  have hlink : (MsgBroker.observers x.slot.item).link x.slot.value.observerList.nodes.fresh ∉
      {.observer x.slot.item x.slot.value.observerList.items.fresh} + live := by
    simpa using h₁.link_notMem
  have hends : heap.Ends live (Traced.attach ⟨some l⟩ .ok name subscriber notify)
      (⟨some { l₁ with
          items := l₁.items.write x.slot.item { x.slot.value with observerList := list } }⟩,
        .noErrors, some x.slot.value.observerList.items.fresh)
      ({(MsgBroker.observers x.slot.item).link x.slot.value.observerList.nodes.fresh} +
        ({.observer x.slot.item x.slot.value.observerList.items.fresh} + live)) := by
    refine ends_acquire.bind (hfind.bind ?_)
    simp only [Malloc.ok, if_true]
    exact (Ends.lift (Store.deref_of_read h₁.read)).bind <| (ends_alloc h₁.observer_notMem).bind <|
      (ItemList.Traced.ends_addItem hadd hlist hlink).bind <|
      (Ends.lift (Store.update_of_read h₁.read _)).bind <| ends_release.bind .pure
  exact ⟨_, _, _, _, hends, rfl, h₂, names_write rfl⟩

theorem detach [DecidableEq σ] (h : Accounts l xs live lost) (name : String) (subscriber : σ) :
    Returns (Traced.detach ⟨some l⟩ name subscriber) live lost (names xs) (·.1) := by
  obtain ⟨l₁, h₁, ⟨-, hfind⟩ | ⟨ys, x, zs, rfl, -, hfind⟩⟩ := h.findTopic name
  · exact ⟨_, live, l₁, xs, ends_acquire.bind (hfind.bind (ends_release.bind .pure)), rfl, h₁, rfl⟩
  have hos := h₁.observers_rep
  have hread := Store.deref_of_read h₁.read
  have hobserver := ItemList.Traced.ends_of_uses
    (ItemList.Traced.uses_find (MsgBroker.observers x.slot.item)
      (fun obs => subscriber = obs.observer) x.slot.value.observerList)
    h₁.observerList_mem ((ItemList.Traced.result_find _ _ _).trans hos.find)
  cases ho : x.observers.find? fun o => subscriber = o.value.observer with
  | none =>
    -- only the cursor of the observer list has moved
    rw [ho] at hobserver
    exact ⟨_, live, _, _, ends_acquire.bind <| hfind.bind <| (Ends.lift hread).bind <|
      hobserver.bind <| (Ends.lift (Store.update_of_read h₁.read _)).bind <|
      ends_release.bind .pure, rfl, h₁.write_same (hos.search none) le_rfl le_rfl, names_write rfl⟩
  | some o =>
    rw [ho] at hobserver
    obtain ⟨-, os, ps, hsplit, -⟩ := List.find?_eq_some_iff_append.1 ho
    have hsearch := hos.search (some o.node)
    rw [hsplit] at hsearch
    obtain ⟨list, rest, hremove, hlive, hmem, h₂⟩ := h₁.removeObserver hsplit hsearch rfl rfl
    have hlist : (MsgBroker.observers x.slot.item).list ∈ {.observer x.slot.item o.item} + rest :=
      Multiset.mem_add.2 (Or.inr hmem)
    have hfree := ItemList.Traced.ends_removeItem hsearch hlist hremove
    rw [observers_link, ← hlive] at hfree
    exact ⟨_, rest, _, _, ends_acquire.bind <| hfind.bind <| (Ends.lift hread).bind <|
      hobserver.bind <| hfree.bind <| ends_free.bind <|
      (Ends.lift (Store.update_of_read h₁.read _)).bind <| ends_release.bind .pure, rfl, h₂,
      names_write rfl⟩

theorem publish (call : κ → σ → String → ω → ω) (h : Accounts l xs live lost) (name : String)
    (data : Option δ) (datasize : ℕ) (w : ω) :
    Returns (Traced.publish call ⟨some l⟩ name data datasize w) live lost (names xs) (·.1) := by
  obtain ⟨l₁, h₁, ⟨-, hfind⟩ | ⟨ys, x, zs, rfl, -, hfind⟩⟩ := h.findTopic name
  · exact ⟨_, live, l₁, xs, ends_acquire.bind (hfind.bind (ends_release.bind .pure)), rfl, h₁, rfl⟩
  have hread := Store.deref_of_read h₁.read
  by_cases hcount : x.slot.value.count > 0
  · have hends : heap.Ends live (Traced.publish call ⟨some l⟩ name data datasize w)
        (⟨some l₁⟩, .topicPending, w) live := by
      refine ends_acquire.bind <| hfind.bind <| (Ends.lift hread).bind ?_
      rw [if_pos hcount]
      exact ends_release.bind .pure
    exact ⟨_, live, l₁, _, hends, rfl, h₁, rfl⟩
  by_cases hsize : datasize ≠ x.slot.value.datasize
  · have hends : heap.Ends live (Traced.publish call ⟨some l⟩ name data datasize w)
        (⟨some l₁⟩, .topicSize, w) live := by
      refine ends_acquire.bind <| hfind.bind <| (Ends.lift hread).bind ?_
      rw [if_neg hcount, if_pos hsize]
      exact ends_release.bind .pure
    exact ⟨_, live, l₁, _, hends, rfl, h₁, rfl⟩
  -- the observers are notified, and the cursor has passed them
  set t : Topic σ κ δ := { x.slot.value with
    data := data
    datasize := datasize
    count := x.slot.value.count + x.observers.length
    observerList := { x.slot.value.observerList with search := none } }
  obtain ⟨w', hrun⟩ : ∃ w', notifyAll call x.slot.value data datasize w = .ok (t, w') :=
    ⟨_, notifyAll_of_rep call h₁.observers_rep data datasize w⟩
  have hnotify := ItemList.Traced.ends_of_uses
    (Traced.uses_notifyAll call x.slot.item x.slot.value data datasize w)
    h₁.observerList_mem ((Traced.result_notifyAll _ _ _ _ _ _).trans hrun)
  have hends : heap.Ends live (Traced.publish call ⟨some l⟩ name data datasize w)
      (⟨some { l₁ with items := l₁.items.write x.slot.item t }⟩, .noErrors, w') live := by
    refine ends_acquire.bind <| hfind.bind <| (Ends.lift hread).bind ?_
    rw [if_neg hcount, if_neg hsize]
    exact hnotify.bind <| (Ends.lift (Store.update_of_read h₁.read _)).bind <|
      ends_release.bind .pure
  exact ⟨_, live, _, _, hends, rfl,
    h₁.write_same (h₁.observers_rep.search none) le_rfl le_rfl, names_write rfl⟩

theorem consumed_of_mem (h : Accounts l xs live lost) (hname : name ∈ names xs) :
    Returns (Traced.consumed ⟨some l⟩ name) live lost (names xs) (·.1) := by
  obtain ⟨l₁, h₁, ⟨hnot, -⟩ | ⟨ys, x, zs, rfl, -, hfind⟩⟩ := h.findTopic name
  · exact absurd hname hnot
  have hread := Store.deref_of_read h₁.read
  by_cases hcount : x.slot.value.count ≠ 0
  · have hconsumed : consumedAt l₁ (some x.slot.item) = .ok (⟨some { l₁ with
        items := l₁.items.write x.slot.item
          { x.slot.value with count := x.slot.value.count - 1 } }⟩, .noErrors) := by
      simp only [consumedAt, hread, ok_bind, if_pos hcount, Store.update_of_read h₁.read]
      rfl
    exact ⟨_, live, _, _, ends_acquire.bind <| hfind.bind <| (Ends.lift hconsumed).bind <|
      ends_release.bind .pure, rfl, h₁.write_same h₁.observers_rep le_rfl le_rfl, names_write rfl⟩
  · have hconsumed : consumedAt l₁ (some x.slot.item) = .ok (⟨some l₁⟩, .noErrors) := by
      simp only [consumedAt, hread, ok_bind, if_neg hcount]
      rfl
    exact ⟨_, live, l₁, _, ends_acquire.bind <| hfind.bind <| (Ends.lift hconsumed).bind <|
      ends_release.bind .pure, rfl, h₁, rfl⟩

theorem getTopicData (h : Accounts l xs live lost) (name : String) :
    Returns (Traced.getTopicData ⟨some l⟩ name) live lost (names xs) (·.1) := by
  obtain ⟨l₁, h₁, ⟨-, hfind⟩ | ⟨ys, x, zs, rfl, -, hfind⟩⟩ := h.findTopic name
  · exact ⟨_, live, l₁, xs, ends_acquire.bind (hfind.bind (ends_release.bind .pure)), rfl, h₁, rfl⟩
  · exact ⟨_, live, l₁, _, ends_acquire.bind <| hfind.bind <| ends_release.bind <|
      (Ends.lift (Store.deref_of_read h₁.read)).bind .pure, rfl, h₁, rfl⟩

theorem getTopicDatasize_of_mem (h : Accounts l xs live lost) (hname : name ∈ names xs) :
    Returns (Traced.getTopicDatasize ⟨some l⟩ name) live lost (names xs) (·.1) := by
  obtain ⟨l₁, h₁, ⟨hnot, -⟩ | ⟨ys, x, zs, rfl, -, hfind⟩⟩ := h.findTopic name
  · exact absurd hname hnot
  · exact ⟨_, live, l₁, _, ends_acquire.bind <| hfind.bind <| ends_release.bind <|
      (Ends.lift (Store.deref_of_read h₁.read)).bind .pure, rfl, h₁, rfl⟩

/-- `consumed` does not return from a name that is not installed. -/
theorem not_ends_consumed (h : Accounts l xs live lost) (hname : name ∉ names xs)
    {a : MsgBroker σ κ δ × Exception} :
    ¬ heap.Ends live (Traced.consumed ⟨some l⟩ name) a live' := by
  intro hends
  obtain ⟨l₁, h₁, ⟨-, hfind⟩ | ⟨ys, x, zs, rfl, rfl, -⟩⟩ := h.findTopic name
  · have hrest := (hfind.bind_iff).1 (ends_acquire.bind_iff.1 hends)
    obtain ⟨a, live₁, hlift⟩ := Ends.of_bind hrest
    cases hlift.2
  · exact hname (by simp [names])

/-- `getTopicDatasize` does not return from a name that is not installed. -/
theorem not_ends_getTopicDatasize (h : Accounts l xs live lost) (hname : name ∉ names xs)
    {a : MsgBroker σ κ δ × Exception × ℕ} :
    ¬ heap.Ends live (Traced.getTopicDatasize ⟨some l⟩ name) a live' := by
  intro hends
  obtain ⟨l₁, h₁, ⟨-, hfind⟩ | ⟨ys, x, zs, rfl, rfl, -⟩⟩ := h.findTopic name
  · have hrest := (hfind.bind_iff).1 (ends_acquire.bind_iff.1 hends)
    obtain ⟨a, live₁, hlift⟩ := Ends.of_bind (ends_release.bind_iff.1 hrest)
    cases hlift.2
  · exact hname (by simp [names])

end Accounts

/-! ### Runs -/

theorem Returns.map {γ γ' : Type} {y : Logged (Event Block) Fault γ} {ns : List String}
    {broker : γ → MsgBroker σ κ δ} {broker' : γ' → MsgBroker σ κ δ} {f : γ → γ'}
    (h : Returns y live lost ns broker) (hf : ∀ a, broker' (f a) = broker a) :
    Returns (y >>= fun a => pure (f a)) live lost ns broker' := by
  obtain ⟨a, live', l', xs, hends, hbroker, haccounts, hns⟩ := h
  exact ⟨f a, live', l', xs, hends.bind .pure, (hf a).trans hbroker, haccounts, hns⟩

section

variable [DecidableEq σ] (call : κ → σ → String → ω → ω) {c : Call σ κ δ} {w : ω}

/-- A careful call returns, and loses no blocks. -/
theorem Accounts.performWith (h : Accounts l xs live lost) (hc : Careful (names xs) c) :
    Returns (Traced.performWith call .ok ⟨some l⟩ w c) live lost (namesAfter (names xs) c)
      (·.1.1) := by
  cases c with
  | init => exact ⟨_, live, l, xs, Ends.pure.bind .pure, rfl, h, rfl⟩
  | installTopic name datasize => exact (h.installTopic name datasize).map fun _ => rfl
  | removeTopic name => exact (h.removeTopic_of_notMem hc).map fun _ => rfl
  | attach name subscriber notify => exact (h.attach name subscriber notify).map fun _ => rfl
  | detach name subscriber => exact (h.detach name subscriber).map fun _ => rfl
  | publish name data datasize => exact (h.publish call name data datasize w).map fun _ => rfl
  | consumed name => exact (h.consumed_of_mem hc).map fun _ => rfl
  | getTopicData name => exact (h.getTopicData name).map fun _ => rfl
  | getTopicDatasize name => exact (h.getTopicDatasize_of_mem hc).map fun _ => rfl

/-- Any other call loses blocks, or does not return. -/
theorem Accounts.performWith_breach (h : Accounts l xs live lost) (hc : ¬ Careful (names xs) c) :
    (∃ lost' ns, lost' ≠ 0 ∧
        Returns (Traced.performWith call .ok ⟨some l⟩ w c) live lost' ns (·.1.1)) ∨
      ∀ a live', ¬ heap.Ends live (Traced.performWith call .ok ⟨some l⟩ w c) a live' := by
  cases c with
  | removeTopic name =>
    obtain ⟨lost', ns, hlost, hreturns⟩ := h.removeTopic_of_mem (not_not.1 hc)
    exact Or.inl ⟨lost', ns, hlost, hreturns.map fun _ => rfl⟩
  | consumed name =>
    refine Or.inr fun a live' hends => ?_
    obtain ⟨_, _, hconsumed⟩ := Ends.of_bind hends
    exact h.not_ends_consumed hc hconsumed
  | getTopicDatasize name =>
    refine Or.inr fun a live' hends => ?_
    obtain ⟨_, _, hsize⟩ := Ends.of_bind hends
    exact h.not_ends_getTopicDatasize hc hsize
  | _ => exact absurd trivial hc

/-- **Runs**: what has been lost is never freed. -/
theorem Accounts.finish_iff (h : Accounts l xs live lost) (cs : List (Call σ κ δ)) :
    (∃ w', heap.Ends live (Traced.finish call ⟨some l⟩ w cs) (start, w') 0) ↔
      lost = 0 ∧ Calm (names xs) cs := by
  induction cs generalizing l xs live lost w with
  | nil =>
    have hdeinit : heap.Ends (ownedBlocks xs + lost) (Traced.deinit ⟨some l⟩) start lost :=
      h.owns.ends_deinit
    rw [← h.live_eq] at hdeinit
    have hiff : ∀ w', heap.Ends live (Traced.finish call ⟨some l⟩ w []) (start, w') 0 ↔ _ :=
      fun w' => hdeinit.bind_iff
    simp only [hiff, Calm, and_true]
    constructor
    · rintro ⟨w', hends⟩
      exact (Ends.pure.unique hends).2
    · rintro rfl
      exact ⟨w, .pure⟩
  | cons c cs ih =>
    by_cases hc : Careful (names xs) c
    · obtain ⟨⟨⟨b, w₁⟩, reply⟩, live₁, l₁, xs₁, hends, rfl, h₁, hns⟩ := h.performWith call (w := w) hc
      have hiff : ∀ w', heap.Ends live (Traced.finish call ⟨some l⟩ w (c :: cs)) (start, w') 0 ↔
          heap.Ends live₁ (Traced.finish call ⟨some l₁⟩ w₁ cs) (start, w') 0 :=
        fun w' => hends.bind_iff
      simp only [hiff, ih h₁, hns, Calm, hc, true_and]
    · refine iff_of_false ?_ fun hcalm => hc hcalm.2.1
      rintro ⟨w', hends⟩
      rcases h.performWith_breach call (w := w) hc with ⟨lost', ns, hlost, hreturns⟩ | hnot
      · obtain ⟨⟨⟨b, w₁⟩, reply⟩, live₁, l₁, xs₁, hfirst, rfl, h₁, -⟩ := hreturns
        exact hlost ((ih h₁).1 ⟨w', hfirst.bind_iff.1 hends⟩).1
      · obtain ⟨a, live₁, hfirst⟩ := Ends.of_bind hends
        exact hnot a live₁ hfirst

/-- **Which runs are balanced**: between `init` and `deinit`, and with any callbacks that do not
call the broker, every block is freed exactly once and no freed block is used, exactly if the calls
remove no topic that is installed and acknowledge no topic that is not. -/
theorem balanced_iff (w : ω) (cs : List (Call σ κ δ)) : Balanced call w cs ↔ Calm [] cs := by
  have hinit : heap.Ends 0 (Traced.init (start : MsgBroker σ κ δ) true) ⟨some .new⟩
      ({.topicList} + 0) :=
    ends_acquire.bind <| (ItemList.Traced.ends_new (Multiset.notMem_zero _)).bind <|
      ends_release.bind .pure
  have h : Accounts (.new : TopicList σ κ δ) [] ({.topicList} + 0) 0 := by
    refine ⟨⟨ItemList.rep_new, by simp⟩, by simp [ownedBlocks], fun b hb => ?_⟩
    simp only [add_zero, Multiset.mem_singleton] at hb
    rw [hb]
    trivial
  have hiff : ∀ w', heap.Ends 0 (Traced.lifetime call w cs) (start, w') 0 ↔ _ :=
    fun w' => hinit.bind_iff
  simp only [Balanced, hiff, h.finish_iff call cs, true_and]
  rfl

end

/-- The removal of a topic loses the list of its observers. -/
theorem not_balanced_removeTopic :
    ¬ Balanced (fun _ _ _ w => w) () ([.installTopic "/gps" 16, .removeTopic "/gps"] :
      List (Call ℕ Unit ℕ)) := by
  have hlost : heap.run 0 (Traced.lifetime (fun _ _ _ w => w) ()
      ([.installTopic "/gps" 16, .removeTopic "/gps"] : List (Call ℕ Unit ℕ))).log =
        some {.observerList 0} := by
    decide +kernel
  rintro ⟨w', hrun, -⟩
  rw [hlost] at hrun
  exact absurd (Option.some.inj hrun) (by decide)

end MsgBroker

end UavTelemetry
