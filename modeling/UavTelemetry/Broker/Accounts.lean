import UavTelemetry.Broker.Ownership

/-!
# The accounts of the broker

The blocks that are live are those of the topic list and those that have been lost.  A block that
is allocated is at an address that has not been given out before, so it is not one of them.

## Main definitions

* `Accounts` : the live blocks are those of the topic list and those that have been lost.
* `Grows` : more addresses have been given out.

## Main results

* `Accounts.addTopic`, `Accounts.eraseTopic` : a topic is installed, or removed.
* `Accounts.addObserver`, `Accounts.removeObserver` : an observer is attached, or detached.
-/

namespace UavTelemetry

open Logged Machine

namespace MsgBroker

open ItemList (Slot)

open ItemList.Traced (linkBlocks)

variable {σ κ δ ω : Type}

/-- The names of the topics. -/
def names (xs : List (Owned σ κ δ)) : List String := xs.map fun x => x.slot.value.name

/-- The block is at an address that has been given out. -/
def Below (l : TopicList σ κ δ) : Block → Prop
  | .topicList => True
  | .topicLink n => n < l.nodes.fresh
  | .topic a => a < l.items.fresh
  | .observerList a => a < l.items.fresh
  | .link a n =>
    a < l.items.fresh ∧ ∀ t, l.items.read a = some t → n < t.observerList.nodes.fresh
  | .observer a o =>
    a < l.items.fresh ∧ ∀ t, l.items.read a = some t → o < t.observerList.items.fresh

/-- The live blocks are those of the topics `xs` and those that have been lost. -/
structure Accounts (l : TopicList σ κ δ) (xs : List (Owned σ κ δ)) (live lost : Multiset Block) :
    Prop where
  /-- The topic list owns the topics. -/
  owns : Owns l xs
  /-- The live blocks. -/
  live_eq : live = ownedBlocks xs + lost
  /-- No live block is allocated again. -/
  below : ∀ b ∈ live, Below l b

/-- More addresses have been given out in the second list. -/
structure Grows (l l' : TopicList σ κ δ) : Prop where
  /-- For links. -/
  nodes : l.nodes.fresh ≤ l'.nodes.fresh
  /-- For topics. -/
  items : l.items.fresh ≤ l'.items.fresh
  /-- For the observers of each topic. -/
  topic : ∀ a < l.items.fresh, ∀ t', l'.items.read a = some t' → ∃ t, l.items.read a = some t ∧
    t.observerList.nodes.fresh ≤ t'.observerList.nodes.fresh ∧
    t.observerList.items.fresh ≤ t'.observerList.items.fresh

variable {l l' : TopicList σ κ δ} {xs ys zs : List (Owned σ κ δ)} {x : Owned σ κ δ}
  {live live' lost : Multiset Block} {name : String}

theorem Below.mono {b : Block} (h : Below l b) (hg : Grows l l') : Below l' b := by
  cases b with
  | topicList => trivial
  | topicLink n => exact Nat.lt_of_lt_of_le h hg.nodes
  | topic a | observerList a => exact Nat.lt_of_lt_of_le h hg.items
  | link a n =>
    refine ⟨Nat.lt_of_lt_of_le h.1 hg.items, fun t' ht' => ?_⟩
    obtain ⟨t, ht, hnodes, -⟩ := hg.topic a h.1 t' ht'
    exact Nat.lt_of_lt_of_le (h.2 t ht) hnodes
  | observer a o =>
    refine ⟨Nat.lt_of_lt_of_le h.1 hg.items, fun t' ht' => ?_⟩
    obtain ⟨t, ht, -, hitems⟩ := hg.topic a h.1 t' ht'
    exact Nat.lt_of_lt_of_le (h.2 t ht) hitems

theorem Owns.search (h : Owns l xs) (a : Option Addr) : Owns { l with search := a } xs :=
  ⟨h.rep.search a, h.observers⟩

namespace Accounts

theorem topicList_mem (h : Accounts l xs live lost) : .topicList ∈ live := by
  rw [h.live_eq]
  simp [ownedBlocks]

theorem search (h : Accounts l xs live lost) (a : Option Addr) :
    Accounts { l with search := a } xs live lost := by
  refine ⟨h.owns.search a, h.live_eq, fun b hb => (h.below b hb).mono ?_⟩
  exact ⟨le_rfl, le_rfl, fun a _ t ht => ⟨t, ht, le_rfl, le_rfl⟩⟩

/-- What `findTopic` finds. -/
theorem findTopic (h : Accounts l xs live lost) (name : String) :
    ∃ l', Accounts l' xs live lost ∧
      ((name ∉ names xs ∧ heap.Ends live (Traced.findTopic l name) (l', none) live) ∨
        ∃ ys x zs, xs = ys ++ x :: zs ∧ x.slot.value.name = name ∧
          heap.Ends live (Traced.findTopic l name) (l', some x.slot.item) live) := by
  have hfind : l.find (fun topic => decide (name = topic.name)) = .ok _ := h.owns.rep.find
  rw [List.find?_map] at hfind
  have hends := ItemList.Traced.ends_of_uses (n := topics)
    (ItemList.Traced.uses_find topics (fun topic => name = topic.name) l) h.topicList_mem
    ((ItemList.Traced.result_find _ _ l).trans hfind)
  cases hx : xs.find? ((fun x => decide (name = x.value.name)) ∘ Owned.slot) with
  | none =>
    rw [hx] at hends
    refine ⟨_, h.search none, Or.inl ⟨?_, hends⟩⟩
    intro hmem
    obtain ⟨x, hxs, hname⟩ := List.mem_map.1 hmem
    exact absurd (List.find?_eq_none.1 hx x hxs) (by simp [hname])
  | some x =>
    rw [hx] at hends
    obtain ⟨hname, ys, zs, hsplit, -⟩ := List.find?_eq_some_iff_append.1 hx
    exact ⟨_, h.search (some x.slot.node),
      Or.inr ⟨ys, x, zs, hsplit, (of_decide_eq_true hname).symm, hends⟩⟩

theorem read (h : Accounts l (ys ++ x :: zs) live lost) :
    l.items.read x.slot.item = some x.slot.value :=
  h.owns.rep.read x.slot (List.mem_map_of_mem (by simp))

theorem observers_rep (h : Accounts l (ys ++ x :: zs) live lost) :
    x.slot.value.observerList.Rep x.observers :=
  h.owns.observers x (by simp)

/-- A topic is overwritten, with an observer list of its own. -/
theorem write {t' : Topic σ κ δ} {os : List (Slot (Observer σ κ))}
    (h : Accounts l (ys ++ x :: zs) live lost) (hrep : t'.observerList.Rep os)
    (hnodes : x.slot.value.observerList.nodes.fresh ≤ t'.observerList.nodes.fresh)
    (hitems : x.slot.value.observerList.items.fresh ≤ t'.observerList.items.fresh)
    (hlive : live' = ownedBlocks (ys ++ ⟨{ x.slot with value := t' }, os⟩ :: zs) + lost)
    (hbelow : ∀ b ∈ live', b ∈ live ∨ Below { l with items := l.items.write x.slot.item t' } b) :
    Accounts { l with items := l.items.write x.slot.item t' }
      (ys ++ ⟨{ x.slot with value := t' }, os⟩ :: zs) live' lost := by
  have hgrows : Grows l { l with items := l.items.write x.slot.item t' } := by
    refine ⟨le_rfl, (Store.fresh_write).ge, fun a ha t ht => ?_⟩
    by_cases hax : a = x.slot.item
    · subst hax
      have hwrite : (l.items.write x.slot.item t').read x.slot.item = some t' :=
        Store.read_write_self h.read
      cases hwrite.symm.trans ht
      exact ⟨_, h.read, hnodes, hitems⟩
    · refine ⟨t, ?_, le_rfl, le_rfl⟩
      rw [← ht]
      exact (Store.read_write_of_ne hax).symm
  refine ⟨⟨?_, ?_⟩, hlive, fun b hb => (hbelow b hb).elim (fun hb => ?_) id⟩
  · have hrep' := h.owns.rep
    rw [List.map_append, List.map_cons] at hrep' ⊢
    exact hrep'.write_item t'
  · intro y hy
    rcases List.mem_append.1 hy with hy | hy
    · exact h.owns.observers y (by simp [hy])
    · rcases List.mem_cons.1 hy with rfl | hy
      · exact hrep
      · exact h.owns.observers y (by simp [hy])
  · exact (h.below b hb).mono hgrows

theorem observerList_mem (h : Accounts l (ys ++ x :: zs) live lost) :
    (MsgBroker.observers x.slot.item).list ∈ live := by
  rw [h.live_eq]
  simp [ownedBlocks, Owned.blocks, Owned.rest]

theorem names_write {t' : Topic σ κ δ} {os : List (Slot (Observer σ κ))}
    (hname : t'.name = x.slot.value.name) :
    names (ys ++ ⟨{ x.slot with value := t' }, os⟩ :: zs) = names (ys ++ x :: zs) := by
  simp [names, hname]

/-- A topic is overwritten with the same observers. -/
theorem write_same {t' : Topic σ κ δ} (h : Accounts l (ys ++ x :: zs) live lost)
    (hrep : t'.observerList.Rep x.observers)
    (hnodes : x.slot.value.observerList.nodes.fresh ≤ t'.observerList.nodes.fresh)
    (hitems : x.slot.value.observerList.items.fresh ≤ t'.observerList.items.fresh) :
    Accounts { l with items := l.items.write x.slot.item t' }
      (ys ++ ⟨{ x.slot with value := t' }, x.observers⟩ :: zs) live lost := by
  refine h.write hrep hnodes hitems ?_ fun b hb => Or.inl hb
  rw [h.live_eq]
  simp [ownedBlocks, Owned.blocks, Owned.rest]

/-! ### Addresses that have not been given out -/

theorem topic_notMem (h : Accounts l xs live lost) : .topic l.items.fresh ∉ live := fun hm =>
  absurd (h.below _ hm) (lt_irrefl _)

theorem observerList_notMem (h : Accounts l xs live lost) : .observerList l.items.fresh ∉ live :=
  fun hm => absurd (h.below _ hm) (lt_irrefl _)

theorem topicLink_notMem (h : Accounts l xs live lost) : .topicLink l.nodes.fresh ∉ live :=
  fun hm => absurd (h.below _ hm) (lt_irrefl _)

theorem observer_notMem (h : Accounts l (ys ++ x :: zs) live lost) :
    .observer x.slot.item x.slot.value.observerList.items.fresh ∉ live := fun hm =>
  absurd ((h.below _ hm).2 _ h.read) (lt_irrefl _)

theorem link_notMem (h : Accounts l (ys ++ x :: zs) live lost) :
    .link x.slot.item x.slot.value.observerList.nodes.fresh ∉ live := fun hm =>
  absurd ((h.below _ hm).2 _ h.read) (lt_irrefl _)

/-! ### Topics and observers come and go -/

/-- A topic without observers is installed. -/
theorem addTopic (h : Accounts l xs live lost) {t : Topic σ κ δ} (ht : t.observerList = .new) :
    ∃ l', ItemList.addItem { l with items := l.items.alloc t } l.items.fresh true = .ok l' ∧
      Accounts l' (xs ++ [⟨⟨l.nodes.fresh, l.items.fresh, t⟩, []⟩])
        ({.topicLink l.nodes.fresh} + ({.observerList l.items.fresh} +
          ({.topic l.items.fresh} + live))) lost := by
  obtain ⟨l', hadd, hrep, hitems, -, hnodes⟩ := h.owns.rep.push t
  have hnodes : l.nodes.fresh < l'.nodes.fresh := hnodes ▸ Nat.lt_succ_self _
  have hfresh : l.items.fresh < l'.items.fresh := by
    rw [hitems, Store.fresh_alloc]
    exact Nat.lt_succ_self _
  have hgrows : Grows l l' := by
    refine ⟨hnodes.le, hfresh.le, fun a ha t' ht' => ⟨t', ?_, le_rfl, le_rfl⟩⟩
    rw [← ht', hitems]
    exact (Store.read_alloc_of_lt ha).symm
  refine ⟨l', hadd, ⟨?_, ?_⟩, ?_, ?_⟩
  · simpa using hrep
  · intro x hx
    rcases List.mem_append.1 hx with hx | hx
    · exact h.owns.observers x hx
    · rw [List.mem_singleton.1 hx]
      show t.observerList.Rep []
      rw [ht]
      exact ItemList.rep_new
  · rw [h.live_eq]
    simp only [ownedBlocks, topicBlocks_append, topicBlocks_cons, topicBlocks_nil, Owned.blocks,
      Owned.rest, observerBlocks_nil, List.map_append, List.map_cons, List.map_nil,
      ItemList.Traced.linkBlocks_append, ItemList.Traced.linkBlocks_cons,
      ItemList.Traced.linkBlocks_nil, topics_link]
    abel
  · intro b hb
    simp only [Multiset.mem_add, Multiset.mem_singleton] at hb
    rcases hb with rfl | rfl | rfl | hb
    · exact hnodes
    · exact hfresh
    · exact hfresh
    · exact (h.below b hb).mono hgrows

/-- A topic is removed: its link and the topic are freed, and its other blocks are lost. -/
theorem eraseTopic (h : Accounts l (ys ++ x :: zs) live lost) :
    ∃ l' rest, l.removeItem x.slot.item = .ok l' ∧
      live = {.topicLink x.slot.node} + ({.topic x.slot.item} + rest) ∧ .topicList ∈ rest ∧
      Accounts { l' with items := l'.items.free x.slot.item } (ys ++ zs) rest (x.rest + lost) := by
  have hrep : l.Rep (ys.map Owned.slot ++ x.slot :: zs.map Owned.slot) := by
    simpa using h.owns.rep
  obtain ⟨l', hremove, hitems, hrep'⟩ := hrep.removeItem
  have hlive : live = {.topicLink x.slot.node} +
      ({.topic x.slot.item} + (ownedBlocks (ys ++ zs) + (x.rest + lost))) := by
    rw [h.live_eq]
    simp only [ownedBlocks, topicBlocks_append, topicBlocks_cons, Owned.blocks, List.map_append,
      List.map_cons, ItemList.Traced.linkBlocks_append, ItemList.Traced.linkBlocks_cons,
      topics_link]
    abel
  have hgrows : Grows l { l' with items := l'.items.free x.slot.item } := by
    refine ⟨(hrep.fresh_removeItem hremove).ge, ?_, fun a _ t ht => ⟨t, ?_, le_rfl, le_rfl⟩⟩
    · rw [Store.fresh_free, hitems]
    · -- the topic that has been freed is not read any more
      have hne : a ≠ x.slot.item := by
        rintro rfl
        rw [Store.read_free_self] at ht
        cases ht
      rwa [Store.read_free_of_ne hne, hitems] at ht
  refine ⟨l', _, hremove, hlive, by simp [ownedBlocks], ⟨?_, fun y hy => ?_⟩, rfl, fun b hb => ?_⟩
  · simpa using hrep'
  · refine h.owns.observers y ?_
    rw [List.mem_append] at hy ⊢
    exact hy.imp_right (.tail _)
  · have hb' : b ∈ live := by
      rw [hlive]
      exact Multiset.mem_add.2 (Or.inr (Multiset.mem_add.2 (Or.inr hb)))
    exact (h.below b hb').mono hgrows

/-- An observer is attached to a topic. -/
theorem addObserver (h : Accounts l (ys ++ x :: zs) live lost) (obs : Observer σ κ) :
    ∃ list os, ItemList.addItem { x.slot.value.observerList with
        items := x.slot.value.observerList.items.alloc obs }
          x.slot.value.observerList.items.fresh true = .ok list ∧
      Accounts { l with
          items := l.items.write x.slot.item { x.slot.value with observerList := list } }
        (ys ++ ⟨{ x.slot with value := { x.slot.value with observerList := list } }, os⟩ :: zs)
        ({.link x.slot.item x.slot.value.observerList.nodes.fresh} +
          ({.observer x.slot.item x.slot.value.observerList.items.fresh} + live)) lost := by
  obtain ⟨list, hadd, hrep, hitems, -, hnodes⟩ := h.observers_rep.push obs
  have hnodes : x.slot.value.observerList.nodes.fresh < list.nodes.fresh :=
    hnodes ▸ Nat.lt_succ_self _
  have hfresh : x.slot.value.observerList.items.fresh < list.items.fresh := by
    rw [hitems, Store.fresh_alloc]
    exact Nat.lt_succ_self _
  have hlt : x.slot.item < l.items.fresh := Store.lt_fresh_of_read h.read
  refine ⟨list, _, hadd, h.write hrep hnodes.le hfresh.le ?_ ?_⟩
  · rw [h.live_eq]
    simp only [ownedBlocks, topicBlocks_append, topicBlocks_cons, Owned.blocks, Owned.rest,
      observerBlocks_append, observerBlocks_cons, observerBlocks_nil, List.map_append,
      List.map_cons, ItemList.Traced.linkBlocks_append, ItemList.Traced.linkBlocks_cons,
      ItemList.Traced.linkBlocks_nil, observers_link]
    abel
  · intro b hb
    have hwrite : ∀ t, (l.items.write x.slot.item { x.slot.value with
        observerList := list }).read x.slot.item = some t → t.observerList = list := by
      intro t ht
      rw [Store.read_write_self h.read] at ht
      cases ht
      rfl
    simp only [Multiset.mem_add, Multiset.mem_singleton] at hb
    rcases hb with rfl | rfl | hb
    · exact Or.inr ⟨by rwa [Store.fresh_write], fun t ht => by rwa [hwrite t ht]⟩
    · exact Or.inr ⟨by rwa [Store.fresh_write], fun t ht => by rwa [hwrite t ht]⟩
    · exact Or.inl hb

/-- An observer is detached from a topic: its link and the observer are freed. -/
theorem removeObserver {os ps : List (Slot (Observer σ κ))} {o : Slot (Observer σ κ)}
    (h : Accounts l (ys ++ x :: zs) live lost) (hsplit : x.observers = os ++ o :: ps)
    {list : ItemList (Observer σ κ)} (hlist : list.Rep (os ++ o :: ps))
    (hnodes : x.slot.value.observerList.nodes.fresh = list.nodes.fresh)
    (hitems : x.slot.value.observerList.items.fresh = list.items.fresh) :
    ∃ list' rest, list.removeItem o.item = .ok list' ∧
      live = {.link x.slot.item o.node} + ({.observer x.slot.item o.item} + rest) ∧
      .observerList x.slot.item ∈ rest ∧
      Accounts { l with items := l.items.write x.slot.item { x.slot.value with
          observerList := { list' with items := list'.items.free o.item } } }
        (ys ++ ⟨{ x.slot with value := { x.slot.value with
          observerList := { list' with items := list'.items.free o.item } } }, os ++ ps⟩ :: zs)
        rest lost := by
  obtain ⟨list', hremove, hitems', hrep⟩ := hlist.removeItem
  have hlive : live = {.link x.slot.item o.node} + ({.observer x.slot.item o.item} +
      (ownedBlocks (ys ++ ⟨x.slot, os ++ ps⟩ :: zs) + lost)) := by
    rw [h.live_eq]
    simp only [ownedBlocks, topicBlocks_append, topicBlocks_cons, Owned.blocks, Owned.rest, hsplit,
      observerBlocks_append, observerBlocks_cons, List.map_append, List.map_cons,
      ItemList.Traced.linkBlocks_append, ItemList.Traced.linkBlocks_cons, observers_link]
    abel
  refine ⟨list', _, hremove, hlive, by simp [ownedBlocks, Owned.blocks, Owned.rest],
    h.write hrep ?_ ?_ ?_ fun b hb => Or.inl ?_⟩
  · rw [hnodes]
    exact (hlist.fresh_removeItem hremove).ge
  · rw [hitems, Store.fresh_free, hitems']
  · simp [ownedBlocks, Owned.blocks, Owned.rest]
  · rw [hlive]
    exact Multiset.mem_add.2 (Or.inr (Multiset.mem_add.2 (Or.inr hb)))

end Accounts

end MsgBroker

end UavTelemetry
