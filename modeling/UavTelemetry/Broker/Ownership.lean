import Mathlib.Algebra.Order.Group.Multiset
import Mathlib.Data.List.Induction
import Mathlib.Tactic.Abel
import UavTelemetry.Broker.Traced

/-!
# What the broker owns

The broker owns its topic list, the topics, their observer lists and the observers.  What the list
operations allocate and free, and that `deinit` frees all of it, is read off the logs with the
machine `heap`.

## Main definitions

* `Owned`, `Owns` : the topics of a topic list with their observers.
* `ownedBlocks` : the blocks of a topic list.

## Main results

* `ItemList.Traced.ends_delete` : the destructor of a list frees its links and the list object.
* `Owns.ends_deinit` : `deinit` frees the blocks that the broker owns.
-/

namespace UavTelemetry

open Logged Machine

namespace ItemList.Traced

variable {α β : Type} {n : Blocks β} {l l' : ItemList α} {xs ys : List (Slot α)} {x : Slot α}

/-- The links of a list of slots. -/
def linkBlocks (n : Blocks β) (xs : List (Slot α)) : Multiset β :=
  (xs.map fun x => n.link x.node : List β)

@[simp] theorem linkBlocks_nil : linkBlocks n ([] : List (Slot α)) = 0 := rfl

@[simp] theorem linkBlocks_cons : linkBlocks n (x :: xs) = {n.link x.node} + linkBlocks n xs := rfl

@[simp] theorem linkBlocks_append :
    linkBlocks n (xs ++ ys) = linkBlocks n xs + linkBlocks n ys := by
  simp [linkBlocks]

variable [DecidableEq β] {live : Multiset β}

/-- A search leaves the heap as it is. -/
theorem ends_of_uses {γ : Type} {y : Logged (Event β) Fault γ} {a : γ} (h : Uses n y)
    (hlist : n.list ∈ live) (ha : y.result = .ok a) : heap.Ends live y a live :=
  .of_only h (fun _ he => he ▸ heap_access hlist) ha

theorem ends_new (h : n.list ∉ live) :
    heap.Ends live (new n : Logged (Event β) Fault (ItemList α)) .new ({n.list} + live) :=
  (ends_alloc h).bind <| (ends_access (by simp)).bind .pure

/-- `addItem` allocates a link. -/
theorem ends_addItem {item : Addr} (h : l.addItem item true = .ok l') (hlist : n.list ∈ live)
    (hfresh : n.link l.nodes.fresh ∉ live) :
    heap.Ends live (addItem n l item true) l' ({n.link l.nodes.fresh} + live) :=
  (ends_access hlist).bind <| (ends_alloc hfresh).bind <| .lift h

theorem ends_removeNode {a : Addr} (hlist : n.list ∈ live) (h : l.removeNode a = .ok l') :
    heap.Ends ({n.link a} + live) (removeNode n l a) l' live :=
  (ends_access (Multiset.mem_add.2 (Or.inr hlist))).bind <| (Ends.lift h).bind <|
    ends_free.bind .pure

/-- `removeItem` frees the link of the item. -/
theorem ends_removeItem (hrep : l.Rep (xs ++ x :: ys)) (hlist : n.list ∈ live)
    (h : l.removeItem x.item = .ok l') :
    heap.Ends ({n.link x.node} + live) (removeItem n l x.item) l' live := by
  rw [hrep.removeItem_eq] at h
  suffices hloop : ∀ (us zs : List (Slot α)) fuel, us ++ zs = xs → zs.length < fuel →
      heap.Ends ({n.link x.node} + live)
        (removeLoop n l x.item fuel ((zs ++ x :: ys).head?.map Slot.node)) l' live by
    have hfirst : l.first = (xs ++ x :: ys).head?.map Slot.node := by
      rw [hrep.first, headAddr_links]
    have hfuel : xs.length < l.fuel := Nat.lt_of_le_of_lt (by simp) hrep.length_lt_fuel
    refine (ends_access (Multiset.mem_add.2 (Or.inr hlist))).bind ?_
    rw [hfirst]
    exact hloop [] xs l.fuel rfl hfuel
  intro us zs
  induction zs generalizing us with
  | nil =>
    intro fuel hxs hfuel
    obtain ⟨fuel, rfl⟩ := Nat.exists_eq_succ_of_ne_zero (Nat.ne_zero_of_lt hfuel)
    rw [List.append_nil] at hxs
    subst hxs
    refine (Ends.lift (Store.deref_of_read hrep.read_node)).bind ?_
    rw [if_pos rfl]
    exact ends_removeNode hlist h
  | cons z zs ih =>
    intro fuel hxs hfuel
    obtain ⟨fuel, rfl⟩ := Nat.exists_eq_succ_of_ne_zero (Nat.ne_zero_of_lt hfuel)
    subst hxs
    have hz : l.Rep (us ++ z :: (zs ++ x :: ys)) := by simpa using hrep
    have hne : z.item ≠ x.item := fun heq => hz.notMem_item.2 (by simp [heq])
    refine (Ends.lift (Store.deref_of_read hz.read_node)).bind ?_
    rw [if_neg hne]
    have hrest := ih (us ++ [z]) fuel (by simp) (Nat.lt_of_succ_lt_succ hfuel)
    cases zs <;> exact hrest

/-- The destructor frees the links from the last to the first. -/
theorem ends_destroyLoop (h : l.Linked xs) (hlist : n.list ∈ live) {fuel : ℕ}
    (hfuel : xs.length < fuel) :
    ∃ l', heap.Ends (linkBlocks n xs + live) (destroyLoop n fuel l) l' live := by
  induction xs using List.reverseRecOn generalizing l fuel with
  | nil =>
    obtain ⟨fuel, rfl⟩ := Nat.exists_eq_succ_of_ne_zero (Nat.ne_zero_of_lt hfuel)
    have hfirst : l.first = none := h.first
    refine ⟨l, ?_⟩
    rw [linkBlocks_nil, zero_add, destroyLoop, hfirst]
    exact (ends_access hlist).bind .pure
  | append_singleton ys x ih =>
    obtain ⟨fuel, rfl⟩ := Nat.exists_eq_succ_of_ne_zero (Nat.ne_zero_of_lt hfuel)
    obtain ⟨a, hfirst⟩ : ∃ a, l.first = some a := by
      rw [h.first, headAddr_links]
      cases ys <;> exact ⟨_, rfl⟩
    have hlast : l.last = some x.node := by
      rw [h.last, links_append]
      exact lastAddr_concat
    obtain ⟨l₁, hremove, hlinked⟩ := h.removeNode
    rw [List.append_nil] at hlinked
    have hlength : ys.length < fuel := by
      rw [List.length_append] at hfuel
      exact Nat.lt_of_succ_lt_succ hfuel
    obtain ⟨l', hrest⟩ := ih hlinked hlength
    have hblocks : linkBlocks n (ys ++ [x]) + live =
        {n.link x.node} + (linkBlocks n ys + live) := by
      simp only [linkBlocks_append, linkBlocks_cons, linkBlocks_nil]
      abel
    have hmem : n.list ∈ linkBlocks n ys + live := Multiset.mem_add.2 (Or.inr hlist)
    refine ⟨l', ?_⟩
    rw [hblocks, destroyLoop, hfirst, hlast]
    exact (ends_access (Multiset.mem_add.2 (Or.inr hmem))).bind <|
      (ends_removeNode hmem hremove).bind hrest

/-- `delete` frees the links and the list object. -/
theorem ends_delete (h : l.Linked xs) :
    heap.Ends (linkBlocks n xs + ({n.list} + live)) (delete n l) () live := by
  have hlist : n.list ∈ ({n.list} + live : Multiset β) := by simp
  obtain ⟨l', hloop⟩ := ends_destroyLoop h hlist h.length_lt_fuel
  exact hloop.bind ends_free

end ItemList.Traced

namespace MsgBroker

open ItemList (Slot)

variable {σ κ δ ω : Type}

/-- A topic of the topic list, with its observers. -/
structure Owned (σ κ δ : Type) where
  /-- The topic. -/
  slot : Slot (Topic σ κ δ)
  /-- Its observers. -/
  observers : List (Slot (Observer σ κ))

/-- The topic list holds the topics, and they hold their observers. -/
structure Owns (l : TopicList σ κ δ) (xs : List (Owned σ κ δ)) : Prop where
  /-- The topics. -/
  rep : l.Rep (xs.map Owned.slot)
  /-- The observers of each topic. -/
  observers : ∀ x ∈ xs, x.slot.value.observerList.Rep x.observers

open ItemList.Traced (linkBlocks ends_of_uses uses_getFirstItem uses_getNextItem uses_find
  ends_delete)

/-- The observers of a topic. -/
def observerBlocks (topic : Addr) (os : List (Slot (Observer σ κ))) : Multiset Block :=
  (os.map fun x => Block.observer topic x.item : List Block)

/-- The blocks that are lost when a topic is removed: its observers and the list of them. -/
def Owned.rest (x : Owned σ κ δ) : Multiset Block :=
  observerBlocks x.slot.item x.observers +
    (linkBlocks (MsgBroker.observers x.slot.item) x.observers + {.observerList x.slot.item})

/-- The blocks of a topic, but for its link. -/
def Owned.blocks (x : Owned σ κ δ) : Multiset Block := x.rest + {.topic x.slot.item}

/-- The blocks of the topics, but for their links. -/
def topicBlocks (xs : List (Owned σ κ δ)) : Multiset Block := (xs.map Owned.blocks).sum

/-- The blocks of a topic list. -/
def ownedBlocks (xs : List (Owned σ κ δ)) : Multiset Block :=
  topicBlocks xs + (linkBlocks topics (xs.map Owned.slot) + {.topicList})

variable {topic : Addr} {os ps : List (Slot (Observer σ κ))} {o : Slot (Observer σ κ)}
  {x : Owned σ κ δ} {xs ys : List (Owned σ κ δ)} {l : TopicList σ κ δ} {live : Multiset Block}

@[simp] theorem observerBlocks_nil :
    observerBlocks topic ([] : List (Slot (Observer σ κ))) = 0 := rfl

@[simp] theorem observerBlocks_cons :
    observerBlocks topic (o :: os) = {.observer topic o.item} + observerBlocks topic os := rfl

@[simp] theorem observerBlocks_append :
    observerBlocks topic (os ++ ps) = observerBlocks topic os + observerBlocks topic ps := by
  simp [observerBlocks]

@[simp] theorem topicBlocks_nil : topicBlocks ([] : List (Owned σ κ δ)) = 0 := rfl

@[simp] theorem topicBlocks_cons : topicBlocks (x :: xs) = x.blocks + topicBlocks xs := by
  simp [topicBlocks]

@[simp] theorem topicBlocks_append : topicBlocks (xs ++ ys) = topicBlocks xs + topicBlocks ys := by
  simp [topicBlocks]

/-! ### The end of a run -/

/-- The inner loop of `deinit` frees the observers; the links stay. -/
theorem ends_freeLoop (ps : List (Slot (Observer σ κ))) {list : ItemList (Observer σ κ)}
    (h : list.Linked (ps ++ os)) (hs : list.search = os.head?.map Slot.node)
    (hlist : .observerList topic ∈ live) {fuel : ℕ} (hfuel : os.length < fuel) :
    ∃ list', heap.Ends (observerBlocks topic os + live)
        (Traced.freeLoop topic fuel list (os.head?.map Slot.item)) list' live ∧
      list'.Linked (ps ++ os) := by
  induction os generalizing list ps fuel with
  | nil =>
    obtain ⟨fuel, rfl⟩ := Nat.exists_eq_succ_of_ne_zero (Nat.ne_zero_of_lt hfuel)
    refine ⟨list, ?_, h⟩
    rw [observerBlocks_nil, zero_add]
    exact Ends.pure
  | cons o os ih =>
    obtain ⟨fuel, rfl⟩ := Nat.exists_eq_succ_of_ne_zero (Nat.ne_zero_of_lt hfuel)
    have h₁ : { list with items := list.items.free o.item }.Linked (ps ++ o :: os) := h.items _
    have hnext := h₁.getNextItem hs
    have h₂ : { list with
        items := list.items.free o.item
        search := os.head?.map Slot.node }.Linked (ps ++ [o] ++ os) := by
      simpa using h₁.search _
    obtain ⟨list', hrest, hlinked⟩ := ih _ h₂ rfl (Nat.lt_of_succ_lt_succ hfuel)
    have hmem : (observers topic).list ∈ observerBlocks topic os + live :=
      Multiset.mem_add.2 (Or.inr hlist)
    refine ⟨list', ?_, by simpa using hlinked⟩
    rw [observerBlocks_cons, add_assoc]
    exact ends_free.bind <| (ends_of_uses (uses_getNextItem _ _) hmem hnext).bind hrest

/-- The observers of a topic, the list of them and the topic are freed. -/
theorem ends_freeTopic (hread : l.items.read x.slot.item = some x.slot.value)
    (hobs : x.slot.value.observerList.Rep x.observers) :
    heap.Ends (x.blocks + live) (Traced.freeTopic l x.slot.item)
      { l with items := l.items.free x.slot.item } live := by
  have hsearch := (hobs.search (x.observers.head?.map Slot.node)).linked
  have hfirst := hobs.getFirstItem
  set rest : Multiset Block := linkBlocks (observers x.slot.item) x.observers +
    ({.observerList x.slot.item} + ({.topic x.slot.item} + live)) with hrest
  have hblocks : x.blocks + live = observerBlocks x.slot.item x.observers + rest := by
    simp only [Owned.blocks, Owned.rest, hrest]
    abel
  have hlist : .observerList x.slot.item ∈ rest := by simp [hrest]
  obtain ⟨list', hfree, hlinked⟩ :=
    ends_freeLoop [] hsearch rfl hlist hobs.linked.length_lt_fuel
  have hmem : (observers x.slot.item).list ∈ observerBlocks x.slot.item x.observers + rest :=
    Multiset.mem_add.2 (Or.inr hlist)
  rw [hblocks]
  exact (Ends.lift (Store.deref_of_read hread)).bind <|
    (ends_of_uses (uses_getFirstItem _ _) hmem hfirst).bind <| hfree.bind <|
      (ends_delete hlinked).bind <| ends_free.bind .pure

/-- The loop of `deinit` frees the topics; the links stay. -/
theorem ends_deinitLoop (zs : List (Slot (Topic σ κ δ)))
    (h : l.Linked (zs ++ xs.map Owned.slot))
    (hs : l.search = (xs.map Owned.slot).head?.map Slot.node)
    (hread : ∀ x ∈ xs, l.items.read x.slot.item = some x.slot.value)
    (hobs : ∀ x ∈ xs, x.slot.value.observerList.Rep x.observers)
    (hnodup : (xs.map fun x => x.slot.item).Nodup) (hlist : .topicList ∈ live) {fuel : ℕ}
    (hfuel : xs.length < fuel) :
    ∃ l', heap.Ends (topicBlocks xs + live)
        (Traced.deinitLoop fuel l ((xs.map Owned.slot).head?.map Slot.item)) l' live ∧
      l'.Linked (zs ++ xs.map Owned.slot) := by
  induction xs generalizing l zs fuel with
  | nil =>
    obtain ⟨fuel, rfl⟩ := Nat.exists_eq_succ_of_ne_zero (Nat.ne_zero_of_lt hfuel)
    refine ⟨l, ?_, h⟩
    rw [topicBlocks_nil, zero_add]
    exact Ends.pure
  | cons x xs ih =>
    obtain ⟨fuel, rfl⟩ := Nat.exists_eq_succ_of_ne_zero (Nat.ne_zero_of_lt hfuel)
    rw [List.forall_mem_cons] at hread hobs
    rw [List.map_cons, List.nodup_cons] at hnodup
    have h₁ : { l with items := l.items.free x.slot.item }.Linked
        (zs ++ x.slot :: xs.map Owned.slot) := h.items _
    have hnext := h₁.getNextItem hs
    have h₂ : { l with
        items := l.items.free x.slot.item
        search := (xs.map Owned.slot).head?.map Slot.node }.Linked
          (zs ++ [x.slot] ++ xs.map Owned.slot) := by
      simpa using h₁.search _
    -- the topics behind `x` are at other addresses
    have hread' : ∀ y ∈ xs, (l.items.free x.slot.item).read y.slot.item = some y.slot.value := by
      intro y hy
      have hne : y.slot.item ≠ x.slot.item := fun heq =>
        hnodup.1 (List.mem_map.2 ⟨y, hy, heq⟩)
      rw [Store.read_free_of_ne hne]
      exact hread.2 y hy
    obtain ⟨l', hrest, hlinked⟩ :=
      ih _ h₂ rfl hread' hobs.2 hnodup.2 (Nat.lt_of_succ_lt_succ hfuel)
    have hmem : topics.list ∈ topicBlocks xs + live := Multiset.mem_add.2 (Or.inr hlist)
    refine ⟨l', ?_, by simpa using hlinked⟩
    rw [topicBlocks_cons, add_assoc]
    exact (ends_freeTopic hread.1 hobs.1).bind <|
      (ends_of_uses (uses_getNextItem _ _) hmem hnext).bind hrest

/-- **`deinit`** frees the blocks of the topic list. -/
theorem Owns.ends_deinit (h : Owns l xs) :
    heap.Ends (ownedBlocks xs + live) (Traced.deinit ⟨some l⟩) start live := by
  have hrep := h.rep
  have hfirst := hrep.getFirstItem
  have hsearch := (hrep.search ((xs.map Owned.slot).head?.map Slot.node)).linked
  set rest : Multiset Block :=
    linkBlocks topics (xs.map Owned.slot) + ({.topicList} + live) with hrest
  have hblocks : ownedBlocks xs + live = topicBlocks xs + rest := by
    simp only [ownedBlocks, hrest]
    abel
  have hlist : .topicList ∈ rest := by simp [hrest]
  have hread : ∀ x ∈ xs, l.items.read x.slot.item = some x.slot.value := fun x hx =>
    hrep.read x.slot (List.mem_map_of_mem hx)
  have hnodup : (xs.map fun x => x.slot.item).Nodup := by
    simpa [Function.comp_def] using hrep.nodup_items
  have hfuel : xs.length < l.fuel := by simpa using hrep.length_lt_fuel
  obtain ⟨l', hloop, hlinked⟩ :=
    ends_deinitLoop [] hsearch rfl hread h.observers hnodup hlist hfuel
  have hmem : topics.list ∈ topicBlocks xs + rest := Multiset.mem_add.2 (Or.inr hlist)
  rw [hblocks]
  exact ends_acquire.bind <| (ends_of_uses (uses_getFirstItem _ _) hmem hfirst).bind <|
    hloop.bind <| (ends_delete hlinked).bind <| ends_release.bind .pure

end MsgBroker

end UavTelemetry
