import UavTelemetry.Broker.ItemList
import UavTelemetry.Lists.Links

/-!
# The lists of the broker

The broker keeps its topics and observers in objects of class `List<T>`, of which it uses only a
part: no limits, no exceptions, and no null items.  `ItemList` translates this part, together with
the items, on which the broker works; `LinkedList` translates the class.  Here the two agree, call
by call, so that what is known of `LinkedList` holds of the lists of the broker.

## Main definitions

* `ItemList.Same` : a list of the broker is an object of class `List<T>`.

## Main results

* `ItemList.Same.addItem`, `ItemList.Same.removeItem`, `ItemList.Same.getFirstItem`,
  `ItemList.Same.getNextItem` : the operations keep it so, faults included.
* `ItemList.Same.rep` : both consist of the same links.
-/

namespace UavTelemetry

namespace ItemList

/-- A link of the broker, whose item is never null. -/
def carry (node : Link Addr) : Link (Option Addr) := ⟨node.prev, node.next, some node.item⟩

/-- The list of the broker as an object of class `List<T>`, with what the broker does not see. -/
def object {α : Type} (b : ItemList α) (numItems : UInt32) (freed : List Addr) : LinkedList Addr :=
  ⟨b.first, b.last, b.search, b.count, numItems, b.nodes.map carry, freed⟩

/-- The list of the broker is the object `l`, apart from the items to which the links point. -/
def Same {α : Type} (b : ItemList α) (l : LinkedList Addr) : Prop :=
  ∃ numItems freed, l = b.object numItems freed

/-- The same list, and the same item for the caller. -/
def SameItem {α : Type} (p : ItemList α × Option Addr) (q : LinkedList Addr × Option Addr) : Prop :=
  p.1.Same q.1 ∧ p.2 = q.2

variable {α : Type} {b : ItemList α} {l : LinkedList Addr} {xs : List (Slot α)}

theorem object_fuel (b : ItemList α) (numItems : UInt32) (freed : List Addr) :
    (b.object numItems freed).fuel = b.fuel := by
  rw [LinkedList.fuel, object, Store.fresh_map, ItemList.fuel]

/-- The links of the broker's list. -/
def carried (xs : List (Addr × Addr)) : List (Addr × Option Addr) :=
  xs.map fun x => (x.1, some x.2)

@[simp] theorem headAddr_carried {e : Option Addr} (xs : List (Addr × Addr)) :
    headAddr e (carried xs) = headAddr e xs := by
  cases xs <;> rfl

@[simp] theorem lastAddr_carried {p : Option Addr} (xs : List (Addr × Addr)) :
    lastAddr p (carried xs) = lastAddr p xs := by
  induction xs generalizing p with
  | nil => rfl
  | cons x xs ih => exact ih

@[simp] theorem addrs_carried (xs : List (Addr × Addr)) : addrs (carried xs) = addrs xs := by
  simp [addrs, carried]

theorem carried_concat (xs : List (Addr × Addr)) (a i : Addr) :
    carried (xs ++ [(a, i)]) = carried xs ++ [(a, some i)] := List.map_append

theorem chain_carried {s : Store (Link Addr)} {p e : Option Addr} {xs : List (Addr × Addr)}
    (h : Chain s p xs e) : Chain (s.map carry) p (carried xs) e := by
  induction xs generalizing p with
  | nil => trivial
  | cons x xs ih =>
    obtain ⟨a, i⟩ := x
    refine ⟨?_, ih h.2⟩
    rw [Store.read_map, h.1]
    show some (carry _) = some ⟨p, headAddr e (carried xs), some i⟩
    rw [headAddr_carried]
    rfl

/-- Both consist of the same links. -/
theorem Same.rep (h : b.Same l) (hb : b.Linked xs) : l.Rep (carried (links xs)) := by
  obtain ⟨numItems, freed, rfl⟩ := h
  obtain ⟨s, hrep⟩ := hb
  refine ⟨?_, ?_, ?_, chain_carried hrep.chain, ?_⟩
  · rw [headAddr_carried]
    exact hrep.first
  · rw [lastAddr_carried]
    exact hrep.last
  · rw [carried, List.length_map, links, List.length_map]
    exact hrep.count
  · rw [addrs_carried]
    exact hrep.nodup

/-! ### Searching -/

theorem Same.getFirstItem (h : b.Same l) : Agree SameItem b.getFirstItem l.getFirstItem := by
  obtain ⟨numItems, freed, rfl⟩ := h
  obtain ⟨first, last, search, count, nodes, items⟩ := b
  cases first with
  | none => exact ⟨⟨_, _, rfl⟩, rfl⟩
  | some a =>
    refine (nodes.agree_deref carry (some a)).bind fun node _ hnode => ?_
    subst hnode
    exact ⟨⟨_, _, rfl⟩, rfl⟩

theorem Same.getNextItem (h : b.Same l) : Agree SameItem b.getNextItem l.getNextItem := by
  obtain ⟨numItems, freed, rfl⟩ := h
  obtain ⟨first, last, search, count, nodes, items⟩ := b
  cases search with
  | none => exact ⟨⟨_, _, rfl⟩, rfl⟩
  | some a =>
    refine (nodes.agree_deref carry (some a)).bind fun node _ hnode => ?_
    subst hnode
    obtain ⟨prev, next, item⟩ := node
    cases next with
    | none => exact ⟨⟨_, _, rfl⟩, rfl⟩
    | some c =>
      refine (nodes.agree_deref carry (some c)).bind fun node _ hnode => ?_
      subst hnode
      exact ⟨⟨_, _, rfl⟩, rfl⟩

/-! ### Adding and removing -/

/-- A link is freed in both. -/
theorem same_free {first last search : Option Addr} {count : ℕ} {nodes : Store (Link Addr)}
    {items : Store α} {numItems : UInt32} {freed : List Addr} {a : Addr} :
    (⟨first, last, search, count, nodes.free a, items⟩ : ItemList α).Same
      ((⟨first, last, search, count, numItems, nodes.map carry, freed⟩ :
        LinkedList Addr).free a) :=
  ⟨numItems, freed ++ [a], by simp only [LinkedList.free, object, Store.map_free]⟩

theorem agree_setNext (s : Store (Link Addr)) (p next : Option Addr) :
    Agree (fun t t' => t' = t.map carry) (s.update p fun node => { node with next := next })
      ((s.map carry).update p fun node => { node with next := next }) :=
  s.agree_update p fun _ => rfl

theorem agree_setPrev (s : Store (Link Addr)) (p prev : Option Addr) :
    Agree (fun t t' => t' = t.map carry) (s.update p fun node => { node with prev := prev })
      ((s.map carry).update p fun node => { node with prev := prev }) :=
  s.agree_update p fun _ => rfl

theorem Same.removeNode (h : b.Same l) (a : Addr) :
    Agree Same (b.removeNode a) (l.removeNode a) := by
  obtain ⟨numItems, freed, rfl⟩ := h
  obtain ⟨first, last, search, count, nodes, items⟩ := b
  refine (nodes.agree_deref carry (some a)).bind fun node _ hnode => ?_
  subst hnode
  obtain ⟨prev, next, item⟩ := node
  cases prev with
  | none =>
    cases next with
    | none => exact same_free
    | some n =>
      refine (agree_setPrev nodes (some n) none).bind fun t _ ht => ?_
      subst ht
      exact same_free
  | some p =>
    cases next with
    | none =>
      refine (agree_setNext nodes (some p) none).bind fun t _ ht => ?_
      subst ht
      exact same_free
    | some n =>
      refine (agree_setNext nodes (some p) (some n)).bind fun t _ ht => ?_
      subst ht
      refine (agree_setPrev t (some n) (some p)).bind fun u _ hu => ?_
      subst hu
      exact same_free

theorem Same.removeLoop (h : b.Same l) (item : Addr) (fuel : ℕ) (p : Option Addr) :
    Agree (fun b' q => b'.Same q.1) (b.removeLoop item fuel p)
      (l.removeLoop (some item) none fuel p) := by
  induction fuel generalizing p with
  | zero => exact rfl
  | succ fuel ih =>
    cases p with
    | none => exact rfl
    | some a =>
      have hdone := h.removeNode a
      have hsame := h
      obtain ⟨numItems, freed, rfl⟩ := h
      refine (b.nodes.agree_deref carry (some a)).bind fun node _ hnode => ?_
      subst hnode
      obtain ⟨prev, next, i⟩ := node
      by_cases hi : i = item
      · subst hi
        simp only [carry, if_true]
        rw [← bind_pure (b.removeNode a)]
        exact hdone.bind fun _ _ hsame => hsame
      · have hne : ¬ some i = some item := fun heq => hi (Option.some.inj heq)
        simp only [carry, hi, hne, if_false]
        cases next with
        | none => exact hsame
        | some n => exact ih (some n)

/-- **Removing** an item. -/
theorem Same.removeItem (h : b.Same l) (item : Addr) :
    Agree (fun b' q => b'.Same q.1) (b.removeItem item) (l.removeItem (some item) none) := by
  have hloop := h.removeLoop item b.fuel b.first
  obtain ⟨numItems, freed, rfl⟩ := h
  rw [ItemList.removeItem, LinkedList.removeItem, object_fuel]
  exact hloop

/-- **Adding** an item, behind a last link that is in the list. -/
theorem Same.addItem (h : b.Same l) (hb : b.Linked xs) (item : Addr) (memory : Bool) :
    Agree (fun b' q => b'.Same q.1) (b.addItem item memory) (l.addItem (some item) memory none) := by
  have hrep := h.rep hb
  cases memory with
  | false => exact rfl
  | true =>
    obtain ⟨s, hb⟩ := hb
    rcases List.eq_nil_or_concat' xs with rfl | ⟨ys, y, rfl⟩
    · have hcount : b.count = 0 := hb.count
      rw [addItem_nil hcount, LinkedList.Rep.addItem_nil hrep]
      obtain ⟨numItems, freed, rfl⟩ := h
      exact ⟨numItems, freed, by simp [object, Store.map_alloc, carry, hcount]⟩
    · have hcount : b.count ≠ 0 := by
        have hlength : b.count = (ys ++ [y]).length := hb.count
        simp [hlength]
      have hlast : b.last = some y.node := by
        have hlast : b.last = lastAddr none (links (ys ++ [y])) := hb.last
        rw [hlast, links_append]
        exact lastAddr_concat
      have hread : b.nodes.read y.node = some ⟨lastAddr none (links ys), none, y.item⟩ :=
        Rep.read_node hb
      rw [links_append, links_cons, links_nil, carried_concat] at hrep
      rw [addItem_last hcount hlast hread, hrep.addItem_concat, lastAddr_carried]
      obtain ⟨numItems, freed, rfl⟩ := h
      exact ⟨numItems, freed, by simp [object, Store.map_alloc, Store.map_write, carry]⟩

end ItemList

end UavTelemetry
