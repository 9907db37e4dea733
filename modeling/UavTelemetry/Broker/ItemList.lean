import UavTelemetry.Data.Chain

/-!
# The list of `List.h`

`ItemList α` is the class `List<T>` together with the heap blocks that only it refers to: its
links, and the items of type `α` to which the links point.  `List` keeps a single cursor
`search` in the list for all its users.

The broker passes no exception pointer to `addItem` and `removeItem`, so `THROW` has no effect
in them; in particular a full list accepts the item all the same.

## Main definitions

* `ItemList` and its operations under the names of `List.h`.
* `ItemList.find` : the loop of `MsgBroker::findTopic` and `MsgBroker::findObserver`.
* `ItemList.Rep` : the list holds the given slots, in order.
* `ItemList.Linked` : the list links the given slots, whatever has become of their items.

## Main results

* `ItemList.Rep.find`, `ItemList.Rep.addItem`, `ItemList.Rep.removeItem` : what the operations do
  to the slots.
-/

namespace UavTelemetry

/-- `List<T>`, and the blocks reached through it. -/
structure ItemList (α : Type) where
  /-- `_first`. -/
  first : Option Addr
  /-- `_last`. -/
  last : Option Addr
  /-- `_search`, the cursor of the search operations. -/
  search : Option Addr
  /-- `_count`; each item is a block of its own, so that it stays below `2 ^ 32`. -/
  count : ℕ
  /-- The blocks of type `ListItem`. -/
  nodes : Store (Link Addr)
  /-- The blocks of type `T`. -/
  items : Store α
  deriving DecidableEq, Repr

namespace ItemList

variable {α : Type}

/-- `List::List`. -/
def new : ItemList α := ⟨none, none, none, 0, .empty, .empty⟩

/-- `List::getFirstItem`. -/
def getFirstItem (l : ItemList α) : Except Fault (ItemList α × Option Addr) :=
  let l := { l with search := l.first }
  match l.search with
  | none => .ok (l, none)
  | some a => do
    let node ← l.nodes.deref (some a)
    return (l, some node.item)

/-- `List::getNextItem`. -/
def getNextItem (l : ItemList α) : Except Fault (ItemList α × Option Addr) :=
  match l.search with
  | none => .ok (l, none)
  | some a => do
    let node ← l.nodes.deref (some a)
    let l := { l with search := node.next }
    match l.search with
    | none => return (l, none)
    | some a =>
      let node ← l.nodes.deref (some a)
      return (l, some node.item)

/-- `List::addItem`; `node` says whether there is memory for the link.  Without it the code goes
on after `THROW(OUT_OF_MEMORY)` and writes through a null pointer. -/
def addItem (l : ItemList α) (item : Addr) (node : Bool) : Except Fault (ItemList α) :=
  if node then
    let listitem := l.nodes.fresh
    if l.count = 0 then
      .ok { l with
        nodes := l.nodes.alloc ⟨none, none, item⟩
        first := some listitem
        last := some listitem
        count := l.count + 1 }
    else do
      let nodes ← (l.nodes.alloc ⟨l.last, none, item⟩).update l.last
        fun last => { last with next := some listitem }
      return { l with nodes := nodes, last := some listitem, count := l.count + 1 }
  else .error .nullPointer

/-- `List::removeItem(ListItem *)`. -/
def removeNode (l : ItemList α) (a : Addr) : Except Fault (ItemList α) := do
  let listitem ← l.nodes.deref (some a)
  match listitem.prev, listitem.next with
  | none, none =>
    return { l with
      first := none
      last := none
      count := 0
      search := none
      nodes := l.nodes.free a }
  | none, some n =>
    let nodes ← l.nodes.update (some n) fun next => { next with prev := none }
    return { l with first := some n, count := l.count - 1, nodes := nodes.free a }
  | some p, some n =>
    let nodes ← l.nodes.update (some p) fun prev => { prev with next := some n }
    let nodes ← nodes.update (some n) fun next => { next with prev := some p }
    return { l with count := l.count - 1, nodes := nodes.free a }
  | some p, none =>
    let nodes ← l.nodes.update (some p) fun prev => { prev with next := none }
    return { l with last := some p, count := l.count - 1, nodes := nodes.free a }

/-- The loop of `List::removeItem(T *)`, which tests its link only after the first round. -/
def removeLoop (l : ItemList α) (item : Addr) : ℕ → Option Addr → Except Fault (ItemList α)
  | 0, _ => .error .diverges
  | _ + 1, none => .error .nullPointer
  | fuel + 1, some a => do
    let node ← l.nodes.deref (some a)
    if node.item = item then l.removeNode a
    else
      match node.next with
      | none => return l
      | some n => l.removeLoop item fuel (some n)

/-- A number of rounds within which every walk along the list ends. -/
def fuel (l : ItemList α) : ℕ := l.nodes.fresh + 1

/-- `List::removeItem(T *)`. -/
def removeItem (l : ItemList α) (item : Addr) : Except Fault (ItemList α) :=
  l.removeLoop item l.fuel l.first

/-- The loop of `find`, with the item at hand. -/
def findLoop (test : α → Bool) : ℕ → ItemList α → Option Addr →
    Except Fault (ItemList α × Option Addr)
  | 0, _, _ => .error .diverges
  | _ + 1, l, none => .ok (l, none)
  | fuel + 1, l, some item => do
    let v ← l.items.deref (some item)
    if test v then return (l, some item)
    else
      let (l, next) ← l.getNextItem
      findLoop test fuel l next

/-- The first item that passes a test, searched with `getFirstItem` and `getNextItem`. -/
def find (test : α → Bool) (l : ItemList α) : Except Fault (ItemList α × Option Addr) := do
  let (l, item) ← l.getFirstItem
  findLoop test l.fuel l item

/-- The contents of the items from the link at hand on. -/
def walk (l : ItemList α) : ℕ → Option Addr → Except Fault (List α)
  | 0, _ => .error .diverges
  | _ + 1, none => .ok []
  | fuel + 1, some a => do
    let node ← l.nodes.deref (some a)
    let v ← l.items.deref (some node.item)
    let vs ← l.walk fuel node.next
    return v :: vs

/-- The contents of the items, in order. -/
def contents (l : ItemList α) : Except Fault (List α) := l.walk l.fuel l.first

/-! ### What a list holds -/

/-- A place in a list: a link, the item it points to, and the contents of that item. -/
structure Slot (α : Type) where
  /-- The address of the link. -/
  node : Addr
  /-- The address of the item. -/
  item : Addr
  /-- The contents of the item. -/
  value : α

/-- The links of a list of slots. -/
def links (xs : List (Slot α)) : List (Addr × Addr) := xs.map fun x => (x.node, x.item)

/-- The list `l` holds the slots `xs`, in order. -/
structure Rep (l : ItemList α) (xs : List (Slot α)) : Prop where
  /-- `first` is the first link. -/
  first : l.first = headAddr none (links xs)
  /-- `last` is the last link. -/
  last : l.last = lastAddr none (links xs)
  /-- `count` is the number of slots. -/
  count : l.count = xs.length
  /-- The links are chained in both directions. -/
  chain : Chain l.nodes none (links xs) none
  /-- The items have their contents. -/
  read : ∀ x ∈ xs, l.items.read x.item = some x.value
  /-- The links are distinct. -/
  nodup : (addrs (links xs)).Nodup
  /-- The items are distinct. -/
  nodup_items : (xs.map Slot.item).Nodup

variable {l l' : ItemList α} {xs ys : List (Slot α)} {x : Slot α} {test : α → Bool}

@[simp] theorem links_nil : links ([] : List (Slot α)) = [] := rfl

@[simp] theorem links_cons : links (x :: xs) = (x.node, x.item) :: links xs := rfl

@[simp] theorem links_append : links (xs ++ ys) = links xs ++ links ys := List.map_append

@[simp] theorem addrs_links : addrs (links xs) = xs.map Slot.node := by
  simp [addrs, links]

@[simp] theorem headAddr_links : headAddr none (links xs) = xs.head?.map Slot.node := by
  cases xs <;> rfl

theorem rep_new : (new : ItemList α).Rep [] :=
  ⟨rfl, rfl, rfl, trivial, by simp, List.nodup_nil, List.nodup_nil⟩

/-- The cursor is no part of what a list holds. -/
theorem Rep.search (h : l.Rep xs) (a : Option Addr) : { l with search := a }.Rep xs :=
  ⟨h.first, h.last, h.count, h.chain, h.read, h.nodup, h.nodup_items⟩

/-- A list holds the slots of one sequence of items. -/
theorem Rep.items_unique (h : l.Rep xs) (h' : l.Rep ys) : xs.map Slot.item = ys.map Slot.item := by
  have hlinks : links xs = links ys := h.chain.unique h'.chain (h.first.symm.trans h'.first)
  have hitems := congrArg (List.map Prod.snd) hlinks
  simpa only [links, List.map_map, Function.comp_def] using hitems

/-- The walk along a list is shorter than its fuel. -/
theorem Rep.length_lt_fuel (h : l.Rep xs) : xs.length < l.fuel := by
  have hle := h.chain.length_le_fresh h.nodup
  rw [links, List.length_map] at hle
  exact Nat.lt_succ_of_le hle

theorem Rep.read_node (h : l.Rep (xs ++ x :: ys)) :
    l.nodes.read x.node = some ⟨lastAddr none (links xs), ys.head?.map Slot.node, x.item⟩ := by
  have hchain := h.chain
  rw [links_append, links_cons] at hchain
  rw [← headAddr_links]
  exact hchain.read

theorem Rep.walk (h : l.Rep (xs ++ ys)) {fuel : ℕ} (hfuel : ys.length < fuel) :
    l.walk fuel (ys.head?.map Slot.node) = .ok (ys.map Slot.value) := by
  induction ys generalizing xs fuel with
  | nil =>
    obtain ⟨fuel, rfl⟩ := Nat.exists_eq_succ_of_ne_zero (Nat.ne_zero_of_lt hfuel)
    rfl
  | cons y ys ih =>
    obtain ⟨fuel, rfl⟩ := Nat.exists_eq_succ_of_ne_zero (Nat.ne_zero_of_lt hfuel)
    have hitem : l.items.deref (some y.item) = .ok y.value :=
      Store.deref_of_read (h.read y (by simp))
    have h' : l.Rep (xs ++ [y] ++ ys) := by simpa using h
    have hrest := ih h' (Nat.lt_of_succ_lt_succ hfuel)
    simp only [List.head?_cons, Option.map_some, ItemList.walk, Store.deref_of_read h.read_node,
      ok_bind, hitem, hrest, pure_eq_ok, List.map_cons]

theorem Rep.contents (h : l.Rep xs) : l.contents = .ok (xs.map Slot.value) := by
  rw [ItemList.contents, h.first, headAddr_links]
  exact Rep.walk (show l.Rep ([] ++ xs) from h) h.length_lt_fuel

/-! ### Searching -/

theorem Rep.getFirstItem (h : l.Rep xs) :
    l.getFirstItem = .ok ({ l with search := xs.head?.map Slot.node }, xs.head?.map Slot.item) := by
  have hfirst : l.first = xs.head?.map Slot.node := by rw [h.first, headAddr_links]
  cases xs with
  | nil =>
    simp only [List.head?_nil, Option.map_none] at hfirst
    simp [ItemList.getFirstItem, hfirst]
  | cons x xs =>
    simp only [List.head?_cons, Option.map_some] at hfirst
    have hread := Store.deref_of_read (Rep.read_node (show l.Rep ([] ++ x :: xs) from h))
    simp only [ItemList.getFirstItem, hfirst, hread]
    rfl

theorem Rep.getNextItem (h : l.Rep (xs ++ x :: ys)) (hs : l.search = some x.node) :
    l.getNextItem = .ok ({ l with search := ys.head?.map Slot.node }, ys.head?.map Slot.item) := by
  have hread := Store.deref_of_read h.read_node
  cases ys with
  | nil =>
    simp only [ItemList.getNextItem, hs, hread]
    rfl
  | cons y ys =>
    have h' : l.Rep (xs ++ [x] ++ y :: ys) := by simpa using h
    have hnext : l.nodes.deref (some y.node) = .ok _ := Store.deref_of_read h'.read_node
    simp only [List.head?_cons, Option.map_some] at hread
    simp only [ItemList.getNextItem, hs, hread]
    change (do let node ← l.nodes.deref (some y.node); _) = _
    rw [hnext]
    rfl

/-- **Searching**: the rest of a search finds the first slot that passes the test among those
from the cursor on, and leaves the cursor there. -/
theorem Rep.findLoop (h : l.Rep (xs ++ ys)) (hs : l.search = ys.head?.map Slot.node) {fuel : ℕ}
    (hfuel : ys.length < fuel) :
    findLoop test fuel l (ys.head?.map Slot.item) =
      .ok ({ l with search := (ys.find? fun x => test x.value).map Slot.node },
        (ys.find? fun x => test x.value).map Slot.item) := by
  induction ys generalizing xs l fuel with
  | nil =>
    obtain ⟨fuel, rfl⟩ := Nat.exists_eq_succ_of_ne_zero (Nat.ne_zero_of_lt hfuel)
    simp only [List.head?_nil, Option.map_none] at hs
    simp only [List.head?_nil, Option.map_none, List.find?_nil, ItemList.findLoop]
    rw [← hs]
  | cons y ys ih =>
    obtain ⟨fuel, rfl⟩ := Nat.exists_eq_succ_of_ne_zero (Nat.ne_zero_of_lt hfuel)
    have hread : l.items.deref (some y.item) = .ok y.value :=
      Store.deref_of_read (h.read y (by simp))
    simp only [List.head?_cons, Option.map_some] at hs
    simp only [List.head?_cons, Option.map_some, ItemList.findLoop, hread, ok_bind]
    by_cases ht : test y.value
    · simp only [List.find?_cons, ht, Option.map_some, ← hs, if_true, pure_eq_ok]
    · have h' : { l with search := ys.head?.map Slot.node }.Rep (xs ++ [y] ++ ys) := by
        simpa using h.search _
      have hrest := ih h' rfl (Nat.lt_of_succ_lt_succ hfuel)
      simp only [List.find?_cons, ht, if_neg, Bool.false_eq_true, not_false_eq_true, ok_bind,
        h.getNextItem hs]
      exact hrest

/-- `find` finds the first slot that passes the test, and leaves the cursor there. -/
theorem Rep.find (h : l.Rep xs) :
    l.find test = .ok ({ l with search := (xs.find? fun x => test x.value).map Slot.node },
      (xs.find? fun x => test x.value).map Slot.item) := by
  rw [ItemList.find, h.getFirstItem]
  exact Rep.findLoop (show Rep _ ([] ++ xs) from h.search _) rfl h.length_lt_fuel

theorem split_at {i : ℕ} (hi : i < xs.length) : xs = xs.take i ++ xs[i] :: xs.drop (i + 1) := by
  rw [← List.drop_eq_getElem_cons hi, List.take_append_drop]

/-- `getNextItem` moves the cursor from one index to the next. -/
theorem Rep.getNextItem_index (h : l.Rep xs) {i : ℕ} (hi : i < xs.length)
    (hs : l.search = xs[i]?.map Slot.node) :
    l.getNextItem =
      .ok ({ l with search := xs[i + 1]?.map Slot.node }, xs[i + 1]?.map Slot.item) := by
  rw [List.getElem?_eq_getElem hi] at hs
  have h' := h
  rw [split_at hi] at h'
  rw [← List.head?_drop]
  exact h'.getNextItem hs

/-- The rest of a search from an index on. -/
theorem Rep.findLoop_index (h : l.Rep xs) {i : ℕ} (hs : l.search = xs[i]?.map Slot.node) :
    ItemList.findLoop test l.fuel l (xs[i]?.map Slot.item) =
      .ok ({ l with search := ((xs.drop i).find? fun x => test x.value).map Slot.node },
        ((xs.drop i).find? fun x => test x.value).map Slot.item) := by
  have h' := h
  rw [← List.take_append_drop i xs] at h'
  have hfuel : (xs.drop i).length < l.fuel :=
    Nat.lt_of_le_of_lt (by simp) h.length_lt_fuel
  rw [← List.head?_drop] at hs ⊢
  exact h'.findLoop hs hfuel

/-! ### Adding an item -/

theorem Rep.notMem_node (h : l.Rep (xs ++ x :: ys)) :
    x.node ∉ xs.map Slot.node ∧ x.node ∉ ys.map Slot.node := by
  have hnodup := h.nodup
  rw [addrs_links, List.map_append, List.map_cons, List.nodup_middle, List.nodup_cons,
    List.mem_append, not_or] at hnodup
  exact hnodup.1

theorem Rep.notMem_item (h : l.Rep (xs ++ x :: ys)) :
    x.item ∉ xs.map Slot.item ∧ x.item ∉ ys.map Slot.item := by
  have hnodup := h.nodup_items
  rw [List.map_append, List.map_cons, List.nodup_middle, List.nodup_cons, List.mem_append,
    not_or] at hnodup
  exact hnodup.1

/-- The other items are at other addresses. -/
theorem Rep.item_ne {y : Slot α} (h : l.Rep (xs ++ x :: ys)) (hy : y ∈ xs ++ ys) :
    y.item ≠ x.item := by
  intro heq
  have hmem : x.item ∈ (xs ++ ys).map Slot.item := heq ▸ List.mem_map_of_mem hy
  rw [List.map_append, List.mem_append] at hmem
  exact hmem.elim h.notMem_item.1 h.notMem_item.2

theorem Rep.fresh_notMem (h : l.Rep xs) : l.nodes.fresh ∉ xs.map Slot.node := by
  rw [← addrs_links]
  exact h.chain.fresh_notMem

/-- A list with a link `x` appended, from what it takes besides the old slots. -/
theorem Rep.concat (h : l.Rep xs) (hnode : x.node = l.nodes.fresh)
    (hx : l.items.read x.item = some x.value) (hni : x.item ∉ xs.map Slot.item)
    (hfirst : l'.first = headAddr none (links (xs ++ [x]))) (hlast : l'.last = some x.node)
    (hcount : l'.count = l.count + 1) (hitems : l'.items = l.items)
    (hchain : Chain l'.nodes none (links (xs ++ [x])) none) : l'.Rep (xs ++ [x]) where
  first := hfirst
  last := by rw [hlast, links_append, links_cons, links_nil, lastAddr_concat]
  count := by rw [hcount, h.count, List.length_append, List.length_singleton]
  chain := hchain
  read := by
    rw [hitems]
    intro y hy
    rcases List.mem_append.1 hy with hy | hy
    · exact h.read y hy
    · rwa [List.mem_singleton.1 hy]
  nodup := by
    have hnodup := h.nodup
    rw [addrs_links] at hnodup
    rw [addrs_links, List.map_append, List.map_singleton, ← List.concat_eq_append]
    exact hnodup.concat (hnode ▸ h.fresh_notMem)
  nodup_items := by
    rw [List.map_append, List.map_singleton, ← List.concat_eq_append]
    exact h.nodup_items.concat hni

/-- What `addItem` does to an empty list. -/
theorem addItem_nil (hcount : l.count = 0) (item : Addr) :
    l.addItem item true = .ok { l with
      nodes := l.nodes.alloc ⟨none, none, item⟩
      first := some l.nodes.fresh
      last := some l.nodes.fresh
      count := l.count + 1 } := by
  simp only [ItemList.addItem, hcount, if_true]

/-- What `addItem` does behind a last link. -/
theorem addItem_last {a i : Addr} {p n : Option Addr} (hcount : l.count ≠ 0)
    (hlast : l.last = some a) (hread : l.nodes.read a = some ⟨p, n, i⟩) (item : Addr) :
    l.addItem item true = .ok { l with
      nodes := (l.nodes.alloc ⟨some a, none, item⟩).write a ⟨p, some l.nodes.fresh, i⟩
      last := some l.nodes.fresh
      count := l.count + 1 } := by
  have hread' : (l.nodes.alloc ⟨some a, none, item⟩).read a = some ⟨p, n, i⟩ :=
    Store.read_alloc_of_read hread
  simp only [ItemList.addItem, hcount, if_true, if_false, hlast, Store.update_of_read hread',
    ok_bind, pure_eq_ok]

/-- **Adding**: `addItem` appends the item. -/
theorem Rep.addItem (h : l.Rep xs) {item : Addr} {v : α} (hv : l.items.read item = some v)
    (hni : item ∉ xs.map Slot.item) :
    ∃ l', l.addItem item true = .ok l' ∧ l'.Rep (xs ++ [⟨l.nodes.fresh, item, v⟩]) ∧
      l'.items = l.items ∧ l'.search = l.search := by
  rcases List.eq_nil_or_concat' xs with rfl | ⟨ys, y, rfl⟩
  -- `addItem` goes by the count: the list is empty, and the new link is first and last
  · refine ⟨_, addItem_nil h.count item, ?_, rfl, rfl⟩
    exact h.concat (x := ⟨l.nodes.fresh, item, v⟩) rfl hv hni rfl rfl rfl rfl
      ⟨Store.read_alloc_fresh, trivial⟩
  -- the last link `y` is pointed to the new one
  · have hcount : l.count ≠ 0 := by rw [h.count]; simp
    have hlast : l.last = some y.node := by rw [h.last, links_append]; exact lastAddr_concat
    refine ⟨_, addItem_last hcount hlast (Rep.read_node h) item, ?_, rfl, rfl⟩
    refine h.concat (x := ⟨l.nodes.fresh, item, v⟩) rfl hv hni ?_ rfl rfl rfl ?_
    · change l.first = _
      rw [h.first]
      cases ys <;> rfl
    · have hchain := h.chain
      rw [links_append] at hchain
      rw [links_append, links_append]
      refine Chain.push hchain ?_
      rw [addrs_links]
      exact (Rep.notMem_node h).1

/-- A link that has been freed stays so when an item is added. -/
theorem addItem_freed {item n : Addr} (hadd : l.addItem item true = .ok l')
    (hlt : n < l.nodes.fresh) (hfreed : l.nodes.read n = none) :
    n < l'.nodes.fresh ∧ l'.nodes.read n = none := by
  simp only [ItemList.addItem, if_true] at hadd
  split_ifs at hadd
  · cases hadd
    refine ⟨?_, (Store.read_alloc_of_lt hlt).trans hfreed⟩
    rw [Store.fresh_alloc]
    exact Nat.lt_succ_of_lt hlt
  · obtain ⟨nodes, hupdate, hadd⟩ := bind_eq_ok hadd
    cases hadd
    obtain ⟨last, link, -, hlast, rfl⟩ := Store.update_eq_ok hupdate
    have hne : n ≠ last := by
      rintro rfl
      rw [Store.read_alloc_of_lt hlt, hfreed] at hlast
      cases hlast
    constructor
    · rw [Store.fresh_write, Store.fresh_alloc]
      exact Nat.lt_succ_of_lt hlt
    · rw [Store.read_write_of_ne hne, Store.read_alloc_of_lt hlt, hfreed]

/-- The link of a new item is the next block. -/
theorem fresh_addItem {item : Addr} (h : l.addItem item true = .ok l') :
    l'.nodes.fresh = l.nodes.fresh + 1 := by
  simp only [ItemList.addItem, if_true] at h
  split_ifs at h
  · cases h
    exact Store.fresh_alloc
  · obtain ⟨nodes, hupdate, h⟩ := bind_eq_ok h
    cases h
    obtain ⟨last, link, -, -, rfl⟩ := Store.update_eq_ok hupdate
    rw [Store.fresh_write, Store.fresh_alloc]

/-! ### Removing an item -/

/-- A list with the link `x` taken out, from what it takes besides the remaining slots. -/
theorem Rep.unlink (h : l.Rep (xs ++ x :: ys))
    (hfirst : l'.first = headAddr none (links (xs ++ ys)))
    (hlast : l'.last = lastAddr none (links (xs ++ ys))) (hcount : l'.count = l.count - 1)
    (hitems : l'.items = l.items) (hchain : Chain l'.nodes none (links xs ++ links ys) none) :
    l'.Rep (xs ++ ys) where
  first := hfirst
  last := hlast
  count := by
    rw [hcount, h.count]
    simp [← Nat.add_assoc]
  chain := by rwa [links_append]
  read := by
    rw [hitems]
    exact fun y hy => h.read y (by rw [List.mem_append] at hy ⊢; exact hy.imp_right (.tail _))
  nodup := by
    have hsub : (xs ++ ys).Sublist (xs ++ x :: ys) := (List.sublist_cons_self x ys).append_left xs
    have hnodup := h.nodup
    rw [addrs_links] at hnodup ⊢
    exact hnodup.sublist (hsub.map _)
  nodup_items :=
    h.nodup_items.sublist (((List.sublist_cons_self x ys).append_left xs).map _)

/-- The link of `x` has been taken out, and the slots `xs` are left. -/
structure Removed (l : ItemList α) (x : Slot α) (xs : List (Slot α)) (l' : ItemList α) : Prop where
  /-- The slots left. -/
  rep : l'.Rep xs
  /-- The items are not touched. -/
  items : l'.items = l.items
  /-- The link is freed. -/
  read : l'.nodes.read x.node = none
  /-- Nothing is allocated. -/
  fresh : l'.nodes.fresh = l.nodes.fresh
  /-- The cursor stays where it is, unless the list is empty. -/
  search : l'.search = if xs = [] then none else l.search

/-- What `removeNode` does to the only link. -/
theorem Rep.removeNode_only (h : l.Rep [x]) :
    l.removeNode x.node = .ok { l with
      first := none
      last := none
      count := 0
      search := none
      nodes := l.nodes.free x.node } := by
  have hread := Rep.read_node (show l.Rep ([] ++ x :: []) from h)
  simp only [ItemList.removeNode, Store.deref_of_read hread, ok_bind]
  rfl

/-- What `removeNode` does to the first link of several. -/
theorem Rep.removeNode_first {y : Slot α} (h : l.Rep (x :: y :: ys)) :
    l.removeNode x.node = .ok { l with
      first := some y.node
      count := l.count - 1
      nodes := (l.nodes.write y.node ⟨none, ys.head?.map Slot.node, y.item⟩).free x.node } := by
  have hread := Rep.read_node (show l.Rep ([] ++ x :: y :: ys) from h)
  have hready : l.nodes.read y.node = some ⟨some x.node, ys.head?.map Slot.node, y.item⟩ :=
    Rep.read_node (show l.Rep ([x] ++ y :: ys) from h)
  simp only [ItemList.removeNode, Store.deref_of_read hread, ok_bind, links_nil, lastAddr,
    List.head?_cons, Option.map_some, Store.update_of_read hready, pure_eq_ok]

/-- The link before another one, and this one. -/
theorem Rep.read_both {w : Slot α} (h : l.Rep (xs ++ [w] ++ x :: ys)) :
    l.nodes.read w.node = some ⟨lastAddr none (links xs), some x.node, w.item⟩ ∧
      l.nodes.read x.node = some ⟨some w.node, ys.head?.map Slot.node, x.item⟩ := by
  have h' : l.Rep (xs ++ w :: (x :: ys)) := by simpa using h
  have hread := h.read_node
  rw [links_append, links_cons, links_nil, lastAddr_concat] at hread
  exact ⟨h'.read_node, hread⟩

/-- What `removeNode` does to the last link of several. -/
theorem Rep.removeNode_last {w : Slot α} (h : l.Rep (xs ++ [w] ++ [x])) :
    l.removeNode x.node = .ok { l with
      last := some w.node
      count := l.count - 1
      nodes := (l.nodes.write w.node ⟨lastAddr none (links xs), none, w.item⟩).free
        x.node } := by
  obtain ⟨hprev, hread⟩ := h.read_both
  simp only [ItemList.removeNode, Store.deref_of_read hread, ok_bind, List.head?_nil,
    Option.map_none, Store.update_of_read hprev, pure_eq_ok]

/-- What `removeNode` does to a link in the middle. -/
theorem Rep.removeNode_middle {w y : Slot α} (h : l.Rep (xs ++ [w] ++ x :: y :: ys)) :
    l.removeNode x.node = .ok { l with
      count := l.count - 1
      nodes := ((l.nodes.write w.node ⟨lastAddr none (links xs), some y.node, w.item⟩).write
        y.node ⟨some w.node, ys.head?.map Slot.node, y.item⟩).free x.node } := by
  obtain ⟨hprev, hread⟩ := h.read_both
  have h' : l.Rep (xs ++ w :: (x :: y :: ys)) := by simpa using h
  have hyw : y.node ≠ w.node := fun heq => h'.notMem_node.2 (by simp [heq])
  have h'' : l.Rep (xs ++ [w] ++ [x] ++ y :: ys) := by simpa using h
  have hready : (l.nodes.write w.node ⟨lastAddr none (links xs), some y.node, w.item⟩).read
      y.node = some ⟨some x.node, ys.head?.map Slot.node, y.item⟩ := by
    rw [Store.read_write_of_ne hyw]
    exact h''.read_both.2
  simp only [ItemList.removeNode, Store.deref_of_read hread, ok_bind, List.head?_cons,
    Option.map_some, Store.update_of_read hprev, Store.update_of_read hready, pure_eq_ok]

/-- **Taking out a link**: `removeNode` at the first, a middle, the last or the only link. -/
theorem Rep.removeNode (h : l.Rep (xs ++ x :: ys)) :
    ∃ l', l.removeNode x.node = .ok l' ∧ l.Removed x (xs ++ ys) l' := by
  have hchain := h.chain
  have hnodup := h.nodup
  have hlast := h.last
  rcases List.eq_nil_or_concat' xs with rfl | ⟨xs, w, rfl⟩
  · cases ys with
    | nil =>
      exact ⟨_, h.removeNode_only, h.unlink rfl rfl (by simp [h.count]) rfl trivial, rfl,
        Store.read_free_self, Store.fresh_free, rfl⟩
    | cons y ys =>
      refine ⟨_, h.removeNode_first, h.unlink rfl hlast rfl rfl ?_, rfl, Store.read_free_self,
        by simp, rfl⟩
      rw [← headAddr_links]
      exact Chain.unlinkFirst hchain hnodup
  · have hne : xs ++ [w] ++ ys ≠ [] := by simp
    have hfirst : l.first = headAddr none (links (xs ++ [w] ++ ys)) := by
      rw [h.first]
      cases xs <;> rfl
    rw [links_append, links_append, links_cons, links_nil] at hchain hnodup
    cases ys with
    | nil =>
      refine ⟨_, h.removeNode_last, h.unlink hfirst (by simp [lastAddr]) rfl rfl ?_, rfl,
        Store.read_free_self, by simp, (if_neg hne).symm⟩
      rw [links_nil, List.append_nil, links_append]
      exact Chain.unlinkLast hchain hnodup
    | cons y ys =>
      refine ⟨_, h.removeNode_middle, h.unlink hfirst ?_ rfl rfl ?_, rfl, Store.read_free_self,
        by simp, (if_neg hne).symm⟩
      · change l.last = _
        rw [hlast]
        simp [lastAddr]
      · rw [links_append, ← headAddr_links]
        exact Chain.unlinkMiddle hchain hnodup

/-- What has become of the list when the link was taken out. -/
theorem Rep.removed (h : l.Rep (xs ++ x :: ys)) (hrun : l.removeNode x.node = .ok l') :
    l.Removed x (xs ++ ys) l' := by
  obtain ⟨l₁, hrun₁, hremoved⟩ := h.removeNode
  rw [hrun, Except.ok.injEq] at hrun₁
  rwa [hrun₁]

/-- The search of `removeItem` stops at the link of the item, since the items are distinct. -/
theorem Rep.removeLoop {zs : List (Slot α)} (h : l.Rep (xs ++ (ys ++ x :: zs))) {fuel : ℕ}
    (hfuel : ys.length < fuel) :
    l.removeLoop x.item fuel ((ys ++ x :: zs).head?.map Slot.node) = l.removeNode x.node := by
  induction ys generalizing xs fuel with
  | nil =>
    obtain ⟨fuel, rfl⟩ := Nat.exists_eq_succ_of_ne_zero (Nat.ne_zero_of_lt hfuel)
    simp only [List.nil_append, List.head?_cons, Option.map_some, ItemList.removeLoop,
      Store.deref_of_read h.read_node, ok_bind, if_true]
  | cons y ys ih =>
    obtain ⟨fuel, rfl⟩ := Nat.exists_eq_succ_of_ne_zero (Nat.ne_zero_of_lt hfuel)
    have hne : y.item ≠ x.item := fun heq =>
      (Rep.notMem_item (show l.Rep (xs ++ y :: (ys ++ x :: zs)) from h)).2 (by simp [heq])
    have h' : l.Rep (xs ++ [y] ++ (ys ++ x :: zs)) := by simpa using h
    have hrest := ih h' (Nat.lt_of_succ_lt_succ hfuel)
    have hread := Rep.read_node (show l.Rep (xs ++ y :: (ys ++ x :: zs)) from h)
    simp only [List.cons_append, List.head?_cons, Option.map_some, ItemList.removeLoop,
      Store.deref_of_read hread, ok_bind, hne, if_false]
    rw [← hrest]
    cases ys <;> rfl

/-- `removeItem` takes out the link of the item. -/
theorem Rep.removeItem_eq (h : l.Rep (xs ++ x :: ys)) :
    l.removeItem x.item = l.removeNode x.node := by
  have hfuel : xs.length < l.fuel := Nat.lt_of_le_of_lt (by simp) (h.length_lt_fuel)
  rw [ItemList.removeItem, h.first, headAddr_links,
    Rep.removeLoop (show l.Rep ([] ++ (xs ++ x :: ys)) from h) hfuel]

/-- **Removing**: `removeItem` takes out the item, and the item is freed by its owner. -/
theorem Rep.removeItem (h : l.Rep (xs ++ x :: ys)) :
    ∃ l', l.removeItem x.item = .ok l' ∧ l'.items = l.items ∧
      { l' with items := l'.items.free x.item }.Rep (xs ++ ys) := by
  obtain ⟨l', hrun, hremoved⟩ := h.removeNode
  have hrep := hremoved.rep
  exact ⟨l', h.removeItem_eq.trans hrun, hremoved.items, hrep.first, hrep.last, hrep.count, hrep.chain,
    fun y hy => (Store.read_free_of_ne (h.item_ne hy)).trans (hrep.read y hy), hrep.nodup,
    hrep.nodup_items⟩

theorem Rep.fresh_removeItem (h : l.Rep (xs ++ x :: ys)) (hrun : l.removeItem x.item = .ok l') :
    l'.nodes.fresh = l.nodes.fresh :=
  (h.removed (h.removeItem_eq.symm.trans hrun)).fresh

/-! ### Items -/

/-- A new item is not in the list yet. -/
theorem Rep.alloc_item (h : l.Rep xs) (v : α) : { l with items := l.items.alloc v }.Rep xs :=
  ⟨h.first, h.last, h.count, h.chain, fun y hy => Store.read_alloc_of_read (h.read y hy), h.nodup,
    h.nodup_items⟩

theorem Rep.fresh_notMem_item (h : l.Rep xs) : l.items.fresh ∉ xs.map Slot.item := by
  intro hm
  obtain ⟨y, hy, heq⟩ := List.mem_map.1 hm
  exact Store.ne_fresh_of_read (h.read y hy) heq

/-- **A new item**: it is allocated, and `addItem` appends it. -/
theorem Rep.push (h : l.Rep xs) (v : α) :
    ∃ l', { l with items := l.items.alloc v }.addItem l.items.fresh true = .ok l' ∧
      l'.Rep (xs ++ [⟨l.nodes.fresh, l.items.fresh, v⟩]) ∧ l'.items = l.items.alloc v ∧
      l'.search = l.search ∧ l'.nodes.fresh = l.nodes.fresh + 1 := by
  obtain ⟨l', hadd, hrep, hitems, hsearch⟩ :=
    (h.alloc_item v).addItem Store.read_alloc_fresh h.fresh_notMem_item
  have hfresh := fresh_addItem hadd
  exact ⟨l', hadd, hrep, hitems, hsearch, hfresh⟩

/-- Writing an item changes its slot only. -/
theorem Rep.write_item (h : l.Rep (xs ++ x :: ys)) (v : α) :
    { l with items := l.items.write x.item v }.Rep (xs ++ { x with value := v } :: ys) := by
  have hlinks : links (xs ++ { x with value := v } :: ys) = links (xs ++ x :: ys) := by simp
  refine ⟨by rw [hlinks]; exact h.first, by rw [hlinks]; exact h.last,
    by simpa using h.count, by rw [hlinks]; exact h.chain, fun y hy => ?_,
    by rw [hlinks]; exact h.nodup, by simpa using h.nodup_items⟩
  have hold : ∀ y ∈ xs ++ ys, (l.items.write x.item v).read y.item = some y.value := by
    intro y hy
    rw [Store.read_write_of_ne (h.item_ne hy)]
    exact h.read y (by rw [List.mem_append] at hy ⊢; exact hy.imp_right (.tail _))
  rcases List.mem_append.1 hy with hy | hy
  · exact hold y (List.mem_append_left _ hy)
  · rcases List.mem_cons.1 hy with rfl | hy
    · exact Store.read_write_self (h.read x (by simp))
    · exact hold y (List.mem_append_right _ hy)

/-! ### Lists whose items have been freed

What the operations do to the cursor and the links does not depend on the items. -/

theorem getFirstItem_items (l : ItemList α) (s : Store α) :
    { l with items := s }.getFirstItem =
      l.getFirstItem.map fun p => ({ p.1 with items := s }, p.2) := by
  simp only [ItemList.getFirstItem]
  cases hfirst : l.first with
  | none => rfl
  | some a =>
    simp only
    cases l.nodes.deref (some a) <;> rfl

theorem getNextItem_items (l : ItemList α) (s : Store α) :
    { l with items := s }.getNextItem =
      l.getNextItem.map fun p => ({ p.1 with items := s }, p.2) := by
  obtain ⟨first, last, search, count, nodes, items⟩ := l
  cases search with
  | none => rfl
  | some a =>
    simp only [ItemList.getNextItem]
    cases nodes.deref (some a) with
    | error e => rfl
    | ok node =>
      obtain ⟨prev, next, item⟩ := node
      cases next with
      | none => rfl
      | some b =>
        simp only [ok_bind]
        cases nodes.deref (some b) <;> rfl

theorem removeNode_items (l : ItemList α) (s : Store α) (a : Addr) :
    { l with items := s }.removeNode a = (l.removeNode a).map fun l => { l with items := s } := by
  simp only [ItemList.removeNode]
  cases l.nodes.deref (some a) with
  | error e => rfl
  | ok node =>
    obtain ⟨prev, next, item⟩ := node
    cases prev with
    | none =>
      cases next with
      | none => rfl
      | some n =>
        simp only [ok_bind]
        cases l.nodes.update (some n) fun next => { next with prev := none } <;> rfl
    | some p =>
      cases next with
      | none =>
        simp only [ok_bind]
        cases l.nodes.update (some p) fun prev => { prev with next := none } <;> rfl
      | some n =>
        simp only [ok_bind]
        cases l.nodes.update (some p) fun prev => { prev with next := some n } with
        | error e => rfl
        | ok nodes =>
          simp only [ok_bind]
          cases nodes.update (some n) fun next => { next with prev := some p } <;> rfl

/-- The list links the slots, whatever has become of their items. -/
def Linked (l : ItemList α) (xs : List (Slot α)) : Prop := ∃ s, { l with items := s }.Rep xs

theorem Rep.linked (h : l.Rep xs) : l.Linked xs := ⟨l.items, h⟩

namespace Linked

theorem items (h : l.Linked xs) (s : Store α) : { l with items := s }.Linked xs := h

theorem search (h : l.Linked xs) (a : Option Addr) : { l with search := a }.Linked xs := by
  obtain ⟨s, h⟩ := h
  exact ⟨s, h.search a⟩

theorem first (h : l.Linked xs) : l.first = headAddr none (links xs) := by
  obtain ⟨s, h⟩ := h
  exact h.first

theorem last (h : l.Linked xs) : l.last = lastAddr none (links xs) := by
  obtain ⟨s, h⟩ := h
  exact h.last

theorem length_lt_fuel (h : l.Linked xs) : xs.length < l.fuel := by
  obtain ⟨s, h⟩ := h
  exact h.length_lt_fuel

theorem getFirstItem (h : l.Linked xs) :
    l.getFirstItem = .ok ({ l with search := xs.head?.map Slot.node }, xs.head?.map Slot.item) := by
  obtain ⟨s, h⟩ := h
  have hitems := getFirstItem_items { l with items := s } l.items
  rw [h.getFirstItem] at hitems
  exact hitems

theorem getNextItem (h : l.Linked (xs ++ x :: ys)) (hs : l.search = some x.node) :
    l.getNextItem = .ok ({ l with search := ys.head?.map Slot.node }, ys.head?.map Slot.item) := by
  obtain ⟨s, h⟩ := h
  have hitems := getNextItem_items { l with items := s } l.items
  rw [h.getNextItem hs] at hitems
  exact hitems

theorem removeNode (h : l.Linked (xs ++ x :: ys)) :
    ∃ l', l.removeNode x.node = .ok l' ∧ l'.Linked (xs ++ ys) := by
  obtain ⟨s, h⟩ := h
  obtain ⟨l', hrun, hremoved⟩ := h.removeNode
  have hitems := removeNode_items { l with items := s } l.items x.node
  rw [hrun] at hitems
  exact ⟨{ l' with items := l.items }, hitems, l'.items, hremoved.rep⟩

end Linked

end ItemList

end UavTelemetry
