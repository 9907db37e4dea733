import UavTelemetry.Lists.LinkedList

/-!
# What a list consists of

The object of class `List<T>` points to a chain of links.  Every operation is described by what it
does to these links, in order; the pointers that it relinks on the way do not show any more.

## Main definitions

* `LinkedList.links` : the links met from `_first` on.
* `LinkedList.Rep` : the list consists of the given links, in order.
* `LinkedList.Removed` : a link has been taken out.
* `LinkedList.Done` : what a call that returns has done.

## Main results

* `LinkedList.Rep.addItem`, `LinkedList.Rep.removeItem`, `LinkedList.Rep.searchItem` : what the
  operations do to the links.
* `LinkedList.Rep.done` : what any call does.
* `LinkedList.rep_of_reachable` : every list that is reached represents its links.
-/

namespace UavTelemetry

namespace LinkedList

variable {ι : Type}

/-- The links met from `_first` on, with their items. -/
def links (l : LinkedList ι) : List (Addr × Option ι) := linksFrom l.nodes l.fuel l.first

/-- The list consists of the links `xs`, in order. -/
structure Rep (l : LinkedList ι) (xs : List (Addr × Option ι)) : Prop where
  /-- `_first` is the first link. -/
  first : l.first = headAddr none xs
  /-- `_last` is the last link. -/
  last : l.last = lastAddr none xs
  /-- `_count` is the number of links. -/
  count : l.count = xs.length
  /-- The links are chained in both directions, and the chain ends in null. -/
  chain : Chain l.nodes none xs none
  /-- The links are distinct. -/
  nodup : (addrs xs).Nodup

/-- The item of the first link, or null. -/
def headItem (xs : List (Addr × Option ι)) : Option ι := xs.head?.bind Prod.snd

variable {l l' : LinkedList ι} {xs ys : List (Addr × Option ι)} {a : Addr} {i item : Option ι}
  {memory : Bool} {exception : Option Exception}

theorem rep_new : (new : LinkedList ι).Rep [] := ⟨rfl, rfl, rfl, trivial, List.nodup_nil⟩

/-- The cursor is no part of what a list consists of. -/
theorem Rep.search (h : l.Rep xs) (s : Option Addr) : { l with search := s }.Rep xs :=
  ⟨h.first, h.last, h.count, h.chain, h.nodup⟩

theorem Rep.length_lt_fuel (h : l.Rep xs) : xs.length < l.fuel :=
  Nat.lt_succ_of_le (h.chain.length_le_fresh h.nodup)

/-- The links are those met from `_first` on. -/
theorem Rep.links_eq (h : l.Rep xs) : l.links = xs := by
  rw [links, h.first]
  exact h.chain.linksFrom_eq (Nat.le_of_lt h.length_lt_fuel)

/-- A list of no more than some links is empty exactly if its count is zero. -/
theorem Rep.count_eq_zero (h : l.Rep xs) : l.count = 0 ↔ xs = [] := by
  rw [h.count, List.length_eq_zero_iff]

theorem Rep.deref (h : l.Rep (xs ++ (a, i) :: ys)) :
    l.nodes.deref (some a) = .ok ⟨lastAddr none xs, headAddr none ys, i⟩ :=
  Store.deref_of_read h.chain.read

/-! ### Adding an item -/

/-- What `addItem` does to an empty list. -/
theorem Rep.addItem_nil (h : l.Rep []) (item : Option ι) (exception : Option Exception) :
    l.addItem item true exception = .ok ({ l with
      first := some l.nodes.fresh
      last := some l.nodes.fresh
      nodes := l.nodes.alloc ⟨none, none, item⟩
      count := 1 }, l.addException item true exception) := by
  have hcount : l.count = 0 := h.count
  simp only [addItem, if_true, Store.update_of_read Store.read_alloc_fresh, ok_bind,
    Store.write_alloc_fresh, hcount, pure_eq_ok]

/-- What `addItem` does behind a last link. -/
theorem Rep.addItem_concat {b : Addr} {y : Option ι} (h : l.Rep (xs ++ [(b, y)])) (item : Option ι)
    (exception : Option Exception) :
    l.addItem item true exception = .ok ({ l with
      last := some l.nodes.fresh
      nodes := (l.nodes.alloc ⟨some b, none, item⟩).write b
        ⟨lastAddr none xs, some l.nodes.fresh, y⟩
      count := l.count + 1 }, l.addException item true exception) := by
  have hcount : l.count ≠ 0 := by rw [h.count]; simp
  have hlast : l.last = some b := by rw [h.last, lastAddr_concat]
  have hne : b ≠ l.nodes.fresh := Nat.ne_of_lt (h.chain.lt_fresh b (by simp))
  have hread : (l.nodes.alloc ⟨none, none, item⟩).read b = some ⟨lastAddr none xs, none, y⟩ :=
    Store.read_alloc_of_read h.chain.read
  have hfresh : ((l.nodes.alloc ⟨none, none, item⟩).write b
      ⟨lastAddr none xs, some l.nodes.fresh, y⟩).read l.nodes.fresh = some ⟨none, none, item⟩ := by
    rw [Store.read_write_of_ne hne.symm, Store.read_alloc_fresh]
  simp only [addItem, if_true, Store.update_of_read Store.read_alloc_fresh, ok_bind,
    Store.write_alloc_fresh, hcount, if_false, hlast, Store.update_of_read hread,
    Store.update_of_read hfresh, Store.write_comm hne, pure_eq_ok]

/-- **Adding**: `addItem` appends a link with the item. -/
theorem Rep.addItem (h : l.Rep xs) (item : Option ι) (exception : Option Exception) :
    ∃ l', l.addItem item true exception = .ok (l', l.addException item true exception) ∧
      l'.Rep (xs ++ [(l.nodes.fresh, item)]) ∧ l'.search = l.search ∧ l'.freed = l.freed ∧
      l'.numItems = l.numItems ∧ l'.nodes.fresh = l.nodes.fresh + 1 := by
  rcases List.eq_nil_or_concat' xs with rfl | ⟨xs, ⟨b, y⟩, rfl⟩
  · refine ⟨_, h.addItem_nil item exception, ?_, rfl, rfl, rfl, Store.fresh_alloc⟩
    exact ⟨rfl, rfl, rfl, ⟨Store.read_alloc_fresh, trivial⟩, List.nodup_singleton _⟩
  · refine ⟨_, h.addItem_concat item exception, ?_, rfl, rfl, rfl, by simp⟩
    refine ⟨?_, lastAddr_concat.symm, ?_, h.chain.push (notMem_addrs h.nodup).1, ?_⟩
    · show l.first = _
      rw [h.first]
      cases xs <;> rfl
    · show l.count + 1 = _
      rw [h.count]
      simp
    · have hnodup := h.nodup.concat h.chain.fresh_notMem
      rw [List.concat_eq_append] at hnodup
      rwa [addrs_append]

/-! ### Removing an item -/

/-- The link `a` has been taken out, and the links `xs` are left. -/
structure Removed (l : LinkedList ι) (a : Addr) (xs : List (Addr × Option ι))
    (l' : LinkedList ι) : Prop where
  /-- The links left. -/
  rep : l'.Rep xs
  /-- The cursor stays where it is, unless the list is empty. -/
  search : l'.search = if xs = [] then none else l.search
  /-- The link is freed. -/
  freed : l'.freed = l.freed ++ [a]
  /-- It is not in memory any more. -/
  read : l'.nodes.read a = none
  /-- The limit stays. -/
  numItems : l'.numItems = l.numItems
  /-- Nothing is allocated. -/
  fresh : l'.nodes.fresh = l.nodes.fresh

/-- The links left are distinct. -/
theorem Rep.nodup_unlink (h : l.Rep (xs ++ (a, i) :: ys)) : (addrs (xs ++ ys)).Nodup := by
  have hsub : (xs ++ ys).Sublist (xs ++ (a, i) :: ys) :=
    (List.sublist_cons_self _ _).append_left xs
  exact h.nodup.sublist (hsub.map _)

theorem Rep.count_unlink (h : l.Rep (xs ++ (a, i) :: ys)) : l.count - 1 = (xs ++ ys).length := by
  rw [h.count]
  simp only [List.length_append, List.length_cons]
  omega

/-- What `removeNode` does to the only link. -/
theorem Rep.removeNode_only (h : l.Rep [(a, i)]) :
    l.removeNode a =
      .ok ({ l with first := none, last := none, count := 0, search := none }.free a) := by
  have hderef := Rep.deref (show l.Rep ([] ++ (a, i) :: []) from h)
  simp only [LinkedList.removeNode, hderef, ok_bind]
  rfl

/-- What `removeNode` does to the first link of several. -/
theorem Rep.removeNode_first {c : Addr} {z : Option ι} (h : l.Rep ((a, i) :: (c, z) :: ys)) :
    l.removeNode a = .ok ({ l with
      first := some c
      nodes := l.nodes.write c ⟨none, headAddr none ys, z⟩
      count := l.count - 1 }.free a) := by
  have hderef := Rep.deref (show l.Rep ([] ++ (a, i) :: (c, z) :: ys) from h)
  have hread : l.nodes.read c = some ⟨some a, headAddr none ys, z⟩ := h.chain.2.1
  simp only [LinkedList.removeNode, hderef, ok_bind, lastAddr, headAddr,
    Store.update_of_read hread, pure_eq_ok]

/-- The link before another one. -/
theorem Rep.read_prev {b : Addr} {y : Option ι} (h : l.Rep (xs ++ [(b, y)] ++ (a, i) :: ys)) :
    l.nodes.read b = some ⟨lastAddr none xs, some a, y⟩ := by
  have hchain := h.chain
  rw [List.append_assoc] at hchain
  exact hchain.read

/-- What `removeNode` does to the last link of several. -/
theorem Rep.removeNode_last {b : Addr} {y : Option ι} (h : l.Rep (xs ++ [(b, y)] ++ [(a, i)])) :
    l.removeNode a = .ok ({ l with
      last := some b
      nodes := l.nodes.write b ⟨lastAddr none xs, none, y⟩
      count := l.count - 1 }.free a) := by
  have hderef := h.deref
  rw [lastAddr_concat] at hderef
  simp only [LinkedList.removeNode, hderef, ok_bind, headAddr, Store.update_of_read h.read_prev,
    pure_eq_ok]

/-- What `removeNode` does to a link in the middle. -/
theorem Rep.removeNode_middle {b c : Addr} {y z : Option ι}
    (h : l.Rep (xs ++ [(b, y)] ++ (a, i) :: (c, z) :: ys)) :
    l.removeNode a = .ok ({ l with
      nodes := (l.nodes.write b ⟨lastAddr none xs, some c, y⟩).write c
        ⟨some b, headAddr none ys, z⟩
      count := l.count - 1 }.free a) := by
  have hderef := h.deref
  rw [lastAddr_concat] at hderef
  have hcb : c ≠ b := by
    have hb := h.nodup
    rw [List.append_assoc] at hb
    have hmem := (notMem_addrs hb).2
    rintro rfl
    simp at hmem
  have hread : (l.nodes.write b ⟨lastAddr none xs, some c, y⟩).read c =
      some ⟨some a, headAddr none ys, z⟩ := by
    rw [Store.read_write_of_ne hcb]
    exact (chain_append.1 h.chain).2.2.1
  simp only [LinkedList.removeNode, hderef, ok_bind, headAddr, Store.update_of_read h.read_prev,
    Store.update_of_read hread, pure_eq_ok]

/-- **Taking out a link**, the only one, the first, a middle one or the last. -/
theorem Rep.removeNode (h : l.Rep (xs ++ (a, i) :: ys)) :
    ∃ l', l.removeNode a = .ok l' ∧ l.Removed a (xs ++ ys) l' := by
  have hnodup := h.nodup_unlink
  have hcount := h.count_unlink
  have hlast := h.last
  rcases List.eq_nil_or_concat' xs with rfl | ⟨xs, ⟨b, y⟩, rfl⟩
  · cases ys with
    | nil =>
      refine ⟨_, h.removeNode_only, ⟨rfl, rfl, rfl, trivial, List.nodup_nil⟩, rfl, rfl, ?_, rfl,
        Store.fresh_free⟩
      exact Store.read_free_self
    | cons c ys =>
      obtain ⟨c, z⟩ := c
      refine ⟨_, h.removeNode_first, ⟨rfl, hlast, hcount, ?_, hnodup⟩, rfl, rfl,
        Store.read_free_self, rfl, by simp [free]⟩
      exact Chain.unlinkFirst h.chain h.nodup
  · have hne : xs ++ [(b, y)] ++ ys ≠ [] := by simp
    have hfirst : l.first = headAddr none (xs ++ [(b, y)] ++ ys) := by
      rw [h.first]
      cases xs <;> rfl
    cases ys with
    | nil =>
      refine ⟨_, h.removeNode_last, ⟨hfirst, ?_, hcount, ?_, hnodup⟩, (if_neg hne).symm, rfl,
        Store.read_free_self, rfl, by simp [free]⟩
      · rw [List.append_nil, lastAddr_concat]
        rfl
      · rw [List.append_nil]
        exact Chain.unlinkLast h.chain h.nodup
    | cons c ys =>
      obtain ⟨c, z⟩ := c
      refine ⟨_, h.removeNode_middle, ⟨hfirst, ?_, hcount, ?_, hnodup⟩, (if_neg hne).symm, rfl,
        Store.read_free_self, rfl, by simp [free]⟩
      · show l.last = _
        rw [hlast]
        simp [lastAddr]
      · exact Chain.unlinkMiddle h.chain h.nodup

/-! ### Searching -/

theorem Rep.getFirstItem (h : l.Rep xs) :
    l.getFirstItem = .ok ({ l with search := headAddr none xs }, headItem xs) := by
  cases xs with
  | nil =>
    have hfirst : l.first = none := h.first
    simp only [LinkedList.getFirstItem, hfirst]
    rfl
  | cons x xs =>
    obtain ⟨a, i⟩ := x
    have hfirst : l.first = some a := h.first
    have hderef := Rep.deref (show l.Rep ([] ++ (a, i) :: xs) from h)
    simp only [LinkedList.getFirstItem, hfirst, hderef]
    rfl

theorem getNextItem_of_none (h : l.search = none) : l.getNextItem = .ok (l, none) := by
  simp only [getNextItem, h]

/-- The cursor moves from one link to the next. -/
theorem Rep.getNextItem (h : l.Rep (xs ++ (a, i) :: ys)) (hs : l.search = some a) :
    l.getNextItem = .ok ({ l with search := headAddr none ys }, headItem ys) := by
  have hderef := h.deref
  cases ys with
  | nil =>
    simp only [LinkedList.getNextItem, hs, hderef]
    rfl
  | cons y ys =>
    obtain ⟨b, j⟩ := y
    have h' : l.Rep (xs ++ [(a, i)] ++ (b, j) :: ys) := by simpa using h
    simp only [LinkedList.getNextItem, hs, hderef]
    change (do let node ← l.nodes.deref (some b); _) = _
    rw [h'.deref]
    rfl

/-- Wherever the cursor stands, `getNextItem` changes nothing else. -/
theorem getNextItem_eq_ok (hrun : l.getNextItem = .ok (l', i)) :
    ∃ s, l' = { l with search := s } := by
  cases hs : l.search with
  | none =>
    rw [getNextItem_of_none hs] at hrun
    cases hrun
    exact ⟨l.search, rfl⟩
  | some a =>
    simp only [getNextItem, hs] at hrun
    obtain ⟨node, -, hrun⟩ := bind_eq_ok hrun
    refine ⟨node.next, ?_⟩
    cases hnext : node.next with
    | none =>
      rw [hnext] at hrun
      cases hrun
      rfl
    | some b =>
      rw [hnext] at hrun
      obtain ⟨node', -, hrun⟩ := bind_eq_ok hrun
      cases hrun
      rfl

variable [DecidableEq ι]

/-- The first link of an item. -/
theorem exists_first {xs : List (Addr × Option ι)} (h : item ∈ xs.map Prod.snd) :
    ∃ ys a zs, xs = ys ++ (a, item) :: zs ∧ item ∉ ys.map Prod.snd := by
  induction xs with
  | nil => cases h
  | cons x xs ih =>
    obtain ⟨b, j⟩ := x
    by_cases hj : item = j
    · exact ⟨[], b, xs, by rw [hj]; rfl, List.not_mem_nil⟩
    · have hmem : item ∈ xs.map Prod.snd := (List.mem_cons.1 h).resolve_left hj
      obtain ⟨ys, a, zs, rfl, hni⟩ := ih hmem
      exact ⟨(b, j) :: ys, a, zs, rfl, by simp [hj, hni]⟩

/-- The search of `removeItem` stops at the first link of the item. -/
theorem Rep.removeLoop_mem {zs : List (Addr × Option ι)} (h : l.Rep (xs ++ (ys ++ (a, item) :: zs)))
    (hni : item ∉ ys.map Prod.snd) {fuel : ℕ} (hfuel : ys.length < fuel) :
    l.removeLoop item exception fuel (headAddr none (ys ++ (a, item) :: zs)) =
      (l.removeNode a).map fun l => (l, exception) := by
  induction ys generalizing xs fuel with
  | nil =>
    obtain ⟨fuel, rfl⟩ := Nat.exists_eq_succ_of_ne_zero (Nat.ne_zero_of_lt hfuel)
    simp only [List.nil_append, headAddr, removeLoop, Rep.deref h, ok_bind, if_true]
    cases l.removeNode a <;> rfl
  | cons y ys ih =>
    obtain ⟨b, j⟩ := y
    obtain ⟨fuel, rfl⟩ := Nat.exists_eq_succ_of_ne_zero (Nat.ne_zero_of_lt hfuel)
    rw [List.map_cons, List.mem_cons, not_or] at hni
    have h' : l.Rep (xs ++ [(b, j)] ++ (ys ++ (a, item) :: zs)) := by simpa using h
    have hrest := ih h' hni.2 (Nat.lt_of_succ_lt_succ hfuel)
    have hderef := Rep.deref (show l.Rep (xs ++ (b, j) :: (ys ++ (a, item) :: zs)) from h)
    simp only [List.cons_append, headAddr, removeLoop, hderef, ok_bind, Ne.symm hni.1, if_false]
    rw [← hrest]
    cases ys <;> rfl

/-- The search of `removeItem` for an item that is not there. -/
theorem Rep.removeLoop_notMem {y : Addr × Option ι} (h : l.Rep (xs ++ y :: ys))
    (hni : item ∉ (y :: ys).map Prod.snd) {fuel : ℕ} (hfuel : ys.length < fuel) :
    l.removeLoop item exception fuel (some y.1) =
      .ok (l, Exception.itemNotFound.throw exception) := by
  induction ys generalizing xs y fuel with
  | nil =>
    obtain ⟨b, j⟩ := y
    obtain ⟨fuel, rfl⟩ := Nat.exists_eq_succ_of_ne_zero (Nat.ne_zero_of_lt hfuel)
    have hj : j ≠ item := by
      rintro rfl
      simp at hni
    simp only [removeLoop, Rep.deref h, ok_bind, hj, if_false, headAddr, pure_eq_ok]
  | cons z ys ih =>
    obtain ⟨b, j⟩ := y
    obtain ⟨fuel, rfl⟩ := Nat.exists_eq_succ_of_ne_zero (Nat.ne_zero_of_lt hfuel)
    rw [List.map_cons, List.mem_cons, not_or] at hni
    have h' : l.Rep (xs ++ [(b, j)] ++ z :: ys) := by simpa using h
    have hrest := ih h' hni.2 (Nat.lt_of_succ_lt_succ hfuel)
    obtain ⟨c, k⟩ := z
    simp only [removeLoop, Rep.deref h, ok_bind, Ne.symm hni.1, if_false, headAddr]
    exact hrest

/-- **Removing** an item that is there. -/
theorem Rep.removeItem (h : l.Rep (xs ++ (a, item) :: ys)) (hni : item ∉ xs.map Prod.snd)
    (exception : Option Exception) :
    ∃ l', l.removeItem item exception = .ok (l', checkItem item exception) ∧
      l.Removed a (xs ++ ys) l' := by
  obtain ⟨l', hrun, hremoved⟩ := h.removeNode
  have hfuel : xs.length < l.fuel := Nat.lt_of_le_of_lt (by simp) h.length_lt_fuel
  refine ⟨l', ?_, hremoved⟩
  rw [LinkedList.removeItem, h.first,
    Rep.removeLoop_mem (show l.Rep ([] ++ (xs ++ (a, item) :: ys)) from h) hni hfuel, hrun]
  rfl

/-- An item that is not there is reported. -/
theorem Rep.removeItem_notMem (h : l.Rep xs) (hne : xs ≠ []) (hni : item ∉ xs.map Prod.snd)
    (exception : Option Exception) :
    l.removeItem item exception =
      .ok (l, Exception.itemNotFound.throw (checkItem item exception)) := by
  obtain ⟨y, ys, rfl⟩ := List.exists_cons_of_ne_nil hne
  have hfuel : ys.length < l.fuel := Nat.lt_of_le_of_lt (by simp) h.length_lt_fuel
  rw [LinkedList.removeItem, h.first]
  exact Rep.removeLoop_notMem (show l.Rep ([] ++ y :: ys) from h) hni hfuel

/-- `removeItem` reads the first link before it tests whether there is one. -/
theorem Rep.removeItem_nil (h : l.Rep []) (item : Option ι) (exception : Option Exception) :
    l.removeItem item exception = .error .nullPointer := by
  have hfirst : l.first = none := h.first
  rw [LinkedList.removeItem, hfirst]
  rfl

/-- The links from the one at which `searchItem` stops: at the item, or at a null item. -/
def rest (item : Option ι) (xs : List (Addr × Option ι)) : List (Addr × Option ι) :=
  xs.dropWhile fun x => x.2.isSome && x.2 ≠ item

/-- `searchItem` has stopped at the item. -/
def hit (item : Option ι) (xs : List (Addr × Option ι)) : Bool :=
  (headItem (rest item xs)).isSome && headItem (rest item xs) = item

@[simp] theorem rest_nil : rest item [] = [] := rfl

theorem rest_cons (x : Addr × Option ι) :
    rest item (x :: xs) = if x.2.isSome ∧ x.2 ≠ item then rest item xs else x :: xs := by
  simp only [rest, List.dropWhile_cons, Bool.and_eq_true, decide_eq_true_eq]

/-- The loop of `searchItem`, with the cursor on a link whose item is not null. -/
theorem Rep.searchLoop {y : Addr × Option ι} (h : l.Rep (xs ++ y :: ys)) (item : Option ι)
    (hs : l.search = some y.1) (hsome : y.2.isSome) {fuel : ℕ} (hfuel : ys.length < fuel) :
    searchLoop item fuel l y.2 =
      .ok ({ l with search := headAddr none (rest item (y :: ys)) }, hit item (y :: ys)) := by
  induction ys generalizing xs y l fuel with
  | nil =>
    obtain ⟨b, j⟩ := y
    obtain ⟨fuel, rfl⟩ := Nat.exists_eq_succ_of_ne_zero (Nat.ne_zero_of_lt hfuel)
    rw [hit, rest_cons]
    by_cases hj : j = item
    · rw [if_neg (fun hand => hand.2 hj)]
      simp only [LinkedList.searchLoop, hj, if_true, headAddr, headItem, List.head?_cons,
        Option.bind_some, decide_true, Bool.and_true, ← hs]
    · rw [if_pos ⟨hsome, hj⟩]
      simp only [LinkedList.searchLoop, hj, if_false, h.getNextItem hs, ok_bind]
      rfl
  | cons z ys ih =>
    obtain ⟨b, j⟩ := y
    obtain ⟨c, k⟩ := z
    obtain ⟨fuel, rfl⟩ := Nat.exists_eq_succ_of_ne_zero (Nat.ne_zero_of_lt hfuel)
    rw [hit, rest_cons]
    by_cases hj : j = item
    · rw [if_neg (fun hand => hand.2 hj)]
      simp only [LinkedList.searchLoop, hj, if_true, headAddr, headItem, List.head?_cons,
        Option.bind_some, decide_true, Bool.and_true, ← hs]
    · rw [if_pos ⟨hsome, hj⟩]
      simp only [LinkedList.searchLoop, hj, if_false, h.getNextItem hs, ok_bind]
      cases k with
      | none => simp [rest_cons, headItem, headAddr]
      | some k =>
        have h' : { l with search := some c }.Rep (xs ++ [(b, j)] ++ (c, some k) :: ys) := by
          simpa using h.search (some c)
        exact ih h' rfl rfl (Nat.lt_of_succ_lt_succ hfuel)

/-- **Searching**: the cursor moves to the first link with the item or with a null item. -/
theorem Rep.searchItem (h : l.Rep xs) (item : Option ι) (exception : Option Exception) :
    l.searchItem item exception =
      .ok ({ l with search := headAddr none (rest item xs) }, hit item xs,
        checkItem item exception) := by
  rw [LinkedList.searchItem, h.getFirstItem]
  cases xs with
  | nil => rfl
  | cons x xs =>
    obtain ⟨a, i⟩ := x
    cases i with
    | none => simp [headItem, hit, rest_cons]
    | some i =>
      have h' : { l with search := some a }.Rep ([] ++ (a, some i) :: xs) := h.search (some a)
      have hfuel : xs.length < l.fuel := Nat.lt_of_le_of_lt (by simp) h.length_lt_fuel
      have hloop := h'.searchLoop item rfl rfl hfuel
      simp only [ok_bind, headItem, List.head?_cons, Option.bind_some, Option.isNone_some,
        Bool.false_eq_true, if_false]
      exact congrArg (· >>= _) hloop

theorem addrs_rest_subset (item : Option ι) (xs : List (Addr × Option ι)) :
    addrs (rest item xs) ⊆ addrs xs :=
  List.map_subset _ (List.dropWhile_suffix _).subset

/-- Without null items, `searchItem` finds the items that are there. -/
theorem hit_iff (hxs : none ∉ xs.map Prod.snd) : hit item xs = true ↔ item ∈ xs.map Prod.snd := by
  induction xs with
  | nil => simp [hit, headItem]
  | cons x xs ih =>
    obtain ⟨a, i⟩ := x
    rw [List.map_cons, List.mem_cons, not_or] at hxs
    have hsome : i.isSome := Option.isSome_iff_ne_none.2 (Ne.symm hxs.1)
    rw [hit, rest_cons, List.map_cons, List.mem_cons]
    by_cases hi : i = item
    · rw [if_neg (fun hand => hand.2 hi)]
      simp [headItem, hi ▸ hsome, hi]
    · rw [if_pos ⟨hsome, hi⟩, ← hit, ih hxs.2, or_iff_right (Ne.symm hi)]

/-! ### Any call -/

/-- What a call does to the links; `n` is the next block that `malloc` finds. -/
def Call.effect (c : Call ι) (n : Addr) (xs : List (Addr × Option ι)) : List (Addr × Option ι) :=
  match c with
  | .addItem item _ _ => xs ++ [(n, item)]
  | .removeItem item _ => xs.eraseP fun x => x.2 = item
  | _ => xs

/-- What a call does to the limit. -/
def Call.limit (c : Call ι) (numItems : UInt32) : UInt32 :=
  match c with
  | .setLimit numItems _ => numItems
  | _ => numItems

theorem not_item_of_notMem (hni : item ∉ xs.map Prod.snd) :
    ∀ x ∈ xs, ¬ (decide (x.2 = item)) = true := by
  intro x hx heq
  exact hni (List.mem_map.2 ⟨x, hx, of_decide_eq_true heq⟩)

theorem eraseP_split (hni : item ∉ xs.map Prod.snd) :
    (xs ++ (a, item) :: ys).eraseP (fun x => x.2 = item) = xs ++ ys := by
  rw [List.eraseP_append_right _ (not_item_of_notMem hni), List.eraseP_cons_of_pos (by simp)]

/-- What a call that returns has done to a list of the links `xs`. -/
inductive Done (l : LinkedList ι) (xs : List (Addr × Option ι)) : Call ι → LinkedList ι → Prop
  | limited (numItems : UInt32) (exception : Option Exception) :
    Done l xs (.setLimit numItems exception) { l with numItems := numItems }
  | added {l' : LinkedList ι} (item : Option ι) (exception : Option Exception)
    (rep : l'.Rep (xs ++ [(l.nodes.fresh, item)])) (search : l'.search = l.search)
    (freed : l'.freed = l.freed) (numItems : l'.numItems = l.numItems)
    (fresh : l'.nodes.fresh = l.nodes.fresh + 1) : Done l xs (.addItem item true exception) l'
  | removed {l' : LinkedList ι} {a : Addr} {item : Option ι} {ys zs : List (Addr × Option ι)}
    (exception : Option Exception) (split : xs = ys ++ (a, item) :: zs)
    (first : item ∉ ys.map Prod.snd) (removed : l.Removed a (ys ++ zs) l') :
    Done l xs (.removeItem item exception) l'
  | missed {item : Option ι} (exception : Option Exception) (missing : item ∉ xs.map Prod.snd) :
    Done l xs (.removeItem item exception) l
  | counted : Done l xs .getItemCount l
  | first : Done l xs .getFirstItem { l with search := headAddr none xs }
  | next (s : Option Addr) (unset : l.search = none → s = none)
    (moved : ∀ ys a i zs, xs = ys ++ (a, i) :: zs → l.search = some a → s = headAddr none zs) :
    Done l xs .getNextItem { l with search := s }
  | searched (item : Option ι) (exception : Option Exception) :
    Done l xs (.searchItem item exception) { l with search := headAddr none (rest item xs) }

/-- **What any call does**, if it returns. -/
theorem Rep.done {c : Call ι} {r : Answer ι} (h : l.Rep xs) (hrun : l.perform c = .ok (l', r)) :
    l.Done xs c l' := by
  cases c with
  | setLimit numItems exception =>
    cases hrun
    exact .limited numItems exception
  | addItem item memory exception =>
    cases memory with
    | false => cases hrun
    | true =>
      obtain ⟨l₁, hadd, hrep, hsearch, hfreed, hlimit, hfresh⟩ := h.addItem item exception
      simp only [LinkedList.perform, hadd, ok_bind, pure_eq_ok, Except.ok.injEq,
        Prod.mk.injEq] at hrun
      rw [← hrun.1]
      exact .added item exception hrep hsearch hfreed hlimit hfresh
  | removeItem item exception =>
    by_cases hmem : item ∈ xs.map Prod.snd
    · obtain ⟨ys, a, zs, rfl, hni⟩ := exists_first hmem
      obtain ⟨l₁, hremove, hremoved⟩ := h.removeItem hni exception
      simp only [LinkedList.perform, hremove, ok_bind, pure_eq_ok, Except.ok.injEq,
        Prod.mk.injEq] at hrun
      rw [← hrun.1]
      exact .removed exception rfl hni hremoved
    · by_cases hxs : xs = []
      · subst hxs
        simp only [LinkedList.perform, h.removeItem_nil] at hrun
        cases hrun
      · simp only [LinkedList.perform, h.removeItem_notMem hxs hmem, ok_bind, pure_eq_ok,
          Except.ok.injEq, Prod.mk.injEq] at hrun
        rw [← hrun.1]
        exact .missed exception hmem
  | getItemCount =>
    cases hrun
    exact .counted
  | getFirstItem =>
    simp only [LinkedList.perform, h.getFirstItem, ok_bind, pure_eq_ok, Except.ok.injEq,
      Prod.mk.injEq] at hrun
    rw [← hrun.1]
    exact .first
  | getNextItem =>
    obtain ⟨⟨l₁, i⟩, hnext, hrun⟩ := bind_eq_ok hrun
    cases hrun
    obtain ⟨s, rfl⟩ := getNextItem_eq_ok hnext
    refine .next s (fun hs => ?_) fun ys a i zs hxs hs => ?_
    · rw [getNextItem_of_none hs, Except.ok.injEq, Prod.mk.injEq] at hnext
      exact (congrArg LinkedList.search hnext.1).symm.trans hs
    · rw [Rep.getNextItem (hxs ▸ h) hs, Except.ok.injEq, Prod.mk.injEq] at hnext
      exact (congrArg LinkedList.search hnext.1).symm
  | searchItem item exception =>
    simp only [LinkedList.perform, h.searchItem, ok_bind, pure_eq_ok, Except.ok.injEq,
      Prod.mk.injEq] at hrun
    rw [← hrun.1]
    exact .searched item exception

/-- The links and the limit after a call. -/
theorem Done.rep {c : Call ι} (hdone : l.Done xs c l') (h : l.Rep xs) :
    l'.Rep (c.effect l.nodes.fresh xs) ∧ l'.numItems = c.limit l.numItems := by
  cases hdone with
  | limited numItems exception => exact ⟨⟨h.first, h.last, h.count, h.chain, h.nodup⟩, rfl⟩
  | added item exception hrep hsearch hfreed hlimit => exact ⟨hrep, hlimit⟩
  | removed exception hsplit hfirst hremoved =>
    rw [Call.effect, hsplit, eraseP_split hfirst]
    exact ⟨hremoved.rep, hremoved.numItems⟩
  | missed exception hmissing =>
    rw [Call.effect, List.eraseP_of_forall_not (not_item_of_notMem hmissing)]
    exact ⟨h, rfl⟩
  | counted => exact ⟨h, rfl⟩
  | first | next | searched => exact ⟨h.search _, rfl⟩

theorem machine_step {c : Call ι} (hst : machine.step l c = some l') :
    ∃ r, l.perform c = .ok (l', r) := by
  simp only [machine] at hst
  split at hst
  · cases hst
  · rename_i l₁ r hrun
    cases hst
    exact ⟨r, hrun⟩

/-- A list that represents its links goes on doing so. -/
theorem Rep.step {c : Call ι} (h : l.Rep l.links) (hst : machine.step l c = some l') :
    l'.Rep l'.links := by
  obtain ⟨r, hrun⟩ := machine_step hst
  have hrep := ((h.done hrun).rep h).1
  rwa [hrep.links_eq]

/-- Every list that is reached represents its links. -/
theorem rep_of_reachable (h : machine.Reachable (new : LinkedList ι) l) : l.Rep l.links :=
  h.invariant (I := fun l => l.Rep l.links) rep_new fun _ _ _ hl hst => Rep.step hl hst

end LinkedList

end UavTelemetry
