import Mathlib.Data.List.Sort
import Mathlib.Data.List.TakeWhile
import Mathlib.Order.Basic

/-!
# Lists kept in the order of a key

A queue of waiting items is kept in the order of a key, so that its head is due first.  Among items
with the same key the order of arrival decides: `insertLast` puts a new item behind its equals,
`insertFirst` in front of them.  A queue that is filled in one of these two ways is the *stable
sort* of the items in the order of their arrival.

## Main definitions

* `Ascending` : the keys ascend.
* `insertLast`, `insertFirst` : the insertions.
* `StableSort key q l` : `q` is `l`, sorted by the key and otherwise in the same order.

## Main results

* `StableSort.insertLast`, `StableSort.insertFirst` : an insertion is an arrival.
* `StableSort.filter` : items are removed in both.
-/

namespace UavTelemetry

variable {α K : Type*} [LinearOrder K]

/-- The keys ascend along the list. -/
def Ascending (key : α → K) (l : List α) : Prop := l.Pairwise fun a b => key a ≤ key b

/-- Insert an item behind the items with the same key. -/
def insertLast (key : α → K) (a : α) (l : List α) : List α :=
  l.orderedInsert (fun a b => key a < key b) a

/-- Insert an item in front of the items with the same key. -/
def insertFirst (key : α → K) (a : α) (l : List α) : List α :=
  l.orderedInsert (fun a b => key a ≤ key b) a

/-- `q` is sorted by the key, with the items of each key in the order in which `l` has them. -/
structure StableSort (key : α → K) (q l : List α) : Prop where
  /-- The queue is sorted. -/
  ascending : Ascending key q
  /-- The items of each key are in the order of arrival. -/
  filter_eq : ∀ c, q.filter (fun a => key a = c) = l.filter fun a => key a = c

variable {key : α → K} {a b : α} {l q : List α}

theorem insertLast_eq : insertLast key a l =
    (l.takeWhile fun b => key b ≤ key a) ++ a :: l.dropWhile fun b => key b ≤ key a := by
  simp only [insertLast, List.orderedInsert_eq_take_drop, not_lt]

theorem insertFirst_eq : insertFirst key a l =
    (l.takeWhile fun b => key b < key a) ++ a :: l.dropWhile fun b => key b < key a := by
  simp only [insertFirst, List.orderedInsert_eq_take_drop, not_le]

/-- An item goes behind those that are not greater. -/
theorem insertLast_append {l' : List α} (h : ∀ b ∈ l, key b ≤ key a) :
    insertLast key a (l ++ l') = l ++ insertLast key a l' := by
  induction l with
  | nil => rfl
  | cons x l ih =>
    rw [List.forall_mem_cons] at h
    have hx : ¬ key a < key x := not_lt.2 h.1
    show List.orderedInsert _ a (x :: (l ++ l')) = _
    rw [List.orderedInsert, if_neg hx]
    exact congrArg (x :: ·) (ih h.2)

theorem mem_insertLast : b ∈ insertLast key a l ↔ b = a ∨ b ∈ l := List.mem_orderedInsert _

theorem mem_insertFirst : b ∈ insertFirst key a l ↔ b = a ∨ b ∈ l := List.mem_orderedInsert _

theorem perm_insertLast : (insertLast key a l).Perm (a :: l) := List.perm_orderedInsert _ _ _

/-- Behind the items that a bound lets pass, the keys are above it. -/
theorem Ascending.dropWhile_le (h : Ascending key l) {c : K} :
    ∀ b ∈ l.dropWhile (fun b => key b ≤ c), c < key b := by
  induction l with
  | nil => exact fun b hb => nomatch hb
  | cons x l ih =>
    obtain ⟨hx, h⟩ := List.pairwise_cons.1 h
    by_cases hc : key x ≤ c
    · rw [List.dropWhile_cons_of_pos (by simpa using hc)]
      exact ih h
    · rw [List.dropWhile_cons_of_neg (by simpa using hc)]
      have hlt := lt_of_not_ge hc
      exact List.forall_mem_cons.2 ⟨hlt, fun b hb => hlt.trans_le (hx b hb)⟩

theorem Ascending.dropWhile_lt (h : Ascending key l) {c : K} :
    ∀ b ∈ l.dropWhile (fun b => key b < c), c ≤ key b := by
  induction l with
  | nil => exact fun b hb => nomatch hb
  | cons x l ih =>
    obtain ⟨hx, h⟩ := List.pairwise_cons.1 h
    by_cases hc : key x < c
    · rw [List.dropWhile_cons_of_pos (by simpa using hc)]
      exact ih h
    · rw [List.dropWhile_cons_of_neg (by simpa using hc)]
      have hle := le_of_not_gt hc
      exact List.forall_mem_cons.2 ⟨hle, fun b hb => hle.trans (hx b hb)⟩

theorem Ascending.sublist {l' : List α} (h : Ascending key l) (hsub : l'.Sublist l) :
    Ascending key l' := List.Pairwise.sublist hsub h

theorem Ascending.head_le (h : Ascending key (a :: l)) : ∀ b ∈ l, key a ≤ key b :=
  (List.pairwise_cons.1 h).1

/-- An item between the smaller and the greater ones. -/
theorem Ascending.middle {l' : List α} (h : Ascending key (l ++ l')) (hl : ∀ b ∈ l, key b ≤ key a)
    (hr : ∀ b ∈ l', key a ≤ key b) : Ascending key (l ++ a :: l') := by
  obtain ⟨hll, hrr, hlr⟩ := List.pairwise_append.1 h
  refine List.pairwise_append.2 ⟨hll, List.pairwise_cons.2 ⟨hr, hrr⟩, fun b hb => ?_⟩
  exact List.forall_mem_cons.2 ⟨hl b hb, hlr b hb⟩

theorem Ascending.insertLast (h : Ascending key l) : Ascending key (insertLast key a l) := by
  rw [insertLast_eq]
  refine Ascending.middle (by rwa [List.takeWhile_append_dropWhile]) (fun b hb => ?_)
    fun b hb => (h.dropWhile_le b hb).le
  simpa using List.mem_takeWhile_imp hb

theorem Ascending.insertFirst (h : Ascending key l) : Ascending key (insertFirst key a l) := by
  rw [insertFirst_eq]
  refine Ascending.middle (by rwa [List.takeWhile_append_dropWhile]) (fun b hb => ?_)
    fun b hb => h.dropWhile_lt b hb
  have hlt : key b < key a := by simpa using List.mem_takeWhile_imp hb
  exact hlt.le

/-- The items of a key, when an item is inserted behind its equals. -/
theorem filter_insertLast (h : Ascending key l) (c : K) :
    (insertLast key a l).filter (fun b => key b = c) =
      l.filter (fun b => key b = c) ++ [a].filter fun b => key b = c := by
  have hl : l.filter (fun b => key b = c) =
      (l.takeWhile fun b => key b ≤ key a).filter (fun b => key b = c) ++
        (l.dropWhile fun b => key b ≤ key a).filter fun b => key b = c := by
    rw [← List.filter_append, List.takeWhile_append_dropWhile]
  rw [insertLast_eq, List.filter_append, hl, ← List.singleton_append, List.filter_append,
    List.append_assoc]
  by_cases hc : key a = c
  · have hnil : (l.dropWhile fun b => key b ≤ key a).filter (fun b => key b = c) = [] := by
      refine List.filter_eq_nil_iff.2 fun b hb => ?_
      simpa using (hc ▸ h.dropWhile_le b hb).ne'
    rw [hnil, List.append_nil, List.nil_append]
  · simp [hc]

/-- The items of a key, when an item is inserted in front of its equals. -/
theorem filter_insertFirst (c : K) :
    (insertFirst key a l).filter (fun b => key b = c) =
      [a].filter (fun b => key b = c) ++ l.filter fun b => key b = c := by
  have hl : l.filter (fun b => key b = c) =
      (l.takeWhile fun b => key b < key a).filter (fun b => key b = c) ++
        (l.dropWhile fun b => key b < key a).filter fun b => key b = c := by
    rw [← List.filter_append, List.takeWhile_append_dropWhile]
  rw [insertFirst_eq, List.filter_append, hl, ← List.singleton_append, List.filter_append]
  by_cases hc : key a = c
  · have hnil : (l.takeWhile fun b => key b < key a).filter (fun b => key b = c) = [] := by
      refine List.filter_eq_nil_iff.2 fun b hb => ?_
      have hlt : key b < key a := by simpa using List.mem_takeWhile_imp hb
      simpa using (hc ▸ hlt).ne
    rw [hnil, List.nil_append, List.nil_append]
  · simp [hc]

namespace StableSort

theorem nil : StableSort key [] [] := ⟨List.Pairwise.nil, fun _ => rfl⟩

/-- **An item inserted behind its equals arrives last.** -/
theorem insertLast (h : StableSort key q l) :
    StableSort key (insertLast key a q) (l ++ [a]) :=
  ⟨h.ascending.insertLast, fun c => by
    rw [filter_insertLast h.ascending, h.filter_eq, List.filter_append]⟩

/-- **An item inserted in front of its equals** counts as the first to have arrived. -/
theorem insertFirst (h : StableSort key q l) :
    StableSort key (insertFirst key a q) (a :: l) :=
  ⟨h.ascending.insertFirst, fun c => by
    rw [filter_insertFirst, h.filter_eq, ← List.filter_append, List.singleton_append]⟩

theorem filter (h : StableSort key q l) (p : α → Bool) :
    StableSort key (q.filter p) (l.filter p) := by
  refine ⟨h.ascending.sublist List.filter_sublist, fun c => ?_⟩
  rw [List.filter_comm, h.filter_eq, List.filter_comm]

theorem perm (h : StableSort key q l) : q.Perm l := by
  classical
  refine List.perm_iff_count.2 fun a => ?_
  have hq : (q.filter fun b => key b = key a).count a = q.count a := List.count_filter (by simp)
  have hl : (l.filter fun b => key b = key a).count a = l.count a := List.count_filter (by simp)
  rw [← hq, h.filter_eq, hl]

theorem mem_iff (h : StableSort key q l) : a ∈ q ↔ a ∈ l := h.perm.mem_iff

end StableSort

end UavTelemetry
