import Mathlib.Data.List.Nodup
import Mathlib.Data.List.Perm.Subperm
import UavTelemetry.Data.Store

/-!
# Doubly linked chains

`Chain s p xs e` says that the links of a store form the doubly linked list `xs`: the first link
points back to `p`, the last one forward to `e`, and neighbours point to each other.  A chain can
be cut anywhere (`chain_append`), and it reads no other blocks (`Chain.congr`); every edit of a
list is made of a change at the end of one segment and one at the head of another.

## Main definitions

* `Chain` : the links of a store form a list.
* `linksFrom` : the links met by following the pointers.

## Main results

* `chain_append` : a chain of a concatenation is two chains that meet.
* `Chain.setNext`, `Chain.setPrev` : the edits at the end and at the head of a segment.
* `Chain.push` : a link is appended.
* `Chain.unlinkFirst`, `Chain.unlinkMiddle`, `Chain.unlinkLast` : a link is taken out and freed.
-/

namespace UavTelemetry

/-- A link of a doubly linked list. -/
structure Link (ι : Type*) where
  /-- The previous link. -/
  prev : Option Addr
  /-- The next link. -/
  next : Option Addr
  /-- What the link carries. -/
  item : ι
  deriving DecidableEq, Repr

variable {ι : Type*}

/-- The address of the first link, or `e` if there is none. -/
def headAddr (e : Option Addr) : List (Addr × ι) → Option Addr
  | [] => e
  | (a, _) :: _ => some a

/-- The address of the last link, or `p` if there is none. -/
def lastAddr (p : Option Addr) : List (Addr × ι) → Option Addr
  | [] => p
  | (a, _) :: xs => lastAddr (some a) xs

/-- The links at the addresses of `xs` form a list that points back to `p` and forward to `e`. -/
def Chain (s : Store (Link ι)) : Option Addr → List (Addr × ι) → Option Addr → Prop
  | _, [], _ => True
  | p, (a, x) :: xs, e => s.read a = some ⟨p, headAddr e xs, x⟩ ∧ Chain s (some a) xs e

/-- The addresses of the links. -/
def addrs (xs : List (Addr × ι)) : List Addr := xs.map Prod.fst

variable {s s' : Store (Link ι)} {p p' e e' : Option Addr} {xs ys : List (Addr × ι)}
  {a b c : Addr} {x y z : ι}

@[simp] theorem addrs_nil : addrs ([] : List (Addr × ι)) = [] := rfl

@[simp] theorem addrs_cons : addrs ((a, x) :: xs) = a :: addrs xs := rfl

@[simp] theorem addrs_append : addrs (xs ++ ys) = addrs xs ++ addrs ys := List.map_append

@[simp] theorem headAddr_append : headAddr e (xs ++ ys) = headAddr (headAddr e ys) xs := by
  cases xs <;> rfl

@[simp] theorem lastAddr_append : lastAddr p (xs ++ ys) = lastAddr (lastAddr p xs) ys := by
  induction xs generalizing p with
  | nil => rfl
  | cons x xs ih => exact ih

@[simp] theorem lastAddr_concat : lastAddr p (xs ++ [(a, x)]) = some a := by simp [lastAddr]

theorem chain_append :
    Chain s p (xs ++ ys) e ↔ Chain s p xs (headAddr e ys) ∧ Chain s (lastAddr p xs) ys e := by
  induction xs generalizing p with
  | nil => simp [Chain, lastAddr]
  | cons x xs ih =>
    obtain ⟨a, x⟩ := x
    simp only [List.cons_append, Chain, headAddr_append, ih, lastAddr, and_assoc]

theorem headAddr_mem (h : headAddr none xs = some a) : a ∈ addrs xs := by
  cases xs with
  | nil => cases h
  | cons x xs =>
    cases h
    exact List.mem_cons_self

/-- A link, and the links around it. -/
theorem exists_split (h : a ∈ addrs xs) : ∃ ys x zs, xs = ys ++ (a, x) :: zs := by
  obtain ⟨⟨b, x⟩, hmem, rfl⟩ := List.mem_map.1 h
  obtain ⟨ys, zs, rfl⟩ := List.append_of_mem hmem
  exact ⟨ys, x, zs, rfl⟩

/-- A chain reads its own links only. -/
theorem Chain.congr (h : Chain s p xs e) (heq : ∀ b ∈ addrs xs, s'.read b = s.read b) :
    Chain s' p xs e := by
  induction xs generalizing p with
  | nil => trivial
  | cons x xs ih =>
    obtain ⟨a, x⟩ := x
    simp only [addrs_cons, List.mem_cons, forall_eq_or_imp] at heq
    exact ⟨heq.1.trans h.1, ih h.2 heq.2⟩

theorem Chain.write (h : Chain s p xs e) (ha : a ∉ addrs xs) {l : Link ι} :
    Chain (s.write a l) p xs e :=
  h.congr fun _ hb => Store.read_write_of_ne (ne_of_mem_of_not_mem hb ha)

theorem Chain.free (h : Chain s p xs e) (ha : a ∉ addrs xs) : Chain (s.free a) p xs e :=
  h.congr fun _ hb => Store.read_free_of_ne (ne_of_mem_of_not_mem hb ha)

theorem Chain.alloc (h : Chain s p xs e) {l : Link ι} : Chain (s.alloc l) p xs e := by
  induction xs generalizing p with
  | nil => trivial
  | cons x xs ih =>
    obtain ⟨a, x⟩ := x
    exact ⟨Store.read_alloc_of_read h.1, ih h.2⟩

/-- The links of a chain are allocated. -/
theorem Chain.lt_fresh (h : Chain s p xs e) : ∀ b ∈ addrs xs, b < s.fresh := by
  induction xs generalizing p with
  | nil => simp
  | cons x xs ih =>
    obtain ⟨a, x⟩ := x
    simp only [addrs_cons, List.mem_cons, forall_eq_or_imp]
    exact ⟨Store.lt_fresh_of_read h.1, ih h.2⟩

theorem Chain.fresh_notMem (h : Chain s p xs e) : s.fresh ∉ addrs xs :=
  fun hm => Nat.lt_irrefl _ (h.lt_fresh _ hm)

/-- The link at a given place of a chain. -/
theorem Chain.read (h : Chain s p (xs ++ (a, x) :: ys) e) :
    s.read a = some ⟨lastAddr p xs, headAddr e ys, x⟩ :=
  (chain_append.1 h).2.1

/-- A store holds at most one chain from a given first link to the end. -/
theorem Chain.unique (h : Chain s p xs none) (h' : Chain s p' ys none)
    (hhead : headAddr none xs = headAddr none ys) : xs = ys := by
  induction xs generalizing p p' ys with
  | nil =>
    cases ys with
    | nil => rfl
    | cons y ys => cases hhead
  | cons x xs ih =>
    cases ys with
    | nil => cases hhead
    | cons y ys =>
      obtain ⟨a, x⟩ := x
      obtain ⟨b, y⟩ := y
      obtain rfl : a = b := Option.some.inj hhead
      have heq := Option.some.inj (h.1.symm.trans h'.1)
      obtain ⟨-, hnext, rfl⟩ := Link.mk.inj heq
      rw [ih h.2 h'.2 hnext]

/-- The last link of a chain is pointed forward to `e'`. -/
theorem Chain.setNext (h : Chain s p (xs ++ [(a, x)]) e) (ha : a ∉ addrs xs) :
    Chain (s.write a ⟨lastAddr p xs, e', x⟩) p (xs ++ [(a, x)]) e' := by
  obtain ⟨hxs, hread, -⟩ := chain_append.1 h
  exact chain_append.2 ⟨hxs.write ha, Store.read_write_self hread, trivial⟩

/-- The first link of a chain is pointed back to `p'`. -/
theorem Chain.setPrev (h : Chain s p ((a, x) :: xs) e) (ha : a ∉ addrs xs) :
    Chain (s.write a ⟨p', headAddr e xs, x⟩) p' ((a, x) :: xs) e :=
  ⟨Store.read_write_self h.1, h.2.write ha⟩

/-- The links are distinct addresses below `fresh`. -/
theorem Chain.length_le_fresh (h : Chain s p xs e) (hnodup : (addrs xs).Nodup) :
    xs.length ≤ s.fresh := by
  have hsub : addrs xs ⊆ List.range s.fresh := fun b hb => List.mem_range.2 (h.lt_fresh b hb)
  have hle := (List.subperm_of_subset hnodup hsub).length_le
  rwa [addrs, List.length_map, List.length_range] at hle

/-- The links that are met from an address on, in a bounded number of steps. -/
def linksFrom (s : Store (Link ι)) : ℕ → Option Addr → List (Addr × ι)
  | 0, _ | _ + 1, none => []
  | fuel + 1, some a =>
    match s.read a with
    | none => []
    | some link => (a, link.item) :: linksFrom s fuel link.next

/-- Who follows a chain meets its links. -/
theorem Chain.linksFrom_eq (h : Chain s p xs none) {fuel : ℕ} (hfuel : xs.length ≤ fuel) :
    linksFrom s fuel (headAddr none xs) = xs := by
  induction xs generalizing p fuel with
  | nil => cases fuel <;> rfl
  | cons x xs ih =>
    obtain ⟨a, x⟩ := x
    obtain ⟨fuel, rfl⟩ := Nat.exists_eq_succ_of_ne_zero (Nat.ne_zero_of_lt hfuel)
    have hhead : headAddr none ((a, x) :: xs) = some a := rfl
    simp only [hhead, linksFrom, h.1, ih h.2 (Nat.le_of_succ_le_succ hfuel)]

/-! ### Appending and unlinking -/

/-- The links of a chain are distinct. -/
theorem notMem_addrs (h : (addrs (xs ++ (a, x) :: ys)).Nodup) : a ∉ addrs xs ∧ a ∉ addrs ys := by
  rw [addrs_append, addrs_cons, List.nodup_middle, List.nodup_cons, List.mem_append, not_or] at h
  exact h.1

/-- A link is appended: it is allocated, and the last one before it points to it. -/
theorem Chain.push (h : Chain s p (xs ++ [(b, y)]) none) (hb : b ∉ addrs xs) :
    Chain ((s.alloc ⟨some b, none, x⟩).write b ⟨lastAddr p xs, some s.fresh, y⟩) p
      (xs ++ [(b, y)] ++ [(s.fresh, x)]) none := by
  have hne : s.fresh ≠ b := fun heq => h.fresh_notMem (by simp [heq])
  refine chain_append.2 ⟨Chain.setNext (e := none) h.alloc hb, ?_, trivial⟩
  rw [Store.read_write_of_ne hne, Store.read_alloc_fresh, lastAddr_concat]
  rfl

/-- The first link is taken out: the second one becomes the first. -/
theorem Chain.unlinkFirst (h : Chain s p ((a, x) :: (c, z) :: ys) e)
    (hnodup : (addrs ((a, x) :: (c, z) :: ys)).Nodup) :
    Chain ((s.write c ⟨p', headAddr e ys, z⟩).free a) p' ((c, z) :: ys) e := by
  obtain ⟨ha, hnodup⟩ := List.nodup_cons.1 hnodup
  exact (h.2.setPrev (List.nodup_cons.1 hnodup).1).free ha

/-- The last link is taken out: the one before it becomes the last. -/
theorem Chain.unlinkLast (h : Chain s p (xs ++ [(b, y)] ++ [(a, x)]) e)
    (hnodup : (addrs (xs ++ [(b, y)] ++ [(a, x)])).Nodup) :
    Chain ((s.write b ⟨lastAddr p xs, e', y⟩).free a) p (xs ++ [(b, y)]) e' := by
  have ha := notMem_addrs hnodup
  rw [List.append_assoc] at hnodup
  have hb := notMem_addrs hnodup
  exact ((chain_append.1 h).1.setNext hb.1).free ha.1

/-- A link in the middle is taken out: its neighbours point to each other. -/
theorem Chain.unlinkMiddle (h : Chain s p (xs ++ [(b, y)] ++ (a, x) :: (c, z) :: ys) e)
    (hnodup : (addrs (xs ++ [(b, y)] ++ (a, x) :: (c, z) :: ys)).Nodup) :
    Chain (((s.write b ⟨lastAddr p xs, some c, y⟩).write c ⟨some b, headAddr e ys, z⟩).free a) p
      (xs ++ [(b, y)] ++ (c, z) :: ys) e := by
  obtain ⟨hfront, -, hback⟩ := chain_append.1 h
  have ha := notMem_addrs hnodup
  have hsplit : xs ++ [(b, y)] ++ (a, x) :: (c, z) :: ys =
      xs ++ (b, y) :: ((a, x) :: (c, z) :: ys) := List.append_assoc ..
  have hb : b ∉ addrs xs ∧ b ∉ addrs ((a, x) :: (c, z) :: ys) := notMem_addrs (hsplit ▸ hnodup)
  have hsplit' : xs ++ [(b, y)] ++ (a, x) :: (c, z) :: ys =
      (xs ++ [(b, y)] ++ [(a, x)]) ++ (c, z) :: ys := by simp
  have hc := notMem_addrs (hsplit' ▸ hnodup)
  rw [addrs_append, List.mem_append, not_or] at hc
  rw [addrs_cons, List.mem_cons, not_or] at hb
  refine Chain.free (chain_append.2 ⟨(hfront.setNext hb.1).write hc.1.1, ?_⟩) ?_
  · rw [lastAddr_concat]
    exact (hback.write hb.2.2).setPrev hc.2
  · rw [addrs_append, List.mem_append, not_or]
    exact ha

end UavTelemetry
