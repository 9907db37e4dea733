import Mathlib.Data.Fintype.Card
import UavTelemetry.Data.Store

/-!
# Singly linked lists

A program keeps lists in link fields.  A *cell* is a place that holds a link: the header of a list
or the link field of a node; `cell x` is the link field of the node `x`.  `Path cell next h xs e`
says that the links lead from the cell `h` through the nodes `xs` to the pointer `e`, which is null
at the end of a list.  A second link field may point back to the cell before each node (`Back`).

## Main definitions

* `Path`, `Back` : the link fields form a list.
* `lastCell` : the cell that holds the link behind a list of nodes.
* `walk` : follow the links while a condition holds.

## Main results

* `Path.nodup` : a list that ends has no node twice.
* `Path.insert`, `Path.remove` : the edits of a list.
* `walk_eq` : a walk along a list stops where the condition on its nodes fails.
-/

namespace UavTelemetry

variable {τ κ σ : Type*}

/-- From the cell `h` on, the links lead through `xs` to `e`. -/
def Path (cell : τ → κ) (next : κ → Option τ) : κ → List τ → Option τ → Prop
  | h, [], e => next h = e
  | h, x :: xs, e => next h = some x ∧ Path cell next (cell x) xs e

/-- The link field `prev` of every node of `xs` points to the cell before it. -/
def Back (cell : τ → κ) (prev : τ → Option κ) : κ → List τ → Prop
  | _, [] => True
  | h, x :: xs => prev x = some h ∧ Back cell prev (cell x) xs

/-- The cell that holds the link behind the nodes `xs`. -/
def lastCell (cell : τ → κ) : κ → List τ → κ
  | h, [] => h
  | _, x :: xs => lastCell cell (cell x) xs

/-- The first node, or `e` if there is none. -/
def headPtr (e : Option τ) : List τ → Option τ
  | [] => e
  | x :: _ => some x

/-- Follow the links from a cell while `adv` lets the next node pass; `adv` carries a state along.
The result is the state and the cell where the walk ends. -/
def walk (cell : τ → κ) (next : κ → Option τ) (adv : σ → τ → Option σ) :
    ℕ → σ → κ → Except Fault (σ × κ)
  | 0, _, _ => .error .diverges
  | fuel + 1, s, c =>
    match next c with
    | none => .ok (s, c)
    | some x =>
      match adv s x with
      | none => .ok (s, c)
      | some s' => walk cell next adv fuel s' (cell x)

/-- The nodes that a walk passes. -/
def passed (adv : σ → τ → Option σ) : σ → List τ → List τ
  | _, [] => []
  | s, x :: xs =>
    match adv s x with
    | none => []
    | some s' => x :: passed adv s' xs

/-- The state with which a walk stops. -/
def carried (adv : σ → τ → Option σ) : σ → List τ → σ
  | s, [] => s
  | s, x :: xs =>
    match adv s x with
    | none => s
    | some s' => carried adv s' xs

/-- Let the nodes pass for which `p` holds. -/
def passWhile (p : τ → Bool) (_ : Unit) (x : τ) : Option Unit := if p x then some () else none

/-- Let all nodes pass but `x`. -/
def upTo [DecidableEq τ] (x : τ) (_ : Unit) (y : τ) : Option Unit := if y = x then none else some ()

variable {cell : τ → κ} {next next' : κ → Option τ} {prev prev' : τ → Option κ} {h c : κ}
  {xs ys : List τ} {x y : τ} {e e' : Option τ}

@[simp] theorem lastCell_nil : lastCell cell h [] = h := rfl

@[simp] theorem lastCell_cons : lastCell cell h (x :: xs) = lastCell cell (cell x) xs := rfl

@[simp] theorem lastCell_append :
    lastCell cell h (xs ++ ys) = lastCell cell (lastCell cell h xs) ys := by
  induction xs generalizing h with
  | nil => rfl
  | cons x xs ih => exact ih

@[simp] theorem headPtr_nil : headPtr e [] = e := rfl

@[simp] theorem headPtr_cons : headPtr e (x :: xs) = some x := rfl

theorem path_append : Path cell next h (xs ++ ys) e ↔
    Path cell next h xs (headPtr e ys) ∧ Path cell next (lastCell cell h xs) ys e := by
  induction xs generalizing h with
  | nil =>
    cases ys with
    | nil => exact (and_self_iff).symm
    | cons y ys => exact ⟨fun hp => ⟨hp.1, hp⟩, And.right⟩
  | cons x xs ih => simp only [List.cons_append, Path, ih, lastCell_cons, and_assoc]

/-- The link behind a part of a list. -/
theorem Path.next_lastCell (hp : Path cell next h (xs ++ ys) e) :
    next (lastCell cell h xs) = headPtr e ys := by
  have := (path_append.1 hp).2
  cases ys with
  | nil => exact this
  | cons y ys => exact this.1

theorem lastCell_mem : lastCell cell h xs ∈ h :: xs.map cell := by
  induction xs generalizing h with
  | nil => exact List.mem_cons_self
  | cons x xs ih => exact List.mem_cons_of_mem _ ih

/-- A list is read from another cell that holds the same link. -/
theorem Path.rehead (hp : Path cell next h xs e) (hc : next' c = next h)
    (heq : ∀ d ∈ xs.map cell, next' d = next d) : Path cell next' c xs e := by
  induction xs generalizing h c with
  | nil => exact hc.trans hp
  | cons x xs ih =>
    rw [List.map_cons, List.forall_mem_cons] at heq
    exact ⟨hc.trans hp.1, ih hp.2 heq.1 heq.2⟩

/-- A list reads its own cells only. -/
theorem Path.congr (hp : Path cell next h xs e) (heq : ∀ c ∈ h :: xs.map cell, next' c = next c) :
    Path cell next' h xs e :=
  hp.rehead (heq h List.mem_cons_self) fun c hc => heq c (List.mem_cons_of_mem _ hc)

theorem Path.update [DecidableEq κ] (hp : Path cell next h xs e) (hc : c ∉ h :: xs.map cell)
    (v : Option τ) : Path cell (Function.update next c v) h xs e :=
  hp.congr fun _ hd => Function.update_of_ne (ne_of_mem_of_not_mem hd hc) ..

/-- There is one list from a cell to its end. -/
theorem Path.unique (hp : Path cell next h xs none) (hq : Path cell next h ys none) : xs = ys := by
  induction xs generalizing h ys with
  | nil =>
    cases ys with
    | nil => rfl
    | cons y ys => cases hp.symm.trans hq.1
  | cons x xs ih =>
    cases ys with
    | nil => cases hp.1.symm.trans hq
    | cons y ys =>
      obtain rfl : x = y := Option.some.inj (hp.1.symm.trans hq.1)
      rw [ih hp.2 hq.2]

/-- **A list that ends has no cell twice.** -/
theorem Path.nodup (hp : Path cell next h xs none) : (h :: xs.map cell).Nodup := by
  induction xs generalizing h with
  | nil => exact List.nodup_singleton h
  | cons x xs ih =>
    refine List.nodup_cons.2 ⟨fun hmem => ?_, ih hp.2⟩
    obtain ⟨y, hy, rfl⟩ := List.mem_map.1 hmem
    obtain ⟨ys, zs, hsplit⟩ := List.append_of_mem hy
    -- what follows `y` would be the whole list
    have htail : Path cell next (cell y) zs none := by
      rw [hsplit] at hp
      have := (path_append.1 hp).2
      cases ys <;> exact this.2
    have hlen := congrArg List.length (hp.unique htail)
    have hsplit := congrArg List.length hsplit
    simp only [List.length_append, List.length_cons] at hsplit hlen
    omega

theorem Path.nodup_nodes (hp : Path cell next h xs none) : xs.Nodup :=
  (List.nodup_cons.1 hp.nodup).2.of_map

/-- The nodes are as many as there are at most. -/
theorem Path.length_le [Fintype τ] (hp : Path cell next h xs none) :
    xs.length ≤ Fintype.card τ := hp.nodup_nodes.length_le_card

theorem Path.headPtr_eq (hp : Path cell next h xs e) : next h = headPtr e xs := by
  cases xs with
  | nil => exact hp
  | cons x xs => exact hp.1

theorem lastCell_notMem (hnodup : (h :: (xs ++ ys).map cell).Nodup) :
    lastCell cell h xs ∉ ys.map cell := by
  intro hmem
  rw [List.map_append, ← List.cons_append] at hnodup
  exact (List.nodup_append.1 hnodup).2.2 _ lastCell_mem _ hmem rfl

/-! ### Edits -/

section edits

variable [DecidableEq κ]

/-- The link behind a part of a list is set. -/
theorem Path.setLast (hp : Path cell next h xs e) (hnodup : (h :: xs.map cell).Nodup) :
    Path cell (Function.update next (lastCell cell h xs) e') h xs e' := by
  induction xs generalizing h with
  | nil => exact Function.update_self ..
  | cons x xs ih =>
    obtain ⟨hh, hnodup⟩ := List.nodup_cons.1 hnodup
    refine ⟨?_, ih hp.2 hnodup⟩
    rw [lastCell_cons, Function.update_of_ne (ne_of_mem_of_not_mem lastCell_mem hh).symm]
    exact hp.1

/-- **A node is inserted** behind `xs`: it takes over the link there, which then leads to it. -/
theorem Path.insert (hp : Path cell next h (xs ++ ys) none)
    (hx : cell x ∉ h :: (xs ++ ys).map cell) :
    Path cell (Function.update (Function.update next (cell x) (next (lastCell cell h xs)))
      (lastCell cell h xs) (some x)) h (xs ++ x :: ys) none := by
  have hnodup := hp.nodup
  have hys := lastCell_notMem hnodup
  obtain ⟨hleft, hright⟩ := path_append.1 hp
  rw [List.map_append, ← List.cons_append, List.mem_append, not_or] at hx
  rw [List.map_append, ← List.cons_append] at hnodup
  have hne : cell x ≠ lastCell cell h xs := (ne_of_mem_of_not_mem lastCell_mem hx.1).symm
  refine path_append.2 ⟨?_, Function.update_self .., hright.rehead ?_ fun d hd => ?_⟩
  · exact (hleft.update hx.1 _).setLast (List.nodup_append.1 hnodup).1
  · rw [Function.update_of_ne hne, Function.update_self]
  · rw [Function.update_of_ne (ne_of_mem_of_not_mem hd hys),
      Function.update_of_ne (ne_of_mem_of_not_mem hd hx.2)]

/-- **A node is removed**: the cell before it takes over its link. -/
theorem Path.remove (hp : Path cell next h (xs ++ x :: ys) none) :
    Path cell (Function.update next (lastCell cell h xs) (next (cell x))) h (xs ++ ys) none := by
  have hnodup := hp.nodup
  have hys := lastCell_notMem hnodup
  obtain ⟨hleft, -, hright⟩ := path_append.1 hp
  rw [List.map_append, ← List.cons_append] at hnodup
  rw [hright.headPtr_eq]
  refine path_append.2 ⟨hleft.setLast (List.nodup_append.1 hnodup).1,
    hright.rehead ?_ fun d hd => ?_⟩
  · rw [Function.update_self, hright.headPtr_eq]
  · rw [Function.update_of_ne (ne_of_mem_of_not_mem hd fun hmem => hys (by simp [hmem]))]

end edits

/-! ### Links back -/

theorem back_append : Back cell prev h (xs ++ ys) ↔
    Back cell prev h xs ∧ Back cell prev (lastCell cell h xs) ys := by
  induction xs generalizing h with
  | nil => exact ⟨fun h => ⟨trivial, h⟩, And.right⟩
  | cons x xs ih => simp only [List.cons_append, Back, ih, lastCell_cons, and_assoc]

theorem Back.congr (hb : Back cell prev h xs) (heq : ∀ x ∈ xs, prev' x = prev x) :
    Back cell prev' h xs := by
  induction xs generalizing h with
  | nil => trivial
  | cons x xs ih =>
    rw [List.forall_mem_cons] at heq
    exact ⟨heq.1.trans hb.1, ih hb.2 heq.2⟩

/-- A node of a list points back to the cell before it. -/
theorem Back.prev_eq (hb : Back cell prev h (xs ++ x :: ys)) :
    prev x = some (lastCell cell h xs) := (back_append.1 hb).2.1

/-- The link of the cell before a node leads to the node. -/
theorem Back.next_prev (hb : Back cell prev h xs) (hp : Path cell next h xs e) (hx : x ∈ xs) :
    ∃ c ∈ h :: xs.map cell, prev x = some c ∧ next c = some x := by
  obtain ⟨ys, zs, rfl⟩ := List.append_of_mem hx
  refine ⟨_, ?_, hb.prev_eq, hp.next_lastCell⟩
  rw [List.map_append, ← List.cons_append]
  exact List.mem_append_left _ lastCell_mem

section edits

variable [DecidableEq τ]

/-- Change the back link of the node at a pointer, if it is not null. -/
def relink (prev : τ → Option κ) (p : Option τ) (c : Option κ) : τ → Option κ :=
  match p with
  | none => prev
  | some y => Function.update prev y c

theorem relink_of_ne {p : Option τ} {d : Option κ} (hne : p ≠ some x) :
    relink prev p d x = prev x := by
  cases p with
  | none => rfl
  | some y => exact Function.update_of_ne (fun heq => hne (congrArg some heq.symm)) ..

/-- The back links when a node is inserted. -/
theorem Back.insert (hb : Back cell prev h (xs ++ ys)) (hnodup : (xs ++ ys).Nodup)
    (hx : x ∉ xs ++ ys) :
    Back cell (Function.update (relink prev (headPtr none ys) (some (cell x))) x
      (some (lastCell cell h xs))) h (xs ++ x :: ys) := by
  obtain ⟨hleft, hright⟩ := back_append.1 hb
  rw [List.mem_append, not_or] at hx
  refine back_append.2 ⟨hleft.congr fun z hz => ?_, Function.update_self .., ?_⟩
  · rw [Function.update_of_ne (ne_of_mem_of_not_mem hz hx.1)]
    cases ys with
    | nil => rfl
    | cons y ys =>
      have hne : z ≠ y := (List.nodup_append.1 hnodup).2.2 z hz y List.mem_cons_self
      exact Function.update_of_ne hne ..
  · cases ys with
    | nil => trivial
    | cons y ys =>
      have hy := (List.nodup_cons.1 (List.nodup_append.1 hnodup).2.1).1
      rw [List.mem_cons, not_or] at hx
      refine ⟨?_, hright.2.congr fun z hz => ?_⟩
      · rw [Function.update_of_ne (Ne.symm hx.2.1)]
        exact Function.update_self ..
      · rw [Function.update_of_ne (ne_of_mem_of_not_mem hz hx.2.2)]
        exact Function.update_of_ne (ne_of_mem_of_not_mem hz hy) ..

/-- The back links when a node is removed. -/
theorem Back.remove (hb : Back cell prev h (xs ++ x :: ys)) (hnodup : (xs ++ x :: ys).Nodup) :
    Back cell (relink prev (headPtr none ys) (prev x)) h (xs ++ ys) := by
  rw [hb.prev_eq]
  obtain ⟨hleft, -, hright⟩ := back_append.1 hb
  cases ys with
  | nil => exact back_append.2 ⟨hleft, trivial⟩
  | cons y ys =>
    have hy := (List.nodup_cons.1 (List.nodup_cons.1 (List.nodup_append.1 hnodup).2.1).2).1
    refine back_append.2 ⟨hleft.congr fun z hz => ?_, Function.update_self ..,
      hright.2.congr fun z hz => ?_⟩
    · have hne : z ≠ y := (List.nodup_append.1 hnodup).2.2 z hz y (by simp)
      exact Function.update_of_ne hne ..
    · exact Function.update_of_ne (ne_of_mem_of_not_mem hz hy) ..

end edits

/-! ### Walks -/

variable {adv : σ → τ → Option σ} {s : σ} {fuel : ℕ}

theorem passed_passWhile {p : τ → Bool} : passed (passWhile p) () xs = xs.takeWhile p := by
  induction xs with
  | nil => rfl
  | cons x xs ih =>
    by_cases hx : p x = true
    · rw [List.takeWhile_cons_of_pos hx, ← ih]
      simp only [passed, passWhile, if_pos hx]
    · rw [List.takeWhile_cons_of_neg hx]
      simp only [passed, passWhile, if_neg hx]

theorem passed_upTo [DecidableEq τ] (hx : x ∉ xs) : passed (upTo x) () (xs ++ x :: ys) = xs := by
  induction xs with
  | nil => simp [passed, upTo]
  | cons z xs ih =>
    rw [List.mem_cons, not_or] at hx
    simp only [List.cons_append, passed, upTo, if_neg (Ne.symm hx.1), List.cons.injEq, true_and]
    exact ih hx.2

/-- **A walk along a list** stops in front of the first node that it does not let pass. -/
theorem walk_eq (adv : σ → τ → Option σ) (s : σ) (hp : Path cell next h xs none)
    (hfuel : xs.length < fuel) :
    walk cell next adv fuel s h =
      .ok (carried adv s xs, lastCell cell h (passed adv s xs)) := by
  induction xs generalizing h s fuel with
  | nil =>
    obtain ⟨fuel, rfl⟩ := Nat.exists_eq_succ_of_ne_zero (Nat.ne_zero_of_lt hfuel)
    have hnext : next h = none := hp
    simp only [walk, hnext, carried, passed, lastCell_nil]
  | cons x xs ih =>
    obtain ⟨fuel, rfl⟩ := Nat.exists_eq_succ_of_ne_zero (Nat.ne_zero_of_lt hfuel)
    simp only [walk, hp.1]
    cases h : adv s x with
    | none => simp only [carried, passed, h, lastCell_nil]
    | some s' =>
      simp only [carried, passed, h, lastCell_cons]
      exact ih _ hp.2 (Nat.lt_of_succ_lt_succ hfuel)

end UavTelemetry
