import Mathlib.Data.List.Induction
import UavTelemetry.Lists.Links

/-!
# The destructor of a list

`~List` removes the last link as long as there is a first one.  The links go in the order from the
last to the first, so that the link before the removed one is still there to be written.

## Main definitions

* `LinkedList.Ledger` : every block is a link of the list, or it was freed once.
* `LinkedList.Destroyed` : what the destructor leaves behind.

## Main results

* `LinkedList.ledger_of_reachable` : the ledger is right in every state.
* `LinkedList.destructor_spec` : the destructor ends, and frees every link once.
-/

namespace UavTelemetry

namespace LinkedList

variable {ι : Type}

/-- The ledger of the blocks: each one is a link of the list or was freed once, and the cursor of
an empty list is null. -/
structure Ledger (l : LinkedList ι) (xs : List (Addr × Option ι)) : Prop where
  /-- The links. -/
  rep : l.Rep xs
  /-- The blocks that were allocated, each once. -/
  blocks : (l.freed ++ addrs xs).Perm (List.range l.nodes.fresh)
  /-- The cursor of an empty list. -/
  search : xs = [] → l.search = none

/-- What the destructor leaves behind, after a number of rounds. -/
structure Destroyed (l l' : LinkedList ι) (rounds : ℕ) : Prop where
  /-- There is a round for each link. -/
  rounds : rounds = l.count
  /-- The links are freed from the last to the first. -/
  freed : l'.freed = l.freed ++ (addrs l.links).reverse
  /-- Every block that was ever allocated is freed once. -/
  once : l'.freed.Perm (List.range l.nodes.fresh)
  /-- `_first`. -/
  first : l'.first = none
  /-- `_last`. -/
  last : l'.last = none
  /-- `_search`. -/
  search : l'.search = none
  /-- `_count`. -/
  count : l'.count = 0

variable {l l' : LinkedList ι} {xs : List (Addr × Option ι)}

/-- The loop of the destructor, on the links `xs`. -/
theorem Rep.destructorLoop {fuel : ℕ} (h : l.Rep xs) (hfuel : xs.length < fuel) :
    ∃ l', destructorLoop fuel l = .ok (l', xs.length) ∧ l'.Rep [] ∧
      l'.freed = l.freed ++ (addrs xs).reverse ∧
      l'.search = if xs = [] then l.search else none := by
  induction xs using List.reverseRecOn generalizing l fuel with
  | nil =>
    obtain ⟨fuel, rfl⟩ := Nat.exists_eq_succ_of_ne_zero (Nat.ne_zero_of_lt hfuel)
    have hfirst : l.first = none := h.first
    refine ⟨l, ?_, h, (List.append_nil _).symm, rfl⟩
    simp only [LinkedList.destructorLoop, hfirst, List.length_nil]
  | append_singleton xs x ih =>
    obtain ⟨a, i⟩ := x
    obtain ⟨fuel, rfl⟩ := Nat.exists_eq_succ_of_ne_zero (Nat.ne_zero_of_lt hfuel)
    rw [List.length_append, List.length_singleton] at hfuel
    obtain ⟨l₁, hremove, hremoved⟩ := h.removeNode
    have hrep := hremoved.rep
    rw [List.append_nil] at hrep
    obtain ⟨l', hloop, hnil, hfreed, hsearch⟩ := ih hrep (Nat.lt_of_succ_lt_succ hfuel)
    obtain ⟨b, hfirst⟩ : ∃ b, l.first = some b := by
      rw [h.first]
      cases xs <;> exact ⟨_, rfl⟩
    have hlast : l.last = some a := by rw [h.last, lastAddr_concat]
    refine ⟨l', ?_, hnil, ?_, ?_⟩
    · simp only [LinkedList.destructorLoop, hfirst, hlast, hremove, ok_bind, hloop, pure_eq_ok,
        List.length_append, List.length_singleton]
    · rw [hfreed, hremoved.freed, addrs_append, List.reverse_append, List.append_assoc]
      rfl
    · rw [hsearch, hremoved.search, List.append_nil]
      by_cases hxs : xs = [] <;> simp [hxs]

variable [DecidableEq ι]

/-- **One call** keeps the ledger. -/
theorem Done.ledger {c : Call ι} (hdone : l.Done xs c l') (h : l.Ledger xs) :
    l'.Ledger (c.effect l.nodes.fresh xs) := by
  have hrep := (hdone.rep h.rep).1
  cases hdone with
  | limited | counted => exact ⟨hrep, h.blocks, h.search⟩
  | added item exception hadded hsearch hfreed hnumItems hfresh =>
    refine ⟨hrep, ?_, fun hnil => absurd hnil (by simp [Call.effect])⟩
    rw [Call.effect, hfreed, hfresh, List.range_succ, addrs_append, ← List.append_assoc]
    exact h.blocks.append_right _
  | removed exception hsplit hfirst hremoved =>
    subst hsplit
    rw [Call.effect, eraseP_split hfirst] at hrep ⊢
    refine ⟨hrep, ?_, fun hnil => by rw [hremoved.search, if_pos hnil]⟩
    -- the link moves from the list to the freed blocks
    have hblocks := h.blocks
    rw [addrs_append, addrs_cons] at hblocks
    rw [hremoved.freed, hremoved.fresh, addrs_append, List.append_assoc, List.singleton_append]
    exact (List.Perm.append_left _ List.perm_middle.symm).trans hblocks
  | missed exception hmissing =>
    rwa [Call.effect, List.eraseP_of_forall_not (not_item_of_notMem hmissing)]
  | first =>
    refine ⟨hrep, h.blocks, fun hnil => ?_⟩
    obtain rfl : xs = [] := hnil
    rfl
  | next s unset moved => exact ⟨hrep, h.blocks, fun hnil => unset (h.search hnil)⟩
  | searched item exception =>
    refine ⟨hrep, h.blocks, fun hnil => ?_⟩
    obtain rfl : xs = [] := hnil
    rfl

/-- The ledger is right in every state. -/
theorem ledger_of_reachable (h : machine.Reachable (new : LinkedList ι) l) : l.Ledger l.links := by
  have hledger : ∃ xs, l.Ledger xs := by
    have hnew : (new : LinkedList ι).Ledger [] := ⟨rep_new, List.Perm.refl _, fun _ => rfl⟩
    refine h.invariant (I := fun l => ∃ xs, l.Ledger xs) ⟨[], hnew⟩ ?_
    rintro l c l' ⟨xs, hxs⟩ hst
    obtain ⟨r, hrun⟩ := machine_step hst
    exact ⟨_, (hxs.rep.done hrun).ledger hxs⟩
  obtain ⟨xs, hxs⟩ := hledger
  rwa [hxs.rep.links_eq]

/-- **The destructor** ends after a round for each link, and frees every link once. -/
theorem destructor_spec (h : machine.Reachable (new : LinkedList ι) l) :
    ∃ l' rounds, l.destructor = .ok (l', rounds) ∧ Destroyed l l' rounds := by
  have hledger := ledger_of_reachable h
  obtain ⟨l', hloop, hnil, hfreed, hsearch⟩ :=
    hledger.rep.destructorLoop hledger.rep.length_lt_fuel
  refine ⟨l', _, hloop, hledger.rep.count.symm, hfreed, ?_, hnil.first, hnil.last, ?_, hnil.count⟩
  · rw [hfreed]
    exact (List.Perm.append_left _ (List.reverse_perm _)).trans hledger.blocks
  · rw [hsearch]
    by_cases hempty : l.links = []
    · rw [if_pos hempty, hledger.search hempty]
    · rw [if_neg hempty]

/-- Three items, the middle one removed before the list goes. -/
def threeItems : List (Call ℕ) :=
  [.addItem (some 7) true none, .addItem (some 8) true none, .addItem (some 9) true none,
    .removeItem (some 8) none]

theorem destructor_threeItems :
    ∃ l l' rounds, machine.run new threeItems = some l ∧ l.destructor = .ok (l', rounds) ∧
      rounds = 2 ∧ l'.freed = [1, 2, 0] := by
  have heval : (machine.run new threeItems).map (fun l => (l.count, l.freed, addrs l.links)) =
      some (2, [1], [0, 2]) := by
    decide +kernel
  obtain ⟨l, hrun, heq⟩ := Option.map_eq_some_iff.1 heval
  simp only [Prod.mk.injEq] at heq
  obtain ⟨hcount, hfreed, hlinks⟩ := heq
  obtain ⟨l', rounds, hdestructor, hdestroyed⟩ := destructor_spec ⟨threeItems, hrun⟩
  refine ⟨l, l', rounds, hrun, hdestructor, hdestroyed.rounds.trans hcount, ?_⟩
  rw [hdestroyed.freed, hfreed, hlinks]
  rfl

end LinkedList

end UavTelemetry
