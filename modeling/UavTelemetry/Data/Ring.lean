import Mathlib.Data.List.Range
import Mathlib.Logic.Function.Basic
import Mathlib.Tactic.Common

/-!
# Ring buffers

A ring buffer is a bounded first-in-first-out queue in an array: `first` is the slot for the next
item, `last` the slot of the oldest one, and both wrap around at `size`.  Programs often move the
indices and the count apart, so the operations here are the single moves; `Ring.contents` is the
queue that they represent.

## Main definitions

* `Ring` : the array with its indices.
* `Ring.put`, `Ring.take` : an item is written at `first`, the item at `last` is passed over.
* `Ring.contents` : the items, oldest first.

## Main results

* `Ring.contents_put`, `Ring.contents_take` : the moves append an item and drop the oldest one.
* `Ring.contents_exchange` : both at once, with the count left alone.
-/

namespace UavTelemetry

/-- A ring buffer. -/
structure Ring (α : Type*) where
  /-- The slot for the next item. -/
  first : ℕ
  /-- The slot of the oldest item. -/
  last : ℕ
  /-- The number of items. -/
  count : ℕ
  /-- The number of slots. -/
  size : ℕ
  slots : ℕ → α

namespace Ring

variable {α : Type*}

/-- The index after `i`. -/
def next (r : Ring α) (i : ℕ) : ℕ := if i + 1 = r.size then 0 else i + 1

/-- An item is written at `first`; the count is left alone. -/
def put (r : Ring α) (x : α) : Ring α :=
  { r with slots := Function.update r.slots r.first x, first := r.next r.first }

/-- The item at `last` is passed over; the count is left alone. -/
def take (r : Ring α) : Ring α := { r with last := r.next r.last }

/-- The number of items goes up. -/
def inc (r : Ring α) : Ring α := { r with count := r.count + 1 }

/-- The number of items goes down. -/
def dec (r : Ring α) : Ring α := { r with count := r.count - 1 }

/-- The oldest item. -/
def oldest (r : Ring α) : α := r.slots r.last

/-- The items, oldest first. -/
def contents (r : Ring α) : List α :=
  (List.range r.count).map fun i => r.slots ((r.last + i) % r.size)

/-- The indices of a ring buffer fit together. -/
structure Fits (r : Ring α) : Prop where
  last_lt : r.last < r.size
  count_le : r.count ≤ r.size
  first_eq : r.first = (r.last + r.count) % r.size

variable {r : Ring α} {x : α}

theorem next_eq {i : ℕ} (h : i < r.size) : r.next i = (i + 1) % r.size := by
  rw [next]
  split
  · rename_i heq
    rw [heq, Nat.mod_self]
  · rw [Nat.mod_eq_of_lt (by omega)]

theorem Fits.size_pos (h : r.Fits) : 0 < r.size := Nat.zero_lt_of_lt h.last_lt

@[simp] theorem length_contents : r.contents.length = r.count := by simp [contents]

theorem contents_eq_nil (h : r.count = 0) : r.contents = [] := by simp [contents, h]

/-- Slots apart by less than the size are different. -/
theorem slot_ne {i j n : ℕ} (hij : i < j) (hj : j < i + n) (a : ℕ) :
    (a + i) % n ≠ (a + j) % n := by
  intro heq
  have hdvd : n ∣ (a + j) - (a + i) := Nat.dvd_of_mod_eq_zero (Nat.sub_mod_eq_zero_of_mod_eq heq.symm)
  have := Nat.le_of_dvd (by omega) hdvd
  omega

/-- **A ring with room for one more item takes it in last.** -/
theorem contents_put (h : r.Fits) (hroom : r.count < r.size) :
    (r.put x).inc.contents = r.contents ++ [x] := by
  show (List.range (r.count + 1)).map (fun i => Function.update r.slots r.first x
    ((r.last + i) % r.size)) = _
  rw [List.range_succ, List.map_append, List.map_singleton]
  congr 1
  · refine List.map_congr_left fun i hi => Function.update_of_ne ?_ ..
    rw [h.first_eq]
    exact slot_ne (List.mem_range.1 hi) (by omega) r.last
  · rw [← h.first_eq, Function.update_self]

theorem Fits.put (h : r.Fits) (hroom : r.count < r.size) (x : α) : (r.put x).inc.Fits := by
  refine ⟨h.last_lt, hroom, ?_⟩
  show r.next r.first = (r.last + (r.count + 1)) % r.size
  rw [next_eq (h.first_eq ▸ Nat.mod_lt _ h.size_pos), h.first_eq, Nat.mod_add_mod, Nat.add_assoc]

/-- **The oldest item is the first**, and the others are what the ring holds without it. -/
theorem contents_take (h : r.Fits) (hpos : 0 < r.count) :
    r.contents = r.oldest :: r.take.dec.contents := by
  obtain ⟨n, hn⟩ := Nat.exists_eq_succ_of_ne_zero hpos.ne'
  rw [contents, hn, List.range_succ_eq_map, List.map_cons, List.map_map]
  congr 1
  · rw [Nat.add_zero, Nat.mod_eq_of_lt h.last_lt]
    rfl
  · rw [contents]
    simp only [dec, take, hn, Nat.succ_sub_one]
    refine List.map_congr_left fun i _ => ?_
    show r.slots ((r.last + (i + 1)) % r.size) = r.slots ((r.next r.last + i) % r.size)
    rw [next_eq h.last_lt, Nat.mod_add_mod]
    congr 2
    omega

theorem Fits.take (h : r.Fits) (hpos : 0 < r.count) : r.take.dec.Fits := by
  refine ⟨?_, (Nat.sub_le ..).trans h.count_le, ?_⟩
  · show r.next r.last < r.size
    rw [next_eq h.last_lt]
    exact Nat.mod_lt _ h.size_pos
  · show r.first = (r.next r.last + (r.count - 1)) % r.size
    rw [h.first_eq, next_eq h.last_lt, Nat.mod_add_mod]
    congr 1
    omega

/-- The oldest item makes room for another one. -/
theorem contents_exchange (h : r.Fits) (hpos : 0 < r.count) :
    (r.take.put x).contents = r.take.dec.contents ++ [x] := by
  have hfits := h.take hpos
  have hroom : r.take.dec.count < r.take.dec.size := by
    show r.count - 1 < r.size
    have := h.count_le
    omega
  have hsame : (r.take.dec.put x).inc = r.take.put x := by
    show ({ r.take.put x with count := r.count - 1 + 1 } : Ring α) = r.take.put x
    rw [Nat.sub_add_cancel hpos]
    rfl
  rw [← contents_put hfits hroom, hsame]

theorem Fits.exchange (h : r.Fits) (hpos : 0 < r.count) (x : α) : (r.take.put x).Fits := by
  have hfits := h.take hpos
  have hroom : r.take.dec.count < r.take.dec.size := by
    show r.count - 1 < r.size
    have := h.count_le
    omega
  have hput := hfits.put hroom x
  refine ⟨hput.last_lt, h.count_le, hput.first_eq.trans ?_⟩
  show (r.next r.last + (r.count - 1 + 1)) % r.size = _
  rw [Nat.sub_add_cancel hpos]
  rfl

end Ring

end UavTelemetry
