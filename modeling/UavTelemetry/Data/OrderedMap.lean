import Mathlib.Data.List.Nodup

/-!
# Finite maps in insertion order

An `OrderedMap κ β` holds at most one value for each key and remembers the order in which the keys
were inserted.

## Main definitions

* `OrderedMap.lookup`, `OrderedMap.push`, `OrderedMap.modify`, `OrderedMap.erase` : the
  operations.
* `OrderedMap.others` : the entries of the other keys, in order.

## Main results

* `OrderedMap.split` : the entry of a key, with the entries before and behind it.
* `OrderedMap.others_push`, `OrderedMap.others_modify`, `OrderedMap.others_erase` : an operation
  on one key leaves the entries of the others as they are.
-/

namespace UavTelemetry

/-- A finite map with its entries in insertion order. -/
structure OrderedMap (κ β : Type) where
  /-- The entries, in the order of insertion. -/
  entries : List (κ × β)
  /-- There is one entry for a key. -/
  nodup : (entries.map Prod.fst).Nodup

namespace OrderedMap

variable {κ β : Type} [DecidableEq κ]

/-- The map without entries. -/
def empty : OrderedMap κ β := ⟨[], List.nodup_nil⟩

/-- The value of a key. -/
def lookup (m : OrderedMap κ β) (k : κ) : Option β :=
  (m.entries.find? fun e => k = e.1).map Prod.snd

theorem lookup_eq_none_iff {m : OrderedMap κ β} {k : κ} :
    m.lookup k = none ↔ k ∉ m.entries.map Prod.fst := by
  simp only [lookup, Option.map_eq_none_iff, List.find?_eq_none, decide_eq_true_eq, List.mem_map,
    not_exists, not_and]
  exact ⟨fun h e he heq => h e he heq.symm, fun h e he heq => h e he heq.symm⟩

/-- Append an entry, if there is none for the key. -/
def push (m : OrderedMap κ β) (k : κ) (v : β) : OrderedMap κ β :=
  if h : m.lookup k = none then
    ⟨m.entries ++ [(k, v)], by
      rw [List.map_append, List.map_singleton, ← List.concat_eq_append]
      exact m.nodup.concat (lookup_eq_none_iff.1 h)⟩
  else m

/-- What is computed from the keys is the same with other values. -/
theorem comp_fst_ite {γ : Type*} (k : κ) (f : β → β) (g : κ → γ) :
    ((fun e => g e.1) ∘ fun e : κ × β => if k = e.1 then (e.1, f e.2) else e) =
      fun e => g e.1 := by
  funext e
  simp only [Function.comp_apply]
  split_ifs <;> rfl

theorem map_fst_ite (k : κ) (f : β → β) (es : List (κ × β)) :
    (es.map fun e => if k = e.1 then (e.1, f e.2) else e).map Prod.fst = es.map Prod.fst := by
  rw [List.map_map]
  exact congrArg (List.map · es) (comp_fst_ite k f id)

/-- Apply `f` to the value of a key. -/
def modify (m : OrderedMap κ β) (k : κ) (f : β → β) : OrderedMap κ β :=
  ⟨m.entries.map fun e => if k = e.1 then (e.1, f e.2) else e, by
    rw [map_fst_ite]
    exact m.nodup⟩

/-- Remove the entry of a key. -/
def erase (m : OrderedMap κ β) (k : κ) : OrderedMap κ β :=
  ⟨m.entries.filter fun e => k ≠ e.1, m.nodup.sublist ((List.filter_sublist).map _)⟩

/-- The entries of the other keys, in order. -/
def others (m : OrderedMap κ β) (k : κ) : List (κ × β) := m.entries.filter fun e => k ≠ e.1

variable {m : OrderedMap κ β} {k k' : κ} {v : β} {f : β → β} {xs ys : List (κ × β)}

theorem push_entries (h : m.lookup k = none) : (m.push k v).entries = m.entries ++ [(k, v)] := by
  rw [push, dif_pos h]

/-- The entry of a key, with the entries before and behind it. -/
theorem split (h : m.lookup k = some v) :
    ∃ xs ys, m.entries = xs ++ (k, v) :: ys ∧ (∀ e ∈ xs, k ≠ e.1) ∧ ∀ e ∈ ys, k ≠ e.1 := by
  obtain ⟨⟨k', v'⟩, hfind, rfl⟩ := Option.map_eq_some_iff.1 h
  obtain ⟨heq, xs, ys, hentries, hxs⟩ := List.find?_eq_some_iff_append.1 hfind
  obtain rfl : k = k' := by simpa using heq
  refine ⟨xs, ys, hentries, fun e he => by simpa using hxs e he, fun e he heq => ?_⟩
  have hnodup := m.nodup
  rw [hentries, List.map_append, List.map_cons, List.nodup_middle, List.nodup_cons] at hnodup
  exact hnodup.1 (List.mem_append_right _ (List.mem_map.2 ⟨e, he, heq.symm⟩))

theorem modify_entries (h : m.entries = xs ++ (k, v) :: ys) (hxs : ∀ e ∈ xs, k ≠ e.1)
    (hys : ∀ e ∈ ys, k ≠ e.1) : (m.modify k f).entries = xs ++ (k, f v) :: ys := by
  have hid : ∀ zs : List (κ × β), (∀ e ∈ zs, k ≠ e.1) →
      (zs.map fun e => if k = e.1 then (e.1, f e.2) else e) = zs := fun zs hzs =>
    (List.map_congr_left fun e he => if_neg (hzs e he)).trans (List.map_id zs)
  simp only [modify, h, List.map_append, List.map_cons, hid xs hxs, hid ys hys, if_true]

theorem erase_entries (h : m.entries = xs ++ (k, v) :: ys) (hxs : ∀ e ∈ xs, k ≠ e.1)
    (hys : ∀ e ∈ ys, k ≠ e.1) : (m.erase k).entries = xs ++ ys := by
  have hid : ∀ zs : List (κ × β), (∀ e ∈ zs, k ≠ e.1) →
      (zs.filter fun e => k ≠ e.1) = zs := fun zs hzs =>
    List.filter_eq_self.2 fun e he => by simpa using hzs e he
  simp only [erase, h, List.filter_append, List.filter_cons, hid xs hxs, hid ys hys]
  simp

theorem lookup_split (h : m.entries = xs ++ (k, v) :: ys) (hxs : ∀ e ∈ xs, k ≠ e.1) :
    m.lookup k = some v := by
  have hnone : (xs.find? fun e => k = e.1) = none :=
    List.find?_eq_none.2 fun e he => by simpa using hxs e he
  simp [lookup, h, List.find?_append, hnone]

theorem lookup_modify_self (h : m.lookup k = some v) : (m.modify k f).lookup k = some (f v) := by
  obtain ⟨xs, ys, hentries, hxs, hys⟩ := split h
  exact lookup_split (modify_entries hentries hxs hys) hxs

theorem lookup_modify_of_ne (h : k' ≠ k) : (m.modify k f).lookup k' = m.lookup k' := by
  simp only [lookup, modify, List.find?_map, Option.map_map]
  rw [comp_fst_ite k f fun x => decide (k' = x)]
  -- the entry found is one of `k'`, which `modify` leaves as it is
  refine Option.map_congr fun e he => ?_
  have hk : k' = e.1 := by simpa using List.find?_some he
  simp [← hk, h.symm]

theorem lookup_push_self (h : m.lookup k = none) : (m.push k v).lookup k = some v := by
  have hnone : (m.entries.find? fun e => k = e.1) = none := by simpa [lookup] using h
  simp [lookup, push_entries h, List.find?_append, hnone]

theorem mem_entries_iff : (k, v) ∈ m.entries ↔ m.lookup k = some v := by
  constructor
  · intro hmem
    obtain ⟨xs, ys, hentries⟩ := List.append_of_mem hmem
    refine lookup_split hentries fun e he heq => ?_
    have hnodup := m.nodup
    rw [hentries, List.map_append, List.map_cons, List.nodup_middle, List.nodup_cons] at hnodup
    exact hnodup.1 (List.mem_append_left _ (List.mem_map.2 ⟨e, he, heq.symm⟩))
  · intro h
    obtain ⟨xs, ys, hentries, -⟩ := split h
    simp [hentries]

@[simp] theorem modify_id : (m.modify k fun v => v) = m := by
  have hid : (fun e : κ × β => if k = e.1 then (e.1, e.2) else e) = id := by
    funext e
    simp
  simp only [modify, hid, List.map_id]

/-- The keys, in order of insertion. -/
def keys (m : OrderedMap κ β) : List κ := m.entries.map Prod.fst

@[simp] theorem keys_modify : (m.modify k f).keys = m.keys := map_fst_ite k f m.entries

/-! ### Frames -/

theorem others_push : (m.push k v).others k = m.others k := by
  rw [push]
  split_ifs
  · simp [others]
  · rfl

theorem others_modify : (m.modify k f).others k = m.others k := by
  simp only [others, modify, List.filter_map]
  rw [comp_fst_ite k f fun x => decide (k ≠ x)]
  refine (List.map_congr_left fun e he => ?_).trans (List.map_id _)
  exact if_neg (by simpa using List.of_mem_filter he)

/-- The value of a key is among the entries of the keys other than `k`. -/
theorem lookup_eq_of_others {m' : OrderedMap κ β} (h : m.others k = m'.others k) (hk : k' ≠ k) :
    m.lookup k' = m'.lookup k' := by
  have hfind : ∀ m : OrderedMap κ β,
      (m.others k).find? (fun e => k' = e.1) = m.entries.find? fun e => k' = e.1 := by
    intro m
    rw [others, List.find?_filter]
    congr 1
    funext e
    by_cases he : k' = e.1
    · simp [← he, hk.symm]
    · simp [he]
  rw [lookup, lookup, ← hfind m, ← hfind m', h]

theorem others_erase : (m.erase k).others k = m.others k := by
  simp [others, erase]

end OrderedMap

end UavTelemetry
