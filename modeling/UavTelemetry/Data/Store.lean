import Mathlib.Data.List.Basic

/-!
# Stores of allocated blocks

A `Store` holds the blocks of one type that a program allocates, frees, reads and writes through
pointers.  A block that has been freed stays in the store as an empty cell, so that an address is
never given out twice and the use of a freed block is detected.

## Main definitions

* `Store.read`, `Store.alloc`, `Store.write`, `Store.free` : the operations.
* `Fault` : what ends a program early.
* `Store.deref`, `Store.update` : reading and writing through a pointer that may be null.
* `Agree` : two programs end early in the same way, or return related results.
* `Store.map` : the blocks under another view.
-/

namespace UavTelemetry

/-- The address of a block; the null pointer is `none : Option Addr`. -/
abbrev Addr := ℕ

/-- What ends a program early. -/
inductive Fault
  /-- The null pointer is dereferenced. -/
  | nullPointer
  /-- A freed block is used. -/
  | freedBlock
  /-- There is no memory for `new`. -/
  | noMemory
  /-- A loop does not end. -/
  | diverges
  /-- An array is written in front of its first or behind its last element. -/
  | outOfBounds
  deriving DecidableEq, Repr

@[simp] theorem ok_bind {ε α β : Type} (a : α) (f : α → Except ε β) :
    (Except.ok a >>= f) = f a := rfl

@[simp] theorem pure_eq_ok {ε α : Type} (a : α) : (pure a : Except ε α) = .ok a := rfl

theorem bind_eq_ok {ε α β : Type} {x : Except ε α} {f : α → Except ε β} {b : β}
    (h : (x >>= f) = .ok b) : ∃ a, x = .ok a ∧ f a = .ok b := by
  cases x with
  | error e => cases h
  | ok a => exact ⟨a, rfl, h⟩

/-- Two programs end early in the same way, or both return, with related results. -/
def Agree {α β : Type} (R : α → β → Prop) : Except Fault α → Except Fault β → Prop
  | .ok a, .ok b => R a b
  | .error e, .error f => e = f
  | _, _ => False

theorem Agree.bind {α β γ δ : Type} {R : α → β → Prop} {S : γ → δ → Prop} {x : Except Fault α}
    {y : Except Fault β} {f : α → Except Fault γ} {g : β → Except Fault δ} (h : Agree R x y)
    (hfg : ∀ a b, R a b → Agree S (f a) (g b)) : Agree S (x >>= f) (y >>= g) := by
  cases x with
  | error e =>
    cases y with
    | error e' => exact h
    | ok b => cases h
  | ok a =>
    cases y with
    | error e' => cases h
    | ok b => exact hfg a b h

/-- The blocks of type `β`. -/
structure Store (β : Type*) where
  /-- The block at each address, `none` once it has been freed. -/
  cells : List (Option β)
  deriving DecidableEq, Repr

namespace Store

variable {β : Type*}

/-- No blocks. -/
def empty : Store β := ⟨[]⟩

/-- The block at an address. -/
def read (s : Store β) (a : Addr) : Option β := s.cells[a]?.join

/-- The address of the next block. -/
def fresh (s : Store β) : Addr := s.cells.length

/-- Allocate a block at the address `fresh`. -/
def alloc (s : Store β) (v : β) : Store β := ⟨s.cells ++ [some v]⟩

/-- Overwrite a block. -/
def write (s : Store β) (a : Addr) (v : β) : Store β := ⟨s.cells.set a (some v)⟩

/-- Free a block. -/
def free (s : Store β) (a : Addr) : Store β := ⟨s.cells.set a none⟩

/-- Read through a pointer. -/
def deref (s : Store β) : Option Addr → Except Fault β
  | none => .error .nullPointer
  | some a =>
    match s.read a with
    | none => .error .freedBlock
    | some v => .ok v

/-- Change a block through a pointer. -/
def update (s : Store β) (p : Option Addr) (f : β → β) : Except Fault (Store β) :=
  match p with
  | none => .error .nullPointer
  | some a =>
    match s.read a with
    | none => .error .freedBlock
    | some v => .ok (s.write a (f v))

variable {s : Store β} {a b : Addr} {u v : β}

theorem lt_fresh_of_read (h : s.read a = some v) : a < s.fresh := by
  by_contra hlt
  rw [read, List.getElem?_eq_none (Nat.le_of_not_lt hlt)] at h
  cases h

theorem ne_fresh_of_read (h : s.read a = some v) : a ≠ s.fresh :=
  Nat.ne_of_lt (lt_fresh_of_read h)

@[simp] theorem read_fresh : s.read s.fresh = none := by
  simp [read, fresh]

@[simp] theorem read_alloc_fresh : (s.alloc v).read s.fresh = some v := by
  simp [read, alloc, fresh]

theorem read_alloc_of_read (h : s.read a = some u) : (s.alloc v).read a = some u := by
  rw [read, alloc, List.getElem?_append_left (lt_fresh_of_read h)]
  exact h

theorem read_alloc_of_lt (h : a < s.fresh) : (s.alloc v).read a = s.read a := by
  have hlt : a < s.cells.length := h
  rw [read, alloc, List.getElem?_append_left hlt]
  rfl

theorem read_write_self (h : s.read a = some u) : (s.write a v).read a = some v := by
  have hlt : a < s.cells.length := lt_fresh_of_read h
  simp [read, write, hlt]

theorem write_same (h : s.read a = some v) : s.write a v = s := by
  obtain ⟨hlt, hget⟩ := List.getElem?_eq_some_iff.1 (Option.join_eq_some_iff.1 h)
  rw [write, ← hget, List.set_getElem_self hlt]

@[simp] theorem write_write : (s.write a u).write a v = s.write a v := by simp [write]

theorem write_comm (h : a ≠ b) : (s.write a u).write b v = (s.write b v).write a u := by
  simp [write, List.set_comm _ _ h]

@[simp] theorem write_alloc_fresh : (s.alloc u).write s.fresh v = s.alloc v := by
  simp [write, alloc, fresh]

theorem read_write_of_ne (h : a ≠ b) : (s.write b v).read a = s.read a := by
  simp [read, write, List.getElem?_set_ne h.symm]

theorem read_free_of_ne (h : a ≠ b) : (s.free b).read a = s.read a := by
  simp [read, free, List.getElem?_set_ne h.symm]

theorem read_free_self : (s.free a).read a = none := by
  rw [read, free, List.getElem?_set_self']
  cases s.cells[a]? <;> rfl

@[simp] theorem fresh_alloc : (s.alloc v).fresh = s.fresh + 1 := by simp [fresh, alloc]

@[simp] theorem fresh_write : (s.write a v).fresh = s.fresh := by simp [fresh, write]

@[simp] theorem fresh_free : (s.free a).fresh = s.fresh := by simp [fresh, free]

theorem deref_of_read (h : s.read a = some v) : s.deref (some a) = .ok v := by
  simp [deref, h]

theorem read_of_deref (h : s.deref (some a) = .ok v) : s.read a = some v := by
  rw [deref] at h
  cases hread : s.read a with
  | none =>
    rw [hread] at h
    cases h
  | some u =>
    rw [hread] at h
    cases h
    rfl

theorem update_of_read (h : s.read a = some v) (f : β → β) :
    s.update (some a) f = .ok (s.write a (f v)) := by
  simp [update, h]

/-- A change through a pointer that did not fault. -/
theorem update_eq_ok {s' : Store β} {p : Option Addr} {f : β → β} (h : s.update p f = .ok s') :
    ∃ a v, p = some a ∧ s.read a = some v ∧ s' = s.write a (f v) := by
  cases p with
  | none => cases h
  | some a =>
    cases hread : s.read a with
    | none => simp [update, hread] at h
    | some v =>
      rw [update_of_read hread] at h
      exact ⟨a, v, rfl, hread, (Except.ok.inj h).symm⟩

/-! ### Other views -/

/-- The blocks, each seen through `f`. -/
def map {γ : Type*} (f : β → γ) (s : Store β) : Store γ := ⟨s.cells.map (Option.map f)⟩

section map

variable {γ : Type*} {f : β → γ}

@[simp] theorem read_map : (s.map f).read a = (s.read a).map f := by
  simp only [read, map, List.getElem?_map]
  cases s.cells[a]? with
  | none => rfl
  | some cell => cases cell <;> rfl

@[simp] theorem fresh_map : (s.map f).fresh = s.fresh := List.length_map _

theorem map_alloc : (s.alloc v).map f = (s.map f).alloc (f v) := by simp [map, alloc]

theorem map_write : (s.write a v).map f = (s.map f).write a (f v) := by
  simp [map, write, List.map_set]

theorem map_free : (s.free a).map f = (s.map f).free a := by simp [map, free, List.map_set]

end map

theorem agree_deref {β γ : Type} (s : Store β) (f : β → γ) (p : Option Addr) :
    Agree (fun v w => w = f v) (s.deref p) ((s.map f).deref p) := by
  cases p with
  | none => exact rfl
  | some a =>
    simp only [deref, read_map]
    cases s.read a <;> exact rfl

theorem agree_update {β γ : Type} (s : Store β) {f : β → γ} (p : Option Addr) {g : β → β}
    {g' : γ → γ} (h : ∀ v, g' (f v) = f (g v)) :
    Agree (fun t t' => t' = t.map f) (s.update p g) ((s.map f).update p g') := by
  cases p with
  | none => exact rfl
  | some a =>
    simp only [update, read_map]
    cases s.read a with
    | none => exact rfl
    | some v =>
      show (s.map f).write a (g' (f v)) = (s.write a (g v)).map f
      rw [h, map_write]

end Store

end UavTelemetry
