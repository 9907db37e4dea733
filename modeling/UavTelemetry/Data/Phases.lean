import Mathlib.Data.List.Chain
import Mathlib.Data.Nat.Basic

/-!
# Phases of a sequence

A *phase* of a sequence is a longest stretch on which it is constant.  A device that goes through
its states in time keeps a rhythm: every phase lasts as long as its state demands.

## Main definitions

* `Begins f i` : a phase of `f` begins at `i`.
* `phases f x n` : how many phases with the value `x` begin before `n`.
* `KeepTime f d N` : up to `N`, every phase lasts as long as `d` demands for its value.
* `Countdown f d left N` : up to `N`, `left` counts what is left of every phase.
* `Blocks f a bs` : from `a` on, the sequence runs through blocks of given values and lengths.

## Main results

* `Countdown.keepTime` : a sequence with a countdown keeps time.
* `keepTime_iff_of_blocks` : a sequence keeps time until a block that is too long.
-/

namespace UavTelemetry

variable {α : Type*} {f : ℕ → α} {d : α → ℕ}

/-- A phase of the sequence begins. -/
def Begins (f : ℕ → α) (i : ℕ) : Prop := i = 0 ∨ f (i - 1) ≠ f i

instance [DecidableEq α] (f : ℕ → α) (i : ℕ) : Decidable (Begins f i) :=
  inferInstanceAs (Decidable (_ ∨ _))

@[simp] theorem begins_zero (f : ℕ → α) : Begins f 0 := Or.inl rfl

@[simp] theorem begins_succ (f : ℕ → α) (i : ℕ) : Begins f (i + 1) ↔ f i ≠ f (i + 1) := by
  simp [Begins]

/-! ### Counting phases -/

/-- The number of phases with the value `x` that begin before `n`. -/
def phases [DecidableEq α] (f : ℕ → α) (x : α) : ℕ → ℕ
  | 0 => 0
  | n + 1 => phases f x n + if Begins f n ∧ f n = x then 1 else 0

section Count

variable [DecidableEq α]

@[simp] theorem phases_zero (f : ℕ → α) (x : α) : phases f x 0 = 0 := rfl

theorem phases_succ (f : ℕ → α) (x : α) (n : ℕ) :
    phases f x (n + 1) = phases f x n + if Begins f n ∧ f n = x then 1 else 0 := rfl

theorem phases_succ_of_begins {i : ℕ} (h : Begins f i) (x : α) :
    phases f x (i + 1) = phases f x i + if f i = x then 1 else 0 := by
  simp [phases_succ, h]

theorem phases_succ_of_not_begins {i : ℕ} (h : ¬ Begins f i) (x : α) :
    phases f x (i + 1) = phases f x i := by
  simp [phases_succ, h]

/-- A sequence that leaves a value at once has one phase with it. -/
theorem phases_le_one {x : α} {n : ℕ} (h : ∀ i, 0 < i → i < n → f i ≠ x) : phases f x n ≤ 1 := by
  induction n with
  | zero => exact Nat.zero_le 1
  | succ n ih =>
    rw [phases_succ]
    rcases Nat.eq_zero_or_pos n with rfl | hn
    · rw [phases_zero]
      split_ifs <;> simp
    · have hne : ¬ (Begins f n ∧ f n = x) := fun hx => h n hn (Nat.lt_succ_self n) hx.2
      rw [if_neg hne]
      exact ih fun i hi hin => h i hi (Nat.lt_succ_of_lt hin)

end Count

/-! ### Keeping time -/

/-- From `a` to `N`, every phase that begins lasts as long as `d` demands for its value: it goes
on until then, and ends then. -/
def KeepTimeFrom (f : ℕ → α) (d : α → ℕ) (a N : ℕ) : Prop :=
  ∀ i, a ≤ i → Begins f i →
    (∀ k, k < d (f i) → i + k ≤ N → f (i + k) = f i) ∧
      (i + d (f i) ≤ N → f (i + d (f i)) ≠ f i)

/-- Up to `N`, every phase lasts as long as `d` demands for its value. -/
def KeepTime (f : ℕ → α) (d : α → ℕ) (N : ℕ) : Prop := KeepTimeFrom f d 0 N

/-- What is left of every phase is counted down. -/
structure Countdown (f : ℕ → α) (d : α → ℕ) (left : ℕ → ℕ) : Prop where
  /-- The first phase has its full length before it. -/
  start : left 0 = d (f 0)
  /-- Something is left. -/
  pos : ∀ n, 0 < left n
  /-- A phase goes on while more than one is left. -/
  goes : ∀ n, 1 < left n → f (n + 1) = f n ∧ left (n + 1) + 1 = left n
  /-- Then a phase with another value begins, with its full length before it. -/
  ends : ∀ n, left n = 1 → f (n + 1) ≠ f n ∧ left (n + 1) = d (f (n + 1))

namespace Countdown

variable {left : ℕ → ℕ}

theorem left_of_begins (h : Countdown f d left) {i : ℕ} (hi : Begins f i) :
    left i = d (f i) := by
  cases i with
  | zero => exact h.start
  | succ i =>
    rw [begins_succ] at hi
    rcases Nat.lt_or_ge 1 (left i) with hmore | hlast
    · exact absurd (h.goes i hmore).1.symm hi
    · exact (h.ends i (Nat.le_antisymm hlast (h.pos i))).2

theorem during (h : Countdown f d left) {i k : ℕ} (hi : Begins f i) (hk : k < d (f i)) :
    f (i + k) = f i ∧ left (i + k) + k = d (f i) := by
  induction k with
  | zero => exact ⟨rfl, h.left_of_begins hi⟩
  | succ k ih =>
    obtain ⟨hval, hleft⟩ := ih (Nat.lt_of_succ_lt hk)
    obtain ⟨hval', hleft'⟩ := h.goes (i + k) (by omega)
    refine ⟨hval'.trans hval, ?_⟩
    show left (i + k + 1) + (k + 1) = d (f i)
    omega

/-- **A sequence with a countdown keeps time.** -/
theorem keepTime (h : Countdown f d left) (N : ℕ) : KeepTime f d N := by
  intro i _ hi
  refine ⟨fun k hk _ => (h.during hi hk).1, fun _ => ?_⟩
  have hpos : 0 < d (f i) := h.left_of_begins hi ▸ h.pos i
  obtain ⟨k, hk⟩ := Nat.exists_eq_succ_of_ne_zero hpos.ne'
  -- one is left on the last tick of the phase
  obtain ⟨hval, hleft⟩ := h.during hi (k := k) (by omega)
  rw [hk, ← hval]
  exact (h.ends (i + k) (by omega)).1

end Countdown

/-- From `a` on, the sequence runs through blocks of given values and lengths. -/
def Blocks (f : ℕ → α) (a : ℕ) : List (α × ℕ) → Prop
  | [] => True
  | (x, l) :: bs => (∀ i, i < l → f (a + i) = x) ∧ Blocks f (a + l) bs

/-- The length of the blocks. -/
def totalLength : List (α × ℕ) → ℕ
  | [] => 0
  | (_, l) :: bs => l + totalLength bs

/-- No phase begins within a block. -/
theorem eq_of_begins {a l i : ℕ} {x : α} (hblock : ∀ i, i < l → f (a + i) = x) (hi : Begins f i)
    (hle : a ≤ i) (hlt : i < a + l) : i = a := by
  obtain ⟨k, rfl⟩ := Nat.exists_eq_add_of_le hle
  cases k with
  | zero => rfl
  | succ k =>
    rw [← Nat.add_assoc, begins_succ, hblock k (by omega), Nat.add_assoc,
      hblock (k + 1) (by omega)] at hi
    exact absurd rfl hi

/-- A block that is too long. -/
theorem keepTimeFrom_iff_of_block {a l N : ℕ} {x : α} (hblock : ∀ i, i < l → f (a + i) = x)
    (hpos : 0 < d x) (hlong : d x < l) (hbegins : Begins f a) :
    KeepTimeFrom f d a N ↔ N < a + d x := by
  have hval : f a = x := hblock 0 (by omega)
  constructor
  · intro h
    by_contra hN
    obtain ⟨-, hends⟩ := h a (Nat.le_refl a) hbegins
    rw [hval] at hends
    exact hends (Nat.not_lt.1 hN) (hblock _ hlong)
  · intro hN i hi hbegins'
    rcases Nat.lt_or_ge N i with hout | hin
    · exact ⟨fun k _ hk => by omega, fun hk => by omega⟩
    · obtain rfl := eq_of_begins hblock hbegins' hi (by omega)
      rw [hval]
      exact ⟨fun k hk _ => hblock k (by omega), fun hk => by omega⟩

/-- A block of the right length, with another value behind it. -/
theorem keepTimeFrom_block_iff {a l N : ℕ} {x : α} (hblock : ∀ i, i < l → f (a + i) = x)
    (hpos : 0 < l) (hlength : d x = l) (hnext : f (a + l) ≠ x) :
    KeepTimeFrom f d a N ↔ KeepTimeFrom f d (a + l) N := by
  have hval : f a = x := hblock 0 hpos
  constructor
  · exact fun h i hi => h i (by omega)
  · intro h i hi hbegins
    rcases Nat.lt_or_ge i (a + l) with hin | hout
    · obtain rfl := eq_of_begins hblock hbegins hi hin
      rw [hval, hlength]
      exact ⟨fun k hk _ => hblock k hk, fun _ => hnext⟩
    · exact h i hout hbegins

/-- **A sequence keeps time until a block that is too long.**  The blocks `bs` have the right
lengths, and `(x, l)` behind them has not. -/
theorem keepTimeFrom_iff_of_blocks {a l N : ℕ} {x : α} {bs : List (α × ℕ)}
    (hblocks : Blocks f a (bs ++ [(x, l)])) (hlengths : ∀ b ∈ bs, 0 < b.2 ∧ d b.1 = b.2)
    (hchain : ((bs ++ [(x, l)]).map Prod.fst).IsChain (· ≠ ·)) (hpos : 0 < d x) (hlong : d x < l)
    (hbegins : Begins f a) : KeepTimeFrom f d a N ↔ N < a + totalLength bs + d x := by
  induction bs generalizing a with
  | nil => exact keepTimeFrom_iff_of_block hblocks.1 hpos hlong hbegins
  | cons b bs ih =>
    obtain ⟨y, m⟩ := b
    obtain ⟨hblock, hrest⟩ := hblocks
    obtain ⟨hm, hd⟩ := hlengths (y, m) List.mem_cons_self
    -- the block behind has another value
    have hnext : f (a + m) ≠ y := by
      cases bs with
      | nil =>
        have hx : f (a + m) = x := hrest.1 0 (by omega)
        rw [hx]
        simpa [eq_comm] using hchain
      | cons b' bs =>
        have hb' : f (a + m) = b'.1 := hrest.1 0 (hlengths b' (by simp)).1
        rw [hb']
        have hne := (List.isChain_cons_cons.1 hchain).1
        exact fun h => hne h.symm
    have hbegins' : Begins f (a + m) := by
      obtain ⟨k, rfl⟩ := Nat.exists_eq_succ_of_ne_zero hm.ne'
      have hlast : f (a + k) = y := hblock k (Nat.lt_succ_self k)
      rw [Nat.add_succ, begins_succ, hlast]
      exact fun h => hnext h.symm
    rw [keepTimeFrom_block_iff hblock hm hd hnext,
      ih hrest (fun b hb => hlengths b (List.mem_cons_of_mem _ hb)) hchain.tail hbegins',
      totalLength]
    omega

theorem keepTime_iff_of_blocks {l N : ℕ} {x : α} {bs : List (α × ℕ)}
    (hblocks : Blocks f 0 (bs ++ [(x, l)])) (hlengths : ∀ b ∈ bs, 0 < b.2 ∧ d b.1 = b.2)
    (hchain : ((bs ++ [(x, l)]).map Prod.fst).IsChain (· ≠ ·)) (hpos : 0 < d x) (hlong : d x < l) :
    KeepTime f d N ↔ N < totalLength bs + d x := by
  have h := keepTimeFrom_iff_of_blocks (N := N) hblocks hlengths hchain hpos hlong (begins_zero f)
  rwa [Nat.zero_add] at h

end UavTelemetry
