import UavTelemetry.Data.Stable

/-!
# Countdowns in one queue

Each entry `(x, t)` of a countdown queue is an item with the ticks that are left for it.  Instead
of counting every entry down, a program keeps the queue sorted and stores for each entry only the
*gap* to the one before it, so that a tick changes the first gap alone.

## Main definitions

* `elapse` : a tick for every entry.
* `Gaps gap b q` : the gaps of the items encode the ticks left in `q`, which starts at `b`.

## Main results

* `Gaps.insert`, `Gaps.remove`, `Gaps.elapse` : an insertion and a removal change one more gap, a
  tick the first one.
* `StableSort.elapse`, `StableSort.due` : a sorted queue has its due entries in front.
-/

namespace UavTelemetry

variable {α : Type*}

/-- A tick goes by for every entry. -/
def elapse (q : List (α × ℕ)) : List (α × ℕ) := q.map fun e => (e.1, e.2 - 1)

/-- The ticks left for the last entry, or `b` if there is none. -/
def lastTime (b : ℕ) : List (α × ℕ) → ℕ
  | [] => b
  | e :: q => lastTime e.2 q

/-- The gap of each item is what is left for it after the entry before it, the first after `b`. -/
def Gaps (gap : α → ℕ) : ℕ → List (α × ℕ) → Prop
  | _, [] => True
  | b, e :: q => b + gap e.1 = e.2 ∧ Gaps gap e.2 q

variable {gap gap' : α → ℕ} {b t : ℕ} {p q l : List (α × ℕ)} {x : α} {e : α × ℕ}

@[simp] theorem elapse_nil : elapse ([] : List (α × ℕ)) = [] := rfl

@[simp] theorem elapse_cons : elapse (e :: q) = (e.1, e.2 - 1) :: elapse q := rfl

@[simp] theorem map_fst_elapse : (elapse q).map Prod.fst = q.map Prod.fst := by
  simp [elapse, Function.comp_def]

@[simp] theorem lastTime_nil : lastTime b ([] : List (α × ℕ)) = b := rfl

@[simp] theorem lastTime_cons : lastTime b (e :: q) = lastTime e.2 q := rfl

/-- The items of a queue are distinct. -/
theorem ne_of_nodup_items {e' : α × ℕ} (h : ((p ++ e :: q).map Prod.fst).Nodup)
    (he : e' ∈ p ++ q) : e'.1 ≠ e.1 := by
  rw [List.map_append, List.map_cons, List.nodup_middle, List.nodup_cons, ← List.map_append] at h
  exact ne_of_mem_of_not_mem (List.mem_map_of_mem he) h.1

/-- The other entries. -/
theorem filter_item_ne [DecidableEq α] (h : ((p ++ (x, t) :: q).map Prod.fst).Nodup) :
    (p ++ (x, t) :: q).filter (fun e => e.1 ≠ x) = p ++ q := by
  have hne : ∀ e ∈ p ++ q, decide (e.1 ≠ x) = true := fun e he =>
    decide_eq_true (ne_of_nodup_items h he)
  rw [List.forall_mem_append] at hne
  rw [List.filter_append, List.filter_cons_of_neg (by simp), List.filter_eq_self.2 hne.1,
    List.filter_eq_self.2 hne.2]

theorem gaps_append : Gaps gap b (p ++ q) ↔ Gaps gap b p ∧ Gaps gap (lastTime b p) q := by
  induction p generalizing b with
  | nil => exact ⟨fun h => ⟨trivial, h⟩, And.right⟩
  | cons e p ih => simp only [List.cons_append, Gaps, ih, lastTime_cons, and_assoc]

theorem Gaps.congr (h : Gaps gap b q) (heq : ∀ e ∈ q, gap' e.1 = gap e.1) : Gaps gap' b q := by
  induction q generalizing b with
  | nil => trivial
  | cons e q ih =>
    rw [List.forall_mem_cons] at heq
    exact ⟨heq.1.symm ▸ h.1, ih h.2 heq.2⟩

theorem Gaps.le (h : Gaps gap b q) : ∀ e ∈ q, b ≤ e.2 := by
  induction q generalizing b with
  | nil => exact fun e he => nomatch he
  | cons e q ih =>
    have hle : b ≤ e.2 := h.1 ▸ Nat.le_add_right ..
    exact List.forall_mem_cons.2 ⟨hle, fun e' he' => hle.trans (ih h.2 e' he')⟩

theorem Gaps.ascending (h : Gaps gap b q) : Ascending Prod.snd q := by
  induction q generalizing b with
  | nil => exact List.Pairwise.nil
  | cons e q ih => exact List.pairwise_cons.2 ⟨h.2.le, ih h.2⟩

theorem le_lastTime {c : ℕ} (hb : b ≤ c) (h : ∀ e ∈ p, e.2 ≤ c) : lastTime b p ≤ c := by
  induction p generalizing b with
  | nil => exact hb
  | cons e p ih =>
    rw [List.forall_mem_cons] at h
    exact ih h.1 h.2

/-- **An entry is inserted**: its gap is cut from that of the next entry. -/
theorem Gaps.insert (h : Gaps gap b (p ++ q)) (hx : gap' x = t - lastTime b p)
    (hlast : lastTime b p ≤ t) (hq : ∀ e ∈ q.head?, t ≤ e.2 ∧ gap' e.1 = gap e.1 - gap' x)
    (hp : ∀ e ∈ p ++ q.tail, gap' e.1 = gap e.1) : Gaps gap' b (p ++ (x, t) :: q) := by
  obtain ⟨hleft, hright⟩ := gaps_append.1 h
  rw [List.forall_mem_append] at hp
  refine gaps_append.2 ⟨hleft.congr hp.1, ?_, ?_⟩
  · show lastTime b p + gap' x = t
    omega
  · cases q with
    | nil => trivial
    | cons e q =>
      obtain ⟨hte, hgap⟩ := hq e rfl
      refine ⟨?_, hright.2.congr hp.2⟩
      have he : lastTime b p + gap e.1 = e.2 := hright.1
      show t + gap' e.1 = e.2
      omega

/-- **An entry is removed**: the next entry takes over its gap. -/
theorem Gaps.remove (h : Gaps gap b (p ++ (x, t) :: q))
    (hq : ∀ e ∈ q.head?, gap' e.1 = gap e.1 + gap x)
    (hp : ∀ e ∈ p ++ q.tail, gap' e.1 = gap e.1) : Gaps gap' b (p ++ q) := by
  obtain ⟨hleft, hxt, hright⟩ := gaps_append.1 h
  rw [List.forall_mem_append] at hp
  refine gaps_append.2 ⟨hleft.congr hp.1, ?_⟩
  cases q with
  | nil => trivial
  | cons e q =>
    refine ⟨?_, hright.2.congr hp.2⟩
    have he : t + gap e.1 = e.2 := hright.1
    have hx : lastTime b p + gap x = t := hxt
    rw [hq e rfl]
    omega

theorem Gaps.elapse_of_pos (h : Gaps gap (b + 1) q) : Gaps gap b (elapse q) := by
  induction q generalizing b with
  | nil => trivial
  | cons e q ih =>
    have he : b + 1 + gap e.1 = e.2 := h.1
    have hpred : e.2 - 1 + 1 = e.2 := by omega
    refine ⟨?_, ih (hpred.symm ▸ h.2)⟩
    show b + gap e.1 = e.2 - 1
    omega

/-- **A tick goes by**: the first gap shrinks. -/
theorem Gaps.elapse (h : Gaps gap 0 (e :: q)) (hpos : 0 < e.2) (he : gap' e.1 = gap e.1 - 1)
    (hq : ∀ e' ∈ q, gap' e'.1 = gap e'.1) : Gaps gap' 0 (elapse (e :: q)) := by
  have hgap : 0 + gap e.1 = e.2 := h.1
  refine ⟨?_, Gaps.elapse_of_pos ?_⟩
  · show 0 + gap' e.1 = e.2 - 1
    omega
  · show Gaps gap' (e.2 - 1 + 1) q
    rw [Nat.sub_add_cancel hpos]
    exact h.2.congr hq

/-- The first entry keeps a gap when another one is inserted. -/
theorem Gaps.gap_pos (h : Gaps gap 0 (insertLast Prod.snd (x, t) (e :: q))) (he : 0 < e.2) :
    0 < gap e.1 := by
  have hcons : insertLast Prod.snd (x, t) (e :: q) =
      if t < e.2 then (x, t) :: e :: q else e :: insertLast Prod.snd (x, t) q := rfl
  rw [hcons] at h
  split at h
  · have hgap : t + gap e.1 = e.2 := h.2.1
    omega
  · have hgap : 0 + gap e.1 = e.2 := h.1
    omega

/-! ### Due entries -/

/-- A tick keeps a sorted queue sorted. -/
theorem Ascending.elapse (h : Ascending Prod.snd q) :
    Ascending Prod.snd (UavTelemetry.elapse q) :=
  List.pairwise_map.2 (h.imp fun hab => Nat.sub_le_sub_right hab 1)

/-- A tick for a sorted queue and for the entries in the order of arrival. -/
theorem StableSort.elapse (h : StableSort Prod.snd q l) (hpos : ∀ e ∈ l, 0 < e.2) :
    StableSort Prod.snd (elapse q) (elapse l) := by
  refine ⟨h.ascending.elapse, fun c => ?_⟩
  have hfilter : ∀ l : List (α × ℕ), (∀ e ∈ l, 0 < e.2) →
      (UavTelemetry.elapse l).filter (fun e => e.2 = c) =
        UavTelemetry.elapse (l.filter fun e => e.2 = c + 1) := by
    intro l hl
    simp only [UavTelemetry.elapse, List.filter_map]
    refine congrArg _ (List.filter_congr fun e he => ?_)
    have := hl e he
    exact decide_eq_decide.2 (by show e.2 - 1 = c ↔ e.2 = c + 1; omega)
  rw [hfilter q fun e he => hpos e (h.mem_iff.1 he), hfilter l hpos, h.filter_eq]

/-- The entries that are due after a tick. -/
theorem filter_elapse_due (hpos : ∀ e ∈ q, 0 < e.2) :
    (elapse q).filter (fun e => e.2 = 0) = elapse (q.filter fun e => e.2 = 1) := by
  simp only [elapse, List.filter_map]
  refine congrArg _ (List.filter_congr fun e he => ?_)
  have := hpos e he
  exact decide_eq_decide.2 (by show e.2 - 1 = 0 ↔ e.2 = 1; omega)

/-- The entries that are not due after a tick. -/
theorem filter_elapse_later (hpos : ∀ e ∈ q, 0 < e.2) :
    (elapse q).filter (fun e => e.2 ≠ 0) = elapse (q.filter fun e => e.2 ≠ 1) := by
  simp only [elapse, List.filter_map]
  refine congrArg _ (List.filter_congr fun e he => ?_)
  have := hpos e he
  exact decide_eq_decide.2 (by show e.2 - 1 ≠ 0 ↔ e.2 ≠ 1; omega)

/-- The due entries of a sorted queue are those in front. -/
theorem Ascending.takeWhile_due (h : Ascending Prod.snd q) :
    (q.takeWhile fun e => e.2 = 0) = q.filter fun e => e.2 = 0 := by
  induction q with
  | nil => rfl
  | cons e q ih =>
    obtain ⟨he, hq⟩ := List.pairwise_cons.1 h
    by_cases hz : e.2 = 0
    · rw [List.takeWhile_cons_of_pos (by simpa using hz), List.filter_cons_of_pos (by simpa using hz),
        ih hq]
    · rw [List.takeWhile_cons_of_neg (by simpa using hz), List.filter_cons_of_neg (by simpa using hz)]
      refine (List.filter_eq_nil_iff.2 fun e' he' => ?_).symm
      have := he e' he'
      simpa using (by omega : e'.2 ≠ 0)

theorem Ascending.dropWhile_due (h : Ascending Prod.snd q) :
    (q.dropWhile fun e => e.2 = 0) = q.filter fun e => e.2 ≠ 0 := by
  induction q with
  | nil => rfl
  | cons e q ih =>
    obtain ⟨he, hq⟩ := List.pairwise_cons.1 h
    by_cases hz : e.2 = 0
    · rw [List.dropWhile_cons_of_pos (by simpa using hz), List.filter_cons_of_neg (by simpa using hz),
        ih hq]
    · rw [List.dropWhile_cons_of_neg (by simpa using hz)]
      refine (List.filter_eq_self.2 (List.forall_mem_cons.2 ⟨by simpa using hz, ?_⟩)).symm
      intro e' he'
      have := he e' he'
      simpa using (by omega : e'.2 ≠ 0)

/-- The due entries, in the order of arrival. -/
theorem StableSort.due (h : StableSort Prod.snd q l) :
    (q.takeWhile fun e => e.2 = 0) = l.filter fun e => e.2 = 0 :=
  h.ascending.takeWhile_due.trans (h.filter_eq 0)

/-- The entries that are not due. -/
theorem StableSort.later (h : StableSort Prod.snd q l) :
    StableSort Prod.snd (q.dropWhile fun e => e.2 = 0) (l.filter fun e => e.2 ≠ 0) := by
  rw [h.ascending.dropWhile_due]
  exact h.filter _

end UavTelemetry
