import UavTelemetry.LTS.Basic

/-!
# Machines that behave alike

Two machines with the same labels behave alike in related states if every label is enabled in
both or in neither and leads to related states.  A run of one is then a run of the other, and a
statement about all runs of one that the relation carries over is a statement about all runs of
the other.

## Main definitions

* `Machine.Bisimulation` : a relation between the states of two machines that every label keeps.

## Main results

* `Machine.Bisimulation.run` : runs lead to related states.
* `Machine.Bisimulation.allStates_iff`, `Machine.Bisimulation.allSteps_iff` : what holds along the
  runs of one machine holds along the runs of the other.
* `Machine.Bisimulation.observe` : history variables that read the same keep the relation.
-/

namespace UavTelemetry

namespace Machine

variable {S T L : Type*} {M : Machine S L} {N : Machine T L} {R : S → T → Prop}

/-- Every label is enabled in both of two related states or in neither, and leads to related
states. -/
def Bisimulation (M : Machine S L) (N : Machine T L) (R : S → T → Prop) : Prop :=
  ∀ s t l, R s t → Option.Rel R (M.step s l) (N.step t l)

namespace Bisimulation

theorem step_left (h : M.Bisimulation N R) {s s' : S} {t : T} {l : L} (hst : R s t)
    (hs : M.step s l = some s') : ∃ t', N.step t l = some t' ∧ R s' t' := by
  have hrel := h s t l hst
  rw [hs] at hrel
  cases ht : N.step t l with
  | none =>
    rw [ht] at hrel
    cases hrel
  | some t' =>
    rw [ht] at hrel
    cases hrel with
    | some hst' => exact ⟨t', rfl, hst'⟩

theorem symm (h : M.Bisimulation N R) : N.Bisimulation M fun t s => R s t := by
  intro t s l hst
  have hrel := h s t l hst
  cases hs : M.step s l with
  | none =>
    rw [hs] at hrel
    cases ht : N.step t l with
    | none => exact .none
    | some t' =>
      rw [ht] at hrel
      cases hrel
  | some s' =>
    obtain ⟨t', ht, hst'⟩ := h.step_left hst hs
    rw [ht]
    exact .some hst'

/-- A run of one machine is a run of the other. -/
theorem run (h : M.Bisimulation N R) {s s' : S} {t : T} {ls : List L} (hst : R s t)
    (hs : M.run s ls = some s') : ∃ t', N.run t ls = some t' ∧ R s' t' := by
  induction ls generalizing s t with
  | nil =>
    cases hs
    exact ⟨t, rfl, hst⟩
  | cons l ls ih =>
    obtain ⟨u, hu, hs⟩ := Option.bind_eq_some_iff.1 hs
    obtain ⟨v, hv, huv⟩ := h.step_left hst hu
    obtain ⟨t', ht, hst'⟩ := ih huv hs
    exact ⟨t', by rw [run_cons, hv]; exact ht, hst'⟩

theorem reachable (h : M.Bisimulation N R) {s₀ s : S} {t₀ : T} (hst : R s₀ t₀)
    (hs : M.Reachable s₀ s) : ∃ t, N.Reachable t₀ t ∧ R s t := by
  obtain ⟨ls, hls⟩ := hs
  obtain ⟨t, ht, hrel⟩ := h.run hst hls
  exact ⟨t, ⟨ls, ht⟩, hrel⟩

theorem allStates (h : M.Bisimulation N R) {P : S → Prop} {Q : T → Prop}
    (hPQ : ∀ s t, R s t → P s → Q t) {s : S} {t : T} {ls : List L} (hst : R s t)
    (hP : M.AllStates P s ls) : N.AllStates Q t ls := by
  induction ls generalizing s t with
  | nil => exact hPQ s t hst hP
  | cons l ls ih =>
    refine ⟨hPQ s t hst hP.1, fun t' ht => ?_⟩
    obtain ⟨s', hs, hst'⟩ := h.symm.step_left hst ht
    exact ih hst' (hP.2 s' hs)

/-- **Invariants carry over** along related predicates. -/
theorem allStates_iff (h : M.Bisimulation N R) {P : S → Prop} {Q : T → Prop}
    (hPQ : ∀ s t, R s t → (P s ↔ Q t)) {s : S} {t : T} {ls : List L} (hst : R s t) :
    M.AllStates P s ls ↔ N.AllStates Q t ls :=
  ⟨h.allStates (fun s t hst => (hPQ s t hst).1) hst,
    h.symm.allStates (fun t s hst => (hPQ s t hst).2) hst⟩

theorem allSteps (h : M.Bisimulation N R) {C : S → L → Prop} {D : T → L → Prop}
    (hCD : ∀ s t l, R s t → C s l → D t l) {s : S} {t : T} {ls : List L} (hst : R s t)
    (hC : M.AllSteps C s ls) : N.AllSteps D t ls := by
  induction ls generalizing s t with
  | nil => trivial
  | cons l ls ih =>
    intro t' ht
    obtain ⟨s', hs, hst'⟩ := h.symm.step_left hst ht
    obtain ⟨hl, hls⟩ := hC s' hs
    exact ⟨hCD s t l hst hl, ih hst' hls⟩

/-- **Conditions on steps carry over** along related conditions. -/
theorem allSteps_iff (h : M.Bisimulation N R) {C : S → L → Prop} {D : T → L → Prop}
    (hCD : ∀ s t l, R s t → (C s l ↔ D t l)) {s : S} {t : T} {ls : List L} (hst : R s t) :
    M.AllSteps C s ls ↔ N.AllSteps D t ls :=
  ⟨h.allSteps (fun s t l hst => (hCD s t l hst).1) hst,
    h.symm.allSteps (fun t s l hst => (hCD s t l hst).2) hst⟩

/-- History variables that are updated alike keep the relation. -/
theorem observe {H : Type*} (h : M.Bisimulation N R) {o : S → L → S → H → H}
    {p : T → L → T → H → H}
    (hop : ∀ s t l s' t', R s t → R s' t' → o s l s' = p t l t') :
    (M.observe o).Bisimulation (N.observe p) fun s t => R s.1 t.1 ∧ s.2 = t.2 := by
  rintro ⟨s, x⟩ ⟨t, y⟩ l ⟨hst, hxy⟩
  cases hxy
  have hrel := h s t l hst
  unfold Machine.observe
  cases hs : M.step s l with
  | none =>
    rw [hs] at hrel
    cases ht : N.step t l with
    | none => simp only [hs, ht, Option.map_none, Option.Rel.none]
    | some t' =>
      rw [ht] at hrel
      cases hrel
  | some s' =>
    obtain ⟨t', ht, hst'⟩ := h.step_left hst hs
    simp only [hs, ht, Option.map_some]
    exact .some ⟨hst', by rw [hop s t l s' t' hst hst']⟩

end Bisimulation

end Machine

end UavTelemetry
