import Mathlib.Data.List.Basic

/-!
# Runs of labelled machines

Every component of this development is given its meaning as a *machine*: a state type, a label
type and a step function that answers `none` when the label is not enabled.  The steps of
interrupts, timeouts and other tasks are labels like any other, so a statement about every
interleaving is a statement about every list of labels.

## Main definitions

* `Machine S L` : a step function `S → L → Option S`.
* `Machine.run` : the state after a list of labels, if all of them are enabled in turn.
* `Machine.Reachable s₀ s` : some run leads from `s₀` to `s`.
* `Machine.AllStates Q s ls` : `Q` holds in every state visited by the run of `ls` from `s`.
* `Machine.AllSteps C s ls` : every step taken by the run of `ls` from `s` meets the condition
  `C` on the state before the step and the label.
* `Machine.AllTries C s ls` : every label tried by the run of `ls` from `s`, enabled or not, meets
  `C` in its state.
* `Machine.observe` : the machine with a history variable.

## Main results

* `Machine.Reachable.invariant` : an inductive predicate holds in every reachable state.
* `Machine.allStates_of_allSteps` : a predicate preserved by the steps that meet `C` holds along
  every run whose steps all meet `C`.
* `Machine.allSteps_of_measure` : a measure that only the steps against `C` increase.
* `Machine.allSteps_of_doomed` : a step against `C` leads to states with no way to a good end.
* `Machine.allStates_iff_allSteps` : when a step leads to a good state exactly if it meets `C`,
  the runs through good states are exactly the runs whose steps meet `C`.
-/

namespace UavTelemetry

/-- A machine with states `S` and labels `L`. -/
structure Machine (S L : Type*) where
  /-- The state after performing a label, `none` when it is not enabled. -/
  step : S → L → Option S

namespace Machine

variable {S L : Type*} (M : Machine S L)

/-- The state after performing the labels in order. -/
def run (s : S) : List L → Option S
  | [] => some s
  | l :: ls => (M.step s l).bind fun s' => run s' ls

/-- `s` is reached from `s₀` by some run. -/
def Reachable (s₀ s : S) : Prop := ∃ ls, M.run s₀ ls = some s

/-- `Q` holds in every state visited by the run of `ls` from `s`, `s` included. -/
def AllStates (Q : S → Prop) (s : S) : List L → Prop
  | [] => Q s
  | l :: ls => Q s ∧ ∀ s', M.step s l = some s' → AllStates Q s' ls

/-- Every step taken by the run of `ls` from `s` meets `C`. -/
def AllSteps (C : S → L → Prop) (s : S) : List L → Prop
  | [] => True
  | l :: ls => ∀ s', M.step s l = some s' → C s l ∧ AllSteps C s' ls

/-- Every label tried by the run of `ls` from `s` meets `C`, also one that is not enabled. -/
def AllTries (C : S → L → Prop) (s : S) : List L → Prop
  | [] => True
  | l :: ls => C s l ∧ ∀ s', M.step s l = some s' → AllTries C s' ls

/-- `AllStates` can be evaluated. -/
instance decidableAllStates (Q : S → Prop) [DecidablePred Q] :
    (s : S) → (ls : List L) → Decidable (M.AllStates Q s ls)
  | s, [] => inferInstanceAs (Decidable (Q s))
  | s, l :: ls =>
    match h : M.step s l with
    | none => decidable_of_iff (Q s) (by simp [AllStates, h])
    | some s' =>
      have := decidableAllStates Q s' ls
      decidable_of_iff (Q s ∧ M.AllStates Q s' ls) (by simp [AllStates, h])

/-- `AllSteps` can be evaluated. -/
instance decidableAllSteps (C : S → L → Prop) [∀ s l, Decidable (C s l)] :
    (s : S) → (ls : List L) → Decidable (M.AllSteps C s ls)
  | _, [] => inferInstanceAs (Decidable True)
  | s, l :: ls =>
    match h : M.step s l with
    | none => isTrue (by simp [AllSteps, h])
    | some s' =>
      have := decidableAllSteps C s' ls
      decidable_of_iff (C s l ∧ M.AllSteps C s' ls) (by simp [AllSteps, h])

variable {M}

@[simp] theorem run_nil (s : S) : M.run s [] = some s := rfl

@[simp] theorem run_cons (s : S) (l : L) (ls : List L) :
    M.run s (l :: ls) = (M.step s l).bind fun s' => M.run s' ls := rfl

theorem run_append (s : S) (ls ls' : List L) :
    M.run s (ls ++ ls') = (M.run s ls).bind fun s' => M.run s' ls' := by
  induction ls generalizing s with
  | nil => rfl
  | cons l ls ih =>
    simp only [List.cons_append, run_cons]
    cases M.step s l with
    | none => rfl
    | some s' => exact ih s'

theorem run_concat {s s' : S} {ls : List L} (h : M.run s ls = some s') (l : L) :
    M.run s (ls ++ [l]) = M.step s' l := by
  rw [run_append, h, Option.bind_some, run_cons]
  cases M.step s' l <;> rfl

theorem AllStates.head {Q : S → Prop} {s : S} {ls : List L} (h : M.AllStates Q s ls) : Q s := by
  cases ls with
  | nil => exact h
  | cons l ls => exact h.1

theorem AllStates.last {Q : S → Prop} {s s' : S} {ls : List L} (h : M.AllStates Q s ls)
    (hrun : M.run s ls = some s') : Q s' := by
  induction ls generalizing s with
  | nil =>
    cases hrun
    exact h
  | cons l ls ih =>
    obtain ⟨t, hst, hrun⟩ := Option.bind_eq_some_iff.1 hrun
    exact ih (h.2 t hst) hrun

namespace Reachable

@[refl] theorem refl (s : S) : M.Reachable s s := ⟨[], rfl⟩

theorem tail {s₀ s s' : S} {l : L} (h : M.Reachable s₀ s) (hst : M.step s l = some s') :
    M.Reachable s₀ s' := by
  obtain ⟨ls, hls⟩ := h
  exact ⟨ls ++ [l], (run_concat hls l).trans hst⟩

/-- A predicate that holds initially and is preserved by every step holds in every reachable
state. -/
theorem invariant {I : S → Prop} {s₀ s : S} (h : M.Reachable s₀ s) (h₀ : I s₀)
    (hstep : ∀ s l s', I s → M.step s l = some s' → I s') : I s := by
  obtain ⟨ls, hls⟩ := h
  induction ls generalizing s₀ with
  | nil =>
    cases hls
    exact h₀
  | cons l ls ih =>
    obtain ⟨t, hst, hls⟩ := Option.bind_eq_some_iff.1 hls
    exact ih (hstep _ _ _ h₀ hst) hls

end Reachable

/-- **Conditional invariants**: a predicate preserved by the steps that meet `C` holds in every
state of a run whose steps all meet `C`. -/
theorem allStates_of_allSteps {I : S → Prop} {C : S → L → Prop} {s : S} {ls : List L} (h₀ : I s)
    (hstep : ∀ s l s', I s → C s l → M.step s l = some s' → I s') (hC : M.AllSteps C s ls) :
    M.AllStates I s ls := by
  induction ls generalizing s with
  | nil => exact h₀
  | cons l ls ih =>
    refine ⟨h₀, fun s' hst => ?_⟩
    obtain ⟨hl, hls⟩ := hC s' hst
    exact ih (hstep s l s' h₀ hl hst) hls

theorem AllStates.mono {Q R : S → Prop} {s : S} {ls : List L} (h : M.AllStates Q s ls)
    (hQR : ∀ s, Q s → R s) : M.AllStates R s ls := by
  induction ls generalizing s with
  | nil => exact hQR s h
  | cons l ls ih => exact ⟨hQR s h.1, fun s' hst => ih (h.2 s' hst)⟩

/-- The steps of the first part of a run. -/
theorem AllSteps.left {C : S → L → Prop} {s : S} {ls ls' : List L}
    (h : M.AllSteps C s (ls ++ ls')) : M.AllSteps C s ls := by
  induction ls generalizing s with
  | nil => trivial
  | cons l ls ih => exact fun s' hst => ⟨(h s' hst).1, ih (h s' hst).2⟩

/-- The steps of the second part of a run. -/
theorem AllSteps.right {C : S → L → Prop} {s s' : S} {ls ls' : List L}
    (h : M.AllSteps C s (ls ++ ls')) (hrun : M.run s ls = some s') : M.AllSteps C s' ls' := by
  induction ls generalizing s with
  | nil =>
    cases hrun
    exact h
  | cons l ls ih =>
    obtain ⟨t, hst, hrun⟩ := Option.bind_eq_some_iff.1 hrun
    exact ih (h t hst).2 hrun

/-- Conditions that agree in the states on the way. -/
theorem allTries_congr {I : S → Prop} {C D : S → L → Prop} {s : S} {ls : List L} (hI : I s)
    (hinv : ∀ s l s', I s → M.step s l = some s' → I s') (hCD : ∀ s l, I s → (C s l ↔ D s l)) :
    M.AllTries C s ls ↔ M.AllTries D s ls := by
  induction ls generalizing s with
  | nil => exact Iff.rfl
  | cons l ls ih =>
    refine and_congr (hCD s l hI) (forall_congr' fun s' => imp_congr_right fun hst => ?_)
    exact ih (hinv s l s' hI hst)

theorem AllTries.allSteps {C : S → L → Prop} {s : S} {ls : List L} (h : M.AllTries C s ls) :
    M.AllSteps C s ls := by
  induction ls generalizing s with
  | nil => trivial
  | cons l ls ih => exact fun s' hst => ⟨h.1, ih (h.2 s' hst)⟩

/-- **Exact conditions**: if every step from a good state leads to a good state exactly when it
meets `C`, then a run from a good state stays in good states exactly when all its steps meet
`C`.  The invariant `I` is what may be assumed of the states on the way. -/
theorem allStates_iff_allSteps {I Q : S → Prop} {C : S → L → Prop} {s : S} {ls : List L}
    (hI : I s) (hQ : Q s) (hinv : ∀ s l s', I s → M.step s l = some s' → I s')
    (hstep : ∀ s l s', I s → Q s → M.step s l = some s' → (Q s' ↔ C s l)) :
    M.AllStates Q s ls ↔ M.AllSteps C s ls := by
  induction ls generalizing s with
  | nil => exact ⟨fun _ => trivial, fun _ => hQ⟩
  | cons l ls ih =>
    constructor
    · intro h s' hst
      have hs' := h.2 s' hst
      exact ⟨(hstep s l s' hI hQ hst).1 hs'.head,
        (ih (hinv s l s' hI hst) hs'.head).1 hs'⟩
    · intro h
      refine ⟨hQ, fun s' hst => ?_⟩
      obtain ⟨hl, hls⟩ := h s' hst
      exact (ih (hinv s l s' hI hst) ((hstep s l s' hI hQ hst).2 hl)).2 hls

/-- **Exact conditions, strengthened**: `Q` holds along a run exactly if the steps of the run meet
`C`, when some `J` that implies `Q` is preserved by the steps that meet `C`, and a step from `J`
that does not meet `C` breaks `Q`. -/
theorem allStates_iff_of_strengthening {J Q : S → Prop} {C : S → L → Prop} {s : S} {ls : List L}
    (h₀ : J s) (hJ : ∀ s, J s → Q s)
    (hstep : ∀ s l s', J s → C s l → M.step s l = some s' → J s')
    (hbreak : ∀ s l s', J s → ¬ C s l → M.step s l = some s' → ¬ Q s') :
    M.AllStates Q s ls ↔ M.AllSteps C s ls := by
  refine ⟨fun h => ?_, fun h => (allStates_of_allSteps h₀ hstep h).mono hJ⟩
  induction ls generalizing s with
  | nil => trivial
  | cons l ls ih =>
    intro s' hst
    have hs' := h.2 s' hst
    have hl : C s l := by
      by_contra hl
      exact hbreak s l s' h₀ hl hst hs'.head
    exact ⟨hl, ih (hstep s l s' h₀ hl hst) hs'⟩

/-- **Conditions from a measure**: if no step decreases a measure, and the steps that keep it are
those that meet `C`, then the steps of a run that ends with the measure with which it started all
meet `C`. -/
theorem allSteps_of_measure {I : S → Prop} {C : S → L → Prop} {μ : S → ℕ} {s s' : S} {ls : List L}
    (hI : I s) (hinv : ∀ s l s', I s → M.step s l = some s' → I s')
    (hstep : ∀ s l s', I s → M.step s l = some s' → μ s ≤ μ s' ∧ (μ s' = μ s → C s l))
    (hrun : M.run s ls = some s') (hsame : μ s' = μ s) : M.AllSteps C s ls := by
  have hmono : ∀ {s s' : S} {ls : List L}, I s → M.run s ls = some s' → μ s ≤ μ s' := by
    intro s s' ls hI hrun
    induction ls generalizing s with
    | nil =>
      cases hrun
      exact Nat.le_refl _
    | cons l ls ih =>
      obtain ⟨t, hst, hrun⟩ := Option.bind_eq_some_iff.1 hrun
      exact Nat.le_trans (hstep s l t hI hst).1 (ih (hinv s l t hI hst) hrun)
  induction ls generalizing s with
  | nil => trivial
  | cons l ls ih =>
    obtain ⟨t, hst, hrun⟩ := Option.bind_eq_some_iff.1 hrun
    obtain ⟨hle, hC⟩ := hstep s l t hI hst
    have hrest := hmono (hinv s l t hI hst) hrun
    -- the measure is squeezed between its equal values at both ends
    have hst_eq : μ t = μ s := Nat.le_antisymm (hsame ▸ hrest) hle
    intro u hu
    rw [hst] at hu
    cases hu
    exact ⟨hC hst_eq, ih (hinv s l t hI hst) hrun (hsame.trans hst_eq.symm)⟩

/-- A run from a doomed state that ends well passes through a bad state. -/
theorem not_allStates_of_doomed {Q D E : S → Prop} {s s' : S} {ls : List L}
    (hstep : ∀ s l s', D s → M.step s l = some s' → Q s' → D s') (hend : ∀ s, D s → ¬ E s)
    (hD : D s) (hrun : M.run s ls = some s') (hE : E s') : ¬ M.AllStates Q s ls := by
  induction ls generalizing s with
  | nil =>
    cases hrun
    exact absurd hE (hend _ hD)
  | cons l ls ih =>
    intro h
    obtain ⟨t, hst, hrun⟩ := Option.bind_eq_some_iff.1 hrun
    have ht := h.2 t hst
    exact ih (hstep s l t hD hst ht.head) hrun ht

/-- **Conditions from a doom**: if a step against `C` leads to a doomed state, from which no run
through good states ends well, then the steps of a run through good states that ends well all meet
`C`. -/
theorem allSteps_of_doomed {C : S → L → Prop} {Q D E : S → Prop} {s s' : S} {ls : List L}
    (hdoom : ∀ s l s', M.step s l = some s' → ¬ C s l → D s')
    (hstep : ∀ s l s', D s → M.step s l = some s' → Q s' → D s') (hend : ∀ s, D s → ¬ E s)
    (h : M.AllStates Q s ls) (hrun : M.run s ls = some s') (hE : E s') : M.AllSteps C s ls := by
  induction ls generalizing s with
  | nil => trivial
  | cons l ls ih =>
    obtain ⟨t, hst, hrun⟩ := Option.bind_eq_some_iff.1 hrun
    have ht := h.2 t hst
    intro u hu
    rw [hst] at hu
    cases hu
    refine ⟨?_, ih ht hrun⟩
    by_contra hl
    exact not_allStates_of_doomed hstep hend (hdoom s l t hst hl) hrun hE ht

/-! ### History variables -/

/-- The machine with a history variable, which every step updates and no step reads. -/
def observe {H : Type*} (M : Machine S L) (o : S → L → S → H → H) : Machine (S × H) L :=
  ⟨fun s l => (M.step s.1 l).map fun s' => (s', o s.1 l s' s.2)⟩

theorem observe_step {H : Type*} {o : S → L → S → H → H} {s : S × H} {l : L} {s' : S × H}
    (h : (M.observe o).step s l = some s') :
    M.step s.1 l = some s'.1 ∧ s'.2 = o s.1 l s'.1 s.2 := by
  obtain ⟨t, ht, rfl⟩ := Option.map_eq_some_iff.1 h
  exact ⟨ht, rfl⟩

/-- The history makes no difference to the states. -/
theorem allStates_observe {H : Type*} {o : S → L → S → H → H} {Q : S → Prop} {s : S} {h : H}
    {ls : List L} :
    (M.observe o).AllStates (fun p => Q p.1) (s, h) ls ↔ M.AllStates Q s ls := by
  induction ls generalizing s h with
  | nil => exact Iff.rfl
  | cons l ls ih =>
    refine and_congr Iff.rfl ⟨fun hall s' hst => ?_, fun hall p hst => ?_⟩
    · exact ih.1 (hall (s', o s l s' h) (Option.map_eq_some_iff.2 ⟨s', hst, rfl⟩))
    · obtain ⟨hst, -⟩ := observe_step hst
      exact ih.2 (hall p.1 hst)

end Machine

end UavTelemetry
