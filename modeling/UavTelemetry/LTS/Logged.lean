import Mathlib.Data.Multiset.AddSub
import UavTelemetry.LTS.Basic

/-!
# Computations with a log

A `Logged` computation leaves a log of events and either returns a value or ends early.  A
discipline that its events have to follow is a machine that reads the log: an event that the
machine does not enable is a breach.

Two disciplines are given here, of a program with one mutex and with blocks on a heap.

## Main definitions

* `Logged ε φ α` : a computation with events `ε`, faults `φ` and values `α`.
* `Machine.Ends` : the machine reads the log, and the computation returns.
* `Machine.Meets` : the machine reads the log, and what holds if the computation returns.
* `Event`, `mutex`, `heap` : locking and unlocking, the access to blocks and their release.
* `Disciplined`, `Locked` : a computation that follows the discipline of the mutex, from its start
  and from within a critical section.

## Main results

* `Machine.Ends.bind_iff` : what is left after the first part of a computation.
* `Machine.Meets.bind`, `Machine.Meets.of_only` : the rules for `Meets`.
* `Disciplined.acquire`, `Locked.bind`, `Locked.release` : the rules of a critical section.
-/

namespace UavTelemetry

/-- A computation that leaves a log of events, and returns a value or ends early. -/
structure Logged (ε φ α : Type*) where
  /-- The events, in order. -/
  log : List ε
  /-- The value returned, or the fault. -/
  result : Except φ α

namespace Logged

variable {ε φ α γ : Type*}

/-- An event. -/
def emit (e : ε) : Logged ε φ Unit := ⟨[e], .ok ()⟩

/-- A computation without events. -/
def lift (x : Except φ α) : Logged ε φ α := ⟨[], x⟩

instance : Monad (Logged ε φ) where
  pure a := ⟨[], .ok a⟩
  bind x f :=
    match x.result with
    | .ok a => ⟨x.log ++ (f a).log, (f a).result⟩
    | .error e => ⟨x.log, .error e⟩

@[simp] theorem result_pure (a : α) : (pure a : Logged ε φ α).result = .ok a := rfl

@[simp] theorem result_emit (e : ε) : (emit e : Logged ε φ Unit).result = .ok () := rfl

@[simp] theorem result_lift (x : Except φ α) : (lift x : Logged ε φ α).result = x := rfl

end Logged

open Logged

section

universe u v w

variable {ε : Type u} {φ : Type v} {α γ : Type w}

@[simp] theorem Logged.result_bind (x : Logged ε φ α) (f : α → Logged ε φ γ) :
    (x >>= f).result = x.result >>= fun a => (f a).result := by
  show (match x.result with
    | .ok a => (⟨x.log ++ (f a).log, (f a).result⟩ : Logged ε φ γ)
    | .error e => ⟨x.log, .error e⟩).result = _
  cases x.result <;> rfl

theorem Logged.bind_of_ok {x : Logged ε φ α} {a : α} (h : x.result = .ok a)
    (f : α → Logged ε φ γ) : x >>= f = ⟨x.log ++ (f a).log, (f a).result⟩ := by
  show (match x.result with
    | .ok a => (⟨x.log ++ (f a).log, (f a).result⟩ : Logged ε φ γ)
    | .error e => ⟨x.log, .error e⟩) = _
  rw [h]

theorem Logged.bind_of_error {x : Logged ε φ α} {e : φ} (h : x.result = .error e)
    (f : α → Logged ε φ γ) : x >>= f = ⟨x.log, .error e⟩ := by
  show (match x.result with
    | .ok a => (⟨x.log ++ (f a).log, (f a).result⟩ : Logged ε φ γ)
    | .error e => ⟨x.log, .error e⟩) = _
  rw [h]

/-- The log of the first part of a computation comes first. -/
theorem Logged.log_prefix_bind (x : Logged ε φ α) (f : α → Logged ε φ γ) :
    x.log <+: (x >>= f).log := by
  cases h : x.result with
  | error e => exact (bind_of_error h f).symm ▸ List.prefix_rfl
  | ok a =>
    rw [bind_of_ok h]
    exact List.prefix_append _ _

/-- All events of the computation satisfy `P`. -/
def Logged.Only (P : ε → Prop) (x : Logged ε φ α) : Prop := ∀ e ∈ x.log, P e

namespace Logged.Only

variable {P Q : ε → Prop} {x : Logged ε φ α} {f : α → Logged ε φ γ}

theorem pure (a : α) : Only P (Pure.pure a : Logged ε φ α) := by
  intro e he
  cases he

theorem emit {e : ε} (h : P e) : Only P (Logged.emit e : Logged ε φ Unit) := by
  intro e' he'
  rwa [List.mem_singleton.1 he']

theorem lift (y : Except φ α) : Only P (Logged.lift y : Logged ε φ α) := by
  intro e he
  cases he

theorem bind (hx : Only P x) (hf : ∀ a, Only P (f a)) : Only P (x >>= f) := by
  cases hresult : x.result with
  | error e =>
    rw [bind_of_error hresult]
    exact hx
  | ok a =>
    rw [bind_of_ok hresult]
    intro e he
    exact (List.mem_append.1 he).elim (hx e) (hf a e)

theorem mono (hx : Only P x) (h : ∀ e, P e → Q e) : Only Q x := fun e he => h e (hx e he)

end Logged.Only

/-! ### Disciplines -/

namespace Machine

variable {S : Type*} {M : Machine S ε} {s s₁ s₂ s' : S} {x : Logged ε φ α} {a : α}

/-- The machine reads the log of a computation that returns `a`, and ends in `s'`. -/
def Ends (M : Machine S ε) (s : S) (x : Logged ε φ α) (a : α) (s' : S) : Prop :=
  M.run s x.log = some s' ∧ x.result = .ok a

/-- The machine reads the log of a computation, and `Q` holds if the computation returns. -/
def Meets (M : Machine S ε) (s : S) (x : Logged ε φ α) (Q : α → S → Prop) : Prop :=
  ∃ s', M.run s x.log = some s' ∧ ∀ a, x.result = .ok a → Q a s'

namespace Ends

variable {f : α → Logged ε φ γ} {c : γ}

theorem pure : M.Ends s (Pure.pure a : Logged ε φ α) a s := ⟨rfl, rfl⟩

theorem lift {y : Except φ α} (h : y = .ok a) : M.Ends s (Logged.lift y) a s := ⟨rfl, h⟩

/-- What is left after the first part of a computation. -/
theorem bind_iff (h : M.Ends s x a s₁) : M.Ends s (x >>= f) c s' ↔ M.Ends s₁ (f a) c s' := by
  rw [Ends, bind_of_ok h.2, run_append, h.1]
  rfl

theorem bind (h : M.Ends s x a s₁) (h' : M.Ends s₁ (f a) c s') : M.Ends s (x >>= f) c s' :=
  h.bind_iff.2 h'

/-- The first part of a computation that returns. -/
theorem of_bind (h : M.Ends s (x >>= f) c s') : ∃ a s₁, M.Ends s x a s₁ := by
  obtain ⟨hrun, hresult⟩ := h
  cases hx : x.result with
  | error e =>
    rw [bind_of_error hx] at hresult
    cases hresult
  | ok a =>
    rw [bind_of_ok hx, run_append] at hrun
    obtain ⟨s₁, hrun₁, -⟩ := Option.bind_eq_some_iff.1 hrun
    exact ⟨a, s₁, hrun₁, hx⟩

theorem unique (h : M.Ends s x a s₁) {b : α} (h' : M.Ends s x b s₂) : a = b ∧ s₁ = s₂ :=
  ⟨Except.ok.inj (h.2.symm.trans h'.2), Option.some.inj (h.1.symm.trans h'.1)⟩

/-- A computation whose events leave the machine where it is. -/
theorem of_only {P : ε → Prop} (hx : x.Only P) (hstep : ∀ e, P e → M.step s e = some s)
    (h : x.result = .ok a) : M.Ends s x a s := by
  refine ⟨?_, h⟩
  suffices hlog : ∀ es : List ε, (∀ e ∈ es, P e) → M.run s es = some s from hlog _ hx
  intro es hes
  induction es with
  | nil => rfl
  | cons e es ih =>
    rw [List.forall_mem_cons] at hes
    rw [run_cons, hstep e hes.1]
    exact ih hes.2

end Ends

theorem ends_emit {e : ε} (h : M.step s e = some s') :
    M.Ends s (emit e : Logged ε φ Unit) () s' := by
  refine ⟨?_, rfl⟩
  rw [emit, run_cons, h]
  rfl

namespace Meets

variable {Q R : α → S → Prop} {f : α → Logged ε φ γ} {T : γ → S → Prop}

theorem pure (h : Q a s) : M.Meets s (Pure.pure a : Logged ε φ α) Q :=
  ⟨s, rfl, fun _ hresult => Except.ok.inj hresult ▸ h⟩

theorem lift (y : Except φ α) (h : ∀ a, y = .ok a → Q a s) : M.Meets s (Logged.lift y) Q :=
  ⟨s, rfl, h⟩

theorem bind (hx : M.Meets s x Q) (hf : ∀ a s₁, Q a s₁ → M.Meets s₁ (f a) T) :
    M.Meets s (x >>= f) T := by
  obtain ⟨s₁, hrun, hresult⟩ := hx
  cases hx : x.result with
  | error e =>
    rw [bind_of_error hx]
    exact ⟨s₁, hrun, fun _ herror => nomatch herror⟩
  | ok a =>
    obtain ⟨s₂, hrun₂, hresult₂⟩ := hf a s₁ (hresult a hx)
    refine ⟨s₂, ?_, ?_⟩
    · rw [bind_of_ok hx, run_append, hrun]
      exact hrun₂
    · rw [bind_of_ok hx]
      exact hresult₂

/-- A computation whose events leave the machine where it is. -/
theorem of_only {P : ε → Prop} (hx : x.Only P) (hstep : ∀ e, P e → M.step s e = some s) :
    M.Meets s x fun _ s' => s' = s := by
  have hends : M.Ends s (⟨x.log, .ok ()⟩ : Logged ε φ Unit) () s := Ends.of_only hx hstep rfl
  exact ⟨s, hends.1, fun _ _ => rfl⟩

end Meets

/-- A breach in the first part of a log. -/
theorem not_meets_of_prefix {es : List ε} {Q : α → S → Prop} (h : es <+: x.log)
    (hbreach : M.run s es = none) : ¬ M.Meets s x Q := by
  rintro ⟨s', hrun, -⟩
  obtain ⟨fs, hlog⟩ := h
  rw [← hlog, run_append, hbreach] at hrun
  cases hrun

theorem meets_emit {e : ε} (h : M.step s e = some s') :
    M.Meets s (emit e : Logged ε φ Unit) fun _ s₁ => s₁ = s' :=
  ⟨s', (ends_emit (φ := φ) h).1, fun _ _ => rfl⟩

end Machine

end

/-! ### A mutex and a heap -/

/-- What a program does with its mutex and with the blocks `β` of its heap. -/
inductive Event (β : Type*)
  /-- The mutex is locked. -/
  | acquire
  /-- The mutex is unlocked. -/
  | release
  /-- An operation works on a block. -/
  | access (b : β)
  /-- A block is allocated. -/
  | alloc (b : β)
  /-- A block is freed. -/
  | free (b : β)
  deriving DecidableEq, Repr

/-- An event other than locking and unlocking. -/
def Event.Work {β : Type*} (e : Event β) : Prop := e ≠ .acquire ∧ e ≠ .release

variable {β : Type*}

/-- A mutex that is not recursive: it is locked only when it is free, and all work on the blocks is
done while it is held. -/
def mutex : Machine Bool (Event β) where
  step held e :=
    match e, held with
    | .acquire, false => some true
    | .acquire, true => none
    | .release, true => some false
    | _, true => some true
    | _, false => none

/-- The blocks that are live: a block is allocated when it is not live, and accessed and freed when
it is. -/
def heap [DecidableEq β] : Machine (Multiset β) (Event β) where
  step live e :=
    match e with
    | .acquire | .release => some live
    | .access b => if b ∈ live then some live else none
    | .alloc b => if b ∈ live then none else some (b ::ₘ live)
    | .free b => if b ∈ live then some (live.erase b) else none

theorem mutex_work {e : Event β} (h : e.Work) : mutex.step true e = some true := by
  cases e with
  | acquire => exact absurd rfl h.1
  | release => exact absurd rfl h.2
  | _ => rfl

section

variable {φ : Type*} {α γ : Type}

/-- The computation locks the mutex only when it is free, works only while it is held, and leaves
it free. -/
def Disciplined (x : Logged (Event β) φ α) : Prop :=
  mutex.Meets false x fun _ held => held = false

/-- The computation starts with the mutex held, and leaves it free. -/
def Locked (x : Logged (Event β) φ α) : Prop := mutex.Meets true x fun _ held => held = false

variable {x : Logged (Event β) φ α} {f : α → Logged (Event β) φ γ}

namespace Disciplined

theorem pure (a : α) : Disciplined (Pure.pure a : Logged (Event β) φ α) := Machine.Meets.pure rfl

theorem lift (y : Except φ α) : Disciplined (Logged.lift y : Logged (Event β) φ α) :=
  Machine.Meets.lift y fun _ _ => rfl

theorem bind (hx : Disciplined x) (hf : ∀ a, Disciplined (f a)) : Disciplined (x >>= f) := by
  refine Machine.Meets.bind hx fun a held hfree => ?_
  subst hfree
  exact hf a

/-- A critical section begins. -/
theorem acquire {g : Unit → Logged (Event β) φ γ} (h : Locked (g ())) :
    Disciplined (emit .acquire >>= g) := by
  refine Machine.Meets.bind (Machine.meets_emit rfl) fun _ held hheld => ?_
  subst hheld
  exact h

end Disciplined

namespace Locked

theorem fault (e : φ) : Locked (Logged.lift (.error e) : Logged (Event β) φ α) :=
  Machine.Meets.lift _ fun _ herror => nomatch herror

/-- Work within a critical section. -/
theorem bind (hx : x.Only Event.Work) (hf : ∀ a, Locked (f a)) : Locked (x >>= f) := by
  refine Machine.Meets.bind (Machine.Meets.of_only hx fun _ => mutex_work) fun a held hheld => ?_
  subst hheld
  exact hf a

/-- A critical section ends. -/
theorem release {g : Unit → Logged (Event β) φ γ} (h : Disciplined (g ())) :
    Locked (emit .release >>= g) := by
  refine Machine.Meets.bind (Machine.meets_emit rfl) fun _ held hfree => ?_
  subst hfree
  exact h

end Locked

/-- A critical section within another one is a breach. -/
theorem not_disciplined_nested (h : [.acquire, .acquire] <+: x.log) : ¬ Disciplined x :=
  Machine.not_meets_of_prefix h rfl

end

section

variable {φ : Type*} [DecidableEq β] {live : Multiset β} {b : β}

theorem ends_acquire : heap.Ends live (emit .acquire : Logged (Event β) φ Unit) () live :=
  Machine.ends_emit rfl

theorem ends_release : heap.Ends live (emit .release : Logged (Event β) φ Unit) () live :=
  Machine.ends_emit rfl

theorem heap_access (h : b ∈ live) : heap.step live (.access b) = some live := if_pos h

theorem ends_access (h : b ∈ live) :
    heap.Ends live (emit (.access b) : Logged (Event β) φ Unit) () live :=
  Machine.ends_emit (heap_access h)

theorem ends_alloc (h : b ∉ live) :
    heap.Ends live (emit (.alloc b) : Logged (Event β) φ Unit) () ({b} + live) :=
  Machine.ends_emit (if_neg h)

theorem ends_free : heap.Ends ({b} + live) (emit (.free b) : Logged (Event β) φ Unit) () live := by
  refine Machine.ends_emit ?_
  rw [heap]
  simp

end

end UavTelemetry
