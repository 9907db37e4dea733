import Mathlib.Data.Fintype.Basic
import Mathlib.Order.OrderDual
import UavTelemetry.Data.Path
import UavTelemetry.Data.Stable
import UavTelemetry.Rtx.Event

/-!
# Ready and waiting lists of the kernel

The kernel chains the control blocks of the tasks that are ready, and of those that wait for a
semaphore, a mailbox or a mutex, in lists ordered by priority.  All lists share the link field
`p_lnk` of the control blocks, so a task is in one of them at most; the waiting lists also have
links back (`p_rlnk`), by which the kernel tells that a task waits in one.  This file translates
the list functions (`rt_List.c`) down to the pointers and shows that they keep a family of
priority queues.

## Main definitions

* `Cb` : the control blocks with a link `p_lnk`.
* `Links` : the links, each field on its own.
* `Links.rtPutPrio`, `Links.rtGetFirst`, `Links.rtPutRdyFirst`, `Links.rtGetSameRdyPrio`,
  `Links.rtRmvList`, `Links.rtResortPrio` : the list functions.
* `Links.Rep l q` : the links represent the lists `q`.

## Main results

* `Links.Rep.rtPutPrio` and the lemmas after it : each function does to the lists what its name
  says.
-/

namespace UavTelemetry

namespace Rtx

/-- The control blocks that hold a link `p_lnk`: the head of the ready list, the control block of a
semaphore, mailbox or mutex, and the control block of a task. -/
inductive Cb (τ ω : Type)
  | rdy
  | obj (o : ω)
  | tcb (t : τ)
  deriving DecidableEq, Repr

namespace Cb

variable {τ ω : Type}

/-- The head of the ready list (`none`) or of the waiting list of an object. -/
def head : Option ω → Cb τ ω
  | none => .rdy
  | some o => .obj o

/-- The type of the control block is `SCB`, `MCB` or `MUCB`. -/
def semMbx : Cb τ ω → Bool
  | .obj _ => true
  | _ => false

theorem tcb_injective : Function.Injective (Cb.tcb : τ → Cb τ ω) := fun _ _ h => Cb.tcb.inj h

theorem head_injective : Function.Injective (head : Option ω → Cb τ ω) := by
  intro h h' heq
  cases h <;> cases h' <;> cases heq <;> rfl

@[simp] theorem head_ne_tcb (h : Option ω) (t : τ) : head h ≠ .tcb t := by
  cases h <;> nofun

end Cb

/-- The links of the control blocks. -/
structure Links (τ ω : Type) where
  /-- `p_lnk`. -/
  lnk : Cb τ ω → Option τ
  /-- `p_rlnk`. -/
  rlnk : τ → Option (Cb τ ω)

/-- The order of the lists: tasks of a higher priority come first. -/
def rank {τ : Type} (prio : τ → ℕ) (t : τ) : ℕᵒᵈ := OrderDual.toDual (prio t)

namespace Links

variable {τ ω : Type} [DecidableEq τ] [DecidableEq ω]

/-- The end of `rt_put_prio`: the task is chained behind `pCb`, in a list with links back if
`semMbx`. -/
def chainBehind (l : Links τ ω) (semMbx : Bool) (t : τ) (pCb : Cb τ ω) : Links τ ω :=
  { lnk := Function.update (Function.update l.lnk (.tcb t) (l.lnk pCb)) pCb (some t)
    rlnk :=
      if semMbx then
        Function.update (relink l.rlnk (l.lnk pCb) (some (.tcb t))) t (some pCb)
      else Function.update l.rlnk t none }

/-- `rt_put_prio`: put the task into the list ordered by priority. -/
def rtPutPrio [Fintype τ] (l : Links τ ω) (prio : τ → ℕ) (pCb : Cb τ ω) (t : τ) :
    Except Fault (Links τ ω) :=
  (walk Cb.tcb l.lnk (passWhile fun p => prio t ≤ prio p) (Fintype.card τ + 1) () pCb).map
    fun r => l.chainBehind pCb.semMbx t r.2

/-- How a task enters the waiting list of an object: the first one is chained directly. -/
def chainIn [Fintype τ] (l : Links τ ω) (prio : τ → ℕ) (o : ω) (t : τ) :
    Except Fault (Links τ ω) :=
  if l.lnk (.obj o) ≠ none then l.rtPutPrio prio (.obj o) t
  else
    .ok
      { lnk := Function.update (Function.update l.lnk (.obj o) (some t)) (.tcb t) none
        rlnk := Function.update l.rlnk t (some (.obj o)) }

/-- `rt_get_first`: get the task at the head of the list. -/
def rtGetFirst (l : Links τ ω) (pCb : Cb τ ω) : Except Fault (τ × Links τ ω) :=
  match l.lnk pCb with
  | none => .error .nullPointer
  | some first =>
    let p := l.lnk (.tcb first)
    .ok (first,
      { lnk := Function.update (Function.update l.lnk pCb p) (.tcb first) none
        rlnk :=
          if pCb.semMbx then Function.update (relink l.rlnk p (some pCb)) first none
          else l.rlnk })

/-- `rt_put_rdy_first`: put the task at the head of the ready list. -/
def rtPutRdyFirst (l : Links τ ω) (t : τ) : Links τ ω :=
  { lnk := Function.update (Function.update l.lnk (.tcb t) (l.lnk .rdy)) .rdy (some t)
    rlnk := Function.update l.rlnk t none }

/-- `rt_get_same_rdy_prio`: remove a task with the priority `runPrio` from the ready list, if its
first task has it. -/
def rtGetSameRdyPrio (l : Links τ ω) (prio : τ → ℕ) (runPrio : ℕ) :
    Except Fault (Option τ × Links τ ω) :=
  match l.lnk .rdy with
  | none => .error .nullPointer
  | some first =>
    if prio first = runPrio then
      .ok (some first, { l with lnk := Function.update l.lnk .rdy (l.lnk (.tcb first)) })
    else .ok (none, l)

/-- `rt_rmv_list`: remove the task from the ready or waiting list if it is in one. -/
def rtRmvList [Fintype τ] (l : Links τ ω) (t : τ) : Except Fault (Links τ ω) :=
  match l.rlnk t with
  | some pCb =>
    .ok
      { lnk := Function.update l.lnk pCb (l.lnk (.tcb t))
        rlnk := relink l.rlnk (l.lnk (.tcb t)) (l.rlnk t) }
  | none =>
    (walk Cb.tcb l.lnk (upTo t) (Fintype.card τ + 1) () .rdy).map fun r =>
      if l.lnk r.2 = some t then { l with lnk := Function.update l.lnk r.2 (l.lnk (.tcb t)) } else l

/-- How `rt_dec_dly` removes a task from the waiting list of an object, if it is in one. -/
def rmvWaiting (l : Links τ ω) (t : τ) : Links τ ω :=
  match l.rlnk t with
  | none => l
  | some pCb =>
    let p := l.lnk (.tcb t)
    { lnk := Function.update (Function.update l.lnk pCb p) (.tcb t) none
      rlnk := Function.update (relink l.rlnk p (some pCb)) t none }

/-- The loop of `rt_resort_prio`: find the header of the list in which a task waits. -/
def findHeader (l : Links τ ω) : ℕ → Cb τ ω → Except Fault (Cb τ ω)
  | 0, _ => .error .diverges
  | fuel + 1, .tcb t =>
    match l.rlnk t with
    | none => .error .nullPointer
    | some pCb => findHeader l fuel pCb
  | _ + 1, pCb => .ok pCb

/-- `rt_resort_prio`: re-sort the lists after the priority of the task has changed. -/
def rtResortPrio [Fintype τ] (l : Links τ ω) (prio : τ → ℕ) (isReady : Bool) (t : τ) :
    Except Fault (Links τ ω) :=
  match l.rlnk t with
  | none =>
    if isReady then do
      let l ← l.rtRmvList t
      l.rtPutPrio prio .rdy t
    else .ok l
  | some pCb => do
    let pCb ← l.findHeader (Fintype.card τ + 1) pCb
    let l ← l.rtRmvList t
    l.rtPutPrio prio pCb t

/-- The links represent the ready list `q none` and the waiting lists `q (some o)`. -/
structure Rep (l : Links τ ω) (q : Option ω → List τ) : Prop where
  path : ∀ h, Path Cb.tcb l.lnk (Cb.head h) (q h) none
  back : ∀ o, Back Cb.tcb l.rlnk (Cb.obj o) (q (some o))
  /-- A task has a link back only while it waits. -/
  free : ∀ t, (∀ o, t ∉ q (some o)) → l.rlnk t = none
  /-- A task is in one list at most. -/
  unique : ∀ t h h', t ∈ q h → t ∈ q h' → h = h'

namespace Rep

variable {l l' : Links τ ω} {q : Option ω → List τ} {prio : τ → ℕ} {hd : Option ω} {t : τ}
  {xs ys : List τ}

/-- **An edit of one list**: the links of the tasks in it, of one more task and of the header may
change, the other lists stay as they are. -/
theorem edit (h : l.Rep q) (ht : ∀ h', h' ≠ hd → t ∉ q h') (hsub : ∀ x ∈ xs, x ∈ t :: q hd)
    (hpath : Path Cb.tcb l'.lnk (Cb.head hd) xs none)
    (hback : ∀ o, hd = some o → Back Cb.tcb l'.rlnk (Cb.obj o) xs)
    (hlnk : ∀ c, c ∉ Cb.head hd :: (t :: q hd).map Cb.tcb → l'.lnk c = l.lnk c)
    (hrlnk : ∀ x, x ∉ t :: q hd → l'.rlnk x = l.rlnk x)
    (hfree : ∀ x ∈ t :: q hd, (∀ o, hd = some o → x ∉ xs) → l'.rlnk x = none) :
    l'.Rep (Function.update q hd xs) := by
  have hdisj : ∀ h', h' ≠ hd → ∀ x ∈ q h', x ∉ t :: q hd := by
    intro h' hne x hx hmem
    obtain rfl | hmem := List.mem_cons.1 hmem
    · exact ht h' hne hx
    · exact hne (h.unique x h' hd hx hmem)
  refine ⟨fun h' => ?_, fun o => ?_, fun x hx => ?_, fun x h₁ h₂ hx₁ hx₂ => ?_⟩
  · by_cases hne : h' = hd
    · subst hne
      rwa [Function.update_self]
    · rw [Function.update_of_ne hne]
      refine (h.path h').congr fun c hc => hlnk c fun hmem => ?_
      rw [List.mem_cons, List.mem_map] at hc hmem
      rcases hc with rfl | ⟨x, hx, rfl⟩
      · obtain heq | ⟨y, -, heq⟩ := hmem
        · exact hne (Cb.head_injective heq)
        · exact Cb.head_ne_tcb _ _ heq.symm
      · obtain heq | ⟨y, hy, heq⟩ := hmem
        · exact Cb.head_ne_tcb _ _ heq.symm
        · exact hdisj h' hne x hx (Cb.tcb_injective heq ▸ hy)
  · by_cases hne : some o = hd
    · subst hne
      rw [Function.update_self]
      exact hback o rfl
    · rw [Function.update_of_ne hne]
      exact (h.back o).congr fun x hx => hrlnk x (hdisj _ hne x hx)
  · by_cases hmem : x ∈ t :: q hd
    · refine hfree x hmem fun o ho hxs => ?_
      have := hx o
      rw [ho, Function.update_self] at this
      exact this hxs
    · rw [hrlnk x hmem]
      refine h.free x fun o ho => ?_
      by_cases hne : some o = hd
      · exact hmem (List.mem_cons_of_mem _ (hne ▸ ho))
      · have := hx o
        rw [Function.update_of_ne hne] at this
        exact this ho
  · by_cases hne₁ : h₁ = hd
    · by_cases hne₂ : h₂ = hd
      · exact hne₁.trans hne₂.symm
      · subst hne₁
        rw [Function.update_self] at hx₁
        rw [Function.update_of_ne hne₂] at hx₂
        exact absurd (hsub x hx₁) (hdisj h₂ hne₂ x hx₂)
    · rw [Function.update_of_ne hne₁] at hx₁
      by_cases hne₂ : h₂ = hd
      · subst hne₂
        rw [Function.update_self] at hx₂
        exact absurd (hsub x hx₂) (hdisj h₁ hne₁ x hx₁)
      · rw [Function.update_of_ne hne₂] at hx₂
        exact h.unique x h₁ h₂ hx₁ hx₂

omit [DecidableEq τ] [DecidableEq ω] in
theorem nodup (h : l.Rep q) (hd : Option ω) : (q hd).Nodup := (h.path hd).nodup_nodes

omit [DecidableEq τ] [DecidableEq ω] in
theorem cell_notMem (ht : t ∉ xs) : (Cb.tcb t : Cb τ ω) ∉ Cb.head hd :: xs.map Cb.tcb := by
  rw [List.mem_cons, List.mem_map]
  rintro (heq | ⟨x, hx, heq⟩)
  · exact Cb.head_ne_tcb _ _ heq.symm
  · exact ht (Cb.tcb_injective heq ▸ hx)

/-- A task is chained into a list in front of `ys`. -/
theorem chainBehind (h : l.Rep q) (ht : ∀ h', t ∉ q h') (hq : q hd = xs ++ ys) :
    (l.chainBehind (Cb.head hd : Cb τ ω).semMbx t (lastCell Cb.tcb (Cb.head hd) xs)).Rep
      (Function.update q hd (xs ++ t :: ys)) := by
  have hpath := h.path hd
  have hnodup := h.nodup hd
  have htq := ht hd
  rw [hq] at hpath hnodup htq
  have hcell : lastCell Cb.tcb (Cb.head hd) xs ∈ Cb.head hd :: (t :: q hd).map Cb.tcb := by
    have : lastCell Cb.tcb (Cb.head hd) xs ∈ Cb.head hd :: xs.map Cb.tcb := lastCell_mem
    rw [hq]
    simp only [List.mem_cons, List.map_cons, List.map_append, List.mem_append] at this ⊢
    tauto
  have hnext := hpath.next_lastCell
  refine h.edit (fun h' _ => ht h') (fun x hx => ?_) (hpath.insert (cell_notMem htq)) ?_
    (fun c hc => ?_) (fun x hx => ?_) fun x hx hfree => ?_
  · rw [hq]
    simp only [List.mem_cons, List.mem_append] at hx ⊢
    tauto
  · rintro o rfl
    have hback := h.back o
    rw [hq] at hback
    simp only [Links.chainBehind, Cb.head, Cb.semMbx, if_true] at hnext ⊢
    rw [hnext]
    exact hback.insert hnodup htq
  · have hne : c ≠ .tcb t := fun heq => hc (heq ▸ by simp)
    exact (Function.update_of_ne (ne_of_mem_of_not_mem hcell hc).symm ..).trans
      (Function.update_of_ne hne ..)
  · rw [hq, List.mem_cons, List.mem_append, not_or, not_or] at hx
    simp only [Links.chainBehind, hnext]
    split
    · rw [Function.update_of_ne hx.1, relink_of_ne]
      rintro heq
      cases ys with
      | nil => cases heq
      | cons y ys => exact hx.2.2 (Option.some.inj heq ▸ List.mem_cons_self)
    · exact Function.update_of_ne hx.1 ..
  · cases hd with
    | some o =>
      have hx' := hfree o rfl
      rw [hq] at hx
      simp only [List.mem_cons, List.mem_append] at hx hx'
      tauto
    | none =>
      show Function.update l.rlnk t none x = none
      obtain rfl | hx := List.mem_cons.1 hx
      · exact Function.update_self ..
      · rw [Function.update_of_ne (ne_of_mem_of_not_mem hx (ht none))]
        exact h.free x fun o ho => nomatch h.unique x _ _ hx ho

omit [DecidableEq τ] [DecidableEq ω] in
theorem length_lt [Fintype τ] (h : l.Rep q) (hd : Option ω) :
    (q hd).length < Fintype.card τ + 1 := Nat.lt_succ_of_le (h.path hd).length_le

/-- **`rt_put_prio` inserts a task behind the tasks of its priority.** -/
theorem rtPutPrio [Fintype τ] (h : l.Rep q) (prio : τ → ℕ) (hd : Option ω) (ht : ∀ h', t ∉ q h') :
    ∃ l', l.rtPutPrio prio (Cb.head hd) t = .ok l' ∧
      l'.Rep (Function.update q hd (insertLast (rank prio) t (q hd))) := by
  have hwalk := walk_eq (passWhile fun p => prio t ≤ prio p) () (h.path hd)
    (h.length_lt hd)
  rw [passed_passWhile] at hwalk
  have hins : insertLast (rank prio) t (q hd) =
    ((q hd).takeWhile fun p => prio t ≤ prio p) ++
      t :: (q hd).dropWhile fun p => prio t ≤ prio p := insertLast_eq
  refine ⟨_, by rw [Links.rtPutPrio, hwalk]; rfl, ?_⟩
  rw [hins]
  exact h.chainBehind ht List.takeWhile_append_dropWhile.symm

/-- A task enters a waiting list. -/
theorem chainIn [Fintype τ] (h : l.Rep q) (prio : τ → ℕ) (o : ω) (ht : ∀ h', t ∉ q h') :
    ∃ l', l.chainIn prio o t = .ok l' ∧
      l'.Rep (Function.update q (some o) (insertLast (rank prio) t (q (some o)))) := by
  by_cases hlnk : l.lnk (.obj o) = none
  · have hnil : q (some o) = [] := (h.path (some o)).unique hlnk
    -- the direct way does what chaining behind the header does
    have hsame : l.chainBehind true t (.obj o) =
        { lnk := Function.update (Function.update l.lnk (.obj o) (some t)) (.tcb t) none
          rlnk := Function.update l.rlnk t (some (.obj o)) } := by
      rw [Links.chainBehind, hlnk, Function.update_comm (by simp)]
      rfl
    refine ⟨l.chainBehind true t (.obj o), by rw [Links.chainIn, if_neg (by simpa using hlnk), hsame],
      ?_⟩
    rw [hnil]
    exact h.chainBehind ht (show q (some o) = [] ++ [] from hnil)
  · rw [Links.chainIn, if_pos hlnk]
    exact h.rtPutPrio prio (some o) ht

omit [DecidableEq τ] [DecidableEq ω] in
theorem rlnk_of_ready (h : l.Rep q) (ht : t ∈ q none) : l.rlnk t = none :=
  h.free t fun _ ho => nomatch h.unique t _ _ ht ho

/-- A task is taken out from behind `xs`; its own link is not read any more. -/
theorem unchain (h : l.Rep q) (hq : q hd = xs ++ t :: ys) (p : Option τ) :
    (⟨Function.update (Function.update l.lnk (lastCell Cb.tcb (Cb.head hd) xs) (l.lnk (.tcb t)))
        (.tcb t) p,
      if (Cb.head hd : Cb τ ω).semMbx then
        Function.update (relink l.rlnk (l.lnk (.tcb t)) (l.rlnk t)) t none
      else l.rlnk⟩ : Links τ ω).Rep (Function.update q hd (xs ++ ys)) := by
  have hpath := h.path hd
  have hnodup := h.nodup hd
  rw [hq] at hpath hnodup
  have hnotMem := (List.nodup_cons.1 (List.nodup_middle.1 hnodup)).1
  have hnext : l.lnk (.tcb t) = headPtr none ys := (path_append.1 hpath).2.2.headPtr_eq
  have hcell : lastCell Cb.tcb (Cb.head hd) xs ∈ Cb.head hd :: (t :: q hd).map Cb.tcb := by
    have : lastCell Cb.tcb (Cb.head hd) xs ∈ Cb.head hd :: xs.map Cb.tcb := lastCell_mem
    rw [hq]
    simp only [List.mem_cons, List.map_cons, List.map_append, List.mem_append] at this ⊢
    tauto
  refine h.edit (fun h' hne hmem => hne (h.unique t h' hd hmem (by rw [hq]; simp)))
    (fun x hx => ?_) (hpath.remove.update (cell_notMem hnotMem) p) ?_ (fun c hc => ?_)
    (fun x hx => ?_) fun x hx hfree => ?_
  · rw [hq]
    simp only [List.mem_cons, List.mem_append] at hx ⊢
    tauto
  · rintro o rfl
    have hback := h.back o
    rw [hq] at hback
    simp only [Cb.head, Cb.semMbx, if_true, hnext]
    exact (hback.remove hnodup).congr fun x hx =>
      Function.update_of_ne (ne_of_mem_of_not_mem hx hnotMem) ..
  · have hne : c ≠ .tcb t := fun heq => hc (heq ▸ by simp)
    exact (Function.update_of_ne hne ..).trans
      (Function.update_of_ne (ne_of_mem_of_not_mem hcell hc).symm ..)
  · rw [hq, List.mem_cons, List.mem_append, List.mem_cons, not_or, not_or, not_or] at hx
    simp only
    split
    · rw [Function.update_of_ne hx.1, relink_of_ne]
      rw [hnext]
      intro heq
      cases ys with
      | nil => cases heq
      | cons y ys => exact hx.2.2.2 (Option.some.inj heq ▸ List.mem_cons_self)
    · rfl
  · cases hd with
    | some o =>
      have hx' := hfree o rfl
      rw [hq] at hx
      have hxt : x = t := by
        simp only [List.mem_cons, List.mem_append] at hx hx'
        tauto
      exact hxt ▸ Function.update_self ..
    | none =>
      have hx : x ∈ q none := by
        obtain rfl | hx := List.mem_cons.1 hx
        · rw [hq]
          simp
        · exact hx
      exact h.rlnk_of_ready hx

/-- **`rt_get_first` takes the first task out of a list.** -/
theorem rtGetFirst (h : l.Rep q) (hq : q hd = t :: xs) :
    ∃ l', l.rtGetFirst (Cb.head hd) = .ok (t, l') ∧ l'.Rep (Function.update q hd xs) := by
  have hpath := h.path hd
  rw [hq] at hpath
  have hhead : l.lnk (Cb.head hd) = some t := hpath.1
  have hrep := h.unchain (show q hd = [] ++ t :: xs from hq) none
  refine ⟨_, by rw [Links.rtGetFirst, hhead], ?_⟩
  cases hd with
  | none => exact hrep
  | some o =>
    have hback := h.back o
    rw [hq] at hback
    rw [hback.1] at hrep
    exact hrep

/-- `rt_put_rdy_first` puts a task in front of the ready list. -/
theorem rtPutRdyFirst (h : l.Rep q) (ht : ∀ h', t ∉ q h') :
    (l.rtPutRdyFirst t).Rep (Function.update q none (t :: q none)) :=
  h.chainBehind ht (show q none = [] ++ q none from rfl)

/-- `rt_get_same_rdy_prio` takes out the first ready task if it has the given priority. -/
theorem rtGetSameRdyPrio (h : l.Rep q) (prio : τ → ℕ) (runPrio : ℕ) (hq : q none = t :: xs) :
    if prio t = runPrio then
      ∃ l', l.rtGetSameRdyPrio prio runPrio = .ok (some t, l') ∧ l'.Rep (Function.update q none xs)
    else l.rtGetSameRdyPrio prio runPrio = .ok (none, l) := by
  have hpath := h.path none
  rw [hq] at hpath
  have hhead : l.lnk .rdy = some t := hpath.1
  have hrep := h.unchain (show q none = [] ++ t :: xs from hq) (l.lnk (.tcb t))
  rw [Function.update_comm (by simp), Function.update_eq_self] at hrep
  split
  · rename_i hprio
    exact ⟨_, by rw [Links.rtGetSameRdyPrio, hhead]; exact if_pos hprio, hrep⟩
  · rename_i hprio
    rw [Links.rtGetSameRdyPrio, hhead]
    exact if_neg hprio

omit [DecidableEq τ] [DecidableEq ω] in
theorem lastCell_ne (ht : t ∉ xs) : lastCell Cb.tcb (Cb.head hd : Cb τ ω) xs ≠ .tcb t :=
  ne_of_mem_of_not_mem lastCell_mem (cell_notMem ht)

/-- **`rt_rmv_list` takes a task out of its list**, up to its link back, which stays behind. -/
theorem rtRmvList [Fintype τ] (h : l.Rep q) (hq : q hd = xs ++ t :: ys) :
    ∃ l', l.rtRmvList t = .ok l' ∧
      (⟨l'.lnk, Function.update l'.rlnk t none⟩ : Links τ ω).Rep
        (Function.update q hd (xs ++ ys)) := by
  have hpath := h.path hd
  have hnodup := h.nodup hd
  rw [hq] at hpath hnodup
  have hxs : t ∉ xs := fun hmem =>
    (List.nodup_append.1 hnodup).2.2 t hmem t List.mem_cons_self rfl
  have hrep := h.unchain hq (l.lnk (.tcb t))
  rw [Function.update_comm (lastCell_ne hxs), Function.update_eq_self] at hrep
  cases hd with
  | some o =>
    have hback := h.back o
    rw [hq] at hback
    refine ⟨⟨Function.update l.lnk (lastCell Cb.tcb (.obj o) xs) (l.lnk (.tcb t)),
      relink l.rlnk (l.lnk (.tcb t)) (l.rlnk t)⟩, ?_, hrep⟩
    simp only [Links.rtRmvList, hback.prev_eq]
  | none =>
    have hrlnk := h.rlnk_of_ready (show t ∈ q none by rw [hq]; simp)
    have hwalk := walk_eq (upTo t) () (h.path none) (h.length_lt none)
    rw [hq, passed_upTo hxs] at hwalk
    refine ⟨{ l with
      lnk := Function.update l.lnk (lastCell Cb.tcb .rdy xs) (l.lnk (.tcb t)) }, ?_, ?_⟩
    · have hnext : l.lnk (lastCell Cb.tcb .rdy xs) = some t := hpath.next_lastCell
      rw [Links.rtRmvList, hrlnk]
      show Except.map _ (walk Cb.tcb l.lnk (upTo t) _ () (Cb.head none)) = _
      rw [hwalk]
      exact congrArg Except.ok (if_pos hnext)
    · have hsame : Function.update l.rlnk t none = l.rlnk := by
        rw [← hrlnk, Function.update_eq_self]
      rw [hsame]
      exact hrep

/-- `rt_dec_dly` takes a task out of a waiting list. -/
theorem rmvWaiting {o : ω} (h : l.Rep q) (hq : q (some o) = xs ++ t :: ys) :
    (l.rmvWaiting t).Rep (Function.update q (some o) (xs ++ ys)) := by
  have hback := h.back o
  rw [hq] at hback
  have hrep := h.unchain hq none
  rw [hback.prev_eq] at hrep
  rw [Links.rmvWaiting, hback.prev_eq]
  exact hrep

/-- A task that waits in no list stays in its place. -/
theorem rmvWaiting_of_free (h : l.Rep q) (ht : ∀ o, t ∉ q (some o)) : l.rmvWaiting t = l := by
  rw [Links.rmvWaiting, h.free t ht]

omit [DecidableEq τ] [DecidableEq ω] in
/-- The links back lead to the header. -/
theorem findHeader {o : ω} {fuel : ℕ} (h : l.Rep q) (hq : q (some o) = xs ++ ys)
    (hfuel : xs.length < fuel) :
    l.findHeader fuel (lastCell Cb.tcb (.obj o) xs) = .ok (.obj o) := by
  induction xs using List.reverseRecOn generalizing ys fuel with
  | nil =>
    obtain ⟨fuel, rfl⟩ := Nat.exists_eq_succ_of_ne_zero (Nat.ne_zero_of_lt hfuel)
    rfl
  | append_singleton xs x ih =>
    obtain ⟨fuel, rfl⟩ := Nat.exists_eq_succ_of_ne_zero (Nat.ne_zero_of_lt hfuel)
    rw [List.append_assoc, List.singleton_append] at hq
    have hback := h.back o
    rw [hq] at hback
    rw [lastCell_append, lastCell_cons, lastCell_nil, Links.findHeader, hback.prev_eq]
    refine ih hq ?_
    rw [List.length_append, List.length_singleton] at hfuel
    omega

omit [DecidableEq ω] in
/-- `rt_put_prio` overwrites the link back of the task. -/
theorem rtPutPrio_clear [Fintype τ] [DecidableEq ω] (l : Links τ ω) (pCb : Cb τ ω) :
    (⟨l.lnk, Function.update l.rlnk t none⟩ : Links τ ω).rtPutPrio prio pCb t =
      l.rtPutPrio prio pCb t := by
  refine congrArg (Except.map · _) (funext fun r => ?_)
  have hrelink : ∀ p d, Function.update (relink (Function.update l.rlnk t none) p d) t (some r.2) =
      Function.update (relink l.rlnk p d) t (some r.2) := by
    intro p d
    funext x
    by_cases hx : x = t
    · rw [hx, Function.update_self, Function.update_self]
    · rw [Function.update_of_ne hx, Function.update_of_ne hx]
      by_cases hp : p = some x
      · simp [hp, relink]
      · rw [relink_of_ne hp, relink_of_ne hp, Function.update_of_ne hx]
  simp only [Links.chainBehind, hrelink, Function.update_idem]

/-- **`rt_resort_prio` moves a task to the place that its priority has now**, behind its equals. -/
theorem rtResortPrio [Fintype τ] {isReady : Bool} (h : l.Rep q) (prio : τ → ℕ)
    (hq : q hd = xs ++ t :: ys) (hready : isReady = hd.isNone) :
    ∃ l', l.rtResortPrio prio isReady t = .ok l' ∧
      l'.Rep (Function.update q hd (insertLast (rank prio) t (xs ++ ys))) := by
  obtain ⟨l₁, hl₁, hrep₁⟩ := h.rtRmvList hq
  have hnotMem : ∀ h', t ∉ Function.update q hd (xs ++ ys) h' := by
    intro h' hmem
    have hnodup := h.nodup hd
    rw [hq] at hnodup
    by_cases hne : h' = hd
    · subst hne
      rw [Function.update_self] at hmem
      exact (List.nodup_cons.1 (List.nodup_middle.1 hnodup)).1 hmem
    · rw [Function.update_of_ne hne] at hmem
      exact hne (h.unique t h' hd hmem (by rw [hq]; simp))
  obtain ⟨l₂, hl₂, hrep₂⟩ := hrep₁.rtPutPrio prio hd hnotMem
  rw [rtPutPrio_clear] at hl₂
  rw [Function.update_self, Function.update_idem] at hrep₂
  refine ⟨l₂, ?_, hrep₂⟩
  cases hd with
  | none =>
    rw [Links.rtResortPrio, h.rlnk_of_ready (show t ∈ q none by rw [hq]; simp)]
    simp only [hready, Option.isNone_none, if_true, hl₁, ok_bind]
    exact hl₂
  | some o =>
    have hback := h.back o
    rw [hq] at hback
    have hlen := h.length_lt (some o)
    rw [hq, List.length_append, List.length_cons] at hlen
    have hfind : l.findHeader (Fintype.card τ + 1) (lastCell Cb.tcb (.obj o) xs) = .ok (.obj o) :=
      h.findHeader hq (by omega)
    rw [Links.rtResortPrio, hback.prev_eq]
    simp only [hfind, hl₁, ok_bind]
    exact hl₂

/-- The links of a task that is in no list are cleared. -/
theorem initContext (h : l.Rep q) (ht : ∀ h', t ∉ q h') :
    ({ lnk := Function.update l.lnk (.tcb t) none, rlnk := Function.update l.rlnk t none } :
      Links τ ω).Rep q := by
  have hrlnk : Function.update l.rlnk t none = l.rlnk := by
    rw [← h.free t fun o => ht (some o)]
    exact Function.update_eq_self ..
  rw [hrlnk]
  exact ⟨fun h' => (h.path h').update (cell_notMem (ht h')) none, h.back, h.free, h.unique⟩

end Rep

end Links

end Rtx

end UavTelemetry
