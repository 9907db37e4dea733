import UavTelemetry.Lists.Links

/-!
# Invalid calls of a list

The operations of `List<T>` check their arguments, the limit and the memory with `THROW`, which
stores an exception and goes on.  A call that is found invalid is carried out all the same.

## Main definitions

* `LinkedList.Call.failure` : the exception of the first check that a call fails.
* `LinkedList.LeavesAlone` : an invalid call reports its exception and changes nothing.
* `LinkedList.ErrorSafe` : the invalid calls of a run change nothing, and the limit is kept.
* `LinkedList.Harmless` : the calls that are valid, or whose normal path changes nothing.

## Main results

* `LinkedList.errorSafe_iff` : errors leave the list alone exactly in the runs of harmless calls.
-/

namespace UavTelemetry

namespace LinkedList

variable {ι : Type}

/-- The variable to which a call was passed a pointer. -/
def Call.exception : Call ι → Option Exception
  | .setLimit _ e | .addItem _ _ e | .removeItem _ e | .searchItem _ e => e
  | _ => none

/-- What a call has left in that variable. -/
def Answer.exception : Answer ι → Option Exception
  | .done e | .found _ e => e
  | _ => none

section

variable [DecidableEq ι]

/-- The exception of the first check that a call fails: that it has an item or a limit, that there
is room, that there is memory, and that the item is in the list. -/
def Call.failure (l : LinkedList ι) : Call ι → Option Exception
  | .setLimit numItems _ => if numItems = 0 then some .nullPointer else none
  | .addItem item memory _ =>
    if item = none then some .nullPointer
    else if l.numItems.toNat ≤ l.count then some .limitExceeded
    else if memory = false then some .outOfMemory
    else none
  | .removeItem item _ =>
    if item = none then some .nullPointer
    else if item ∉ l.links.map Prod.snd then some .itemNotFound
    else none
  | .searchItem item _ => if item = none then some .nullPointer else none
  | _ => none

end

/-- The list is the same, but for the cursor. -/
structure Untouched (l l' : LinkedList ι) : Prop where
  /-- `_first`. -/
  first : l'.first = l.first
  /-- `_last`. -/
  last : l'.last = l.last
  /-- The links. -/
  nodes : l'.nodes = l.nodes
  /-- `_count`. -/
  count : l'.count = l.count
  /-- `_numItems`. -/
  numItems : l'.numItems = l.numItems

variable [DecidableEq ι]

/-- **The call leaves the list alone if it is invalid**: it returns, it has stored the exception of
the check that it fails, if there was a variable for it, and the list is the same. -/
def LeavesAlone (l : LinkedList ι) (c : Call ι) : Prop :=
  ∀ e, c.failure l = some e → ∃ l' r, l.perform c = .ok (l', r) ∧
    r.exception = e.throw c.exception ∧ l.Untouched l'

/-- The call is one of `addItem`. -/
def Call.Adds : Call ι → Prop
  | .addItem _ _ _ => True
  | _ => False

/-- **Errors leave the list alone** in a run: every invalid call does, and no calls of `addItem` in
a row take `_count` above the limit. -/
structure ErrorSafe (calls : List (Call ι)) : Prop where
  /-- Invalid calls change nothing. -/
  alone : machine.AllTries LeavesAlone new calls
  /-- The limit is kept. -/
  limit : ∀ pre adds post l, calls = pre ++ adds ++ post → (∀ c ∈ adds, c.Adds) →
    machine.run new pre = some l →
      machine.AllStates (fun l' => l'.count ≤ max l.count l.numItems.toNat) l adds

/-- The call is valid, or it is one whose normal path changes nothing: a limit of zero that is
zero already, an item that is not among the items of a list which is not empty, or a search.  A null
item is not looked for, unless nobody is told of an exception and the list has no null item. -/
def Harmless (l : LinkedList ι) : Call ι → Prop
  | .setLimit numItems _ => numItems = 0 → l.numItems = 0
  | .addItem item memory _ => item ≠ none ∧ l.count < l.numItems.toNat ∧ memory = true
  | .removeItem item exception =>
    l.count ≠ 0 ∧ (item = none → exception = none ∧ none ∉ l.links.map Prod.snd)
  | _ => True

variable {l l' : LinkedList ι} {xs : List (Addr × Option ι)} {item : Option ι}
  {exception : Option Exception}

omit [DecidableEq ι] in
@[simp] theorem Exception.throw_throw (e e' : Exception) :
    e.throw (e'.throw exception) = e.throw exception := by
  cases exception <;> rfl

omit [DecidableEq ι] in
theorem throw_checkItem (e : Exception) :
    e.throw (checkItem item exception) = e.throw exception := by
  cases item <;> simp [checkItem]

omit [DecidableEq ι] in
theorem checkItem_none :
    checkItem (none : Option ι) exception = Exception.nullPointer.throw exception := by
  simp [checkItem]

/-! ### One call -/

omit [DecidableEq ι] in
theorem Untouched.cursor (l : LinkedList ι) (s : Option Addr) :
    l.Untouched { l with search := s } := ⟨rfl, rfl, rfl, rfl, rfl⟩

omit [DecidableEq ι] in
theorem Removed.count_ne {a : Addr} {i : Option ι} {ys : List (Addr × Option ι)}
    (h : l.Rep (xs ++ (a, i) :: ys)) (hremoved : l.Removed a (xs ++ ys) l') :
    l'.count ≠ l.count := by
  rw [hremoved.rep.count, h.count]
  simp only [List.length_append, List.length_cons]
  omega

/-- A call of `addItem` that fails a check. -/
theorem failure_addItem (memory : Bool) (exception : Option Exception) :
    (Call.addItem item memory exception).failure l = none ↔
      l.Harmless (.addItem item memory exception) := by
  simp only [Call.failure, Harmless]
  split_ifs with hitem hfull hmemory
  · exact iff_of_false nofun fun h => h.1 hitem
  · exact iff_of_false nofun fun h => absurd h.2.1 (Nat.not_lt_of_le hfull)
  · exact iff_of_false nofun fun h => absurd h.2.2 (by simp [hmemory])
  · exact iff_of_true rfl ⟨hitem, Nat.lt_of_not_le hfull, by simpa using hmemory⟩

/-- An invalid `addItem` is carried out, or it faults. -/
theorem Rep.leavesAlone_addItem (h : l.Rep xs) (memory : Bool) :
    l.LeavesAlone (.addItem item memory exception) ↔
      l.Harmless (.addItem item memory exception) := by
  rw [← failure_addItem]
  constructor
  · intro halone
    by_contra hfailure
    obtain ⟨e, he⟩ := Option.ne_none_iff_exists'.1 hfailure
    obtain ⟨l', r, hrun, -, huntouched⟩ := halone e he
    have hcount := huntouched.count
    cases h.done hrun with
    | added item exception hrep =>
      rw [hrep.count, h.count, List.length_append, List.length_singleton] at hcount
      exact absurd hcount (Nat.succ_ne_self _)
  · intro hvalid e he
    rw [hvalid] at he
    cases he

/-- From an empty list nothing can be removed: the loop starts at the null pointer `_first`. -/
theorem Rep.not_leavesAlone_removeItem (h : l.Rep []) :
    ¬ l.LeavesAlone (.removeItem item exception) := by
  intro halone
  have hfailure : ∃ e, (Call.removeItem item exception).failure l = some e := by
    have hmissing : item ∉ l.links.map Prod.snd := by
      rw [h.links_eq]
      exact List.not_mem_nil
    simp only [Call.failure, if_pos hmissing]
    split_ifs
    · exact ⟨_, rfl⟩
    · exact ⟨_, rfl⟩
  obtain ⟨e, he⟩ := hfailure
  obtain ⟨l', r, hrun, -⟩ := halone e he
  simp only [LinkedList.perform, h.removeItem_nil] at hrun
  cases hrun

/-- A null item: one that is in the list is removed, and for one that is not the exception is
overwritten with `ITEM_NOT_FOUND`. -/
theorem Rep.leavesAlone_removeNull (h : l.Rep l.links) (hne : l.links ≠ []) :
    l.LeavesAlone (.removeItem none exception) ↔
      exception = none ∧ none ∉ l.links.map Prod.snd := by
  have hfailure : (Call.removeItem none exception).failure l = some .nullPointer := by
    rw [Call.failure, if_pos rfl]
  by_cases hmem : none ∈ l.links.map Prod.snd
  · obtain ⟨xs, a, ys, hsplit, hfirst⟩ := exists_first hmem
    rw [hsplit] at h
    obtain ⟨l', hremove, hremoved⟩ := h.removeItem hfirst exception
    refine iff_of_false (fun halone => ?_) fun hnone => hnone.2 hmem
    obtain ⟨l₁, r, hrun, -, huntouched⟩ := halone _ hfailure
    simp only [LinkedList.perform, hremove, ok_bind, pure_eq_ok, Except.ok.injEq,
      Prod.mk.injEq] at hrun
    obtain ⟨rfl, -⟩ := hrun
    exact hremoved.count_ne h huntouched.count
  · have hperform : l.perform (.removeItem none exception) =
        .ok (l, .done (Exception.itemNotFound.throw (checkItem (none : Option ι) exception))) := by
      simp only [LinkedList.perform, h.removeItem_notMem hne hmem, ok_bind, pure_eq_ok]
    constructor
    · intro halone
      obtain ⟨l₁, r, hrun, hexception, -⟩ := halone _ hfailure
      rw [hperform] at hrun
      cases hrun
      refine ⟨?_, hmem⟩
      cases exception with
      | none => rfl
      | some e => simp [Answer.exception, Call.exception, Exception.throw, checkItem] at hexception
    · rintro ⟨rfl, -⟩ e -
      exact ⟨l, _, hperform, rfl, .cursor l l.search⟩

/-- An item that is not null is removed, or it is not found. -/
theorem Rep.leavesAlone_removeSome (h : l.Rep l.links) (hne : l.links ≠ []) (i : ι) :
    l.LeavesAlone (.removeItem (some i) exception) := by
  intro e he
  simp only [Call.failure, reduceCtorEq, if_false] at he
  split_ifs at he with hmissing
  cases he
  refine ⟨l, .done (Exception.itemNotFound.throw (checkItem (some i) exception)), ?_,
    throw_checkItem _, .cursor l l.search⟩
  simp only [LinkedList.perform, h.removeItem_notMem hne hmissing, ok_bind, pure_eq_ok]

theorem Rep.leavesAlone_removeItem (h : l.Rep l.links) :
    l.LeavesAlone (.removeItem item exception) ↔ l.Harmless (.removeItem item exception) := by
  by_cases hempty : l.links = []
  · have hcount : l.count = 0 := h.count_eq_zero.2 hempty
    have hnil : l.Rep [] := hempty ▸ h
    exact iff_of_false hnil.not_leavesAlone_removeItem fun hharmless => hharmless.1 hcount
  · have hcount : l.count ≠ 0 := fun hzero => hempty (h.count_eq_zero.1 hzero)
    cases item with
    | none =>
      rw [h.leavesAlone_removeNull hempty]
      exact ⟨fun hnone => ⟨hcount, fun _ => hnone⟩, fun hharmless => hharmless.2 rfl⟩
    | some i =>
      exact iff_of_true (h.leavesAlone_removeSome hempty i) ⟨hcount, fun hnone => by cases hnone⟩

/-- **An invalid call leaves the list alone exactly if it is harmless.** -/
theorem Rep.leavesAlone_iff (h : l.Rep l.links) (c : Call ι) :
    l.LeavesAlone c ↔ l.Harmless c := by
  cases c with
  | setLimit numItems exception =>
    constructor
    · rintro halone rfl
      obtain ⟨l', r, hrun, -, huntouched⟩ := halone .nullPointer rfl
      cases hrun
      exact huntouched.numItems.symm
    · intro hharmless e he
      simp only [Call.failure] at he
      split_ifs at he with hnull
      cases he
      subst hnull
      have hzero := hharmless rfl
      exact ⟨_, _, rfl, Exception.throw_throw _ _, rfl, rfl, rfl, rfl, hzero.symm⟩
  | addItem item memory exception => exact h.leavesAlone_addItem memory
  | removeItem item exception => exact h.leavesAlone_removeItem
  | getItemCount | getFirstItem | getNextItem => exact iff_of_true (fun e he => by cases he) trivial
  | searchItem item exception =>
    refine iff_of_true (fun e he => ?_) trivial
    simp only [Call.failure] at he
    split_ifs at he with hnull
    cases he
    subst hnull
    refine ⟨{ l with search := headAddr none (rest none l.links) },
      .found (hit none l.links) (checkItem (none : Option ι) exception), ?_, ?_, .cursor l _⟩
    · simp only [LinkedList.perform, h.searchItem, ok_bind, pure_eq_ok]
    · show checkItem (none : Option ι) exception = _
      exact checkItem_none

/-! ### Every run -/

/-- Calls of `addItem` below the limit stay below it. -/
theorem Rep.limit_of_harmless {adds : List (Call ι)} (h : l.Rep l.links)
    (hadds : ∀ c ∈ adds, c.Adds) (hharmless : machine.AllSteps Harmless l adds) {n : ℕ}
    (hcount : l.count ≤ n) (hlimit : l.numItems.toNat ≤ n) :
    machine.AllStates (fun l' => l'.count ≤ n) l adds := by
  induction adds generalizing l with
  | nil => exact hcount
  | cons c adds ih =>
    refine ⟨hcount, fun l' hst => ?_⟩
    obtain ⟨hc, hrest⟩ := hharmless l' hst
    obtain ⟨r, hrun⟩ := machine_step hst
    have hadds' : ∀ c ∈ adds, c.Adds := fun c hc => hadds c (List.mem_cons_of_mem _ hc)
    have hadd := hadds c List.mem_cons_self
    cases h.done hrun with
    | added item exception hrep hsearch hfreed hnumItems =>
      refine ih (by rwa [hrep.links_eq]) hadds' hrest ?_ (hnumItems ▸ hlimit)
      have hroom : l.count < l.numItems.toNat := hc.2.1
      have hcount' : l'.count = l.count + 1 := by
        rw [hrep.count, h.count, List.length_append, List.length_singleton]
      omega
    | limited | removed | missed | counted | first | next | searched => exact hadd.elim

/-- **Errors leave the list alone exactly in the runs of harmless calls.** -/
theorem errorSafe_iff (calls : List (Call ι)) :
    ErrorSafe calls ↔ machine.AllTries Harmless new calls := by
  have halone : machine.AllTries LeavesAlone new calls ↔ machine.AllTries Harmless new calls :=
    Machine.allTries_congr (I := fun l => l.Rep l.links) rep_new
      (fun l c l' hl hst => hl.step hst) fun l c hl => hl.leavesAlone_iff c
  refine ⟨fun h => halone.1 h.alone, fun h => ⟨halone.2 h, ?_⟩⟩
  rintro pre adds post l rfl hadds hpre
  exact (rep_of_reachable ⟨pre, hpre⟩).limit_of_harmless hadds (h.allSteps.left.right hpre)
    (Nat.le_max_left _ _) (Nat.le_max_right _ _)

/-- An item is removed from an empty list. -/
theorem not_errorSafe_empty : ¬ ErrorSafe [(.removeItem (some 7) (some .noErrors) : Call ℕ)] := by
  intro h
  obtain ⟨l, r, hrun, -⟩ := h.alone.1 .itemNotFound (by decide)
  cases hrun

end LinkedList

end UavTelemetry
