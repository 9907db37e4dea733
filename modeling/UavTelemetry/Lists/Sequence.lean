import UavTelemetry.Lists.Links

/-!
# A list stands for a sequence

As long as items are added with memory and without a limit, and nothing is removed from an empty
list, an object of class `List<T>` behaves as the sequence of its items.  Items may come more than
once; `removeItem` takes out the first.  The cursor can be used until an item is removed.

## Main definitions

* `Sequence` : the reference, with what the cursor can be used for.
* `LinkedList.Proper` : the calls for which a list is made.
* `LinkedList.traverse` : `getFirstItem`, followed by calls of `getNextItem`.
* `LinkedList.Represents` : the list stands for the sequence.

## Main results

* `LinkedList.represents_sequence` : the list stands for the sequence in every state.
-/

namespace UavTelemetry

/-- The reference of a list. -/
structure Sequence (ι : Type) where
  /-- The items, in order. -/
  items : List ι
  /-- There was a `getFirstItem` or `searchItem`. -/
  searched : Bool
  /-- An item was removed since the last of them. -/
  stale : Bool
  deriving DecidableEq, Repr

/-- The reference of a new list. -/
def Sequence.empty {ι : Type} : Sequence ι := ⟨[], false, false⟩

namespace LinkedList

variable {ι : Type} [DecidableEq ι]

/-- What a call means for the reference. -/
def refer (_ : LinkedList ι) (c : Call ι) (_ : LinkedList ι) (s : Sequence ι) : Sequence ι :=
  match c with
  | .addItem (some i) _ _ => { s with items := s.items ++ [i] }
  | .removeItem (some i) _ =>
    { s with
      items := s.items.erase i
      stale := s.stale || (s.searched && i ∈ s.items) }
  | .getFirstItem | .searchItem _ _ => { s with searched := true, stale := false }
  | _ => s

/-- The runs of a list with its reference. -/
def referring : Machine (LinkedList ι × Sequence ι) (Call ι) := machine.observe refer

/-- The calls for which a list is made. -/
def Proper (p : LinkedList ι × Sequence ι) : Call ι → Prop
  | .setLimit _ _ => False
  | .addItem item memory _ => item.isSome ∧ memory = true
  | .removeItem _ _ => p.2.items ≠ []
  | .getNextItem => p.2.stale = false
  | _ => True

instance (p : LinkedList ι × Sequence ι) : (c : Call ι) → Decidable (Proper p c)
  | .setLimit _ _ => isFalse not_false
  | .addItem _ _ _ => inferInstanceAs (Decidable (_ ∧ _))
  | .removeItem _ _ => inferInstanceAs (Decidable (_ ≠ _))
  | .getNextItem => inferInstanceAs (Decidable (_ = _))
  | .getItemCount => isTrue trivial
  | .getFirstItem => isTrue trivial
  | .searchItem _ _ => isTrue trivial

/-- What the next calls of `getNextItem` return. -/
def nextItems (l : LinkedList ι) : ℕ → Except Fault (List (Option ι))
  | 0 => .ok []
  | n + 1 => do
    let (l, i) ← l.getNextItem
    let is ← l.nextItems n
    return i :: is

/-- What `getFirstItem` and the calls of `getNextItem` behind it return. -/
def traverse (l : LinkedList ι) (n : ℕ) : Except Fault (List (Option ι)) := do
  let (l, i) ← l.getFirstItem
  let is ← l.nextItems n
  return i :: is

/-- **The list stands for the sequence.** -/
structure Represents (p : LinkedList ι × Sequence ι) : Prop where
  /-- The links from `_first` on are distinct and end in null at `_last`, each points back to the
  one before it, and `_count` is their number. -/
  rep : p.1.Rep p.1.links
  /-- Their items are the sequence. -/
  items : p.1.links.map Prod.snd = p.2.items.map some
  /-- `_first` is null exactly if `_count` is zero. -/
  first : p.1.first = none ↔ p.1.count = 0
  /-- `_last` is null exactly if `_count` is zero. -/
  last : p.1.last = none ↔ p.1.count = 0
  /-- `getFirstItem` and `getNextItem` yield the sequence, and then null. -/
  traverse : ∀ n, p.1.traverse n = .ok ((List.range (n + 1)).map (p.2.items[·]?))
  /-- `searchItem` tells whether the item is in the sequence. -/
  search : ∀ item exception, ∃ l e,
    p.1.searchItem item exception = .ok (l, decide (item ∈ p.2.items.map some), e)
  /-- The calls for which the list is made return. -/
  returns : ∀ c, Proper p c → ∃ q, p.1.perform c = .ok q

variable {l l' : LinkedList ι} {s : Sequence ι} {xs ys zs : List (Addr × Option ι)}

/-! ### Traversing -/

omit [DecidableEq ι] in
theorem nextItems_of_none (h : l.search = none) (n : ℕ) :
    l.nextItems n = .ok (List.replicate n none) := by
  induction n with
  | zero => rfl
  | succ n ih =>
    simp only [nextItems, getNextItem_of_none h, ok_bind, ih, pure_eq_ok, List.replicate_succ]

omit [DecidableEq ι] in
/-- From the cursor on, the items of the links behind it are returned. -/
theorem Rep.nextItems (h : l.Rep (xs ++ ys)) (hs : l.search = headAddr none ys) (n : ℕ) :
    l.nextItems n = .ok ((List.range n).map fun k => headItem (ys.drop (k + 1))) := by
  induction n generalizing l xs ys with
  | zero => rfl
  | succ n ih =>
    cases ys with
    | nil =>
      rw [nextItems_of_none hs]
      simp [headItem, List.map_const']
    | cons y ys =>
      obtain ⟨a, i⟩ := y
      have h' : { l with search := headAddr none ys }.Rep (xs ++ [(a, i)] ++ ys) := by
        simpa using h.search (headAddr none ys)
      simp only [LinkedList.nextItems, h.getNextItem hs, ok_bind, ih h' rfl, pure_eq_ok,
        List.range_succ_eq_map, List.map_cons, List.map_map, List.drop_succ_cons, List.drop_zero]
      rfl

omit [DecidableEq ι] in
theorem Rep.traverse (h : l.Rep xs) (n : ℕ) :
    l.traverse n = .ok ((List.range (n + 1)).map fun k => headItem (xs.drop k)) := by
  have h' : { l with search := headAddr none xs }.Rep ([] ++ xs) := h.search _
  simp only [LinkedList.traverse, h.getFirstItem, ok_bind, h'.nextItems rfl, pure_eq_ok,
    List.range_succ_eq_map, List.map_cons, List.map_map, List.drop_zero]
  rfl

omit [DecidableEq ι] in
/-- The links carry the items. -/
theorem headItem_drop (h : xs.map Prod.snd = s.items.map some) (k : ℕ) :
    headItem (xs.drop k) = s.items[k]? := by
  have hget := congrArg (fun is => is[k]?) h
  simp only [List.getElem?_map] at hget
  rw [headItem, List.head?_drop]
  cases hx : xs[k]? with
  | none =>
    rw [hx] at hget
    simpa using hget.symm
  | some x =>
    rw [hx] at hget
    cases hi : s.items[k]? with
    | none =>
      rw [hi] at hget
      cases hget
    | some i =>
      rw [hi] at hget
      exact Option.some.inj hget

/-! ### One call -/

/-- The links carry the sequence, and a cursor that may be used is among them. -/
structure Carries (l : LinkedList ι) (s : Sequence ι) (xs : List (Addr × Option ι)) : Prop where
  /-- The links. -/
  rep : l.Rep xs
  /-- Their items. -/
  items : xs.map Prod.snd = s.items.map some
  /-- The cursor is unset before the first search. -/
  unset : s.searched = false → l.search = none
  /-- The cursor stands on a link. -/
  cursor : s.stale = false → ∀ a, l.search = some a → a ∈ addrs xs

omit [DecidableEq ι] in
theorem none_notMem (h : xs.map Prod.snd = s.items.map some) : none ∉ xs.map Prod.snd := by
  rw [h]
  simp

omit [DecidableEq ι] in
/-- The cursor is moved to the links of some part of the list. -/
theorem Carries.moved (h : l.Carries s xs) {ys : List (Addr × Option ι)}
    (hsub : addrs ys ⊆ addrs xs) :
    { l with search := headAddr none ys }.Carries { s with searched := true, stale := false } xs :=
  ⟨h.rep.search _, h.items, fun hfalse => Bool.noConfusion hfalse,
    fun _ _ hs => hsub (headAddr_mem hs)⟩

omit [DecidableEq ι] in
theorem Carries.addItem (h : l.Carries s xs) (i : ι) (exception : Option Exception) :
    ∃ l' ys, l.addItem (some i) true exception = .ok (l', l.addException (some i) true exception) ∧
      l'.Carries { s with items := s.items ++ [i] } ys := by
  obtain ⟨l', hadd, hrep, hsearch, -⟩ := h.rep.addItem (some i) exception
  refine ⟨l', _, hadd, hrep, ?_, fun hs => hsearch.trans (h.unset hs), fun hs a ha => ?_⟩
  · rw [List.map_append, h.items, List.map_append]
    rfl
  · rw [hsearch] at ha
    rw [addrs_append]
    exact List.mem_append_left _ (h.cursor hs a ha)

/-- An item is removed, if it is there. -/
theorem Carries.removeItem (h : l.Carries s xs) (hne : s.items ≠ []) (item : Option ι)
    (exception : Option Exception) :
    ∃ l' ys e, l.removeItem item exception = .ok (l', e) ∧
      l'.Carries (refer l (.removeItem item exception) l' s) ys := by
  by_cases hmem : item ∈ xs.map Prod.snd
  · obtain ⟨ys, a, zs, rfl, hni⟩ := exists_first hmem
    obtain ⟨l', hremove, hremoved⟩ := h.rep.removeItem hni exception
    rw [h.items, List.mem_map] at hmem
    obtain ⟨i, hi, rfl⟩ := hmem
    refine ⟨l', _, _, hremove, hremoved.rep, ?_, fun hs => ?_, fun hs b hb => ?_⟩
    · -- the first link of the item is the first occurrence in the sequence
      show _ = (s.items.erase i).map some
      have herase : ((ys ++ (a, some i) :: zs).map Prod.snd).erase (some i) =
          (ys ++ zs).map Prod.snd := by
        rw [List.map_append, List.map_cons, List.erase_append_right _ hni, List.erase_cons_head,
          List.map_append]
      rw [List.map_erase fun _ _ => Option.some.inj, ← h.items, herase]
    · rw [hremoved.search, h.unset hs]
      exact ite_self none
    · -- nothing may be read off a cursor that was set
      have hstale : (s.stale || (s.searched && decide (i ∈ s.items))) = false := hs
      rw [decide_eq_true hi, Bool.and_true, Bool.or_eq_false_iff] at hstale
      rw [hremoved.search, h.unset hstale.2, ite_self] at hb
      cases hb
  · have hxs : xs ≠ [] := by
      rintro rfl
      exact hne (List.map_eq_nil_iff.1 h.items.symm)
    refine ⟨l, xs, _, h.rep.removeItem_notMem hxs hmem exception, ?_⟩
    cases item with
    | none => exact h
    | some i =>
      have hi : i ∉ s.items := fun hi => hmem (h.items ▸ List.mem_map_of_mem hi)
      refine ⟨h.rep, ?_, h.unset, fun hs => h.cursor ?_⟩
      · show _ = (s.items.erase i).map some
        rw [List.erase_of_not_mem hi]
        exact h.items
      · have hstale : (s.stale || (s.searched && decide (i ∈ s.items))) = false := hs
        rw [Bool.or_eq_false_iff] at hstale
        exact hstale.1

/-- **A proper call** returns, and the links carry the new sequence. -/
theorem Carries.perform {c : Call ι} (h : l.Carries s xs) (hc : Proper (l, s) c) :
    ∃ l' r ys, l.perform c = .ok (l', r) ∧ l'.Carries (refer l c l' s) ys := by
  cases c with
  | setLimit numItems exception => exact hc.elim
  | addItem item memory exception =>
    obtain ⟨hsome, rfl⟩ := hc
    obtain ⟨i, rfl⟩ := Option.isSome_iff_exists.1 hsome
    obtain ⟨l', ys, hadd, hcarries⟩ := h.addItem i exception
    exact ⟨l', _, ys, by rw [LinkedList.perform, hadd]; rfl, hcarries⟩
  | removeItem item exception =>
    obtain ⟨l', ys, e, hremove, hcarries⟩ := h.removeItem hc item exception
    exact ⟨l', _, ys, by rw [LinkedList.perform, hremove]; rfl, hcarries⟩
  | getItemCount => exact ⟨l, _, xs, rfl, h⟩
  | getFirstItem =>
    exact ⟨_, _, xs, by rw [LinkedList.perform, h.rep.getFirstItem]; rfl,
      h.moved (List.Subset.refl _)⟩
  | searchItem item exception =>
    exact ⟨_, _, xs, by rw [LinkedList.perform, h.rep.searchItem]; rfl,
      h.moved (addrs_rest_subset item xs)⟩
  | getNextItem =>
    cases hs : l.search with
    | none => exact ⟨l, _, xs, by rw [LinkedList.perform, getNextItem_of_none hs]; rfl, h⟩
    | some a =>
      obtain ⟨ys, i, zs, rfl⟩ := exists_split (h.cursor hc a hs)
      refine ⟨{ l with search := headAddr none zs }, _, _,
        by rw [LinkedList.perform, h.rep.getNextItem hs]; rfl, h.rep.search _, h.items,
        fun hunset => ?_, fun _ b hb => ?_⟩
      · rw [h.unset hunset] at hs
        cases hs
      · rw [addrs_append, addrs_cons]
        exact List.mem_append_right _ (List.mem_cons_of_mem _ (headAddr_mem hb))

/-! ### Every state -/

theorem Carries.represents (h : l.Carries s xs) : Represents (l, s) where
  rep := by rw [h.rep.links_eq]; exact h.rep
  items := by rw [h.rep.links_eq]; exact h.items
  first := by
    rw [h.rep.count_eq_zero, h.rep.first]
    cases xs <;> simp [headAddr]
  last := by
    rw [h.rep.count_eq_zero, h.rep.last]
    rcases List.eq_nil_or_concat' xs with rfl | ⟨xs, ⟨b, y⟩, rfl⟩
    · simp [lastAddr]
    · rw [lastAddr_concat]
      simp
  traverse n := by
    rw [h.rep.traverse]
    exact congrArg Except.ok (List.map_congr_left fun k _ => headItem_drop h.items k)
  search item exception := by
    have hhit : hit item xs = true ↔ item ∈ xs.map Prod.snd := hit_iff (none_notMem h.items)
    rw [h.items] at hhit
    have hfound : hit item xs = decide (item ∈ s.items.map some) :=
      Bool.eq_iff_iff.2 (hhit.trans decide_eq_true_iff.symm)
    exact ⟨_, _, hfound ▸ h.rep.searchItem item exception⟩
  returns c hc := by
    obtain ⟨l', r, -, hrun, -⟩ := h.perform hc
    exact ⟨_, hrun⟩

/-- **The list stands for the sequence** in every state of every run of calls for which it is
made. -/
theorem represents_sequence (calls : List (Call ι))
    (h : referring.AllSteps Proper (new, .empty) calls) :
    referring.AllStates Represents (new, .empty) calls := by
  have hstart : ∃ xs, (new : LinkedList ι).Carries .empty xs :=
    ⟨[], rep_new, rfl, fun _ => rfl, fun _ a ha => by cases ha⟩
  refine (Machine.allStates_of_allSteps (I := fun p => ∃ xs, p.1.Carries p.2 xs) hstart
    (fun p c p' hp hc hst => ?_) h).mono fun p hp => ?_
  · obtain ⟨xs, hcarries⟩ := hp
    obtain ⟨l', r, ys, hrun, hcarries'⟩ := hcarries.perform hc
    obtain ⟨hstep, hrefer⟩ := Machine.observe_step hst
    obtain ⟨r', hrun'⟩ := machine_step hstep
    rw [hrun, Except.ok.injEq, Prod.mk.injEq] at hrun'
    obtain rfl := hrun'.1
    exact ⟨ys, hrefer ▸ hcarries'⟩
  · obtain ⟨xs, hcarries⟩ := hp
    exact hcarries.represents

/-- Two items, one of them twice, and the first occurrence removed. -/
def twice : List (Call ℕ) :=
  [.addItem (some 7) true none, .addItem (some 8) true none, .addItem (some 7) true none,
    .getFirstItem, .getNextItem, .removeItem (some 7) none, .searchItem (some 7) none, .getNextItem]

theorem represents_twice :
    ∃ p, referring.run (new, .empty) twice = some p ∧ p.2.items = [8, 7] ∧
      p.1.traverse 2 = .ok [some 8, some 7, none] := by
  have heval : (referring.run (new, .empty) twice).map (fun p => p.2.items) = some [8, 7] := by
    decide +kernel
  obtain ⟨p, hrun, hitems⟩ := Option.map_eq_some_iff.1 heval
  refine ⟨p, hrun, hitems, ?_⟩
  have hrep := (represents_sequence twice (by decide +kernel)).last hrun
  rw [hrep.traverse 2, hitems]
  rfl

end LinkedList

end UavTelemetry
