import UavTelemetry.Lists.Links

/-!
# The cursor of a list

`removeItem` resets the cursor `_search` when the list becomes empty, but at its other exits it
frees the link without a look at the cursor.  A cursor that stands on that link points to a freed
block from then on.

## Main definitions

* `LinkedList.Anchored` : the cursor is null or stands on a link of the list.
* `LinkedList.visiting` : the runs of a list, with what a traversal has returned.
* `LinkedList.CursorSafe` : the cursor never dangles, and traversals miss nothing.
* `LinkedList.Careful` : no link under the cursor is removed, unless it is the only one.

## Main results

* `LinkedList.cursorSafe_iff` : the cursor is safe exactly in the runs that are careful.
-/

namespace UavTelemetry

namespace LinkedList

variable {ι : Type} [DecidableEq ι]

/-- **The cursor does not dangle.** -/
def Anchored (l : LinkedList ι) : Prop := ∀ a ∈ l.search, a ∈ addrs l.links

omit [DecidableEq ι] in
instance (l : LinkedList ι) : Decidable l.Anchored :=
  inferInstanceAs (Decidable (∀ a ∈ l.search, _))

/-- What `getFirstItem` and `getNextItem` return, with the link on which the cursor stands then. -/
def visit (l : LinkedList ι) (c : Call ι) (l' : LinkedList ι)
    (log : List (Option Addr × Option ι)) : List (Option Addr × Option ι) :=
  match l.perform c with
  | .ok (_, .item i) => log ++ [(l'.search, i)]
  | _ => log

/-- The runs of a list, with what was returned. -/
def visiting : Machine (LinkedList ι × List (Option Addr × Option ι)) (Call ι) :=
  machine.observe visit

/-- The call may come in the middle of a traversal: it does not set the cursor anew. -/
def Call.Goes : Call ι → Prop
  | .getFirstItem | .searchItem _ _ => False
  | _ => True

/-- **Cursors are safe** in a run: they do not dangle in any state, and a traversal, from
`getFirstItem` until the cursor has passed the last link, returns every link that is in the list
all the time exactly once, with its item. -/
structure CursorSafe (calls : List (Call ι)) : Prop where
  /-- The cursor does not dangle. -/
  anchored : machine.AllStates Anchored new calls
  /-- What is there all the time is returned once. -/
  once : ∀ pre mid post l p, calls = pre ++ .getFirstItem :: mid ++ post →
    (∀ c ∈ mid, c.Goes) → machine.run new pre = some l →
    visiting.run (l, []) (.getFirstItem :: mid) = some p → p.1.search = none →
      ∀ x, machine.AllStates (fun l => x ∈ l.links) l (.getFirstItem :: mid) →
        p.2.filter (·.1 = some x.1) = [(some x.1, x.2)]

/-- The first link that holds an item. -/
def linkOf (l : LinkedList ι) (item : Option ι) : Option Addr :=
  (l.links.find? fun x => x.2 = item).map Prod.fst

/-- A call does not remove the link on which the cursor stands, unless it is the only one. -/
def Careful (l : LinkedList ι) : Call ι → Prop
  | .removeItem item _ => l.search.isSome → l.search = l.linkOf item → l.count = 1
  | _ => True

variable {l l' : LinkedList ι} {xs ys zs : List (Addr × Option ι)} {a : Addr} {i item : Option ι}

/-! ### One call -/

theorem Rep.linkOf_eq (h : l.Rep (xs ++ (a, item) :: ys)) (hni : item ∉ xs.map Prod.snd) :
    l.linkOf item = some a := by
  have hnone : xs.find? (fun x => decide (x.2 = item)) = none :=
    List.find?_eq_none.2 (not_item_of_notMem hni)
  rw [linkOf, h.links_eq, List.find?_append, hnone, Option.none_or, List.find?_cons_of_pos
    (by simp)]
  rfl

theorem Rep.linkOf_eq_none (h : l.Rep xs) (hni : item ∉ xs.map Prod.snd) :
    l.linkOf item = none := by
  rw [linkOf, h.links_eq, List.find?_eq_none.2 (not_item_of_notMem hni)]
  rfl

omit [DecidableEq ι] in
theorem Rep.anchored_iff (h : l.Rep xs) :
    l.Anchored ↔ ∀ a, l.search = some a → a ∈ addrs xs := by
  rw [Anchored, h.links_eq]
  rfl

omit [DecidableEq ι] in
/-- Taking out a link leaves the cursor on a link exactly if the cursor stands elsewhere, or
nothing is left. -/
theorem Removed.anchored_iff (h : l.Rep (xs ++ (a, item) :: ys)) (hl : l.Anchored)
    (hremoved : l.Removed a (xs ++ ys) l') :
    l'.Anchored ↔ (l.search = some a → l.count = 1) := by
  rw [h.anchored_iff] at hl
  rw [hremoved.rep.anchored_iff, hremoved.search, h.count]
  by_cases hne : xs ++ ys = []
  · obtain ⟨rfl, rfl⟩ := List.append_eq_nil_iff.1 hne
    simp
  · have hlength : (xs ++ (a, item) :: ys).length ≠ 1 := by
      have hpos := List.length_pos_of_ne_nil hne
      simp only [List.length_append, List.length_cons] at hpos ⊢
      omega
    have ha := notMem_addrs h.nodup
    simp only [if_neg hne, hlength, imp_false]
    constructor
    · intro hall hs
      have hmem := hall a hs
      rw [addrs_append, List.mem_append] at hmem
      exact hmem.elim ha.1 ha.2
    · intro hs b hb
      have hmem := hl b hb
      have hba : b ≠ a := fun heq => hs (heq ▸ hb)
      simpa [hba] using hmem

/-- **One call** leaves the cursor on a link exactly if it is careful. -/
theorem Done.anchored_iff {c : Call ι} (hdone : l.Done xs c l') (h : l.Rep xs)
    (hl : l.Anchored) : l'.Anchored ↔ l.Careful c := by
  cases hdone with
  | limited | counted => exact iff_of_true hl trivial
  | added item exception hrep hsearch =>
    refine iff_of_true ?_ trivial
    rw [hrep.anchored_iff, hsearch, addrs_append]
    exact fun a ha => List.mem_append_left _ (h.anchored_iff.1 hl a ha)
  | removed exception hsplit hfirst hremoved =>
    subst hsplit
    rw [hremoved.anchored_iff h hl, Careful, h.linkOf_eq hfirst]
    exact ⟨fun hcount _ => hcount, fun hcount hs => hcount (by rw [hs]; rfl) hs⟩
  | missed exception hmissing =>
    refine iff_of_true hl fun hsome hs => ?_
    rw [hs, h.linkOf_eq_none hmissing] at hsome
    cases hsome
  | first =>
    refine iff_of_true ?_ trivial
    rw [(h.search _).anchored_iff]
    exact fun a => headAddr_mem
  | next s unset moved =>
    refine iff_of_true ?_ trivial
    rw [(h.search _).anchored_iff]
    intro b hb
    cases hs : l.search with
    | none =>
      cases (unset hs).symm.trans hb
    | some a =>
      obtain ⟨ys, i, zs, rfl⟩ := exists_split (h.anchored_iff.1 hl a hs)
      have hmem := headAddr_mem ((moved ys a i zs rfl hs).symm.trans hb)
      simp [hmem]
  | searched item =>
    refine iff_of_true ?_ trivial
    rw [(h.search _).anchored_iff]
    exact fun a ha => addrs_rest_subset item xs (headAddr_mem ha)

/-! ### A traversal -/

/-- The traversal has the links `zs` still before it, the one under the cursor included. -/
structure Walking (x : Addr × Option ι) (l : LinkedList ι) (log : List (Option Addr × Option ι))
    (ys zs : List (Addr × Option ι)) : Prop where
  /-- The links. -/
  rep : l.Rep (ys ++ zs)
  /-- The cursor. -/
  search : l.search = headAddr none zs
  /-- The link is in the list. -/
  mem : x ∈ ys ++ zs
  /-- It has been returned once the cursor has come to it. -/
  log : log.filter (·.1 = some x.1) = if x ∈ zs.tail then [] else [(some x.1, x.2)]

variable {x : Addr × Option ι} {log : List (Option Addr × Option ι)}

omit [DecidableEq ι] in
/-- The cursor has come to a link when it stands at its address. -/
theorem headAddr_eq_iff (hnodup : (addrs (ys ++ zs)).Nodup) (hx : x ∈ ys ++ zs) :
    headAddr none zs = some x.1 ↔ zs.head? = some x := by
  cases zs with
  | nil => simp [headAddr]
  | cons z zs =>
    have hinj := List.inj_on_of_nodup_map hnodup
    simp only [headAddr, List.head?_cons, Option.some.injEq]
    refine ⟨fun heq => ?_, fun heq => congrArg Prod.fst heq⟩
    exact hinj (List.mem_append_right _ List.mem_cons_self) hx heq

/-- What is returned when the cursor comes to the links `zs`. -/
theorem filter_entry (hnodup : (addrs (ys ++ zs)).Nodup) (hx : x ∈ ys ++ zs) :
    [(headAddr none zs, headItem zs)].filter (·.1 = some x.1) =
      if zs.head? = some x then [(some x.1, x.2)] else [] := by
  by_cases hhead : zs.head? = some x
  · have haddr := (headAddr_eq_iff hnodup hx).2 hhead
    simp [hhead, haddr, headItem]
  · have haddr : headAddr none zs ≠ some x.1 :=
      fun heq => hhead ((headAddr_eq_iff hnodup hx).1 heq)
    simp [hhead, haddr]

/-- `getFirstItem` starts the traversal. -/
theorem Rep.walking (h : l.Rep xs) (hx : x ∈ xs) :
    Walking x { l with search := headAddr none xs } [(headAddr none xs, headItem xs)] [] xs := by
  refine ⟨h.search _, rfl, hx, ?_⟩
  have hnodup : (addrs ([] ++ xs)).Nodup := h.nodup
  rw [filter_entry hnodup hx]
  cases xs with
  | nil => cases hx
  | cons y ys =>
    have hnodup := (List.Nodup.of_map _ h.nodup).notMem
    by_cases heq : y = x
    · subst heq
      simp [hnodup]
    · have hmem := (List.mem_cons.1 hx).resolve_left (Ne.symm heq)
      simp [heq, hmem]

/-- `getNextItem` moves the traversal on by one link. -/
theorem Walking.next {z : Addr × Option ι} (h : Walking x l log ys (z :: zs)) :
    Walking x { l with search := headAddr none zs } (log ++ [(headAddr none zs, headItem zs)])
      (ys ++ [z]) zs := by
  have hsplit : ys ++ z :: zs = ys ++ [z] ++ zs := by simp
  have hrep : l.Rep (ys ++ [z] ++ zs) := hsplit ▸ h.rep
  have hmem : x ∈ ys ++ [z] ++ zs := hsplit ▸ h.mem
  refine ⟨hrep.search _, rfl, hmem, ?_⟩
  rw [List.filter_append, h.log, filter_entry hrep.nodup hmem, List.tail_cons]
  have hnodup := List.Nodup.of_map _ hrep.nodup
  cases zs with
  | nil => rfl
  | cons y zs =>
    have hy : y ∉ zs := (List.nodup_append.1 hnodup).2.1.notMem
    by_cases heq : y = x
    · subst heq
      simp [hy]
    · by_cases hx : x ∈ zs <;> simp [heq, Ne.symm heq, hx]

/-- Another link is taken out: it is behind the cursor or before it. -/
theorem Walking.removed {us vs : List (Addr × Option ι)} (h : Walking x l log ys zs)
    (hsplit : ys ++ zs = us ++ (a, item) :: vs) (hs : l.search ≠ some a)
    (hremoved : l.Removed a (us ++ vs) l') (hx : x ∈ us ++ vs) :
    ∃ ys zs, Walking x l' log ys zs := by
  have hne : us ++ vs ≠ [] := List.ne_nil_of_mem hx
  have hsearch : l'.search = headAddr none zs := by
    rw [hremoved.search, if_neg hne, h.search]
  have hxa : x ≠ (a, item) := by
    rintro rfl
    have hnodup := List.Nodup.of_map _ h.rep.nodup
    rw [hsplit, List.nodup_middle, List.nodup_cons] at hnodup
    exact hnodup.1 hx
  rw [h.search] at hs
  rcases List.append_eq_append_iff.1 hsplit with ⟨ws, rfl, rfl⟩ | ⟨ws, rfl, hws⟩
  · -- before the cursor, or under it
    cases ws with
    | nil => exact absurd rfl hs
    | cons w ws =>
      refine ⟨ys, w :: ws ++ vs, ?_, hsearch, ?_, h.log.trans (if_congr ?_ rfl rfl)⟩
      · simpa using hremoved.rep
      · simpa using hx
      · simp [hxa]
  · cases ws with
    | nil =>
      cases hws
      exact absurd rfl hs
    | cons w ws =>
      -- behind the cursor
      obtain ⟨rfl, rfl⟩ := List.cons.inj hws
      refine ⟨us ++ ws, zs, ?_, hsearch, ?_, h.log⟩
      · simpa using hremoved.rep
      · simpa using hx

/-- A careful call that leaves some link does not take out the one under the cursor. -/
theorem Careful.elsewhere {exception : Option Exception} (h : l.Rep (ys ++ (a, item) :: zs))
    (hfirst : item ∉ ys.map Prod.snd) (hcareful : l.Careful (.removeItem item exception))
    (hx : x ∈ ys ++ zs) : l.search ≠ some a := by
  intro hs
  have hcount : l.count = 1 := hcareful (by rw [hs]; rfl) (hs.trans (h.linkOf_eq hfirst).symm)
  have hpos := List.length_pos_of_mem hx
  rw [h.count] at hcount
  simp only [List.length_append, List.length_cons] at hcount hpos
  omega

/-- `addItem` adds a link before the cursor, or behind it if the traversal is over. -/
theorem Walking.added {b : Addr} (h : Walking x l log ys zs)
    (hrep : l'.Rep (ys ++ zs ++ [(b, item)])) (hsearch : l'.search = l.search) :
    ∃ ys zs, Walking x l' log ys zs := by
  have hmem := List.mem_append_left [(b, item)] h.mem
  have hlog := h.log
  rw [h.search] at hsearch
  cases zs with
  | nil =>
    rw [List.append_nil] at hrep hmem
    refine ⟨ys ++ [(b, item)], [], ?_, hsearch, ?_, hlog⟩
    · rwa [List.append_nil]
    · rwa [List.append_nil]
  | cons z zs =>
    rw [List.append_assoc] at hrep hmem
    have hne : x ≠ (b, item) := by
      rintro rfl
      have hnodup := List.Nodup.of_map _ hrep.nodup
      rw [← List.append_assoc, List.nodup_append] at hnodup
      exact hnodup.2.2 _ h.mem _ List.mem_cons_self rfl
    refine ⟨ys, z :: zs ++ [(b, item)], hrep, hsearch, hmem, hlog.trans (if_congr ?_ rfl rfl)⟩
    simp [hne]

/-- The calls of a traversal other than `getNextItem` return no item. -/
theorem visit_of_goes {c : Call ι} (hgoes : c.Goes) (hc : c ≠ .getNextItem) :
    visit l c l' log = log := by
  cases c with
  | setLimit | getItemCount => rfl
  | addItem item memory exception =>
    simp only [visit, LinkedList.perform]
    cases l.addItem item memory exception <;> rfl
  | removeItem item exception =>
    simp only [visit, LinkedList.perform]
    cases l.removeItem item exception <;> rfl
  | getFirstItem | searchItem => exact hgoes.elim
  | getNextItem => exact absurd rfl hc

/-- **One call of a traversal** returns the link at most once. -/
theorem Walking.step {c : Call ι} {p : LinkedList ι × List (Option Addr × Option ι)}
    (h : Walking x l log ys zs) (hgoes : c.Goes) (hcareful : l.Careful c)
    (hst : visiting.step (l, log) c = some p) (hx : x ∈ p.1.links) :
    ∃ ys zs, Walking x p.1 p.2 ys zs := by
  obtain ⟨l', log'⟩ := p
  obtain ⟨hstep, hvisit⟩ := Machine.observe_step hst
  obtain ⟨r, hrun⟩ : ∃ r, l.perform c = .ok (l', r) := machine_step hstep
  have hdone : l.Done (ys ++ zs) c l' := h.rep.done hrun
  obtain rfl : log' = visit l c l' log := hvisit
  by_cases hc : c = .getNextItem
  · subst hc
    cases zs with
    | nil =>
      have hs : l.search = none := h.search
      simp only [LinkedList.perform, getNextItem_of_none hs] at hrun
      cases hrun
      have hvisit : visit l .getNextItem l log = log ++ [(l.search, none)] := by
        simp only [visit, LinkedList.perform, getNextItem_of_none hs, ok_bind, pure_eq_ok]
      refine ⟨ys, [], h.rep, hs, h.mem, ?_⟩
      rw [hvisit, List.filter_append, h.log, hs]
      simp
    | cons z zs =>
      have hnext := h.rep.getNextItem h.search
      have hnext' := h.next
      simp only [LinkedList.perform, hnext, ok_bind, pure_eq_ok, Except.ok.injEq,
        Prod.mk.injEq] at hrun
      obtain ⟨rfl, -⟩ := hrun
      have hvisit : visit l .getNextItem { l with search := headAddr none zs } log =
          log ++ [(headAddr none zs, headItem zs)] := by
        simp only [visit, LinkedList.perform, hnext, ok_bind, pure_eq_ok]
      exact ⟨_, _, hvisit ▸ hnext'⟩
  · rw [visit_of_goes hgoes hc]
    cases hdone with
    | limited numItems exception =>
      exact ⟨ys, zs, ⟨h.rep.first, h.rep.last, h.rep.count, h.rep.chain, h.rep.nodup⟩, h.search,
        h.mem, h.log⟩
    | added item exception hrep hsearch => exact h.added hrep hsearch
    | removed exception hsplit hfirst hremoved =>
      rw [hremoved.rep.links_eq] at hx
      exact h.removed hsplit (Careful.elsewhere (hsplit ▸ h.rep) hfirst hcareful hx) hremoved hx
    | missed | counted => exact ⟨ys, zs, h⟩
    | next => exact absurd rfl hc
    | first | searched => exact hgoes.elim

/-- The rest of a traversal. -/
theorem Walking.run {mid : List (Call ι)} {p : LinkedList ι × List (Option Addr × Option ι)}
    (h : Walking x l log ys zs) (hgoes : ∀ c ∈ mid, c.Goes)
    (hcareful : machine.AllSteps Careful l mid)
    (hx : machine.AllStates (fun l => x ∈ l.links) l mid)
    (hrun : visiting.run (l, log) mid = some p) : ∃ ys zs, Walking x p.1 p.2 ys zs := by
  induction mid generalizing l log ys zs with
  | nil =>
    cases hrun
    exact ⟨ys, zs, h⟩
  | cons c mid ih =>
    obtain ⟨q, hst, hrun⟩ := Option.bind_eq_some_iff.1 hrun
    obtain ⟨l', log'⟩ := q
    have hstep : machine.step l c = some l' := (Machine.observe_step hst).1
    have hx' := hx.2 l' hstep
    obtain ⟨hc, hcareful'⟩ := hcareful l' hstep
    obtain ⟨ys', zs', h'⟩ := h.step (hgoes c List.mem_cons_self) hc hst hx'.head
    exact ih h' (fun c hc => hgoes c (List.mem_cons_of_mem _ hc)) hcareful' hx' hrun

/-- A traversal that is over has returned the link once. -/
theorem Walking.returned (h : Walking x l log ys zs) (hs : l.search = none) :
    log.filter (·.1 = some x.1) = [(some x.1, x.2)] := by
  have hlog := h.log
  cases zs with
  | nil => exact hlog
  | cons z zs =>
    cases h.search.symm.trans hs

/-! ### Every run -/

theorem machine_getFirstItem (h : l.Rep xs) :
    machine.step l .getFirstItem = some { l with search := headAddr none xs } := by
  simp only [machine, LinkedList.perform, h.getFirstItem, ok_bind, pure_eq_ok]

/-- A careful traversal returns every link that is in the list all the time. -/
theorem once_of_careful {mid : List (Call ι)} {p : LinkedList ι × List (Option Addr × Option ι)}
    (hl : l.Rep l.links) (hgoes : ∀ c ∈ mid, c.Goes)
    (hcareful : machine.AllSteps Careful l (.getFirstItem :: mid))
    (hrun : visiting.run (l, []) (.getFirstItem :: mid) = some p) (hs : p.1.search = none)
    (hx : machine.AllStates (fun l => x ∈ l.links) l (.getFirstItem :: mid)) :
    p.2.filter (·.1 = some x.1) = [(some x.1, x.2)] := by
  have hfirst := machine_getFirstItem hl
  have hvisit : visiting.step (l, []) .getFirstItem =
      some ({ l with search := headAddr none l.links },
        [(headAddr none l.links, headItem l.links)]) := by
    simp only [visiting, Machine.observe, hfirst, Option.map_some, visit, LinkedList.perform,
      hl.getFirstItem, ok_bind, pure_eq_ok, List.nil_append]
  rw [Machine.run_cons, hvisit, Option.bind_some] at hrun
  obtain ⟨ys, zs, h⟩ := (hl.walking hx.1).run hgoes (hcareful _ hfirst).2 (hx.2 _ hfirst) hrun
  exact h.returned hs

/-- **The cursor is safe exactly in careful runs**, those that never remove the link on which the
cursor stands, unless it is the only one. -/
theorem cursorSafe_iff (calls : List (Call ι)) :
    CursorSafe calls ↔ machine.AllSteps Careful new calls := by
  have hanchored : machine.AllStates Anchored new calls ↔ machine.AllSteps Careful new calls := by
    refine Machine.allStates_iff_allSteps (I := fun l => l.Rep l.links) rep_new ?_ ?_ ?_
    · intro a ha
      cases ha
    · exact fun l c l' hl hst => hl.step hst
    · intro l c l' hl hanchored hst
      obtain ⟨r, hrun⟩ := machine_step hst
      exact (hl.done hrun).anchored_iff hl hanchored
  refine ⟨fun h => hanchored.1 h.anchored, fun h => ⟨hanchored.2 h, ?_⟩⟩
  rintro pre mid post l p rfl hgoes hpre hrun hs x hx
  have hl := rep_of_reachable ⟨pre, hpre⟩
  exact once_of_careful hl hgoes (h.left.right hpre) hrun hs hx

/-- The item under the cursor is removed while another one is left. -/
theorem not_cursorSafe_removed :
    ¬ CursorSafe [.addItem (some 7) true none, .addItem (some 8) true none, .getFirstItem,
      .removeItem (some 7) none, (.getNextItem : Call ℕ)] := by
  intro h
  have hanchored := h.anchored
  revert hanchored
  decide +kernel

end LinkedList

end UavTelemetry
