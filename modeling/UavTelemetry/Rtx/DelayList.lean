import UavTelemetry.Rtx.TimerList

/-!
# The list of delayed tasks

The kernel chains the control blocks of the tasks that wait with a time-out, doubly linked and in
the order in which the time-outs expire.  A block holds the ticks that pass between the expiry for
its own task and for the next one; the header `os_dly` holds the ticks up to the first.  This file
translates the list functions (`rt_List.c`) down to the pointers and shows that they keep a queue
of countdowns.

## Main definitions

* `Delays` : the links and times, each field on its own.
* `Delays.rtPutDly`, `Delays.rtRmvDly` : the list functions.
* `Delays.decHead`, `Delays.takeFirst` : what `rt_dec_dly` does to the list.
* `Delays.Rep d q` : the fields represent the queue `q`.

## Main results

* `Delays.Rep.rtPutDly` : a task is inserted in front of those whose time-outs expire with its own.
* `Delays.Rep.rtRmvDly` : a task is removed, if it is there.
* `Delays.Rep.decHead` : a tick lets all entries count down.
-/

namespace UavTelemetry

namespace Rtx

/-- The fields of the delay list; `none` stands for the header `os_dly`. -/
structure Delays (τ : Type) where
  /-- `p_dlnk`. -/
  dlnk : Option τ → Option τ
  /-- `p_blnk`. -/
  blnk : τ → Option (Option τ)
  /-- `delta_time`. -/
  delta : Option τ → ℕ

namespace Delays

variable {τ : Type} [DecidableEq τ]

/-- The end of `rt_put_dly` at the label `last`: the task is chained behind `p`, the last one, with
`left` ticks more. -/
def chainLast (d : Delays τ) (t : τ) (p : Option τ) (left : ℕ) : Delays τ :=
  { dlnk := Function.update (Function.update d.dlnk (some t) none) p (some t)
    blnk := Function.update d.blnk t (some p)
    delta := Function.update (Function.update d.delta p (left % 0x10000)) (some t) 0 }

/-- The end of `rt_put_dly` when the right place is found: the task is chained behind `p`, `excess`
ticks before the next one. -/
def chainBetween (d : Delays τ) (t : τ) (p : Option τ) (excess : ℕ) : Delays τ :=
  let delta := Function.update d.delta (some t) (excess % 0x10000)
  { dlnk := Function.update (Function.update d.dlnk (some t) (d.dlnk p)) p (some t)
    blnk := relink (Function.update d.blnk t (some p)) (d.dlnk p) (some (some t))
    delta := Function.update delta p (subU16 (delta p) (delta (some t))) }

/-- The loop of `rt_put_dly`, which adds up the times. -/
def putAdv (d : Delays τ) (idelay delta : ℕ) (p : τ) : Option ℕ :=
  if delta < idelay then some (delta + d.delta (some p)) else none

/-- `rt_put_dly`: put the task into the delay list. -/
def rtPutDly [Fintype τ] (d : Delays τ) (t : τ) (delay : ℕ) : Except Fault (Delays τ) :=
  if d.dlnk none = none then .ok (d.chainLast t none delay)
  else
    (walk some d.dlnk (d.putAdv delay) (Fintype.card τ + 1) (d.delta none) none).map fun r =>
      if r.1 < delay then d.chainLast t r.2 (delay - r.1) else d.chainBetween t r.2 (r.1 - delay)

/-- How `rt_block` puts the task into the delay list: the time-out `0xFFFF` is none. -/
def putTimeout [Fintype τ] (d : Delays τ) (t : τ) (timeout : ℕ) : Except Fault (Delays τ) :=
  if timeout < 0xFFFF then d.rtPutDly t timeout else .ok d

/-- `rt_rmv_dly`: remove the task from the delay list if it is enqueued. -/
def rtRmvDly (d : Delays τ) (t : τ) : Delays τ :=
  match d.blnk t with
  | none => d
  | some b =>
    match d.dlnk (some t) with
    | some p =>
      { dlnk := Function.update (Function.update d.dlnk b (some p)) (some t) none
        blnk := Function.update (Function.update d.blnk p (some b)) t none
        delta := Function.update d.delta b (addU16 (d.delta b) (d.delta (some t))) }
    | none =>
      { dlnk := Function.update d.dlnk b none
        blnk := Function.update d.blnk t none
        delta := Function.update d.delta b 0 }

/-- The start of `rt_dec_dly`. -/
def decHead (d : Delays τ) : Delays τ :=
  { d with delta := Function.update d.delta none (subU16 (d.delta none) 1) }

/-- `rt_dec_dly` takes the first task out of the delay list. -/
def takeFirst (d : Delays τ) (t : τ) : Delays τ :=
  let p := d.dlnk (some t)
  { dlnk := Function.update (Function.update d.dlnk none p) (some t) none
    blnk := Function.update (relink d.blnk p (some none)) t none
    delta := Function.update d.delta none (d.delta (some t)) }

/-- The ticks between the expiry for a task and for the one before it. -/
def gap (d : Delays τ) (t : τ) : ℕ := (d.blnk t).elim 0 d.delta

/-- The tasks are chained in the order of `q`, with the ticks that are left for them. -/
structure Rep (d : Delays τ) (q : List (τ × ℕ)) : Prop where
  path : Path some d.dlnk none (q.map Prod.fst) none
  back : Back some d.blnk none (q.map Prod.fst)
  /-- A task has a link back only while it is in the list. -/
  free : ∀ t, t ∉ q.map Prod.fst → d.blnk t = none
  gaps : Gaps d.gap 0 q
  /-- The last block holds no time. -/
  last : d.delta (lastCell some none (q.map Prod.fst)) = 0
  /-- All times fit. -/
  le : ∀ e ∈ q, e.2 ≤ 0xFFFF

variable {d d' : Delays τ} {p q r : List (τ × ℕ)} {t u : τ} {delay : ℕ} {e : τ × ℕ}

omit [DecidableEq τ] in
theorem gap_eq {b : Option τ} (h : d.blnk t = some b) : d.gap t = d.delta b := by
  rw [gap, h]
  rfl

namespace Rep

omit [DecidableEq τ] in
theorem nodup (h : d.Rep q) : (q.map Prod.fst).Nodup := h.path.nodup_nodes

omit [DecidableEq τ] in
theorem length_lt [Fintype τ] (h : d.Rep q) : (q.map Prod.fst).length < Fintype.card τ + 1 :=
  Nat.lt_succ_of_le h.path.length_le

omit [DecidableEq τ] in
/-- **Frame rule**: a task keeps its gap when the link and the time in front of it stay. -/
theorem gap_congr (h : d.Rep q) (ht : t ∈ q.map Prod.fst) (hblnk : d'.blnk t = d.blnk t)
    (hdelta : ∀ b, d.dlnk b = some t → (∀ x, x ∉ q.map Prod.fst → b ≠ some x) →
      d'.delta b = d.delta b) : d'.gap t = d.gap t := by
  obtain ⟨b, hmem, hb, hnext⟩ := h.back.next_prev h.path ht
  rw [gap_eq hb, gap_eq (hblnk.trans hb)]
  refine hdelta b hnext fun x hx heq => hx ?_
  rw [heq] at hmem
  simpa using hmem

omit [DecidableEq τ] in
/-- The gap of an entry is the time in the block before it. -/
theorem gap_at (h : d.Rep (p ++ e :: q)) :
    d.gap e.1 = d.delta (lastCell some none (p.map Prod.fst)) := by
  have hback := h.back
  rw [List.map_append, List.map_cons] at hback
  exact gap_eq hback.prev_eq

omit [DecidableEq τ] in
theorem lastTime_add_gap (h : d.Rep (p ++ e :: q)) :
    lastTime 0 p + d.delta (lastCell some none (p.map Prod.fst)) = e.2 := by
  rw [← h.gap_at]
  exact (gaps_append.1 h.gaps).2.1

omit [DecidableEq τ] in
theorem nil_iff (h : d.Rep q) : d.dlnk none = none ↔ q = [] := by
  rw [h.path.headPtr_eq]
  cases q with
  | nil => exact iff_of_true rfl rfl
  | cons e q => exact iff_of_false nofun nofun

/-! ### Insertion -/

/-- A task enters behind all others. -/
theorem chainLast (h : d.Rep q) (ht : t ∉ q.map Prod.fst) (hlast : lastTime 0 q ≤ delay)
    (hdelay : delay ≤ 0xFFFF) :
    (d.chainLast t (lastCell some none (q.map Prod.fst)) (delay - lastTime 0 q)).Rep
      (q ++ [(t, delay)]) := by
  have hcell : some t ∉ none :: (q.map Prod.fst).map some := by simpa using ht
  have hpath : Path some d.dlnk none (q.map Prod.fst ++ []) none := by
    rw [List.append_nil]
    exact h.path
  have hback : Back some d.blnk none (q.map Prod.fst ++ []) := by
    rw [List.append_nil]
    exact h.back
  have hnext : d.dlnk (lastCell some none (q.map Prod.fst)) = none := hpath.next_lastCell
  have hmap : (q ++ [(t, delay)]).map Prod.fst = q.map Prod.fst ++ [t] := List.map_append
  have hne : lastCell some none (q.map Prod.fst) ≠ some t :=
    ne_of_mem_of_not_mem lastCell_mem hcell
  refine ⟨?_, ?_, fun x hx => ?_, ?_, ?_, fun e he => ?_⟩
  · rw [hmap]
    have hins := hpath.insert (x := t) (by rwa [List.append_nil])
    rwa [hnext] at hins
  · rw [hmap]
    exact hback.insert (by rw [List.append_nil]; exact h.nodup) (by rwa [List.append_nil])
  · rw [hmap, List.mem_append, not_or, List.mem_singleton] at hx
    exact (Function.update_of_ne hx.2 ..).trans (h.free x hx.1)
  · have hgaps : Gaps d.gap 0 (q ++ []) := by
      rw [List.append_nil]
      exact h.gaps
    refine hgaps.insert ?_ hlast (fun e he => nomatch he) fun e he => ?_
    · have hblnk : (d.chainLast t (lastCell some none (q.map Prod.fst))
          (delay - lastTime 0 q)).blnk t = some (lastCell some none (q.map Prod.fst)) :=
        Function.update_self ..
      rw [gap_eq hblnk]
      simp only [Delays.chainLast, Function.update_of_ne hne, Function.update_self]
      exact Nat.mod_eq_of_lt (by omega)
    · have hmem : e.1 ∈ q.map Prod.fst := List.mem_map_of_mem (by simpa using he)
      refine h.gap_congr hmem (Function.update_of_ne (ne_of_mem_of_not_mem hmem ht) ..)
        fun b hb hfresh => ?_
      have hb' : b ≠ lastCell some none (q.map Prod.fst) := by
        rintro rfl
        cases hnext.symm.trans hb
      exact (Function.update_of_ne (hfresh t ht) ..).trans (Function.update_of_ne hb' ..)
  · rw [hmap, lastCell_append]
    exact Function.update_self ..
  · rw [List.mem_append, List.mem_singleton] at he
    obtain he | rfl := he
    · exact h.le e he
    · exact hdelay

/-- A task enters in front of an entry that expires no earlier. -/
theorem chainBetween (h : d.Rep (p ++ e :: r)) (ht : t ∉ (p ++ e :: r).map Prod.fst)
    (hlast : lastTime 0 p ≤ delay) (hdelay : delay ≤ e.2) :
    (d.chainBetween t (lastCell some none (p.map Prod.fst)) (e.2 - delay)).Rep
      (p ++ (t, delay) :: e :: r) := by
  have hsum := h.lastTime_add_gap
  have hmax := h.le e (by simp)
  have hpath := h.path
  have hback := h.back
  have hnodup := h.nodup
  rw [List.map_append, List.map_cons] at hpath hback hnodup ht
  have hcell : some t ∉ none :: (p.map Prod.fst ++ e.1 :: r.map Prod.fst).map some := by
    simpa using ht
  have hnext : d.dlnk (lastCell some none (p.map Prod.fst)) = some e.1 := hpath.next_lastCell
  have hmem : lastCell some none (p.map Prod.fst) ∈
      none :: (p.map Prod.fst ++ e.1 :: r.map Prod.fst).map some := by
    rw [List.map_append, ← List.cons_append]
    exact List.mem_append_left _ lastCell_mem
  have hne : lastCell some none (p.map Prod.fst) ≠ some t := ne_of_mem_of_not_mem hmem hcell
  have het : e.1 ≠ t := fun heq => ht (by simp [heq])
  have hmap : (p ++ (t, delay) :: e :: r).map Prod.fst =
      p.map Prod.fst ++ t :: e.1 :: r.map Prod.fst := by simp
  have hmod : (e.2 - delay) % 0x10000 = e.2 - delay := Nat.mod_eq_of_lt (by omega)
  refine ⟨?_, ?_, fun x hx => ?_, ?_, ?_, fun e' he' => ?_⟩
  · rw [hmap]
    exact hpath.insert hcell
  · rw [hmap]
    refine (hback.insert hnodup ht).congr fun x _ => ?_
    simp only [Delays.chainBetween, hnext, headPtr_cons, relink]
    rw [Function.update_comm het.symm]
  · rw [hmap, List.mem_append, List.mem_cons, List.mem_cons, not_or, not_or, not_or] at hx
    simp only [Delays.chainBetween, hnext, relink, Function.update_of_ne hx.2.1,
      Function.update_of_ne hx.2.2.1]
    exact h.free x (by simp [hx])
  · have hgap : ∀ x b, (d.chainBetween t (lastCell some none (p.map Prod.fst))
        (e.2 - delay)).blnk x = some b → _ := fun x b => gap_eq
    refine h.gaps.insert ?_ hlast (fun e' he' => ?_) fun e' he' => ?_
    · rw [hgap t (lastCell some none (p.map Prod.fst)) ?_]
      · simp only [Delays.chainBetween, Function.update_self, Function.update_of_ne hne, hmod]
        rw [subU16_of_le (by omega) (by omega)]
        omega
      · simp only [Delays.chainBetween, hnext, relink, Function.update_of_ne het.symm,
          Function.update_self]
    · obtain rfl : e = e' := by simpa using he'
      refine ⟨hdelay, ?_⟩
      rw [hgap e.1 (some t) ?_, hgap t (lastCell some none (p.map Prod.fst)) ?_, h.gap_at]
      · simp only [Delays.chainBetween, Function.update_self, Function.update_of_ne hne,
          Function.update_of_ne hne.symm, hmod]
        rw [subU16_of_le (by omega) (by omega)]
        omega
      · simp only [Delays.chainBetween, hnext, relink, Function.update_of_ne het.symm,
          Function.update_self]
      · simp only [Delays.chainBetween, hnext, relink, Function.update_self]
    · have hitem := ne_of_nodup_items h.nodup he'
      have hmem' : e'.1 ∈ (p ++ e :: r).map Prod.fst := by
        rw [List.tail_cons] at he'
        have := List.mem_map_of_mem (f := Prod.fst) he'
        simp only [List.map_append, List.map_cons, List.mem_append, List.mem_cons] at this ⊢
        tauto
      have ht' : t ∉ (p ++ e :: r).map Prod.fst := by simpa using ht
      refine h.gap_congr hmem' ?_ fun b hb hfresh => ?_
      · simp only [Delays.chainBetween, hnext, relink, Function.update_of_ne hitem,
          Function.update_of_ne (ne_of_mem_of_not_mem hmem' ht')]
      · have hb' : b ≠ lastCell some none (p.map Prod.fst) := by
          rintro rfl
          exact hitem (Option.some.inj (hb.symm.trans hnext))
        simp only [Delays.chainBetween, Function.update_of_ne hb',
          Function.update_of_ne (hfresh t ht')]
  · have hlast := h.last
    rw [hmap]
    rw [List.map_append, List.map_cons] at hlast
    simp only [lastCell_append, lastCell_cons] at hlast ⊢
    have hin : lastCell some (some e.1) (r.map Prod.fst) ∈ (e.1 :: r.map Prod.fst).map some :=
      lastCell_mem
    have hl : lastCell some (some e.1) (r.map Prod.fst) ≠ lastCell some none (p.map Prod.fst) :=
      fun heq => lastCell_notMem hpath.nodup (heq ▸ hin)
    have hlt : lastCell some (some e.1) (r.map Prod.fst) ≠ some t := by
      refine ne_of_mem_of_not_mem hin fun hmem => ht ?_
      simpa using Or.inr hmem
    simp only [Delays.chainBetween, Function.update_of_ne hl, Function.update_of_ne hlt, hlast]
  · have hmem' : e' ∈ (t, delay) :: (p ++ e :: r) := List.perm_middle.mem_iff.1 he'
    cases hmem' with
    | head => exact hdelay.trans hmax
    | tail _ hmem' => exact h.le e' hmem'

/-- What the loop of `rt_put_dly` adds up to before the entries `q`. -/
def upcoming (b : ℕ) : List (τ × ℕ) → ℕ
  | [] => b
  | e :: _ => e.2

omit [DecidableEq τ] in
@[simp] theorem upcoming_nil {b : ℕ} : upcoming b ([] : List (τ × ℕ)) = b := rfl

omit [DecidableEq τ] in
@[simp] theorem upcoming_cons {b : ℕ} : upcoming b (e :: q) = e.2 := rfl

omit [DecidableEq τ] in
/-- The loop of `rt_put_dly` passes the entries that expire earlier. -/
theorem putAdv_walk (delay : ℕ) {b : ℕ} {c : Option τ} (hback : Back some d.blnk c (q.map Prod.fst))
    (hgaps : Gaps d.gap b q) (hlast : d.delta (lastCell some c (q.map Prod.fst)) = 0) :
    passed (d.putAdv delay) (upcoming b q) (q.map Prod.fst) =
        (q.takeWhile fun e => e.2 < delay).map Prod.fst ∧
      carried (d.putAdv delay) (upcoming b q) (q.map Prod.fst) =
        upcoming (lastTime b q) (q.dropWhile fun e => e.2 < delay) := by
  induction q generalizing b c with
  | nil => exact ⟨rfl, rfl⟩
  | cons e q ih =>
    by_cases hlt : e.2 < delay
    · have hadv : d.putAdv delay e.2 e.1 = some (upcoming e.2 q) := by
        rw [putAdv, if_pos hlt]
        refine congrArg some ?_
        cases q with
        | nil => exact congrArg (e.2 + ·) hlast
        | cons e' q =>
          rw [← gap_eq hback.2.1]
          exact hgaps.2.1
      obtain ⟨hpassed, hcarried⟩ := ih hback.2 hgaps.2 hlast
      rw [List.takeWhile_cons_of_pos (by simpa using hlt),
        List.dropWhile_cons_of_pos (by simpa using hlt)]
      simp only [List.map_cons, upcoming_cons, passed, carried, hadv, hpassed, hcarried,
        lastTime_cons, true_and]
    · have hadv : d.putAdv delay e.2 e.1 = none := if_neg hlt
      rw [List.takeWhile_cons_of_neg (by simpa using hlt),
        List.dropWhile_cons_of_neg (by simpa using hlt)]
      simp only [List.map_cons, upcoming_cons, passed, carried, hadv, List.map_nil, true_and]

/-- **`rt_put_dly` inserts a task in front of those whose time-outs expire with its own.** -/
theorem rtPutDly [Fintype τ] (h : d.Rep q) (ht : t ∉ q.map Prod.fst) (hdelay : delay ≤ 0xFFFF) :
    ∃ d', d.rtPutDly t delay = .ok d' ∧ d'.Rep (insertFirst Prod.snd (t, delay) q) := by
  by_cases hnil : d.dlnk none = none
  · obtain rfl := h.nil_iff.1 hnil
    exact ⟨d.chainLast t none delay, if_pos hnil, h.chainLast ht (Nat.zero_le _) hdelay⟩
  have hsplit := List.takeWhile_append_dropWhile (p := fun e : τ × ℕ => e.2 < delay) (l := q)
  have hwalk := walk_eq (d.putAdv delay) (upcoming 0 q) h.path h.length_lt
  obtain ⟨hpassed, hcarried⟩ := putAdv_walk delay h.back h.gaps h.last
  rw [hpassed, hcarried] at hwalk
  have hstart : upcoming 0 q = d.delta none := by
    cases q with
    | nil => exact absurd (h.nil_iff.2 rfl) hnil
    | cons e q =>
      have hfirst : Delays.Rep d ([] ++ e :: q) := h
      exact (hfirst.lastTime_add_gap.symm.trans (Nat.zero_add _))
  rw [hstart] at hwalk
  have hins : insertFirst Prod.snd (t, delay) q =
    (q.takeWhile fun e => e.2 < delay) ++ (t, delay) :: q.dropWhile fun e => e.2 < delay :=
      insertFirst_eq
  have hle : lastTime 0 (q.takeWhile fun e => e.2 < delay) ≤ delay :=
    le_lastTime (Nat.zero_le _) fun e he => by
      have : e.2 < delay := by simpa using List.mem_takeWhile_imp he
      exact this.le
  have hafter := h.gaps.ascending.dropWhile_lt (c := delay)
  rw [hins, Delays.rtPutDly, if_neg hnil, hwalk]
  refine ⟨_, rfl, ?_⟩
  cases hdrop : q.dropWhile fun e => e.2 < delay with
  | nil =>
    rw [hdrop, List.append_nil] at hsplit
    have hbelow : ∀ e ∈ q, e.2 < delay := fun e he => by
      rw [← hsplit] at he
      simpa using List.mem_takeWhile_imp he
    obtain ⟨e, q', rfl⟩ := List.exists_cons_of_ne_nil (mt h.nil_iff.2 hnil)
    have hpos : 0 < delay := Nat.zero_lt_of_lt (hbelow e List.mem_cons_self)
    have hlt : lastTime 0 (e :: q') ≤ delay - 1 :=
      le_lastTime (Nat.zero_le _) fun e he => Nat.le_sub_one_of_lt (hbelow e he)
    rw [hsplit] at hle ⊢
    show Delays.Rep (if lastTime 0 (e :: q') < delay then _ else _) _
    rw [if_pos (by omega)]
    exact h.chainLast ht hle hdelay
  | cons e r =>
    rw [hdrop] at hsplit hafter
    have he : delay ≤ e.2 := hafter e List.mem_cons_self
    have hrep : d.Rep ((q.takeWhile fun e => e.2 < delay) ++ e :: r) := hsplit.symm ▸ h
    show Delays.Rep (if e.2 < delay then _ else _) _
    rw [if_neg (not_lt.2 he)]
    exact hrep.chainBetween (by rwa [hsplit]) hle he

/-! ### Removal -/

omit [DecidableEq τ] in
/-- The link of an entry. -/
theorem dlnk_at (h : d.Rep (p ++ (t, delay) :: q)) :
    d.dlnk (some t) = headPtr none (q.map Prod.fst) := by
  have hpath := h.path
  rw [List.map_append, List.map_cons] at hpath
  exact (path_append.1 hpath).2.2.headPtr_eq

omit [DecidableEq τ] in
/-- The block of an entry holds the ticks to the next one. -/
theorem delta_at (h : d.Rep (p ++ (t, delay) :: q)) :
    delay + d.delta (some t) = upcoming delay q := by
  cases q with
  | nil =>
    have hlast := h.last
    rw [List.map_append, lastCell_append] at hlast
    exact congrArg (delay + ·) hlast
  | cons e q =>
    have hback := h.back
    rw [List.map_append] at hback
    rw [← gap_eq (back_append.1 hback).2.2.1]
    exact (gaps_append.1 h.gaps).2.2.1

/-- What `rt_rmv_dly` does to the fields. -/
theorem rtRmvDly_eq (h : d.Rep (p ++ (t, delay) :: q)) :
    d.rtRmvDly t =
      { dlnk := Function.update (Function.update d.dlnk (lastCell some none (p.map Prod.fst))
          (d.dlnk (some t))) (some t) none
        blnk := Function.update (relink d.blnk (d.dlnk (some t)) (d.blnk t)) t none
        delta := Function.update d.delta (lastCell some none (p.map Prod.fst))
          (upcoming (lastTime 0 p) q - lastTime 0 p) } := by
  have hback := h.back
  have hnodup := h.nodup
  rw [List.map_append, List.map_cons] at hback hnodup
  have htp := (List.nodup_cons.1 (List.nodup_middle.1 hnodup)).1
  have hne : lastCell some none (p.map Prod.fst) ≠ some t := by
    refine ne_of_mem_of_not_mem lastCell_mem fun hmem => htp ?_
    simpa using Or.inl hmem
  have hnext := h.dlnk_at
  have hdelta := h.delta_at
  have hsum : lastTime 0 p + d.delta (lastCell some none (p.map Prod.fst)) = delay :=
    h.lastTime_add_gap
  rw [Delays.rtRmvDly, hback.prev_eq]
  cases q with
  | nil =>
    simp only [hnext, List.map_nil, headPtr_nil, relink, upcoming_nil, Nat.sub_self]
    have hself : Function.update d.dlnk (some t) none = d.dlnk := by
      rw [← show d.dlnk (some t) = none from hnext, Function.update_eq_self]
    rw [Function.update_comm hne, hself]
  | cons e q =>
    have hle := h.le e (by simp)
    simp only [hnext, List.map_cons, headPtr_cons, relink, upcoming_cons] at hdelta ⊢
    rw [addU16_of_le (by omega)]
    congr 2
    omega

/-- A task is taken out. -/
theorem unchain (h : d.Rep (p ++ (t, delay) :: q)) : (d.rtRmvDly t).Rep (p ++ q) := by
  have hpath := h.path
  have hback := h.back
  have hnodup := h.nodup
  rw [List.map_append, List.map_cons] at hpath hback hnodup
  obtain ⟨htp, htq⟩ : t ∉ p.map Prod.fst ∧ t ∉ q.map Prod.fst := by
    rw [← not_or, ← List.mem_append]
    exact (List.nodup_cons.1 (List.nodup_middle.1 hnodup)).1
  have hmap : (p ++ q).map Prod.fst = p.map Prod.fst ++ q.map Prod.fst := List.map_append
  have hnext := h.dlnk_at
  have hsum : lastTime 0 p + d.delta (lastCell some none (p.map Prod.fst)) = delay :=
    h.lastTime_add_gap
  have hdelta := h.delta_at
  have hb : ∀ x ∈ p.map Prod.fst ++ q.map Prod.fst, (∀ e ∈ q.head?, x ≠ e.1) →
      (d.rtRmvDly t).blnk x = d.blnk x := by
    intro x hx hhead
    have hxt : x ≠ t := by
      rintro rfl
      exact (List.mem_append.1 hx).elim htp htq
    rw [h.rtRmvDly_eq, hnext]
    refine (Function.update_of_ne hxt ..).trans (relink_of_ne fun heq => ?_)
    cases q with
    | nil => cases heq
    | cons e q => exact hhead e rfl (Option.some.inj heq).symm
  refine ⟨?_, ?_, fun x hx => ?_, ?_, ?_, fun e he => ?_⟩
  · rw [hmap, h.rtRmvDly_eq]
    refine hpath.remove.update ?_ none
    rw [List.mem_cons, List.map_append, List.mem_append]
    simpa using not_or.2 ⟨htp, htq⟩
  · rw [hmap, h.rtRmvDly_eq, hnext]
    refine (hback.remove hnodup).congr fun x hx => Function.update_of_ne ?_ ..
    rintro rfl
    exact (List.mem_append.1 hx).elim htp htq
  · rw [h.rtRmvDly_eq, hnext]
    by_cases hxt : x = t
    · exact hxt ▸ Function.update_self ..
    · rw [hmap, List.mem_append, not_or] at hx
      have hx' : x ∉ (p ++ (t, delay) :: q).map Prod.fst := by
        simp only [List.map_append, List.map_cons, List.mem_append, List.mem_cons]
        tauto
      refine (Function.update_of_ne hxt ..).trans ((relink_of_ne fun heq => ?_).trans (h.free x hx'))
      cases q with
      | nil => cases heq
      | cons e q => exact hx.2 (Option.some.inj heq ▸ List.mem_cons_self)
  · refine h.gaps.remove (fun e he => ?_) fun e he => ?_
    · cases q with
      | nil => cases he
      | cons e' q =>
        obtain rfl : e' = e := by simpa using he
        have het : e'.1 ≠ t := fun heq => htq (heq ▸ List.mem_cons_self)
        have hblnk : (d.rtRmvDly t).blnk e'.1 = some (lastCell some none (p.map Prod.fst)) := by
          rw [h.rtRmvDly_eq, hnext, hback.prev_eq]
          exact (Function.update_of_ne het ..).trans (Function.update_self ..)
        have hgap : delay + d.gap e'.1 = e'.2 := (gaps_append.1 h.gaps).2.2.1
        have hgapt : d.gap t = _ := h.gap_at
        rw [gap_eq hblnk, hgapt, h.rtRmvDly_eq]
        refine (Function.update_self ..).trans ?_
        rw [upcoming_cons]
        omega
    · have hmem : e.1 ∈ p.map Prod.fst ++ q.map Prod.fst := by
        rw [← hmap]
        exact List.mem_map_of_mem ((List.mem_append.1 he).elim (List.mem_append_left _)
          fun he => List.mem_append_right _ (List.mem_of_mem_tail he))
      refine h.gap_congr ?_ (hb _ hmem fun e' he' => ?_) fun b hnextb _ => ?_
      · simp only [List.map_append, List.map_cons, List.mem_append, List.mem_cons] at hmem ⊢
        tauto
      · cases q with
        | nil => cases he'
        | cons e'' q =>
          obtain rfl : e'' = e' := by simpa using he'
          have hrest : (((p ++ [(t, delay)]) ++ e'' :: q).map Prod.fst).Nodup := by
            rw [List.append_assoc]
            exact h.nodup
          refine ne_of_nodup_items hrest ?_
          simp only [List.tail_cons, List.mem_append] at he ⊢
          tauto
      · rw [h.rtRmvDly_eq]
        refine Function.update_of_ne ?_ ..
        rintro rfl
        have het : e.1 = t := Option.some.inj (hnextb.symm.trans hpath.next_lastCell)
        rw [het] at hmem
        exact (List.mem_append.1 hmem).elim htp htq
  · rw [hmap, lastCell_append, h.rtRmvDly_eq]
    cases q with
    | nil => exact (Function.update_self ..).trans (Nat.sub_self _)
    | cons e q =>
      have hlast := h.last
      rw [List.map_append, lastCell_append] at hlast
      have hin : lastCell some (some e.1) (q.map Prod.fst) ∈ (e.1 :: q.map Prod.fst).map some :=
        lastCell_mem
      refine (Function.update_of_ne (ne_of_mem_of_not_mem hin fun hmem => ?_) ..).trans hlast
      exact lastCell_notMem hpath.nodup (List.mem_cons_of_mem _ hmem)
  · exact h.le e (by simp only [List.mem_append, List.mem_cons] at he ⊢; tauto)

/-- **`rt_rmv_dly` removes a task**, if it is in the list. -/
theorem rtRmvDly (h : d.Rep q) (t : τ) : (d.rtRmvDly t).Rep (q.filter fun e => e.1 ≠ t) := by
  by_cases ht : t ∈ q.map Prod.fst
  · obtain ⟨⟨x, delay⟩, hmem, rfl⟩ := List.mem_map.1 ht
    obtain ⟨p, r, rfl⟩ := List.append_of_mem hmem
    rw [filter_item_ne h.nodup]
    exact h.unchain
  · have hfilter : (q.filter fun e => e.1 ≠ t) = q := by
      refine List.filter_eq_self.2 fun e he => decide_eq_true ?_
      rintro rfl
      exact ht (List.mem_map_of_mem he)
    rw [hfilter, Delays.rtRmvDly, h.free t ht]
    exact h

/-! ### A tick -/

/-- The first entry takes the tick. -/
theorem decHead (h : d.Rep (e :: q)) (hpos : 0 < e.2) : d.decHead.Rep (elapse (e :: q)) := by
  have hfirst : d.dlnk none = some e.1 := h.path.1
  have hmap : (elapse (e :: q)).map Prod.fst = e.1 :: q.map Prod.fst := map_fst_elapse
  have hdelta : d.delta none = e.2 := by
    have hrep : d.Rep ([] ++ e :: q) := h
    exact (Nat.zero_add _).symm.trans hrep.lastTime_add_gap
  have hle := h.le e List.mem_cons_self
  refine ⟨hmap ▸ h.path, hmap ▸ h.back, fun x hx => h.free x ?_, ?_, ?_, fun e' he' => ?_⟩
  · rwa [hmap] at hx
  · refine h.gaps.elapse hpos ?_ fun e' he' => ?_
    · have hblnk : d.blnk e.1 = some none := h.back.1
      rw [gap_eq hblnk, gap_eq (show d.decHead.blnk e.1 = some none from hblnk)]
      show Function.update d.delta none (subU16 (d.delta none) 1) none = _
      rw [Function.update_self, subU16_of_le (by omega) (by omega)]
    · have hnodup : (([] ++ e :: q).map Prod.fst).Nodup := h.nodup
      have hne : e'.1 ≠ e.1 := ne_of_nodup_items hnodup he'
      refine h.gap_congr (List.mem_cons_of_mem _ (List.mem_map_of_mem he')) rfl fun b hb _ => ?_
      refine Function.update_of_ne ?_ ..
      rintro rfl
      exact hne (Option.some.inj (hb.symm.trans hfirst))
  · rw [hmap]
    have hin : lastCell some (some e.1) (q.map Prod.fst) ∈ (e.1 :: q.map Prod.fst).map some :=
      lastCell_mem
    refine (Function.update_of_ne ?_ ..).trans h.last
    intro heq
    rw [show lastCell some (some e.1) (q.map Prod.fst) = none from heq] at hin
    simp at hin
  · obtain ⟨e'', he'', rfl⟩ := List.mem_map.1 he'
    exact (Nat.sub_le ..).trans (h.le e'' he'')

/-- The first task is taken out when it is due. -/
theorem takeFirst (h : d.Rep ((t, 0) :: q)) : (d.takeFirst t).Rep q := by
  have hrep : d.Rep ([] ++ (t, 0) :: q) := h
  have hblnk : d.blnk t = some none := h.back.1
  have hdelta : 0 + d.delta (some t) = upcoming 0 q := hrep.delta_at
  have hsame : d.takeFirst t = d.rtRmvDly t := by
    rw [hrep.rtRmvDly_eq, hblnk, Delays.takeFirst, lastTime_nil, ← hdelta, Nat.zero_add,
      Nat.sub_zero]
    rfl
  rw [hsame]
  exact hrep.unchain

/-- The links and the time of a task that is not in the list are cleared. -/
theorem initContext (h : d.Rep q) (ht : t ∉ q.map Prod.fst) :
    ({ dlnk := Function.update d.dlnk (some t) none
       blnk := Function.update d.blnk t none
       delta := Function.update d.delta (some t) 0 } : Delays τ).Rep q := by
  have hblnk : Function.update d.blnk t none = d.blnk := by
    rw [← h.free t ht]
    exact Function.update_eq_self ..
  have hcell : some t ∉ none :: (q.map Prod.fst).map some := by simpa using ht
  rw [hblnk]
  refine ⟨h.path.update hcell none, h.back, h.free, h.gaps.congr fun e he => ?_, ?_, h.le⟩
  · refine h.gap_congr (List.mem_map_of_mem he) rfl fun b _ hb => ?_
    exact Function.update_of_ne (hb t ht) ..
  · refine (Function.update_of_ne ?_ ..).trans h.last
    exact ne_of_mem_of_not_mem lastCell_mem hcell

end Rep

end Delays

end Rtx

end UavTelemetry
