import Mathlib.Data.List.Basic
import Mathlib.Logic.Function.Basic
import UavTelemetry.Broker.Errors
import UavTelemetry.LTS.Basic

/-!
# The pending count and what is owed

`Topic::count` is documented as the number of observers that were notified and have not marked the
topic as consumed.  This file runs the broker together with an account of the subscribers that
owe an acknowledgement: the account is written by the notifications themselves, and a subscriber
leaves it when it calls `consumed` or detaches.

The subscribers keep to the rules: none attaches to a topic twice, and each calls `consumed` only
while it owes an acknowledgement.  Allocations may fail.

## Main definitions

* `Ledger` : the broker and the account; `Ledger.machine` runs requests.
* `Ledger.Exact` : the counts are what is owed, and `publish` goes by what is owed.
* `Ledger.Settled` : the request does not detach an observer that owes an acknowledgement.

## Main results

* `Ledger.exact_iff` : the counts are exact along a run exactly if its requests are settled;
  `detach` forgets to take back the count.
-/

namespace UavTelemetry

namespace MsgBroker

variable {σ κ δ : Type}

/-- A request of a subscriber or a publisher. -/
inductive Request (σ κ δ : Type)
  | installTopic (m : Malloc) (name : String) (datasize : ℕ)
  | attach (m : Malloc) (name : String) (subscriber : σ) (notify : κ)
  | detach (name : String) (subscriber : σ)
  | publish (name : String) (data : Option δ) (datasize : ℕ)
  /-- `subscriber` calls `consumed`. -/
  | consumed (name : String) (subscriber : σ)
  deriving DecidableEq, Repr

namespace Request

/-- The call of the broker. -/
def call : Request σ κ δ → Call σ κ δ
  | .installTopic _ name datasize => .installTopic name datasize
  | .attach _ name subscriber notify => .attach name subscriber notify
  | .detach name subscriber => .detach name subscriber
  | .publish name data datasize => .publish name data datasize
  | .consumed name _ => .consumed name

/-- The allocations that succeed. -/
def malloc : Request σ κ δ → Malloc
  | .installTopic m _ _ => m
  | .attach m _ _ _ => m
  | _ => .ok

/-- The topic. -/
def name : Request σ κ δ → String
  | .installTopic _ name _ => name
  | .attach _ name _ _ => name
  | .detach name _ => name
  | .publish name _ _ => name
  | .consumed name _ => name

theorem call_name (q : Request σ κ δ) : q.call.name = some q.name := by
  cases q <;> rfl

end Request

/-- For each topic, the subscribers that owe an acknowledgement. -/
abbrev Account (σ : Type) := String → List σ

/-- A notification enters the subscriber into the account. -/
def record (_ : κ) (subscriber : σ) (name : String) (owed : Account σ) : Account σ :=
  Function.update owed name (subscriber :: owed name)

/-- The broker and the account of the subscribers. -/
structure Ledger (σ κ δ : Type) where
  /-- The broker. -/
  broker : MsgBroker σ κ δ
  /-- The subscribers notified of the latest accepted publication of each topic that have neither
  called `consumed` nor detached since. -/
  owed : Account σ

/-- The subscribers of a topic, in the order in which they attached. -/
def subscribers (b : MsgBroker σ κ δ) (name : String) : List σ :=
  match b.view with
  | .error _ => []
  | .ok entries =>
    match entries.find? fun e => name = e.1 with
    | none => []
    | some e => e.2.observers.map Observer.observer

/-- How many of the observers owe an acknowledgement. -/
def owing [DecidableEq σ] (owed : List σ) (observers : List (Observer σ κ)) : ℕ :=
  observers.countP fun obs => obs.observer ∈ owed

namespace Ledger

/-- An initialised broker without topics. -/
def init : Ledger σ κ δ := ⟨⟨some .new⟩, fun _ => []⟩

variable [DecidableEq σ]

/-- The rules that the subscribers keep. -/
def Allowed (s : Ledger σ κ δ) : Request σ κ δ → Prop
  | .attach _ name subscriber _ => subscriber ∉ subscribers s.broker name
  | .consumed name subscriber => subscriber ∈ s.owed name
  | _ => True

instance (s : Ledger σ κ δ) : (q : Request σ κ δ) → Decidable (s.Allowed q)
  | .installTopic _ _ _ => inferInstanceAs (Decidable True)
  | .attach _ name subscriber _ =>
    inferInstanceAs (Decidable (subscriber ∉ subscribers s.broker name))
  | .detach _ _ => inferInstanceAs (Decidable True)
  | .publish _ _ _ => inferInstanceAs (Decidable True)
  | .consumed name subscriber => inferInstanceAs (Decidable (subscriber ∈ s.owed name))

/-- The account with which a request is made: a publication starts with an empty one. -/
def opening (owed : Account σ) : Request σ κ δ → Account σ
  | .publish name _ _ => Function.update owed name []
  | _ => owed

/-- The account after a request that was carried out. -/
def closing (owed : Account σ) : Request σ κ δ → Account σ
  | .detach name subscriber => Function.update owed name ((owed name).filter (· ≠ subscriber))
  | .consumed name subscriber => Function.update owed name ((owed name).filter (· ≠ subscriber))
  | _ => owed

/-- One request; a call that does not return ends the run. -/
def step (s : Ledger σ κ δ) (q : Request σ κ δ) : Option (Ledger σ κ δ) :=
  if s.Allowed q then
    match performWith record q.malloc s.broker (opening s.owed q) q.call with
    | .error _ => none
    | .ok ((b, owed), e, _) => some ⟨b, if e = .noErrors then closing owed q else s.owed⟩
  else none

/-- The runs of the broker. -/
def machine : Machine (Ledger σ κ δ) (Request σ κ δ) := ⟨step⟩

/-- **The count is what is owed**: the count of every topic is the number of its observers that
were notified of the latest accepted publication and have not consumed it, and a publication of
the right size is accepted exactly if there is none. -/
def Exact (s : Ledger σ κ δ) : Prop :=
  ∃ entries, s.broker.view = .ok entries ∧ ∀ name e, (name, e) ∈ entries →
    e.count = owing (s.owed name) e.observers ∧
      ∀ data, (∃ b owed, s.broker.publish record name data e.datasize s.owed =
          .ok (b, .noErrors, owed)) ↔ ∀ obs ∈ e.observers, obs.observer ∉ s.owed name

/-- The request does not detach an observer that owes an acknowledgement. -/
def Settled (s : Ledger σ κ δ) : Request σ κ δ → Prop
  | .detach name subscriber => subscriber ∉ s.owed name
  | _ => True

end Ledger

/-! ### Counting -/

section

variable [DecidableEq σ] {owed : List σ} {observers : List (Observer σ κ)} {subscriber : σ}

theorem owing_filter (hnodup : (observers.map Observer.observer).Nodup)
    (howed : subscriber ∈ owed) (hmem : subscriber ∈ observers.map Observer.observer) :
    owing owed observers = owing (owed.filter (· ≠ subscriber)) observers + 1 := by
  induction observers with
  | nil => simp at hmem
  | cons obs observers ih =>
    rw [List.map_cons, List.nodup_cons] at hnodup
    rw [List.map_cons, List.mem_cons] at hmem
    by_cases heq : obs.observer = subscriber
    -- the subscriber is counted here, and not behind
    · have hrest : owing (owed.filter (· ≠ subscriber)) observers = owing owed observers := by
        refine List.countP_congr fun x hx => ?_
        have hne : x.observer ≠ subscriber := by
          rintro rfl
          exact hnodup.1 (heq ▸ List.mem_map_of_mem hx)
        simp [hne]
      rw [owing, owing] at hrest
      rw [owing, owing, List.countP_cons, List.countP_cons, hrest]
      simp [heq, howed]
    · have hih := ih hnodup.2 (hmem.resolve_left (Ne.symm heq))
      simp only [owing] at hih
      simp only [owing, List.countP_cons, hih]
      simp [heq]
      omega

theorem owing_eraseP (howed : subscriber ∉ owed) :
    owing owed (observers.eraseP fun obs => subscriber = obs.observer) = owing owed observers := by
  induction observers with
  | nil => rfl
  | cons obs observers ih =>
    by_cases heq : subscriber = obs.observer
    · simp [owing, ← heq, howed]
    · simp only [owing] at ih
      simp [owing, heq, List.countP_cons, ih]

end

/-! ### Steps -/

/-- The account of a topic lists subscribers of the topic, none of which is attached twice. -/
def Consistent : Option (Entry σ κ δ) → List σ → Prop
  | none, owed => owed = []
  | some e, owed => (e.observers.map Observer.observer).Nodup ∧
      ∀ subscriber ∈ owed, subscriber ∈ e.observers.map Observer.observer

/-- The count of a topic is what is owed for it. -/
def CountExact [DecidableEq σ] : Option (Entry σ κ δ) → List σ → Prop
  | none, _ => True
  | some e, owed => e.count = owing owed e.observers

/-- The broker of the ledger holds the map `r`, and the account is consistent with it. -/
structure Ledger.Keeps (s : Ledger σ κ δ) (r : Reference σ κ δ) : Prop where
  /-- The broker holds the map. -/
  represents : s.broker.Represents r
  /-- The account is consistent. -/
  consistent : ∀ name, Consistent (r.lookup name) (s.owed name)

theorem notifyAll_record (name : String) (observers : List (Observer σ κ)) (owed : Account σ) :
    Reference.notifyAll record name observers owed =
      Function.update owed name ((observers.map Observer.observer).reverse ++ owed name) := by
  induction observers generalizing owed with
  | nil => simp [Reference.notifyAll]
  | cons obs observers ih =>
    have hrest := ih (record obs.notify obs.observer name owed)
    simp only [Reference.notifyAll, List.foldl_cons] at hrest ⊢
    rw [hrest]
    simp [record]

theorem subscribers_eq {b : MsgBroker σ κ δ} {r : Reference σ κ δ} (h : b.Represents r) (name : String) :
    subscribers b name = ((r.lookup name).map fun e => e.observers.map Observer.observer).getD [] := by
  rw [subscribers, h.view]
  simp only [OrderedMap.lookup]
  cases r.entries.find? fun e => name = e.1 <;> rfl

section

variable [DecidableEq σ] {r r' : Reference σ κ δ} {name : String} {s s' : Ledger σ κ δ}
  {q : Request σ κ δ}

/-- Counts can be read off the map. -/
theorem Ledger.Keeps.exact_iff_countExact (h : s.Keeps r) :
    s.Exact ↔ ∀ name, CountExact (r.lookup name) (s.owed name) := by
  have hview := h.represents.view
  constructor
  · rintro ⟨entries, hentries, hexact⟩ name
    rw [hview] at hentries
    cases hentries
    cases hm : r.lookup name with
    | none => trivial
    | some e => exact (hexact name e (OrderedMap.mem_entries_iff.2 hm)).1
  · intro hexact
    refine ⟨_, hview, fun name e hmem => ?_⟩
    have hm := OrderedMap.mem_entries_iff.1 hmem
    have hcount := hexact name
    rw [hm] at hcount
    refine ⟨hcount, fun data => ?_⟩
    -- a publication of the right size goes by the count alone
    obtain ⟨b', hrun, -⟩ := h.represents.publish record name data e.datasize s.owed
    have hzero : owing (s.owed name) e.observers = 0 ↔
        ∀ obs ∈ e.observers, obs.observer ∉ s.owed name := by
      simp [owing, List.countP_eq_zero]
    rw [← hzero, ← (show e.count = _ from hcount)]
    constructor
    · rintro ⟨b, owed, hpublish⟩
      by_contra hpos
      rw [hrun] at hpublish
      simp [Reference.publish, hm, Nat.pos_of_ne_zero hpos] at hpublish
    · intro hnone
      refine ⟨b', (r.publish record name data e.datasize s.owed).2.2, ?_⟩
      rw [hrun]
      simp [Reference.publish, hm, hnone]

/-- What a request does to the map and to the account. -/
def Request.effect (r : Reference σ κ δ) (owed : Account σ) (q : Request σ κ δ) :
    Reference σ κ δ × Account σ :=
  let s := (r.perform record (Ledger.opening owed q) q.call).1
  (s.1, Ledger.closing s.2 q)

/-- A request concerns its topic only. -/
theorem Request.effect_of_ne (owed : Account σ) (hname : name ≠ q.name) :
    (q.effect r owed).1.lookup name = r.lookup name ∧ (q.effect r owed).2 name = owed name := by
  refine ⟨OrderedMap.lookup_eq_of_others (Reference.perform_others record r _ q.call_name) hname, ?_⟩
  cases q with
  | installTopic m _ datasize => rfl
  | attach m _ subscriber notify => rfl
  | detach _ subscriber => exact Function.update_of_ne hname _ _
  | publish name' data datasize =>
    have hopen : Function.update owed name' [] name = owed name := Function.update_of_ne hname _ _
    simp only [Request.effect, Ledger.opening, Ledger.closing, Request.call, Reference.perform,
      Reference.publish]
    cases r.lookup name' with
    | none => exact hopen
    | some e =>
      dsimp only
      split_ifs
      · exact hopen
      · exact hopen
      · rw [notifyAll_record]
        exact (Function.update_of_ne hname _ _).trans hopen
  | consumed _ subscriber => exact Function.update_of_ne hname _ _

/-- A request that was carried out leaves its topic consistent, and makes the count of the topic,
if it was exact, exact again precisely when `settled` holds. -/
def Request.Accounts (q : Request σ κ δ) (r : Reference σ κ δ) (owed : Account σ) (settled : Prop) :
    Prop :=
  Consistent ((q.effect r owed).1.lookup q.name) ((q.effect r owed).2 q.name) ∧
    (CountExact (r.lookup q.name) (owed q.name) →
      (CountExact ((q.effect r owed).1.lookup q.name) ((q.effect r owed).2 q.name) ↔ settled))

theorem accounts_installTopic {m : Malloc} {datasize : ℕ} {owed : Account σ}
    (hcons : Consistent (r.lookup name) (owed name))
    (hr : refusals (some r) m (.installTopic name datasize) = []) :
    Request.Accounts (.installTopic m name datasize) r owed True := by
  cases hm : r.lookup name with
  | some e => simp [refusals, hm] at hr
  | none =>
    have howed : owed name = [] := by
      rw [hm] at hcons
      exact hcons
    have hlookup := OrderedMap.lookup_push_self (v := (⟨datasize, none, 0, []⟩ : Entry σ κ δ)) hm
    simp only [Request.Accounts, Request.effect, Ledger.opening, Ledger.closing, Request.call,
      Reference.perform, Reference.installTopic, Request.name, hm, hlookup, howed]
    exact ⟨⟨List.nodup_nil, by simp⟩, fun _ => iff_of_true rfl trivial⟩

/-- A new observer was not notified, and owes nothing. -/
theorem accounts_attach {m : Malloc} {subscriber : σ} {notify : κ} {owed : Account σ}
    (hcons : Consistent (r.lookup name) (owed name))
    (hnew : subscriber ∉ ((r.lookup name).map fun e => e.observers.map Observer.observer).getD [])
    (hr : refusals (some r) m (.attach name subscriber notify) = []) :
    Request.Accounts (.attach m name subscriber notify) r owed True := by
  cases hm : r.lookup name with
  | none => simp [refusals, hm] at hr
  | some e =>
    rw [hm] at hcons hnew
    have hlookup := OrderedMap.lookup_modify_self
      (f := fun e => { e with observers := e.observers ++ [⟨subscriber, notify⟩] }) hm
    simp only [Request.Accounts, Request.effect, Ledger.opening, Ledger.closing, Request.call,
      Reference.perform, Reference.attach, Request.name, hm, hlookup]
    refine ⟨⟨?_, fun x hx => ?_⟩, fun hexact => iff_of_true ?_ trivial⟩
    · rw [List.map_append, List.map_singleton, ← List.concat_eq_append]
      exact hcons.1.concat hnew
    · rw [List.map_append]
      exact List.mem_append_left _ (hcons.2 x hx)
    · have howed : subscriber ∉ owed name := fun hmem => hnew (hcons.2 subscriber hmem)
      simp only [CountExact, owing, List.countP_append] at hexact ⊢
      simp [hexact, howed]

/-- The count does not change when an observer detaches, and neither does what is owed if the
observer owes nothing. -/
theorem accounts_detach {subscriber : σ} {owed : Account σ}
    (hcons : Consistent (r.lookup name) (owed name))
    (hr : refusals (some r) .ok (.detach name subscriber) = []) :
    Request.Accounts (.detach name subscriber) r owed (subscriber ∉ owed name) := by
  cases hm : r.lookup name with
  | none => simp [refusals, hm] at hr
  | some e =>
    rw [hm] at hcons
    have hany : e.observers.any fun obs => subscriber = obs.observer := by
      by_contra hany
      simp only [refusals, hm, hany] at hr
      simp at hr
    have hlookup := OrderedMap.lookup_modify_self
      (f := fun e => { e with
        observers := e.observers.eraseP fun obs => subscriber = obs.observer }) hm
    have hout : subscriber ∉ (owed name).filter (· ≠ subscriber) := by simp
    simp only [Request.Accounts, Request.effect, Ledger.opening, Ledger.closing, Request.call,
      Reference.perform, Reference.detach, Request.name, hm, hany, if_true, hlookup,
      Function.update_self, CountExact, owing_eraseP hout]
    refine ⟨⟨hcons.1.sublist (List.eraseP_sublist.map _), fun x hx => ?_⟩, fun hexact => ?_⟩
    · obtain ⟨hx, hne⟩ := List.mem_filter.1 hx
      obtain ⟨obs, hobs, rfl⟩ := List.mem_map.1 (hcons.2 x hx)
      have hne' : subscriber ≠ obs.observer := fun heq => of_decide_eq_true hne heq.symm
      have hkeep : obs ∈ e.observers.eraseP fun obs => subscriber = obs.observer :=
        (List.mem_eraseP_of_neg (by simpa using hne')).2 hobs
      exact List.mem_map_of_mem hkeep
    · by_cases howed : subscriber ∈ owed name
      · have hcount := owing_filter hcons.1 howed (hcons.2 subscriber howed)
        refine iff_of_false ?_ (not_not.2 howed)
        rw [hexact, hcount]
        exact Nat.succ_ne_self _
      · have hsame : (owed name).filter (· ≠ subscriber) = owed name :=
          List.filter_eq_self.2 fun x hx => decide_eq_true (ne_of_mem_of_not_mem hx howed)
        rw [hsame]
        exact iff_of_true hexact howed

/-- Every observer is notified, and owes. -/
theorem accounts_publish {data : Option δ} {datasize : ℕ} {owed : Account σ}
    (hcons : Consistent (r.lookup name) (owed name))
    (hr : refusals (some r) .ok (.publish name data datasize) = []) :
    Request.Accounts (.publish name data datasize) r owed True := by
  cases hm : r.lookup name with
  | none => simp [refusals, hm] at hr
  | some e =>
    rw [hm] at hcons
    obtain ⟨hcount, hds⟩ := of_refusals_publish hm hr
    have hlookup := OrderedMap.lookup_modify_self
      (f := fun e => { e with data := data, count := e.observers.length }) hm
    simp only [Request.Accounts, Request.effect, Ledger.opening, Ledger.closing, Request.call,
      Reference.perform, Reference.publish, Request.name, hm, hcount, hds, if_false, hlookup,
      notifyAll_record, Function.update_self, List.append_nil]
    refine ⟨⟨hcons.1, fun x hx => List.mem_reverse.1 hx⟩, fun _ => iff_of_true ?_ trivial⟩
    refine (List.countP_eq_length.2 fun obs hobs => ?_).symm
    exact decide_eq_true (List.mem_reverse.2 (List.mem_map_of_mem hobs))

/-- One acknowledgement is taken from the count and from the account. -/
theorem accounts_consumed {subscriber : σ} {owed : Account σ}
    (hcons : Consistent (r.lookup name) (owed name)) (howed : subscriber ∈ owed name)
    (hr : refusals (some r) .ok (.consumed name) = []) :
    Request.Accounts (.consumed name subscriber) r owed True := by
  cases hm : r.lookup name with
  | none => simp [refusals, hm] at hr
  | some e =>
    rw [hm] at hcons
    have hlookup := OrderedMap.lookup_modify_self
      (f := fun e => { e with count := e.count - 1 }) hm
    simp only [Request.Accounts, Request.effect, Ledger.opening, Ledger.closing, Request.call,
      Reference.perform, Reference.consumed, Request.name, hm, hlookup, Function.update_self]
    refine ⟨⟨hcons.1, fun x hx => hcons.2 x (List.mem_of_mem_filter hx)⟩,
      fun hexact => iff_of_true ?_ trivial⟩
    have hcount : e.count = owing (owed name) e.observers := hexact
    simp only [CountExact]
    rw [hcount, owing_filter hcons.1 howed (hcons.2 subscriber howed), Nat.add_sub_cancel]

/-- **A request that is carried out**, at its topic. -/
theorem Ledger.Keeps.accounts (h : s.Keeps r) (hallowed : s.Allowed q)
    (hr : refusals (some r) q.malloc q.call = []) : q.Accounts r s.owed (s.Settled q) := by
  have hcons := h.consistent q.name
  cases q with
  | installTopic m name datasize => exact accounts_installTopic hcons hr
  | attach m name subscriber notify =>
    have hnew : subscriber ∉ subscribers s.broker name := hallowed
    rw [subscribers_eq h.represents] at hnew
    exact accounts_attach hcons hnew hr
  | detach name subscriber => exact accounts_detach hcons hr
  | publish name data datasize => exact accounts_publish hcons hr
  | consumed name subscriber => exact accounts_consumed hcons hallowed hr

/-- **One step**: a refused request changes nothing, any other has its effect. -/
theorem Ledger.step_cases (h : s.broker.Represents r) (hst : step s q = some s') :
    s.Allowed q ∧
      ((refusals (some r) q.malloc q.call ≠ [] ∧ s'.broker.Represents r ∧ s'.owed = s.owed) ∨
        (refusals (some r) q.malloc q.call = [] ∧
          s'.broker.Represents (q.effect r s.owed).1 ∧ s'.owed = (q.effect r s.owed).2)) := by
  unfold step at hst
  split_ifs at hst with hallowed
  refine ⟨hallowed, ?_⟩
  cases hrun : performWith record q.malloc s.broker (opening s.owed q) q.call with
  | error f => simp [hrun] at hst
  | ok result =>
    obtain ⟨⟨b', owed'⟩, e, reply⟩ := result
    simp only [hrun, Option.some.injEq] at hst
    subst hst
    rcases h.performWith_cases record hrun with ⟨hr, -, h', howed, hreply⟩ | ⟨hmem, h', -⟩
    · have he : e = .noErrors := by
        rw [← Reference.perform_carried record (w := opening s.owed q) hr, ← hreply]
      refine Or.inr ⟨hr, h', ?_⟩
      simp only [he, if_true, howed]
      rfl
    · have he : e ≠ .noErrors := fun he => noErrors_notMem_refusals _ _ _ (he ▸ hmem)
      exact Or.inl ⟨List.ne_nil_of_mem hmem, h', if_neg he⟩

/-- A request that is refused detaches nobody. -/
theorem Ledger.Keeps.settled_of_refused (h : s.Keeps r)
    (hr : refusals (some r) q.malloc q.call ≠ []) : s.Settled q := by
  cases q with
  | detach name subscriber =>
    intro howed
    have hcons := h.consistent name
    cases hm : r.lookup name with
    | none =>
      rw [hm] at hcons
      rw [show s.owed name = [] from hcons] at howed
      cases howed
    | some e =>
      rw [hm] at hcons
      obtain ⟨obs, hobs, heq⟩ := List.mem_map.1 (hcons.2 subscriber howed)
      have hany : e.observers.any fun obs => subscriber = obs.observer :=
        List.any_eq_true.2 ⟨obs, hobs, decide_eq_true heq.symm⟩
      refine hr ?_
      simp only [Request.call, refusals, hm, hany, if_true]
  | _ => trivial

/-- **One step**: the account stays consistent, and counts that were exact are exact again
precisely if the request is settled. -/
theorem Ledger.Keeps.step (h : s.Keeps r) (hst : Ledger.step s q = some s') :
    ∃ r', s'.Keeps r' ∧ (s.Exact → (s'.Exact ↔ s.Settled q)) := by
  obtain ⟨hallowed, ⟨hr, hrep, howed⟩ | ⟨hr, hrep, howed⟩⟩ := Ledger.step_cases h.represents hst
  · have h' : s'.Keeps r := ⟨hrep, fun name => howed ▸ h.consistent name⟩
    refine ⟨r, h', fun hexact => iff_of_true ?_ (h.settled_of_refused hr)⟩
    rw [h'.exact_iff_countExact, howed]
    exact h.exact_iff_countExact.1 hexact
  · obtain ⟨hcons, hcount⟩ := h.accounts hallowed hr
    have h' : s'.Keeps (q.effect r s.owed).1 := by
      refine ⟨hrep, fun name => ?_⟩
      rw [howed]
      by_cases hname : name = q.name
      · exact hname ▸ hcons
      · obtain ⟨hlookup, hothers⟩ := Request.effect_of_ne (r := r) s.owed hname
        rw [hlookup, hothers]
        exact h.consistent name
    refine ⟨_, h', fun hexact => ?_⟩
    have hexact' := h.exact_iff_countExact.1 hexact
    rw [h'.exact_iff_countExact, howed, ← hcount (hexact' q.name)]
    -- the other topics keep their counts and accounts
    refine ⟨fun hall => hall q.name, fun hself name => ?_⟩
    by_cases hname : name = q.name
    · exact hname ▸ hself
    · obtain ⟨hlookup, hothers⟩ := Request.effect_of_ne (r := r) s.owed hname
      rw [hlookup, hothers]
      exact hexact' name

omit [DecidableEq σ] in
theorem Ledger.keeps_init : (Ledger.init : Ledger σ κ δ).Keeps .empty :=
  ⟨⟨_, rfl, [], ItemList.rep_new, .nil⟩, fun _ => rfl⟩

/-- **When the count is what is owed.**  Along a run the count of every topic is the number of
observers that owe an acknowledgement, and a publication is accepted exactly if there is none,
precisely if no request of the run detaches an observer that owes one. -/
theorem Ledger.exact_iff (qs : List (Request σ κ δ)) :
    Ledger.machine.AllStates Ledger.Exact Ledger.init qs ↔
      Ledger.machine.AllSteps Ledger.Settled Ledger.init qs := by
  refine Machine.allStates_iff_allSteps (I := fun s => ∃ r, s.Keeps r) ⟨_, Ledger.keeps_init⟩
    ?_ ?_ ?_
  · rw [Ledger.keeps_init.exact_iff_countExact]
    exact fun _ => trivial
  · rintro s q s' ⟨r, h⟩ hst
    obtain ⟨r', h', -⟩ := h.step hst
    exact ⟨r', h'⟩
  · rintro s q s' ⟨r, h⟩ hexact hst
    obtain ⟨r', -, hiff⟩ := h.step hst
    exact hiff hexact

end

/-- A subscriber that detaches between its notification and its acknowledgement. -/
def gone : List (Request ℕ Unit ℕ) :=
  [.installTopic .ok "/keyb" 8, .attach .ok "/keyb" 1 (), .publish "/keyb" none 8,
    .detach "/keyb" 1]

/-- The topic has no observer left and stays blocked. -/
theorem not_exact_gone : ¬ Ledger.machine.AllStates Ledger.Exact Ledger.init gone := by
  intro h
  obtain ⟨s, hrun, hview⟩ : ∃ s, Ledger.machine.run Ledger.init gone = some s ∧
      s.broker.view = .ok [("/keyb", ⟨8, none, 1, []⟩)] := ⟨_, rfl, by decide +kernel⟩
  obtain ⟨entries, hentries, hexact⟩ := h.last hrun
  rw [hview] at hentries
  cases hentries
  have hcount := (hexact "/keyb" ⟨8, none, 1, []⟩ List.mem_cons_self).1
  exact Nat.one_ne_zero hcount

end MsgBroker

end UavTelemetry
