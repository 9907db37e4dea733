import Mathlib.Data.Nat.Find
import UavTelemetry.Broker.Reentrant

/-!
# Attaching and detaching inside a notification

`publish` walks along the observers with the one cursor of their list.  A callback that attaches an
observer leaves the cursor alone, and the new observer is notified in its turn.  But `detach` looks
for its observer with the same cursor and then frees the link under it: `publish` goes on from a
freed link, or, if nothing was found or the list has become empty, goes on from nowhere and returns.

A *roll* follows the observers and the cursor through the calls of the callbacks.

## Main definitions

* `MsgBroker.Roll` : the observers attached, the address of the next one, and the cursor.
* `MsgBroker.NotifiesStaying` : every observer that stays attached is notified once.
* `MsgBroker.Harmless` : no callback detaches while an observer that stays is still to be notified.

## Main results

* `MsgBroker.Roll.Tracks.callback` : the roll tracks the observer list through a callback.
* `MsgBroker.notifiesStaying_iff` : when publication survives the calls of its callbacks.
-/

namespace UavTelemetry

namespace MsgBroker

variable {σ κ δ : Type}

/-- Where the calls of the callbacks have left the cursor of the observer list. -/
inductive Cursor
  /-- At the observer that was notified last. -/
  | kept
  /-- Nowhere. -/
  | ended
  /-- At a link that has been freed. -/
  | dangling
  deriving DecidableEq, Repr

/-- The roll of the observers of a topic. -/
structure Roll (σ : Type) where
  /-- The observers in order, each with its address and its subscriber. -/
  seats : List (Addr × σ)
  /-- The address of the next observer. -/
  next : Addr
  /-- The cursor. -/
  cursor : Cursor
  deriving DecidableEq, Repr

/-- The roll when a notification starts. -/
def Roll.start (list : ItemList (Observer σ κ)) (os : List (ItemList.Slot (Observer σ κ))) :
    Roll σ :=
  ⟨os.map fun x => (x.item, x.value.observer), list.items.fresh, .kept⟩

/-- A call that attaches or detaches an observer of the topic `name`. -/
def Act.Changes (name : String) : Act σ κ → Prop
  | .attach topicName _ _ => topicName = name
  | .detach topicName _ => topicName = name
  | _ => False

/-- A call that attaches an observer. -/
def Act.attaches : Act σ κ → Bool
  | .attach _ _ _ => true
  | _ => false

section

variable [DecidableEq σ]

namespace Roll

/-- What a call makes of the roll.  `detach` takes the cursor along. -/
def act (r : Roll σ) : Act σ κ → Roll σ
  | .attach _ subscriber _ =>
    { r with seats := r.seats ++ [(r.next, subscriber)], next := r.next + 1 }
  | .detach _ subscriber =>
    let seats := r.seats.eraseP fun s => subscriber = s.2
    let found := r.seats.any fun s => subscriber = s.2
    { r with seats := seats, cursor := if found ∧ seats ≠ [] then .dangling else .ended }
  | _ => r

/-- What the calls of a callback make of it. -/
def acts (r : Roll σ) (as : List (Act σ κ)) : Roll σ := as.foldl act r

/-- The roll before the `i`-th callback. -/
def before (acts : ℕ → List (Act σ κ)) (r : Roll σ) : ℕ → Roll σ
  | 0 => r
  | i + 1 => (before acts r i).acts (acts i)

/-- The walk goes on to an `i`-th observer. -/
def Notifies (acts : ℕ → List (Act σ κ)) (r : Roll σ) (i : ℕ) : Prop :=
  (r.before acts i).cursor = .kept ∧ i < (r.before acts i).seats.length

instance {acts : ℕ → List (Act σ κ)} {r : Roll σ} {i : ℕ} : Decidable (r.Notifies acts i) :=
  inferInstanceAs (Decidable (_ ∧ _))

/-- The `i`-th callback is reached. -/
def Reached (acts : ℕ → List (Act σ κ)) (r : Roll σ) (i : ℕ) : Prop := ∀ j ≤ i, r.Notifies acts j

end Roll

/-- **Harmless callbacks**: a callback that is reached makes no call of `detach`, or the last one
finds nobody or empties the list, and of the observers behind the notified one none stays. -/
def Harmless (acts : ℕ → List (Act σ κ)) (r : Roll σ) : Prop :=
  ∀ i, r.Reached acts i →
    (r.before acts (i + 1)).cursor = .kept ∨
      ((r.before acts (i + 1)).cursor = .ended ∧
        ∀ k s, i < k → r.seats[k]? = some s → s.1 ∉ (r.before acts (i + 1)).seats.map Prod.fst)

/-- **Publication survives its callbacks**: `publish` follows no freed link; when it returns, every
observer that has stayed attached has been notified once; and it returns if only finitely many
observers are attached. -/
def NotifiesStaying (acts : ℕ → List (Act σ κ)) (b : MsgBroker σ κ δ) (topic : Addr) (name : String)
    (data : Option δ) (datasize : ℕ) (os : List (ItemList.Slot (Observer σ κ))) : Prop :=
  (∀ fuel, Reentrant.publish acts fuel b name data datasize = .error .diverges ∨
    ∃ b' notices l t os',
      Reentrant.publish acts fuel b name data datasize = .ok (b', .noErrors, notices) ∧
      b'.topicList = some l ∧ l.items.read topic = some t ∧ t.observerList.Rep os' ∧
      ∀ x ∈ os, x.item ∈ os'.map ItemList.Slot.item →
        (notices.map Notice.obs).count x.item = 1) ∧
  ((∃ n, ∀ i, n ≤ i → ∀ a ∈ acts i, a.attaches = false) →
    ∃ fuel, Reentrant.publish acts fuel b name data datasize ≠ .error .diverges)

end

/-! ### The calls of a callback -/

open ItemList (Slot)

variable {b b' : MsgBroker σ κ δ} {ys zs : List (Slot (Topic σ κ δ))} {topic : Addr}
  {t t' : Topic σ κ δ} {os : List (Slot (Observer σ κ))} {name : String}

/-- An observer is attached behind the others; the cursor stays, and so do freed links. -/
theorem Focus.attach (h : Focus b ys zs topic t) (hos : t.observerList.Rep os) (subscriber : σ)
    (notify : κ) :
    ∃ b' obs list node, b.attach .ok t.name subscriber notify = .ok (b', .noErrors, obs) ∧
      Focus b' ys zs topic { t with observerList := list } ∧
      list.Rep (os ++ [⟨node, t.observerList.items.fresh, ⟨subscriber, notify⟩⟩]) ∧
      list.search = t.observerList.search ∧
      list.items.fresh = t.observerList.items.fresh + 1 ∧
      ∀ n, n < t.observerList.nodes.fresh → t.observerList.nodes.read n = none →
        n < list.nodes.fresh ∧ list.nodes.read n = none := by
  obtain ⟨l, hl, -⟩ := h.read
  obtain ⟨l', hfind, h', hread⟩ := h.find hl
  obtain ⟨list, hadd, hrep, hitems, hsearch, -⟩ := hos.push ⟨subscriber, notify⟩
  refine ⟨_, some t.observerList.items.fresh, list, _, ?_, h'.write rfl rfl, hrep, hsearch, ?_,
    fun n hlt hfreed => ItemList.addItem_freed hadd hlt hfreed⟩
  · simp only [MsgBroker.attach, hl, hfind, ok_bind, Malloc.ok, if_true, Store.deref_of_read hread,
      hadd, Store.update_of_read hread, pure_eq_ok]
  · rw [hitems, Store.fresh_alloc]

/-- An observer is looked for and not found: the cursor ends. -/
theorem Focus.detach_of_none [DecidableEq σ] (h : Focus b ys zs topic t)
    (hos : t.observerList.Rep os) {subscriber : σ}
    (hnone : os.find? (fun x => subscriber = x.value.observer) = none) :
    ∃ b', b.detach t.name subscriber = .ok (b', .subscriberNotFound) ∧
      Focus b' ys zs topic
        { t with observerList := { t.observerList with search := none } } := by
  obtain ⟨l, hl, -⟩ := h.read
  obtain ⟨l', hfind, h', hread⟩ := h.find hl
  have hobserver : findObserver t.observerList subscriber =
      .ok ({ t.observerList with search := none }, none) := by
    rw [findObserver, hos.find, hnone]
    rfl
  refine ⟨_, ?_, h'.write rfl rfl⟩
  simp only [MsgBroker.detach, hl, hfind, ok_bind, Store.deref_of_read hread, hobserver,
    Store.update_of_read hread, pure_eq_ok]

/-- An observer is found and taken out: the cursor stays at its link, which is freed, unless it was
the only one. -/
theorem Focus.detach_of_some [DecidableEq σ] (h : Focus b ys zs topic t) {subscriber : σ}
    {xs ws : List (Slot (Observer σ κ))} {x : Slot (Observer σ κ)}
    (hos : t.observerList.Rep (xs ++ x :: ws))
    (hx : (xs ++ x :: ws).find? (fun x => subscriber = x.value.observer) = some x) :
    ∃ b' list, b.detach t.name subscriber = .ok (b', .noErrors) ∧
      Focus b' ys zs topic { t with observerList := list } ∧ list.Rep (xs ++ ws) ∧
      list.items.fresh = t.observerList.items.fresh ∧
      x.node < list.nodes.fresh ∧ list.nodes.read x.node = none ∧
      list.search = if xs ++ ws = [] then none else some x.node := by
  obtain ⟨l, hl, -⟩ := h.read
  obtain ⟨l', hfind, h', hread⟩ := h.find hl
  have hobserver : findObserver t.observerList subscriber =
      .ok ({ t.observerList with search := some x.node }, some x.item) := by
    rw [findObserver, hos.find, hx]
    rfl
  have hos' := hos.search (some x.node)
  obtain ⟨list, hremove, hitems, hrep⟩ := hos'.removeItem
  have hremoved := hos'.removed (hos'.removeItem_eq.symm.trans hremove)
  refine ⟨_, { list with items := list.items.free x.item }, ?_, h'.write rfl rfl, hrep, ?_, ?_,
    hremoved.read, hremoved.search⟩
  · simp only [MsgBroker.detach, hl, hfind, ok_bind, Store.deref_of_read hread, hobserver, hremove,
      Store.update_of_read hread, pure_eq_ok]
  · simp only [Store.fresh_free, hitems]
  · simp only [hremoved.fresh]
    exact Store.lt_fresh_of_read hos.read_node

/-- The roll `r` tracks an observer list with the slots `os`.  A callback has started with the slots
`os₀` and the cursor at `search`. -/
structure Roll.Tracks (r : Roll σ) (os₀ : List (Slot (Observer σ κ))) (search : Option Addr)
    (list : ItemList (Observer σ κ)) (os : List (Slot (Observer σ κ))) : Prop where
  /-- The list holds the slots. -/
  rep : list.Rep os
  /-- They are the seats of the roll. -/
  seats : r.seats = os.map fun x => (x.item, x.value.observer)
  /-- The next observer gets the next address. -/
  next : list.items.fresh = r.next
  /-- Before the first `detach`, the cursor has not moved and no slot has gone. -/
  kept : r.cursor = .kept → list.search = search ∧ os₀ <+: os
  /-- The cursor is nowhere. -/
  ended : r.cursor = .ended → list.search = none
  /-- The cursor is at a freed link. -/
  dangling : r.cursor = .dangling →
    ∃ n, list.search = some n ∧ n < list.nodes.fresh ∧ list.nodes.read n = none

section

variable [DecidableEq σ] {r : Roll σ} {os₀ os' : List (Slot (Observer σ κ))} {search : Option Addr}

/-- The seats after a search that has found the slot `x`. -/
theorem eraseP_seats {subscriber : σ} {xs : List (Slot (Observer σ κ))}
    {x : Slot (Observer σ κ)} (hx : subscriber = x.value.observer)
    (hxs : ∀ y ∈ xs, ¬ subscriber = y.value.observer) (ws : List (Slot (Observer σ κ))) :
    ((xs ++ x :: ws).map fun x => (x.item, x.value.observer)).eraseP (fun s => subscriber = s.2) =
      (xs ++ ws).map fun x => (x.item, x.value.observer) := by
  rw [List.map_append, List.map_append, List.map_cons, List.eraseP_append_right]
  · simp [hx]
  · intro s hs
    obtain ⟨y, hy, rfl⟩ := List.mem_map.1 hs
    simpa using hxs y hy

/-- A call of `detach` that finds nobody. -/
theorem act_detach_of_none {topicName : String} {subscriber : σ}
    (h : r.seats = os.map fun x => (x.item, x.value.observer))
    (hnone : os.find? (fun x => subscriber = x.value.observer) = none) :
    r.act (Act.detach topicName subscriber : Act σ κ) = { r with cursor := .ended } := by
  have hseats : ∀ s ∈ r.seats, ¬ subscriber = s.2 := by
    intro s hs
    rw [h] at hs
    obtain ⟨x, hx, rfl⟩ := List.mem_map.1 hs
    simpa using List.find?_eq_none.1 hnone x hx
  have herase : r.seats.eraseP (fun s => subscriber = s.2) = r.seats :=
    List.eraseP_of_forall_not fun s hs => by simpa using hseats s hs
  have hany : (r.seats.any fun s => subscriber = s.2) = false :=
    List.any_eq_false.2 fun s hs => by simpa using hseats s hs
  simp [Roll.act, herase, hany]

/-- A call of `detach` that finds the slot `x`. -/
theorem act_detach_of_some {topicName : String} {subscriber : σ}
    {xs ws : List (Slot (Observer σ κ))} {x : Slot (Observer σ κ)}
    (h : r.seats = (xs ++ x :: ws).map fun x => (x.item, x.value.observer))
    (hx : subscriber = x.value.observer) (hxs : ∀ y ∈ xs, ¬ subscriber = y.value.observer) :
    r.act (Act.detach topicName subscriber : Act σ κ) =
      { r with
        seats := (xs ++ ws).map fun x => (x.item, x.value.observer)
        cursor := if xs ++ ws = [] then .ended else .dangling } := by
  have hany : (r.seats.any fun s => subscriber = s.2) = true := by
    rw [h]
    simp [hx]
  have herase := eraseP_seats hx hxs ws
  rw [← h] at herase
  by_cases hempty : xs ++ ws = []
  · simp [Roll.act, hany, herase, hempty]
  · have hseats : (xs ++ ws).map (fun x => (x.item, x.value.observer)) ≠ [] := by
      simpa only [ne_eq, List.map_eq_nil_iff] using hempty
    simp only [Roll.act, hany, herase, hseats, hempty, ne_eq, not_false_eq_true, and_self, if_true,
      if_false]

/-- **One call**: the roll tracks the list. -/
theorem Roll.Tracks.act {a : Act σ κ} (h : r.Tracks os₀ search t.observerList os)
    (hfocus : Focus b ys zs topic t) (ha : a.Changes t.name) :
    ∃ b' reply list os', perform (fun _ _ _ w => w) b () a.call = .ok ((b', ()), reply) ∧
      Focus b' ys zs topic { t with observerList := list } ∧
      (r.act a).Tracks os₀ search list os' := by
  cases a with
  | consumed _ | getTopicData _ | getTopicDatasize _ => cases ha
  | attach topicName subscriber notify =>
    obtain rfl : topicName = t.name := ha
    obtain ⟨b', obs, list, node, hrun, h', hrep, hsearch, hfresh, hfreed⟩ :=
      hfocus.attach h.rep subscriber notify
    refine ⟨b', (.noErrors, .pointer obs.isSome), list, _, ?_, h', hrep, ?_, ?_, ?_, ?_, ?_⟩
    · simp only [perform, Act.call, hrun, ok_bind, pure_eq_ok]
    · simp [Roll.act, h.seats, h.next]
    · simp [Roll.act, hfresh, h.next]
    · intro hcursor
      obtain ⟨hkept, hprefix⟩ := h.kept hcursor
      exact ⟨hsearch.trans hkept, hprefix.trans (List.prefix_append _ _)⟩
    · exact fun hcursor => hsearch.trans (h.ended hcursor)
    · intro hcursor
      obtain ⟨n, hn, hlt, hread⟩ := h.dangling hcursor
      exact ⟨n, hsearch.trans hn, hfreed n hlt hread⟩
  | detach topicName subscriber =>
    obtain rfl : topicName = t.name := ha
    cases hfind : os.find? fun x => subscriber = x.value.observer with
    | none =>
      obtain ⟨b', hrun, h'⟩ := hfocus.detach_of_none h.rep hfind
      rw [show r.act (Act.detach t.name subscriber : Act σ κ) = { r with cursor := .ended } from
        act_detach_of_none h.seats hfind]
      refine ⟨b', (.subscriberNotFound, .done), _, os, ?_, h', h.rep.search none, h.seats, h.next,
        ?_, fun _ => rfl, ?_⟩
      · simp only [perform, Act.call, hrun, ok_bind, pure_eq_ok]
      · intro hcursor
        cases hcursor
      · intro hcursor
        cases hcursor
    | some x =>
      obtain ⟨hx, xs, ws, rfl, hxs⟩ := List.find?_eq_some_iff_append.1 hfind
      obtain ⟨b', list, hrun, h', hrep, hfresh, hlt, hfreed, hsearch⟩ :=
        hfocus.detach_of_some h.rep hfind
      rw [show r.act (Act.detach t.name subscriber : Act σ κ) = _ from
        act_detach_of_some h.seats (of_decide_eq_true hx) (by simpa using hxs)]
      refine ⟨b', (.noErrors, .done), list, xs ++ ws, ?_, h', hrep, rfl, hfresh.trans h.next,
        ?_, ?_, ?_⟩
      · simp only [perform, Act.call, hrun, ok_bind, pure_eq_ok]
      · intro hcursor
        dsimp only at hcursor
        split_ifs at hcursor
      · intro hcursor
        dsimp only at hcursor
        split_ifs at hcursor with hempty
        rw [hsearch, if_pos hempty]
      · intro hcursor
        dsimp only at hcursor
        split_ifs at hcursor with hempty
        rw [if_neg hempty] at hsearch
        exact ⟨x.node, hsearch, hlt, hfreed⟩

/-- **The calls of a callback**: the roll tracks the list through them. -/
theorem Roll.Tracks.callback {as : List (Act σ κ)} (h : r.Tracks os₀ search t.observerList os)
    (hfocus : Focus b ys zs topic t) (has : ∀ a ∈ as, a.Changes t.name) :
    ∃ b' replies list os', Reentrant.callback b as = .ok (b', replies) ∧
      Focus b' ys zs topic { t with observerList := list } ∧
      (r.acts as).Tracks os₀ search list os' := by
  induction as generalizing b t r os with
  | nil => exact ⟨b, [], _, os, rfl, hfocus, h⟩
  | cons a as ih =>
    obtain ⟨ha, has⟩ := List.forall_mem_cons.1 has
    obtain ⟨b₁, reply, list₁, os₁, hact, hfocus₁, h₁⟩ := h.act hfocus ha
    obtain ⟨b₂, replies, list₂, os₂, hrun, hfocus₂, h₂⟩ := ih h₁ hfocus₁ has
    refine ⟨b₂, reply :: replies, list₂, os₂, ?_, hfocus₂, h₂⟩
    simp only [Reentrant.callback] at hrun
    simp only [Reentrant.callback, List.map_cons, MsgBroker.run, hact, ok_bind]
    cases hrest : MsgBroker.run (fun _ _ _ w => w) b₁ () (as.map Act.call) with
    | error fault =>
      rw [hrest] at hrun
      cases hrun
    | ok s =>
      rw [hrest] at hrun
      cases hrun
      rfl

/-- The `i`-th observer is at hand, if there is one, and no callback before it has detached. -/
structure At (acts : ℕ → List (Act σ κ)) (r : Roll σ) (ys zs : List (Slot (Topic σ κ δ)))
    (topic : Addr) (name : String) (i : ℕ) (b : MsgBroker σ κ δ) (t : Topic σ κ δ)
    (os : List (Slot (Observer σ κ))) : Prop where
  /-- The topic is in focus. -/
  focus : Focus b ys zs topic t
  /-- Its name. -/
  name_eq : t.name = name
  /-- The roll tracks its observers. -/
  tracks : (r.before acts i).Tracks os (os[i]?.map Slot.node) t.observerList os
  /-- The cursor is at the observer. -/
  kept : (r.before acts i).cursor = .kept

variable {acts : ℕ → List (Act σ κ)} {i : ℕ}

theorem At.length_seats (h : At acts r ys zs topic name i b t os) :
    (r.before acts i).seats.length = os.length := by
  rw [h.tracks.seats, List.length_map]

/-- The observer at hand is notified, and its callback makes its calls. -/
theorem At.callback (h : At acts r ys zs topic name i b t os) {x : Slot (Observer σ κ)}
    (hx : os[i]? = some x) (hacts : ∀ a ∈ acts i, a.Changes name) :
    ∃ replies list os', ∃ t₂ : Topic σ κ δ,
      (r.before acts (i + 1)).Tracks os (some x.node) list os' ∧ t₂.name = name ∧
      (∀ fault, list.getNextItem = .error fault → ∀ fuel,
        Reentrant.notifyLoop acts (fuel + 1) i b topic (some x.item) = .error fault) ∧
      ∀ list' next, list.getNextItem = .ok (list', next) →
        ∃ b₃, Focus b₃ ys zs topic { t₂ with observerList := list' } ∧
          ∀ fuel, Reentrant.notifyLoop acts (fuel + 1) i b topic (some x.item) =
            (Reentrant.notifyLoop acts fuel (i + 1) b₃ topic next).map
              fun r => (r.1, ⟨x.item, x.value, replies⟩ :: r.2) := by
  have hobs := h.tracks.rep.read x (List.mem_of_getElem? hx)
  have hname := h.name_eq
  have htracks := h.tracks
  rw [hx, Option.map_some] at htracks
  obtain ⟨b₁, h₁, hround⟩ := h.focus.round hobs acts i
  have htracks₁ : (r.before acts i).Tracks os (some x.node)
      { t with count := t.count + 1 }.observerList os := htracks
  obtain ⟨b₂, replies, list, os', hcallback, h₂, htracks₂⟩ :=
    htracks₁.callback h₁ (hname.symm ▸ hacts)
  obtain ⟨herror, hok⟩ := hround b₂ replies _ hcallback h₂
  exact ⟨replies, list, os', { t with count := t.count + 1 }, htracks₂, hname, herror, hok⟩

/-- The callback has not detached: the next observer is at hand. -/
theorem At.next (h : At acts r ys zs topic name i b t os) {x : Slot (Observer σ κ)}
    (hx : os[i]? = some x) (hacts : ∀ a ∈ acts i, a.Changes name)
    (hkept : (r.before acts (i + 1)).cursor = .kept) :
    ∃ b' t' os' replies, At acts r ys zs topic name (i + 1) b' t' os' ∧ os <+: os' ∧
      ∀ fuel, Reentrant.notifyLoop acts (fuel + 1) i b topic (some x.item) =
        (Reentrant.notifyLoop acts fuel (i + 1) b' topic (os'[i + 1]?.map Slot.item)).map
          fun r => (r.1, ⟨x.item, x.value, replies⟩ :: r.2) := by
  obtain ⟨replies, list, os', t₂, htracks, hname, -, hok⟩ := h.callback hx hacts
  obtain ⟨hsearch, hprefix⟩ := htracks.kept hkept
  obtain ⟨hi, -⟩ := List.getElem?_eq_some_iff.1 hx
  have hi' : i < os'.length := Nat.lt_of_lt_of_le hi hprefix.length_le
  have hx' : os'[i]? = some x := by
    obtain ⟨ws, rfl⟩ := hprefix
    rw [List.getElem?_append_left hi, hx]
  have hnext := htracks.rep.getNextItem_index hi' (by rw [hsearch, hx', Option.map_some])
  obtain ⟨b₃, h₃, hloop⟩ := hok _ _ hnext
  refine ⟨b₃, _, os', replies, ⟨h₃, hname, ?_, hkept⟩, hprefix, hloop⟩
  refine ⟨htracks.rep.search _, htracks.seats, htracks.next, fun _ => ⟨rfl, List.prefix_refl os'⟩,
    ?_, ?_⟩
  · intro hended
    cases hkept.symm.trans hended
  · intro hdangling
    cases hkept.symm.trans hdangling

/-- The callback has left the cursor nowhere: the notification is over. -/
theorem At.ended (h : At acts r ys zs topic name i b t os) {x : Slot (Observer σ κ)}
    (hx : os[i]? = some x) (hacts : ∀ a ∈ acts i, a.Changes name)
    (hended : (r.before acts (i + 1)).cursor = .ended) :
    ∃ b' t' os' replies, Focus b' ys zs topic t' ∧ t'.observerList.Rep os' ∧
      (r.before acts (i + 1)).seats = os'.map (fun x => (x.item, x.value.observer)) ∧
      ∀ fuel, Reentrant.notifyLoop acts (fuel + 1) i b topic (some x.item) =
        (Reentrant.notifyLoop acts fuel (i + 1) b' topic none).map
          fun r => (r.1, ⟨x.item, x.value, replies⟩ :: r.2) := by
  obtain ⟨replies, list, os', t₂, htracks, -, -, hok⟩ := h.callback hx hacts
  have hnext : list.getNextItem = .ok (list, none) := by
    simp only [ItemList.getNextItem, htracks.ended hended]
  obtain ⟨b₃, h₃, hloop⟩ := hok _ _ hnext
  exact ⟨b₃, _, os', replies, h₃, htracks.rep, htracks.seats, hloop⟩

/-- The callback has left the cursor at a freed link, which is followed. -/
theorem At.dangling (h : At acts r ys zs topic name i b t os) {x : Slot (Observer σ κ)}
    (hx : os[i]? = some x) (hacts : ∀ a ∈ acts i, a.Changes name)
    (hdangling : (r.before acts (i + 1)).cursor = .dangling) (fuel : ℕ) :
    Reentrant.notifyLoop acts (fuel + 1) i b topic (some x.item) = .error .freedBlock := by
  obtain ⟨replies, list, os', t₂, htracks, -, herror, -⟩ := h.callback hx hacts
  obtain ⟨n, hsearch, -, hfreed⟩ := htracks.dangling hdangling
  refine herror .freedBlock ?_ fuel
  simp only [ItemList.getNextItem, hsearch, Store.deref, hfreed]
  rfl

/-- **The walk of `publish`**: as long as there is a next observer, the observers are notified in
the order of the list. -/
theorem At.walk (h : At acts r ys zs topic name 0 b t os) (hacts : ∀ i, ∀ a ∈ acts i, a.Changes name)
    {n : ℕ} (hn : ∀ k < n, r.Notifies acts k) (hkept : (r.before acts n).cursor = .kept) :
    ∃ b' t' os' notices, At acts r ys zs topic name n b' t' os' ∧ os <+: os' ∧
      notices.map Notice.obs = (os'.map Slot.item).take n ∧
      ∀ fuel, Reentrant.notifyLoop acts (fuel + n) 0 b topic (os[0]?.map Slot.item) =
        (Reentrant.notifyLoop acts fuel n b' topic (os'[n]?.map Slot.item)).map
          fun r => (r.1, notices ++ r.2) := by
  induction n with
  | zero =>
    refine ⟨b, t, os, [], h, List.prefix_refl os, rfl, fun fuel => ?_⟩
    cases Reentrant.notifyLoop acts fuel 0 b topic (os[0]?.map Slot.item) <;> rfl
  | succ n ih =>
    obtain ⟨hkept₁, hlt⟩ := hn n (Nat.lt_succ_self n)
    obtain ⟨b₁, t₁, os₁, notices, h₁, hprefix, hnotices, hwalk⟩ :=
      ih (fun k hk => hn k (Nat.lt_succ_of_lt hk)) hkept₁
    rw [h₁.length_seats] at hlt
    have hx := List.getElem?_eq_getElem hlt
    obtain ⟨b₂, t₂, os₂, replies, h₂, hprefix₂, hnext⟩ := h₁.next hx (hacts n) hkept
    refine ⟨b₂, t₂, os₂, notices ++ [⟨os₁[n].item, os₁[n].value, replies⟩], h₂,
      hprefix.trans hprefix₂, ?_, fun fuel => ?_⟩
    · obtain ⟨ws, rfl⟩ := hprefix₂
      have hlength : n + 1 ≤ (os₁.map Slot.item).length := by rw [List.length_map]; exact hlt
      rw [List.map_append, List.map_append, hnotices, List.take_append_of_le_length hlength,
        List.take_succ_eq_append_getElem (by simpa using hlt), List.getElem_map]
      rfl
    · rw [show fuel + (n + 1) = fuel + 1 + n by omega, hwalk (fuel + 1), hx, Option.map_some,
        hnext fuel]
      cases Reentrant.notifyLoop acts fuel (n + 1) b₂ topic (os₂[n + 1]?.map Slot.item) with
      | error fault => rfl
      | ok s => simp [Except.map]

/-- `publish` starts its walk at the first observer. -/
theorem Focus.start (h : Focus b ys zs topic t) (hos : t.observerList.Rep os) (hcount : t.count = 0)
    (acts : ℕ → List (Act σ κ)) (data : Option δ) :
    ∃ b₁ t₁, At acts (Roll.start t.observerList os) ys zs topic t.name 0 b₁ t₁ os ∧
      ∀ fuel, Reentrant.publish acts fuel b t.name data t.datasize =
        (Reentrant.notifyLoop acts fuel 0 b₁ topic (os[0]?.map Slot.item)).map
          fun r => (r.1, .noErrors, r.2) := by
  obtain ⟨b₁, h₁, hpublish⟩ := h.publish hos hcount acts data
  rw [List.head?_eq_getElem?] at h₁ hpublish
  refine ⟨b₁, _, ⟨h₁, rfl, ⟨hos.search _, rfl, rfl, fun _ => ⟨rfl, List.prefix_refl os⟩, ?_, ?_⟩,
    rfl⟩, hpublish⟩
  · intro hended
    cases hended
  · intro hdangling
    cases hdangling

/-- **The walk of `publish`**, from the call on. -/
theorem Focus.walk (h : Focus b ys zs topic t) (hos : t.observerList.Rep os) (hcount : t.count = 0)
    (hacts : ∀ i, ∀ a ∈ acts i, a.Changes t.name) (data : Option δ) {n : ℕ}
    (hn : ∀ k < n, (Roll.start t.observerList os).Notifies acts k)
    (hkept : ((Roll.start t.observerList os).before acts n).cursor = .kept) :
    ∃ b' t' os' notices, At acts (Roll.start t.observerList os) ys zs topic t.name n b' t' os' ∧
      os <+: os' ∧ notices.map Notice.obs = (os'.map Slot.item).take n ∧
      ∀ fuel, Reentrant.publish acts (fuel + n) b t.name data t.datasize =
        (Reentrant.notifyLoop acts fuel n b' topic (os'[n]?.map Slot.item)).map
          fun r => (r.1, .noErrors, notices ++ r.2) := by
  obtain ⟨b₁, t₁, h₁, hpublish⟩ := h.start hos hcount acts data
  obtain ⟨b', t', os', notices, h', hprefix, hnotices, hwalk⟩ := h₁.walk hacts hn hkept
  refine ⟨b', t', os', notices, h', hprefix, hnotices, fun fuel => ?_⟩
  rw [hpublish, hwalk]
  cases Reentrant.notifyLoop acts fuel n b' topic (os'[n]?.map Slot.item) <;> rfl

omit [DecidableEq σ] in
/-- An item of a list without repetitions is counted in a part of the list if it stands there. -/
theorem count_take_of_nodup {as : List Addr} (h : as.Nodup) {k n : ℕ} {a : Addr}
    (hk : as[k]? = some a) : (as.take n).count a = if k < n then 1 else 0 := by
  have hmem : a ∈ as.take n ↔ k < n := by
    obtain ⟨hlt, rfl⟩ := List.getElem?_eq_some_iff.1 hk
    rw [List.mem_take_iff_getElem]
    constructor
    · rintro ⟨j, hj, heq⟩
      rw [← (h.getElem_inj_iff).1 heq]
      exact Nat.lt_of_lt_of_le hj (Nat.min_le_left _ _)
    · exact fun hkn => ⟨k, Nat.lt_min.2 ⟨hkn, hlt⟩, rfl⟩
  rw [List.Nodup.count (h.sublist (List.take_sublist n as))]
  simp only [hmem]

/-- The walk comes to the end of the list. -/
theorem Focus.publish_done (h : Focus b ys zs topic t) (hos : t.observerList.Rep os)
    (hcount : t.count = 0) (hacts : ∀ i, ∀ a ∈ acts i, a.Changes t.name) (data : Option δ) {n : ℕ}
    (hn : ∀ k < n, (Roll.start t.observerList os).Notifies acts k)
    (hkept : ((Roll.start t.observerList os).before acts n).cursor = .kept)
    (hlength : ((Roll.start t.observerList os).before acts n).seats.length ≤ n) :
    ∃ b' t' os' notices, Focus b' ys zs topic t' ∧ t'.observerList.Rep os' ∧ os <+: os' ∧
      notices.map Notice.obs = os'.map Slot.item ∧
      ∀ fuel, n < fuel → Reentrant.publish acts fuel b t.name data t.datasize =
        .ok (b', .noErrors, notices) := by
  obtain ⟨b', t', os', notices, h', hprefix, hnotices, hwalk⟩ := h.walk hos hcount hacts data hn hkept
  rw [h'.length_seats] at hlength
  rw [List.take_of_length_le (by rwa [List.length_map])] at hnotices
  refine ⟨b', t', os', notices, h'.focus, h'.tracks.rep, hprefix, hnotices, fun fuel hfuel => ?_⟩
  obtain ⟨rest, rfl⟩ := Nat.exists_eq_add_of_lt hfuel
  have hdone : Reentrant.notifyLoop acts (rest + 1) n b' topic none = .ok (b', []) := rfl
  rw [show n + rest + 1 = rest + 1 + n by omega, hwalk, List.getElem?_eq_none hlength,
    Option.map_none, hdone]
  simp [Except.map]

/-- A callback leaves the cursor nowhere, and the walk ends with it. -/
theorem Focus.publish_ended (h : Focus b ys zs topic t) (hos : t.observerList.Rep os)
    (hcount : t.count = 0) (hacts : ∀ i, ∀ a ∈ acts i, a.Changes t.name) (data : Option δ) {n : ℕ}
    (hn : (Roll.start t.observerList os).Reached acts n)
    (hended : ((Roll.start t.observerList os).before acts (n + 1)).cursor = .ended) :
    ∃ b' t' os' notices, Focus b' ys zs topic t' ∧ t'.observerList.Rep os' ∧
      ((Roll.start t.observerList os).before acts (n + 1)).seats.map Prod.fst =
        os'.map Slot.item ∧
      (∀ k x, os[k]? = some x →
        (notices.map Notice.obs).count x.item = if k < n + 1 then 1 else 0) ∧
      Reentrant.publish acts (n + 1) b t.name data t.datasize = .error .diverges ∧
      ∀ fuel, n + 1 < fuel → Reentrant.publish acts fuel b t.name data t.datasize =
        .ok (b', .noErrors, notices) := by
  obtain ⟨hkept, hlt⟩ := hn n (Nat.le_refl n)
  obtain ⟨b₁, t₁, os₁, notices, h₁, ⟨ws, rfl⟩, hnotices, hwalk⟩ :=
    h.walk hos hcount hacts data (fun k hk => hn k (Nat.le_of_lt hk)) hkept
  rw [h₁.length_seats] at hlt
  obtain ⟨x, hx⟩ : ∃ x, (os ++ ws)[n]? = some x := ⟨_, List.getElem?_eq_getElem hlt⟩
  obtain ⟨b₂, t₂, os₂, replies, h₂, hrep, hseats, hloop⟩ := h₁.ended hx (hacts n) hended
  rw [hx, Option.map_some] at hwalk
  have haddrs : notices.map Notice.obs ++ [x.item] = ((os ++ ws).map Slot.item).take (n + 1) := by
    rw [hnotices, List.take_add_one, List.getElem?_map, hx]
    rfl
  refine ⟨b₂, t₂, os₂, notices ++ [⟨x.item, x.value, replies⟩], h₂, hrep, ?_, ?_, ?_,
    fun fuel hfuel => ?_⟩
  · rw [hseats, List.map_map]
    rfl
  · intro k y hk
    obtain ⟨hk', -⟩ := List.getElem?_eq_some_iff.1 hk
    rw [List.map_append, List.map_singleton, haddrs]
    refine count_take_of_nodup h₁.tracks.rep.nodup_items ?_
    rw [List.getElem?_map, List.getElem?_append_left hk', hk]
    rfl
  · rw [Nat.add_comm, hwalk, hloop]
    rfl
  · obtain ⟨rest, rfl⟩ := Nat.exists_eq_add_of_lt hfuel
    rw [show n + 1 + rest + 1 = rest + 1 + 1 + n by omega, hwalk, hloop]
    rfl

/-- A callback leaves the cursor at a freed link, which is followed. -/
theorem Focus.publish_dangling (h : Focus b ys zs topic t) (hos : t.observerList.Rep os)
    (hcount : t.count = 0) (hacts : ∀ i, ∀ a ∈ acts i, a.Changes t.name) (data : Option δ) {n : ℕ}
    (hn : (Roll.start t.observerList os).Reached acts n)
    (hdangling : ((Roll.start t.observerList os).before acts (n + 1)).cursor = .dangling) :
    Reentrant.publish acts (n + 1) b t.name data t.datasize = .error .freedBlock := by
  obtain ⟨hkept, hlt⟩ := hn n (Nat.le_refl n)
  obtain ⟨b₁, t₁, os₁, notices, h₁, -, -, hwalk⟩ :=
    h.walk hos hcount hacts data (fun k hk => hn k (Nat.le_of_lt hk)) hkept
  rw [h₁.length_seats] at hlt
  have hx := List.getElem?_eq_getElem hlt
  rw [Nat.add_comm, hwalk, hx, Option.map_some, h₁.dangling hx (hacts n) hdangling 0]
  rfl

/-- As long as there is a next observer and the callbacks are harmless, `publish` is under way. -/
theorem Harmless.diverges (hharmless : Harmless acts (Roll.start t.observerList os))
    (h : Focus b ys zs topic t) (hos : t.observerList.Rep os) (hcount : t.count = 0)
    (hacts : ∀ i, ∀ a ∈ acts i, a.Changes t.name) (data : Option δ) {n : ℕ}
    (hn : ∀ k < n, (Roll.start t.observerList os).Notifies acts k) :
    Reentrant.publish acts n b t.name data t.datasize = .error .diverges := by
  by_cases hkept : ((Roll.start t.observerList os).before acts n).cursor = .kept
  · obtain ⟨_, _, _, _, -, -, -, hwalk⟩ := h.walk hos hcount hacts data hn hkept
    rw [← Nat.zero_add n, hwalk 0]
    rfl
  · cases n with
    | zero => exact absurd rfl hkept
    | succ n =>
      have hreached : (Roll.start t.observerList os).Reached acts n :=
        fun k hk => hn k (Nat.lt_succ_of_le hk)
      obtain ⟨hended, -⟩ := (hharmless n hreached).resolve_left hkept
      obtain ⟨-, -, -, -, -, -, -, -, hdiverges, -⟩ :=
        h.publish_ended hos hcount hacts data hreached hended
      exact hdiverges

/-- Where there is no next observer and the callbacks are harmless, `publish` has returned, and the
observers that have stayed have been notified. -/
theorem Harmless.returns (hharmless : Harmless acts (Roll.start t.observerList os))
    (h : Focus b ys zs topic t) (hos : t.observerList.Rep os) (hcount : t.count = 0)
    (hacts : ∀ i, ∀ a ∈ acts i, a.Changes t.name) (data : Option δ) {n : ℕ}
    (hn : ∀ k < n, (Roll.start t.observerList os).Notifies acts k)
    (hstop : ¬ (Roll.start t.observerList os).Notifies acts n) :
    ∃ b' t' os' notices, Focus b' ys zs topic t' ∧ t'.observerList.Rep os' ∧
      (∀ x ∈ os, x.item ∈ os'.map Slot.item → (notices.map Notice.obs).count x.item = 1) ∧
      ∀ fuel, n < fuel → Reentrant.publish acts fuel b t.name data t.datasize =
        .ok (b', .noErrors, notices) := by
  by_cases hkept : ((Roll.start t.observerList os).before acts n).cursor = .kept
  · have hlength : ((Roll.start t.observerList os).before acts n).seats.length ≤ n :=
      Nat.le_of_not_lt fun hlt => hstop ⟨hkept, hlt⟩
    obtain ⟨b', t', os', notices, h', hrep, -, hnotices, hreturns⟩ :=
      h.publish_done hos hcount hacts data hn hkept hlength
    refine ⟨b', t', os', notices, h', hrep, fun x _ hx => ?_, hreturns⟩
    rw [hnotices]
    exact List.count_eq_one_of_mem hrep.nodup_items hx
  · cases n with
    | zero => exact absurd rfl hkept
    | succ n =>
      have hreached : (Roll.start t.observerList os).Reached acts n :=
        fun k hk => hn k (Nat.lt_succ_of_le hk)
      obtain ⟨hended, hgone⟩ := (hharmless n hreached).resolve_left hkept
      obtain ⟨b', t', os', notices, h', hrep, hseats, hnotices, -, hreturns⟩ :=
        h.publish_ended hos hcount hacts data hreached hended
      refine ⟨b', t', os', notices, h', hrep, fun x hx hstays => ?_, hreturns⟩
      obtain ⟨k, hk⟩ := List.mem_iff_getElem?.1 hx
      -- nobody behind the last one notified has stayed
      have hle : k < n + 1 := by
        by_contra hlt
        refine hgone k (x.item, x.value.observer) (by omega) ?_ (hseats ▸ hstays)
        rw [Roll.start, List.getElem?_map, hk]
        rfl
      rw [hnotices k x hk, if_pos hle]

/-- Callbacks that attach nobody make no more seats. -/
theorem Roll.length_acts_le {as : List (Act σ κ)} (has : ∀ a ∈ as, a.attaches = false) :
    (r.acts as).seats.length ≤ r.seats.length := by
  induction as generalizing r with
  | nil => exact Nat.le_refl _
  | cons a as ih =>
    obtain ⟨ha, has⟩ := List.forall_mem_cons.1 has
    refine Nat.le_trans (ih has) ?_
    cases a with
    | attach _ _ _ => cases ha
    | detach _ _ => exact List.length_eraseP_le
    | consumed _ | getTopicData _ | getTopicDatasize _ => exact Nat.le_refl _

/-- With finitely many attachments, there is a last observer. -/
theorem Roll.exists_not_notifies (r : Roll σ)
    (hacts : ∃ n, ∀ i, n ≤ i → ∀ a ∈ acts i, a.attaches = false) : ∃ n, ¬ r.Notifies acts n := by
  obtain ⟨n, hn⟩ := hacts
  have hlength : ∀ m, (r.before acts (n + m)).seats.length ≤ (r.before acts n).seats.length := by
    intro m
    induction m with
    | zero => exact Nat.le_refl _
    | succ m ih => exact Nat.le_trans (length_acts_le (hn (n + m) (Nat.le_add_right n m))) ih
  refine ⟨n + (r.before acts n).seats.length, fun hnotifies => ?_⟩
  have hlt := hnotifies.2
  have hle := hlength (r.before acts n).seats.length
  omega

/-- The first place where there is no next observer. -/
theorem Roll.exists_first_not_notifies {n : ℕ} (hn : ¬ r.Notifies acts n) :
    ∃ m ≤ n, (∀ k < m, r.Notifies acts k) ∧ ¬ r.Notifies acts m := by
  have hex : ∃ n, ¬ r.Notifies acts n := ⟨n, hn⟩
  exact ⟨Nat.find hex, Nat.find_min' hex hn, fun k hk => not_not.1 (Nat.find_min hex hk),
    Nat.find_spec hex⟩

/-- Callbacks that only attach are harmless. -/
theorem harmless_of_attaches (hacts : ∀ i, ∀ a ∈ acts i, a.attaches = true) (hr : r.cursor = .kept) :
    Harmless acts r := by
  have hcalls : ∀ as : List (Act σ κ), (∀ a ∈ as, a.attaches = true) → ∀ r : Roll σ,
      (r.acts as).cursor = r.cursor := by
    intro as
    induction as with
    | nil => exact fun _ _ => rfl
    | cons a as ih =>
      intro has r
      obtain ⟨ha, has⟩ := List.forall_mem_cons.1 has
      rw [Roll.acts, List.foldl_cons]
      refine (ih has (r.act a)).trans ?_
      cases a with
      | attach _ _ _ => rfl
      | detach _ _ | consumed _ | getTopicData _ | getTopicDatasize _ => cases ha
  have hkept : ∀ i, (r.before acts i).cursor = .kept := by
    intro i
    induction i with
    | zero => exact hr
    | succ i ih => exact (hcalls (acts i) (hacts i) _).trans ih
  exact fun i _ => Or.inl (hkept (i + 1))

/-- **Publication with callbacks that attach and detach.**  A publication on a topic without
pending notifications survives the calls of its callbacks if and only if they are harmless. -/
theorem notifiesStaying_iff (h : Focus b ys zs topic t) (hos : t.observerList.Rep os)
    (hcount : t.count = 0) (hacts : ∀ i, ∀ a ∈ acts i, a.Changes t.name) (data : Option δ) :
    NotifiesStaying acts b topic t.name data t.datasize os ↔
      Harmless acts (Roll.start t.observerList os) := by
  constructor
  · rintro ⟨hnotifies, -⟩ i hreached
    cases hcursor : ((Roll.start t.observerList os).before acts (i + 1)).cursor with
    | kept => exact Or.inl rfl
    | dangling =>
      have hfreed := h.publish_dangling hos hcount hacts data hreached hcursor
      rcases hnotifies (i + 1) with hrun | ⟨_, _, _, _, _, hrun, -⟩ <;>
        cases hfreed.symm.trans hrun
    | ended =>
      refine Or.inr ⟨rfl, fun k s hk hs hstays => ?_⟩
      obtain ⟨b', t', os', notices, h', hrep, hseats, hnotices, -, hreturns⟩ :=
        h.publish_ended hos hcount hacts data hreached hcursor
      obtain ⟨l', hl', hread'⟩ := h'.read
      rcases hnotifies (i + 2) with hrun | ⟨b₁, notices₁, l₁, t₁, os₁, hrun, hl₁, hread₁, hrep₁, hall⟩
      · cases (hreturns (i + 2) (Nat.lt_succ_self _)).symm.trans hrun
      · cases (hreturns (i + 2) (Nat.lt_succ_self _)).symm.trans hrun
        cases hl'.symm.trans hl₁
        cases hread'.symm.trans hread₁
        -- the observer behind the last one notified is still attached
        rw [Roll.start, List.getElem?_map] at hs
        obtain ⟨x, hx, rfl⟩ := Option.map_eq_some_iff.1 hs
        rw [hseats, hrep.items_unique hrep₁] at hstays
        have hone := hall x (List.mem_of_getElem? hx) hstays
        rw [hnotices k x hx, if_neg (by omega)] at hone
        cases hone
  · intro hharmless
    refine ⟨fun fuel => ?_, fun hfinite => ?_⟩
    · by_cases hall : ∀ k < fuel, (Roll.start t.observerList os).Notifies acts k
      · exact Or.inl (hharmless.diverges h hos hcount hacts data hall)
      · rw [not_forall] at hall
        obtain ⟨k, hk⟩ := hall
        rw [Classical.not_imp] at hk
        obtain ⟨n, hn, hbefore, hstop⟩ := Roll.exists_first_not_notifies hk.2
        obtain ⟨b', t', os', notices, h', hrep, hnotices, hreturns⟩ :=
          hharmless.returns h hos hcount hacts data hbefore hstop
        obtain ⟨l', hl', hread'⟩ := h'.read
        exact Or.inr ⟨b', notices, l', t', os', hreturns fuel (Nat.lt_of_le_of_lt hn hk.1), hl',
          hread', hrep, hnotices⟩
    · obtain ⟨n, hn⟩ := (Roll.start t.observerList os).exists_not_notifies hfinite
      obtain ⟨m, -, hbefore, hstop⟩ := Roll.exists_first_not_notifies hn
      obtain ⟨b', t', os', notices, -, -, -, hreturns⟩ :=
        hharmless.returns h hos hcount hacts data hbefore hstop
      refine ⟨m + 1, fun hdiverges => ?_⟩
      cases (hreturns (m + 1) (Nat.lt_succ_self m)).symm.trans hdiverges

end

/-- The first callback attaches a third observer. -/
def attachThird : ℕ → List (Act ℕ Unit)
  | 0 => [.attach "/keyb" 3 ()]
  | _ => []

/-- The topic `/keyb` is in focus. -/
theorem exists_focus_keyb : ∃ (b : MsgBroker ℕ Unit ℕ) (ys zs : _) (topic : Addr)
    (t : Topic ℕ Unit ℕ) (os : _), Focus b ys zs topic t ∧ t.name = "/keyb" ∧ t.count = 0 ∧
      t.datasize = 8 ∧ t.observerList.Rep os ∧ os.map Slot.value = [⟨1, ()⟩, ⟨2, ()⟩] := by
  obtain ⟨b, hb⟩ := exists_keybTopic
  have hm : keybTopic.lookup "/keyb" = some ⟨8, none, 0, [⟨1, ()⟩, ⟨2, ()⟩]⟩ := by decide
  obtain ⟨ys, zs, topic, t, hfocus, hname, ⟨hsize, -, hcount, os, hos, hobservers⟩, -⟩ := hb.focus hm
  exact ⟨b, ys, zs, topic, t, os, hfocus, hname, hcount, hsize, hos, hobservers⟩

/-- Attaching is harmless. -/
theorem notifiesStaying_attachThird : ∃ (b : MsgBroker ℕ Unit ℕ) (topic : Addr)
    (os : List (Slot (Observer ℕ Unit))), os.map Slot.value = [⟨1, ()⟩, ⟨2, ()⟩] ∧
      NotifiesStaying attachThird b topic "/keyb" (some 7) 8 os := by
  obtain ⟨b, ys, zs, topic, t, os, hfocus, hname, hcount, hsize, hos, hobservers⟩ :=
    exists_focus_keyb
  have hacts : ∀ i, ∀ a ∈ attachThird i, a.Changes t.name ∧ a.attaches = true := by
    rintro (_ | i) a ha
    · obtain rfl := List.mem_singleton.1 ha
      exact ⟨hname.symm, rfl⟩
    · cases ha
  have hsurvives := (notifiesStaying_iff hfocus hos hcount (fun i a ha => (hacts i a ha).1)
    (some 7)).2 (harmless_of_attaches (fun i a ha => (hacts i a ha).2) rfl)
  rw [hname, hsize] at hsurvives
  exact ⟨b, topic, os, hobservers, hsurvives⟩

/-- The first callback detaches its own observer. -/
def detachFirst : ℕ → List (Act ℕ Unit)
  | 0 => [.detach "/keyb" 1]
  | _ => []

/-- An observer that detaches itself while another one is attached sends `publish` to a freed
link. -/
theorem not_notifiesStaying_detachFirst : ∃ (b : MsgBroker ℕ Unit ℕ) (topic : Addr)
    (os : List (Slot (Observer ℕ Unit))), os.map Slot.value = [⟨1, ()⟩, ⟨2, ()⟩] ∧
      Reentrant.publish detachFirst 1 b "/keyb" (some 7) 8 = .error .freedBlock ∧
      ¬ NotifiesStaying detachFirst b topic "/keyb" (some 7) 8 os := by
  obtain ⟨b, ys, zs, topic, t, os, hfocus, hname, hcount, hsize, hos, hobservers⟩ :=
    exists_focus_keyb
  have hacts : ∀ i, ∀ a ∈ detachFirst i, a.Changes t.name := by
    rintro (_ | i) a ha
    · obtain rfl := List.mem_singleton.1 ha
      exact hname.symm
    · cases ha
  -- the two observers
  obtain ⟨x, ws, rfl, hx, hws⟩ := List.map_eq_cons_iff.1 hobservers
  obtain ⟨y, vs, rfl, -, hvs⟩ := List.map_eq_cons_iff.1 hws
  obtain rfl := List.map_eq_nil_iff.1 hvs
  have hreached : (Roll.start t.observerList [x, y]).Reached detachFirst 0 := by
    intro k hk
    obtain rfl := Nat.le_zero.1 hk
    exact ⟨rfl, Nat.zero_lt_succ 1⟩
  have hdangling :
      ((Roll.start t.observerList [x, y]).before detachFirst 1).cursor = .dangling := by
    simp [Roll.before, Roll.acts, Roll.act, Roll.start, detachFirst, hx]
  have hfreed := hfocus.publish_dangling hos hcount hacts (some 7) hreached hdangling
  rw [hname, hsize] at hfreed
  refine ⟨b, topic, [x, y], hobservers, hfreed, fun hsurvives => ?_⟩
  rcases hsurvives.1 1 with hrun | ⟨_, _, _, _, _, hrun, -⟩ <;> cases hfreed.symm.trans hrun

end MsgBroker

end UavTelemetry
