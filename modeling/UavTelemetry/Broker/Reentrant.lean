import UavTelemetry.Broker.Refinement

/-!
# Callbacks that call the broker

`publish` holds a pointer to the topic and a cursor in its observer list while it notifies the
observers, and their callbacks may call the broker themselves.  This file follows `publish` with
such callbacks: the loop goes through the pointer again after every callback, and so finds what the
callback has made of the topic.

What the callbacks of one publication do is a sequence of lists of calls, one list for each callback
in turn.  Callbacks that only read topics and acknowledge this one leave the observers alone: all
of them are notified, and each acknowledgement counts.

## Main definitions

* `MsgBroker.Act` : a call that a callback makes.
* `MsgBroker.Reentrant.notifyLoop`, `MsgBroker.Reentrant.publish` : `publish` with its callbacks.
* `MsgBroker.Focus` : the broker, seen from the pointer to one topic.
* `MsgBroker.Readers` : the calls read topics and acknowledge the published one at most once.

## Main results

* `MsgBroker.Reentrant.publish_silent` : callbacks without calls are those of `MsgBroker.publish`.
* `MsgBroker.Represents.focus` : every installed topic can be focused on.
* `MsgBroker.publish_readers` : a publication with readers as callbacks.
-/

namespace UavTelemetry

namespace MsgBroker

variable {σ κ δ : Type}

/-- A call that a callback makes. -/
inductive Act (σ κ : Type)
  | attach (topicName : String) (subscriber : σ) (notify : κ)
  | detach (topicName : String) (subscriber : σ)
  | consumed (topicName : String)
  | getTopicData (topicName : String)
  | getTopicDatasize (topicName : String)
  deriving DecidableEq, Repr

/-- The call. -/
def Act.call : Act σ κ → Call σ κ δ
  | .attach topicName subscriber notify => .attach topicName subscriber notify
  | .detach topicName subscriber => .detach topicName subscriber
  | .consumed topicName => .consumed topicName
  | .getTopicData topicName => .getTopicData topicName
  | .getTopicDatasize topicName => .getTopicDatasize topicName

/-- A notification. -/
structure Notice (σ κ δ : Type) where
  /-- The pointer `obs`. -/
  obs : Addr
  /-- The observer. -/
  observer : Observer σ κ
  /-- What the calls of the callback returned. -/
  replies : List (Exception × Reply δ)
  deriving DecidableEq, Repr

namespace Reentrant

variable [DecidableEq σ]

/-- The list behind the static pointer `topic_list`. -/
def topicList (b : MsgBroker σ κ δ) : Except Fault (TopicList σ κ δ) :=
  match b.topicList with
  | none => .error .nullPointer
  | some l => .ok l

/-- A callback makes its calls.  None of them is `publish`. -/
def callback (b : MsgBroker σ κ δ) (acts : List (Act σ κ)) :
    Except Fault (MsgBroker σ κ δ × List (Exception × Reply δ)) := do
  let ((b, ()), replies) ← run (fun _ _ _ w => w) b () (acts.map Act.call)
  return (b, replies)

/-- The loop of `publish` over the observers, from the observer at hand; `acts i` are the calls of
the `i`-th callback. -/
def notifyLoop (acts : ℕ → List (Act σ κ)) : ℕ → ℕ → MsgBroker σ κ δ → Addr → Option Addr →
    Except Fault (MsgBroker σ κ δ × List (Notice σ κ δ))
  | 0, _, _, _, _ => .error .diverges
  | _ + 1, _, b, _, none => .ok (b, [])
  | fuel + 1, i, b, topic, some a => do
    let l ← topicList b
    let items ← l.items.update (some topic) fun topic => { topic with count := topic.count + 1 }
    let t ← items.deref (some topic)
    let obs ← t.observerList.items.deref (some a)
    let (b, replies) ← callback ⟨some { l with items := items }⟩ (acts i)
    let l ← topicList b
    let t ← l.items.deref (some topic)
    let (list, next) ← t.observerList.getNextItem
    let items ← l.items.update (some topic) fun topic => { topic with observerList := list }
    let (b, notices) ← notifyLoop acts fuel (i + 1) ⟨some { l with items := items }⟩ topic next
    return (b, ⟨a, obs, replies⟩ :: notices)

/-- `publish`, in at most `fuel` rounds of its loop. -/
def publish (acts : ℕ → List (Act σ κ)) (fuel : ℕ) (b : MsgBroker σ κ δ) (topicName : String)
    (data : Option δ) (datasize : ℕ) :
    Except Fault (MsgBroker σ κ δ × Exception × List (Notice σ κ δ)) :=
  match b.topicList with
  | none => .ok (b, .deinit, [])
  | some l => do
    let (l, topic) ← findTopic l topicName
    match topic with
    | none => return (⟨some l⟩, .topicNotFound, [])
    | some topic =>
      let t ← l.items.deref (some topic)
      if t.count > 0 then return (⟨some l⟩, .topicPending, [])
      else if datasize ≠ t.datasize then return (⟨some l⟩, .topicSize, [])
      else
        let (list, obs) ← t.observerList.getFirstItem
        let items ← l.items.update (some topic) fun topic =>
          { topic with data := data, datasize := datasize, observerList := list }
        let (b, notices) ← notifyLoop acts fuel 0 ⟨some { l with items := items }⟩ topic obs
        return (b, .noErrors, notices)

end Reentrant

/-! ### Callbacks that make no calls -/

/-- A callback that only keeps a record of its observer. -/
def recordObserver (notify : κ) (observer : σ) (_ : String) (w : List (Observer σ κ)) :
    List (Observer σ κ) := w ++ [⟨observer, notify⟩]

section

variable [DecidableEq σ]

/-- The loop of `publish` does with silent callbacks what it does with callbacks that do not call
the broker at all. -/
theorem Reentrant.notifyLoop_silent {l : TopicList σ κ δ} {topic : Addr} {t : Topic σ κ δ}
    (hread : l.items.read topic = some t) (fuel i : ℕ) (next : Option Addr)
    (w : List (Observer σ κ)) :
    (Reentrant.notifyLoop (fun _ => []) fuel i ⟨some l⟩ topic next).map
        (fun r => (r.1, w ++ r.2.map Notice.observer)) =
      (MsgBroker.notifyLoop recordObserver fuel t next w).map
        (fun r => (⟨some { l with items := l.items.write topic r.1 }⟩, r.2)) := by
  induction fuel generalizing l t i next w with
  | zero => rfl
  | succ fuel ih =>
    cases next with
    | none =>
      simp only [Reentrant.notifyLoop, MsgBroker.notifyLoop, Except.map, List.map_nil,
        List.append_nil, Store.write_same hread]
    | some a =>
      have hcount := Store.read_write_self (v := { t with count := t.count + 1 }) hread
      cases hobs : t.observerList.items.deref (some a) with
      | error fault =>
        simp only [Reentrant.notifyLoop, MsgBroker.notifyLoop, Reentrant.topicList, ok_bind,
          Store.update_of_read hread, Store.deref_of_read hcount, hobs]
        rfl
      | ok obs =>
        have hsilent (b : MsgBroker σ κ δ) : Reentrant.callback b [] = .ok (b, []) := rfl
        cases hnext : t.observerList.getNextItem with
        | error fault =>
          simp only [Reentrant.notifyLoop, MsgBroker.notifyLoop, Reentrant.topicList, ok_bind,
            Store.update_of_read hread, Store.deref_of_read hcount, hobs, hsilent, hnext]
          rfl
        | ok r =>
          obtain ⟨list, next⟩ := r
          have hread' := Store.read_write_self
            (v := { t with count := t.count + 1, observerList := list }) hread
          have hrest := ih (l := { l with items := l.items.write topic _ }) hread' (i + 1) next
            (w ++ [obs])
          simp only [Store.write_write] at hrest
          simp only [Reentrant.notifyLoop, MsgBroker.notifyLoop, Reentrant.topicList, ok_bind,
            Store.update_of_read hread, Store.deref_of_read hcount, hobs, hsilent, hnext,
            Store.update_of_read hcount, Store.write_write, recordObserver]
          rw [← hrest]
          cases Reentrant.notifyLoop (fun _ => ([] : List (Act σ κ))) fuel (i + 1) _ topic next with
          | error fault => rfl
          | ok s => simp [Except.map]

/-- **The two models of `publish`** agree on callbacks that make no calls. -/
theorem Reentrant.publish_silent (b : MsgBroker σ κ δ) (name : String) (data : Option δ)
    (datasize : ℕ) :
    ∃ fuel, (Reentrant.publish (fun _ => []) fuel b name data datasize).map
        (fun r => (r.1, r.2.1, r.2.2.map Notice.observer)) =
      MsgBroker.publish recordObserver b name data datasize [] := by
  cases hb : b.topicList with
  | none =>
    refine ⟨0, ?_⟩
    simp only [Reentrant.publish, MsgBroker.publish, hb]
    rfl
  | some l =>
    simp only [Reentrant.publish, MsgBroker.publish, hb]
    cases hfind : findTopic l name with
    | error fault => exact ⟨0, rfl⟩
    | ok r =>
      obtain ⟨l, topic⟩ := r
      cases topic with
      | none => exact ⟨0, rfl⟩
      | some topic =>
        cases hderef : l.items.deref (some topic) with
        | error fault =>
          refine ⟨0, ?_⟩
          simp only [ok_bind, hderef]
          rfl
        | ok t =>
          simp only [ok_bind, hderef]
          by_cases hcount : t.count > 0
          · exact ⟨0, by simp only [hcount, if_true]; rfl⟩
          by_cases hsize : datasize = t.datasize
          · subst hsize
            simp only [hcount, ne_eq, not_true_eq_false, if_false, notifyAll]
            cases hfirst : t.observerList.getFirstItem with
            | error fault => exact ⟨0, rfl⟩
            | ok r =>
              obtain ⟨list, obs⟩ := r
              have hread := Store.read_of_deref hderef
              have hread' := Store.read_write_self
                (v := { t with data := data, observerList := list }) hread
              have hloop := notifyLoop_silent (l := { l with items := l.items.write topic _ })
                hread' list.fuel 0 obs []
              simp only [List.nil_append, Store.write_write] at hloop
              refine ⟨list.fuel, ?_⟩
              simp only [ok_bind, Store.update_of_read hread]
              revert hloop
              rcases Reentrant.notifyLoop (fun _ => ([] : List (Act σ κ))) list.fuel 0 _ topic obs
                with fault | ⟨b', notices⟩ <;>
                rcases MsgBroker.notifyLoop recordObserver list.fuel
                  { t with data := data, observerList := list } obs [] with fault' | ⟨t', w⟩ <;>
                intro hloop
              · cases hloop
                rfl
              · cases hloop
              · cases hloop
              · obtain ⟨hb', rfl⟩ := Prod.mk.inj (Except.ok.inj hloop)
                simp only at hb'
                simp [Except.map, hb']
          · refine ⟨0, ?_⟩
            simp only [hcount, hsize, ne_eq, not_false_eq_true, if_true, if_false]
            rfl

end

/-! ### A topic in focus -/

open ItemList (Slot)

/-- The broker has the topic `t` at the address `topic`, between the topics `ys` and `zs`. -/
def Focus (b : MsgBroker σ κ δ) (ys zs : List (Slot (Topic σ κ δ))) (topic : Addr)
    (t : Topic σ κ δ) : Prop :=
  ∃ l node, b.topicList = some l ∧ l.Rep (ys ++ ⟨node, topic, t⟩ :: zs) ∧
    ∀ y ∈ ys, t.name ≠ y.value.name

variable {b b' : MsgBroker σ κ δ} {ys zs : List (Slot (Topic σ κ δ))} {topic : Addr}
  {t t' : Topic σ κ δ} {l : TopicList σ κ δ} {m : Reference σ κ δ} {name : String}
  {e : Entry σ κ δ}

theorem Focus.read (h : Focus b ys zs topic t) :
    ∃ l, b.topicList = some l ∧ l.items.read topic = some t := by
  obtain ⟨l, node, hl, hrep, -⟩ := h
  exact ⟨l, hl, hrep.read ⟨node, topic, t⟩ (by simp)⟩

/-- The topic is overwritten. -/
theorem Focus.write (h : Focus b ys zs topic t) (hl : b.topicList = some l)
    (hname : t'.name = t.name) :
    Focus ⟨some { l with items := l.items.write topic t' }⟩ ys zs topic t' := by
  obtain ⟨l', node, hl', hrep, hne⟩ := h
  cases hl.symm.trans hl'
  exact ⟨_, node, rfl, hrep.write_item t', fun y hy => hname ▸ hne y hy⟩

/-- A search of any topic only moves the cursor of the topic list. -/
theorem Focus.search {r : Option Addr} {l' : TopicList σ κ δ} (h : Focus b ys zs topic t)
    (hl : b.topicList = some l) (hfind : findTopic l name = .ok (l', r)) :
    Focus ⟨some l'⟩ ys zs topic t ∧ l'.items = l.items := by
  obtain ⟨l₀, node, hl₀, hrep, hne⟩ := h
  cases hl.symm.trans hl₀
  rw [findTopic, hrep.find] at hfind
  cases hfind
  exact ⟨⟨_, node, rfl, hrep.search _, hne⟩, rfl⟩

/-- The topic is found under its name. -/
theorem Focus.find (h : Focus b ys zs topic t) (hl : b.topicList = some l) :
    ∃ l', findTopic l t.name = .ok (l', some topic) ∧ Focus ⟨some l'⟩ ys zs topic t ∧
      l'.items.read topic = some t := by
  obtain ⟨l₀, node, hl₀, hrep, hne⟩ := h
  cases hl.symm.trans hl₀
  have hfind : ((ys ++ ⟨node, topic, t⟩ :: zs).find? fun x => t.name = x.value.name) =
      some ⟨node, topic, t⟩ := by
    rw [List.find?_append, find?_eq_none hne, List.find?_cons_of_pos (by simp)]
    rfl
  refine ⟨{ l with search := some node }, by rw [findTopic, hrep.find, hfind]; rfl,
    ⟨_, node, rfl, hrep.search _, hne⟩, hrep.read ⟨node, topic, t⟩ (by simp)⟩

/-- **Focusing**: an installed topic can be focused on, and what becomes of it there becomes of its
entry. -/
theorem Represents.focus (h : b.Represents m) (hm : m.lookup name = some e) :
    ∃ ys zs topic t, Focus b ys zs topic t ∧ t.name = name ∧ t.Rep e ∧
      ∀ b' t' f, Focus b' ys zs topic t' → t'.name = name → t'.Rep (f e) →
        b'.Represents (m.modify name f) := by
  obtain ⟨l, hl, xs, hrep, hxs⟩ := h
  obtain ⟨es, fs, hentries, hes, hfs⟩ := OrderedMap.split hm
  rw [hentries] at hxs
  obtain ⟨ys, ⟨node, topic, t⟩, zs, rfl, hys, hx, hzs⟩ := forall₂_split hxs
  have hname : t.name = name := hx.1
  refine ⟨ys, zs, topic, t, ⟨l, node, hl, hrep, ?_⟩, hname, hx.2, ?_⟩
  · rw [hname]
    exact names_ne hys hes
  · rintro b' t' f ⟨l', node', hl', hrep', -⟩ hname' ht'
    refine ⟨l', hl', _, hrep', ?_⟩
    rw [OrderedMap.modify_entries hentries hes hfs]
    exact List.rel_append hys (.cons ⟨hname', ht'⟩ hzs)

/-- One notification of the topic is acknowledged. -/
theorem Focus.consumed (h : Focus b ys zs topic t) :
    ∃ b', b.consumed t.name = .ok (b', .noErrors) ∧
      Focus b' ys zs topic { t with count := t.count - 1 } := by
  obtain ⟨l, hl, -⟩ := h.read
  obtain ⟨l', hfind, h', hread⟩ := h.find hl
  by_cases hzero : t.count = 0
  -- the count stays `0`, and nothing is written
  · have hsame : { t with count := t.count - 1 } = t := by
      cases t
      simp_all
    refine ⟨⟨some l'⟩, ?_, hsame.symm ▸ h'⟩
    simp only [MsgBroker.consumed, hl, hfind, ok_bind, consumedAt, Store.deref_of_read hread,
      hzero, ne_eq, not_true_eq_false, if_false, Option.isNone_some, Bool.false_eq_true,
      pure_eq_ok]
  · refine ⟨⟨some { l' with items := l'.items.write topic { t with count := t.count - 1 } }⟩, ?_,
      h'.write rfl rfl⟩
    simp only [MsgBroker.consumed, hl, hfind, ok_bind, consumedAt, Store.deref_of_read hread,
      Store.update_of_read hread, hzero, ne_eq, not_false_eq_true, if_true, Option.isNone_some,
      Bool.false_eq_true, if_false, pure_eq_ok]

/-- **One round** of the loop of `publish`, from what the callback makes of the topic: the next
observer is that of the cursor that the callback leaves. -/
theorem Focus.round [DecidableEq σ] (h : Focus b ys zs topic t) {a : Addr} {obs : Observer σ κ}
    (hobs : t.observerList.items.read a = some obs) (acts : ℕ → List (Act σ κ)) (i : ℕ) :
    ∃ b₁, Focus b₁ ys zs topic { t with count := t.count + 1 } ∧
      ∀ b₂ replies t₂, Reentrant.callback b₁ (acts i) = .ok (b₂, replies) →
        Focus b₂ ys zs topic t₂ →
        (∀ fault, t₂.observerList.getNextItem = .error fault →
          ∀ fuel, Reentrant.notifyLoop acts (fuel + 1) i b topic (some a) = .error fault) ∧
        ∀ list next, t₂.observerList.getNextItem = .ok (list, next) →
          ∃ b₃, Focus b₃ ys zs topic { t₂ with observerList := list } ∧
            ∀ fuel, Reentrant.notifyLoop acts (fuel + 1) i b topic (some a) =
              (Reentrant.notifyLoop acts fuel (i + 1) b₃ topic next).map
                fun r => (r.1, ⟨a, obs, replies⟩ :: r.2) := by
  obtain ⟨l, hl, hread⟩ := h.read
  refine ⟨_, h.write hl rfl, fun b₂ replies t₂ hcallback h₂ => ?_⟩
  obtain ⟨l₂, hl₂, hread₂⟩ := h₂.read
  have hcount : (l.items.write topic { t with count := t.count + 1 }).deref (some topic) =
      .ok { t with count := t.count + 1 } := Store.deref_of_read (Store.read_write_self hread)
  constructor
  · intro fault hnext fuel
    simp only [Reentrant.notifyLoop, Reentrant.topicList, hl, ok_bind,
      Store.update_of_read hread, hcount, Store.deref_of_read hobs, hcallback, hl₂,
      Store.deref_of_read hread₂, hnext]
    rfl
  · intro list next hnext
    refine ⟨_, h₂.write hl₂ rfl, fun fuel => ?_⟩
    simp only [Reentrant.notifyLoop, Reentrant.topicList, hl, ok_bind,
      Store.update_of_read hread, hcount, Store.deref_of_read hobs, hcallback, hl₂,
      Store.deref_of_read hread₂, hnext, Store.update_of_read hread₂]
    rfl

/-- `publish` enters its loop at the first observer. -/
theorem Focus.publish [DecidableEq σ] (h : Focus b ys zs topic t)
    {os : List (Slot (Observer σ κ))} (hos : t.observerList.Rep os) (hcount : t.count = 0)
    (acts : ℕ → List (Act σ κ)) (data : Option δ) :
    ∃ b₁, Focus b₁ ys zs topic { t with
        data := data
        observerList := { t.observerList with search := os.head?.map Slot.node } } ∧
      ∀ fuel, Reentrant.publish acts fuel b t.name data t.datasize =
        (Reentrant.notifyLoop acts fuel 0 b₁ topic (os.head?.map Slot.item)).map
          fun r => (r.1, .noErrors, r.2) := by
  obtain ⟨l, hl, -⟩ := h.read
  obtain ⟨l', hfind, h', hread⟩ := h.find hl
  refine ⟨_, h'.write rfl rfl, fun fuel => ?_⟩
  simp only [Reentrant.publish, hl, hfind, ok_bind, Store.deref_of_read hread, hcount,
    gt_iff_lt, Nat.lt_irrefl, if_false, ne_eq, not_true_eq_false, hos.getFirstItem,
    Store.update_of_read hread]
  rfl

/-- `publish` refuses the update. -/
theorem Focus.publish_refused [DecidableEq σ] (h : Focus b ys zs topic t) {datasize : ℕ}
    (hrefused : t.count > 0 ∨ datasize ≠ t.datasize) (acts : ℕ → List (Act σ κ)) (fuel : ℕ)
    (data : Option δ) :
    ∃ b₁ exception, Focus b₁ ys zs topic t ∧ exception ≠ .noErrors ∧
      Reentrant.publish acts fuel b t.name data datasize = .ok (b₁, exception, []) := by
  obtain ⟨l, hl, -⟩ := h.read
  obtain ⟨l', hfind, h', hread⟩ := h.find hl
  by_cases hcount : t.count > 0
  · refine ⟨⟨some l'⟩, .topicPending, h', by decide, ?_⟩
    simp only [Reentrant.publish, hl, hfind, ok_bind, Store.deref_of_read hread, hcount, if_true,
      pure_eq_ok]
  · have hsize : datasize ≠ t.datasize := hrefused.resolve_left hcount
    refine ⟨⟨some l'⟩, .topicSize, h', by decide, ?_⟩
    simp only [Reentrant.publish, hl, hfind, ok_bind, Store.deref_of_read hread, hcount, if_false,
      ne_eq, hsize, not_false_eq_true, if_true, pure_eq_ok]

/-! ### Callbacks that read -/

/-- A call that reads an installed topic or acknowledges the topic `name`. -/
def Act.Reads (m : Reference σ κ δ) (name : String) : Act σ κ → Prop
  | .getTopicData _ => True
  | .getTopicDatasize topicName => m.lookup topicName ≠ none
  | .consumed topicName => topicName = name
  | _ => False

/-- A call that acknowledges the topic `name`. -/
def Act.consumes (name : String) : Act σ κ → Bool
  | .consumed topicName => topicName = name
  | _ => false

/-- Calls that read installed topics and acknowledge the topic `name` at most once. -/
structure Readers (m : Reference σ κ δ) (name : String) (acts : List (Act σ κ)) : Prop where
  /-- Nothing else. -/
  reads : ∀ a ∈ acts, a.Reads m name
  /-- At most once. -/
  once : acts.countP (Act.consumes name) ≤ 1

/-- What a call returns while the topic `name` holds the data `data` of size `datasize`, and the
other topics what they hold in `m`. -/
def Act.reading (m : Reference σ κ δ) (name : String) (data : Option δ) (datasize : ℕ) :
    Act σ κ → Exception × Reply δ
  | .getTopicData topicName =>
    if topicName = name then (.noErrors, .data data)
    else ((m.getTopicData topicName).1, .data (m.getTopicData topicName).2)
  | .getTopicDatasize topicName =>
    if topicName = name then (.noErrors, .size datasize)
    else ((m.getTopicDatasize topicName).1, .size (m.getTopicDatasize topicName).2)
  | _ => (.noErrors, .done)

/-- The number of callbacks, from the `i`-th one on, that acknowledge the topic. -/
def consumers (acts : ℕ → List (Act σ κ)) (name : String) (i n : ℕ) : ℕ :=
  (List.range' i n).countP fun k => (acts k).any (Act.consumes name)

section

variable [DecidableEq σ]

/-- A reader leaves the topic in focus as it is, but for the acknowledgement. -/
theorem Focus.reader {a : Act σ κ} {r : Exception × Reply δ} (h : Focus b ys zs topic t)
    (ha : a.Reads m t.name) (hrun : perform (fun _ _ _ w => w) b () a.call = .ok ((b', ()), r)) :
    Focus b' ys zs topic { t with count := t.count - (a.consumes t.name).toNat } := by
  obtain ⟨l, hl, -⟩ := h.read
  cases a with
  | attach _ _ _ | detach _ _ => cases ha
  | getTopicData topicName =>
    obtain ⟨⟨b₁, e, data⟩, hget, hrun⟩ := bind_eq_ok hrun
    cases hrun
    simp only [getTopicData, hl] at hget
    obtain ⟨⟨l', found⟩, hfind, hget⟩ := bind_eq_ok hget
    cases found with
    | none =>
      cases hget
      exact (h.search hl hfind).1
    | some a =>
      obtain ⟨_, -, hget⟩ := bind_eq_ok hget
      cases hget
      exact (h.search hl hfind).1
  | getTopicDatasize topicName =>
    obtain ⟨⟨b₁, e, datasize⟩, hget, hrun⟩ := bind_eq_ok hrun
    cases hrun
    simp only [getTopicDatasize, hl] at hget
    obtain ⟨⟨l', found⟩, hfind, hget⟩ := bind_eq_ok hget
    obtain ⟨_, -, hget⟩ := bind_eq_ok hget
    cases hget
    exact (h.search hl hfind).1
  | consumed topicName =>
    obtain rfl : topicName = t.name := ha
    obtain ⟨⟨b₁, e⟩, hconsumed, hrun⟩ := bind_eq_ok hrun
    cases hrun
    obtain ⟨b₂, hrun', h'⟩ := h.consumed
    rw [hrun'] at hconsumed
    cases hconsumed
    simpa [Act.consumes] using h'

/-- What the map replies to a reader. -/
theorem Reference.perform_reader {a : Act σ κ} {data : Option δ} {f : Entry σ κ δ → Entry σ κ δ}
    (hm : m.lookup name = some e) (ha : a.Reads m name) (hdata : (f e).data = data)
    (hsize : (f e).datasize = e.datasize) :
    Reference.Permits (m.modify name f) a.call ∧
      (Reference.perform (fun _ _ _ w => w) (m.modify name f) () a.call).2 =
        a.reading m name data e.datasize := by
  have hself : (m.modify name f).lookup name = some (f e) := OrderedMap.lookup_modify_self hm
  cases a with
  | attach _ _ _ | detach _ _ => cases ha
  | getTopicData topicName =>
    refine ⟨trivial, ?_⟩
    by_cases hname : topicName = name
    · subst hname
      simp [Reference.perform, Act.call, Reference.getTopicData, hself, Act.reading, hdata]
    · simp [Reference.perform, Act.call, Reference.getTopicData,
        OrderedMap.lookup_modify_of_ne hname, Act.reading, hname]
  | getTopicDatasize topicName =>
    by_cases hname : topicName = name
    · subst hname
      refine ⟨by simp [Reference.Permits, Act.call, hself], ?_⟩
      simp [Reference.perform, Act.call, Reference.getTopicDatasize, hself, Act.reading, hsize]
    · have hinstalled : m.lookup topicName ≠ none := ha
      refine ⟨?_, ?_⟩
      · simpa [Reference.Permits, Act.call, OrderedMap.lookup_modify_of_ne hname] using hinstalled
      · simp [Reference.perform, Act.call, Reference.getTopicDatasize,
          OrderedMap.lookup_modify_of_ne hname, Act.reading, hname]
  | consumed topicName =>
    obtain rfl : topicName = name := ha
    refine ⟨by simp [Reference.Permits, Act.call, hself], ?_⟩
    simp [Reference.perform, Act.call, Reference.consumed, hself, Act.reading]

/-- What holds of the topic in focus while `data` is published on it: the entry has the new data,
and the observers are those in the slots `os`. -/
structure Published (name : String) (e : Entry σ κ δ) (data : Option δ)
    (ys zs : List (Slot (Topic σ κ δ))) (topic : Addr) (os : List (Slot (Observer σ κ)))
    (b : MsgBroker σ κ δ) (t : Topic σ κ δ) : Prop where
  /-- The topic is in focus. -/
  focus : Focus b ys zs topic t
  /-- Its name. -/
  name_eq : t.name = name
  /-- Its size. -/
  size : t.datasize = e.datasize
  /-- Its data. -/
  data_eq : t.data = data
  /-- Its observers. -/
  slots : t.observerList.Rep os
  /-- They are those of the entry. -/
  observers : os.map Slot.value = e.observers

variable {data : Option δ} {os : List (Slot (Observer σ κ))}

/-- A callback that reads. -/
theorem Published.run (h : Published name e data ys zs topic os b t)
    (hm : m.lookup name = some e)
    (hback : ∀ b' t' f, Focus b' ys zs topic t' → t'.name = name → t'.Rep (f e) →
      b'.Represents (m.modify name f))
    {acts : List (Act σ κ)} (hacts : ∀ a ∈ acts, a.Reads m name) :
    ∃ b', MsgBroker.run (fun _ _ _ w => w) b () (acts.map Act.call) =
        .ok ((b', ()), acts.map (Act.reading m name data e.datasize)) ∧
      Published name e data ys zs topic os b'
        { t with count := t.count - acts.countP (Act.consumes name) } := by
  induction acts generalizing b t with
  | nil => exact ⟨b, rfl, h⟩
  | cons a acts ih =>
    obtain ⟨ha, hacts⟩ := List.forall_mem_cons.1 hacts
    have hrepresents := hback b t (fun e => { e with data := data, count := t.count }) h.focus
      h.name_eq ⟨h.size, h.data_eq, rfl, os, h.slots, h.observers⟩
    obtain ⟨hpermits, hreply⟩ := Reference.perform_reader hm ha
      (f := fun e => { e with data := data, count := t.count }) (show _ = data from rfl) rfl
    obtain ⟨b₁, hrun, -⟩ := hrepresents.perform (fun _ _ _ w => w) () a.call hpermits
    have hfocus := h.focus.reader (by rw [h.name_eq]; exact ha) hrun
    obtain ⟨b₂, hrest, h₂⟩ :=
      ih ⟨hfocus, h.name_eq, h.size, h.data_eq, h.slots, h.observers⟩ hacts
    refine ⟨b₂, ?_, ?_⟩
    · simp only [List.map_cons, MsgBroker.run, hrun, ok_bind, hrest, hreply, pure_eq_ok]
    · have hcount : t.count - (a.consumes t.name).toNat - acts.countP (Act.consumes name) =
          t.count - (a :: acts).countP (Act.consumes name) := by
        rw [List.countP_cons, h.name_eq]
        cases a.consumes name <;> simp [Nat.sub_sub, Nat.add_comm]
      simpa only [hcount] using h₂

omit [DecidableEq σ] in
theorem consumers_succ {acts : ℕ → List (Act σ κ)} {i n : ℕ} :
    consumers acts name i (n + 1) =
      ((acts i).any (Act.consumes name)).toNat + consumers acts name (i + 1) n := by
  rw [consumers, consumers, List.range'_succ, List.countP_cons, Nat.add_comm]
  cases (acts i).any (Act.consumes name) <;> rfl

omit [DecidableEq σ] in
/-- A reader acknowledges once or not at all. -/
theorem Readers.countP_eq {acts : List (Act σ κ)} (h : Readers m name acts) :
    acts.countP (Act.consumes name) = (acts.any (Act.consumes name)).toNat := by
  have honce := h.once
  cases hany : acts.any (Act.consumes name) with
  | false =>
    rw [List.any_eq_false] at hany
    exact List.countP_eq_zero.2 hany
  | true =>
    have hpos : 0 < acts.countP (Act.consumes name) :=
      List.countP_pos_iff.2 (List.any_eq_true.1 hany)
    simp only [Bool.toNat_true]
    omega

/-- **The loop of `publish` with readers as callbacks**: the observers from the cursor on are
notified, and every acknowledgement counts. -/
theorem Published.notifyLoop (hm : m.lookup name = some e)
    (hback : ∀ b' t' f, Focus b' ys zs topic t' → t'.name = name → t'.Rep (f e) →
      b'.Represents (m.modify name f))
    {acts : ℕ → List (Act σ κ)} (hacts : ∀ i, Readers m name (acts i))
    {ps : List (Slot (Observer σ κ))} {i : ℕ}
    (h : Published name e data ys zs topic (ps ++ os) b t)
    (hs : t.observerList.search = os.head?.map Slot.node) :
    ∃ b' t' notices, ∃ os' : List (Slot (Observer σ κ)),
      (∀ fuel, os.length < fuel →
        Reentrant.notifyLoop acts fuel i b topic (os.head?.map Slot.item) = .ok (b', notices)) ∧
      notices.map Notice.obs = os.map Slot.item ∧
      notices.map Notice.observer = os.map Slot.value ∧
      notices.map Notice.replies = (List.range' i os.length).map
        (fun k => (acts k).map (Act.reading m name data e.datasize)) ∧
      Published name e data ys zs topic os' b' t' ∧
      t'.count + consumers acts name i os.length = t.count + os.length := by
  induction os generalizing b t ps i with
  | nil =>
    refine ⟨b, t, [], _, fun fuel hfuel => ?_, rfl, rfl, rfl, h, rfl⟩
    obtain ⟨fuel, rfl⟩ := Nat.exists_eq_succ_of_ne_zero (Nat.ne_zero_of_lt hfuel)
    rfl
  | cons x os ih =>
    have hobs : t.observerList.items.read x.item = some x.value := h.slots.read x (by simp)
    obtain ⟨b₁, h₁, hround⟩ := h.focus.round hobs acts i
    have hcounted : Published name e data ys zs topic (ps ++ x :: os) b₁
        { t with count := t.count + 1 } :=
      ⟨h₁, h.name_eq, h.size, h.data_eq, h.slots, h.observers⟩
    obtain ⟨b₂, hrun, h₂⟩ := hcounted.run hm hback (hacts i).reads
    have hcallback : Reentrant.callback b₁ (acts i) =
        .ok (b₂, (acts i).map (Act.reading m name data e.datasize)) := by
      simp only [Reentrant.callback, hrun]
      rfl
    obtain ⟨b₃, h₃, hloop⟩ :=
      (hround b₂ _ _ hcallback h₂.focus).2 _ _ (h.slots.getNextItem hs)
    have hnext : Published name e data ys zs topic (ps ++ [x] ++ os) b₃ _ :=
      ⟨h₃, h.name_eq, h.size, h.data_eq, by simpa using h.slots.search _,
        by simpa using h.observers⟩
    obtain ⟨b', t', notices, os', hrest, haddrs, hobservers, hreplies, h', hcount⟩ :=
      ih (i := i + 1) hnext rfl
    refine ⟨b', t', ⟨x.item, x.value, (acts i).map (Act.reading m name data e.datasize)⟩ :: notices,
      os', fun fuel hfuel => ?_, ?_, ?_, ?_, h', ?_⟩
    · obtain ⟨fuel, rfl⟩ := Nat.exists_eq_succ_of_ne_zero (Nat.ne_zero_of_lt hfuel)
      rw [List.head?_cons, Option.map_some, hloop fuel, hrest fuel (Nat.lt_of_succ_lt_succ hfuel)]
      rfl
    · simp [haddrs]
    · simp [hobservers]
    · simp [hreplies, List.range'_succ]
    · -- the count was raised before the callback, so that nothing is cut off
      have honce : ((acts i).any (Act.consumes name)).toNat ≤ 1 := Bool.toNat_le _
      rw [(hacts i).countP_eq] at hcount
      rw [List.length_cons, consumers_succ]
      simp only at hcount
      omega

/-- **Publication with callbacks that read and acknowledge.**  On a topic without pending
notifications, a publication of the right size notifies every observer once, in the order in which
they attached; each callback reads the new data; and in the end the notifications are pending whose
callbacks have not acknowledged.  Otherwise nobody is notified and the map stays as it is. -/
theorem publish_readers (h : b.Represents m) (hm : m.lookup name = some e)
    {acts : ℕ → List (Act σ κ)} (hacts : ∀ i, Readers m name (acts i)) (data : Option δ)
    (datasize : ℕ) :
    (e.count = 0 → datasize = e.datasize →
      ∃ b' notices,
        (∀ fuel, e.observers.length < fuel →
          Reentrant.publish acts fuel b name data datasize = .ok (b', .noErrors, notices)) ∧
        (notices.map Notice.obs).Nodup ∧ notices.map Notice.observer = e.observers ∧
        notices.map Notice.replies = (List.range e.observers.length).map
          (fun i => (acts i).map (Act.reading m name data datasize)) ∧
        b'.Represents (m.modify name fun e =>
          { e with
            data := data
            count := e.observers.length - consumers acts name 0 e.observers.length })) ∧
    (e.count > 0 ∨ datasize ≠ e.datasize →
      ∀ fuel, ∃ b' exception,
        Reentrant.publish acts fuel b name data datasize = .ok (b', exception, []) ∧
        exception ≠ .noErrors ∧ b'.Represents m) := by
  obtain ⟨ys, zs, topic, t, hfocus, rfl, ⟨hsize, hdata, hcount, os, hos, hobservers⟩, hback⟩ :=
    h.focus hm
  constructor
  · rintro hzero rfl
    obtain ⟨b₁, h₁, hpublish⟩ := hfocus.publish hos (hcount.trans hzero) acts data
    have hpublished : Published t.name e data ys zs topic ([] ++ os) b₁ _ :=
      ⟨h₁, rfl, hsize, rfl, hos.search _, hobservers⟩
    obtain ⟨b', t', notices, os', hloop, haddrs, hvalues, hreplies, h', hlast⟩ :=
      hpublished.notifyLoop hm hback hacts (i := 0) rfl
    have hlength : os.length = e.observers.length := by rw [← hobservers, List.length_map]
    rw [hlength] at hreplies hlast
    refine ⟨b', notices, fun fuel hfuel => ?_, ?_, hvalues.trans hobservers, ?_, ?_⟩
    · rw [← hsize, hpublish fuel, hloop fuel (by rw [hlength]; exact hfuel)]
      rfl
    · rw [haddrs]
      exact hos.nodup_items
    · rw [hreplies, List.range_eq_range']
    · refine hback b' t' _ h'.focus h'.name_eq ⟨h'.size, h'.data_eq, ?_, os', h'.slots, h'.observers⟩
      have hstart : t.count = 0 := hcount.trans hzero
      simp only [hstart] at hlast
      show t'.count = e.observers.length - consumers acts t.name 0 e.observers.length
      omega
  · intro hrefused fuel
    rw [← hcount, ← hsize] at hrefused
    obtain ⟨b', exception, h', hexception, hrun⟩ :=
      hfocus.publish_refused hrefused acts fuel data
    refine ⟨b', exception, hrun, hexception, ?_⟩
    have hsame := hback b' t (fun e => e) h' rfl ⟨hsize, hdata, hcount, os, hos, hobservers⟩
    rwa [OrderedMap.modify_id] at hsame

end

/-- The topic `/keyb` with two observers. -/
def keybTopic : Reference ℕ Unit ℕ :=
  (Reference.run (fun _ _ _ w => w) .empty () [.installTopic "/keyb" 8, .attach "/keyb" 1 (),
    .attach "/keyb" 2 ()]).1.1

theorem exists_keybTopic : ∃ b : MsgBroker ℕ Unit ℕ, b.Represents keybTopic := by
  obtain ⟨b₀, -, h₀⟩ := represents_init (σ := ℕ) (κ := Unit) (δ := ℕ)
  obtain ⟨b, -, h⟩ := h₀.run (fun _ _ _ w => w) () [.installTopic "/keyb" 8,
    .attach "/keyb" 1 (), .attach "/keyb" 2 ()] ⟨trivial, trivial, trivial, trivial⟩
  exact ⟨b, h⟩

/-- The first callback reads the topic and acknowledges it, the second one does nothing. -/
def readAndConsume : ℕ → List (Act ℕ Unit)
  | 0 => [.getTopicData "/keyb", .getTopicDatasize "/keyb", .consumed "/keyb"]
  | _ => []

/-- Both observers are notified, and the notification of the second one is pending. -/
theorem publish_readers_keyb : ∃ b b' : MsgBroker ℕ Unit ℕ, ∃ notices, b.Represents keybTopic ∧
    Reentrant.publish readAndConsume 3 b "/keyb" (some 7) 8 = .ok (b', .noErrors, notices) ∧
      notices.map Notice.observer = [⟨1, ()⟩, ⟨2, ()⟩] ∧
      notices.map Notice.replies =
        [[(.noErrors, .data (some 7)), (.noErrors, .size 8), (.noErrors, .done)], []] ∧
      b'.Represents (keybTopic.modify "/keyb" fun e => { e with data := some 7, count := 1 }) := by
  obtain ⟨b, hb⟩ := exists_keybTopic
  have hm : keybTopic.lookup "/keyb" = some ⟨8, none, 0, [⟨1, ()⟩, ⟨2, ()⟩]⟩ := by decide
  have hacts : ∀ i, Readers keybTopic "/keyb" (readAndConsume i) := by
    rintro (_ | i)
    · refine ⟨?_, by decide⟩
      simp only [readAndConsume, List.forall_mem_cons]
      exact ⟨trivial, by rw [Act.Reads, hm]; simp, rfl, by simp⟩
    · exact ⟨by simp [readAndConsume], by simp [readAndConsume]⟩
  obtain ⟨b', notices, hrun, -, hobservers, hreplies, h'⟩ :=
    (publish_readers hb hm hacts (some 7) 8).1 rfl rfl
  exact ⟨b, b', notices, hb, hrun 3 (by decide), hobservers, hreplies, h'⟩

end MsgBroker

end UavTelemetry
