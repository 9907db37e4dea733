import UavTelemetry.Broker.Errors
import UavTelemetry.LTS.Logged

/-!
# The broker with its mutex and its heap

The operations of `List.h` and `MsgBroker.h` once more, now with the events that they leave behind:
`MUTEX_LOCK` and `MUTEX_UNLOCK`, every use of a list object, every allocation and every release.
What an operation returns is what the operation without events returns; `deinit` and the
`removeTopic` that takes a pointer are here only.

The links and items of a list are read through its stores, where the use of a freed block is a
fault.  The list objects lie inside the topics and the broker, so their use is an event.

## Main definitions

* `ItemList.Traced`, `MsgBroker.Traced` : the operations.
* `MsgBroker.Block` : the blocks of the broker.
* `MsgBroker.Op` : a call of any operation.

## Main results

* `Traced.result_performWith` : the events change nothing.
-/

namespace UavTelemetry

open Logged

namespace ItemList

/-- The blocks of a list: its list object and its links. -/
structure Blocks (β : Type) where
  /-- The object of type `List<T>`. -/
  list : β
  /-- The blocks of type `ListItem`. -/
  link : Addr → β

namespace Traced

variable {α β : Type} (n : Blocks β)

/-- `List::List`, behind `new`. -/
def new : Logged (Event β) Fault (ItemList α) := do
  emit (.alloc n.list)
  emit (.access n.list)
  return .new

/-- `List::getFirstItem`. -/
def getFirstItem (l : ItemList α) : Logged (Event β) Fault (ItemList α × Option Addr) := do
  emit (.access n.list)
  lift l.getFirstItem

/-- `List::getNextItem`. -/
def getNextItem (l : ItemList α) : Logged (Event β) Fault (ItemList α × Option Addr) := do
  emit (.access n.list)
  lift l.getNextItem

/-- `List::addItem`. -/
def addItem (l : ItemList α) (item : Addr) (node : Bool) :
    Logged (Event β) Fault (ItemList α) := do
  emit (.access n.list)
  if node then emit (.alloc (n.link l.nodes.fresh))
  lift (l.addItem item node)

/-- `List::removeItem(ListItem *)`. -/
def removeNode (l : ItemList α) (a : Addr) : Logged (Event β) Fault (ItemList α) := do
  emit (.access n.list)
  let l ← lift (l.removeNode a)
  emit (.free (n.link a))
  return l

/-- The loop of `List::removeItem(T *)`. -/
def removeLoop (l : ItemList α) (item : Addr) :
    ℕ → Option Addr → Logged (Event β) Fault (ItemList α)
  | 0, _ => lift (.error .diverges)
  | _ + 1, none => lift (.error .nullPointer)
  | fuel + 1, some a => do
    let node ← lift (l.nodes.deref (some a))
    if node.item = item then removeNode n l a
    else
      match node.next with
      | none => return l
      | some next => removeLoop l item fuel (some next)

/-- `List::removeItem(T *)`. -/
def removeItem (l : ItemList α) (item : Addr) : Logged (Event β) Fault (ItemList α) := do
  emit (.access n.list)
  removeLoop n l item l.fuel l.first

/-- The loop of `List::~List`, which tests the first link and removes the last one. -/
def destroyLoop : ℕ → ItemList α → Logged (Event β) Fault (ItemList α)
  | 0, _ => lift (.error .diverges)
  | fuel + 1, l => do
    emit (.access n.list)
    match l.first, l.last with
    | none, _ => return l
    | some _, none => lift (.error .nullPointer)
    | some _, some a =>
      let l ← removeNode n l a
      destroyLoop fuel l

/-- `delete` of a list: `List::~List`, and the list object is freed. -/
def delete (l : ItemList α) : Logged (Event β) Fault Unit := do
  let _ ← destroyLoop n l.fuel l
  emit (.free n.list)

/-- The loop of `find`. -/
def findLoop (test : α → Bool) : ℕ → ItemList α → Option Addr →
    Logged (Event β) Fault (ItemList α × Option Addr)
  | 0, _, _ => lift (.error .diverges)
  | _ + 1, l, none => return (l, none)
  | fuel + 1, l, some item => do
    let v ← lift (l.items.deref (some item))
    if test v then return (l, some item)
    else
      let (l, next) ← getNextItem n l
      findLoop test fuel l next

/-- The first item that passes a test. -/
def find (test : α → Bool) (l : ItemList α) :
    Logged (Event β) Fault (ItemList α × Option Addr) := do
  let (l, item) ← getFirstItem n l
  findLoop n test l.fuel l item

/-! ### The events change nothing -/

@[simp] theorem result_new : (new n : Logged (Event β) Fault (ItemList α)).result = .ok .new := rfl

@[simp] theorem result_getFirstItem (l : ItemList α) :
    (getFirstItem n l).result = l.getFirstItem := rfl

@[simp] theorem result_getNextItem (l : ItemList α) :
    (getNextItem n l).result = l.getNextItem := rfl

@[simp] theorem result_addItem (l : ItemList α) (item : Addr) (node : Bool) :
    (addItem n l item node).result = l.addItem item node := by
  cases node <;> rfl

@[simp] theorem result_removeNode (l : ItemList α) (a : Addr) :
    (removeNode n l a).result = l.removeNode a := by
  simp only [removeNode, result_bind, result_emit, result_lift, ok_bind, result_pure]
  cases l.removeNode a <;> rfl

@[simp] theorem result_removeItem (l : ItemList α) (item : Addr) :
    (removeItem n l item).result = l.removeItem item := by
  have hloop : ∀ fuel a, (removeLoop n l item fuel a).result = l.removeLoop item fuel a := by
    intro fuel
    induction fuel with
    | zero => intro a; rfl
    | succ fuel ih =>
      intro a
      cases a with
      | none => rfl
      | some a =>
        simp only [removeLoop, ItemList.removeLoop, result_bind, result_lift]
        refine bind_congr fun node => ?_
        split_ifs
        · exact result_removeNode n l a
        · cases node.next with
          | none => rfl
          | some next => exact ih (some next)
  exact hloop l.fuel l.first

@[simp] theorem result_find (test : α → Bool) (l : ItemList α) :
    (find n test l).result = l.find test := by
  have hloop : ∀ fuel l item, (findLoop n test fuel l item).result =
      ItemList.findLoop test fuel l item := by
    intro fuel
    induction fuel with
    | zero => intro l item; rfl
    | succ fuel ih =>
      intro l item
      cases item with
      | none => rfl
      | some item =>
        simp only [findLoop, ItemList.findLoop, result_bind, result_lift]
        refine bind_congr fun v => ?_
        split_ifs
        · rfl
        · rw [result_bind, result_getNextItem]
          exact bind_congr fun p => ih p.1 p.2
  rw [find, ItemList.find, result_bind, result_getFirstItem]
  exact bind_congr fun p => hloop p.1.fuel p.1 p.2

/-! ### Searching -/

/-- The computation does no more than use the list object. -/
abbrev Uses {γ : Type} (x : Logged (Event β) Fault γ) : Prop := x.Only (· = .access n.list)

theorem uses_getFirstItem (l : ItemList α) : Uses n (getFirstItem n l) :=
  .bind (.emit rfl) fun _ => .lift _

theorem uses_getNextItem (l : ItemList α) : Uses n (getNextItem n l) :=
  .bind (.emit rfl) fun _ => .lift _

theorem uses_find (test : α → Bool) (l : ItemList α) : Uses n (find n test l) := by
  have hloop : ∀ fuel l item, Uses n (findLoop n test fuel l item) := by
    intro fuel
    induction fuel with
    | zero => exact fun _ _ => .lift _
    | succ fuel ih =>
      intro l item
      cases item with
      | none => exact .pure _
      | some item =>
        refine (Only.lift _).bind fun v => ?_
        split_ifs
        · exact .pure _
        · exact (uses_getNextItem n l).bind fun p => ih p.1 p.2
  exact (uses_getFirstItem n l).bind fun p => hloop p.1.fuel p.1 p.2

end Traced

end ItemList

namespace MsgBroker

/-- The blocks of the broker; the addresses of links, observers and topics are counted in each
list. -/
inductive Block
  /-- The list object of the topics. -/
  | topicList
  /-- A link of the topic list. -/
  | topicLink (n : Addr)
  /-- A topic. -/
  | topic (a : Addr)
  /-- The list object of the observers of a topic. -/
  | observerList (topic : Addr)
  /-- A link of the observer list of a topic. -/
  | link (topic n : Addr)
  /-- An observer of a topic. -/
  | observer (topic a : Addr)
  deriving DecidableEq, Repr

/-- The blocks of the topic list. -/
def topics : ItemList.Blocks Block := ⟨.topicList, .topicLink⟩

/-- The blocks of the observer list of a topic. -/
def observers (topic : Addr) : ItemList.Blocks Block := ⟨.observerList topic, .link topic⟩

@[simp] theorem topics_list : topics.list = .topicList := rfl

@[simp] theorem topics_link (n : Addr) : topics.link n = .topicLink n := rfl

@[simp] theorem observers_list (topic : Addr) : (observers topic).list = .observerList topic := rfl

@[simp] theorem observers_link (topic n : Addr) : (observers topic).link n = .link topic n := rfl

namespace Traced

variable {σ κ δ ω : Type}

/-- `findTopic`. -/
def findTopic (l : TopicList σ κ δ) (topicName : String) :
    Logged (Event Block) Fault (TopicList σ κ δ × Option Addr) :=
  ItemList.Traced.find topics (fun topic => topicName = topic.name) l

/-- `findObserver` in the list of a topic. -/
def findObserver [DecidableEq σ] (topic : Addr) (list : ItemList (Observer σ κ)) (subscriber : σ) :
    Logged (Event Block) Fault (ItemList (Observer σ κ) × Option Addr) :=
  ItemList.Traced.find (observers topic) (fun obs => subscriber = obs.observer) list

/-- `init`. -/
def init (b : MsgBroker σ κ δ) (list : Bool) : Logged (Event Block) Fault (MsgBroker σ κ δ) :=
  match b.topicList with
  | none => do
    emit .acquire
    if list then
      let l ← ItemList.Traced.new topics
      emit .release
      return ⟨some l⟩
    else lift (.error .noMemory)
  | some _ => return b

/-- The inner loop of `deinit`, which frees the observers of a topic but not their links. -/
def freeLoop (topic : Addr) : ℕ → ItemList (Observer σ κ) → Option Addr →
    Logged (Event Block) Fault (ItemList (Observer σ κ))
  | 0, _, _ => lift (.error .diverges)
  | _ + 1, list, none => return list
  | fuel + 1, list, some obs => do
    emit (.free (.observer topic obs))
    let (list, next) ← ItemList.Traced.getNextItem (observers topic)
      { list with items := list.items.free obs }
    freeLoop topic fuel list next

/-- What `deinit` does with a topic: its observers, the list of them and the topic are freed. -/
def freeTopic (l : TopicList σ κ δ) (topic : Addr) :
    Logged (Event Block) Fault (TopicList σ κ δ) := do
  let t ← lift (l.items.deref (some topic))
  let (list, obs) ← ItemList.Traced.getFirstItem (observers topic) t.observerList
  let list ← freeLoop topic list.fuel list obs
  ItemList.Traced.delete (observers topic) list
  emit (.free (.topic topic))
  return { l with items := l.items.free topic }

/-- The loop of `deinit` over the topics. -/
def deinitLoop : ℕ → TopicList σ κ δ → Option Addr →
    Logged (Event Block) Fault (TopicList σ κ δ)
  | 0, _, _ => lift (.error .diverges)
  | _ + 1, l, none => return l
  | fuel + 1, l, some topic => do
    let l ← freeTopic l topic
    let (l, next) ← ItemList.Traced.getNextItem topics l
    deinitLoop fuel l next

/-- `deinit`. -/
def deinit (b : MsgBroker σ κ δ) : Logged (Event Block) Fault (MsgBroker σ κ δ) :=
  match b.topicList with
  | none => return b
  | some l => do
    emit .acquire
    let (l, topic) ← ItemList.Traced.getFirstItem topics l
    let l ← deinitLoop l.fuel l topic
    ItemList.Traced.delete topics l
    emit .release
    return ⟨none⟩

/-- `installTopic`. -/
def installTopic (b : MsgBroker σ κ δ) (m : Malloc) (name : String) (datasize : ℕ) :
    Logged (Event Block) Fault (MsgBroker σ κ δ × Exception × Option Addr) :=
  match b.topicList with
  | none => return (b, .deinit, none)
  | some l => do
    emit .acquire
    let (l, topic) ← findTopic l name
    match topic with
    | some topic =>
      emit .release
      return (⟨some l⟩, .topicExists, some topic)
    | none =>
      if m.block then
        let topic := l.items.fresh
        emit (.alloc (.topic topic))
        if m.list then
          let list ← ItemList.Traced.new (observers topic)
          let l := { l with items := l.items.alloc ⟨list, name, none, datasize, 0⟩ }
          let l ← ItemList.Traced.addItem topics l topic m.node
          emit .release
          return (⟨some l⟩, .noErrors, some topic)
        else lift (.error .noMemory)
      else
        emit .release
        return (⟨some l⟩, .outOfMemory, none)

/-- `removeTopic`, by name. -/
def removeTopic (b : MsgBroker σ κ δ) (topicName : String) :
    Logged (Event Block) Fault (MsgBroker σ κ δ × Exception) :=
  match b.topicList with
  | none => return (b, .deinit)
  | some l => do
    emit .acquire
    let (l, topic) ← findTopic l topicName
    match topic with
    | none =>
      emit .release
      return (⟨some l⟩, .topicNotFound)
    | some topic =>
      let l ← ItemList.Traced.removeItem topics l topic
      emit (.free (.topic topic))
      emit .release
      return (⟨some { l with items := l.items.free topic }⟩, .noErrors)

/-- `removeTopic`, by pointer: the other `removeTopic` is called with the mutex held. -/
def removeTopicAt (b : MsgBroker σ κ δ) (t : Option Addr) :
    Logged (Event Block) Fault (MsgBroker σ κ δ × Exception) :=
  match b.topicList with
  | none => return (b, .deinit)
  | some l => do
    emit .acquire
    let topic ← lift (l.items.deref t)
    let (b, e) ← removeTopic b topic.name
    emit .release
    return (b, e)

/-- `attach`. -/
def attach (b : MsgBroker σ κ δ) (m : Malloc) (topicName : String) (subscriber : σ) (notify : κ) :
    Logged (Event Block) Fault (MsgBroker σ κ δ × Exception × Option Addr) :=
  match b.topicList with
  | none => return (b, .deinit, none)
  | some l => do
    emit .acquire
    let (l, topic) ← findTopic l topicName
    match topic with
    | none =>
      emit .release
      return (⟨some l⟩, .topicNotFound, none)
    | some topic =>
      if m.block then
        let t ← lift (l.items.deref (some topic))
        let obs := t.observerList.items.fresh
        emit (.alloc (.observer topic obs))
        let list := { t.observerList with
          items := t.observerList.items.alloc ⟨subscriber, notify⟩ }
        let list ← ItemList.Traced.addItem (observers topic) list obs m.node
        let items ← lift (l.items.update (some topic) fun t => { t with observerList := list })
        emit .release
        return (⟨some { l with items := items }⟩, .noErrors, some obs)
      else lift (.error .nullPointer)

/-- `detach`. -/
def detach [DecidableEq σ] (b : MsgBroker σ κ δ) (topicName : String) (subscriber : σ) :
    Logged (Event Block) Fault (MsgBroker σ κ δ × Exception) :=
  match b.topicList with
  | none => return (b, .deinit)
  | some l => do
    emit .acquire
    let (l, topic) ← findTopic l topicName
    match topic with
    | none =>
      emit .release
      return (⟨some l⟩, .topicNotFound)
    | some topic =>
      let t ← lift (l.items.deref (some topic))
      let (list, obs) ← findObserver topic t.observerList subscriber
      match obs with
      | none =>
        let items ← lift (l.items.update (some topic) fun t => { t with observerList := list })
        emit .release
        return (⟨some { l with items := items }⟩, .subscriberNotFound)
      | some obs =>
        let list ← ItemList.Traced.removeItem (observers topic) list obs
        emit (.free (.observer topic obs))
        let list := { list with items := list.items.free obs }
        let items ← lift (l.items.update (some topic) fun t => { t with observerList := list })
        emit .release
        return (⟨some { l with items := items }⟩, .noErrors)

section

variable (call : κ → σ → String → ω → ω)

/-- The loop of `publish` over the observers of a topic. -/
def notifyLoop (a : Addr) : ℕ → Topic σ κ δ → Option Addr → ω →
    Logged (Event Block) Fault (Topic σ κ δ × ω)
  | 0, _, _, _ => lift (.error .diverges)
  | _ + 1, topic, none, w => return (topic, w)
  | fuel + 1, topic, some obs, w => do
    let obs ← lift (topic.observerList.items.deref (some obs))
    let topic := { topic with count := topic.count + 1 }
    let w := call obs.notify obs.observer topic.name w
    let (list, next) ← ItemList.Traced.getNextItem (observers a) topic.observerList
    notifyLoop a fuel { topic with observerList := list } next w

/-- The part of `publish` behind its checks. -/
def notifyAll (a : Addr) (topic : Topic σ κ δ) (data : Option δ) (datasize : ℕ) (w : ω) :
    Logged (Event Block) Fault (Topic σ κ δ × ω) := do
  let topic := { topic with data := data, datasize := datasize }
  let (list, obs) ← ItemList.Traced.getFirstItem (observers a) topic.observerList
  notifyLoop call a list.fuel { topic with observerList := list } obs w

/-- `publish`. -/
def publish (b : MsgBroker σ κ δ) (topicName : String) (data : Option δ) (datasize : ℕ) (w : ω) :
    Logged (Event Block) Fault (MsgBroker σ κ δ × Exception × ω) :=
  match b.topicList with
  | none => return (b, .deinit, w)
  | some l => do
    emit .acquire
    let (l, topic) ← findTopic l topicName
    match topic with
    | none =>
      emit .release
      return (⟨some l⟩, .topicNotFound, w)
    | some topic =>
      let t ← lift (l.items.deref (some topic))
      if t.count > 0 then
        emit .release
        return (⟨some l⟩, .topicPending, w)
      else if datasize ≠ t.datasize then
        emit .release
        return (⟨some l⟩, .topicSize, w)
      else
        let (t, w) ← notifyAll call topic t data datasize w
        let items ← lift (l.items.update (some topic) fun _ => t)
        emit .release
        return (⟨some { l with items := items }⟩, .noErrors, w)

end

/-- `consumed`. -/
def consumed (b : MsgBroker σ κ δ) (topicName : String) :
    Logged (Event Block) Fault (MsgBroker σ κ δ × Exception) :=
  match b.topicList with
  | none => return (b, .deinit)
  | some l => do
    emit .acquire
    let (l, topic) ← findTopic l topicName
    let (b, e) ← lift (consumedAt l topic)
    emit .release
    return (b, e)

/-- `getTopicData`.  The data are read when the mutex has been unlocked. -/
def getTopicData (b : MsgBroker σ κ δ) (topicName : String) :
    Logged (Event Block) Fault (MsgBroker σ κ δ × Exception × Option δ) := do
  emit .acquire
  match b.topicList with
  | none => lift (.error .nullPointer)
  | some l =>
    let (l, topic) ← findTopic l topicName
    match topic with
    | none =>
      emit .release
      return (⟨some l⟩, .topicNotFound, none)
    | some topic =>
      emit .release
      let t ← lift (l.items.deref (some topic))
      return (⟨some l⟩, .noErrors, t.data)

/-- `getTopicDatasize`.  The size is read when the mutex has been unlocked. -/
def getTopicDatasize (b : MsgBroker σ κ δ) (topicName : String) :
    Logged (Event Block) Fault (MsgBroker σ κ δ × Exception × ℕ) := do
  emit .acquire
  match b.topicList with
  | none => lift (.error .nullPointer)
  | some l =>
    let (l, topic) ← findTopic l topicName
    let exception := if topic.isNone then Exception.topicNotFound else .noErrors
    emit .release
    let t ← lift (l.items.deref topic)
    return (⟨some l⟩, exception, t.datasize)

/-! ### Calls -/

section

variable [DecidableEq σ] (call : κ → σ → String → ω → ω)

/-- A call of the broker for which the allocations `m` succeed. -/
def performWith (m : Malloc) (b : MsgBroker σ κ δ) (w : ω) :
    Call σ κ δ → Logged (Event Block) Fault ((MsgBroker σ κ δ × ω) × Exception × Reply δ)
  | .init => do
    let b ← init b m.list
    return ((b, w), .noErrors, .done)
  | .installTopic name datasize => do
    let (b, e, topic) ← installTopic b m name datasize
    return ((b, w), e, .pointer topic.isSome)
  | .removeTopic name => do
    let (b, e) ← removeTopic b name
    return ((b, w), e, .done)
  | .attach name subscriber notify => do
    let (b, e, obs) ← attach b m name subscriber notify
    return ((b, w), e, .pointer obs.isSome)
  | .detach name subscriber => do
    let (b, e) ← detach b name subscriber
    return ((b, w), e, .done)
  | .publish name data datasize => do
    let (b, e, w) ← publish call b name data datasize w
    return ((b, w), e, .done)
  | .consumed name => do
    let (b, e) ← consumed b name
    return ((b, w), e, .done)
  | .getTopicData name => do
    let (b, e, data) ← getTopicData b name
    return ((b, w), e, .data data)
  | .getTopicDatasize name => do
    let (b, e, datasize) ← getTopicDatasize b name
    return ((b, w), e, .size datasize)

end

/-! ### The events change nothing -/

variable {b : MsgBroker σ κ δ}

theorem result_findTopic (l : TopicList σ κ δ) (topicName : String) :
    (findTopic l topicName).result = MsgBroker.findTopic l topicName :=
  ItemList.Traced.result_find _ _ l

theorem result_init (list : Bool) : (init b list).result = b.init list := by
  simp only [init, MsgBroker.init]
  cases b.topicList with
  | none => cases list <;> rfl
  | some l => rfl

theorem result_installTopic (m : Malloc) (name : String) (datasize : ℕ) :
    (installTopic b m name datasize).result = b.installTopic m name datasize := by
  simp only [installTopic, MsgBroker.installTopic]
  cases b.topicList with
  | none => rfl
  | some l =>
    simp only [result_bind, result_emit, ok_bind, result_findTopic]
    refine bind_congr fun p => ?_
    obtain ⟨l, topic⟩ := p
    cases topic with
    | some topic => rfl
    | none =>
      obtain ⟨block, list, node⟩ := m
      cases block
      · rfl
      · cases list
        · rfl
        · simp only [if_true, result_bind, result_emit, ok_bind, ItemList.Traced.result_new,
            ItemList.Traced.result_addItem, result_pure]
          rfl

theorem result_removeTopic (topicName : String) :
    (removeTopic b topicName).result = b.removeTopic topicName := by
  simp only [removeTopic, MsgBroker.removeTopic]
  cases b.topicList with
  | none => rfl
  | some l =>
    simp only [result_bind, result_emit, ok_bind, result_findTopic]
    refine bind_congr fun p => ?_
    obtain ⟨l, topic⟩ := p
    cases topic with
    | none => rfl
    | some topic =>
      simp only [result_bind, ItemList.Traced.result_removeItem]
      rfl

theorem result_attach (m : Malloc) (topicName : String) (subscriber : σ) (notify : κ) :
    (attach b m topicName subscriber notify).result =
      b.attach m topicName subscriber notify := by
  simp only [attach, MsgBroker.attach]
  cases b.topicList with
  | none => rfl
  | some l =>
    simp only [result_bind, result_emit, ok_bind, result_findTopic]
    refine bind_congr fun p => ?_
    obtain ⟨l, topic⟩ := p
    cases topic with
    | none => rfl
    | some topic =>
      simp only
      split_ifs
      · simp only [result_bind, result_emit, result_lift, ok_bind,
          ItemList.Traced.result_addItem]
        rfl
      · rfl

theorem result_detach [DecidableEq σ] (topicName : String) (subscriber : σ) :
    (detach b topicName subscriber).result = b.detach topicName subscriber := by
  simp only [detach, MsgBroker.detach]
  cases b.topicList with
  | none => rfl
  | some l =>
    simp only [result_bind, result_emit, ok_bind, result_findTopic]
    refine bind_congr fun p => ?_
    obtain ⟨l, topic⟩ := p
    cases topic with
    | none => rfl
    | some topic =>
      simp only [result_bind, result_lift, findObserver, ItemList.Traced.result_find]
      refine bind_congr fun t => bind_congr fun q => ?_
      obtain ⟨list, obs⟩ := q
      cases obs with
      | none =>
        simp only [result_bind, result_lift]
        rfl
      | some obs =>
        simp only [result_bind, ItemList.Traced.result_removeItem, result_lift]
        rfl

theorem result_notifyAll (call : κ → σ → String → ω → ω) (a : Addr) (t : Topic σ κ δ)
    (data : Option δ) (datasize : ℕ) (w : ω) :
    (notifyAll call a t data datasize w).result =
      MsgBroker.notifyAll call t data datasize w := by
  have hloop : ∀ fuel (t : Topic σ κ δ) obs (w : ω),
      (notifyLoop call a fuel t obs w).result = MsgBroker.notifyLoop call fuel t obs w := by
    intro fuel
    induction fuel with
    | zero => intro t obs w; rfl
    | succ fuel ih =>
      intro t obs w
      cases obs with
      | none => rfl
      | some obs =>
        simp only [notifyLoop, MsgBroker.notifyLoop, result_bind, result_lift,
          ItemList.Traced.result_getNextItem]
        exact bind_congr fun obs => bind_congr fun p => ih _ _ _
  simp only [notifyAll, MsgBroker.notifyAll, result_bind, ItemList.Traced.result_getFirstItem]
  exact bind_congr fun p => hloop _ _ _ _

theorem result_publish (call : κ → σ → String → ω → ω) (topicName : String) (data : Option δ)
    (datasize : ℕ) (w : ω) :
    (publish call b topicName data datasize w).result =
      b.publish call topicName data datasize w := by
  simp only [publish, MsgBroker.publish]
  cases b.topicList with
  | none => rfl
  | some l =>
    simp only [result_bind, result_emit, ok_bind, result_findTopic]
    refine bind_congr fun p => ?_
    obtain ⟨l, topic⟩ := p
    cases topic with
    | none => rfl
    | some topic =>
      simp only [result_bind, result_lift]
      refine bind_congr fun t => ?_
      split_ifs
      · rfl
      · rfl
      · simp only [result_bind, result_notifyAll, result_lift]
        rfl

theorem result_consumed (topicName : String) :
    (consumed b topicName).result = b.consumed topicName := by
  simp only [consumed, MsgBroker.consumed]
  cases b.topicList with
  | none => rfl
  | some l =>
    simp only [result_bind, result_emit, ok_bind, result_findTopic, result_lift, result_pure]
    refine bind_congr fun p => ?_
    cases consumedAt p.1 p.2 <;> rfl

theorem result_getTopicData (topicName : String) :
    (getTopicData b topicName).result = b.getTopicData topicName := by
  simp only [getTopicData, MsgBroker.getTopicData, result_bind, result_emit, ok_bind]
  cases b.topicList with
  | none => rfl
  | some l =>
    simp only [result_bind, result_findTopic]
    refine bind_congr fun p => ?_
    obtain ⟨l, topic⟩ := p
    cases topic with
    | none => rfl
    | some topic =>
      simp only [result_bind, result_emit, ok_bind, result_lift]
      rfl

theorem result_getTopicDatasize (topicName : String) :
    (getTopicDatasize b topicName).result = b.getTopicDatasize topicName := by
  simp only [getTopicDatasize, MsgBroker.getTopicDatasize, result_bind, result_emit, ok_bind]
  cases b.topicList with
  | none => rfl
  | some l =>
    simp only [result_bind, result_findTopic, result_emit, ok_bind, result_lift]
    rfl

/-- **The events change nothing**: a call returns what it returns without them. -/
theorem result_performWith [DecidableEq σ] (call : κ → σ → String → ω → ω) (m : Malloc) (w : ω)
    (c : Call σ κ δ) : (performWith call m b w c).result = MsgBroker.performWith call m b w c := by
  cases c <;>
    simp only [performWith, MsgBroker.performWith, perform, result_bind, result_init,
      result_installTopic, result_removeTopic, result_attach, result_detach, result_publish,
      result_consumed, result_getTopicData, result_getTopicDatasize] <;>
    rfl

theorem uses_notifyAll (call : κ → σ → String → ω → ω) (a : Addr) (t : Topic σ κ δ)
    (data : Option δ) (datasize : ℕ) (w : ω) :
    ItemList.Traced.Uses (observers a) (notifyAll call a t data datasize w) := by
  have hloop : ∀ fuel t obs (w : ω),
      ItemList.Traced.Uses (observers a) (notifyLoop (δ := δ) call a fuel t obs w) := by
    intro fuel
    induction fuel with
    | zero => exact fun _ _ _ => .lift _
    | succ fuel ih =>
      intro t obs w
      cases obs with
      | none => exact .pure _
      | some obs =>
        exact (Only.lift _).bind fun _ => (ItemList.Traced.uses_getNextItem _ _).bind fun _ =>
          ih _ _ _
  exact (ItemList.Traced.uses_getFirstItem _ _).bind fun p => hloop _ _ _ _

end Traced

end MsgBroker

end UavTelemetry
