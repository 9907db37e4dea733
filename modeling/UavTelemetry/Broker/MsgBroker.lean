import UavTelemetry.Broker.ItemList

/-!
# The message broker

`MsgBroker` holds a list of topics, each with the list of its observers.  A publisher hands over a
pointer to its own data; every observer is notified through its callback, and the topic stays
pending until each of them has called `consumed`.

The operations are those of `MsgBroker.h`.  They take the heap blocks of the broker as they find
them: an operation that dereferences a null or dangling pointer ends in a `Fault`.

## Main definitions

* `MsgBroker.Observer`, `MsgBroker.Topic`, `MsgBroker` : the data.
* `MsgBroker.installTopic`, `removeTopic`, `attach`, `detach`, `publish`, `consumed`,
  `getTopicData`, `getTopicDatasize` : the operations.
* `Malloc` : which allocations succeed.
-/

namespace UavTelemetry

/-- Whether there is memory for the allocations of an operation. -/
structure Malloc where
  /-- For a topic or an observer (`malloc`). -/
  block : Bool
  /-- For a list object (`new`). -/
  list : Bool
  /-- For a link of a list (`malloc`). -/
  node : Bool
  deriving DecidableEq, Repr

/-- Memory does not run out. -/
def Malloc.ok : Malloc := ⟨true, true, true⟩

namespace MsgBroker

/-- `MsgBroker::Exception`. -/
inductive Exception
  | noErrors
  | nullPointer
  | deinit
  | outOfMemory
  | topicExists
  | topicNotFound
  | subscriberNotFound
  | topicPending
  | topicSize
  deriving DecidableEq, Repr

/-- `MsgBroker::Observer`, with subscribers `σ` and callbacks `κ`. -/
structure Observer (σ κ : Type) where
  /-- The subscriber, passed to the callback. -/
  observer : σ
  /-- The notification callback. -/
  notify : κ
  deriving DecidableEq, Repr

/-- `MsgBroker::Topic`, with pointers `δ` to the published data. -/
structure Topic (σ κ δ : Type) where
  /-- `observer_list`; the topic owns the list object. -/
  observerList : ItemList (Observer σ κ)
  /-- Topic name. -/
  name : String
  /-- Pointer to the latest data update. -/
  data : Option δ
  /-- Size of the data. -/
  datasize : ℕ
  /-- The notifications that have not been consumed; at most one for each observer. -/
  count : ℕ
  deriving DecidableEq, Repr

/-- `List<MsgBroker::Topic>`. -/
abbrev TopicList (σ κ δ : Type) := ItemList (Topic σ κ δ)

end MsgBroker

open MsgBroker

/-- The class `MsgBroker`. -/
structure MsgBroker (σ κ δ : Type) where
  /-- `topic_list`, null until the broker is initialised. -/
  topicList : Option (TopicList σ κ δ)
  deriving DecidableEq, Repr

namespace MsgBroker

variable {σ κ δ ω : Type}

/-- `findTopic`. -/
def findTopic (l : TopicList σ κ δ) (topicName : String) :
    Except Fault (TopicList σ κ δ × Option Addr) :=
  l.find fun topic => topicName = topic.name

/-- `findObserver`. -/
def findObserver [DecidableEq σ] (list : ItemList (Observer σ κ)) (subscriber : σ) :
    Except Fault (ItemList (Observer σ κ) × Option Addr) :=
  list.find fun obs => subscriber = obs.observer

/-- The broker before `init`. -/
def start : MsgBroker σ κ δ := ⟨none⟩

/-- `init`. -/
def init (b : MsgBroker σ κ δ) (list : Bool) : Except Fault (MsgBroker σ κ δ) :=
  match b.topicList with
  | none => if list then .ok ⟨some .new⟩ else .error .noMemory
  | some _ => .ok b

/-- `installTopic`. -/
def installTopic (b : MsgBroker σ κ δ) (m : Malloc) (name : String) (datasize : ℕ) :
    Except Fault (MsgBroker σ κ δ × Exception × Option Addr) :=
  match b.topicList with
  | none => .ok (b, .deinit, none)
  | some l => do
    let (l, topic) ← findTopic l name
    match topic with
    | some topic => return (⟨some l⟩, .topicExists, some topic)
    | none =>
      if m.block then
        if m.list then
          let topic := l.items.fresh
          let l := { l with items := l.items.alloc ⟨.new, name, none, datasize, 0⟩ }
          let l ← l.addItem topic m.node
          return (⟨some l⟩, .noErrors, some topic)
        else .error .noMemory
      else return (⟨some l⟩, .outOfMemory, none)

/-- `removeTopic`, by name.  The observers of the topic are not freed. -/
def removeTopic (b : MsgBroker σ κ δ) (topicName : String) :
    Except Fault (MsgBroker σ κ δ × Exception) :=
  match b.topicList with
  | none => .ok (b, .deinit)
  | some l => do
    let (l, topic) ← findTopic l topicName
    match topic with
    | none => return (⟨some l⟩, .topicNotFound)
    | some topic =>
      let l ← l.removeItem topic
      return (⟨some { l with items := l.items.free topic }⟩, .noErrors)

/-- `attach`.  The observer is written to without a test of what `malloc` returned. -/
def attach (b : MsgBroker σ κ δ) (m : Malloc) (topicName : String) (subscriber : σ) (notify : κ) :
    Except Fault (MsgBroker σ κ δ × Exception × Option Addr) :=
  match b.topicList with
  | none => .ok (b, .deinit, none)
  | some l => do
    let (l, topic) ← findTopic l topicName
    match topic with
    | none => return (⟨some l⟩, .topicNotFound, none)
    | some topic =>
      if m.block then
        let t ← l.items.deref (some topic)
        let obs := t.observerList.items.fresh
        let list := { t.observerList with
          items := t.observerList.items.alloc ⟨subscriber, notify⟩ }
        let list ← list.addItem obs m.node
        let items ← l.items.update (some topic) fun t => { t with observerList := list }
        return (⟨some { l with items := items }⟩, .noErrors, some obs)
      else .error .nullPointer

/-- `detach`. -/
def detach [DecidableEq σ] (b : MsgBroker σ κ δ) (topicName : String) (subscriber : σ) :
    Except Fault (MsgBroker σ κ δ × Exception) :=
  match b.topicList with
  | none => .ok (b, .deinit)
  | some l => do
    let (l, topic) ← findTopic l topicName
    match topic with
    | none => return (⟨some l⟩, .topicNotFound)
    | some topic =>
      let t ← l.items.deref (some topic)
      let (list, obs) ← findObserver t.observerList subscriber
      match obs with
      | none =>
        let items ← l.items.update (some topic) fun t => { t with observerList := list }
        return (⟨some { l with items := items }⟩, .subscriberNotFound)
      | some obs =>
        let list ← list.removeItem obs
        let list := { list with items := list.items.free obs }
        let items ← l.items.update (some topic) fun t => { t with observerList := list }
        return (⟨some { l with items := items }⟩, .noErrors)

section

variable (call : κ → σ → String → ω → ω)

/-- The loop of `publish` over the observers, from the observer at hand.  `call notify observer
name` is the call `obs->notify(obs->observer, topic->name)`; it works on the state `ω` of the
subscribers and does not call the broker. -/
def notifyLoop : ℕ → Topic σ κ δ → Option Addr → ω → Except Fault (Topic σ κ δ × ω)
  | 0, _, _, _ => .error .diverges
  | _ + 1, topic, none, w => .ok (topic, w)
  | fuel + 1, topic, some a, w => do
    let obs ← topic.observerList.items.deref (some a)
    let topic := { topic with count := topic.count + 1 }
    let w := call obs.notify obs.observer topic.name w
    let (list, next) ← topic.observerList.getNextItem
    notifyLoop fuel { topic with observerList := list } next w

/-- The part of `publish` behind its checks. -/
def notifyAll (topic : Topic σ κ δ) (data : Option δ) (datasize : ℕ) (w : ω) :
    Except Fault (Topic σ κ δ × ω) := do
  let topic := { topic with data := data, datasize := datasize }
  let (list, obs) ← topic.observerList.getFirstItem
  notifyLoop call list.fuel { topic with observerList := list } obs w

/-- `publish`. -/
def publish (b : MsgBroker σ κ δ) (topicName : String) (data : Option δ) (datasize : ℕ) (w : ω) :
    Except Fault (MsgBroker σ κ δ × Exception × ω) :=
  match b.topicList with
  | none => .ok (b, .deinit, w)
  | some l => do
    let (l, topic) ← findTopic l topicName
    match topic with
    | none => return (⟨some l⟩, .topicNotFound, w)
    | some topic =>
      let t ← l.items.deref (some topic)
      if t.count > 0 then return (⟨some l⟩, .topicPending, w)
      else if datasize ≠ t.datasize then return (⟨some l⟩, .topicSize, w)
      else
        let (t, w) ← notifyAll call t data datasize w
        let items ← l.items.update (some topic) fun _ => t
        return (⟨some { l with items := items }⟩, .noErrors, w)

end

/-- The part of `consumed` behind `findTopic`.  After `THROW(TOPIC_NOT_FOUND)` it goes on with
the null pointer. -/
def consumedAt (l : TopicList σ κ δ) (topic : Option Addr) :
    Except Fault (MsgBroker σ κ δ × Exception) := do
  let exception := if topic.isNone then Exception.topicNotFound else .noErrors
  let t ← l.items.deref topic
  if t.count ≠ 0 then
    let items ← l.items.update topic fun t => { t with count := t.count - 1 }
    return (⟨some { l with items := items }⟩, exception)
  else return (⟨some l⟩, exception)

/-- `consumed`. -/
def consumed (b : MsgBroker σ κ δ) (topicName : String) :
    Except Fault (MsgBroker σ κ δ × Exception) :=
  match b.topicList with
  | none => .ok (b, .deinit)
  | some l => do
    let (l, topic) ← findTopic l topicName
    consumedAt l topic

/-- `getTopicData`.  After `THROW(DEINIT)` it goes on with the null list. -/
def getTopicData (b : MsgBroker σ κ δ) (topicName : String) :
    Except Fault (MsgBroker σ κ δ × Exception × Option δ) :=
  match b.topicList with
  | none => .error .nullPointer
  | some l => do
    let (l, topic) ← findTopic l topicName
    match topic with
    | none => return (⟨some l⟩, .topicNotFound, none)
    | some topic =>
      let t ← l.items.deref (some topic)
      return (⟨some l⟩, .noErrors, t.data)

/-- `getTopicDatasize`.  After each `THROW` it goes on with the null pointer. -/
def getTopicDatasize (b : MsgBroker σ κ δ) (topicName : String) :
    Except Fault (MsgBroker σ κ δ × Exception × ℕ) :=
  match b.topicList with
  | none => .error .nullPointer
  | some l => do
    let (l, topic) ← findTopic l topicName
    let exception := if topic.isNone then Exception.topicNotFound else .noErrors
    let t ← l.items.deref topic
    return (⟨some l⟩, exception, t.datasize)

end MsgBroker

end UavTelemetry
