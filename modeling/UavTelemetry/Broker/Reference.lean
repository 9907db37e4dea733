import UavTelemetry.Broker.MsgBroker
import UavTelemetry.Data.OrderedMap

/-!
# What the broker is for

The broker stands for a finite map from topic names to the size of the topic, its latest data, the
number of pending notifications and the observers in the order in which they attached.  This file
states the operations on that map, and the calls by which programs use the broker.

## Main definitions

* `Reference` : the map.
* `Reference.installTopic`, ... : what the operations of `MsgBroker` mean.
* `Call`, `Reply` : a call of the broker, and what it returns.
* `Reference.run` : the replies to a list of calls.
* `Reference.Admissible` : the calls that demand an installed topic find one.
-/

namespace UavTelemetry

namespace MsgBroker

/-- What the map holds for a topic. -/
structure Entry (σ κ δ : Type) where
  /-- Size of the data. -/
  datasize : ℕ
  /-- Pointer to the latest data update. -/
  data : Option δ
  /-- Notifications that have not been consumed. -/
  count : ℕ
  /-- The observers, in the order in which they attached. -/
  observers : List (Observer σ κ)
  deriving DecidableEq, Repr

/-- The map from topic names to their entries, in the order of installation. -/
abbrev Reference (σ κ δ : Type) := OrderedMap String (Entry σ κ δ)

variable {σ κ δ ω : Type}

namespace Reference

/-- The notifications of a publication, one for each observer. -/
def notifyAll (call : κ → σ → String → ω → ω) (name : String) (observers : List (Observer σ κ))
    (w : ω) : ω :=
  observers.foldl (fun w obs => call obs.notify obs.observer name w) w

/-- Install a topic, unless there is one with this name. -/
def installTopic (m : Reference σ κ δ) (name : String) (datasize : ℕ) :
    Reference σ κ δ × Exception × Bool :=
  match m.lookup name with
  | some _ => (m, .topicExists, true)
  | none => (m.push name ⟨datasize, none, 0, []⟩, .noErrors, true)

/-- Remove a topic. -/
def removeTopic (m : Reference σ κ δ) (name : String) : Reference σ κ δ × Exception :=
  match m.lookup name with
  | none => (m, .topicNotFound)
  | some _ => (m.erase name, .noErrors)

/-- Add an observer behind those that are attached already. -/
def attach (m : Reference σ κ δ) (name : String) (subscriber : σ) (notify : κ) :
    Reference σ κ δ × Exception × Bool :=
  match m.lookup name with
  | none => (m, .topicNotFound, false)
  | some _ =>
    (m.modify name fun e => { e with observers := e.observers ++ [⟨subscriber, notify⟩] },
      .noErrors, true)

/-- Remove the first observer of a subscriber. -/
def detach [DecidableEq σ] (m : Reference σ κ δ) (name : String) (subscriber : σ) :
    Reference σ κ δ × Exception :=
  match m.lookup name with
  | none => (m, .topicNotFound)
  | some e =>
    if e.observers.any fun obs => subscriber = obs.observer then
      (m.modify name fun e =>
        { e with observers := e.observers.eraseP fun obs => subscriber = obs.observer }, .noErrors)
    else (m, .subscriberNotFound)

/-- Update a topic that is not pending and notify its observers. -/
def publish (call : κ → σ → String → ω → ω) (m : Reference σ κ δ) (name : String)
    (data : Option δ) (datasize : ℕ) (w : ω) : Reference σ κ δ × Exception × ω :=
  match m.lookup name with
  | none => (m, .topicNotFound, w)
  | some e =>
    if e.count > 0 then (m, .topicPending, w)
    else if datasize ≠ e.datasize then (m, .topicSize, w)
    else
      (m.modify name fun e => { e with data := data, count := e.observers.length }, .noErrors,
        notifyAll call name e.observers w)

/-- Acknowledge one notification. -/
def consumed (m : Reference σ κ δ) (name : String) : Reference σ κ δ × Exception :=
  match m.lookup name with
  | none => (m, .topicNotFound)
  | some _ => (m.modify name fun e => { e with count := e.count - 1 }, .noErrors)

/-- The latest data update. -/
def getTopicData (m : Reference σ κ δ) (name : String) : Exception × Option δ :=
  match m.lookup name with
  | none => (.topicNotFound, none)
  | some e => (.noErrors, e.data)

/-- The size of the data. -/
def getTopicDatasize (m : Reference σ κ δ) (name : String) : Exception × ℕ :=
  match m.lookup name with
  | none => (.topicNotFound, 0)
  | some e => (.noErrors, e.datasize)

end Reference

/-! ### Calls -/

/-- A call of the broker. -/
inductive Call (σ κ δ : Type)
  | init
  | installTopic (name : String) (datasize : ℕ)
  | removeTopic (name : String)
  | attach (name : String) (subscriber : σ) (notify : κ)
  | detach (name : String) (subscriber : σ)
  | publish (name : String) (data : Option δ) (datasize : ℕ)
  | consumed (name : String)
  | getTopicData (name : String)
  | getTopicDatasize (name : String)
  deriving DecidableEq, Repr

/-- What a call returns. -/
inductive Reply (δ : Type)
  | done
  /-- A pointer to a topic or an observer, and whether it is not null. -/
  | pointer (nonNull : Bool)
  | data (data : Option δ)
  | size (datasize : ℕ)
  deriving DecidableEq, Repr

/-- The topic that a call names. -/
def Call.name : Call σ κ δ → Option String
  | .init => none
  | .installTopic name _ => some name
  | .removeTopic name => some name
  | .attach name _ _ => some name
  | .detach name _ => some name
  | .publish name _ _ => some name
  | .consumed name => some name
  | .getTopicData name => some name
  | .getTopicDatasize name => some name

section

variable [DecidableEq σ] (call : κ → σ → String → ω → ω)

/-- A call of the broker, with the state of the subscribers. -/
def perform (b : MsgBroker σ κ δ) (w : ω) :
    Call σ κ δ → Except Fault ((MsgBroker σ κ δ × ω) × Exception × Reply δ)
  | .init => do
    let b ← b.init true
    return ((b, w), .noErrors, .done)
  | .installTopic name datasize => do
    let (b, e, topic) ← b.installTopic .ok name datasize
    return ((b, w), e, .pointer topic.isSome)
  | .removeTopic name => do
    let (b, e) ← b.removeTopic name
    return ((b, w), e, .done)
  | .attach name subscriber notify => do
    let (b, e, obs) ← b.attach .ok name subscriber notify
    return ((b, w), e, .pointer obs.isSome)
  | .detach name subscriber => do
    let (b, e) ← b.detach name subscriber
    return ((b, w), e, .done)
  | .publish name data datasize => do
    let (b, e, w) ← b.publish call name data datasize w
    return ((b, w), e, .done)
  | .consumed name => do
    let (b, e) ← b.consumed name
    return ((b, w), e, .done)
  | .getTopicData name => do
    let (b, e, data) ← b.getTopicData name
    return ((b, w), e, .data data)
  | .getTopicDatasize name => do
    let (b, e, datasize) ← b.getTopicDatasize name
    return ((b, w), e, .size datasize)

/-- A list of calls, with the exceptions and the replies. -/
def run (b : MsgBroker σ κ δ) (w : ω) :
    List (Call σ κ δ) → Except Fault ((MsgBroker σ κ δ × ω) × List (Exception × Reply δ))
  | [] => .ok ((b, w), [])
  | c :: cs => do
    let (s, reply) ← perform call b w c
    let (s, replies) ← run s.1 s.2 cs
    return (s, reply :: replies)

/-- What a call does to the map. -/
def Reference.perform (m : Reference σ κ δ) (w : ω) :
    Call σ κ δ → (Reference σ κ δ × ω) × Exception × Reply δ
  | .init => ((m, w), .noErrors, .done)
  | .installTopic name datasize =>
    let r := m.installTopic name datasize
    ((r.1, w), r.2.1, .pointer r.2.2)
  | .removeTopic name =>
    let r := m.removeTopic name
    ((r.1, w), r.2, .done)
  | .attach name subscriber notify =>
    let r := m.attach name subscriber notify
    ((r.1, w), r.2.1, .pointer r.2.2)
  | .detach name subscriber =>
    let r := m.detach name subscriber
    ((r.1, w), r.2, .done)
  | .publish name data datasize =>
    let r := m.publish call name data datasize w
    ((r.1, r.2.2), r.2.1, .done)
  | .consumed name =>
    let r := m.consumed name
    ((r.1, w), r.2, .done)
  | .getTopicData name =>
    let r := m.getTopicData name
    ((m, w), r.1, .data r.2)
  | .getTopicDatasize name =>
    let r := m.getTopicDatasize name
    ((m, w), r.1, .size r.2)

/-- What a list of calls does to the map. -/
def Reference.run (m : Reference σ κ δ) (w : ω) :
    List (Call σ κ δ) → (Reference σ κ δ × ω) × List (Exception × Reply δ)
  | [] => ((m, w), [])
  | c :: cs =>
    let r := m.perform call w c
    let rs := Reference.run r.1.1 r.1.2 cs
    (rs.1, r.2 :: rs.2)

/-- `consumed` and `getTopicDatasize` are called on installed topics. -/
def Reference.Permits (m : Reference σ κ δ) : Call σ κ δ → Prop
  | .consumed name => m.lookup name ≠ none
  | .getTopicDatasize name => m.lookup name ≠ none
  | _ => True

/-- Every call is permitted in the map that the calls before it leave. -/
def Reference.Admissible (m : Reference σ κ δ) (w : ω) : List (Call σ κ δ) → Prop
  | [] => True
  | c :: cs =>
    m.Permits c ∧ Reference.Admissible (m.perform call w c).1.1 (m.perform call w c).1.2 cs

end

end MsgBroker

end UavTelemetry
