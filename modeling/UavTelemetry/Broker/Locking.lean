import UavTelemetry.Broker.Traced

/-!
# The mutex of the broker

The comments of `MsgBroker.h` leave it to the user to make `MUTEX_LOCK` and `MUTEX_UNLOCK` the
functions of a mutex.  Every operation locks it once, works on the lists and unlocks it on each way
out, but one: the `removeTopic` that takes a pointer calls the other `removeTopic`, which locks the
mutex again.

## Main definitions

* `Op` : a call of any public operation.

## Main results

* `disciplined_iff` : which calls follow the discipline of the mutex.
-/

namespace UavTelemetry

open Logged

namespace ItemList.Traced

/-! ### The operations of a list -/

variable {α β : Type} (n : Blocks β) (l : ItemList α)

/-- The computation neither locks nor unlocks the mutex. -/
abbrev Works {γ : Type} (x : Logged (Event β) Fault γ) : Prop := x.Only Event.Work

theorem works_access (b : β) : Works (emit (.access b)) := .emit ⟨nofun, nofun⟩

theorem works_alloc (b : β) : Works (emit (.alloc b)) := .emit ⟨nofun, nofun⟩

theorem works_free (b : β) : Works (emit (.free b)) := .emit ⟨nofun, nofun⟩

theorem works_new : Works (new n : Logged (Event β) Fault (ItemList α)) :=
  (works_alloc n.list).bind fun _ => (works_access n.list).bind fun _ => .pure _

theorem Uses.works {γ : Type} {x : Logged (Event β) Fault γ} (h : Uses n x) : Works x :=
  h.mono fun _ he => he ▸ ⟨nofun, nofun⟩

theorem works_addItem (item : Addr) (node : Bool) : Works (addItem n l item node) := by
  refine (works_access n.list).bind fun _ => ?_
  cases node with
  | false => exact .lift _
  | true => exact (works_alloc _).bind fun _ => .lift _

theorem works_removeNode (a : Addr) : Works (removeNode n l a) :=
  (works_access n.list).bind fun _ => (Only.lift _).bind fun _ => (works_free _).bind fun _ =>
    .pure _

theorem works_removeLoop (item : Addr) (fuel : ℕ) (a : Option Addr) :
    Works (removeLoop n l item fuel a) := by
  induction fuel generalizing a with
  | zero => exact .lift _
  | succ fuel ih =>
    cases a with
    | none => exact .lift _
    | some a =>
      refine (Only.lift _).bind fun node => ?_
      split_ifs
      · exact works_removeNode n l a
      · cases node.next with
        | none => exact .pure _
        | some next => exact ih (some next)

theorem works_removeItem (item : Addr) : Works (removeItem n l item) :=
  (works_access n.list).bind fun _ => works_removeLoop n l item l.fuel l.first

theorem works_destroyLoop (fuel : ℕ) : Works (destroyLoop n fuel l) := by
  induction fuel generalizing l with
  | zero => exact .lift _
  | succ fuel ih =>
    refine (works_access n.list).bind fun _ => ?_
    cases l.first with
    | none => exact .pure _
    | some first =>
      cases l.last with
      | none => exact .lift _
      | some a => exact (works_removeNode n l a).bind ih

theorem works_delete : Works (delete n l) :=
  (works_destroyLoop n l l.fuel).bind fun _ => works_free n.list

end ItemList.Traced

namespace MsgBroker

open ItemList.Traced (Works works_free works_alloc works_new works_addItem works_removeItem
  works_delete uses_getFirstItem uses_getNextItem uses_find)

variable {σ κ δ ω : Type}

/-- A call of a public operation; the subscribers and callbacks of `publish` do not call the
broker. -/
inductive Op (σ κ δ : Type)
  | call (m : Malloc) (c : Call σ κ δ)
  | deinit
  | removeTopicAt (t : Option Addr)

section

variable [DecidableEq σ] (call : κ → σ → String → ω → ω)

/-- The broker and the subscribers after a call. -/
def Op.perform (b : MsgBroker σ κ δ) (w : ω) :
    Op σ κ δ → Logged (Event Block) Fault (MsgBroker σ κ δ × ω)
  | .call m c => do
    let (s, _) ← Traced.performWith call m b w c
    return s
  | .deinit => do
    let b ← Traced.deinit b
    return (b, w)
  | .removeTopicAt t => do
    let (b, _) ← Traced.removeTopicAt b t
    return (b, w)

end

namespace Traced

/-! ### The operations of the broker -/

variable (b : MsgBroker σ κ δ)

theorem works_freeLoop (topic : Addr) (fuel : ℕ) (list : ItemList (Observer σ κ))
    (obs : Option Addr) : Works (freeLoop topic fuel list obs) := by
  induction fuel generalizing list obs with
  | zero => exact .lift _
  | succ fuel ih =>
    cases obs with
    | none => exact .pure _
    | some obs =>
      exact (works_free _).bind fun _ => (uses_getNextItem _ _).works.bind fun p => ih p.1 p.2

theorem works_freeTopic (l : TopicList σ κ δ) (topic : Addr) : Works (freeTopic l topic) :=
  (Only.lift _).bind fun _ => (uses_getFirstItem _ _).works.bind fun _ =>
    (works_freeLoop _ _ _ _).bind fun _ => (works_delete _ _).bind fun _ =>
      (works_free _).bind fun _ => .pure _

theorem works_deinitLoop (fuel : ℕ) (l : TopicList σ κ δ) (topic : Option Addr) :
    Works (deinitLoop fuel l topic) := by
  induction fuel generalizing l topic with
  | zero => exact .lift _
  | succ fuel ih =>
    cases topic with
    | none => exact .pure _
    | some topic =>
      exact (works_freeTopic l topic).bind fun _ => (uses_getNextItem _ _).works.bind fun p =>
        ih p.1 p.2

theorem disciplined_init (list : Bool) : Disciplined (init b list) := by
  rw [init]
  cases b.topicList with
  | some l => exact .pure _
  | none =>
    refine .acquire ?_
    cases list with
    | false => exact .fault _
    | true => exact .bind (works_new _) fun _ => .release (.pure _)

theorem disciplined_deinit : Disciplined (deinit b) := by
  rw [deinit]
  cases b.topicList with
  | none => exact .pure _
  | some l =>
    exact .acquire <| .bind (uses_getFirstItem _ _).works fun _ => .bind (works_deinitLoop _ _ _)
      fun _ => .bind (works_delete _ _) fun _ => .release (.pure _)

theorem disciplined_installTopic (m : Malloc) (name : String) (datasize : ℕ) :
    Disciplined (installTopic b m name datasize) := by
  rw [installTopic]
  cases b.topicList with
  | none => exact .pure _
  | some l =>
    refine .acquire (.bind (uses_find _ _ _).works fun p => ?_)
    obtain ⟨l, topic⟩ := p
    cases topic with
    | some topic => exact .release (.pure _)
    | none =>
      obtain ⟨block, list, node⟩ := m
      cases block with
      | false => exact .release (.pure _)
      | true =>
        refine .bind (works_alloc _) fun _ => ?_
        cases list with
        | false => exact .fault _
        | true =>
          exact .bind (works_new _) fun _ => .bind (works_addItem _ _ _ _) fun _ =>
            .release (.pure _)

theorem disciplined_removeTopic (topicName : String) : Disciplined (removeTopic b topicName) := by
  rw [removeTopic]
  cases b.topicList with
  | none => exact .pure _
  | some l =>
    refine .acquire (.bind (uses_find _ _ _).works fun p => ?_)
    obtain ⟨l, topic⟩ := p
    cases topic with
    | none => exact .release (.pure _)
    | some topic =>
      exact .bind (works_removeItem _ _ _) fun _ => .bind (works_free _) fun _ => .release (.pure _)

theorem disciplined_attach (m : Malloc) (topicName : String) (subscriber : σ) (notify : κ) :
    Disciplined (attach b m topicName subscriber notify) := by
  rw [attach]
  cases b.topicList with
  | none => exact .pure _
  | some l =>
    refine .acquire (.bind (uses_find _ _ _).works fun p => ?_)
    obtain ⟨l, topic⟩ := p
    cases topic with
    | none => exact .release (.pure _)
    | some topic =>
      obtain ⟨block, list, node⟩ := m
      cases block with
      | false => exact .fault _
      | true =>
        exact .bind (.lift _) fun _ => .bind (works_alloc _) fun _ =>
          .bind (works_addItem _ _ _ _) fun _ => .bind (.lift _) fun _ => .release (.pure _)

theorem disciplined_detach [DecidableEq σ] (topicName : String) (subscriber : σ) :
    Disciplined (detach b topicName subscriber) := by
  rw [detach]
  cases b.topicList with
  | none => exact .pure _
  | some l =>
    refine .acquire (.bind (uses_find _ _ _).works fun p => ?_)
    obtain ⟨l, topic⟩ := p
    cases topic with
    | none => exact .release (.pure _)
    | some topic =>
      refine .bind (.lift _) fun t => .bind (uses_find _ _ _).works fun q => ?_
      obtain ⟨list, obs⟩ := q
      cases obs with
      | none => exact .bind (.lift _) fun _ => .release (.pure _)
      | some obs =>
        exact .bind (works_removeItem _ _ _) fun _ => .bind (works_free _) fun _ =>
          .bind (.lift _) fun _ => .release (.pure _)

theorem disciplined_publish (call : κ → σ → String → ω → ω) (topicName : String)
    (data : Option δ) (datasize : ℕ) (w : ω) :
    Disciplined (publish call b topicName data datasize w) := by
  rw [publish]
  cases b.topicList with
  | none => exact .pure _
  | some l =>
    refine .acquire (.bind (uses_find _ _ _).works fun p => ?_)
    obtain ⟨l, topic⟩ := p
    cases topic with
    | none => exact .release (.pure _)
    | some topic =>
      refine .bind (.lift _) fun t => ?_
      split_ifs
      · exact .release (.pure _)
      · exact .release (.pure _)
      · exact .bind (uses_notifyAll _ _ _ _ _ _).works fun _ => .bind (.lift _) fun _ =>
          .release (.pure _)

theorem disciplined_consumed (topicName : String) : Disciplined (consumed b topicName) := by
  rw [consumed]
  cases b.topicList with
  | none => exact .pure _
  | some l =>
    exact .acquire <| .bind (uses_find _ _ _).works fun _ => .bind (.lift _) fun _ =>
      .release (.pure _)

theorem disciplined_getTopicData (topicName : String) :
    Disciplined (getTopicData b topicName) := by
  refine .acquire ?_
  cases b.topicList with
  | none => exact .fault _
  | some l =>
    refine .bind (uses_find _ _ _).works fun p => ?_
    obtain ⟨l, topic⟩ := p
    cases topic with
    | none => exact .release (.pure _)
    | some topic => exact .release (.bind (.lift _) fun _ => .pure _)

theorem disciplined_getTopicDatasize (topicName : String) :
    Disciplined (getTopicDatasize b topicName) := by
  refine .acquire ?_
  cases b.topicList with
  | none => exact .fault _
  | some l =>
    exact .bind (uses_find _ _ _).works fun _ => .release (.bind (.lift _) fun _ => .pure _)

theorem disciplined_performWith [DecidableEq σ] (call : κ → σ → String → ω → ω) (m : Malloc)
    (w : ω) (c : Call σ κ δ) : Disciplined (performWith call m b w c) := by
  cases c with
  | init => exact (disciplined_init b m.list).bind fun _ => .pure _
  | installTopic name datasize =>
    exact (disciplined_installTopic b m name datasize).bind fun _ => .pure _
  | removeTopic name => exact (disciplined_removeTopic b name).bind fun _ => .pure _
  | attach name subscriber notify =>
    exact (disciplined_attach b m name subscriber notify).bind fun _ => .pure _
  | detach name subscriber => exact (disciplined_detach b name subscriber).bind fun _ => .pure _
  | publish name data datasize =>
    exact (disciplined_publish b call name data datasize w).bind fun _ => .pure _
  | consumed name => exact (disciplined_consumed b name).bind fun _ => .pure _
  | getTopicData name => exact (disciplined_getTopicData b name).bind fun _ => .pure _
  | getTopicDatasize name => exact (disciplined_getTopicDatasize b name).bind fun _ => .pure _

/-- A pointer that leads to no topic ends the operation before the other `removeTopic` is called. -/
theorem disciplined_removeTopicAt_fault {l : TopicList σ κ δ} {t : Option Addr} {f : Fault}
    (hl : b.topicList = some l) (ht : l.items.deref t = .error f) :
    Disciplined (removeTopicAt b t) := by
  simp only [removeTopicAt, hl, ht]
  exact .acquire (by rw [bind_of_error rfl]; exact .fault f)

/-- A pointer to a topic has the mutex locked twice. -/
theorem acquire_acquire_prefix {l : TopicList σ κ δ} {t : Option Addr} {topic : Topic σ κ δ}
    (hl : b.topicList = some l) (ht : l.items.deref t = .ok topic) :
    [.acquire, .acquire] <+: (removeTopicAt b t).log := by
  have hinner : [.acquire] <+: (removeTopic b topic.name).log := by
    simp only [removeTopic, hl]
    exact log_prefix_bind (emit Event.acquire) _
  simp only [removeTopicAt, hl, ht]
  exact (List.prefix_cons_inj _).2 (hinner.trans (log_prefix_bind _ _))

end Traced

section

variable [DecidableEq σ] (call : κ → σ → String → ω → ω)

/-- **The discipline of the mutex**: in every state of the broker and whichever allocations
succeed, an operation locks the mutex only when it is free, works on the lists of topics and
observers, and allocates and frees blocks, only while it holds it, and returns with it free, exactly
if it is not the `removeTopic` by pointer, called on an initialised broker with a pointer to one of
its topics.  What an operation reads and writes of a topic it has found is not part of this: the
getters read it after they have unlocked the mutex. -/
theorem disciplined_iff (b : MsgBroker σ κ δ) (w : ω) (op : Op σ κ δ) :
    Disciplined (op.perform call b w) ↔
      ¬ ∃ l t topic, b.topicList = some l ∧ op = .removeTopicAt t ∧
        l.items.deref t = .ok topic := by
  cases op with
  | call m c =>
    refine iff_of_true ?_ ?_
    · exact (Traced.disciplined_performWith b call m w c).bind fun _ => .pure _
    · rintro ⟨l, t, topic, -, hop, -⟩
      cases hop
  | deinit =>
    refine iff_of_true ?_ ?_
    · exact (Traced.disciplined_deinit b).bind fun _ => .pure _
    · rintro ⟨l, t, topic, -, hop, -⟩
      cases hop
  | removeTopicAt t =>
    cases hl : b.topicList with
    | none =>
      refine iff_of_true ?_ (by simp)
      refine Disciplined.bind ?_ fun _ => .pure _
      simp only [Traced.removeTopicAt, hl]
      exact .pure _
    | some l =>
      cases ht : l.items.deref t with
      | error f =>
        refine iff_of_true ?_ ?_
        · exact (Traced.disciplined_removeTopicAt_fault b hl ht).bind fun _ => .pure _
        · rintro ⟨_, _, topic, hl', hop, htopic⟩
          cases hl'
          cases hop
          rw [ht] at htopic
          cases htopic
      | ok topic =>
        refine iff_of_false ?_ (not_not.2 ⟨l, t, topic, rfl, rfl, ht⟩)
        exact not_disciplined_nested
          ((Traced.acquire_acquire_prefix b hl ht).trans (log_prefix_bind _ _))

end

/-- The removal of the only topic by its pointer locks the mutex twice. -/
theorem not_disciplined_removeTopicAt :
    ∃ (b : MsgBroker ℕ Unit ℕ) (topic : Option Addr),
      ((Traced.init start true).result.bind fun b => (Traced.installTopic b .ok "/gps" 16).result) =
        .ok (b, .noErrors, topic) ∧
      ¬ Disciplined (Op.perform (fun _ _ _ w => w) b () (.removeTopicAt topic)) := by
  refine ⟨_, _, rfl, ?_⟩
  rintro ⟨held, hrun, -⟩
  cases hrun

end MsgBroker

end UavTelemetry
