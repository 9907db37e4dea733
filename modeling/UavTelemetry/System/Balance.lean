import UavTelemetry.System.Traffic
import UavTelemetry.Tasks.Duties

/-!
# Pending notifications and owed acknowledgements

The broker counts the notifications of a topic that have not been consumed, without knowing who
owes the acknowledgements.  If every wait ends with any of its flags, the count of `/keyb` and of
`/gps` is the number of acknowledgements that `SysManager` and `VirtualReceiver` owe, in every
reachable state of the system.

## Main definitions

* `Feed` : a topic that its observers acknowledge; `Feed.keyb` and `Feed.gps`.
* `Feed.Balanced` : the count of the topic is what its observers owe.

## Main results

* `Feed.Balanced.move` : every step keeps the balance.
* `Feed.Balanced.accepted_iff` : an update is accepted exactly if nobody owes an acknowledgement.
-/

namespace UavTelemetry

open Rtx MsgBroker

/-! ### Publications on the reference map -/

namespace Threads

theorem signalSet_pc (ths : Threads) (t t' : Task) (signals : Flags) :
    (ths.signalSet t signals t').pc = (ths t').pc := by
  unfold signalSet
  by_cases h : t' = t
  · subst h
    rw [Function.update_self]
    rfl
  · rw [Function.update_of_ne h]

theorem onTopicUpdate_pc (notify subscriber : Task) (name : String) (ths : Threads) (t : Task) :
    (onTopicUpdate notify subscriber name ths t).pc = (ths t).pc := by
  unfold onTopicUpdate
  cases notify.onTopicUpdateCallback name with
  | none => rfl
  | some signals => exact signalSet_pc _ _ _ _

end Threads

namespace MsgBroker.Reference

variable {m : Reference Task Task Buffer} {name : String} {data : Option Buffer} {datasize : ℕ}
  {ths : Threads}

/-- A publication is refused and changes nothing, or it is accepted. -/
theorem publish_cases (m : Reference Task Task Buffer) (name : String) (data : Option Buffer)
    (datasize : ℕ) (ths : Threads) :
    ((m.lookup name = none ∨ ∃ e, m.lookup name = some e ∧ (e.count ≠ 0 ∨ datasize ≠ e.datasize)) ∧
      ∃ e, e ≠ .noErrors ∧
        Reference.publish Threads.onTopicUpdate m name data datasize ths = (m, e, ths)) ∨
    ∃ e, m.lookup name = some e ∧ e.count = 0 ∧ datasize = e.datasize ∧
      Reference.publish Threads.onTopicUpdate m name data datasize ths =
        (m.modify name fun e => { e with data := data, count := e.observers.length }, .noErrors,
          notifyAll Threads.onTopicUpdate name e.observers ths) := by
  unfold Reference.publish
  cases hm : m.lookup name with
  | none => exact Or.inl ⟨Or.inl rfl, .topicNotFound, by decide, rfl⟩
  | some e =>
    -- the checks of `publish`: pending comes before the size
    by_cases hcount : e.count = 0
    · by_cases hsize : datasize = e.datasize
      · refine Or.inr ⟨e, rfl, hcount, hsize, ?_⟩
        simp only [hcount, hsize, gt_iff_lt, Nat.lt_irrefl, if_false, ne_eq, not_true_eq_false]
      · refine Or.inl ⟨Or.inr ⟨e, rfl, Or.inr hsize⟩, .topicSize, by decide, ?_⟩
        simp only [hcount, hsize, gt_iff_lt, Nat.lt_irrefl, if_false, ne_eq, not_false_eq_true,
          if_true]
    · refine Or.inl ⟨Or.inr ⟨e, rfl, Or.inl hcount⟩, .topicPending, by decide, ?_⟩
      simp only [gt_iff_lt, Nat.pos_of_ne_zero hcount, if_true]

theorem notifyAll_pc (observers : List (Observer Task Task)) (t : Task) :
    (notifyAll Threads.onTopicUpdate name observers ths t).pc = (ths t).pc := by
  induction observers generalizing ths with
  | nil => rfl
  | cons obs observers ih => exact ih.trans (Threads.onTopicUpdate_pc _ _ _ _ _)

/-- A publication moves no task. -/
theorem publish_pc (t : Task) :
    ((Reference.publish Threads.onTopicUpdate m name data datasize ths).2.2 t).pc = (ths t).pc := by
  rcases publish_cases m name data datasize ths with ⟨-, e, -, heq⟩ | ⟨e, -, -, -, heq⟩
  · rw [heq]
  · rw [heq]
    exact notifyAll_pc _ _

theorem lookup_publish_of_ne {name' : String} (h : name' ≠ name) :
    (Reference.publish Threads.onTopicUpdate m name data datasize ths).1.lookup name' =
      m.lookup name' := by
  rcases publish_cases m name data datasize ths with ⟨-, e, -, heq⟩ | ⟨e, -, -, -, heq⟩
  · rw [heq]
  · rw [heq]
    exact OrderedMap.lookup_modify_of_ne h

theorem lookup_consumed_of_ne {name' : String} (h : name' ≠ name) :
    (m.consumed name).1.lookup name' = m.lookup name' := by
  unfold Reference.consumed
  split
  · rfl
  · exact OrderedMap.lookup_modify_of_ne h

theorem lookup_consumed_self {e : TopicEntry} (h : m.lookup name = some e) :
    (m.consumed name).1.lookup name = some { e with count := e.count - 1 } := by
  simp only [Reference.consumed, h]
  exact OrderedMap.lookup_modify_self h

end MsgBroker.Reference

/-! ### Topics that are acknowledged -/

/-- A task acknowledges the updates of a topic, of which it is notified by one flag. -/
structure Task.Answers (t : Task) (d : Duty t.loop) (name : String) : Prop where
  /-- The callback of the task raises the flag for the topic. -/
  callback : ∃ f, t.onTopicUpdateCallback name = some f ∧ f.getLsbD d.bit = true
  /-- It does not raise it for other topics. -/
  callback_ne : ∀ name' f, name' ≠ name → t.onTopicUpdateCallback name' = some f →
    f.getLsbD d.bit = false
  /-- Neither do interrupt handlers. -/
  interrupts : ∀ f ∈ t.interrupts, f.getLsbD d.bit = false
  /-- The acknowledgement is what consumes the topic. -/
  access_iff : ∀ st : t.Stmt, t.access st = .consumed name ↔ st = d.ack

/-- A topic whose observers acknowledge its updates. -/
structure Feed where
  /-- The name of the topic. -/
  name : String
  /-- The duty of `VirtualReceiver`. -/
  virtualReceiver : Duty Task.virtualReceiver.loop
  /-- The duty of `SysManager`. -/
  sysManager : Duty Task.sysManager.loop
  /-- `VirtualReceiver` acknowledges the topic. -/
  virtualReceiver_answers : Task.virtualReceiver.Answers virtualReceiver name
  /-- `SysManager` acknowledges the topic. -/
  sysManager_answers : Task.sysManager.Answers sysManager name

theorem VirtualReceiver.access_eq_consumed_iff {st : VirtualReceiver.Stmt} {name : String} :
    Task.access .virtualReceiver st = .consumed name ↔ st = .consumed name := by
  cases st <;> simp [Task.access]

theorem SysManager.access_eq_consumed_iff {st : SysManager.Stmt} {name : String} :
    Task.access .sysManager st = .consumed name ↔ st = .consumed name := by
  cases st <;> simp [Task.access]

theorem VirtualReceiver.keyDuty_answers :
    Task.virtualReceiver.Answers VirtualReceiver.keyDuty "/keyb" where
  callback := ⟨VirtualReceiver.keyEvReady, by decide, by decide⟩
  callback_ne name' f hne hf := by
    simp only [Task.onTopicUpdateCallback, VirtualReceiver.onTopicUpdateCallback, if_neg hne] at hf
    split_ifs at hf
    cases hf
    decide
  interrupts f hf := by
    rcases List.mem_pair.1 hf with rfl | rfl <;> decide
  access_iff _ := VirtualReceiver.access_eq_consumed_iff

theorem VirtualReceiver.gpsDuty_answers :
    Task.virtualReceiver.Answers VirtualReceiver.gpsDuty "/gps" where
  callback := ⟨VirtualReceiver.gpsEvReady, by decide, by decide⟩
  callback_ne name' f hne hf := by
    simp only [Task.onTopicUpdateCallback, VirtualReceiver.onTopicUpdateCallback, if_neg hne] at hf
    split_ifs at hf
    cases hf
    decide
  interrupts f hf := by
    rcases List.mem_pair.1 hf with rfl | rfl <;> decide
  access_iff _ := VirtualReceiver.access_eq_consumed_iff

theorem SysManager.keyDuty_answers :
    Task.sysManager.Answers SysManager.keyDuty "/keyb" where
  callback := ⟨SysManager.keyEvReady, by decide, by decide⟩
  callback_ne name' f hne hf := by
    simp only [Task.onTopicUpdateCallback, SysManager.onTopicUpdateCallback, if_neg hne] at hf
    split_ifs at hf
    · cases hf
      decide
    · cases hf
      decide
  interrupts f hf := by cases hf
  access_iff _ := SysManager.access_eq_consumed_iff

theorem SysManager.gpsDuty_answers :
    Task.sysManager.Answers SysManager.gpsDuty "/gps" where
  callback := ⟨SysManager.gpsEvReady, by decide, by decide⟩
  callback_ne name' f hne hf := by
    simp only [Task.onTopicUpdateCallback, SysManager.onTopicUpdateCallback, if_neg hne] at hf
    split_ifs at hf
    · cases hf
      decide
    · cases hf
      decide
  interrupts f hf := by cases hf
  access_iff _ := SysManager.access_eq_consumed_iff

namespace Feed

/-- The updates of `/keyb`. -/
def keyb : Feed where
  name := "/keyb"
  virtualReceiver := VirtualReceiver.keyDuty
  sysManager := SysManager.keyDuty
  virtualReceiver_answers := VirtualReceiver.keyDuty_answers
  sysManager_answers := SysManager.keyDuty_answers

/-- The updates of `/gps`. -/
def gps : Feed where
  name := "/gps"
  virtualReceiver := VirtualReceiver.gpsDuty
  sysManager := SysManager.gpsDuty
  virtualReceiver_answers := VirtualReceiver.gpsDuty_answers
  sysManager_answers := SysManager.gpsDuty_answers

variable (F : Feed)

/-- The duty of a task.  `KeyDecoder` has none. -/
def duty : (t : Task) → Option (Duty t.loop)
  | .keyDecoder => none
  | .virtualReceiver => some F.virtualReceiver
  | .sysManager => some F.sysManager

/-- The acknowledgements that a task owes. -/
def owed (t : Task) (th : Thread t.Stmt) : ℕ :=
  match F.duty t with
  | none => 0
  | some d => d.owed th

/-- What the steps of a task keep, as far as its duty is concerned. -/
def Kept (t : Task) (th : Thread t.Stmt) : Prop := ∀ d ∈ F.duty t, d.Kept th

variable {F} {t : Task}

theorem duty_answers {d : Duty t.loop} (hd : d ∈ F.duty t) : t.Answers d F.name := by
  cases t with
  | keyDecoder => cases hd
  | virtualReceiver =>
    cases hd
    exact F.virtualReceiver_answers
  | sysManager =>
    cases hd
    exact F.sysManager_answers

theorem owed_of_mem {d : Duty t.loop} (hd : d ∈ F.duty t) (th : Thread t.Stmt) :
    F.owed t th = d.owed th := by
  rw [owed, Option.mem_def.1 hd]

/-- A statement of a task without a duty does not consume the topic. -/
theorem exists_duty_of_access {st : t.Stmt} (h : t.access st = .consumed F.name) :
    ∃ d ∈ F.duty t, st = d.ack := by
  cases t with
  | keyDecoder => cases st <;> cases h
  | virtualReceiver => exact ⟨_, rfl, (F.virtualReceiver_answers.access_iff st).1 h⟩
  | sysManager => exact ⟨_, rfl, (F.sysManager_answers.access_iff st).1 h⟩

theorem Kept.congr {th th' : Thread t.Stmt} (h : F.Kept t th)
    (hd : ∀ d ∈ F.duty t, d.Kept th → d.Kept th' ∧ d.owed th' = d.owed th) :
    F.Kept t th' ∧ F.owed t th' = F.owed t th := by
  refine ⟨fun d hmem => (hd d hmem (h d hmem)).1, ?_⟩
  cases hduty : F.duty t with
  | none => simp only [owed, hduty]
  | some d =>
    rw [owed_of_mem hduty, owed_of_mem hduty]
    exact (hd d hduty (h d hduty)).2

/-- The tasks owe the same in `ths'` as in `ths`. -/
def Same (F : Feed) (ths ths' : Threads) : Prop :=
  ∀ t, F.Kept t (ths' t) ∧ F.owed t (ths' t) = F.owed t (ths t)

namespace Same

variable {ths : Threads}

theorem refl (hkept : ∀ t, F.Kept t (ths t)) : F.Same ths ths := fun t => ⟨hkept t, rfl⟩

theorem kept {ths' : Threads} (h : F.Same ths ths') (t : Task) : F.Kept t (ths' t) := (h t).1

theorem trans {ths' ths'' : Threads} (h : F.Same ths ths') (h' : F.Same ths' ths'') :
    F.Same ths ths'' := fun t => ⟨(h' t).1, (h' t).2.trans (h t).2⟩

theorem update (hkept : ∀ t, F.Kept t (ths t)) {th : Thread t.Stmt}
    (hd : ∀ d ∈ F.duty t, d.Kept (ths t) → d.Kept th ∧ d.owed th = d.owed (ths t)) :
    F.Same ths (Function.update ths t th) := by
  intro t'
  by_cases ht : t' = t
  · subst ht
    rw [Function.update_self]
    exact (hkept t').congr hd
  · rw [Function.update_of_ne ht]
    exact ⟨hkept t', rfl⟩

/-- Other flags. -/
theorem signalSet (hkept : ∀ t, F.Kept t (ths t)) {signals : Flags}
    (hf : ∀ d ∈ F.duty t, signals.getLsbD d.bit = false) :
    F.Same ths (ths.signalSet t signals) :=
  .update hkept fun d hd hkept' => by
    obtain ⟨hkept'', howed⟩ := hkept'.signalSet signals (Or.inl (hf d hd))
    refine ⟨hkept'', ?_⟩
    rw [howed, hf d hd]
    rfl

/-- The update of another topic notifies nobody of this one. -/
theorem onTopicUpdate (hkept : ∀ t, F.Kept t (ths t)) {name : String} (hne : name ≠ F.name)
    (subscriber : Task) : F.Same ths (Threads.onTopicUpdate t subscriber name ths) := by
  unfold Threads.onTopicUpdate
  cases hf : t.onTopicUpdateCallback name with
  | none => exact .refl hkept
  | some f => exact .signalSet hkept fun d hd => (duty_answers hd).callback_ne name f hne hf

theorem notifyAll (hkept : ∀ t, F.Kept t (ths t)) {name : String} (hne : name ≠ F.name)
    (observers : List (Observer Task Task)) :
    F.Same ths (Reference.notifyAll Threads.onTopicUpdate name observers ths) := by
  induction observers generalizing ths with
  | nil => exact .refl hkept
  | cons obs observers ih =>
    have hfirst := Same.onTopicUpdate (t := obs.notify) hkept hne obs.observer
    exact hfirst.trans (ih hfirst.kept)

end Same

/-- The count of the topic is what its observers owe, and none of them owes more than one
acknowledgement. -/
structure Balanced (F : Feed) (m : Reference Task Task Buffer) (ths : Threads) : Prop where
  /-- What the steps of the tasks keep. -/
  kept : ∀ t, F.Kept t (ths t)
  /-- No task owes more than one acknowledgement. -/
  owed_le : ∀ t, F.owed t (ths t) ≤ 1
  /-- The count of the topic. -/
  entry : ∃ e, m.lookup F.name = some e ∧ Both e.observers ∧
    e.count = F.owed .virtualReceiver (ths .virtualReceiver) + F.owed .sysManager (ths .sysManager)

namespace Balanced

variable {m m' : Reference Task Task Buffer} {ths ths' : Threads}

/-- A change that matters neither to what the tasks owe nor to the topic. -/
theorem congr (h : F.Balanced m ths) (hm : m'.lookup F.name = m.lookup F.name)
    (hths : F.Same ths ths') : F.Balanced m' ths' := by
  obtain ⟨e, he, hobs, hcount⟩ := h.entry
  refine ⟨fun t => (hths t).1, fun t => ?_, e, hm.trans he, hobs, ?_⟩
  · rw [(hths t).2]
    exact h.owed_le t
  · rw [(hths _).2, (hths _).2]
    exact hcount

/-- A step of a task that changes nothing about what it owes. -/
theorem update (h : F.Balanced m ths) {th : Thread t.Stmt}
    (hd : ∀ d ∈ F.duty t, d.Kept (ths t) → d.Kept th ∧ d.owed th = d.owed (ths t)) :
    F.Balanced m (Function.update ths t th) :=
  h.congr rfl (.update h.kept hd)

end Balanced

/-- The update of the topic notifies an observer that owes nothing. -/
theorem onTopicUpdate_self {ths : Threads} (hkept : F.Kept t (ths t)) (howed : F.owed t (ths t) = 0)
    (ht : t ≠ .keyDecoder) (subscriber : Task) :
    F.Kept t (Threads.onTopicUpdate t subscriber F.name ths t) ∧
      F.owed t (Threads.onTopicUpdate t subscriber F.name ths t) = 1 := by
  obtain ⟨d, hd⟩ : ∃ d, d ∈ F.duty t := by
    cases t with
    | keyDecoder => exact absurd rfl ht
    | virtualReceiver => exact ⟨_, rfl⟩
    | sysManager => exact ⟨_, rfl⟩
  obtain ⟨f, hf, hbit⟩ := (duty_answers hd).callback
  rw [owed_of_mem hd] at howed ⊢
  obtain ⟨hkept', howed'⟩ := (hkept d hd).signalSet f (Or.inr howed)
  simp only [Threads.onTopicUpdate, hf, Threads.signalSet, Function.update_self]
  refine ⟨fun d' hd' => ?_, ?_⟩
  · obtain rfl : d = d' := Option.some.inj (hd.symm.trans hd')
    exact hkept'
  · rw [howed', howed, hbit]
    rfl

theorem onTopicUpdate_of_ne {ths : Threads} {t' : Task} (h : t' ≠ t) (subscriber : Task)
    (name : String) : Threads.onTopicUpdate t subscriber name ths t' = ths t' := by
  unfold Threads.onTopicUpdate
  cases t.onTopicUpdateCallback name with
  | none => rfl
  | some f => exact Function.update_of_ne h _ _

theorem notifyAll_pair {ths : Threads} (hkept : ∀ t, F.Kept t (ths t))
    (howed : ∀ t, F.owed t (ths t) = 0) {a b : Task} (hab : a ≠ b) (ha : a ≠ .keyDecoder)
    (hb : b ≠ .keyDecoder) (t : Task) :
    F.Kept t (Reference.notifyAll Threads.onTopicUpdate F.name [observer a, observer b] ths t) ∧
      (t ≠ .keyDecoder → F.owed t
        (Reference.notifyAll Threads.onTopicUpdate F.name [observer a, observer b] ths t) = 1) := by
  change F.Kept t (Threads.onTopicUpdate b b F.name (Threads.onTopicUpdate a a F.name ths) t) ∧
    (t ≠ .keyDecoder → F.owed t
      (Threads.onTopicUpdate b b F.name (Threads.onTopicUpdate a a F.name ths) t) = 1)
  by_cases htb : t = b
  · subst htb
    -- the first callback has left the thread of the second observer alone
    have hfirst : Threads.onTopicUpdate a a F.name ths t = ths t :=
      onTopicUpdate_of_ne (Ne.symm hab) a F.name
    have hkept₁ : F.Kept t (Threads.onTopicUpdate a a F.name ths t) := by
      rw [hfirst]
      exact hkept t
    have howed₁ : F.owed t (Threads.onTopicUpdate a a F.name ths t) = 0 := by
      rw [hfirst]
      exact howed t
    obtain ⟨hkept', howed'⟩ := onTopicUpdate_self hkept₁ howed₁ hb t
    exact ⟨hkept', fun _ => howed'⟩
  · rw [onTopicUpdate_of_ne htb]
    by_cases hta : t = a
    · subst hta
      obtain ⟨hkept', howed'⟩ := onTopicUpdate_self (hkept t) (howed t) ha t
      exact ⟨hkept', fun _ => howed'⟩
    · rw [onTopicUpdate_of_ne hta]
      -- only `KeyDecoder` is left
      refine ⟨hkept t, fun ht => ?_⟩
      cases t <;> cases a <;> cases b <;> contradiction

/-- The update of the topic notifies both observers, in whichever order they attached. -/
theorem notifyAll_self {ths : Threads} (hkept : ∀ t, F.Kept t (ths t))
    (howed : ∀ t, F.owed t (ths t) = 0) {observers : List (Observer Task Task)}
    (hobs : Both observers) (t : Task) :
    F.Kept t (Reference.notifyAll Threads.onTopicUpdate F.name observers ths t) ∧
      (t ≠ .keyDecoder →
        F.owed t (Reference.notifyAll Threads.onTopicUpdate F.name observers ths t) = 1) := by
  rcases hobs with rfl | rfl
  · exact notifyAll_pair hkept howed (by simp) (by simp) (by simp) t
  · exact notifyAll_pair hkept howed (by simp) (by simp) (by simp) t

namespace Balanced

variable {m m' : Reference Task Task Buffer} {ths ths' : Threads}

/-- The topic is pending as long as somebody owes an acknowledgement. -/
theorem count_eq_zero_iff (h : F.Balanced m ths) {e : TopicEntry}
    (he : m.lookup F.name = some e) : e.count = 0 ↔ ∀ t, F.owed t (ths t) = 0 := by
  obtain ⟨e', he', -, hcount⟩ := h.entry
  obtain rfl : e = e' := Option.some.inj (he.symm.trans he')
  constructor
  · intro h0 t
    cases t with
    | keyDecoder => rfl
    | virtualReceiver => omega
    | sysManager => omega
  · intro h0
    rw [hcount, h0, h0]

/-- What a publication does to what the tasks owe: each observer is notified of an accepted update
of the topic, and nothing else matters. -/
theorem publish_owed (h : F.Balanced m ths) (name : String) (data : Option Buffer)
    (datasize : ℕ) :
    (name = F.name ∧
      (Reference.publish Threads.onTopicUpdate m name data datasize ths).2.1 = .noErrors ∧
      ∀ t, t ≠ .keyDecoder → F.owed t (ths t) = 0 ∧
        F.owed t ((Reference.publish Threads.onTopicUpdate m name data datasize ths).2.2 t) = 1) ∨
    (name = F.name →
      (Reference.publish Threads.onTopicUpdate m name data datasize ths).2.1 ≠ .noErrors) ∧
      F.Same ths (Reference.publish Threads.onTopicUpdate m name data datasize ths).2.2 := by
  rcases Reference.publish_cases m name data datasize ths with ⟨-, e, hne, heq⟩ | ⟨e, he, h0, -, heq⟩
  · rw [heq]
    exact Or.inr ⟨fun _ => hne, .refl h.kept⟩
  · rw [heq]
    by_cases hname : name = F.name
    · subst hname
      obtain ⟨e', he', hobs, -⟩ := h.entry
      obtain rfl : e = e' := Option.some.inj (he.symm.trans he')
      have howed := (h.count_eq_zero_iff he).1 h0
      exact Or.inl ⟨rfl, rfl, fun t ht => ⟨howed t, (notifyAll_self h.kept howed hobs t).2 ht⟩⟩
    · exact Or.inr ⟨fun hF => absurd hF hname, .notifyAll h.kept hname e.observers⟩

/-- **A publication** keeps the balance: it is refused while an acknowledgement is owed. -/
theorem publish (h : F.Balanced m ths) (name : String) (data : Option Buffer) (datasize : ℕ) :
    F.Balanced (Reference.publish Threads.onTopicUpdate m name data datasize ths).1
      (Reference.publish Threads.onTopicUpdate m name data datasize ths).2.2 := by
  rcases Reference.publish_cases m name data datasize ths with ⟨-, e, -, heq⟩ | ⟨e, he, h0, -, heq⟩
  · rw [heq]
    exact h
  · rw [heq]
    by_cases hname : name = F.name
    · subst hname
      obtain ⟨e', he', hobs, -⟩ := h.entry
      obtain rfl : e = e' := Option.some.inj (he.symm.trans he')
      have howed := (h.count_eq_zero_iff he).1 h0
      have hboth := notifyAll_self (F := F) h.kept howed hobs
      -- both observers owe one acknowledgement, and the count is their number
      refine ⟨fun t => (hboth t).1, fun t => ?_, _, OrderedMap.lookup_modify_self he, hobs, ?_⟩
      · by_cases ht : t = .keyDecoder
        · subst ht
          exact Nat.zero_le 1
        · exact Nat.le_of_eq ((hboth t).2 ht)
      · have hlength : e.observers.length = 2 := by rcases hobs with hobs | hobs <;> rw [hobs] <;> rfl
        rw [(hboth _).2 (by simp), (hboth _).2 (by simp)]
        exact hlength
    · exact h.congr (OrderedMap.lookup_modify_of_ne (Ne.symm hname))
        (.notifyAll h.kept hname e.observers)

/-- What a statement does to what the task owes. -/
theorem exec (h : F.Balanced m ths) {st : t.Stmt} {sts new : List t.Stmt}
    (hpc : (ths t).pc = .body (st :: sts)) (hnew : new ∈ t.loop.next st) {d : Duty t.loop}
    (hd : d ∈ F.duty t) :
    d.Kept ⟨rtEvtClr (ths t).tcb (t.loop.clr st), .body (new ++ sts)⟩ ∧
      d.owed ⟨rtEvtClr (ths t).tcb (t.loop.clr st), .body (new ++ sts)⟩ +
        (if st = d.ack then 1 else 0) = d.owed (ths t) := by
  have hle := h.owed_le t
  rw [owed_of_mem hd] at hle
  exact (h.kept t d hd).exec hpc ((h.kept t d hd).pending_eq_false hpc hle) hnew

/-- A statement that does not consume the topic. -/
theorem stmt_ne (h : F.Balanced m ths) {st : t.Stmt} {sts new : List t.Stmt}
    (hpc : (ths t).pc = .body (st :: sts)) (hnew : new ∈ t.loop.next st)
    (hst : t.access st ≠ .consumed F.name) :
    F.Balanced m
      (Function.update ths t ⟨rtEvtClr (ths t).tcb (t.loop.clr st), .body (new ++ sts)⟩) :=
  h.update fun d hd _ => by
    obtain ⟨hkept, howed⟩ := h.exec hpc hnew hd
    rw [if_neg fun heq => hst (((duty_answers hd).access_iff st).2 heq)] at howed
    exact ⟨hkept, howed⟩

/-- **An acknowledgement**: the count and the task that runs it go down by one together. -/
theorem stmt_self (h : F.Balanced m ths) {st : t.Stmt} {sts new : List t.Stmt}
    (hpc : (ths t).pc = .body (st :: sts)) (hnew : new ∈ t.loop.next st)
    (hst : t.access st = .consumed F.name) :
    F.Balanced (m.consumed F.name).1
      (Function.update ths t ⟨rtEvtClr (ths t).tcb (t.loop.clr st), .body (new ++ sts)⟩) := by
  obtain ⟨d, hd, heq⟩ := exists_duty_of_access hst
  obtain ⟨hkept, howed⟩ := h.exec hpc hnew hd
  rw [if_pos heq] at howed
  obtain ⟨e, he, hobs, hcount⟩ := h.entry
  have hkept' : F.Kept t ⟨rtEvtClr (ths t).tcb (t.loop.clr st), .body (new ++ sts)⟩ := by
    intro d' hd'
    obtain rfl : d = d' := Option.some.inj (hd.symm.trans hd')
    exact hkept
  have howed' : F.owed t ⟨rtEvtClr (ths t).tcb (t.loop.clr st), .body (new ++ sts)⟩ + 1 =
      F.owed t (ths t) := by
    rw [owed_of_mem hd, owed_of_mem hd]
    exact howed
  -- the task that acknowledges is one of the two whose debts make up the count
  refine ⟨fun t' => ?_, fun t' => ?_, _, Reference.lookup_consumed_self he, hobs, ?_⟩
  · by_cases ht : t' = t
    · subst ht
      rwa [Function.update_self]
    · rw [Function.update_of_ne ht]
      exact h.kept t'
  · by_cases ht : t' = t
    · subst ht
      rw [Function.update_self]
      have hle := h.owed_le t'
      omega
    · rw [Function.update_of_ne ht]
      exact h.owed_le t'
  · cases t with
    | keyDecoder => cases hd
    | virtualReceiver =>
      rw [Function.update_self, Function.update_of_ne (by simp)]
      change e.count - 1 = _
      omega
    | sysManager =>
      rw [Function.update_self, Function.update_of_ne (by simp)]
      change e.count - 1 = _
      omega

/-- **Every step keeps the balance.** -/
theorem move {a : Access} (h : F.Balanced m ths) (hmove : Move svcSignalWaitAny m ths a m' ths') :
    F.Balanced m' ths' := by
  cases hmove with
  | idle => exact h
  | interrupt t hsignals =>
    exact h.congr rfl (.signalSet h.kept fun d hd => (duty_answers hd).interrupts _ hsignals)
  | publish name data datasize => exact h.publish name (some data) datasize
  | call t ms hpc => exact h.update fun _ _ hkept => hkept.call hpc ms
  | resume t hres => exact h.update fun _ _ hkept => hkept.resume hres
  | done t hpc => exact h.update fun _ _ hkept => hkept.done hpc
  | expire t hexp => exact h.update fun _ _ hkept => hkept.expire hexp
  | stmt t hpc hnew happ =>
    -- the access decides: only `consumed` on the topic itself is an acknowledgement
    rename_i st sts new ths₁
    generalize ha : t.access st = a at happ
    cases happ with
    | none => exact h.stmt_ne hpc hnew (by simp [ha])
    | publish name data datasize =>
      refine (h.publish name (some data) datasize).stmt_ne ?_ hnew (by simp [ha])
      rw [Reference.publish_pc, hpc]
    | consumed hname =>
      rename_i name
      by_cases hF : name = F.name
      · subst hF
        exact h.stmt_self hpc hnew ha
      · have hbalanced := h.stmt_ne hpc hnew (by simp [ha, hF])
        exact hbalanced.congr (Reference.lookup_consumed_of_ne (Ne.symm hF)) (.refl hbalanced.kept)

/-- What a statement does to what the task that runs it owes. -/
theorem owed_stmt (h : F.Balanced m ths) {st : t.Stmt} {sts new : List t.Stmt}
    (hpc : (ths t).pc = .body (st :: sts)) (hnew : new ∈ t.loop.next st)
    (happ : (t.access st).Applies m ths m' ths')
    (hne : ∀ data datasize, t.access st ≠ .publish F.name data datasize) {d : Duty t.loop}
    (hd : d ∈ F.duty t) :
    d.owed ⟨rtEvtClr (ths' t).tcb (t.loop.clr st), .body (new ++ sts)⟩ +
      (if st = d.ack then 1 else 0) = d.owed (ths t) := by
  generalize t.access st = a at happ hne
  cases happ with
  | none => exact (h.exec hpc hnew hd).2
  | consumed _ => exact (h.exec hpc hnew hd).2
  | publish name data datasize =>
    have hpc' : ((Reference.publish Threads.onTopicUpdate m name (some data) datasize ths).2.2
        t).pc = .body (st :: sts) := (Reference.publish_pc t).trans hpc
    rw [((h.publish name (some data) datasize).exec hpc' hnew hd).2]
    rcases h.publish_owed name (some data) datasize with ⟨rfl, -, -⟩ | ⟨-, hsame⟩
    · exact absurd rfl (hne data datasize)
    · rw [← owed_of_mem hd, ← owed_of_mem hd]
      exact (hsame t).2

/-- An update of the right size is accepted exactly if nobody owes an acknowledgement. -/
theorem accepted_iff (h : F.Balanced m ths) {datasize : ℕ}
    (hsize : (m.lookup F.name).map Entry.datasize = some datasize) (data : Option Buffer) :
    (Reference.publish Threads.onTopicUpdate m F.name data datasize ths).2.1 = .noErrors ↔
      ∀ t, F.owed t (ths t) = 0 := by
  obtain ⟨e, he, -, -⟩ := h.entry
  rw [he, Option.map_some, Option.some.injEq] at hsize
  rw [← h.count_eq_zero_iff he]
  rcases Reference.publish_cases m F.name data datasize ths with
    ⟨hno, e', he', heq⟩ | ⟨e', he', h0, -, heq⟩
  · rw [heq]
    -- refused: the size is right, so the topic is pending
    refine ⟨fun hacc => absurd hacc he', fun h0 => ?_⟩
    rcases hno with hno | ⟨e'', he'', hno⟩
    · rw [he] at hno
      cases hno
    · obtain rfl : e = e'' := Option.some.inj (he.symm.trans he'')
      exact absurd hno (by simp [h0, hsize])
  · obtain rfl : e = e' := Option.some.inj (he.symm.trans he')
    rw [heq]
    exact ⟨fun _ => h0, fun _ => rfl⟩

/-- The tasks enter their loops with nothing pending. -/
theorem start (hths : ∀ t, ths t = .init)
    (hm : ∃ e, m.lookup F.name = some e ∧ Both e.observers ∧ e.count = 0) : F.Balanced m ths := by
  have howed : ∀ t, F.owed t (ths t) = 0 := by
    intro t
    rw [hths t, owed]
    cases F.duty t with
    | none => rfl
    | some d => exact d.owed_init
  refine ⟨fun t d _ => ?_, fun t => by rw [howed t]; exact Nat.zero_le 1, ?_⟩
  · rw [hths t]
    exact d.kept_init
  · obtain ⟨e, he, hobs, hcount⟩ := hm
    exact ⟨e, he, hobs, by rw [hcount, howed, howed]⟩

end Balanced

end Feed

end UavTelemetry
