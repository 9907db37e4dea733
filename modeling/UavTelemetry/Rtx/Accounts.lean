import Mathlib.Tactic.Ring
import UavTelemetry.Rtx.Kernel

/-!
# Accounts of the objects

What the objects of the kernel hold, against the history of what has been returned to the tasks and
posted by interrupt handlers: a semaphore has the tokens that it has been given and not handed out, a
mutex is held as often as it has been locked and not unlocked, by one task at most, and a mailbox
holds the messages that it has received and not handed out, in their order.  With this go the
conditions under which tasks wait: nobody waits for what is there, and a task waits for an object
only in a call about it.

The history is one of calls and returned values.  What it says about the objects is read off from
it: a call of `osSemaphoreRelease` that has returned `osOK` has given a token, whatever the kernel
has done with it.  The accounts speak about the lists of the waiting tasks and about the fields of the
objects, not about the scheduler, so that a switch of tasks leaves them alone.

## Main definitions

* `Effect`, `effects log` : what the history says about the objects.
* `posted log`, `served log` : the requests of interrupt handlers.
* `since o f es` : the sum of `f` over the effects from the last creation or deletion of `o` on.
* `supplied`, `taken`, `locks`, `unlocks`, `sent`, `received` : the totals.
* `Kernel.Sems`, `Kernel.Muts`, `Kernel.Boxes` : the accounts of the semaphores, mutexes and
  mailboxes.
* `Kernel.Sound` : all of them.

## Main results

* `Kernel.Sound.mono` : the accounts of a kernel in which fewer tasks wait.
* `Kernel.Sems.congr`, `Kernel.Sems.note` and the lemmas of the same names for mutexes and mailboxes :
  a call that is about other objects leaves the accounts alone.
-/

namespace UavTelemetry

namespace Rtx

variable {τ ι M : Type}

/-! ### The history -/

/-- What a note says about the objects: a semaphore or mutex has been created, with how many tokens,
or deleted, or an object has received or handed out something. -/
inductive Effect (τ ι M : Type)
  | created (o : Obj ι) (n : ℕ)
  | deleted (m : ι)
  | released (s : ι)
  | taken (t : τ) (s : ι)
  | locked (t : τ) (m : ι)
  | unlocked (t : τ) (m : ι)
  | sent (b : ι) (x : M)
  | received (t : τ) (b : ι) (x : M)
  deriving DecidableEq, Repr

/-- The effect of a note: of a call that has returned, as its caller understands the value, or of a
request that has been served. -/
def Note.effect : Note τ ι M → Option (Effect τ ι M)
  | .returned _ (.semaphoreCreate s count) (.created true) =>
    some (.created (.sem s) (count % 0x10000).toNat)
  | .returned _ (.semaphoreRelease s) .osOK => some (.released s)
  | .returned t (.semaphoreWait s _) (.tokens n) => if 0 < n then some (.taken t s) else none
  | .returned _ (.mutexCreate m) (.created true) => some (.created (.mut m) 0)
  | .returned _ (.mutexDelete m) .osOK => some (.deleted m)
  | .returned t (.mutexWait m _) .osOK => some (.locked t m)
  | .returned t (.mutexRelease m) .osOK => some (.unlocked t m)
  | .returned _ (.messagePut b x _) .osOK => some (.sent b x)
  | .returned t (.messageGet b _) (.osEventMessage x) => some (.received t b x)
  | .served (.scb s) => some (.released s)
  | .served (.mcb b x) => some (.sent b x)
  | _ => none

/-- The request that a handler has posted. -/
def Note.post : Note τ ι M → Option (Request τ ι M)
  | .posted c => some c.request
  | _ => none

/-- The request that has been served. -/
def Note.serve : Note τ ι M → Option (Request τ ι M)
  | .served r => some r
  | _ => none

/-- What the history says about the objects. -/
def effects (log : List (Note τ ι M)) : List (Effect τ ι M) := log.filterMap Note.effect

/-- The requests that interrupt handlers have posted. -/
def posted (log : List (Note τ ι M)) : List (Request τ ι M) := log.filterMap Note.post

/-- The requests that have been served. -/
def served (log : List (Note τ ι M)) : List (Request τ ι M) := log.filterMap Note.serve

/-- The end of a wait for flags says nothing about the objects. -/
@[simp] theorem Note.effect_signal {t : τ} {c : Call τ ι M} {signals : BitVec 32} :
    (Note.returned t c (.osEventSignal signals)).effect = none := by
  cases c <;> rfl

/-- A wait for a semaphore that has been deleted has obtained no token. -/
@[simp] theorem Note.effect_tokens_zero {t : τ} {c : Call τ ι M} :
    (Note.returned t c (.tokens 0)).effect = none := by
  cases c <;> rfl

section log

variable {log : List (Note τ ι M)} {n : Note τ ι M}

@[simp] theorem effects_concat : effects (log ++ [n]) = effects log ++ n.effect.toList := by
  cases h : n.effect <;> simp [effects, h]

@[simp] theorem posted_concat : posted (log ++ [n]) = posted log ++ n.post.toList := by
  cases h : n.post <;> simp [posted, h]

@[simp] theorem served_concat : served (log ++ [n]) = served log ++ n.serve.toList := by
  cases h : n.serve <;> simp [served, h]

end log

variable [DecidableEq τ] [DecidableEq ι]

/-- The effect is the creation or deletion of the object. -/
def Effect.resets (o : Obj ι) : Effect τ ι M → Bool
  | .created o' _ => o' = o
  | .deleted m => .mut m = o
  | _ => false

/-- The object that the effect is about. -/
def Effect.obj : Effect τ ι M → Obj ι
  | .created o _ => o
  | .released s | .taken _ s => .sem s
  | .deleted m | .locked _ m | .unlocked _ m => .mut m
  | .sent b _ | .received _ b _ => .mbx b

/-- The tokens that a semaphore is given. -/
def Effect.supply (s : ι) : Effect τ ι M → ℕ
  | .created o n => if o = .sem s then n else 0
  | .released s' => if s' = s then 1 else 0
  | _ => 0

/-- The tokens that a semaphore hands out. -/
def Effect.take (s : ι) : Effect τ ι M → ℕ
  | .taken _ s' => if s' = s then 1 else 0
  | _ => 0

/-- A task locks a mutex. -/
def Effect.lock (t : τ) (m : ι) : Effect τ ι M → ℕ
  | .locked t' m' => if t' = t ∧ m' = m then 1 else 0
  | _ => 0

/-- A task unlocks a mutex. -/
def Effect.unlock (t : τ) (m : ι) : Effect τ ι M → ℕ
  | .unlocked t' m' => if t' = t ∧ m' = m then 1 else 0
  | _ => 0

/-- The message that a mailbox receives. -/
def Effect.enter (b : ι) : Effect τ ι M → Option M
  | .sent b' x => if b' = b then some x else none
  | _ => none

/-- The message that a mailbox hands out. -/
def Effect.leave (b : ι) : Effect τ ι M → Option M
  | .received _ b' x => if b' = b then some x else none
  | _ => none

/-- The sum of `f` over the effects from the last creation or deletion of the object on. -/
def since (o : Obj ι) (f : Effect τ ι M → ℕ) (es : List (Effect τ ι M)) : ℕ :=
  es.foldl (fun n x => if x.resets o then f x else n + f x) 0

/-- The tokens that a semaphore has been given since its creation. -/
def supplied (s : ι) (es : List (Effect τ ι M)) : ℕ := since (.sem s) (Effect.supply s) es

/-- The tokens that a semaphore has handed out since its creation. -/
def taken (s : ι) (es : List (Effect τ ι M)) : ℕ := since (.sem s) (Effect.take s) es

/-- How often a task has locked a mutex since its creation. -/
def locks (t : τ) (m : ι) (es : List (Effect τ ι M)) : ℕ := since (.mut m) (Effect.lock t m) es

/-- How often a task has unlocked a mutex since its creation. -/
def unlocks (t : τ) (m : ι) (es : List (Effect τ ι M)) : ℕ := since (.mut m) (Effect.unlock t m) es

/-- The messages that have been sent to a mailbox. -/
def sent (b : ι) (es : List (Effect τ ι M)) : List M := es.filterMap (Effect.enter b)

/-- The messages that have been received from a mailbox. -/
def received (b : ι) (es : List (Effect τ ι M)) : List M := es.filterMap (Effect.leave b)

section effects

variable {s m b : ι} {t : τ} {o : Obj ι} {f : Effect τ ι M → ℕ} {es : List (Effect τ ι M)}
  {x : Effect τ ι M}

omit [DecidableEq τ] in
theorem since_concat :
    since o f (es ++ [x]) = if x.resets o then f x else since o f es + f x := by
  simp [since]

omit [DecidableEq τ] in
@[simp] theorem supplied_concat : supplied s (es ++ [x]) =
    if x.resets (.sem s) then x.supply s else supplied s es + x.supply s := since_concat

omit [DecidableEq τ] in
@[simp] theorem taken_concat : taken s (es ++ [x]) =
    if x.resets (.sem s) then x.take s else taken s es + x.take s := since_concat

@[simp] theorem locks_concat : locks t m (es ++ [x]) =
    if x.resets (.mut m) then x.lock t m else locks t m es + x.lock t m := since_concat

@[simp] theorem unlocks_concat : unlocks t m (es ++ [x]) =
    if x.resets (.mut m) then x.unlock t m else unlocks t m es + x.unlock t m := since_concat

omit [DecidableEq τ] in
@[simp] theorem sent_concat : sent b (es ++ [x]) = sent b es ++ (x.enter b).toList := by
  cases h : x.enter b <;> simp [sent, h]

omit [DecidableEq τ] in
@[simp] theorem received_concat :
    received b (es ++ [x]) = received b es ++ (x.leave b).toList := by
  cases h : x.leave b <;> simp [received, h]

omit [DecidableEq τ] in
theorem supplied_of_ne (hx : x.obj ≠ .sem s) : supplied s (es ++ [x]) = supplied s es := by
  cases x <;> simp_all [Effect.obj, Effect.resets, Effect.supply]

omit [DecidableEq τ] in
theorem taken_of_ne (hx : x.obj ≠ .sem s) : taken s (es ++ [x]) = taken s es := by
  cases x <;> simp_all [Effect.obj, Effect.resets, Effect.take]

theorem locks_of_ne (hx : x.obj ≠ .mut m) : locks t m (es ++ [x]) = locks t m es := by
  cases x <;> simp_all [Effect.obj, Effect.resets, Effect.lock]

theorem unlocks_of_ne (hx : x.obj ≠ .mut m) : unlocks t m (es ++ [x]) = unlocks t m es := by
  cases x <;> simp_all [Effect.obj, Effect.resets, Effect.unlock]

omit [DecidableEq τ] in
theorem sent_of_ne (hx : x.obj ≠ .mbx b) : sent b (es ++ [x]) = sent b es := by
  cases x <;> simp_all [Effect.obj, Effect.enter]

omit [DecidableEq τ] in
theorem received_of_ne (hx : x.obj ≠ .mbx b) : received b (es ++ [x]) = received b es := by
  cases x <;> simp_all [Effect.obj, Effect.leave]

omit [DecidableEq τ] [DecidableEq ι] in
/-- A total about the object does not change by effects that are about others. -/
theorem append_of_ne {α : Type} {total : List (Effect τ ι M) → α}
    (htotal : ∀ (es) (x : Effect τ ι M), x.obj ≠ o → total (es ++ [x]) = total es)
    {xs : List (Effect τ ι M)} (hxs : ∀ x ∈ xs, x.obj ≠ o) : total (es ++ xs) = total es := by
  induction xs generalizing es with
  | nil => rw [List.append_nil]
  | cons x xs ih =>
    rw [List.forall_mem_cons] at hxs
    rw [List.append_cons, ih hxs.2, htotal es x hxs.1]

end effects

/-! ### The accounts -/

namespace Kernel

variable {k k' : Kernel τ ι M} {q q' : Option (Obj ι) → List τ} {es es' : List (Effect τ ι M)}

/-- The accounts of the semaphores.  The counter of a semaphore has sixteen bits; `lost` is how
often it has run over. -/
structure Sems (k : Kernel τ ι M) (q : Option (Obj ι) → List τ) (es : List (Effect τ ι M)) :
    Prop where
  /-- While tasks wait for a semaphore, it has no token. -/
  empty : ∀ s, q (some (.sem s)) ≠ [] → k.tokens s = 0
  count : ∀ s, ∃ lost, k.tokens s + taken s es + 0x10000 * lost = supplied s es

/-- How often a task holds a mutex that exists. -/
def holds (k : Kernel τ ι M) (t : τ) (m : ι) : ℕ :=
  if k.live (.mut m) = true ∧ k.owner m = some t then k.level m else 0

omit [DecidableEq ι] in
theorem holds_of_live {t : τ} {m : ι} (h : k.live (.mut m) = true) :
    k.holds t m = if k.owner m = some t then k.level m else 0 := by
  simp [holds, h]

/-- The accounts of the mutexes. -/
structure Muts (k : Kernel τ ι M) (q : Option (Obj ι) → List τ) (es : List (Effect τ ι M)) :
    Prop where
  /-- While tasks wait for a mutex, it is locked. -/
  held : ∀ m, q (some (.mut m)) ≠ [] → k.level m ≠ 0
  owned : ∀ m, k.level m ≠ 0 → ∃ t, k.owner m = some t
  nesting : ∀ t m, locks t m es = unlocks t m es + k.holds t m

/-- The accounts of the mailboxes. -/
structure Boxes (k : Kernel τ ι M) (q : Option (Obj ι) → List τ) (es : List (Effect τ ι M)) :
    Prop where
  fits : ∀ b, k.live (.mbx b) = true → (k.mbx b).Fits
  unused : ∀ b, k.live (.mbx b) = false → (k.mbx b).count = 0
  /-- Tasks wait for a message when there is none, and to send one when there is no room. -/
  blocked : ∀ b, q (some (.mbx b)) ≠ [] →
    (k.mbxState b = 1 ∧ (k.mbx b).count = 0) ∨
      (k.mbxState b = 2 ∧ (k.mbx b).count = (k.mbx b).size)
  fifo : ∀ b, received b es ++ (k.mbx b).contents = sent b es

/-- The call in which a task waits for an object. -/
def Asks (k : Kernel τ ι M) (t : τ) : Obj ι → Prop
  | .sem s => ∃ millisec, k.pending t = .semaphoreWait s millisec
  | .mut m => ∃ millisec, k.pending t = .mutexWait m millisec
  | .mbx b =>
    (k.mbxState b = 1 → ∃ millisec, k.pending t = .messageGet b millisec) ∧
      (k.mbxState b = 2 → ∃ millisec, k.pending t = .messagePut b (k.msg t) millisec)

/-- The accounts of all objects. -/
structure Sound (k : Kernel τ ι M) (q : Option (Obj ι) → List τ) (es : List (Effect τ ι M)) :
    Prop where
  /-- Nobody waits for an object that does not exist. -/
  dead : ∀ o, k.live o = false → q (some o) = []
  asked : ∀ o, ∀ t ∈ q (some o), k.Asks t o
  sems : k.Sems q es
  muts : k.Muts q es
  boxes : k.Boxes q es

omit [DecidableEq τ] in
theorem Sems.congr (h : k.Sems q es) (htokens : k'.tokens = k.tokens)
    (hq : ∀ s, q' (some (.sem s)) ⊆ q (some (.sem s))) : k'.Sems q' es := by
  refine ⟨fun s hs => ?_, fun s => ?_⟩
  · rw [htokens]
    exact h.empty s fun hnil => hs (List.subset_nil.1 (hnil ▸ hq s))
  · rw [htokens]
    exact h.count s

omit [DecidableEq τ] in
theorem Sems.note {x : Effect τ ι M} (h : k.Sems q es) (hx : ∀ s, x.obj ≠ .sem s) :
    k.Sems q (es ++ [x]) := by
  refine ⟨h.empty, fun s => ?_⟩
  rw [taken_of_ne (hx s), supplied_of_ne (hx s)]
  exact h.count s

theorem Muts.congr (h : k.Muts q es) (hlive : ∀ m, k'.live (.mut m) = k.live (.mut m))
    (hlevel : k'.level = k.level) (howner : k'.owner = k.owner)
    (hq : ∀ m, q' (some (.mut m)) ⊆ q (some (.mut m))) : k'.Muts q' es := by
  refine ⟨fun m hm => ?_, fun m hm => ?_, fun t m => ?_⟩
  · rw [hlevel]
    exact h.held m fun hnil => hm (List.subset_nil.1 (hnil ▸ hq m))
  · rw [hlevel] at hm
    rw [howner]
    exact h.owned m hm
  · rw [holds, hlive, howner, hlevel]
    exact h.nesting t m

theorem Muts.note {x : Effect τ ι M} (h : k.Muts q es) (hx : ∀ m, x.obj ≠ .mut m) :
    k.Muts q (es ++ [x]) := by
  refine ⟨h.held, h.owned, fun t m => ?_⟩
  rw [locks_of_ne (hx m), unlocks_of_ne (hx m)]
  exact h.nesting t m

omit [DecidableEq τ] in
theorem Boxes.congr (h : k.Boxes q es) (hlive : ∀ b, k'.live (.mbx b) = k.live (.mbx b))
    (hstate : k'.mbxState = k.mbxState) (hmbx : k'.mbx = k.mbx)
    (hq : ∀ b, q' (some (.mbx b)) ⊆ q (some (.mbx b))) : k'.Boxes q' es := by
  refine ⟨fun b hb => ?_, fun b hb => ?_, fun b hb => ?_, fun b => ?_⟩
  · rw [hlive] at hb
    rw [hmbx]
    exact h.fits b hb
  · rw [hlive] at hb
    rw [hmbx]
    exact h.unused b hb
  · rw [hstate, hmbx]
    exact h.blocked b fun hnil => hb (List.subset_nil.1 (hnil ▸ hq b))
  · rw [hmbx]
    exact h.fifo b

omit [DecidableEq τ] in
theorem Boxes.note {x : Effect τ ι M} (h : k.Boxes q es) (hx : ∀ b, x.obj ≠ .mbx b) :
    k.Boxes q (es ++ [x]) := by
  refine ⟨h.fits, h.unused, h.blocked, fun b => ?_⟩
  rw [received_of_ne (hx b), sent_of_ne (hx b)]
  exact h.fifo b

/-- The accounts after a call that is about one mutex. -/
theorem Muts.change {m : ι} {n : ℕ} {w : Option τ} (h : k.Muts q es)
    (hlive : ∀ m', m' ≠ m → k'.live (.mut m') = k.live (.mut m'))
    (hlevel : k'.level = Function.update k.level m n) (howner : k'.owner = Function.update k.owner m w)
    (hothers : ∀ t m', m' ≠ m → locks t m' es' = locks t m' es ∧ unlocks t m' es' = unlocks t m' es)
    (hq : ∀ m', m' ≠ m → q' (some (.mut m')) ⊆ q (some (.mut m')))
    (hcreated : k'.live (.mut m) = true) (hheld : q' (some (.mut m)) ≠ [] → n ≠ 0)
    (howned : n ≠ 0 → ∃ t, w = some t)
    (hnesting : ∀ t, locks t m es' = unlocks t m es' + if w = some t then n else 0) :
    k'.Muts q' es' := by
  refine ⟨fun m' hm => ?_, fun m' hm => ?_, fun t m' => ?_⟩ <;> by_cases heq : m' = m
  · subst heq
    rw [hlevel, Function.update_self]
    exact hheld hm
  · rw [hlevel, Function.update_of_ne heq]
    exact h.held m' fun hnil => hm (List.subset_nil.1 (hnil ▸ hq m' heq))
  · subst heq
    rw [hlevel, Function.update_self] at hm
    rw [howner, Function.update_self]
    exact howned hm
  · rw [hlevel, Function.update_of_ne heq] at hm
    rw [howner, Function.update_of_ne heq]
    exact h.owned m' hm
  · subst heq
    rw [holds_of_live hcreated, hlevel, howner, Function.update_self, Function.update_self]
    exact hnesting t
  · rw [(hothers t m' heq).1, (hothers t m' heq).2, holds, hlive m' heq, hlevel, howner,
      Function.update_of_ne heq, Function.update_of_ne heq]
    exact h.nesting t m'

omit [DecidableEq τ] in
/-- The accounts after a call that is about one mailbox. -/
theorem Boxes.change {b : ι} {r : Ring M} (h : k.Boxes q es)
    (hlive : ∀ b', b' ≠ b → k'.live (.mbx b') = k.live (.mbx b'))
    (hstate : ∀ b', b' ≠ b → k'.mbxState b' = k.mbxState b') (hmbx : k'.mbx = Function.update k.mbx b r)
    (hothers : ∀ b', b' ≠ b → received b' es' = received b' es ∧ sent b' es' = sent b' es)
    (hq : ∀ b', b' ≠ b → q' (some (.mbx b')) ⊆ q (some (.mbx b')))
    (hcreated : k'.live (.mbx b) = true) (hfits : r.Fits)
    (hblocked : q' (some (.mbx b)) ≠ [] →
      (k'.mbxState b = 1 ∧ r.count = 0) ∨ (k'.mbxState b = 2 ∧ r.count = r.size))
    (hfifo : received b es' ++ r.contents = sent b es') : k'.Boxes q' es' := by
  have hself : k'.mbx b = r := by rw [hmbx, Function.update_self]
  have hne : ∀ b', b' ≠ b → k'.mbx b' = k.mbx b' := fun b' hb' => by
    rw [hmbx, Function.update_of_ne hb']
  refine ⟨fun b' hb' => ?_, fun b' hb' => ?_, fun b' hb' => ?_, fun b' => ?_⟩ <;>
    by_cases heq : b' = b
  · subst heq
    rwa [hself]
  · rw [hne b' heq]
    exact h.fits b' (hlive b' heq ▸ hb')
  · subst heq
    rw [hcreated] at hb'
    cases hb'
  · rw [hne b' heq]
    exact h.unused b' (hlive b' heq ▸ hb')
  · subst heq
    rw [hself]
    exact hblocked hb'
  · rw [hne b' heq, hstate b' heq]
    exact h.blocked b' fun hnil => hb' (List.subset_nil.1 (hnil ▸ hq b' heq))
  · subst heq
    rw [hself]
    exact hfifo
  · rw [hne b' heq, (hothers b' heq).1, (hothers b' heq).2]
    exact h.fifo b'

/-- The fields of the objects are the same, and so are the calls in which tasks wait. -/
structure SameObjects (k k' : Kernel τ ι M) : Prop where
  live : k'.live = k.live
  tokens : k'.tokens = k.tokens
  level : k'.level = k.level
  owner : k'.owner = k.owner
  mbxState : k'.mbxState = k.mbxState
  mbx : k'.mbx = k.mbx
  msg : k'.msg = k.msg
  pending : k'.pending = k.pending

/-- No request has been posted or served, and no call has been made. -/
structure SameRequests (k k' : Kernel τ ι M) : Prop where
  psq : k'.psq = k.psq
  pending : k'.pending = k.pending
  posted : posted k'.log = posted k.log
  served : served k'.log = served k.log

/-- Nothing has happened to the objects, neither in the kernel nor in its history. -/
structure Neutral (k k' : Kernel τ ι M) : Prop extends k.SameObjects k', k.SameRequests k' where
  osRunning : k'.osRunning = k.osRunning
  effects : effects k'.log = effects k.log

omit [DecidableEq τ] [DecidableEq ι] in
theorem SameRequests.trans {k₁ : Kernel τ ι M} (h₁ : k.SameRequests k₁) (h₂ : k₁.SameRequests k') :
    k.SameRequests k' :=
  ⟨h₂.psq.trans h₁.psq, h₂.pending.trans h₁.pending, h₂.posted.trans h₁.posted,
    h₂.served.trans h₁.served⟩

omit [DecidableEq τ] [DecidableEq ι] in
/-- What has happened since an earlier state. -/
theorem SameRequests.since {k₁ : Kernel τ ι M} (h₂ : k₁.SameRequests k') (h₁ : k.SameRequests k₁) :
    k.SameRequests k' :=
  h₁.trans h₂

omit [DecidableEq ι] in
/-- A call has returned. -/
theorem SameRequests.ret (h : k.SameRequests k') (t : τ) (v : Ret M) :
    k.SameRequests (k'.rtRetVal t v) := by
  refine ⟨h.psq, h.pending, ?_, ?_⟩
  · show Rtx.posted (k'.log ++ [_]) = _
    rw [posted_concat, h.posted]
    exact List.append_nil _
  · show Rtx.served (k'.log ++ [_]) = _
    rw [served_concat, h.served]
    exact List.append_nil _

omit [DecidableEq ι] in
/-- What the history says about the objects after a call has returned. -/
theorem effects_rtRetVal {t : τ} {c : Call τ ι M} {v : Ret M} (hc : k.pending t = c) :
    Rtx.effects (k.rtRetVal t v).log =
      Rtx.effects k.log ++ (Note.returned t c v).effect.toList :=
  hc ▸ effects_concat

omit [DecidableEq ι] in
/-- A call has returned a value that says nothing about the objects. -/
theorem Neutral.ret {t : τ} {v : Ret M} (h : k.Neutral k')
    (hv : (Note.returned t (k'.pending t) v).effect = none) : k.Neutral (k'.rtRetVal t v) :=
  { h.toSameObjects, h.toSameRequests.ret t v with
    osRunning := h.osRunning
    effects := by rw [effects_rtRetVal rfl, hv, h.effects]; exact List.append_nil _ }

section asks

variable {t : τ} {s m b : ι}

omit [DecidableEq ι] in
/-- A task that has waited for a semaphore returns with a token. -/
theorem effects_grant (h : k.Asks t (.sem s)) :
    Rtx.effects (k.rtRetVal t (.tokens 1)).log = Rtx.effects k.log ++ [.taken t s] := by
  obtain ⟨millisec, hpending⟩ := h
  exact effects_rtRetVal hpending

omit [DecidableEq ι] in
/-- A task that has waited for a mutex returns with it. -/
theorem effects_handOver (h : k.Asks t (.mut m)) :
    Rtx.effects (k.rtRetVal t .osOK).log = Rtx.effects k.log ++ [.locked t m] := by
  obtain ⟨millisec, hpending⟩ := h
  exact effects_rtRetVal hpending

omit [DecidableEq ι] in
/-- A task that has waited for a message returns with one. -/
theorem effects_pass {x : M} (h : k.Asks t (.mbx b)) (hstate : k.mbxState b = 1) :
    Rtx.effects (k.rtRetVal t (.osEventMessage x)).log =
      Rtx.effects k.log ++ [.received t b x] := by
  obtain ⟨millisec, hpending⟩ := h.1 hstate
  exact effects_rtRetVal hpending

omit [DecidableEq ι] in
/-- A task that has waited to send its message returns when the message has been accepted. -/
theorem effects_admit (h : k.Asks t (.mbx b)) (hstate : k.mbxState b = 2) :
    Rtx.effects (k.rtRetVal t .osOK).log = Rtx.effects k.log ++ [.sent b (k.msg t)] := by
  obtain ⟨millisec, hpending⟩ := h.2 hstate
  exact effects_rtRetVal hpending

end asks

/-- **Fewer tasks wait**, and the objects are as before. -/
theorem Sound.mono (h : k.Sound q es) (hk : k.SameObjects k')
    (hq : ∀ o, q' (some o) ⊆ q (some o)) : k'.Sound q' es := by
  refine ⟨fun o ho => ?_, fun o t ht => ?_, h.sems.congr hk.tokens fun s => hq _,
    h.muts.congr (fun _ => hk.live ▸ rfl) hk.level hk.owner fun m => hq _,
    h.boxes.congr (fun _ => hk.live ▸ rfl) hk.mbxState hk.mbx fun b => hq _⟩
  · rw [hk.live] at ho
    exact List.subset_nil.1 (h.dead o ho ▸ hq o)
  · have hasked := h.asked o t (hq o ht)
    cases o <;> simpa only [Asks, hk.pending, hk.mbxState, hk.msg] using hasked

omit [DecidableEq τ] [DecidableEq ι] in
/-- Another task has been chosen. -/
theorem neutral_switch (k : Kernel τ ι M) (s : Sched τ ι) : k.Neutral { k with toSched := s } :=
  ⟨⟨rfl, rfl, rfl, rfl, rfl, rfl, rfl, rfl⟩, rfl, rfl, rfl, rfl, rfl⟩

omit [DecidableEq τ] [DecidableEq ι] in
/-- Requests have been posted or served. -/
theorem sameObjects_requests (k : Kernel τ ι M) (psq : Ring (Request τ ι M))
    (log : List (Note τ ι M)) : k.SameObjects { k with psq := psq, log := log } :=
  ⟨rfl, rfl, rfl, rfl, rfl, rfl, rfl, rfl⟩

end Kernel

end Rtx

end UavTelemetry
