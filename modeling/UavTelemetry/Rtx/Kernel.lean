import UavTelemetry.Data.Ring
import UavTelemetry.Rtx.Scheduling

/-!
# The kernel

The objects of the kernel, for all tasks together: event flags (`rt_Event.c`), semaphores
(`rt_Semaphore.c`), mutexes (`rt_Mutex.c`) and mailboxes (`rt_Mailbox.c`), and the post service queue
through which interrupts reach them (`rt_List.c`, `rt_System.c`).

## Main definitions

* `Kernel` : the state, with the history `log` of what service calls have returned and of what
  interrupt handlers have posted.
* `Kernel.rtEvtSet`, `Kernel.rtSemSend`, `Kernel.rtMutRelease`, `Kernel.rtMbxSend` and the functions
  next to them : the objects.
* `Kernel.rtPopReq` : the handler of posted requests.
-/

namespace UavTelemetry

namespace Rtx

/-- The errors for which `os_error` is called; it does not return. -/
inductive OsError
  | fifoOvf
  | mbxOvf
  deriving DecidableEq, Repr

/-- Why the kernel does not go on. -/
inductive Stop
  | fault (f : Fault)
  | osError (code : OsError)
  deriving DecidableEq, Repr

/-- A request in the post service queue: the control block and the argument. -/
inductive Request (τ ι M : Type)
  | tcb (t : τ) (flags : Flags)
  | mcb (b : ι) (x : M)
  | scb (s : ι)
  deriving DecidableEq, Repr

/-- What a service call returns. -/
inductive Ret (M : Type)
  | osOK
  | osErrorParameter
  | osErrorResource
  | osErrorTimeoutResource
  | osErrorValue
  | osEventTimeout
  | osEventSignal (signals : BitVec 32)
  | osEventMessage (x : M)
  | created (ok : Bool)
  | signals (flags : BitVec 32)
  | tokens (n : ℤ)
  deriving DecidableEq, Repr

/-- The service calls of a task. -/
inductive Call (τ ι M : Type)
  | kernelStart
  | threadCreate (t : τ) (tpriority : ℤ)
  | threadYield
  | threadSetPriority (t : τ) (priority : ℤ)
  | delay (millisec : ℕ)
  | signalSet (t : τ) (signals : BitVec 32)
  | signalClear (t : τ) (signals : BitVec 32)
  | signalWait (signals : BitVec 32) (millisec : ℕ)
  | mutexCreate (m : ι)
  | mutexWait (m : ι) (millisec : ℕ)
  | mutexRelease (m : ι)
  | mutexDelete (m : ι)
  | semaphoreCreate (s : ι) (count : ℤ)
  | semaphoreWait (s : ι) (millisec : ℕ)
  | semaphoreRelease (s : ι)
  | semaphoreDelete (s : ι)
  | messageCreate (b : ι) (queueSz : ℕ)
  | messagePut (b : ι) (x : M) (millisec : ℕ)
  | messageGet (b : ι) (millisec : ℕ)
  deriving DecidableEq, Repr

/-- The calls of interrupt handlers. -/
inductive IsrCall (τ ι M : Type)
  | signalSet (t : τ) (signals : BitVec 32)
  | semaphoreRelease (s : ι)
  | messagePut (b : ι) (x : M)
  deriving DecidableEq, Repr

/-- The request that the call of a handler posts. -/
def IsrCall.request {τ ι M : Type} : IsrCall τ ι M → Request τ ι M
  | .signalSet t signals => .tcb t (signals.setWidth 16)
  | .semaphoreRelease s => .scb s
  | .messagePut b x => .mcb b x

/-- The history, as the callers see it: a service call has set its return value, the call of a
handler has been accepted, and a posted request has been served. -/
inductive Note (τ ι M : Type)
  | returned (t : τ) (c : Call τ ι M) (v : Ret M)
  | posted (c : IsrCall τ ι M)
  | served (r : Request τ ι M)
  deriving DecidableEq, Repr

/-- The state of the kernel. -/
structure Kernel (τ ι M : Type) extends Sched τ ι where
  /-- Event flags. -/
  events : τ → Flags
  /-- Wait flags. -/
  waits : τ → Flags
  /-- The message that a task waits to send. -/
  msg : τ → M
  /-- The last service call of a task; its arguments are in the registers of the task. -/
  pending : τ → Call τ ι M
  /-- The registers in which the pending service call of a task returns. -/
  ret : τ → Ret M
  /-- `cb_type ≠ 0`: the object has been created. -/
  live : Obj ι → Bool
  /-- Semaphore tokens. -/
  tokens : ι → ℕ
  /-- Call nesting level of a mutex. -/
  level : ι → ℕ
  /-- Mutex owner task. -/
  owner : ι → Option τ
  /-- Owner task default priority. -/
  mutPrio : ι → ℕ
  /-- State flag variable of a mailbox: `1` when tasks wait for a message, `2` to send one. -/
  mbxState : ι → ℕ
  /-- The messages of a mailbox. -/
  mbx : ι → Ring M
  /-- `os_psq`: the post service queue. -/
  psq : Ring (Request τ ι M)
  /-- `os_active_TCB`: the threads by their numbers, which start at one. -/
  activeTcb : ℕ → Option τ
  osRunning : Bool
  log : List (Note τ ι M)

namespace Kernel

variable {τ ι M : Type} [DecidableEq τ] [DecidableEq ι]

/-- A function of the scheduler is called. -/
def sched (k : Kernel τ ι M) : Except Fault (Sched τ ι) → Except Stop (Kernel τ ι M)
  | .ok s => .ok { k with toSched := s }
  | .error f => .error (.fault f)

def note (k : Kernel τ ι M) (n : Note τ ι M) : Kernel τ ι M := { k with log := k.log ++ [n] }

/-- `rt_ret_val`: the return value of the pending call of a task is set. -/
def rtRetVal (k : Kernel τ ι M) (t : τ) (v : Ret M) : Kernel τ ι M :=
  { k with ret := Function.update k.ret t v }.note (.returned t (k.pending t) v)

/-- A task waits for the object. -/
def waited (k : Kernel τ ι M) (o : Obj ι) : Bool := (k.links.lnk (.obj o)).isSome

/-- The first task that waits for an object is taken out of the lists. -/
def takeWaiter (k : Kernel τ ι M) (o : Obj ι) : Except Stop (τ × Kernel τ ι M) :=
  match k.toSched.takeWaiter o with
  | .ok (t, s) => .ok (t, { k with toSched := s })
  | .error f => .error (.fault f)

/-! ### Event flags -/

/-- How a task comes to wait for flags. -/
def blockEvt [Fintype τ] (k : Kernel τ ι M) (waitFlags : Flags) (timeout : ℕ) (st : TcbState) :
    Except Stop (Bool × Kernel τ ι M) := do
  let k := { k with waits := Function.update k.waits k.run waitFlags }
  return (false, ← k.sched (k.toSched.rtBlock timeout st))

/-- `rt_evt_wait`: the result says if the wait is over at once. -/
def rtEvtWait [Fintype τ] (k : Kernel τ ι M) (waitFlags : Flags) (timeout : ℕ) (andWait : Bool) :
    Except Stop (Bool × Kernel τ ι M) :=
  let events := k.events k.run
  let cleared := Function.update k.events k.run (events &&& ~~~waitFlags)
  if andWait then
    if events &&& waitFlags = waitFlags then .ok (true, { k with events := cleared })
    else k.blockEvt waitFlags timeout .waitAnd
  else
    if events &&& waitFlags ≠ 0 then
      .ok (true,
        { k with waits := Function.update k.waits k.run (events &&& waitFlags), events := cleared })
    else k.blockEvt waitFlags timeout .waitOr

/-- The label `wkup` of `rt_evt_set` and `rdy` of `rt_evt_psh`, up to the dispatch. -/
def evtReady (k : Kernel τ ι M) (t : τ) (eventFlags : Flags) : Kernel τ ι M :=
  { k with
    toSched := (k.toSched.rtRmvDly t).setState t .ready
    events := Function.update k.events t (k.events t &&& ~~~eventFlags) }.rtRetVal t
      (.osEventSignal ((k.waits t).setWidth 32))

/-- What `rt_evt_set` and `rt_evt_psh` have in common: the flags are set; the result says if the
wait of the task is over. -/
def evtArrive (k : Kernel τ ι M) (eventFlags : Flags) (t : τ) : Bool × Kernel τ ι M :=
  let k := { k with events := Function.update k.events t (k.events t ||| eventFlags) }
  let eventFlags := k.waits t
  if k.state t = .waitAnd ∧ k.events t &&& eventFlags = eventFlags then
    (true, k.evtReady t eventFlags)
  else if k.state t = .waitOr ∧ k.events t &&& eventFlags ≠ 0 then
    (true, { k with waits := Function.update k.waits t (eventFlags &&& k.events t) }.evtReady t
      eventFlags)
  else (false, k)

/-- `rt_evt_set`: set event flags of a task. -/
def rtEvtSet [Fintype τ] (k : Kernel τ ι M) (eventFlags : Flags) (t : τ) :
    Except Stop (Kernel τ ι M) :=
  let r := k.evtArrive eventFlags t
  if r.1 then r.2.sched (r.2.toSched.rtDispatch (some t)) else .ok r.2

/-- `rt_evt_psh`: the same for a posted request. -/
def rtEvtPsh [Fintype τ] (k : Kernel τ ι M) (setFlags : Flags) (t : τ) :
    Except Stop (Kernel τ ι M) :=
  let r := k.evtArrive setFlags t
  if r.1 then r.2.sched (r.2.toSched.rtPutPrio .rdy t) else .ok r.2

/-- `rt_evt_clr`: clear event flags of a task. -/
def rtEvtClr (k : Kernel τ ι M) (clearFlags : Flags) (t : τ) : Kernel τ ι M :=
  { k with events := Function.update k.events t (k.events t &&& ~~~clearFlags) }

/-! ### Semaphores -/

/-- `rt_sem_init`. -/
def rtSemInit (k : Kernel τ ι M) (s : ι) (tokenCount : ℕ) : Kernel τ ι M :=
  { k with
    live := Function.update k.live (.sem s) true
    links := { k.links with lnk := Function.update k.links.lnk (.obj (.sem s)) none }
    tokens := Function.update k.tokens s tokenCount }

/-- A waiting task obtains the token: the common part of `rt_sem_send` and `rt_sem_psh`. -/
def semGrant (k : Kernel τ ι M) (s : ι) : Except Stop (τ × Kernel τ ι M) := do
  let r ← k.takeWaiter (.sem s)
  return (r.1, r.2.rtRetVal r.1 (.tokens 1))

/-- The token is stored. -/
def semStore (k : Kernel τ ι M) (s : ι) : Kernel τ ι M :=
  { k with tokens := Function.update k.tokens s (addU16 (k.tokens s) 1) }

/-- `rt_sem_send`: return a token to the semaphore. -/
def rtSemSend [Fintype τ] (k : Kernel τ ι M) (s : ι) : Except Stop (Kernel τ ι M) :=
  if k.waited (.sem s) then do
    let r ← k.semGrant s
    r.2.sched (r.2.toSched.rtDispatch (some r.1))
  else .ok (k.semStore s)

/-- `rt_sem_psh`: the same for a posted request. -/
def rtSemPsh [Fintype τ] (k : Kernel τ ι M) (s : ι) : Except Stop (Kernel τ ι M) :=
  if k.waited (.sem s) then do
    let r ← k.semGrant s
    r.2.sched (r.2.toSched.makeReady r.1)
  else .ok (k.semStore s)

/-- `rt_sem_wait`: obtain a token, possibly wait for it; the result says if there was one. -/
def rtSemWait [Fintype τ] (k : Kernel τ ι M) (s : ι) (timeout : ℕ) :
    Except Stop (Bool × Kernel τ ι M) :=
  if k.tokens s ≠ 0 then
    .ok (true, { k with tokens := Function.update k.tokens s (k.tokens s - 1) })
  else if timeout = 0 then .ok (false, k)
  else do return (false, ← k.sched (k.toSched.waitFor (.sem s) timeout))

/-- The loop of `rt_sem_delete` and `rt_mut_delete`: all waiting tasks become ready. -/
def drain [Fintype τ] (o : Obj ι) (v : Ret M) : ℕ → Kernel τ ι M → Except Stop (Kernel τ ι M)
  | 0, _ => .error (.fault .diverges)
  | fuel + 1, k =>
    if k.waited o then do
      let r ← k.takeWaiter o
      let k := r.2.rtRetVal r.1 v
      drain o v fuel (← k.sched (k.toSched.makeReady r.1))
    else .ok k

/-- `rt_sem_delete`. -/
def rtSemDelete [Fintype τ] (k : Kernel τ ι M) (s : ι) : Except Stop (Kernel τ ι M) := do
  let k ← drain (.sem s) (.tokens 0) (Fintype.card τ + 1) k
  let k ← k.sched k.toSched.giveWayIfAny
  return { k with live := Function.update k.live (.sem s) false }

/-! ### Mutexes -/

/-- `rt_mut_init`. -/
def rtMutInit (k : Kernel τ ι M) (m : ι) : Kernel τ ι M :=
  { k with
    live := Function.update k.live (.mut m) true
    links := { k.links with lnk := Function.update k.links.lnk (.obj (.mut m)) none }
    mutPrio := Function.update k.mutPrio m 0
    level := Function.update k.level m 0
    owner := Function.update k.owner m none }

/-- The priority of the owner is set, and the lists are sorted again if `resort`. -/
def setOwnerPrio [Fintype τ] (k : Kernel τ ι M) (m : ι) (prio : ℕ) (resort : τ → Bool) :
    Except Stop (Kernel τ ι M) :=
  match k.owner m with
  | none => .error (.fault .nullPointer)
  | some t =>
    let s := { k.toSched with prio := Function.update k.prio t prio }
    if resort t then k.sched (s.rtResortPrio t) else .ok { k with toSched := s }

/-- The start of `rt_mut_delete`: the priority of the owner is restored. -/
def restoreOwner [Fintype τ] (k : Kernel τ ι M) (m : ι) : Except Stop (Kernel τ ι M) :=
  if k.level m ≠ 0 then k.setOwnerPrio m (k.mutPrio m) fun t => t ≠ k.run else .ok k

/-- `rt_mut_delete`. -/
def rtMutDelete [Fintype τ] (k : Kernel τ ι M) (m : ι) : Except Stop (Kernel τ ι M) := do
  let k ← k.restoreOwner m
  let k ← drain (.mut m) .osOK (Fintype.card τ + 1) k
  let k ← k.sched k.toSched.giveWayIfAny
  return { k with live := Function.update k.live (.mut m) false }

/-- The owner has released the mutex: a waiting task becomes the owner. -/
def mutPass [Fintype τ] (k : Kernel τ ι M) (m : ι) : Except Stop (Kernel τ ι M) := do
  let r ← k.takeWaiter (.mut m)
  let k := r.2.rtRetVal r.1 .osOK
  let k :=
    { k with
      level := Function.update k.level m 1
      owner := Function.update k.owner m (some r.1)
      mutPrio := Function.update k.mutPrio m (k.prio r.1) }
  k.sched (k.toSched.handOver r.1)

/-- No task waits for the mutex that has been released: the running task gives way to one of a
higher priority than its own one. -/
def mutFree [Fintype τ] (k : Kernel τ ι M) : Except Stop (Kernel τ ι M) :=
  k.sched do k.toSched.giveWay (← k.toSched.rtRdyPrio)

/-- `rt_mut_release`: the result says if the running task is the owner. -/
def rtMutRelease [Fintype τ] (k : Kernel τ ι M) (m : ι) : Except Stop (Bool × Kernel τ ι M) :=
  if k.level m = 0 ∨ k.owner m ≠ some k.run then .ok (false, k)
  else
    let k := { k with level := Function.update k.level m (k.level m - 1) }
    if k.level m ≠ 0 then .ok (true, k)
    else do
      let k := { k with prio := Function.update k.prio k.run (k.mutPrio m) }
      return (true, ← if k.waited (.mut m) then k.mutPass m else k.mutFree)

/-- Priority inheritance: the priority of the owner is raised to that of the running task. -/
def raiseOwner [Fintype τ] (k : Kernel τ ι M) (m : ι) : Except Stop (Kernel τ ι M) :=
  if k.mutPrio m < k.prio k.run then k.setOwnerPrio m (k.prio k.run) fun _ => true else .ok k

/-- `rt_mut_wait`: wait for the mutex; the result says if the running task has got it. -/
def rtMutWait [Fintype τ] (k : Kernel τ ι M) (m : ι) (timeout : ℕ) :
    Except Stop (Bool × Kernel τ ι M) :=
  let inc := Function.update k.level m (addU16 (k.level m) 1)
  if k.level m = 0 then
    .ok (true,
      { k with
        owner := Function.update k.owner m (some k.run)
        mutPrio := Function.update k.mutPrio m (k.prio k.run)
        level := inc })
  else if k.owner m = some k.run then .ok (true, { k with level := inc })
  else if timeout = 0 then .ok (false, k)
  else do
    let k ← k.raiseOwner m
    return (false, ← k.sched (k.toSched.waitFor (.mut m) timeout))

/-! ### Mailboxes -/

/-- `rt_mbx_init`, for a mailbox that has room for `size` messages. -/
def rtMbxInit (k : Kernel τ ι M) (b : ι) (size : ℕ) : Kernel τ ι M :=
  { k with
    live := Function.update k.live (.mbx b) true
    links := { k.links with lnk := Function.update k.links.lnk (.obj (.mbx b)) none }
    mbxState := Function.update k.mbxState b 0
    mbx := Function.update k.mbx b
      { k.mbx b with first := 0, last := 0, count := 0, size := size } }

/-- The messages of a mailbox are changed. -/
def setMbx (k : Kernel τ ι M) (b : ι) (r : Ring M) : Kernel τ ι M :=
  { k with mbx := Function.update k.mbx b r }

/-- How the running task waits for a mailbox; the first one leaves its reason in the state. -/
def mbxBlock [Fintype τ] (k : Kernel τ ι M) (b : ι) (state : ℕ) (timeout : ℕ) :
    Except Stop (Kernel τ ι M) :=
  let k :=
    { k with
      mbxState := if k.waited (.mbx b) then k.mbxState else Function.update k.mbxState b state }
  k.sched (k.toSched.waitFor (.mbx b) timeout)

/-- A message is passed to a waiting task: the common part of `rt_mbx_send` and `rt_mbx_psh`. -/
def mbxPass (k : Kernel τ ι M) (b : ι) (x : M) : Except Stop (τ × Kernel τ ι M) := do
  let r ← k.takeWaiter (.mbx b)
  return (r.1, r.2.rtRetVal r.1 (.osEventMessage x))

/-- A message of a waiting task enters the mailbox: the common part of `rt_mbx_wait` and
`rt_mbx_psh`. -/
def mbxAdmit (k : Kernel τ ι M) (b : ι) : Except Stop (τ × Kernel τ ι M) := do
  let r ← k.takeWaiter (.mbx b)
  let x := r.2.msg r.1
  return (r.1, (r.2.rtRetVal r.1 .osOK).setMbx b ((r.2.mbx b).put x))

/-- `rt_mbx_send`: send a message to the mailbox; the result says if it was accepted. -/
def rtMbxSend [Fintype τ] (k : Kernel τ ι M) (b : ι) (x : M) (timeout : ℕ) :
    Except Stop (Bool × Kernel τ ι M) :=
  if k.waited (.mbx b) ∧ k.mbxState b = 1 then do
    let r ← k.mbxPass b x
    return (true, ← r.2.sched (r.2.toSched.rtDispatch (some r.1)))
  else if (k.mbx b).count = (k.mbx b).size then
    if timeout = 0 then .ok (false, k)
    else do
      let k := { k with msg := Function.update k.msg k.run x }
      return (false, ← k.mbxBlock b 2 timeout)
  else .ok (true, k.setMbx b ((k.mbx b).put x).inc)

/-- `rt_mbx_wait`: receive a message, if one is there; possibly wait for it. -/
def rtMbxWait [Fintype τ] (k : Kernel τ ι M) (b : ι) (timeout : ℕ) :
    Except Stop (Option M × Kernel τ ι M) :=
  if (k.mbx b).count ≠ 0 then
    let x := (k.mbx b).oldest
    let k := k.setMbx b (k.mbx b).take
    if k.waited (.mbx b) ∧ k.mbxState b = 2 then do
      let r ← k.mbxAdmit b
      return (some x, ← r.2.sched (r.2.toSched.rtDispatch (some r.1)))
    else .ok (some x, k.setMbx b (k.mbx b).dec)
  else if timeout = 0 then .ok (none, k)
  else do return (none, ← k.mbxBlock b 1 timeout)

/-- `rt_mbx_check`: the number of messages that can be stored. -/
def rtMbxCheck (k : Kernel τ ι M) (b : ι) : ℕ := (k.mbx b).size - (k.mbx b).count

/-- `rt_mbx_psh`: store the message in the mailbox or pass it to a task. -/
def rtMbxPsh [Fintype τ] (k : Kernel τ ι M) (b : ι) (x : M) : Except Stop (Kernel τ ι M) :=
  if k.waited (.mbx b) then
    if k.mbxState b = 2 then do
      let r ← k.mbxAdmit b
      let k := r.2.setMbx b (r.2.mbx b).inc
      k.sched (k.toSched.makeReady r.1)
    else if k.mbxState b = 1 then do
      let r ← k.mbxPass b x
      r.2.sched (r.2.toSched.makeReady r.1)
    else .ok k
  else if (k.mbx b).count < (k.mbx b).size then
    .ok (k.setMbx b ((k.mbx b).put x).inc)
  else .error (.osError .mbxOvf)

/-! ### Posted requests -/

/-- `rt_psq_enq`: insert a post service request into the queue. -/
def rtPsqEnq (k : Kernel τ ι M) (r : Request τ ι M) : Except Stop (Kernel τ ι M) :=
  if k.psq.count < k.psq.size then .ok { k with psq := (k.psq.put r).inc }
  else .error (.osError .fifoOvf)

/-- A request is served, according to the type of its control block. -/
def push [Fintype τ] (k : Kernel τ ι M) : Request τ ι M → Except Stop (Kernel τ ι M)
  | .tcb t flags => k.rtEvtPsh flags t
  | .mcb b x => k.rtMbxPsh b x
  | .scb s => k.rtSemPsh s

/-- A request is served, and the history says so. -/
def serve [Fintype τ] (k : Kernel τ ι M) (r : Request τ ι M) : Except Stop (Kernel τ ι M) := do
  return (← k.push r).note (.served r)

/-- The loop of `rt_pop_req`. -/
def rtPopReqLoop [Fintype τ] : ℕ → Kernel τ ι M → Except Stop (Kernel τ ι M)
  | 0, _ => .error (.fault .diverges)
  | fuel + 1, k =>
    if k.psq.count ≠ 0 then do
      let k ← k.serve k.psq.oldest
      rtPopReqLoop fuel { k with psq := k.psq.take.dec }
    else .ok k

/-- `Sys_Switch` and the end of `SVC_Handler`: the next task runs. -/
def sysSwitch (k : Kernel τ ι M) : Kernel τ ι M := { k with run := k.newTsk }

/-- `PendSV_Handler` with `rt_pop_req`: process the post service requests. -/
def rtPopReq [Fintype τ] (k : Kernel τ ι M) : Except Stop (Kernel τ ι M) := do
  let k ← rtPopReqLoop (k.psq.count + 1) { k with toSched := k.toSched.suspend }
  return (← k.sched k.toSched.runFirst).sysSwitch

end Kernel

end Rtx

end UavTelemetry
