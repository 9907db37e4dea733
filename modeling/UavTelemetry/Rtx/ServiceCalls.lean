import UavTelemetry.Rtx.Kernel

/-!
# Service calls, ticks and interrupts

The functions of `rt_CMSIS.c` on top of the kernel, and the kernel as a machine over what causes it
to run: a service call of the running task, a tick, or other interrupts alone.  Interrupts may also
arrive while a service call or the tick is at work; the requests that they post are served at its
end.

## Main definitions

* `Kernel.svc` : the service calls.
* `Kernel.isr` : the calls of interrupt handlers.
* `Kernel.Proper` : the calls that the callers of the kernel may make.
* `Round`, `Kernel.turn`, `Kernel.exec` : a cause with the interrupts around it, what it does, and
  what a sequence of them does.
* `Kernel.boot` : the kernel after `osKernelInitialize`.
-/

namespace UavTelemetry

namespace Rtx

/-- What causes the kernel to run: a service call, a tick with the messages that the timers put
into their queue, or interrupts alone. -/
inductive Cause (τ ι M : Type)
  | svc (c : Call τ ι M)
  | tick (xs : List M)
  | irq
  deriving DecidableEq, Repr

/-- A cause with the calls that interrupt handlers make before and after it takes its effect. -/
structure Round (τ ι M : Type) where
  before : List (IsrCall τ ι M)
  cause : Cause τ ι M
  after : List (IsrCall τ ι M)
  deriving DecidableEq, Repr

/-- The timer thread and its message queue (`osTimerThread`, `osTimerMessageQ`). -/
structure TimerService (τ ι : Type) where
  thread : τ
  queue : ι

/-- `osPriorityIdle`. -/
def osPriorityIdle : ℤ := -3

/-- `osPriorityRealtime`. -/
def osPriorityRealtime : ℤ := 3

/-- `OS_TIMERCBQS`: the size of the queue of the timer thread. -/
def osTimercbqs : ℕ := 4

/-- `OS_TIMERPRIO`. -/
def osTimerprio : ℤ := 5

/-- `OS_FIFOSZ`: the size of the post service queue. -/
def osFifosz : ℕ := 32

/-- `OS_TASK_CNT`: the number of threads that `os_active_TCB` has room for, the one of the timers
among them. -/
def osTaskCnt : ℕ := 6

/-- `osFeature_Semaphore`: the maximum count of a semaphore. -/
def osFeatureSemaphore : ℕ := 65535

/-- The priority of a task from the priority of its thread. -/
def taskPrio (priority : ℤ) : ℕ := (priority - osPriorityIdle + 1).toNat

namespace Kernel

variable {τ ι M : Type} [DecidableEq τ] [DecidableEq ι]

/-- `osKernelInitialize`: the main program is assumed to be the idle task, at the highest
priority. -/
def boot [Inhabited M] (idle : τ) : Kernel τ ι M :=
  { links := ⟨fun _ => none, fun _ => none⟩
    delays := ⟨fun _ => none, fun _ => none, fun _ => 0⟩
    prio := Function.update (fun _ => 0) idle 255
    state := Function.update (fun _ => .inactive) idle .running
    run := idle
    newTsk := idle
    time := 0
    robinTask := none
    robinTime := 0
    idle := idle
    events := fun _ => 0
    waits := fun _ => 0
    msg := fun _ => default
    pending := fun _ => .threadYield
    ret := fun _ => .osOK
    live := fun _ => false
    tokens := fun _ => 0
    level := fun _ => 0
    owner := fun _ => none
    mutPrio := fun _ => 0
    mbxState := fun _ => 0
    mbx := fun _ => ⟨0, 0, 0, 0, fun _ => default⟩
    psq := ⟨0, 0, 0, osFifosz, fun _ => .tcb idle 0⟩
    activeTcb := fun _ => none
    osRunning := false
    log := [] }

/-- `rt_init_context`. -/
def rtInitContext (k : Kernel τ ι M) (t : τ) (priority : ℕ) : Kernel τ ι M :=
  { k with
    state := Function.update k.state t .ready
    prio := Function.update k.prio t priority
    links :=
      { lnk := Function.update k.links.lnk (.tcb t) none
        rlnk := Function.update k.links.rlnk t none }
    delays :=
      { dlnk := Function.update k.delays.dlnk (some t) none
        blnk := Function.update k.delays.blnk t none
        delta := Function.update k.delays.delta (some t) 0 }
    events := Function.update k.events t 0
    waits := Function.update k.waits t 0 }

/-- `rt_get_TID`: the number of the first free entry of `os_active_TCB`, or `0`. -/
def rtGetTid (k : Kernel τ ι M) : ℕ :=
  match (List.range osTaskCnt).find? fun i => (k.activeTcb i).isNone with
  | some i => i + 1
  | none => 0

/-- `svcThreadCreate`, after the check of the priority.  The number `0` is not checked for: it makes
the thread that is one too many write in front of `os_active_TCB`. -/
def startThread [Fintype τ] (k : Kernel τ ι M) (t : τ) (tpriority : ℤ) :
    Except Stop (Kernel τ ι M) :=
  let tsk := k.rtGetTid
  if tsk = 0 then .error (.fault .outOfBounds)
  else
    let k := { k with activeTcb := Function.update k.activeTcb (tsk - 1) (some t) }
    let k := k.rtInitContext t (taskPrio tpriority)
    k.sched (k.toSched.rtDispatch (some t))

/-- A priority of a thread is in the range of the enumeration. -/
def validPriority (priority : ℤ) : Bool :=
  osPriorityIdle ≤ priority ∧ priority ≤ osPriorityRealtime

/-- `svcKernelStart`. -/
def svcKernelStart [Fintype τ] (ts : TimerService τ ι) (k : Kernel τ ι M) :
    Except Stop (Ret M × Kernel τ ι M) :=
  if k.osRunning then .ok (.osOK, k)
  else do
    let k := k.rtMbxInit ts.queue osTimercbqs
    let k ← k.startThread ts.thread (osTimerprio - 3)
    let k ← k.sched ((k.toSched.rtTskPrio none 0).map Prod.snd)
    return (.osOK, { k with osRunning := true })

/-- The statuses of a wait that may time out. -/
def timeoutStatus (millisec : ℕ) (ok : Bool) : Ret M :=
  if ok then .osOK else if millisec ≠ 0 then .osErrorTimeoutResource else .osErrorResource

/-- `svcSignalWait`. -/
def svcSignalWait [Fintype τ] (k : Kernel τ ι M) (signals : BitVec 32) (millisec : ℕ) :
    Except Stop (Ret M × Kernel τ ι M) :=
  if signals &&& reservedSignals ≠ 0 then .ok (.osErrorValue, k)
  else do
    let r ←
      if signals ≠ 0 then k.rtEvtWait (signals.setWidth 16) (rtMs2tick millisec) true
      else k.rtEvtWait 0xFFFF (rtMs2tick millisec) false
    let ret :=
      if r.1 then
        .osEventSignal (if signals ≠ 0 then signals else (r.2.waits r.2.run).setWidth 32)
      else if millisec ≠ 0 then .osEventTimeout else .osOK
    return (ret, r.2)

/-- A service call: what it returns, and the kernel afterwards.  The calls that end a thread or
deliver mails are not among them. -/
def call [Fintype τ] (ts : TimerService τ ι) (k : Kernel τ ι M) :
    Call τ ι M → Except Stop (Ret M × Kernel τ ι M)
  | .kernelStart => k.svcKernelStart ts
  | .threadCreate t tpriority =>
    if validPriority tpriority then do return (.created true, ← k.startThread t tpriority)
    else .ok (.created false, k)
  | .threadYield => do return (.osOK, ← k.sched k.toSched.rtTskPass)
  | .threadSetPriority t priority =>
    if k.state t = .inactive then .ok (.osErrorParameter, k)
    else if ¬ validPriority priority then .ok (.osErrorValue, k)
    else do
      return (.osOK, ← k.sched ((k.toSched.rtTskPrio (some t) (taskPrio priority)).map Prod.snd))
  | .delay millisec =>
    if millisec = 0 then .ok (.osOK, k)
    else do return (.osEventTimeout, ← k.sched (k.toSched.rtBlock (rtMs2tick millisec) .waitDly))
  | .signalSet t signals =>
    if k.state t = .inactive ∨ signals &&& reservedSignals ≠ 0 then .ok (.signals 0x80000000, k)
    else do return (.signals ((k.events t).setWidth 32), ← k.rtEvtSet (signals.setWidth 16) t)
  | .signalClear t signals =>
    if k.state t = .inactive ∨ signals &&& reservedSignals ≠ 0 then .ok (.signals 0x80000000, k)
    else .ok (.signals ((k.events t).setWidth 32), k.rtEvtClr (signals.setWidth 16) t)
  | .signalWait signals millisec => k.svcSignalWait signals millisec
  | .mutexCreate m =>
    if k.live (.mut m) then .ok (.created false, k) else .ok (.created true, k.rtMutInit m)
  | .mutexWait m millisec =>
    if k.live (.mut m) then do
      let r ← k.rtMutWait m (rtMs2tick millisec)
      return (timeoutStatus millisec r.1, r.2)
    else .ok (.osErrorParameter, k)
  | .mutexRelease m =>
    if k.live (.mut m) then do
      let r ← k.rtMutRelease m
      return (if r.1 then .osOK else .osErrorResource, r.2)
    else .ok (.osErrorParameter, k)
  | .mutexDelete m =>
    if k.live (.mut m) then do return (.osOK, ← k.rtMutDelete m) else .ok (.osErrorParameter, k)
  | .semaphoreCreate s count =>
    if k.live (.sem s) ∨ count > osFeatureSemaphore then .ok (.created false, k)
    else .ok (.created true, k.rtSemInit s (count % 0x10000).toNat)
  | .semaphoreWait s millisec =>
    if k.live (.sem s) then do
      let r ← k.rtSemWait s (rtMs2tick millisec)
      return (.tokens (if r.1 then r.2.tokens s + 1 else 0), r.2)
    else .ok (.tokens (-1), k)
  | .semaphoreRelease s =>
    if ¬ k.live (.sem s) then .ok (.osErrorParameter, k)
    else if k.tokens s = osFeatureSemaphore then .ok (.osErrorResource, k)
    else do return (.osOK, ← k.rtSemSend s)
  | .semaphoreDelete s =>
    if k.live (.sem s) then do return (.osOK, ← k.rtSemDelete s) else .ok (.osErrorParameter, k)
  | .messageCreate b queueSz =>
    if queueSz = 0 ∨ k.live (.mbx b) then .ok (.created false, k)
    else .ok (.created true, k.rtMbxInit b queueSz)
  | .messagePut b x millisec =>
    if k.live (.mbx b) then do
      let r ← k.rtMbxSend b x (rtMs2tick millisec)
      return (timeoutStatus millisec r.1, r.2)
    else .ok (.osErrorParameter, k)
  | .messageGet b millisec =>
    if k.live (.mbx b) then do
      let r ← k.rtMbxWait b (rtMs2tick millisec)
      let ret := match r.1 with
        | some x => .osEventMessage x
        | none => if millisec ≠ 0 then .osEventTimeout else .osOK
      return (ret, r.2)
    else .ok (.osErrorParameter, k)

/-- `SVC_Handler`: the return value is stored for the calling task, and the next task runs. -/
def svc [Fintype τ] (ts : TimerService τ ι) (k : Kernel τ ι M) (c : Call τ ι M) :
    Except Stop (Kernel τ ι M) := do
  let k := { k with pending := Function.update k.pending k.run c }
  let r ← k.call ts c
  return (r.2.rtRetVal r.2.run r.1).sysSwitch

/-- The call of a handler is accepted: it posts its request. -/
def post (k : Kernel τ ι M) (c : IsrCall τ ι M) : Except Stop (Kernel τ ι M) := do
  return (← k.rtPsqEnq c.request).note (.posted c)

/-- A call of an interrupt handler (`isrSignalSet`, `isrSemaphoreRelease`, `isrMessagePut`); the one
that receives a message, `osMessageGet`, is not among them. -/
def isr (k : Kernel τ ι M) : IsrCall τ ι M → Except Stop (Kernel τ ι M)
  | .signalSet t signals =>
    if k.state t = .inactive ∨ signals &&& reservedSignals ≠ 0 then .ok k
    else k.post (.signalSet t signals)
  | .semaphoreRelease s =>
    if ¬ k.live (.sem s) ∨ k.tokens s = osFeatureSemaphore then .ok k
    else k.post (.semaphoreRelease s)
  | .messagePut b x =>
    if ¬ k.live (.mbx b) ∨ k.rtMbxCheck b = 0 then .ok k else k.post (.messagePut b x)

/-- The calls of interrupt handlers one after the other. -/
def isrs : Kernel τ ι M → List (IsrCall τ ι M) → Except Stop (Kernel τ ι M)
  | k, [] => .ok k
  | k, c :: cs => do isrs (← k.isr c) cs

/-- `rt_systick`.  The timers only post requests, so that it makes no difference that the model lets
them do it after the next task has been chosen. -/
def rtSystick [Fintype τ] (ts : TimerService τ ι) (k : Kernel τ ι M) (xs : List M) :
    Except Stop (Kernel τ ι M) := do
  let k ← k.sched k.toSched.systick
  k.sysSwitch.isrs (xs.map (IsrCall.messagePut ts.queue))

/-- What a cause does. -/
def act [Fintype τ] (ts : TimerService τ ι) (k : Kernel τ ι M) :
    Cause τ ι M → Except Stop (Kernel τ ι M)
  | .svc c => k.svc ts c
  | .tick xs => k.rtSystick ts xs
  | .irq => .ok k

/-- The calls that the running task may make in this state.  The idle demon makes none, before it
has become the idle demon it may create threads and objects and start the kernel; a thread is
created once, and while there is room for it; the nesting of a mutex stays below the limit of its
counter, and a mailbox below that of its size. -/
def Proper (ts : TimerService τ ι) (k : Kernel τ ι M) (c : Call τ ι M) : Prop :=
  match c with
  | .kernelStart => k.run = k.idle ∧ k.osRunning = false ∧ k.state ts.thread = .inactive ∧
      k.live (.mbx ts.queue) = false ∧ k.rtGetTid ≠ 0
  | .threadCreate t _ =>
    (k.run ≠ k.idle ∨ k.osRunning = false) ∧ k.state t = .inactive ∧ k.rtGetTid ≠ 0
  | .mutexCreate _ | .semaphoreCreate _ _ => k.run ≠ k.idle ∨ k.osRunning = false
  | .messageCreate _ queueSz => (k.run ≠ k.idle ∨ k.osRunning = false) ∧ queueSz < 0x3FFC
  | .mutexWait m _ => k.run ≠ k.idle ∧ k.level m < 0xFFFF
  | _ => k.run ≠ k.idle

instance (ts : TimerService τ ι) (k : Kernel τ ι M) (c : Call τ ι M) : Decidable (k.Proper ts c) := by
  unfold Proper
  split <;> infer_instance

/-- The causes that are possible in this state: the tick comes after the start of the kernel. -/
def Possible (ts : TimerService τ ι) (k : Kernel τ ι M) : Cause τ ι M → Prop
  | .svc c => k.Proper ts c
  | .tick _ => k.osRunning = true
  | .irq => True

instance (ts : TimerService τ ι) (k : Kernel τ ι M) (c : Cause τ ι M) :
    Decidable (k.Possible ts c) := by
  unfold Possible
  split <;> infer_instance

/-- A turn: the cause takes its effect, and the requests that interrupts have posted meanwhile are
served.  An interrupt handler reads counters that a service call changes at most once, so that it
finds the kernel as it was before the call or as it is after it. -/
def turn [Fintype τ] (ts : TimerService τ ι) (k : Kernel τ ι M) (a : Round τ ι M) :
    Except Stop (Kernel τ ι M) := do
  let k ← k.isrs a.before
  let k ← k.act ts a.cause
  let k ← k.isrs a.after
  if k.psq.count ≠ 0 then k.rtPopReq else return k

/-- A sequence of turns; a cause that is not possible does not come about. -/
def exec [Fintype τ] (ts : TimerService τ ι) (k : Kernel τ ι M) :
    List (Round τ ι M) → Except Stop (Kernel τ ι M)
  | [] => .ok k
  | a :: as => do if k.Possible ts a.cause then exec ts (← k.turn ts a) as else exec ts k as

end Kernel

end Rtx

end UavTelemetry
