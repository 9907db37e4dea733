import UavTelemetry.Receiver.Bounds
import UavTelemetry.System.Frame

/-!
# Commands and their outcomes

This file runs `VirtualReceiver` alone against everything else: each wake-up delivers any events,
the serial line any bytes and the broker any data, and a timeout comes only while one is armed.
It follows the frames sent and what becomes of them.  A command ends with an accepted response or
with an alarm; a command that is sent before the one before it has ended *overrides* that one,
which then has no outcome.

## Main definitions

* `Solo` : the receiver in its environment; `Solo.machine` are its runs.
* `Tally` : the responses accepted, the alarms raised and the commands overridden.
* `Ordered` : the statements of an outcome stand together in the body of the loop.
* `Solo.Kept` : every frame sent is accounted for.

## Main results

* `timeout_of_reachable` : a response is awaited exactly while a timeout is armed.
* `Solo.Kept.step` : every frame sent is accounted for.
-/

namespace UavTelemetry

open Rtx

variable {β : Type}

namespace VirtualReceiver

/-- The number of responses awaited in a state of the protocol. -/
def ProtocolStat.awaited (p : ProtocolStat) : ℕ := if p = .statWaitCommand then 0 else 1

/-- The timeout that fits a state of the protocol. -/
def ProtocolStat.timeout (p : ProtocolStat) : ℕ :=
  if p = .statWaitCommand then osWaitForever else timeToValidResponse

/-- `VirtualReceiver` with everything around it. -/
structure Solo (β : Type) where
  /-- The broker, the variables and the serial line. -/
  world : World β
  /-- Place in the loop. -/
  pc : Pc Stmt

/-- What happens to the receiver. -/
inductive Solo.Label (β : Type)
  /-- `signal_wait` returns. -/
  | wake (oe : OsEvent)
  /-- The receiver runs the next statement. -/
  | run
  /-- The others change everything but the variables of the receiver and what it has sent. -/
  | env (w : World β)

/-- What has become of the frames sent. -/
structure Tally where
  /-- Responses accepted. -/
  accepted : ℕ
  /-- Alarms raised. -/
  alarms : ℕ
  /-- Commands that were outstanding when the next one was sent. -/
  overridden : ℕ
  deriving DecidableEq, Repr

namespace Solo

variable (io : BrokerImpl β)

/-- `_protostat`. -/
def protostat (s : Solo β) : ProtocolStat := s.world.sys.vr.decoder.protostat

/-- The number of commands whose outcome is still awaited. -/
def outstanding (s : Solo β) : ℕ := s.protostat.awaited

/-- A step of the receiver.  A fault ends the run. -/
def step (s : Solo β) : Label β → Option (Solo β)
  | .wake oe =>
    match s.pc with
    | .head =>
      if oe.status = .osEventTimeout ∧ s.world.sys.vr.timeout = osWaitForever then none
      else some { s with pc := .body (body oe) }
    | _ => none
  | .run =>
    match s.pc with
    | .body [] => some { s with pc := .head }
    | .body (st :: sts) =>
      match exec io s.world st with
      | .error _ => none
      | .ok (w, new) => some ⟨w, .body (new ++ sts)⟩
    | _ => none
  | .env w =>
    some { s with world := ⟨w.broker, { w.sys with vr := s.world.sys.vr, tx := s.world.sys.tx }⟩ }

/-- The next byte completes a response without the `CMD_NACK` bit. -/
def accepts (s : Solo β) : Prop :=
  match s.world.sys.rx with
  | [] => False
  | b :: _ =>
    (decodePdu s.world.sys.vr.decoder b).1 = cmdReady ∧
      (decodePdu s.world.sys.vr.decoder b).2.rxpdu.data.get 0 &&& cmdNack = 0

instance (s : Solo β) : Decidable s.accepts :=
  match h : s.world.sys.rx with
  | [] => isFalse (by simp [accepts, h])
  | b :: _ =>
    decidable_of_iff ((decodePdu s.world.sys.vr.decoder b).1 = cmdReady ∧
      (decodePdu s.world.sys.vr.decoder b).2.rxpdu.data.get 0 &&& cmdNack = 0) (by simp [accepts, h])

/-- What a step adds to the tally. -/
def record (s : Solo β) (l : Label β) (_ : Solo β) (t : Tally) : Tally :=
  match l, s.pc with
  | .run, .body (.readSerial :: _) =>
    if s.accepts then { t with accepted := t.accepted + 1 } else t
  | .run, .body (.publishAlarm :: _) => { t with alarms := t.alarms + 1 }
  | .run, .body (.sendCommand _ _ :: _) => { t with overridden := t.overridden + s.outstanding }
  | _, _ => t

/-- The runs of the receiver, with a tally. -/
def machine : Machine (Solo β × Tally) (Label β) := Machine.observe ⟨step io⟩ record

/-- The receiver enters its loop. -/
structure Start (s : Solo β) : Prop where
  /-- It is at the head of the loop. -/
  pc : s.pc = .head
  /-- `_timeout`. -/
  timeout : s.world.sys.vr.timeout = osWaitForever
  /-- `_protostat`. -/
  protostat : s.protostat = .statWaitCommand
  /-- Nothing has been sent. -/
  tx : s.world.sys.tx = []

end Solo

/-! ### What a statement does -/

/-- The variables of `decodePdu` after a statement; `rx` is what the serial line has received. -/
def Stmt.decoder (st : Stmt) (rx : List UInt8) (d : Decoder) : Decoder :=
  match st with
  | .waitCommand => { d with protostat := .statWaitCommand }
  | .waitResponse => { d with protostat := .statWaitResponse }
  | .readSerial =>
    match rx with
    | [] => d
    | b :: _ => (decodePdu d b).2
  | _ => d

/-- `_timeout` after a statement. -/
def Stmt.timeout (st : Stmt) (timeout : ℕ) : ℕ :=
  match st with
  | .waitCommand => osWaitForever
  | .waitResponse => timeToValidResponse
  | _ => timeout

/-- The number of frames that a statement sends. -/
def Stmt.frames : Stmt → ℕ
  | .sendCommand _ _ => 1
  | _ => 0

/-- The statements that a statement goes on with. -/
def Stmt.rest (st : Stmt) (rx : List UInt8) (d : Decoder) : List Stmt :=
  match st with
  | .checkTimeout => if d.protostat = .statWaitCommand then [] else missingResponse
  | .readSerial =>
    match rx with
    | [] => []
    | b :: _ => afterByte (decodePdu d b).1 (decodePdu d b).2.rxpdu
  | _ => []

variable {io : BrokerImpl β} {w w' : World β} {st : Stmt} {sts new : List Stmt}

/-- What a statement does to the variables that the protocol goes by. -/
theorem exec_spec (h : exec io w st = .ok (w', new)) :
    w'.sys.vr.decoder = st.decoder w.sys.rx w.sys.vr.decoder ∧
      w'.sys.vr.timeout = st.timeout w.sys.vr.timeout ∧
      w'.sys.tx.length = w.sys.tx.length + st.frames ∧
      new = st.rest w.sys.rx w.sys.vr.decoder := by
  cases st with
  | publishAlarm | publishStat =>
    obtain ⟨⟨u, e⟩, hu, h⟩ := bind_eq_ok h
    have hsys := World.publish_sys hu
    cases h
    simp only [World.setVr]
    rw [hsys]
    exact ⟨rfl, rfl, rfl, rfl⟩
  | consumed _ =>
    obtain ⟨⟨u, e⟩, hu, h⟩ := bind_eq_ok h
    have hsys := World.consumed_sys hu
    cases h
    simp only [World.setVr]
    rw [hsys]
    exact ⟨rfl, rfl, rfl, rfl⟩
  | getTopicData _ =>
    obtain ⟨⟨u, e, data⟩, hu, h⟩ := bind_eq_ok h
    have hsys := World.getTopicData_sys hu
    cases h
    simp only [World.setVr]
    rw [hsys]
    exact ⟨rfl, rfl, rfl, rfl⟩
  | readSerial =>
    simp only [exec] at h
    split at h
    case h_1 hrx =>
      cases h
      simp [Stmt.decoder, Stmt.rest, Stmt.timeout, Stmt.frames, hrx]
    case h_2 b rx hrx =>
      cases h
      simp [Stmt.decoder, Stmt.rest, Stmt.timeout, Stmt.frames, hrx]
  | copyTopic _ =>
    simp only [exec] at h
    split at h
    · cases h
    · simp only [pure_eq_ok, Except.ok.injEq, Prod.mk.injEq] at h
      obtain ⟨rfl, rfl⟩ := h
      simp only [World.setVr]
      exact ⟨rfl, rfl, rfl, rfl⟩
  | sendCommand cmd size =>
    simp only [exec, pure_eq_ok, Except.ok.injEq, Prod.mk.injEq] at h
    obtain ⟨rfl, rfl⟩ := h
    exact ⟨rfl, rfl, by simp [Stmt.frames], rfl⟩
  | checkTimeout =>
    cases h
    exact ⟨rfl, rfl, rfl, rfl⟩
  | _ =>
    simp only [exec, pure_eq_ok, Except.ok.injEq, Prod.mk.injEq] at h
    obtain ⟨rfl, rfl⟩ := h
    simp only [World.setVr, Vars.exec]
    exact ⟨rfl, rfl, rfl, rfl⟩

/-! ### The order of the statements -/

/-- Where the receiver stands between a command and its outcome. -/
inductive Phase
  /-- At no outcome. -/
  | free
  /-- A frame has been sent, and its response is not awaited yet. -/
  | sent
  /-- An alarm is about to be raised. -/
  | alarm
  /-- There is an outcome, and the response is still awaited. -/
  | closed
  deriving DecidableEq, Repr

/-- The phase, from the next statement. -/
def phase : List Stmt → Phase
  | .waitResponse :: _ => .sent
  | .setAlarm :: _ | .publishAlarm :: _ => .alarm
  | .copyStat :: _ | .publishStat :: _ | .waitCommand :: _ => .closed
  | _ => .free

/-- What stands behind a statement. -/
def Stmt.Precedes (st : Stmt) (sts : List Stmt) : Prop :=
  match st with
  | .setAlarm => ∃ sts', sts = .publishAlarm :: sts'
  | .copyStat => ∃ sts', sts = .publishStat :: sts'
  | .publishAlarm | .publishStat => ∃ sts', sts = .waitCommand :: sts'
  | .sendCommand _ _ => ∃ sts', sts = .waitResponse :: sts'
  | _ => phase sts = .free

/-- The statements of an outcome stand together. -/
def Ordered : List Stmt → Prop
  | [] => True
  | st :: sts => st.Precedes sts ∧ Ordered sts

theorem ordered_missingResponse (h : Ordered sts) (hfree : phase sts = .free) :
    Ordered (missingResponse ++ sts) :=
  ⟨⟨_, rfl⟩, ⟨_, rfl⟩, hfree, h⟩

theorem ordered_statusReady (h : Ordered sts) (hfree : phase sts = .free) :
    Ordered (statusReady ++ sts) :=
  ⟨⟨_, rfl⟩, ⟨_, rfl⟩, hfree, h⟩

theorem ordered_topicBranch (event : Flags) (topicname : String) (cmd : UInt8) (size : ℕ)
    (h : Ordered sts) (hfree : phase sts = .free) :
    Ordered (topicBranch event topicname cmd size ++ sts) :=
  ⟨rfl, rfl, rfl, rfl, ⟨_, rfl⟩, hfree, h⟩

/-- A branch of the body that may be passed over. -/
theorem ordered_ite (p : Prop) [Decidable p] (branch : List Stmt) (h : Ordered sts)
    (hfree : phase sts = .free) (hbranch : Ordered (branch ++ sts))
    (hbranch' : phase (branch ++ sts) = .free) :
    Ordered ((if p then branch else []) ++ sts) ∧
      phase ((if p then branch else []) ++ sts) = .free := by
  split_ifs
  · exact ⟨hbranch, hbranch'⟩
  · exact ⟨h, hfree⟩

/-- The body of the loop starts with no outcome. -/
theorem ordered_body (oe : OsEvent) : Ordered (body oe) ∧ phase (body oe) = .free := by
  have hnil : Ordered [] := trivial
  have hgps := ordered_ite (oe.signalled gpsEvReady) _ hnil rfl
    (ordered_topicBranch gpsEvReady "/gps" cmdSetGps Topic.sizeofGpsData hnil rfl) rfl
  have hkey := ordered_ite (oe.signalled keyEvReady) _ hgps.1 hgps.2
    (ordered_topicBranch keyEvReady "/keyb" cmdSetKey Topic.sizeofKeyData hgps.1 hgps.2) rfl
  have hdata := ordered_ite (oe.signalled vrEvDataready)
    [.signalClr vrEvDataready, .readSerial] hkey.1 hkey.2 ⟨rfl, hkey.2, hkey.1⟩ rfl
  have htimeout := ordered_ite (oe.status = .osEventTimeout) [.checkTimeout]
    hdata.1 hdata.2 ⟨hdata.2, hdata.1⟩ rfl
  simpa [body, List.append_assoc] using htimeout

/-! ### One byte -/

/-- `decodePdu` neither starts nor ends the wait for a response. -/
theorem decodePdu_waitCommand_iff (d : Decoder) (b : UInt8) :
    (decodePdu d b).2.protostat = .statWaitCommand ↔ d.protostat = .statWaitCommand := by
  cases hstat : d.protostat with
  | statWaitCommand => simp [decodePdu, hstat]
  | statWaitResponse => by_cases hb : b = headFlag <;> simp [decodePdu, hstat, hb]
  | statRecvHead => by_cases hb : maxSize ≤ b <;> simp [decodePdu, hstat, hb]
  | statRecvSize =>
    simp only [decodePdu, hstat]
    split_ifs <;> simp
  | statRecvData => simp [decodePdu, hstat]

/-- A byte that comes while no response is awaited changes nothing. -/
theorem decodePdu_of_waitCommand {d : Decoder} (hd : d.protostat = .statWaitCommand) (b : UInt8) :
    decodePdu d b = (cmdError, d) := by
  simp [decodePdu, hd]

theorem awaited_of_ne {p : ProtocolStat} (h : p ≠ .statWaitCommand) : p.awaited = 1 := if_neg h

theorem awaited_decodePdu (d : Decoder) (b : UInt8) :
    (decodePdu d b).2.protostat.awaited = d.protostat.awaited := by
  simp only [ProtocolStat.awaited, decodePdu_waitCommand_iff]

theorem timeout_decodePdu (d : Decoder) (b : UInt8) :
    (decodePdu d b).2.protostat.timeout = d.protostat.timeout := by
  simp only [ProtocolStat.timeout, decodePdu_waitCommand_iff]

/-- A statement feeds `decodePdu` a byte, sets `_protostat`, or leaves both alone. -/
theorem InBounds.decoder {d : Decoder} (h : InBounds d) (st : Stmt) (rx : List UInt8) :
    InBounds (st.decoder rx d) := by
  cases st with
  | readSerial =>
    cases rx with
    | nil => exact h
    | cons b rx => exact h.byte b
  | waitCommand => exact h.step (e := .waitCommand) rfl
  | waitResponse => exact h.step (e := .waitResponse) rfl
  | _ => exact h

/-! ### The invariant -/

/-- The commands that have an outcome or have been overridden. -/
def Tally.closed (t : Tally) : ℕ := t.accepted + t.alarms + t.overridden

/-- The frames sent and the commands closed, in each phase. -/
def Phase.Balance (ph : Phase) (p : ProtocolStat) (sent closed : ℕ) : Prop :=
  match ph with
  | .free => sent = closed + p.awaited
  | .sent => sent = closed + 1
  | .alarm => p ≠ .statWaitCommand ∧ sent = closed + 1
  | .closed => sent = closed

namespace Solo

variable {s s' : Solo β} {t : Tally}

/-- The statements left in this pass of the loop. -/
def todo (s : Solo β) : List Stmt :=
  match s.pc with
  | .body sts => sts
  | _ => []

/-- **What holds after every step.** -/
structure Kept (s : Solo β) (t : Tally) : Prop where
  /-- The statements of an outcome stand together. -/
  ordered : Ordered s.todo
  /-- A timeout is armed exactly while a response is awaited. -/
  armed : s.world.sys.vr.timeout = s.protostat.timeout
  /-- Every frame sent has been answered, has raised an alarm, was overridden or is outstanding. -/
  accounts : (phase s.todo).Balance s.protostat s.world.sys.tx.length t.closed

theorem Start.kept (h : s.Start) : s.Kept ⟨0, 0, 0⟩ := by
  have htodo : s.todo = [] := by rw [todo, h.pc]
  refine ⟨by rw [htodo]; trivial, by rw [h.protostat, h.timeout]; rfl, ?_⟩
  rw [htodo, h.protostat, h.tx]
  rfl

/-- The timeout is set together with `_protostat`. -/
theorem armed_exec (h : s.world.sys.vr.timeout = s.protostat.timeout)
    (hexec : exec io s.world st = .ok (w', new)) :
    w'.sys.vr.timeout = w'.sys.vr.decoder.protostat.timeout := by
  obtain ⟨hdecoder, htimeout, -, -⟩ := exec_spec hexec
  rw [hdecoder, htimeout, h]
  cases st with
  | readSerial =>
    cases hrx : s.world.sys.rx with
    | nil => rfl
    | cons b rx => exact (timeout_decodePdu _ b).symm
  | _ => rfl

/-- The statements with which a statement goes on are in order. -/
theorem ordered_exec (h : Ordered (st :: sts)) (hexec : exec io s.world st = .ok (w', new)) :
    Ordered (new ++ sts) := by
  obtain ⟨-, -, -, hnew⟩ := exec_spec hexec
  obtain ⟨hprec, hsts⟩ := h
  subst hnew
  cases st with
  | checkTimeout =>
    simp only [Stmt.rest]
    split_ifs
    · exact hsts
    · exact ordered_missingResponse hsts hprec
  | readSerial =>
    simp only [Stmt.rest]
    cases s.world.sys.rx with
    | nil => exact hsts
    | cons b rx =>
      simp only [afterByte]
      split_ifs
      · rw [List.append_assoc]
        exact ordered_statusReady ⟨hprec, hsts⟩ rfl
      · exact ⟨hprec, hsts⟩
  | _ => exact hsts

/-- What the loop over the serial line goes on with. -/
theorem rest_readSerial (s : Solo β) :
    (s.accepts ∧ Stmt.rest .readSerial s.world.sys.rx s.world.sys.vr.decoder =
        statusReady ++ [.readSerial]) ∨
      (¬ s.accepts ∧ (Stmt.rest .readSerial s.world.sys.rx s.world.sys.vr.decoder = [] ∨
        Stmt.rest .readSerial s.world.sys.rx s.world.sys.vr.decoder = [.readSerial])) := by
  unfold accepts Stmt.rest
  cases s.world.sys.rx with
  | nil => exact Or.inr ⟨not_false, Or.inl rfl⟩
  | cons b rx =>
    simp only [afterByte]
    split_ifs with hready
    · exact Or.inl ⟨hready, rfl⟩
    · exact Or.inr ⟨hready, Or.inr rfl⟩

/-- Only a receiver that awaits a response accepts one. -/
theorem accepts_ne (h : s.accepts) : s.protostat ≠ .statWaitCommand := by
  intro hwait
  unfold accepts at h
  cases hrx : s.world.sys.rx with
  | nil => simp [hrx] at h
  | cons b rx =>
    simp only [hrx, decodePdu_of_waitCommand hwait] at h
    exact absurd h.1 cmdError_ne_cmdReady

/-- What a statement adds to the tally. -/
def closes (s : Solo β) : Stmt → ℕ
  | .readSerial => if s.accepts then 1 else 0
  | .publishAlarm => 1
  | .sendCommand _ _ => s.outstanding
  | _ => 0

theorem record_closed (hpc : s.pc = .body (st :: sts)) :
    (record s .run s' t).closed = t.closed + s.closes st := by
  cases st with
  | readSerial =>
    simp only [record, hpc, closes]
    split_ifs
    · simp only [Tally.closed]
      omega
    · rfl
  | publishAlarm =>
    simp only [record, hpc, closes, Tally.closed]
    omega
  | sendCommand cmd size =>
    simp only [record, hpc, closes, Tally.closed]
    omega
  | _ => simp only [record, hpc, closes, Nat.add_zero]

/-- A statement moves the balance from one phase to the next. -/
theorem balance_exec (hprec : st.Precedes sts)
    (h : (phase (st :: sts)).Balance s.protostat s.world.sys.tx.length t.closed) :
    (phase (st.rest s.world.sys.rx s.world.sys.vr.decoder ++ sts)).Balance
      (st.decoder s.world.sys.rx s.world.sys.vr.decoder).protostat
      (s.world.sys.tx.length + st.frames) (t.closed + s.closes st) := by
  cases st with
  | checkTimeout =>
    have hfree : phase sts = .free := hprec
    simp only [Stmt.rest]
    split_ifs with hwait
    · rw [List.nil_append, hfree]
      exact h
    · have hone : s.protostat.awaited = 1 := awaited_of_ne hwait
      have hsent : s.world.sys.tx.length = t.closed + s.protostat.awaited := h
      exact ⟨hwait, by rw [← hone]; exact hsent⟩
  | setAlarm =>
    obtain ⟨sts', rfl⟩ := hprec
    exact h
  | publishAlarm =>
    obtain ⟨sts', rfl⟩ := hprec
    exact h.2
  | waitCommand =>
    have hfree : phase sts = .free := hprec
    simp only [Stmt.rest, List.nil_append, hfree]
    exact h
  | readSerial =>
    have hfree : phase sts = .free := hprec
    have hawaited : (Stmt.decoder .readSerial s.world.sys.rx s.world.sys.vr.decoder).protostat.awaited =
        s.protostat.awaited := by
      cases hrx : s.world.sys.rx with
      | nil => rfl
      | cons b rx => exact awaited_decodePdu _ b
    have hsent : s.world.sys.tx.length = t.closed + s.protostat.awaited := h
    rcases s.rest_readSerial with ⟨haccepts, hrest⟩ | ⟨haccepts, hrest | hrest⟩
    · have hone := awaited_of_ne (accepts_ne haccepts)
      rw [hrest]
      simp only [closes, if_pos haccepts]
      rw [hone] at hsent
      exact hsent
    · rw [hrest, List.nil_append, hfree]
      simp only [closes, if_neg haccepts]
      exact hsent.trans (by rw [hawaited]; rfl)
    · rw [hrest]
      simp only [closes, if_neg haccepts]
      exact hsent.trans (by rw [hawaited]; rfl)
  | copyStat =>
    obtain ⟨sts', rfl⟩ := hprec
    exact h
  | publishStat =>
    obtain ⟨sts', rfl⟩ := hprec
    exact h
  | sendCommand cmd size =>
    obtain ⟨sts', rfl⟩ := hprec
    have hsent : s.world.sys.tx.length = t.closed + s.outstanding := h
    exact congrArg (· + 1) hsent
  | waitResponse =>
    have hfree : phase sts = .free := hprec
    simp only [Stmt.rest, List.nil_append, hfree]
    exact h
  | signalClr _ | getTopicData _ | copyTopic _ | consumed _ =>
    have hfree : phase sts = .free := hprec
    simp only [Stmt.rest, List.nil_append, hfree]
    exact h

/-- A step of the receiver, from the step of the machine. -/
theorem step_of_machine {p p' : Solo β × Tally} {l : Label β}
    (hst : (machine io).step p l = some p') :
    p.1.step io l = some p'.1 ∧ p'.2 = record p.1 l p'.1 p.2 :=
  Machine.observe_step hst

theorem wake_cases (hst : s.step io (.wake oe) = some s') :
    s.pc = .head ∧ s' = { s with pc := .body (body oe) } := by
  simp only [Solo.step] at hst
  split at hst
  · rename_i hpc
    split_ifs at hst
    exact ⟨hpc, (Option.some.inj hst).symm⟩
  · cases hst

theorem run_cases (hst : s.step io .run = some s') :
    (s.pc = .body [] ∧ s' = { s with pc := .head }) ∨
      ∃ st sts w' new, s.pc = .body (st :: sts) ∧ exec io s.world st = .ok (w', new) ∧
        s' = ⟨w', .body (new ++ sts)⟩ := by
  simp only [Solo.step] at hst
  split at hst
  · rename_i hpc
    exact Or.inl ⟨hpc, (Option.some.inj hst).symm⟩
  · rename_i st sts hpc
    split at hst
    · cases hst
    · rename_i w' new hexec
      exact Or.inr ⟨st, sts, w', new, hpc, hexec, (Option.some.inj hst).symm⟩
  · cases hst

/-- **One step** keeps the invariant. -/
theorem Kept.step {l : Label β} (h : s.Kept t) (hst : s.step io l = some s') :
    s'.Kept (record s l s' t) := by
  cases l with
  | wake oe =>
    obtain ⟨hpc, rfl⟩ := wake_cases hst
    -- from the end of a pass, where no statement is left, to the first statement of the body
    have htodo : s.todo = [] := by rw [todo, hpc]
    have haccounts := h.accounts
    rw [htodo] at haccounts
    obtain ⟨hordered, hfree⟩ := ordered_body oe
    refine ⟨hordered, h.armed, ?_⟩
    change (phase (body oe)).Balance _ _ _
    rw [hfree]
    exact haccounts
  | run =>
    obtain ⟨hpc, rfl⟩ | ⟨st, sts, w', new, hpc, hexec, rfl⟩ := run_cases hst
    · have htodo : s.todo = [] := by rw [todo, hpc]
      have haccounts := h.accounts
      rw [htodo] at haccounts
      refine ⟨trivial, h.armed, ?_⟩
      simp only [record, hpc]
      exact haccounts
    · have htodo : s.todo = st :: sts := by rw [todo, hpc]
      have hordered := h.ordered
      have haccounts := h.accounts
      rw [htodo] at hordered haccounts
      refine ⟨ordered_exec hordered hexec, armed_exec h.armed hexec, ?_⟩
      rw [record_closed hpc]
      have hbalance := balance_exec hordered.1 haccounts
      obtain ⟨hdecoder, -, htx, hnew⟩ := exec_spec hexec
      rw [← hdecoder, ← htx, ← hnew] at hbalance
      exact hbalance
  | env w =>
    cases hst
    exact ⟨h.ordered, h.armed, h.accounts⟩

theorem Kept.step_machine {p p' : Solo β × Tally} {l : Label β} (h : p.1.Kept p.2)
    (hst : (machine io).step p l = some p') : p'.1.Kept p'.2 := by
  obtain ⟨hstep, hrecord⟩ := step_of_machine hst
  rw [hrecord]
  exact h.step hstep

theorem Start.kept_of_reachable {s₀ : Solo β} {p : Solo β × Tally} (h₀ : s₀.Start)
    (h : (machine io).Reachable (s₀, ⟨0, 0, 0⟩) p) : p.1.Kept p.2 :=
  h.invariant (I := fun p => p.1.Kept p.2) h₀.kept fun _ _ _ hk hst => hk.step_machine hst

/-- **A response is awaited exactly while a timeout is armed.**  In every state at the head of the
loop `_timeout` is `osWaitForever` exactly if `_protostat` is `STAT_WAIT_COMMAND`, and
`TIME_TO_VALID_RESPONSE` otherwise; an alarm is raised only while a response is awaited; and a
byte that is read while none is awaited leaves the variables as they are. -/
theorem timeout_of_reachable {s₀ : Solo β} {p : Solo β × Tally} (h₀ : s₀.Start)
    (h : (machine io).Reachable (s₀, ⟨0, 0, 0⟩) p) :
    (p.1.pc = .head →
      (p.1.world.sys.vr.timeout = osWaitForever ↔ p.1.protostat = .statWaitCommand) ∧
      (p.1.protostat ≠ .statWaitCommand → p.1.world.sys.vr.timeout = timeToValidResponse)) ∧
    (∀ sts, p.1.pc = .body (.publishAlarm :: sts) → p.1.protostat ≠ .statWaitCommand) ∧
    ∀ sts s', p.1.pc = .body (.readSerial :: sts) → p.1.protostat = .statWaitCommand →
      p.1.step io .run = some s' →
        s'.world.sys.vr = p.1.world.sys.vr ∧ (s'.pc = .body sts ∨ s'.pc = p.1.pc) := by
  have hkept := h₀.kept_of_reachable h
  refine ⟨fun _ => ⟨?_, ?_⟩, ?_, ?_⟩
  · rw [hkept.armed, ProtocolStat.timeout]
    split_ifs with hwait
    · exact iff_of_true rfl hwait
    · exact iff_of_false (by decide) hwait
  · intro hne
    rw [hkept.armed, ProtocolStat.timeout, if_neg hne]
  · intro sts hpc
    have haccounts := hkept.accounts
    have htodo : p.1.todo = .publishAlarm :: sts := by rw [todo, hpc]
    rw [htodo] at haccounts
    exact haccounts.1
  · intro sts s' hpc hwait hst
    have hwait' : p.1.world.sys.vr.decoder.protostat = .statWaitCommand := hwait
    simp only [Solo.step, hpc, exec] at hst
    cases hrx : p.1.world.sys.rx with
    | nil =>
      simp only [hrx, pure_eq_ok, Option.some.injEq] at hst
      subst hst
      exact ⟨rfl, Or.inl rfl⟩
    | cons b rx =>
      simp only [hrx, decodePdu_of_waitCommand hwait', pure_eq_ok, Option.some.injEq] at hst
      subst hst
      exact ⟨rfl, Or.inr hpc.symm⟩

/-- The loop drives `decodePdu` as `Decoder.machine` does, so that the receive buffer is never
overrun in the loop either. -/
theorem inBounds_of_start {s₀ : Solo β} {p : Solo β × Tally} (h₀ : s₀.Start)
    (h : (machine io).Reachable (s₀, ⟨0, 0, 0⟩) p) : InBounds p.1.world.sys.vr.decoder := by
  refine h.invariant (I := fun p => InBounds p.1.world.sys.vr.decoder) ?_ ?_
  · have hstat : s₀.world.sys.vr.decoder.protostat = .statWaitCommand := h₀.protostat
    exact .of_not (by simp [hstat]) (by simp [hstat])
  · intro p l p' hp hst
    obtain ⟨hstep, -⟩ := step_of_machine hst
    cases l with
    | wake oe =>
      obtain ⟨-, hp'⟩ := wake_cases hstep
      rw [hp']
      exact hp
    | run =>
      obtain ⟨-, hp'⟩ | ⟨st, sts, w', new, -, hexec, hp'⟩ := run_cases hstep
      · rw [hp']
        exact hp
      · rw [hp', (exec_spec hexec).1]
        exact hp.decoder st p.1.world.sys.rx
    | env w =>
      rw [← Option.some.inj hstep]
      exact hp

end Solo

/-! ### Runs -/

open MsgBroker

/-- Both topics have an update. -/
def updated : Reference Task Task Buffer :=
  let m := (Reference.setup.publish Threads.onTopicUpdate "/keyb" (some .keydata)
    Topic.sizeofKeyData Sys.boot.ths).1
  (m.publish Threads.onTopicUpdate "/gps" (some (.other 0)) Topic.sizeofGpsData Sys.boot.ths).1

/-- The receiver enters its loop, and both topics have an update. -/
def entered : Solo (Reference Task Task Buffer) := ⟨⟨updated, Sys.boot⟩, .head⟩

theorem start_entered : entered.Start := ⟨rfl, rfl, rfl, rfl⟩

/-- A key update and the timeout of its response. -/
def keyAndTimeout : List (Solo.Label (Reference Task Task Buffer)) :=
  .wake ⟨.osEventSignal, 0b10⟩ :: List.replicate 7 .run ++
    .wake ⟨.osEventTimeout, 0⟩ :: List.replicate 5 .run

/-- After the key update a response is awaited, with a timeout. -/
theorem timeout_keyUpdate :
    ∃ p, (Solo.machine Reference.impl).run (entered, ⟨0, 0, 0⟩)
        (.wake ⟨.osEventSignal, 0b10⟩ :: List.replicate 7 .run) = some p ∧
      p.1.world.sys.vr.timeout = timeToValidResponse := by
  have heval : ((Solo.machine Reference.impl).run (entered, ⟨0, 0, 0⟩)
      (.wake ⟨.osEventSignal, 0b10⟩ :: List.replicate 7 .run)).map
        (fun p => (p.1.pc, p.1.protostat)) = some (.head, .statWaitResponse) := by decide +kernel
  obtain ⟨p, hrun, heq⟩ := Option.map_eq_some_iff.1 heval
  obtain ⟨hpc, hstat⟩ := Prod.mk.inj heq
  refine ⟨p, hrun, ?_⟩
  exact ((Solo.timeout_of_reachable start_entered ⟨_, hrun⟩).1 hpc).2 (by rw [hstat]; decide)

end VirtualReceiver

end UavTelemetry
