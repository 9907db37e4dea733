import UavTelemetry.System.StatusData

/-!
# The code of an alarm

When a response does not come in time, the loop raises an alarm and tells by its code whether
nothing was heard of the peer, or something that is no response.  It goes by the state of the
protocol, which has left `STAT_WAIT_RESPONSE` exactly if a head flag was read.  But both codes are
zero, so that a subscriber cannot tell them apart.

## Main definitions

* `Fate` : what has become of the last command.
* `Solo.following` : the runs of the receiver with the fate of the last command.
* `Unanswered` : the last command has ended in a timeout.
* `TellsApart` : the alarms of two commands have different codes.

## Main results

* `Solo.alarms_eq` : an unanswered command raises one alarm, with the code of what was heard.
* `not_tellsApart` : silence and garbage have the same code.
-/

namespace UavTelemetry

open Rtx MsgBroker

variable {β : Type}

namespace VirtualReceiver

/-- What has become of the last command. -/
structure Fate where
  /-- The bytes read until the timeout. -/
  heard : List UInt8
  /-- Responses accepted. -/
  accepted : ℕ
  /-- `signal_wait` has returned `osEventTimeout`. -/
  timedOut : Bool
  /-- The codes of the attempts to publish `/alarm`. -/
  alarms : List UInt8
  deriving DecidableEq, Repr

/-- Nothing has happened since the command was sent. -/
def Fate.sent : Fate := ⟨[], 0, false, []⟩

/-- The code that is due at the timeout. -/
def Fate.code (h : Fate) : UInt8 :=
  if headFlag ∈ h.heard then Topic.alarmWrongResponse else Topic.alarmMissingResponse

namespace Solo

/-- What a step means for the last command. -/
def follow (s : Solo β) (l : Label β) (_ : Solo β) (h : Fate) : Fate :=
  match l, s.todo.head? with
  | .wake oe, _ => if oe.status = .osEventTimeout then { h with timedOut := true } else h
  | .run, some (.sendCommand _ _) => .sent
  | .run, some .readSerial =>
    { h with
      heard := if h.timedOut then h.heard else h.heard ++ s.world.sys.rx.take 1
      accepted := if s.accepts then h.accepted + 1 else h.accepted }
  | .run, some .publishAlarm => { h with alarms := h.alarms ++ [s.world.sys.vr.alarmdata.get 0] }
  | _, _ => h

/-- The runs of the receiver, with the fate of the last command. -/
def following (io : BrokerImpl β) : Machine (Solo β × Fate) (Label β) := (bare io).observe follow

end Solo

/-- The last command has ended in a timeout, and no response to it was accepted. -/
structure Unanswered (p : Solo β × Fate) : Prop where
  /-- The pass is over. -/
  pc : p.1.pc = .head
  /-- There was a timeout. -/
  timedOut : p.2.timedOut = true
  /-- No response was accepted. -/
  accepted : p.2.accepted = 0

/-- **A subscriber tells two commands apart**: each has raised one alarm, with a code of its own. -/
def TellsApart (p q : Solo β × Fate) : Prop :=
  ∃ c d, p.2.alarms = [c] ∧ q.2.alarms = [d] ∧ c ≠ d

/-! ### What is heard -/

/-- The response leaves `STAT_WAIT_RESPONSE` with the head flag, and for good. -/
theorem decodePdu_waitResponse_iff {d : Decoder} (b : UInt8) :
    (decodePdu d b).2.protostat = .statWaitResponse ↔
      d.protostat = .statWaitResponse ∧ b ≠ headFlag := by
  cases hstat : d.protostat with
  | statWaitCommand => simp [decodePdu, hstat]
  | statWaitResponse => by_cases hb : b = headFlag <;> simp [decodePdu, hstat, hb]
  | statRecvHead => by_cases hb : maxSize ≤ b <;> simp [decodePdu, hstat, hb]
  | statRecvSize =>
    simp only [decodePdu, hstat]
    split_ifs <;> simp
  | statRecvData => simp [decodePdu, hstat]

/-- A timeout delivers no signals. -/
theorem body_timeout {oe : OsEvent} (hstatus : oe.status = .osEventTimeout) :
    body oe = [.checkTimeout] := by
  simp [body, OsEvent.signalled, hstatus]

theorem checkTimeout_notMem_body {oe : OsEvent} (hstatus : oe.status ≠ .osEventTimeout) :
    .checkTimeout ∉ body oe := by
  intro hmem
  simp only [body, hstatus, if_false, List.nil_append, List.mem_append] at hmem
  rcases hmem with (hmem | hmem) | hmem <;> split_ifs at hmem <;> simp [topicBranch] at hmem

/-- `checkTimeout` stands nowhere but at the start of a pass. -/
theorem checkTimeout_notMem_tail_body (oe : OsEvent) : .checkTimeout ∉ (body oe).tail := by
  by_cases hstatus : oe.status = .osEventTimeout
  · simp [body_timeout hstatus]
  · exact fun hmem => checkTimeout_notMem_body hstatus (List.mem_of_mem_tail hmem)

theorem checkTimeout_notMem_rest (st : Stmt) (rx : List UInt8) (d : Decoder) :
    .checkTimeout ∉ st.rest rx d := by
  cases st with
  | checkTimeout =>
    simp only [Stmt.rest]
    split_ifs <;> simp [missingResponse]
  | readSerial =>
    cases rx with
    | nil => simp [Stmt.rest]
    | cons b rx =>
      simp only [Stmt.rest, afterByte]
      split_ifs <;> simp [statusReady]
  | _ => simp [Stmt.rest]

namespace Fate

variable {h : Fate} {p : ProtocolStat}

/-- The state of the protocol tells whether a head flag was heard. -/
def Telling (h : Fate) (p : ProtocolStat) : Prop :=
  p ≠ .statWaitCommand ∧ (p = .statWaitResponse ↔ headFlag ∉ h.heard)

/-- There is an alarm exactly if there was a timeout, and then no response is awaited. -/
structure Settled (h : Fate) (p : ProtocolStat) : Prop where
  /-- After a timeout no response is awaited. -/
  timedOut : h.timedOut = true → p = .statWaitCommand
  /-- A timeout has raised one alarm. -/
  alarms : h.alarms = if h.timedOut then [h.code] else []
  /-- While a response is awaited the protocol tells what was heard. -/
  telling : p ≠ .statWaitCommand → h.Telling p

/-- The code that the alarm statement stores. -/
theorem Telling.alarmCode (ht : h.Telling p) : alarmCode p = h.code := by
  rw [code]
  by_cases hmem : headFlag ∈ h.heard
  · rw [if_pos hmem]
    have hne : p ≠ .statWaitResponse := fun heq => ht.2.1 heq hmem
    cases p with
    | statWaitResponse => exact absurd rfl hne
    | _ => rfl
  · rw [if_neg hmem, ht.2.2 hmem]
    rfl

end Fate

namespace Solo

variable {io : BrokerImpl β} {s s' : Solo β} {l : Label β} {h : Fate}

/-- The state of the receiver fits the fate of the last command. -/
def Fits (s : Solo β) (h : Fate) : Prop :=
  match s.todo.head? with
  | some .checkTimeout | some .setAlarm => h.timedOut = true ∧ h.alarms = [] ∧ h.Telling s.protostat
  | some .publishAlarm =>
    h.timedOut = true ∧ h.alarms = [] ∧ s.world.sys.vr.alarmdata.get 0 = h.code
  | some .waitCommand => h.alarms = if h.timedOut then [h.code] else []
  | some .waitResponse => h = .sent
  | _ => h.Settled s.protostat

/-- **What holds after every step.** -/
structure Followed (s : Solo β) (h : Fate) : Prop where
  /-- The statements of an outcome stand together. -/
  ordered : Ordered s.todo
  /-- A timeout is armed exactly while a response is awaited. -/
  armed : s.world.sys.vr.timeout = s.protostat.timeout
  /-- The timeout is checked first. -/
  first : .checkTimeout ∉ s.todo.tail
  /-- The state fits the fate. -/
  fits : s.Fits h

/-- Between the passes. -/
theorem fits_nil_iff (htodo : s.todo = []) : s.Fits h ↔ h.Settled s.protostat := by
  rw [Fits, htodo]
  rfl

theorem Start.followed (h : s.Start) : s.Followed .sent := by
  have htodo : s.todo = [] := by rw [todo, h.pc]
  refine ⟨by rw [htodo]; trivial, by rw [h.protostat, h.timeout]; rfl, by simp [htodo],
    (fits_nil_iff htodo).2 ?_⟩
  exact ⟨fun hfalse => Bool.noConfusion hfalse, rfl, fun hne => absurd h.protostat hne⟩

/-- Between the outcomes. -/
theorem fits_of_settled (hs : h.Settled s.protostat) (hfree : phase s.todo = .free)
    (hfirst : .checkTimeout ∉ s.todo) : s.Fits h := by
  rw [Fits]
  cases htodo : s.todo with
  | nil => exact hs
  | cons st sts =>
    rw [htodo] at hfree hfirst
    cases st with
    | checkTimeout => simp at hfirst
    | setAlarm | publishAlarm | waitCommand | waitResponse => cases hfree
    | _ => exact hs

/-- A byte is heard. -/
theorem settled_readSerial (s' : Solo β) (hs : h.Settled s.protostat)
    (hpc : s.todo.head? = some .readSerial) (hstat : s'.protostat =
      (Stmt.decoder .readSerial s.world.sys.rx s.world.sys.vr.decoder).protostat) :
    (follow s .run s' h).Settled s'.protostat := by
  have hheard : (follow s .run s' h).heard =
      if h.timedOut then h.heard else h.heard ++ s.world.sys.rx.take 1 := by
    simp only [follow, hpc]
  have htimedOut : (follow s .run s' h).timedOut = h.timedOut := by simp only [follow, hpc]
  have halarms : (follow s .run s' h).alarms = h.alarms := by simp only [follow, hpc]
  have hwait : s'.protostat = .statWaitCommand ↔ s.protostat = .statWaitCommand := by
    rw [hstat]
    cases hrx : s.world.sys.rx with
    | nil => rfl
    | cons b rx => exact decodePdu_waitCommand_iff _ b
  refine ⟨fun ht => hwait.2 (hs.timedOut (htimedOut ▸ ht)), ?_, fun hne => ⟨hne, ?_⟩⟩
  · rw [halarms, htimedOut, hs.alarms]
    split_ifs with ht
    · rw [Fate.code, Fate.code, hheard, if_pos ht]
    · rfl
  · -- a response is awaited, so there was no timeout yet
    have hne' : s.protostat ≠ .statWaitCommand := fun heq => hne (hwait.2 heq)
    have hnot : h.timedOut ≠ true := fun ht => hne' (hs.timedOut ht)
    rw [hheard, if_neg hnot, hstat]
    have htelling := (hs.telling hne').2
    cases hrx : s.world.sys.rx with
    | nil =>
      rw [List.take_nil, List.append_nil]
      exact htelling
    | cons b rx =>
      rw [Stmt.decoder, decodePdu_waitResponse_iff, List.take_succ_cons, List.take_zero,
        List.mem_append, List.mem_singleton, not_or, ne_comm]
      exact and_congr_left' htelling

/-- The alarm statement stores the code of what was heard. -/
theorem alarmdata_setAlarm {w' : World β} {new : List Stmt}
    (hexec : exec io s.world .setAlarm = .ok (w', new)) :
    w'.sys.vr.alarmdata.get 0 = alarmCode s.protostat := by
  simp only [exec, pure_eq_ok, Except.ok.injEq, Prod.mk.injEq] at hexec
  obtain ⟨rfl, rfl⟩ := hexec
  simp only [World.setVr, Vars.exec]
  exact Vector.getElem_set_self ..

/-- **A statement**, one case for each place in the pass. -/
theorem Fits.run {st : Stmt} {sts new : List Stmt} {w' : World β} (hf : s.Fits h)
    (htodo : s.todo = st :: sts) (hordered : Ordered (st :: sts))
    (hfirst : .checkTimeout ∉ sts) (hexec : exec io s.world st = .ok (w', new)) :
    Fits ⟨w', .body (new ++ sts)⟩ (follow s .run ⟨w', .body (new ++ sts)⟩ h) := by
  obtain ⟨hdecoder, -, -, hnew⟩ := exec_spec hexec
  have hprec := hordered.1
  have hhead : s.todo.head? = some st := by rw [htodo, List.head?_cons]
  set s' : Solo β := ⟨w', .body (new ++ sts)⟩ with hs'
  have htodo' : s'.todo = new ++ sts := rfl
  have hstat : s'.protostat = (st.decoder s.world.sys.rx s.world.sys.vr.decoder).protostat :=
    congrArg Decoder.protostat hdecoder
  -- the other statements stand between the outcomes
  have hfree' : h.Settled s'.protostat → follow s .run s' h = h → new = [] → phase sts = .free →
      s'.Fits (follow s .run s' h) := by
    intro hsettled hfollow hnil hfree
    rw [hfollow]
    refine fits_of_settled hsettled ?_ ?_
    · rw [htodo', hnil]
      exact hfree
    · rw [htodo', hnil]
      exact hfirst
  rw [Fits, hhead] at hf
  cases st with
  | checkTimeout =>
    obtain ⟨htimedOut, halarms, htelling⟩ := hf
    have hmissing : new = missingResponse := hnew.trans (if_neg htelling.1)
    simp only [Fits, htodo', hmissing, follow, hhead]
    exact ⟨htimedOut, halarms, hstat ▸ htelling⟩
  | setAlarm =>
    obtain ⟨htimedOut, halarms, htelling⟩ := hf
    obtain ⟨sts', rfl⟩ := hprec
    simp only [Fits, htodo', hnew, follow, hhead]
    exact ⟨htimedOut, halarms, (alarmdata_setAlarm hexec).trans htelling.alarmCode⟩
  | publishAlarm =>
    obtain ⟨htimedOut, halarms, hcode⟩ := hf
    obtain ⟨sts', rfl⟩ := hprec
    simp only [Fits, htodo', hnew, follow, hhead]
    show h.alarms ++ [s.world.sys.vr.alarmdata.get 0] = if h.timedOut then [h.code] else []
    rw [halarms, hcode, if_pos htimedOut, List.nil_append]
  | waitCommand =>
    have hwait : s'.protostat = .statWaitCommand := hstat
    exact hfree' ⟨fun _ => hwait, hf, fun hne => absurd hwait hne⟩ (by simp only [follow, hhead])
      hnew hprec
  | readSerial =>
    have hsettled := settled_readSerial s' hf hhead hstat
    rcases s.rest_readSerial with ⟨-, hrest⟩ | ⟨-, hrest | hrest⟩
    · rw [hrest] at hnew
      simp only [Fits, htodo', hnew]
      exact hsettled
    · rw [hrest] at hnew
      refine fits_of_settled hsettled ?_ ?_
      · rw [htodo', hnew]
        exact hprec
      · rw [htodo', hnew]
        exact hfirst
    · rw [hrest] at hnew
      simp only [Fits, htodo', hnew]
      exact hsettled
  | copyStat =>
    obtain ⟨sts', rfl⟩ := hprec
    have hfollow : follow s .run s' h = h := by simp only [follow, hhead]
    rw [hfollow]
    simp only [Fits, htodo', hnew]
    exact hstat ▸ hf
  | publishStat =>
    obtain ⟨sts', rfl⟩ := hprec
    have hfollow : follow s .run s' h = h := by simp only [follow, hhead]
    rw [hfollow]
    simp only [Fits, htodo', hnew]
    exact Fate.Settled.alarms hf
  | sendCommand cmd size =>
    obtain ⟨sts', rfl⟩ := hprec
    simp only [Fits, htodo', hnew, follow, hhead]
    trivial
  | waitResponse =>
    have hwait : s'.protostat = .statWaitResponse := hstat
    obtain rfl : h = .sent := hf
    refine hfree' ⟨fun hfalse => Bool.noConfusion hfalse, rfl, fun hne => ⟨hne, ?_⟩⟩
      (by simp only [follow, hhead]) hnew hprec
    simp [hwait, Fate.sent]
  | signalClr _ | getTopicData _ | copyTopic _ | consumed _ =>
    exact hfree' (hstat ▸ hf) (by simp only [follow, hhead]) hnew hprec

/-- **One step** keeps the invariant. -/
theorem Followed.step (hf : s.Followed h) (hst : Solo.step io s l = some s') :
    s'.Followed (follow s l s' h) := by
  cases l with
  | wake oe =>
    have harmed : oe.status = .osEventTimeout → s.protostat ≠ .statWaitCommand := by
      intro hstatus hwait
      have htimeout := hf.armed
      rw [hwait] at htimeout
      simp only [Solo.step] at hst
      split at hst
      · rw [if_pos ⟨hstatus, htimeout⟩] at hst
        cases hst
      · cases hst
    obtain ⟨hpc, rfl⟩ := wake_cases hst
    have htodo : s.todo = [] := by rw [todo, hpc]
    have hsettled := (fits_nil_iff htodo).1 hf.fits
    obtain ⟨hordered, hfree⟩ := ordered_body oe
    refine ⟨hordered, hf.armed, checkTimeout_notMem_tail_body oe, ?_⟩
    simp only [follow]
    by_cases hstatus : oe.status = .osEventTimeout
    · -- a timeout comes while a response is awaited, so it is the first one
      have htelling := hsettled.telling (harmed hstatus)
      have hnot : h.timedOut ≠ true := fun ht => harmed hstatus (hsettled.timedOut ht)
      have halarms := hsettled.alarms
      rw [if_neg hnot] at halarms
      rw [if_pos hstatus, Fits, todo, body_timeout hstatus]
      exact ⟨rfl, halarms, htelling⟩
    · rw [if_neg hstatus]
      exact fits_of_settled hsettled hfree (checkTimeout_notMem_body hstatus)
  | run =>
    obtain ⟨hpc, rfl⟩ | ⟨st, sts, w', new, hpc, hexec, rfl⟩ := run_cases hst
    · have htodo : s.todo = [] := by rw [todo, hpc]
      have hfollow : follow s .run { s with pc := .head } h = h := by
        simp only [follow, htodo, List.head?_nil]
      rw [hfollow]
      exact ⟨trivial, hf.armed, by simp [todo],
        (fits_nil_iff rfl).2 ((fits_nil_iff htodo).1 hf.fits)⟩
    · have htodo : s.todo = st :: sts := by rw [todo, hpc]
      have hordered := hf.ordered
      have hfirst := hf.first
      rw [htodo] at hordered
      rw [htodo, List.tail_cons] at hfirst
      refine ⟨ordered_exec hordered hexec, armed_exec hf.armed hexec, ?_,
        hf.fits.run htodo hordered hfirst hexec⟩
      have hnew : .checkTimeout ∉ new := (exec_spec hexec).2.2.2 ▸ checkTimeout_notMem_rest _ _ _
      intro hmem
      exact (List.mem_append.1 (List.mem_of_mem_tail hmem)).elim hnew hfirst
  | env w =>
    cases hst
    exact ⟨hf.ordered, hf.armed, hf.first, hf.fits⟩

/-- **An unanswered command raises one alarm**, and the code is the one due for what was heard. -/
theorem alarms_eq {s₀ : Solo β} {p : Solo β × Fate} (h₀ : s₀.Start)
    (hreach : (following io).Reachable (s₀, .sent) p) (hp : Unanswered p) :
    p.2.alarms = [p.2.code] := by
  have hfollowed : p.1.Followed p.2 := by
    refine hreach.invariant (I := fun p => p.1.Followed p.2) h₀.followed fun p l p' hp hst => ?_
    obtain ⟨hstep, hrecord⟩ := Machine.observe_step hst
    rw [hrecord]
    exact hp.step hstep
  have htodo : p.1.todo = [] := by rw [todo, hp.pc]
  have halarms := ((fits_nil_iff htodo).1 hfollowed.fits).alarms
  rwa [if_pos hp.timedOut] at halarms

end Solo

/-- **Silence and garbage have the same code.**  Whatever the broker and whatever came before: a
command after which no head flag was read and one after which there was one both raise one alarm
when they time out, the first as a missing response and the second as a wrong one, and the codes
are equal. -/
theorem not_tellsApart {io : BrokerImpl β} {s₀ t₀ : Solo β} {p q : Solo β × Fate} (hs : s₀.Start)
    (ht : t₀.Start) (hp : (Solo.following io).Reachable (s₀, .sent) p)
    (hq : (Solo.following io).Reachable (t₀, .sent) q) (hpun : Unanswered p) (hqun : Unanswered q)
    (hsilent : headFlag ∉ p.2.heard) (hgarbage : headFlag ∈ q.2.heard) :
    p.2.alarms = [Topic.alarmMissingResponse] ∧ q.2.alarms = [Topic.alarmWrongResponse] ∧
      ¬ TellsApart p q := by
  have halarmsp : p.2.alarms = [Topic.alarmMissingResponse] := by
    rw [Solo.alarms_eq hs hp hpun, Fate.code, if_neg hsilent]
  have halarmsq : q.2.alarms = [Topic.alarmWrongResponse] := by
    rw [Solo.alarms_eq ht hq hqun, Fate.code, if_pos hgarbage]
  refine ⟨halarmsp, halarmsq, ?_⟩
  rintro ⟨c, d, hc, hd, hne⟩
  rw [halarmsp] at hc
  rw [halarmsq] at hd
  obtain rfl := List.singleton_injective hc
  obtain rfl := List.singleton_injective hd
  exact hne rfl

/-! ### A stray head flag -/

/-- A key command, a head flag, and the timeout. -/
def garbage : List (Solo.Label (Reference Task Task Buffer)) :=
  keyUpdate ++ response [headFlag] ++ [.run, .run] ++
    .wake ⟨.osEventTimeout, 0⟩ :: List.replicate 5 .run

theorem unanswered_of_eval (ls : List (Solo.Label (Reference Task Task Buffer))) {h : Fate}
    (heval : ((Solo.following Reference.impl).run (entered, .sent) ls).map
      (fun p => (p.1.pc, p.2)) = some (.head, h)) (htimedOut : h.timedOut = true)
    (haccepted : h.accepted = 0) :
    ∃ p, (Solo.following Reference.impl).run (entered, .sent) ls = some p ∧ Unanswered p ∧
      p.2 = h := by
  obtain ⟨p, hrun, heq⟩ := Option.map_eq_some_iff.1 heval
  obtain ⟨hpc, rfl⟩ := Prod.mk.inj heq
  exact ⟨p, hrun, ⟨hpc, htimedOut, haccepted⟩, rfl⟩

/-- A key command that meets silence and one that is followed by a head flag raise the same
alarm. -/
theorem same_alarm_keyTimeout :
    ∃ p q, (Solo.following Reference.impl).run (entered, .sent) keyAndTimeout = some p ∧
      (Solo.following Reference.impl).run (entered, .sent) garbage = some q ∧
      p.2.heard = [] ∧ q.2.heard = [headFlag] ∧ ¬ TellsApart p q := by
  obtain ⟨p, hp, hpun, hpfate⟩ := unanswered_of_eval keyAndTimeout
    (h := ⟨[], 0, true, [0]⟩) (by decide +kernel) rfl rfl
  obtain ⟨q, hq, hqun, hqfate⟩ := unanswered_of_eval garbage
    (h := ⟨[headFlag], 0, true, [0]⟩) (by decide +kernel) rfl rfl
  have hsame := not_tellsApart start_entered start_entered ⟨_, hp⟩ ⟨_, hq⟩ hpun hqun
    (by simp [hpfate]) (by simp [hqfate])
  exact ⟨p, q, hp, hq, by rw [hpfate], by rw [hqfate], hsame.2.2⟩

/-- Not every pair of a silent and a garbled timeout is told apart. -/
theorem not_tellsApart_garbage :
    ¬ ∀ p q, (Solo.following Reference.impl).Reachable (entered, .sent) p →
      (Solo.following Reference.impl).Reachable (entered, .sent) q → Unanswered p →
      Unanswered q → headFlag ∉ p.2.heard → headFlag ∈ q.2.heard → TellsApart p q := by
  intro hall
  obtain ⟨p, hp, hpun, hpfate⟩ := unanswered_of_eval keyAndTimeout
    (h := ⟨[], 0, true, [0]⟩) (by decide +kernel) rfl rfl
  obtain ⟨q, hq, hqun, hqfate⟩ := unanswered_of_eval garbage
    (h := ⟨[headFlag], 0, true, [0]⟩) (by decide +kernel) rfl rfl
  obtain ⟨c, d, hc, hd, hne⟩ := hall p q ⟨_, hp⟩ ⟨_, hq⟩ hpun hqun (by simp [hpfate])
    (by simp [hqfate])
  rw [hpfate] at hc
  rw [hqfate] at hd
  exact hne ((List.singleton_injective hc).symm.trans (List.singleton_injective hd))

end VirtualReceiver

end UavTelemetry
