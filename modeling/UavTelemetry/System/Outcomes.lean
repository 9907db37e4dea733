import UavTelemetry.System.Commands

/-!
# Commands with an outcome of their own

A pass of the loop of `VirtualReceiver` begins with a wake-up and the state of the decoder at the
head of the loop, and reads bytes.  From these it follows whether the command that the pass sends,
if any, is sent too early: the one before it must have been answered at the head of the loop or by
the bytes of the pass, and a pass must not send two.

## Main definitions

* `Pass` : what a pass has met with; `Solo.passes` are the runs with the pass at hand.
* `Completes` : bytes complete a response.
* `Pass.Fits` : the pass sends one command at most, and only when none is outstanding.
* `Pass.Stage` : how far a pass has come.
* `Solo.Outcomes` : at the head of the loop, every frame but the outstanding one has an outcome.

## Main results

* `outcomes_iff` : every command gets its own outcome exactly if all passes fit.
-/

namespace UavTelemetry

open Rtx

variable {β : Type}

namespace VirtualReceiver

/-! ### Passes -/

/-- One of the bytes completes a response without the `CMD_NACK` bit. -/
def Completes : Decoder → List UInt8 → Prop
  | _, [] => False
  | d, b :: bs => Accepts d b ∨ Completes (decodePdu d b).2 bs

instance decidableCompletes : (d : Decoder) → (bs : List UInt8) → Decidable (Completes d bs)
  | _, [] => inferInstanceAs (Decidable False)
  | d, b :: bs =>
    have := decidableCompletes (decodePdu d b).2 bs
    inferInstanceAs (Decidable (_ ∨ _))

/-- What a pass of the loop has met with. -/
structure Pass where
  /-- What `signal_wait` has returned. -/
  oe : OsEvent
  /-- The variables of `decodePdu` at the head of the loop. -/
  decoder : Decoder
  /-- The bytes that have been read. -/
  bytes : List UInt8

/-- **The pass sends one command at most, and none too early**: of the key and the position only one
is updated, and no response is awaited at the head of the loop, or the bytes complete it. -/
def Pass.Fits (x : Pass) : Prop :=
  x.oe.signalled keyEvReady ∨ x.oe.signalled gpsEvReady →
    ¬ (x.oe.signalled keyEvReady ∧ x.oe.signalled gpsEvReady) ∧
      (x.decoder.protostat = .statWaitCommand ∨ Completes x.decoder x.bytes)

instance (x : Pass) : Decidable x.Fits := inferInstanceAs (Decidable (_ → _))

namespace Solo

variable (io : BrokerImpl β)

/-- The pass after a step. -/
def observe (p : Solo β × Tally) (l : Label β) (_ : Solo β × Tally) (x : Pass) : Pass :=
  match l with
  | .wake oe => ⟨oe, p.1.world.sys.vr.decoder, []⟩
  | .run =>
    match p.1.pc, p.1.world.sys.rx with
    | .body (.readSerial :: _), b :: _ => { x with bytes := x.bytes ++ [b] }
    | _, _ => x
  | .env _ => x

/-- The runs of the receiver, with the tally and the pass at hand. -/
def passes : Machine ((Solo β × Tally) × Pass) (Label β) := (machine io).observe observe

/-- If the step ends a pass, the pass fits. -/
def EndsFit (p : (Solo β × Tally) × Pass) (l : Label β) : Prop :=
  match l, p.1.1.pc with
  | .run, .body [] => p.2.Fits
  | _, _ => True

instance (p : (Solo β × Tally) × Pass) (l : Label β) : Decidable (EndsFit p l) := by
  unfold EndsFit
  split <;> infer_instance

/-- **Every command gets its own outcome**: at the head of the loop the frames sent are the
responses accepted, the alarms raised, and one if a response is awaited. -/
def Outcomes (s : Solo β × Tally) : Prop :=
  s.1.pc = .head → s.1.world.sys.tx.length = s.2.accepted + s.2.alarms + s.1.outstanding

end Solo

/-! ### The bytes of a pass -/

variable {d : Decoder} {x : Pass} {lost : ℕ} {st : Stmt} {sts : List Stmt} {rx : List UInt8}

theorem completes_concat (d : Decoder) (bs : List UInt8) (b : UInt8) :
    Completes d (bs ++ [b]) ↔ Completes d bs ∨ Accepts (after d bs) b := by
  induction bs generalizing d with
  | nil => simp [Completes]
  | cons b' bs ih => simp [Completes, ih, or_assoc]

/-- The statements of the commands of a pass. -/
def commands (oe : OsEvent) : List Stmt :=
  (if oe.signalled keyEvReady then
    topicBranch keyEvReady "/keyb" cmdSetKey Topic.sizeofKeyData else []) ++
  (if oe.signalled gpsEvReady then
    topicBranch gpsEvReady "/gps" cmdSetGps Topic.sizeofGpsData else [])

/-- The statements ahead of them. -/
def responses (oe : OsEvent) : List Stmt :=
  (if oe.status = .osEventTimeout then [.checkTimeout] else []) ++
  (if oe.signalled vrEvDataready then [.signalClr vrEvDataready, .readSerial] else [])

theorem body_eq_append (oe : OsEvent) : body oe = responses oe ++ commands oe := by
  simp [body, responses, commands, List.append_assoc]

/-- The commands that a statement overrides in a state of the protocol. -/
def Stmt.overrides (st : Stmt) (p : ProtocolStat) : ℕ :=
  match st with
  | .sendCommand _ _ => p.awaited
  | _ => 0

/-- How many commands are sent too early by statements that start in a state of the protocol. -/
def early : ProtocolStat → List Stmt → ℕ
  | _, [] => 0
  | p, .sendCommand _ _ :: sts => p.awaited + early p sts
  | _, .waitResponse :: sts => early .statWaitResponse sts
  | p, _ :: sts => early p sts

/-- The commands of a pass are sent in time if there is one at most, and no response is awaited. -/
theorem early_commands_eq_zero (p : ProtocolStat) (oe : OsEvent) :
    early p (commands oe) = 0 ↔
      (oe.signalled keyEvReady ∨ oe.signalled gpsEvReady →
        ¬ (oe.signalled keyEvReady ∧ oe.signalled gpsEvReady) ∧ p = .statWaitCommand) := by
  unfold commands
  cases oe.signalled keyEvReady <;> cases oe.signalled gpsEvReady <;>
    simp [early, topicBranch, ProtocolStat.awaited]

/-- The command before the ones of this pass has an outcome: no response was awaited, or the wait
for it has timed out, or the bytes complete it. -/
def Pass.Settled (x : Pass) : Prop :=
  x.decoder.protostat = .statWaitCommand ∨ x.oe.status = .osEventTimeout ∨
    Completes x.decoder x.bytes

/-- A wake-up that delivers an event is not a timeout. -/
theorem Pass.fits_iff {p : ProtocolStat} (hp : p = .statWaitCommand ↔ x.Settled) :
    x.Fits ↔ early p (commands x.oe) = 0 := by
  rw [early_commands_eq_zero, Pass.Fits]
  refine imp_congr_right fun hevent => and_congr Iff.rfl ?_
  have hsignal : x.oe.status ≠ .osEventTimeout := by
    intro htimeout
    simp [OsEvent.signalled, htimeout] at hevent
  rw [hp, Pass.Settled]
  simp [hsignal]

/-! ### How far a pass has come -/

/-- The statement belongs to the timeout or to the bytes. -/
def Stmt.Responds : Stmt → Prop
  | .sendCommand _ _ | .waitResponse => False
  | _ => True

/-- The statement belongs to a command. -/
def Stmt.Commands : Stmt → Prop
  | .signalClr _ | .getTopicData _ | .copyTopic _ | .consumed _ | .sendCommand _ _
  | .waitResponse => True
  | _ => False

/-- The commands of the pass are still to come, behind the statements `pre`. -/
structure Pass.Ahead (x : Pass) (d : Decoder) (pre : List Stmt) : Prop where
  responds : ∀ st ∈ pre, st.Responds
  /-- The command before has an outcome, or is about to get one. -/
  settled : x.Settled ↔ d.protostat = .statWaitCommand ∨ .waitCommand ∈ pre ∨ .checkTimeout ∈ pre
  /-- Otherwise the decoder has been fed with the bytes and nothing else. -/
  fed : ¬ x.Settled → d = after x.decoder x.bytes

/-- **How far a pass has come** that has sent `lost` commands too early. -/
inductive Pass.Stage (x : Pass) (d : Decoder) (lost : ℕ) : List Stmt → Prop
  /-- The commands are still to come. -/
  | ahead {pre : List Stmt} (h : x.Ahead d pre) (hlost : lost = 0) :
    Stage x d lost (pre ++ commands x.oe)
  /-- The commands have begun in the state `p`. -/
  | commands {p : ProtocolStat} {sts : List Stmt} (hsts : ∀ st ∈ sts, st.Commands)
    (hp : p = .statWaitCommand ↔ x.Settled)
    (hlost : lost + early d.protostat sts = early p (commands x.oe)) : Stage x d lost sts

theorem commands_topicBranch (event : Flags) (topicname : String) (cmd : UInt8) (size : ℕ) :
    ∀ st ∈ topicBranch event topicname cmd size, st.Commands := by
  simp only [topicBranch, List.forall_mem_cons]
  exact ⟨trivial, trivial, trivial, trivial, trivial, trivial, fun _ hst => by cases hst⟩

theorem commands_commands (oe : OsEvent) : ∀ st ∈ commands oe, st.Commands := by
  intro st hst
  rcases List.mem_append.1 hst with hkey | hgps
  · split_ifs at hkey
    · exact commands_topicBranch _ _ _ _ st hkey
    · cases hkey
  · split_ifs at hgps
    · exact commands_topicBranch _ _ _ _ st hgps
    · cases hgps

/-- A pass begins with its wake-up. -/
theorem Pass.stage_body (oe : OsEvent) (d : Decoder) :
    Pass.Stage ⟨oe, d, []⟩ d 0 (body oe) := by
  rw [body_eq_append]
  refine .ahead ⟨?_, ?_, fun _ => rfl⟩ rfl
  · intro st hst
    unfold responses at hst
    split_ifs at hst <;> simp at hst <;> rcases hst with rfl | rfl | rfl <;> trivial
  · unfold responses
    by_cases htimeout : oe.status = .osEventTimeout
    · simp [Pass.Settled, htimeout]
    · cases oe.signalled vrEvDataready <;> simp [Pass.Settled, Completes, htimeout]

/-- Without a statement ahead, the commands begin. -/
theorem Pass.Ahead.commands (h : x.Ahead d []) :
    d.protostat = .statWaitCommand ↔ x.Settled := by
  simpa using h.settled.symm

/-- **A statement ahead of the commands** settles the command before, or not. -/
theorem Pass.Ahead.exec {pre : List Stmt} (h : x.Ahead d (st :: pre)) (hst : st ≠ .readSerial) :
    x.Ahead (st.decoder rx d) (st.rest rx d ++ pre) := by
  obtain ⟨hresponds, hpre⟩ := List.forall_mem_cons.1 h.responds
  have hsettled := h.settled
  simp only [List.mem_cons] at hsettled
  cases st with
  | sendCommand _ _ | waitResponse => exact hresponds.elim
  | readSerial => exact absurd rfl hst
  | checkTimeout =>
    have hyes : x.Settled := hsettled.2 (by simp)
    refine ⟨?_, iff_of_true hyes ?_, fun hno => absurd hyes hno⟩
    · simp only [Stmt.rest]
      split_ifs
      · exact hpre
      · simpa [missingResponse, Stmt.Responds] using hpre
    · simp only [Stmt.rest, Stmt.decoder]
      split_ifs with hwait
      · exact Or.inl hwait
      · exact Or.inr (Or.inl (by simp [missingResponse]))
  | waitCommand =>
    have hyes : x.Settled := hsettled.2 (by simp)
    exact ⟨hpre, iff_of_true hyes (Or.inl rfl), fun hno => absurd hyes hno⟩
  | setAlarm | publishAlarm | signalClr _ | copyStat | publishStat | getTopicData _ | copyTopic _
  | consumed _ => exact ⟨hpre, by simpa [Stmt.decoder, Stmt.rest] using hsettled, h.fed⟩

/-- The loop over the serial line ends. -/
theorem Pass.Ahead.readSerial_nil {pre : List Stmt} (h : x.Ahead d (.readSerial :: pre)) :
    x.Ahead d pre := by
  refine ⟨(List.forall_mem_cons.1 h.responds).2, ?_, h.fed⟩
  simpa using h.settled

/-- **A byte** settles the command before exactly if it completes the response. -/
theorem Pass.Ahead.readSerial_cons {pre : List Stmt} (h : x.Ahead d (.readSerial :: pre))
    (b : UInt8) :
    Pass.Ahead { x with bytes := x.bytes ++ [b] } (decodePdu d b).2
      (afterByte (decodePdu d b).1 (decodePdu d b).2.rxpdu ++ pre) := by
  obtain ⟨-, hpre⟩ := List.forall_mem_cons.1 h.responds
  have hsettled : x.Settled ↔
      d.protostat = .statWaitCommand ∨ .waitCommand ∈ pre ∨ .checkTimeout ∈ pre := by
    simpa using h.settled
  -- the bytes settle the command before if they have already done so, or the last one does
  have hnext : Pass.Settled { x with bytes := x.bytes ++ [b] } ↔
      x.Settled ∨ Accepts (after x.decoder x.bytes) b := by
    simp only [Pass.Settled, completes_concat, or_assoc]
  have hresponds : ∀ st ∈ afterByte (decodePdu d b).1 (decodePdu d b).2.rxpdu ++ pre,
      st.Responds := by
    intro st hst
    rcases List.mem_append.1 hst with hst | hst
    · unfold afterByte at hst
      split_ifs at hst <;> simp [statusReady] at hst
      · rcases hst with rfl | rfl | rfl | rfl <;> trivial
      · exact hst ▸ trivial
    · exact hpre st hst
  by_cases hyes : x.Settled
  · refine ⟨hresponds, iff_of_true (hnext.2 (Or.inl hyes)) ?_, fun hno => ?_⟩
    · rw [decodePdu_waitCommand_iff]
      exact (hsettled.1 hyes).imp_right fun hmem =>
        hmem.imp (List.mem_append_right _) (List.mem_append_right _)
    · exact absurd (hnext.2 (Or.inl hyes)) hno
  · have hd := h.fed hyes
    have hnone := mt hsettled.2 hyes
    push Not at hnone
    obtain ⟨hstat, hwait, hcheck⟩ := hnone
    refine ⟨hresponds, ?_, fun _ => ?_⟩
    · rw [hnext, ← hd, decodePdu_waitCommand_iff]
      by_cases haccepts : Accepts d b
      · refine iff_of_true (Or.inr haccepts) (Or.inr (Or.inl ?_))
        rw [afterByte_of_accepts haccepts]
        simp [statusReady]
      · rw [afterByte_of_not_accepts haccepts]
        simp [hyes, haccepts, hstat, hwait, hcheck]
    · rw [after_append, ← hd]
      rfl

/-- A statement of a command. -/
theorem Pass.Stage.command {p : ProtocolStat} (hsts : ∀ st' ∈ st :: sts, st'.Commands)
    (hp : p = .statWaitCommand ↔ x.Settled)
    (hlost : lost + early d.protostat (st :: sts) = early p (VirtualReceiver.commands x.oe)) :
    x.Stage (st.decoder rx d) (lost + st.overrides d.protostat)
      (st.rest rx d ++ sts) := by
  obtain ⟨hst, hrest⟩ := List.forall_mem_cons.1 hsts
  cases st with
  | checkTimeout | setAlarm | publishAlarm | waitCommand | readSerial | copyStat | publishStat =>
    exact hst.elim
  | sendCommand cmd size =>
    refine .commands hrest hp ?_
    rw [Stmt.overrides, Nat.add_assoc]
    exact hlost
  | waitResponse => exact .commands hrest hp hlost
  | signalClr _ | getTopicData _ | copyTopic _ | consumed _ => exact .commands hrest hp hlost

/-! ### Runs -/

namespace Solo

variable {io : BrokerImpl β} {s s' : Solo β} {t : Tally}

/-- At the head of the loop, the frames sent are accounted for by the tally. -/
theorem Kept.accounts_head (h : s.Kept t) (hpc : s.pc = .head) :
    s.world.sys.tx.length = t.accepted + t.alarms + t.overridden + s.outstanding := by
  have haccounts := h.accounts
  have htodo : s.todo = [] := by rw [todo, hpc]
  rw [htodo] at haccounts
  exact haccounts

theorem record_overridden (hpc : s.pc = .body (st :: sts)) :
    (record s .run s' t).overridden = t.overridden + st.overrides s.protostat := by
  cases st with
  | readSerial =>
    simp only [record, hpc]
    split_ifs <;> rfl
  | sendCommand cmd size => simp only [record, hpc, Stmt.overrides, outstanding]
  | _ => simp only [record, hpc, Stmt.overrides, Nat.add_zero]

/-- **What holds between the steps of passes that fit**: no command has been overridden before this
pass. -/
structure InTime (p : (Solo β × Tally) × Pass) : Prop where
  kept : p.1.1.Kept p.1.2
  head : p.1.1.pc = .head → p.1.2.overridden = 0
  body : ∀ sts, p.1.1.pc = .body sts →
    p.2.Stage p.1.1.world.sys.vr.decoder p.1.2.overridden sts

theorem observe_of_ne {p p' : Solo β × Tally} (hpc : p.1.pc = .body (st :: sts))
    (hst : st ≠ .readSerial) : observe p .run p' x = x := by
  cases st with
  | readSerial => exact absurd rfl hst
  | _ => simp only [observe, hpc]

/-- **A statement** brings the pass on. -/
theorem stage_exec {p p' : Solo β × Tally} {w' : World β} {new : List Stmt}
    (h : x.Stage p.1.world.sys.vr.decoder p.2.overridden (st :: sts))
    (hpc : p.1.pc = .body (st :: sts)) (hexec : exec io p.1.world st = .ok (w', new)) :
    (observe p .run p' x).Stage w'.sys.vr.decoder (record p.1 .run p'.1 p.2).overridden
      (new ++ sts) := by
  obtain ⟨hdecoder, -, -, hnew⟩ := exec_spec hexec
  rw [record_overridden hpc, hdecoder, hnew]
  have hcommand : ∀ {q : ProtocolStat}, (∀ st' ∈ st :: sts, st'.Commands) →
      (q = .statWaitCommand ↔ x.Settled) →
      p.2.overridden + early p.1.world.sys.vr.decoder.protostat (st :: sts) =
        early q (commands x.oe) →
      (observe p .run p' x).Stage (st.decoder p.1.world.sys.rx p.1.world.sys.vr.decoder)
        (p.2.overridden + st.overrides p.1.protostat)
        (st.rest p.1.world.sys.rx p.1.world.sys.vr.decoder ++ sts) := by
    intro q hsts hq hlost
    have hne : st ≠ .readSerial := by
      rintro rfl
      exact (List.forall_mem_cons.1 hsts).1
    rw [observe_of_ne hpc hne]
    exact Pass.Stage.command hsts hq hlost
  generalize htodo : st :: sts = todo at h
  cases h with
  | commands hsts hq hlost =>
    subst htodo
    exact hcommand hsts hq hlost
  | @ahead pre h hlost =>
    cases pre with
    | nil =>
      rw [List.nil_append] at htodo
      refine hcommand (fun st' hst' => commands_commands x.oe st' (htodo ▸ hst')) h.commands ?_
      rw [hlost, htodo, Nat.zero_add]
    | cons st' pre =>
      rw [List.cons_append] at htodo
      obtain ⟨rfl, rfl⟩ := List.cons.inj htodo
      have hnone : p.2.overridden + st.overrides p.1.protostat = 0 := by
        have hresponds := (List.forall_mem_cons.1 h.responds).1
        rw [hlost]
        cases st with
        | sendCommand _ _ => exact hresponds.elim
        | _ => rfl
      rw [← List.append_assoc]
      by_cases hread : st = .readSerial
      · subst hread
        cases hrx : p.1.world.sys.rx with
        | nil =>
          have hx : observe p .run p' x = x := by simp only [observe, hpc, hrx]
          rw [hx]
          exact .ahead h.readSerial_nil hnone
        | cons b rx =>
          have hx : observe p .run p' x = { x with bytes := x.bytes ++ [b] } := by
            simp only [observe, hpc, hrx]
          rw [hx]
          exact .ahead (x := { x with bytes := x.bytes ++ [b] }) (h.readSerial_cons b) hnone
      · rw [observe_of_ne hpc hread]
        exact .ahead (h.exec hread) hnone

/-- A pass that ends has sent no command too early exactly if it fits. -/
theorem InTime.fits_iff {p : (Solo β × Tally) × Pass} (h : InTime p) (hpc : p.1.1.pc = .body []) :
    p.2.Fits ↔ p.1.2.overridden = 0 := by
  generalize htodo : ([] : List Stmt) = todo at hpc
  cases h.body todo hpc with
  | commands hsts hq hlost =>
    subst htodo
    rw [p.2.fits_iff hq, ← hlost]
    rfl
  | @ahead pre h hlost =>
    obtain ⟨rfl, hnil⟩ := List.append_eq_nil_iff.1 htodo.symm
    rw [p.2.fits_iff h.commands, hnil]
    exact iff_of_true rfl hlost

/-- **A step** of a pass that fits. -/
theorem InTime.step {p p' : (Solo β × Tally) × Pass} {l : Label β} (h : InTime p) (hl : EndsFit p l)
    (hst : (passes io).step p l = some p') : InTime p' := by
  obtain ⟨hmachine, hx⟩ := Machine.observe_step hst
  have hkept := h.kept.step_machine hmachine
  obtain ⟨hstep, hrecord⟩ := step_of_machine hmachine
  cases l with
  | wake oe =>
    obtain ⟨hpc, hp'⟩ := wake_cases hstep
    have hnone : p'.1.2.overridden = 0 := by
      rw [hrecord]
      exact h.head hpc
    refine ⟨hkept, fun hhead => ?_, fun sts hbody => ?_⟩
    · rw [hp'] at hhead
      cases hhead
    · rw [hp'] at hbody
      cases hbody
      rw [hx, hnone, hp']
      exact Pass.stage_body oe p.1.1.world.sys.vr.decoder
  | run =>
    obtain ⟨hpc, hp'⟩ | ⟨st, sts, w', new, hpc, hexec, hp'⟩ := run_cases hstep
    · have hfits : p.2.Fits := by
        simpa only [EndsFit, hpc] using hl
      refine ⟨hkept, fun _ => ?_, fun sts hbody => ?_⟩
      · simp only [hrecord, record, hpc]
        exact (h.fits_iff hpc).1 hfits
      · rw [hp'] at hbody
        cases hbody
    · refine ⟨hkept, fun hhead => ?_, fun sts' hbody => ?_⟩
      · rw [hp'] at hhead
        cases hhead
      · rw [hp'] at hbody
        cases hbody
        rw [hx, hrecord, hp']
        exact stage_exec (h.body _ hpc) hpc hexec
  | env w =>
    have hp' := Option.some.inj hstep
    refine ⟨hkept, fun hhead => ?_, fun sts hbody => ?_⟩
    · rw [← hp'] at hhead
      rw [hrecord]
      exact h.head hhead
    · rw [← hp'] at hbody
      rw [hx, hrecord, ← hp']
      exact h.body sts hbody

/-- After a pass that does not fit, a command is left without an outcome. -/
theorem InTime.not_outcomes {p p' : (Solo β × Tally) × Pass} {l : Label β} (h : InTime p)
    (hl : ¬ EndsFit p l) (hst : (passes io).step p l = some p') : ¬ Outcomes p'.1 := by
  obtain ⟨hmachine, -⟩ := Machine.observe_step hst
  have hkept := h.kept.step_machine hmachine
  obtain ⟨hstep, hrecord⟩ := step_of_machine hmachine
  unfold EndsFit at hl
  split at hl
  · rename_i hpc
    have hlost : p'.1.2.overridden ≠ 0 := by
      simp only [hrecord, record, hpc]
      exact mt (h.fits_iff hpc).2 hl
    obtain ⟨-, hp'⟩ | ⟨st, sts, w', new, hpc', -, -⟩ := run_cases hstep
    · intro houtcomes
      have hhead : p'.1.1.pc = .head := by rw [hp']
      have haccounts := hkept.accounts_head hhead
      have hequation := houtcomes hhead
      omega
    · rw [hpc] at hpc'
      cases hpc'
  · exact absurd trivial hl

/-- **When every command gets its own outcome.**  At every head of the loop the frames sent are the
responses accepted, the alarms raised and one if a response is awaited, exactly if all passes that
the run completes fit: a wake-up that delivers an update delivers one only, and no response is
awaited at the head of the loop, or the bytes that the pass reads complete it. -/
theorem outcomes_iff {s₀ : Solo β} (h₀ : s₀.Start) (x : Pass) (ls : List (Label β)) :
    (machine io).AllStates Outcomes (s₀, ⟨0, 0, 0⟩) ls ↔
      (passes io).AllSteps EndsFit ((s₀, ⟨0, 0, 0⟩), x) ls := by
  rw [← Machine.allStates_observe (o := observe) (h := x)]
  refine Machine.allStates_iff_of_strengthening (J := InTime) ⟨h₀.kept, fun _ => rfl, ?_⟩
    (fun p hp hpc => ?_) (fun p l p' hp => hp.step) fun p l p' hp => hp.not_outcomes
  · intro sts hpc
    rw [h₀.pc] at hpc
    cases hpc
  · have haccounts := hp.kept.accounts_head hpc
    rw [hp.head hpc] at haccounts
    exact haccounts

end Solo

open MsgBroker

/-- A command that is not answered has an alarm as its outcome. -/
theorem outcomes_keyAndTimeout :
    (Solo.machine Reference.impl).AllStates Solo.Outcomes (entered, ⟨0, 0, 0⟩) keyAndTimeout :=
  (Solo.outcomes_iff start_entered ⟨⟨.osEventTimeout, 0⟩, entered.world.sys.vr.decoder, []⟩
    keyAndTimeout).2 (by decide +kernel)

/-- One wake-up with a key and a position update sends two commands, of which one has no
outcome. -/
theorem not_outcomes_keyAndGps :
    ¬ (Solo.machine Reference.impl).AllStates Solo.Outcomes (entered, ⟨0, 0, 0⟩)
      (.wake ⟨.osEventSignal, 0b11⟩ :: List.replicate 13 .run) := by
  intro hall
  have heval : ((Solo.machine Reference.impl).run (entered, ⟨0, 0, 0⟩)
      (.wake ⟨.osEventSignal, 0b11⟩ :: List.replicate 13 .run)).map
        (fun p => (p.1.pc, p.1.world.sys.tx.length, p.2, p.1.protostat)) =
      some (.head, 2, ⟨0, 0, 1⟩, .statWaitResponse) := by decide +kernel
  obtain ⟨p, hrun, heq⟩ := Option.map_eq_some_iff.1 heval
  simp only [Prod.mk.injEq] at heq
  obtain ⟨hpc, htx, htally, hstat⟩ := heq
  have hlast := hall.last hrun hpc
  rw [htx, htally, Solo.outstanding, hstat] at hlast
  exact absurd hlast (by decide)

end VirtualReceiver

end UavTelemetry
