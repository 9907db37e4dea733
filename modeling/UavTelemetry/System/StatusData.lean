import UavTelemetry.System.Commands

/-!
# The status data that are published

When a response is accepted, the loop copies the bytes behind its command byte into `_statdata`, as
many as a `StatusData_t` has, whatever the size of the response.  A short response leaves its
checksum among them, and behind the checksum what the receive buffer held before.

## Main definitions

* `Solo.stored` : what is copied into `_statdata`.
* `Solo.listening` : the runs of the receiver with the bytes read since `_protostat` was set.
* `Accepted` : a state in which a response has been accepted at the end of a stream.
* `OnlyFrame` : nothing but the data of the frame is published.

## Main results

* `stored_eq` : where every byte of the status data comes from.
* `onlyFrame_iff` : only frames with as many data bytes as a status are published rightly.
-/

namespace UavTelemetry

open Rtx MsgBroker

variable {β : Type}

namespace VirtualReceiver

namespace Solo

variable (io : BrokerImpl β)

/-- The runs of the receiver, without a tally. -/
def bare : Machine (Solo β) (Label β) := ⟨step io⟩

/-- What `copyStat` stores in `_statdata`. -/
def stored (s : Solo β) : List UInt8 := (s.world.sys.vr.exec .copyStat).statdata.toList

/-- The bytes read since `_protostat` was set. -/
def listen (s : Solo β) (l : Label β) (_ : Solo β) (bs : List UInt8) : List UInt8 :=
  match l, s.todo.head? with
  | .run, some .readSerial => bs ++ s.world.sys.rx.take 1
  | .run, some .waitResponse => []
  | .run, some .waitCommand => []
  | _, _ => bs

/-- The runs of the receiver, with the bytes read. -/
def listening : Machine (Solo β × List UInt8) (Label β) := (bare io).observe listen

end Solo

/-- The receiver, from some state in which it awaited a response and from then on has read `bs`, is
about to copy the status data of a response without the `CMD_NACK` bit. -/
def Accepted (io : BrokerImpl β) (bs : List UInt8) (t : Solo β) : Prop :=
  ∃ s₀ s ls, s₀.Start ∧ (Solo.bare io).Reachable s₀ s ∧ s.protostat = .statWaitResponse ∧
    (Solo.listening io).run (s, []) ls = some (t, bs) ∧ t.todo.head? = some .copyStat

/-- **Nothing but the frame is published**: whatever came before the stream `bs`, the same status
data are stored, and they are data bytes of `body` behind the command byte. -/
def OnlyFrame (io : BrokerImpl β) (bs body : List UInt8) : Prop :=
  ∀ t₁ t₂ : Solo β, Accepted io bs t₁ → Accepted io bs t₂ →
    t₁.stored = t₂.stored ∧ t₁.stored <+: body.drop 1

/-- The reception is accepted by its checksum: its command byte has no `CMD_NACK` bit, and its
checksum has not come before. -/
structure Reception.Acceptable (r : Reception) : Prop where
  /-- The response is acknowledged. -/
  ack : r.body.getD 0 0 &&& cmdNack = 0
  /-- No late byte was the checksum. -/
  first : r.checksum ∉ r.late

/-! ### What is heard -/

/-- A statement other than the read of a byte is not followed by the copy of the status data. -/
theorem head?_ne_copyStat {st : Stmt} {sts : List Stmt} (h : st.Precedes sts) :
    sts.head? ≠ some .copyStat := by
  have hfree : phase sts = .free → sts.head? ≠ some .copyStat := by
    intro hfree hhead
    obtain ⟨sts', rfl⟩ : ∃ sts', sts = .copyStat :: sts' := ⟨_, List.eq_cons_of_mem_head? hhead⟩
    cases hfree
  cases st with
  | setAlarm | copyStat | publishAlarm | publishStat | sendCommand cmd size =>
    obtain ⟨sts', rfl⟩ := h
    simp
  | _ => exact hfree h

namespace Solo

variable {io : BrokerImpl β} {s s' : Solo β} {l : Label β} {bs : List UInt8}

/-- What holds of every reachable state. -/
structure Steady (s : Solo β) : Prop where
  /-- The statements of an outcome stand together. -/
  ordered : Ordered s.todo
  /-- Status data are copied only while a response is awaited. -/
  awaited : s.todo.head? = some .copyStat → s.protostat ≠ .statWaitCommand

/-- What the decoder holds comes from the bytes that were heard. -/
def Heard (s : Solo β) (bs : List UInt8) : Prop :=
  s.protostat = .statWaitCommand ∨
    ∃ d, d.protostat = .statWaitResponse ∧ s.world.sys.vr.decoder = after d bs

theorem Start.steady (h : s.Start) : s.Steady := by
  have htodo : s.todo = [] := by rw [todo, h.pc]
  refine ⟨?_, ?_⟩
  · rw [htodo]
    trivial
  · rw [htodo]
    exact fun hhead => absurd hhead (by simp)

/-- What a statement goes on with is not the copy of the status data, unless a response has been
accepted. -/
theorem rest_awaited {st : Stmt} {sts : List Stmt} (h : st.Precedes sts)
    (hhead : (st.rest s.world.sys.rx s.world.sys.vr.decoder ++ sts).head? = some .copyStat) :
    (st.decoder s.world.sys.rx s.world.sys.vr.decoder).protostat ≠ .statWaitCommand := by
  have hsts := head?_ne_copyStat h
  cases st with
  | readSerial =>
    rcases s.rest_readSerial with ⟨haccepts, -⟩ | ⟨-, hrest | hrest⟩
    · cases hrx : s.world.sys.rx with
      | nil => simp [accepts, hrx] at haccepts
      | cons b rx =>
        show (decodePdu _ b).2.protostat ≠ _
        rw [ne_eq, decodePdu_waitCommand_iff]
        exact accepts_ne haccepts
    · rw [hrest, List.nil_append] at hhead
      exact absurd hhead hsts
    · rw [hrest] at hhead
      exact absurd hhead (by simp)
  | checkTimeout =>
    simp only [Stmt.rest] at hhead
    split_ifs at hhead
    · exact absurd hhead hsts
    · exact absurd hhead (by simp [missingResponse])
  | _ => exact absurd hhead hsts

theorem Steady.step (h : s.Steady) (hst : Solo.step io s l = some s') : s'.Steady := by
  cases l with
  | wake oe =>
    obtain ⟨-, rfl⟩ := wake_cases hst
    obtain ⟨hordered, hfree⟩ := ordered_body oe
    refine ⟨hordered, fun hhead => ?_⟩
    obtain ⟨sts', hbody⟩ : ∃ sts', body oe = .copyStat :: sts' :=
      ⟨_, List.eq_cons_of_mem_head? hhead⟩
    rw [hbody] at hfree
    cases hfree
  | run =>
    obtain ⟨-, rfl⟩ | ⟨st, sts, w', new, hpc, hexec, rfl⟩ := run_cases hst
    · exact ⟨trivial, fun hhead => absurd hhead (by simp [todo])⟩
    · have htodo : s.todo = st :: sts := by rw [todo, hpc]
      have hordered := h.ordered
      rw [htodo] at hordered
      obtain ⟨hdecoder, -, -, hnew⟩ := exec_spec hexec
      refine ⟨ordered_exec hordered hexec, fun hhead => ?_⟩
      show w'.sys.vr.decoder.protostat ≠ _
      rw [hdecoder]
      refine rest_awaited hordered.1 ?_
      rw [← hnew]
      exact hhead
  | env w =>
    cases hst
    exact ⟨h.ordered, h.awaited⟩

/-- A byte is heard, or `_protostat` is set and the hearing starts again. -/
theorem Heard.step (h : Heard s bs) (hst : Solo.step io s l = some s') :
    Heard s' (listen s l s' bs) := by
  cases l with
  | wake oe =>
    obtain ⟨-, rfl⟩ := wake_cases hst
    exact h
  | run =>
    obtain ⟨hpc, rfl⟩ | ⟨st, sts, w', new, hpc, hexec, rfl⟩ := run_cases hst
    · have htodo : s.todo = [] := by rw [todo, hpc]
      simp only [listen, htodo, List.head?_nil]
      exact h
    · have htodo : s.todo = st :: sts := by rw [todo, hpc]
      obtain ⟨hdecoder, -, -, -⟩ := exec_spec hexec
      simp only [Heard, protostat, hdecoder, listen, htodo, List.head?_cons]
      cases st with
      | readSerial =>
        cases hrx : s.world.sys.rx with
        | nil =>
          simp only [Stmt.decoder, List.take_nil, List.append_nil]
          exact h
        | cons b rx =>
          rcases h with hwait | ⟨d, hd, hafter⟩
          · exact Or.inl ((decodePdu_waitCommand_iff _ b).2 hwait)
          · refine Or.inr ⟨d, hd, ?_⟩
            rw [List.take_succ_cons, List.take_zero, after_append, ← hafter]
            rfl
      | waitResponse => exact Or.inr ⟨_, rfl, rfl⟩
      | waitCommand => exact Or.inl rfl
      | _ => exact h
  | env w =>
    cases hst
    exact h

/-- What `copyStat` copies: the bytes behind the first one in the receive buffer. -/
theorem stored_eq_drop (s : Solo β) :
    s.stored = (s.world.sys.vr.decoder.rxpdu.data.toList.drop 1).take 20 := by
  apply List.ext_getElem
  · simp [stored]
  · intro i h₁ h₂
    simp [stored, Vars.exec, Vector.get]

end Solo

/-- A response is accepted behind some state in which it was awaited. -/
theorem Accepted.exists_waiting {io : BrokerImpl β} {bs : List UInt8} {t : Solo β}
    (h : Accepted io bs t) :
    ∃ d : Decoder, d.protostat = .statWaitResponse ∧ t.world.sys.vr.decoder = after d bs := by
  obtain ⟨s₀, s, ls, h₀, hreach, hwait, hrun, hhead⟩ := h
  have hsteady : s.Steady := hreach.invariant h₀.steady fun _ _ _ hs hst => hs.step hst
  have hinv : t.Steady ∧ t.Heard bs := by
    refine Machine.Reachable.invariant (I := fun p : Solo β × List UInt8 => p.1.Steady ∧ p.1.Heard p.2)
      ⟨ls, hrun⟩ ⟨hsteady, Or.inr ⟨_, hwait, rfl⟩⟩ ?_
    intro p l p' hp hst
    obtain ⟨hstep, hrecord⟩ := Machine.observe_step hst
    rw [hrecord]
    exact ⟨hp.1.step hstep, hp.2.step hstep⟩
  exact hinv.2.resolve_left (hinv.1.awaited hhead)

/-- **Where the status data come from**: the data bytes behind the command byte, the checksum, and
what the receive buffer held before. -/
theorem Accepted.stored_eq {io : BrokerImpl β} {r : Reception} {t : Solo β}
    (h : Accepted io (r.bytes ++ [r.checksum]) t) :
    ∃ d : Decoder, d.protostat = .statWaitResponse ∧ t.stored =
      ((r.body ++ r.checksum :: d.rxpdu.data.toList.drop (r.body.length + 1)).drop 1).take 20 := by
  obtain ⟨d, hd, hdecoder⟩ := h.exists_waiting
  exact ⟨d, hd, by rw [Solo.stored_eq_drop, hdecoder, r.buffer r.checksum hd]⟩

theorem Reception.length_body_iff (r : Reception) : 21 ≤ r.body.length ↔ 21 ≤ r.size.toNat := by
  rw [r.body_length, bodyLength]
  omega

/-- A long frame fills the status data. -/
theorem Accepted.stored_of_long {io : BrokerImpl β} {r : Reception} {t : Solo β}
    (h : Accepted io (r.bytes ++ [r.checksum]) t) (hlong : 21 ≤ r.size.toNat) :
    t.stored = (r.body.drop 1).take 20 := by
  obtain ⟨d, -, hstored⟩ := h.stored_eq
  have hlength := r.length_body_iff.2 hlong
  rw [hstored, List.drop_append_of_le_length (by omega), List.take_append_of_le_length]
  rw [List.length_drop]
  omega

/-! ### A response is accepted -/

/-- No byte before the checksum completes the reception. -/
theorem Reception.Acceptable.notReady {r : Reception} (hr : r.Acceptable) {d : Decoder}
    (hd : d.protostat = .statWaitResponse) : cmdReady ∉ codes d r.bytes := by
  obtain ⟨hopening, hat⟩ := r.atData_opening hd
  rw [bytes, codes_append, List.mem_append, not_or]
  refine ⟨hopening, ?_⟩
  rw [(hat.late r.late).1, List.mem_map]
  rintro ⟨b, hb, hready⟩
  rw [checkCode] at hready
  split_ifs at hready with hcrc
  · rw [hcrc] at hb
    exact hr.first hb
  · exact cmdError_ne_cmdReady hready

/-- The checksum completes it. -/
theorem Reception.ready (r : Reception) {d : Decoder} (hd : d.protostat = .statWaitResponse) :
    (decodePdu (after d r.bytes) r.checksum).1 = cmdReady :=
  (ready_iff hd r.bytes r.checksum).2 ⟨r, rfl, rfl⟩

/-- The command byte is the first one in the buffer. -/
theorem Reception.command (r : Reception) {d : Decoder} (hd : d.protostat = .statWaitResponse) :
    (decodePdu (after d r.bytes) r.checksum).2.rxpdu.data.get 0 = r.body.getD 0 0 := by
  have hbuffer := r.buffer r.checksum hd
  rw [after_append, after_cons, after_nil] at hbuffer
  have hget := congrArg (fun l => l.getD 0 0) hbuffer
  obtain ⟨b, body, hbody⟩ := List.exists_cons_of_ne_nil r.body_ne_nil
  rw [hbody] at hget ⊢
  simpa [Vector.get] using hget

namespace Solo

variable (io : BrokerImpl β)

/-- The loop reads bytes that complete no response. -/
theorem run_read (u : Solo β) (heard : List UInt8) {sts : List Stmt} {bs rx : List UInt8}
    (hpc : u.pc = .body (.readSerial :: sts)) (hrx : u.world.sys.rx = bs ++ rx)
    (hnot : cmdReady ∉ codes u.world.sys.vr.decoder bs) :
    ∃ u' : Solo β, (listening io).run (u, heard) (List.replicate bs.length .run) =
        some (u', heard ++ bs) ∧ u'.pc = .body (.readSerial :: sts) ∧ u'.world.sys.rx = rx ∧
      u'.world.sys.vr.decoder = after u.world.sys.vr.decoder bs := by
  induction bs generalizing u heard with
  | nil => exact ⟨u, by simp, hpc, hrx, rfl⟩
  | cons b bs ih =>
    rw [codes_cons, List.mem_cons, not_or] at hnot
    have hafter : afterByte (decodePdu u.world.sys.vr.decoder b).1
        (decodePdu u.world.sys.vr.decoder b).2.rxpdu = [.readSerial] :=
      if_neg fun hready => hnot.1 hready.1.symm
    set u₁ : Solo β := ⟨⟨u.world.broker, { u.world.sys with
      rx := bs ++ rx
      vr := { u.world.sys.vr with decoder := (decodePdu u.world.sys.vr.decoder b).2 } }⟩,
      .body (.readSerial :: sts)⟩ with hu₁
    have hstep : (listening io).step (u, heard) .run = some (u₁, heard ++ [b]) := by
      simp [listening, bare, Machine.observe, Solo.step, listen, todo, hpc, exec, hrx, hafter, hu₁]
    obtain ⟨u', hrun, hpc', hrx', hdecoder⟩ := ih u₁ (heard ++ [b]) rfl rfl hnot.2
    refine ⟨u', ?_, hpc', hrx', hdecoder⟩
    rw [List.length_cons, List.replicate_succ, Machine.run_cons, hstep, Option.bind_some, hrun,
      List.append_assoc]
    rfl

/-- **The loop accepts a response** that comes while the task is at the head of the loop. -/
theorem exists_accepted {s₀ s : Solo β} {r : Reception} (hr : r.Acceptable) (h₀ : s₀.Start)
    (h : (bare io).Reachable s₀ s) (hpc : s.pc = .head) (hwait : s.protostat = .statWaitResponse) :
    ∃ t, Accepted io (r.bytes ++ [r.checksum]) t := by
  have hwait' : s.world.sys.vr.decoder.protostat = .statWaitResponse := hwait
  -- the bytes come, the task wakes up for them and clears the event
  set w : World β := ⟨s.world.broker, { s.world.sys with rx := r.bytes ++ [r.checksum] }⟩ with hw
  obtain ⟨oe, htimeout, hbody⟩ : ∃ oe, oe.status ≠ .osEventTimeout ∧
      body oe = [.signalClr vrEvDataready, .readSerial] :=
    ⟨⟨.osEventSignal, 0b100⟩, by decide, by decide⟩
  have hcome : (listening io).step (s, []) (.env w) = some (⟨w, .head⟩, []) := by
    simp [listening, bare, Machine.observe, Solo.step, listen, hpc, hw]
  have hwake : (listening io).step (⟨w, .head⟩, []) (.wake oe) = some (⟨w, .body (body oe)⟩, []) := by
    simp [listening, bare, Machine.observe, Solo.step, listen, htimeout]
  have hclear : (listening io).step (⟨w, .body (body oe)⟩, []) .run =
      some (⟨w, .body [.readSerial]⟩, []) := by
    rw [hbody]
    simp [listening, bare, Machine.observe, Solo.step, listen, todo, exec, Vars.exec, World.setVr, hw]
  have hstart : (listening io).run (s, []) [.env w, .wake oe, .run] =
      some (⟨w, .body [.readSerial]⟩, []) := by
    rw [Machine.run_cons, hcome, Option.bind_some, Machine.run_cons, hwake, Option.bind_some,
      Machine.run_cons, hclear]
    rfl
  obtain ⟨u, hrun, hpc', hrx', hdecoder⟩ :=
    run_read io ⟨w, .body [.readSerial]⟩ [] rfl rfl (hr.notReady hwait')
  -- the checksum is read, and the copy of the status data is next
  have hafter : afterByte (decodePdu u.world.sys.vr.decoder r.checksum).1
      (decodePdu u.world.sys.vr.decoder r.checksum).2.rxpdu = statusReady ++ [.readSerial] := by
    rw [hdecoder]
    exact if_pos ⟨r.ready hwait', (congrArg (· &&& cmdNack) (r.command hwait')).trans hr.ack⟩
  set t : Solo β := ⟨⟨u.world.broker, { u.world.sys with
    rx := []
    vr := { u.world.sys.vr with decoder := (decodePdu u.world.sys.vr.decoder r.checksum).2 } }⟩,
    .body (statusReady ++ [.readSerial])⟩ with ht
  have hlast : (listening io).step (u, r.bytes) .run = some (t, r.bytes ++ [r.checksum]) := by
    simp [listening, bare, Machine.observe, Solo.step, listen, todo, hpc', exec, hrx', hafter, ht]
  refine ⟨t, s₀, s, [.env w, .wake oe, .run] ++
    (List.replicate r.bytes.length .run ++ [.run]), h₀, h, hwait, ?_, rfl⟩
  rw [Machine.run_append, hstart, Option.bind_some, Machine.run_append, hrun, Option.bind_some,
    List.nil_append, Machine.run_cons, hlast]
  rfl

end Solo

/-! ### Which frames are published rightly -/

/-- The receiver awaits a response behind a key command. -/
theorem exists_waiting : ∃ s : Solo (Reference Task Task Buffer),
    (Solo.bare Reference.impl).Reachable entered s ∧ s.pc = .head ∧
      s.protostat = .statWaitResponse := by
  have heval : ((Solo.bare Reference.impl).run entered
      (.wake ⟨.osEventSignal, 0b10⟩ :: List.replicate 7 .run)).map
        (fun s => (s.pc, s.protostat)) = some (.head, .statWaitResponse) := by decide +kernel
  obtain ⟨s, hrun, heq⟩ := Option.map_eq_some_iff.1 heval
  obtain ⟨hpc, hwait⟩ := Prod.mk.inj heq
  exact ⟨s, ⟨_, hrun⟩, hpc, hwait⟩

/-- **Which frames are published rightly.**  With any broker and after any traffic, a response that
is accepted determines the status data, and they are data bytes of its frame, exactly if the frame
has a command byte and as many bytes behind it as a status. -/
theorem onlyFrame_iff (r : Reception) (hr : r.Acceptable) :
    (∀ (β : Type) (io : BrokerImpl β), OnlyFrame io (r.bytes ++ [r.checksum]) r.body) ↔
      21 ≤ r.size.toNat := by
  constructor
  · intro h
    obtain ⟨s, hreach, hpc, hwait⟩ := exists_waiting
    obtain ⟨t, ht⟩ := Solo.exists_accepted Reference.impl hr start_entered hreach hpc hwait
    have hprefix := (h _ Reference.impl t t ht ht).2.length_le
    rw [List.length_drop] at hprefix
    have hstored : t.stored.length = 20 := by simp [Solo.stored]
    refine r.length_body_iff.1 ?_
    omega
  · intro hlong β io t₁ t₂ h₁ h₂
    rw [h₁.stored_of_long hlong, h₂.stored_of_long hlong]
    exact ⟨rfl, List.take_prefix 20 _⟩

/-- A full status is published as it came: the command byte, twenty status bytes, the checksum. -/
theorem onlyFrame_status :
    OnlyFrame Reference.impl (headFlag :: 21 :: 2 :: List.replicate 20 0x11 ++ [0x17])
      (2 :: List.replicate 20 0x11) := by
  let r : Reception := ⟨[], [], 21, 2 :: List.replicate 20 0x11, [], by simp, by simp,
    by decide, by decide⟩
  have hbytes : r.bytes ++ [r.checksum] =
      headFlag :: 21 :: 2 :: List.replicate 20 0x11 ++ [0x17] := by decide
  rw [← hbytes]
  exact (onlyFrame_iff r ⟨by decide, by simp [r]⟩).2 (by decide) _ Reference.impl

/-! ### A short response -/

/-- A key update, and the key command that it sends. -/
def keyUpdate : List (Solo.Label (Reference Task Task Buffer)) :=
  .wake ⟨.osEventSignal, 0b10⟩ :: List.replicate 7 .run

/-- The bytes of a response come, and the loop reads them. -/
def response (bs : List UInt8) : List (Solo.Label (Reference Task Task Buffer)) :=
  .env ⟨updated, { Sys.boot with rx := bs }⟩ :: .wake ⟨.osEventSignal, 0b100⟩ ::
    List.replicate (bs.length + 1) .run

theorem accepted_response (ls : List (Solo.Label (Reference Task Task Buffer)))
    (bs stored : List UInt8)
    (heval : ((Solo.bare Reference.impl).run entered ls).bind (fun s =>
        ((Solo.listening Reference.impl).run (s, []) (response bs)).map
          (fun p => (s.protostat, p.2, p.1.todo.head?, p.1.stored))) =
      some (.statWaitResponse, bs, some .copyStat, stored)) :
    ∃ t, Accepted Reference.impl bs t ∧ t.stored = stored := by
  obtain ⟨s, hs, heval⟩ := Option.bind_eq_some_iff.1 heval
  obtain ⟨⟨t, heard⟩, ht, heq⟩ := Option.map_eq_some_iff.1 heval
  simp only [Prod.mk.injEq] at heq
  obtain ⟨hwait, rfl, hhead, hstored⟩ := heq
  exact ⟨t, ⟨entered, s, response heard, start_entered, ⟨ls, hs⟩, hwait, ht, hhead⟩, hstored⟩

/-- The status data of an acknowledgement are its checksum and, behind it, what was in the buffer:
zeros behind the start of the receiver, the data of a status behind that status. -/
theorem not_onlyFrame_acknowledgement :
    ¬ OnlyFrame Reference.impl [0x5A, 0x01, 0x02, 0x03] [0x02] := by
  intro h
  obtain ⟨t₁, h₁, hstored₁⟩ := accepted_response keyUpdate [0x5A, 0x01, 0x02, 0x03]
    (0x03 :: List.replicate 19 0x00) (by decide +kernel)
  obtain ⟨t₂, h₂, hstored₂⟩ := accepted_response
    (keyUpdate ++ response (headFlag :: 21 :: 2 :: List.replicate 20 0x11 ++ [0x17]) ++
      List.replicate 5 .run ++ keyUpdate)
    [0x5A, 0x01, 0x02, 0x03] (0x03 :: List.replicate 19 0x11) (by decide +kernel)
  have heq := (h t₁ t₂ h₁ h₂).1
  rw [hstored₁, hstored₂] at heq
  exact absurd heq (by decide)

end VirtualReceiver

end UavTelemetry
