import UavTelemetry.Receiver.Frames
import UavTelemetry.System.Acknowledgement
import UavTelemetry.System.Frame

/-!
# Every key update becomes one frame

`VirtualReceiver` answers an update of `/keyb` by one `CMD_SET_KEY` frame, with the key data that
it finds behind the pointer which the broker keeps.  The pointer leads to `KeyDecoder::_keydata`,
and `KeyDecoder` writes that before it knows whether the broker will accept the update.

## Main definitions

* `Sys.observeUpdate` : the history of the accepted updates.
* `World.KeysForwarded` : the frames sent are those of the accepted updates, and a pending update
  is intact.
* `World.WritesUnowed` : `KeyDecoder` changes its key data only when no subscriber owes an
  acknowledgement of `/keyb`.

## Main results

* `World.keysForwarded_iff` : the runs in which every accepted update is forwarded.
-/

namespace UavTelemetry

open Rtx MsgBroker

namespace VirtualReceiver

/-- The `CMD_SET_KEY` frames among those sent. -/
def setKeyFrames (tx : List (List UInt8)) : List (List UInt8) :=
  tx.filter fun bytes => bytes.getD 2 0 = cmdSetKey

/-- The frame of a key update. -/
def setKeyFrame (k : Topic.KeyData) : List UInt8 := commandFrame cmdSetKey k.bytes

end VirtualReceiver

open VirtualReceiver

/-- The accepted updates of `/keyb`, with the key data at the time: a step from `s` to `s'`. -/
def Sys.observeUpdate (s : Sys) (l : Label) (s' : Sys) (accepted : List Topic.KeyData) :
    List Topic.KeyData :=
  if l = .run .keyDecoder ∧ s.kdTodo.head? = some .publish ∧ s'.kd.exception = .noErrors then
    accepted ++ [s.kd.keydata]
  else accepted

namespace World

variable {β : Type}

/-- The system with the history of the accepted updates of `/keyb`. -/
def updateMachine (io : BrokerImpl β) (wait : OsTcb → BitVec 32 → ℕ → OsTcb)
    (topics : List String) : Machine (World β × List Topic.KeyData) Label :=
  (machine io wait topics).observe fun w l w' => Sys.observeUpdate w.sys l w'.sys

/-- Each accepted update becomes one frame, with the key data that was accepted, and until it has
been acknowledged `getTopicData` leads to that key data. -/
structure KeysForwarded (io : BrokerImpl β) (p : World β × List Topic.KeyData) : Prop where
  /-- The frames sent are those of the first accepted updates. -/
  sent : setKeyFrames p.1.sys.tx <+: p.2.map setKeyFrame
  /-- They are those of all of them when `VirtualReceiver` is at rest. -/
  rest : Task.AtRest .virtualReceiver (p.1.sys.ths .virtualReceiver) →
    setKeyFrames p.1.sys.tx = p.2.map setKeyFrame
  /-- A pending update is the last one accepted, and has not been overwritten. -/
  pending : ∀ e, io.entry p.1.broker "/keyb" = some e → 0 < e.count →
    ∃ k data, p.2.getLast? = some k ∧ e.data = some data ∧
      (List.range Topic.sizeofKeyData).map (p.1.sys.read data) = k.bytes

/-- When `KeyDecoder` changes its key data, no subscriber owes an acknowledgement of `/keyb`. -/
def WritesUnowed (p : World β × List Topic.KeyData) (l : Label) : Prop :=
  l = .run .keyDecoder → p.1.sys.kdTodo.head? = some .setKeydata →
    p.1.sys.kd.currentkey ^^^ p.1.sys.kd.lastkey ≠ p.1.sys.kd.keydata.keycode →
      ∀ t, Feed.keyb.owed t (p.1.sys.ths t) = 0

instance (p : World β × List Topic.KeyData) (l : Label) : Decidable (WritesUnowed p l) :=
  inferInstanceAs (Decidable (_ → _))

end World

/-! ### The key branch of `VirtualReceiver` -/

namespace VirtualReceiver

/-- The statement that asks for the key data. -/
abbrev getKey : Stmt := .getTopicData "/keyb"

/-- The statement that copies the key data. -/
abbrev copyKey : Stmt := .copyTopic Topic.sizeofKeyData

/-- The statement that acknowledges an update of `/keyb`. -/
abbrev ackKey : Stmt := .consumed "/keyb"

/-- The statement that sends the key data. -/
abbrev sendKey : Stmt := .sendCommand cmdSetKey Topic.sizeofKeyData

/-- What may come behind a statement: between the copy of the key data and the frame nothing else
uses the transmit buffer, and the copy comes before the acknowledgement. -/
def KeyStep : Stmt → List Stmt → Prop
  | .getTopicData topicname, sts =>
    if topicname = "/keyb" then ackKey ∈ sts else copyKey ∉ sts
  | .copyTopic size, sts =>
    copyKey ∉ sts ∧
      if size = Topic.sizeofKeyData then getKey ∉ sts ∧ ackKey ∈ sts ∧ sendKey ∈ sts
      else sendKey ∉ sts
  | .sendCommand cmd size, sts =>
    copyKey ∉ sts ∧ sendKey ∉ sts ∧ size ≤ 30 ∧ (cmd = cmdSetKey → size = Topic.sizeofKeyData)
  | _, _ => True

instance decidableKeyStep : (st : Stmt) → (sts : List Stmt) → Decidable (KeyStep st sts)
  | .getTopicData topicname, sts =>
    inferInstanceAs (Decidable (if topicname = "/keyb" then ackKey ∈ sts else copyKey ∉ sts))
  | .copyTopic size, sts =>
    inferInstanceAs (Decidable (copyKey ∉ sts ∧
      if size = Topic.sizeofKeyData then getKey ∉ sts ∧ ackKey ∈ sts ∧ sendKey ∈ sts
      else sendKey ∉ sts))
  | .sendCommand cmd size, sts =>
    inferInstanceAs (Decidable (copyKey ∉ sts ∧ sendKey ∉ sts ∧ size ≤ 30 ∧
      (cmd = cmdSetKey → size = Topic.sizeofKeyData)))
  | .checkTimeout, _ | .setAlarm, _ | .publishAlarm, _ | .waitCommand, _ | .signalClr _, _
  | .readSerial, _ | .copyStat, _ | .publishStat, _ | .consumed _, _ | .waitResponse, _ =>
    inferInstanceAs (Decidable True)

/-- Every statement is followed by what may come behind it. -/
def KeyOrdered : List Stmt → Prop
  | [] => True
  | st :: sts => KeyStep st sts ∧ KeyOrdered sts

instance decidableKeyOrdered : (sts : List Stmt) → Decidable (KeyOrdered sts)
  | [] => inferInstanceAs (Decidable True)
  | st :: sts =>
    have := decidableKeyOrdered sts
    inferInstanceAs (Decidable (KeyStep st sts ∧ KeyOrdered sts))

/-- The body of the loop forwards the key data if `KEY_EV_READY` has been signalled. -/
theorem keyOrdered_body (oe : OsEvent) : KeyOrdered (body oe) ∧
    ((copyKey ∈ body oe ↔ oe.got 1 = true) ∧ (sendKey ∈ body oe ↔ oe.got 1 = true)) ∧
      (getKey ∈ body oe ↔ oe.got 1 = true) := by
  rw [body_eq]
  cases decide (oe.status = .osEventTimeout) <;> cases oe.got 0 <;> cases oe.got 1 <;>
    cases oe.got 2 <;> decide

/-- The statements that replace another one do not belong to the key branch. -/
theorem KeyOrdered.append {st : Stmt} {new sts : List Stmt} (h : KeyOrdered sts)
    (hnew : new ∈ loop.next st) : KeyOrdered (new ++ sts) := by
  have hstep : ∀ st' ∈ new, ∀ sts, KeyStep st' sts := by
    intro st' hst' sts
    have hmem := mem_next hnew hst'
    simp only [missingResponse, statusReady, List.cons_append, List.nil_append, List.mem_cons,
      List.not_mem_nil, or_false] at hmem
    rcases hmem with rfl | rfl | rfl | rfl | rfl | rfl | rfl <;> trivial
  clear hnew
  induction new with
  | nil => exact h
  | cons st' new ih =>
    exact ⟨hstep st' List.mem_cons_self _, ih fun st'' hst'' =>
      hstep st'' (List.mem_cons_of_mem _ hst'')⟩

theorem keyStmt_notMem_next {st st' : Stmt} {new : List Stmt} (hnew : new ∈ loop.next st)
    (hst' : st' ∈ [getKey, copyKey, ackKey, sendKey]) : st' ∉ new := by
  intro hmem
  have hkey : ∀ st' ∈ missingResponse ++ statusReady ++ [.readSerial],
      st' ∉ [getKey, copyKey, ackKey, sendKey] := by decide
  exact hkey st' (mem_next hnew hmem) hst'

theorem KeyOrdered.of_copyKey_mem {sts : List Stmt} (h : KeyOrdered sts) (hmem : copyKey ∈ sts) :
    ackKey ∈ sts ∧ sendKey ∈ sts := by
  induction sts with
  | nil => cases hmem
  | cons st sts ih =>
    rcases List.mem_cons.1 hmem with rfl | hmem
    · have hstep := h.1
      simp only [KeyStep, if_true] at hstep
      exact ⟨List.mem_cons_of_mem _ hstep.2.2.1, List.mem_cons_of_mem _ hstep.2.2.2⟩
    · obtain ⟨hack, hsend⟩ := ih h.2 hmem
      exact ⟨List.mem_cons_of_mem _ hack, List.mem_cons_of_mem _ hsend⟩

/-! ### The statements of `VirtualReceiver` -/

/-- The key data in a PDU. -/
def PDU.keyBytes (pdu : PDU) : List UInt8 := (pdu.data.toList.drop 1).take Topic.sizeofKeyData

/-- The statement uses neither the transmit buffer nor the pointer to the topic data. -/
def Stmt.Quiet : Stmt → Prop
  | .getTopicData _ | .copyTopic _ | .sendCommand _ _ => False
  | _ => True

section

variable {β : Type} {io : BrokerImpl β} {w u : World β}

theorem exec_quiet {st : Stmt} {new : List Stmt} (hst : st.Quiet)
    (h : exec io w st = .ok (u, new)) :
    u.sys.tx = w.sys.tx ∧ u.sys.vr.txpdu = w.sys.vr.txpdu ∧
      u.sys.vr.topicdata = w.sys.vr.topicdata := by
  cases st with
  | getTopicData _ => exact hst.elim
  | copyTopic _ => exact hst.elim
  | sendCommand _ _ => exact hst.elim
  | publishAlarm | publishStat =>
    obtain ⟨⟨w', e⟩, hw', h⟩ := bind_eq_ok h
    have hsys := World.publish_sys hw'
    cases h
    simp only [World.setVr]
    rw [hsys]
    exact ⟨rfl, rfl, rfl⟩
  | consumed _ =>
    obtain ⟨⟨w', e⟩, hw', h⟩ := bind_eq_ok h
    have hsys := World.consumed_sys hw'
    cases h
    simp only [World.setVr]
    rw [hsys]
    exact ⟨rfl, rfl, rfl⟩
  | readSerial =>
    simp only [exec] at h
    split at h
    · cases h
      exact ⟨rfl, rfl, rfl⟩
    · cases h
      exact ⟨rfl, rfl, rfl⟩
  | checkTimeout =>
    cases h
    exact ⟨rfl, rfl, rfl⟩
  | _ =>
    simp only [exec, pure_eq_ok, Except.ok.injEq, Prod.mk.injEq] at h
    obtain ⟨rfl, rfl⟩ := h
    simp only [World.setVr, Vars.exec, and_self]

theorem exec_copyTopic {size : ℕ} {new : List Stmt} (h : exec io w (.copyTopic size) = .ok (u, new)) :
    u.sys.tx = w.sys.tx ∧ ∃ p, w.sys.vr.topicdata = some p ∧
      u.sys.vr.txpdu = w.sys.vr.txpdu.copy (w.sys.read p) size := by
  simp only [exec] at h
  split at h
  · cases h
  · rename_i p hp
    simp only [pure_eq_ok, Except.ok.injEq, Prod.mk.injEq] at h
    obtain ⟨rfl, rfl⟩ := h
    simp only [World.setVr]
    exact ⟨trivial, p, hp, rfl⟩

theorem exec_sendCommand {cmd : UInt8} {size : ℕ} {new : List Stmt} (hsize : size ≤ 30)
    (h : exec io w (.sendCommand cmd size) = .ok (u, new)) :
    u.sys.tx = w.sys.tx ++
      [commandFrame cmd ((w.sys.vr.txpdu.data.toList.drop 1).take size)] := by
  simp only [exec, pure_eq_ok, Except.ok.injEq, Prod.mk.injEq] at h
  obtain ⟨rfl, rfl⟩ := h
  simp only [send_command _ _ hsize]

end

theorem exec_getTopicData {v u : World (Reference Task Task Buffer)} {topicname : String}
    {new : List Stmt} (h : exec Reference.impl v (.getTopicData topicname) = .ok (u, new)) :
    u.sys.tx = v.sys.tx ∧ u.sys.vr.txpdu = v.sys.vr.txpdu ∧
      u.sys.vr.topicdata = (v.broker.getTopicData topicname).2 := by
  cases h
  exact ⟨rfl, rfl, rfl⟩

/-- `memcpy` puts the bytes of the source behind the command byte. -/
theorem PDU.copy_data (pdu : PDU) (data : ℕ → UInt8) {size : ℕ} (hsize : size ≤ 31) :
    ((pdu.copy data size).data.toList.drop 1).take size = (List.range size).map data := by
  apply List.ext_getElem
  · simp
    omega
  · intro i h₁ h₂
    have hi : i < size := by simpa using h₂
    simp [PDU.copy, Nat.succ_le_of_lt hi]

theorem setKeyFrames_append (tx : List (List UInt8)) (cmd : UInt8) (data : List UInt8) :
    setKeyFrames (tx ++ [commandFrame cmd data]) =
      setKeyFrames tx ++ if cmd = cmdSetKey then [commandFrame cmd data] else [] := by
  have hcmd : (commandFrame cmd data).getD 2 0 = cmd := rfl
  rw [setKeyFrames, List.filter_append, List.filter_singleton, hcmd]
  by_cases h : cmd = cmdSetKey
  · simp [setKeyFrames, h]
  · simp [setKeyFrames, h]

end VirtualReceiver

/-! ### What `VirtualReceiver` has in hand -/

namespace Sys

/-- The key data of accepted updates that `VirtualReceiver` has not sent yet: what it has copied
or is about to copy, and what it has been notified of. -/
def keysInHand (s : Sys) : List (List UInt8) :=
  (if sendKey ∈ s.vrTodo then
    [if copyKey ∈ s.vrTodo then s.kd.keydata.bytes else s.vr.txpdu.keyBytes] else []) ++
  List.replicate ((s.ths .virtualReceiver).notified 1) s.kd.keydata.bytes

/-- The key data that the statements of a pass have in hand, with a transmit buffer. -/
def bytesInHand (s : Sys) (sts : List VirtualReceiver.Stmt) (txpdu : PDU) : List (List UInt8) :=
  if sendKey ∈ sts then
    [if copyKey ∈ sts then s.kd.keydata.bytes else txpdu.keyBytes] else []

theorem keysInHand_eq (s : Sys) :
    s.keysInHand = s.bytesInHand s.vrTodo s.vr.txpdu ++
      List.replicate ((s.ths .virtualReceiver).notified 1) s.kd.keydata.bytes :=
  rfl

/-- `VirtualReceiver` has sent, or has in hand, the key data of the accepted updates. -/
structure Forwarding (s : Sys) (accepted : List Topic.KeyData) : Prop where
  /-- The order of its statements. -/
  ordered : KeyOrdered s.vrTodo
  /-- Before it copies the key data it has asked where they are. -/
  fetched : copyKey ∈ s.vrTodo → getKey ∉ s.vrTodo → s.vr.topicdata = some .keydata
  /-- The frames sent, and those still to be sent. -/
  sent : setKeyFrames s.tx ++ s.keysInHand.map (commandFrame cmdSetKey) =
    accepted.map setKeyFrame

variable {s s' : Sys} {accepted : List Topic.KeyData}

/-- What a reader of the key data gets. -/
theorem map_read_keydata (s : Sys) :
    (List.range Topic.sizeofKeyData).map (s.read .keydata) = s.kd.keydata.bytes :=
  (map_range_getD _ 0 (Nat.le_of_eq s.kd.keydata.bytes_length.symm)).trans
    (List.take_of_length_le (Nat.le_of_eq s.kd.keydata.bytes_length))

theorem owed_virtualReceiver (s : Sys) :
    Feed.keyb.owed .virtualReceiver (s.ths .virtualReceiver) =
      (s.ths .virtualReceiver).notified 1 + s.vrTodo.count ackKey := by
  rw [vrTodo_eq]
  rfl

/-- A task that owes nothing has nothing in hand that depends on the key data. -/
theorem Forwarding.of_owed_eq_zero (h : s.Forwarding accepted)
    (howed : Feed.keyb.owed .virtualReceiver (s.ths .virtualReceiver) = 0) :
    (s.ths .virtualReceiver).notified 1 = 0 ∧ copyKey ∉ s.vrTodo := by
  rw [owed_virtualReceiver] at howed
  refine ⟨by omega, fun hmem => ?_⟩
  have hack := List.count_pos_iff.2 (h.ordered.of_copyKey_mem hmem).1
  omega

/-- A change of the key data matters only while an acknowledgement is owed. -/
theorem Forwarding.congr (h : s.Forwarding accepted) (htodo : s'.vrTodo = s.vrTodo)
    (hvr : s'.vr = s.vr) (htx : s'.tx = s.tx)
    (hnotified : (s'.ths .virtualReceiver).notified 1 = (s.ths .virtualReceiver).notified 1)
    (hkey : s'.kd.keydata = s.kd.keydata ∨
      Feed.keyb.owed .virtualReceiver (s.ths .virtualReceiver) = 0) :
    s'.Forwarding accepted := by
  refine ⟨htodo ▸ h.ordered, by rw [htodo, hvr]; exact h.fetched, ?_⟩
  rw [htx, ← h.sent, keysInHand, keysInHand, htodo, hvr, hnotified]
  -- the key data are the same, or nothing in hand depends on them
  rcases hkey with hkey | howed
  · rw [hkey]
  · obtain ⟨hnone, hcopy⟩ := h.of_owed_eq_zero howed
    rw [hnone, if_neg hcopy, if_neg hcopy]
    rfl

/-- An accepted update notifies `VirtualReceiver`. -/
theorem Forwarding.accept (h : s.Forwarding accepted) (htodo : s'.vrTodo = s.vrTodo)
    (hvr : s'.vr = s.vr) (htx : s'.tx = s.tx) (hkey : s'.kd.keydata = s.kd.keydata)
    (howed : Feed.keyb.owed .virtualReceiver (s.ths .virtualReceiver) = 0)
    (howed' : Feed.keyb.owed .virtualReceiver (s'.ths .virtualReceiver) = 1) :
    s'.Forwarding (accepted ++ [s.kd.keydata]) := by
  obtain ⟨hnone, hcopy⟩ := h.of_owed_eq_zero howed
  have hone : (s'.ths .virtualReceiver).notified 1 = 1 := by
    rw [owed_virtualReceiver] at howed howed'
    rw [htodo] at howed'
    omega
  refine ⟨htodo ▸ h.ordered, by rw [htodo, hvr]; exact h.fetched, ?_⟩
  rw [List.map_append, ← h.sent, htx, keysInHand, keysInHand, htodo, hvr, hnone, hone, if_neg hcopy,
    if_neg hcopy, hkey]
  simp [setKeyFrame]

/-- A step between two passes of the loop. -/
theorem Forwarding.idle (h : s.Forwarding accepted) (htodo : s.vrTodo = []) (htodo' : s'.vrTodo = [])
    (hvr : s'.vr = s.vr) (htx : s'.tx = s.tx) (hkd : s'.kd = s.kd)
    (howed : Feed.keyb.owed .virtualReceiver (s'.ths .virtualReceiver) =
      Feed.keyb.owed .virtualReceiver (s.ths .virtualReceiver)) : s'.Forwarding accepted := by
  rw [owed_virtualReceiver, owed_virtualReceiver, htodo, htodo'] at howed
  exact h.congr (htodo'.trans htodo.symm) hvr htx (by omega) (Or.inl (by rw [hkd]))

/-- The return from `signal_wait`: what `VirtualReceiver` was notified of it is about to copy. -/
theorem Forwarding.resume {oe : OsEvent} (h : s.Forwarding accepted) (htodo : s.vrTodo = [])
    (htodo' : s'.vrTodo = VirtualReceiver.body oe) (htx : s'.tx = s.tx) (hkd : s'.kd = s.kd)
    (howed : Feed.keyb.owed .virtualReceiver (s'.ths .virtualReceiver) =
      Feed.keyb.owed .virtualReceiver (s.ths .virtualReceiver)) : s'.Forwarding accepted := by
  obtain ⟨hordered, ⟨hcopy, hsend⟩, hget⟩ := keyOrdered_body oe
  have hcount : (VirtualReceiver.body oe).count ackKey = (oe.got 1).toNat :=
    (VirtualReceiver.consumed_body oe).1.1
  rw [owed_virtualReceiver, owed_virtualReceiver, htodo, htodo', hcount, List.count_nil,
    Nat.add_zero] at howed
  refine ⟨htodo' ▸ hordered, fun hmem hnot => ?_, ?_⟩
  · rw [htodo'] at hmem hnot
    exact absurd (hget.2 (hcopy.1 hmem)) hnot
  · rw [htx, ← h.sent, keysInHand, keysInHand, htodo, htodo', hkd]
    -- a grant of `KEY_EV_READY` becomes the copy and the frame of the key branch
    by_cases hgot : oe.got 1 = true
    · rw [hgot] at howed
      rw [if_pos (hsend.2 hgot), if_pos (hcopy.2 hgot), ← howed]
      rfl
    · rw [Bool.not_eq_true] at hgot
      rw [hgot] at howed
      rw [if_neg (by rw [hsend, hgot]; simp), ← howed]
      rfl

end Sys

namespace World

variable {v u : World (Reference Task Task Buffer)} {accepted : List Topic.KeyData}

/-- A pending update of `/keyb` is the last one accepted, and the pointer of the broker leads to
the key data of `KeyDecoder`, which are still the same. -/
def KeysPending (v : World (Reference Task Task Buffer)) (accepted : List Topic.KeyData) : Prop :=
  ∀ e, v.broker.lookup "/keyb" = some e → 0 < e.count →
    e.data = some .keydata ∧ accepted.getLast? = some v.sys.kd.keydata

/-- While a task owes an acknowledgement, `getTopicData` leads to the key data. -/
theorem KeysPending.getTopicData (h : v.KeysPending accepted)
    (hb : Feed.keyb.Balanced v.broker v.sys.ths) {t : Task}
    (howed : Feed.keyb.owed t (v.sys.ths t) ≠ 0) :
    (v.broker.getTopicData "/keyb").2 = some .keydata := by
  obtain ⟨e, he, -, -⟩ := hb.entry
  have hpos : 0 < e.count := by
    by_contra hzero
    exact howed ((hb.count_eq_zero_iff he).1 (by omega) t)
  change v.broker.lookup "/keyb" = some e at he
  simp only [Reference.getTopicData, he]
  exact (h e he hpos).1

/-- Once `getTopicData` has been executed, the pointer leads to the key data. -/
theorem fetched_of_stmt {st : VirtualReceiver.Stmt} {sts new : List VirtualReceiver.Stmt}
    (h : v.sys.Forwarding accepted) (hb : Feed.keyb.Balanced v.broker v.sys.ths)
    (hp : v.KeysPending accepted) (htodo : v.sys.vrTodo = st :: sts)
    (hexec : VirtualReceiver.exec Reference.impl v st = .ok (u, new))
    (hcopy : copyKey ∈ sts) (hget : getKey ∉ sts) : u.sys.vr.topicdata = some .keydata := by
  have hordered := h.ordered
  have hfetched := h.fetched
  rw [htodo] at hordered hfetched
  have hstep := hordered.1
  cases st with
  | getTopicData topicname =>
    by_cases hname : topicname = "/keyb"
    -- `VirtualReceiver` still owes the acknowledgement, so the update is pending
    · subst hname
      rw [(exec_getTopicData hexec).2.2]
      refine hp.getTopicData hb (t := .virtualReceiver) ?_
      simp only [KeyStep, if_true] at hstep
      have hcount := List.count_pos_iff.2 hstep
      rw [Sys.owed_virtualReceiver, htodo, List.count_cons]
      omega
    · simp only [KeyStep, hname, if_false] at hstep
      exact absurd hcopy hstep
  | copyTopic size => exact absurd hcopy hstep.1
  | sendCommand cmd size => exact absurd hcopy hstep.1
  | _ =>
    rw [(exec_quiet (by trivial) hexec).2.2]
    exact hfetched (List.mem_cons_of_mem _ hcopy) (by simp [hget])

/-- What is sent and what the statements of the pass still have in hand stay the same together. -/
theorem sent_of_stmt {st : VirtualReceiver.Stmt} {sts new : List VirtualReceiver.Stmt}
    (h : v.sys.Forwarding accepted) (htodo : v.sys.vrTodo = st :: sts)
    (hexec : VirtualReceiver.exec Reference.impl v st = .ok (u, new)) :
    setKeyFrames u.sys.tx ++ (v.sys.bytesInHand sts u.sys.vr.txpdu).map (commandFrame cmdSetKey) =
      setKeyFrames v.sys.tx ++
        (v.sys.bytesInHand (st :: sts) v.sys.vr.txpdu).map (commandFrame cmdSetKey) := by
  have hordered := h.ordered
  have hfetched := h.fetched
  rw [htodo] at hordered hfetched
  have hstep := hordered.1
  simp only [Sys.bytesInHand]
  cases st with
  | getTopicData topicname =>
    obtain ⟨htx, htxpdu, -⟩ := exec_getTopicData hexec
    rw [htx, htxpdu]
    simp
  | copyTopic size =>
    obtain ⟨htx, p, hdata, htxpdu⟩ := exec_copyTopic hexec
    rw [htx]
    by_cases hsize : size = Topic.sizeofKeyData
    -- the copy takes the key data as they are
    · subst hsize
      simp only [KeyStep, if_true] at hstep
      obtain ⟨hc, hg, -, hs⟩ := hstep
      have hkeydata : p = .keydata := by
        have htopic := hfetched List.mem_cons_self (by simp [hg])
        rw [hdata] at htopic
        exact Option.some.inj htopic
      have hbytes : u.sys.vr.txpdu.keyBytes = v.sys.kd.keydata.bytes := by
        rw [PDU.keyBytes, htxpdu, PDU.copy_data _ _ (by decide), hkeydata, Sys.map_read_keydata]
      simp [hs, hc, hbytes]
    · simp only [KeyStep, hsize, if_false] at hstep
      simp [hstep.2]
  | sendCommand cmd size =>
    obtain ⟨hc, hs, hsize, hcmd⟩ := hstep
    rw [exec_sendCommand hsize hexec, setKeyFrames_append]
    by_cases hkey : cmd = cmdSetKey
    -- the frame leaves the hand
    · rw [hcmd hkey]
      simp [hc, hs, hkey, PDU.keyBytes]
    · simp [hs, hkey, Ne.symm hkey]
  | _ =>
    obtain ⟨htx, htxpdu, -⟩ := exec_quiet (by trivial) hexec
    rw [htx, htxpdu]
    simp

/-- **The statements of `VirtualReceiver`** forward the key data. -/
theorem forwarding_of_stmt {s' : Sys} {st : VirtualReceiver.Stmt}
    {sts new : List VirtualReceiver.Stmt} (h : v.sys.Forwarding accepted)
    (hb : Feed.keyb.Balanced v.broker v.sys.ths) (hp : v.KeysPending accepted)
    (htodo : v.sys.vrTodo = st :: sts)
    (hexec : VirtualReceiver.exec Reference.impl v st = .ok (u, new))
    (htodo' : s'.vrTodo = new ++ sts) (hvr : s'.vr = u.sys.vr) (htx : s'.tx = u.sys.tx)
    (hkd : s'.kd = v.sys.kd)
    (howed : Feed.keyb.owed .virtualReceiver (s'.ths .virtualReceiver) +
        (if st = ackKey then 1 else 0) =
      Feed.keyb.owed .virtualReceiver (v.sys.ths .virtualReceiver)) :
    s'.Forwarding accepted := by
  have hnew : new ∈ VirtualReceiver.loop.next st := (VirtualReceiver.exec_access hexec).1
  have hmem : ∀ st' ∈ [getKey, copyKey, ackKey, sendKey], st' ∈ s'.vrTodo ↔ st' ∈ sts := by
    intro st' hst'
    rw [htodo', List.mem_append, or_iff_right (keyStmt_notMem_next hnew hst')]
  have hget := hmem getKey (by simp)
  have hcopy := hmem copyKey (by simp)
  have hsend := hmem sendKey (by simp)
  -- a statement only moves the acknowledgement, it takes no notification
  have hnotified : (s'.ths .virtualReceiver).notified 1 =
      (v.sys.ths .virtualReceiver).notified 1 := by
    rw [Sys.owed_virtualReceiver, Sys.owed_virtualReceiver, htodo, htodo', List.count_append,
      List.count_cons, List.count_eq_zero.2 (keyStmt_notMem_next hnew (by simp))] at howed
    simp only [beq_iff_eq] at howed
    omega
  have hordered := h.ordered
  rw [htodo] at hordered
  refine ⟨by rw [htodo']; exact hordered.2.append hnew, ?_, ?_⟩
  · rw [hcopy, hget, hvr]
    exact fetched_of_stmt h hb hp htodo hexec
  · have hsame : s'.bytesInHand s'.vrTodo s'.vr.txpdu = v.sys.bytesInHand sts u.sys.vr.txpdu := by
      simp only [Sys.bytesInHand, hcopy, hsend, hvr, hkd]
    have hsent := h.sent
    rw [Sys.keysInHand_eq, List.map_append, ← List.append_assoc, htodo] at hsent
    rw [Sys.keysInHand_eq, List.map_append, ← List.append_assoc, hsame, htx, hnotified, hkd,
      sent_of_stmt h htodo hexec, hsent]

/-- A step of `VirtualReceiver`. -/
theorem forwarding_of_run {v' : World (Reference Task Task Buffer)}
    (h : v.sys.Forwarding accepted) (hb : Feed.keyb.Balanced v.broker v.sys.ths)
    (hp : v.KeysPending accepted)
    (hst : v.runTask Reference.impl svcSignalWaitAny .virtualReceiver = some v') :
    v'.sys.Forwarding accepted := by
  have hkept : keyDuty.Kept (v.sys.ths .virtualReceiver) := hb.kept .virtualReceiver _ rfl
  have howed_setTh : ∀ (u : World (Reference Task Task Buffer)) th,
      Feed.keyb.owed .virtualReceiver ((u.setTh .virtualReceiver th).sys.ths .virtualReceiver) =
        keyDuty.owed th := fun u th => by rw [setTh_ths_self]; rfl
  rcases runTask_cases hst with ⟨hpc, rfl⟩ | ⟨hpc, oe, th, hres, hth, rfl⟩ | ⟨hpc, rfl⟩ |
    ⟨st, sts, u, new, hpc, hexec, rfl⟩
  -- the call of `signal_wait`, the return from it, the end of the body, a statement
  · refine h.idle (Sys.vrTodo_eq_nil (.inl hpc)) (Sys.vrTodo_eq_nil (.inr (vrPc_setTh v _))) rfl rfl
      rfl ?_
    rw [howed_setTh]
    exact (hkept.call hpc _).2
  · refine h.resume (Sys.vrTodo_eq_nil (.inr hpc))
      (Sys.vrTodo_of_body ((vrPc_setTh v th).trans hth)) rfl rfl ?_
    rw [howed_setTh]
    exact (hkept.resume hres).2
  · refine h.idle (Sys.vrTodo_of_body hpc) (Sys.vrTodo_eq_nil (.inl (vrPc_setTh v _))) rfl rfl rfl ?_
    rw [howed_setTh]
    exact (hkept.done hpc).2
  · obtain ⟨hnew, happ⟩ := VirtualReceiver.exec_access hexec
    refine forwarding_of_stmt h hb hp (Sys.vrTodo_of_body hpc) hexec
      (Sys.vrTodo_of_body (vrPc_setTh u _)) rfl rfl ?_ ?_
    · change u.sys.kd = v.sys.kd
      rw [VirtualReceiver.exec_sys hexec]
    · rw [howed_setTh]
      refine hb.owed_stmt (t := .virtualReceiver) hpc hnew happ (fun data datasize => ?_) rfl
      change VirtualReceiver.Stmt at st
      cases st <;> simp [Task.access, Feed.keyb]

/-! ### Every step -/

/-- What keeps the accepted updates on their way. -/
structure KeysSafe (v : World (Reference Task Task Buffer)) (accepted : List Topic.KeyData) :
    Prop where
  /-- `/keyb` is balanced. -/
  balanced : Feed.keyb.Balanced v.broker v.sys.ths
  /-- The size of `/keyb`. -/
  size : (v.broker.lookup "/keyb").map Entry.datasize = some Topic.sizeofKeyData
  /-- A pending update has not been overwritten. -/
  pending : v.KeysPending accepted
  /-- The frames sent, and the key data in hand. -/
  forwarding : v.sys.Forwarding accepted

variable {v' : World (Reference Task Task Buffer)} {topics : List String} {l : Label}

/-- The last accepted update of a pending `/keyb` stays what it is. -/
theorem KeysPending.move {a : Access} (h : v.KeysPending accepted)
    (hb : Feed.keyb.Balanced v.broker v.sys.ths)
    (hmove : Move svcSignalWaitAny v.broker v.sys.ths a v'.broker v'.sys.ths)
    (ha : ∀ data datasize, a = .publish "/keyb" data datasize →
      (Reference.publish Threads.onTopicUpdate v.broker "/keyb" (some data) datasize
        v.sys.ths).2.1 ≠ .noErrors)
    (hkey : v'.sys.kd.keydata = v.sys.kd.keydata ∨ ∀ t, Feed.keyb.owed t (v.sys.ths t) = 0) :
    v'.KeysPending accepted := by
  intro e' he' hpos
  rcases hmove.entry_of_pending he' hpos with ⟨data, datasize, hpub, hacc, -⟩ |
    ⟨e, he, hpos, hdata⟩
  · exact absurd hacc (ha data datasize hpub)
  · rcases hkey with hkey | howed
    · rw [← hdata, hkey]
      exact h e he hpos
    · have hzero := (hb.count_eq_zero_iff he).2 howed
      omega

/-- An accepted update of `KeyDecoder` is pending. -/
theorem keysPending_of_accepted
    (hmove : Move svcSignalWaitAny v.broker v.sys.ths
      (.publish "/keyb" .keydata Topic.sizeofKeyData) v'.broker v'.sys.ths)
    (hb : Feed.keyb.Balanced v.broker v.sys.ths)
    (howed : ∀ t, Feed.keyb.owed t (v.sys.ths t) = 0)
    (hkey : v'.sys.kd.keydata = v.sys.kd.keydata) :
    v'.KeysPending (accepted ++ [v.sys.kd.keydata]) := by
  intro e' he' hpos
  rcases hmove.entry_of_pending he' hpos with ⟨data, datasize, hpub, -, hdata⟩ |
    ⟨e, he, hpos, -⟩
  · cases hpub
    exact ⟨hdata, by rw [hkey, List.getLast?_concat]⟩
  · have hzero := (hb.count_eq_zero_iff he).2 howed
    omega

/-- Only `KeyDecoder` publishes `/keyb`. -/
theorem access_ne_publish_keyb (htopics : "/keyb" ∉ topics) (hne : l ≠ .run .keyDecoder)
    (hst : (machine Reference.impl svcSignalWaitAny topics).step v l = some v') (data : Buffer)
    (datasize : ℕ) : v.access l ≠ .publish "/keyb" data datasize := by
  intro haccess
  cases l with
  | publish name n datasize' =>
    simp only [machine, step] at hst
    split_ifs at hst with hname
    cases haccess
    exact htopics hname
  | run t =>
    rcases v.access_run t with hnone | ⟨st, sts, -, hst'⟩
    · rw [hnone] at haccess
      cases haccess
    · rw [hst'] at haccess
      cases t with
      | keyDecoder => exact hne rfl
      | virtualReceiver => cases st <;> simp [Task.access] at haccess
      | sysManager => cases st <;> simp [Task.access] at haccess
  | _ => cases haccess

/-- A step of another task than `KeyDecoder` and `VirtualReceiver`. -/
theorem KeysSafe.forwarding_of_other (h : v.KeysSafe accepted) (htopics : "/keyb" ∉ topics)
    (hst : (machine Reference.impl svcSignalWaitAny topics).step v l = some v')
    (hkd : l ≠ .run .keyDecoder) (hvr : l ≠ .run .virtualReceiver) :
    v'.sys.Forwarding accepted := by
  obtain ⟨hvr', htx, -⟩ := line_eq_of_step hst hvr
  have htodo := Sys.vrTodo_congr (pc_eq_of_step hst hvr)
  rcases change_of_step h.balanced hst hvr (by simp) with ⟨data, datasize, ha, -, -, -⟩ | ⟨-, howed⟩
  · exact absurd ha (access_ne_publish_keyb htopics hkd hst data datasize)
  · rw [Sys.owed_virtualReceiver, Sys.owed_virtualReceiver, htodo] at howed
    exact h.forwarding.congr htodo hvr' htx (by omega) (Or.inl (by rw [kd_eq_of_step hst hkd]))

/-- `KeyDecoder` publishes in one statement only. -/
theorem publish_of_access {data : Buffer} {datasize : ℕ}
    (ha : v.access (.run .keyDecoder) = .publish "/keyb" data datasize) :
    v.sys.kdTodo.head? = some .publish ∧ data = .keydata ∧ datasize = Topic.sizeofKeyData ∧
      ∃ sts, v.sys.kdPc = .body (.publish :: sts) := by
  rcases v.access_run .keyDecoder with hnone | ⟨st, sts, hpc, hst⟩
  · rw [hnone] at ha
    cases ha
  · rw [hst] at ha
    have hkd : v.sys.kdPc = .body (st :: sts) := hpc
    change KeyDecoder.Stmt at st
    cases st with
    | publish =>
      cases ha
      exact ⟨by rw [Sys.kdTodo, hkd]; rfl, rfl, rfl, sts, hkd⟩
    | _ => cases ha

/-- The key data change only while nobody owes an acknowledgement. -/
theorem keydata_of_writesUnowed (hC : WritesUnowed (v, accepted) (.run .keyDecoder))
    (hst : v.runTask Reference.impl svcSignalWaitAny .keyDecoder = some v') :
    v'.sys.kd.keydata = v.sys.kd.keydata ∨ ∀ t, Feed.keyb.owed t (v.sys.ths t) = 0 := by
  rw [keydata_of_runTask hst]
  by_cases hset : v.sys.kdTodo.head? = some .setKeydata
  · rw [if_pos hset]
    by_cases hcode : v.sys.kd.currentkey ^^^ v.sys.kd.lastkey = v.sys.kd.keydata.keycode
    · rw [hcode]
      exact Or.inl rfl
    · exact Or.inr (hC rfl hset hcode)
  · rw [if_neg hset]
    exact Or.inl rfl

/-- A step of `KeyDecoder`. -/
theorem KeysSafe.of_keyDecoder (h : v.KeysSafe accepted)
    (hC : WritesUnowed (v, accepted) (.run .keyDecoder))
    (hst : (machine Reference.impl svcSignalWaitAny topics).step v (.run .keyDecoder) = some v') :
    v'.KeysPending (v.sys.observeUpdate (.run .keyDecoder) v'.sys accepted) ∧
      v'.sys.Forwarding (v.sys.observeUpdate (.run .keyDecoder) v'.sys accepted) := by
  have hvrne : Label.run .keyDecoder ≠ .run .virtualReceiver := by simp
  have hmove := move_of_step hst
  obtain ⟨hvr, htx, -⟩ := line_eq_of_step hst hvrne
  have htodo := Sys.vrTodo_congr (pc_eq_of_step hst hvrne)
  have hkey := keydata_of_writesUnowed hC hst
  have hchange := change_of_step (t := .virtualReceiver) h.balanced hst hvrne (by simp)
  unfold Sys.observeUpdate
  by_cases hacc : v.sys.kdTodo.head? = some .publish ∧ v'.sys.kd.exception = .noErrors
  -- the broker accepts
  · obtain ⟨hpub, hexc⟩ := hacc
    obtain ⟨sts, hsts⟩ := List.head?_eq_some_iff.1 hpub
    have hpc := Sys.kdPc_of_kdTodo hsts
    have haccess : v.access (.run .keyDecoder) =
        .publish "/keyb" .keydata Topic.sizeofKeyData := by
      have hpc' : (v.sys.ths .keyDecoder).pc = .body (.publish :: sts) := hpc
      simp only [access, hpc']
      rfl
    have hsame : v'.sys.kd.keydata = v.sys.kd.keydata := by
      rw [keydata_of_runTask hst, if_neg (by rw [hpub]; simp)]
    have hexc' := (exception_of_publish hpc hst).symm.trans hexc
    have howed := (h.balanced.accepted_iff h.size _).1 hexc'
    rw [if_pos ⟨rfl, hpub, hexc⟩]
    rw [haccess] at hmove hchange
    refine ⟨keysPending_of_accepted hmove h.balanced howed hsame, ?_⟩
    rcases hchange with ⟨-, -, -, -, hzero, hone⟩ | ⟨hno, -⟩
    · exact h.forwarding.accept htodo hvr htx hsame hzero hone
    · exact absurd hexc' (hno _ _ rfl)
  -- there is no update, or it is refused
  · have hno : ∀ data datasize, v.access (.run .keyDecoder) = .publish "/keyb" data datasize →
        (Reference.publish Threads.onTopicUpdate v.broker "/keyb" (some data) datasize
          v.sys.ths).2.1 ≠ .noErrors := by
      intro data datasize ha hexc
      obtain ⟨hpub, rfl, rfl, sts, hpc⟩ := publish_of_access ha
      exact hacc ⟨hpub, (exception_of_publish hpc hst).trans hexc⟩
    rw [if_neg fun hobs => hacc hobs.2]
    refine ⟨h.pending.move h.balanced hmove hno hkey, ?_⟩
    rcases hchange with ⟨data, datasize, ha, hexc, -, -⟩ | ⟨-, howed⟩
    · exact absurd hexc (hno data datasize ha)
    · rw [Sys.owed_virtualReceiver, Sys.owed_virtualReceiver, htodo] at howed
      exact h.forwarding.congr htodo hvr htx (by omega) (hkey.imp_right fun h0 => h0 _)

/-- **Every step that meets the condition** keeps the accepted updates on their way. -/
theorem KeysSafe.step (h : v.KeysSafe accepted) (htopics : "/keyb" ∉ topics)
    (hC : WritesUnowed (v, accepted) l)
    (hst : (machine Reference.impl svcSignalWaitAny topics).step v l = some v') :
    v'.KeysSafe (v.sys.observeUpdate l v'.sys accepted) := by
  have hmove := move_of_step hst
  have hsafe : v'.KeysPending (v.sys.observeUpdate l v'.sys accepted) ∧
      v'.sys.Forwarding (v.sys.observeUpdate l v'.sys accepted) := by
    by_cases hkd : l = .run .keyDecoder
    · subst hkd
      exact h.of_keyDecoder hC hst
    · have hobs : v.sys.observeUpdate l v'.sys accepted = accepted := if_neg fun hobs => hkd hobs.1
      rw [hobs]
      refine ⟨h.pending.move h.balanced hmove (fun data datasize ha =>
        absurd ha (access_ne_publish_keyb htopics hkd hst data datasize))
        (Or.inl (by rw [kd_eq_of_step hst hkd])), ?_⟩
      by_cases hvr : l = .run .virtualReceiver
      · subst hvr
        exact forwarding_of_run h.forwarding h.balanced h.pending hst
      · exact h.forwarding_of_other htopics hst hkd hvr
  exact ⟨h.balanced.move hmove, (hmove.map_datasize_eq "/keyb").trans h.size, hsafe.1, hsafe.2⟩

theorem KeysSafe.keysForwarded (h : v.KeysSafe accepted) :
    KeysForwarded Reference.impl (v, accepted) := by
  refine ⟨⟨_, h.forwarding.sent⟩, fun hrest => ?_, fun e he hpos => ?_⟩
  · have htodo : v.sys.vrTodo = [] := Sys.vrTodo_eq_nil (hrest.1.imp id And.left)
    have howed := Feed.owed_of_atRest (F := Feed.keyb) hrest
    have hnone := (h.forwarding.of_owed_eq_zero howed).1
    have hsent := h.forwarding.sent
    rw [Sys.keysInHand, htodo, hnone] at hsent
    simpa using hsent
  · obtain ⟨hdata, hlast⟩ := h.pending e he hpos
    exact ⟨_, _, hlast, hdata, v.sys.map_read_keydata⟩

/-- Key data that change while an acknowledgement is owed overwrite a pending update. -/
theorem KeysSafe.not_keysForwarded (h : v.KeysSafe accepted) (hC : ¬ WritesUnowed (v, accepted) l)
    (hst : (machine Reference.impl svcSignalWaitAny topics).step v l = some v') :
    ¬ KeysForwarded Reference.impl (v', v.sys.observeUpdate l v'.sys accepted) := by
  unfold WritesUnowed at hC
  push Not at hC
  obtain ⟨rfl, hset, hcode, t, howed⟩ := hC
  obtain ⟨sts, hsts⟩ := List.head?_eq_some_iff.1 hset
  have hpc := Sys.kdPc_of_kdTodo hsts
  have hobs : v.sys.observeUpdate (.run .keyDecoder) v'.sys accepted = accepted :=
    if_neg fun hobs => by simp [hset] at hobs
  have hbroker := broker_of_setKeydata hpc hst
  rw [hobs]
  intro hforwarded
  obtain ⟨e, he, -, -⟩ := h.balanced.entry
  have hpos : 0 < e.count := by
    by_contra hzero
    exact howed ((h.balanced.count_eq_zero_iff he).1 (by omega) t)
  obtain ⟨hdata, hlast⟩ := h.pending e he hpos
  -- the pending update should still be read, but `_keydata` holds the new code
  obtain ⟨k, data, hk, hdata', hbytes⟩ := hforwarded.pending e (by rw [hbroker]; exact he) hpos
  rw [hlast] at hk
  rw [hdata] at hdata'
  cases hk
  cases hdata'
  rw [Sys.map_read_keydata, keydata_of_runTask hst, if_pos hset] at hbytes
  exact hcode (Topic.KeyData.keycode_eq_of_bytes_eq hbytes)

theorem keysSafe_start (hs : v.sys.Start) (hm : v.broker.Ready) : v.KeysSafe [] := by
  obtain ⟨keyb, hkeyb, hlookup⟩ := hm.lookup_keyb
  have hbalanced : Feed.keyb.Balanced v.broker v.sys.ths :=
    .start hs.ths ⟨_, hlookup, hkeyb, rfl⟩
  have htodo : v.sys.vrTodo = [] :=
    Sys.vrTodo_eq_nil (.inl (congrArg Thread.pc (hs.ths .virtualReceiver)))
  refine ⟨hbalanced, by rw [hlookup]; rfl, fun e he hpos => ?_, ?_, ?_, ?_⟩
  · rw [hlookup] at he
    cases he
    exact absurd hpos (Nat.lt_irrefl 0)
  · rw [htodo]
    trivial
  · rw [htodo]
    exact fun hmem => nomatch hmem
  · rw [hs.tx, Sys.keysInHand, htodo, hs.ths]
    rfl

/-! ### Over the broker of the source -/

theorem updateMachine_bisimulation (wait : OsTcb → BitVec 32 → ℕ → OsTcb) (topics : List String) :
    (updateMachine MsgBroker.impl wait topics).Bisimulation
      (updateMachine Reference.impl wait topics) fun p q => p.1.Mirrors q.1 ∧ p.2 = q.2 :=
  (mirrors_bisimulation wait topics).observe fun _ _ _ _ _ h h' => by rw [h.2, h'.2]

section

variable {w : World (MsgBroker Task Task Buffer)} {v : World (Reference Task Task Buffer)}
  {topics : List String} {accepted : List Topic.KeyData} {ls : List Label}

theorem Mirrors.keysForwarded_congr (h : w.Mirrors v) :
    KeysForwarded MsgBroker.impl (w, accepted) ↔ KeysForwarded Reference.impl (v, accepted) := by
  have hentry := h.entry "/keyb"
  constructor
  · rintro ⟨hsent, hrest, hpending⟩
    rw [hentry] at hpending
    rw [h.2] at hsent hrest hpending
    exact ⟨hsent, hrest, hpending⟩
  · rintro ⟨hsent, hrest, hpending⟩
    rw [← hentry] at hpending
    rw [← h.2] at hsent hrest hpending
    exact ⟨hsent, hrest, hpending⟩

theorem Mirrors.allStates_keysForwarded_iff (h : w.Mirrors v) :
    (updateMachine MsgBroker.impl svcSignalWaitAny topics).AllStates
        (KeysForwarded MsgBroker.impl) (w, accepted) ls ↔
      (updateMachine Reference.impl svcSignalWaitAny topics).AllStates
        (KeysForwarded Reference.impl) (v, accepted) ls := by
  refine (updateMachine_bisimulation svcSignalWaitAny topics).allStates_iff ?_ ⟨h, rfl⟩
  rintro ⟨p, _⟩ ⟨q, _⟩ ⟨hpq, rfl⟩
  exact hpq.keysForwarded_congr

theorem Mirrors.allSteps_writesUnowed_iff (h : w.Mirrors v) :
    (updateMachine MsgBroker.impl svcSignalWaitAny topics).AllSteps WritesUnowed (w, accepted)
        ls ↔
      (updateMachine Reference.impl svcSignalWaitAny topics).AllSteps WritesUnowed (v, accepted)
        ls := by
  refine (updateMachine_bisimulation svcSignalWaitAny topics).allSteps_iff ?_ ⟨h, rfl⟩
  intro p q l hpq
  rw [WritesUnowed, WritesUnowed, hpq.1.2]

end

/-- **The runs in which no pending update is overwritten**: each accepted update of `/keyb` becomes
one `CMD_SET_KEY` frame with the key data that was accepted, and as long as it is pending
`getTopicData` leads to that key data, exactly if no subscriber owes an acknowledgement of `/keyb`
whenever `KeyDecoder` changes its key data. -/
theorem keysForwarded_iff {topics : List String} (htopics : "/keyb" ∉ topics)
    {w : World (MsgBroker Task Task Buffer)} (h : w.Start) (ls : List Label) :
    (updateMachine MsgBroker.impl svcSignalWaitAny topics).AllStates
        (KeysForwarded MsgBroker.impl) (w, []) ls ↔
      (updateMachine MsgBroker.impl svcSignalWaitAny topics).AllSteps WritesUnowed (w, []) ls := by
  obtain ⟨v, hwv, hs, hm⟩ := h.mirrors
  rw [hwv.allStates_keysForwarded_iff, hwv.allSteps_writesUnowed_iff]
  refine Machine.allStates_iff_of_strengthening (J := fun p => p.1.KeysSafe p.2)
    (keysSafe_start hs hm) (fun p hp => hp.keysForwarded) ?_ ?_
  · rintro ⟨v, accepted⟩ l ⟨v', accepted'⟩ hp hC hst
    obtain ⟨hst, hobs⟩ := Machine.observe_step hst
    rw [hobs]
    exact hp.step htopics hC hst
  · rintro ⟨v, accepted⟩ l ⟨v', accepted'⟩ hp hC hst
    obtain ⟨hst, hobs⟩ := Machine.observe_step hst
    change accepted' = _ at hobs
    rw [hobs]
    exact hp.not_keysForwarded hC hst

/-- A key is pressed, and `VirtualReceiver` sends the frame. -/
theorem keysForwarded_press : ∃ w : World (MsgBroker Task Task Buffer), w.Start ∧
    (updateMachine MsgBroker.impl svcSignalWaitAny []).AllStates (KeysForwarded MsgBroker.impl)
      (w, []) (edgePass true ++ List.replicate 10 (.run .virtualReceiver)) := by
  obtain ⟨w, hw, hmirrors⟩ := exists_start
  refine ⟨w, hw, (keysForwarded_iff (by simp) hw _).2 ?_⟩
  rw [hmirrors.allSteps_writesUnowed_iff]
  decide +kernel

/-- A key is pressed and released before `VirtualReceiver` has run.  The broker accepts the press
and refuses the release, but the frame tells the release. -/
theorem not_keysForwarded_release :
    ∃ w : World (MsgBroker Task Task Buffer), w.Start ∧
      ¬ (updateMachine MsgBroker.impl svcSignalWaitAny []).AllStates
        (KeysForwarded MsgBroker.impl) (w, [])
        (edgePass true ++ edgePass false ++ List.replicate 7 (.run .virtualReceiver)) ∧
      ∃ p, (updateMachine MsgBroker.impl svcSignalWaitAny []).run (w, [])
          (edgePass true ++ edgePass false ++ List.replicate 7 (.run .virtualReceiver)) = some p ∧
        p.2 = [⟨1, 0⟩] ∧ setKeyFrames p.1.sys.tx = [setKeyFrame ⟨0, 0⟩] := by
  obtain ⟨w, hw, hmirrors⟩ := exists_start
  have heval : ((updateMachine Reference.impl svcSignalWaitAny []).run
      (⟨Reference.setup, Sys.boot⟩, [])
      (edgePass true ++ edgePass false ++ List.replicate 7 (.run .virtualReceiver))).map
        (fun q => (q.2, setKeyFrames q.1.sys.tx)) =
      some ([⟨1, 0⟩], [setKeyFrame ⟨0, 0⟩]) := by decide +kernel
  obtain ⟨q, hq, heq⟩ := Option.map_eq_some_iff.1 heval
  obtain ⟨p, hp, hpq⟩ := (updateMachine_bisimulation svcSignalWaitAny []).symm.run
    (t := (w, [])) ⟨hmirrors, rfl⟩ hq
  have hframes : p.2 = [⟨1, 0⟩] ∧ setKeyFrames p.1.sys.tx = [setKeyFrame ⟨0, 0⟩] := by
    rw [hpq.1.2, hpq.2]
    exact Prod.mk.inj heq
  refine ⟨w, hw, fun hall => ?_, p, hp, hframes⟩
  have hsent := (hall.last hp).sent
  rw [hframes.1, hframes.2] at hsent
  exact absurd hsent (by decide)

end World

end UavTelemetry
