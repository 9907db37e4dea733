import UavTelemetry.Receiver.Pdu
import Mathlib.Data.List.Induction
import Mathlib.Data.Nat.Basic

/-!
# How the decoder reads a stream

`decodePdu` started in `statWaitResponse` reads every stream in the same way
(`Reception`): *stale* bytes without a head flag, a head flag, *bad* bytes too large for a size,
a size byte, the data bytes, and then for ever *late* bytes, each compared with the checksum of
the size and data bytes read.  Nothing but the caller leaves the last state.

## Main definitions

* `Reception` : the parts of a stream whose data bytes have all been read.
* `AtData d size body` : the decoder has read `size` and `body` and compares checksums.
* `Tracks d bs` : what the state of the decoder says of the bytes `bs` read so far.

## Main results

* `atData_after` : where a reception leaves the decoder, and with which codes.
* `buffer` : what it leaves in the receive buffer.
* `tracks_after` : `Tracks` holds along every stream.
* `ready_iff` : `decodePdu` answers `cmdReady` exactly when the bytes before are a reception and
  the byte is its checksum.
-/

namespace UavTelemetry

namespace VirtualReceiver

/-! ### One call -/

theorem cmdError_ne_cmdReady : cmdError ≠ cmdReady := by decide

theorem cmdDecoding_ne_cmdReady : cmdDecoding ≠ cmdReady := by decide

theorem decodePdu_wait_ne {d : Decoder} {b : UInt8} (hd : d.protostat = .statWaitResponse)
    (hb : b ≠ headFlag) : decodePdu d b = (cmdError, d) := by
  simp [decodePdu, hd, hb]

theorem decodePdu_wait_head {d : Decoder} (hd : d.protostat = .statWaitResponse) :
    decodePdu d headFlag = (cmdDecoding,
      { d with rxpdu := { d.rxpdu with head := headFlag }, protostat := .statRecvHead }) := by
  simp [decodePdu, hd]

theorem decodePdu_head_bad {d : Decoder} {b : UInt8} (hd : d.protostat = .statRecvHead)
    (hb : maxSize ≤ b) : decodePdu d b = (cmdError, d) := by
  simp [decodePdu, hd, hb]

theorem decodePdu_head_size {d : Decoder} {b : UInt8} (hd : d.protostat = .statRecvHead)
    (hb : b < maxSize) : decodePdu d b = (cmdDecoding,
      { rxpdu := { d.rxpdu with size := b }, datasize := 0, protostat := .statRecvSize }) := by
  simp [decodePdu, hd, UInt8.not_le.2 hb]

theorem toNat_lt_of_lt_maxSize {b : UInt8} (hb : b < maxSize) : b.toNat < 32 :=
  UInt8.lt_iff_toNat_lt.1 hb

theorem take_succ_set {α : Type*} {l : List α} {i : ℕ} (a : α) (hi : i < l.length) :
    (l.set i a).take (i + 1) = l.take i ++ [a] := by
  rw [List.take_add_one, List.take_set_of_le (Nat.le_refl i)]
  simp [hi]

/-- A data byte goes to the end of the bytes already received; the last one moves the decoder to
`statRecvData`. -/
theorem decodePdu_size {d : Decoder} (b : UInt8) (hd : d.protostat = .statRecvSize)
    (hk : d.datasize.toNat < 32) :
    (decodePdu d b).1 = cmdDecoding ∧
      (decodePdu d b).2.protostat =
        (if d.rxpdu.size.toNat ≤ d.datasize.toNat + 1 then .statRecvData else .statRecvSize) ∧
      (decodePdu d b).2.rxpdu.size = d.rxpdu.size ∧
      (decodePdu d b).2.datasize.toNat = d.datasize.toNat + 1 ∧
      (decodePdu d b).2.rxpdu.data.toList.take (d.datasize.toNat + 1) =
        d.rxpdu.data.toList.take d.datasize.toNat ++ [b] := by
  have hnext : (d.datasize + 1).toNat = d.datasize.toNat + 1 := by
    rw [UInt8.toNat_add]
    simp
    omega
  refine ⟨by simp [decodePdu, hd], ?_, by simp [decodePdu, hd], by simp [decodePdu, hd, hnext],
    ?_⟩
  · simp [decodePdu, hd, UInt8.le_iff_toNat_le, hnext]
  · simp only [decodePdu, hd, Vector.toList_setIfInBounds]
    exact take_succ_set b (by simpa using hk)

/-! ### Comparing checksums -/

/-- The decoder has read the size byte `size` and the data bytes `body`, and compares every
further byte with their checksum. -/
structure AtData (d : Decoder) (size : UInt8) (body : List UInt8) : Prop where
  /-- The state of the protocol. -/
  stat : d.protostat = .statRecvData
  /-- The size byte is stored. -/
  size_eq : d.rxpdu.size = size
  /-- The counter stands behind the data bytes. -/
  datasize_eq : d.datasize.toNat = body.length
  /-- There is room for the checksum. -/
  room : body.length < 32
  /-- The data bytes are stored. -/
  data_eq : d.rxpdu.data.toList.take body.length = body

/-- The code returned for a byte in `statRecvData`. -/
def checkCode (size : UInt8) (body : List UInt8) (b : UInt8) : UInt8 :=
  if b = xorFold (size :: body) then cmdReady else cmdError

/-- One checksum byte: the answer depends on the bytes read only, and the decoder stays where it
is, whatever the answer. -/
theorem AtData.step {d : Decoder} {size : UInt8} {body : List UInt8} (h : AtData d size body)
    (b : UInt8) :
    (decodePdu d b).1 = checkCode size body b ∧ AtData (decodePdu d b).2 size body := by
  obtain ⟨hstat, hsize, hds, hroom, hdata⟩ := h
  have hnext : (d.datasize + 1).toNat = body.length + 1 := by
    rw [UInt8.toNat_add]
    simp
    omega
  have htake : (d.rxpdu.data.setIfInBounds d.datasize.toNat b).toList.take body.length = body := by
    rw [Vector.toList_setIfInBounds, List.take_set_of_le (Nat.le_of_eq hds.symm), hdata]
  refine ⟨?_, by simp [decodePdu, hstat], by simp [decodePdu, hstat, hsize],
    by simp [decodePdu, hstat, hds], hroom, by simpa [decodePdu, hstat] using htake⟩
  have hcrc : getCRC (PDU.fromSize
      ⟨d.rxpdu.head, d.rxpdu.size, d.rxpdu.data.setIfInBounds d.datasize.toNat b⟩)
      (d.datasize + 1) = xorFold (size :: body) := by
    rw [getCRC_fromSize _ (Nat.le_of_lt hroom) _ hnext, htake, hsize]
  have hread : (d.rxpdu.data.setIfInBounds d.datasize.toNat b).toList.getD d.datasize.toNat 0 = b := by
    simp [List.getD_eq_getElem?_getD, hds, hroom]
  simp only [decodePdu, hstat, checkCRC, hread, hcrc, beq_iff_eq, checkCode, eq_comm (b := b)]

/-- A checksum byte, right or wrong, is stored behind the data bytes. -/
theorem AtData.stored {d : Decoder} {size : UInt8} {body : List UInt8} (h : AtData d size body)
    (b : UInt8) :
    (decodePdu d b).2.rxpdu.data.toList.take (body.length + 1) = body ++ [b] := by
  have hlt : body.length < d.rxpdu.data.toList.length := by simpa using h.room
  simp only [decodePdu, h.stat, Vector.toList_setIfInBounds, h.datasize_eq]
  rw [take_succ_set b hlt, h.data_eq]

/-- Late bytes are answered one by one. -/
theorem AtData.late {d : Decoder} {size : UInt8} {body : List UInt8} (h : AtData d size body)
    (late : List UInt8) :
    codes d late = late.map (checkCode size body) ∧ AtData (after d late) size body := by
  induction late generalizing d with
  | nil => exact ⟨rfl, h⟩
  | cons b late ih =>
    obtain ⟨hcode, hnext⟩ := h.step b
    obtain ⟨hcodes, hafter⟩ := ih hnext
    exact ⟨by simp [hcode, hcodes], hafter⟩

/-- Behind its place, the checksum leaves the buffer alone. -/
theorem AtData.late_drop {d : Decoder} {size : UInt8} {body : List UInt8} (h : AtData d size body)
    (late : List UInt8) :
    (after d late).rxpdu.data.toList.drop (body.length + 1) =
      d.rxpdu.data.toList.drop (body.length + 1) := by
  induction late generalizing d with
  | nil => rfl
  | cons b late ih =>
    rw [after_cons, ih (h.step b).2]
    simp only [decodePdu, h.stat, Vector.toList_setIfInBounds, h.datasize_eq]
    exact List.drop_set_of_lt (Nat.lt_succ_self _)

/-! ### Stale, bad and data bytes -/

theorem decode_stale {d : Decoder} {stale : List UInt8} (hd : d.protostat = .statWaitResponse)
    (hs : headFlag ∉ stale) :
    codes d stale = List.replicate stale.length cmdError ∧ after d stale = d := by
  induction stale with
  | nil => exact ⟨rfl, rfl⟩
  | cons b stale ih =>
    rw [List.mem_cons, not_or] at hs
    obtain ⟨hcodes, hafter⟩ := ih hs.2
    have hstep := decodePdu_wait_ne hd (Ne.symm hs.1)
    simp [hstep, hcodes, hafter, List.replicate_succ]

theorem decode_bad {d : Decoder} {bad : List UInt8} (hd : d.protostat = .statRecvHead)
    (hb : ∀ b ∈ bad, maxSize ≤ b) :
    codes d bad = List.replicate bad.length cmdError ∧ after d bad = d := by
  induction bad with
  | nil => exact ⟨rfl, rfl⟩
  | cons b bad ih =>
    obtain ⟨hcodes, hafter⟩ := ih fun c hc => hb c (List.mem_cons_of_mem b hc)
    have hstep := decodePdu_head_bad hd (hb b List.mem_cons_self)
    simp [hstep, hcodes, hafter, List.replicate_succ]

/-- The number of data bytes the decoder reads for a size byte: a zero size takes one byte. -/
def bodyLength (size : UInt8) : ℕ := max size.toNat 1

/-- The remaining data bytes of a frame.  The induction is on the bytes, the decoder's counter
and the stored prefix growing with them. -/
theorem decode_body {d : Decoder} {body : List UInt8} (hd : d.protostat = .statRecvSize)
    (hsize : d.rxpdu.size < maxSize) (hne : body ≠ [])
    (hlen : d.datasize.toNat + body.length = bodyLength d.rxpdu.size) :
    codes d body = List.replicate body.length cmdDecoding ∧
      AtData (after d body) d.rxpdu.size
        (d.rxpdu.data.toList.take d.datasize.toNat ++ body) := by
  have hs := toNat_lt_of_lt_maxSize hsize
  induction body generalizing d with
  | nil => exact absurd rfl hne
  | cons b body ih =>
    simp only [bodyLength, List.length_cons] at hlen
    obtain ⟨hcode, hstat, hsz, hds, htake⟩ := decodePdu_size b hd (by omega)
    -- the last data byte moves the decoder on, the others keep it where it is
    rcases body with _ | ⟨c, body⟩
    · simp only [List.length_nil] at hlen
      have hlast : d.rxpdu.size.toNat ≤ d.datasize.toNat + 1 := by omega
      rw [if_pos hlast] at hstat
      have hl : (d.rxpdu.data.toList.take d.datasize.toNat ++ [b]).length =
          d.datasize.toNat + 1 := by
        simp
        omega
      exact ⟨by simp [hcode], hstat, hsz, by rw [hl]; exact hds, by rw [hl]; omega,
        by rw [hl]; exact htake⟩
    · simp only [List.length_cons] at hlen
      have hmore : ¬ d.rxpdu.size.toNat ≤ d.datasize.toNat + 1 := by omega
      rw [if_neg hmore] at hstat
      obtain ⟨hcodes, hat⟩ := ih hstat (by rw [hsz]; exact hsize) (List.cons_ne_nil c body)
        (by rw [hds, hsz]; simp only [bodyLength, List.length_cons]; omega) (by rw [hsz]; exact hs)
      rw [hsz, hds, htake, List.append_assoc, List.singleton_append] at hat
      refine ⟨?_, hat⟩
      rw [codes_cons, hcode, hcodes]
      simp [List.replicate_succ]

/-- Behind their places, the data bytes leave the buffer alone. -/
theorem decode_body_drop {d : Decoder} {body : List UInt8} {n : ℕ}
    (hd : d.protostat = .statRecvSize ∨ d.protostat = .statRecvData)
    (hlen : d.datasize.toNat + body.length ≤ n) :
    (after d body).rxpdu.data.toList.drop n = d.rxpdu.data.toList.drop n := by
  induction body generalizing d with
  | nil => rfl
  | cons b body ih =>
    rw [List.length_cons] at hlen
    have hnext : (d.datasize + 1).toNat ≤ d.datasize.toNat + 1 := by
      rw [UInt8.toNat_add]
      exact Nat.mod_le _ _
    rw [after_cons]
    rcases hd with hd | hd
    · rw [ih]
      · simp only [decodePdu, hd, Vector.toList_setIfInBounds]
        exact List.drop_set_of_lt (by omega)
      · simp only [decodePdu, hd]
        split_ifs
        · exact Or.inr rfl
        · exact Or.inl rfl
      · simp only [decodePdu, hd]
        omega
    · rw [ih]
      · simp only [decodePdu, hd, Vector.toList_setIfInBounds]
        exact List.drop_set_of_lt (by omega)
      · simp only [decodePdu, hd]
        exact Or.inr trivial
      · simp only [decodePdu, hd]
        omega

/-! ### Receptions -/

/-- The parts of a stream that `decodePdu` has read up to the checksum. -/
structure Reception where
  /-- Bytes before the first head flag. -/
  stale : List UInt8
  /-- Bytes after the head flag that are too large for a size. -/
  bad : List UInt8
  /-- The size byte. -/
  size : UInt8
  /-- The data bytes. -/
  body : List UInt8
  /-- Bytes after the data bytes. -/
  late : List UInt8
  /-- There is no head flag among the stale bytes. -/
  noHead : headFlag ∉ stale
  /-- The bad bytes are no sizes. -/
  bad_ge : ∀ b ∈ bad, maxSize ≤ b
  /-- The size byte is one. -/
  size_lt : size < maxSize
  /-- The number of data bytes. -/
  body_length : body.length = bodyLength size

namespace Reception

/-- The bytes up to the last data byte. -/
def opening (r : Reception) : List UInt8 := r.stale ++ headFlag :: r.bad ++ r.size :: r.body

/-- The bytes read. -/
def bytes (r : Reception) : List UInt8 := r.opening ++ r.late

/-- The checksum the decoder compares the next byte with. -/
def checksum (r : Reception) : UInt8 := xorFold (r.size :: r.body)

/-- The reception with one more late byte. -/
def snoc (r : Reception) (b : UInt8) : Reception := { r with late := r.late ++ [b] }

theorem bytes_snoc (r : Reception) (b : UInt8) : (r.snoc b).bytes = r.bytes ++ [b] := by
  simp [bytes, opening, snoc]

theorem body_length_lt (r : Reception) : r.body.length < 32 := by
  have := toNat_lt_of_lt_maxSize r.size_lt
  rw [r.body_length, bodyLength]
  omega

theorem body_ne_nil (r : Reception) : r.body ≠ [] := by
  intro h
  have := r.body_length
  simp [h, bodyLength] at this
  omega

/-- The bytes up to the last data byte never give `cmdReady`. -/
theorem atData_opening (r : Reception) {d : Decoder} (hd : d.protostat = .statWaitResponse) :
    cmdReady ∉ codes d r.opening ∧ AtData (after d r.opening) r.size r.body := by
  obtain ⟨hstale, hafter₀⟩ := decode_stale hd r.noHead
  set d₁ : Decoder :=
    { d with rxpdu := { d.rxpdu with head := headFlag }, protostat := .statRecvHead } with hd₁
  obtain ⟨hbad, hafter₁⟩ := decode_bad (d := d₁) rfl r.bad_ge
  set d₂ : Decoder :=
    { rxpdu := { d₁.rxpdu with size := r.size }, datasize := 0, protostat := .statRecvSize }
    with hd₂
  obtain ⟨hbody, hat⟩ := decode_body (d := d₂) rfl r.size_lt r.body_ne_nil
    (by simp [hd₂, r.body_length])
  have hhead : decodePdu d headFlag = (cmdDecoding, d₁) := decodePdu_wait_head hd
  have hsize : decodePdu d₁ r.size = (cmdDecoding, d₂) := decodePdu_head_size rfl r.size_lt
  have hat' : AtData (after d₂ r.body) r.size r.body := by simpa [hd₂] using hat
  refine ⟨?_, ?_⟩
  · simp [opening, codes_append, hstale, hafter₀, hhead, hbad, hafter₁, hsize,
      hbody, List.mem_replicate, cmdError_ne_cmdReady.symm, cmdDecoding_ne_cmdReady.symm]
  · simpa [opening, after_append, hafter₀, hhead, hafter₁, hsize] using hat'

/-- **Where a reception leaves the decoder**: comparing checksums. -/
theorem atData_after (r : Reception) {d : Decoder} (hd : d.protostat = .statWaitResponse) :
    AtData (after d r.bytes) r.size r.body := by
  rw [bytes, after_append]
  exact ((r.atData_opening hd).2.late r.late).2

/-- **What a reception leaves in the buffer**: its data bytes, the byte that was compared with the
checksum last, and behind it what was there before. -/
theorem buffer (r : Reception) (c : UInt8) {d : Decoder} (hd : d.protostat = .statWaitResponse) :
    (after d (r.bytes ++ [c])).rxpdu.data.toList =
      r.body ++ c :: d.rxpdu.data.toList.drop (r.body.length + 1) := by
  have htake : (after d (r.bytes ++ [c])).rxpdu.data.toList.take (r.body.length + 1) =
      r.body ++ [c] := by
    rw [after_append]
    exact (r.atData_after hd).stored c
  have hdrop : (after d (r.bytes ++ [c])).rxpdu.data.toList.drop (r.body.length + 1) =
      d.rxpdu.data.toList.drop (r.body.length + 1) := by
    rw [bytes, List.append_assoc, after_append,
      (r.atData_opening hd).2.late_drop (r.late ++ [c]), opening, List.append_assoc, after_append,
      (decode_stale hd r.noHead).2, List.cons_append, after_cons, decodePdu_wait_head hd, after_append,
      (decode_bad rfl r.bad_ge).2, after_cons, decodePdu_head_size rfl r.size_lt,
      decode_body_drop (Or.inl rfl)]
    simp
  rw [← List.take_append_drop (r.body.length + 1) (after d (r.bytes ++ [c])).rxpdu.data.toList,
    htake, hdrop, List.append_assoc]
  rfl

end Reception

/-! ### The state tells what was read -/

/-- What the state of the decoder says of the bytes read since `statWaitResponse`. -/
def Tracks (d : Decoder) (bs : List UInt8) : Prop :=
  match d.protostat with
  | .statWaitCommand => False
  | .statWaitResponse => headFlag ∉ bs
  | .statRecvHead => ∃ stale bad, headFlag ∉ stale ∧ (∀ b ∈ bad, maxSize ≤ b) ∧
      bs = stale ++ headFlag :: bad
  | .statRecvSize => ∃ stale bad body, headFlag ∉ stale ∧ (∀ b ∈ bad, maxSize ≤ b) ∧
      d.rxpdu.size < maxSize ∧ bs = stale ++ headFlag :: bad ++ d.rxpdu.size :: body ∧
      d.datasize.toNat = body.length ∧ body.length < bodyLength d.rxpdu.size ∧
      d.rxpdu.data.toList.take body.length = body
  | .statRecvData => ∃ r : Reception, bs = r.bytes ∧ AtData d r.size r.body

/-- `Tracks` is preserved by every call, one case per state of the protocol. -/
theorem Tracks.step {d : Decoder} {bs : List UInt8} (h : Tracks d bs) (b : UInt8) :
    Tracks (decodePdu d b).2 (bs ++ [b]) := by
  cases hstat : d.protostat with
  | statWaitCommand => simp [Tracks, hstat] at h
  | statWaitResponse =>
    simp only [Tracks, hstat] at h
    -- a head flag ends the stale bytes
    by_cases hb : b = headFlag
    · subst hb
      rw [decodePdu_wait_head hstat]
      exact ⟨bs, [], h, by simp, rfl⟩
    · rw [decodePdu_wait_ne hstat hb]
      simp [Tracks, hstat, h, Ne.symm hb]
  | statRecvHead =>
    simp only [Tracks, hstat] at h
    obtain ⟨stale, bad, hstale, hbad, rfl⟩ := h
    -- a bad byte keeps the state, a size byte starts the data
    by_cases hb : maxSize ≤ b
    · rw [decodePdu_head_bad hstat hb]
      simp only [Tracks, hstat]
      refine ⟨stale, bad ++ [b], hstale, fun c hc => ?_, by simp⟩
      rcases List.mem_append.1 hc with hc | hc
      · exact hbad c hc
      · rw [List.mem_singleton.1 hc]
        exact hb
    · have hb' : b < maxSize := UInt8.not_le.1 hb
      rw [decodePdu_head_size hstat hb']
      refine ⟨stale, bad, [], hstale, hbad, hb', by simp, rfl, ?_, rfl⟩
      simp only [bodyLength, List.length_nil]
      omega
  | statRecvSize =>
    simp only [Tracks, hstat] at h
    obtain ⟨stale, bad, body, hstale, hbad, hsize, rfl, hds, hlen, htake⟩ := h
    have hs := toNat_lt_of_lt_maxSize hsize
    rw [bodyLength] at hlen
    obtain ⟨-, hstat', hsz, hds', htake'⟩ := decodePdu_size b hstat (by omega)
    rw [hds, htake] at htake'
    rw [hds] at hds' hstat'
    by_cases hlast : d.rxpdu.size.toNat ≤ body.length + 1
    -- the last data byte: the stream so far is a reception without late bytes
    · rw [if_pos hlast] at hstat'
      simp only [Tracks, hstat']
      refine ⟨⟨stale, bad, d.rxpdu.size, body ++ [b], [], hstale, hbad, hsize, ?_⟩, ?_,
        hstat', hsz, by simpa using hds', ?_, by simpa using htake'⟩
      · simp [bodyLength]
        omega
      · simp [Reception.bytes, Reception.opening]
      · simp
        omega
    · rw [if_neg hlast] at hstat'
      simp only [Tracks, hstat', hsz]
      refine ⟨stale, bad, body ++ [b], hstale, hbad, hsize, by simp, by simpa using hds', ?_,
        by simpa using htake'⟩
      simp [bodyLength]
      omega
  | statRecvData =>
    simp only [Tracks, hstat] at h
    obtain ⟨r, rfl, hat⟩ := h
    -- every further byte is a late one
    have hnext := (hat.step b).2
    simp only [Tracks, hnext.stat]
    exact ⟨r.snoc b, (r.bytes_snoc b).symm, hnext⟩

/-- `Tracks` holds along every stream fed to a decoder that waits for a response. -/
theorem tracks_after {d : Decoder} (hd : d.protostat = .statWaitResponse) (bs : List UInt8) :
    Tracks (after d bs) bs := by
  induction bs using List.reverseRecOn with
  | nil => simp [Tracks, hd]
  | append_singleton bs b ih =>
    rw [after_append]
    exact ih.step b

/-- **When a frame is reported.**  A decoder that waits for a response answers `cmdReady` to a
byte exactly when the bytes before it are a reception and the byte is the checksum. -/
theorem ready_iff {d : Decoder} (hd : d.protostat = .statWaitResponse) (bs : List UInt8)
    (b : UInt8) :
    (decodePdu (after d bs) b).1 = cmdReady ↔
      ∃ r : Reception, bs = r.bytes ∧ b = r.checksum := by
  constructor
  · intro hready
    have htracks := tracks_after hd bs
    -- only `statRecvData` answers `cmdReady`
    cases hstat : (after d bs).protostat with
    | statRecvData =>
      simp only [Tracks, hstat] at htracks
      obtain ⟨r, hbs, hat⟩ := htracks
      refine ⟨r, hbs, ?_⟩
      rw [(hat.step b).1, checkCode] at hready
      split_ifs at hready with hb
      · exact hb
      · exact absurd hready cmdError_ne_cmdReady
    | statWaitCommand => simp [decodePdu, hstat, cmdError_ne_cmdReady] at hready
    | statWaitResponse =>
      simp only [decodePdu, hstat] at hready
      split_ifs at hready
      · exact absurd hready cmdError_ne_cmdReady
      · exact absurd hready cmdDecoding_ne_cmdReady
    | statRecvHead =>
      simp only [decodePdu, hstat] at hready
      split_ifs at hready
      · exact absurd hready cmdError_ne_cmdReady
      · exact absurd hready cmdDecoding_ne_cmdReady
    | statRecvSize =>
      simp only [decodePdu, hstat] at hready
      exact absurd hready cmdDecoding_ne_cmdReady
  · rintro ⟨r, rfl, rfl⟩
    rw [((r.atData_after hd).step _).1]
    exact if_pos rfl

end VirtualReceiver

end UavTelemetry
