import UavTelemetry.Receiver.Decoder

/-!
# Frames, and what the decoder makes of them

A *frame* is what a well-behaved peer puts on the line: a head flag, a size byte `n` with
`1 ≤ n < MAX_SIZE`, `n` data bytes and their checksum.  This file relates the decoder to frames:

* `decode_send` : what `send` encodes, `decodePdu` decodes, byte for byte.
* `sound_iff` : the streams on which every frame the decoder reports has really been received.
  The error answers of `decodePdu` leave the state as it is, so a byte that comes after a wrong
  checksum, or after a size byte that is too large, may complete a frame that was never sent; and
  a zero size is read as a size of one.
* `resync_iff` : when the decoder takes the first good frame after an error or a response that is
  not acknowledged.  Behind the data bytes of a frame it does not look for a head flag any more.

## Main definitions

* `Frame` : a well-formed frame; `Frame.bytes` are its bytes.
* `commandFrame` : the bytes for a command with its data.
* `Delivered d f` : the receive buffer holds the size and the data of `f`.
* `Sound d bs` : soundness of the decoder on a stream.
* `Resync d f` : the decoder reports `f` on its last byte and not earlier.
-/

namespace UavTelemetry

namespace VirtualReceiver

/-- A well-formed frame. -/
structure Frame where
  /-- The data bytes. -/
  data : List UInt8
  /-- There is a command byte. -/
  pos : 1 ≤ data.length
  /-- The checksum fits in the buffer. -/
  lt : data.length < 32

namespace Frame

/-- The size byte. -/
def size (f : Frame) : UInt8 := UInt8.ofNat f.data.length

/-- The checksum byte. -/
def checksum (f : Frame) : UInt8 := xorFold (f.size :: f.data)

/-- The bytes of the frame but the last. -/
def init (f : Frame) : List UInt8 := headFlag :: f.size :: f.data

/-- The bytes on the line. -/
def bytes (f : Frame) : List UInt8 := f.init ++ [f.checksum]

theorem size_toNat (f : Frame) : f.size.toNat = f.data.length := by
  have := f.lt
  rw [size, UInt8.toNat_ofNat', Nat.mod_eq_of_lt (by omega)]

theorem size_lt (f : Frame) : f.size < maxSize :=
  UInt8.lt_iff_toNat_lt.2 (by rw [f.size_toNat]; exact f.lt)

theorem bodyLength_size (f : Frame) : bodyLength f.size = f.data.length := by
  have := f.pos
  rw [bodyLength, f.size_toNat]
  omega

theorem data_ne_nil (f : Frame) : f.data ≠ [] := by
  have := f.pos
  intro h
  simp [h] at this

end Frame

/-- The receive buffer holds the size and the data bytes of `f`. -/
def Delivered (d : Decoder) (f : Frame) : Prop :=
  d.rxpdu.size = f.size ∧ d.rxpdu.data.toList.take f.data.length = f.data

/-- A decoder that waits for a response, whatever its buffer and its counter hold. -/
def waiting (rxpdu : PDU) (datasize : UInt8) : Decoder := ⟨.statWaitResponse, rxpdu, datasize⟩

/-! ### Decoding a frame -/

theorem Frame.checkCode_checksum (f : Frame) : checkCode f.size f.data f.checksum = cmdReady :=
  if_pos rfl

/-- The frame behind its head flag, with any byte in the place of its checksum. -/
theorem decode_tail (f : Frame) (c : UInt8) {d : Decoder} (hd : d.protostat = .statRecvHead) :
    codes d (f.size :: f.data ++ [c]) =
        List.replicate (f.data.length + 1) cmdDecoding ++ [checkCode f.size f.data c] ∧
      AtData (after d (f.size :: f.data ++ [c])) f.size f.data ∧
      (after d (f.size :: f.data ++ [c])).rxpdu.data.toList.take (f.data.length + 1) =
        f.data ++ [c] := by
  set d₁ : Decoder :=
    { rxpdu := { d.rxpdu with size := f.size }, datasize := 0, protostat := .statRecvSize }
    with hd₁
  have hsize : decodePdu d f.size = (cmdDecoding, d₁) := decodePdu_head_size hd f.size_lt
  obtain ⟨hbody, hat⟩ := decode_body (d := d₁) rfl f.size_lt f.data_ne_nil
    (by simp [hd₁, f.bodyLength_size])
  have hat' : AtData (after d₁ f.data) f.size f.data := by simpa [hd₁] using hat
  obtain ⟨hcode, hnext⟩ := hat'.step c
  refine ⟨?_, ?_, ?_⟩
  · simp [hsize, codes_append, hbody, hcode, List.replicate_succ]
  · simpa [hsize, after_append] using hnext
  · simpa [hsize, after_append] using hat'.stored c

/-- A frame with any byte in the place of its checksum, fed to a decoder that waits for a
response. -/
theorem decode_init (f : Frame) (c : UInt8) {d : Decoder} (hd : d.protostat = .statWaitResponse) :
    codes d (f.init ++ [c]) =
        List.replicate (f.data.length + 2) cmdDecoding ++ [checkCode f.size f.data c] ∧
      AtData (after d (f.init ++ [c])) f.size f.data ∧
      (after d (f.init ++ [c])).rxpdu.data.toList.take (f.data.length + 1) = f.data ++ [c] := by
  have hhead := decodePdu_wait_head hd
  set d₁ : Decoder :=
    { d with rxpdu := { d.rxpdu with head := headFlag }, protostat := .statRecvHead }
  obtain ⟨hcodes, hat, hdata⟩ := decode_tail f c (d := d₁) rfl
  refine ⟨?_, ?_, ?_⟩
  · rw [Frame.init, List.cons_append, codes_cons, hhead, hcodes]
    simp [List.replicate_succ]
  · rw [Frame.init, List.cons_append, after_cons, hhead]
    exact hat
  · rw [Frame.init, List.cons_append, after_cons, hhead]
    exact hdata

/-- A whole frame, fed to a decoder that waits for a response. -/
theorem decode_frame (f : Frame) {d : Decoder} (hd : d.protostat = .statWaitResponse) :
    codes d f.bytes = List.replicate (f.data.length + 2) cmdDecoding ++ [cmdReady] ∧
      AtData (after d f.bytes) f.size f.data ∧
      (after d f.bytes).rxpdu.data.toList.take (f.data.length + 1) = f.data ++ [f.checksum] := by
  rw [← f.checkCode_checksum]
  exact decode_init f f.checksum hd

theorem AtData.delivered {d : Decoder} {f : Frame} (h : AtData d f.size f.data) : Delivered d f :=
  ⟨h.size_eq, h.data_eq⟩

/-! ### Encoding and decoding -/

theorem length_take_data (txpdu : PDU) {n : ℕ} (hn : n ≤ 31) :
    (txpdu.data.toList.take n).length = n := by
  rw [List.length_take, Vector.length_toList]
  omega

theorem take_data_pos (txpdu : PDU) {n : ℕ} (h₁ : 1 ≤ n) (h₂ : n ≤ 31) :
    1 ≤ (txpdu.data.toList.take n).length := by
  rw [length_take_data txpdu h₂]
  exact h₁

theorem take_data_lt (txpdu : PDU) {n : ℕ} (hn : n ≤ 31) :
    (txpdu.data.toList.take n).length < 32 := by
  rw [length_take_data txpdu hn]
  omega

/-- The frame `send` puts on the line for a PDU with `n` data bytes. -/
def sentFrame (txpdu : PDU) (h₁ : 1 ≤ txpdu.size.toNat) (h₂ : txpdu.size.toNat ≤ 31) : Frame where
  data := txpdu.data.toList.take txpdu.size.toNat
  pos := take_data_pos txpdu h₁ h₂
  lt := take_data_lt txpdu h₂

theorem sentFrame_length (txpdu : PDU) (h₁ : 1 ≤ txpdu.size.toNat)
    (h₂ : txpdu.size.toNat ≤ 31) :
    (sentFrame txpdu h₁ h₂).data.length = txpdu.size.toNat :=
  length_take_data txpdu h₂

theorem sentFrame_size (txpdu : PDU) (h₁ : 1 ≤ txpdu.size.toNat) (h₂ : txpdu.size.toNat ≤ 31) :
    (sentFrame txpdu h₁ h₂).size = txpdu.size := by
  rw [Frame.size, sentFrame_length]
  simp

/-- The first bytes of a list by index. -/
theorem map_range_getD {α : Type*} (l : List α) (d : α) {n : ℕ} (hn : n ≤ l.length) :
    ((List.range n).map fun i => l.getD i d) = l.take n := by
  apply List.ext_getElem
  · simp [hn]
  · intro i h₁ h₂
    have hi : i < l.length := by simp at h₁; omega
    simp [List.getD_eq_getElem?_getD, List.getElem?_eq_getElem hi]

/-- **What `send` puts on the line** is the frame of its PDU, and it leaves the checksum behind
the data bytes of the buffer. -/
theorem send_eq (txpdu : PDU) (h₁ : 1 ≤ txpdu.size.toNat) (h₂ : txpdu.size.toNat ≤ 31) :
    (send txpdu).1 = (sentFrame txpdu h₁ h₂).bytes ∧
      (send txpdu).2.data.toList.take (txpdu.size.toNat + 1) =
        (sentFrame txpdu h₁ h₂).data ++ [(sentFrame txpdu h₁ h₂).checksum] := by
  have hnext : (txpdu.size + 1).toNat = txpdu.size.toNat + 1 := by
    rw [UInt8.toNat_add]
    simp
    omega
  have hcrc : getCRC ({ txpdu with head := headFlag } : PDU).fromSize (txpdu.size + 1) =
      (sentFrame txpdu h₁ h₂).checksum := by
    rw [getCRC_fromSize _ (by omega) _ hnext, Frame.checksum, sentFrame_size]
    rfl
  have hdata : (send txpdu).2.data.toList.take (txpdu.size.toNat + 1) =
      (sentFrame txpdu h₁ h₂).data ++ [(sentFrame txpdu h₁ h₂).checksum] := by
    simp only [send, hcrc, Vector.toList_setIfInBounds]
    exact take_succ_set _ (by simp; omega)
  refine ⟨?_, hdata⟩
  have hbytes : (send txpdu).1 = (send txpdu).2.bytes.take (txpdu.size.toNat + 3) := by
    rw [← map_range_getD _ 0 (by simp [PDU.bytes]; omega)]
    rfl
  rw [hbytes, Frame.bytes, Frame.init, sentFrame_size, List.cons_append, List.cons_append, ← hdata]
  rfl

/-- The bytes on the line for a command with its data. -/
def commandFrame (cmd : UInt8) (data : List UInt8) : List UInt8 :=
  headFlag :: UInt8.ofNat (data.length + 1) :: cmd :: data ++
    [xorFold (UInt8.ofNat (data.length + 1) :: cmd :: data)]

/-- **What `send` puts on the line for a command** whose data is in the transmit buffer. -/
theorem send_command (txpdu : PDU) (cmd : UInt8) {size : ℕ} (hsize : size ≤ 30) :
    (send { txpdu with size := UInt8.ofNat (size + 1), data := txpdu.data.set 0 cmd }).1 =
      commandFrame cmd ((txpdu.data.toList.drop 1).take size) := by
  have htoNat : (UInt8.ofNat (size + 1)).toNat = size + 1 := by
    rw [UInt8.toNat_ofNat', Nat.mod_eq_of_lt (by omega)]
  have hlen : ((txpdu.data.toList.drop 1).take size).length = size := by simp; omega
  have hdata : (txpdu.data.set 0 cmd).toList.take (size + 1) =
      cmd :: (txpdu.data.toList.drop 1).take size := by
    rw [Vector.toList_set]
    cases htail : txpdu.data.toList with
    | nil =>
      have hlength := txpdu.data.length_toList
      rw [htail] at hlength
      cases hlength
    | cons b bs => rfl
  rw [(send_eq _ (by rw [htoNat]; omega) (by rw [htoNat]; omega)).1, Frame.bytes, Frame.init,
    Frame.checksum, sentFrame_size]
  simp only [sentFrame, htoNat, hdata, commandFrame, hlen]

/-- **Round trip.**  For every PDU of `1` to `MAX_SIZE - 1` data bytes and every earlier content
of the receive buffer and the counter, the bytes `send` puts on the line are answered with
`cmdDecoding` up to the last one and with `cmdReady` for the last one, and leave the size, the data
bytes that `send` was given, and the checksum of the sender in the receive buffer. -/
theorem decode_send (txpdu rxpdu : PDU) (datasize : UInt8) (h₁ : 1 ≤ txpdu.size.toNat)
    (h₂ : txpdu.size.toNat ≤ maxSize.toNat - 1) :
    (send txpdu).1.length = txpdu.size.toNat + 3 ∧
      codes (waiting rxpdu datasize) (send txpdu).1 =
        List.replicate (txpdu.size.toNat + 2) cmdDecoding ++ [cmdReady] ∧
      (after (waiting rxpdu datasize) (send txpdu).1).rxpdu.size = txpdu.size ∧
      (∀ i, i < txpdu.size.toNat →
        (after (waiting rxpdu datasize) (send txpdu).1).rxpdu.data[i]? = txpdu.data[i]?) ∧
      ∀ i, i ≤ txpdu.size.toNat →
        (after (waiting rxpdu datasize) (send txpdu).1).rxpdu.data[i]? =
          (send txpdu).2.data[i]? := by
  have h₂' : txpdu.size.toNat ≤ 31 := h₂
  obtain ⟨hbytes, hdata⟩ := send_eq txpdu h₁ h₂'
  have hlen := sentFrame_length txpdu h₁ h₂'
  obtain ⟨hcodes, hat, hstored⟩ :=
    decode_frame (sentFrame txpdu h₁ h₂') (d := waiting rxpdu datasize) rfl
  rw [hlen] at hcodes hstored
  rw [← hdata] at hstored
  rw [hbytes]
  have hget : ∀ i, i ≤ txpdu.size.toNat →
      (after (waiting rxpdu datasize) (sentFrame txpdu h₁ h₂').bytes).rxpdu.data[i]? =
        (send txpdu).2.data[i]? := by
    intro i hi
    have hget := congrArg (fun l => l[i]?) hstored
    simpa [Nat.lt_succ_of_le hi] using hget
  refine ⟨by simp [Frame.bytes, Frame.init, hlen], hcodes, ?_, fun i hi => ?_, hget⟩
  · rw [hat.size_eq, sentFrame_size]
  -- `send` writes the checksum behind the data bytes
  · rw [hget i (Nat.le_of_lt hi)]
    exact Vector.getElem?_setIfInBounds_ne (Nat.ne_of_gt hi)

/-- The round trip of a short command, started with a full counter and a dirty buffer. -/
theorem decode_send_setKey :
    codes (waiting ⟨0xFF, 0xFF, Vector.replicate 32 0xEE⟩ 0xFF)
        (send ⟨0, 5, #v[2, 1, 0, 0, 0, 9, 9, 9, 9, 9, 9, 9, 9, 9, 9, 9, 9, 9, 9, 9, 9, 9, 9, 9, 9, 9,
          9, 9, 9, 9, 9, 9]⟩).1 =
      List.replicate 7 cmdDecoding ++ [cmdReady] :=
  (decode_send ⟨0, 5, #v[2, 1, 0, 0, 0, 9, 9, 9, 9, 9, 9, 9, 9, 9, 9, 9, 9, 9, 9, 9, 9, 9, 9, 9, 9,
    9, 9, 9, 9, 9, 9, 9]⟩ ⟨0xFF, 0xFF, Vector.replicate 32 0xEE⟩ 0xFF (by decide)
    (by decide)).2.1

/-! ### Soundness -/

/-- **Soundness on a stream**: whenever a byte of the stream is answered with `cmdReady`, the
bytes fed last are the bytes of a frame, and the receive buffer holds that frame. -/
def Sound (d : Decoder) (bs : List UInt8) : Prop :=
  ∀ pre b, pre ++ [b] <+: bs → (decodePdu (after d pre) b).1 = cmdReady →
    ∃ f : Frame, f.bytes <:+ pre ++ [b] ∧ Delivered (after d (pre ++ [b])) f

/-- The reception is one of a frame.  Its size byte is not zero.  If the checksum comes right
behind the data bytes, the size byte came right behind a head flag: no bad byte, or the last of
them a head flag itself.  If it comes later, the whole frame has been received once more since. -/
def Reception.Clean (r : Reception) : Prop :=
  r.size ≠ 0 ∧
    if r.late = [] then r.bad = [] ∨ r.bad.getLast? = some headFlag
    else headFlag :: r.size :: r.body <:+ r.body ++ r.late

/-- The condition on a stream: whenever a reception in it is followed by its checksum, it is
clean. -/
def CleanStream (bs : List UInt8) : Prop :=
  ∀ r : Reception, r.bytes ++ [r.checksum] <+: bs → r.Clean

theorem headFlag_ne_of_lt_maxSize {b : UInt8} (hb : b < maxSize) : headFlag ≠ b := by
  rintro rfl
  exact absurd hb (by decide)

theorem suffix_append_singleton_iff {α : Type*} {l₁ l₂ : List α} (a : α) :
    l₁ ++ [a] <:+ l₂ ++ [a] ↔ l₁ <:+ l₂ := by
  simp [List.suffix_append_inj_of_length_eq]

theorem singleton_suffix_append_singleton_iff {α : Type*} {l : List α} {a b : α} :
    [a] <:+ l ++ [b] ↔ a = b := by
  constructor
  · rintro ⟨t, ht⟩
    exact (List.cons.inj (List.append_inj' ht rfl).2).1
  · rintro rfl
    exact List.suffix_append l [a]

namespace Reception

theorem body_length_pos (r : Reception) : 1 ≤ r.body.length := by
  rw [r.body_length, bodyLength]
  omega

/-- The frame a reception with a nonzero size amounts to. -/
def frame (r : Reception) : Frame where
  data := r.body
  pos := r.body_length_pos
  lt := r.body_length_lt

theorem frame_size (r : Reception) (h : r.size ≠ 0) : r.frame.size = r.size := by
  have hpos : r.size.toNat ≠ 0 := fun h0 => h (UInt8.toNat_inj.1 h0)
  have hlen : r.body.length = r.size.toNat := by
    rw [r.body_length, bodyLength]
    omega
  rw [Frame.size, frame, hlen]
  simp

/-- Right behind the data bytes: the size byte must follow a head flag. -/
theorem init_suffix_opening_iff (r : Reception) :
    headFlag :: r.size :: r.body <:+ r.opening ↔
      r.bad = [] ∨ r.bad.getLast? = some headFlag := by
  have hsplit : headFlag :: r.size :: r.body = [headFlag] ++ (r.size :: r.body) := rfl
  rw [opening, hsplit, List.suffix_append_self_iff]
  rcases List.eq_nil_or_concat r.bad with hbad | ⟨bad, b, hbad⟩
  · simp [hbad]
  · rw [hbad, List.concat_eq_append, ← List.cons_append, ← List.append_assoc,
      singleton_suffix_append_singleton_iff]
    simp [eq_comm (a := headFlag)]

/-- After late bytes: the bytes of the frame do not reach back to the size byte. -/
theorem init_suffix_bytes_iff (r : Reception) (hlate : r.late ≠ []) :
    headFlag :: r.size :: r.body <:+ r.bytes ↔
      headFlag :: r.size :: r.body <:+ r.body ++ r.late := by
  have hpos := List.length_pos_iff.2 hlate
  have hsplit : r.bytes = (r.stale ++ headFlag :: r.bad) ++ (r.size :: (r.body ++ r.late)) := by
    simp [bytes, opening]
  constructor
  -- the suffix is too short to contain the size byte of the reception and its head flag
  · intro h
    have hshort : headFlag :: r.size :: r.body <:+ r.size :: (r.body ++ r.late) :=
      List.suffix_of_suffix_length_le h (by rw [hsplit]; exact List.suffix_append _ _)
        (by simp; omega)
    rcases List.suffix_cons_iff.1 hshort with heq | h'
    · exact absurd (List.cons.inj heq).1 (headFlag_ne_of_lt_maxSize r.size_lt)
    · exact h'
  · intro h
    rw [hsplit]
    exact (h.trans (List.suffix_cons _ _)).trans (List.suffix_append _ _)

/-- The bytes up to the checksum end with the frame exactly when the reception is clean. -/
theorem clean_iff (r : Reception) :
    r.Clean ↔ r.size ≠ 0 ∧ headFlag :: r.size :: r.body <:+ r.bytes := by
  rw [Clean]
  split_ifs with hlate
  · rw [← r.init_suffix_opening_iff, bytes, hlate, List.append_nil]
  · rw [r.init_suffix_bytes_iff hlate]

end Reception

/-- What is in the buffer after `cmdReady` is the frame of the reception, or no frame at all. -/
theorem delivered_iff {r : Reception} {d : Decoder} (hat : AtData d r.size r.body) {f : Frame} :
    Delivered d f ↔ f.size = r.size ∧ f.data = r.body := by
  constructor
  · rintro ⟨hsize, hdata⟩
    have hsz : f.size = r.size := hsize.symm.trans hat.size_eq
    have hlen : f.data.length = r.body.length := by
      rw [r.body_length, ← hsz, f.bodyLength_size]
    refine ⟨hsz, ?_⟩
    rw [← hdata, hlen, hat.data_eq]
  · rintro ⟨hsize, hdata⟩
    exact ⟨hat.size_eq.trans hsize.symm, by rw [hdata]; exact hat.data_eq⟩

/-- **When the decoder is sound.**  Started in `statWaitResponse` with any buffer and any counter,
the decoder is sound on a stream exactly when the stream is clean. -/
theorem sound_iff (rxpdu : PDU) (datasize : UInt8) (bs : List UInt8) :
    Sound (waiting rxpdu datasize) bs ↔ CleanStream bs := by
  set d := waiting rxpdu datasize
  have hd : d.protostat = .statWaitResponse := rfl
  constructor
  -- soundness gives a frame, which must be that of the reception
  · intro hsound r hr
    have hready := (ready_iff hd r.bytes r.checksum).2 ⟨r, rfl, rfl⟩
    obtain ⟨f, hsuffix, hdel⟩ := hsound r.bytes r.checksum hr hready
    have hat : AtData (after d (r.bytes ++ [r.checksum])) r.size r.body := by
      rw [after_append]
      exact ((r.atData_after hd).step r.checksum).2
    obtain ⟨hsize, hdata⟩ := (delivered_iff hat).1 hdel
    have hne : r.size ≠ 0 := by
      intro h0
      have hpos := f.pos
      rw [← f.size_toNat, hsize, h0] at hpos
      exact absurd hpos (by decide)
    refine r.clean_iff.2 ⟨hne, ?_⟩
    have hcheck : f.checksum = r.checksum := by
      rw [Frame.checksum, Reception.checksum, hsize, hdata]
    rwa [Frame.bytes, hcheck, suffix_append_singleton_iff, Frame.init, hsize, hdata] at hsuffix
  -- a byte is ready only behind a reception, and that one is clean
  · intro hclean pre b hpre hready
    obtain ⟨r, rfl, rfl⟩ := (ready_iff hd pre b).1 hready
    obtain ⟨hne, hsuffix⟩ := r.clean_iff.1 (hclean r hpre)
    have hat : AtData (after d (r.bytes ++ [r.checksum])) r.size r.body := by
      rw [after_append]
      exact ((r.atData_after hd).step r.checksum).2
    have hsize := r.frame_size hne
    refine ⟨r.frame, ?_, (delivered_iff hat).2 ⟨hsize, rfl⟩⟩
    have hcheck : r.frame.checksum = r.checksum := by
      rw [Frame.checksum, Reception.checksum, hsize]
      rfl
    rw [Frame.bytes, hcheck, suffix_append_singleton_iff, Frame.init, hsize]
    exact hsuffix

/-- A frame with the wrong checksum `0x00` is delivered because of the byte `0x03` after it. -/
theorem not_sound_late_checksum :
    ¬ Sound (waiting ⟨0, 0, Vector.replicate 32 0⟩ 0) [0x5A, 0x01, 0x02, 0x00, 0x03] := by
  intro h
  obtain ⟨f, hsuffix, hsize, hdata⟩ := h [0x5A, 0x01, 0x02, 0x00] 0x03 (by decide) (by decide)
  have hsz : f.size = 1 := hsize.symm.trans (by decide)
  have hlen : f.data.length = 1 := by
    rw [← f.size_toNat, hsz]
    rfl
  have hbody : f.data = [0x02] := by
    rw [← hdata, hlen]
    decide
  rw [Frame.bytes, Frame.init, Frame.checksum, hsz, hbody] at hsuffix
  exact absurd hsuffix (by decide)

/-! ### Resynchronisation -/

/-- The decoder reports `f` on its last byte and not earlier, and the buffer holds it. -/
def Resync (d : Decoder) (f : Frame) : Prop :=
  ∃ cs, codes d f.bytes = cs ++ [cmdReady] ∧ cmdReady ∉ cs ∧ Delivered (after d f.bytes) f

/-- The last byte `b` of `pre ++ [b]` was answered with an error, or with `cmdReady` for a
response the event loop takes as not acknowledged. -/
def Rejected (d : Decoder) (pre : List UInt8) (b : UInt8) : Prop :=
  (decodePdu (after d pre) b).1 = cmdError ∨
    (decodePdu (after d pre) b).1 = cmdReady ∧
      (after d (pre ++ [b])).rxpdu.data.toList.getD 0 0 &&& cmdNack ≠ 0

theorem resync_wait (f : Frame) {d : Decoder} (hd : d.protostat = .statWaitResponse) :
    Resync d f := by
  obtain ⟨hcodes, hat, -⟩ := decode_frame f hd
  exact ⟨_, hcodes, by simp [List.mem_replicate, cmdDecoding_ne_cmdReady.symm], hat.delivered⟩

/-- The head flag is too large for a size, so a decoder that waits for a size byte ignores it and
reads the frame behind it. -/
theorem resync_head (f : Frame) {d : Decoder} (hd : d.protostat = .statRecvHead) :
    Resync d f := by
  have hhead : decodePdu d headFlag = (cmdError, d) := decodePdu_head_bad hd (by decide)
  obtain ⟨hcodes, hat, -⟩ := decode_tail f f.checksum hd
  rw [f.checkCode_checksum] at hcodes
  refine ⟨cmdError :: List.replicate (f.data.length + 1) cmdDecoding, ?_, ?_, ?_⟩
  · rw [Frame.bytes, Frame.init, List.cons_append, codes_cons, hhead, hcodes]
    rfl
  · simp [List.mem_replicate, cmdDecoding_ne_cmdReady.symm, cmdError_ne_cmdReady.symm]
  · rw [Frame.bytes, Frame.init, List.cons_append, after_cons, hhead]
    exact hat.delivered

/-- A decoder that compares checksums takes only the frame it already holds, and only if the
checksum does not occur in it earlier. -/
theorem resync_data_iff (f : Frame) {r : Reception} {d : Decoder} (hat : AtData d r.size r.body) :
    Resync d f ↔ Delivered d f ∧ f.checksum ∉ f.init := by
  obtain ⟨hcodes, hat'⟩ := hat.late f.bytes
  have hmem : ∀ bs : List UInt8,
      cmdReady ∈ bs.map (checkCode r.size r.body) ↔ r.checksum ∈ bs := by
    intro bs
    rw [List.mem_map]
    constructor
    · rintro ⟨b, hb, hready⟩
      rw [checkCode] at hready
      split_ifs at hready with hcrc
      · rwa [hcrc] at hb
      · exact absurd hready cmdError_ne_cmdReady
    · exact fun hb => ⟨_, hb, if_pos rfl⟩
  have hcheck : Delivered d f → f.checksum = r.checksum := by
    intro hdel
    obtain ⟨hsize, hdata⟩ := (delivered_iff hat).1 hdel
    rw [Frame.checksum, Reception.checksum, hsize, hdata]
  constructor
  · rintro ⟨cs, hcs, hready, hdel⟩
    have hdel' : Delivered d f := (delivered_iff hat).2 ((delivered_iff hat').1 hdel)
    -- the codes are those of comparing every byte of `f` with the old checksum
    rw [hcodes, Frame.bytes, List.map_append] at hcs
    obtain ⟨rfl, -⟩ := List.append_inj' hcs rfl
    refine ⟨hdel', ?_⟩
    rwa [hmem, ← hcheck hdel'] at hready
  · rintro ⟨hdel, hnot⟩
    refine ⟨f.init.map (checkCode r.size r.body), ?_, ?_,
      (delivered_iff hat').2 ((delivered_iff hat).1 hdel)⟩
    · have hlast : checkCode r.size r.body f.checksum = cmdReady := if_pos (hcheck hdel)
      rw [hcodes, Frame.bytes, List.map_append, List.map_singleton, hlast]
    · rwa [hmem, ← hcheck hdel]

/-- A rejected byte leaves the decoder waiting, before a size byte, or at the checksum of a
reception. -/
theorem protostat_of_rejected {d : Decoder} (hd : d.protostat = .statWaitResponse)
    {pre : List UInt8} {b : UInt8} (h : Rejected d pre b) :
    (after d (pre ++ [b])).protostat = .statWaitResponse ∨
      (after d (pre ++ [b])).protostat = .statRecvHead ∨
      ∃ r : Reception, r.bytes = pre ++ [b] := by
  have hcode : (decodePdu (after d pre) b).1 ≠ cmdDecoding := by
    rcases h with h | ⟨h, -⟩ <;> rw [h] <;> decide
  have htracks := tracks_after hd pre
  rw [after_append]
  show (decodePdu (after d pre) b).2.protostat = _ ∨ (decodePdu (after d pre) b).2.protostat = _ ∨ _
  cases hstat : (after d pre).protostat with
  | statWaitCommand => simp [Tracks, hstat] at htracks
  | statWaitResponse =>
    simp only [decodePdu, hstat] at hcode ⊢
    split_ifs at hcode ⊢ with hb
    · exact Or.inl hstat
    · exact absurd rfl hcode
  | statRecvHead =>
    simp only [decodePdu, hstat] at hcode ⊢
    split_ifs at hcode ⊢ with hb
    · exact Or.inr (Or.inl hstat)
    · exact absurd rfl hcode
  | statRecvSize =>
    -- a data byte is never rejected
    simp only [decodePdu, hstat] at hcode
    exact absurd rfl hcode
  | statRecvData =>
    simp only [Tracks, hstat] at htracks
    obtain ⟨r, rfl, -⟩ := htracks
    exact Or.inr (Or.inr ⟨r.snoc b, r.bytes_snoc b⟩)

/-- The bytes read are no reception, or one of the very frame `f`, and the checksum of `f` does not
occur in `f` before its end. -/
def Recovers (bs : List UInt8) (f : Frame) : Prop :=
  ∀ r : Reception, r.bytes = bs → f.size = r.size ∧ f.data = r.body ∧ f.checksum ∉ f.init

/-- **When the decoder resynchronises.**  After a rejected byte the next frame is taken exactly
when the bytes so far are not those of a reception, or the frame is that of the reception and its
checksum does not occur in it before its end. -/
theorem resync_iff (rxpdu : PDU) (datasize : UInt8) (pre : List UInt8) (b : UInt8)
    (h : Rejected (waiting rxpdu datasize) pre b) (f : Frame) :
    Resync (after (waiting rxpdu datasize) (pre ++ [b])) f ↔ Recovers (pre ++ [b]) f := by
  set d := waiting rxpdu datasize
  have hd : d.protostat = .statWaitResponse := rfl
  have hresync : ∀ r : Reception, r.bytes = pre ++ [b] →
      (Resync (after d (pre ++ [b])) f ↔
        f.size = r.size ∧ f.data = r.body ∧ f.checksum ∉ f.init) := by
    intro r hr
    have hat : AtData (after d (pre ++ [b])) r.size r.body := by
      rw [← hr]
      exact r.atData_after hd
    rw [resync_data_iff f hat, delivered_iff hat, and_assoc]
  constructor
  · intro hf r hr
    exact (hresync r hr).1 hf
  · intro hf
    rcases protostat_of_rejected hd h with hstat | hstat | ⟨r, hr⟩
    · exact resync_wait f hstat
    · exact resync_head f hstat
    · exact (hresync r hr).2 (hf r hr)

/-- The smallest acknowledgement of a key command. -/
def ackFrame : Frame := ⟨[0x02], by decide, by decide⟩

/-- A response whose size byte is too large is followed by a good one, which is taken. -/
theorem resync_after_bad_size :
    Resync (after (waiting ⟨0, 0, Vector.replicate 32 0⟩ 0) ([0x5A] ++ [0xFF])) ackFrame := by
  refine (resync_iff ⟨0, 0, Vector.replicate 32 0⟩ 0 [0x5A] 0xFF (by unfold Rejected; decide)
    ackFrame).2 fun r hr => ?_
  have hlast := (r.atData_after (d := waiting ⟨0, 0, Vector.replicate 32 0⟩ 0) rfl).stat
  rw [hr] at hlast
  exact absurd hlast (by decide)

/-- After a response with a wrong checksum the next good response is missed. -/
theorem not_resync_after_bad_checksum :
    Rejected (waiting ⟨0, 0, Vector.replicate 32 0⟩ 0) [0x5A, 0x01, 0x07] 0x00 ∧
      ¬ Resync (after (waiting ⟨0, 0, Vector.replicate 32 0⟩ 0) ([0x5A, 0x01, 0x07] ++ [0x00]))
        ackFrame := by
  refine ⟨by unfold Rejected; decide, ?_⟩
  rintro ⟨cs, hcodes, -, -⟩
  have hmem : cmdReady ∈ codes (after (waiting ⟨0, 0, Vector.replicate 32 0⟩ 0)
      ([0x5A, 0x01, 0x07] ++ [0x00])) ackFrame.bytes := by
    rw [hcodes]
    simp
  exact absurd hmem (by decide)

end VirtualReceiver

end UavTelemetry
