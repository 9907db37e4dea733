import UavTelemetry.Receiver.Frames

/-!
# What the checksum detects

A frame is *damaged* when its head flag and its size byte arrive as they were sent, but its data
bytes and its checksum need not.  The decoder takes a damaged frame exactly when the differences
cancel in the checksum (`damaged_codes`), so it refuses every frame with one wrong byte, and every
frame in which an odd number of bytes have the same bit wrong.

## Main definitions

* `Damaged sent bs` : the bytes `bs` arrive for the frame `sent`.
-/

namespace UavTelemetry

namespace VirtualReceiver

/-- The bytes `bs` arrive in the place of the bytes `sent` of a frame: as many, and with the same
head flag and size byte. -/
structure Damaged (sent bs : List UInt8) : Prop where
  /-- No byte is lost or added. -/
  length_eq : bs.length = sent.length
  /-- The head flag and the size byte are intact. -/
  opening : bs.take 2 = sent.take 2

theorem Frame.bytes_length (f : Frame) : f.bytes.length = f.data.length + 3 := by
  simp [Frame.bytes, Frame.init]

theorem Frame.bytes_take (f : Frame) : f.bytes.take 2 = [headFlag, f.size] := rfl

/-- The bytes that arrive for a frame are those of a frame of the same size, but for the
checksum. -/
theorem Damaged.exists_frame {f : Frame} {bs : List UInt8} (h : Damaged f.bytes bs) :
    ∃ (g : Frame) (c : UInt8), bs = g.init ++ [c] ∧ g.size = f.size := by
  obtain ⟨hlength, hopening⟩ := h
  rw [f.bytes_length] at hlength
  rw [f.bytes_take] at hopening
  have hsplit : bs = [headFlag, f.size] ++ bs.drop 2 := by
    rw [← hopening, List.take_append_drop]
  rcases List.eq_nil_or_concat (bs.drop 2) with hnil | ⟨data, c, hconcat⟩
  · have := congrArg List.length hnil
    simp at this
    omega
  · rw [List.concat_eq_append] at hconcat
    have hdata : data.length = f.data.length := by
      have := congrArg List.length hconcat
      simp at this
      omega
    have hsize : (⟨data, hdata ▸ f.pos, hdata ▸ f.lt⟩ : Frame).size = f.size := by
      rw [Frame.size, Frame.size, hdata]
    refine ⟨⟨data, hdata ▸ f.pos, hdata ▸ f.lt⟩, c, ?_, hsize⟩
    rw [Frame.init, hsize, hsplit, hconcat]
    rfl

/-- The differences between a frame and the bytes that arrive add up to the error of the
checksum. -/
theorem xorFold_differences_frame {f g : Frame} (hsize : g.size = f.size) (c : UInt8)
    (hlength : (g.init ++ [c]).length = f.bytes.length) :
    xorFold (differences f.bytes (g.init ++ [c])) = xorFold (g.size :: g.data) ^^^ c := by
  rw [xorFold_differences hlength.symm, Frame.bytes, Frame.init, Frame.init, Frame.checksum]
  simp only [List.cons_append, xorFold_cons, xorFold_append, xorFold_nil, hsize, UInt8.xor_zero]
  -- the head flag cancels, and so do the size and the data of `f` with its checksum
  have hcancel : ∀ h s x y : UInt8, h ^^^ (s ^^^ (x ^^^ (s ^^^ x))) ^^^ (h ^^^ (s ^^^ (y ^^^ c))) =
      (h ^^^ h) ^^^ ((s ^^^ s) ^^^ (x ^^^ x)) ^^^ (s ^^^ y ^^^ c) := by
    intros
    ac_rfl
  rw [hcancel]
  simp

theorem damaged_codes_frame {f : Frame} {bs : List UInt8} (h : Damaged f.bytes bs) {d : Decoder}
    (hd : d.protostat = .statWaitResponse) :
    codes d bs = List.replicate (f.data.length + 2) cmdDecoding ++
      [if xorFold (differences f.bytes bs) = 0 then cmdReady else cmdError] := by
  obtain ⟨g, c, rfl, hsize⟩ := h.exists_frame
  have hlen : g.data.length = f.data.length := by
    rw [← g.size_toNat, ← f.size_toNat, hsize]
  have hzero : xorFold (g.size :: g.data) ^^^ c = 0 ↔ c = xorFold (g.size :: g.data) := by
    rw [UInt8.xor_eq_zero_iff, eq_comm]
  rw [(decode_init g c hd).1, hlen, checkCode, xorFold_differences_frame hsize c h.length_eq]
  simp only [hzero]

/-- A change of a single byte shows in the checksum of the differences. -/
theorem xorFold_differences_ne_zero_of_single {sent bs : List UInt8}
    (hlength : bs.length = sent.length) {i : ℕ} (hi : bs.getD i 0 ≠ sent.getD i 0)
    (hrest : ∀ j, j ≠ i → bs.getD j 0 = sent.getD j 0) : xorFold (differences sent bs) ≠ 0 := by
  have hget := differences_getD hlength.symm
  have hsingle : xorFold (differences sent bs) = (differences sent bs).getD i 0 := by
    refine xorFold_eq_of_single fun j hj => ?_
    rw [hget, hrest j hj, UInt8.xor_self]
  rw [hsingle, hget]
  exact fun h0 => hi (UInt8.xor_eq_zero_iff.1 h0).symm

/-- An odd number of changes of bit `k` shows in the checksum of the differences. -/
theorem xorFold_differences_ne_zero_of_odd {sent bs : List UInt8} {k : ℕ}
    (hodd : Odd ((differences sent bs).countP (bitSet k))) : xorFold (differences sent bs) ≠ 0 := by
  intro h0
  have hset := (bitSet_xorFold k (differences sent bs)).2 hodd
  rw [h0, bitSet_zero] at hset
  cases hset

/-- **Error detection.**  For every PDU of `1` to `MAX_SIZE - 1` data bytes and every damage of
the bytes `send` puts on the line, the decoder, whatever its buffer and its counter hold, answers
the last byte with `cmdReady` exactly when the exclusive or of all the differences is zero, and
every byte before it with `cmdDecoding`.  So the last byte is answered with `cmdError` if a single
byte is damaged, and if some bit is damaged in an odd number of bytes. -/
theorem damaged_codes (txpdu rxpdu : PDU) (datasize : UInt8) (h₁ : 1 ≤ txpdu.size.toNat)
    (h₂ : txpdu.size.toNat ≤ maxSize.toNat - 1) (bs : List UInt8)
    (hbs : Damaged (send txpdu).1 bs) :
    (codes (waiting rxpdu datasize) bs = List.replicate (txpdu.size.toNat + 2) cmdDecoding ++
      [if xorFold (differences (send txpdu).1 bs) = 0 then cmdReady else cmdError]) ∧
    (∀ i, bs.getD i 0 ≠ (send txpdu).1.getD i 0 →
      (∀ j, j ≠ i → bs.getD j 0 = (send txpdu).1.getD j 0) →
      (codes (waiting rxpdu datasize) bs).getLast? = some cmdError) ∧
    ∀ k, Odd ((differences (send txpdu).1 bs).countP (bitSet k)) →
      (codes (waiting rxpdu datasize) bs).getLast? = some cmdError := by
  have h₂' : txpdu.size.toNat ≤ 31 := h₂
  have hframe := hbs
  rw [(send_eq txpdu h₁ h₂').1] at hframe
  have hcodes := damaged_codes_frame hframe (d := waiting rxpdu datasize) rfl
  rw [sentFrame_length, ← (send_eq txpdu h₁ h₂').1] at hcodes
  have herror : xorFold (differences (send txpdu).1 bs) ≠ 0 →
      (codes (waiting rxpdu datasize) bs).getLast? = some cmdError := by
    intro hne
    rw [hcodes, if_neg hne, List.getLast?_append]
    rfl
  refine ⟨hcodes, fun i hi hrest => ?_, fun k hodd => ?_⟩
  · exact herror (xorFold_differences_ne_zero_of_single hbs.length_eq hi hrest)
  · exact herror (xorFold_differences_ne_zero_of_odd hodd)

/-- A key command with a data byte and the checksum damaged in the same bit is taken. -/
theorem damaged_codes_setKey :
    codes (waiting ⟨0, 0, Vector.replicate 32 0⟩ 0) [0x5A, 5, 2, 9, 0, 0, 0, 0x0E] =
      List.replicate 7 cmdDecoding ++ [cmdReady] :=
  (damaged_codes ⟨0, 5, #v[2, 1, 0, 0, 0, 9, 9, 9, 9, 9, 9, 9, 9, 9, 9, 9, 9, 9, 9, 9, 9, 9, 9, 9, 9,
    9, 9, 9, 9, 9, 9, 9]⟩ ⟨0, 0, Vector.replicate 32 0⟩ 0 (by decide) (by decide)
    [0x5A, 5, 2, 9, 0, 0, 0, 0x0E] ⟨by decide, by decide⟩).1

end VirtualReceiver

end UavTelemetry
