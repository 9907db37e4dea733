import UavTelemetry.Data.Bytes

/-!
# The serial protocol of the virtual receiver

The receiver exchanges *protocol data units* with the remote peer over a serial line: a head
flag, a size byte, that many data bytes (the first is the command) and a checksum byte, the
exclusive or of the size byte and the data bytes.  This file translates the encoder
`VirtualReceiver::send` and the byte-at-a-time decoder `VirtualReceiver::decodePdu`.

## Main definitions

* `PDU` : the packed structure of the source, with its buffer of `MAX_SIZE` bytes.
* `getCRC`, `checkCRC` : the checksum loop and its test.
* `send` : the bytes put on the serial line.
* `Decoder` : the variables `decodePdu` reads and writes; `decodePdu` is one call.
* `decodeBytes` : the calls made for a stream of bytes, with the codes they return.
-/

namespace UavTelemetry

namespace VirtualReceiver

/-- Protocol head flag. -/
def headFlag : UInt8 := 0x5A

/-- Size of the data buffer of a PDU. -/
def maxSize : UInt8 := 32

/-- Command: set the position. -/
def cmdSetGps : UInt8 := 0x01

/-- Command: set the keys. -/
def cmdSetKey : UInt8 := 0x02

/-- Decoder code: the frame is not complete. -/
def cmdDecoding : UInt8 := 0x03

/-- Decoder code: the byte was not expected. -/
def cmdError : UInt8 := 0x04

/-- Decoder code: a frame is complete. -/
def cmdReady : UInt8 := 0x05

/-- The bit of a response's first data byte that marks it as not acknowledged. -/
def cmdNack : UInt8 := 0x80

/-- The states of the protocol. -/
inductive ProtocolStat
  | statWaitCommand
  | statWaitResponse
  | statRecvHead
  | statRecvSize
  | statRecvData
  deriving DecidableEq, Repr

/-- A protocol data unit.  The structure is packed: its object representation is the head, the
size and the data bytes in this order. -/
structure PDU where
  /-- Head flag. -/
  head : UInt8
  /-- Number of data bytes, without the checksum. -/
  size : UInt8
  /-- Command, data bytes and checksum. -/
  data : Vector UInt8 32
  deriving DecidableEq

/-- The bytes of a PDU in memory from its size field on (`&pdu.size`). -/
def PDU.fromSize (p : PDU) : List UInt8 := p.size :: p.data.toList

/-- The bytes of a PDU in memory (`(char *)&pdu`). -/
def PDU.bytes (p : PDU) : List UInt8 := p.head :: p.fromSize

/-- `getCRC`: the exclusive or of the first `size` bytes of a buffer. -/
def getCRC (buffer : List UInt8) (size : UInt8) : UInt8 :=
  (List.range size.toNat).foldl (fun result i => result ^^^ buffer.getD i 0) 0

/-- `checkCRC`: the checksum of the first `size` bytes is `crc`. -/
def checkCRC (buffer : List UInt8) (crc size : UInt8) : Bool := getCRC buffer size == crc

/-- `VirtualReceiver::send`: the bytes put on the line and `_txpdu` afterwards.  `Serial::putc`
masks its argument to eight bits, so the byte of the buffer goes out as it is. -/
def send (txpdu : PDU) : List UInt8 × PDU :=
  let txpdu := { txpdu with head := headFlag }
  let crc := getCRC txpdu.fromSize (txpdu.size + 1)
  let txpdu := { txpdu with data := txpdu.data.setIfInBounds txpdu.size.toNat crc }
  ((List.range (txpdu.size.toNat + 3)).map fun i => txpdu.bytes.getD i 0, txpdu)

/-- The variables of `decodePdu`: two members of the receiver and the function-static
counter. -/
structure Decoder where
  /-- State of the protocol, `_protostat`. -/
  protostat : ProtocolStat
  /-- Receive buffer, `_rxpdu`. -/
  rxpdu : PDU
  /-- Number of data bytes received, `static uint8_t datasize`. -/
  datasize : UInt8
  deriving DecidableEq

/-- `VirtualReceiver::decodePdu`: the code returned for one byte and the variables
afterwards. -/
def decodePdu (d : Decoder) (data : UInt8) : UInt8 × Decoder :=
  match d.protostat with
  | .statWaitResponse =>
    if data ≠ headFlag then (cmdError, d)
    else
      (cmdDecoding,
        { d with rxpdu := { d.rxpdu with head := data }, protostat := .statRecvHead })
  | .statRecvHead =>
    if maxSize ≤ data then (cmdError, d)
    else
      (cmdDecoding,
        { rxpdu := { d.rxpdu with size := data }, datasize := 0, protostat := .statRecvSize })
  | .statRecvSize =>
    let rxpdu := { d.rxpdu with data := d.rxpdu.data.setIfInBounds d.datasize.toNat data }
    let datasize := d.datasize + 1
    let protostat := if rxpdu.size ≤ datasize then .statRecvData else d.protostat
    (cmdDecoding, { rxpdu := rxpdu, datasize := datasize, protostat := protostat })
  | .statRecvData =>
    let rxpdu := { d.rxpdu with data := d.rxpdu.data.setIfInBounds d.datasize.toNat data }
    let crc := rxpdu.data.toList.getD d.datasize.toNat 0
    (if checkCRC rxpdu.fromSize crc (d.datasize + 1) then cmdReady else cmdError,
      { d with rxpdu := rxpdu })
  | .statWaitCommand => (cmdError, d)

/-- The calls of `decodePdu` for a stream of bytes: the codes returned and the variables after
the last call. -/
def decodeBytes (d : Decoder) : List UInt8 → List UInt8 × Decoder
  | [] => ([], d)
  | b :: bs =>
    let r := decodeBytes (decodePdu d b).2 bs
    ((decodePdu d b).1 :: r.1, r.2)

/-- The codes returned for a stream of bytes. -/
def codes (d : Decoder) (bs : List UInt8) : List UInt8 := (decodeBytes d bs).1

/-- The variables after a stream of bytes. -/
def after (d : Decoder) (bs : List UInt8) : Decoder := (decodeBytes d bs).2

@[simp] theorem codes_nil (d : Decoder) : codes d [] = [] := rfl

@[simp] theorem after_nil (d : Decoder) : after d [] = d := rfl

@[simp] theorem codes_cons (d : Decoder) (b : UInt8) (bs : List UInt8) :
    codes d (b :: bs) = (decodePdu d b).1 :: codes (decodePdu d b).2 bs := rfl

@[simp] theorem after_cons (d : Decoder) (b : UInt8) (bs : List UInt8) :
    after d (b :: bs) = after (decodePdu d b).2 bs := rfl

@[simp] theorem codes_length (d : Decoder) (bs : List UInt8) : (codes d bs).length = bs.length := by
  induction bs generalizing d with
  | nil => rfl
  | cons b bs ih => simp [ih]

theorem after_append (d : Decoder) (bs cs : List UInt8) :
    after d (bs ++ cs) = after (after d bs) cs := by
  induction bs generalizing d with
  | nil => rfl
  | cons b bs ih => simp [ih]

theorem codes_append (d : Decoder) (bs cs : List UInt8) :
    codes d (bs ++ cs) = codes d bs ++ codes (after d bs) cs := by
  induction bs generalizing d with
  | nil => rfl
  | cons b bs ih => simp [ih]

/-! ### The checksum -/

@[simp] theorem PDU.fromSize_length (p : PDU) : p.fromSize.length = 33 := by
  simp [PDU.fromSize]

/-- The checksum of the size byte and the first `n` data bytes of a PDU. -/
theorem getCRC_fromSize (p : PDU) {n : ℕ} (hn : n ≤ 32) (size : UInt8)
    (hsize : size.toNat = n + 1) :
    getCRC p.fromSize size = xorFold (p.size :: p.data.toList.take n) := by
  rw [getCRC, foldl_range_getD (fun r b => r ^^^ b) 0 p.fromSize 0 (by simp; omega), hsize]
  simp [PDU.fromSize, xorFold]

end VirtualReceiver

end UavTelemetry
