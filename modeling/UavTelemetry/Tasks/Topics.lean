import Mathlib.Data.List.Basic

/-!
# Topic data

The layout of the topic data structures (`Topics.h`), as far as the tasks depend on it: their
sizes, the codes carried in a byte, and the key code.

## Main definitions

* `Topic.KeyData` : the data of `/keyb`, with its bytes in memory.
-/

namespace UavTelemetry

namespace Topic

/-- `sizeof(GpsData_t)`: four floats. -/
def sizeofGpsData : ℕ := 16

/-- `sizeof(AlarmData_t)`: eight alarm codes. -/
def sizeofAlarmData : ℕ := 8

/-- `sizeof(StatusData_t)`: the mode, padded to a word, and the location. -/
def sizeofStatusData : ℕ := 20

/-- `sizeof(KeyData_t)`: the bit fields of `keys` add up to 33 bits, so that the last of them
starts a second word. -/
def sizeofKeyData : ℕ := 8

/-- `ALARM_MISSING_RESPONSE`. -/
def alarmMissingResponse : UInt8 := 0

/-- `ALARM_WRONG_RESPONSE`, which has the same code. -/
def alarmWrongResponse : UInt8 := 0

/-- `MODE_DISARMED`. -/
def modeDisarmed : UInt8 := 0

/-- `MODE_LOC`. -/
def modeLoc : UInt8 := (1 : UInt8) <<< 0

/-- `MODE_MANUAL`. -/
def modeManual : UInt8 := (1 : UInt8) <<< 1

/-- `MODE_ALT`. -/
def modeAlt : UInt8 := (1 : UInt8) <<< 2

/-- `MODE_RTH`. -/
def modeRth : UInt8 := (1 : UInt8) <<< 3

/-- The bytes of a word in memory, the least significant first. -/
def wordBytes (w : BitVec 32) : List UInt8 :=
  (List.range 4).map fun i => UInt8.ofBitVec (w.extractLsb' (8 * i) 8)

/-- `KeyData_t`. -/
structure KeyData where
  /-- `data.keycode`. -/
  keycode : BitVec 32
  /-- The word behind it, which no task uses. -/
  unused : BitVec 32
  deriving DecidableEq, Repr

/-- The bytes of a `KeyData_t` in memory. -/
def KeyData.bytes (k : KeyData) : List UInt8 := wordBytes k.keycode ++ wordBytes k.unused

theorem KeyData.bytes_length (k : KeyData) : k.bytes.length = sizeofKeyData := rfl

/-- A word can be read back from its bytes. -/
theorem wordBytes_injective : Function.Injective wordBytes := by
  intro w w' h
  refine BitVec.eq_of_getLsbD_eq fun i hi => ?_
  have hbyte : ∀ j < 4, w.extractLsb' (8 * j) 8 = w'.extractLsb' (8 * j) 8 := by
    intro j hj
    have hmem : j ∈ List.range 4 := List.mem_range.2 hj
    exact UInt8.ofBitVec.inj (List.map_inj_left.1 h j hmem)
  -- bit `i` is bit `i % 8` of byte `i / 8`
  have hbit := congrArg (fun b => b.getLsbD (i % 8)) (hbyte (i / 8) (by omega))
  have hlt : i % 8 < 8 := Nat.mod_lt i (by omega)
  simpa only [BitVec.getLsbD_extractLsb', hlt, decide_true, Bool.true_and, Nat.div_add_mod] using hbit

/-- The bytes of the key data tell the key code. -/
theorem KeyData.keycode_eq_of_bytes_eq {k k' : KeyData} (h : k.bytes = k'.bytes) :
    k.keycode = k'.keycode :=
  wordBytes_injective (List.append_inj_left h rfl)

end Topic

end UavTelemetry
