import Mathlib.Algebra.Ring.Parity
import Mathlib.Data.List.Basic

/-!
# XOR checksums of byte strings

The checksum of a byte string is the exclusive or of its bytes.  Device code computes it by an
index loop over a buffer that is longer than the message; `foldl_range_getD` turns such a loop
into a fold over the message.

The checksums of two strings of one length differ by the checksum of their differences
(`xorFold_differences`), so an error escapes the checksum exactly when its differences cancel.  A
change of one byte does not cancel (`xorFold_eq_of_single`), and neither does an odd number of
changes of one bit (`bitSet_xorFold`).

## Main definitions

* `xorFold` : the exclusive or of a list of bytes.
* `differences` : the exclusive or of two byte strings, byte for byte.
* `bitSet` : a bit of a byte.
-/

namespace UavTelemetry

/-- The exclusive or of a list of bytes. -/
def xorFold (bs : List UInt8) : UInt8 := bs.foldl (· ^^^ ·) 0

/-- A loop over the first `n` indices of a buffer is a fold over its first `n` items. -/
theorem foldl_range_getD {α β : Type*} (f : β → α → β) (b : β) (l : List α) (d : α) {n : ℕ}
    (hn : n ≤ l.length) :
    (List.range n).foldl (fun r i => f r (l.getD i d)) b = (l.take n).foldl f b := by
  induction n with
  | zero => rfl
  | succ n ih =>
    have hlt : n < l.length := hn
    rw [List.range_succ, List.foldl_append, ih (Nat.le_of_lt hlt), List.take_add_one, List.foldl_append]
    simp [List.getD_eq_getElem?_getD, List.getElem?_eq_getElem hlt]

@[simp] theorem xorFold_nil : xorFold [] = 0 := rfl

theorem foldl_xor (bs : List UInt8) (b : UInt8) : bs.foldl (· ^^^ ·) b = b ^^^ xorFold bs := by
  induction bs generalizing b with
  | nil => simp
  | cons c bs ih =>
    calc (c :: bs).foldl (· ^^^ ·) b = b ^^^ c ^^^ xorFold bs := ih (b ^^^ c)
      _ = b ^^^ (c ^^^ xorFold bs) := UInt8.xor_assoc b c _
      _ = b ^^^ (0 ^^^ c ^^^ xorFold bs) := by rw [UInt8.zero_xor]
      _ = b ^^^ xorFold (c :: bs) := congrArg (b ^^^ ·) (ih (0 ^^^ c)).symm

@[simp] theorem xorFold_cons (b : UInt8) (bs : List UInt8) :
    xorFold (b :: bs) = b ^^^ xorFold bs := by
  rw [xorFold, List.foldl_cons, foldl_xor, UInt8.zero_xor]

theorem xorFold_append (as bs : List UInt8) : xorFold (as ++ bs) = xorFold as ^^^ xorFold bs := by
  rw [xorFold, List.foldl_append, foldl_xor]
  rfl

/-! ### Differences -/

/-- The exclusive or of two byte strings, byte for byte. -/
def differences (as bs : List UInt8) : List UInt8 := List.zipWith (· ^^^ ·) as bs

theorem differences_getD {as bs : List UInt8} (h : as.length = bs.length) (i : ℕ) :
    (differences as bs).getD i 0 = as.getD i 0 ^^^ bs.getD i 0 := by
  induction as generalizing bs i with
  | nil =>
    have hbs : bs = [] := List.length_eq_zero_iff.1 h.symm
    simp [differences, hbs]
  | cons a as ih =>
    cases bs with
    | nil => cases h
    | cons b bs =>
      cases i with
      | zero => rfl
      | succ i => simpa [differences] using ih (Nat.succ.inj h) i

/-- **The checksum is additive**: the checksums of two strings of one length differ by the checksum
of their differences. -/
theorem xorFold_differences {as bs : List UInt8} (h : as.length = bs.length) :
    xorFold (differences as bs) = xorFold as ^^^ xorFold bs := by
  induction as generalizing bs with
  | nil =>
    have hbs : bs = [] := List.length_eq_zero_iff.1 h.symm
    simp [differences, hbs]
  | cons a as ih =>
    cases bs with
    | nil => cases h
    | cons b bs =>
      have hrec := ih (Nat.succ.inj h)
      simp only [differences] at hrec
      simp only [differences, List.zipWith_cons_cons, xorFold_cons, hrec]
      ac_rfl

theorem xorFold_eq_zero {bs : List UInt8} (h : ∀ i, bs.getD i 0 = 0) : xorFold bs = 0 := by
  induction bs with
  | nil => rfl
  | cons b bs ih =>
    have hb : b = 0 := h 0
    have hbs : xorFold bs = 0 := ih fun i => h (i + 1)
    rw [xorFold_cons, hb, hbs, UInt8.xor_self]

/-- The checksum of a string with at most one byte that is not zero is that byte. -/
theorem xorFold_eq_of_single {bs : List UInt8} {i : ℕ} (h : ∀ j, j ≠ i → bs.getD j 0 = 0) :
    xorFold bs = bs.getD i 0 := by
  induction bs generalizing i with
  | nil => rfl
  | cons b bs ih =>
    rw [xorFold_cons]
    cases i with
    | zero =>
      have hbs : xorFold bs = 0 := xorFold_eq_zero fun j => h (j + 1) (Nat.succ_ne_zero j)
      rw [hbs, UInt8.xor_zero]
      rfl
    | succ i =>
      have hb : b = 0 := h 0 (Nat.succ_ne_zero i).symm
      rw [hb, UInt8.zero_xor, ih fun j hj => h (j + 1) fun h' => hj (Nat.succ.inj h')]
      rfl

/-! ### Bits -/

/-- Bit `k` of a byte. -/
def bitSet (k : ℕ) (b : UInt8) : Bool := b.toNat.testBit k

@[simp] theorem bitSet_zero (k : ℕ) : bitSet k 0 = false := by
  simp [bitSet]

theorem bitSet_xor (k : ℕ) (a b : UInt8) : bitSet k (a ^^^ b) = (bitSet k a ^^ bitSet k b) := by
  simp [bitSet]

/-- **A bit of the checksum** is set exactly when it is set in an odd number of bytes. -/
theorem bitSet_xorFold (k : ℕ) (bs : List UInt8) :
    bitSet k (xorFold bs) = true ↔ Odd (bs.countP (bitSet k)) := by
  induction bs with
  | nil => simp
  | cons b bs ih =>
    rw [xorFold_cons, bitSet_xor]
    cases hb : bitSet k b with
    | false => simpa [List.countP_cons, hb] using ih
    | true =>
      rw [List.countP_cons_of_pos hb, Nat.odd_add_one, ← ih]
      simp

end UavTelemetry
