import Mathlib.Data.Nat.Basic

/-!
# Counters in a signed 32-bit word

A counter that starts at `0` and is incremented `n` times holds `Int32.ofNat n`: the
increment wraps, so the word determines `n` modulo `2 ^ 32` only, and its sign flips when
`n` reaches `2 ^ 31`, written `0x80000000`. Below that bound the word's equality and its
signed order are those of the counts.
-/

namespace WrapCounter

/-- One more increment. -/
theorem ofNat_succ (n : Nat) : Int32.ofNat (n + 1) = Int32.ofNat n + 1 := by
  rw [Int32.ofNat_add]
  rfl

/-- An increment always changes the word, wrap-around or not. -/
theorem add_one_ne (x : Int32) : x + 1 ≠ x := by
  intro h
  have h0 : x + 1 = x + 0 := h.trans (Int32.add_zero x).symm
  exact absurd ((Int32.add_right_inj x).mp h0) (by decide)

/-- Below `2 ^ 31` the word is the count. -/
theorem toInt_ofNat {n : Nat} (h : n < 0x80000000) : (Int32.ofNat n).toInt = n :=
  Int32.toInt_ofNat_of_lt h

/-- Below `2 ^ 31` equal words are equal counts. -/
theorem ofNat_eq_iff {a b : Nat} (ha : a < 0x80000000) (hb : b < 0x80000000) :
    Int32.ofNat a = Int32.ofNat b ↔ a = b := by
  constructor
  · intro h
    have hi : (a : Int) = b := by
      rw [← toInt_ofNat ha, ← toInt_ofNat hb, h]
    exact Int.ofNat_inj.mp hi
  · intro h
    rw [h]

/-- Counting on by less than `2 ^ 32` does not come back to the same word. -/
theorem ofNat_add_ne (a : Nat) {n : Nat} (hpos : 0 < n) (hn : n < 0x100000000) :
    Int32.ofNat (a + n) ≠ Int32.ofNat a := by
  intro h
  have hbits : BitVec.ofNat 32 (a + n) = BitVec.ofNat 32 a := congrArg Int32.toBitVec h
  have hmod := congrArg BitVec.toNat hbits
  rw [BitVec.toNat_ofNat, BitVec.toNat_ofNat] at hmod
  omega

/-- Below `2 ^ 31` the signed order is the order of the counts. -/
theorem ofNat_lt_iff {a b : Nat} (ha : a < 0x80000000) (hb : b < 0x80000000) :
    Int32.ofNat a < Int32.ofNat b ↔ a < b :=
  Int32.ofNat_lt_iff_lt ha hb

end WrapCounter
