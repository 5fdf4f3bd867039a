import Mathlib.Data.List.Basic
import Mathlib.Algebra.Order.Ring.Nat

/-!
# Byte streams — bytes that arrive in pieces

A stream keeps the order of its bytes and nothing else: where a reader asks for `size`
bytes it gets as many of them as have arrived, the connection's end, or an error. What
becomes of the reads to come is a function of the reader's own count, so that a statement
about a program that reads a stream can range over every way of cutting it.

* **`leBytes`**, **`leValue`** — numbers as bytes, the lowest first.
* **`ByteStream.read`** — one read; **`read_whole`**, **`read_short`** — what it gives
  when as many bytes are there as were asked for, and when fewer are.
-/

namespace ByteStreams

/-! ## Numbers as bytes -/

/-- `width` bytes of `n`, the lowest first. -/
def leBytes : (width n : Nat) → List UInt8
  | 0, _ => []
  | width + 1, n => UInt8.ofNat n :: leBytes width (n / 256)

/-- The number written as bytes, the lowest first. -/
def leValue : List UInt8 → Nat
  | [] => 0
  | b :: bs => b.toNat + 256 * leValue bs

@[simp] theorem length_leBytes (width n : Nat) : (leBytes width n).length = width := by
  induction width generalizing n with
  | zero => rfl
  | succ width ih => rw [leBytes, List.length_cons, ih]

/-- What is written is read, if it fits. -/
theorem leValue_leBytes {width n : Nat} (h : n < 256 ^ width) :
    leValue (leBytes width n) = n := by
  induction width generalizing n with
  | zero =>
      rw [Nat.pow_zero] at h
      rw [Nat.lt_one_iff.mp h]
      rfl
  | succ width ih =>
      have hrest : n / 256 < 256 ^ width := by
        refine Nat.div_lt_of_lt_mul ?_
        rwa [Nat.pow_succ, Nat.mul_comm] at h
      rw [leBytes, leValue, ih hrest, UInt8.toNat_ofNat']
      exact Nat.mod_add_div n 256

/-- A number of so many bytes is below the next power. -/
theorem leValue_lt (bs : List UInt8) : leValue bs < 256 ^ bs.length := by
  induction bs with
  | nil => exact Nat.one_pos
  | cons b bs ih =>
      have hb := b.toNat_lt
      rw [leValue, List.length_cons, Nat.pow_succ]
      omega

/-! ## Streams -/

/-- How a read ends: with up to `n` of the bytes that were asked for, with the end of the
    connection, or with an error. -/
inductive Arrival where
  | bytes (n : Nat)
  | closed
  | failed
  deriving DecidableEq

/-- The reading end: the bytes that were sent and not read yet, and how the reads to come
    will end. -/
structure ByteStream where
  pending : List UInt8
  arrivals : Nat → Arrival

namespace ByteStream

/-- The first read is over. -/
def next (c : ByteStream) (pending : List UInt8) : ByteStream :=
  ⟨pending, fun i => c.arrivals (i + 1)⟩

/-- One read of up to `size` bytes: `none` on an error, nothing at the end of the
    connection. -/
def read (c : ByteStream) (size : Nat) : Option (List UInt8) × ByteStream :=
  match c.arrivals 0 with
  | .bytes n => (some (c.pending.take (min n size)), c.next (c.pending.drop (min n size)))
  | .closed => (some [], c.next c.pending)
  | .failed => (none, c.next c.pending)

variable {c : ByteStream} {n size : Nat}

/-- As many bytes have arrived as were asked for. -/
theorem read_whole {front rest : List UInt8} (hpending : c.pending = front ++ rest)
    (harrival : c.arrivals 0 = .bytes n) (hsize : front.length = size) (hn : size ≤ n) :
    c.read size = (some front, c.next rest) := by
  subst hsize
  rw [read, harrival, hpending]
  simp only [Nat.min_eq_right hn, List.take_left, List.drop_left]

/-- Fewer bytes have arrived than were asked for. -/
theorem read_short (harrival : c.arrivals 0 = .bytes n) (hn : n < size)
    (hpending : n ≤ c.pending.length) :
    ∃ got, c.read size = (some got, c.next (c.pending.drop n)) ∧ got.length = n := by
  refine ⟨c.pending.take n, ?_, List.length_take_of_le hpending⟩
  rw [read, harrival]
  simp only [Nat.min_eq_left (Nat.le_of_lt hn)]

/-- **One read** takes some bytes off the front, or fails. -/
theorem read_cases (c : ByteStream) (size : Nat) :
    (∃ got rest, c.read size = (some got, c.next rest) ∧ c.pending = got ++ rest ∧
        got.length ≤ size) ∨
      c.read size = (none, c.next c.pending) := by
  rw [read]
  cases c.arrivals 0 with
  | bytes n =>
      refine Or.inl ⟨_, _, rfl, (List.take_append_drop _ _).symm, ?_⟩
      rw [List.length_take]
      omega
  | closed => exact Or.inl ⟨[], c.pending, rfl, rfl, Nat.zero_le _⟩
  | failed => exact Or.inr rfl

/-- A read gives no more than was asked for. -/
theorem length_read_le {got : List UInt8} {c' : ByteStream} (h : c.read size = (some got, c')) :
    got.length ≤ size := by
  rcases c.read_cases size with ⟨got', rest, hread, -, hle⟩ | hread
  · rw [hread] at h
    rw [← Option.some.inj (Prod.mk.inj h).1]
    exact hle
  · rw [hread] at h
    cases (Prod.mk.inj h).1

end ByteStream

end ByteStreams
