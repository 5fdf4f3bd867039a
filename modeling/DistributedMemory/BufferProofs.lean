import Mathlib.Data.List.Basic

/-!
# Buffers — copies into memory of a fixed size

A buffer has as many cells as it was made with. A copy names the cell it starts at and
overwrites as many cells as it brings; one that would go past the end has no result.

* **`blit`**, **`blits`** — one copy, and one after the other; **`blits_isSome_iff`** — a
  sequence of copies has a result exactly if each of them stays inside.
* **`blits_place`** — copies that start where the one before ended write the concatenation.
-/

namespace Buffers

/-- Memory of `n` cells. -/
structure Buffer (α : Type) (n : Nat) where
  cells : List α
  length_cells : cells.length = n

namespace Buffer

variable {α : Type} {n : Nat}

/-- The copy of `src` to the cells from `offset` on. -/
def blit (b : Buffer α n) (offset : Nat) (src : List α) : Option (Buffer α n) :=
  if h : offset + src.length ≤ n then
    some
      { cells := b.cells.take offset ++ src ++ b.cells.drop (offset + src.length)
        length_cells := by
          have hlen := b.length_cells
          simp only [List.length_append, List.length_take, List.length_drop]
          omega }
  else none

/-- One copy after the other. -/
def blits (b : Buffer α n) : List (Nat × List α) → Option (Buffer α n)
  | [] => some b
  | (offset, src) :: rest =>
      match b.blit offset src with
      | none => none
      | some b => b.blits rest

/-- Where the parts go if each starts where the one before ended. -/
def place (offset : Nat) : List (List α) → List (Nat × List α)
  | [] => []
  | src :: rest => (offset, src) :: place (offset + src.length) rest

theorem blit_eq_none_iff (b : Buffer α n) (offset : Nat) (src : List α) :
    b.blit offset src = none ↔ n < offset + src.length := by
  rw [blit]
  by_cases h : offset + src.length ≤ n
  · rw [dif_pos h]
    exact iff_of_false nofun (Nat.not_lt.mpr h)
  · rw [dif_neg h]
    exact iff_of_true rfl (Nat.not_le.mp h)

theorem cells_of_blit {b b' : Buffer α n} {offset : Nat} {src : List α}
    (h : b.blit offset src = some b') :
    offset + src.length ≤ n ∧
      b'.cells = b.cells.take offset ++ src ++ b.cells.drop (offset + src.length) := by
  rw [blit] at h
  by_cases hfits : offset + src.length ≤ n
  · rw [dif_pos hfits] at h
    rw [← Option.some.inj h]
    exact ⟨hfits, rfl⟩
  · rw [dif_neg hfits] at h
    exact nomatch h

/-- A copy that stays inside. -/
theorem blit_of_le (b : Buffer α n) {offset : Nat} {src : List α} (h : offset + src.length ≤ n) :
    ∃ b' : Buffer α n, b.blit offset src = some b' ∧
      b'.cells = b.cells.take offset ++ src ++ b.cells.drop (offset + src.length) := by
  rw [blit, dif_pos h]
  exact ⟨_, rfl, rfl⟩

/-- **A sequence of copies stays inside** exactly if each copy does. -/
theorem blits_isSome_iff (b : Buffer α n) (copies : List (Nat × List α)) :
    (b.blits copies).isSome = true ↔ ∀ p ∈ copies, p.1 + p.2.length ≤ n := by
  induction copies generalizing b with
  | nil => exact iff_of_true rfl nofun
  | cons p rest ih =>
      obtain ⟨offset, src⟩ := p
      rw [blits, List.forall_mem_cons]
      cases hblit : b.blit offset src with
      | none =>
          have hlt := (blit_eq_none_iff b offset src).mp hblit
          refine iff_of_false Bool.false_ne_true ?_
          rintro ⟨hle, -⟩
          exact absurd hle (Nat.not_le.mpr hlt)
      | some b' =>
          refine (ih b').trans ?_
          exact (and_iff_right (cells_of_blit hblit).1).symm

/-- **Copies one behind the other** write their concatenation. -/
theorem blits_place {b b' : Buffer α n} {offset : Nat} {parts : List (List α)}
    (h : b.blits (place offset parts) = some b') (hoffset : offset ≤ n) :
    b'.cells.take (offset + parts.flatten.length) = b.cells.take offset ++ parts.flatten := by
  induction parts generalizing b offset with
  | nil =>
      rw [place, blits] at h
      rw [← Option.some.inj h, List.flatten_nil, List.append_nil, List.length_nil, Nat.add_zero]
  | cons src rest ih =>
      rw [place, blits] at h
      cases hblit : b.blit offset src with
      | none =>
          rw [hblit] at h
          exact nomatch h
      | some b₁ =>
          rw [hblit] at h
          obtain ⟨hfits, hcells⟩ := cells_of_blit hblit
          have hrest := ih h hfits
          have hfront : b₁.cells.take (offset + src.length) = b.cells.take offset ++ src := by
            have hlen : (b.cells.take offset ++ src).length = offset + src.length := by
              rw [List.length_append, List.length_take, b.length_cells, Nat.min_eq_left hoffset]
            rw [hcells, ← hlen, List.take_left]
          rw [List.flatten_cons, List.length_append, ← Nat.add_assoc, hrest, hfront,
            List.append_assoc]

end Buffer

end Buffers
