import Mathlib.Data.List.Basic
import Mathlib.Logic.Function.Basic

/-!
# Cell memory — regions that are loaded and stored

A memory gives every address a cell. A region is `n` cells from an address on:

* **`load`**, **`store`** — all cells of a region at once.
* **`Apart`** — two regions of one size share no cell; **`apart_iff`** says it of the cells.
* **`load_store`**, **`load_store_apart`** — a store is read back where it was made, and
  not seen from a region apart.
-/

namespace CellMemory

variable {β : Type}

/-- The `n` cells from `a` on. -/
def load (m : Nat → β) (a n : Nat) : List β := (List.range n).map fun i => m (a + i)

/-- The cells from `a` on, overwritten by `bs`. -/
def store (m : Nat → β) (a : Nat) (bs : List β) : Nat → β := fun x =>
  if a ≤ x then (bs[x - a]?).getD (m x) else m x

/-- A cell of the region. -/
def Within (a n x : Nat) : Prop := a ≤ x ∧ x < a + n

instance (a n x : Nat) : Decidable (Within a n x) := inferInstanceAs (Decidable (_ ∧ _))

/-- Two regions of `n` cells with no cell in common. -/
def Apart (n a b : Nat) : Prop := a + n ≤ b ∨ b + n ≤ a

instance (n a b : Nat) : Decidable (Apart n a b) := inferInstanceAs (Decidable (_ ∨ _))

theorem Apart.symm {n a b : Nat} (h : Apart n a b) : Apart n b a := Or.symm h

theorem Apart.outside {n a b x : Nat} (h : Apart n a b) (hx : Within a n x) :
    ¬ Within b n x := by
  intro hx'
  obtain ⟨hle, hlt⟩ := hx
  obtain ⟨hle', hlt'⟩ := hx'
  rcases h with h | h <;> omega

/-- Regions that are not apart share a cell: the first one of the later region. -/
theorem apart_iff {n a b : Nat} (hn : 0 < n) :
    Apart n a b ↔ ∀ x, Within a n x → ¬ Within b n x := by
  constructor
  · exact fun h _ hx => h.outside hx
  · intro h
    have hmax := h (max a b)
    simp only [Within] at hmax
    simp only [Apart]
    omega

/-! ## Loads -/

@[simp] theorem length_load (m : Nat → β) (a n : Nat) : (load m a n).length = n := by
  rw [load, List.length_map, List.length_range]

theorem getElem_load (m : Nat → β) (a n : Nat) {i : Nat} (hi : i < (load m a n).length) :
    (load m a n)[i] = m (a + i) := by
  simp only [load, List.getElem_map, List.getElem_range]

/-- A load depends on the cells of its region, and on each of them. -/
theorem load_eq_iff {m m' : Nat → β} {a n : Nat} :
    load m a n = load m' a n ↔ ∀ x, Within a n x → m x = m' x := by
  constructor
  · rintro h x ⟨hle, hlt⟩
    have hx : x - a < (load m a n).length := by rw [length_load]; omega
    have hsame := getElem_load m a n hx
    rw [List.getElem_of_eq h, getElem_load, Nat.add_sub_cancel' hle] at hsame
    exact hsame.symm
  · intro h
    refine List.map_congr_left fun i hi => h (a + i) ⟨Nat.le_add_right a i, ?_⟩
    exact Nat.add_lt_add_left (List.mem_range.mp hi) a

/-! ## Stores -/

theorem store_outside {m : Nat → β} {a x : Nat} {bs : List β} (h : ¬ Within a bs.length x) :
    store m a bs x = m x := by
  rw [store]
  by_cases hle : a ≤ x
  · have hlong : bs.length ≤ x - a := by
      have hnot : ¬ x < a + bs.length := fun hlt => h ⟨hle, hlt⟩
      omega
    rw [if_pos hle, List.getElem?_eq_none hlong]
    rfl
  · rw [if_neg hle]

theorem store_inside {m : Nat → β} {a i : Nat} {bs : List β} (h : i < bs.length) :
    store m a bs (a + i) = bs[i] := by
  rw [store, if_pos (Nat.le_add_right a i), Nat.add_sub_cancel_left, List.getElem?_eq_getElem h]
  rfl

/-- What was stored is loaded. -/
theorem load_store {m : Nat → β} {a n : Nat} {bs : List β} (h : bs.length = n) :
    load (store m a bs) a n = bs := by
  refine List.ext_getElem (by rw [length_load, h]) fun i hi hi' => ?_
  rw [getElem_load, store_inside hi']

/-- A store is not seen from a region apart. -/
theorem load_store_apart {m : Nat → β} {a b n : Nat} {bs : List β} (h : bs.length = n)
    (hapart : Apart n a b) : load (store m a bs) b n = load m b n := by
  refine load_eq_iff.mpr fun x hx => store_outside ?_
  rw [h]
  exact hapart.symm.outside hx

/-- A cell outside of a region does not count for it. -/
theorem load_update {m : Nat → β} {a n x : Nat} (v : β) (h : ¬ Within a n x) :
    load (Function.update m x v) a n = load m a n := by
  refine load_eq_iff.mpr fun y hy => Function.update_of_ne ?_ ..
  rintro rfl
  exact h hy

end CellMemory
