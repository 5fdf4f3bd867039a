import Mathlib.Data.Finset.Basic
import Mathlib.Data.List.Nodup

/-!
# Leases — names that a table hands out and takes back

A table has some names out. A few of them were out from the start; every other one is held
by one holder, who alone may give it back, and a name that is out is not handed out again.

* **`Held`** — the names out are those of the start and those held, each held once.
* **`gain`**, **`drop`**, **`perm`** — a name handed out, a name given back, and names that
  change hands.
-/

namespace Lease

variable {α : Type} [DecidableEq α]

structure Held (base out : Finset α) (held : List α) : Prop where
  nodup : held.Nodup
  apart : ∀ x ∈ held, x ∉ base
  mem : ∀ x, x ∈ out ↔ x ∈ base ∨ x ∈ held

namespace Held

variable {base out : Finset α} {held held' : List α} {x : α}

omit [DecidableEq α] in
theorem start (base : Finset α) : Held base base [] where
  nodup := List.nodup_nil
  apart := fun _ hx => absurd hx List.not_mem_nil
  mem := fun x => by simp

omit [DecidableEq α] in
/-- Names may change hands. -/
theorem perm (h : Held base out held) (hperm : held.Perm held') : Held base out held' where
  nodup := hperm.nodup_iff.mp h.nodup
  apart := fun x hx => h.apart x (hperm.mem_iff.mpr hx)
  mem := fun x => by rw [h.mem, hperm.mem_iff]

/-- A name that is not out is handed out. -/
theorem gain (h : Held base out held) (hx : x ∉ out) : Held base (insert x out) (x :: held) where
  nodup := List.nodup_cons.mpr ⟨fun hin => hx ((h.mem x).mpr (Or.inr hin)), h.nodup⟩
  apart := by
    intro y hy
    rcases List.mem_cons.mp hy with rfl | hin
    · exact fun hbase => hx ((h.mem y).mpr (Or.inl hbase))
    · exact h.apart y hin
  mem := by
    intro y
    rw [Finset.mem_insert, h.mem, List.mem_cons]
    exact or_left_comm

/-- A holder gives its name back. -/
theorem drop (h : Held base out (x :: held)) : Held base (out.erase x) held where
  nodup := (List.nodup_cons.mp h.nodup).2
  apart := fun y hy => h.apart y (List.mem_cons_of_mem x hy)
  mem := by
    intro y
    rw [Finset.mem_erase, h.mem, List.mem_cons]
    constructor
    · rintro ⟨hne, hbase | rfl | hin⟩
      · exact Or.inl hbase
      · exact absurd rfl hne
      · exact Or.inr hin
    · rintro (hbase | hin)
      · refine ⟨?_, Or.inl hbase⟩
        rintro rfl
        exact h.apart y List.mem_cons_self hbase
      · refine ⟨?_, Or.inr (Or.inr hin)⟩
        rintro rfl
        exact (List.nodup_cons.mp h.nodup).1 hin

end Held

end Lease
