import Mathlib.Data.List.Basic
import Mathlib.Order.Lattice

/-!
# Ordered maps as association lists

An ordered map, listed in the order in which an iterator runs over it: strictly ascending
keys. `insert` is the assignment `m[k] = v`, which overwrites a key that is there.

* **`sorted_insert`** — the keys stay strictly ascending.
* **`mem_insert`** — what the map holds afterwards.
* **`lookup_iff`** — looking a key up finds exactly the entry that is listed.
* **`mem_index`** — reading `m[k]` enters a key that is not there.
-/

namespace OrderedMap

variable {κ ν : Type} [LinearOrder κ]

/-- The keys ascend strictly. -/
def Sorted (m : List (κ × ν)) : Prop := m.Pairwise fun x y => x.1 < y.1

/-- `m[k] = v`. -/
def insert (m : List (κ × ν)) (k : κ) (v : ν) : List (κ × ν) :=
  match m with
  | [] => [(k, v)]
  | x :: rest =>
      if k < x.1 then (k, v) :: x :: rest
      else if k = x.1 then (k, v) :: rest
      else x :: insert rest k v

theorem sorted_nil : Sorted ([] : List (κ × ν)) := List.Pairwise.nil

/-- An assignment adds its entry and drops an old one of the same key. -/
theorem mem_insert {m : List (κ × ν)} (h : Sorted m) (k : κ) (v : ν) (y : κ × ν) :
    y ∈ insert m k v ↔ y = (k, v) ∨ (y ∈ m ∧ y.1 ≠ k) := by
  induction m with
  | nil => simp [insert]
  | cons x rest ih =>
      obtain ⟨hhead, hrest⟩ := List.pairwise_cons.mp h
      rw [insert]
      split
      · -- the new key comes before all others
        rename_i hlt
        have hne : ∀ z ∈ x :: rest, z.1 ≠ k := by
          intro z hz
          rcases List.mem_cons.mp hz with rfl | hz
          · exact (ne_of_lt hlt).symm
          · exact (ne_of_lt (lt_trans hlt (hhead z hz))).symm
        rw [List.mem_cons]
        exact or_congr_right ⟨fun hy => ⟨hy, hne y hy⟩, And.left⟩
      · split
        · rename_i heq
          subst heq
          rw [List.mem_cons, List.mem_cons]
          refine or_congr_right ⟨fun hy => ⟨Or.inr hy, (ne_of_lt (hhead y hy)).symm⟩, ?_⟩
          rintro ⟨rfl | hy, hne⟩
          · exact absurd rfl hne
          · exact hy
        · rename_i hne
          rw [List.mem_cons, List.mem_cons, ih hrest]
          constructor
          · rintro (rfl | rfl | ⟨hy, hyk⟩)
            · exact Or.inr ⟨Or.inl rfl, fun h' => hne h'.symm⟩
            · exact Or.inl rfl
            · exact Or.inr ⟨Or.inr hy, hyk⟩
          · rintro (rfl | ⟨rfl | hy, hyk⟩)
            · exact Or.inr (Or.inl rfl)
            · exact Or.inl rfl
            · exact Or.inr (Or.inr ⟨hy, hyk⟩)

/-- **Assignments keep the order.** -/
theorem sorted_insert {m : List (κ × ν)} (h : Sorted m) (k : κ) (v : ν) :
    Sorted (insert m k v) := by
  induction m with
  | nil => exact List.pairwise_singleton _ _
  | cons x rest ih =>
      obtain ⟨hhead, hrest⟩ := List.pairwise_cons.mp h
      rw [insert]
      split
      · rename_i hlt
        refine List.pairwise_cons.mpr ⟨fun y hy => ?_, h⟩
        rcases List.mem_cons.mp hy with rfl | hy
        · exact hlt
        · exact lt_trans hlt (hhead y hy)
      · split
        · rename_i heq
          refine List.pairwise_cons.mpr ⟨fun y hy => ?_, hrest⟩
          show k < y.1
          rw [heq]
          exact hhead y hy
        · rename_i hnlt hne
          refine List.pairwise_cons.mpr ⟨fun y hy => ?_, ih hrest⟩
          rcases (mem_insert hrest k v y).mp hy with rfl | ⟨hy, -⟩
          · exact lt_of_le_of_ne (not_lt.mp hnlt) fun h' => hne h'.symm
          · exact hhead y hy

/-- **A key is looked up to its entry.** -/
theorem lookup_iff [BEq κ] [LawfulBEq κ] {m : List (κ × ν)} (h : Sorted m) (k : κ) (v : ν) :
    m.lookup k = some v ↔ (k, v) ∈ m := by
  induction m with
  | nil => simp
  | cons x rest ih =>
      obtain ⟨hhead, hrest⟩ := List.pairwise_cons.mp h
      obtain ⟨k', v'⟩ := x
      rw [List.lookup_cons, List.mem_cons]
      by_cases hk : k = k'
      · subst hk
        simp only [beq_self_eq_true, Option.some.injEq, Prod.mk.injEq, true_and]
        refine ⟨fun h' => Or.inl h'.symm, ?_⟩
        rintro (h' | hin)
        · exact h'.symm
        · exact absurd (hhead _ hin) (lt_irrefl k)
      · rw [beq_false_of_ne hk]
        rw [ih hrest]
        exact ⟨Or.inr, fun h' => h'.resolve_left fun heq => hk (congrArg Prod.fst heq)⟩

/-- The entries decide the map. -/
theorem eq_of_mem_iff {m m' : List (κ × ν)} (h : Sorted m) (h' : Sorted m')
    (hmem : ∀ y, y ∈ m ↔ y ∈ m') : m = m' := by
  have hnodup : ∀ {l : List (κ × ν)}, Sorted l → l.Nodup := by
    intro l hl
    refine List.Pairwise.imp ?_ hl
    rintro x y hlt rfl
    exact lt_irrefl x.1 hlt
  have hperm : m.Perm m' := (List.perm_ext_iff_of_nodup (hnodup h) (hnodup h')).mpr hmem
  refine hperm.eq_of_pairwise ?_ h h'
  intro x y _ _ hxy hyx
  exact absurd (lt_trans hxy hyx) (lt_irrefl x.1)

/-! ## Reading with `m[k]` -/

/-- `m[k]` where it is read: a key that is not there is entered, with the value `v`. -/
def index [BEq κ] (m : List (κ × ν)) (k : κ) (v : ν) : ν × List (κ × ν) :=
  match m.lookup k with
  | some found => (found, m)
  | none => (v, insert m k v)

section

variable [BEq κ] [LawfulBEq κ] {m : List (κ × ν)} {k : κ} {v : ν}

/-- A key that is there is looked up. -/
theorem index_of_mem (h : Sorted m) (hk : (k, v) ∈ m) (v' : ν) : index m k v' = (v, m) := by
  rw [index, (lookup_iff h k v).mpr hk]

/-- A key that is not there is entered. -/
theorem index_of_not_mem (h : Sorted m) (hk : ∀ v', (k, v') ∉ m) :
    index m k v = (v, insert m k v) := by
  cases hlookup : m.lookup k with
  | none => rw [index, hlookup]
  | some found => exact absurd ((lookup_iff h k found).mp hlookup) (hk found)

/-- **What the map holds after `m[k]` was read**: the entry for `k` is new if there was none. -/
theorem mem_index (h : Sorted m) (y : κ × ν) :
    y ∈ (index m k v).2 ↔ y ∈ m ∨ (y = (k, v) ∧ ∀ v', (k, v') ∉ m) := by
  by_cases hk : ∃ found, (k, found) ∈ m
  · obtain ⟨found, hfound⟩ := hk
    rw [index_of_mem h hfound]
    exact ⟨Or.inl, fun hy => hy.resolve_right fun hnew => hnew.2 found hfound⟩
  · have hnone : ∀ v', (k, v') ∉ m := fun v' hin => hk ⟨v', hin⟩
    rw [index_of_not_mem h hnone, mem_insert h]
    constructor
    · rintro (rfl | ⟨hy, -⟩)
      · exact Or.inr ⟨rfl, hnone⟩
      · exact Or.inl hy
    · rintro (hy | ⟨rfl, -⟩)
      · refine Or.inr ⟨hy, ?_⟩
        rintro rfl
        exact hnone y.2 hy
      · exact Or.inl rfl

/-- What is read is in the map afterwards. -/
theorem mem_index_self (h : Sorted m) : (k, (index m k v).1) ∈ (index m k v).2 := by
  by_cases hk : ∃ found, (k, found) ∈ m
  · obtain ⟨found, hfound⟩ := hk
    rw [index_of_mem h hfound]
    exact hfound
  · have hnone : ∀ v', (k, v') ∉ m := fun v' hin => hk ⟨v', hin⟩
    rw [index_of_not_mem h hnone]
    exact (mem_insert h k v _).mpr (Or.inl rfl)

omit [LawfulBEq κ] in
theorem sorted_index (h : Sorted m) : Sorted (index m k v).2 := by
  rw [index]
  split
  · exact h
  · exact sorted_insert h k v

end

end OrderedMap
