import Mathlib.Data.List.Basic
import Mathlib.Data.List.Infix

/-!
# Versioned cells — optimistic commits and coherent copies

A **cell** holds one value at a time and remembers all the values it ever held: version
`0` is the initial value, every commit makes the next version. A party far away keeps a
**copy**, a value with the version it was read at, and commits optimistically: the commit
goes through when the copy's version is still the cell's.

* **`Cell.Extends`** — later states of a cell extend earlier ones, and the past does not
  change (`at?_of_extends`).
* **`Coherent`** — a copy is coherent when its value is the one the cell held at the
  copy's version. Coherence survives every later commit by anybody
  (`Coherent.extends`), and a copy whose own commit went through is coherent at the next
  version (`coherent_commit`).
* **`Outdated`** — a copy strictly behind the cell; once outdated, always outdated.
-/

namespace VersionedCell

variable {δ : Type}

/-- The initial value and the values committed since, oldest first. -/
structure Cell (δ : Type) where
  initial : δ
  commits : List δ

namespace Cell

/-- A cell nobody has committed to yet. -/
def fresh (d : δ) : Cell δ := ⟨d, []⟩

/-- The number of commits so far. -/
def version (c : Cell δ) : Nat := c.commits.length

/-- The value held at version `n`, if the cell ever reached it. -/
def at? (c : Cell δ) (n : Nat) : Option δ := (c.initial :: c.commits)[n]?

/-- The value held now. -/
def current (c : Cell δ) : δ := c.commits.getLastD c.initial

/-- The next version. -/
def commit (c : Cell δ) (d : δ) : Cell δ := ⟨c.initial, c.commits ++ [d]⟩

@[simp] theorem version_fresh (d : δ) : (fresh d).version = 0 := rfl
@[simp] theorem current_fresh (d : δ) : (fresh d).current = d := rfl
@[simp] theorem version_commit (c : Cell δ) (d : δ) :
    (c.commit d).version = c.version + 1 := by
  simp [commit, version]
@[simp] theorem current_commit (c : Cell δ) (d : δ) : (c.commit d).current = d := by
  simp [commit, current]

/-- The newest version is the current value. -/
theorem at?_version (c : Cell δ) : c.at? c.version = some c.current := by
  obtain ⟨i, l⟩ := c
  induction l using List.reverseRecOn with
  | nil => rfl
  | append_singleton l d _ => simp [at?, version, current]

/-- No version lies beyond the newest one. -/
theorem le_version_of_at? {c : Cell δ} {n : Nat} {d : δ} (h : c.at? n = some d) :
    n ≤ c.version := by
  obtain ⟨hlt, -⟩ := List.getElem?_eq_some_iff.mp h
  rw [List.length_cons] at hlt
  exact Nat.le_of_lt_succ hlt

/-- `c'` is a later state of the cell `c`. -/
def Extends (c c' : Cell δ) : Prop := c'.initial = c.initial ∧ c.commits <+: c'.commits

theorem Extends.refl (c : Cell δ) : Extends c c := ⟨rfl, List.prefix_refl _⟩

theorem Extends.trans {a b c : Cell δ} (h : Extends a b) (h' : Extends b c) : Extends a c :=
  ⟨h'.1.trans h.1, h.2.trans h'.2⟩

theorem extends_commit (c : Cell δ) (d : δ) : Extends c (c.commit d) :=
  ⟨rfl, List.prefix_append _ _⟩

/-- Versions only grow. -/
theorem Extends.version_le {c c' : Cell δ} (h : Extends c c') : c.version ≤ c'.version :=
  h.2.length_le

/-- **The past does not change.** A value once held at a version is the value of that
    version for ever. -/
theorem at?_of_extends {c c' : Cell δ} (h : Extends c c') {n : Nat} {d : δ}
    (hn : c.at? n = some d) : c'.at? n = some d := by
  obtain ⟨hinit, ds, hds⟩ := h
  have hsplit : c'.initial :: c'.commits = (c.initial :: c.commits) ++ ds := by
    rw [hinit, ← hds, List.cons_append]
  have hlt : n < (c.initial :: c.commits).length := by
    have := le_version_of_at? hn
    rw [List.length_cons]
    exact Nat.lt_succ_of_le this
  show (c'.initial :: c'.commits)[n]? = some d
  rw [hsplit, List.getElem?_append_left hlt]
  exact hn

end Cell

/-! ## Copies -/

/-- The copy `(v, d)` carries the value the cell held at version `v`. -/
def Coherent (c : Cell δ) (v : Nat) (d : δ) : Prop := c.at? v = some d

/-- Version `v` is strictly behind the cell. -/
def Outdated (c : Cell δ) (v : Nat) : Prop := v < c.version

theorem coherent_current (c : Cell δ) : Coherent c c.version c.current := c.at?_version

/-- Commits by anybody leave a coherent copy coherent. -/
theorem Coherent.extends {c c' : Cell δ} {v : Nat} {d : δ} (h : Coherent c v d)
    (hc : c.Extends c') : Coherent c' v d := Cell.at?_of_extends hc h

theorem Coherent.le_version {c : Cell δ} {v : Nat} {d : δ} (h : Coherent c v d) :
    v ≤ c.version := Cell.le_version_of_at? h

/-- A copy whose commit went through is coherent at the next version. -/
theorem coherent_commit (c : Cell δ) (d : δ) : Coherent (c.commit d) (c.version + 1) d := by
  have h := (c.commit d).at?_version
  rwa [Cell.version_commit, Cell.current_commit] at h

/-- Once behind, always behind. -/
theorem Outdated.extends {c c' : Cell δ} {v : Nat} (h : Outdated c v)
    (hc : c.Extends c') : Outdated c' v := Nat.lt_of_lt_of_le h hc.version_le

end VersionedCell
