import Mathlib.Data.List.Basic
import Mathlib.Data.List.Nodup

/-!
# Ownership — objects that each own a piece of memory

An object has members of its own and the address of one piece of memory. No two objects
have one address, and none an address that was not given out; the memory carries both as
fields, so that an operation that breaks them cannot be written.

* **`make`**, **`change`**, **`write`** — a new object with memory of its own, other
  members, other content.
* **`values`** — every object as members and content; what the operations do to them is
  what they would do to values. **`values_write`** is where ownership is used: a
  write through one object's address reaches no other object.
-/

namespace Ownership

/-- A change to one element is a change to one of the images. -/
theorem map_modify {α β : Type} {f : α → α} {g : β → β} {h : α → β}
    (hfg : ∀ a, h (f a) = g (h a)) (l : List α) (i : Nat) :
    (l.modify i f).map h = (l.map h).modify i g := by
  refine List.ext_getElem? fun k => ?_
  rw [List.getElem?_map, List.getElem?_modify, List.getElem?_modify, List.getElem?_map]
  cases l[k]? with
  | none => rfl
  | some a =>
      simp only [Option.map_some, Option.map_eq_map]
      split
      · rw [hfg]
      · rfl

/-- The members of an object, and the address of what it owns. -/
structure Object (β : Type) where
  members : β
  address : Nat

/-- What is at each address, the next address to give out, and the objects, in the order
    they were made. -/
structure Memory (α β : Type) where
  contents : Nat → α
  next : Nat
  objects : List (Object β)
  distinct : (objects.map Object.address).Nodup
  allocated : ∀ o ∈ objects, o.address < next

namespace Memory

variable {α β : Type}

/-- No objects yet, and anything at the addresses. -/
def empty (contents : Nat → α) : Memory α β where
  contents := contents
  next := 0
  objects := []
  distinct := List.nodup_nil
  allocated := nofun

/-- A new object, with memory of its own. -/
def make (m : Memory α β) (members : β) (content : α) : Memory α β where
  contents := Function.update m.contents m.next content
  next := m.next + 1
  objects := m.objects ++ [⟨members, m.next⟩]
  distinct := by
    rw [List.map_append, List.nodup_append']
    refine ⟨m.distinct, List.nodup_singleton _, ?_⟩
    intro a ha hnew
    obtain ⟨o, ho, rfl⟩ := List.mem_map.mp ha
    exact absurd (List.mem_singleton.mp hnew) (Nat.ne_of_lt (m.allocated o ho))
  allocated := by
    intro o ho
    rcases List.mem_append.mp ho with ho | ho
    · exact Nat.lt_succ_of_lt (m.allocated o ho)
    · rw [List.mem_singleton.mp ho]
      exact Nat.lt_succ_self m.next

/-- Other members for the `i`-th object. -/
def change (m : Memory α β) (i : Nat) (f : β → β) : Memory α β where
  contents := m.contents
  next := m.next
  objects := m.objects.modify i fun o => { o with members := f o.members }
  distinct := by
    have haddresses : (m.objects.modify i fun o => { o with members := f o.members }).map
        Object.address = m.objects.map Object.address := by
      refine List.ext_getElem? fun k => ?_
      rw [List.getElem?_map, List.getElem?_modify, List.getElem?_map]
      split <;> cases m.objects[k]? <;> rfl
    rw [haddresses]
    exact m.distinct
  allocated := by
    intro o ho
    obtain ⟨k, hk⟩ := List.mem_iff_getElem?.mp ho
    rw [List.getElem?_modify] at hk
    obtain ⟨o', ho', rfl⟩ := Option.map_eq_some_iff.mp hk
    have hlt := m.allocated o' (List.mem_of_getElem? ho')
    split <;> exact hlt

/-- Other content where the `i`-th object points. -/
def write (m : Memory α β) (i : Nat) (content : α) : Memory α β :=
  match m.objects[i]? with
  | none => m
  | some o => { m with contents := Function.update m.contents o.address content }

/-- An object as a value. -/
def value (m : Memory α β) (o : Object β) : β × α := (o.members, m.contents o.address)

/-- The objects as values. -/
def values (m : Memory α β) : List (β × α) := m.objects.map m.value

theorem length_values (m : Memory α β) : m.values.length = m.objects.length :=
  List.length_map ..

theorem getElem?_values (m : Memory α β) (k : Nat) :
    m.values[k]? = m.objects[k]?.map m.value :=
  List.getElem?_map ..

/-- A new object is a new value, and the others keep theirs. -/
theorem values_make (m : Memory α β) (members : β) (content : α) :
    (m.make members content).values = m.values ++ [(members, content)] := by
  have hold : m.objects.map (m.make members content).value = m.values := by
    refine List.map_congr_left fun o ho => ?_
    show (o.members, Function.update m.contents m.next content o.address) = m.value o
    rw [Function.update_of_ne (Nat.ne_of_lt (m.allocated o ho)), value]
  have hnew : (m.make members content).value ⟨members, m.next⟩ = (members, content) := by
    show (members, Function.update m.contents m.next content m.next) = (members, content)
    rw [Function.update_self]
  have hobjects : (m.make members content).objects = m.objects ++ [⟨members, m.next⟩] := rfl
  rw [values, hobjects, List.map_append, hold, List.map_singleton, hnew]

/-- Members change in one value. -/
theorem values_change (m : Memory α β) (i : Nat) (f : β → β) :
    (m.change i f).values = m.values.modify i fun p => (f p.1, p.2) := by
  show (m.objects.modify i fun o => { o with members := f o.members }).map m.value = _
  rw [map_modify (g := fun p => (f p.1, p.2))]
  · rfl
  · intro o
    rfl

/-- Two objects with one address are one object. -/
theorem eq_of_address {m : Memory α β} {i k : Nat} {o o' : Object β} (h : m.objects[i]? = some o)
    (h' : m.objects[k]? = some o') (heq : o.address = o'.address) : i = k := by
  have hi : (m.objects.map Object.address)[i]? = some o.address := by
    rw [List.getElem?_map, h, Option.map_some]
  have hk : (m.objects.map Object.address)[k]? = some o.address := by
    rw [List.getElem?_map, h', Option.map_some, heq]
  obtain ⟨hlt, -⟩ := List.getElem?_eq_some_iff.mp hi
  exact (List.getElem?_inj hlt m.distinct).mp (hi.trans hk.symm)

/-- **A write changes one value**: the one whose memory it is. -/
theorem values_write (m : Memory α β) (i : Nat) (content : α) :
    (m.write i content).values = m.values.modify i fun p => (p.1, content) := by
  refine List.ext_getElem? fun k => ?_
  rw [List.getElem?_modify, getElem?_values, getElem?_values]
  cases hi : m.objects[i]? with
  | none =>
      have hsame : m.write i content = m := by simp only [write, hi]
      rw [hsame]
      cases hk : m.objects[k]? with
      | none => rfl
      | some o =>
          have hne : i ≠ k := by
            rintro rfl
            exact nomatch hi.symm.trans hk
          simp only [Option.map_some, Option.map_eq_map, if_neg hne]
  | some o =>
      have hwritten : m.write i content =
          { m with contents := Function.update m.contents o.address content } := by
        simp only [write, hi]
      rw [hwritten]
      cases hk : m.objects[k]? with
      | none => rfl
      | some o' =>
          simp only [Option.map_some, Option.map_eq_map]
          by_cases hik : i = k
          · obtain rfl : o = o' := by
              rw [hik] at hi
              exact Option.some.inj (hi.symm.trans hk)
            rw [if_pos hik]
            simp only [value, Function.update_self]
          · have hne : o'.address ≠ o.address :=
              fun heq => hik (eq_of_address hi hk heq.symm)
            rw [if_neg hik]
            simp only [value, Function.update_of_ne hne]

end Memory

end Ownership
