import DistributedMemory.OwnershipProofs
import DistributedMemory.DmBlockProofs

/-!
# Blocks in memory — `BlockServer` objects and the arrays they point to

Elsewhere a block is a value. In the source it is an object with a pointer to an array
that its constructor allocates, and copying one is a matter of which members are copied
and what the pointer is set to.

* **`step`** — the constructors, `operator=` and the setters on objects and arrays.
* **`blocks_step`** — they do to the objects what the operations of `BlockServer` do to
  values: no array is shared.
* **`copies_agree_iff`** — a block's two kinds of copy agree with it exactly while its
  revision is 0.
-/

namespace DmOwnership

open DmBlock Ownership

/-- The members of a `BlockServer` besides `m_data`. -/
structure Members where
  id : Int32
  revision : Int32
  mappedClients : List String

/-- Objects, and the arrays that `m_data` points to. -/
abbrev Heap := Memory Data Members

/-- `Block(int id)`, with no clients mapped. -/
def Members.create (id : Int32) : Members := ⟨id, 0, []⟩

/-- What is done with blocks. Blocks are numbered as they are made. -/
inductive Op where
  /-- `BlockServer(int id)`. -/
  | construct (id : Int32)
  /-- `BlockServer(const BlockServer&)` of the `i`-th block. -/
  | copy (i : Nat)
  /-- `operator=` of the `j`-th block, with the `i`-th. -/
  | assign (j i : Nat)
  | revision (i : Nat) (rev : Int32)
  | data (i : Nat) (data : Data)
  | addRevision (i : Nat)
  | map (i : Nat) (clientId : String)
  | unmap (i : Nat) (clientId : String)

/-- One operation; one on a block that is not there does nothing. -/
def step (m : Heap) : Op → Heap
  | .construct id => m.make (Members.create id) (Data.memset 0)
  | .copy i =>
      match m.objects[i]? with
      | none => m
      | some b => m.make (Members.create b.members.id) (m.contents b.address)
  | .assign j i =>
      match m.objects[i]? with
      | none => m
      | some b =>
          if j = i then m
          else
            (m.change j fun this =>
              { this with id := b.members.id, revision := b.members.revision }).write j
                (m.contents b.address)
  | .revision i rev => m.change i fun b => { b with revision := rev }
  | .data i data => m.write i data
  | .addRevision i => m.change i fun b => { b with revision := b.revision + 1 }
  | .map i clientId =>
      m.change i fun b =>
        if clientId ∈ b.mappedClients then b
        else { b with mappedClients := b.mappedClients ++ [clientId] }
  | .unmap i clientId =>
      m.change i fun b =>
        if clientId ∈ b.mappedClients then
          { b with mappedClients := b.mappedClients.erase clientId }
        else b

/-- One operation after the other. -/
def run (m : Heap) (ops : List Op) : Heap := ops.foldl step m

/-! ## Blocks as values -/

/-- An object, and the array it points to, as a value. -/
def toServer (p : Members × Data) : BlockServer := ⟨p.1.id, p.1.revision, p.2, p.1.mappedClients⟩

/-- All blocks, as values. -/
def blocks (m : Heap) : List BlockServer := m.values.map toServer

/-- The operation on values. -/
def valueStep (bs : List BlockServer) : Op → List BlockServer
  | .construct id => bs ++ [BlockServer.create id]
  | .copy i =>
      match bs[i]? with
      | none => bs
      | some b => bs ++ [b.copy]
  | .assign j i =>
      match bs[i]? with
      | none => bs
      | some b => bs.modify j fun this => this.assign b
  | .revision i rev => bs.modify i fun b => { b with revision := rev }
  | .data i data => bs.modify i fun b => { b with data := data }
  | .addRevision i => bs.modify i BlockServer.addRevision
  | .map i clientId => bs.modify i fun b => (b.map clientId).2
  | .unmap i clientId => bs.modify i fun b => (b.unmap clientId).2

theorem length_blocks (m : Heap) : (blocks m).length = m.objects.length := by
  rw [blocks, List.length_map, m.length_values]

theorem getElem?_blocks (m : Heap) (i : Nat) :
    (blocks m)[i]? = m.objects[i]?.map fun o => toServer (m.value o) := by
  rw [blocks, List.getElem?_map, m.getElem?_values, Option.map_map]
  rfl

theorem blocks_make (m : Heap) (members : Members) (data : Data) :
    blocks (m.make members data) = blocks m ++ [toServer (members, data)] := by
  rw [blocks, m.values_make, List.map_append]
  rfl

theorem blocks_change {m : Heap} {i : Nat} {f : Members → Members}
    {g : BlockServer → BlockServer} (hfg : ∀ p, toServer (f p.1, p.2) = g (toServer p)) :
    blocks (m.change i f) = (blocks m).modify i g := by
  rw [blocks, m.values_change, map_modify (f := fun p : Members × Data => (f p.1, p.2)) hfg]
  rfl

theorem blocks_write (m : Heap) (i : Nat) (data : Data) :
    blocks (m.write i data) = (blocks m).modify i fun b => { b with data := data } := by
  rw [blocks, m.values_write, map_modify (g := fun b => { b with data := data })]
  · rfl
  · intro p
    rfl

/-- A block assigned from itself is as it was. -/
theorem modify_assign_self {bs : List BlockServer} {i : Nat} {b : BlockServer}
    (h : bs[i]? = some b) : (bs.modify i fun this => this.assign b) = bs := by
  refine List.ext_getElem? fun k => ?_
  rw [List.getElem?_modify]
  by_cases hik : i = k
  · subst hik
    rw [h]
    simp only [if_true]
    rfl
  · simp only [if_neg hik]
    cases bs[k]? <;> rfl

/-- **Objects behave as values do**: the arrays of two blocks are two arrays. -/
theorem blocks_step (m : Heap) (op : Op) : blocks (step m op) = valueStep (blocks m) op := by
  cases op with
  | construct id => exact blocks_make m _ _
  | copy i =>
      rw [step, valueStep, getElem?_blocks]
      cases m.objects[i]? with
      | none => rfl
      | some b => exact blocks_make m _ _
  | assign j i =>
      rw [step, valueStep, getElem?_blocks]
      cases hb : m.objects[i]? with
      | none => rfl
      | some b =>
          rw [Option.map_some]
          dsimp only
          by_cases hji : j = i
          · have hself : (blocks m)[i]? = some (toServer (m.value b)) := by
              rw [getElem?_blocks, hb, Option.map_some]
            rw [if_pos hji, hji, modify_assign_self hself]
          · rw [if_neg hji, blocks_write,
              blocks_change (g := fun this => { this with
                id := b.members.id, revision := b.members.revision })]
            · rw [List.modify_modify_eq]
              rfl
            · intro p
              rfl
  | revision i rev => exact blocks_change fun p => rfl
  | data i data => exact blocks_write m i data
  | addRevision i => exact blocks_change fun p => rfl
  | map i clientId =>
      refine blocks_change fun p => ?_
      rw [BlockServer.map]
      by_cases hmem : clientId ∈ p.1.mappedClients
      · rw [if_pos hmem, if_pos (show clientId ∈ (toServer p).mappedClients from hmem)]
      · rw [if_neg hmem, if_neg (show clientId ∉ (toServer p).mappedClients from hmem)]
        rfl
  | unmap i clientId =>
      refine blocks_change fun p => ?_
      rw [BlockServer.unmap]
      by_cases hmem : clientId ∈ p.1.mappedClients
      · rw [if_pos hmem, if_pos (show clientId ∈ (toServer p).mappedClients from hmem)]
        rfl
      · rw [if_neg hmem, if_neg (show clientId ∉ (toServer p).mappedClients from hmem)]

/-- So they do over a whole run. -/
theorem blocks_run (m : Heap) (ops : List Op) :
    blocks (run m ops) = ops.foldl valueStep (blocks m) := by
  induction ops generalizing m with
  | nil => rfl
  | cons op ops ih =>
      rw [run, List.foldl_cons, List.foldl_cons, ← blocks_step]
      exact ih (step m op)

/-! ## Copies -/

/-- The operation changes data or revision of the `i`-th block, and nothing else. -/
def Changes (i : Nat) : Op → Prop
  | .revision j _ => j = i
  | .data j _ => j = i
  | .addRevision j => j = i
  | _ => False

/-- Id, revision and bytes are the same. -/
def Agree (b b' : BlockServer) : Prop :=
  b'.id = b.id ∧ b'.revision = b.revision ∧ b'.data.bytes = b.data.bytes

/-- Whatever is changed of one of the two blocks later, the other stays as it is. -/
def Independent (m : Heap) (i k : Nat) : Prop :=
  ∀ later : List Op,
    ((∀ op ∈ later, Changes i op) → (blocks (run m later))[k]? = (blocks m)[k]?) ∧
      ((∀ op ∈ later, Changes k op) → (blocks (run m later))[i]? = (blocks m)[i]?)

/-- A new block copied from the `i`-th, and any block assigned from it, agree with it and are
    independent of it. -/
structure CopiesAgree (m : Heap) (i : Nat) (b : BlockServer) : Prop where
  copy : ∃ c, (blocks (step m (.copy i)))[m.objects.length]? = some c ∧ Agree b c
  copy_independent : Independent (step m (.copy i)) i m.objects.length
  assign : ∀ j < m.objects.length, ∃ c, (blocks (step m (.assign j i)))[j]? = some c ∧ Agree b c
  assign_independent : ∀ j < m.objects.length, j ≠ i → Independent (step m (.assign j i)) i j

/-- A change to one block leaves the others alone. -/
theorem getElem?_step_of_changes {i k : Nat} (hne : i ≠ k) {op : Op} (h : Changes i op)
    (bs : List BlockServer) : (valueStep bs op)[k]? = bs[k]? := by
  have hmodify : ∀ f : BlockServer → BlockServer, (bs.modify i f)[k]? = bs[k]? :=
    fun f => List.getElem?_modify_ne f bs hne
  cases op with
  | revision j rev =>
      obtain rfl : j = i := h
      exact hmodify _
  | data j data =>
      obtain rfl : j = i := h
      exact hmodify _
  | addRevision j =>
      obtain rfl : j = i := h
      exact hmodify _
  | construct id => exact h.elim
  | copy j => exact h.elim
  | assign j j' => exact h.elim
  | map j clientId => exact h.elim
  | unmap j clientId => exact h.elim

/-- So do any number of them. -/
theorem getElem?_run_of_changes {i k : Nat} (hne : i ≠ k) {later : List Op}
    (h : ∀ op ∈ later, Changes i op) (m : Heap) :
    (blocks (run m later))[k]? = (blocks m)[k]? := by
  induction later generalizing m with
  | nil => rfl
  | cons op later ih =>
      rw [List.forall_mem_cons] at h
      rw [run, List.foldl_cons]
      refine (ih h.2 (step m op)).trans ?_
      rw [blocks_step]
      exact getElem?_step_of_changes hne h.1 (blocks m)

/-- Two blocks are independent. -/
theorem independent_of_ne {i k : Nat} (hne : i ≠ k) (m : Heap) : Independent m i k :=
  fun _ => ⟨fun h => getElem?_run_of_changes hne h m,
    fun h => getElem?_run_of_changes (Ne.symm hne) h m⟩

/-- The copy constructor gives the block its copy, revision 0 and all. -/
theorem getElem?_copy {m : Heap} {i : Nat} {b : BlockServer} (h : (blocks m)[i]? = some b) :
    (blocks (step m (.copy i)))[m.objects.length]? = some b.copy := by
  rw [blocks_step, valueStep, h, ← length_blocks]
  exact List.getElem?_concat_length

theorem getElem?_assign {m : Heap} {i j : Nat} {b : BlockServer} (h : (blocks m)[i]? = some b)
    (hj : j < m.objects.length) :
    ∃ this : BlockServer, (blocks (step m (.assign j i)))[j]? = some (this.assign b) := by
  rw [← length_blocks] at hj
  refine ⟨(blocks m)[j], ?_⟩
  rw [blocks_step, valueStep, h]
  dsimp only
  rw [List.getElem?_modify_eq, List.getElem?_eq_getElem hj]
  rfl

/-- **Copies agree while the revision is 0**, and not after that: at every block there is in
    any run, the assigned blocks and the data of the copied one always do, the revision of the
    copied one is 0. -/
theorem copies_agree_iff (contents : Nat → Data) (ops : List Op) (i : Nat) :
    (∀ b, (blocks (run (Memory.empty contents) ops))[i]? = some b →
        CopiesAgree (run (Memory.empty contents) ops) i b) ↔
      ∀ b, (blocks (run (Memory.empty contents) ops))[i]? = some b → b.revision = 0 := by
  refine forall_congr' fun b => ?_
  refine forall_congr' fun hb => ?_
  have hi : i < (run (Memory.empty contents) ops).objects.length := by
    rw [← length_blocks]
    exact (List.getElem?_eq_some_iff.mp hb).1
  constructor
  · intro h
    obtain ⟨c, hc, -, hrev, -⟩ := h.copy
    rw [getElem?_copy hb] at hc
    rw [← hrev, ← Option.some.inj hc]
    rfl
  · intro hrev
    refine ⟨⟨b.copy, getElem?_copy hb, rfl, hrev.symm, rfl⟩, ?_, ?_, ?_⟩
    · exact independent_of_ne (Nat.ne_of_lt hi) _
    · intro j hj
      obtain ⟨this, hthis⟩ := getElem?_assign hb hj
      exact ⟨_, hthis, rfl, rfl, rfl⟩
    · intro j hj hne
      exact independent_of_ne (Ne.symm hne) _

/-- A block is made and its revision goes to 1. -/
def revised : List Op := [.construct 123, .addRevision 0]

/-- **A copy forgets the revision.** -/
theorem copy_of_revised :
    ∃ b, (blocks (run (Memory.empty fun _ => Data.memset 0) revised))[0]? = some b ∧
      b.revision = 1 ∧ ¬ CopiesAgree (run (Memory.empty fun _ => Data.memset 0) revised) 0 b := by
  have hb : (blocks (run (Memory.empty fun _ => Data.memset 0) revised))[0]? =
      some { BlockServer.create 123 with revision := 1 } := by
    rw [blocks_run]
    rfl
  refine ⟨_, hb, rfl, fun h => ?_⟩
  obtain ⟨c, hc, -, hrev, -⟩ := h.copy
  rw [getElem?_copy hb] at hc
  rw [← Option.some.inj hc] at hrev
  exact absurd hrev (by decide)

end DmOwnership
