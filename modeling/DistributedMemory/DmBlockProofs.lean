import Mathlib.Data.List.Basic

/-!
# Blocks — the fixed-length memory containers of client and server

`Block`, `BlockServer` and `BlockLocal`. A block has a numeric id, a revision and
`dimBlock` bytes of content:

* **`Data`** — the content, exactly `dimBlock` bytes. `Data.memcpy` is the copy of
  `dimBlock` bytes out of a buffer of any length; it has no result when the buffer is
  shorter, which in the source reads past the buffer's end.
* **`BlockServer`** — owns its content and stores the ids of the clients that mapped it.
* **`BlockLocal`** — content at an address of the client's, and the valid flag.
-/

namespace DmBlock

/-- Size (bytes) of a block. -/
def dimBlock : Nat := 128

/-- The content of a block. -/
structure Data where
  bytes : List UInt8
  size_eq : bytes.length = dimBlock
  deriving DecidableEq

namespace Data

@[ext] theorem ext {d d' : Data} (h : d.bytes = d'.bytes) : d = d' := by
  cases d; cases d'; cases h; rfl

/-- `memset` of the whole content to one byte. -/
def memset (c : UInt8) : Data := ⟨List.replicate dimBlock c, List.length_replicate ..⟩

/-- `memcpy` of `dimBlock` bytes from a buffer; `none` when that reads past its end. -/
def memcpy (buffer : List UInt8) : Option Data :=
  if h : dimBlock ≤ buffer.length then
    some ⟨buffer.take dimBlock, by rw [List.length_take, Nat.min_eq_left h]⟩
  else none

/-- Copying a content's own bytes gives the content back. -/
@[simp] theorem memcpy_bytes (d : Data) : memcpy d.bytes = some d := by
  have h : dimBlock ≤ d.bytes.length := Nat.le_of_eq d.size_eq.symm
  rw [memcpy, dif_pos h]
  refine congrArg some (Data.ext ?_)
  show d.bytes.take dimBlock = d.bytes
  rw [← d.size_eq, List.take_length]

/-- The copy fails exactly on buffers that are too short. -/
theorem memcpy_eq_none_iff (buffer : List UInt8) :
    memcpy buffer = none ↔ buffer.length < dimBlock := by
  rw [memcpy]
  by_cases h : dimBlock ≤ buffer.length
  · rw [dif_pos h]
    exact ⟨fun hn => (Option.some_ne_none _ hn).elim, fun hlt => absurd h (Nat.not_le.mpr hlt)⟩
  · rw [dif_neg h]
    exact ⟨fun _ => Nat.not_le.mp h, fun _ => rfl⟩

/-- A buffer of exactly `dimBlock` bytes is copied whole. -/
theorem bytes_of_memcpy {buffer : List UInt8} {d : Data} (h : memcpy buffer = some d)
    (hlen : buffer.length = dimBlock) : d.bytes = buffer := by
  rw [memcpy, dif_pos (Nat.le_of_eq hlen.symm)] at h
  rw [← Option.some.inj h]
  show buffer.take dimBlock = buffer
  rw [← hlen, List.take_length]

end Data

/-! ## `Block` -/

/-- A block as the base class sees it; `data` is `none` for a null pointer. -/
structure Block where
  id : Int32
  revision : Int32
  data : Option Data
  deriving DecidableEq

/-! ## `BlockServer` -/

/-- Memory container for the server, with the ids of the clients mapping it. -/
structure BlockServer where
  id : Int32
  revision : Int32
  data : Data
  mappedClients : List String
  deriving DecidableEq

namespace BlockServer

/-- `BlockServer(int id)`: revision 0, zeroed content, nobody mapped. -/
def create (id : Int32) : BlockServer := ⟨id, 0, Data.memset 0, []⟩

/-- `BlockServer(const BlockServer&)`: the base class is built from the id alone, the
    content is copied. -/
def copy (b : BlockServer) : BlockServer := { create b.id with data := b.data }

/-- `operator=`: id, revision and content of `b`, the mapped clients stay. -/
def assign (this b : BlockServer) : BlockServer :=
  { this with id := b.id, revision := b.revision, data := b.data }

/-- `add_revision`; the counter is a 32-bit word and wraps. -/
def addRevision (b : BlockServer) : BlockServer := { b with revision := b.revision + 1 }

/-- `map`: store the client id, `-1` when it is stored already. -/
def map (b : BlockServer) (clientId : String) : Int × BlockServer :=
  if clientId ∈ b.mappedClients then (-1, b)
  else (0, { b with mappedClients := b.mappedClients ++ [clientId] })

/-- `unmap`: remove the client id, `-1` when it is not stored. -/
def unmap (b : BlockServer) (clientId : String) : Int × BlockServer :=
  if clientId ∈ b.mappedClients then
    (0, { b with mappedClients := b.mappedClients.erase clientId })
  else (-1, b)

/-- The block as the base class sees it. -/
def toBlock (b : BlockServer) : Block := ⟨b.id, b.revision, some b.data⟩

@[simp] theorem toBlock_id (b : BlockServer) : b.toBlock.id = b.id := rfl
@[simp] theorem toBlock_revision (b : BlockServer) : b.toBlock.revision = b.revision := rfl
@[simp] theorem toBlock_data (b : BlockServer) : b.toBlock.data = some b.data := rfl

@[simp] theorem assign_id (this b : BlockServer) : (this.assign b).id = b.id := rfl
@[simp] theorem assign_revision (this b : BlockServer) :
    (this.assign b).revision = b.revision := rfl
@[simp] theorem assign_data (this b : BlockServer) : (this.assign b).data = b.data := rfl
@[simp] theorem assign_mappedClients (this b : BlockServer) :
    (this.assign b).mappedClients = this.mappedClients := rfl

@[simp] theorem addRevision_id (b : BlockServer) : b.addRevision.id = b.id := rfl
@[simp] theorem addRevision_revision (b : BlockServer) :
    b.addRevision.revision = b.revision + 1 := rfl
@[simp] theorem addRevision_data (b : BlockServer) : b.addRevision.data = b.data := rfl
@[simp] theorem addRevision_mappedClients (b : BlockServer) :
    b.addRevision.mappedClients = b.mappedClients := rfl

end BlockServer

/-! ## `BlockLocal` -/

/-- Memory container for the client; `data` is the content of the memory the block points
    to. -/
structure BlockLocal where
  id : Int32
  revision : Int32
  data : Data
  valid : Bool
  deriving DecidableEq

namespace BlockLocal

/-- `BlockLocal(int id, void* address)`, with `address` the content of the memory there. -/
def create (id : Int32) (address : Data) : BlockLocal := ⟨id, 0, address, true⟩

/-- `operator=(const Block&)`: id, revision and content of `b`, the flag stays. -/
def assign (this : BlockLocal) (b : BlockServer) : BlockLocal :=
  { this with id := b.id, revision := b.revision, data := b.data }

/-- The valid setter. -/
def setValid (b : BlockLocal) (value : Bool) : BlockLocal := { b with valid := value }

/-- `add_revision`. -/
def addRevision (b : BlockLocal) : BlockLocal := { b with revision := b.revision + 1 }

/-- The block as the base class sees it. -/
def toBlock (b : BlockLocal) : Block := ⟨b.id, b.revision, some b.data⟩

@[simp] theorem toBlock_id (b : BlockLocal) : b.toBlock.id = b.id := rfl
@[simp] theorem toBlock_revision (b : BlockLocal) : b.toBlock.revision = b.revision := rfl
@[simp] theorem toBlock_data (b : BlockLocal) : b.toBlock.data = some b.data := rfl

end BlockLocal

end DmBlock
