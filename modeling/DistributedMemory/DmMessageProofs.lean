import DistributedMemory.DmBlockProofs

/-!
# Messages — what client and server say to each other

A message is a YAML document with a `type` and, optionally, a `block`. The library that
reads and writes the text is not part of the repository, so the model splits at its
boundary:

* **`Node`** — what the conversions of the library find in a document: the converted
  value, no key, or a value they throw on. `emit` and `emitBlock` build the document the
  emitter is given.
* **`YamlCpp`** — the two functions of the library between documents and text.
* **`Message`** — the parsed document and the lazily decoded, cached block.
  `Message.block` returns a reference that is null when there is no block to decode;
  **`Message.deref`** is the use of that reference, which faults on null.
-/

namespace DmMessage

open DmBlock

/-- Type of messages for the server-client communication protocol. -/
inductive MessageType where
  | map | unmap | update | write | wait | ack | nack | undef
  deriving DecidableEq, Repr

/-- The five requests a client makes. -/
def MessageType.isRequest : MessageType → Bool
  | .map | .unmap | .update | .write | .wait => true
  | _ => false

/-- `string_to_type`, as `maps_initializer` fills it. -/
def stringToType : List (String × MessageType) :=
  [("MAP", .map), ("UNMAP", .unmap), ("UPDATE", .update), ("WRITE", .write),
   ("WAIT", .wait), ("ACK", .ack), ("NACK", .nack), ("UNDEF", .undef)]

/-- `type_to_string`, as `maps_initializer` fills it. -/
def typeToString : MessageType → String
  | .map => "MAP"
  | .unmap => "UNMAP"
  | .update => "UPDATE"
  | .write => "WRITE"
  | .wait => "WAIT"
  | .ack => "ACK"
  | .nack => "NACK"
  | .undef => "UNDEF"

/-- The lookup in `string_to_type`; a string it does not hold reads as `UNDEF`. -/
def typeOfString (s : String) : MessageType := (stringToType.lookup s).getD .undef

@[simp] theorem typeOfString_typeToString (t : MessageType) :
    typeOfString (typeToString t) = t := by
  cases t <;> rfl

/-! ## Documents -/

/-- What a conversion finds at an optional key. -/
inductive Field (α : Type) where
  | absent
  | illTyped
  | value (a : α)
  deriving DecidableEq

/-- `node["block"]`, once `node["block"]["id"]` converts to an `int`. -/
structure BlockNode where
  id : Int32
  revision : Field Int32
  data : Field (List UInt8)
  deriving DecidableEq

/-- A document: `none` where the conversion of `node["type"]`, or of
    `node["block"]["id"]`, throws. -/
structure Node where
  type : Option String
  block : Option BlockNode
  deriving DecidableEq

/-- The node before anything was parsed. -/
def Node.null : Node := ⟨none, none⟩

/-- `emit(MessageType)`. -/
def emit (type : MessageType) : Node := ⟨some (typeToString type), none⟩

/-- `emit(MessageType, const Block&, bool)`: the data key is left out of a shallow block
    and of one that points to no memory. -/
def emitBlock (type : MessageType) (block : Block) (shallow : Bool) : Node :=
  ⟨some (typeToString type),
   some
    { id := block.id
      revision := .value block.revision
      data :=
        match shallow, block.data with
        | false, some d => .value d.bytes
        | _, _ => .absent }⟩

/-- What `GetNextDocument` does: yield a document, find none and leave the node alone, or
    throw, leaving some node behind. -/
inductive Read where
  | document (node : Node)
  | nothing
  | throws (left : Node)

/-- The two functions of the YAML library that messages go through. -/
structure YamlCpp where
  getNextDocument : Node → String → Read
  emitter : Node → String

/-- Token to mark end of message. -/
def STOP : String := "\r\n\r\n"

/-! ## `Message` -/

/-- What stops a process: a null reference used, or a copy past a buffer's end. -/
inductive Fault where
  | nullReference
  | outOfBounds
  deriving DecidableEq, Repr

/-- A parsed document and the cached block `m_block`. -/
structure Message where
  node : Node
  mBlock : Option BlockServer
  deriving DecidableEq

namespace Message

/-- A message just parsed from the document `n`. -/
def ofNode (n : Node) : Message := ⟨n, none⟩

/-- `parse`: the cached block is dropped after the library returns, so an exception keeps
    it. -/
def parse (yaml : YamlCpp) (m : Message) (message : String) : Message :=
  match yaml.getNextDocument m.node message with
  | .document n => ⟨n, none⟩
  | .nothing => ⟨m.node, none⟩
  | .throws n => ⟨n, m.mBlock⟩

/-- `Message(string message)`. -/
def create (yaml : YamlCpp) (message : String) : Message :=
  if message.isEmpty then ofNode Node.null else parse yaml (ofNode Node.null) message

/-- `type()`. -/
def type (m : Message) : MessageType :=
  match m.node.type with
  | none => .undef
  | some s => typeOfString s

/-- The optional data key: the conversion may throw, the copy takes `dimBlock` bytes from
    what was decoded. -/
def readData (b : BlockServer) : Field (List UInt8) → Except Fault BlockServer
  | .absent => .ok b
  | .illTyped => .ok b
  | .value bytes =>
      match Data.memcpy bytes with
      | some d => .ok { b with data := d }
      | none => .error .outOfBounds

/-- The new block `block()` fills field by field; an exception at the revision skips the
    data and keeps the block as it is. -/
def readBlock (n : BlockNode) : Except Fault BlockServer :=
  match n.revision with
  | .illTyped => .ok (BlockServer.create n.id)
  | .absent => readData (BlockServer.create n.id) n.data
  | .value r => readData { BlockServer.create n.id with revision := r } n.data

/-- `block()`: the cached block, or a freshly decoded one, or a null reference. -/
def block (m : Message) : Except Fault (Option BlockServer × Message) :=
  match m.mBlock with
  | some b => .ok (some b, m)
  | none =>
      match m.node.block with
      | none => .ok (none, m)
      | some n =>
          match readBlock n with
          | .error f => .error f
          | .ok b => .ok (some b, { m with mBlock := some b })

/-- A member call on the reference `block()` returns. -/
def deref (m : Message) : Except Fault (BlockServer × Message) :=
  match m.block with
  | .error f => .error f
  | .ok (none, _) => .error .nullReference
  | .ok (some b, m') => .ok (b, m')

@[simp] theorem node_ofNode (n : Node) : (ofNode n).node = n := rfl
@[simp] theorem type_emit (t : MessageType) : (ofNode (emit t)).type = t := by
  simp [type, emit]
@[simp] theorem type_emitBlock (t : MessageType) (b : Block) (shallow : Bool) :
    (ofNode (emitBlock t b shallow)).type = t := by
  simp [type, emitBlock]

/-- The type depends on the document alone. -/
theorem type_congr {m m' : Message} (h : m.node = m'.node) : m.type = m'.type := by
  rw [type, type, h]

/-- Once a block is cached, every call returns it. -/
theorem deref_of_cached {m : Message} {b : BlockServer} (h : m.mBlock = some b) :
    m.deref = .ok (b, m) := by
  rw [deref, block, h]

/-- A successful `block()` caches the block it returns and leaves the document alone. -/
theorem deref_caches {m m' : Message} {b : BlockServer} (h : m.deref = .ok (b, m')) :
    m'.node = m.node ∧ m'.mBlock = some b := by
  cases hc : m.mBlock with
  | some b₀ =>
      rw [deref_of_cached hc] at h
      obtain ⟨rfl, rfl⟩ : b₀ = b ∧ m = m' := by simpa using h
      exact ⟨rfl, hc⟩
  | none =>
      cases hn : m.node.block with
      | none => simp [deref, block, hc, hn] at h
      | some n =>
          cases hr : readBlock n with
          | error f => simp [deref, block, hc, hn, hr] at h
          | ok b₀ =>
              simp only [deref, block, hc, hn, hr, Except.ok.injEq, Prod.mk.injEq] at h
              obtain ⟨rfl, rfl⟩ := h
              exact ⟨rfl, rfl⟩

/-- Asking again gives the same block. -/
theorem deref_again {m m' : Message} {b : BlockServer} (h : m.deref = .ok (b, m')) :
    m'.deref = .ok (b, m') :=
  deref_of_cached (deref_caches h).2

/-- A message that was not asked for its block yet faults on null exactly when its
    document has no block. -/
theorem deref_ofNode (n : Node) :
    (ofNode n).deref =
      match n.block with
      | none => .error .nullReference
      | some bn =>
          match readBlock bn with
          | .error f => .error f
          | .ok b => .ok (b, ⟨n, some b⟩) := by
  cases hn : n.block with
  | none => simp [deref, block, ofNode, hn]
  | some bn =>
      cases hr : readBlock bn with
      | error f => simp [deref, block, ofNode, hn, hr]
      | ok b => simp [deref, block, ofNode, hn, hr]

/-! ## Decoding undoes emitting -/

/-- What the receiver of an emitted block decodes: zeroed content where none was sent. -/
def decoded (b : Block) (shallow : Bool) : BlockServer :=
  { BlockServer.create b.id with
    revision := b.revision
    data := if shallow then Data.memset 0 else b.data.getD (Data.memset 0) }

@[simp] theorem decoded_id (b : Block) (shallow : Bool) : (decoded b shallow).id = b.id := rfl
@[simp] theorem decoded_revision (b : Block) (shallow : Bool) :
    (decoded b shallow).revision = b.revision := rfl

/-- **The block of an emitted message is the block that was emitted**, up to content that
    was not sent. -/
theorem deref_emitBlock (t : MessageType) (b : Block) (shallow : Bool) :
    (ofNode (emitBlock t b shallow)).deref
      = .ok (decoded b shallow, ⟨emitBlock t b shallow, some (decoded b shallow)⟩) := by
  obtain ⟨id, rev, data⟩ := b
  rw [deref_ofNode]
  cases shallow with
  | true => rfl
  | false =>
      cases data with
      | none => rfl
      | some d => simp [emitBlock, readBlock, readData, decoded]

/-- A message of the first form has no block to use. -/
theorem deref_emit (t : MessageType) : (ofNode (emit t)).deref = .error .nullReference := by
  rw [deref_ofNode]
  rfl

/-- Every string makes a message that was not asked for its block yet. -/
theorem create_eq (yaml : YamlCpp) (message : String) :
    ∃ n, create yaml message = ofNode n := by
  rw [create]
  split
  · exact ⟨_, rfl⟩
  · rw [parse]
    split
    · exact ⟨_, rfl⟩
    · exact ⟨_, rfl⟩
    · exact ⟨_, rfl⟩

end Message

/-! ## Blocks that decode -/

namespace BlockNode

/-- The block decodes completely: the revision, if there is one, converts, and the data, if
    there are any, convert and fill a block. -/
def decodable (n : BlockNode) : Bool :=
  n.revision ≠ .illTyped &&
    match n.data with
    | .absent => true
    | .illTyped => false
    | .value bytes => dimBlock ≤ bytes.length

/-- No data that are too short get copied: an exception at the revision comes first. -/
def copies (n : BlockNode) : Bool :=
  n.revision = .illTyped ||
    match n.data with
    | .value bytes => dimBlock ≤ bytes.length
    | _ => true

/-- The revision the decoded block has. -/
def readRevision (n : BlockNode) : Int32 :=
  match n.revision with
  | .value r => r
  | _ => 0

/-- What decodes completely is copied within bounds. -/
theorem copies_of_decodable {n : BlockNode} (h : n.decodable = true) : n.copies = true := by
  rw [decodable, Bool.and_eq_true] at h
  rw [copies, Bool.or_eq_true]
  refine Or.inr ?_
  have hdata := h.2
  cases hd : n.data with
  | absent => rfl
  | illTyped => rfl
  | value bytes =>
      rw [hd] at hdata
      exact hdata

/-- Copying data changes neither id nor revision. -/
theorem readData_cases (b : BlockServer) (f : Field (List UInt8)) :
    (∃ b', Message.readData b f = .ok b' ∧ b'.id = b.id ∧ b'.revision = b.revision ∧
        ∀ bytes, f = .value bytes → dimBlock ≤ bytes.length) ∨
      (Message.readData b f = .error .outOfBounds ∧
        ∃ bytes, f = .value bytes ∧ bytes.length < dimBlock) := by
  cases f with
  | absent => exact Or.inl ⟨b, rfl, rfl, rfl, nofun⟩
  | illTyped => exact Or.inl ⟨b, rfl, rfl, rfl, nofun⟩
  | value bytes =>
      cases hc : Data.memcpy bytes with
      | none =>
          refine Or.inr ⟨?_, bytes, rfl, (Data.memcpy_eq_none_iff bytes).mp hc⟩
          rw [Message.readData, hc]
      | some d =>
          refine Or.inl ⟨{ b with data := d }, ?_, rfl, rfl, ?_⟩
          · rw [Message.readData, hc]
          · rintro bytes' heq
            obtain rfl := Field.value.inj heq
            refine Nat.not_lt.mp fun hlt => ?_
            rw [(Data.memcpy_eq_none_iff bytes).mpr hlt] at hc
            exact nomatch hc

/-- **What `block()` decodes** of a block with an id: a block with that id and its
    revision, unless it copies past the end of the data. -/
theorem readBlock_cases (n : BlockNode) :
    (n.copies = true ∧ ∃ b, Message.readBlock n = .ok b ∧ b.id = n.id ∧
        b.revision = n.readRevision) ∨
      (n.copies = false ∧ Message.readBlock n = .error .outOfBounds) := by
  have hread : ∀ b : BlockServer, b.id = n.id → b.revision = n.readRevision →
      n.revision ≠ .illTyped →
      (n.copies = true ∧ ∃ b', Message.readData b n.data = .ok b' ∧ b'.id = n.id ∧
          b'.revision = n.readRevision) ∨
        (n.copies = false ∧ Message.readData b n.data = .error .outOfBounds) := by
    intro b hid hrev hconv
    rcases readData_cases b n.data with ⟨b', hb', hid', hrev', hlong⟩ | ⟨herr, bytes, hd, hlt⟩
    · refine Or.inl ⟨?_, b', hb', hid'.trans hid, hrev'.trans hrev⟩
      rw [copies, Bool.or_eq_true]
      refine Or.inr ?_
      cases hd : n.data with
      | absent => rfl
      | illTyped => rfl
      | value bytes => exact decide_eq_true (hlong bytes hd)
    · refine Or.inr ⟨?_, herr⟩
      rw [copies, hd, decide_eq_false hconv, Bool.false_or]
      exact decide_eq_false (Nat.not_le.mpr hlt)
  cases hr : n.revision with
  | illTyped =>
      refine Or.inl ⟨by rw [copies, hr]; rfl, BlockServer.create n.id, ?_, rfl, ?_⟩
      · rw [Message.readBlock, hr]
      · rw [readRevision, hr]
        rfl
  | absent =>
      rw [Message.readBlock, hr]
      exact hread _ rfl (by rw [readRevision, hr]; rfl) (by rw [hr]; nofun)
  | value r =>
      rw [Message.readBlock, hr]
      exact hread _ rfl (by rw [readRevision, hr]) (by rw [hr]; nofun)

end BlockNode

/-- The block of a message that was just made is read off its document. -/
theorem Message.block_of_deref {n : Node} {b : BlockServer} {m : Message}
    (h : (ofNode n).deref = .ok (b, m)) :
    ∃ bn, n.block = some bn ∧ readBlock bn = .ok b ∧ b.id = bn.id ∧
      b.revision = bn.readRevision := by
  rw [deref_ofNode] at h
  cases hn : n.block with
  | none =>
      rw [hn] at h
      exact nomatch h
  | some bn =>
      simp only [hn] at h
      rcases bn.readBlock_cases with ⟨-, b', hb', hid, hrev⟩ | ⟨-, herr⟩
      · simp only [hb'] at h
        obtain ⟨rfl, -⟩ := Prod.mk.inj (Except.ok.inj h)
        exact ⟨bn, rfl, hb', hid, hrev⟩
      · simp only [herr] at h
        exact nomatch h

/-- The message has a block that decodes completely. -/
def Message.decodable (m : Message) : Bool :=
  match m.node.block with
  | none => false
  | some n => n.decodable

/-- Emitted blocks decode. -/
theorem Message.decodable_emitBlock (t : MessageType) (b : Block) (shallow : Bool) :
    (ofNode (emitBlock t b shallow)).decodable = true := by
  obtain ⟨id, rev, data⟩ := b
  have hlen : ∀ d : Data, decide (dimBlock ≤ d.bytes.length) = true :=
    fun d => decide_eq_true (Nat.le_of_eq d.size_eq.symm)
  cases shallow <;> cases data <;>
    simp [Message.decodable, BlockNode.decodable, emitBlock, ofNode, hlen]

/-! ## The content a message carries -/

/-- The content a message carries. -/
def carried (n : Node) : Option Data :=
  match n.block with
  | some ⟨_, _, .value bytes⟩ => Data.memcpy bytes
  | _ => none

@[simp] theorem carried_emitBlock (t : MessageType) (b : Block) (shallow : Bool) :
    carried (emitBlock t b shallow) = if shallow then none else b.data := by
  obtain ⟨id, rev, data⟩ := b
  cases shallow with
  | true => simp [carried, emitBlock]
  | false =>
      cases data with
      | none => simp [carried, emitBlock]
      | some d => simp [carried, emitBlock]

/-- **A block that decodes has the content its message carries**, zeros if that is none. -/
theorem data_of_deref {n : Node} {b : BlockServer} {m : Message}
    (hdec : (Message.ofNode n).decodable = true) (h : (Message.ofNode n).deref = .ok (b, m)) :
    b.data = (carried n).getD (Data.memset 0) ∧
      (carried n = none → ∃ bn, n.block = some bn ∧ bn.data = .absent) := by
  obtain ⟨⟨id, rev, data⟩, hbn, hread, -, -⟩ := Message.block_of_deref h
  rw [Message.decodable, show (Message.ofNode n).node.block = _ from hbn] at hdec
  simp only [BlockNode.decodable, Bool.and_eq_true, decide_eq_true_eq] at hdec
  have hdata : ∃ b₀ : BlockServer, b₀.data = Data.memset 0 ∧ Message.readData b₀ data = .ok b := by
    cases rev with
    | illTyped => exact absurd rfl hdec.1
    | absent => exact ⟨BlockServer.create id, rfl, hread⟩
    | value r => exact ⟨{ BlockServer.create id with revision := r }, rfl, hread⟩
  obtain ⟨b₀, hzero, hb⟩ := hdata
  cases data with
  | illTyped => exact nomatch hdec.2
  | absent =>
      have hnone : carried n = none := by rw [carried, hbn]
      refine ⟨?_, fun _ => ⟨_, hbn, rfl⟩⟩
      rw [hnone, ← Except.ok.inj hb]
      exact hzero
  | value bytes =>
      have hsome : carried n = Data.memcpy bytes := by rw [carried, hbn]
      rw [Message.readData] at hb
      cases hc : Data.memcpy bytes with
      | none =>
          rw [hc] at hb
          exact nomatch hb
      | some d =>
          rw [hc] at hb
          refine ⟨?_, fun hnone => ?_⟩
          · rw [hsome, hc, ← Except.ok.inj hb]
            rfl
          · rw [hsome, hc] at hnone
            exact nomatch hnone

end DmMessage
