import DistributedMemory.CellMemoryProofs
import DistributedMemory.DmClientProofs
import DistributedMemory.WrapCounterProofs

/-!
# Blocks at addresses — the client library over the memory of its process

A `BlockLocal` allocates nothing: its `m_data` is the pointer that was handed to
`dm_block_map`. Here the library runs on a process with a memory, where `DmClient` keeps the
content of a block in the block:

* **`Process`** — the client object with the memory around it; `send` and `receive` are
  those of `DmClient`, with `memcpy` reading from and writing to that memory.
* **`view`** — the client of `DmClient` that a process is, each block with the bytes at its
  address.
* **`send_view`**, **`receive_view`** — while the regions of the mapped blocks are apart,
  what the library does to the process it does to the view.
* **`receive_view_iff`** — and only then.
* **`receive_cases`** — the memory changes nowhere but in the region of the block, and there
  only in a map or an update that returns 0.
-/

namespace DmAddress

open DmBlock DmConfig DmMessage DmClient CellMemory

/-- The content of a block at an address. -/
def content (m : Nat → UInt8) (a : Nat) : Data := ⟨load m a dimBlock, length_load ..⟩

theorem content_eq_iff {m m' : Nat → UInt8} {a : Nat} :
    content m a = content m' a ↔ ∀ x, Within a dimBlock x → m x = m' x := by
  rw [← load_eq_iff]
  exact ⟨congrArg Data.bytes, fun h => Data.ext h⟩

/-- A block that was copied to an address is there. -/
theorem content_store (m : Nat → UInt8) (a : Nat) (d : Data) :
    content (store m a d.bytes) a = d := Data.ext (load_store d.size_eq)

theorem content_store_apart {m : Nat → UInt8} {a b : Nat} (d : Data) (h : Apart dimBlock a b) :
    content (store m a d.bytes) b = content m b := Data.ext (load_store_apart d.size_eq h)

/-- A `BlockLocal` as it stands in the table: `address` is `m_data`, 0 the null pointer. -/
structure BlockAt where
  id : Int32
  revision : Int32
  address : Nat
  valid : Bool
  deriving DecidableEq

namespace BlockAt

/-- `BlockLocal(int id, void* address)`. -/
def create (id : Int32) (address : Nat) : BlockAt := ⟨id, 0, address, true⟩

def setValid (b : BlockAt) (value : Bool) : BlockAt := { b with valid := value }

def addRevision (b : BlockAt) : BlockAt := { b with revision := b.revision + 1 }

/-- The block as the base class sees it. -/
def toBlock (b : BlockAt) (m : Nat → UInt8) : Block :=
  ⟨b.id, b.revision, if b.address = 0 then none else some (content m b.address)⟩

/-- The block with the bytes at its address. -/
def view (m : Nat → UInt8) (b : BlockAt) : BlockLocal :=
  ⟨b.id, b.revision, content m b.address, b.valid⟩

/-- A request that leaves the content out is the same for any content. -/
theorem emitBlock_shallow (type : MessageType) (b : BlockAt) (m : Nat → UInt8) :
    emitBlock type (b.toBlock m) true = emitBlock type (b.view m).toBlock true := rfl

theorem toBlock_view {b : BlockAt} (m : Nat → UInt8) (h : b.address ≠ 0) :
    b.toBlock m = (b.view m).toBlock := by
  rw [toBlock, if_neg h]
  rfl

end BlockAt

/-- A call of the library, with the address handed to map. -/
inductive CallAt where
  | map (id : Int32) (address : Nat)
  | unmap (id : Int32)
  | update (id : Int32)
  | write (id : Int32)
  | wait (id : Int32)
  deriving DecidableEq

namespace CallAt

def id : CallAt → Int32
  | .map id _ | .unmap id | .update id | .write id | .wait id => id

/-- The calls that copy a block into memory. -/
def fills : CallAt → Bool
  | .map _ _ | .update _ => true
  | _ => false

/-- The call with the bytes at its address. -/
def view (m : Nat → UInt8) : CallAt → Call
  | .map id address => .map id (content m address)
  | .unmap id => .unmap id
  | .update id => .update id
  | .write id => .write id
  | .wait id => .wait id

@[simp] theorem view_id (m : Nat → UInt8) (call : CallAt) : (call.view m).id = call.id := by
  cases call <;> rfl

end CallAt

/-- The client object in the memory of its process. -/
structure Process where
  config : Config
  sockets : String → Option SocketClient
  blocks : Int32 → Option BlockAt
  memory : Nat → UInt8

/-- What the first half of a call comes to. -/
inductive SendingAt where
  | returned (code : Int) (p : Process)
  | sent (serverId : String) (req : Node) (p : Process)

namespace Process

/-- `blocks[id]`, set or erased. -/
def setBlock (p : Process) (id : Int32) (b : Option BlockAt) : Process :=
  { p with blocks := Function.update p.blocks id b }

/-! ## Up to the exchange -/

/-- The opening of every call but map. -/
def openMapped (p : Process) (id : Int32) (k : String → BlockAt → SendingAt) :
    Except Fault SendingAt :=
  let serverId := p.config.findServerIdByBlockId id
  if serverId.isEmpty then .ok (.returned (-1) p)
  else
    match p.blocks id with
    | none => .ok (.returned (-2) p)
    | some block =>
        match p.sockets serverId with
        | none => .error .nullReference
        | some sock =>
            if sock.isValid then .ok (k serverId block) else .ok (.returned (-3) p)

/-- `dm_block_map`. -/
def dmBlockMapSend (p : Process) (id : Int32) (address : Nat) : Except Fault SendingAt :=
  let serverId := p.config.findServerIdByBlockId id
  if serverId.isEmpty then .ok (.returned (-1) p)
  else if (p.blocks id).isSome then .ok (.returned (-2) p)
  else
    match p.sockets serverId with
    | none => .error .nullReference
    | some sock =>
        if sock.isValid then
          let block := BlockAt.create id address
          .ok (.sent serverId (emitBlock .map (block.toBlock p.memory) true)
            (p.setBlock id (some block)))
        else .ok (.returned (-3) p)

/-- `dm_block_unmap`. -/
def dmBlockUnmapSend (p : Process) (id : Int32) : Except Fault SendingAt :=
  p.openMapped id fun serverId block =>
    .sent serverId (emitBlock .unmap (block.toBlock p.memory) true) p

/-- `dm_block_update`. -/
def dmBlockUpdateSend (p : Process) (id : Int32) : Except Fault SendingAt :=
  p.openMapped id fun serverId block =>
    .sent serverId (emitBlock .update (block.toBlock p.memory) true) p

/-- `dm_block_write`: the bytes at the address go into the request. -/
def dmBlockWriteSend (p : Process) (id : Int32) : Except Fault SendingAt :=
  p.openMapped id fun serverId block =>
    if !block.valid then .returned (-5) p
    else .sent serverId (emitBlock .write (block.toBlock p.memory) false) p

/-- `dm_block_wait`. -/
def dmBlockWaitSend (p : Process) (id : Int32) : Except Fault SendingAt :=
  p.openMapped id fun serverId block =>
    if !block.valid then .returned 0 p
    else .sent serverId (emitBlock .wait (block.toBlock p.memory) true) p

def send (p : Process) : CallAt → Except Fault SendingAt
  | .map id address => p.dmBlockMapSend id address
  | .unmap id => p.dmBlockUnmapSend id
  | .update id => p.dmBlockUpdateSend id
  | .write id => p.dmBlockWriteSend id
  | .wait id => p.dmBlockWaitSend id

/-! ## From the exchange on -/

/-- The closing every call shares. -/
def close (p : Process) (reply : Option Node) (onNack : Process)
    (onAck : Message → Except Fault Process) : Except Fault (Int × Process) :=
  match reply with
  | none => .ok (-4, p)
  | some n =>
      let ack := Message.ofNode n
      if ack.type = .nack then .ok (-5, onNack)
      else
        match onAck ack with
        | .error f => .error f
        | .ok p' => .ok (0, p')

/-- `blocks[id] = b`: id and revision are those of `b`, and its content is copied to where the
    block points; the flag is set as `valid` says. -/
def assign (p : Process) (id : Int32) (block : BlockAt) (b : BlockServer) (valid : Bool) :
    Except Fault Process :=
  if block.address = 0 then .error .nullReference
  else
    .ok { p.setBlock id (some ⟨b.id, b.revision, block.address, valid⟩) with
      memory := store p.memory block.address b.data.bytes }

/-- `dm_block_map`. -/
def dmBlockMapReceive (p : Process) (id : Int32) (reply : Option Node) :
    Except Fault (Int × Process) :=
  p.close reply p fun ack =>
    match ack.deref with
    | .error f => .error f
    | .ok (b, _) =>
        match p.blocks id with
        | none => .error .nullReference
        | some block => p.assign id block b block.valid

/-- `dm_block_unmap`. -/
def dmBlockUnmapReceive (p : Process) (id : Int32) (reply : Option Node) :
    Except Fault (Int × Process) :=
  p.close reply p fun _ => .ok (p.setBlock id none)

/-- `dm_block_update`. -/
def dmBlockUpdateReceive (p : Process) (id : Int32) (reply : Option Node) :
    Except Fault (Int × Process) :=
  p.close reply p fun ack =>
    match p.blocks id with
    | none => .error .nullReference
    | some block =>
        match ack.deref with
        | .error f => .error f
        | .ok (b, _) =>
            if block.revision ≠ b.revision then p.assign id block b true else .ok p

/-- `dm_block_write`. -/
def dmBlockWriteReceive (p : Process) (id : Int32) (reply : Option Node) :
    Except Fault (Int × Process) :=
  match p.blocks id with
  | none => .error .nullReference
  | some block =>
      p.close reply (p.setBlock id (some (block.setValid false))) fun _ =>
        .ok (p.setBlock id (some block.addRevision))

/-- `dm_block_wait`. -/
def dmBlockWaitReceive (p : Process) (id : Int32) (reply : Option Node) :
    Except Fault (Int × Process) :=
  match p.blocks id with
  | none => .error .nullReference
  | some block =>
      p.close reply p fun _ => .ok (p.setBlock id (some (block.setValid false)))

def receive (p : Process) (call : CallAt) (reply : Option Node) :
    Except Fault (Int × Process) :=
  match call with
  | .map id _ => p.dmBlockMapReceive id reply
  | .unmap id => p.dmBlockUnmapReceive id reply
  | .update id => p.dmBlockUpdateReceive id reply
  | .write id => p.dmBlockWriteReceive id reply
  | .wait id => p.dmBlockWaitReceive id reply

/-- The program changes a byte of its memory. -/
def poke (p : Process) (x : Nat) (v : UInt8) : Process :=
  { p with memory := Function.update p.memory x v }

/-! ## The client a process is -/

/-- Every block with the bytes at its address. -/
def view (p : Process) : Client :=
  ⟨p.config, p.sockets, fun k => (p.blocks k).map (BlockAt.view p.memory)⟩

/-- The regions of the table: none at the null pointer, and no two with a byte in common. -/
structure Placed (p : Process) : Prop where
  nonnull : ∀ k e, p.blocks k = some e → e.address ≠ 0
  apart : ∀ k k' e e', k ≠ k' → p.blocks k = some e → p.blocks k' = some e' →
    Apart dimBlock e.address e'.address

end Process

def SendingAt.view : SendingAt → Sending
  | .returned code p => .returned code p.view
  | .sent serverId req p => .sent serverId req p.view

namespace Process

theorem view_blocks (p : Process) (k : Int32) :
    p.view.blocks k = (p.blocks k).map (BlockAt.view p.memory) := rfl

theorem view_setBlock (p : Process) (id : Int32) (b : Option BlockAt) :
    (p.setBlock id b).view = p.view.setBlock id (b.map (BlockAt.view p.memory)) := by
  refine congrArg (Client.mk _ _) (funext fun k => ?_)
  exact Function.apply_update (fun _ => Option.map (BlockAt.view p.memory)) p.blocks id b k

theorem openMapped_view (p : Process) (id : Int32) {k : String → BlockAt → SendingAt}
    {k' : String → BlockLocal → Sending}
    (h : ∀ serverId block, p.blocks id = some block →
      k' serverId (block.view p.memory) = (k serverId block).view) :
    p.view.openMapped id k' = (p.openMapped id k).map SendingAt.view := by
  simp only [Client.openMapped, openMapped, view_blocks]
  show (if (p.config.findServerIdByBlockId id).isEmpty = true then _ else _) = _
  split
  · rfl
  · cases hb : p.blocks id with
    | none => rfl
    | some block =>
        simp only [Option.map_some]
        show (match p.sockets (p.config.findServerIdByBlockId id) with
          | none => _
          | some sock => _) = _
        cases p.sockets (p.config.findServerIdByBlockId id) with
        | none => rfl
        | some sock =>
            simp only
            split
            · rw [h _ block hb]
              rfl
            · rfl

/-- **A call starts as it does on the view.** Only a write looks at the bytes, and the
    address it takes them from is not null. -/
theorem send_view (p : Process) (call : CallAt)
    (h : ∀ k e, p.blocks k = some e → e.address ≠ 0) :
    p.view.send (call.view p.memory) = (p.send call).map SendingAt.view := by
  cases call with
  | map id address =>
      simp only [CallAt.view, Client.send, Client.dmBlockMapSend, send, dmBlockMapSend,
        view_blocks, Option.isSome_map]
      show (if (p.config.findServerIdByBlockId id).isEmpty = true then _ else _) = _
      split
      · rfl
      · split
        · rfl
        · show (match p.sockets (p.config.findServerIdByBlockId id) with
            | none => _
            | some sock => _) = _
          cases p.sockets (p.config.findServerIdByBlockId id) with
          | none => rfl
          | some sock =>
              simp only
              split
              · refine congrArg Except.ok ?_
                show Sending.sent _ _ _ = Sending.sent _ _ (p.setBlock id _).view
                rw [view_setBlock, BlockAt.emitBlock_shallow]
                rfl
              · rfl
  | unmap id =>
      rw [CallAt.view, Client.send, Client.dmBlockUnmapSend, send, dmBlockUnmapSend]
      refine p.openMapped_view id fun serverId block _ => ?_
      rw [SendingAt.view, BlockAt.emitBlock_shallow]
  | update id =>
      rw [CallAt.view, Client.send, Client.dmBlockUpdateSend, send, dmBlockUpdateSend]
      refine p.openMapped_view id fun serverId block _ => ?_
      rw [SendingAt.view, BlockAt.emitBlock_shallow]
  | write id =>
      rw [CallAt.view, Client.send, Client.dmBlockWriteSend, send, dmBlockWriteSend]
      refine p.openMapped_view id fun serverId block hb => ?_
      rw [block.toBlock_view p.memory (h id block hb)]
      cases hvalid : block.valid with
      | true => simp [BlockAt.view, SendingAt.view, hvalid]
      | false => simp [BlockAt.view, SendingAt.view, hvalid]
  | wait id =>
      rw [CallAt.view, Client.send, Client.dmBlockWaitSend, send, dmBlockWaitSend]
      refine p.openMapped_view id fun serverId block _ => ?_
      rw [BlockAt.emitBlock_shallow]
      cases hvalid : block.valid with
      | true => simp [BlockAt.view, SendingAt.view, hvalid]
      | false => simp [BlockAt.view, SendingAt.view, hvalid]

/-! ## What a reply does to the process -/

/-- **What a call leaves**: the process as it was, another entry at the same address, no
    entry, or a block copied to where its entry points. -/
inductive Received (p : Process) (call : CallAt) : Int → Process → Prop where
  | kept (code : Int) : Received p call code p
  | marked {e e' : BlockAt} (code : Int) (he : p.blocks call.id = some e)
      (haddr : e'.address = e.address) : Received p call code (p.setBlock call.id (some e'))
  | erased (hcall : call = .unmap call.id) : Received p call 0 (p.setBlock call.id none)
  | filled {e e' : BlockAt} (d : Data) (hfills : call.fills = true)
      (he : p.blocks call.id = some e) (hnull : e.address ≠ 0) (haddr : e'.address = e.address) :
      Received p call 0
        { p.setBlock call.id (some e') with memory := store p.memory e.address d.bytes }

theorem close_inv {p p' onNack : Process} {reply : Option Node} {code : Int}
    {onAck : Message → Except Fault Process}
    (h : p.close reply onNack onAck = .ok (code, p')) :
    p' = p ∨ p' = onNack ∨ (code = 0 ∧ ∃ ack, onAck ack = .ok p') := by
  cases reply with
  | none =>
      obtain ⟨-, rfl⟩ := Prod.mk.inj (Except.ok.inj h)
      exact Or.inl rfl
  | some n =>
      simp only [close] at h
      split at h
      · obtain ⟨-, rfl⟩ := Prod.mk.inj (Except.ok.inj h)
        exact Or.inr (Or.inl rfl)
      · split at h
        · cases h
        · rename_i hack
          obtain ⟨rfl, rfl⟩ := Prod.mk.inj (Except.ok.inj h)
          exact Or.inr (Or.inr ⟨rfl, _, hack⟩)

theorem assign_inv {p p' : Process} {id : Int32} {e : BlockAt} {b : BlockServer} {valid : Bool}
    (h : p.assign id e b valid = .ok p') :
    e.address ≠ 0 ∧
      p' = { p.setBlock id (some ⟨b.id, b.revision, e.address, valid⟩) with
        memory := store p.memory e.address b.data.bytes } := by
  rw [assign] at h
  by_cases hnull : e.address = 0
  · rw [if_pos hnull] at h
    cases h
  · rw [if_neg hnull] at h
    exact ⟨hnull, (Except.ok.inj h).symm⟩

theorem receive_cases {p p' : Process} {call : CallAt} {reply : Option Node} {code : Int}
    (h : p.receive call reply = .ok (code, p')) : Received p call code p' := by
  cases call with
  | map id address =>
      rw [receive, dmBlockMapReceive] at h
      rcases close_inv h with rfl | rfl | ⟨rfl, ack, hack⟩
      · exact .kept code
      · exact .kept code
      · split at hack
        · cases hack
        · split at hack
          · cases hack
          · rename_i e he
            obtain ⟨hnull, rfl⟩ := assign_inv hack
            exact .filled _ rfl he hnull rfl
  | unmap id =>
      rw [receive, dmBlockUnmapReceive] at h
      rcases close_inv h with rfl | rfl | ⟨rfl, ack, hack⟩
      · exact .kept code
      · exact .kept code
      · obtain rfl := Except.ok.inj hack
        exact .erased rfl
  | update id =>
      rw [receive, dmBlockUpdateReceive] at h
      rcases close_inv h with rfl | rfl | ⟨rfl, ack, hack⟩
      · exact .kept code
      · exact .kept code
      · split at hack
        · cases hack
        · rename_i e he
          split at hack
          · cases hack
          · split at hack
            · obtain ⟨hnull, rfl⟩ := assign_inv hack
              exact .filled _ rfl he hnull rfl
            · obtain rfl := Except.ok.inj hack
              exact .kept 0
  | write id =>
      simp only [receive, dmBlockWriteReceive] at h
      split at h
      · cases h
      · rename_i e he
        rcases close_inv h with rfl | rfl | ⟨rfl, ack, hack⟩
        · exact .kept code
        · exact .marked code he rfl
        · obtain rfl := Except.ok.inj hack
          exact .marked 0 he rfl
  | wait id =>
      simp only [receive, dmBlockWaitReceive] at h
      split at h
      · cases h
      · rename_i e he
        rcases close_inv h with rfl | rfl | ⟨rfl, ack, hack⟩
        · exact .kept code
        · exact .kept code
        · obtain rfl := Except.ok.inj hack
          exact .marked 0 he rfl

/-- A call that read nothing leaves the process as it was. -/
theorem receive_none {p p' : Process} {call : CallAt} {code : Int}
    (h : p.receive call none = .ok (code, p')) : p' = p := by
  cases call with
  | map id address => exact (Prod.mk.inj (Except.ok.inj h)).2.symm
  | unmap id => exact (Prod.mk.inj (Except.ok.inj h)).2.symm
  | update id => exact (Prod.mk.inj (Except.ok.inj h)).2.symm
  | write id =>
      simp only [receive, dmBlockWriteReceive] at h
      split at h
      · cases h
      · exact (Prod.mk.inj (Except.ok.inj h)).2.symm
  | wait id =>
      simp only [receive, dmBlockWaitReceive] at h
      split at h
      · cases h
      · exact (Prod.mk.inj (Except.ok.inj h)).2.symm

/-- **What a call starts from**: it comes to an end with the process as it was, it asks about
    a block of the table, or it has entered the block it asks for. -/
inductive Sent (p : Process) (call : CallAt) : SendingAt → Prop where
  | returned (code : Int) : Sent p call (.returned code p)
  | asked {e : BlockAt} (serverId : String) (req : Node) (he : p.blocks call.id = some e)
      (hcall : ∀ id address, call ≠ .map id address) : Sent p call (.sent serverId req p)
  | entered {id : Int32} {address : Nat} (serverId : String) (req : Node)
      (hcall : call = .map id address) (hfree : p.blocks id = none) :
      Sent p call (.sent serverId req (p.setBlock id (some (.create id address))))

theorem openMapped_inv {p : Process} {id : Int32} {k : String → BlockAt → SendingAt}
    {out : SendingAt} (h : p.openMapped id k = .ok out) :
    (∃ code, out = .returned code p) ∨
      ∃ serverId e, p.blocks id = some e ∧ out = k serverId e := by
  simp only [openMapped] at h
  split at h
  · exact Or.inl ⟨-1, (Except.ok.inj h).symm⟩
  · split at h
    · exact Or.inl ⟨-2, (Except.ok.inj h).symm⟩
    · rename_i e he
      split at h
      · cases h
      · split at h
        · exact Or.inr ⟨_, e, he, (Except.ok.inj h).symm⟩
        · exact Or.inl ⟨-3, (Except.ok.inj h).symm⟩

theorem send_cases {p : Process} {call : CallAt} {out : SendingAt} (h : p.send call = .ok out) :
    Sent p call out := by
  cases call with
  | map id address =>
      simp only [send, dmBlockMapSend] at h
      split at h
      · obtain rfl := Except.ok.inj h
        exact .returned (-1)
      · split at h
        · obtain rfl := Except.ok.inj h
          exact .returned (-2)
        · rename_i hfree
          split at h
          · cases h
          · split at h
            · obtain rfl := Except.ok.inj h
              exact .entered _ _ rfl (Option.not_isSome_iff_eq_none.mp hfree)
            · obtain rfl := Except.ok.inj h
              exact .returned (-3)
  | unmap id =>
      rw [send, dmBlockUnmapSend] at h
      rcases openMapped_inv h with ⟨code, rfl⟩ | ⟨serverId, e, he, rfl⟩
      · exact .returned code
      · exact .asked _ _ he nofun
  | update id =>
      rw [send, dmBlockUpdateSend] at h
      rcases openMapped_inv h with ⟨code, rfl⟩ | ⟨serverId, e, he, rfl⟩
      · exact .returned code
      · exact .asked _ _ he nofun
  | write id =>
      rw [send, dmBlockWriteSend] at h
      rcases openMapped_inv h with ⟨code, rfl⟩ | ⟨serverId, e, he, rfl⟩
      · exact .returned code
      · split
        · exact .returned (-5)
        · exact .asked _ _ he nofun
  | wait id =>
      rw [send, dmBlockWaitSend] at h
      rcases openMapped_inv h with ⟨code, rfl⟩ | ⟨serverId, e, he, rfl⟩
      · exact .returned code
      · split
        · exact .returned 0
        · exact .asked _ _ he nofun

/-! ## Regions -/

theorem setBlock_self (p : Process) (id : Int32) (b : Option BlockAt) :
    (p.setBlock id b).blocks id = b := Function.update_self ..

theorem setBlock_other (p : Process) {id k : Int32} (b : Option BlockAt) (h : k ≠ id) :
    (p.setBlock id b).blocks k = p.blocks k := Function.update_of_ne h ..

/-- Where the blocks of the table are depends on their addresses only. -/
theorem Placed.of_addresses {p p' : Process} (h : Placed p)
    (haddr : ∀ k e', p'.blocks k = some e' →
      ∃ e, p.blocks k = some e ∧ e.address = e'.address) : Placed p' where
  nonnull := by
    intro k e' he'
    obtain ⟨e, he, heq⟩ := haddr k e' he'
    rw [← heq]
    exact h.nonnull k e he
  apart := by
    intro k k' e₁ e₂ hne h₁ h₂
    obtain ⟨d₁, hd₁, heq₁⟩ := haddr k e₁ h₁
    obtain ⟨d₂, hd₂, heq₂⟩ := haddr k' e₂ h₂
    rw [← heq₁, ← heq₂]
    exact h.apart k k' d₁ d₂ hne hd₁ hd₂

/-- No reply moves a block. -/
theorem Received.address {p p' : Process} {call : CallAt} {code : Int}
    (h : Received p call code p') {k : Int32} {e' : BlockAt} (he' : p'.blocks k = some e') :
    ∃ e, p.blocks k = some e ∧ e.address = e'.address := by
  have hset : ∀ {e e₁ : BlockAt}, p.blocks call.id = some e → e₁.address = e.address →
      (p.setBlock call.id (some e₁)).blocks k = some e' →
      ∃ e, p.blocks k = some e ∧ e.address = e'.address := by
    intro e e₁ he haddr hk
    by_cases hkey : k = call.id
    · subst hkey
      rw [setBlock_self] at hk
      obtain rfl := Option.some.inj hk
      exact ⟨e, he, haddr.symm⟩
    · rw [setBlock_other p _ hkey] at hk
      exact ⟨e', hk, rfl⟩
  cases h with
  | kept _ => exact ⟨e', he', rfl⟩
  | marked _ he haddr => exact hset he haddr he'
  | erased _ =>
      by_cases hkey : k = call.id
      · subst hkey
        rw [setBlock_self] at he'
        cases he'
      · rw [setBlock_other p _ hkey] at he'
        exact ⟨e', he', rfl⟩
  | filled d _ he _ haddr => exact hset he haddr he'

theorem Received.placed {p p' : Process} {call : CallAt} {code : Int}
    (h : Received p call code p') (hplaced : Placed p) : Placed p' :=
  hplaced.of_addresses fun _ _ he' => h.address he'

/-- The region handed to a map is free: not at the null pointer, and apart from the regions
    of the table. -/
structure Fits (p : Process) (address : Nat) : Prop where
  nonnull : address ≠ 0
  apart : ∀ k e, p.blocks k = some e → Apart dimBlock address e.address

theorem Fits.placed {p : Process} {address : Nat} (h : Fits p address) (hplaced : Placed p)
    (id : Int32) : Placed (p.setBlock id (some (.create id address))) where
  nonnull := by
    intro k e he
    by_cases hkey : k = id
    · subst hkey
      rw [setBlock_self] at he
      obtain rfl := Option.some.inj he
      exact h.nonnull
    · rw [setBlock_other p _ hkey] at he
      exact hplaced.nonnull k e he
  apart := by
    intro k k' e e' hne he he'
    by_cases hkey : k = id
    · subst hkey
      rw [setBlock_self] at he
      rw [setBlock_other p _ (Ne.symm hne)] at he'
      obtain rfl := Option.some.inj he
      exact h.apart k' e' he'
    · rw [setBlock_other p _ hkey] at he
      by_cases hkey' : k' = id
      · subst hkey'
        rw [setBlock_self] at he'
        obtain rfl := Option.some.inj he'
        exact (h.apart k e he).symm
      · rw [setBlock_other p _ hkey'] at he'
        exact hplaced.apart k k' e e' hne he he'

/-! ## What the program changes itself -/

theorem content_poke {m : Nat → UInt8} {a x : Nat} (v : UInt8) (h : ¬ Within a dimBlock x) :
    content (Function.update m x v) a = content m a := Data.ext (load_update v h)

theorem Placed.poke {p : Process} (h : Placed p) (x : Nat) (v : UInt8) : Placed (p.poke x v) :=
  h.of_addresses fun _ e he => ⟨e, he, rfl⟩

/-- A byte outside of every region is in no block. -/
theorem view_poke_outside {p : Process} {x : Nat} (v : UInt8)
    (h : ∀ k e, p.blocks k = some e → ¬ Within e.address dimBlock x) :
    (p.poke x v).view = p.view := by
  refine congrArg (Client.mk _ _) (funext fun k => ?_)
  show (p.blocks k).map (BlockAt.view (Function.update p.memory x v)) = _
  cases hk : p.blocks k with
  | none => rfl
  | some e => simp only [Option.map_some, BlockAt.view, content_poke v (h k e hk)]

/-- A byte of a region is in the one block that is there. -/
theorem view_poke_inside {p : Process} (h : Placed p) {k : Int32} {e : BlockAt} {x : Nat}
    (v : UInt8) (he : p.blocks k = some e) (hx : Within e.address dimBlock x) :
    (p.poke x v).view = p.view.setBlock k (some { e.view p.memory with
      data := content (Function.update p.memory x v) e.address }) := by
  refine congrArg (Client.mk _ _) (funext fun k' => ?_)
  show (p.blocks k').map (BlockAt.view (Function.update p.memory x v)) =
    (p.view.setBlock k _).blocks k'
  by_cases hk : k' = k
  · subst hk
    rw [Client.setBlock_same, he]
    rfl
  · rw [Client.setBlock_other _ _ hk, view_blocks]
    cases he' : p.blocks k' with
    | none => rfl
    | some e' =>
        have hout := (h.apart k k' e e' (Ne.symm hk) he he').outside hx
        simp only [Option.map_some, BlockAt.view, content_poke v hout]

/-! ## A reply on the view -/

theorem close_view {p onNack : Process} {onNack' : Client} (reply : Option Node)
    {onAck : Message → Except Fault Process} {onAck' : Message → Except Fault Client}
    (hnack : onNack' = onNack.view) (hack : ∀ ack, onAck' ack = (onAck ack).map view) :
    p.view.close reply onNack' onAck' =
      (p.close reply onNack onAck).map (Prod.map id view) := by
  cases reply with
  | none => rfl
  | some n =>
      simp only [Client.close, close, hack, hnack]
      split
      · rfl
      · cases onAck (Message.ofNode n) with
        | error f => rfl
        | ok p' => rfl

/-- A copy to the region of a block is seen in that block only. -/
theorem assign_view {p : Process} (h : Placed p) {id : Int32} {e : BlockAt}
    (he : p.blocks id = some e) (b : BlockServer) (valid : Bool) :
    (p.assign id e b valid).map view =
      .ok (p.view.setBlock id (some ⟨b.id, b.revision, b.data, valid⟩)) := by
  rw [assign, if_neg (h.nonnull id e he)]
  refine congrArg Except.ok (congrArg (Client.mk _ _) (funext fun k => ?_))
  by_cases hk : k = id
  · subst hk
    simp only [setBlock, Function.update_self, Option.map_some, BlockAt.view, content_store]
  · show ((p.setBlock id _).blocks k).map _ = (p.view.setBlock id _).blocks k
    rw [setBlock_other p _ hk, Client.setBlock_other _ _ hk, view_blocks]
    cases hk' : p.blocks k with
    | none => rfl
    | some e' =>
        have hapart := h.apart id k e e' (Ne.symm hk) he hk'
        simp only [Option.map_some, BlockAt.view, content_store_apart b.data hapart]

/-- **A reply does to the view what it does to the process**, while the regions are apart. -/
theorem receive_view {p : Process} (h : Placed p) (call : CallAt) (reply : Option Node) :
    p.view.receive (call.view p.memory) reply =
      (p.receive call reply).map (Prod.map id view) := by
  cases call with
  | map id address =>
      rw [CallAt.view, Client.receive, Client.dmBlockMapReceive, receive, dmBlockMapReceive]
      refine close_view reply rfl fun ack => ?_
      cases ack.deref with
      | error f => rfl
      | ok q =>
          simp only [view_blocks]
          cases he : p.blocks id with
          | none => rfl
          | some e => exact (assign_view h he q.1 e.valid).symm
  | unmap id =>
      rw [CallAt.view, Client.receive, Client.dmBlockUnmapReceive, receive, dmBlockUnmapReceive]
      refine close_view reply rfl fun _ => ?_
      exact congrArg Except.ok (view_setBlock p id none).symm
  | update id =>
      rw [CallAt.view, Client.receive, Client.dmBlockUpdateReceive, receive, dmBlockUpdateReceive]
      refine close_view reply rfl fun ack => ?_
      simp only [view_blocks]
      cases he : p.blocks id with
      | none => rfl
      | some e =>
          cases ack.deref with
          | error f => rfl
          | ok q =>
              simp only [Option.map_some]
              show (if e.revision ≠ q.1.revision then _ else _) = _
              by_cases hrev : e.revision ≠ q.1.revision
              · rw [if_pos hrev, if_pos hrev]
                exact (assign_view h he q.1 true).symm
              · rw [if_neg hrev, if_neg hrev]
                rfl
  | write id =>
      simp only [CallAt.view, Client.receive, Client.dmBlockWriteReceive, receive,
        dmBlockWriteReceive, view_blocks]
      cases he : p.blocks id with
      | none => rfl
      | some e =>
          refine close_view reply (view_setBlock p id (some (e.setValid false))).symm fun _ => ?_
          exact congrArg Except.ok (view_setBlock p id (some e.addRevision)).symm
  | wait id =>
      simp only [CallAt.view, Client.receive, Client.dmBlockWaitReceive, receive,
        dmBlockWaitReceive, view_blocks]
      cases he : p.blocks id with
      | none => rfl
      | some e =>
          refine close_view reply rfl fun _ => ?_
          exact congrArg Except.ok (view_setBlock p id (some (e.setValid false))).symm

/-- A reply that brings the next revision of a block, with every byte set to `v`. -/
def fresh (k : Int32) (e : BlockAt) (v : UInt8) : Node :=
  emitBlock .ack ⟨k, e.revision + 1, some (Data.memset v)⟩ false

theorem fresh_acks (k : Int32) (e : BlockAt) (v : UInt8) :
    (Message.ofNode (fresh k e v)).type ≠ .nack := by
  rw [fresh, Message.type_emitBlock]
  exact nofun

theorem receive_fresh {p : Process} {k : Int32} {e : BlockAt} (he : p.blocks k = some e)
    (v : UInt8) :
    p.receive (.update k) (some (fresh k e v)) =
      (p.assign k e ⟨k, e.revision + 1, Data.memset v, []⟩ true).map (Prod.mk 0) := by
  have hrev : e.revision ≠
      (Message.decoded ⟨k, e.revision + 1, some (Data.memset v)⟩ false).revision :=
    Ne.symm (WrapCounter.add_one_ne e.revision)
  rw [receive, dmBlockUpdateReceive, close]
  simp only [if_neg (fresh_acks k e v), he]
  rw [fresh, Message.deref_emitBlock]
  simp only
  rw [if_pos hrev]
  show (match p.assign k e ⟨k, e.revision + 1, Data.memset v, []⟩ true with
    | Except.error f => Except.error f
    | Except.ok p' => Except.ok ((0 : Int), p')) = _
  cases p.assign k e ⟨k, e.revision + 1, Data.memset v, []⟩ true with
  | error f => rfl
  | ok p' => rfl

theorem view_receive_fresh {p : Process} {k : Int32} {e : BlockAt} (he : p.blocks k = some e)
    (v : UInt8) :
    p.view.receive (.update k) (some (fresh k e v)) =
      .ok (0, p.view.setBlock k (some ⟨k, e.revision + 1, Data.memset v, true⟩)) := by
  have hrev : (e.view p.memory).revision ≠
      (Message.decoded ⟨k, e.revision + 1, some (Data.memset v)⟩ false).revision :=
    Ne.symm (WrapCounter.add_one_ne e.revision)
  rw [Client.receive, Client.dmBlockUpdateReceive, Client.close]
  simp only [if_neg (fresh_acks k e v), view_blocks, he, Option.map_some]
  rw [fresh, Message.deref_emitBlock]
  simp only
  rw [if_pos hrev]
  rfl

/-- A byte of a region that was filled with `v`. -/
theorem memset_cell (v : UInt8) {m : Nat → UInt8} {a x : Nat} (hx : Within a dimBlock x) :
    store m a (Data.memset v).bytes x = v := by
  obtain ⟨i, rfl⟩ := Nat.exists_eq_add_of_le hx.1
  have hi : i < (Data.memset v).bytes.length := by
    rw [(Data.memset v).size_eq]
    exact Nat.lt_of_add_lt_add_left hx.2
  rw [store_inside hi]
  exact List.getElem_replicate ..

/-- **A process is the client of `DmClient` exactly if its regions are apart.** Otherwise there
    is a reply to an update of one block that changes another, or that is copied to the null
    pointer. -/
theorem receive_view_iff (p : Process) :
    (∀ call reply, p.view.receive (call.view p.memory) reply =
      (p.receive call reply).map (Prod.map id view)) ↔ Placed p := by
  constructor
  · intro h
    have hfresh : ∀ k e, p.blocks k = some e → ∀ v,
        .ok ((0 : Int), p.view.setBlock k (some ⟨k, e.revision + 1, Data.memset v, true⟩)) =
          ((p.assign k e ⟨k, e.revision + 1, Data.memset v, []⟩ true).map (Prod.mk 0)).map
            (Prod.map id view) := by
      intro k e he v
      rw [← view_receive_fresh he v, ← receive_fresh he v]
      exact h (.update k) (some (fresh k e v))
    have hnonnull : ∀ k e, p.blocks k = some e → e.address ≠ 0 := by
      intro k e he h0
      have hk := hfresh k e he 0
      rw [assign, if_pos h0] at hk
      cases hk
    refine ⟨hnonnull, fun k k' e e' hne he he' => ?_⟩
    by_contra hnot
    -- the update of `k` sets a byte that `k'` has as well
    rw [apart_iff (by decide : 0 < dimBlock)] at hnot
    push Not at hnot
    obtain ⟨x, hx, hx'⟩ := hnot
    have hk := hfresh k e he (p.memory x + 1)
    rw [assign, if_neg (hnonnull k e he)] at hk
    have hclient := (Prod.mk.inj (Except.ok.inj hk)).2
    have hblock := congrFun (congrArg Client.blocks hclient) k'
    have hleft : (p.view.setBlock k (some ⟨k, e.revision + 1, Data.memset (p.memory x + 1),
        true⟩)).blocks k' = some (e'.view p.memory) := by
      rw [Client.setBlock_other _ _ (Ne.symm hne), view_blocks, he']
      rfl
    rw [hleft] at hblock
    simp only [view, setBlock, Function.update_of_ne (Ne.symm hne), he', Option.map_some] at hblock
    have hbytes := content_eq_iff.mp (congrArg BlockLocal.data (Option.some.inj hblock)) x hx'
    rw [memset_cell _ hx] at hbytes
    have hzero := congrArg (· - p.memory x) hbytes
    simp only [UInt8.sub_self, UInt8.add_comm, UInt8.add_sub_cancel] at hzero
    cases hzero
  · exact fun h call reply => receive_view h call reply

end Process

end DmAddress
