import DistributedMemory.DmAtomicProofs

/-!
# The contract of the calls

On the board a call on a hosted block is a function of two things: the block at its server and
the caller's own copy of it.

* **`contract`** — that function: what the call returns and what becomes of the two; nothing,
  for a WAIT at the present revision.
* **`call_contract`** — a step of the board is what the contract says and nothing else.
-/

namespace DmContract

open DmBlock DmConfig DmMessage DmClient DmServer DmHost DmSystem DmCluster DmAtomic LabelledRun

/-- What a call does to the block at the server and to the caller's copy of it. -/
def contract (clientId : String) (call : Call) (it : BlockServer) (copy : Option BlockLocal) :
    Option (Int × BlockServer × Option BlockLocal) :=
  match call, copy with
  | .map id address, none =>
      if clientId ∈ it.mappedClients then some (-5, it, some (BlockLocal.create id address))
      else
        some (0, { it with mappedClients := it.mappedClients ++ [clientId] },
          some ⟨it.id, it.revision, it.data, true⟩)
  | _, none => some (-2, it, none)
  | .map _ _, some e => some (-2, it, some e)
  | .unmap _, some e =>
      if clientId ∈ it.mappedClients then
        some (0, { it with mappedClients := it.mappedClients.erase clientId }, none)
      else some (-5, it, some e)
  | .update _, some e =>
      if e.revision = it.revision then some (0, it, some e)
      else
        -- a copy that is ahead gets no content
        some (0, it, some ⟨it.id, it.revision,
          if e.revision < it.revision then it.data else Data.memset 0, true⟩)
  | .write _, some e =>
      if e.valid = false then some (-5, it, some e)
      else if it.revision = e.revision then
        some (0, { it with id := e.id, revision := it.revision + 1, data := e.data },
          some e.addRevision)
      else some (-5, it, some (e.setValid false))
  | .wait _, some e =>
      if e.valid = false then some (0, it, some e)
      else if it.revision = e.revision then none
      else some (0, it, some (e.setValid false))

variable {ι : Type} [DecidableEq ι]

/-- The block at its server and the caller's copy replaced. -/
def put (a : Board ι) (sid : String) (c : ι) (k : Int32) (it : BlockServer)
    (copy : Option BlockLocal) : Board ι :=
  (a.setTable sid (Function.update (a.table sid) k (some it))).setClient c
    ((a.client c).setBlock k copy)

/-- What a client needs for its calls on a block to reach it: a configuration that routes it
    to the server, an open socket, and a copy that is one of this block, if there is one. -/
structure Reaches (a : Board ι) (c : ι) (k : Int32) (sid : String) : Prop where
  alive : a.dead c = false
  route : (a.client c).config.findServerIdByBlockId k = sid
  named : sid.isEmpty = false
  socket : ∃ sock, (a.client c).sockets sid = some sock ∧ sock.isValid = true
  copy : ∀ e, (a.client c).blocks k = some e → e.id = k

/-! ## The three ways of a call -/

section Ways

variable {F : Fleet ι} {a a' : Board ι} {c : ι} {call : Call} {code : Int}

/-- A call that returns at once. -/
theorem called_returned {code₀ : Int} (halive : a.dead c = false)
    (hsend : (a.client c).send call = .ok (.returned code₀ (a.client c))) :
    Step F a (.called c call code) a' ↔ code₀ = code ∧ a' = a.setClient c (a.client c) := by
  constructor
  · intro hs
    cases hs with
    | returned _ h =>
        obtain ⟨rfl, rfl⟩ := Sending.returned.inj (Except.ok.inj (hsend.symm.trans h))
        exact ⟨rfl, rfl⟩
    | exchanged _ h _ _ _ => cases hsend.symm.trans h
  · rintro ⟨rfl, rfl⟩
    exact .returned halive hsend

/-- A call that is answered. -/
theorem called_exchanged {sid : String} {req reply : Node} {client client' : Client}
    {sec : Section} {code₀ : Int} (halive : a.dead c = false)
    (hsend : (a.client c).send call = .ok (.sent sid req client))
    (hserve : (a.server sid).clientHandler (F.clientId c sid) (Message.ofNode req) = .ok sec)
    (hreply : sec.outcome = .send reply)
    (hrecv : client.receive call (some reply) = .ok (code₀, client')) :
    Step F a (.called c call code) a' ↔
      code₀ = code ∧ a' = (a.setTable sid sec.server.blocks).setClient c client' := by
  constructor
  · intro hs
    cases hs with
    | returned _ h => cases hsend.symm.trans h
    | exchanged _ h hserve' hreply' hrecv' =>
        obtain ⟨rfl, rfl, rfl⟩ := Sending.sent.inj (Except.ok.inj (hsend.symm.trans h))
        obtain rfl := Except.ok.inj (hserve.symm.trans hserve')
        obtain rfl := Outcome.send.inj (hreply.symm.trans hreply')
        obtain ⟨rfl, rfl⟩ := Prod.mk.inj (Except.ok.inj (hrecv.symm.trans hrecv'))
        exact ⟨rfl, rfl⟩
  · rintro ⟨rfl, rfl⟩
    exact .exchanged halive hsend hserve hreply hrecv

/-- A call that is not answered. -/
theorem called_blocked {sid : String} {req : Node} {client : Client} {sec : Section}
    {k : Int32} {msg : Message} (hsend : (a.client c).send call = .ok (.sent sid req client))
    (hserve : (a.server sid).clientHandler (F.clientId c sid) (Message.ofNode req) = .ok sec)
    (hwait : sec.outcome = .wait k msg) : ¬ Step F a (.called c call code) a' := by
  intro hs
  cases hs with
  | returned _ h => cases hsend.symm.trans h
  | exchanged _ h hserve' hreply' _ =>
      obtain ⟨rfl, rfl, rfl⟩ := Sending.sent.inj (Except.ok.inj (hsend.symm.trans h))
      obtain rfl := Except.ok.inj (hserve.symm.trans hserve')
      cases hwait.symm.trans hreply'

end Ways

/-! ## What is sent -/

section Sent

variable {a : Board ι} {c : ι} {k : Int32} {sid : String}

omit [DecidableEq ι] in
theorem send_map (h : Reaches a c k sid) (hnone : (a.client c).blocks k = none) (address : Data) :
    (a.client c).send (.map k address)
      = .ok (.sent sid (emitBlock .map (BlockLocal.create k address).toBlock true)
          ((a.client c).setBlock k (some (BlockLocal.create k address)))) := by
  obtain ⟨sock, hsock, hvalid⟩ := h.socket
  have hsock' := hsock
  rw [← h.route] at hsock'
  cases Client.mapSends (a.client c) k address with
  | unrouted hserver _ =>
      rw [h.route, h.named] at hserver
      cases hserver
  | mapped _ hentry _ =>
      rw [hnone] at hentry
      cases hentry
  | unconnected _ hclosed _ => cases hclosed.symm.trans hsock'
  | closed _ hopen hclosed _ =>
      obtain rfl := Option.some.inj (hopen.symm.trans hsock')
      cases hvalid.symm.trans hclosed
  | sent _ _ _ _ hsend =>
      rw [h.route] at hsend
      exact hsend

omit [DecidableEq ι] in
theorem send_map_twice (h : Reaches a c k sid) {e : BlockLocal}
    (he : (a.client c).blocks k = some e) (address : Data) :
    (a.client c).send (.map k address) = .ok (.returned (-2) (a.client c)) := by
  cases Client.mapSends (a.client c) k address with
  | unrouted hserver _ =>
      rw [h.route, h.named] at hserver
      cases hserver
  | mapped _ _ hsend => exact hsend
  | unconnected hfree _ _ => cases hfree.symm.trans he
  | closed hfree _ _ _ => cases hfree.symm.trans he
  | sent _ hfree _ _ _ => cases hfree.symm.trans he

omit [DecidableEq ι] in
theorem openMapped_none (h : Reaches a c k sid) (hnone : (a.client c).blocks k = none)
    (go : String → BlockLocal → Sending) :
    (a.client c).openMapped k go = .ok (.returned (-2) (a.client c)) := by
  rw [Client.openMapped, h.route, h.named, hnone]
  rfl

omit [DecidableEq ι] in
theorem openMapped_some (h : Reaches a c k sid) {e : BlockLocal}
    (he : (a.client c).blocks k = some e) (go : String → BlockLocal → Sending) :
    (a.client c).openMapped k go = .ok (go sid e) := by
  obtain ⟨sock, hsock, hvalid⟩ := h.socket
  rw [Client.openMapped, h.route, h.named, he, hsock]
  simp only [hvalid]
  rfl

end Sent

/-! ## What becomes of the two -/

section Put

variable {F : Fleet ι} {a a' : Board ι} {c : ι} {call : Call} {code : Int} {sid : String}
  {it : BlockServer} {copy : Option BlockLocal}

/-- Replaced by what they are, they stay. -/
theorem put_self {k : Int32} (hit : a.table sid k = some it)
    (hcopy : (a.client c).blocks k = copy) : put a sid c k it copy = a.setClient c (a.client c) := by
  have htable : a.setTable sid (Function.update (a.table sid) k (some it)) = a := by
    rw [← hit, Function.update_eq_self, Board.setTable, Function.update_eq_self]
  rw [put, htable, Client.setBlock_eq_self hcopy]

/-- What the section left and what the reply made of the client, put together. -/
theorem put_eq {k : Int32} {blocks : Int32 → Option BlockServer} {client : Client}
    (hblocks : blocks = Function.update (a.table sid) k (some it))
    (hclient : client = (a.client c).setBlock k copy) :
    (a.setTable sid blocks).setClient c client = put a sid c k it copy := by
  rw [hblocks, hclient, put]

omit [DecidableEq ι] in
/-- A table with one block replaced by what it is. -/
theorem table_self {k : Int32} (hit : a.table sid k = some it) :
    a.table sid = Function.update (a.table sid) k (some it) := by
  rw [← hit, Function.update_eq_self]

/-- The step is the one the contract names. -/
theorem iff_contract {x : Board ι} {code₀ : Int} {it' : BlockServer} {copy' : Option BlockLocal}
    (hstep : Step F a (.called c call code) a' ↔ code₀ = code ∧ a' = x)
    (hcontract : contract (F.clientId c sid) call it copy = some (code₀, it', copy'))
    (hput : x = put a sid c call.id it' copy') :
    Step F a (.called c call code) a' ↔ ∃ it' copy',
      contract (F.clientId c sid) call it copy = some (code, it', copy') ∧
        a' = put a sid c call.id it' copy' := by
  rw [hstep, hcontract, hput]
  constructor
  · rintro ⟨rfl, rfl⟩
    exact ⟨it', copy', rfl, rfl⟩
  · rintro ⟨it'', copy'', hsome, rfl⟩
    obtain ⟨rfl, hrest⟩ := Prod.mk.inj (Option.some.inj hsome)
    obtain ⟨rfl, rfl⟩ := Prod.mk.inj hrest
    exact ⟨rfl, rfl⟩

end Put

/-! ## Call by call -/

section Calls

variable {F : Fleet ι} {a a' : Board ι} {c : ι} {k : Int32} {code : Int} {sid : String}
  {it : BlockServer}

/-- A handler reads the type and the block that were emitted. -/
theorem serve_eq (srv : Server) (clientId : String) (call : Call) (blk : Block) (shallow : Bool) :
    srv.clientHandler clientId (Message.ofNode (emitBlock call.type blk shallow)) =
      match call with
      | .map _ _ => .ok (srv.handleMap clientId blk.id)
      | .unmap _ => .ok (srv.handleUnmap clientId blk.id)
      | .update _ => srv.handleUpdate blk.id
          ⟨emitBlock call.type blk shallow, some (Message.decoded blk shallow)⟩
      | .write _ => srv.handleWrite blk.id
          ⟨emitBlock call.type blk shallow, some (Message.decoded blk shallow)⟩
      | .wait _ => srv.handleWait blk.id
          ⟨emitBlock call.type blk shallow, some (Message.decoded blk shallow)⟩ := by
  rw [Server.clientHandler, Message.type_emitBlock, Message.deref_emitBlock]
  cases call <;> rfl

theorem deref_cached (n : Node) (b : BlockServer) :
    (Message.mk n (some b)).deref = .ok (b, ⟨n, some b⟩) := Message.deref_of_cached rfl

theorem setBlock_twice (client : Client) (k : Int32) (b b' : Option BlockLocal) :
    (client.setBlock k b).setBlock k b' = client.setBlock k b' := by
  rw [Client.setBlock, Client.setBlock, Client.setBlock, Function.update_idem]

/-- A reply that is a refusal. -/
theorem receive_refusal (call : Call) {client : Client} {e : BlockLocal}
    (he : client.blocks call.id = some e) :
    client.receive call (some (emit .nack))
      = .ok (-5, client.setBlock call.id (some (call.onNack e))) :=
  Client.receive_nack he (Message.type_emit .nack)

/-- A reply without a block, to a call that needs none. -/
theorem receive_bare (call : Call) {client : Client} {e : BlockLocal}
    (he : client.blocks call.id = some e) (huses : call.usesBlock = false) :
    client.receive call (some (emit .ack))
      = .ok (0, client.setBlock call.id (call.onAck e (BlockServer.create 0))) := by
  have hack : (Message.ofNode (emit .ack)).type ≠ .nack := by
    rw [Message.type_emit]
    decide
  refine Client.receive_ack (m := Message.ofNode (emit .ack)) he hack fun hu => ?_
  cases huses.symm.trans hu

/-- A reply with a block. -/
theorem receive_block (call : Call) {client : Client} {e : BlockLocal}
    (he : client.blocks call.id = some e) (blk : Block) (shallow : Bool) :
    client.receive call (some (emitBlock .ack blk shallow))
      = .ok (0, client.setBlock call.id (call.onAck e (Message.decoded blk shallow))) := by
  have hack : (Message.ofNode (emitBlock .ack blk shallow)).type ≠ .nack := by
    rw [Message.type_emitBlock]
    decide
  exact Client.receive_ack he hack fun _ => Message.deref_emitBlock ..

theorem map_new (h : Reaches a c k sid) (hit : a.table sid k = some it)
    (hnone : (a.client c).blocks k = none) (address : Data) :
    Step F a (.called c (.map k address) code) a' ↔ ∃ it' copy',
      contract (F.clientId c sid) (.map k address) it none = some (code, it', copy') ∧
        a' = put a sid c k it' copy' := by
  have hsend := send_map h hnone address
  have hentry : ((a.client c).setBlock k (some (BlockLocal.create k address))).blocks k
      = some (BlockLocal.create k address) := Client.setBlock_same ..
  by_cases hmem : F.clientId c sid ∈ it.mappedClients
  · have hserve : (a.server sid).clientHandler (F.clientId c sid) (Message.ofNode
        (emitBlock .map (BlockLocal.create k address).toBlock true))
          = .ok ⟨a.server sid, none, .send (emit .nack)⟩ := by
      refine (serve_eq _ _ (.map k address) _ _).trans ?_
      have hblock : (a.server sid).blocks k = some it := hit
      simp only [Server.handleMap, BlockLocal.create, BlockLocal.toBlock_id, hblock,
        BlockServer.map, if_pos hmem, Server.setBlock_eq_self hblock]
      rfl
    have hrecv := receive_refusal (.map k address) hentry
    have hcontract : contract (F.clientId c sid) (.map k address) it none
        = some (-5, it, some (BlockLocal.create k address)) := by
      rw [contract, if_pos hmem]
    exact iff_contract (called_exchanged h.alive hsend hserve rfl hrecv) hcontract
      (put_eq (table_self hit) (setBlock_twice ..))
  · have hserve : (a.server sid).clientHandler (F.clientId c sid) (Message.ofNode
        (emitBlock .map (BlockLocal.create k address).toBlock true))
          = .ok ⟨(a.server sid).setBlock k
              { it with mappedClients := it.mappedClients ++ [F.clientId c sid] }, none,
            .send (emitBlock .ack { it with
              mappedClients := it.mappedClients ++ [F.clientId c sid] }.toBlock false)⟩ := by
      refine (serve_eq _ _ (.map k address) _ _).trans ?_
      have hblock : (a.server sid).blocks k = some it := hit
      simp only [Server.handleMap, BlockLocal.create, BlockLocal.toBlock_id, hblock,
        BlockServer.map, if_neg hmem]
      rfl
    have hrecv := receive_block (.map k address) hentry { it with
        mappedClients := it.mappedClients ++ [F.clientId c sid] }.toBlock false
    have hcontract : contract (F.clientId c sid) (.map k address) it none
        = some (0, { it with mappedClients := it.mappedClients ++ [F.clientId c sid] },
          some ⟨it.id, it.revision, it.data, true⟩) := by
      rw [contract, if_neg hmem]
    exact iff_contract (called_exchanged h.alive hsend hserve rfl hrecv) hcontract
      (put_eq rfl (setBlock_twice ..))

theorem map_twice (h : Reaches a c k sid) (hit : a.table sid k = some it) {e : BlockLocal}
    (he : (a.client c).blocks k = some e) (address : Data) :
    Step F a (.called c (.map k address) code) a' ↔ ∃ it' copy',
      contract (F.clientId c sid) (.map k address) it (some e) = some (code, it', copy') ∧
        a' = put a sid c k it' copy' :=
  iff_contract (called_returned h.alive (send_map_twice h he address)) rfl (put_self hit he).symm

/-- A call on a block that is not mapped. -/
theorem unmapped_returns (h : Reaches a c k sid) (hit : a.table sid k = some it)
    (hnone : (a.client c).blocks k = none) {call : Call} (hid : call.id = k)
    (hmap : call.type ≠ .map) :
    Step F a (.called c call code) a' ↔ ∃ it' copy',
      contract (F.clientId c sid) call it none = some (code, it', copy') ∧
        a' = put a sid c k it' copy' := by
  subst hid
  have hcontract : contract (F.clientId c sid) call it none = some (-2, it, none) := by
    cases call with
    | map id address => exact absurd rfl hmap
    | unmap id => rfl
    | update id => rfl
    | write id => rfl
    | wait id => rfl
  have hsend : (a.client c).send call = .ok (.returned (-2) (a.client c)) := by
    cases call with
    | map id address => exact absurd rfl hmap
    | unmap id =>
        rw [Client.send, Client.dmBlockUnmapSend]
        exact openMapped_none h hnone _
    | update id =>
        rw [Client.send, Client.dmBlockUpdateSend]
        exact openMapped_none h hnone _
    | write id =>
        rw [Client.send, Client.dmBlockWriteSend]
        exact openMapped_none h hnone _
    | wait id =>
        rw [Client.send, Client.dmBlockWaitSend]
        exact openMapped_none h hnone _
  exact iff_contract (called_returned h.alive hsend) hcontract (put_self hit hnone).symm

theorem unmap_mapped (h : Reaches a c k sid) (hit : a.table sid k = some it) {e : BlockLocal}
    (he : (a.client c).blocks k = some e) :
    Step F a (.called c (.unmap k) code) a' ↔ ∃ it' copy',
      contract (F.clientId c sid) (.unmap k) it (some e) = some (code, it', copy') ∧
        a' = put a sid c k it' copy' := by
  have hsend : (a.client c).send (.unmap k)
      = .ok (.sent sid (emitBlock .unmap e.toBlock true) (a.client c)) := by
    rw [Client.send, Client.dmBlockUnmapSend]
    exact openMapped_some h he _
  have hblock : (a.server sid).blocks k = some it := hit
  have hid : e.toBlock.id = k := h.copy e he
  by_cases hmem : F.clientId c sid ∈ it.mappedClients
  · have hserve : (a.server sid).clientHandler (F.clientId c sid) (Message.ofNode
        (emitBlock .unmap e.toBlock true))
          = .ok ⟨(a.server sid).setBlock k
              { it with mappedClients := it.mappedClients.erase (F.clientId c sid) }, none,
            .send (emit .ack)⟩ := by
      refine (serve_eq _ _ (.unmap k) _ _).trans ?_
      simp only [Server.handleUnmap, hid, hblock, BlockServer.unmap, if_pos hmem, if_true]
    have hrecv := receive_bare (.unmap k) he rfl
    have hcontract : contract (F.clientId c sid) (.unmap k) it (some e)
        = some (0, { it with mappedClients := it.mappedClients.erase (F.clientId c sid) }, none) := by
      rw [contract, if_pos hmem]
    exact iff_contract (called_exchanged h.alive hsend hserve rfl hrecv) hcontract
      (put_eq rfl rfl)
  · have hserve : (a.server sid).clientHandler (F.clientId c sid) (Message.ofNode
        (emitBlock .unmap e.toBlock true)) = .ok ⟨a.server sid, none, .send (emit .nack)⟩ := by
      refine (serve_eq _ _ (.unmap k) _ _).trans ?_
      simp only [Server.handleUnmap, hid, hblock, BlockServer.unmap, if_neg hmem,
        Server.setBlock_eq_self hblock]
      rfl
    have hrecv := receive_refusal (.unmap k) he
    have hcontract : contract (F.clientId c sid) (.unmap k) it (some e) = some (-5, it, some e) := by
      rw [contract, if_neg hmem]
    exact iff_contract (called_exchanged h.alive hsend hserve rfl hrecv) hcontract
      (put_eq (table_self hit) rfl)

theorem update_mapped (h : Reaches a c k sid) (hit : a.table sid k = some it) {e : BlockLocal}
    (he : (a.client c).blocks k = some e) :
    Step F a (.called c (.update k) code) a' ↔ ∃ it' copy',
      contract (F.clientId c sid) (.update k) it (some e) = some (code, it', copy') ∧
        a' = put a sid c k it' copy' := by
  have hsend : (a.client c).send (.update k)
      = .ok (.sent sid (emitBlock .update e.toBlock true) (a.client c)) := by
    rw [Client.send, Client.dmBlockUpdateSend]
    exact openMapped_some h he _
  have hblock : (a.server sid).blocks k = some it := hit
  have hid : e.toBlock.id = k := h.copy e he
  -- what is sent back: the whole block only to a copy that is behind
  have hserve : (a.server sid).clientHandler (F.clientId c sid) (Message.ofNode
      (emitBlock .update e.toBlock true)) = .ok ⟨a.server sid, none,
        .send (emitBlock .ack it.toBlock (!decide (e.revision < it.revision)))⟩ := by
    refine (serve_eq _ _ (.update k) _ _).trans ?_
    simp only [Server.handleUpdate, hid, hblock, deref_cached,
      Message.decoded_revision, BlockLocal.toBlock_revision]
    by_cases hlt : e.revision < it.revision
    · simp only [hlt, if_true, decide_true, Bool.not_true]
    · simp only [hlt, if_false, decide_false, Bool.not_false]
  have hrecv := receive_block (.update k) he it.toBlock (!decide (e.revision < it.revision))
  have hstep : Step F a (.called c (.update k) code) a' ↔ _ :=
    called_exchanged h.alive hsend hserve rfl hrecv
  by_cases heq : e.revision = it.revision
  · have hcontract : contract (F.clientId c sid) (.update k) it (some e) = some (0, it, some e) := by
      rw [contract, if_pos heq]
    refine iff_contract hstep hcontract (put_eq (table_self hit) ?_)
    simp [Call.onAck, heq]
  · have hcontract : contract (F.clientId c sid) (.update k) it (some e)
        = some (0, it, some ⟨it.id, it.revision,
          if e.revision < it.revision then it.data else Data.memset 0, true⟩) := by
      rw [contract, if_neg heq]
    refine iff_contract hstep hcontract (put_eq (table_self hit) ?_)
    have hentry : (Call.update k).onAck e (Message.decoded it.toBlock
        (!decide (e.revision < it.revision))) = some ⟨it.id, it.revision,
          if e.revision < it.revision then it.data else Data.memset 0, true⟩ := by
      rw [Call.onAck, Message.decoded_revision, BlockServer.toBlock_revision, if_pos heq]
      by_cases hlt : e.revision < it.revision
      · simp only [hlt, if_true, decide_true, Bool.not_true]
        rfl
      · simp only [hlt, if_false, decide_false, Bool.not_false]
        rfl
    exact congrArg ((a.client c).setBlock k) hentry

theorem write_mapped (h : Reaches a c k sid) (hit : a.table sid k = some it) {e : BlockLocal}
    (he : (a.client c).blocks k = some e) :
    Step F a (.called c (.write k) code) a' ↔ ∃ it' copy',
      contract (F.clientId c sid) (.write k) it (some e) = some (code, it', copy') ∧
        a' = put a sid c k it' copy' := by
  cases hv : e.valid with
  | false =>
      have hsend : (a.client c).send (.write k) = .ok (.returned (-5) (a.client c)) := by
        rw [Client.send, Client.dmBlockWriteSend, openMapped_some h he, hv]
        rfl
      have hcontract : contract (F.clientId c sid) (.write k) it (some e) = some (-5, it, some e) := by
        rw [contract, if_pos hv]
      exact iff_contract (called_returned h.alive hsend) hcontract (put_self hit he).symm
  | true =>
      have hvalid : e.valid ≠ false := by
        rw [hv]
        decide
      have hsend : (a.client c).send (.write k)
          = .ok (.sent sid (emitBlock .write e.toBlock false) (a.client c)) := by
        rw [Client.send, Client.dmBlockWriteSend, openMapped_some h he, hv]
        rfl
      have hblock : (a.server sid).blocks k = some it := hit
      have hid : e.toBlock.id = k := h.copy e he
      by_cases heq : it.revision = e.revision
      · have hserve : (a.server sid).clientHandler (F.clientId c sid) (Message.ofNode
            (emitBlock .write e.toBlock false))
              = .ok ⟨((a.server sid).setBlock k
                  (it.assign (Message.decoded e.toBlock false)).addRevision).condition k, some k,
                .send (emit .ack)⟩ := by
          refine (serve_eq _ _ (.write k) _ _).trans ?_
          simp only [Server.handleWrite, hid, hblock, deref_cached, Message.decoded_revision,
            BlockLocal.toBlock_revision, heq, if_true]
        have hrecv := receive_bare (.write k) he rfl
        have hcontract : contract (F.clientId c sid) (.write k) it (some e) = some (0,
            { it with id := e.id, revision := it.revision + 1, data := e.data },
            some e.addRevision) := by
          rw [contract, if_neg hvalid, if_pos heq]
        refine iff_contract (called_exchanged h.alive hsend hserve rfl hrecv) hcontract
          (put_eq ?_ rfl)
        show Function.update (a.table sid) k _ = _
        rw [heq]
        rfl
      · have hserve : (a.server sid).clientHandler (F.clientId c sid) (Message.ofNode
            (emitBlock .write e.toBlock false))
              = .ok ⟨(a.server sid).condition k, some k, .send (emit .nack)⟩ := by
          refine (serve_eq _ _ (.write k) _ _).trans ?_
          simp only [Server.handleWrite, hid, hblock, deref_cached, Message.decoded_revision,
            BlockLocal.toBlock_revision, heq, if_false]
        have hrecv := receive_refusal (.write k) he
        have hcontract : contract (F.clientId c sid) (.write k) it (some e)
            = some (-5, it, some (e.setValid false)) := by
          rw [contract, if_neg hvalid, if_neg heq]
        exact iff_contract (called_exchanged h.alive hsend hserve rfl hrecv) hcontract
          (put_eq (table_self hit) rfl)

theorem wait_mapped (h : Reaches a c k sid) (hit : a.table sid k = some it) {e : BlockLocal}
    (he : (a.client c).blocks k = some e) :
    Step F a (.called c (.wait k) code) a' ↔ ∃ it' copy',
      contract (F.clientId c sid) (.wait k) it (some e) = some (code, it', copy') ∧
        a' = put a sid c k it' copy' := by
  cases hv : e.valid with
  | false =>
      have hsend : (a.client c).send (.wait k) = .ok (.returned 0 (a.client c)) := by
        rw [Client.send, Client.dmBlockWaitSend, openMapped_some h he, hv]
        rfl
      have hcontract : contract (F.clientId c sid) (.wait k) it (some e) = some (0, it, some e) := by
        rw [contract, if_pos hv]
      exact iff_contract (called_returned h.alive hsend) hcontract (put_self hit he).symm
  | true =>
      have hvalid : e.valid ≠ false := by
        rw [hv]
        decide
      have hsend : (a.client c).send (.wait k)
          = .ok (.sent sid (emitBlock .wait e.toBlock true) (a.client c)) := by
        rw [Client.send, Client.dmBlockWaitSend, openMapped_some h he, hv]
        rfl
      have hblock : (a.server sid).blocks k = some it := hit
      have hid : e.toBlock.id = k := h.copy e he
      by_cases heq : it.revision = e.revision
      -- the WAIT sleeps
      · have hserve : (a.server sid).clientHandler (F.clientId c sid) (Message.ofNode
            (emitBlock .wait e.toBlock true))
              = .ok ⟨(a.server sid).condition k, none, .wait k
                ⟨emitBlock .wait e.toBlock true, some (Message.decoded e.toBlock true)⟩⟩ := by
          refine (serve_eq _ _ (.wait k) _ _).trans ?_
          simp only [Server.handleWait, hid, hblock, deref_cached, Message.decoded_revision,
            BlockLocal.toBlock_revision, heq, if_true]
          rfl
        refine iff_of_false (called_blocked hsend hserve rfl) ?_
        rintro ⟨it', copy', hcontract, -⟩
        rw [contract, if_neg hvalid, if_pos heq] at hcontract
        cases hcontract
      · have hserve : (a.server sid).clientHandler (F.clientId c sid) (Message.ofNode
            (emitBlock .wait e.toBlock true))
              = .ok ⟨a.server sid, none, .send (emit .ack)⟩ := by
          refine (serve_eq _ _ (.wait k) _ _).trans ?_
          simp only [Server.handleWait, hid, hblock, deref_cached, Message.decoded_revision,
            BlockLocal.toBlock_revision, heq, if_false]
        have hrecv := receive_bare (.wait k) he rfl
        have hcontract : contract (F.clientId c sid) (.wait k) it (some e)
            = some (0, it, some (e.setValid false)) := by
          rw [contract, if_neg hvalid, if_neg heq]
        exact iff_contract (called_exchanged h.alive hsend hserve rfl hrecv) hcontract
          (put_eq (table_self hit) rfl)

/-- **What a call on a hosted block does** is what the contract says. -/
theorem called_iff {call : Call} (h : Reaches a c call.id sid)
    (hit : a.table sid call.id = some it) :
    Step F a (.called c call code) a' ↔ ∃ it' copy',
      contract (F.clientId c sid) call it ((a.client c).blocks call.id) = some (code, it', copy') ∧
        a' = put a sid c call.id it' copy' := by
  cases he : (a.client c).blocks call.id with
  | none =>
      by_cases hmap : call.type = .map
      · obtain ⟨k, address, rfl⟩ := Call.eq_map hmap
        exact map_new h hit he address
      · exact unmapped_returns h hit he rfl hmap
  | some e =>
      cases call with
      | map k address => exact map_twice h hit he address
      | unmap k => exact unmap_mapped h hit he
      | update k => exact update_mapped h hit he
      | write k => exact write_mapped h hit he
      | wait k => exact wait_mapped h hit he

end Calls

/-! ## What stays -/

section Kept

variable {F : Fleet ι} {tr : ClusterTrace ι} {s s' : Cluster ι}

/-- Configuration and sockets of every client are those it started with. -/
def SetUp (F : Fleet ι) (s : Cluster ι) : Prop :=
  ∀ c, (s.client c).config = F.config c ∧ (s.client c).sockets = F.sockets c

theorem step_setUp {e : String × Event ι} (h : SetUp F s) (hs : DmCluster.Step F s e s') :
    SetUp F s' := by
  have hset : ∀ {c : ι} {client : Client}, client.config = (s.client c).config →
      client.sockets = (s.client c).sockets →
      ∀ u, (Function.update s.client c client u).config = F.config u ∧
        (Function.update s.client c client u).sockets = F.sockets u := by
    intro c client hconfig hsockets u
    by_cases hu : u = c
    · subst hu
      rw [Function.update_self, hconfig, hsockets]
      exact h u
    · rw [Function.update_of_ne hu]
      exact h u
  cases hs with
  | returned _ _ hsend =>
      obtain rfl := (Client.send_returned hsend).2
      exact hset rfl rfl
  | sent _ _ hsend => exact hset (by rw [send_entry hsend]; rfl) (by rw [send_entry hsend]; rfl)
  | poked d _ _ _ => exact hset rfl rfl
  | received _ _ _ hrecv =>
      exact hset (by rw [receive_entry hrecv]; rfl) (by rw [receive_entry hrecv]; rfl)
  | timedOut _ _ _ hrecv =>
      exact hset (by rw [receive_entry hrecv]; rfl) (by rw [receive_entry hrecv]; rfl)
  | died _ _ _ => exact h
  | request _ _ _ => exact h
  | retry _ _ => exact h
  | woken _ => exact h
  | receivedDied _ _ _ _ => exact h

theorem run_setUp (hrun : ClusterRun F tr s) : SetUp F s :=
  hrun.invariant (fun _ => ⟨rfl, rfl⟩) fun _ _ _ h hs => step_setUp h hs

/-- Every copy is one of the block it is stored under. -/
theorem client_named (hrun : ClusterRun F tr s) (hno : NoTimeouts tr) {c : ι} {k : Int32}
    {e : BlockLocal} (he : (s.client c).blocks k = some e) : e.id = k := by
  refine DmService.run_named (run_view hrun (s.route c k)) (noTimeout_only hno _) c k e ?_
  exact (restrict_blocks rfl).trans he

omit [DecidableEq ι] in
/-- Three ways to be a client on the board: idle, before a request, after a reply. -/
theorem settled_cases (s : Cluster ι) (c : ι) :
    settled s c = s.client c ∨ (∃ call, settled s c = unsent call (s.client c)) ∨
      ∃ sid p tag reply rest code, s.pending c = some (sid, p) ∧
        (s.wire c sid).replies = (tag, reply) :: rest ∧
        (s.client c).receive p.call (some reply) = .ok (code, settled s c) := by
  cases hp : s.pending c with
  | none => exact Or.inl (settled_idle hp)
  | some x =>
      obtain ⟨sid, p⟩ := x
      right
      cases hrep : (s.wire c sid).replies with
      | nil => exact Or.inl ⟨p.call, settled_asked hp hrep⟩
      | cons y rest =>
          obtain ⟨tag, reply⟩ := y
          cases hrecv : (s.client c).receive p.call (some reply) with
          | error f =>
              refine Or.inl ⟨p.call, ?_⟩
              simp only [settled, owed, hp, hrep, hrecv]
          | ok r =>
              obtain ⟨code, client⟩ := r
              refine Or.inr ⟨sid, p, tag, reply, rest, code, rfl, hrep, ?_⟩
              rw [settled_answered hp (owed_answered hp hrep hrecv)]
              exact hrecv

/-- What of a board stays as it was at the start. -/
structure Kept (F : Fleet ι) (a : Board ι) : Prop where
  config : ∀ c, (a.client c).config = F.config c
  sockets : ∀ c, (a.client c).sockets = F.sockets c
  hosted : ∀ sid k, k ∈ F.blocksId sid → ∃ it, a.table sid k = some it ∧ it.id = k
  copies : ∀ c k e, (a.client c).blocks k = some e → e.id = k

theorem board_kept (hrun : ClusterRun F tr s) (hno : NoTimeouts tr) : Kept F (board s) := by
  have hsetUp := run_setUp hrun
  refine ⟨?_, ?_, ?_, ?_⟩
  · intro c
    show (settled s c).config = F.config c
    rw [← (hsetUp c).1]
    rcases settled_cases s c with h | ⟨call, h⟩ | ⟨_, _, _, _, _, _, _, _, hrecv⟩
    · rw [h]
    · rw [h]
      cases call <;> rfl
    · rw [receive_entry hrecv]
      rfl
  · intro c
    show (settled s c).sockets = F.sockets c
    rw [← (hsetUp c).2]
    rcases settled_cases s c with h | ⟨call, h⟩ | ⟨_, _, _, _, _, _, _, _, hrecv⟩
    · rw [h]
    · rw [h]
      cases call <;> rfl
    · rw [receive_entry hrecv]
      rfl
  · intro sid k hk
    obtain ⟨it, hit, hrec⟩ := DmHistory.run_recorded (run_view hrun sid) (k := k) hk
    exact ⟨it, hit, hrec.id⟩
  · intro c k e he
    have hsame : (settled s c).blocks k = some e := he
    rcases settled_cases s c with h | ⟨call, h⟩ | ⟨sid, p, tag, reply, rest, code, hp, hrep, hrecv⟩
    · rw [h] at hsame
      exact client_named hrun hno hsame
    · rw [h] at hsame
      refine client_named hrun hno (c := c) ?_
      cases call with
      | map id address =>
          by_cases hk : k = id
          · rw [hk] at hsame
            cases (Client.setBlock_same ..).symm.trans hsame
          · exact (Client.setBlock_other _ _ hk).symm.trans hsame
      | unmap id => exact hsame
      | update id => exact hsame
      | write id => exact hsame
      | wait id => exact hsame
    -- the receipt is a step the cluster can make
    · have hs : DmCluster.Step F s (sid, .received c p tag reply (some code)) _ :=
        .received hp (run_asked hrun c sid p hp).1 hrep hrecv
      have hafter : ClusterRun F _ _ := hrun.snoc hs
      refine client_named hafter ?_ (c := c) (k := k) ?_
      · refine noTimeouts_append hno fun t ht => ?_
        rw [List.mem_singleton.mp ht]
        rfl
      · show (Function.update s.client c (settled s c) c).blocks k = some e
        rw [Function.update_self]
        exact hsame

/-- Every board that can be reached is one of a cluster. -/
theorem run_kept {atr : List (Entry (Board ι) (Deed ι))} {a : Board ι}
    (hrun : Run (DmAtomic.Step F) (board F.start) atr a) : Kept F a := by
  obtain ⟨tr, s, hrun', -, rfl, hno, -⟩ := run_realized (start_idle F) hrun
  exact board_kept hrun' hno

end Kept

/-! ## Results -/

/-- The fleet offers block `k` to client `c`: its configuration routes the block to a server
    that hosts it, and the socket of that server is open. -/
structure Offers (F : Fleet ι) (c : ι) (k : Int32) (sid : String) : Prop where
  route : (F.config c).findServerIdByBlockId k = sid
  named : sid.isEmpty = false
  socket : ∃ sock, F.sockets c sid = some sock ∧ sock.isValid = true
  hosted : k ∈ F.blocksId sid

omit [DecidableEq ι] in
theorem Kept.reaches {F : Fleet ι} {a : Board ι} (h : Kept F a) {c : ι} {k : Int32} {sid : String}
    (hoffers : Offers F c k sid) (halive : a.dead c = false) : Reaches a c k sid where
  alive := halive
  route := by rw [h.config]; exact hoffers.route
  named := hoffers.named
  socket := by rw [h.sockets]; exact hoffers.socket
  copy := h.copies c k

/-- **The contract of the calls.** In every state that a run of the cluster without timeouts
    reaches, what a call on an offered block may return, and what it then leaves, is decided by
    the block at its server and by the caller's copy: it is what the contract says, and a WAIT
    that the contract leaves open does not return. -/
theorem call_contract {F : Fleet ι} {tr : ClusterTrace ι} {s : Cluster ι}
    (hrun : ClusterRun F tr s) (hno : NoTimeouts tr) {c : ι} (halive : s.died c = none) {call : Call}
    {sid : String} (hoffers : Offers F c call.id sid) :
    ∃ it, (s.host sid).server.blocks call.id = some it ∧
      ∀ code a', DmAtomic.Step F (board s) (.called c call code) a' ↔ ∃ it' copy',
        contract (F.clientId c sid) call it (((board s).client c).blocks call.id)
            = some (code, it', copy') ∧
          a' = put (board s) sid c call.id it' copy' := by
  have hkept := board_kept hrun hno
  obtain ⟨it, hit, -⟩ := hkept.hosted sid call.id hoffers.hosted
  have hreach := hkept.reaches hoffers (c := c) (congrArg Option.isSome halive)
  exact ⟨it, hit, fun code a' => called_iff hreach hit⟩

/-- The first client's next write to block 7, after the run on two servers. -/
theorem call_contract_bothServers :
    ∃ tr s it, ClusterRun twoServers tr s ∧
      (s.host "10.0.0.1:5000").server.blocks 7 = some it ∧
      ∀ code a', DmAtomic.Step twoServers (board s) (.called false (.write 7) code) a' ↔
        ∃ it' copy', contract "10.0.0.2:40001" (.write 7) it
            (((board s).client false).blocks 7) = some (code, it', copy') ∧
          a' = put (board s) "10.0.0.1:5000" false 7 it' copy' := by
  obtain ⟨q, hq, hfacts⟩ := Option.map_eq_some_iff.mp (show
    (exec (DmCluster.next twoServers) twoServers.start bothServers).map
      (fun q => (decide (NoTimeouts q.1), q.2.died false)) = some (true, none) by
        decide +kernel)
  obtain ⟨hno, halive⟩ := Prod.mk.inj hfacts
  have hrun := run_of_exec _ (DmCluster.next_sound _) bothServers _ hq
  have hoffers : Offers twoServers false (Call.write 7).id "10.0.0.1:5000" :=
    ⟨by decide +kernel, by decide +kernel, ⟨_, rfl, rfl⟩, by decide +kernel⟩
  obtain ⟨it, hit, hstep⟩ := call_contract hrun (of_decide_eq_true hno) halive hoffers
  exact ⟨q.1, q.2, it, hrun, hit, hstep⟩

end DmContract
