import Mathlib.Logic.Function.Basic
import DistributedMemory.DmConfigProofs
import DistributedMemory.DmMessageProofs

/-!
# The client library — five calls, each around one exchange

Every `dm_block_*` function has the same shape: checks on local state that may return at
once, one request written to the socket and one reply read from it, and what the reply
makes of the local state. The model cuts each function at the exchange:

* **`send`** — the body up to `sock << req`: returned already, or the request, the server
  it goes to and the state the client waits in;
* **`receive`** — the rest of the body: what `sock >> req` delivered, or nothing (`none`:
  the stream threw), the status code and the state after it.

`perform` joins the two over any exchange, so each function is also there in one piece.
-/

namespace DmClient

open DmBlock DmConfig DmMessage

/-- A socket to a server; valid until it is closed. -/
structure SocketClient where
  isValid : Bool
  deriving DecidableEq

structure Client where
  config : Config
  sockets : String → Option SocketClient
  blocks : Int32 → Option BlockLocal

/-- A call of the library; `address` is the content of the memory handed to map. -/
inductive Call where
  | map (id : Int32) (address : Data)
  | unmap (id : Int32)
  | update (id : Int32)
  | write (id : Int32)
  | wait (id : Int32)
  deriving DecidableEq

namespace Call

def id : Call → Int32
  | .map id _ | .unmap id | .update id | .write id | .wait id => id

/-- The type of the request the call sends. -/
def type : Call → MessageType
  | .map _ _ => .map
  | .unmap _ => .unmap
  | .update _ => .update
  | .write _ => .write
  | .wait _ => .wait

/-- Only a write sends the content of the block. -/
def shallow : Call → Bool
  | .write _ => false
  | _ => true

/-- The calls that give up on an outdated block before sending anything. -/
def needsValid : Call → Bool
  | .write _ | .wait _ => true
  | _ => false

end Call

/-- Only a map sends a MAP. -/
theorem Call.eq_map {call : Call} (h : call.type = .map) :
    ∃ id address, call = .map id address := by
  cases call with
  | map id address => exact ⟨id, address, rfl⟩
  | unmap id => exact nomatch h
  | update id => exact nomatch h
  | write id => exact nomatch h
  | wait id => exact nomatch h

/-- Only a write sends a WRITE. -/
theorem Call.eq_write {call : Call} (h : call.type = .write) : ∃ id, call = .write id := by
  cases call with
  | write id => exact ⟨id, rfl⟩
  | map id address => exact nomatch h
  | unmap id => exact nomatch h
  | update id => exact nomatch h
  | wait id => exact nomatch h

/-- What the first half of a call comes to. -/
inductive Sending where
  | returned (code : Int) (c : Client)
  | sent (serverId : String) (req : Node) (c : Client)

namespace Client

/-- `blocks[id]`, set or erased. -/
def setBlock (c : Client) (id : Int32) (b : Option BlockLocal) : Client :=
  { c with blocks := Function.update c.blocks id b }

@[simp] theorem setBlock_same (c : Client) (id : Int32) (b : Option BlockLocal) :
    (c.setBlock id b).blocks id = b := Function.update_self ..

theorem setBlock_other (c : Client) {id k : Int32} (b : Option BlockLocal) (h : k ≠ id) :
    (c.setBlock id b).blocks k = c.blocks k := Function.update_of_ne h ..

/-! ## Up to the exchange -/

/-- The opening of every call but map: the block has a server, is mapped, and the socket
    is valid. `sockets[server_id]` is a null pointer for a server never connected to. -/
def openMapped (c : Client) (id : Int32) (k : String → BlockLocal → Sending) :
    Except Fault Sending :=
  let serverId := c.config.findServerIdByBlockId id
  if serverId.isEmpty then .ok (.returned (-1) c)
  else
    match c.blocks id with
    | none => .ok (.returned (-2) c)
    | some block =>
        match c.sockets serverId with
        | none => .error .nullReference
        | some sock =>
            if sock.isValid then .ok (k serverId block) else .ok (.returned (-3) c)

/-- `dm_block_map`: the block is in the local table before the request goes out. -/
def dmBlockMapSend (c : Client) (id : Int32) (address : Data) : Except Fault Sending :=
  let serverId := c.config.findServerIdByBlockId id
  if serverId.isEmpty then .ok (.returned (-1) c)
  else if (c.blocks id).isSome then .ok (.returned (-2) c)
  else
    match c.sockets serverId with
    | none => .error .nullReference
    | some sock =>
        if sock.isValid then
          let block := BlockLocal.create id address
          .ok (.sent serverId (emitBlock .map block.toBlock true) (c.setBlock id (some block)))
        else .ok (.returned (-3) c)

/-- `dm_block_unmap`. -/
def dmBlockUnmapSend (c : Client) (id : Int32) : Except Fault Sending :=
  c.openMapped id fun serverId block =>
    .sent serverId (emitBlock .unmap block.toBlock true) c

/-- `dm_block_update`. -/
def dmBlockUpdateSend (c : Client) (id : Int32) : Except Fault Sending :=
  c.openMapped id fun serverId block =>
    .sent serverId (emitBlock .update block.toBlock true) c

/-- `dm_block_write`; an invalid block is refused at once. -/
def dmBlockWriteSend (c : Client) (id : Int32) : Except Fault Sending :=
  c.openMapped id fun serverId block =>
    if !block.valid then .returned (-5) c
    else .sent serverId (emitBlock .write block.toBlock false) c

/-- `dm_block_wait`; an invalid block needs no waiting. -/
def dmBlockWaitSend (c : Client) (id : Int32) : Except Fault Sending :=
  c.openMapped id fun serverId block =>
    if !block.valid then .returned 0 c
    else .sent serverId (emitBlock .wait block.toBlock true) c

/-- `dm_block_write` without its test of the valid flag. -/
def dmBlockWriteSendAlways (c : Client) (id : Int32) : Except Fault Sending :=
  c.openMapped id fun serverId block =>
    .sent serverId (emitBlock .write block.toBlock false) c

/-- `dm_block_wait` without its test of the valid flag. -/
def dmBlockWaitSendAlways (c : Client) (id : Int32) : Except Fault Sending :=
  c.openMapped id fun serverId block =>
    .sent serverId (emitBlock .wait block.toBlock true) c

def send (c : Client) : Call → Except Fault Sending
  | .map id address => c.dmBlockMapSend id address
  | .unmap id => c.dmBlockUnmapSend id
  | .update id => c.dmBlockUpdateSend id
  | .write id => c.dmBlockWriteSend id
  | .wait id => c.dmBlockWaitSend id

/-! ## From the exchange on -/

/-- The closing every call shares: a stream that threw returns `-4`, a NACK returns `-5`
    with whatever the call does to the block then, any other reply is taken for an ACK. -/
def close (c : Client) (reply : Option Node) (onNack : Client)
    (onAck : Message → Except Fault Client) : Except Fault (Int × Client) :=
  match reply with
  | none => .ok (-4, c)
  | some n =>
      let ack := Message.ofNode n
      if ack.type = .nack then .ok (-5, onNack)
      else
        match onAck ack with
        | .error f => .error f
        | .ok c' => .ok (0, c')

/-- `dm_block_map`; `blocks[id]` of a key not in the table points to no memory. -/
def dmBlockMapReceive (c : Client) (id : Int32) (reply : Option Node) :
    Except Fault (Int × Client) :=
  c.close reply c fun ack =>
    match ack.deref with
    | .error f => .error f
    | .ok (b, _) =>
        match c.blocks id with
        | none => .error .nullReference
        | some block => .ok (c.setBlock id (some (block.assign b)))

/-- `dm_block_unmap`. -/
def dmBlockUnmapReceive (c : Client) (id : Int32) (reply : Option Node) :
    Except Fault (Int × Client) :=
  c.close reply c fun _ => .ok (c.setBlock id none)

/-- `dm_block_update`: the block is replaced when the revisions differ, and only then
    marked valid. -/
def dmBlockUpdateReceive (c : Client) (id : Int32) (reply : Option Node) :
    Except Fault (Int × Client) :=
  c.close reply c fun ack =>
    match c.blocks id with
    | none => .error .nullReference
    | some block =>
        match ack.deref with
        | .error f => .error f
        | .ok (b, _) =>
            if block.revision ≠ b.revision then
              .ok (c.setBlock id (some ((block.assign b).setValid true)))
            else .ok c

/-- `dm_block_write`: a NACK marks the block invalid, an ACK counts the revision up. -/
def dmBlockWriteReceive (c : Client) (id : Int32) (reply : Option Node) :
    Except Fault (Int × Client) :=
  match c.blocks id with
  | none => .error .nullReference
  | some block =>
      c.close reply (c.setBlock id (some (block.setValid false))) fun _ =>
        .ok (c.setBlock id (some block.addRevision))

/-- `dm_block_wait`: an ACK marks the block invalid. -/
def dmBlockWaitReceive (c : Client) (id : Int32) (reply : Option Node) :
    Except Fault (Int × Client) :=
  match c.blocks id with
  | none => .error .nullReference
  | some block =>
      c.close reply c fun _ => .ok (c.setBlock id (some (block.setValid false)))

def receive (c : Client) (call : Call) (reply : Option Node) : Except Fault (Int × Client) :=
  match call with
  | .map id _ => c.dmBlockMapReceive id reply
  | .unmap id => c.dmBlockUnmapReceive id reply
  | .update id => c.dmBlockUpdateReceive id reply
  | .write id => c.dmBlockWriteReceive id reply
  | .wait id => c.dmBlockWaitReceive id reply

/-! ## The calls in one piece -/

/-- A whole call over an exchange that maps the request sent to a server to what is read
    back. -/
def perform (c : Client) (call : Call) (exchange : String → Node → Option Node) :
    Except Fault (Int × Client) :=
  match c.send call with
  | .error f => .error f
  | .ok (.returned code c') => .ok (code, c')
  | .ok (.sent serverId req c') => c'.receive call (exchange serverId req)

/-! ## What a request says -/

/-- What holds of a call that sent its request: the entry it is about, the request made
    from it, and what changed in the local table (a map's new entry). -/
structure Requests (c : Client) (call : Call) (req : Node) (c' : Client)
    (e : BlockLocal) : Prop where
  entry : c'.blocks call.id = some e
  request : req = emitBlock call.type e.toBlock call.shallow
  others : ∀ k, k ≠ call.id → c'.blocks k = c.blocks k
  created : ∀ id address, call = .map id address →
    c.blocks id = none ∧ e = BlockLocal.create id address
  same : call.type ≠ .map → c' = c
  valid : call.needsValid = true → e.valid = true
  config : c'.config = c.config ∧ c'.sockets = c.sockets

/-- **How a map starts**: it gives up on a block without a server, one that is mapped, or a
    closed socket; it uses the null pointer of a server never connected to; or it sends its
    request, with the entry made. -/
inductive MapSends (c : Client) (id : Int32) (address : Data) : Prop where
  | unrouted (hserver : (c.config.findServerIdByBlockId id).isEmpty = true)
      (hsend : c.send (.map id address) = .ok (.returned (-1) c))
  | mapped (hserver : (c.config.findServerIdByBlockId id).isEmpty = false)
      (hentry : (c.blocks id).isSome = true)
      (hsend : c.send (.map id address) = .ok (.returned (-2) c))
  | unconnected (hfree : c.blocks id = none)
      (hsock : c.sockets (c.config.findServerIdByBlockId id) = none)
      (hsend : c.send (.map id address) = .error .nullReference)
  | closed {sock : SocketClient} (hfree : c.blocks id = none)
      (hsock : c.sockets (c.config.findServerIdByBlockId id) = some sock)
      (hclosed : sock.isValid = false)
      (hsend : c.send (.map id address) = .ok (.returned (-3) c))
  | sent {sock : SocketClient}
      (hserver : (c.config.findServerIdByBlockId id).isEmpty = false)
      (hfree : c.blocks id = none)
      (hsock : c.sockets (c.config.findServerIdByBlockId id) = some sock)
      (hvalid : sock.isValid = true)
      (hsend : c.send (.map id address) = .ok (.sent (c.config.findServerIdByBlockId id)
        (emitBlock .map (BlockLocal.create id address).toBlock true)
        (c.setBlock id (some (BlockLocal.create id address)))))

theorem mapSends (c : Client) (id : Int32) (address : Data) : MapSends c id address := by
  by_cases hserver : (c.config.findServerIdByBlockId id).isEmpty = true
  · refine .unrouted hserver ?_
    simp only [send, dmBlockMapSend, if_pos hserver]
  · cases hb : c.blocks id with
    | some e =>
        refine .mapped (Bool.eq_false_iff.mpr hserver) (by rw [hb]; rfl) ?_
        simp only [send, dmBlockMapSend, if_neg hserver, hb, Option.isSome_some, if_true]
    | none =>
        cases hsock : c.sockets (c.config.findServerIdByBlockId id) with
        | none =>
            refine .unconnected hb hsock ?_
            simp [send, dmBlockMapSend, hserver, hb, hsock]
        | some sock =>
            cases hvalid : sock.isValid with
            | false =>
                refine .closed hb hsock hvalid ?_
                simp [send, dmBlockMapSend, hserver, hb, hsock, hvalid]
            | true =>
                refine .sent (Bool.eq_false_iff.mpr hserver) hb hsock hvalid ?_
                simp [send, dmBlockMapSend, hserver, hb, hsock, hvalid]

/-- The status codes of a call. -/
def statusCodes : List Int := [0, -1, -2, -3, -4, -5]

/-- **How the opening ends**, whatever it is followed by: it gives up with a negative code
    and the client as it is, it uses the null pointer of a server never connected to, or
    it passes a mapped block on. -/
theorem openMapped_cases (c : Client) (id : Int32) :
    (∃ code, (code < 0 ∧ code ∈ statusCodes) ∧ ∀ k, c.openMapped id k = .ok (.returned code c)) ∨
      ((c.config.findServerIdByBlockId id).isEmpty = false ∧
        c.sockets (c.config.findServerIdByBlockId id) = none ∧
        ∀ k, c.openMapped id k = .error .nullReference) ∨
      ∃ e, c.blocks id = some e ∧
        ∀ k, c.openMapped id k = .ok (k (c.config.findServerIdByBlockId id) e) := by
  by_cases hserver : (c.config.findServerIdByBlockId id).isEmpty = true
  · exact Or.inl ⟨-1, by decide, fun k => if_pos hserver⟩
  · cases he : c.blocks id with
    | none =>
        refine Or.inl ⟨-2, by decide, fun k => ?_⟩
        simp only [openMapped, he, if_neg hserver]
    | some e =>
        cases hsock : c.sockets (c.config.findServerIdByBlockId id) with
        | none =>
            refine Or.inr (Or.inl ⟨Bool.eq_false_iff.mpr hserver, rfl, fun k => ?_⟩)
            simp only [openMapped, he, hsock, if_neg hserver]
        | some sock =>
            by_cases hvalid : sock.isValid = true
            · refine Or.inr (Or.inr ⟨e, rfl, fun k => ?_⟩)
              simp only [openMapped, he, hsock, if_neg hserver, if_pos hvalid]
            · refine Or.inl ⟨-3, by decide, fun k => ?_⟩
              simp only [openMapped, he, hsock, if_neg hserver, if_neg hvalid]

/-- Where a request is sent after the opening, any other continuation is reached too. -/
theorem openMapped_sent {c c' : Client} {id : Int32} {k : String → BlockLocal → Sending}
    {serverId : String} {req : Node}
    (h : c.openMapped id k = .ok (.sent serverId req c')) :
    ∃ e, c.blocks id = some e ∧
      k (c.config.findServerIdByBlockId id) e = .sent serverId req c' ∧
      ∀ k', c.openMapped id k' = .ok (k' (c.config.findServerIdByBlockId id) e) := by
  rcases c.openMapped_cases id with ⟨code, -, hret⟩ | ⟨-, -, hnull⟩ | ⟨e, he, hopen⟩
  · rw [hret] at h
    exact nomatch h
  · rw [hnull] at h
    exact nomatch h
  · rw [hopen] at h
    exact ⟨e, he, Except.ok.inj h, hopen⟩

/-- A call that opens so and returns gave up in the opening, or in what follows it. -/
theorem openMapped_returned {c c' : Client} {id : Int32} {k : String → BlockLocal → Sending}
    {code : Int} (h : c.openMapped id k = .ok (.returned code c')) :
    ((code < 0 ∧ code ∈ statusCodes) ∧ c' = c) ∨ ∃ sid e, k sid e = .returned code c' := by
  rcases c.openMapped_cases id with ⟨code', hneg, hret⟩ | ⟨-, -, hnull⟩ | ⟨e, -, hopen⟩
  · rw [hret] at h
    obtain ⟨rfl, rfl⟩ := Sending.returned.inj (Except.ok.inj h)
    exact Or.inl ⟨hneg, rfl⟩
  · rw [hnull] at h
    exact nomatch h
  · rw [hopen] at h
    exact Or.inr ⟨_, e, Except.ok.inj h⟩

/-- A write that finds its block invalid returns where it would otherwise have sent the
    block. -/
theorem write_shortCut {c c' : Client} {id : Int32} {serverId : String} {req : Node}
    {e : BlockLocal} (h : c.dmBlockWriteSendAlways id = .ok (.sent serverId req c'))
    (he : c.blocks id = some e) (hv : e.valid = false) :
    c.send (.write id) = .ok (.returned (-5) c) ∧
      req = emitBlock .write e.toBlock false ∧ c' = c := by
  obtain ⟨e', he', -, hopen⟩ := openMapped_sent h
  obtain rfl := Option.some.inj (he.symm.trans he')
  rw [dmBlockWriteSendAlways, hopen] at h
  obtain ⟨-, rfl, rfl⟩ := Sending.sent.inj (Except.ok.inj h)
  refine ⟨?_, rfl, rfl⟩
  rw [send, dmBlockWriteSend, hopen, hv]
  rfl

/-- A wait that finds its block invalid returns where it would otherwise have sent its
    request. -/
theorem wait_shortCut {c c' : Client} {id : Int32} {serverId : String} {req : Node}
    {e : BlockLocal} (h : c.dmBlockWaitSendAlways id = .ok (.sent serverId req c'))
    (he : c.blocks id = some e) (hv : e.valid = false) :
    c.send (.wait id) = .ok (.returned 0 c) ∧
      req = emitBlock .wait e.toBlock true ∧ c' = c := by
  obtain ⟨e', he', -, hopen⟩ := openMapped_sent h
  obtain rfl := Option.some.inj (he.symm.trans he')
  rw [dmBlockWaitSendAlways, hopen] at h
  obtain ⟨-, rfl, rfl⟩ := Sending.sent.inj (Except.ok.inj h)
  refine ⟨?_, rfl, rfl⟩
  rw [send, dmBlockWaitSend, hopen, hv]
  rfl

/-- A call that sends the client's state unchanged satisfies `Requests`. -/
theorem requests_of_entry {c : Client} (call : Call) {e : BlockLocal}
    (he : c.blocks call.id = some e) (hmap : call.type ≠ .map)
    (hvalid : call.needsValid = true → e.valid = true) :
    Requests c call (emitBlock call.type e.toBlock call.shallow) c e where
  entry := he
  request := rfl
  others := fun _ _ => rfl
  created := fun id address hc => absurd (by rw [hc]; rfl) hmap
  same := fun _ => rfl
  valid := hvalid
  config := ⟨rfl, rfl⟩

/-- Write and wait send only the request of a valid block. -/
theorem sent_of_valid {valid : Bool} {code : Int} {c c' c₁ : Client}
    {serverId serverId₁ : String} {req req₁ : Node}
    (h : (if !valid then Sending.returned code c else .sent serverId₁ req₁ c₁) =
      .sent serverId req c') :
    valid = true ∧ req = req₁ ∧ c' = c₁ := by
  cases valid with
  | false => cases h
  | true =>
      obtain ⟨-, rfl, rfl⟩ := Sending.sent.inj h
      exact ⟨rfl, rfl, rfl⟩

/-- With an invalid one they return, each with its own code. -/
theorem returned_of_invalid {valid : Bool} {code code' : Int} {c c' c₁ : Client}
    {serverId : String} {req : Node}
    (h : (if !valid then Sending.returned code c else .sent serverId req c₁) =
      .returned code' c') : code' = code ∧ c' = c := by
  cases valid with
  | false =>
      obtain ⟨rfl, rfl⟩ := Sending.returned.inj h
      exact ⟨rfl, rfl⟩
  | true => cases h

/-- **Every request is made from the block's local entry**, whichever call sends it. -/
theorem send_sent {c c' : Client} {call : Call} {serverId : String} {req : Node}
    (h : c.send call = .ok (.sent serverId req c')) :
    ∃ e, Requests c call req c' e := by
  cases call with
  | map id address =>
      cases mapSends c id address with
      | unrouted _ hsend => exact nomatch h.symm.trans hsend
      | mapped _ _ hsend => exact nomatch h.symm.trans hsend
      | unconnected _ _ hsend => exact nomatch h.symm.trans hsend
      | closed _ _ _ hsend => exact nomatch h.symm.trans hsend
      | sent _ hfree _ _ hsend =>
          obtain ⟨-, rfl, rfl⟩ := Sending.sent.inj (Except.ok.inj (h.symm.trans hsend))
          -- a map is the one call that makes its entry before it sends
          refine ⟨BlockLocal.create id address, ?_, rfl, ?_, ?_, ?_, ?_, rfl, rfl⟩
          · exact setBlock_same ..
          · intro k hne
            exact setBlock_other _ _ hne
          · intro id' address' heq
            obtain ⟨rfl, rfl⟩ := Call.map.inj heq
            exact ⟨hfree, rfl⟩
          · intro hne
            exact absurd rfl hne
          · intro hn
            exact nomatch hn
  | unmap id =>
      rw [send, dmBlockUnmapSend] at h
      obtain ⟨e, he, hk, -⟩ := openMapped_sent h
      obtain ⟨-, rfl, rfl⟩ := Sending.sent.inj hk
      exact ⟨e, requests_of_entry (.unmap id) he nofun nofun⟩
  | update id =>
      rw [send, dmBlockUpdateSend] at h
      obtain ⟨e, he, hk, -⟩ := openMapped_sent h
      obtain ⟨-, rfl, rfl⟩ := Sending.sent.inj hk
      exact ⟨e, requests_of_entry (.update id) he nofun nofun⟩
  | write id =>
      rw [send, dmBlockWriteSend] at h
      obtain ⟨e, he, hk, -⟩ := openMapped_sent h
      obtain ⟨hv, rfl, rfl⟩ := sent_of_valid hk
      exact ⟨e, requests_of_entry (.write id) he nofun (fun _ => hv)⟩
  | wait id =>
      rw [send, dmBlockWaitSend] at h
      obtain ⟨e, he, hk, -⟩ := openMapped_sent h
      obtain ⟨hv, rfl, rfl⟩ := sent_of_valid hk
      exact ⟨e, requests_of_entry (.wait id) he nofun (fun _ => hv)⟩

/-- A write that returns without an exchange returns a negative code. -/
theorem write_returned {c c' : Client} {id : Int32} {code : Int}
    (h : c.send (.write id) = .ok (.returned code c')) : code < 0 := by
  rw [send, dmBlockWriteSend] at h
  rcases openMapped_returned h with ⟨hneg, -⟩ | ⟨sid, e, hk⟩
  · exact hneg.1
  · rw [(returned_of_invalid hk).1]
    decide

/-- A call that returns without an exchange returns a status code and changes nothing. -/
theorem send_returned {c c' : Client} {call : Call} {code : Int}
    (h : c.send call = .ok (.returned code c')) : code ∈ statusCodes ∧ c' = c := by
  -- the code of a call that gave up at once
  have hcode : ∀ n : Int, n ∈ statusCodes →
      c.send call = .ok (.returned n c) → code ∈ statusCodes ∧ c' = c := by
    intro n hn hsend
    obtain ⟨rfl, rfl⟩ := Sending.returned.inj (Except.ok.inj (h.symm.trans hsend))
    exact ⟨hn, rfl⟩
  cases call with
  | map id address =>
      cases mapSends c id address with
      | unrouted _ hsend => exact hcode (-1) (by decide) hsend
      | mapped _ _ hsend => exact hcode (-2) (by decide) hsend
      | unconnected _ _ hsend => exact nomatch h.symm.trans hsend
      | closed _ _ _ hsend => exact hcode (-3) (by decide) hsend
      | sent _ _ _ _ hsend => exact nomatch h.symm.trans hsend
  | unmap id =>
      rw [send, dmBlockUnmapSend] at h
      rcases openMapped_returned h with ⟨⟨-, hmem⟩, hsame⟩ | ⟨sid, e, hk⟩
      · exact ⟨hmem, hsame⟩
      · exact nomatch hk
  | update id =>
      rw [send, dmBlockUpdateSend] at h
      rcases openMapped_returned h with ⟨⟨-, hmem⟩, hsame⟩ | ⟨sid, e, hk⟩
      · exact ⟨hmem, hsame⟩
      · exact nomatch hk
  -- the two calls that may give up on an invalid block
  | write id =>
      rw [send, dmBlockWriteSend] at h
      rcases openMapped_returned h with ⟨⟨-, hmem⟩, hsame⟩ | ⟨sid, e, hk⟩
      · exact ⟨hmem, hsame⟩
      · obtain ⟨rfl, rfl⟩ := returned_of_invalid hk
        exact ⟨by decide, rfl⟩
  | wait id =>
      rw [send, dmBlockWaitSend] at h
      rcases openMapped_returned h with ⟨⟨-, hmem⟩, hsame⟩ | ⟨sid, e, hk⟩
      · exact ⟨hmem, hsame⟩
      · obtain ⟨rfl, rfl⟩ := returned_of_invalid hk
        exact ⟨by decide, rfl⟩

/-- **Only the null pointer of a server never connected to keeps a call from returning or
    sending.** -/
theorem send_error {c : Client} {call : Call} {f : Fault} (h : c.send call = .error f) :
    (c.config.findServerIdByBlockId call.id).isEmpty = false ∧
      c.sockets (c.config.findServerIdByBlockId call.id) = none := by
  have hopen : ∀ id k, c.openMapped id k = .error f →
      (c.config.findServerIdByBlockId id).isEmpty = false ∧
        c.sockets (c.config.findServerIdByBlockId id) = none := by
    intro id k hk
    rcases c.openMapped_cases id with ⟨code, -, hret⟩ | ⟨hserver, hsock, -⟩ | ⟨e, -, hpass⟩
    · exact nomatch hk.symm.trans (hret k)
    · exact ⟨hserver, hsock⟩
    · exact nomatch hk.symm.trans (hpass k)
  cases call with
  | map id address =>
      cases mapSends c id address with
      | unrouted _ hsend => exact nomatch h.symm.trans hsend
      | mapped _ _ hsend => exact nomatch h.symm.trans hsend
      | unconnected _ hsock hsend =>
          refine ⟨Bool.eq_false_iff.mpr fun hempty => ?_, hsock⟩
          have hret : c.send (.map id address) = .ok (.returned (-1) c) := if_pos hempty
          exact nomatch h.symm.trans hret
      | closed _ _ _ hsend => exact nomatch h.symm.trans hsend
      | sent _ _ _ _ hsend => exact nomatch h.symm.trans hsend
  | unmap id =>
      rw [send, dmBlockUnmapSend] at h
      exact hopen id _ h
  | update id =>
      rw [send, dmBlockUpdateSend] at h
      exact hopen id _ h
  | write id =>
      rw [send, dmBlockWriteSend] at h
      exact hopen id _ h
  | wait id =>
      rw [send, dmBlockWaitSend] at h
      exact hopen id _ h

/-! ## What a reply does -/

end Client

namespace Call

/-- The calls that use the block of the reply. -/
def usesBlock : Call → Bool
  | .map _ _ | .update _ => true
  | _ => false

/-- What a NACK makes of the call's entry. -/
def onNack : Call → BlockLocal → BlockLocal
  | .write _, e => e.setValid false
  | _, e => e

/-- What any other reply, carrying the block `b`, makes of the call's entry. -/
def onAck : Call → BlockLocal → BlockServer → Option BlockLocal
  | .map _ _, e, b => some (e.assign b)
  | .unmap _, _, _ => none
  | .update _, e, b =>
      some (if e.revision ≠ b.revision then (e.assign b).setValid true else e)
  | .write _, e, _ => some e.addRevision
  | .wait _, e, _ => some (e.setValid false)

end Call

namespace Client

/-- Setting an entry to what it is changes nothing. -/
theorem setBlock_eq_self {c : Client} {id : Int32} {b : Option BlockLocal}
    (h : c.blocks id = b) : c.setBlock id b = c := by
  subst h
  rw [setBlock, Function.update_eq_self]

/-- A stream that threw ends the call with `-4` and leaves the client alone. -/
theorem receive_none {c : Client} {call : Call} {e : BlockLocal}
    (he : c.blocks call.id = some e) : c.receive call none = .ok (-4, c) := by
  cases call with
  | map id address => rfl
  | unmap id => rfl
  | update id => rfl
  | write id =>
      rw [receive, dmBlockWriteReceive, show c.blocks id = some e from he]
      rfl
  | wait id =>
      rw [receive, dmBlockWaitReceive, show c.blocks id = some e from he]
      rfl

/-- A NACK ends every call with `-5`. -/
theorem receive_nack {c : Client} {call : Call} {e : BlockLocal} {n : Node}
    (he : c.blocks call.id = some e) (hn : (Message.ofNode n).type = .nack) :
    c.receive call (some n) = .ok (-5, c.setBlock call.id (some (call.onNack e))) := by
  have hself : c = c.setBlock call.id (some e) := (setBlock_eq_self he).symm
  cases call with
  | map id address =>
      rw [receive, dmBlockMapReceive, close]
      simp only [hn, if_true]
      exact congrArg (fun s => Except.ok ((-5 : Int), s)) hself
  | unmap id =>
      rw [receive, dmBlockUnmapReceive, close]
      simp only [hn, if_true]
      exact congrArg (fun s => Except.ok ((-5 : Int), s)) hself
  | update id =>
      rw [receive, dmBlockUpdateReceive, close]
      simp only [hn, if_true]
      exact congrArg (fun s => Except.ok ((-5 : Int), s)) hself
  | write id =>
      rw [receive, dmBlockWriteReceive, show c.blocks id = some e from he]
      simp only [close, hn, if_true]
      rfl
  | wait id =>
      rw [receive, dmBlockWaitReceive, show c.blocks id = some e from he]
      simp only [close, hn, if_true]
      exact congrArg (fun s => Except.ok ((-5 : Int), s)) hself

/-- Any other reply that carries the block the call uses ends it with `0`. -/
theorem receive_ack {c : Client} {call : Call} {e : BlockLocal} {n : Node}
    {b : BlockServer} {m : Message} (he : c.blocks call.id = some e)
    (hn : (Message.ofNode n).type ≠ .nack)
    (hb : call.usesBlock = true → (Message.ofNode n).deref = .ok (b, m)) :
    c.receive call (some n) = .ok (0, c.setBlock call.id (call.onAck e b)) := by
  cases call with
  | map id address =>
      rw [receive, dmBlockMapReceive, close]
      simp only [hn, if_false, hb rfl, show c.blocks id = some e from he]
      rfl
  | unmap id =>
      rw [receive, dmBlockUnmapReceive, close]
      simp only [hn, if_false]
      rfl
  | update id =>
      have hid : c.blocks id = some e := he
      rw [receive, dmBlockUpdateReceive, close]
      simp only [hn, if_false, hid, hb rfl]
      by_cases hr : e.revision ≠ b.revision
      · rw [if_pos hr]
        show _ = Except.ok (0, c.setBlock id (some (if e.revision ≠ b.revision then _ else e)))
        rw [if_pos hr]
      · rw [if_neg hr]
        show _ = Except.ok (0, c.setBlock id (some (if e.revision ≠ b.revision then _ else e)))
        rw [if_neg hr, setBlock_eq_self hid]
  | write id =>
      rw [receive, dmBlockWriteReceive, show c.blocks id = some e from he]
      simp only [close, hn, if_false]
      rfl
  | wait id =>
      rw [receive, dmBlockWaitReceive, show c.blocks id = some e from he]
      simp only [close, hn, if_false]
      rfl

/-- A call that uses the block of its reply ends only when there is one. -/
theorem deref_of_receive {c : Client} {call : Call} {n : Node} {r : Int × Client}
    (h : c.receive call (some n) = .ok r) (hn : (Message.ofNode n).type ≠ .nack)
    (hu : call.usesBlock = true) : ∃ b m, (Message.ofNode n).deref = .ok (b, m) := by
  cases hd : (Message.ofNode n).deref with
  | ok p => exact ⟨p.1, p.2, rfl⟩
  | error f =>
      exfalso
      cases call with
      | map id address =>
          rw [receive, dmBlockMapReceive, close] at h
          simp [hn, hd] at h
      | update id =>
          rw [receive, dmBlockUpdateReceive, close] at h
          simp only [hn, if_false, hd] at h
          cases hb : c.blocks id with
          | none =>
              simp only [hb] at h
              exact nomatch h
          | some block =>
              simp only [hb] at h
              exact nomatch h
      | unmap id => exact nomatch hu
      | write id => exact nomatch hu
      | wait id => exact nomatch hu

/-- **What a reply does**, read off a call that ended: `-5` on a NACK, `0` on anything
    else, and only the call's own entry changes. -/
theorem receive_cases {c c' : Client} {call : Call} {e : BlockLocal} {n : Node} {code : Int}
    (he : c.blocks call.id = some e) (h : c.receive call (some n) = .ok (code, c')) :
    ((Message.ofNode n).type = .nack ∧ code = -5 ∧
        c' = c.setBlock call.id (some (call.onNack e))) ∨
      ((Message.ofNode n).type ≠ .nack ∧ code = 0 ∧
        ∃ b, (call.usesBlock = true → ∃ m, (Message.ofNode n).deref = .ok (b, m)) ∧
          c' = c.setBlock call.id (call.onAck e b)) := by
  by_cases hn : (Message.ofNode n).type = .nack
  · rw [receive_nack he hn] at h
    obtain ⟨rfl, rfl⟩ := Prod.mk.inj (Except.ok.inj h)
    exact Or.inl ⟨hn, rfl, rfl⟩
  · refine Or.inr ⟨hn, ?_⟩
    -- a call that uses the block ended, so there was one
    cases hu : call.usesBlock with
    | true =>
        obtain ⟨b, m, hd⟩ := deref_of_receive h hn hu
        rw [receive_ack he hn (fun _ => hd)] at h
        obtain ⟨rfl, rfl⟩ := Prod.mk.inj (Except.ok.inj h)
        exact ⟨rfl, b, fun _ => ⟨m, hd⟩, rfl⟩
    | false =>
        rw [receive_ack (b := BlockServer.create 0) (m := Message.ofNode n) he hn
          (fun ht => by rw [hu] at ht; exact nomatch ht)] at h
        obtain ⟨rfl, rfl⟩ := Prod.mk.inj (Except.ok.inj h)
        exact ⟨rfl, BlockServer.create 0, fun ht => Bool.noConfusion ht, rfl⟩

end Client

end DmClient
