import Mathlib.Data.List.Induction
import Mathlib.Data.List.Nodup
import Mathlib.Logic.Function.Basic
import DistributedMemory.DmMessageProofs

/-!
# The server — one critical section of `client_handler`

Every connection is served by a thread running `client_handler`: read a message, act on
the block table under the mutex, send one reply. `clientHandler` is one pass from the
message to the release of the mutex. It ends in a `Section`: the tables after it, the
condition it broadcast on, and whether the thread goes on to send a reply or sleeps in
`pthread_cond_wait`.

**`clientHandler_cases`** says once what a critical section can do: one constructor of
`Served` per way through the `switch`, with the guards that lead there. The invariants of
the server are derived from it and never unfold the handler again.

Logging is left out; it reads the state and changes none of it.
-/

namespace DmServer

open DmBlock DmMessage

/-- The block table, and the keys of the table of conditions. -/
structure Server where
  blocks : Int32 → Option BlockServer
  blocksWait : List Int32

/-- What the thread does after the critical section: send a reply, or sleep on the
    condition of a block until it is woken. -/
inductive Outcome where
  | send (ack : Node)
  | wait (blockId : Int32) (msg : Message)

/-- What one critical section leaves behind. -/
structure Section where
  server : Server
  signalled : Option Int32
  outcome : Outcome

namespace Server

/-- The iterator's block assigned to. -/
def setBlock (s : Server) (id : Int32) (b : BlockServer) : Server :=
  { s with blocks := Function.update s.blocks id (some b) }

/-- `blocks_wait[id]`: the operator makes the entry if there is none. -/
def condition (s : Server) (id : Int32) : Server :=
  { s with blocksWait := s.blocksWait.insert id }

@[simp] theorem setBlock_same (s : Server) (id : Int32) (b : BlockServer) :
    (s.setBlock id b).blocks id = some b := Function.update_self ..

theorem setBlock_other (s : Server) {id k : Int32} (b : BlockServer) (h : k ≠ id) :
    (s.setBlock id b).blocks k = s.blocks k := Function.update_of_ne h ..

/-- Assigning a block to itself changes nothing. -/
theorem setBlock_eq_self {s : Server} {id : Int32} {b : BlockServer}
    (h : s.blocks id = some b) : s.setBlock id b = s := by
  rw [setBlock, ← h, Function.update_eq_self]

@[simp] theorem condition_blocks (s : Server) (id : Int32) :
    (s.condition id).blocks = s.blocks := rfl

/-! ## Start -/

/-- One turn of the constructor's loop: `insert` keeps a block that is there already. -/
def addBlock (s : Server) (id : Int32) : Server :=
  let b := (BlockServer.create id).copy
  let s := if (s.blocks id).isSome then s else s.setBlock id b
  s.condition id

/-- `Server::Server`, for the block ids the configuration lists. -/
def create (blocksId : List Int32) : Server :=
  blocksId.foldl addBlock ⟨fun _ => none, []⟩

theorem addBlock_blocks (s : Server) (id k : Int32) :
    (s.addBlock id).blocks k =
      if k = id ∧ s.blocks id = none then some (BlockServer.create id) else s.blocks k := by
  rw [addBlock]
  cases hb : s.blocks id with
  | some b => simp
  | none =>
      by_cases hk : k = id
      · subst hk
        simp [BlockServer.copy, BlockServer.create]
      · simp [hk, setBlock_other]

/-- **A new server hosts exactly the listed blocks**, each under its own id, at revision 0
    and zeroed. -/
theorem create_blocks (blocksId : List Int32) (k : Int32) :
    (create blocksId).blocks k =
      if k ∈ blocksId then some (BlockServer.create k) else none := by
  rw [create]
  induction blocksId using List.reverseRecOn with
  | nil => rfl
  | append_singleton ids id ih =>
      rw [List.foldl_append, List.foldl_cons, List.foldl_nil, addBlock_blocks]
      by_cases hk : k = id
      · subst hk
        rw [ih]
        -- an id listed twice is inserted once
        by_cases hin : k ∈ ids
        · simp [hin]
        · simp [hin]
      · rw [if_neg (fun h => hk h.1), ih]
        simp [hk]

/-! ## `client_handler` -/

def handleMap (s : Server) (clientId : String) (blockId : Int32) : Section :=
  match s.blocks blockId with
  | none => ⟨s, none, .send (emit .nack)⟩
  | some it =>
      let res := it.map clientId
      let s := s.setBlock blockId res.2
      if res.1 = 0 then ⟨s, none, .send (emitBlock .ack res.2.toBlock false)⟩
      else ⟨s, none, .send (emit .nack)⟩

def handleUnmap (s : Server) (clientId : String) (blockId : Int32) : Section :=
  match s.blocks blockId with
  | none => ⟨s, none, .send (emit .nack)⟩
  | some it =>
      let res := it.unmap clientId
      let s := s.setBlock blockId res.2
      -- `unmap` fails for a client that is not on the list
      if res.1 = 0 then ⟨s, none, .send (emit .ack)⟩
      else ⟨s, none, .send (emit .nack)⟩

/-- The entire block goes back only to a client whose revision is below the server's. -/
def handleUpdate (s : Server) (blockId : Int32) (msg : Message) : Except Fault Section :=
  match s.blocks blockId with
  | none => .ok ⟨s, none, .send (emit .nack)⟩
  | some it =>
      match msg.deref with
      | .error f => .error f
      | .ok (b, _) =>
          if b.revision < it.revision then
            .ok ⟨s, none, .send (emitBlock .ack it.toBlock false)⟩
          else .ok ⟨s, none, .send (emitBlock .ack it.toBlock true)⟩

/-- Accepted when the revisions agree; the broadcast is made either way. -/
def handleWrite (s : Server) (blockId : Int32) (msg : Message) : Except Fault Section :=
  match s.blocks blockId with
  -- the broadcast names a condition also for a block that is not hosted
  | none => .ok ⟨s.condition blockId, some blockId, .send (emit .nack)⟩
  | some it =>
      match msg.deref with
      | .error f => .error f
      | .ok (b, _) =>
          if it.revision = b.revision then
            .ok ⟨(s.setBlock blockId (it.assign b).addRevision).condition blockId,
              some blockId, .send (emit .ack)⟩
          else .ok ⟨s.condition blockId, some blockId, .send (emit .nack)⟩

/-- The loop around `pthread_cond_wait`, up to where it sleeps or leaves. -/
def handleWait (s : Server) (blockId : Int32) (msg : Message) : Except Fault Section :=
  match s.blocks blockId with
  -- the ACK is the reply from the start, the lookup does not change it
  | none => .ok ⟨s, none, .send (emit .ack)⟩
  | some it =>
      match msg.deref with
      | .error f => .error f
      | .ok (b, msg) =>
          if it.revision = b.revision then
            .ok ⟨s.condition blockId, none, .wait blockId msg⟩
          else .ok ⟨s, none, .send (emit .ack)⟩

/-- One pass of the loop of `client_handler`, from the message to the unlock. The
    `block_id` is read off the message before the mutex is taken. -/
def clientHandler (s : Server) (clientId : String) (msg : Message) : Except Fault Section :=
  match msg.type with
  | .map =>
      match msg.deref with
      | .error f => .error f
      | .ok (b, _) => .ok (s.handleMap clientId b.id)
  | .unmap =>
      match msg.deref with
      | .error f => .error f
      | .ok (b, _) => .ok (s.handleUnmap clientId b.id)
  | .update =>
      match msg.deref with
      | .error f => .error f
      | .ok (b, msg) => s.handleUpdate b.id msg
  | .write =>
      match msg.deref with
      | .error f => .error f
      | .ok (b, msg) => s.handleWrite b.id msg
  | .wait =>
      match msg.deref with
      | .error f => .error f
      | .ok (b, msg) => s.handleWait b.id msg
  -- ACK, NACK and whatever has no type
  | _ => .ok ⟨s, none, .send (emit .nack)⟩

end Server

/-! ## What a critical section can do -/

/-- The ways through the `switch` for a request of a known type whose block is `b`; `m` is
    the message with that block cached. -/
inductive Served (s : Server) (clientId : String) (b : BlockServer) (m : Message) :
    MessageType → Section → Prop where
  | unhosted {t : MessageType} (ht : t = .map ∨ t = .unmap ∨ t = .update)
      (hb : s.blocks b.id = none) :
      Served s clientId b m t ⟨s, none, .send (emit .nack)⟩
  | mapped {it : BlockServer} (hit : s.blocks b.id = some it)
      (hnew : clientId ∉ it.mappedClients) :
      Served s clientId b m .map
        ⟨s.setBlock b.id { it with mappedClients := it.mappedClients ++ [clientId] }, none,
          .send (emitBlock .ack it.toBlock false)⟩
  | mapRefused {it : BlockServer} (hit : s.blocks b.id = some it)
      (hold : clientId ∈ it.mappedClients) :
      Served s clientId b m .map ⟨s, none, .send (emit .nack)⟩
  | unmapped {it : BlockServer} (hit : s.blocks b.id = some it)
      (hold : clientId ∈ it.mappedClients) :
      Served s clientId b m .unmap
        ⟨s.setBlock b.id { it with mappedClients := it.mappedClients.erase clientId }, none,
          .send (emit .ack)⟩
  | unmapRefused {it : BlockServer} (hit : s.blocks b.id = some it)
      (hnew : clientId ∉ it.mappedClients) :
      Served s clientId b m .unmap ⟨s, none, .send (emit .nack)⟩
  | entire {it : BlockServer} (hit : s.blocks b.id = some it)
      (hlt : b.revision < it.revision) :
      Served s clientId b m .update ⟨s, none, .send (emitBlock .ack it.toBlock false)⟩
  | shallow {it : BlockServer} (hit : s.blocks b.id = some it)
      (hnlt : ¬ b.revision < it.revision) :
      Served s clientId b m .update ⟨s, none, .send (emitBlock .ack it.toBlock true)⟩
  | writeUnhosted (hb : s.blocks b.id = none) :
      Served s clientId b m .write
        ⟨s.condition b.id, some b.id, .send (emit .nack)⟩
  | accepted {it : BlockServer} (hit : s.blocks b.id = some it)
      (heq : it.revision = b.revision) :
      Served s clientId b m .write
        ⟨(s.setBlock b.id (it.assign b).addRevision).condition b.id, some b.id,
          .send (emit .ack)⟩
  | writeRefused {it : BlockServer} (hit : s.blocks b.id = some it)
      (hne : it.revision ≠ b.revision) :
      Served s clientId b m .write
        ⟨s.condition b.id, some b.id, .send (emit .nack)⟩
  | waitUnhosted (hb : s.blocks b.id = none) :
      Served s clientId b m .wait ⟨s, none, .send (emit .ack)⟩
  | outdated {it : BlockServer} (hit : s.blocks b.id = some it)
      (hne : it.revision ≠ b.revision) :
      Served s clientId b m .wait ⟨s, none, .send (emit .ack)⟩
  | sleeps {it : BlockServer} (hit : s.blocks b.id = some it)
      (heq : it.revision = b.revision) :
      Served s clientId b m .wait ⟨s.condition b.id, none, .wait b.id m⟩

namespace Server

/-- The map branch. -/
theorem handleMap_served (s : Server) (clientId : String) (b : BlockServer) (m : Message) :
    Served s clientId b m .map (s.handleMap clientId b.id) := by
  rw [handleMap]
  cases hit : s.blocks b.id with
  | none => exact Served.unhosted (Or.inl rfl) hit
  | some it =>
      by_cases hm : clientId ∈ it.mappedClients
      -- a refused client leaves the block as it is
      · simp only [BlockServer.map, if_pos hm, setBlock_eq_self hit]
        exact Served.mapRefused hit hm
      · simp only [BlockServer.map, if_neg hm]
        exact Served.mapped hit hm

/-- The unmap branch. -/
theorem handleUnmap_served (s : Server) (clientId : String) (b : BlockServer)
    (m : Message) : Served s clientId b m .unmap (s.handleUnmap clientId b.id) := by
  rw [handleUnmap]
  cases hit : s.blocks b.id with
  | none => exact Served.unhosted (Or.inr (Or.inl rfl)) hit
  | some it =>
      by_cases hm : clientId ∈ it.mappedClients
      · simp only [BlockServer.unmap, if_pos hm]
        exact Served.unmapped hit hm
      · simp only [BlockServer.unmap, if_neg hm, setBlock_eq_self hit]
        exact Served.unmapRefused hit hm

/-- The update branch. -/
theorem handleUpdate_served (s : Server) (clientId : String) {b : BlockServer}
    {m : Message} (hm : m.deref = .ok (b, m)) :
    ∃ sec, s.handleUpdate b.id m = .ok sec ∧ Served s clientId b m .update sec := by
  rw [handleUpdate]
  cases hit : s.blocks b.id with
  | none => exact ⟨_, rfl, Served.unhosted (Or.inr (Or.inr rfl)) hit⟩
  | some it =>
      simp only [hm]
      by_cases hlt : b.revision < it.revision
      · rw [if_pos hlt]
        exact ⟨_, rfl, Served.entire hit hlt⟩
      · rw [if_neg hlt]
        exact ⟨_, rfl, Served.shallow hit hlt⟩

/-- The write branch. -/
theorem handleWrite_served (s : Server) (clientId : String) {b : BlockServer}
    {m : Message} (hm : m.deref = .ok (b, m)) :
    ∃ sec, s.handleWrite b.id m = .ok sec ∧ Served s clientId b m .write sec := by
  rw [handleWrite]
  cases hit : s.blocks b.id with
  | none => exact ⟨_, rfl, Served.writeUnhosted hit⟩
  | some it =>
      simp only [hm]
      by_cases heq : it.revision = b.revision
      · rw [if_pos heq]
        exact ⟨_, rfl, Served.accepted hit heq⟩
      · rw [if_neg heq]
        exact ⟨_, rfl, Served.writeRefused hit heq⟩

/-- The wait branch, also when a woken thread takes it again. -/
theorem handleWait_served (s : Server) (clientId : String) {b : BlockServer}
    {m : Message} (hm : m.deref = .ok (b, m)) :
    ∃ sec, s.handleWait b.id m = .ok sec ∧ Served s clientId b m .wait sec := by
  rw [handleWait]
  cases hit : s.blocks b.id with
  | none => exact ⟨_, rfl, Served.waitUnhosted hit⟩
  | some it =>
      simp only [hm]
      by_cases heq : it.revision = b.revision
      · rw [if_pos heq]
        exact ⟨_, rfl, Served.sleeps hit heq⟩
      · rw [if_neg heq]
        exact ⟨_, rfl, Served.outdated hit heq⟩

/-- **A request whose block decodes is served**, in one of the ways of `Served`. -/
theorem clientHandler_served (s : Server) (clientId : String) {msg m : Message}
    {b : BlockServer} (ht : msg.type.isRequest = true) (hm : msg.deref = .ok (b, m)) :
    ∃ sec, s.clientHandler clientId msg = .ok sec ∧
      Served s clientId b m msg.type sec := by
  have hagain := Message.deref_again hm
  rw [clientHandler]
  cases htype : msg.type with
  | map =>
      simp only [hm]
      exact ⟨_, rfl, handleMap_served s clientId b m⟩
  | unmap =>
      simp only [hm]
      exact ⟨_, rfl, handleUnmap_served s clientId b m⟩
  | update =>
      simp only [hm]
      exact handleUpdate_served s clientId hagain
  | write =>
      simp only [hm]
      exact handleWrite_served s clientId hagain
  | wait =>
      simp only [hm]
      exact handleWait_served s clientId hagain
  | ack => rw [htype] at ht; exact nomatch ht
  | nack => rw [htype] at ht; exact nomatch ht
  | undef => rw [htype] at ht; exact nomatch ht

/-- A message of any other type is answered with a NACK and nothing else happens. -/
theorem clientHandler_unknown {s : Server} {clientId : String} {msg : Message}
    (ht : msg.type.isRequest = false) :
    s.clientHandler clientId msg = .ok ⟨s, none, .send (emit .nack)⟩ := by
  rw [clientHandler]
  cases htype : msg.type with
  | ack => rfl
  | nack => rfl
  | undef => rfl
  | map => rw [htype] at ht; exact nomatch ht
  | unmap => rw [htype] at ht; exact nomatch ht
  | update => rw [htype] at ht; exact nomatch ht
  | write => rw [htype] at ht; exact nomatch ht
  | wait => rw [htype] at ht; exact nomatch ht

/-- A request whose block does not decode faults. -/
theorem clientHandler_fault {s : Server} {clientId : String} {msg : Message} {f : Fault}
    (ht : msg.type.isRequest = true) (hm : msg.deref = .error f) :
    s.clientHandler clientId msg = .error f := by
  rw [clientHandler]
  cases htype : msg.type with
  | map => simp only [hm]
  | unmap => simp only [hm]
  | update => simp only [hm]
  | write => simp only [hm]
  | wait => simp only [hm]
  | ack => rw [htype] at ht; exact nomatch ht
  | nack => rw [htype] at ht; exact nomatch ht
  | undef => rw [htype] at ht; exact nomatch ht

/-- **What a critical section can do.** -/
theorem clientHandler_cases {s : Server} {clientId : String} {msg : Message}
    {sec : Section} (h : s.clientHandler clientId msg = .ok sec) :
    (msg.type.isRequest = false ∧ sec = ⟨s, none, .send (emit .nack)⟩) ∨
      ∃ b m, msg.deref = .ok (b, m) ∧ Served s clientId b m msg.type sec := by
  cases ht : msg.type.isRequest with
  | false =>
      rw [clientHandler_unknown ht] at h
      exact Or.inl ⟨rfl, (Except.ok.inj h).symm⟩
  | true =>
      cases hm : msg.deref with
      | error f =>
          rw [clientHandler_fault ht hm] at h
          exact nomatch h
      | ok p =>
          obtain ⟨sec', hsec, hserved⟩ :=
            clientHandler_served s clientId ht hm
          rw [hsec] at h
          rw [← Except.ok.inj h]
          exact Or.inr ⟨p.1, p.2, rfl, hserved⟩

end Server

/-! ## Consequences for one block -/

/-- The request is a write that names the block `k` and carries the revision of the
    server's block `it`. -/
structure Accepts (it : BlockServer) (t : MessageType) (b : BlockServer) (k : Int32) :
    Prop where
  type : t = .write
  names : b.id = k
  revision : it.revision = b.revision

/-- The request maps or unmaps block `k`. -/
def Remaps (t : MessageType) (b : BlockServer) (k : Int32) : Prop :=
  b.id = k ∧ (t = .map ∨ t = .unmap)

/-- Id, revision and content are the same; only the mapped clients may differ. -/
structure SameContent (it it' : BlockServer) : Prop where
  id : it'.id = it.id
  revision : it'.revision = it.revision
  data : it'.data = it.data

theorem SameContent.refl (it : BlockServer) : SameContent it it := ⟨rfl, rfl, rfl⟩

namespace Served

variable {s : Server} {clientId : String} {b : BlockServer} {m : Message} {t : MessageType}
  {sec : Section}

/-- **Only an accepted write changes a block's id, revision or content**, and it changes
    them to the message's, one revision up. -/
theorem content (h : Served s clientId b m t sec) {k : Int32} {it : BlockServer}
    (hk : s.blocks k = some it) :
    ∃ it', sec.server.blocks k = some it' ∧
      (Accepts it t b k → it' = (it.assign b).addRevision) ∧
      (¬ Accepts it t b k → SameContent it it') := by
  -- every way but one leaves block `k` alone, or its mapped clients only
  have hsame : ∀ {s' : Server}, s'.blocks k = some it → ¬ Accepts it t b k →
      ∃ it', s'.blocks k = some it' ∧ (Accepts it t b k → it' = (it.assign b).addRevision) ∧
        (¬ Accepts it t b k → SameContent it it') :=
    fun hs' hna => ⟨it, hs', fun ha => absurd ha hna, fun _ => SameContent.refl it⟩
  have hclients : ∀ {it₀ : BlockServer} {cs : List String}, s.blocks b.id = some it₀ →
      t ≠ .write →
      ∃ it', (s.setBlock b.id { it₀ with mappedClients := cs }).blocks k = some it' ∧
        (Accepts it t b k → it' = (it.assign b).addRevision) ∧
        (¬ Accepts it t b k → SameContent it it') := by
    intro it₀ cs hit ht
    by_cases hkb : k = b.id
    · subst hkb
      obtain rfl : it = it₀ := Option.some.inj (hk.symm.trans hit)
      exact ⟨_, Server.setBlock_same .., fun ha => absurd ha.type ht,
        fun _ => ⟨rfl, rfl, rfl⟩⟩
    · exact hsame (by rw [Server.setBlock_other _ _ hkb]; exact hk) (fun ha => ht ha.type)
  cases h with
  | unhosted ht hb =>
      refine hsame hk ?_
      intro ha
      rcases ht with ht | ht | ht <;> exact absurd (ht.symm.trans ha.type) (by decide)
  | mapped hit hnew => exact hclients hit (by decide)
  | mapRefused hit hold => exact hsame hk (fun ha => nomatch ha.type)
  | unmapped hit hold => exact hclients hit (by decide)
  | unmapRefused hit hnew => exact hsame hk (fun ha => nomatch ha.type)
  | entire hit hlt => exact hsame hk (fun ha => nomatch ha.type)
  | shallow hit hnlt => exact hsame hk (fun ha => nomatch ha.type)
  | writeUnhosted hb =>
      refine hsame hk ?_
      intro ha
      rw [← ha.names, hb] at hk
      exact nomatch hk
  -- the one way that changes the block
  | @accepted it₀ hit heq =>
      by_cases hkb : k = b.id
      · subst hkb
        obtain rfl : it = it₀ := Option.some.inj (hk.symm.trans hit)
        exact ⟨_, Server.setBlock_same .., fun _ => rfl,
          fun hna => absurd ⟨rfl, rfl, heq⟩ hna⟩
      · refine hsame ?_ (fun ha => hkb ha.names.symm)
        show (s.setBlock b.id _).blocks k = some it
        rw [Server.setBlock_other _ _ hkb]
        exact hk
  | @writeRefused it₀ hit hne =>
      refine hsame hk ?_
      intro ha
      obtain rfl : it = it₀ := by
        rw [ha.names] at hit
        exact Option.some.inj (hk.symm.trans hit)
      exact hne ha.revision
  | waitUnhosted hb => exact hsame hk (fun ha => nomatch ha.type)
  | outdated hit hne => exact hsame hk (fun ha => nomatch ha.type)
  | sleeps hit heq => exact hsame hk (fun ha => nomatch ha.type)

/-- No request makes a block or removes one. -/
theorem unhosted_of_unhosted (h : Served s clientId b m t sec) {k : Int32}
    (hk : s.blocks k = none) : sec.server.blocks k = none := by
  have hset : ∀ {it₀ it₁ : BlockServer}, s.blocks b.id = some it₀ →
      (s.setBlock b.id it₁).blocks k = none := by
    intro it₀ it₁ hit
    have hkb : k ≠ b.id := by
      intro heq
      rw [heq, hit] at hk
      exact nomatch hk
    rw [Server.setBlock_other _ _ hkb]
    exact hk
  -- three ways set a block, and all three found it in the table
  cases h with
  | mapped hit _ => exact hset hit
  | unmapped hit _ => exact hset hit
  | accepted hit _ => exact hset hit
  | unhosted _ _ => exact hk
  | mapRefused _ _ => exact hk
  | unmapRefused _ _ => exact hk
  | entire _ _ => exact hk
  | shallow _ _ => exact hk
  | writeUnhosted _ => exact hk
  | writeRefused _ _ => exact hk
  | waitUnhosted _ => exact hk
  | outdated _ _ => exact hk
  | sleeps _ _ => exact hk

/-- **A revision changes only in a section that broadcasts on the block's condition and
    sends an ACK.** -/
theorem signalled_of_accepts (h : Served s clientId b m t sec) {k : Int32}
    {it : BlockServer} (hk : s.blocks k = some it) (ha : Accepts it t b k) :
    sec.signalled = some k ∧ sec.outcome = .send (emit .ack) := by
  obtain ⟨rfl, rfl, hrev⟩ := ha
  cases h with
  | unhosted ht _ => rcases ht with ht | ht | ht <;> exact nomatch ht
  | writeUnhosted hb =>
      rw [hb] at hk
      exact nomatch hk
  | accepted hit heq => exact ⟨rfl, rfl⟩
  | writeRefused hit hne =>
      exact absurd hrev (by rw [Option.some.inj (hk.symm.trans hit)]; exact hne)

/-- A thread goes to sleep only for a WAIT with the revision the hosted block has; the
    block table stays as it is. -/
theorem of_wait (h : Served s clientId b m t sec) {k : Int32} {msg : Message}
    (ho : sec.outcome = .wait k msg) :
    t = .wait ∧ k = b.id ∧ msg = m ∧ sec.server = s.condition b.id ∧
      ∃ it, s.blocks b.id = some it ∧ it.revision = b.revision := by
  cases h with
  | sleeps hit heq =>
      obtain ⟨rfl, rfl⟩ := Outcome.wait.inj ho
      exact ⟨rfl, rfl, rfl, rfl, _, hit, heq⟩
  | unhosted _ _ => exact nomatch ho
  | mapped _ _ => exact nomatch ho
  | mapRefused _ _ => exact nomatch ho
  | unmapped _ _ => exact nomatch ho
  | unmapRefused _ _ => exact nomatch ho
  | entire _ _ => exact nomatch ho
  | shallow _ _ => exact nomatch ho
  | writeUnhosted _ => exact nomatch ho
  | accepted _ _ => exact nomatch ho
  | writeRefused _ _ => exact nomatch ho
  | waitUnhosted _ => exact nomatch ho
  | outdated _ _ => exact nomatch ho

/-- The reply to a WAIT for a hosted block is an ACK, sent in a section that found the
    revisions different. -/
theorem wait_reply (h : Served s clientId b m .wait sec) {ack : Node}
    (ho : sec.outcome = .send ack) {it : BlockServer} (hit : s.blocks b.id = some it) :
    ack = emit .ack ∧ it.revision ≠ b.revision := by
  cases h with
  | unhosted ht _ => rcases ht with ht | ht | ht <;> exact nomatch ht
  | waitUnhosted hb =>
      rw [hb] at hit
      exact nomatch hit
  | outdated hit' hne =>
      obtain rfl := Option.some.inj (hit.symm.trans hit')
      exact ⟨(Outcome.send.inj ho).symm, hne⟩
  | sleeps _ _ => exact nomatch ho

/-- The reply to a MAP of a hosted block. -/
theorem map_reply (h : Served s clientId b m .map sec) {it : BlockServer}
    (hit : s.blocks b.id = some it) :
    (clientId ∉ it.mappedClients ∧ sec.outcome = .send (emitBlock .ack it.toBlock false)) ∨
      (clientId ∈ it.mappedClients ∧ sec.outcome = .send (emit .nack)) := by
  cases h with
  | unhosted _ hb =>
      rw [hb] at hit
      exact nomatch hit
  | mapped hit' hnew =>
      obtain rfl := Option.some.inj (hit.symm.trans hit')
      exact Or.inl ⟨hnew, rfl⟩
  | mapRefused hit' hold =>
      obtain rfl := Option.some.inj (hit.symm.trans hit')
      exact Or.inr ⟨hold, rfl⟩

/-- The reply to an UNMAP of a hosted block. -/
theorem unmap_reply (h : Served s clientId b m .unmap sec) {it : BlockServer}
    (hit : s.blocks b.id = some it) :
    (clientId ∈ it.mappedClients ∧ sec.outcome = .send (emit .ack)) ∨
      (clientId ∉ it.mappedClients ∧ sec.outcome = .send (emit .nack)) := by
  cases h with
  | unhosted _ hb =>
      rw [hb] at hit
      exact nomatch hit
  | unmapped hit' hold =>
      obtain rfl := Option.some.inj (hit.symm.trans hit')
      exact Or.inl ⟨hold, rfl⟩
  | unmapRefused hit' hnew =>
      obtain rfl := Option.some.inj (hit.symm.trans hit')
      exact Or.inr ⟨hnew, rfl⟩

/-- The reply to an UPDATE of a hosted block carries its revision, and its content if the
    revision is above the request's. -/
theorem update_reply (h : Served s clientId b m .update sec) {it : BlockServer}
    (hit : s.blocks b.id = some it) :
    sec.outcome =
      .send (emitBlock .ack it.toBlock (decide ¬ b.revision < it.revision)) := by
  cases h with
  | unhosted _ hb =>
      rw [hb] at hit
      exact nomatch hit
  | entire hit' hlt =>
      obtain rfl := Option.some.inj (hit.symm.trans hit')
      rw [decide_eq_false (not_not_intro hlt)]
  | shallow hit' hnlt =>
      obtain rfl := Option.some.inj (hit.symm.trans hit')
      rw [decide_eq_true hnlt]

/-- **Only a map or unmap of the block changes who has mapped it**, and for the sender
    alone. -/
theorem members (h : Served s clientId b m t sec) {k : Int32} {it : BlockServer}
    (hk : s.blocks k = some it) :
    ∃ it', sec.server.blocks k = some it' ∧
      (¬ Remaps t b k → it'.mappedClients = it.mappedClients) ∧
      (∀ u, u ≠ clientId → (u ∈ it'.mappedClients ↔ u ∈ it.mappedClients)) ∧
      (it.mappedClients.Nodup → it'.mappedClients.Nodup) := by
  have hsame : ∀ {s' : Server}, s'.blocks k = some it →
      ∃ it', s'.blocks k = some it' ∧
        (¬ Remaps t b k → it'.mappedClients = it.mappedClients) ∧
        (∀ u, u ≠ clientId → (u ∈ it'.mappedClients ↔ u ∈ it.mappedClients)) ∧
        (it.mappedClients.Nodup → it'.mappedClients.Nodup) :=
    fun hs' => ⟨it, hs', fun _ => rfl, fun _ _ => Iff.rfl, fun hn => hn⟩
  have hset : ∀ {it₀ it₁ : BlockServer}, s.blocks b.id = some it₀ →
      (¬ Remaps t b b.id → it₁.mappedClients = it₀.mappedClients) →
      (∀ u, u ≠ clientId → (u ∈ it₁.mappedClients ↔ u ∈ it₀.mappedClients)) →
      (it₀.mappedClients.Nodup → it₁.mappedClients.Nodup) →
      ∃ it', (s.setBlock b.id it₁).blocks k = some it' ∧
        (¬ Remaps t b k → it'.mappedClients = it.mappedClients) ∧
        (∀ u, u ≠ clientId → (u ∈ it'.mappedClients ↔ u ∈ it.mappedClients)) ∧
        (it.mappedClients.Nodup → it'.mappedClients.Nodup) := by
    intro it₀ it₁ hit hkeep hothers hnodup
    by_cases hkb : k = b.id
    · subst hkb
      obtain rfl : it = it₀ := Option.some.inj (hk.symm.trans hit)
      exact ⟨it₁, Server.setBlock_same .., hkeep, hothers, hnodup⟩
    · exact hsame (by rw [Server.setBlock_other _ _ hkb]; exact hk)
  cases h with
  -- the list grows by the sender, who was not on it
  | mapped hit hnew =>
      refine hset hit (fun hno => absurd ⟨rfl, Or.inl rfl⟩ hno) ?_ ?_
      · intro u hu
        simp [hu]
      · intro hn
        refine List.nodup_append.mpr ⟨hn, List.nodup_singleton _, ?_⟩
        rintro u hu v hv rfl
        rw [List.mem_singleton.mp hv] at hu
        exact hnew hu
  | unmapped hit hold =>
      refine hset hit (fun hno => absurd ⟨rfl, Or.inr rfl⟩ hno) ?_ (fun hn => hn.erase _)
      intro u hu
      exact List.mem_erase_of_ne hu
  | accepted hit heq => exact hset hit (fun _ => rfl) (fun _ _ => Iff.rfl) (fun hn => hn)
  | unhosted _ _ => exact hsame hk
  | mapRefused _ _ => exact hsame hk
  | unmapRefused _ _ => exact hsame hk
  | entire _ _ => exact hsame hk
  | shallow _ _ => exact hsame hk
  | writeUnhosted _ => exact hsame hk
  | writeRefused _ _ => exact hsame hk
  | waitUnhosted _ => exact hsame hk
  | outdated _ _ => exact hsame hk
  | sleeps _ _ => exact hsame hk

/-- A map by a client that has not mapped the block registers it. -/
theorem map_new (h : Served s clientId b m .map sec) {it : BlockServer}
    (hit : s.blocks b.id = some it) (hnew : clientId ∉ it.mappedClients) :
    sec.outcome = .send (emitBlock .ack it.toBlock false) ∧
      ∃ it', sec.server.blocks b.id = some it' ∧ clientId ∈ it'.mappedClients := by
  cases h with
  | unhosted _ hb =>
      rw [hb] at hit
      exact nomatch hit
  | mapped hit' _ =>
      obtain rfl := Option.some.inj (hit.symm.trans hit')
      exact ⟨rfl, _, Server.setBlock_same .., by simp⟩
  | mapRefused hit' hold =>
      obtain rfl := Option.some.inj (hit.symm.trans hit')
      exact absurd hold hnew

/-- An unmap by a client that has mapped the block strikes it off. -/
theorem unmap_old (h : Served s clientId b m .unmap sec) {it : BlockServer}
    (hit : s.blocks b.id = some it) (hold : clientId ∈ it.mappedClients)
    (hnodup : it.mappedClients.Nodup) :
    sec.outcome = .send (emit .ack) ∧
      ∃ it', sec.server.blocks b.id = some it' ∧ clientId ∉ it'.mappedClients := by
  cases h with
  | unhosted _ hb =>
      rw [hb] at hit
      exact nomatch hit
  | unmapped hit' _ =>
      obtain rfl := Option.some.inj (hit.symm.trans hit')
      exact ⟨rfl, _, Server.setBlock_same .., hnodup.not_mem_erase⟩
  | unmapRefused hit' hnew =>
      obtain rfl := Option.some.inj (hit.symm.trans hit')
      exact absurd hold hnew

/-- The reply to a WRITE of a hosted block, and what became of the block. -/
theorem write_reply (h : Served s clientId b m .write sec) {it : BlockServer}
    (hit : s.blocks b.id = some it) :
    (it.revision = b.revision ∧ sec.outcome = .send (emit .ack) ∧
        sec.server.blocks b.id = some (it.assign b).addRevision) ∨
      (it.revision ≠ b.revision ∧ sec.outcome = .send (emit .nack) ∧
        sec.server.blocks = s.blocks) := by
  cases h with
  | unhosted ht _ => rcases ht with ht | ht | ht <;> exact nomatch ht
  | writeUnhosted hb =>
      rw [hb] at hit
      exact nomatch hit
  | accepted hit' heq =>
      obtain rfl := Option.some.inj (hit.symm.trans hit')
      exact Or.inl ⟨heq, rfl, Server.setBlock_same ..⟩
  | writeRefused hit' hne =>
      obtain rfl := Option.some.inj (hit.symm.trans hit')
      exact Or.inr ⟨hne, rfl, rfl⟩

end Served

end DmServer
