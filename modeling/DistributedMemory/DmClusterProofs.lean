import DistributedMemory.DmCoherenceProofs
import DistributedMemory.DmScopeProofs

/-!
# The cluster — several servers, and clients with a socket to each

`Client` keeps one socket per server of its configuration and sends every call to the server
that `find_server_id_by_block_id` names for the block. `DmSystem` has one server and leaves
out the calls on other servers' blocks; here all of them run together, and a client's table
holds blocks of several.

* **`run_view`** — what one server and its clients see of a run of the cluster, each client's
  table cut down to that server's blocks, is a run of `DmSystem`.
* **`cluster_coherent`** — so the local copies of every block are coherent with the server
  the block is routed to.
* **`hosts_apart`** — a server is asked only for blocks it hosts, and a copy of a block on a
  server the block is not routed to stays as it was created.
-/

namespace DmCluster

open DmBlock DmConfig DmMessage DmClient DmServer DmHost DmSystem DmRouting LabelledRun
open DmHistory DmCoherence DmScope VersionedCell

variable {ι : Type} [DecidableEq ι]

/-! ## A call touches one entry -/

/-- What the first half of a call comes to, for another client. -/
def Sending.mapClient (f : Client → Client) : Sending → Sending
  | .returned code c => .returned code (f c)
  | .sent serverId req c => .sent serverId req (f c)

/-- Client `d` with the entry of block `id` that `c` has. -/
def takeEntry (d : Client) (id : Int32) (c : Client) : Client := d.setBlock id (c.blocks id)

theorem takeEntry_self {c d : Client} {id : Int32} (h : d.blocks id = c.blocks id) :
    takeEntry d id c = d := Client.setBlock_eq_self h

theorem takeEntry_setBlock (c d : Client) (id : Int32) (b : Option BlockLocal) :
    takeEntry d id (c.setBlock id b) = d.setBlock id b := by
  rw [takeEntry, Client.setBlock_same]

/-- The opening looks at the configuration, the sockets and the entry. -/
theorem openMapped_frame {c d : Client} {id : Int32} (hconfig : d.config = c.config)
    (hsockets : d.sockets = c.sockets) (h : d.blocks id = c.blocks id)
    {k k' : String → BlockLocal → Sending}
    (hk : ∀ sid e, k' sid e = Sending.mapClient (takeEntry d id) (k sid e)) :
    d.openMapped id k' = (c.openMapped id k).map (Sending.mapClient (takeEntry d id)) := by
  have hself : Sending.mapClient (takeEntry d id) (.returned (-1) c) = .returned (-1) d := by
    rw [Sending.mapClient, takeEntry_self h]
  simp only [Client.openMapped, hconfig, hsockets, h]
  split
  · exact congrArg Except.ok (by rw [Sending.mapClient, takeEntry_self h])
  · split
    · exact congrArg Except.ok (by rw [Sending.mapClient, takeEntry_self h])
    · split
      · rfl
      · split
        · exact congrArg Except.ok (hk _ _)
        · exact congrArg Except.ok (by rw [Sending.mapClient, takeEntry_self h])

/-- **What a call sends depends on one entry**, and changes no other. -/
theorem send_frame {c d : Client} {call : Call} (hconfig : d.config = c.config)
    (hsockets : d.sockets = c.sockets) (h : d.blocks call.id = c.blocks call.id) :
    d.send call = (c.send call).map (Sending.mapClient (takeEntry d call.id)) := by
  have hself : takeEntry d call.id c = d := takeEntry_self h
  cases call with
  | map id address =>
      have hid : d.blocks id = c.blocks id := h
      simp only [Client.send, Client.dmBlockMapSend, hconfig, hsockets, hid]
      split
      · exact congrArg Except.ok (by rw [Sending.mapClient, hself])
      · split
        · exact congrArg Except.ok (by rw [Sending.mapClient, hself])
        · split
          · rfl
          · split
            · refine congrArg Except.ok ?_
              rw [Sending.mapClient]
              exact congrArg (Sending.sent _ _) (takeEntry_setBlock c d id _).symm
            · exact congrArg Except.ok (by rw [Sending.mapClient, hself])
  | unmap id =>
      simp only [Client.send, Client.dmBlockUnmapSend]
      refine openMapped_frame hconfig hsockets h fun sid e => ?_
      rw [Sending.mapClient]
      exact congrArg (Sending.sent _ _) hself.symm
  | update id =>
      simp only [Client.send, Client.dmBlockUpdateSend]
      refine openMapped_frame hconfig hsockets h fun sid e => ?_
      rw [Sending.mapClient]
      exact congrArg (Sending.sent _ _) hself.symm
  | write id =>
      simp only [Client.send, Client.dmBlockWriteSend]
      refine openMapped_frame hconfig hsockets h fun sid e => ?_
      cases e.valid with
      | false => exact congrArg (Sending.returned _) hself.symm
      | true => exact congrArg (Sending.sent _ _) hself.symm
  | wait id =>
      simp only [Client.send, Client.dmBlockWaitSend]
      refine openMapped_frame hconfig hsockets h fun sid e => ?_
      cases e.valid with
      | false => exact congrArg (Sending.returned _) hself.symm
      | true => exact congrArg (Sending.sent _ _) hself.symm

/-- The closing, over two clients that end alike. -/
theorem close_frame {c d onNack onNack' : Client} {reply : Option Node}
    {onAck onAck' : Message → Except Fault Client} {f : Client → Client} (hself : f c = d)
    (hnack : onNack' = f onNack) (hack : ∀ m, onAck' m = (onAck m).map f) :
    d.close reply onNack' onAck'
      = (c.close reply onNack onAck).map fun r => (r.1, f r.2) := by
  cases reply with
  | none =>
      show Except.ok (-4, d) = Except.ok (-4, f c)
      rw [hself]
  | some n =>
      simp only [Client.close, hack]
      split
      · exact congrArg (fun x => Except.ok (-5, x)) hnack
      · cases onAck (Message.ofNode n) <;> rfl

/-- **What a reply does depends on one entry**, and changes no other. -/
theorem receive_frame {c d : Client} {call : Call} (reply : Option Node)
    (h : d.blocks call.id = c.blocks call.id) :
    d.receive call reply
      = (c.receive call reply).map fun r => (r.1, takeEntry d call.id r.2) := by
  have hself : takeEntry d call.id c = d := takeEntry_self h
  cases call with
  | map id address =>
      have hid : d.blocks id = c.blocks id := h
      simp only [Client.receive, Client.dmBlockMapReceive]
      refine close_frame hself hself.symm fun ack => ?_
      simp only [hid]
      cases ack.deref with
      | error f => rfl
      | ok p =>
          cases c.blocks id with
          | none => rfl
          | some e => exact congrArg Except.ok (takeEntry_setBlock c d id _).symm
  | unmap id =>
      simp only [Client.receive, Client.dmBlockUnmapReceive]
      exact close_frame hself hself.symm fun ack =>
        congrArg Except.ok (takeEntry_setBlock c d id _).symm
  | update id =>
      have hid : d.blocks id = c.blocks id := h
      simp only [Client.receive, Client.dmBlockUpdateReceive]
      refine close_frame hself hself.symm fun ack => ?_
      simp only [hid]
      cases c.blocks id with
      | none => rfl
      | some e =>
          cases ack.deref with
          | error f => rfl
          | ok p =>
              by_cases hrev : e.revision ≠ p.1.revision
              · simp only [if_pos hrev]
                exact congrArg Except.ok (takeEntry_setBlock c d id _).symm
              · simp only [if_neg hrev]
                exact congrArg Except.ok hself.symm
  | write id =>
      have hid : d.blocks id = c.blocks id := h
      simp only [Client.receive, Client.dmBlockWriteReceive, hid]
      cases c.blocks id with
      | none => rfl
      | some e =>
          exact close_frame hself (takeEntry_setBlock c d id _).symm fun ack =>
            congrArg Except.ok (takeEntry_setBlock c d id _).symm
  | wait id =>
      have hid : d.blocks id = c.blocks id := h
      simp only [Client.receive, Client.dmBlockWaitReceive, hid]
      cases c.blocks id with
      | none => rfl
      | some e =>
          exact close_frame hself hself.symm fun ack =>
            congrArg Except.ok (takeEntry_setBlock c d id _).symm

/-! ## The cluster -/

/-- A connection between a client and one server. -/
structure Wire where
  sent : Nat
  requests : List (Nat × Node)
  replies : List (Nat × Node)

/-- The servers by id, and the clients. A client is in one call at a time, on the socket of
    one server; `died` names the server of the call it died in. -/
structure Cluster (ι : Type) where
  host : String → Host ι
  client : ι → Client
  died : ι → Option String
  pending : ι → Option (String × Pending)
  wire : ι → String → Wire

/-- What is fixed before the start: the blocks of every server, the id of every connection,
    and every client's configuration and sockets. -/
structure Fleet (ι : Type) where
  blocksId : String → List Int32
  clientId : ι → String → String
  config : ι → Config
  sockets : ι → String → Option SocketClient

/-- Freshly started. -/
def Fleet.start (F : Fleet ι) : Cluster ι where
  host := fun sid => Host.start (F.blocksId sid)
  client := fun c => ⟨F.config c, F.sockets c, fun _ => none⟩
  died := fun _ => none
  pending := fun _ => none
  wire := fun _ _ => ⟨0, [], []⟩

namespace Cluster

/-- The server a call of client `c` goes to. -/
def route (s : Cluster ι) (c : ι) (id : Int32) : String :=
  (s.client c).config.findServerIdByBlockId id

def setHost (s : Cluster ι) (sid : String) (h : Host ι) : Cluster ι :=
  { s with host := Function.update s.host sid h }

def setClient (s : Cluster ι) (c : ι) (client : Client) : Cluster ι :=
  { s with client := Function.update s.client c client }

def setDied (s : Cluster ι) (c : ι) (sid : String) : Cluster ι :=
  { s with died := Function.update s.died c (some sid) }

def setPending (s : Cluster ι) (c : ι) (p : Option (String × Pending)) : Cluster ι :=
  { s with pending := Function.update s.pending c p }

def setWire (s : Cluster ι) (c : ι) (sid : String) (w : Wire) : Cluster ι :=
  { s with wire := Function.update s.wire c (Function.update (s.wire c) sid w) }

end Cluster

/-- `sock << req`. -/
def Wire.write (w : Wire) (req : Node) : Wire :=
  { w with sent := w.sent + 1, requests := w.requests ++ [(w.sent, req)] }

/-- The thread read the head of the queue and, unless it sleeps, sent a reply. -/
def Wire.answered (w : Wire) (rest : List (Nat × Node)) (tag : Nat) (ans : Option Node) : Wire :=
  { w with requests := rest, replies := w.replies ++ ans.toList.map fun n => (tag, n) }

/-- One step of the cluster, with the server it concerns. -/
inductive Step (F : Fleet ι) : Cluster ι → String × Event ι → Cluster ι → Prop where
  | returned {s : Cluster ι} {c : ι} {call : Call} {code : Int} {client : Client}
      (hidle : s.pending c = none) (halive : s.died c = none)
      (hsend : (s.client c).send call = .ok (.returned code client)) :
      Step F s (s.route c call.id, .returned c call code) (s.setClient c client)
  | sent {s : Cluster ι} {c : ι} {call : Call} {sid : String} {req : Node} {client : Client}
      (hidle : s.pending c = none) (halive : s.died c = none)
      (hsend : (s.client c).send call = .ok (.sent sid req client)) :
      Step F s (sid, .sent c ⟨call, (s.wire c sid).sent, req⟩)
        (((s.setClient c client).setPending c (some (sid, ⟨call, (s.wire c sid).sent, req⟩))).setWire
          c sid ((s.wire c sid).write req))
  | died {s : Cluster ι} {c : ι} {call : Call} {f : Fault}
      (hidle : s.pending c = none) (halive : s.died c = none)
      (hsend : (s.client c).send call = .error f) :
      Step F s (s.route c call.id, .died c call) (s.setDied c (s.route c call.id))
  | poked {s : Cluster ι} {c : ι} {id : Int32} {e : BlockLocal} (d : Data)
      (hidle : s.pending c = none) (halive : s.died c = none)
      (he : (s.client c).blocks id = some e) :
      Step F s (s.route c id, .poked c id)
        (s.setClient c ((s.client c).setBlock id (some { e with data := d })))
  | request {s : Cluster ι} {c : ι} {sid : String} {tag : Nat} {req : Node}
      {rest : List (Nat × Node)} {ans : Option Node} {host : Host ι}
      (hreq : (s.wire c sid).requests = (tag, req) :: rest)
      (hread : (s.host sid).thread c = .reading)
      (hhost : DmHost.Step (fun u => F.clientId u sid) (s.host sid) (.critical c tag req ans)
        host) :
      Step F s (sid, .critical c tag req ans)
        ((s.setHost sid host).setWire c sid ((s.wire c sid).answered rest tag ans))
  | retry {s : Cluster ι} {c : ι} {sid : String} {tag : Nat} {req : Node} {k : Int32}
      {msg : Message} {ans : Option Node} {host : Host ι}
      (hawake : (s.host sid).thread c = .awake tag k msg)
      (hhost : DmHost.Step (fun u => F.clientId u sid) (s.host sid) (.critical c tag req ans)
        host) :
      Step F s (sid, .critical c tag req ans)
        ((s.setHost sid host).setWire c sid
          ((s.wire c sid).answered (s.wire c sid).requests tag ans))
  | woken {s : Cluster ι} {c : ι} {sid : String} {host : Host ι}
      (hhost : DmHost.Step (fun u => F.clientId u sid) (s.host sid) (.woken c) host) :
      Step F s (sid, .woken c) (s.setHost sid host)
  | received {s : Cluster ι} {c : ι} {sid : String} {p : Pending} {tag : Nat} {reply : Node}
      {rest : List (Nat × Node)} {code : Int} {client : Client}
      (hp : s.pending c = some (sid, p)) (halive : s.died c = none)
      (hrep : (s.wire c sid).replies = (tag, reply) :: rest)
      (hrecv : (s.client c).receive p.call (some reply) = .ok (code, client)) :
      Step F s (sid, .received c p tag reply (some code))
        (((s.setClient c client).setPending c none).setWire c sid
          { s.wire c sid with replies := rest })
  | receivedDied {s : Cluster ι} {c : ι} {sid : String} {p : Pending} {tag : Nat}
      {reply : Node} {rest : List (Nat × Node)} {f : Fault}
      (hp : s.pending c = some (sid, p)) (halive : s.died c = none)
      (hrep : (s.wire c sid).replies = (tag, reply) :: rest)
      (hrecv : (s.client c).receive p.call (some reply) = .error f) :
      Step F s (sid, .received c p tag reply none)
        (((s.setDied c sid).setPending c none).setWire c sid
          { s.wire c sid with replies := rest })
  | timedOut {s : Cluster ι} {c : ι} {sid : String} {p : Pending} {code : Int}
      {client : Client} (hp : s.pending c = some (sid, p)) (halive : s.died c = none)
      (hnone : (s.wire c sid).replies = [])
      (hrecv : (s.client c).receive p.call none = .ok (code, client)) :
      Step F s (sid, .timedOut c p)
        (((s.setClient c client).setPending c none).setWire c sid
          { s.wire c sid with replies := [] })

/-- The history of a run of the cluster. -/
abbrev ClusterTrace (ι : Type) := List (Entry (Cluster ι) (String × Event ι))

/-- The runs of a freshly started cluster. -/
abbrev ClusterRun (F : Fleet ι) (tr : ClusterTrace ι) (s : Cluster ι) : Prop :=
  Run (Step F) F.start tr s

/-- What can happen next, but for wake-ups without a broadcast and timeouts. -/
inductive Action (ι : Type) where
  | call (c : ι) (call : Call)
  | poke (c : ι) (id : Int32) (d : Data)
  | serve (sid : String) (c : ι)
  | receive (c : ι)

/-- The step an action takes, if it is possible. -/
def next (F : Fleet ι) (s : Cluster ι) :
    Action ι → Option ((String × Event ι) × Cluster ι)
  | .call c call =>
      match s.pending c, s.died c with
      | none, none =>
          match (s.client c).send call with
          | .error _ =>
              some ((s.route c call.id, .died c call), s.setDied c (s.route c call.id))
          | .ok (.returned code client) =>
              some ((s.route c call.id, .returned c call code), s.setClient c client)
          | .ok (.sent sid req client) =>
              let p : Pending := ⟨call, (s.wire c sid).sent, req⟩
              some ((sid, .sent c p), ((s.setClient c client).setPending c (some (sid, p))).setWire
                c sid ((s.wire c sid).write req))
      | _, _ => none
  | .poke c id d =>
      match s.pending c, s.died c, (s.client c).blocks id with
      | none, none, some e =>
          some ((s.route c id, .poked c id),
            s.setClient c ((s.client c).setBlock id (some { e with data := d })))
      | _, _, _ => none
  | .serve sid c =>
      match (s.host sid).thread c with
      | .reading =>
          match (s.wire c sid).requests with
          | [] => none
          | (tag, req) :: rest =>
              match (s.host sid).server.clientHandler (F.clientId c sid) (Message.ofNode req) with
              | .error _ => none
              | .ok sec =>
                  some ((sid, .critical c tag req (answer sec)),
                    (s.setHost sid ((s.host sid).leave c tag sec)).setWire c sid
                      ((s.wire c sid).answered rest tag (answer sec)))
      | .asleep _ _ _ => none
      | .awake tag k msg =>
          match (s.host sid).server.handleWait k msg with
          | .error _ => none
          | .ok sec =>
              some ((sid, .critical c tag msg.node (answer sec)),
                (s.setHost sid ((s.host sid).leave c tag sec)).setWire c sid
                  ((s.wire c sid).answered (s.wire c sid).requests tag (answer sec)))
  | .receive c =>
      match s.pending c, s.died c with
      | some (sid, p), none =>
          match (s.wire c sid).replies with
          | [] => none
          | (tag, reply) :: rest =>
              match (s.client c).receive p.call (some reply) with
              | .error _ =>
                  some ((sid, .received c p tag reply none),
                    ((s.setDied c sid).setPending c none).setWire c sid
                      { s.wire c sid with replies := rest })
              | .ok (code, client) =>
                  some ((sid, .received c p tag reply (some code)),
                    ((s.setClient c client).setPending c none).setWire c sid
                      { s.wire c sid with replies := rest })
      | _, _ => none

/-- Every action performed is a step. -/
theorem next_sound (F : Fleet ι) :
    ∀ (s : Cluster ι) (a : Action ι) (e : String × Event ι) (s' : Cluster ι),
      next F s a = some (e, s') → Step F s e s' := by
  intro s a e s' hn
  cases a with
  | call c call =>
      simp only [next] at hn
      split at hn
      · rename_i hidle halive
        split at hn
        · rename_i hsend
          obtain ⟨rfl, rfl⟩ := Prod.mk.inj (Option.some.inj hn)
          exact Step.died hidle halive hsend
        · rename_i hsend
          obtain ⟨rfl, rfl⟩ := Prod.mk.inj (Option.some.inj hn)
          exact Step.returned hidle halive hsend
        · rename_i hsend
          obtain ⟨rfl, rfl⟩ := Prod.mk.inj (Option.some.inj hn)
          exact Step.sent hidle halive hsend
      · cases hn
  | poke c id d =>
      simp only [next] at hn
      split at hn
      · rename_i hidle halive he
        obtain ⟨rfl, rfl⟩ := Prod.mk.inj (Option.some.inj hn)
        exact Step.poked d hidle halive he
      · cases hn
  | serve sid c =>
      simp only [next] at hn
      split at hn
      · rename_i hread
        split at hn
        · cases hn
        · rename_i hreq
          split at hn
          · cases hn
          · rename_i hpass
            obtain ⟨rfl, rfl⟩ := Prod.mk.inj (Option.some.inj hn)
            exact Step.request hreq hread (DmHost.Step.first hread hpass)
      · cases hn
      · rename_i hawake
        split at hn
        · cases hn
        · rename_i hloop
          obtain ⟨rfl, rfl⟩ := Prod.mk.inj (Option.some.inj hn)
          exact Step.retry hawake (DmHost.Step.again hawake hloop)
  | receive c =>
      simp only [next] at hn
      split at hn
      · rename_i hp halive
        split at hn
        · cases hn
        · rename_i hrep
          split at hn
          · rename_i hrecv
            obtain ⟨rfl, rfl⟩ := Prod.mk.inj (Option.some.inj hn)
            exact Step.receivedDied hp halive hrep hrecv
          · rename_i hrecv
            obtain ⟨rfl, rfl⟩ := Prod.mk.inj (Option.some.inj hn)
            exact Step.received hp halive hrep hrecv
      · cases hn

/-! ## What one server and its clients see -/

/-- The entries of the blocks that the client's configuration routes to the server. -/
def restrict (sid : String) (c : Client) : Client :=
  { c with blocks := fun k =>
      if c.config.findServerIdByBlockId k = sid then c.blocks k else none }

/-- The call in progress, if it is on the server's socket. -/
def pendingOn (sid : String) : Option (String × Pending) → Option Pending
  | some (sid', p) => if sid' = sid then some p else none
  | none => none

/-- The client at this end of one connection. -/
def viewLink (sid : String) (s : Cluster ι) (c : ι) : Link where
  client := restrict sid (s.client c)
  dead := s.died c == some sid
  pending := pendingOn sid (s.pending c)
  sent := (s.wire c sid).sent
  requests := (s.wire c sid).requests
  replies := (s.wire c sid).replies

/-- One server of the cluster. -/
def view (sid : String) (s : Cluster ι) : System ι := ⟨s.host sid, viewLink sid s⟩

/-- One server of the fleet. -/
def Fleet.only (F : Fleet ι) (sid : String) : Deployment ι where
  serverId := sid
  blocksId := F.blocksId sid
  clientId := fun c => F.clientId c sid
  config := F.config
  sockets := F.sockets

/-- The steps that concern one server, as it sees them. -/
def only (sid : String) (tr : ClusterTrace ι) : Trace ι :=
  tr.filterMap fun t =>
    if t.event.1 = sid then some ⟨view sid t.pre, t.event.2, view sid t.post⟩ else none

/-! ## Cutting a client down -/

/-- A call that sent its request changed one entry at most. -/
theorem send_entry {c c' : Client} {call : Call} {sid : String} {req : Node}
    (h : c.send call = .ok (.sent sid req c')) : c' = takeEntry c call.id c' := by
  have hframe : c.send call = (c.send call).map (Sending.mapClient (takeEntry c call.id)) :=
    send_frame rfl rfl rfl
  rw [h] at hframe
  exact (Sending.sent.inj (Except.ok.inj hframe)).2.2

/-- So did a call that read its reply. -/
theorem receive_entry {c c' : Client} {call : Call} {reply : Option Node} {code : Int}
    (h : c.receive call reply = .ok (code, c')) : c' = takeEntry c call.id c' := by
  have hframe : c.receive call reply
      = (c.receive call reply).map fun r => (r.1, takeEntry c call.id r.2) :=
    receive_frame reply rfl
  rw [h] at hframe
  exact (Prod.mk.inj (Except.ok.inj hframe)).2

theorem restrict_blocks {sid : String} {c : Client} {k : Int32}
    (h : c.config.findServerIdByBlockId k = sid) : (restrict sid c).blocks k = c.blocks k :=
  if_pos h

/-- An entry of the server's is changed in what it sees. -/
theorem restrict_setBlock {sid : String} {c : Client} {id : Int32}
    (h : c.config.findServerIdByBlockId id = sid) (b : Option BlockLocal) :
    restrict sid (c.setBlock id b) = (restrict sid c).setBlock id b := by
  refine congrArg (Client.mk c.config c.sockets) (funext fun k => ?_)
  by_cases hk : k = id
  · subst hk
    simp [Client.setBlock, h]
  · simp [Client.setBlock, Function.update_of_ne hk, restrict]

/-- An entry of another server's is not. -/
theorem restrict_setBlock_other {sid : String} {c : Client} {id : Int32}
    (h : c.config.findServerIdByBlockId id ≠ sid) (b : Option BlockLocal) :
    restrict sid (c.setBlock id b) = restrict sid c := by
  refine congrArg (Client.mk c.config c.sockets) (funext fun k => ?_)
  by_cases hk : k = id
  · subst hk
    simp [Client.setBlock, h]
  · simp [Client.setBlock, Function.update_of_ne hk]

section Restricted

variable {c c' : Client} {call : Call} {sid : String}

/-- The server sees its part of a request. -/
theorem restrict_sent {sid' : String} {req : Node}
    (hroute : c.config.findServerIdByBlockId call.id = sid)
    (h : c.send call = .ok (.sent sid' req c')) :
    (restrict sid c).send call = .ok (.sent sid' req (restrict sid c')) := by
  rw [send_frame (c := c) (d := restrict sid c) rfl rfl (restrict_blocks hroute), h,
    send_entry h]
  show Except.ok (Sending.sent sid' req _) = _
  rw [takeEntry, takeEntry, Client.setBlock_same, restrict_setBlock hroute]

/-- What a call returns at once does not depend on other servers' entries. -/
theorem restrict_returned {code : Int}
    (hroute : c.config.findServerIdByBlockId call.id = sid)
    (h : c.send call = .ok (.returned code c')) :
    (restrict sid c).send call = .ok (.returned code (restrict sid c')) := by
  obtain rfl := (Client.send_returned h).2
  rw [send_frame (c := c') (d := restrict sid c') rfl rfl (restrict_blocks hroute), h]
  show Except.ok (Sending.returned code _) = _
  rw [takeEntry_self (restrict_blocks hroute)]

theorem restrict_error {f : Fault} (hroute : c.config.findServerIdByBlockId call.id = sid)
    (h : c.send call = .error f) : (restrict sid c).send call = .error f := by
  rw [send_frame (c := c) (d := restrict sid c) rfl rfl (restrict_blocks hroute), h]
  rfl

/-- The server's part after a reply. -/
theorem restrict_received {reply : Option Node} {code : Int}
    (hroute : c.config.findServerIdByBlockId call.id = sid)
    (h : c.receive call reply = .ok (code, c')) :
    (restrict sid c).receive call reply = .ok (code, restrict sid c') := by
  rw [receive_frame (c := c) reply (restrict_blocks hroute), h, receive_entry h]
  show Except.ok (code, _) = _
  rw [takeEntry, takeEntry, Client.setBlock_same, restrict_setBlock hroute]

theorem restrict_receive_error {reply : Option Node} {f : Fault}
    (hroute : c.config.findServerIdByBlockId call.id = sid)
    (h : c.receive call reply = .error f) : (restrict sid c).receive call reply = .error f := by
  rw [receive_frame (c := c) reply (restrict_blocks hroute), h]
  rfl

end Restricted

/-! ## One step, seen by one server -/

variable {F : Fleet ι} {s s' : Cluster ι}

/-- Every call in progress is on the socket of the server its block is routed to. -/
def Routed (s : Cluster ι) : Prop :=
  ∀ c sid p, s.pending c = some (sid, p) → s.route c p.call.id = sid

/-- No step changes a configuration. -/
theorem step_config {e : String × Event ι} (hs : Step F s e s') (u : ι) :
    (s'.client u).config = (s.client u).config := by
  have hset : ∀ {c : ι} {client : Client}, client.config = (s.client c).config →
      (Function.update s.client c client u).config = (s.client u).config := by
    intro c client h
    by_cases hu : u = c
    · subst hu
      rw [Function.update_self, h]
    · rw [Function.update_of_ne hu]
  cases hs with
  | returned _ _ hsend => exact hset (by rw [(Client.send_returned hsend).2])
  | sent _ _ hsend => exact hset (by rw [send_entry hsend]; rfl)
  | poked d _ _ _ => exact hset rfl
  | received _ _ _ hrecv => exact hset (by rw [receive_entry hrecv]; rfl)
  | timedOut _ _ _ hrecv => exact hset (by rw [receive_entry hrecv]; rfl)
  | died _ _ _ => rfl
  | request _ _ _ => rfl
  | retry _ _ => rfl
  | woken _ => rfl
  | receivedDied _ _ _ _ => rfl

theorem step_routed {e : String × Event ι} (h : Routed s) (hs : Step F s e s') : Routed s' := by
  intro u sid p hp
  rw [Cluster.route, step_config hs u]
  -- what is in progress was before, or has just been sent
  have hold : s.pending u = some (sid, p) → (s.client u).config.findServerIdByBlockId p.call.id
      = sid := h u sid p
  have hclear : ∀ {c : ι}, Function.update s.pending c none u = some (sid, p) →
      s.pending u = some (sid, p) := by
    intro c hu
    by_cases huc : u = c
    · subst huc
      rw [Function.update_self] at hu
      cases hu
    · rwa [Function.update_of_ne huc] at hu
  cases hs with
  | @sent c call sid' req client hidle halive hsend =>
      by_cases huc : u = c
      · subst huc
        have hnew : some (sid', (⟨call, (s.wire u sid').sent, req⟩ : Pending)) = some (sid, p) := by
          simpa [Cluster.setWire, Cluster.setPending, Cluster.setClient] using hp
        obtain ⟨rfl, rfl⟩ := Prod.mk.inj (Option.some.inj hnew)
        exact (send_server hsend).1.symm
      · refine hold ?_
        simpa [Cluster.setWire, Cluster.setPending, Cluster.setClient,
          Function.update_of_ne huc] using hp
  | received _ _ _ _ => exact hold (hclear hp)
  | receivedDied _ _ _ _ => exact hold (hclear hp)
  | timedOut _ _ _ _ => exact hold (hclear hp)
  | returned _ _ _ => exact hold hp
  | died _ _ _ => exact hold hp
  | poked _ _ _ _ => exact hold hp
  | request _ _ _ => exact hold hp
  | retry _ _ => exact hold hp
  | woken _ => exact hold hp

section ViewLink

variable {sid sid' : String} {c u : ι}

omit [DecidableEq ι] in
@[simp] theorem viewLink_setHost (h : Host ι) :
    viewLink sid (s.setHost sid' h) = viewLink sid s := rfl

@[simp] theorem viewLink_setClient (x : Client) :
    viewLink sid (s.setClient c x) c = { viewLink sid s c with client := restrict sid x } := by
  simp [viewLink, Cluster.setClient]

@[simp] theorem viewLink_setDied :
    viewLink sid (s.setDied c sid') c
      = { viewLink sid s c with dead := sid' == sid } := by
  simp [viewLink, Cluster.setDied]

@[simp] theorem viewLink_setPending (p : Option (String × Pending)) :
    viewLink sid (s.setPending c p) c
      = { viewLink sid s c with pending := pendingOn sid p } := by
  simp [viewLink, Cluster.setPending]

@[simp] theorem viewLink_setWire (w : Wire) :
    viewLink sid (s.setWire c sid w) c
      = { viewLink sid s c with
          sent := w.sent, requests := w.requests, replies := w.replies } := by
  simp [viewLink, Cluster.setWire]

theorem viewLink_setWire_other (h : sid ≠ sid') (w : Wire) :
    viewLink sid (s.setWire c sid' w) = viewLink sid s := by
  funext v
  by_cases hv : v = c
  · subst hv
    simp [viewLink, Cluster.setWire, h]
  · simp [viewLink, Cluster.setWire, hv]

theorem viewLink_setClient_ne (hu : u ≠ c) (x : Client) :
    viewLink sid (s.setClient c x) u = viewLink sid s u := by
  simp [viewLink, Cluster.setClient, hu]

theorem viewLink_setDied_ne (hu : u ≠ c) :
    viewLink sid (s.setDied c sid') u = viewLink sid s u := by
  simp [viewLink, Cluster.setDied, hu]

theorem viewLink_setPending_ne (hu : u ≠ c) (p : Option (String × Pending)) :
    viewLink sid (s.setPending c p) u = viewLink sid s u := by
  simp [viewLink, Cluster.setPending, hu]

theorem viewLink_setWire_ne (hu : u ≠ c) (w : Wire) :
    viewLink sid (s.setWire c sid' w) u = viewLink sid s u := by
  simp [viewLink, Cluster.setWire, hu]

end ViewLink

/-- A step on client `c`'s side of one connection, as the server of the connection sees it. -/
theorem view_eq (s' : Cluster ι) {sid : String} (c : ι) {host : Host ι} {l : Link} (hhost : s'.host sid = host)
    (hlink : viewLink sid s' c = l) (hother : ∀ u, u ≠ c → viewLink sid s' u = viewLink sid s u) :
    view sid s' = ({ view sid s with host := host }.setLink c l) := by
  refine congrArg₂ System.mk hhost (funext fun u => ?_)
  show viewLink sid s' u = Function.update (viewLink sid s) c l u
  by_cases hu : u = c
  · subst hu
    rw [Function.update_self, hlink]
  · rw [Function.update_of_ne hu, hother u hu]

omit [DecidableEq ι] in
theorem alive_view {sid : String} {c : ι} (h : s.died c = none) :
    ((view sid s).link c).dead = false := by
  show (s.died c == some sid) = false
  rw [h]
  rfl

omit [DecidableEq ι] in
theorem idle_view {sid : String} {c : ι} (h : s.pending c = none) :
    ((view sid s).link c).pending = none := by
  show pendingOn sid (s.pending c) = none
  rw [h]
  rfl

omit [DecidableEq ι] in
theorem pending_view {sid : String} {c : ι} {p : Pending} (h : s.pending c = some (sid, p)) :
    ((view sid s).link c).pending = some p := by
  show pendingOn sid (s.pending c) = some p
  rw [h]
  exact if_pos rfl

/-- **A step that concerns a server is a step of its system.** -/
theorem step_view {sid : String} {e : Event ι} (hrouted : Routed s) (hs : Step F s (sid, e) s') :
    DmSystem.Step (F.only sid) (view sid s) e (view sid s') := by
  cases hs with
  | @returned c call code client hidle halive hsend =>
      rw [view_eq (s.setClient c client) c rfl (viewLink_setClient client)
        fun u hu => viewLink_setClient_ne hu _]
      exact .returned (idle_view hidle) (alive_view halive) (restrict_returned rfl hsend)
  | @sent c call _ req client hidle halive hsend =>
      have hroute := (send_server hsend).1.symm
      rw [view_eq (((s.setClient c client).setPending c _).setWire c sid _) c
        (l := ((view sid s).link c).write (restrict sid client) call req) rfl ?_ ?_]
      · exact .sent (D := F.only sid) (idle_view hidle) (alive_view halive) (restrict_sent hroute hsend)
      · rw [viewLink_setWire, viewLink_setPending, viewLink_setClient]
        simp [pendingOn, Link.write, Wire.write, view, viewLink]
      · intro u hu
        rw [viewLink_setWire_ne hu, viewLink_setPending_ne hu, viewLink_setClient_ne hu]
  | @died c call f hidle halive hsend =>
      rw [view_eq (s.setDied c (s.route c call.id)) c
        (l := { (view (s.route c call.id) s).link c with dead := true }) rfl ?_
        fun u hu => viewLink_setDied_ne hu]
      · exact .died (idle_view hidle) (alive_view halive) (restrict_error rfl hsend)
      · simp [view]
  | @poked c id e d hidle halive he =>
      rw [view_eq (s.setClient c _) c (l := { (view (s.route c id) s).link c with
        client := (((view (s.route c id) s).link c).client).setBlock id
          (some { e with data := d }) }) rfl ?_ fun u hu => viewLink_setClient_ne hu _]
      · exact .poked d (idle_view hidle) (alive_view halive) ((restrict_blocks rfl).trans he)
      · have hroute : (s.client c).config.findServerIdByBlockId id = s.route c id := rfl
        rw [viewLink_setClient, restrict_setBlock hroute]
        rfl
  | @request c _ tag req rest ans host hreq hread hhost =>
      rw [view_eq ((s.setHost sid host).setWire c sid _) c
        (l := ((view sid s).link c).answered rest tag ans) (Function.update_self ..) ?_ ?_]
      · exact .request hreq hread hhost
      · rw [viewLink_setWire, viewLink_setHost]
        rfl
      · intro u hu
        rw [viewLink_setWire_ne hu, viewLink_setHost]
  | @retry c _ tag req k msg ans host hawake hhost =>
      rw [view_eq ((s.setHost sid host).setWire c sid _) c
        (l := ((view sid s).link c).answered ((view sid s).link c).requests tag ans)
        (Function.update_self ..) ?_ ?_]
      · exact .retry hawake hhost
      · rw [viewLink_setWire, viewLink_setHost]
        rfl
      · intro u hu
        rw [viewLink_setWire_ne hu, viewLink_setHost]
  | @woken c _ host hhost =>
      have hview : view sid (s.setHost sid host) = { view sid s with host := host } :=
        congrArg (System.mk · (viewLink sid s)) (Function.update_self ..)
      rw [hview]
      exact .woken hhost
  | @received c _ p tag reply rest code client hp halive hrep hrecv =>
      rw [view_eq (((s.setClient c client).setPending c none).setWire c sid _) c
        (l := ((view sid s).link c).done (restrict sid client) rest) rfl ?_ ?_]
      · exact .received (pending_view hp) (alive_view halive) hrep
          (restrict_received (hrouted c sid p hp) hrecv)
      · rw [viewLink_setWire, viewLink_setPending, viewLink_setClient]
        rfl
      · intro u hu
        rw [viewLink_setWire_ne hu, viewLink_setPending_ne hu, viewLink_setClient_ne hu]
  | @receivedDied c _ p tag reply rest f hp halive hrep hrecv =>
      rw [view_eq (((s.setDied c sid).setPending c none).setWire c sid _) c
        (l := { ((view sid s).link c).done ((view sid s).link c).client rest with
          dead := true }) rfl ?_ ?_]
      · exact .receivedDied (pending_view hp) (alive_view halive) hrep
          (restrict_receive_error (hrouted c sid p hp) hrecv)
      · rw [viewLink_setWire, viewLink_setPending, viewLink_setDied]
        simp [pendingOn, Link.done, view, viewLink]
      · intro u hu
        rw [viewLink_setWire_ne hu, viewLink_setPending_ne hu, viewLink_setDied_ne hu]
  | @timedOut c _ p code client hp halive hnone hrecv =>
      rw [view_eq (((s.setClient c client).setPending c none).setWire c sid _) c
        (l := ((view sid s).link c).done (restrict sid client) []) rfl ?_ ?_]
      · exact .timedOut (pending_view hp) (alive_view halive) hnone
          (restrict_received (hrouted c sid p hp) hrecv)
      · rw [viewLink_setWire, viewLink_setPending, viewLink_setClient]
        rfl
      · intro u hu
        rw [viewLink_setWire_ne hu, viewLink_setPending_ne hu, viewLink_setClient_ne hu]

/-! ## One step, seen by the others -/

section Apart

variable {sid sid' : String} {c : ι}

theorem viewLink_setClient_apart {x : Client} (h : restrict sid x = restrict sid (s.client c)) :
    viewLink sid (s.setClient c x) = viewLink sid s := by
  funext u
  by_cases hu : u = c
  · subst hu
    rw [viewLink_setClient, h]
    rfl
  · exact viewLink_setClient_ne hu x

theorem viewLink_setPending_apart {p : Option (String × Pending)}
    (h : pendingOn sid p = pendingOn sid (s.pending c)) :
    viewLink sid (s.setPending c p) = viewLink sid s := by
  funext u
  by_cases hu : u = c
  · subst hu
    rw [viewLink_setPending, h]
    rfl
  · exact viewLink_setPending_ne hu p

theorem viewLink_setDied_apart (hne : sid ≠ sid') (h : s.died c = none) :
    viewLink sid (s.setDied c sid') = viewLink sid s := by
  funext u
  by_cases hu : u = c
  · subst hu
    rw [viewLink_setDied]
    simp [viewLink, h, hne.symm]
  · exact viewLink_setDied_ne hu

omit [DecidableEq ι] in
theorem pendingOn_apart (hne : sid ≠ sid') (p : Pending) :
    pendingOn sid (some (sid', p)) = none := if_neg hne.symm

/-- The entries of other servers' blocks do not show. -/
theorem restrict_apart {x x' : Client} {id : Int32} (hx : x' = takeEntry x id x')
    (h : x.config.findServerIdByBlockId id ≠ sid) : restrict sid x' = restrict sid x := by
  rw [hx, takeEntry, restrict_setBlock_other h]

/-- **A step that concerns another server is not seen.** -/
theorem step_apart {e : Event ι} (hrouted : Routed s) (hs : Step F s (sid', e) s')
    (hne : sid ≠ sid') : view sid s' = view sid s := by
  cases hs with
  | returned hidle halive hsend =>
      obtain rfl := (Client.send_returned hsend).2
      exact congrArg (System.mk _) (viewLink_setClient_apart rfl)
  | @sent c call _ req client hidle halive hsend =>
      have hroute : (s.client c).config.findServerIdByBlockId call.id ≠ sid := by
        rw [← (send_server hsend).1]
        exact hne.symm
      refine congrArg (System.mk _) ?_
      rw [viewLink_setWire_other hne, viewLink_setPending_apart,
        viewLink_setClient_apart (restrict_apart (send_entry hsend) hroute)]
      show _ = pendingOn sid (s.pending c)
      rw [hidle, pendingOn_apart hne]
      rfl
  | died hidle halive hsend => exact congrArg (System.mk _) (viewLink_setDied_apart hne halive)
  | poked d hidle halive he =>
      exact congrArg (System.mk _)
        (viewLink_setClient_apart (restrict_setBlock_other hne.symm _))
  | request hreq hread hhost =>
      exact congrArg₂ System.mk (Function.update_of_ne hne ..) (viewLink_setWire_other hne _)
  | retry hawake hhost =>
      exact congrArg₂ System.mk (Function.update_of_ne hne ..) (viewLink_setWire_other hne _)
  | woken hhost => exact congrArg (System.mk · (viewLink sid s)) (Function.update_of_ne hne ..)
  | @received c _ p tag reply rest code client hp halive hrep hrecv =>
      have hroute : (s.client c).config.findServerIdByBlockId p.call.id ≠ sid := fun h =>
        hne (h.symm.trans (hrouted c sid' p hp))
      refine congrArg (System.mk _) ?_
      rw [viewLink_setWire_other hne, viewLink_setPending_apart,
        viewLink_setClient_apart (restrict_apart (receive_entry hrecv) hroute)]
      show _ = pendingOn sid (s.pending c)
      rw [hp, pendingOn_apart hne]
      rfl
  | @receivedDied c _ p tag reply rest f hp halive hrep hrecv =>
      refine congrArg (System.mk _) ?_
      rw [viewLink_setWire_other hne, viewLink_setPending_apart,
        viewLink_setDied_apart hne halive]
      show _ = pendingOn sid (s.pending c)
      rw [hp, pendingOn_apart hne]
      rfl
  | @timedOut c _ p code client hp halive hnone hrecv =>
      have hroute : (s.client c).config.findServerIdByBlockId p.call.id ≠ sid := fun h =>
        hne (h.symm.trans (hrouted c sid' p hp))
      refine congrArg (System.mk _) ?_
      rw [viewLink_setWire_other hne, viewLink_setPending_apart,
        viewLink_setClient_apart (restrict_apart (receive_entry hrecv) hroute)]
      show _ = pendingOn sid (s.pending c)
      rw [hp, pendingOn_apart hne]
      rfl

end Apart

/-! ## Runs -/

variable {tr : ClusterTrace ι}

theorem run_routed (hrun : ClusterRun F tr s) : Routed s :=
  hrun.invariant (fun _ _ _ hp => by cases hp) fun _ _ _ h hs => step_routed h hs

omit [DecidableEq ι] in
/-- A freshly started cluster, seen by one server, is freshly started. -/
theorem start_view (F : Fleet ι) (sid : String) : view sid F.start = (F.only sid).start := by
  have hblocks : ∀ c, restrict sid ⟨F.config c, F.sockets c, fun _ => none⟩
      = ⟨F.config c, F.sockets c, fun _ => none⟩ := fun c =>
    congrArg (Client.mk _ _) (funext fun k => ite_self none)
  refine congrArg (System.mk _) (funext fun c => ?_)
  show Link.mk (restrict sid ⟨F.config c, F.sockets c, fun _ => none⟩) _ _ _ _ _ = _
  rw [hblocks]
  rfl

omit [DecidableEq ι] in
theorem only_append (sid : String) (tr tr' : ClusterTrace ι) :
    only sid (tr ++ tr') = only sid tr ++ only sid tr' := List.filterMap_append ..

/-- **Every server of the cluster, with its clients, is a system of one server**: what it
    sees of any run of the cluster is a run of `DmSystem`, whatever happens on the other
    servers in between. -/
theorem run_view (hrun : ClusterRun F tr s) (sid : String) :
    SysRun (F.only sid) (only sid tr) (view sid s) := by
  induction hrun with
  | nil =>
      rw [start_view]
      exact Run.nil
  | @snoc tr s s' e hrun hs ih =>
      have hrouted := run_routed hrun
      obtain ⟨sid', ev⟩ := e
      rw [only_append]
      by_cases heq : sid' = sid
      · subst heq
        have hlast : only sid' [⟨s, (sid', ev), s'⟩] = [⟨view sid' s, ev, view sid' s'⟩] := by
          simp [only]
        rw [hlast]
        exact ih.snoc (step_view hrouted hs)
      · have hlast : only sid [⟨s, (sid', ev), s'⟩] = [] := by
          simp [only, heq]
        rw [hlast, List.append_nil, step_apart hrouted hs (Ne.symm heq)]
        exact ih

/-! ## One file for all -/

/-- Every client and every server was configured from the same file. -/
structure Configured (F : Fleet ι) (yaml : YamlFile) (file : String) : Prop where
  config : ∀ c, F.config c = Config.create yaml file
  blocks : ∀ sid conf, (Config.create yaml file).find sid = some conf →
    F.blocksId sid = conf.blocksId

/-- No call has timed out. -/
def NoTimeouts (tr : ClusterTrace ι) : Prop := ∀ t ∈ tr, t.event.2.isTimeout = false

instance (tr : ClusterTrace ι) : Decidable (NoTimeouts tr) :=
  inferInstanceAs (Decidable (∀ t ∈ tr, t.event.2.isTimeout = false))

omit [DecidableEq ι] in
theorem mem_only {sid : String} {t : Entry (System ι) (Event ι)} (h : t ∈ only sid tr) :
    ∃ t' ∈ tr, t'.event = (sid, t.event) := by
  obtain ⟨t', ht', hsome⟩ := List.mem_filterMap.mp h
  by_cases heq : t'.event.1 = sid
  · rw [if_pos heq] at hsome
    refine ⟨t', ht', ?_⟩
    rw [← Option.some.inj hsome, ← heq]
  · rw [if_neg heq] at hsome
    cases hsome

omit [DecidableEq ι] in
theorem noTimeout_only (hno : NoTimeouts tr) (sid : String) : NoTimeout (only sid tr) := by
  refine noTimeout_iff.mpr fun t ht => ?_
  obtain ⟨t', ht', heq⟩ := mem_only ht
  have hlate := hno t' ht'
  rw [heq] at hlate
  exact hlate

omit [DecidableEq ι] in
theorem noTimeouts_take (hno : NoTimeouts tr) (n : Nat) : NoTimeouts (tr.take n) :=
  fun t ht => hno t (List.mem_of_mem_take ht)

/-- Configurations stay what they were. -/
theorem run_config (hrun : ClusterRun F tr s) (c : ι) : (s.client c).config = F.config c := by
  induction hrun with
  | nil => rfl
  | snoc _ hs ih => rw [step_config hs, ih]

section OneFile

variable {yaml : YamlFile} {file sid : String} {conf : ServerConf}

omit [DecidableEq ι] in
/-- The blocks that the file routes to a server are the blocks here. -/
theorem here_only (hconf : Configured F yaml file) {c : ι} {k : Int32} :
    Here (F.only sid) c k ↔ (Config.create yaml file).findServerIdByBlockId k = sid := by
  rw [← hconf.config c]
  exact Iff.rfl

/-- A server and its clients have nothing to do with the blocks of other servers: a request that
    reaches the server is about a block which the file routes to it and which it hosts; a
    client's entry for a block of the server is not filled from a block of another one; and
    where the server hosts a block that is not routed to it, the block stays as created. -/
structure Apart (yaml : YamlFile) (file sid : String) (conf : ServerConf) (tr : ClusterTrace ι)
    (s : Cluster ι) : Prop where
  requests : ∀ t ∈ tr, ∀ c tag req ans, t.event = (sid, .critical c tag req ans) →
    ∃ ty blk shallow, req = emitBlock ty blk shallow ∧
      (Config.create yaml file).findServerIdByBlockId blk.id = sid ∧ blk.id ∈ conf.blocksId
  entries : ∀ c k e, (Config.create yaml file).findServerIdByBlockId k = sid →
    (s.client c).blocks k = some e → (Config.create yaml file).findServerIdByBlockId e.id = sid
  untouched : ∀ k ∈ conf.blocksId, (Config.create yaml file).findServerIdByBlockId k ≠ sid →
    (s.host sid).server.blocks k = some (BlockServer.create k)

/-- **Servers do not share blocks**, in every run of a cluster configured from one file, even
    where replies come late. -/
theorem hosts_apart (hconf : Configured F yaml file) (hrun : ClusterRun F tr s)
    (hserver : (Config.create yaml file).find sid = some conf) :
    Apart yaml file sid conf tr s := by
  refine ⟨?_, ?_, ?_⟩
  · intro t ht c tag req ans hev
    obtain ⟨i, hi⟩ := List.getElem?_of_mem ht
    have hpre := hrun.take hi
    have hs := hrun.step_of_mem ht
    rw [hev] at hs
    obtain ⟨ty, blk, sh, -, hreq, hhere⟩ :=
      critical_here (run_view hpre sid) (step_view (run_routed hpre) hs)
    have hroute := (here_only hconf).mp hhere
    exact ⟨ty, blk, sh, hreq, hroute, hosted_of_routed hserver hroute⟩
  · intro c k e hroute he
    have hscope := run_inScope (run_view hrun sid) c
    have hconfig : (s.client c).config.findServerIdByBlockId k = sid := by
      rw [run_config hrun c, hconf.config c]
      exact hroute
    have hentry : ((view sid s).link c).client.blocks k = some e :=
      (restrict_blocks hconfig).trans he
    exact (here_only hconf).mp (hscope.entries k e hentry)
  · intro k hk hroute
    have hsame := run_elsewhere (k := k) (run_view hrun sid) fun c hhere =>
      hroute ((here_only hconf).mp hhere)
    have hblocks : (F.only sid).blocksId = conf.blocksId := hconf.blocks sid conf hserver
    rw [hblocks, Server.create_blocks, if_pos hk] at hsame
    exact hsame

end OneFile

/-- A file of two servers; both list block 8, which is routed to the later one. -/
def twoServersFile : YamlFile :=
  ⟨fun _ => .document
    [⟨.value "10.0.0.1", .value "5000", .value [7, 8], .value "pass", .value "", .value ""⟩,
     ⟨.value "10.0.0.9", .value "5000", .value [8], .value "pass", .value "", .value ""⟩]⟩

/-- The two servers with two clients, everything connected. -/
def twoServers : Fleet Bool where
  blocksId := fun sid =>
    match (Config.create twoServersFile "dmconfig.yml").find sid with
    | some conf => conf.blocksId
    | none => []
  clientId := fun c _ => if c then "10.0.0.3:40001" else "10.0.0.2:40001"
  config := fun _ => Config.create twoServersFile "dmconfig.yml"
  sockets := fun _ _ => some ⟨true⟩

theorem twoServers_configured : Configured twoServers twoServersFile "dmconfig.yml" where
  config := fun _ => rfl
  blocks := by
    intro sid conf hfind
    show (match (Config.create twoServersFile "dmconfig.yml").find sid with
      | some conf => conf.blocksId
      | none => []) = conf.blocksId
    rw [hfind]

/-- Both clients map block 7, the second writes it and the first updates; in between the second
    maps block 8, on the other server. -/
def bothServers : List (Action Bool) :=
  [.call false (.map 7 (Data.memset 1)), .call true (.map 7 (Data.memset 2)),
   .serve "10.0.0.1:5000" true, .serve "10.0.0.1:5000" false, .receive true, .receive false,
   .call true (.map 8 (Data.memset 3)), .poke false 7 (Data.memset 66),
   .serve "10.0.0.9:5000" true, .receive true, .poke true 7 (Data.memset 65),
   .call true (.write 7), .serve "10.0.0.1:5000" true, .receive true, .call false (.update 7),
   .serve "10.0.0.1:5000" false, .receive false]

theorem hosts_apart_bothServers :
    ∃ tr s conf, ClusterRun twoServers tr s ∧ tr.length = 17 ∧
      (Config.create twoServersFile "dmconfig.yml").find "10.0.0.1:5000" = some conf ∧
      Apart twoServersFile "dmconfig.yml" "10.0.0.1:5000" conf tr s := by
  obtain ⟨q, hq, hlen⟩ := Option.map_eq_some_iff.mp (show
    (exec (next twoServers) twoServers.start bothServers).map (fun q => q.1.length) = some 17 by
      decide +kernel)
  obtain ⟨conf, hconf⟩ := Option.isSome_iff_exists.mp (show
    ((Config.create twoServersFile "dmconfig.yml").find "10.0.0.1:5000").isSome = true by
      decide +kernel)
  have hrun := run_of_exec _ (next_sound _) bothServers _ hq
  exact ⟨q.1, q.2, conf, hrun, hlen, hconf, hosts_apart twoServers_configured hrun hconf⟩

section OneFile

variable {yaml : YamlFile} {file sid : String} {conf : ServerConf}

/-- What a client that mapped a block holds, below the bound on the writes. -/
theorem mapped_copy (hconf : Configured F yaml file) (hrun : ClusterRun F tr s)
    (hno : NoTimeouts tr) (hserver : (Config.create yaml file).find sid = some conf) {k : Int32}
    (hroute : (Config.create yaml file).findServerIdByBlockId k = sid)
    (hwrites : acceptedWrites k (only sid tr) < 0x7fffffff) {c : ι}
    (hmapped : mapped c k (only sid tr) = true) :
    ∃ e u d, (s.client c).blocks k = some e ∧ lastExchanged c k (only sid tr) = some d ∧
      u < 0x80000000 ∧ Copy (history k (only sid tr)) (some d) e u := by
  have hview := run_view hrun sid
  have hk : k ∈ (F.only sid).blocksId := by
    show k ∈ F.blocksId sid
    rw [hconf.blocks sid conf hserver]
    exact hosted_of_routed hserver hroute
  have hbound : (history k (only sid tr)).version < 0x80000000 := by
    rw [version_eq hview hk]
    omega
  have htracks := run_tracks hview (noTimeout_only hno sid) hk hbound c
  have hconfig : (s.client c).config.findServerIdByBlockId k = sid := by
    rw [run_config hrun c, hconf.config c]
    exact hroute
  have hentry : ((view sid s).link c).client.blocks k = (s.client c).blocks k :=
    restrict_blocks hconfig
  cases he : (s.client c).blocks k with
  | none =>
      have hm := (htracks.absent (hentry.trans he)).1
      rw [hm] at hmapped
      cases hmapped
  | some e =>
      obtain ⟨u, hcopy⟩ := htracks.copy e (hentry.trans he)
      obtain ⟨d, hd⟩ := Option.isSome_iff_exists.mp (htracks.content hmapped)
      rw [hd] at hcopy
      exact ⟨e, u, d, rfl, hd, Nat.lt_of_le_of_lt hcopy.le hbound, hcopy⟩

/-- **Coherence across the cluster.** Any two clients that have mapped a block are at
    revisions which the server of the block has been at, and where the revisions are equal, so
    is what they last exchanged with it. -/
theorem cluster_coherent (hconf : Configured F yaml file) (hrun : ClusterRun F tr s)
    (hno : NoTimeouts tr) (hserver : (Config.create yaml file).find sid = some conf) {k : Int32}
    (hroute : (Config.create yaml file).findServerIdByBlockId k = sid)
    (hwrites : acceptedWrites k (only sid tr) < 0x7fffffff) {c c' : ι}
    (hmapped : mapped c k (only sid tr) = true) (hmapped' : mapped c' k (only sid tr) = true) :
    ∃ e e' it, (s.client c).blocks k = some e ∧ (s.client c').blocks k = some e' ∧
      (s.host sid).server.blocks k = some it ∧
      0 ≤ e.revision.toInt ∧ e.revision.toInt ≤ it.revision.toInt ∧
      (e.revision = e'.revision →
        lastExchanged c k (only sid tr) = lastExchanged c' k (only sid tr)) ∧
      (e.revision = it.revision → lastExchanged c k (only sid tr) = some it.data) := by
  obtain ⟨e, u, d, he, hd, hu, hcopy⟩ := mapped_copy hconf hrun hno hserver hroute hwrites hmapped
  obtain ⟨e', u', d', he', hd', hu', hcopy'⟩ :=
    mapped_copy hconf hrun hno hserver hroute hwrites hmapped'
  have hk : k ∈ (F.only sid).blocksId := by
    show k ∈ F.blocksId sid
    rw [hconf.blocks sid conf hserver]
    exact hosted_of_routed hserver hroute
  have hbound : (history k (only sid tr)).version < 0x80000000 := by
    rw [version_eq (run_view hrun sid) hk]
    omega
  obtain ⟨it, hit, hrec⟩ := run_recorded (run_view hrun sid) hk
  refine ⟨e, e', it, he, he', hit, ?_, ?_, fun hrev => ?_, fun hrev => ?_⟩
  · rw [hcopy.revision, WrapCounter.toInt_ofNat hu]
    exact Int.natCast_nonneg u
  · rw [hcopy.revision, hrec.revision, WrapCounter.toInt_ofNat hu,
      WrapCounter.toInt_ofNat hbound]
    exact Int.ofNat_le.mpr hcopy.le
  · -- equal words stand for one version, which has one content
    rw [hcopy.revision, hcopy'.revision, WrapCounter.ofNat_eq_iff hu hu'] at hrev
    subst hrev
    have hsame := (hcopy.content d rfl).symm.trans (hcopy'.content d' rfl)
    rw [hd, hd', hsame]
  · rw [hcopy.revision, hrec.revision, WrapCounter.ofNat_eq_iff hu hbound] at hrev
    subst hrev
    have hsame := (hcopy.content d rfl).symm.trans (coherent_current _)
    rw [hd, hrec.data, Option.some.inj hsame]

end OneFile

theorem cluster_coherent_bothServers :
    ∃ tr s e e' it, ClusterRun twoServers tr s ∧
      acceptedWrites 7 (only "10.0.0.1:5000" tr) = 1 ∧
      (s.client false).blocks 7 = some e ∧ (s.client true).blocks 7 = some e' ∧
      (s.host "10.0.0.1:5000").server.blocks 7 = some it ∧
      0 ≤ e.revision.toInt ∧ e.revision.toInt ≤ it.revision.toInt ∧
      (e.revision = e'.revision →
        lastExchanged false 7 (only "10.0.0.1:5000" tr)
          = lastExchanged true 7 (only "10.0.0.1:5000" tr)) ∧
      (e.revision = it.revision →
        lastExchanged false 7 (only "10.0.0.1:5000" tr) = some it.data) := by
  obtain ⟨q, hq, hfacts⟩ := Option.map_eq_some_iff.mp (show
    (exec (next twoServers) twoServers.start bothServers).map
      (fun q => (decide (NoTimeouts q.1), acceptedWrites 7 (only "10.0.0.1:5000" q.1),
        mapped false 7 (only "10.0.0.1:5000" q.1), mapped true 7 (only "10.0.0.1:5000" q.1)))
      = some (true, 1, true, true) by decide +kernel)
  obtain ⟨hno, hfacts⟩ := Prod.mk.inj hfacts
  obtain ⟨hwrites, hfacts⟩ := Prod.mk.inj hfacts
  obtain ⟨hmapped, hmapped'⟩ := Prod.mk.inj hfacts
  obtain ⟨conf, hconf⟩ := Option.isSome_iff_exists.mp (show
    ((Config.create twoServersFile "dmconfig.yml").find "10.0.0.1:5000").isSome = true by
      decide +kernel)
  have hrun := run_of_exec _ (next_sound _) bothServers _ hq
  obtain ⟨e, e', it, h⟩ := cluster_coherent twoServers_configured hrun (of_decide_eq_true hno)
    hconf (k := 7) (by decide +kernel) (by rw [hwrites]; decide) hmapped hmapped'
  exact ⟨q.1, q.2, e, e', it, hrun, hwrites, h⟩

end DmCluster
