import DistributedMemory.DmClusterProofs
import DistributedMemory.DmProgressProofs

/-!
# Calls as single steps — what the library is to the programs that use it

A program that calls `dm_block_map` and the others does not see requests, replies, threads
or conditions. To it the servers are a table of blocks that everybody shares, and a call is
one access to it.

* **`Board`**, **`Step`** — that table and the clients; a call is one step, in which the
  request is made, served and answered. A WAIT for the present revision has no step.
* **`board`** — what a state of the cluster is to the programs: a call counts as made when
  the reply to it is on its way.
* **`calls_atomic`** — every run of the cluster without timeouts is a run of the board, with
  every call made at one moment between its start and its return; and every run of the board
  is one of the cluster.
-/

namespace DmAtomic

open DmBlock DmConfig DmMessage DmClient DmServer DmHost DmSystem DmPairing DmProgress
  DmCluster LabelledRun

variable {ι : Type} [DecidableEq ι]

/-! ## The board -/

/-- The blocks of every server, and the clients. -/
structure Board (ι : Type) where
  table : String → Int32 → Option BlockServer
  client : ι → Client
  dead : ι → Bool

/-- What a program does: a call that returns, one that the process dies of, a change to the
    memory it mapped. -/
inductive Deed (ι : Type) where
  | called (c : ι) (call : Call) (code : Int)
  | died (c : ι) (call : Call)
  | poked (c : ι) (id : Int32)
  deriving DecidableEq

/-- Who does it. -/
def Deed.party : Deed ι → ι
  | .called c _ _ => c
  | .died c _ => c
  | .poked c _ => c

namespace Board

/-- A server with the blocks of the table. -/
def server (a : Board ι) (sid : String) : Server := ⟨a.table sid, []⟩

def setTable (a : Board ι) (sid : String) (blocks : Int32 → Option BlockServer) : Board ι :=
  { a with table := Function.update a.table sid blocks }

def setClient (a : Board ι) (c : ι) (client : Client) : Board ι :=
  { a with client := Function.update a.client c client }

def setDead (a : Board ι) (c : ι) : Board ι :=
  { a with dead := Function.update a.dead c true }

end Board

/-- One step of the board. -/
inductive Step (F : Fleet ι) : Board ι → Deed ι → Board ι → Prop where
  /-- A call that returns without a request. -/
  | returned {a : Board ι} {c : ι} {call : Call} {code : Int} {client : Client}
      (halive : a.dead c = false) (hsend : (a.client c).send call = .ok (.returned code client)) :
      Step F a (.called c call code) (a.setClient c client)
  /-- A call that is served and answered. -/
  | exchanged {a : Board ι} {c : ι} {call : Call} {sid : String} {req reply : Node}
      {client client' : Client} {sec : Section} {code : Int} (halive : a.dead c = false)
      (hsend : (a.client c).send call = .ok (.sent sid req client))
      (hserve : (a.server sid).clientHandler (F.clientId c sid) (Message.ofNode req) = .ok sec)
      (hreply : sec.outcome = .send reply)
      (hrecv : client.receive call (some reply) = .ok (code, client')) :
      Step F a (.called c call code) ((a.setTable sid sec.server.blocks).setClient c client')
  | died {a : Board ι} {c : ι} {call : Call} {f : Fault} (halive : a.dead c = false)
      (hsend : (a.client c).send call = .error f) :
      Step F a (.died c call) (a.setDead c)
  | poked {a : Board ι} {c : ι} {id : Int32} {e : BlockLocal} (d : Data)
      (halive : a.dead c = false) (he : (a.client c).blocks id = some e) :
      Step F a (.poked c id)
        (a.setClient c ((a.client c).setBlock id (some { e with data := d })))

/-! ## The board of a cluster -/

/-- A client before it sent the request of a call: a map has made its entry then. -/
def unsent (call : Call) (client : Client) : Client :=
  match call with
  | .map id _ => client.setBlock id none
  | _ => client

/-- What the call in progress will return, and to what client, if the reply is on its way. -/
def owed (s : Cluster ι) (c : ι) : Option (Call × Int × Client) :=
  match s.pending c with
  | none => none
  | some (sid, p) =>
      match (s.wire c sid).replies with
      | [] => none
      | (_, reply) :: _ =>
          match (s.client c).receive p.call (some reply) with
          | .error _ => none
          | .ok (code, client) => some (p.call, code, client)

/-- The client to which a call has happened exactly if it was answered. -/
def settled (s : Cluster ι) (c : ι) : Client :=
  match s.pending c with
  | none => s.client c
  | some (_, p) =>
      match owed s c with
      | none => unsent p.call (s.client c)
      | some (_, _, client) => client

/-- What the programs see of a cluster. -/
def board (s : Cluster ι) : Board ι where
  table := fun sid => (s.host sid).server.blocks
  client := settled s
  dead := fun c => (s.died c).isSome

/-- What the programs see of a step: a call is made when it is answered. -/
def seen (t : Entry (Cluster ι) (String × Event ι)) : Option (Deed ι) :=
  match t.event.2 with
  | .returned c call code => some (.called c call code)
  | .died c call => some (.died c call)
  | .poked c id => some (.poked c id)
  | .critical c _ _ (some _) =>
      (owed t.post c).map fun r => .called c r.1 r.2.1
  | _ => none

/-! ## What a server's conditions do not decide -/

/-- What a section comes to, but for the conditions. -/
def essence (sec : Section) : Outcome × (Int32 → Option BlockServer) :=
  (sec.outcome, sec.server.blocks)

/-- **No branch looks at the conditions**: servers with the same blocks give the same reply and
    are left with the same blocks. -/
theorem clientHandler_essence {s s' : Server} (h : s'.blocks = s.blocks) (clientId : String)
    (msg : Message) :
    (s'.clientHandler clientId msg).map essence = (s.clientHandler clientId msg).map essence := by
  obtain ⟨blocks, w⟩ := s
  obtain ⟨blocks', w'⟩ := s'
  obtain rfl : blocks' = blocks := h
  rw [Server.clientHandler, Server.clientHandler]
  cases msg.type with
  | map =>
      cases msg.deref with
      | error f => rfl
      | ok p =>
          simp only [Server.handleMap]
          cases blocks' p.1.id with
          | none => rfl
          | some it => dsimp only; split <;> rfl
  | unmap =>
      cases msg.deref with
      | error f => rfl
      | ok p =>
          simp only [Server.handleUnmap]
          cases blocks' p.1.id with
          | none => rfl
          | some it => dsimp only; split <;> rfl
  | update =>
      cases msg.deref with
      | error f => rfl
      | ok p =>
          simp only [Server.handleUpdate]
          cases blocks' p.1.id with
          | none => rfl
          | some it =>
              dsimp only
              cases p.2.deref with
              | error f => rfl
              | ok q => dsimp only; split <;> rfl
  | write =>
      cases msg.deref with
      | error f => rfl
      | ok p =>
          simp only [Server.handleWrite]
          cases blocks' p.1.id with
          | none => rfl
          | some it =>
              dsimp only
              cases p.2.deref with
              | error f => rfl
              | ok q => dsimp only; split <;> rfl
  | wait =>
      cases msg.deref with
      | error f => rfl
      | ok p =>
          simp only [Server.handleWait]
          cases blocks' p.1.id with
          | none => rfl
          | some it =>
              dsimp only
              cases p.2.deref with
              | error f => rfl
              | ok q => dsimp only; split <;> rfl
  | ack => rfl
  | nack => rfl
  | undef => rfl

theorem clientHandler_blocks {s s' : Server} (h : s'.blocks = s.blocks) {clientId : String}
    {msg : Message} {sec : Section} (hsec : s.clientHandler clientId msg = .ok sec) :
    ∃ sec', s'.clientHandler clientId msg = .ok sec' ∧ sec'.outcome = sec.outcome ∧
      sec'.server.blocks = sec.server.blocks := by
  have hsame := clientHandler_essence h clientId msg
  rw [hsec] at hsame
  cases hsec' : s'.clientHandler clientId msg with
  | error f =>
      rw [hsec'] at hsame
      cases hsame
  | ok sec' =>
      rw [hsec'] at hsame
      obtain ⟨houtcome, hblocks⟩ := Prod.mk.inj (Except.ok.inj hsame)
      exact ⟨sec', rfl, houtcome, hblocks⟩

/-- **A thread that wakes up does what it would do on reading the request now.** -/
theorem critical_handler {clientId : ι → String} {h h' : Host ι} {c : ι} {tag : Nat}
    {req : Node} {ans : Option Node} (hset : Settled h)
    (hs : DmHost.Step clientId h (.critical c tag req ans) h') :
    ∃ sec, h.server.clientHandler (clientId c) (Message.ofNode req) = .ok sec ∧
      h' = h.leave c tag sec ∧ ans = answer sec := by
  cases hs with
  | first _ hpass => exact ⟨_, hpass, rfl, rfl⟩
  | @again _ _ k msg sec hawake hloop =>
      obtain ⟨b, it, hw, -⟩ := hset.awake c tag k msg hawake
      have htype : (Message.ofNode msg.node).type = .wait :=
        (Message.type_congr rfl).trans hw.type
      refine ⟨sec, ?_, rfl, rfl⟩
      rw [Server.clientHandler, htype, hw.decodes]
      show h.server.handleWait b.id msg = .ok sec
      rw [hw.names]
      exact hloop

/-! ## Calls in progress -/

section Reachable

variable {F : Fleet ι} {tr : ClusterTrace ι} {s s' : Cluster ι}

omit [DecidableEq ι] in
theorem pending_of_view {sid : String} {c : ι} {p : Pending}
    (h : ((view sid s).link c).pending = some p) : s.pending c = some (sid, p) := by
  have hon : pendingOn sid (s.pending c) = some p := h
  cases hp : s.pending c with
  | none =>
      rw [hp] at hon
      cases hon
  | some x =>
      obtain ⟨sid', q⟩ := x
      rw [hp] at hon
      by_cases heq : sid' = sid
      · rw [pendingOn, if_pos heq] at hon
        rw [heq, Option.some.inj hon]
      · rw [pendingOn, if_neg heq] at hon
        cases hon

/-- What `send` changed is taken back. -/
theorem unsent_of_sent {c c' : Client} {call : Call} {sid : String} {req : Node}
    (h : c.send call = .ok (.sent sid req c')) : unsent call c' = c := by
  obtain ⟨e, hreq⟩ := Client.send_sent h
  by_cases hmap : call.type = .map
  · obtain ⟨id, address, rfl⟩ := Call.eq_map hmap
    obtain ⟨hfree, -⟩ := hreq.created id address rfl
    have hblocks : (c'.setBlock id none).blocks = c.blocks := by
      refine funext fun k => ?_
      by_cases hk : k = id
      · rw [hk, hfree]
        exact Client.setBlock_same ..
      · rw [Client.setBlock_other _ _ hk]
        exact hreq.others k hk
    show c'.setBlock id none = c
    obtain ⟨hconfig, hsockets⟩ := hreq.config
    cases c
    exact Client.mk.injEq .. |>.mpr ⟨hconfig, hsockets, hblocks⟩
  · obtain rfl := hreq.same hmap
    cases call with
    | map id address => exact absurd rfl hmap
    | unmap id => rfl
    | update id => rfl
    | write id => rfl
    | wait id => rfl

/-- The client of a call in progress lives, and is as the call's `send` left it. -/
def Asked (s : Cluster ι) : Prop :=
  ∀ c sid p, s.pending c = some (sid, p) → s.died c = none ∧
    (unsent p.call (s.client c)).send p.call = .ok (.sent sid p.req (s.client c))

/-- What one client and its connections are. -/
structure SameSide (s s' : Cluster ι) (c : ι) : Prop where
  client : s'.client c = s.client c
  pending : s'.pending c = s.pending c
  died : s'.died c = s.died c
  wire : s'.wire c = s.wire c

/-- **A step is on one client's side**: every other client and its connections stay. -/
theorem step_aside {e : String × Event ι} (hs : DmCluster.Step F s e s') {u : ι}
    (hu : u ≠ e.2.party) : SameSide s s' u := by
  cases hs with
  | returned _ _ _ => exact ⟨Function.update_of_ne hu .., rfl, rfl, rfl⟩
  | sent _ _ _ =>
      exact ⟨Function.update_of_ne hu .., Function.update_of_ne hu .., rfl,
        Function.update_of_ne hu ..⟩
  | died _ _ _ => exact ⟨rfl, rfl, Function.update_of_ne hu .., rfl⟩
  | poked _ _ _ _ => exact ⟨Function.update_of_ne hu .., rfl, rfl, rfl⟩
  | request _ _ _ => exact ⟨rfl, rfl, rfl, Function.update_of_ne hu ..⟩
  | retry _ _ => exact ⟨rfl, rfl, rfl, Function.update_of_ne hu ..⟩
  | woken _ => exact ⟨rfl, rfl, rfl, rfl⟩
  | received _ _ _ _ =>
      exact ⟨Function.update_of_ne hu .., Function.update_of_ne hu .., rfl,
        Function.update_of_ne hu ..⟩
  | receivedDied _ _ _ _ =>
      exact ⟨rfl, Function.update_of_ne hu .., Function.update_of_ne hu ..,
        Function.update_of_ne hu ..⟩
  | timedOut _ _ _ _ =>
      exact ⟨Function.update_of_ne hu .., Function.update_of_ne hu .., rfl,
        Function.update_of_ne hu ..⟩

theorem step_asked {e : String × Event ι} (h : Asked s) (hs : DmCluster.Step F s e s') :
    Asked s' := by
  intro u sid p hp
  by_cases hu : u = e.2.party
  · cases hs with
    | returned hidle _ _ =>
        obtain rfl := hu
        cases hidle.symm.trans hp
    | @sent c call sid' req client _ halive hsend =>
        obtain rfl : u = c := hu
        have hself : (sid', (⟨call, (s.wire u sid').sent, req⟩ : Pending)) = (sid, p) := by
          simpa [Cluster.setPending, Cluster.setWire] using hp
        obtain ⟨rfl, rfl⟩ := Prod.mk.inj hself
        have hclient : (((s.setClient u client).setPending u
            (some (sid', ⟨call, (s.wire u sid').sent, req⟩))).setWire u sid'
              ((s.wire u sid').write req)).client u = client := Function.update_self ..
        rw [hclient]
        refine ⟨halive, ?_⟩
        show (unsent call client).send call = _
        rw [unsent_of_sent hsend]
        exact hsend
    | died hidle _ _ =>
        obtain rfl := hu
        cases hidle.symm.trans hp
    | poked _ hidle _ _ =>
        obtain rfl := hu
        cases hidle.symm.trans hp
    | request _ _ _ => exact h u sid p hp
    | retry _ _ => exact h u sid p hp
    | woken _ => exact h u sid p hp
    | received _ _ _ _ =>
        obtain rfl := hu
        simp [Cluster.setPending, Cluster.setWire] at hp
    | receivedDied _ _ _ _ =>
        obtain rfl := hu
        simp [Cluster.setPending, Cluster.setWire] at hp
    | timedOut _ _ _ _ =>
        obtain rfl := hu
        simp [Cluster.setPending, Cluster.setWire] at hp
  · have hside := step_aside hs hu
    rw [hside.pending] at hp
    rw [hside.client, hside.died]
    exact h u sid p hp

theorem run_asked (hrun : ClusterRun F tr s) : Asked s :=
  hrun.invariant (fun _ _ _ hp => by cases hp) fun _ _ _ h hs => step_asked h hs

/-! ## What the programs see of one step -/

section Owed

variable {c : ι} {sid : String} {p : Pending}

omit [DecidableEq ι] in
theorem owed_idle (hp : s.pending c = none) : owed s c = none := by
  rw [owed, hp]

omit [DecidableEq ι] in
theorem settled_idle (hp : s.pending c = none) : settled s c = s.client c := by
  rw [settled, hp]

omit [DecidableEq ι] in
theorem owed_asked (hp : s.pending c = some (sid, p)) (hrep : (s.wire c sid).replies = []) :
    owed s c = none := by
  rw [owed, hp]
  dsimp only
  rw [hrep]

omit [DecidableEq ι] in
theorem settled_asked (hp : s.pending c = some (sid, p))
    (hrep : (s.wire c sid).replies = []) : settled s c = unsent p.call (s.client c) := by
  rw [settled, hp]
  dsimp only
  rw [owed_asked hp hrep]

omit [DecidableEq ι] in
theorem owed_answered {tag : Nat} {reply : Node} {rest : List (Nat × Node)} {code : Int}
    {client : Client} (hp : s.pending c = some (sid, p))
    (hrep : (s.wire c sid).replies = (tag, reply) :: rest)
    (hrecv : (s.client c).receive p.call (some reply) = .ok (code, client)) :
    owed s c = some (p.call, code, client) := by
  rw [owed, hp]
  dsimp only
  rw [hrep]
  dsimp only
  rw [hrecv]

omit [DecidableEq ι] in
theorem settled_answered {r : Call × Int × Client} (hp : s.pending c = some (sid, p))
    (h : owed s c = some r) : settled s c = r.2.2 := by
  rw [settled, hp]
  dsimp only
  rw [h]

omit [DecidableEq ι] in
/-- The replies are all that counts on the way. -/
theorem owed_congr (hclient : s'.client c = s.client c) (hpending : s'.pending c = s.pending c)
    (hreplies : ∀ sid, (s'.wire c sid).replies = (s.wire c sid).replies) :
    owed s' c = owed s c := by
  rw [owed, owed, hclient, hpending]
  cases s.pending c with
  | none => rfl
  | some x =>
      dsimp only
      rw [hreplies]

omit [DecidableEq ι] in
theorem settled_congr (hclient : s'.client c = s.client c)
    (hpending : s'.pending c = s.pending c)
    (hreplies : ∀ sid, (s'.wire c sid).replies = (s.wire c sid).replies) :
    settled s' c = settled s c := by
  rw [settled, settled, owed_congr hclient hpending hreplies, hclient, hpending]

omit [DecidableEq ι] in
theorem SameSide.owed (h : SameSide s s' c) : owed s' c = owed s c :=
  owed_congr h.client h.pending fun sid => by rw [h.wire]

omit [DecidableEq ι] in
theorem SameSide.settled (h : SameSide s s' c) : settled s' c = settled s c :=
  settled_congr h.client h.pending fun sid => by rw [h.wire]

end Owed

/-- A step leaves the other clients on the board as they are. -/
theorem board_step {e : String × Event ι} (hs : DmCluster.Step F s e s') :
    (board s').table = (fun sid => (s'.host sid).server.blocks) ∧
      (board s').client = Function.update (board s).client e.2.party (settled s' e.2.party) ∧
      (board s').dead = Function.update (board s).dead e.2.party (s'.died e.2.party).isSome := by
  refine ⟨rfl, funext fun u => ?_, funext fun u => ?_⟩
  · by_cases hu : u = e.2.party
    · rw [hu, Function.update_self]
      rfl
    · rw [Function.update_of_ne hu]
      exact (step_aside hs hu).settled
  · by_cases hu : u = e.2.party
    · rw [hu, Function.update_self]
      rfl
    · rw [Function.update_of_ne hu]
      exact congrArg Option.isSome (step_aside hs hu).died

/-- A step in which no block changes and nobody dies is a change to one client at most. -/
theorem board_setClient {sid : String} {e : Event ι} {c : ι} (hs : DmCluster.Step F s (sid, e) s')
    (hc : e.party = c) (hhost : ∀ sid', (s'.host sid').server.blocks = (s.host sid').server.blocks)
    (hdied : s'.died c = s.died c) : board s' = (board s).setClient c (settled s' c) := by
  subst hc
  obtain ⟨-, hclient, hdead⟩ := board_step hs
  rw [hdied] at hdead
  have htable : (board s').table = (board s).table := funext hhost
  have hdead' : (board s').dead = (board s).dead := hdead.trans (Function.update_eq_self ..)
  exact Board.mk.injEq .. |>.mpr ⟨htable, hclient, hdead'⟩

/-- If moreover the client has done nothing new, the step is not seen. -/
theorem board_silent {sid : String} {e : Event ι} {c : ι} (hs : DmCluster.Step F s (sid, e) s')
    (hc : e.party = c) (hhost : ∀ sid', (s'.host sid').server.blocks = (s.host sid').server.blocks)
    (hdied : s'.died c = s.died c) (hsettled : settled s' c = settled s c) :
    board s' = board s := by
  rw [board_setClient hs hc hhost hdied, hsettled]
  exact Board.mk.injEq .. |>.mpr ⟨rfl, Function.update_eq_self .., rfl⟩

/-! ## The steps of a client -/

/-- What a request leaves behind. -/
theorem sent_inv {sid : String} {c : ι} {p : Pending}
    (hs : DmCluster.Step F s (sid, .sent c p) s') :
    s.pending c = none ∧ s'.pending c = some (sid, p) ∧ s'.host = s.host ∧ s'.died = s.died ∧
      (s'.wire c sid).replies = (s.wire c sid).replies ∧
      (s.client c).send p.call = .ok (.sent sid p.req (s'.client c)) := by
  cases hs with
  | @sent _ call _ req client hidle _ hsend =>
      refine ⟨hidle, Function.update_self .., rfl, rfl, ?_, ?_⟩
      · simp [Cluster.setWire, Wire.write, Cluster.setPending, Cluster.setClient]
      · show _ = Except.ok (Sending.sent sid req (Function.update s.client c client c))
        rw [Function.update_self]
        exact hsend

/-- What a receipt leaves behind. -/
theorem received_inv {sid : String} {c : ι} {p : Pending} {tag : Nat} {reply : Node}
    {code : Int} (hs : DmCluster.Step F s (sid, .received c p tag reply (some code)) s') :
    s.pending c = some (sid, p) ∧ s'.pending c = none ∧ s'.host = s.host ∧ s'.died = s.died ∧
      (∃ rest, (s.wire c sid).replies = (tag, reply) :: rest) ∧
      (s.client c).receive p.call (some reply) = .ok (code, s'.client c) := by
  cases hs with
  | @received _ _ _ _ _ rest _ client hp _ hrep hrecv =>
      refine ⟨hp, Function.update_self .., rfl, rfl, ⟨rest, hrep⟩, ?_⟩
      show _ = Except.ok (code, Function.update s.client c client c)
      rw [Function.update_self]
      exact hrecv

/-- In a run without timeouts no process dies of a reply. -/
theorem received_survives (hrun : ClusterRun F tr s) (hno : NoTimeouts tr) {sid : String} {c : ι}
    {p : Pending} {tag : Nat} {reply : Node} {code : Option Int}
    (hs : DmCluster.Step F s (sid, .received c p tag reply code) s') :
    ∃ code', code = some code' := by
  cases code with
  | some code' => exact ⟨code', rfl⟩
  | none =>
      exfalso
      have hview := run_view hrun sid
      have hsv := step_view (run_routed hrun) hs
      obtain ⟨hp, hrep⟩ := DmService.own_reply hview (noTimeout_only hno sid) hsv
      obtain ⟨code, client, hrecv⟩ := reply_returns hview hp hrep
      generalize view sid s' = v at hsv
      cases hsv with
      | receivedDied _ _ _ hdies => cases hrecv.symm.trans hdies

/-- A section that ends in sleep leaves the blocks alone. -/
theorem blocks_of_sleep {srv : Server} {clientId : String} {msg : Message} {sec : Section}
    (hsec : srv.clientHandler clientId msg = .ok sec) (hsleep : answer sec = none) :
    sec.server.blocks = srv.blocks := by
  rcases Server.clientHandler_cases hsec with ⟨-, rfl⟩ | ⟨b, m, -, hserved⟩
  · rfl
  · generalize msg.type = t at hserved
    cases hserved with
    | sleeps _ _ => rfl
    | mapped _ _ => cases hsleep
    | unmapped _ _ => cases hsleep
    | accepted _ _ => cases hsleep
    | unhosted _ _ => rfl
    | mapRefused _ _ => rfl
    | unmapRefused _ _ => rfl
    | entire _ _ => rfl
    | shallow _ _ => rfl
    | writeUnhosted _ => rfl
    | writeRefused _ _ => rfl
    | waitUnhosted _ => rfl
    | outdated _ _ => rfl

/-- What a critical section is in a run without timeouts: the service of the call in progress,
    from which nothing but the request is on its way. -/
structure Serving (F : Fleet ι) (s s' : Cluster ι) (sid : String) (c : ι) (tag : Nat) (req : Node)
    (ans : Option Node) (p : Pending) (sec : Section) : Prop where
  pending : s.pending c = some (sid, p)
  tag_eq : p.tag = tag
  req_eq : p.req = req
  replies : (s.wire c sid).replies = []
  handler : (s.host sid).server.clientHandler (F.clientId c sid) (Message.ofNode req) = .ok sec
  answer_eq : ans = answer sec
  server : (s'.host sid).server = sec.server
  hosts : ∀ sid', sid' ≠ sid → s'.host sid' = s.host sid'
  client : s'.client c = s.client c
  pending_eq : s'.pending c = s.pending c
  died : s'.died c = s.died c
  replied : (s'.wire c sid).replies = ans.toList.map fun n => (tag, n)
  wires : ∀ sid', sid' ≠ sid → s'.wire c sid' = s.wire c sid'

theorem serving_of_critical (hrun : ClusterRun F tr s) (hno : NoTimeouts tr) {sid : String}
    {c : ι} {tag : Nat} {req : Node} {ans : Option Node}
    (hs : DmCluster.Step F s (sid, .critical c tag req ans) s') :
    ∃ p sec, Serving F s s' sid c tag req ans p sec := by
  have hview := run_view hrun sid
  have hsv := step_view (run_routed hrun) hs
  obtain ⟨p, hp, htag, hreq, hrep⟩ := critical_pending hview (noTimeout_only hno sid) hsv
  obtain ⟨-, -, -, -, hhost⟩ := critical_queue hsv
  obtain ⟨sec, hhandler, hleave, hans⟩ := critical_handler (sys_settled hview) hhost
  have hnone : (s.wire c sid).replies = [] := hrep
  have hserver : (s'.host sid).server = sec.server := congrArg Host.server hleave
  obtain ⟨hhosts, hsame, hreplied, hwires⟩ : (∀ sid', sid' ≠ sid → s'.host sid' = s.host sid') ∧
      (s'.client c = s.client c ∧ s'.pending c = s.pending c ∧ s'.died c = s.died c) ∧
      (s'.wire c sid).replies = ans.toList.map (fun n => (tag, n)) ∧
      ∀ sid', sid' ≠ sid → s'.wire c sid' = s.wire c sid' := by
    cases hs with
    | request _ _ _ =>
        refine ⟨fun sid' hne => Function.update_of_ne hne .., ⟨rfl, rfl, rfl⟩, ?_, ?_⟩
        · simp [Cluster.setWire, Cluster.setHost, Wire.answered, hnone]
        · intro sid' hne
          simp [Cluster.setWire, Cluster.setHost, hne]
    | retry _ _ =>
        refine ⟨fun sid' hne => Function.update_of_ne hne .., ⟨rfl, rfl, rfl⟩, ?_, ?_⟩
        · simp [Cluster.setWire, Cluster.setHost, Wire.answered, hnone]
        · intro sid' hne
          simp [Cluster.setWire, Cluster.setHost, hne]
  exact ⟨p, sec, pending_of_view hp, htag, hreq, hnone, hhandler, hans, hserver, hhosts, hsame.1,
    hsame.2.1, hsame.2.2, hreplied, hwires⟩

/-- The reply will be understood, as its server's view of the client shows. -/
theorem reply_received (hrun : ClusterRun F tr s) {sid : String} {c : ι} {p : Pending}
    {reply : Node} (hp : s.pending c = some (sid, p))
    (hrep : (p.tag, reply) ∈ (s.wire c sid).replies) :
    ∃ code client, (s.client c).receive p.call (some reply) = .ok (code, client) := by
  have hroute : (s.client c).config.findServerIdByBlockId p.call.id = sid :=
    run_routed hrun c sid p hp
  obtain ⟨code, client, hrecv⟩ := reply_returns (run_view hrun sid) (pending_view hp) hrep
  have hframe := receive_frame (c := restrict sid (s.client c)) (d := s.client c)
    (some reply) (restrict_blocks hroute).symm
  rw [show (restrict sid (s.client c)).receive p.call (some reply) = _ from hrecv] at hframe
  exact ⟨code, _, hframe⟩

/-- **The moment of a call.** When the reply is sent, the call is one step of the board. -/
theorem exchanged_seen (hrun : ClusterRun F tr s) (hno : NoTimeouts tr) {sid : String} {c : ι}
    {tag : Nat} {req reply : Node}
    (hs : DmCluster.Step F s (sid, .critical c tag req (some reply)) s') :
    ∃ p code client, s.pending c = some (sid, p) ∧ owed s' c = some (p.call, code, client) ∧
      Step F (board s) (.called c p.call code) (board s') := by
  obtain ⟨p, sec, h⟩ := serving_of_critical hrun hno hs
  have hafter := hrun.snoc hs
  have hpending : s'.pending c = some (sid, p) := h.pending_eq.trans h.pending
  have hreplied : (s'.wire c sid).replies = [(p.tag, reply)] := by
    rw [h.replied, h.tag_eq]
    rfl
  have hmem : (p.tag, reply) ∈ (s'.wire c sid).replies := by
    rw [hreplied]
    exact List.mem_cons_self
  obtain ⟨code, client, hrecv⟩ := reply_received hafter hpending hmem
  have howed := owed_answered hpending hreplied hrecv
  refine ⟨p, code, client, h.pending, howed, ?_⟩
  obtain ⟨hlives, hsend⟩ := run_asked hrun c sid p h.pending
  obtain ⟨sec', hserve, houtcome, hblocks⟩ :=
    clientHandler_blocks (show ((board s).server sid).blocks = (s.host sid).server.blocks from rfl)
      h.handler
  have hclient : (board s).client c = unsent p.call (s.client c) :=
    settled_asked h.pending h.replies
  have hreply : sec'.outcome = .send reply := houtcome.trans (outcome_of_answer h.answer_eq)
  rw [← h.client] at hsend
  rw [show (unsent p.call (s'.client c)) = (board s).client c by rw [hclient, h.client]] at hsend
  have hstep := Step.exchanged (F := F) (a := board s) (c := c)
    (show (s.died c).isSome = false by rw [hlives]; rfl) hsend
    (by rw [h.req_eq]; exact hserve) hreply hrecv
  have hboard : board s'
      = ((board s).setTable sid sec'.server.blocks).setClient c client := by
    obtain ⟨-, hclients, hdead⟩ := board_step hs
    have htable : (board s').table
        = Function.update (board s).table sid sec'.server.blocks := by
      refine funext fun sid' => ?_
      by_cases hsid : sid' = sid
      · rw [hsid, Function.update_self, hblocks, ← h.server]
        rfl
      · rw [Function.update_of_ne hsid]
        exact congrArg (fun host => host.server.blocks) (h.hosts sid' hsid)
    have hclient' : (board s').client = Function.update (board s).client c client := by
      rw [hclients]
      exact congrArg (Function.update (board s).client c) (settled_answered hpending howed)
    have hdead' : (board s').dead = (board s).dead := by
      rw [hdead]
      refine funext fun u => ?_
      by_cases hu : u = c
      · rw [hu]
        exact (Function.update_self ..).trans (congrArg Option.isSome h.died)
      · exact Function.update_of_ne hu ..
    exact Board.mk.injEq .. |>.mpr ⟨htable, hclient', hdead'⟩
  rw [hboard]
  exact hstep

/-- **What the programs see of a step**: nothing, or one step of the board. -/
theorem step_board (hrun : ClusterRun F tr s) (hno : NoTimeouts tr) {e : String × Event ι}
    (hs : DmCluster.Step F s e s') (hlate : e.2.isTimeout = false) :
    (seen ⟨s, e, s'⟩ = none ∧ board s' = board s) ∨
      ∃ d, seen ⟨s, e, s'⟩ = some d ∧ Step F (board s) d (board s') := by
  obtain ⟨sid, ev⟩ := e
  cases ev with
  | returned c call code =>
      right
      refine ⟨.called c call code, rfl, ?_⟩
      have hboard := board_setClient (c := c) hs rfl
      cases hs with
      | @returned _ _ _ client hidle halive hsend =>
          have hclient : settled (s.setClient c client) c = client :=
            (settled_idle (s := s.setClient c client) hidle).trans (Function.update_self ..)
          rw [hboard (fun _ => rfl) rfl, hclient]
          refine .returned (congrArg Option.isSome halive) ?_
          rw [show (board s).client c = s.client c from settled_idle hidle]
          exact hsend
  | sent c p =>
      left
      obtain ⟨hidle, hpending, hhost, hdied, hreplies, hsend⟩ := sent_inv hs
      refine ⟨rfl, board_silent (c := c) hs rfl (fun _ => by rw [hhost]) (by rw [hdied]) ?_⟩
      -- nothing was on its way when the call was made
      have hrep : (s.wire c sid).replies = [] :=
        (idle_quiet (run_view hrun sid) (noTimeout_only hno sid) (idle_view hidle)).1
      rw [settled_asked hpending (hreplies.trans hrep), settled_idle hidle]
      exact unsent_of_sent hsend
  | died c call =>
      right
      refine ⟨.died c call, rfl, ?_⟩
      obtain ⟨htable, hclients, hdead⟩ := board_step hs
      cases hs with
      | @died _ _ f hidle halive hsend =>
          have hclients' := hclients.trans (Function.update_eq_self ..)
          have hsome : ((s.setDied c (s.route c call.id)).died c).isSome = true := by
            simp [Cluster.setDied]
          rw [show board (s.setDied c (s.route c call.id)) = (board s).setDead c from
            Board.mk.injEq .. |>.mpr ⟨htable, hclients', hdead.trans (congrArg _ hsome)⟩]
          refine .died (f := f) (congrArg Option.isSome halive) ?_
          rw [show (board s).client c = s.client c from settled_idle hidle]
          exact hsend
  | poked c id =>
      right
      refine ⟨.poked c id, rfl, ?_⟩
      have hboard := board_setClient (c := c) hs rfl
      cases hs with
      | @poked _ _ e d hidle halive he =>
          have hclient : settled (s.setClient c
              ((s.client c).setBlock id (some { e with data := d }))) c
                = (s.client c).setBlock id (some { e with data := d }) :=
            (settled_idle (s := s.setClient c _) hidle).trans (Function.update_self ..)
          have hsame : (board s).client c = s.client c := settled_idle hidle
          rw [hboard (fun _ => rfl) rfl, hclient, ← hsame]
          refine .poked d (congrArg Option.isSome halive) ?_
          rw [hsame]
          exact he
  | critical c tag req ans =>
      cases ans with
      | some reply =>
          right
          obtain ⟨p, code, client, -, howed, hstep⟩ := exchanged_seen hrun hno hs
          refine ⟨_, ?_, hstep⟩
          show (owed s' c).map _ = _
          rw [howed]
          rfl
      | none =>
          left
          obtain ⟨p, sec, h⟩ := serving_of_critical hrun hno hs
          refine ⟨rfl, board_silent (c := c) hs rfl ?_ h.died ?_⟩
          · intro sid'
            by_cases hsid : sid' = sid
            · rw [hsid, h.server]
              exact blocks_of_sleep h.handler h.answer_eq.symm
            · rw [h.hosts sid' hsid]
          · refine settled_congr h.client h.pending_eq fun sid' => ?_
            by_cases hsid : sid' = sid
            · rw [hsid, h.replied, h.replies]
              rfl
            · rw [h.wires sid' hsid]
  | woken c =>
      left
      refine ⟨rfl, ?_⟩
      have hboard := board_silent (c := c) hs rfl
      cases hs with
      | @woken _ _ host hhost =>
          refine hboard ?_ rfl rfl
          intro sid'
          by_cases hsid : sid' = sid
          · rw [hsid]
            show (Function.update s.host sid host sid).server.blocks = _
            rw [Function.update_self, server_woken hhost]
          · show (Function.update s.host sid host sid').server.blocks = _
            rw [Function.update_of_ne hsid]
  | received c p tag reply code =>
      left
      obtain ⟨code, rfl⟩ := received_survives hrun hno hs
      obtain ⟨hp, hidle, hhost, hdied, ⟨rest, hrep⟩, hrecv⟩ := received_inv hs
      refine ⟨rfl, board_silent (c := c) hs rfl (fun _ => by rw [hhost]) (by rw [hdied]) ?_⟩
      rw [settled_idle hidle, settled_answered hp (owed_answered hp hrep hrecv)]
  | timedOut c p => cases hlate

/-! ## What the calls return -/

/-- A call of client `c` that came to its end, and what it returned. -/
def outcome (c : ι) : Event ι → Option (Call × Int)
  | .returned u call code => if u = c then some (call, code) else none
  | .received u p _ _ (some code) => if u = c then some (p.call, code) else none
  | _ => none

/-- A call of client `c` on the board. -/
def made (c : ι) : Deed ι → Option (Call × Int)
  | .called u call code => if u = c then some (call, code) else none
  | _ => none

/-- What the call in progress will return, if it was answered. -/
def due (s : Cluster ι) (c : ι) : List (Call × Int) :=
  (owed s c).toList.map fun r => (r.1, r.2.1)

omit [DecidableEq ι] in
theorem due_none {c : ι} (h : owed s c = none) : due s c = [] := by
  rw [due, h]
  rfl

omit [DecidableEq ι] in
theorem due_some {c : ι} {call : Call} {code : Int} {client : Client}
    (h : owed s c = some (call, code, client)) : due s c = [(call, code)] := by
  rw [due, h]
  rfl

/-- **Every call returns what it was made with**: what a client is due and what it is given by
    a step on the board are what its calls return in the step and what it is due afterwards. -/
theorem step_due (hrun : ClusterRun F tr s) (hno : NoTimeouts tr) {e : String × Event ι}
    (hs : DmCluster.Step F s e s') (hlate : e.2.isTimeout = false) (c : ι) :
    due s c ++ ((seen ⟨s, e, s'⟩).bind (made c)).toList
      = (outcome c e.2).toList ++ due s' c := by
  obtain ⟨sid, ev⟩ := e
  by_cases hc : c = ev.party
  · cases ev with
    | returned u call code =>
        obtain rfl : c = u := hc
        have hmade : made c (.called c call code) = some (call, code) := if_pos rfl
        have hout : outcome c (.returned c call code) = some (call, code) := if_pos rfl
        show due s c ++ (made c (.called c call code)).toList = _
        rw [hmade, hout]
        cases hs with
        | @returned _ _ _ client hidle _ _ =>
            rw [due_none (owed_idle hidle),
              due_none (owed_idle (s := s.setClient c client) hidle)]
            rfl
    | sent u p =>
        obtain rfl : c = u := hc
        obtain ⟨hidle, hpending, -, -, hreplies, -⟩ := sent_inv hs
        have hrep : (s.wire c sid).replies = [] :=
          (idle_quiet (run_view hrun sid) (noTimeout_only hno sid) (idle_view hidle)).1
        rw [due_none (owed_idle hidle), due_none (owed_asked hpending (hreplies.trans hrep))]
        rfl
    | died u call =>
        obtain rfl : c = u := hc
        cases hs with
        | died hidle _ _ =>
            rw [due_none (owed_idle hidle),
              due_none (owed_idle (s := s.setDied c (s.route c call.id)) hidle)]
            rfl
    | poked u id =>
        obtain rfl : c = u := hc
        cases hs with
        | poked d hidle _ _ =>
            rw [due_none (owed_idle hidle), due_none (owed_idle (s := s.setClient c _) hidle)]
            rfl
    | critical u tag req ans =>
        obtain rfl : c = u := hc
        obtain ⟨p, sec, h⟩ := serving_of_critical hrun hno hs
        rw [due_none (owed_asked h.pending h.replies)]
        cases ans with
        | none =>
            have hnone : owed s' c = none :=
              owed_asked (h.pending_eq.trans h.pending) h.replied
            rw [due_none hnone]
            rfl
        | some reply =>
            obtain ⟨p, code, client, -, howed, -⟩ := exchanged_seen hrun hno hs
            have hseen : seen ⟨s, (sid, .critical c tag req (some reply)), s'⟩
                = some (.called c p.call code) := by
              show (owed s' c).map _ = _
              rw [howed]
              rfl
            have hmade : made c (.called c p.call code) = some (p.call, code) := if_pos rfl
            rw [due_some howed, hseen, Option.bind_some, hmade]
            rfl
    | woken u =>
        obtain rfl : c = u := hc
        have hsame : due s' c = due s c := by
          cases hs
          rfl
        rw [hsame]
        show due s c ++ [] = [] ++ due s c
        rw [List.append_nil, List.nil_append]
    | received u p tag reply code =>
        obtain rfl : c = u := hc
        obtain ⟨code, rfl⟩ := received_survives hrun hno hs
        obtain ⟨hp, hidle, -, -, ⟨rest, hrep⟩, hrecv⟩ := received_inv hs
        have hout : outcome c (.received c p tag reply (some code)) = some (p.call, code) :=
          if_pos rfl
        rw [due_some (owed_answered hp hrep hrecv), due_none (owed_idle hidle), hout]
        rfl
    | timedOut u p => cases hlate
  -- a step on another client's side
  · have hdue : due s' c = due s c := by
      rw [due, due, (step_aside hs hc).owed]
    have hne : ∀ u, ev.party = u → (u = c) = False := by
      rintro u rfl
      exact eq_false fun h => hc h.symm
    rw [hdue]
    cases ev with
    | returned u call code => simp [seen, made, outcome, hne u rfl]
    | sent u p => simp [seen, outcome]
    | died u call => simp [seen, made, outcome]
    | poked u id => simp [seen, made, outcome]
    | critical u tag req ans =>
        cases ans with
        | none => simp [seen, outcome]
        | some reply =>
            cases howed : owed s' u with
            | none => simp [seen, outcome, howed]
            | some r => simp [seen, made, outcome, howed, hne u rfl]
    | woken u => simp [seen, outcome]
    | received u p tag reply code =>
        cases code with
        | none => simp [seen, outcome]
        | some code => simp [seen, outcome, hne u rfl]
    | timedOut u p => cases hlate

/-- The board's view of a run. -/
def deeds (tr : ClusterTrace ι) : List (Entry (Board ι) (Deed ι)) := imageOf board seen tr

/-- What the calls of client `c` returned in a run, oldest first. -/
def outcomes (c : ι) (tr : ClusterTrace ι) : List (Call × Int) :=
  tr.filterMap fun t => outcome c t.event.2

/-- What the calls of client `c` on the board returned. -/
def calls (c : ι) (atr : List (Entry (Board ι) (Deed ι))) : List (Call × Int) :=
  atr.filterMap fun t => made c t.event

theorem run_board (hrun : ClusterRun F tr s) (hno : NoTimeouts tr) :
    Run (Step F) (board F.start) (deeds tr) (board s) := by
  refine hrun.image fun t ht => ?_
  obtain ⟨i, hi⟩ := List.getElem?_of_mem ht
  exact step_board (hrun.take hi) (noTimeouts_take hno i) (hrun.step_of_mem ht) (hno t ht)

/-- What the calls of a client return in a run is what they return on the board, but for a
    reply that is on its way. -/
theorem calls_deeds (hrun : ClusterRun F tr s) (hno : NoTimeouts tr) (c : ι) :
    calls c (deeds tr) = outcomes c tr ++ due s c := by
  induction hrun with
  | nil => rfl
  | @snoc tr s s' e hrun hs ih =>
      have hstep := step_due hrun (fun t ht => hno t (List.mem_append_left _ ht)) hs
        (hno ⟨s, e, s'⟩ (List.mem_append_right _ List.mem_cons_self)) c
      have hlast : calls c (deeds [⟨s, e, s'⟩]) = ((seen ⟨s, e, s'⟩).bind (made c)).toList := by
        rw [calls, deeds, imageOf]
        cases hseen : seen ⟨s, e, s'⟩ with
        | none => simp [hseen]
        | some d => cases hmade : made c d <;> simp [hseen, hmade]
      have hout : outcomes c [⟨s, e, s'⟩] = (outcome c e.2).toList := by
        rw [outcomes]
        cases h : outcome c e.2 <;> simp [h]
      have hcalls : calls c (deeds (tr ++ [⟨s, e, s'⟩]))
          = calls c (deeds tr) ++ calls c (deeds [⟨s, e, s'⟩]) := by
        rw [calls, deeds, imageOf, List.filterMap_append, List.filterMap_append]
        rfl
      calc calls c (deeds (tr ++ [⟨s, e, s'⟩]))
          = (outcomes c tr ++ due s c) ++ ((seen ⟨s, e, s'⟩).bind (made c)).toList := by
            rw [hcalls, ih fun t ht => hno t (List.mem_append_left _ ht), hlast]
        _ = outcomes c tr ++ ((outcome c e.2).toList ++ due s' c) := by
            rw [List.append_assoc, hstep]
        _ = outcomes c (tr ++ [⟨s, e, s'⟩]) ++ due s' c := by
            rw [← hout, ← List.append_assoc, outcomes, outcomes, outcomes, List.filterMap_append]

end Reachable

/-! ## Every run of the board is one of the cluster -/

/-- Nobody is in a call, and no thread in the loop of a WAIT. -/
structure Idle (s : Cluster ι) : Prop where
  pending : ∀ c, s.pending c = none
  requests : ∀ c sid, (s.wire c sid).requests = []
  replies : ∀ c sid, (s.wire c sid).replies = []
  thread : ∀ sid c, (s.host sid).thread c = .reading

omit [DecidableEq ι] in
theorem board_idle {s : Cluster ι} (h : Idle s) :
    board s = ⟨fun sid => (s.host sid).server.blocks, s.client, fun c => (s.died c).isSome⟩ :=
  Board.mk.injEq .. |>.mpr ⟨rfl, funext fun c => settled_idle (h.pending c), rfl⟩

theorem setWire_self (s : Cluster ι) (c : ι) (sid : String) (w : Wire) :
    (s.setWire c sid w).wire c sid = w := by
  simp [Cluster.setWire]

theorem setWire_other (s : Cluster ι) {c u : ι} {sid sid' : String} (w : Wire)
    (h : ¬ (u = c ∧ sid' = sid)) : (s.setWire c sid w).wire u sid' = s.wire u sid' := by
  show Function.update s.wire c (Function.update (s.wire c) sid w) u sid' = _
  by_cases hu : u = c
  · subst hu
    rw [Function.update_self, Function.update_of_ne fun hsid => h ⟨rfl, hsid⟩]
  · rw [Function.update_of_ne hu]

/-- What a call needs to be made alone: the events are those of a call, and are seen as one. -/
structure Realizes (F : Fleet ι) (s : Cluster ι) (d : Deed ι) (a : Board ι)
    (tr : ClusterTrace ι) (s' : Cluster ι) : Prop where
  run : Run (DmCluster.Step F) s tr s'
  idle : Idle s'
  board_eq : board s' = a
  noTimeouts : NoTimeouts tr
  seen_eq : tr.filterMap seen = [d]

/-- A call that is sent, served and answered with nothing in between. -/
theorem realizes_exchange {F : Fleet ι} {s : Cluster ι} (h : Idle s) {c : ι} {call : Call}
    {sid : String} {req reply : Node} {client client' : Client} {sec : Section} {code : Int}
    (halive : s.died c = none) (hsend : (s.client c).send call = .ok (.sent sid req client))
    (hserve : (s.host sid).server.clientHandler (F.clientId c sid) (Message.ofNode req) = .ok sec)
    (hreply : sec.outcome = .send reply)
    (hrecv : client.receive call (some reply) = .ok (code, client')) :
    ∃ tr s', Realizes F s (.called c call code)
      (((board s).setTable sid sec.server.blocks).setClient c client') tr s' := by
  let n := (s.wire c sid).sent
  let s₁ := ((s.setClient c client).setPending c (some (sid, ⟨call, n, req⟩))).setWire c sid
    ((s.wire c sid).write req)
  let s₂ := (s₁.setHost sid ((s.host sid).leave c n sec)).setWire c sid
    ((s₁.wire c sid).answered [] n (some reply))
  let s₃ := ((s₂.setClient c client').setPending c none).setWire c sid
    { s₂.wire c sid with replies := [] }
  have hans : answer sec = some reply := by
    rw [answer, hreply]
  have hafter : after n sec = .reading := by
    rw [after, hreply]
  have hs₁ : DmCluster.Step F s (sid, .sent c ⟨call, n, req⟩) s₁ :=
    .sent (h.pending c) halive hsend
  have hwire₁ : s₁.wire c sid = (s.wire c sid).write req := setWire_self ..
  have hhost : DmHost.Step (fun u => F.clientId u sid) (s.host sid)
      (.critical c n req (some reply)) ((s.host sid).leave c n sec) := by
    rw [← hans]
    exact .first (h.thread sid c) hserve
  have hs₂ : DmCluster.Step F s₁ (sid, .critical c n req (some reply)) s₂ := by
    refine .request ?_ (h.thread sid c) hhost
    rw [hwire₁, Wire.write, h.requests]
    rfl
  have hpending₂ : s₂.pending c = some (sid, ⟨call, n, req⟩) := Function.update_self ..
  have hclient₂ : s₂.client c = client := Function.update_self ..
  have hreplies₂ : (s₂.wire c sid).replies = [(n, reply)] := by
    rw [setWire_self, Wire.answered, hwire₁]
    show (s.wire c sid).replies ++ [(n, reply)] = _
    rw [h.replies]
    rfl
  have hrecv₂ : (s₂.client c).receive call (some reply) = .ok (code, client') := by
    rw [hclient₂]
    exact hrecv
  have hs₃ : DmCluster.Step F s₂
      (sid, .received c ⟨call, n, req⟩ n reply (some code)) s₃ :=
    .received hpending₂ halive hreplies₂ hrecv₂
  have hpending₃ : ∀ u, s₃.pending u = none := by
    intro u
    by_cases hu : u = c
    · rw [hu]
      exact Function.update_self ..
    · exact ((Function.update_of_ne hu ..).trans (Function.update_of_ne hu ..)).trans (h.pending u)
  have hidle : Idle s₃ := by
    have hother : ∀ u sid', ¬ (u = c ∧ sid' = sid) → s₃.wire u sid' = s.wire u sid' := by
      intro u sid' hne
      have h₃ : s₃.wire u sid' = s₂.wire u sid' := setWire_other _ _ hne
      have h₂ : s₂.wire u sid' = s₁.wire u sid' := setWire_other _ _ hne
      have h₁ : s₁.wire u sid' = s.wire u sid' := setWire_other _ _ hne
      rw [h₃, h₂, h₁]
    have hself : s₃.wire c sid = { s₂.wire c sid with replies := [] } := setWire_self ..
    have hrequests : (s₂.wire c sid).requests = [] := by
      rw [setWire_self]
      rfl
    refine ⟨hpending₃, ?_, ?_, ?_⟩
    · intro u sid'
      by_cases hcon : u = c ∧ sid' = sid
      · rw [hcon.1, hcon.2, hself]
        exact hrequests
      · rw [hother u sid' hcon]
        exact h.requests u sid'
    · intro u sid'
      by_cases hcon : u = c ∧ sid' = sid
      · rw [hcon.1, hcon.2, hself]
      · rw [hother u sid' hcon]
        exact h.replies u sid'
    · intro sid' u
      show (Function.update s.host sid ((s.host sid).leave c n sec) sid').thread u = .reading
      by_cases hsid : sid' = sid
      · rw [hsid, Function.update_self]
        by_cases hu : u = c
        · rw [hu, Host.leave_thread_self, hafter]
        · rw [Host.leave_thread_other _ _ _ hu, h.thread]
          rfl
      · rw [Function.update_of_ne hsid]
        exact h.thread sid' u
  have howed : owed s₂ c = some (call, code, client') := owed_answered hpending₂ hreplies₂ hrecv₂
  refine ⟨[⟨s, _, s₁⟩, ⟨s₁, _, s₂⟩, ⟨s₂, _, s₃⟩], s₃, ((Run.nil.snoc hs₁).snoc hs₂).snoc hs₃, hidle,
    ?_, ?_, ?_⟩
  · rw [board_idle hidle, board_idle h]
    refine Board.mk.injEq .. |>.mpr ⟨?_, ?_, rfl⟩
    · refine funext fun sid' => ?_
      show (Function.update s.host sid ((s.host sid).leave c n sec) sid').server.blocks
        = Function.update (fun sid => (s.host sid).server.blocks) sid sec.server.blocks sid'
      by_cases hsid : sid' = sid
      · rw [hsid, Function.update_self, Function.update_self]
        rfl
      · rw [Function.update_of_ne hsid, Function.update_of_ne hsid]
    · show Function.update (Function.update s.client c client) c client'
        = Function.update s.client c client'
      exact Function.update_idem ..
  · intro t ht
    simp only [List.mem_cons, List.not_mem_nil, or_false] at ht
    rcases ht with rfl | rfl | rfl <;> rfl
  · have hseen : seen ⟨s₁, (sid, .critical c n req (some reply)), s₂⟩ = some (.called c call code) := by
      show (owed s₂ c).map _ = _
      rw [howed]
      rfl
    rw [List.filterMap_cons_none (by rfl), List.filterMap_cons_some hseen,
      List.filterMap_cons_none (by rfl), List.filterMap_nil]

/-- Any step of the board can be made by an idle cluster, which is idle again afterwards. -/
theorem step_realized {F : Fleet ι} {s : Cluster ι} {d : Deed ι} {a : Board ι} (h : Idle s)
    (hs : Step F (board s) d a) : ∃ tr s', Realizes F s d a tr s' := by
  have hclient : ∀ c, (board s).client c = s.client c := fun c => settled_idle (h.pending c)
  have hlives : ∀ c, (board s).dead c = false → s.died c = none := by
    intro c hdead
    exact Option.isSome_eq_false_iff.mp hdead |> Option.isNone_iff_eq_none.mp
  cases hs with
  | @returned c call code client halive hsend =>
      rw [hclient] at hsend
      have hidle : Idle (s.setClient c client) := ⟨h.pending, h.requests, h.replies, h.thread⟩
      refine ⟨[⟨s, _, _⟩], _, Run.nil.snoc (.returned (h.pending c) (hlives c halive) hsend), hidle,
        ?_, ?_, rfl⟩
      · rw [board_idle hidle, board_idle h]
        rfl
      · intro t ht
        rw [List.mem_singleton.mp ht]
        rfl
  | @exchanged c call sid req reply client client' sec code halive hsend hserve hreply hrecv =>
      rw [hclient] at hsend
      obtain ⟨sec', hserve', houtcome, hblocks⟩ :=
        clientHandler_blocks (show (s.host sid).server.blocks = ((board s).server sid).blocks from rfl)
          hserve
      rw [← hblocks]
      exact realizes_exchange h (hlives c halive) hsend hserve' (houtcome.trans hreply) hrecv
  | @died c call f halive hsend =>
      rw [hclient] at hsend
      have hidle : Idle (s.setDied c (s.route c call.id)) :=
        ⟨h.pending, h.requests, h.replies, h.thread⟩
      refine ⟨[⟨s, _, _⟩], _, Run.nil.snoc (.died (h.pending c) (hlives c halive) hsend), hidle,
        ?_, ?_, rfl⟩
      · rw [board_idle hidle, board_idle h]
        refine Board.mk.injEq .. |>.mpr ⟨rfl, rfl, funext fun u => ?_⟩
        show (Function.update s.died c (some _) u).isSome
          = Function.update (fun c => (s.died c).isSome) c true u
        by_cases hu : u = c
        · rw [hu, Function.update_self, Function.update_self]
          rfl
        · rw [Function.update_of_ne hu, Function.update_of_ne hu]
      · intro t ht
        rw [List.mem_singleton.mp ht]
        rfl
  | @poked c id e d halive he =>
      rw [hclient] at he ⊢
      have hidle : Idle (s.setClient c ((s.client c).setBlock id (some { e with data := d }))) :=
        ⟨h.pending, h.requests, h.replies, h.thread⟩
      refine ⟨[⟨s, _, _⟩], _, Run.nil.snoc (.poked d (h.pending c) (hlives c halive) he), hidle,
        ?_, ?_, rfl⟩
      · rw [board_idle hidle, board_idle h]
        rfl
      · intro t ht
        rw [List.mem_singleton.mp ht]
        rfl

omit [DecidableEq ι] in
theorem start_idle (F : Fleet ι) : Idle F.start :=
  ⟨fun _ => rfl, fun _ _ => rfl, fun _ _ => rfl, fun _ _ => rfl⟩

omit [DecidableEq ι] in
theorem noTimeouts_append {tr tr' : ClusterTrace ι} (h : NoTimeouts tr) (h' : NoTimeouts tr') :
    NoTimeouts (tr ++ tr') := by
  intro t ht
  rcases List.mem_append.mp ht with ht | ht
  · exact h t ht
  · exact h' t ht

/-- From an idle cluster on, every run of the board is one of the cluster. -/
theorem run_realized {F : Fleet ι} {s : Cluster ι} {atr : List (Entry (Board ι) (Deed ι))}
    {a : Board ι} (h : Idle s) (hrun : Run (Step F) (board s) atr a) :
    ∃ tr s', Run (DmCluster.Step F) s tr s' ∧ Idle s' ∧ board s' = a ∧ NoTimeouts tr ∧
      tr.filterMap seen = atr.map Entry.event := by
  induction hrun with
  | nil => exact ⟨[], s, Run.nil, h, rfl, (fun t ht => by cases ht), rfl⟩
  | snoc _ hs ih =>
      obtain ⟨tr, s₁, hrun₁, hidle₁, rfl, hno₁, hseen₁⟩ := ih
      obtain ⟨tr', s', hreal⟩ := step_realized hidle₁ hs
      refine ⟨tr ++ tr', s', hrun₁.append hreal.run, hreal.idle, hreal.board_eq,
        noTimeouts_append hno₁ hreal.noTimeouts, ?_⟩
      rw [List.filterMap_append, List.map_append, hseen₁, hreal.seen_eq]
      rfl

omit [DecidableEq ι] in
theorem events_deeds (tr : ClusterTrace ι) :
    (deeds tr).map Entry.event = tr.filterMap seen := by
  rw [deeds, imageOf, List.map_filterMap]
  refine List.filterMap_congr fun t _ => ?_
  cases seen t <;> rfl

/-! ## Results -/

/-- **Calls are atomic.** Every run of the cluster without timeouts is a run of the board in
    which every call is one step, at a moment between its start and its return, and returns what
    it returns there; and every run of the board is what is seen of a run of the cluster. -/
theorem calls_atomic (F : Fleet ι) :
    (∀ tr s, ClusterRun F tr s → NoTimeouts tr →
      ∃ atr, Run (Step F) (board F.start) atr (board s) ∧
        atr.map Entry.event = tr.filterMap seen ∧
        ∀ c, calls c atr = outcomes c tr ++ due s c) ∧
    ∀ atr a, Run (Step F) (board F.start) atr a →
      ∃ tr s, ClusterRun F tr s ∧ NoTimeouts tr ∧ board s = a ∧
        tr.filterMap seen = atr.map Entry.event := by
  constructor
  · intro tr s hrun hno
    exact ⟨deeds tr, run_board hrun hno, events_deeds tr, calls_deeds hrun hno⟩
  · intro atr a hrun
    obtain ⟨tr, s, hrun', -, hboard, hno, hseen⟩ := run_realized (start_idle F) hrun
    exact ⟨tr, s, hrun', hno, hboard, hseen⟩

/-- What the two clients of two servers do there: the second one's map of block 7 is served
    first, and the first one changes its memory while the second is in a call. -/
def bothDeeds : List (Deed Bool) :=
  [.called true (.map 7 (Data.memset 2)) 0, .called false (.map 7 (Data.memset 1)) 0,
   .poked false 7, .called true (.map 8 (Data.memset 3)) 0, .poked true 7,
   .called true (.write 7) 0, .called false (.update 7) 0]

theorem calls_atomic_bothServers :
    ∃ tr s atr, ClusterRun twoServers tr s ∧
      Run (Step twoServers) (board twoServers.start) atr (board s) ∧
      atr.map Entry.event = bothDeeds ∧ ∀ c, calls c atr = outcomes c tr ++ due s c := by
  obtain ⟨q, hq, hfacts⟩ := Option.map_eq_some_iff.mp (show
    (exec (DmCluster.next twoServers) twoServers.start bothServers).map
      (fun q => (decide (NoTimeouts q.1), q.1.filterMap seen)) = some (true, bothDeeds) by
        decide +kernel)
  obtain ⟨hno, hseen⟩ := Prod.mk.inj hfacts
  have hrun := run_of_exec _ (DmCluster.next_sound _) bothServers _ hq
  obtain ⟨atr, hrun', hevents, hcalls⟩ :=
    (calls_atomic twoServers).1 q.1 q.2 hrun (of_decide_eq_true hno)
  exact ⟨q.1, q.2, atr, hrun, hrun', hevents.trans hseen, hcalls⟩

end DmAtomic
