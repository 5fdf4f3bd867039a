import DistributedMemory.DmIsolationProofs
import DistributedMemory.DmMembershipProofs

/-!
# Scope — what a connection carries is about its own server's blocks

A client sends a block's requests to the server its configuration names for the block, but a
reply is taken for the reply to the call in progress whatever it says, and after a timeout it
may be the reply to an earlier one. `dm_block_update` then copies another block's id and
content into the entry. What it cannot do is bring in a block of another server.

* **`InScope`** — entries, requests and replies of one connection name only blocks that the
  client's configuration routes to the server.
* **`run_inScope`** — in every run, timed out calls or not.
-/

namespace DmScope

open DmBlock DmConfig DmMessage DmClient DmServer DmHost DmSystem DmRouting DmPairing
  LabelledRun

variable {ι : Type} [DecidableEq ι]

/-- Client `c`'s configuration routes block `k` to the server. -/
def Here (D : Deployment ι) (c : ι) (k : Int32) : Prop :=
  (D.config c).findServerIdByBlockId k = D.serverId

/-- A request about a block that is routed to the server. -/
def Asks (D : Deployment ι) (c : ι) (req : Node) : Prop :=
  ∃ t blk shallow, t.isRequest = true ∧ req = emitBlock t blk shallow ∧ Here D c blk.id

/-- A reply that brings no block, or one that is routed to the server. -/
def Brings (D : Deployment ι) (c : ι) (reply : Node) : Prop :=
  ∀ b m, (Message.ofNode reply).deref = .ok (b, m) → Here D c b.id

/-- Everything on client `c`'s side and on its connection is about the server's blocks. -/
structure InScope (D : Deployment ι) (s : System ι) (c : ι) : Prop where
  config : (s.link c).client.config = D.config c
  entries : ∀ k e, (s.link c).client.blocks k = some e → Here D c e.id
  requests : ∀ x ∈ queue s c, Asks D c x.2
  replies : ∀ x ∈ (s.link c).replies, Brings D c x.2

/-! ## One step -/

/-- The block a reply brings is the one its request named. -/
theorem served_names {s : Server} {clientId : String} {b b' : BlockServer} {m m' : Message}
    {t : MessageType} {sec : Section} {reply : Node}
    (hnamed : ∀ k it, s.blocks k = some it → it.id = k)
    (h : Served s clientId b m t sec) (hans : answer sec = some reply)
    (hd : (Message.ofNode reply).deref = .ok (b', m')) : b'.id = b.id := by
  have hemit : ∀ t, some (emit t) = some reply → b'.id = b.id := by
    intro t ht
    rw [← Option.some.inj ht, Message.deref_emit] at hd
    cases hd
  have hblock : ∀ it sh, s.blocks b.id = some it →
      some (emitBlock .ack (BlockServer.toBlock it) sh) = some reply → b'.id = b.id := by
    intro it sh hit hreply
    rw [← Option.some.inj hreply, Message.deref_emitBlock] at hd
    rw [← (Prod.mk.inj (Except.ok.inj hd)).1]
    exact hnamed b.id it hit
  -- only a map and an update are answered with a block
  cases h with
  | unhosted _ _ => exact hemit _ hans
  | mapped hit _ => exact hblock _ _ hit hans
  | mapRefused _ _ => exact hemit _ hans
  | unmapped _ _ => exact hemit _ hans
  | unmapRefused _ _ => exact hemit _ hans
  | entire hit _ => exact hblock _ _ hit hans
  | shallow hit _ => exact hblock _ _ hit hans
  | writeUnhosted _ => exact hemit _ hans
  | accepted _ _ => exact hemit _ hans
  | writeRefused _ _ => exact hemit _ hans
  | waitUnhosted _ => exact hemit _ hans
  | outdated _ _ => exact hemit _ hans
  | sleeps _ _ => cases hans

/-- What an acknowledgement makes of an entry names the entry's block or the reply's. -/
theorem onAck_names {call : Call} {e e' : BlockLocal} {b : BlockServer}
    (h : call.onAck e b = some e') : e'.id = e.id ∨ (call.usesBlock = true ∧ e'.id = b.id) := by
  cases call with
  | map id address =>
      rw [← Option.some.inj h]
      exact Or.inr ⟨rfl, rfl⟩
  | unmap id => cases h
  | update id =>
      have h' : (if e.revision ≠ b.revision then (e.assign b).setValid true else e) = e' :=
        Option.some.inj h
      by_cases hr : e.revision ≠ b.revision
      · rw [if_pos hr] at h'
        rw [← h']
        exact Or.inr ⟨rfl, rfl⟩
      · rw [if_neg hr] at h'
        rw [h']
        exact Or.inl rfl
  | write id =>
      rw [← Option.some.inj h]
      exact Or.inl rfl
  | wait id =>
      rw [← Option.some.inj h]
      exact Or.inl rfl

/-- A change of the client's own side. -/
theorem InScope.setClient {D : Deployment ι} {s : System ι} {c : ι} {l : Link}
    (h : InScope D s c) (hconfig : l.client.config = (s.link c).client.config)
    (hentries : ∀ k e, l.client.blocks k = some e → Here D c e.id)
    (hrequests : ∀ x ∈ l.requests, x ∈ (s.link c).requests ∨ Asks D c x.2)
    (hreplies : ∀ x ∈ l.replies, x ∈ (s.link c).replies) : InScope D (s.setLink c l) c where
  config := by
    rw [System.setLink_self, hconfig]
    exact h.config
  entries := by
    rw [System.setLink_self]
    exact hentries
  requests := by
    intro x hx
    rw [queue, System.setLink_self, System.setLink_host] at hx
    rcases List.mem_append.mp hx with hserving | hin
    · exact h.requests x (List.mem_append_left _ hserving)
    · rcases hrequests x hin with hold | hnew
      · exact h.requests x (List.mem_append_right _ hold)
      · exact hnew
  replies := by
    rw [System.setLink_self]
    exact fun x hx => h.replies x (hreplies x hx)

/-- A call that sends its request. -/
theorem inScope_sent {D : Deployment ι} {s : System ι} {c : ι} {call : Call} {req : Node}
    {client : Client} (h : InScope D s c)
    (hsend : (s.link c).client.send call = .ok (.sent D.serverId req client)) :
    InScope D (s.setLink c ((s.link c).write client call req)) c := by
  have hcall : Here D c call.id := by
    rw [Here, ← h.config]
    exact (send_server hsend).1.symm
  obtain ⟨e, hreq⟩ := Client.send_sent hsend
  -- a map makes its entry; every other call has one
  have hentry : Here D c e.id := by
    by_cases hmap : call.type = .map
    · obtain ⟨id, address, rfl⟩ := Call.eq_map hmap
      rw [(hreq.created id address rfl).2]
      exact hcall
    · have hold := hreq.entry
      rw [hreq.same hmap] at hold
      exact h.entries _ _ hold
  refine h.setClient hreq.config.1 (fun k e' he' => ?_) (fun x hx => ?_) (fun x hx => hx)
  · by_cases hk : k = call.id
    · have he : client.blocks k = some e := by rw [hk]; exact hreq.entry
      rw [← Option.some.inj (he.symm.trans he')]
      exact hentry
    · exact h.entries k e' ((hreq.others k hk).symm.trans he')
  · rcases List.mem_append.mp hx with hold | hnew
    · exact Or.inl hold
    · rw [List.mem_singleton.mp hnew]
      exact Or.inr ⟨call.type, e.toBlock, call.shallow, DmService.isRequest_type call,
        hreq.request, hentry⟩

/-- A call that reads a reply, its own or another. -/
theorem inScope_received {D : Deployment ι} {tr : Trace ι} {s : System ι} {c : ι}
    {p : Pending} {tag : Nat} {reply : Node} {rest : List (Nat × Node)} {code : Int}
    {client : Client} (hrun : SysRun D tr s) (h : InScope D s c)
    (hp : (s.link c).pending = some p) (hrep : (s.link c).replies = (tag, reply) :: rest)
    (hrecv : (s.link c).client.receive p.call (some reply) = .ok (code, client)) :
    InScope D (s.setLink c ((s.link c).done client rest)) c := by
  obtain ⟨e, he, -⟩ := pending_requests hrun hp
  have hreply : Brings D c reply := h.replies (tag, reply) (by rw [hrep]; exact List.mem_cons_self)
  have hset : ∀ b, (∀ e', b = some e' → Here D c e'.id) →
      ∀ k e', ((s.link c).client.setBlock p.call.id b).blocks k = some e' → Here D c e'.id := by
    intro b hb k e' he'
    by_cases hk : k = p.call.id
    · rw [hk, Client.setBlock_same] at he'
      exact hb e' he'
    · rw [Client.setBlock_other _ _ hk] at he'
      exact h.entries k e' he'
  rcases Client.receive_cases he hrecv with ⟨-, -, rfl⟩ | ⟨-, -, b, hb, rfl⟩
  · refine h.setClient rfl (hset _ fun e' he' => ?_) (fun x hx => Or.inl hx) (fun x hx => ?_)
    · rw [← Option.some.inj he', DmService.onNack_id]
      exact h.entries _ _ he
    · rw [hrep]
      exact List.mem_cons_of_mem _ hx
  · refine h.setClient rfl (hset _ fun e' he' => ?_) (fun x hx => Or.inl hx) (fun x hx => ?_)
    · rcases onAck_names he' with hid | ⟨huses, hid⟩
      · rw [hid]
        exact h.entries _ _ he
      · -- the id comes from the reply
        obtain ⟨m, hd⟩ := hb huses
        rw [hid]
        exact hreply b m hd
    · rw [hrep]
      exact List.mem_cons_of_mem _ hx

/-- A critical section of the client's thread. -/
theorem inScope_critical {D : Deployment ι} {tr : Trace ι} {s s' : System ι} {c : ι}
    {tag : Nat} {req : Node} {ans : Option Node} (hrun : SysRun D tr s) (h : InScope D s c)
    (hs : Step D s (.critical c tag req ans) s') : InScope D s' c := by
  obtain ⟨rest, hq, hq', hlink, -⟩ := critical_queue hs
  have hasks := h.requests (tag, req) (by rw [hq]; exact List.mem_cons_self)
  have hclient : (s'.link c).client = (s.link c).client := by
    rw [hlink]
    rfl
  refine ⟨by rw [hclient]; exact h.config, by rw [hclient]; exact h.entries, fun x hx => ?_,
    fun x hx => ?_⟩
  · rw [hq'] at hx
    rcases List.mem_append.mp hx with hsame | hin
    · cases ans with
      | none =>
          rw [List.mem_singleton.mp hsame]
          exact hasks
      | some ack => cases hsame
    · exact h.requests x (by rw [hq]; exact List.mem_cons_of_mem _ hin)
  · rw [hlink] at hx
    rcases List.mem_append.mp hx with hold | hnew
    · exact h.replies x hold
    · -- the answer to a request that names a block of the server
      obtain ⟨t, blk, sh, ht, hreq, hhere⟩ := hasks
      obtain ⟨ack, hack, rfl⟩ := List.mem_map.mp hnew
      have hans : ans = some ack := Option.mem_toList.mp hack
      rw [show req = emitBlock t blk sh from hreq] at hs
      obtain ⟨sec, hserved, -, hanswer⟩ := critical_emitted (sys_settled hrun) ht hs
      obtain ⟨tr', hhost⟩ := run_host hrun
      have hnamed := fun k it hit => ((DmLedger.run_entered hhost).block k it hit).1
      intro b m hd
      rw [served_names hnamed hserved (hanswer.symm.trans hans) hd]
      exact hhere

/-- **Every step keeps a connection in scope.** -/
theorem step_inScope {D : Deployment ι} {tr : Trace ι} {s s' : System ι} {e : Event ι} {c : ι}
    (hrun : SysRun D tr s) (h : InScope D s c) (hs : Step D s e s') : InScope D s' c := by
  by_cases hc : c = e.party
  · cases hs with
    | @returned u call code client hidle halive hsend =>
        obtain rfl : c = u := hc
        have hclient := (Client.send_returned hsend).2
        exact h.setClient (congrArg Client.config hclient) (by rw [hclient]; exact h.entries)
          (fun x hx => Or.inl hx) (fun x hx => hx)
    | @sent u call req client hidle halive hsend =>
        obtain rfl : c = u := hc
        exact inScope_sent h hsend
    | @died u call f hidle halive hsend =>
        obtain rfl : c = u := hc
        exact h.setClient rfl h.entries (fun x hx => Or.inl hx) (fun x hx => hx)
    | @poked u id e d hidle halive he =>
        obtain rfl : c = u := hc
        refine h.setClient rfl (fun k e' he' => ?_) (fun x hx => Or.inl hx) (fun x hx => hx)
        by_cases hk : k = id
        · rw [hk, Client.setBlock_same] at he'
          rw [← Option.some.inj he']
          exact h.entries id e he
        · rw [Client.setBlock_other _ _ hk] at he'
          exact h.entries k e' he'
    | @request u tag req rest ans host hreq hread hhost =>
        obtain rfl : c = u := hc
        exact inScope_critical hrun h (.request hreq hread hhost)
    | @retry u tag req k msg ans host hawake hhost =>
        obtain rfl : c = u := hc
        exact inScope_critical hrun h (.retry hawake hhost)
    | @woken u host hhost =>
        refine ⟨h.config, h.entries, fun x hx => h.requests x ?_, h.replies⟩
        rw [queue, ← serving_woken hhost c]
        exact hx
    | @received u p tag reply rest code client hp halive hrep hrecv =>
        obtain rfl : c = u := hc
        exact inScope_received hrun h hp hrep hrecv
    | @receivedDied u p tag reply rest f hp halive hrep hrecv =>
        obtain rfl : c = u := hc
        refine h.setClient rfl h.entries (fun x hx => Or.inl hx) (fun x hx => ?_)
        rw [hrep]
        exact List.mem_cons_of_mem _ hx
    | @timedOut u p code client hp halive hnone hrecv =>
        obtain rfl : c = u := hc
        obtain ⟨e, he, -⟩ := pending_requests hrun hp
        rw [Client.receive_none he] at hrecv
        obtain rfl := (Prod.mk.inj (Except.ok.inj hrecv)).2
        exact h.setClient rfl h.entries (fun x hx => Or.inl hx) (fun x hx => by cases hx)
  · obtain ⟨hlink, hserving⟩ := step_other hs hc
    have hqueue : queue s' c = queue s c := by rw [queue, queue, hlink, hserving]
    exact ⟨by rw [hlink]; exact h.config, by rw [hlink]; exact h.entries,
      by rw [hqueue]; exact h.requests, by rw [hlink]; exact h.replies⟩

/-! ## Runs -/

/-- **Connections stay in scope**, whatever calls timed out. -/
theorem run_inScope {D : Deployment ι} {tr : Trace ι} {s : System ι} (hrun : SysRun D tr s)
    (c : ι) : InScope D s c := by
  induction hrun with
  | nil =>
      exact ⟨rfl, fun k e he => (by cases he), fun x hx => (by cases hx),
        fun x hx => (by cases hx)⟩
  | snoc hpre hs ih => exact step_inScope hpre ih hs

/-- A request that reaches the server is about a block routed to it. -/
theorem critical_here {D : Deployment ι} {tr : Trace ι} {s s' : System ι} {c : ι} {tag : Nat}
    {req : Node} {ans : Option Node} (hrun : SysRun D tr s)
    (hs : Step D s (.critical c tag req ans) s') : Asks D c req := by
  obtain ⟨rest, hq, -⟩ := critical_queue hs
  exact (run_inScope hrun c).requests (tag, req) (by rw [hq]; exact List.mem_cons_self)

/-- **A block that no client routes to the server stays as it is.** -/
theorem run_elsewhere {D : Deployment ι} {tr : Trace ι} {s : System ι} {k : Int32}
    (hrun : SysRun D tr s) (hk : ∀ c, ¬ Here D c k) :
    s.host.server.blocks k = (Server.create D.blocksId).blocks k := by
  induction hrun with
  | nil => rfl
  | @snoc tr s s' e hpre hs ih =>
      rcases server_cases (sys_settled hpre) hs with
        ⟨hsame, -⟩ | ⟨c, tag, req, b, m, sec, rfl, hm, hserved, hpost⟩
      · rw [hsame, ih]
      · obtain ⟨t, blk, sh, -, rfl, hhere⟩ := critical_here hpre hs
        rw [Message.deref_emitBlock] at hm
        have hid : blk.id = b.id := by rw [← (Prod.mk.inj (Except.ok.inj hm)).1]; rfl
        have hne : k ≠ b.id := by
          rintro rfl
          rw [← hid] at hk
          exact hk c hhere
        rw [hpost, DmIsolation.served_frame hserved hne, ih]

end DmScope
