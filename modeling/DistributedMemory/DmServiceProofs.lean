import DistributedMemory.DmHistoryProofs
import DistributedMemory.DmPairingProofs

/-!
# Services — where the reply to a call comes from

Between the service of a request and the receipt of its reply other clients write, so what
a call does is about the moment of service: what its entry was then, frozen in the client
that waits, against the block the server had then.

* **`Production`** — the critical section that produced the reply a call reads.
* **`run_named`** — the entries of a local table keep the ids they are stored under.
* **`Service`** — the production, for a call on a hosted block; with what the reply to each
  call is.
-/

namespace DmService

open DmBlock DmMessage DmClient DmServer DmHost DmSystem DmPairing DmHistory LabelledRun
  VersionedCell

variable {ι : Type} [DecidableEq ι]

/-! ## The service of a request -/

/-- The critical section in step `j` that produced the reply to the call `p`: `e` was the
    client's entry, and still is. -/
structure Production (D : Deployment ι) (tr : Trace ι) (c : ι) (p : Pending) (reply : Node)
    (client : Client) (j : Nat) (t : Entry (System ι) (Event ι)) (e : BlockLocal)
    (sec : Section) : Prop where
  issued : ∃ k sending, k < j ∧ tr[k]? = some sending ∧ sending.event = .sent c p ∧
    (sending.post.link c).client = client
  place : tr[j]? = some t
  event : t.event = .critical c p.tag p.req (some reply)
  pending : (t.pre.link c).pending = some p
  frozen : (t.pre.link c).client = client
  entry : client.blocks p.call.id = some e
  request : p.req = emitBlock p.call.type e.toBlock p.call.shallow
  valid : p.call.needsValid = true → e.valid = true
  created : ∀ id address, p.call = .map id address → e = BlockLocal.create id address
  served : Served t.pre.host.server (D.clientId c)
    (Message.decoded e.toBlock p.call.shallow)
    ⟨p.req, some (Message.decoded e.toBlock p.call.shallow)⟩ p.call.type sec
  outcome : sec.outcome = .send reply
  server : t.post.host.server = sec.server

/-- The same for a call on a hosted block: `it` was the server's block. -/
structure Service (D : Deployment ι) (tr : Trace ι) (c : ι) (p : Pending) (reply : Node)
    (client : Client) (j : Nat) (t : Entry (System ι) (Event ι)) (e : BlockLocal)
    (it : BlockServer) (sec : Section) : Prop
    extends Production D tr c p reply client j t e sec where
  named : e.id = p.call.id
  block : t.pre.host.server.blocks p.call.id = some it
  recorded : Recorded (history p.call.id (tr.take j)) p.call.id it

/-- Every call is a request to the server. -/
theorem isRequest_type (call : Call) : call.type.isRequest = true := by
  cases call <;> rfl

/-- **A reply under the call's own number was produced for the call.** -/
theorem production {D : Deployment ι} {tr : Trace ι} {s : System ι} (hrun : SysRun D tr s)
    {c : ι} {p : Pending} {reply : Node} (hp : (s.link c).pending = some p)
    (hrep : (p.tag, reply) ∈ (s.link c).replies) :
    ∃ j t e sec, Production D tr c p reply (s.link c).client j t e sec := by
  obtain ⟨k, j, sending, t, -, hex⟩ := exchange hrun hp hrep
  have hpre := hrun.take hex.servedAt
  obtain ⟨e, he, hreq, hvalid, hcreated⟩ := pending_requests hpre hex.pending
  have hs := hrun.step_of_mem (List.mem_of_getElem? hex.servedAt)
  have hev := hex.served
  rw [hreq] at hev
  rw [hev] at hs
  obtain ⟨sec, hserved, hserver, hans⟩ :=
    critical_emitted (sys_settled hpre) (isRequest_type p.call) hs
  rw [← hreq] at hserved
  rw [hex.frozen] at he
  exact ⟨j, t, e, sec, ⟨k, sending, hex.before, hex.sentAt, hex.sent, hex.issuer⟩,
    hex.servedAt, hex.served, hex.pending, hex.frozen, he, hreq,
    hvalid, hcreated, hserved, outcome_of_answer hans, hserver⟩

/-- When no call timed out, the reply at the head of the queue is the call's own. -/
theorem own_reply {D : Deployment ι} {tr : Trace ι} {s s' : System ι}
    (hrun : SysRun D tr s) (hno : NoTimeout tr) {c : ι} {p : Pending} {tag : Nat}
    {reply : Node} {code : Option Int} (hs : Step D s (.received c p tag reply code) s') :
    (s.link c).pending = some p ∧ (p.tag, reply) ∈ (s.link c).replies := by
  obtain ⟨hp, rest, hrep⟩ := received_head hs
  have htag := number_read hrun hs
  rw [timeouts_eq_zero hno] at htag
  refine ⟨hp, ?_⟩
  rw [hrep, show p.tag = tag from htag]
  exact List.mem_cons_self

/-! ## Entries keep their ids -/

/-- Every entry of a local table carries the id it is stored under. -/
def EntriesNamed (s : System ι) : Prop :=
  ∀ c k e, (s.link c).client.blocks k = some e → e.id = k

/-- The block a reply brings is the one the entry is for. -/
theorem id_of_reply {D : Deployment ι} {tr : Trace ι} {s : System ι} (hrun : SysRun D tr s)
    {c : ι} {p : Pending} {reply : Node} {client : Client} {j : Nat}
    {t : Entry (System ι) (Event ι)} {e : BlockLocal} {sec : Section}
    (h : Production D tr c p reply client j t e sec) {b : BlockServer} {m : Message}
    (hu : p.call.usesBlock = true) (hb : (Message.ofNode reply).deref = .ok (b, m)) :
    b.id = e.id := by
  have hit : ∀ it, t.pre.host.server.blocks
      (Message.decoded e.toBlock p.call.shallow).id = some it → it.id = e.id := by
    intro it hit
    have hpre := hrun.take h.place
    obtain ⟨it', hit', hrec⟩ := run_recorded hpre (hosted_of_blocks hpre hit)
    obtain rfl := Option.some.inj (hit.symm.trans hit')
    exact hrec.id
  have hemit : ∀ t, (Message.ofNode (emit t)).deref ≠ .ok (b, m) := by
    intro t ht
    rw [Message.deref_emit] at ht
    exact nomatch ht
  have hblock : ∀ it sh, reply = emitBlock .ack (BlockServer.toBlock it) sh → b.id = it.id := by
    intro it sh hreply
    rw [hreply, Message.deref_emitBlock] at hb
    rw [← (Prod.mk.inj (Except.ok.inj hb)).1]
    rfl
  have ho := h.outcome
  cases hcall : p.call with
  | map id address =>
      have hserved := h.served
      rw [show p.call.type = .map by rw [hcall]; rfl] at hserved
      cases hserved with
      | unhosted _ _ => exact absurd (Outcome.send.inj ho ▸ hb) (hemit .nack)
      | mapped hit' _ => exact (hblock _ _ (Outcome.send.inj ho).symm).trans (hit _ hit')
      | mapRefused _ _ => exact absurd (Outcome.send.inj ho ▸ hb) (hemit .nack)
  | update id =>
      have hserved := h.served
      rw [show p.call.type = .update by rw [hcall]; rfl] at hserved
      cases hserved with
      | unhosted _ _ => exact absurd (Outcome.send.inj ho ▸ hb) (hemit .nack)
      | entire hit' _ => exact (hblock _ _ (Outcome.send.inj ho).symm).trans (hit _ hit')
      | shallow hit' _ => exact (hblock _ _ (Outcome.send.inj ho).symm).trans (hit _ hit')
  | unmap id => rw [hcall] at hu; exact nomatch hu
  | write id => rw [hcall] at hu; exact nomatch hu
  | wait id => rw [hcall] at hu; exact nomatch hu

/-- What a reply makes of an entry keeps its id, if the reply's block has it. -/
theorem onAck_id {call : Call} {e e' : BlockLocal} {b : BlockServer}
    (hid : call.usesBlock = true → b.id = e.id) (h : call.onAck e b = some e') :
    e'.id = e.id := by
  cases call with
  | map id address =>
      rw [← Option.some.inj h]
      exact hid rfl
  | unmap id => exact nomatch h
  | update id =>
      have h' : (if e.revision ≠ b.revision then (e.assign b).setValid true else e) = e' :=
        Option.some.inj h
      by_cases hr : e.revision ≠ b.revision
      · rw [if_pos hr] at h'
        rw [← h']
        exact hid rfl
      · rw [if_neg hr] at h'
        rw [h']
  | write id =>
      rw [← Option.some.inj h]
      rfl
  | wait id =>
      rw [← Option.some.inj h]
      rfl

theorem onNack_id (call : Call) (e : BlockLocal) : (call.onNack e).id = e.id := by
  cases call <;> rfl

/-- A call changes no other entry than its own. -/
theorem receive_other {c c' : Client} {call : Call} {e : BlockLocal} {n : Node} {code : Int}
    {k : Int32} (he : c.blocks call.id = some e)
    (h : c.receive call (some n) = .ok (code, c')) (hk : k ≠ call.id) :
    c'.blocks k = c.blocks k := by
  rcases Client.receive_cases he h with ⟨-, -, rfl⟩ | ⟨-, -, b, -, rfl⟩
  · exact Client.setBlock_other _ _ hk
  · exact Client.setBlock_other _ _ hk

/-- Every step of a run without timeouts keeps the ids. -/
theorem step_named {D : Deployment ι} {tr : Trace ι} {s s' : System ι} {ev : Event ι}
    (hrun : SysRun D tr s) (hno : NoTimeout (tr ++ [⟨s, ev, s'⟩])) (h : EntriesNamed s)
    (hs : Step D s ev s') : EntriesNamed s' := by
  have hno' : NoTimeout tr := fun t ht => hno t (List.mem_append_left _ ht)
  intro c k e' he'
  cases client_cases hs c with
  | quiet hclient _ _ =>
      rw [hclient] at he'
      exact h c k e' he'
  | @sent p client _ _ hsend hclient _ =>
      obtain ⟨e, hreq⟩ := Client.send_sent hsend
      rw [hclient] at he'
      by_cases hk : k = p.call.id
      · rw [hk, hreq.entry] at he'
        obtain rfl := Option.some.inj he'
        by_cases hmap : p.call.type = .map
        -- the new entry is made under the id it is mapped as
        · obtain ⟨id, address, hcall⟩ := Call.eq_map hmap
          rw [hk, (hreq.created id address hcall).2, hcall]
          rfl
        · have hentry := hreq.entry
          rw [hreq.same hmap] at hentry
          rw [hk]
          exact h c _ _ hentry
      · rw [hreq.others k hk] at he'
        exact h c k e' he'
  | @poked id e d _ _ he hclient =>
      rw [hclient] at he'
      by_cases hk : k = id
      · subst hk
        rw [Client.setBlock_same] at he'
        rw [← Option.some.inj he']
        exact h c k e he
      · rw [Client.setBlock_other _ _ hk] at he'
        exact h c k e' he'
  | @received p tag reply code client hp hrecv hclient _ =>
      obtain ⟨-, hrep⟩ := own_reply hrun hno' hs
      obtain ⟨j, t, e, sec, hprod⟩ := production hrun hp hrep
      have hid : e.id = p.call.id := h c _ e hprod.entry
      rw [hclient] at he'
      by_cases hk : k = p.call.id
      · rw [hk] at he' ⊢
        rcases Client.receive_cases hprod.entry hrecv with
          ⟨-, -, rfl⟩ | ⟨-, -, b, hb, rfl⟩
        · rw [Client.setBlock_same] at he'
          rw [← Option.some.inj he', onNack_id]
          exact hid
        · rw [Client.setBlock_same] at he'
          refine (onAck_id ?_ he').trans hid
          -- the block in the reply to an update is the one that was asked for
          intro hu
          obtain ⟨m, hm⟩ := hb hu
          exact id_of_reply hrun hprod hu hm
      · rw [receive_other hprod.entry hrecv hk] at he'
        exact h c k e' he'
  | @timedOut p => exact absurd rfl (hno ⟨s, .timedOut c p, s'⟩ (by simp) c p)

/-- **Entries keep their ids** in every run without timeouts. -/
theorem run_named {D : Deployment ι} {tr : Trace ι} {s : System ι} (hrun : SysRun D tr s)
    (hno : NoTimeout tr) : EntriesNamed s := by
  induction hrun with
  | nil => exact fun _ _ _ he => nomatch he
  | snoc hpre hs ih =>
      exact step_named hpre hno (ih (fun t ht => hno t (List.mem_append_left _ ht))) hs

/-- For a hosted block the production is a service. -/
theorem service {D : Deployment ι} {tr : Trace ι} {s : System ι} (hrun : SysRun D tr s)
    (hno : NoTimeout tr) {c : ι} {p : Pending} {reply : Node} (hk : p.call.id ∈ D.blocksId)
    (hp : (s.link c).pending = some p) (hrep : (p.tag, reply) ∈ (s.link c).replies) :
    ∃ j t e it sec, Service D tr c p reply (s.link c).client j t e it sec := by
  obtain ⟨j, t, e, sec, hprod⟩ := production hrun hp hrep
  obtain ⟨it, hit, hrec⟩ := run_recorded (hrun.take hprod.place) hk
  exact ⟨j, t, e, it, sec, hprod, run_named hrun hno c _ e hprod.entry, hit, hrec⟩

/-! ## What the reply to each call is -/

namespace Service

omit [DecidableEq ι]

variable {D : Deployment ι} {tr : Trace ι} {c : ι} {p : Pending} {reply : Node}
  {client : Client} {j : Nat} {t : Entry (System ι) (Event ι)} {e : BlockLocal}
  {it : BlockServer} {sec : Section}

/-- The block the request names. -/
theorem block_named (h : Service D tr c p reply client j t e it sec) :
    t.pre.host.server.blocks (Message.decoded e.toBlock p.call.shallow).id = some it := by
  rw [Message.decoded_id, BlockLocal.toBlock_id, h.named]
  exact h.block

/-- The cell at the moment of service, and after it, extends to the cell now. -/
theorem cell_le (h : Service D tr c p reply client j t e it sec) :
    (history p.call.id (tr.take j)).Extends (history p.call.id (tr.take (j + 1))) ∧
      (history p.call.id (tr.take (j + 1))).Extends (history p.call.id tr) := by
  constructor
  · rw [history_take_succ _ h.place]
    exact record_extends _ _
  · exact history_take _ tr (j + 1)

/-- The reply to a map. -/
theorem map (h : Service D tr c p reply client j t e it sec) (hcall : p.call.type = .map) :
    reply = emitBlock .ack it.toBlock false ∨ reply = emit .nack := by
  have hserved := h.served
  rw [hcall] at hserved
  rcases hserved.map_reply h.block_named with ⟨-, ho⟩ | ⟨-, ho⟩
  · exact Or.inl (Outcome.send.inj (h.outcome.symm.trans ho))
  · exact Or.inr (Outcome.send.inj (h.outcome.symm.trans ho))

/-- The reply to an unmap. -/
theorem unmap (h : Service D tr c p reply client j t e it sec)
    (hcall : p.call.type = .unmap) : reply = emit .ack ∨ reply = emit .nack := by
  have hserved := h.served
  rw [hcall] at hserved
  rcases hserved.unmap_reply h.block_named with ⟨-, ho⟩ | ⟨-, ho⟩
  · exact Or.inl (Outcome.send.inj (h.outcome.symm.trans ho))
  · exact Or.inr (Outcome.send.inj (h.outcome.symm.trans ho))

/-- The reply to an update, whatever the copy is worth. -/
theorem update_sent (h : Service D tr c p reply client j t e it sec)
    (hcall : p.call.type = .update) :
    reply = emitBlock .ack it.toBlock (decide ¬ e.revision < it.revision) := by
  have hserved := h.served
  rw [hcall] at hserved
  exact Outcome.send.inj (h.outcome.symm.trans (hserved.update_reply h.block_named))

end Service

end DmService
