import DistributedMemory.DmRoutingProofs
import DistributedMemory.DmServiceProofs

/-!
# Membership — who has mapped what, on both sides

That a client has mapped a block is stored twice: as the entry in its local table and as
its connection id in the block's `mapped_clients`. The client makes the entry before it
asks and drops it after it is answered, so the two agree between calls only; what they are
in between is fixed by the call in progress and whether its reply is there yet.

* **`Agrees`** — the invariant, for one client and one block.
* **`run_agrees`** — it holds in every run without timeouts when connection ids are
  distinct; so maps and unmaps are never refused (`remapping_not_refused`).
* **`membership_agrees`** — the same for clients and a server that read one file.
-/

namespace DmMembership

open DmBlock DmConfig DmMessage DmClient DmServer DmRouting DmHost DmSystem DmPairing
  DmHistory DmService LabelledRun

variable {ι : Type} [DecidableEq ι]

/-- The server has the client on the block's list. -/
def Registered (D : Deployment ι) (s : System ι) (c : ι) (k : Int32) : Prop :=
  ∃ it, s.host.server.blocks k = some it ∧ D.clientId c ∈ it.mappedClients

/-- The call in progress is a map or unmap of block `k`. -/
def Remapping (p : Pending) (k : Int32) : Prop :=
  p.call.id = k ∧ (p.call.type = .map ∨ p.call.type = .unmap)

/-- Table and list agree, but for a map or unmap in progress: the list changes when the
    reply is made, the table at the call's other end. -/
structure Agrees (D : Deployment ι) (s : System ι) (c : ι) (k : Int32) : Prop where
  steady : (∀ p, (s.link c).pending = some p → ¬ Remapping p k) →
    (((s.link c).client.blocks k).isSome = true ↔ Registered D s c k)
  mapping : ∀ p, (s.link c).pending = some p → p.call.id = k → p.call.type = .map →
    ((s.link c).replies = [] → ¬ Registered D s c k) ∧
      ∀ x ∈ (s.link c).replies, (Message.ofNode x.2).type ≠ .nack ∧ Registered D s c k
  unmapping : ∀ p, (s.link c).pending = some p → p.call.id = k → p.call.type = .unmap →
    ((s.link c).replies = [] → Registered D s c k) ∧
      ∀ x ∈ (s.link c).replies, (Message.ofNode x.2).type ≠ .nack ∧ ¬ Registered D s c k

/-- No client id is on a block's list twice. -/
theorem run_nodup {D : Deployment ι} {tr : Trace ι} {s : System ι} (hrun : SysRun D tr s)
    {k : Int32} {it : BlockServer} (hit : s.host.server.blocks k = some it) :
    it.mappedClients.Nodup := by
  induction hrun generalizing it with
  | nil =>
      have hcreate : (Server.create D.blocksId).blocks k = some it := hit
      rw [Server.create_blocks] at hcreate
      split at hcreate
      · rw [← Option.some.inj hcreate]
        exact List.nodup_nil
      · exact nomatch hcreate
  | @snoc tr s s' e hpre hs ih =>
      obtain ⟨it₀, hit₀, -⟩ := run_recorded hpre (hosted_of_blocks (hpre.snoc hs) hit)
      rcases server_cases (sys_settled hpre) hs with
        ⟨hsrv, -⟩ | ⟨c, tag, req, b, m, sec, -, -, hserved, hsrv⟩
      · rw [hsrv] at hit
        exact ih hit
      · obtain ⟨it', hit', -, -, hnodup⟩ := hserved.members hit₀
        rw [hsrv] at hit
        obtain rfl := Option.some.inj (hit.symm.trans hit')
        exact hnodup (ih hit₀)

omit [DecidableEq ι] in
/-- A step that leaves the block's list and the client's part alone. -/
theorem Agrees.congr {D : Deployment ι} {s s' : System ι} {c : ι} {k : Int32}
    (h : Agrees D s c k) (hreg : Registered D s' c k ↔ Registered D s c k)
    (hblocks : ((s'.link c).client.blocks k).isSome = ((s.link c).client.blocks k).isSome)
    (hpending : (s'.link c).pending = (s.link c).pending)
    (hreplies : (s'.link c).replies = (s.link c).replies) : Agrees D s' c k := by
  constructor
  · rw [hpending, hblocks, hreg]
    exact h.steady
  · rw [hpending, hreplies, hreg]
    exact h.mapping
  · rw [hpending, hreplies, hreg]
    exact h.unmapping

omit [DecidableEq ι] in
/-- A step whose server is the same. -/
theorem registered_congr {D : Deployment ι} {s s' : System ι} {c : ι} {k : Int32}
    (h : s'.host.server = s.host.server) : Registered D s' c k ↔ Registered D s c k := by
  rw [Registered, Registered, h]

/-- A step that neither maps nor unmaps the block for this client leaves it registered or
    not. -/
theorem registered_step {D : Deployment ι} {tr : Trace ι} {s s' : System ι} {e : Event ι}
    (hrun : SysRun D tr s) {c : ι} {k : Int32} (hs : Step D s e s')
    (hother : ∀ u tag req ans, e = .critical u tag req ans →
      D.clientId c ≠ D.clientId u ∨ ∀ b m, (Message.ofNode req).deref = .ok (b, m) →
        ¬ Remaps (Message.ofNode req).type b k) :
    Registered D s' c k ↔ Registered D s c k := by
  rcases server_cases (sys_settled hrun) hs with
    ⟨hsrv, -⟩ | ⟨u, tag, req, b, m, sec, hev, hm, hserved, hsrv⟩
  · exact registered_congr hsrv
  · have hother := hother u tag req _ hev
    have hlist : ∀ it, s.host.server.blocks k = some it →
        ∃ it', s'.host.server.blocks k = some it' ∧
          (D.clientId c ∈ it'.mappedClients ↔ D.clientId c ∈ it.mappedClients) := by
      intro it hit
      obtain ⟨it', hit', hkeep, hothers, -⟩ := hserved.members hit
      refine ⟨it', by rw [hsrv]; exact hit', ?_⟩
      rcases hother with hne | hno
      · exact hothers _ hne
      · rw [hkeep (hno b m hm)]
    -- no block comes or goes, so both directions go through its list
    constructor
    · rintro ⟨it', hit', hin⟩
      cases hit : s.host.server.blocks k with
      | none =>
          have hnone := hserved.unhosted_of_unhosted hit
          rw [hsrv, hnone] at hit'
          exact nomatch hit'
      | some it =>
          obtain ⟨it'', hit'', hiff⟩ := hlist it hit
          obtain rfl := Option.some.inj (hit'.symm.trans hit'')
          exact ⟨it, hit, hiff.mp hin⟩
    · rintro ⟨it, hit, hin⟩
      obtain ⟨it', hit', hiff⟩ := hlist it hit
      exact ⟨it', hit', hiff.mpr hin⟩

/-! ## The steps of the client's own connection -/

/-- A call sends its request: a map only where there is no entry, an unmap only where there
    is one. -/
theorem agrees_sent {D : Deployment ι} {tr : Trace ι} {s s' : System ι}
    (hrun : SysRun D tr s) (hno : NoTimeout tr) {c : ι} {k : Int32} {p : Pending}
    (h : Agrees D s c k) (hs : Step D s (.sent c p) s') : Agrees D s' c k := by
  obtain ⟨hidle, client, hsend, hpost, hpending⟩ := sent_inv hs
  obtain ⟨e, hreq⟩ := Client.send_sent hsend
  have hlink : s'.link c = (s.link c).write client p.call p.req := by
    rw [hpost, System.setLink_self]
  have hclient : (s'.link c).client = client := by rw [hlink]; rfl
  have hreplies : (s'.link c).replies = [] := by
    rw [hlink]
    exact (idle_quiet hrun hno hidle).1
  have hreg : Registered D s' c k ↔ Registered D s c k :=
    registered_congr (by rw [hpost]; rfl)
  have hsteady := h.steady (fun q hq => by rw [hidle] at hq; exact nomatch hq)
  constructor
  · intro hnone
    have hnot := hnone p hpending
    have hblocks : (s'.link c).client.blocks k = (s.link c).client.blocks k := by
      rw [hclient]
      by_cases hkp : k = p.call.id
      · rw [hreq.same (fun hmap => hnot ⟨hkp.symm, Or.inl hmap⟩)]
      · exact hreq.others k hkp
    rw [hblocks, hreg]
    exact hsteady
  -- a map goes out only where the table has nothing
  · intro q hq hid hmap
    obtain rfl := Option.some.inj (hpending.symm.trans hq)
    rw [hreplies, hreg]
    refine ⟨fun _ hin => ?_, fun x hx => nomatch hx⟩
    obtain ⟨id, address, hcall⟩ := Call.eq_map hmap
    have hfree := (hreq.created id address hcall).1
    rw [← hsteady, ← hid, hcall] at hin
    rw [show (Call.map id address).id = id from rfl, hfree] at hin
    exact nomatch hin
  · intro q hq hid hunmap
    obtain rfl := Option.some.inj (hpending.symm.trans hq)
    rw [hreplies, hreg]
    refine ⟨fun _ => hsteady.mp ?_, fun x hx => nomatch hx⟩
    have hentry := hreq.entry
    rw [hreq.same (fun hmap => by rw [hunmap] at hmap; exact nomatch hmap), hid] at hentry
    rw [hentry]
    rfl

/-- The server serves the call in progress. -/
theorem agrees_critical {D : Deployment ι} {tr : Trace ι} {s s' : System ι}
    (hrun : SysRun D tr s) (hno : NoTimeout tr) {c : ι} {k : Int32} (hk : k ∈ D.blocksId)
    {tag : Nat} {req : Node} {ans : Option Node} (h : Agrees D s c k)
    (hs : Step D s (.critical c tag req ans) s') : Agrees D s' c k := by
  obtain ⟨p, hp, -, rfl, hrep⟩ := critical_pending hrun hno hs
  obtain ⟨e, he, hreq, -⟩ := pending_requests hrun hp
  have hid : e.id = p.call.id := run_named hrun hno c _ e he
  obtain ⟨-, -, -, hlink, -⟩ := critical_queue hs
  have hclient : (s'.link c).client = (s.link c).client := by rw [hlink]; rfl
  have hpending : (s'.link c).pending = some p := by rw [hlink]; exact hp
  have hreplies : (s'.link c).replies = ans.toList.map fun n => (tag, n) := by
    rw [hlink, Link.answered, hrep]
    rfl
  have hcritical := hs
  rw [hreq] at hcritical
  obtain ⟨sec, hserved, hsrv, hans⟩ :=
    critical_emitted (sys_settled hrun) (isRequest_type p.call) hcritical
  obtain ⟨it, hit, -⟩ := run_recorded hrun hk
  have hnamed : p.call.id = k → s.host.server.blocks
      (Message.decoded e.toBlock p.call.shallow).id = some it := by
    intro hpk
    rw [Message.decoded_id, BlockLocal.toBlock_id, hid, hpk]
    exact hit
  have hkey : p.call.id = k → (Message.decoded e.toBlock p.call.shallow).id = k := by
    intro hpk
    rw [Message.decoded_id, BlockLocal.toBlock_id, hid, hpk]
  constructor
  · intro hnone
    have hnot := hnone p hpending
    have hreg : Registered D s' c k ↔ Registered D s c k := by
      refine registered_step hrun hs fun u tag' req' ans' hev => Or.inr ?_
      obtain ⟨-, -, rfl, -⟩ := Event.critical.inj hev
      refine fun b m hm hremaps => hnot ?_
      rw [hreq, Message.deref_emitBlock] at hm
      rw [hreq, Message.type_emitBlock] at hremaps
      obtain ⟨rfl, -⟩ := Prod.mk.inj (Except.ok.inj hm)
      obtain ⟨hb, htype⟩ := hremaps
      rw [Message.decoded_id, BlockLocal.toBlock_id, hid] at hb
      exact ⟨hb, htype⟩
    rw [hclient, hreg]
    exact h.steady (fun q hq => by
      rw [← Option.some.inj (hp.symm.trans hq)]
      exact hnot)
  · intro q hq hpk hmap
    obtain rfl := Option.some.inj (hpending.symm.trans hq)
    -- before its reply the map has registered nothing
    have hnew : D.clientId c ∉ it.mappedClients := fun hin =>
      (h.mapping p hp hpk hmap).1 hrep ⟨it, hit, hin⟩
    rw [hmap] at hserved
    obtain ⟨ho, it', hit', hin⟩ := hserved.map_new (hnamed hpk) hnew
    rw [answer, ho] at hans
    have hreg : Registered D s' c k := by
      rw [hkey hpk] at hit'
      exact ⟨it', by rw [hsrv]; exact hit', hin⟩
    rw [hreplies, hans]
    refine ⟨fun hnil => (by cases hnil), fun x hx => ⟨?_, hreg⟩⟩
    rw [List.mem_singleton.mp hx, Message.type_emitBlock]
    decide
  · intro q hq hpk hunmap
    obtain rfl := Option.some.inj (hpending.symm.trans hq)
    obtain ⟨it₀, hit₀, hold⟩ := (h.unmapping p hp hpk hunmap).1 hrep
    obtain rfl := Option.some.inj (hit.symm.trans hit₀)
    rw [hunmap] at hserved
    obtain ⟨ho, it', hit', hout⟩ :=
      hserved.unmap_old (hnamed hpk) hold (run_nodup hrun hit)
    rw [answer, ho] at hans
    have hreg : ¬ Registered D s' c k := by
      rintro ⟨it'', hit'', hin⟩
      rw [hkey hpk] at hit'
      rw [hsrv] at hit''
      rw [Option.some.inj (hit''.symm.trans hit')] at hin
      exact hout hin
    rw [hreplies, hans]
    refine ⟨fun hnil => (by cases hnil), fun x hx => ⟨?_, hreg⟩⟩
    rw [List.mem_singleton.mp hx, Message.type_emit]
    decide

/-- An unmap that reads anything but a NACK drops the entry; it cannot die of it. -/
theorem receive_unmap {c : Client} {call : Call} {e : BlockLocal} {n : Node}
    (hcall : call.type = .unmap) (he : c.blocks call.id = some e)
    (hn : (Message.ofNode n).type ≠ .nack) :
    c.receive call (some n) = .ok (0, c.setBlock call.id none) := by
  have hu : call.usesBlock = false := by
    cases call with
    | unmap id => rfl
    | map id address => exact nomatch hcall
    | update id => exact nomatch hcall
    | write id => exact nomatch hcall
    | wait id => exact nomatch hcall
  have hack : call.onAck e (BlockServer.create 0) = none := by
    cases call with
    | unmap id => rfl
    | map id address => exact nomatch hcall
    | update id => exact nomatch hcall
    | write id => exact nomatch hcall
    | wait id => exact nomatch hcall
  rw [Client.receive_ack (b := BlockServer.create 0) (m := Message.ofNode n) he hn
    (fun hu' => by rw [hu] at hu'; exact nomatch hu'), hack]

/-- Whatever any other call reads, its entry stays. -/
theorem receive_keeps {c c' : Client} {call : Call} {e : BlockLocal} {n : Node} {code : Int}
    (hcall : call.type ≠ .unmap) (he : c.blocks call.id = some e)
    (h : c.receive call (some n) = .ok (code, c')) : (c'.blocks call.id).isSome = true := by
  rcases Client.receive_cases he h with ⟨-, -, rfl⟩ | ⟨-, -, b, -, rfl⟩
  · rw [Client.setBlock_same]
    rfl
  · rw [Client.setBlock_same]
    cases call with
    | unmap id => exact absurd rfl hcall
    | map id address => rfl
    | update id => rfl
    | write id => rfl
    | wait id => rfl

/-- The call reads its reply and ends. -/
theorem agrees_received {D : Deployment ι} {tr : Trace ι} {s s' : System ι}
    (hrun : SysRun D tr s) {c : ι} {k : Int32} {p : Pending}
    {tag : Nat} {reply : Node} {code : Option Int} (h : Agrees D s c k)
    (hs : Step D s (.received c p tag reply code) s') : Agrees D s' c k := by
  obtain ⟨hp, rest, hrep⟩ := received_head hs
  have hin : (tag, reply) ∈ (s.link c).replies := by rw [hrep]; exact List.mem_cons_self
  obtain ⟨e, he, -⟩ := pending_requests hrun hp
  have hpost : (s'.link c).pending = none ∧ s'.host.server = s.host.server := by
    cases hs with
    | received => exact ⟨by rw [System.setLink_self]; rfl, rfl⟩
    | receivedDied => exact ⟨by rw [System.setLink_self]; rfl, rfl⟩
  have hreg : Registered D s' c k ↔ Registered D s c k := registered_congr hpost.2
  have hclient : (∃ code', code = some code' ∧ (s.link c).client.receive p.call (some reply)
        = .ok (code', (s'.link c).client)) ∨
      ((∃ f, (s.link c).client.receive p.call (some reply) = .error f) ∧
        (s'.link c).client = (s.link c).client) := by
    cases hs with
    | @received _ _ _ _ _ code client _ _ _ hrecv =>
        exact Or.inl ⟨code, rfl, by rw [System.setLink_self]; exact hrecv⟩
    | @receivedDied _ _ _ _ _ f _ _ _ hrecv =>
        exact Or.inr ⟨⟨f, hrecv⟩, by rw [System.setLink_self]; rfl⟩
  -- an entry goes only with an unmap
  have hkeep : p.call.id = k → p.call.type ≠ .unmap →
      ((s'.link c).client.blocks k).isSome = true := by
    intro hpk hnot
    rcases hclient with ⟨code', -, hrecv⟩ | ⟨-, hsame⟩
    · rw [← hpk]
      exact receive_keeps hnot he hrecv
    · rw [hsame, ← hpk, he]
      rfl
  constructor
  · intro _
    rw [hreg]
    by_cases hpk : p.call.id = k
    · by_cases hunmap : p.call.type = .unmap
      · -- the entry goes, and the client was struck off when the reply was made
        obtain ⟨hack, hout⟩ := (h.unmapping p hp hpk hunmap).2 _ hin
        have hdrop := receive_unmap hunmap he hack
        rcases hclient with ⟨code', -, hrecv⟩ | ⟨⟨f, hf⟩, -⟩
        · rw [hdrop] at hrecv
          rw [← (Prod.mk.inj (Except.ok.inj hrecv)).2, hpk, Client.setBlock_same]
          exact ⟨fun hsome => (nomatch hsome), fun hr => absurd hr hout⟩
        · rw [hdrop] at hf
          exact nomatch hf
      · by_cases hmap : p.call.type = .map
        · have hr := ((h.mapping p hp hpk hmap).2 _ hin).2
          exact ⟨fun _ => hr, fun _ => hkeep hpk hunmap⟩
        · have hsteady := h.steady (fun q hq => by
            rw [← Option.some.inj (hp.symm.trans hq)]
            exact fun hr => hr.2.elim hmap hunmap)
          have hr : Registered D s c k := by
            refine hsteady.mp ?_
            rw [← hpk, he]
            rfl
          exact ⟨fun _ => hr, fun _ => hkeep hpk hunmap⟩
    · have hsteady := h.steady (fun q hq => by
        rw [← Option.some.inj (hp.symm.trans hq)]
        exact fun hr => hpk hr.1)
      rcases hclient with ⟨code', -, hrecv⟩ | ⟨-, hsame⟩
      · rw [receive_other he hrecv (fun heq => hpk heq.symm)]
        exact hsteady
      · rw [hsame]
        exact hsteady
  · intro q hq
    rw [hpost.1] at hq
    exact nomatch hq
  · intro q hq
    rw [hpost.1] at hq
    exact nomatch hq

/-! ## Every run -/

omit [DecidableEq ι] in
theorem start_agrees (D : Deployment ι) (c : ι) (k : Int32) : Agrees D D.start c k where
  steady := by
    intro _
    refine ⟨fun hsome => (nomatch hsome), ?_⟩
    rintro ⟨it, hit, hin⟩
    have hcreate : (Server.create D.blocksId).blocks k = some it := hit
    rw [Server.create_blocks] at hcreate
    split at hcreate
    · rw [← Option.some.inj hcreate] at hin
      exact nomatch hin
    · exact nomatch hcreate
  mapping := fun _ hp => nomatch hp
  unmapping := fun _ hp => nomatch hp

/-- **Every step keeps table and list in agreement.** -/
theorem step_agrees {D : Deployment ι} {tr : Trace ι} {s s' : System ι} {e : Event ι}
    (hids : Function.Injective D.clientId) (hrun : SysRun D tr s)
    (hno : NoTimeout (tr ++ [⟨s, e, s'⟩])) {c : ι} {k : Int32} (hk : k ∈ D.blocksId)
    (h : Agrees D s c k) (hs : Step D s e s') : Agrees D s' c k := by
  have hno' : NoTimeout tr := fun t ht => hno t (List.mem_append_left _ ht)
  by_cases hc : c = e.party
  · cases e with
    | returned u call code =>
        obtain rfl : c = u := hc
        cases hs with
        | returned hidle halive hsend =>
            refine h.congr (registered_congr rfl) ?_ ?_ ?_ <;> rw [System.setLink_self]
            rw [(Client.send_returned hsend).2]
    | sent u p =>
        obtain rfl : c = u := hc
        exact agrees_sent hrun hno' h hs
    | died u call =>
        obtain rfl : c = u := hc
        cases hs with
        | died hidle halive hsend =>
            refine h.congr (registered_congr rfl) ?_ ?_ ?_ <;> rw [System.setLink_self]
    | poked u id =>
        obtain rfl : c = u := hc
        cases hs with
        | @poked _ _ e d hidle halive he =>
            refine h.congr (registered_congr rfl) ?_ ?_ ?_
            · rw [System.setLink_self]
              by_cases hkid : k = id
              · subst hkid
                show ((Client.setBlock _ k _).blocks k).isSome = _
                rw [Client.setBlock_same, he]
                rfl
              · show ((Client.setBlock _ id _).blocks k).isSome = _
                rw [Client.setBlock_other _ _ hkid]
            · rw [System.setLink_self]
            · rw [System.setLink_self]
    | critical u tag req ans =>
        obtain rfl : c = u := hc
        exact agrees_critical hrun hno' hk h hs
    | woken u =>
        cases hs with
        | woken hhost =>
            exact h.congr (registered_congr (server_woken hhost)) rfl rfl rfl
    | received u p tag reply code =>
        obtain rfl : c = u := hc
        exact agrees_received hrun h hs
    | timedOut u p => exact absurd rfl (hno ⟨s, .timedOut u p, s'⟩ (by simp) u p)
  · obtain ⟨hlink, -⟩ := step_other hs hc
    have hreg : Registered D s' c k ↔ Registered D s c k := by
      refine registered_step hrun hs fun u tag req ans hev => Or.inl fun heq => hc ?_
      rw [hev]
      exact hids heq
    refine h.congr hreg ?_ ?_ ?_ <;> rw [hlink]

/-- **Table and list agree** in every reachable state. -/
theorem run_agrees {D : Deployment ι} {tr : Trace ι} {s : System ι}
    (hids : Function.Injective D.clientId) (hrun : SysRun D tr s) (hno : NoTimeout tr) (c : ι)
    {k : Int32} (hk : k ∈ D.blocksId) : Agrees D s c k := by
  induction hrun with
  | nil => exact start_agrees D c k
  | snoc hpre hs ih =>
      exact step_agrees hids hpre hno hk (ih fun t ht => hno t (List.mem_append_left _ ht)) hs

/-- The reply to a map or unmap of a hosted block is never a NACK. -/
theorem remapping_not_refused {D : Deployment ι} {tr : Trace ι} {s s' : System ι}
    (hids : Function.Injective D.clientId) (hrun : SysRun D tr s) (hno : NoTimeout tr)
    {c : ι} {p : Pending} {tag : Nat} {reply : Node} {code : Option Int}
    (hk : p.call.id ∈ D.blocksId) (hcall : p.call.type = .map ∨ p.call.type = .unmap)
    (hs : Step D s (.received c p tag reply code) s') :
    (Message.ofNode reply).type ≠ .nack := by
  obtain ⟨hp, rest, hrep⟩ := received_head hs
  have hin : (tag, reply) ∈ (s.link c).replies := by rw [hrep]; exact List.mem_cons_self
  have h := run_agrees hids hrun hno c hk
  rcases hcall with hmap | hunmap
  · exact ((h.mapping p hp rfl hmap).2 _ hin).1
  · exact ((h.unmapping p hp rfl hunmap).2 _ hin).1

/-! ## One configuration for all -/

/-- Every client has completed `dm_init`, and the server was made, from the same file. -/
structure Initialised (D : Deployment ι) (yaml : YamlFile) (file : String) : Prop where
  client : ∀ c, ∃ connect, Client.dmInit (Client.create yaml) yaml file connect =
    (true, ⟨D.config c, D.sockets c, fun _ => none⟩)
  server : ∃ conf, (Config.create yaml file).find D.serverId = some conf ∧
    D.blocksId = conf.blocksId

omit [DecidableEq ι] in
/-- Every client has the configuration in the file. -/
theorem Initialised.config {D : Deployment ι} {yaml : YamlFile} {file : String}
    (h : Initialised D yaml file) (c : ι) : D.config c = Config.create yaml file := by
  obtain ⟨connect, hinit⟩ := h.client c
  rw [Client.dmInit] at hinit
  split at hinit
  · exact (congrArg Client.config (Prod.mk.inj hinit).2).symm
  · cases hinit

/-- No call changes a client's configuration. -/
theorem run_config {D : Deployment ι} {tr : Trace ι} {s : System ι} (hrun : SysRun D tr s)
    (hno : NoTimeout tr) (c : ι) : (s.link c).client.config = D.config c := by
  induction hrun with
  | nil => rfl
  | @snoc tr s s' e hpre hs ih =>
      have ih := ih fun t ht => hno t (List.mem_append_left _ ht)
      cases client_cases hs c with
      | quiet hclient _ _ => rw [hclient, ih]
      | sent _ _ hsend hclient _ =>
          obtain ⟨_, hreq⟩ := Client.send_sent hsend
          rw [hclient, hreq.config.1, ih]
      | poked d _ _ he hclient =>
          rw [hclient]
          exact ih
      | received hp hrecv hclient _ =>
          obtain ⟨_, he, -⟩ := pending_requests hpre hp
          rw [hclient]
          rcases Client.receive_cases he hrecv with ⟨-, -, rfl⟩ | ⟨-, -, _, -, rfl⟩ <;> exact ih
      | @timedOut p => exact absurd rfl (hno ⟨s, .timedOut c p, s'⟩ (by simp) c p)

/-- A call in progress is about a block that its client's configuration routes to the
    server. -/
theorem pending_routed {D : Deployment ι} {tr : Trace ι} {s : System ι}
    (hrun : SysRun D tr s) (hno : NoTimeout tr) {c : ι} {p : Pending}
    (hp : (s.link c).pending = some p) :
    (D.config c).findServerIdByBlockId p.call.id = D.serverId := by
  obtain ⟨i, t, hi, hev, -⟩ := (run_exchanging hrun c p hp).issued
  have hs := hrun.step_of_mem (List.mem_of_getElem? hi)
  rw [hev] at hs
  obtain ⟨-, client, hsend, -, -⟩ := sent_inv hs
  have hno' : NoTimeout (tr.take i) := fun t ht => hno t (List.mem_of_mem_take ht)
  rw [← run_config (hrun.take hi) hno' c]
  exact (send_server hsend).1.symm

/-- A map or unmap that returns without an exchange does not return `-5`. -/
theorem remapping_returned {c c' : Client} {call : Call} {code : Int}
    (hcall : call.type = .map ∨ call.type = .unmap)
    (h : c.send call = .ok (.returned code c')) : code ≠ -5 := by
  have hopen : ∀ (id : Int32) (k : String → BlockLocal → Sending),
      (∀ sid e, k sid e ≠ .returned code c') →
      c.openMapped id k = .ok (.returned code c') → code ≠ -5 := by
    intro id k hk hret
    rw [Client.openMapped] at hret
    split at hret
    · rw [← (Sending.returned.inj (Except.ok.inj hret)).1]
      decide
    · split at hret
      · rw [← (Sending.returned.inj (Except.ok.inj hret)).1]
        decide
      · split at hret
        · cases hret
        · split at hret
          · exact absurd (Except.ok.inj hret) (hk _ _)
          · rw [← (Sending.returned.inj (Except.ok.inj hret)).1]
            decide
  cases call with
  | map id address =>
      have hcode : ∀ n : Int, c.send (.map id address) = .ok (.returned n c) → code = n :=
        fun n hsend => (Sending.returned.inj (Except.ok.inj (h.symm.trans hsend))).1
      cases Client.mapSends c id address with
      | unrouted _ hsend => exact fun h5 => absurd ((hcode _ hsend).symm.trans h5) (by decide)
      | mapped _ _ hsend => exact fun h5 => absurd ((hcode _ hsend).symm.trans h5) (by decide)
      | unconnected _ _ hsend => cases h.symm.trans hsend
      | closed _ _ _ hsend => exact fun h5 => absurd ((hcode _ hsend).symm.trans h5) (by decide)
      | sent _ _ _ _ hsend => cases h.symm.trans hsend
  | unmap id =>
      rw [Client.send, Client.dmBlockUnmapSend] at h
      exact hopen id _ (fun _ _ hk => by cases hk) h
  | update id => rcases hcall with h | h <;> cases h
  | write id => rcases hcall with h | h <;> cases h
  | wait id => rcases hcall with h | h <;> cases h

/-- Whenever client `c` has no call in progress, a block that the configuration routes to
    the server is in the client's table exactly if the client is on the block's list. -/
def TablesAgree (D : Deployment ι) (s : System ι) : Prop :=
  ∀ c, (s.link c).pending = none → ∀ k,
    (D.config c).findServerIdByBlockId k = D.serverId →
    (((s.link c).client.blocks k).isSome = true ↔ Registered D s c k)

/-- No map or unmap returned `-5`. -/
def NeverRefused (tr : Trace ι) : Prop :=
  ∀ t ∈ tr, ∀ c call, call.type = .map ∨ call.type = .unmap →
    t.event ≠ .returned c call (-5) ∧
      ∀ p tag reply, p.call = call → t.event ≠ .received c p tag reply (some (-5))

/-- **Client and server agree on who has mapped what** in every reachable state of clients
    and a server that read the same file; so no map and no unmap is ever refused. -/
theorem membership_agrees {D : Deployment ι} {yaml : YamlFile} {file : String}
    {tr : Trace ι} {s : System ι} (hids : Function.Injective D.clientId)
    (hinit : Initialised D yaml file) (hrun : SysRun D tr s) (hno : NoTimeout tr) :
    TablesAgree D s ∧ NeverRefused tr := by
  obtain ⟨conf, hfind, hblocks⟩ := hinit.server
  have hhosted : ∀ c k, (D.config c).findServerIdByBlockId k = D.serverId →
      k ∈ D.blocksId := by
    intro c k hroute
    rw [hinit.config c] at hroute
    rw [hblocks]
    exact hosted_of_routed hfind hroute
  constructor
  · intro c hidle k hroute
    refine (run_agrees hids hrun hno c (hhosted c k hroute)).steady fun p hp => ?_
    rw [hidle] at hp
    exact nomatch hp
  · intro t ht c call hcall
    obtain ⟨i, hi⟩ := List.getElem?_of_mem ht
    have hpre := hrun.take hi
    have hno' : NoTimeout (tr.take i) := fun t ht => hno t (List.mem_of_mem_take ht)
    have hs := hrun.step_of_mem ht
    constructor
    · intro hev
      rw [hev] at hs
      obtain ⟨client, hsend⟩ := returned_inv hs
      exact remapping_returned hcall hsend rfl
    · rintro p tag reply rfl hev
      rw [hev] at hs
      obtain ⟨hp, -⟩ := received_head hs
      have hack := remapping_not_refused hids hpre hno'
        (hhosted c _ (pending_routed hpre hno' hp)) hcall hs
      -- `-5` is the code of a NACK
      obtain ⟨-, rest, client, -, hrecv, -⟩ := received_inv hs
      obtain ⟨e, he, -⟩ := pending_requests hpre hp
      rcases Client.receive_cases he hrecv with ⟨hnack, -⟩ | ⟨-, hcode, -⟩
      · exact hack hnack
      · exact absurd hcode (by decide)

/-- The file of the two clients' configuration. -/
def twoClientsFile : YamlFile :=
  ⟨fun _ => .document [⟨.value "10.0.0.1", .value "5000", .value [7], .value "pass", .value "",
    .value ""⟩]⟩

theorem twoClients_initialised : Initialised twoClients twoClientsFile "dmconfig.yml" where
  client := by
    intro c
    refine ⟨fun _ => true, Prod.ext rfl ?_⟩
    show Client.mk _ (Function.update _ _ _) _ = _
    refine congrArg₂ (fun config sockets => Client.mk config sockets fun _ => none) rfl ?_
    funext id
    rw [Function.update_apply]
    rfl
  server := ⟨_, rfl, rfl⟩

/-- Both clients map block 7, and one of them unmaps it and maps it again. -/
def mapUnmapMap : List (Action Bool) :=
  [.call false (.map 7 (Data.memset 1)), .call true (.map 7 (Data.memset 2)), .serve false,
   .serve true, .receive true, .receive false, .call true (.unmap 7), .serve true,
   .receive true, .call true (.map 7 (Data.memset 3)), .serve true, .receive true]

theorem membership_agrees_mapUnmapMap :
    ∃ tr s, SysRun twoClients tr s ∧ tr.length = 12 ∧ TablesAgree twoClients s ∧
      NeverRefused tr := by
  obtain ⟨q, hq, hfacts⟩ := Option.map_eq_some_iff.mp (show
    (exec (next twoClients) twoClients.start mapUnmapMap).map
      (fun q => (decide (NoTimeout q.1), q.1.length)) = some (true, 12) by decide +kernel)
  obtain ⟨hno, hlen⟩ := Prod.mk.inj hfacts
  have hrun := run_of_exec _ (DmSystem.next_sound _) mapUnmapMap _ hq
  have hids : Function.Injective twoClients.clientId :=
    show ∀ ⦃c u⦄, twoClients.clientId c = twoClients.clientId u → c = u by decide
  exact ⟨q.1, q.2, hrun, hlen,
    membership_agrees hids twoClients_initialised hrun (of_decide_eq_true hno)⟩

end DmMembership
