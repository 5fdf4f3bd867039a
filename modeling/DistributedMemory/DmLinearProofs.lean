import Mathlib.Data.Set.List
import DistributedMemory.DmCoherenceProofs
import DistributedMemory.DmMembershipProofs

/-!
# Writes — a compare-and-swap made of two counters

The server accepts a write whose request carries the revision the block has, and counts
that revision up; the client counts its own up when it reads the ACK. So the accepted
writes are in a row by the revision they found, and each writer had last synchronised with
exactly that revision.

* **`LastSync`** — the revision of the server's block at a client's last map, update or
  acknowledged write; **`run_knows`** — it is the revision of the client's entry.
* **`WriteCall`** — a write that returned `0`, with its steps.
* **`no_lost_update`** — those calls, numbered by the revisions they found.
-/

namespace DmLinear

open DmBlock DmMessage DmClient DmServer DmHost DmSystem DmPairing DmHistory DmService
  DmCoherence DmMembership LabelledRun VersionedCell

variable {ι : Type} [DecidableEq ι]

/-! ## Synchronisation -/

/-- The calls after which the client is at the server's revision. -/
def syncs : Call → Bool
  | .map _ _ | .update _ | .write _ => true
  | .unmap _ | .wait _ => false

/-- The last call of client `c` on block `k` that synchronised was served when the server
    had, or came to, revision `r`. -/
def LastSync (tr : Trace ι) (c : ι) (k : Int32) (r : Int32) : Prop :=
  ∃ (i j : Nat) (t served : Entry (System ι) (Event ι)) (p : Pending) (reply : Node)
    (it : BlockServer), j < i ∧ tr[i]? = some t ∧ completed c k t = some (p, reply) ∧
      syncs p.call = true ∧ tr[j]? = some served ∧
      served.event = .critical c p.tag p.req (some reply) ∧
      served.post.host.server.blocks k = some it ∧ it.revision = r ∧
      ∀ (i' : Nat) (t' : Entry (System ι) (Event ι)) (p' : Pending) (reply' : Node),
        i < i' → tr[i']? = some t' → completed c k t' = some (p', reply') →
          syncs p'.call = false

/-- Steps that complete no synchronising call leave the last one as it is. -/
theorem LastSync.keep {tr : Trace ι} {c : ι} {k r : Int32} {t : Entry (System ι) (Event ι)}
    (h : LastSync tr c k r)
    (hno : ∀ p reply, completed c k t = some (p, reply) → syncs p.call = false) :
    LastSync (tr ++ [t]) c k r := by
  obtain ⟨i, j, ti, tj, p, reply, it, hji, hi, hdone, hsync, hj, hev, hit, hr, hlast⟩ := h
  refine ⟨i, j, ti, tj, p, reply, it, hji, getElem?_append_of_some hi, hdone, hsync,
    getElem?_append_of_some hj, hev, hit, hr, ?_⟩
  intro i' t' p' reply' hlt hi' hdone'
  rcases getElem?_snoc_cases hi' with ⟨-, hold⟩ | ⟨-, rfl⟩
  · exact hlast i' t' p' reply' hlt hold hdone'
  · exact hno p' reply' hdone'

/-- The call completed in the last step is the last one. -/
theorem lastSync_snoc {tr : Trace ι} {c : ι} {k : Int32} {t served : Entry (System ι) (Event ι)}
    {p : Pending} {reply : Node} {j : Nat} {it : BlockServer}
    (hdone : completed c k t = some (p, reply)) (hsync : syncs p.call = true)
    (hj : tr[j]? = some served) (hev : served.event = .critical c p.tag p.req (some reply))
    (hit : served.post.host.server.blocks k = some it) :
    LastSync (tr ++ [t]) c k it.revision := by
  obtain ⟨hlt, -⟩ := List.getElem?_eq_some_iff.mp hj
  refine ⟨tr.length, j, t, served, p, reply, it, hlt, List.getElem?_concat_length, hdone,
    hsync, getElem?_append_of_some hj, hev, hit, rfl, ?_⟩
  intro i' t' p' reply' hi' hget hdone'
  obtain ⟨hlt', -⟩ := List.getElem?_eq_some_iff.mp hget
  rw [List.length_append, List.length_singleton] at hlt'
  omega

omit [DecidableEq ι] in
/-- A service of any other call than a write leaves the block's content. -/
theorem post_block {D : Deployment ι} {tr : Trace ι} {c : ι} {p : Pending} {reply : Node}
    {client : Client} {j : Nat} {t : Entry (System ι) (Event ι)} {e : BlockLocal}
    {it : BlockServer} {sec : Section} (h : Service D tr c p reply client j t e it sec)
    (hcall : p.call.type ≠ .write) :
    ∃ it', t.post.host.server.blocks p.call.id = some it' ∧ SameContent it it' := by
  obtain ⟨it', hit', -, hkeep⟩ := h.served.content h.block
  rw [← h.server] at hit'
  exact ⟨it', hit', hkeep (fun ha => hcall ha.type)⟩

/-- **What a call leaves its entry at**: after one that synchronised the revision the
    server's block had right after the service, after any other the one it was at. -/
theorem settles {D : Deployment ι} {tr : Trace ι} {s s' : System ι} {c : ι} {p : Pending}
    {reply : Node} {code : Int} {j : Nat} {t : Entry (System ι) (Event ι)} {e : BlockLocal}
    {it : BlockServer} {sec : Section} {u : Nat}
    (h : Receipt D tr s s' c p reply code j t e it sec u)
    (hmap : p.call.type = .map → (Message.ofNode reply).type ≠ .nack) :
    (code = 0 ∧ syncs p.call = true ∧ ∃ e' it',
        (s'.link c).client.blocks p.call.id = some e' ∧
        t.post.host.server.blocks p.call.id = some it' ∧ it'.revision = e'.revision) ∨
      ((code = 0 → syncs p.call = false) ∧ p.call.type ≠ .map ∧
        ∀ e', (s'.link c).client.blocks p.call.id = some e' → e'.revision = e.revision) := by
  cases hcall : p.call with
  | map id address =>
      have htype : p.call.type = .map := by rw [hcall]; rfl
      rcases h.service.map htype with hreply | hreply
      · subst hreply
        obtain ⟨rfl, hentry⟩ := h.of_block
        obtain ⟨it', hit', hsame⟩ := post_block h.service (by rw [htype]; decide)
        rw [hcall] at hentry hit'
        exact Or.inl ⟨rfl, rfl, _, it', hentry, hit', hsame.revision⟩
      · rw [hreply, Message.type_emit] at hmap
        exact absurd rfl (hmap htype)
  -- no entry is left, or the one that was there
  | unmap id =>
      have htype : p.call.type = .unmap := by rw [hcall]; rfl
      refine Or.inr ⟨fun _ => rfl, nofun, ?_⟩
      intro e' he'
      rcases h.service.unmap htype with hreply | hreply
      · subst hreply
        obtain ⟨-, hentry⟩ := h.of_ack (by rw [hcall]; rfl) (BlockServer.create 0)
        rw [hcall, show (Call.unmap id).onAck e _ = none from rfl, he'] at hentry
        exact nomatch hentry
      · subst hreply
        obtain ⟨-, hentry⟩ := h.of_nack
        rw [hcall, he'] at hentry
        rw [Option.some.inj hentry]
        rfl
  | update id =>
      obtain ⟨it', hit', hsame⟩ := post_block h.service (by rw [hcall]; exact nofun)
      rcases h.of_update hcall with ⟨rfl, ⟨-, -, hentry⟩ | ⟨-, heq, -, hentry⟩⟩
      · rw [hcall] at hentry hit'
        exact Or.inl ⟨rfl, rfl, _, it', hentry, hit', hsame.revision⟩
      · rw [hcall] at hentry hit'
        exact Or.inl ⟨rfl, rfl, e, it', hentry, hit', hsame.revision.trans heq.symm⟩
  -- an acknowledged write counts both revisions up
  | write id =>
      have hserved := h.service.served
      rw [show p.call.type = .write by rw [hcall]; rfl] at hserved
      rcases hserved.write_reply h.service.block_named with ⟨hr, ho, hblock⟩ | ⟨-, ho, -⟩
      · obtain rfl := Outcome.send.inj (h.service.outcome.symm.trans ho)
        obtain ⟨rfl, hentry⟩ := h.of_ack (by rw [hcall]; rfl) (BlockServer.create 0)
        rw [← h.service.server, Message.decoded_id, BlockLocal.toBlock_id, h.service.named,
          hcall] at hblock
        rw [hcall] at hentry
        exact Or.inl ⟨rfl, rfl, _, _, hentry, hblock, rfl⟩
      · obtain rfl := Outcome.send.inj (h.service.outcome.symm.trans ho)
        obtain ⟨rfl, hentry⟩ := h.of_nack
        refine Or.inr ⟨fun h0 => absurd h0 (by decide), nofun, ?_⟩
        intro e' he'
        rw [hcall, he'] at hentry
        rw [Option.some.inj hentry]
        rfl
  | wait id =>
      refine Or.inr ⟨fun _ => rfl, nofun, ?_⟩
      intro e' he'
      obtain ⟨x, hold⟩ := h.old
      obtain ⟨-, hreply⟩ := wait_copy h.service hold (by rw [hcall]; rfl)
      subst hreply
      obtain ⟨-, hentry⟩ := h.of_ack (by rw [hcall]; rfl) (BlockServer.create 0)
      rw [hcall, he'] at hentry
      rw [Option.some.inj hentry]
      rfl

/-! ## What a client knows of the server's revision -/

/-- The entry of a live client that is not just mapping the block is at the revision the
    client last synchronised with. -/
def Knows (tr : Trace ι) (s : System ι) (c : ι) (k : Int32) : Prop :=
  ∀ e, (s.link c).client.blocks k = some e → (s.link c).dead = false →
    (∀ p, (s.link c).pending = some p → p.call.id = k → p.call.type ≠ .map) →
    LastSync tr c k e.revision

/-- A step that completes no call on the block, keeps the entry's revision, and neither
    revives the client nor ends a map. -/
theorem Knows.keep {tr : Trace ι} {s s' : System ι} {c : ι} {k : Int32}
    {t : Entry (System ι) (Event ι)} (h : Knows tr s c k) (hnone : completed c k t = none)
    (hentry : ∀ e', (s'.link c).client.blocks k = some e' →
      ∃ e, (s.link c).client.blocks k = some e ∧ e'.revision = e.revision)
    (hdead : (s'.link c).dead = false → (s.link c).dead = false)
    (hpending : ∀ p, (s.link c).pending = some p → p.call.id = k → p.call.type = .map →
      (s'.link c).dead = false → ∃ p', (s'.link c).pending = some p' ∧ p'.call.id = k ∧
        p'.call.type = .map) : Knows (tr ++ [t]) s' c k := by
  intro e' he' hlive hnot
  obtain ⟨e, he, hrev⟩ := hentry e' he'
  rw [hrev]
  refine (h e he (hdead hlive) ?_).keep (fun p reply hdone => ?_)
  · intro p hp hid hmap
    obtain ⟨p', hp', hid', hmap'⟩ := hpending p hp hid hmap hlive
    exact hnot p' hp' hid' hmap'
  · rw [hnone] at hdone
    exact nomatch hdone

/-- A call that returns after reading a reply. -/
theorem knows_received {D : Deployment ι} {tr : Trace ι} {s s' : System ι}
    (hids : Function.Injective D.clientId) (hrun : SysRun D tr s) (hno : NoTimeout tr) {c : ι}
    {p : Pending} {tag : Nat} {reply : Node} {code : Int} (hk : p.call.id ∈ D.blocksId)
    (hbound : (history p.call.id tr).version < 0x80000000) (h : Knows tr s c p.call.id)
    (hs : Step D s (.received c p tag reply (some code)) s') :
    Knows (tr ++ [⟨s, .received c p tag reply (some code), s'⟩]) s' c p.call.id := by
  obtain ⟨j, t, e, it, sec, u, hrec⟩ := receipt hrun hno hk hbound hs
  obtain ⟨hp, rest, client, -, -, hpost⟩ := received_inv hs
  have hdead : (s'.link c).dead = (s.link c).dead := by
    rw [hpost, System.setLink_self]
    rfl
  intro e' he' hlive _
  rw [hdead] at hlive
  have hsettles := settles hrec
    (fun hmap => remapping_not_refused hids hrun hno hk (Or.inl hmap) hs)
  -- a call that synchronised is the last one now; any other leaves the last one
  rcases hsettles with ⟨rfl, hsync, e'', it', he'', hit', hrev⟩ | ⟨hnosync, hmap, hrev⟩
  · obtain rfl := Option.some.inj (he'.symm.trans he'')
    rw [← hrev]
    exact lastSync_snoc (completed_received c p tag reply s s') hsync hrec.service.place
      hrec.service.event hit'
  · rw [hrev e' he']
    refine (h e hrec.service.entry hlive ?_).keep ?_
    · intro q hq _
      rw [← Option.some.inj (hp.symm.trans hq)]
      exact hmap
    · intro q reply' hdone
      have hdone' : (if c = c ∧ p.call.id = p.call.id ∧ code = 0 then some (p, reply)
          else none) = some (q, reply') := hdone
      by_cases h0 : code = 0
      · rw [if_pos ⟨rfl, rfl, h0⟩] at hdone'
        rw [← (Prod.mk.inj (Option.some.inj hdone')).1]
        exact hnosync h0
      · rw [if_neg (fun hall => h0 hall.2.2)] at hdone'
        exact nomatch hdone'

/-- A call that sends its request: a map of the block is in progress from then on. -/
theorem knows_sent {tr : Trace ι} {s s' : System ι} {c : ι} {k : Int32} {p : Pending}
    {client : Client} {e : BlockLocal} (h : Knows tr s c k)
    (hidle : (s.link c).pending = none) (halive : (s.link c).dead = false)
    (hreq : Client.Requests (s.link c).client p.call p.req client e)
    (hclient : (s'.link c).client = client) (hpending : (s'.link c).pending = some p) :
    Knows (tr ++ [⟨s, .sent c p, s'⟩]) s' c k := by
  by_cases hmap : p.call.id = k ∧ p.call.type = .map
  · intro e' _ _ hnot
    exact absurd hmap.2 (hnot p hpending hmap.1)
  · refine h.keep rfl (fun e' he' => ⟨e', ?_, rfl⟩) (fun _ => halive) ?_
    · rw [hclient] at he'
      by_cases hkp : k = p.call.id
      · rwa [hreq.same (fun ht => hmap ⟨hkp.symm, ht⟩)] at he'
      · rwa [hreq.others k hkp] at he'
    · intro q hq
      rw [hidle] at hq
      exact nomatch hq

/-- **Every step keeps what the clients know.** -/
theorem step_knows {D : Deployment ι} {tr : Trace ι} {s s' : System ι} {e : Event ι}
    (hids : Function.Injective D.clientId) (hrun : SysRun D tr s)
    (hno : NoTimeout (tr ++ [⟨s, e, s'⟩])) {c : ι} {k : Int32} (hk : k ∈ D.blocksId)
    (hbound : (history k tr).version < 0x80000000) (h : Knows tr s c k) (hs : Step D s e s') :
    Knows (tr ++ [⟨s, e, s'⟩]) s' c k := by
  have hno' : NoTimeout tr := fun t ht => hno t (List.mem_append_left _ ht)
  cases client_cases hs c with
  | quiet hclient hlive hevent =>
      refine h.keep (completed_eq_none ?_) ?_ (fun hl => (hlive hl).1) ?_
      · intro p tag reply hev
        exact absurd hev (hevent p tag reply 0)
      · intro e' he'
        exact ⟨e', by rw [← hclient]; exact he', rfl⟩
      · intro p hp hid hmap hl
        exact ⟨p, by rw [(hlive hl).2]; exact hp, hid, hmap⟩
  | sent hidle halive hsend hclient hpending =>
      obtain ⟨e, hreq⟩ := Client.send_sent hsend
      exact knows_sent h hidle halive hreq hclient hpending
  | @poked id e d hidle halive he hclient =>
      refine h.keep rfl ?_ (fun _ => halive) ?_
      · intro e' he'
        rw [hclient] at he'
        by_cases hkid : k = id
        · subst hkid
          rw [Client.setBlock_same] at he'
          exact ⟨e, he, by rw [← Option.some.inj he']⟩
        · rw [Client.setBlock_other _ _ hkid] at he'
          exact ⟨e', he', rfl⟩
      · intro p hp
        rw [hidle] at hp
        exact nomatch hp
  | @received p tag reply code client hp hrecv hclient hdead =>
      by_cases hkp : k = p.call.id
      · subst hkp
        exact knows_received hids hrun hno' hk hbound h hs
      · -- a call on another block
        obtain ⟨e, he, -⟩ := pending_requests hrun hp
        refine h.keep (completed_eq_none ?_) ?_ (fun hl => by rw [← hdead]; exact hl) ?_
        · intro p' tag' reply' hev
          obtain ⟨-, rfl, -, -, -⟩ := Event.received.inj hev
          exact fun heq => hkp heq.symm
        · intro e' he'
          rw [hclient, receive_other he hrecv hkp] at he'
          exact ⟨e', he', rfl⟩
        · intro q hq hid
          rw [← Option.some.inj (hp.symm.trans hq)] at hid
          exact absurd hid.symm hkp
  | @timedOut p => exact absurd rfl (hno ⟨s, .timedOut c p, s'⟩ (by simp) c p)

/-- **An entry is at the revision its client last synchronised with**, in every reachable
    state. -/
theorem run_knows {D : Deployment ι} {tr : Trace ι} {s : System ι}
    (hids : Function.Injective D.clientId) (hrun : SysRun D tr s) (hno : NoTimeout tr)
    {k : Int32} (hk : k ∈ D.blocksId) (hbound : (history k tr).version < 0x80000000) (c : ι) :
    Knows tr s c k := by
  induction hrun with
  | nil => exact fun _ he => nomatch he
  | @snoc tr s s' e hpre hs ih =>
      have hbound' : (history k tr).version < 0x80000000 :=
        Nat.lt_of_le_of_lt (history_append k tr _).version_le hbound
      exact step_knows hids hpre hno hk hbound'
        (ih (fun t ht => hno t (List.mem_append_left _ ht)) hbound') hs

/-! ## Writes and their steps -/

/-- A write to block `k` that returned `0`: who made it, the steps in which it sent its
    request, was served and returned, and that the answer it was served with was an ACK. -/
structure WriteCall (tr : Trace ι) (k : Int32) where
  caller : ι
  pending : Pending
  called : Nat
  served : Nat
  returned : Nat
  calling : Entry (System ι) (Event ι)
  serving : Entry (System ι) (Event ι)
  returning : Entry (System ι) (Event ι)
  call : pending.call = .write k
  callingAt : tr[called]? = some calling
  callingEvent : calling.event = .sent caller pending
  servingAt : tr[served]? = some serving
  servingEvent : serving.event = .critical caller pending.tag pending.req (some (emit .ack))
  returningAt : tr[returned]? = some returning
  returningEvent : returning.event = .received caller pending pending.tag (emit .ack) (some 0)
  called_lt : called < served
  served_lt : served < returned

/-- A write returns `0` on an ACK and `-5` on a NACK. -/
theorem write_code {D : Deployment ι} {s s' : System ι} {k : Int32} {c : ι} {p : Pending}
    {tag : Nat} {reply : Node} {code : Option Int} {e : BlockLocal}
    (hs : Step D s (.received c p tag reply code) s') (hcall : p.call = .write k)
    (he : (s.link c).client.blocks p.call.id = some e) :
    (reply = emit .ack → code = some 0) ∧ (reply = emit .nack → code = some (-5)) := by
  have hack : (s.link c).client.receive p.call (some (emit .ack))
      = .ok (0, (s.link c).client.setBlock p.call.id
          (p.call.onAck e (BlockServer.create 0))) :=
    Client.receive_ack (m := Message.ofNode (emit .ack)) he (by simp)
      (fun hu => by rw [hcall] at hu; exact nomatch hu)
  have hnack := Client.receive_nack he (Message.type_emit .nack)
  constructor
  · rintro rfl
    cases hs with
    | received _ _ _ hrecv =>
        rw [hack] at hrecv
        rw [(Prod.mk.inj (Except.ok.inj hrecv)).1]
    | receivedDied _ _ _ hrecv =>
        rw [hack] at hrecv
        exact nomatch hrecv
  · rintro rfl
    cases hs with
    | received _ _ _ hrecv =>
        rw [hnack] at hrecv
        rw [(Prod.mk.inj (Except.ok.inj hrecv)).1]
    | receivedDied _ _ _ hrecv =>
        rw [hnack] at hrecv
        exact nomatch hrecv

/-- A write that returns without an exchange returns a negative code. -/
theorem write_returned_neg {D : Deployment ι} {s s' : System ι} {k : Int32} {c : ι}
    {code : Int} (hs : Step D s (.returned c (.write k) code) s') : code < 0 := by
  cases hs with
  | returned _ _ hsend => exact Client.write_returned hsend

/-- **How a write that read a reply got it**: it sent its request, the server produced
    that very reply to it, and the code it returned says which of the two it was. -/
theorem write_ends {D : Deployment ι} {tr : Trace ι} {s : System ι} (hrun : SysRun D tr s)
    (hno : NoTimeout tr) {k : Int32} (hk : k ∈ D.blocksId) {i : Nat}
    {t : Entry (System ι) (Event ι)} {c : ι} {p : Pending} {tag : Nat} {reply : Node}
    {code : Option Int} (hi : tr[i]? = some t)
    (hev : t.event = .received c p tag reply code) (hcall : p.call = .write k) :
    ∃ (called served : Nat) (calling serving : Entry (System ι) (Event ι)),
      called < served ∧ served < i ∧ tr[called]? = some calling ∧
      calling.event = .sent c p ∧ tr[served]? = some serving ∧
      serving.event = .critical c p.tag p.req (some reply) ∧
      tag = p.tag ∧
      ((reply = emit .ack ∧ code = some 0) ∨ (reply = emit .nack ∧ code = some (-5))) := by
  have hpre := hrun.take hi
  have hno' : NoTimeout (tr.take i) := fun t ht => hno t (List.mem_of_mem_take ht)
  have hs := hrun.step_of_mem (List.mem_of_getElem? hi)
  rw [hev] at hs
  have htag := number_read hpre hs
  rw [timeouts_eq_zero hno'] at htag
  obtain ⟨hp, hrep⟩ := own_reply hpre hno' hs
  have hid : p.call.id = k := by rw [hcall]; rfl
  obtain ⟨j, tj, e, it, sec, hserv⟩ := service hpre hno' (by rw [hid]; exact hk) hp hrep
  obtain ⟨called, calling, hlt, hcalled, hsent, -⟩ := hserv.issued
  obtain ⟨hji, hj⟩ := getElem?_of_take hserv.place
  obtain ⟨-, hcalled⟩ := getElem?_of_take hcalled
  refine ⟨called, j, calling, tj, hlt, hji, hcalled, hsent, hj, hserv.event, htag.symm, ?_⟩
  have hserved := hserv.served
  rw [show p.call.type = .write by rw [hcall]; rfl] at hserved
  have hreply : reply = emit .ack ∨ reply = emit .nack := by
    rcases hserved.write_reply hserv.block_named with ⟨-, ho, -⟩ | ⟨-, ho, -⟩
    · exact Or.inl (Outcome.send.inj (hserv.outcome.symm.trans ho))
    · exact Or.inr (Outcome.send.inj (hserv.outcome.symm.trans ho))
  obtain ⟨hack, hnack⟩ := write_code hs hcall hserv.entry
  exact hreply.imp (fun hr => ⟨hr, hack hr⟩) (fun hr => ⟨hr, hnack hr⟩)

/-- A write that returned `0` is a `WriteCall`. -/
theorem writeCall_of_returned {D : Deployment ι} {tr : Trace ι} {s : System ι}
    (hrun : SysRun D tr s) (hno : NoTimeout tr) {k : Int32} (hk : k ∈ D.blocksId) {i : Nat}
    {t : Entry (System ι) (Event ι)} {c : ι} {p : Pending} {tag : Nat} {reply : Node}
    (hi : tr[i]? = some t) (hev : t.event = .received c p tag reply (some 0))
    (hcall : p.call = .write k) : ∃ w : WriteCall tr k, w.returned = i := by
  obtain ⟨called, served, calling, serving, hlt, hlt', hcalled, hsent, hserved, hcritical,
    rfl, ⟨rfl, -⟩ | ⟨-, hcode⟩⟩ := write_ends hrun hno hk hi hev hcall
  · exact ⟨⟨c, p, called, served, i, calling, serving, t, hcall, hcalled, hsent, hserved,
      hcritical, hi, hev, hlt, hlt'⟩, rfl⟩
  · exact absurd (Option.some.inj hcode) (by decide)

namespace WriteCall

variable {D : Deployment ι} {tr : Trace ι} {s : System ι} {k : Int32}

/-- The request carries the caller's entry as it was at the call. -/
theorem request (hrun : SysRun D tr s) (hno : NoTimeout tr) (w : WriteCall tr k) :
    ∃ e, (w.calling.pre.link w.caller).client.blocks k = some e ∧ e.id = k ∧
      (w.calling.pre.link w.caller).pending = none ∧
      (w.calling.pre.link w.caller).dead = false ∧
      w.pending.req = emitBlock .write e.toBlock false := by
  have hpre := hrun.take w.callingAt
  have hno' : NoTimeout (tr.take w.called) := fun t ht => hno t (List.mem_of_mem_take ht)
  have hs := hrun.step_of_mem (List.mem_of_getElem? w.callingAt)
  rw [w.callingEvent] at hs
  have halive := sent_alive hs
  obtain ⟨hidle, client, hsend, -, -⟩ := sent_inv hs
  obtain ⟨e, hreq⟩ := Client.send_sent hsend
  rw [w.call] at hreq
  have hentry := hreq.entry
  rw [hreq.same nofun] at hentry
  exact ⟨e, hentry, run_named hpre hno' w.caller k e hentry, hidle, halive, hreq.request⟩

/-- The server accepted the write. -/
theorem accepted (hrun : SysRun D tr s) (hno : NoTimeout tr) (w : WriteCall tr k) :
    acceptsWrite k w.serving = true := by
  obtain ⟨e, -, hid, -, -, hreq⟩ := w.request hrun hno
  rw [acceptsWrite, w.servingEvent, hreq]
  simp only [Message.deref_emitBlock, Message.type_emitBlock, Message.type_emit]
  simp [hid]

/-- The write took the server's block from revision `n` to the next and left there what
    the caller's buffer held at the call; the caller had last synchronised with revision
    `n`. -/
def Moves (w : WriteCall tr k) (n : Nat) : Prop :=
  ∃ it it' e, w.serving.pre.host.server.blocks k = some it ∧
    w.serving.post.host.server.blocks k = some it' ∧
    it.revision.toInt = n ∧ it'.revision.toInt = n + 1 ∧
    (w.calling.pre.link w.caller).client.blocks k = some e ∧ it'.data = e.data ∧
    LastSync (tr.take w.called) w.caller k it.revision

/-- **A write that returned `0` moves the block by one revision**, from the number of
    writes accepted before it. -/
theorem moves (hids : Function.Injective D.clientId) (hrun : SysRun D tr s)
    (hno : NoTimeout tr) (hk : k ∈ D.blocksId) (hwrites : acceptedWrites k tr < 0x7fffffff)
    (w : WriteCall tr k) : w.Moves (acceptedWrites k (tr.take w.served)) := by
  obtain ⟨e, he, hid, hidle, halive, hreq⟩ := w.request hrun hno
  have hcall := hrun.take w.callingAt
  have hserve := hrun.take w.servingAt
  have hnocall : NoTimeout (tr.take w.called) := fun t ht => hno t (List.mem_of_mem_take ht)
  have hbefore : acceptedWrites k (tr.take w.served) ≤ acceptedWrites k tr :=
    List.Sublist.countP_le (List.take_sublist _ _)
  have hbound : (history k (tr.take w.called)).version < 0x80000000 := by
    refine Nat.lt_of_le_of_lt (history_take k tr w.called).version_le ?_
    rw [version_eq hrun hk]
    omega
  -- the service
  have hs := hrun.step_of_mem (List.mem_of_getElem? w.servingAt)
  rw [w.servingEvent, hreq] at hs
  obtain ⟨sec, hserved, hserver, hans⟩ := critical_emitted (sys_settled hserve) rfl hs
  obtain ⟨it, hit, hrec⟩ := run_recorded hserve hk
  have hit' : w.serving.pre.host.server.blocks (Message.decoded e.toBlock false).id
      = some it := by
    rw [Message.decoded_id, BlockLocal.toBlock_id, hid]
    exact hit
  rcases hserved.write_reply hit' with ⟨hr, -, hblock⟩ | ⟨-, ho, -⟩
  · rw [Message.decoded_id, BlockLocal.toBlock_id, hid, ← hserver] at hblock
    have hrev : it.revision = Int32.ofNat (acceptedWrites k (tr.take w.served)) := by
      rw [hrec.revision, version_eq hserve hk]
    have hsync : LastSync (tr.take w.called) w.caller k e.revision := by
      refine run_knows hids hcall hnocall hk hbound w.caller e he halive ?_
      intro p hp
      rw [hidle] at hp
      cases hp
    refine ⟨it, _, e, hit, hblock, ?_, ?_, he, rfl, ?_⟩
    · rw [hrev]
      exact WrapCounter.toInt_ofNat (by omega)
    · show (e.revision + 1).toInt = _
      rw [show e.revision = it.revision from hr.symm, hrev, ← WrapCounter.ofNat_succ]
      exact WrapCounter.toInt_ofNat (by omega)
    · rw [show it.revision = e.revision from hr]
      exact hsync
  · rw [answer, ho] at hans
    have htype := Message.type_emit .ack
    rw [Option.some.inj hans, Message.type_emit] at htype
    cases htype

/-- The writes that returned are told apart by their services. -/
theorem served_inj (hrun : SysRun D tr s) {w w' : WriteCall tr k} :
    w.served = w'.served ↔ w.returned = w'.returned := by
  constructor
  -- a request is answered once, and a reply read once
  · intro heq
    have hsame : w.serving = w'.serving := by
      have hat := w.servingAt
      rw [heq, w'.servingAt] at hat
      exact (Option.some.inj hat).symm
    have hev := w.servingEvent
    rw [hsame, w'.servingEvent] at hev
    obtain ⟨hc, htag, -, -⟩ := Event.critical.inj hev
    have hret := w'.returningEvent
    rw [hc, htag] at hret
    exact received_once hrun w.returningAt w'.returningAt w.returningEvent hret
  · intro heq
    have hsame : w.returning = w'.returning := by
      have hat := w.returningAt
      rw [heq, w'.returningAt] at hat
      exact (Option.some.inj hat).symm
    have hev := w.returningEvent
    rw [hsame, w'.returningEvent] at hev
    obtain ⟨hc, hp, -, -, -⟩ := Event.received.inj hev
    have hserve := w'.servingEvent
    rw [hc, hp] at hserve
    exact answered_once hrun w.servingAt w'.servingAt w.servingEvent hserve

end WriteCall

/-- **Every accepted write is one that returned `0`**, once no call is in progress. -/
theorem writeCall_of_accepts {D : Deployment ι} {tr : Trace ι} {s : System ι}
    (hrun : SysRun D tr s) (hno : NoTimeout tr) (hidle : ∀ c, (s.link c).pending = none)
    {k : Int32} (hk : k ∈ D.blocksId) {j : Nat} {t : Entry (System ι) (Event ι)}
    (hj : tr[j]? = some t) (hacc : acceptsWrite k t = true) :
    ∃ w : WriteCall tr k, w.served = j := by
  have hpre := hrun.take hj
  have hno' : NoTimeout (tr.take j) := fun t ht => hno t (List.mem_of_mem_take ht)
  obtain ⟨c, tag, req, ack, b, m, hev, hm, htype, hacktype, hname⟩ := acceptsWrite_cases hacc
  have hs := hrun.step_of_mem (List.mem_of_getElem? hj)
  rw [hev] at hs
  obtain ⟨p, hp, rfl, rfl, -⟩ := critical_pending hpre hno' hs
  -- the request was made from the client's entry for the block it names
  obtain ⟨e, he, hemit, -⟩ := pending_requests hpre hp
  rw [hemit, Message.type_emitBlock] at htype
  rw [hemit, Message.deref_emitBlock] at hm
  obtain ⟨rfl, -⟩ := Prod.mk.inj (Except.ok.inj hm)
  rw [Message.decoded_id, BlockLocal.toBlock_id, run_named hpre hno' c _ e he] at hname
  obtain ⟨id, hcall⟩ := Call.eq_write htype
  obtain rfl : id = k := by rw [← hname, hcall]; rfl
  have hbusy : (t.post.link c).pending = some p := by
    obtain ⟨-, -, -, hlink, -⟩ := critical_queue hs
    rw [hlink]
    exact hp
  rcases returns hrun hj hbusy with hstill | ⟨i, t', hij, hi, ⟨tag, reply, code, hev'⟩ | hgave⟩
  · rw [hidle c] at hstill
    exact nomatch hstill
  · obtain ⟨called, served, calling, serving, hlt, hlt', hcalled, hsent, hserved, hcritical,
      rfl, hcode⟩ := write_ends hrun hno hk hi hev' hcall
    -- the reply it read is the one made in step `j`
    obtain rfl : served = j := answered_once hrun hserved hj hcritical hev
    obtain rfl : serving = t := Option.some.inj (hserved.symm.trans hj)
    obtain ⟨-, -, -, hreply⟩ := Event.critical.inj (hcritical.symm.trans hev)
    rcases hcode with ⟨rfl, rfl⟩ | ⟨rfl, -⟩
    · exact ⟨⟨c, p, called, served, i, calling, serving, t', hcall, hcalled, hsent, hserved,
        hcritical, hi, hev', hlt, hlt'⟩, rfl⟩
    · rw [← Option.some.inj hreply, Message.type_emit] at hacktype
      exact nomatch hacktype
  · exact absurd hgave (hno t' (List.mem_of_getElem? hi) c p)

/-! ## No lost update -/

/-- A call of client `c` comes to its end with a code. -/
def Returns (e : Event ι) (c : ι) (call : Call) (code : Int) : Prop :=
  e = .returned c call code ∨
    ∃ p tag reply, p.call = call ∧ e = .received c p tag reply (some code)

/-- The steps of the call that comes to its end in the step that shows `last`. -/
def SameCall (last e : Event ι) : Prop :=
  match last with
  | .received c p _ _ _ => e = last ∨ e = .sent c p ∨ ∃ req ans, e = .critical c p.tag req ans
  | _ => e = last

omit [DecidableEq ι] in
/-- A critical section of a call that read a reply was on the call's own request. -/
theorem sameCall_critical {last : Event ι} {c u : ι} {tag : Nat} {req : Node}
    {ans : Option Node} {call : Call} {code : Int} (hret : Returns last c call code)
    (h : SameCall last (.critical u tag req ans)) :
    ∃ p tag' reply, p.call = call ∧ last = .received c p tag' reply (some code) ∧ u = c ∧
      tag = p.tag := by
  rcases hret with rfl | ⟨p, tag', reply, hcall, rfl⟩
  · exact nomatch h
  · rcases h with h | h | ⟨req', ans', h⟩
    · exact nomatch h
    · exact nomatch h
    · obtain ⟨rfl, rfl, -, -⟩ := Event.critical.inj h
      exact ⟨p, tag', reply, hcall, rfl, rfl, rfl⟩

/-- **A write that returns a negative code leaves the block alone** in all its steps. -/
theorem refused_leaves {D : Deployment ι} {tr : Trace ι} {s : System ι} (hrun : SysRun D tr s)
    (hno : NoTimeout tr) {k : Int32} (hk : k ∈ D.blocksId) {i j : Nat}
    {t t' : Entry (System ι) (Event ι)} {c : ι} {code : Int} (hi : tr[i]? = some t)
    (hret : Returns t.event c (.write k) code) (hneg : code < 0) (hj : tr[j]? = some t')
    (hsame : SameCall t.event t'.event) {it : BlockServer}
    (hit : t'.pre.host.server.blocks k = some it) :
    ∃ it', t'.post.host.server.blocks k = some it' ∧ SameContent it it' := by
  obtain ⟨it', hit', ⟨hkeep, -⟩ | ⟨b, hcommit, -⟩⟩ :=
    step_block (sys_settled (hrun.take hj)) (hrun.step_of_mem (List.mem_of_getElem? hj)) hit
  · exact ⟨it', hit', hkeep⟩
  · -- the accepted write would be this one, which was served once and with a NACK
    obtain ⟨u, tag, req, m, hcritical, -⟩ := hcommit.event
    rw [hcritical] at hsame
    obtain ⟨p, tag', reply, hcall, hev, rfl, rfl⟩ := sameCall_critical hret hsame
    obtain ⟨-, served, -, serving, -, -, -, -, hserved, hserving, -, hcode⟩ :=
      write_ends hrun hno hk hi hev hcall
    obtain rfl : served = j := answered_once hrun hserved hj hserving hcritical
    obtain rfl := Option.some.inj (hserved.symm.trans hj)
    obtain ⟨-, -, -, hreply⟩ := Event.critical.inj (hserving.symm.trans hcritical)
    rcases hcode with ⟨-, hzero⟩ | ⟨rfl, -⟩
    · rw [Option.some.inj hzero] at hneg
      exact absurd hneg (by decide)
    · have htype := Message.type_emit .ack
      rw [← Option.some.inj hreply, Message.type_emit] at htype
      exact nomatch htype

/-- The writes to block `k` that returned `0`, in a row: each of them once, none before
    one that had returned when it was called, and the `n`-th (from `0`) the one that moved
    the block from revision `n`. -/
structure Numbered (tr : Trace ι) (k : Int32) (ws : List (WriteCall tr k)) : Prop where
  once : (ws.map WriteCall.returned).Nodup
  all : ∀ (i : Nat) (t : Entry (System ι) (Event ι)) (c : ι), tr[i]? = some t →
    Returns t.event c (.write k) 0 → i ∈ ws.map WriteCall.returned
  realTime : ws.Pairwise fun w w' => ¬ w'.returned < w.called
  moves : ∀ (n : Nat) (w : WriteCall tr k), ws[n]? = some w → w.Moves n

/-- The writes in the order of their services. -/
theorem exists_numbered {D : Deployment ι} {tr : Trace ι} {s : System ι}
    (hids : Function.Injective D.clientId) (hrun : SysRun D tr s) (hno : NoTimeout tr)
    (hidle : ∀ c, (s.link c).pending = none) {k : Int32} (hk : k ∈ D.blocksId)
    (hwrites : acceptedWrites k tr < 0x7fffffff) :
    ∃ ws : List (WriteCall tr k), Numbered tr k ws := by
  obtain ⟨ws, hws⟩ : tr.findIdxs (acceptsWrite k) ∈
      Set.range (List.map (fun w : WriteCall tr k => w.served)) := by
    rw [Set.range_list_map]
    intro j hj
    obtain ⟨hlt, hacc⟩ := List.mem_findIdxs_iff_exists_getElem_pos.mp hj
    exact writeCall_of_accepts hrun hno hidle hk (List.getElem?_eq_getElem hlt) hacc
  -- the services are in the order of the run
  have hsorted : ws.Pairwise fun w w' => w.served < w'.served := by
    rw [← List.pairwise_map (f := WriteCall.served), hws]
    exact List.pairwise_findIdxs
  refine ⟨ws, ?_, ?_, ?_, ?_⟩
  · rw [List.Nodup, List.pairwise_map]
    refine hsorted.imp ?_
    intro w w' hlt heq
    exact absurd ((WriteCall.served_inj hrun).mpr heq) (Nat.ne_of_lt hlt)
  · intro i t c hi hret
    rcases hret with hev | ⟨p, tag, reply, hcall, hev⟩
    · have hs := hrun.step_of_mem (List.mem_of_getElem? hi)
      rw [hev] at hs
      exact absurd (write_returned_neg hs) (by decide)
    · obtain ⟨w, rfl⟩ := writeCall_of_returned hrun hno hk hi hev hcall
      have hin : w.served ∈ ws.map WriteCall.served := by
        rw [hws]
        exact (mem_findIdxs w.servingAt).mpr (w.accepted hrun hno)
      obtain ⟨w', hw', heq⟩ := List.mem_map.mp hin
      exact List.mem_map.mpr ⟨w', hw', (WriteCall.served_inj hrun).mp heq⟩
  · refine hsorted.imp ?_
    intro w w' hlt
    have := w.called_lt
    have := w'.served_lt
    omega
  · intro n w hn
    -- the place in the row counts the writes accepted before
    have hplace : (tr.findIdxs (acceptsWrite k))[n]? = some w.served := by
      rw [← hws, List.getElem?_map, hn]
      rfl
    have hcount : acceptedWrites k (tr.take w.served) = n := countP_take_of_findIdxs hplace
    rw [← hcount]
    exact w.moves hids hrun hno hk hwrites

/-- **No lost update.** Once all calls are over, the writes that returned `0` are in a row
    consistent with real time, each moving the server by one revision from the one its
    caller had last synchronised with, and a write that returned a negative code changed
    nothing. -/
theorem no_lost_update {D : Deployment ι} {tr : Trace ι} {s : System ι}
    (hids : Function.Injective D.clientId) (hrun : SysRun D tr s) (hno : NoTimeout tr)
    (hidle : ∀ c, (s.link c).pending = none) {k : Int32} (hk : k ∈ D.blocksId)
    (hwrites : acceptedWrites k tr < 0x7fffffff) :
    (∃ ws : List (WriteCall tr k), Numbered tr k ws) ∧
      ∀ (i j : Nat) (t t' : Entry (System ι) (Event ι)) (c : ι) (code : Int)
        (it : BlockServer), tr[i]? = some t → Returns t.event c (.write k) code → code < 0 →
        tr[j]? = some t' → SameCall t.event t'.event →
        t'.pre.host.server.blocks k = some it →
        ∃ it', t'.post.host.server.blocks k = some it' ∧ SameContent it it' :=
  ⟨exists_numbered hids hrun hno hidle hk hwrites,
    fun _ _ _ _ _ _ _ hi hret hneg hj hsame hit =>
      refused_leaves hrun hno hk hi hret hneg hj hsame hit⟩

/-- Both clients map block 7 and write; the second to be served loses. -/
def twoWriters : List (Action Bool) :=
  [.call false (.map 7 (Data.memset 1)), .serve false, .receive false,
   .call true (.map 7 (Data.memset 2)), .serve true, .receive true,
   .poke false 7 (Data.memset 65), .poke true 7 (Data.memset 66),
   .call false (.write 7), .call true (.write 7), .serve true, .serve false,
   .receive false, .receive true]

theorem no_lost_update_twoWriters :
    ∃ tr s, SysRun twoClients tr s ∧ acceptedWrites 7 tr = 1 ∧
      (∃ ws : List (WriteCall tr 7), Numbered tr 7 ws) ∧
      ∀ (i j : Nat) (t t' : Entry (System Bool) (Event Bool)) (c : Bool) (code : Int)
        (it : BlockServer), tr[i]? = some t → Returns t.event c (.write 7) code → code < 0 →
        tr[j]? = some t' → SameCall t.event t'.event →
        t'.pre.host.server.blocks 7 = some it →
        ∃ it', t'.post.host.server.blocks 7 = some it' ∧ SameContent it it' := by
  obtain ⟨q, hq, hfacts⟩ := Option.map_eq_some_iff.mp (show
    (exec (next twoClients) twoClients.start twoWriters).map
      (fun q => (decide (NoTimeout q.1), acceptedWrites 7 q.1,
        decide (∀ c, (q.2.link c).pending = none))) = some (true, 1, true) by decide +kernel)
  obtain ⟨hno, hfacts⟩ := Prod.mk.inj hfacts
  obtain ⟨hwrites, hidle⟩ := Prod.mk.inj hfacts
  have hrun := run_of_exec _ (DmSystem.next_sound _) twoWriters _ hq
  have hids : Function.Injective twoClients.clientId :=
    show ∀ ⦃c u⦄, twoClients.clientId c = twoClients.clientId u → c = u by decide
  exact ⟨q.1, q.2, hrun, hwrites, no_lost_update hids hrun (of_decide_eq_true hno)
    (of_decide_eq_true hidle) (by decide) (by rw [hwrites]; decide)⟩

end DmLinear
