import DistributedMemory.DmUpdateProofs

/-!
# Wrap-around — when the shallow reply to an update is safe

The server leaves the content out of its reply unless the request's revision is *below*
its own. The client takes over whatever the reply carries when the revisions *differ*. The
revisions are 32-bit words, and the order of the words is the order of the counts up to
`2 ^ 31` only.

* **`updatesSafe_iff`** — exactly the updates served by a revision that is not below the
  request's leave the client as the entire block would.
* **`neverAhead_of_fewWrites`** — so it is as long as no revision wraps.
* **`updatesSafe_wrapped`** — after `2 ^ 31` writes an update fills the client's memory
  with zeros that the server never held.
-/

namespace DmWrap

open DmBlock DmMessage DmClient DmServer DmHost DmSystem DmPairing DmHistory DmService
  DmCoherence DmUpdate LabelledRun VersionedCell

variable {ι : Type} [DecidableEq ι]

/-- An update of block `id` by client `c` that returns in step `i` of the run: its entry
    was `e`, and the reply was produced in step `j` from the block `it`. -/
structure FinishedUpdate (tr : Trace ι) (c : ι) (id : Int32) (i j : Nat)
    (t tj : Entry (System ι) (Event ι)) (p : Pending) (tag : Nat) (reply : Node) (code : Int)
    (e : BlockLocal) (it : BlockServer) : Prop where
  returnedAt : tr[i]? = some t
  returned : t.event = .received c p tag reply (some code)
  update : p.call = .update id
  before : j < i
  servedAt : tr[j]? = some tj
  served : tj.event = .critical c p.tag p.req (some reply)
  entry : (t.pre.link c).client.blocks id = some e
  block : tj.pre.host.server.blocks id = some it

/-- The step leaves the client as a reply with the entire block `it` would have, and a
    reply without data replaces nothing. -/
def AsEntire (c : ι) (t : Entry (System ι) (Event ι)) (p : Pending) (reply : Node)
    (code : Int) (it : BlockServer) : Prop :=
  (t.pre.link c).client.receive p.call (some (emitBlock .ack it.toBlock false))
      = .ok (code, (t.post.link c).client) ∧
    (carried reply = none → (t.post.link c).client = (t.pre.link c).client)

/-- Every update of the run is as good as with the entire block. -/
def UpdatesSafe (tr : Trace ι) : Prop :=
  ∀ (c : ι) (id : Int32) (i j : Nat) (t tj : Entry (System ι) (Event ι)) (p : Pending)
    (tag : Nat) (reply : Node) (code : Int) (e : BlockLocal) (it : BlockServer),
    FinishedUpdate tr c id i j t tj p tag reply code e it → AsEntire c t p reply code it

/-- No update of the run is served while the server's revision, as a signed word, is below
    the client's. -/
def NeverAhead (tr : Trace ι) : Prop :=
  ∀ (c : ι) (id : Int32) (i j : Nat) (t tj : Entry (System ι) (Event ι)) (p : Pending)
    (tag : Nat) (reply : Node) (code : Int) (e : BlockLocal) (it : BlockServer),
    FinishedUpdate tr c id i j t tj p tag reply code e it → ¬ it.revision < e.revision

/-- Every update of a hosted block that returns is a finished update. -/
theorem finishedUpdate {D : Deployment ι} {tr : Trace ι} {s : System ι}
    (hrun : SysRun D tr s) (hno : NoTimeout tr) {c : ι} {id : Int32} (hk : id ∈ D.blocksId)
    {i : Nat} {t : Entry (System ι) (Event ι)} {p : Pending} {tag : Nat} {reply : Node}
    {code : Int} (hi : tr[i]? = some t) (hev : t.event = .received c p tag reply (some code))
    (hcall : p.call = .update id) :
    ∃ j tj e it, FinishedUpdate tr c id i j t tj p tag reply code e it := by
  have hpre := hrun.take hi
  have hs := hrun.step_of_mem (List.mem_of_getElem? hi)
  rw [hev] at hs
  obtain ⟨hp, hrep⟩ := own_reply hpre (noTimeout_take hno i) hs
  obtain ⟨k, j, sending, tj, hji, hex⟩ := exchange_at hrun hi hp hrep
  obtain ⟨e, he, -⟩ := pending_requests hpre hp
  obtain ⟨it, hit, -⟩ := run_recorded (hrun.take hex.servedAt) hk
  rw [hcall] at he
  exact ⟨j, tj, e, it, hi, hev, hcall, hji, hex.servedAt, hex.served, he, hit⟩

/-- The reply to an update, from the two revisions. -/
theorem FinishedUpdate.reply_eq {D : Deployment ι} {tr : Trace ι} {s : System ι}
    (hrun : SysRun D tr s) (hno : NoTimeout tr) {c : ι} {id : Int32} {i j : Nat}
    {t tj : Entry (System ι) (Event ι)} {p : Pending} {tag : Nat} {reply : Node} {code : Int}
    {e : BlockLocal} {it : BlockServer}
    (h : FinishedUpdate tr c id i j t tj p tag reply code e it) :
    reply = emitBlock .ack it.toBlock (decide ¬ e.revision < it.revision) := by
  have hpre := hrun.take h.returnedAt
  have hs := hrun.step_of_mem (List.mem_of_getElem? h.returnedAt)
  rw [h.returned] at hs
  obtain ⟨e', he', hreq, -⟩ := pending_requests hpre (received_head hs).1
  rw [h.update] at he' hreq
  obtain rfl : e = e' := Option.some.inj (h.entry.symm.trans he')
  have hid : e.id = id := run_named hpre (noTimeout_take hno i) c id e h.entry
  have hsj := hrun.step_of_mem (List.mem_of_getElem? h.servedAt)
  rw [h.served, hreq] at hsj
  obtain ⟨sec, hserved, -, hans⟩ :=
    critical_emitted (sys_settled (hrun.take h.servedAt)) rfl hsj
  have hnamed : tj.pre.host.server.blocks (Message.decoded e.toBlock true).id = some it := by
    rw [Message.decoded_id, BlockLocal.toBlock_id, hid]
    exact h.block
  exact Outcome.send.inj
    ((outcome_of_answer hans).symm.trans (hserved.update_reply hnamed))

/-- What an update makes of a reply with the block `it`. -/
theorem receive_update {c : Client} {id : Int32} {e : BlockLocal} (it : BlockServer)
    (shallow : Bool) (he : c.blocks id = some e) :
    c.receive (.update id) (some (emitBlock .ack it.toBlock shallow))
      = .ok (0, c.setBlock id (some (
          if e.revision ≠ it.revision then
            (e.assign (Message.decoded it.toBlock shallow)).setValid true
          else e))) := by
  rw [Client.receive_ack (show c.blocks (Call.update id).id = some e from he) (by simp)
    (fun _ => Message.deref_emitBlock .ack it.toBlock shallow)]
  rfl

/-- **One update**: it leaves the client as the entire block would exactly when the
    server's revision is not below the entry's. -/
theorem asEntire_iff {D : Deployment ι} {tr : Trace ι} {s : System ι}
    (hrun : SysRun D tr s) (hno : NoTimeout tr) {c : ι} {id : Int32} {i j : Nat}
    {t tj : Entry (System ι) (Event ι)} {p : Pending} {tag : Nat} {reply : Node} {code : Int}
    {e : BlockLocal} {it : BlockServer}
    (h : FinishedUpdate tr c id i j t tj p tag reply code e it) :
    AsEntire c t p reply code it ↔ ¬ it.revision < e.revision := by
  have hreply := h.reply_eq hrun hno
  have hs := hrun.step_of_mem (List.mem_of_getElem? h.returnedAt)
  rw [h.returned] at hs
  obtain ⟨-, rest, client, -, hrecv, hpost⟩ := received_inv hs
  have hclient : (t.post.link c).client = client := by
    rw [hpost, System.setLink_self]
    rfl
  rw [hreply, h.update, receive_update it _ h.entry] at hrecv
  obtain ⟨rfl, rfl⟩ := Prod.mk.inj (Except.ok.inj hrecv)
  rw [AsEntire, h.update, receive_update it false h.entry, hclient, hreply,
    carried_emitBlock]
  by_cases hlt : e.revision < it.revision
  · -- the reply carries everything
    have hge : ¬ it.revision < e.revision := Int32.lt_asymm hlt
    rw [decide_eq_false (not_not_intro hlt)]
    exact ⟨fun _ => hge, fun _ => ⟨rfl, fun hnone => nomatch hnone⟩⟩
  · rw [decide_eq_true hlt]
    by_cases heq : e.revision = it.revision
    · -- nothing is taken over
      simp only [heq, ne_eq, not_true_eq_false, if_false]
      refine ⟨fun _ => Int32.lt_irrefl, fun _ => ⟨trivial, fun _ => ?_⟩⟩
      exact Client.setBlock_eq_self h.entry
    · -- the zeros of a reply without data are taken over
      have hgt : it.revision < e.revision := by
        rw [Int32.lt_iff_toInt_lt] at hlt ⊢
        have hne : e.revision.toInt ≠ it.revision.toInt := fun hi => heq (Int32.toInt_inj.mp hi)
        omega
      refine ⟨fun hsafe => ?_, fun hge => absurd hgt hge⟩
      have hsame := hsafe.2 rfl
      have hentry := congrArg (fun cl => cl.blocks id) hsame
      simp only [Client.setBlock_same, ne_eq, heq, not_false_eq_true, if_true, h.entry,
        Option.some.injEq] at hentry
      exact absurd (congrArg BlockLocal.revision hentry).symm heq

/-- The revision can be read off a message. -/
theorem revision_of_emitBlock {t : MessageType} {b b' : BlockServer} {sh sh' : Bool}
    (h : emitBlock t b.toBlock sh = emitBlock t b'.toBlock sh') : b.revision = b'.revision := by
  have hd := Message.deref_emitBlock t b.toBlock sh
  rw [h, Message.deref_emitBlock] at hd
  exact (congrArg BlockServer.revision (Prod.mk.inj (Except.ok.inj hd)).1).symm

/-- Up to `2 ^ 31 - 1` writes to a block no client is ahead of the server. -/
theorem neverAhead_of_fewWrites {D : Deployment ι} {tr : Trace ι} {s : System ι}
    (hrun : SysRun D tr s) (hno : NoTimeout tr) (hfew : FewWrites D tr) : NeverAhead tr := by
  intro c id i j t tj p tag reply code e it h hlt
  have hk := hosted_of_blocks (hrun.take h.servedAt) h.block
  have hpre := hrun.take h.returnedAt
  have hs := hrun.step_of_mem (List.mem_of_getElem? h.returnedAt)
  rw [h.returned] at hs
  have hid : p.call.id = id := by rw [h.update]; rfl
  obtain ⟨j', tj', e', it', sec, u, hrec⟩ := receipt hpre (noTimeout_take hno i)
    (by rw [hid]; exact hk) ((hfew.take i).version hpre (by rw [hid]; exact hk)) hs
  obtain ⟨x, hold⟩ := hrec.old
  obtain rfl : e = e' := by
    have hentry := hrec.service.entry
    rw [hid] at hentry
    exact Option.some.inj (h.entry.symm.trans hentry)
  -- the reply fixes the revision it was made from
  have hrev : it.revision = it'.revision := by
    have hreply := (h.reply_eq hrun hno).symm.trans
      (hrec.service.update_sent (by rw [h.update]; rfl))
    exact revision_of_emitBlock hreply
  rw [hrev, hrec.service.recorded.revision, hold.revision, WrapCounter.ofNat_lt_iff
    hrec.bound_old (Nat.lt_of_le_of_lt hold.le hrec.bound_old)] at hlt
  exact absurd hlt (Nat.not_lt.mpr hold.le)

/-- **When the shallow reply is a safe optimisation**: exactly when no update is served by
    a revision below the client's. -/
theorem updatesSafe_iff {D : Deployment ι} {tr : Trace ι} {s : System ι}
    (hrun : SysRun D tr s) (hno : NoTimeout tr) : UpdatesSafe tr ↔ NeverAhead tr := by
  constructor
  · intro hsafe c id i j t tj p tag reply code e it h
    exact (asEntire_iff hrun hno h).mp (hsafe c id i j t tj p tag reply code e it h)
  · intro hahead c id i j t tj p tag reply code e it h
    exact (asEntire_iff hrun hno h).mpr (hahead c id i j t tj p tag reply code e it h)

/-- In a short run the update fetches the whole block and is safe. -/
theorem updatesSafe_writeThenUpdate :
    ∃ tr s, SysRun twoClients tr s ∧ tr.length = 13 ∧ UpdatesSafe tr := by
  obtain ⟨q, hq, hfacts⟩ := Option.map_eq_some_iff.mp (show
    (exec (next twoClients) twoClients.start writeThenUpdate).map
      (fun q => (decide (NoTimeout q.1 ∧ FewWrites twoClients q.1), q.1.length))
        = some (true, 13) by decide +kernel)
  obtain ⟨hdec, hlen⟩ := Prod.mk.inj hfacts
  obtain ⟨hno, hfew⟩ := of_decide_eq_true hdec
  have hrun := run_of_exec _ (DmSystem.next_sound _) writeThenUpdate _ hq
  exact ⟨q.1, q.2, hrun, hlen,
    (updatesSafe_iff hrun hno).mpr (neverAhead_of_fewWrites hrun hno hfew)⟩

/-! ## A run past `2 ^ 31` writes -/

/-- Client `true` has written block 7 `n` times, client `false` still has the copy it
    mapped at first. Nothing is in flight. -/
structure Wrote (n : Nat) (s : System Bool) : Prop where
  quiet : ∀ c, Quiet s c
  route : ∀ c, (s.link c).client.config.findServerIdByBlockId 7 = twoClients.serverId
  socket : ∀ c, (s.link c).client.sockets twoClients.serverId = some ⟨true⟩
  block : ∃ it, s.host.server.blocks 7 = some it ∧ it.id = 7 ∧
    it.revision = Int32.ofNat n ∧ (0 < n → it.data = Data.memset 65)
  writer : (s.link true).client.blocks 7
    = some ⟨7, Int32.ofNat n, Data.memset 65, true⟩
  reader : (s.link false).client.blocks 7 = some ⟨7, 0, Data.memset 66, true⟩

/-- A client that has the block's server and a socket to it gets past the checks. -/
theorem openMapped_ready {c : Client} {e : BlockLocal}
    (hroute : c.config.findServerIdByBlockId 7 = twoClients.serverId)
    (hsocket : c.sockets twoClients.serverId = some ⟨true⟩) (he : c.blocks 7 = some e)
    (k : String → BlockLocal → Sending) :
    c.openMapped 7 k = .ok (k twoClients.serverId e) := by
  rw [Client.openMapped]
  simp only [hroute, he, hsocket]
  rfl

/-- One more write by client `true`. -/
theorem wrote_succ {n : Nat} {s : System Bool} (h : Wrote n s) :
    ∃ tr s', Run (Step twoClients) s tr s' ∧ NoTimeout tr ∧ Wrote (n + 1) s' := by
  obtain ⟨it, hit, -, hrev, -⟩ := h.block
  have hsend : (s.link true).client.send (.write 7) = .ok (.sent twoClients.serverId
      (emitBlock .write ⟨7, Int32.ofNat n, some (Data.memset 65)⟩ false)
      (s.link true).client) := by
    rw [Client.send, Client.dmBlockWriteSend,
      openMapped_ready (h.route true) (h.socket true) h.writer]
    rfl
  obtain ⟨sec, hpass, hserved⟩ := Server.clientHandler_served s.host.server
    (twoClients.clientId true) (by rw [Message.type_emitBlock]; rfl)
    (Message.deref_emitBlock .write ⟨7, Int32.ofNat n, some (Data.memset 65)⟩ false)
  rw [Message.type_emitBlock] at hserved
  rcases hserved.write_reply hit with ⟨-, ho, hnext⟩ | ⟨hne, -, -⟩
  · have hack : (Message.ofNode (emit .ack)).type ≠ .nack := by simp
    have hrecv := Client.receive_ack (b := BlockServer.create 0)
      (m := Message.ofNode (emit .ack))
      (show (s.link true).client.blocks (Call.write 7).id = _ from h.writer)
      hack (fun hu => by cases hu)
    obtain ⟨s₁, s₂, s', hrun, -, -, hhost, hclient, hquiet, hothers⟩ :=
      round (h.quiet true) hsend hpass ho hrecv
    have hfalse := hothers false (by decide)
    refine ⟨_, s', hrun, ?_, ?_, ?_, ?_, ?_, ?_, ?_⟩
    · exact noTimeout_round _ _ _ _ _ _ _ _
    · intro c
      cases c with
      | true => exact hquiet
      | false => exact (h.quiet false).of_leave (by decide) hhost hfalse
    · intro c
      cases c with
      | true =>
          rw [hclient]
          exact h.route true
      | false =>
          rw [hfalse]
          exact h.route false
    · intro c
      cases c with
      | true =>
          rw [hclient]
          exact h.socket true
      | false =>
          rw [hfalse]
          exact h.socket false
    · refine ⟨_, by rw [hhost]; exact hnext, rfl, ?_, fun _ => rfl⟩
      rw [WrapCounter.ofNat_succ]
      rfl
    · rw [hclient, show Call.id (.write 7) = 7 from rfl, Client.setBlock_same,
        WrapCounter.ofNat_succ]
      rfl
    · rw [hfalse]
      exact h.reader
  · exact absurd hrev hne

/-- Both clients map the block and fill their memory. -/
def mapAndFill : List (Action Bool) :=
  [.call false (.map 7 (Data.memset 0)), .serve false, .receive false,
   .call true (.map 7 (Data.memset 0)), .serve true, .receive true,
   .poke true 7 (Data.memset 65), .poke false 7 (Data.memset 66)]

/-- There are runs with any number of writes. -/
theorem wrote_reachable (n : Nat) :
    ∃ tr s, SysRun twoClients tr s ∧ NoTimeout tr ∧ Wrote n s := by
  induction n with
  | zero =>
      obtain ⟨q, hq, hfacts⟩ := Option.map_eq_some_iff.mp (show
        (exec (next twoClients) twoClients.start mapAndFill).map (fun q =>
          (decide (NoTimeout q.1 ∧
            (∀ c, (q.2.link c).pending = none ∧ (q.2.link c).dead = false ∧
              (q.2.link c).requests = [] ∧ (q.2.link c).replies = [] ∧
              q.2.host.thread c = .reading) ∧
            (∀ c, (q.2.link c).client.config.findServerIdByBlockId 7 = twoClients.serverId) ∧
            (∀ c, (q.2.link c).client.sockets twoClients.serverId = some ⟨true⟩) ∧
            (q.2.host.server.blocks 7).map (fun b => (b.id, b.revision)) = some (7, 0) ∧
            (q.2.link true).client.blocks 7 = some ⟨7, 0, Data.memset 65, true⟩ ∧
            (q.2.link false).client.blocks 7 = some ⟨7, 0, Data.memset 66, true⟩)))
          = some true by decide +kernel)
      obtain ⟨hno, hquiet, hroute, hsocket, hblock, hwriter, hreader⟩ :=
        of_decide_eq_true hfacts
      obtain ⟨it, hit, hblock⟩ := Option.map_eq_some_iff.mp hblock
      obtain ⟨hid, hrev⟩ := Prod.mk.inj hblock
      refine ⟨q.1, q.2, run_of_exec _ (DmSystem.next_sound _) mapAndFill _ hq, hno, ?_,
        hroute, hsocket, ⟨it, hit, hid, hrev, fun hpos => absurd hpos (Nat.lt_irrefl 0)⟩,
        hwriter, hreader⟩
      intro c
      obtain ⟨hpending, hdead, hreq, hrep, hthread⟩ := hquiet c
      exact ⟨hpending, hdead, hreq, hrep, hthread⟩
  | succ n ih =>
      obtain ⟨tr, s, hrun, hno, hwrote⟩ := ih
      obtain ⟨tr', s', hrun', hno', hwrote'⟩ := wrote_succ hwrote
      exact ⟨tr ++ tr', s', hrun.append hrun', noTimeout_append hno hno', hwrote'⟩

omit [DecidableEq ι] in
/-- An update in one round at the end of a run is a finished update. -/
theorem finishedUpdate_round (tr : Trace ι) {s s₁ s₂ : System ι} (s' : System ι) {c : ι}
    {id : Int32} (n : Nat) (req ack : Node) (code : Int) {client : Client} {e : BlockLocal}
    {it : BlockServer} (hit : s.host.server.blocks id = some it)
    (he : client.blocks id = some e) (hhost : s₁.host = s.host)
    (hclient : (s₂.link c).client = client) :
    FinishedUpdate (tr ++ roundSteps c ⟨.update id, n, req⟩ ack code s s₁ s₂ s') c id
      (tr.length + 2) (tr.length + 1) ⟨s₂, .received c ⟨.update id, n, req⟩ n ack (some code), s'⟩
      ⟨s₁, .critical c n req (some ack), s₂⟩ ⟨.update id, n, req⟩ n ack code e it where
  returnedAt := by
    rw [List.getElem?_append_right (Nat.le_add_right _ _), Nat.add_sub_cancel_left]
    rfl
  returned := rfl
  update := rfl
  before := Nat.lt_succ_self _
  servedAt := by
    rw [List.getElem?_append_right (Nat.le_add_right _ _), Nat.add_sub_cancel_left]
    rfl
  served := rfl
  entry := by
    rw [hclient]
    exact he
  block := by
    rw [hhost]
    exact hit

/-- **After `2 ^ 31` writes** the server's revision is negative, the reply to client
    `false` carries no data, and the client takes over zeros for the `65`s the server
    holds. -/
theorem updatesSafe_wrapped :
    ∃ tr s it, SysRun twoClients tr s ∧ NoTimeout tr ∧ ¬ UpdatesSafe tr ∧
      (s.link false).client.blocks 7
        = some ⟨7, Int32.ofNat 0x80000000, Data.memset 0, true⟩ ∧
      s.host.server.blocks 7 = some it ∧ it.data = Data.memset 65 := by
  obtain ⟨tr, s, hrun, hno, h⟩ := wrote_reachable 0x80000000
  obtain ⟨it, hit, hid, hrev, hdata⟩ := h.block
  have hsend : (s.link false).client.send (.update 7) = .ok (.sent twoClients.serverId
      (emitBlock .update ⟨7, 0, some (Data.memset 66)⟩ true) (s.link false).client) := by
    rw [Client.send, Client.dmBlockUpdateSend,
      openMapped_ready (h.route false) (h.socket false) h.reader]
    rfl
  obtain ⟨sec, hpass, hserved⟩ := Server.clientHandler_served s.host.server
    (twoClients.clientId false) (by rw [Message.type_emitBlock]; rfl)
    (Message.deref_emitBlock .update ⟨7, 0, some (Data.memset 66)⟩ true)
  rw [Message.type_emitBlock] at hserved
  -- zero is not below the wrapped revision, so the reply is shallow
  have ho : sec.outcome = .send (emitBlock .ack it.toBlock true) := by
    have hnlt : ¬ (0 : Int32) < it.revision := by
      rw [hrev]
      decide
    rw [hserved.update_reply hit, Message.decoded_revision, decide_eq_true hnlt]
  have hrecv := receive_update it true h.reader
  obtain ⟨s₁, s₂, s', hround, hhost₁, hclient₂, hhost, hclient, -, -⟩ :=
    round (h.quiet false) hsend hpass ho hrecv
  obtain ⟨it', hit', -, hkeep⟩ := hserved.content hit
  have hne : (0 : Int32) ≠ it.revision := by
    rw [hrev]
    decide
  have hrun' := hrun.append hround
  have hno' := noTimeout_append hno (noTimeout_round false
    ⟨.update 7, (s.link false).sent, emitBlock .update ⟨7, 0, some (Data.memset 66)⟩ true⟩
    (emitBlock .ack it.toBlock true) 0 s s₁ s₂ s')
  refine ⟨_, s', it', hrun', hno', ?_, ?_, by rw [hhost]; exact hit', ?_⟩
  · intro hsafe
    have hfinished := finishedUpdate_round tr s' (s.link false).sent
      (emitBlock .update ⟨7, 0, some (Data.memset 66)⟩ true) (emitBlock .ack it.toBlock true) 0
      hit h.reader hhost₁ hclient₂
    have hge := (asEntire_iff hrun' hno' hfinished).mp (hsafe _ _ _ _ _ _ _ _ _ _ _ _ hfinished)
    rw [hrev] at hge
    exact hge (by decide)
  · rw [hclient, Client.setBlock_same, if_pos hne, ← hid, ← hrev]
    rfl
  · rw [(hkeep (fun ha => by cases ha.type)).data]
    exact hdata (by decide)

end DmWrap
