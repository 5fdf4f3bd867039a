import DistributedMemory.DmCoherenceProofs

/-!
# Updates and short cuts — what the valid flag and the revisions decide

An invalid copy is strictly behind the server. So an update always finds its revision
changed and repairs the copy (`update_repairs`), and the two calls that give up on an
invalid copy without asking the server do what the server would have told them
(`shortCuts_agree`).

The server sends the content only when the request's revision is *below* its own, the
client takes whatever comes when the revisions *differ*. The two tests agree until a
revision wraps around: `updatesSafe_iff`.
-/

namespace DmUpdate

open DmBlock DmMessage DmClient DmServer DmHost DmSystem DmPairing DmHistory DmService
  DmCoherence LabelledRun VersionedCell

variable {ι : Type} [DecidableEq ι]

/-- Fewer than `2 ^ 31 - 1` writes were accepted to any block. -/
def FewWrites (D : Deployment ι) (tr : Trace ι) : Prop :=
  ∀ k ∈ D.blocksId, acceptedWrites k tr < 0x7fffffff

instance (D : Deployment ι) (tr : Trace ι) : Decidable (FewWrites D tr) :=
  List.decidableBAll (fun k => acceptedWrites k tr < 0x7fffffff) D.blocksId

theorem FewWrites.version {D : Deployment ι} {tr : Trace ι} {s : System ι}
    (h : FewWrites D tr) (hrun : SysRun D tr s) {k : Int32} (hk : k ∈ D.blocksId) :
    (history k tr).version < 0x80000000 := by
  rw [version_eq hrun hk]
  have := h k hk
  omega

omit [DecidableEq ι] in
theorem FewWrites.take {D : Deployment ι} {tr : Trace ι} (h : FewWrites D tr) (i : Nat) :
    FewWrites D (tr.take i) := by
  intro k hk
  refine Nat.lt_of_le_of_lt ?_ (h k hk)
  exact (List.take_sublist i tr).countP_le

omit [DecidableEq ι] in
theorem noTimeout_take {tr : Trace ι} (h : NoTimeout tr) (i : Nat) : NoTimeout (tr.take i) :=
  fun t ht => h t (List.mem_of_mem_take ht)

/-- **An invalid copy is behind**: its revision is not the server's. -/
theorem invalid_behind {D : Deployment ι} {tr : Trace ι} {s : System ι}
    (hrun : SysRun D tr s) (hno : NoTimeout tr) (hfew : FewWrites D tr) {c : ι} {k : Int32}
    {e : BlockLocal} {it : BlockServer} (he : (s.link c).client.blocks k = some e)
    (hit : s.host.server.blocks k = some it) (hv : e.valid = false) :
    e.revision ≠ it.revision := by
  have hk := hosted_of_blocks hrun hit
  have hbound := hfew.version hrun hk
  obtain ⟨it', hit', hrec⟩ := run_recorded hrun hk
  obtain rfl := Option.some.inj (hit.symm.trans hit')
  obtain ⟨u, hcopy⟩ := (run_tracks hrun hno hk hbound c).copy e he
  -- equal words would be equal counts
  intro heq
  rw [hcopy.revision, hrec.revision,
    WrapCounter.ofNat_eq_iff (Nat.lt_of_le_of_lt hcopy.le hbound) hbound] at heq
  exact absurd heq (Nat.ne_of_lt (hcopy.invalid hv))

/-! ## Updates -/

/-- What an update that returned `0` makes of the entry `e`, served from the block `it`. -/
structure Repaired (e e' : BlockLocal) (it : BlockServer) : Prop where
  valid : e'.valid = true
  revision : e'.revision = it.revision
  taken : e.revision ≠ it.revision → e'.data = it.data
  kept : e.revision = it.revision → e'.data = e.data

/-- In step `i` an update of block `id` returns `0`: the server's block was `it` when the
    request was served, and the entry was `e` when the call was made. -/
def UpdateRepairs (tr : Trace ι) (i : Nat) (t : Entry (System ι) (Event ι)) (c : ι)
    (p : Pending) (reply : Node) (id : Int32) : Prop :=
  ∃ k j tk tj e e' it, k < j ∧ j < i ∧
    tr[k]? = some tk ∧ tk.event = .sent c p ∧
    tr[j]? = some tj ∧ tj.event = .critical c p.tag p.req (some reply) ∧
    (tk.pre.link c).client.blocks id = some e ∧
    tj.pre.host.server.blocks id = some it ∧
    (t.post.link c).client.blocks id = some e' ∧ Repaired e e' it

/-- A call on a block that is not hosted, if its reply names one, gets a NACK for an
    update. -/
theorem update_unhosted {D : Deployment ι} {tr : Trace ι} {s s' : System ι}
    (hrun : SysRun D tr s) (hno : NoTimeout tr) {c : ι} {p : Pending} {tag : Nat}
    {reply : Node} {code : Int} (hcall : p.call.type = .update)
    (hs : Step D s (.received c p tag reply (some code)) s') (hk : p.call.id ∉ D.blocksId) :
    code = -5 := by
  obtain ⟨hp, hrep⟩ := own_reply hrun hno hs
  obtain ⟨j, t, e, sec, hprod⟩ := production hrun hp hrep
  have hid : e.id = p.call.id := run_named hrun hno c _ e hprod.entry
  have hnone : ∀ it, t.pre.host.server.blocks
      (Message.decoded e.toBlock p.call.shallow).id ≠ some it := by
    intro it hit
    rw [Message.decoded_id, BlockLocal.toBlock_id, hid] at hit
    exact hk (hosted_of_blocks (hrun.take hprod.place) hit)
  have hserved := hprod.served
  have ho := hprod.outcome
  rw [hcall] at hserved
  obtain ⟨-, rest, client, -, hrecv, -⟩ := received_inv hs
  cases hserved with
  | entire hit hlt => exact absurd hit (hnone _)
  | shallow hit hnlt => exact absurd hit (hnone _)
  | unhosted ht hb =>
      obtain rfl := Outcome.send.inj ho
      rw [Client.receive_nack hprod.entry (Message.type_emit .nack)] at hrecv
      exact (Prod.mk.inj (Except.ok.inj hrecv)).1.symm

/-- What an update makes of its entry. -/
theorem repaired_of_receipt {D : Deployment ι} {tr : Trace ι} {s s' : System ι} {c : ι}
    {p : Pending} {reply : Node} {code : Int} {j : Nat} {t : Entry (System ι) (Event ι)}
    {e : BlockLocal} {it : BlockServer} {sec : Section} {u : Nat} {id : Int32}
    (h : Receipt D tr s s' c p reply code j t e it sec u) (hcall : p.call = .update id) :
    ∃ e', (s'.link c).client.blocks id = some e' ∧ Repaired e e' it := by
  have hid : p.call.id = id := by rw [hcall]; rfl
  rcases h.of_update hcall with ⟨-, ⟨hne, -, hentry⟩ | ⟨hvalid, heq, -, hentry⟩⟩
  · rw [hid] at hentry
    exact ⟨_, hentry, rfl, rfl, fun _ => rfl, fun hr => absurd hr hne⟩
  · rw [hid] at hentry
    exact ⟨e, hentry, hvalid, heq, fun hr => absurd heq hr, fun _ => rfl⟩

/-- **Update always repairs**: whenever it returns `0` the entry is valid and at the
    server's revision, with the server's content unless that was its own revision before.
    No entry is stuck, invalid at the server's own revision. -/
theorem update_repairs {D : Deployment ι} {tr : Trace ι} {s : System ι}
    (hrun : SysRun D tr s) (hno : NoTimeout tr) (hfew : FewWrites D tr) :
    (∀ i t c p tag reply id, tr[i]? = some t →
      t.event = .received c p tag reply (some 0) → p.call = .update id →
      UpdateRepairs tr i t c p reply id) ∧
    ∀ c id e it, (s.link c).client.blocks id = some e →
      s.host.server.blocks id = some it → e.valid = false → e.revision ≠ it.revision := by
  refine ⟨?_, fun c id e it he hit hv => invalid_behind hrun hno hfew he hit hv⟩
  intro i t c p tag reply id hi hev hcall
  have hpre := hrun.take hi
  have hs := hrun.step_of_mem (List.mem_of_getElem? hi)
  rw [hev] at hs
  have hid : p.call.id = id := by rw [hcall]; rfl
  have htype : p.call.type = .update := by rw [hcall]; rfl
  have hk : p.call.id ∈ D.blocksId := by
    by_contra hk
    exact absurd (update_unhosted hpre (noTimeout_take hno i) htype hs hk) (by decide)
  obtain ⟨j, tj, e, it, sec, u, hrec⟩ :=
    receipt hpre (noTimeout_take hno i) hk ((hfew.take i).version hpre hk) hs
  obtain ⟨e', he', hrepaired⟩ := repaired_of_receipt hrec hcall
  obtain ⟨k, tk, hkj, htk, hsent, hissuer⟩ := hrec.service.issued
  have hplace := hrec.service.place
  have hji : j < i := by
    obtain ⟨hlt, -⟩ := List.getElem?_eq_some_iff.mp hplace
    rw [List.length_take] at hlt
    omega
  rw [List.getElem?_take_of_lt hji] at hplace
  rw [List.getElem?_take_of_lt (Nat.lt_trans hkj hji)] at htk
  -- the client has not changed since before the call
  have hbefore : (tk.pre.link c).client.blocks id = some e := by
    have hstep := hrun.step_of_mem (List.mem_of_getElem? htk)
    rw [hsent] at hstep
    obtain ⟨-, client, hsend, hpost, -⟩ := sent_inv hstep
    obtain ⟨e₀, hreq⟩ := Client.send_sent hsend
    have hsame : (tk.post.link c).client = (tk.pre.link c).client := by
      rw [hpost, System.setLink_self]
      exact hreq.same (by rw [htype]; decide)
    have hentry := hrec.service.entry
    rwa [← hissuer, hsame, hid] at hentry
  have hblock := hrec.service.block
  rw [hid] at hblock
  exact ⟨k, j, tk, tj, e, e', it, hkj, hji, htk, hsent, hplace, hrec.service.event, hbefore,
    hblock, he', hrepaired⟩

/-- The update at the end of the run fetches what the other client wrote. -/
theorem update_repairs_writeThenUpdate :
    ∃ tr s t, SysRun twoClients tr s ∧ tr[12]? = some t ∧
      UpdateRepairs tr 12 t false
        ⟨.update 7, 1, emitBlock .update ⟨7, 0, some (Data.memset 0)⟩ true⟩
        (emitBlock .ack ⟨7, 1, some (Data.memset 65)⟩ false) 7 := by
  obtain ⟨q, hq, hfacts⟩ := Option.map_eq_some_iff.mp (show
    (exec (next twoClients) twoClients.start writeThenUpdate).map
      (fun q => (decide (NoTimeout q.1), decide (FewWrites twoClients q.1),
        (q.1.map Entry.event)[12]?))
      = some (true, true, some (.received false
          ⟨.update 7, 1, emitBlock .update ⟨7, 0, some (Data.memset 0)⟩ true⟩ 1
          (emitBlock .ack ⟨7, 1, some (Data.memset 65)⟩ false) (some 0))) by decide +kernel)
  obtain ⟨hno, hfacts⟩ := Prod.mk.inj hfacts
  obtain ⟨hfew, hlast⟩ := Prod.mk.inj hfacts
  have hrun := run_of_exec _ (DmSystem.next_sound _) writeThenUpdate _ hq
  obtain ⟨t, ht, hev⟩ := event_of_map rfl hlast
  refine ⟨q.1, q.2, t, hrun, ht, ?_⟩
  exact (update_repairs hrun (of_decide_eq_true hno) (of_decide_eq_true hfew)).1
    12 t false _ _ _ 7 ht hev rfl

/-! ## Short cuts -/

/-- At a server that has moved on past the entry, or does not host its block, a WRITE is
    refused and a WAIT is acknowledged at once; no block changes. -/
theorem clientHandler_behind {s : Server} (clientId : String) {e : BlockLocal}
    (h : ∀ it, s.blocks e.id = some it → it.revision ≠ e.revision) :
    (∃ sec, s.clientHandler clientId (Message.ofNode (emitBlock .write e.toBlock false))
        = .ok sec ∧ sec.outcome = .send (emit .nack) ∧ sec.server.blocks = s.blocks) ∧
      ∃ sec, s.clientHandler clientId (Message.ofNode (emitBlock .wait e.toBlock true))
        = .ok sec ∧ sec.outcome = .send (emit .ack) ∧ sec.server.blocks = s.blocks := by
  -- the same lookup, once with the broadcast and once without
  constructor
  · obtain ⟨sec, hsec, hserved⟩ := Server.clientHandler_served s clientId
      (by rw [Message.type_emitBlock]; rfl) (Message.deref_emitBlock .write e.toBlock false)
    refine ⟨sec, hsec, ?_⟩
    rw [Message.type_emitBlock] at hserved
    cases hserved with
    | unhosted ht _ => rcases ht with ht | ht | ht <;> exact nomatch ht
    | writeUnhosted hb => exact ⟨rfl, rfl⟩
    | accepted hit heq => exact absurd heq (h _ hit)
    | writeRefused hit hne => exact ⟨rfl, rfl⟩
  · obtain ⟨sec, hsec, hserved⟩ := Server.clientHandler_served s clientId
      (by rw [Message.type_emitBlock]; rfl) (Message.deref_emitBlock .wait e.toBlock true)
    refine ⟨sec, hsec, ?_⟩
    rw [Message.type_emitBlock] at hserved
    cases hserved with
    | unhosted ht _ => rcases ht with ht | ht | ht <;> exact nomatch ht
    | waitUnhosted hb => exact ⟨rfl, rfl⟩
    | outdated hit hne => exact ⟨rfl, rfl⟩
    | sleeps hit heq => exact absurd heq (h _ hit)

/-- Had the call sent the request `req` and been served by `s`, the server would have sent
    `ack` at once and changed no block, and the call would have ended with `code` and the
    client as it is. -/
def EndsAlike (s : Server) (clientId : String) (client : Client) (call : Call) (req ack : Node)
    (code : Int) : Prop :=
  ∃ sec, s.clientHandler clientId (Message.ofNode req) = .ok sec ∧
    sec.outcome = .send ack ∧ sec.server.blocks = s.blocks ∧
    client.receive call (some ack) = .ok (code, client)

/-- **The short cuts agree with the server.** A client whose block is invalid gets from
    `dm_block_write` and `dm_block_wait` at once what the server would have told it,
    whenever it would have come to serve the request (`tr'`: what happens until then,
    while the client waits). -/
theorem shortCuts_agree {D : Deployment ι} {tr tr' : Trace ι} {s s' : System ι}
    (hrun : SysRun D tr s) (hthen : Run (Step D) s tr' s') (hno : NoTimeout (tr ++ tr'))
    (hfew : FewWrites D (tr ++ tr')) {c : ι} {id : Int32} {e : BlockLocal}
    (hwaits : (s'.link c).client = (s.link c).client)
    (he : (s.link c).client.blocks id = some e) (hv : e.valid = false) :
    (∀ req client, (s.link c).client.dmBlockWriteSendAlways id
        = .ok (.sent D.serverId req client) →
      (s.link c).client.send (.write id) = .ok (.returned (-5) client) ∧
        EndsAlike s'.host.server (D.clientId c) client (.write id) req (emit .nack) (-5)) ∧
    ∀ req client, (s.link c).client.dmBlockWaitSendAlways id
        = .ok (.sent D.serverId req client) →
      (s.link c).client.send (.wait id) = .ok (.returned 0 client) ∧
        EndsAlike s'.host.server (D.clientId c) client (.wait id) req (emit .ack) 0 := by
  have hrun' := hrun.append hthen
  have he' : (s'.link c).client.blocks id = some e := by rw [hwaits]; exact he
  have hid : e.id = id := run_named hrun' hno c id e he'
  have hbehind : ∀ it, s'.host.server.blocks e.id = some it → it.revision ≠ e.revision := by
    intro it hit
    rw [hid] at hit
    exact (invalid_behind hrun' hno hfew he' hit hv).symm
  obtain ⟨⟨wsec, hw, hwo, hwb⟩, ⟨sec, hsec, ho, hb⟩⟩ :=
    clientHandler_behind (D.clientId c) hbehind
  constructor
  · intro req client hsend
    obtain ⟨hret, rfl, rfl⟩ := Client.write_shortCut hsend he hv
    refine ⟨hret, wsec, hw, hwo, hwb, ?_⟩
    rw [Client.receive_nack (show (s.link c).client.blocks (Call.write id).id = some e from he)
      (Message.type_emit .nack)]
    have hsame : Call.onNack (.write id) e = e := by
      show { e with valid := false } = e
      rw [← hv]
    rw [hsame, show Call.id (.write id) = id from rfl, Client.setBlock_eq_self he]
  · intro req client hsend
    obtain ⟨hret, rfl, rfl⟩ := Client.wait_shortCut hsend he hv
    refine ⟨hret, sec, hsec, ho, hb, ?_⟩
    rw [Client.receive_ack (b := BlockServer.create 0) (m := Message.ofNode (emit .ack))
      (show (s.link c).client.blocks (Call.wait id).id = some e from he) (by simp)
      (fun hu => nomatch hu)]
    have hsame : Call.onAck (.wait id) e (BlockServer.create 0) = some e := by
      show some { e with valid := false } = some e
      rw [← hv]
    rw [hsame, show Call.id (.wait id) = id from rfl, Client.setBlock_eq_self he]

/-- Client `false` learns from a wait that block 7 was written. -/
def outdatedByWait : List (Action Bool) :=
  [.call false (.map 7 (Data.memset 1)), .serve false, .receive false,
   .call true (.map 7 (Data.memset 2)), .serve true, .receive true,
   .call true (.write 7), .serve true, .receive true,
   .call false (.wait 7), .serve false, .receive false]

/-- Meanwhile, the other client writes again. -/
def writeAgain : List (Action Bool) := [.call true (.write 7), .serve true, .receive true]

/-- The request a call would send. -/
def requestOf : Except Fault Sending → Option (String × Node)
  | .ok (.sent serverId req _) => some (serverId, req)
  | _ => none

theorem sent_of_requestOf {x : Except Fault Sending} {serverId : String} {req : Node}
    (h : requestOf x = some (serverId, req)) : ∃ client, x = .ok (.sent serverId req client) := by
  cases x with
  | error f => exact nomatch h
  | ok sending =>
      cases sending with
      | returned code client => exact nomatch h
      | sent serverId' req' client =>
          obtain ⟨rfl, rfl⟩ := Prod.mk.inj (Option.some.inj h)
          exact ⟨client, rfl⟩

theorem shortCuts_agree_outdatedByWait :
    ∃ tr tr' s s' client, SysRun twoClients tr s ∧ Run (Step twoClients) s tr' s' ∧
      tr'.length = 3 ∧
      (s.link false).client.send (.write 7) = .ok (.returned (-5) client) ∧
      EndsAlike s'.host.server (twoClients.clientId false) client (.write 7)
        (emitBlock .write ⟨7, 0, some (Data.memset 0)⟩ false) (emit .nack) (-5) := by
  obtain ⟨q, hq, hfacts⟩ := Option.map_eq_some_iff.mp (show
    (exec (next twoClients) twoClients.start outdatedByWait).map
      (fun q => ((q.2.link false).client.blocks 7,
        requestOf ((q.2.link false).client.dmBlockWriteSendAlways 7))) =
      some (some ⟨7, 0, Data.memset 0, false⟩, some (twoClients.serverId,
        emitBlock .write ⟨7, 0, some (Data.memset 0)⟩ false)) by decide +kernel)
  obtain ⟨he, hreq⟩ := Prod.mk.inj hfacts
  obtain ⟨client, hsend⟩ := sent_of_requestOf hreq
  have hagain : ((exec (next twoClients) twoClients.start outdatedByWait).bind fun q =>
      (exec (next twoClients) q.2 writeAgain).map fun q' =>
        (decide (NoTimeout (q.1 ++ q'.1) ∧ FewWrites twoClients (q.1 ++ q'.1) ∧
          ∀ t ∈ q'.1, t.event.party ≠ false), q'.1.length)) = some (true, 3) := by
    decide +kernel
  rw [hq] at hagain
  obtain ⟨q', hq', hfacts'⟩ := Option.map_eq_some_iff.mp hagain
  obtain ⟨hdec, hlen⟩ := Prod.mk.inj hfacts'
  obtain ⟨hno, hfew, hother⟩ := of_decide_eq_true hdec
  have hrun := run_of_exec _ (DmSystem.next_sound _) outdatedByWait _ hq
  have hthen := run_of_exec _ (DmSystem.next_sound _) writeAgain _ hq'
  have hagree := shortCuts_agree hrun hthen hno hfew
    (congrArg Link.client (run_other hthen hother)) he rfl
  obtain ⟨hret, hends⟩ := hagree.1 _ client hsend
  exact ⟨q.1, q'.1, q.2, q'.2, client, hrun, hthen, hlen, hret, hends⟩

end DmUpdate
