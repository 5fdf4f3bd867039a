import DistributedMemory.DmUpdateProofs
import DistributedMemory.DmLinearProofs

/-!
# Progress — what a call in progress still needs

The server has one mutex and never keeps it while it waits, and a client is in one call at a
time, so the only thing a call can wait for is a revision.

* **`Stuck`** — a WAIT whose block is still at the revision the request carries.
* **`completes_alone`** — from every reachable state, any other call in progress returns after
  one pass of its own handler thread and one read, without any other step of the system.
* **`wait_wakes`** — a WAIT that was stuck can return exactly when a write to its block has
  been accepted since.
* **`refused_overtaken`** — a write is refused only if another client's was accepted since the
  client last synchronised: of several writers, one always gets through.
-/

namespace DmProgress

open DmBlock DmMessage DmClient DmServer DmHost DmSystem DmPairing DmHistory DmService
  DmCoherence DmUpdate DmLinear LabelledRun

variable {ι : Type} [DecidableEq ι]

/-- The call has not been answered, and is a WAIT whose block is at the revision the request
    carries. -/
structure Stuck (s : System ι) (c : ι) (p : Pending) : Prop where
  wait : p.call.type = .wait
  pending : (s.link c).pending = some p
  unanswered : (s.link c).replies = []
  block : ∃ b m it, (Message.ofNode p.req).deref = .ok (b, m) ∧
    s.host.server.blocks b.id = some it ∧ it.revision = b.revision

/-- The steps in which the call returns when nothing else happens: at most one pass of its own
    thread, and the receipt of its reply. -/
def Finishes (D : Deployment ι) (s : System ι) (c : ι) (p : Pending) : Prop :=
  ∃ tr' s₁ reply code s',
    Run (Step D) s (tr' ++ [⟨s₁, .received c p p.tag reply (some code), s'⟩]) s' ∧
      tr'.length ≤ 1 ∧ ∀ t ∈ tr', ∃ ans, t.event = .critical c p.tag p.req ans

/-! ## The reply is read -/

/-- A client in a call lives. -/
theorem step_alive {D : Deployment ι} {s s' : System ι} {e : Event ι} {c : ι}
    (h : (s.link c).dead = true → (s.link c).pending = none) (hs : Step D s e s') :
    (s'.link c).dead = true → (s'.link c).pending = none := by
  by_cases hc : c = e.party
  · cases hs with
    | @returned u call code client hidle halive hsend =>
        obtain rfl : c = u := hc
        rw [System.setLink_self]
        exact fun _ => hidle
    | @sent u call req client hidle halive hsend =>
        obtain rfl : c = u := hc
        rw [System.setLink_self]
        intro hdead
        exact absurd (halive.symm.trans hdead) (by decide)
    | @died u call f hidle halive hsend =>
        obtain rfl : c = u := hc
        rw [System.setLink_self]
        exact fun _ => hidle
    | @poked u id e d hidle halive he =>
        obtain rfl : c = u := hc
        rw [System.setLink_self]
        exact fun _ => hidle
    | @request u tag req rest ans host hreq hread hhost =>
        obtain rfl : c = u := hc
        rw [System.setLink_self]
        exact h
    | @retry u tag req k msg ans host hawake hhost =>
        obtain rfl : c = u := hc
        rw [System.setLink_self]
        exact h
    | woken hhost => exact h
    | @received u p tag reply rest code client hp halive hrep hrecv =>
        obtain rfl : c = u := hc
        rw [System.setLink_self]
        exact fun _ => rfl
    | @receivedDied u p tag reply rest f hp halive hrep hrecv =>
        obtain rfl : c = u := hc
        rw [System.setLink_self]
        exact fun _ => rfl
    | @timedOut u p code client hp halive hnone hrecv =>
        obtain rfl : c = u := hc
        rw [System.setLink_self]
        exact fun _ => rfl
  · rw [(step_other hs hc).1]
    exact h

theorem busy_alive {D : Deployment ι} {tr : Trace ι} {s : System ι} (hrun : SysRun D tr s)
    {c : ι} {p : Pending} (hp : (s.link c).pending = some p) : (s.link c).dead = false := by
  have h := hrun.invariant (I := fun s => (s.link c).dead = true → (s.link c).pending = none)
    (fun hdead => by cases hdead) fun _ _ _ hi hs => step_alive hi hs
  cases hdead : (s.link c).dead with
  | false => rfl
  | true =>
      rw [h hdead] at hp
      cases hp

/-- A reply under the call's own number lets it return: a map and an update that are not
    refused are sent a block. -/
theorem reply_returns {D : Deployment ι} {tr : Trace ι} {s : System ι} (hrun : SysRun D tr s)
    {c : ι} {p : Pending} {reply : Node} (hp : (s.link c).pending = some p)
    (hrep : (p.tag, reply) ∈ (s.link c).replies) :
    ∃ code client, (s.link c).client.receive p.call (some reply) = .ok (code, client) := by
  obtain ⟨j, t, e, sec, h⟩ := production hrun hp hrep
  by_cases hnack : (Message.ofNode reply).type = .nack
  · exact ⟨_, _, Client.receive_nack h.entry hnack⟩
  · have hblock : ∃ b m, p.call.usesBlock = true → (Message.ofNode reply).deref = .ok (b, m) := by
      have hrefused : sec.outcome = .send (emit .nack) → False := fun ho => by
        rw [h.outcome] at ho
        rw [Outcome.send.inj ho, Message.type_emit] at hnack
        exact hnack rfl
      have hsent : ∀ it sh, sec.outcome = .send (emitBlock .ack it sh) →
          ∃ b m, p.call.usesBlock = true → (Message.ofNode reply).deref = .ok (b, m) := by
        intro it sh ho
        rw [h.outcome] at ho
        rw [Outcome.send.inj ho]
        exact ⟨_, _, fun _ => Message.deref_emitBlock .ack it sh⟩
      have hserved := h.served
      cases hcall : p.call with
      | map id address =>
          rw [hcall] at hserved hsent
          cases hserved with
          | unhosted _ _ => exact absurd rfl hrefused
          | mapped _ _ => exact hsent _ _ rfl
          | mapRefused _ _ => exact absurd rfl hrefused
      | update id =>
          rw [hcall] at hserved hsent
          cases hserved with
          | unhosted _ _ => exact absurd rfl hrefused
          | entire _ _ => exact hsent _ _ rfl
          | shallow _ _ => exact hsent _ _ rfl
      | unmap id => exact ⟨BlockServer.create 0, Message.ofNode reply, fun hu => by cases hu⟩
      | write id => exact ⟨BlockServer.create 0, Message.ofNode reply, fun hu => by cases hu⟩
      | wait id => exact ⟨BlockServer.create 0, Message.ofNode reply, fun hu => by cases hu⟩
    obtain ⟨b, m, hb⟩ := hblock
    exact ⟨_, _, Client.receive_ack h.entry hnack hb⟩

/-- The receipt, once the reply is there. -/
theorem finishes_replied {D : Deployment ι} {tr : Trace ι} {s : System ι} (hrun : SysRun D tr s)
    {c : ι} {p : Pending} {reply : Node} {rest : List (Nat × Node)}
    (hp : (s.link c).pending = some p) (hrep : (s.link c).replies = (p.tag, reply) :: rest) :
    ∃ code s', Step D s (.received c p p.tag reply (some code)) s' := by
  obtain ⟨code, client, hrecv⟩ := reply_returns hrun hp (by rw [hrep]; exact List.mem_cons_self)
  exact ⟨code, _, Step.received hp (busy_alive hrun hp) hrep hrecv⟩

/-! ## The request is answered -/

/-- The only request in the queue of a connection is the one of the call in progress. -/
theorem busy_queue {D : Deployment ι} {tr : Trace ι} {s : System ι} (hrun : SysRun D tr s)
    (hno : NoTimeout tr) {c : ι} {p : Pending} (hp : (s.link c).pending = some p) :
    (∃ reply, (s.link c).replies = [(p.tag, reply)]) ∨
      ((s.link c).replies = [] ∧ queue s c = [(p.tag, p.req)]) := by
  have hfly := busy_inFlight hrun hno hp
  rw [inFlight] at hfly
  cases hrep : (s.link c).replies with
  | cons x rest =>
      rw [hrep, List.map_cons, List.cons_append] at hfly
      obtain ⟨htag, hrest⟩ := List.cons.inj hfly
      have hnil := (List.append_eq_nil_iff.mp hrest).1
      refine Or.inl ⟨x.2, ?_⟩
      rw [List.map_eq_nil_iff.mp hnil, ← htag]
  | nil =>
      rw [hrep, List.map_nil, List.nil_append] at hfly
      refine Or.inr ⟨rfl, ?_⟩
      cases hq : queue s c with
      | nil =>
          rw [hq] at hfly
          cases hfly
      | cons x rest =>
          rw [hq, List.map_cons] at hfly
          obtain ⟨htag, hrest⟩ := List.cons.inj hfly
          have hin : (p.tag, x.2) ∈ queue s c := by
            rw [hq, ← htag]
            exact List.mem_cons_self
          rw [List.map_eq_nil_iff.mp hrest, ← htag, ← (run_exchanging hrun c p hp).asked x.2 hin]

/-- Nobody sleeps on a revision that has passed. -/
theorem stuck_of_asleep {D : Deployment ι} {tr : Trace ι} {s : System ι} (hrun : SysRun D tr s)
    {c : ι} {p : Pending} (hp : (s.link c).pending = some p)
    (hrep : (s.link c).replies = []) (hq : queue s c = [(p.tag, p.req)]) {tag : Nat} {k : Int32}
    {msg : Message} (hth : s.host.thread c = .asleep tag k msg) : Stuck s c p := by
  obtain ⟨b, it, hw, hit, hrev⟩ := (sys_settled hrun).asleep c tag k msg hth
  obtain ⟨e, -, hreq, -⟩ := pending_requests hrun hp
  rw [queue, hth] at hq
  obtain ⟨hhead, -⟩ := List.cons.inj hq
  have hnode : msg.node = p.req := (Prod.mk.inj hhead).2
  have hdec := hw.decodes
  rw [hnode] at hdec
  refine ⟨?_, hp, hrep, b, msg, it, hdec, by rw [hw.names]; exact hit, hrev⟩
  have htype : (Message.ofNode p.req).type = p.call.type := by
    rw [hreq, Message.type_emitBlock]
  rw [← htype, ← hnode]
  exact (Message.type_congr rfl).trans hw.type

/-- What the thread does next with the request of the call in progress, unless it is stuck:
    it answers. -/
theorem answers {D : Deployment ι} {tr : Trace ι} {s : System ι} (hrun : SysRun D tr s)
    {c : ι} {p : Pending} (hp : (s.link c).pending = some p)
    (hrep : (s.link c).replies = []) (hq : queue s c = [(p.tag, p.req)])
    (hfree : ¬ Stuck s c p) :
    ∃ ack s', Step D s (.critical c p.tag p.req (some ack)) s' := by
  obtain ⟨e, -, hreq, -⟩ := pending_requests hrun hp
  have hm := Message.deref_emitBlock p.call.type e.toBlock p.call.shallow
  have htype := Message.type_emitBlock p.call.type e.toBlock p.call.shallow
  rw [← hreq] at hm htype
  -- a section that sleeps is a WAIT at the revision the block has
  have hanswer : ∀ {sec : Section}, Served s.host.server (D.clientId c)
      (Message.decoded e.toBlock p.call.shallow)
      ⟨p.req, some (Message.decoded e.toBlock p.call.shallow)⟩ p.call.type sec →
      ∃ ack, answer sec = some ack := by
    intro sec hserved
    cases ho : sec.outcome with
    | send ack => exact ⟨ack, by rw [answer, ho]⟩
    | wait k msg =>
        obtain ⟨hwait, -, -, -, it, hit, hrev⟩ := hserved.of_wait ho
        exact absurd ⟨hwait, hp, hrep, _, _, it, hm, hit, hrev⟩ hfree
  cases hth : s.host.thread c with
  | reading =>
      rw [queue, hth] at hq
      have hrequests : (s.link c).requests = [(p.tag, p.req)] := hq
      obtain ⟨sec, hpass, hserved⟩ := Server.clientHandler_served s.host.server (D.clientId c)
        (by rw [htype]; exact isRequest_type p.call) hm
      rw [htype] at hserved
      obtain ⟨ack, hack⟩ := hanswer hserved
      have hstep : DmHost.Step D.clientId s.host (.critical c p.tag p.req (answer sec))
          (s.host.leave c p.tag sec) := .first hth hpass
      rw [hack] at hstep
      exact ⟨ack, _, Step.request hrequests hth hstep⟩
  | asleep tag k msg =>
      exact absurd (stuck_of_asleep hrun hp hrep hq hth) hfree
  | awake tag k msg =>
      obtain ⟨b, it, hw, hit⟩ := (sys_settled hrun).awake c tag k msg hth
      rw [queue, hth] at hq
      obtain ⟨hhead, -⟩ := List.cons.inj hq
      obtain ⟨rfl, hnode⟩ := Prod.mk.inj hhead
      have hdec := hw.decodes
      rw [hnode, hm] at hdec
      obtain ⟨rfl, rfl⟩ := Prod.mk.inj (Except.ok.inj hdec)
      have hwait : p.call.type = .wait := by
        rw [← htype, ← hnode]
        exact (Message.type_congr rfl).trans hw.type
      obtain ⟨sec, hloop, hserved⟩ :=
        Server.handleWait_served s.host.server (D.clientId c) hw.cached
      rw [hw.names] at hloop
      rw [← hwait] at hserved
      obtain ⟨ack, hack⟩ := hanswer hserved
      have hstep : DmHost.Step D.clientId s.host (.critical c p.tag p.req (answer sec))
          (s.host.leave c p.tag sec) := .again hth hloop
      rw [hack] at hstep
      exact ⟨ack, _, Step.retry hth hstep⟩

/-! ## Stuck calls -/

/-- **Only an accepted write to its block frees a stuck WAIT.** -/
theorem stuck_step {D : Deployment ι} {tr : Trace ι} {s s' : System ι} {e : Event ι} {c : ι}
    {p : Pending} (hrun : SysRun D tr s) (hno : NoTimeout (tr ++ [⟨s, e, s'⟩]))
    (h : Stuck s c p) (hs : Step D s e s') (hacc : acceptsWrite p.call.id ⟨s, e, s'⟩ = false) :
    Stuck s' c p := by
  have hno' : NoTimeout tr := fun t ht => hno t (List.mem_append_left _ ht)
  obtain ⟨b, m, it, hm, hit, hrev⟩ := h.block
  -- the request is about the block the call is about
  obtain ⟨e₀, he₀, hreq, -⟩ := pending_requests hrun h.pending
  have hid : b.id = p.call.id := by
    have hm' := hm
    rw [hreq, Message.deref_emitBlock] at hm'
    rw [← (Prod.mk.inj (Except.ok.inj hm')).1]
    exact run_named hrun hno' c _ e₀ he₀
  have hblock : ∃ it', s'.host.server.blocks b.id = some it' ∧ it'.revision = b.revision := by
    obtain ⟨it', hit', ⟨hsame, -⟩ | ⟨b', -, hyes⟩⟩ := step_block (sys_settled hrun) hs hit
    · exact ⟨it', hit', hsame.revision.trans hrev⟩
    · rw [hid, hacc] at hyes
      cases hyes
  obtain ⟨it', hit', hrev'⟩ := hblock
  by_cases hc : c = e.party
  · cases e with
    | critical u tag req ans =>
        obtain rfl : c = u := hc
        obtain ⟨p', hp', -, hreq', -⟩ := critical_pending hrun hno' hs
        obtain rfl := Option.some.inj (h.pending.symm.trans hp')
        subst hreq'
        obtain ⟨-, -, -, hlink, hhost⟩ := critical_queue hs
        have htype : (Message.ofNode p.req).type = .wait := by
          rw [hreq, Message.type_emitBlock]
          exact h.wait
        obtain ⟨sec, -, rfl, hserved⟩ := critical_request (sys_settled hrun) hhost htype rfl hm
        have hans : answer sec = none := by
          cases ho : sec.outcome with
          | send ack => exact absurd hrev (hserved.wait_reply ho hit).2
          | wait k msg => rw [answer, ho]
        refine ⟨h.wait, ?_, ?_, b, m, it', hm, hit', hrev'⟩
        · rw [hlink]
          exact h.pending
        · rw [hlink, hans]
          show (s.link c).replies ++ [] = []
          rw [h.unanswered, List.append_nil]
    | woken u =>
        have hlink : s'.link c = s.link c := by
          cases hs
          rfl
        exact ⟨h.wait, by rw [hlink]; exact h.pending, by rw [hlink]; exact h.unanswered,
          b, m, it', hm, hit', hrev'⟩
    -- a client in a call takes no step of an idle one
    | returned u call code =>
        obtain rfl : c = u := hc
        cases hs with
        | returned hidle _ _ => cases h.pending.symm.trans hidle
    | sent u p' =>
        obtain rfl : c = u := hc
        cases h.pending.symm.trans (sent_inv hs).1
    | died u call =>
        obtain rfl : c = u := hc
        cases hs with
        | died hidle _ _ => cases h.pending.symm.trans hidle
    | poked u id =>
        obtain rfl : c = u := hc
        cases hs with
        | poked _ hidle _ _ => cases h.pending.symm.trans hidle
    -- there is nothing to read
    | received u p' tag reply code =>
        obtain rfl : c = u := hc
        obtain ⟨-, rest, hrep⟩ := received_head hs
        cases h.unanswered.symm.trans hrep
    | timedOut u p' => exact absurd rfl (hno ⟨s, .timedOut u p', s'⟩ (by simp) u p')
  · have hlink := (step_other hs hc).1
    exact ⟨h.wait, by rw [hlink]; exact h.pending, by rw [hlink]; exact h.unanswered,
      b, m, it', hm, hit', hrev'⟩

/-- A stuck WAIT stays stuck as long as no write to its block is accepted. -/
theorem stuck_run {D : Deployment ι} {tr tr' : Trace ι} {s s' : System ι} {c : ι} {p : Pending}
    (hrun : SysRun D tr s) (h : Stuck s c p) (hgo : Run (Step D) s tr' s')
    (hno : NoTimeout (tr ++ tr')) (hacc : acceptedWrites p.call.id tr' = 0) :
    Stuck s' c p := by
  induction hgo with
  | nil => exact h
  | @snoc tr' s₁ s₂ e hgo hs ih =>
      rw [← List.append_assoc] at hno
      have hsplit : acceptedWrites p.call.id tr' = 0 ∧
          acceptsWrite p.call.id ⟨s₁, e, s₂⟩ = false := by
        rw [acceptedWrites, List.countP_append, List.countP_singleton] at hacc
        cases hlast : acceptsWrite p.call.id ⟨s₁, e, s₂⟩ with
        | false => exact ⟨(Nat.add_eq_zero_iff.mp hacc).1, rfl⟩
        | true =>
            rw [hlast] at hacc
            exact absurd (Nat.add_eq_zero_iff.mp hacc).2 (by decide)
      have hbefore := ih (fun t ht => hno t (List.mem_append_left _ ht)) hsplit.1
      exact stuck_step (hrun.append hgo) hno hbefore hs hsplit.2

/-- A stuck call does not return by itself. -/
theorem Stuck.not_finishes {D : Deployment ι} {tr : Trace ι} {s : System ι} {c : ι}
    {p : Pending} (h : Stuck s c p) (hrun : SysRun D tr s) (hno : NoTimeout tr) :
    ¬ Finishes D s c p := by
  rintro ⟨tr', s₁, reply, code, s', hgo, -, hcritical⟩
  have hquiet : NoTimeout (tr ++ tr') := by
    refine noTimeout_append hno fun t ht u q hev => ?_
    obtain ⟨ans, hev'⟩ := hcritical t ht
    cases hev.symm.trans hev'
  obtain ⟨hgo', hs⟩ := hgo.unsnoc
  -- a WAIT accepts no write, so it is still stuck when it reads
  have hwait : acceptedWrites p.call.id tr' = 0 := by
    refine List.countP_eq_zero.mpr fun t ht hacc => ?_
    obtain ⟨ans, hev⟩ := hcritical t ht
    obtain ⟨u, tag, req, ack, b, m, hev', -, htype, -⟩ := acceptsWrite_cases hacc
    obtain ⟨-, -, rfl, -⟩ := Event.critical.inj (hev.symm.trans hev')
    obtain ⟨e, -, hreq, -⟩ := pending_requests hrun h.pending
    rw [hreq, Message.type_emitBlock, h.wait] at htype
    cases htype
  have hstill := stuck_run hrun h hgo' hquiet hwait
  obtain ⟨-, rest, hrep⟩ := received_head hs
  cases hstill.unanswered.symm.trans hrep

/-- Every other call does. -/
theorem finishes_of_free {D : Deployment ι} {tr : Trace ι} {s : System ι} (hrun : SysRun D tr s)
    (hno : NoTimeout tr) {c : ι} {p : Pending} (hp : (s.link c).pending = some p)
    (hfree : ¬ Stuck s c p) : Finishes D s c p := by
  rcases busy_queue hrun hno hp with ⟨reply, hrep⟩ | ⟨hrep, hq⟩
  · obtain ⟨code, s', hs⟩ := finishes_replied hrun hp hrep
    exact ⟨[], s, reply, code, s', Run.nil.snoc hs, Nat.zero_le _, fun t ht => by cases ht⟩
  · -- first the answer, then the receipt
    obtain ⟨ack, s₁, hs₁⟩ := answers hrun hp hrep hq hfree
    obtain ⟨-, -, -, hlink, -⟩ := critical_queue hs₁
    have hp₁ : (s₁.link c).pending = some p := by
      rw [hlink]
      exact hp
    have hrep₁ : (s₁.link c).replies = [(p.tag, ack)] := by
      rw [hlink]
      show (s.link c).replies ++ [(p.tag, ack)] = _
      rw [hrep, List.nil_append]
    obtain ⟨code, s', hs'⟩ := finishes_replied (hrun.snoc hs₁) hp₁ hrep₁
    refine ⟨[⟨s, _, s₁⟩], s₁, ack, code, s', (Run.nil.snoc hs₁).snoc hs', Nat.le_refl _, ?_⟩
    intro t ht
    rw [List.mem_singleton.mp ht]
    exact ⟨some ack, rfl⟩

/-! ## Results -/

/-- **Nobody waits for another client but in a WAIT.** From every reachable state a call in
    progress returns after at most one pass of its own handler thread and the receipt of the
    reply, whatever all the others are doing, unless it is a WAIT at the revision its block
    has. -/
theorem completes_alone {D : Deployment ι} {tr : Trace ι} {s : System ι} (hrun : SysRun D tr s)
    (hno : NoTimeout tr) {c : ι} {p : Pending} (hp : (s.link c).pending = some p) :
    Finishes D s c p ↔ ¬ Stuck s c p :=
  ⟨fun hfin hstuck => hstuck.not_finishes hrun hno hfin, finishes_of_free hrun hno hp⟩

/-- Both clients map block 7, and the first waits for it. -/
def mapAndWait : List (Action Bool) :=
  [.call false (.map 7 (Data.memset 1)), .call true (.map 7 (Data.memset 2)), .serve true,
   .serve false, .receive false, .receive true, .call false (.wait 7), .serve false]

/-- The thread sleeps. -/
def sleeping : Thread → Bool
  | .asleep _ _ _ => true
  | _ => false

theorem asleep_of_sleeping {th : Thread} (h : sleeping th = true) :
    ∃ tag k msg, th = .asleep tag k msg := by
  cases th with
  | asleep tag k msg => exact ⟨tag, k, msg, rfl⟩
  | reading => cases h
  | awake tag k msg => cases h

/-- After it the first client is stuck. -/
theorem mapAndWait_stuck :
    ∃ tr s p, exec (next twoClients) twoClients.start mapAndWait = some (tr, s) ∧
      SysRun twoClients tr s ∧ NoTimeout tr ∧ Stuck s false p ∧ p.call = .wait 7 := by
  obtain ⟨q, hq, hfacts⟩ := Option.map_eq_some_iff.mp (show
    (exec (next twoClients) twoClients.start mapAndWait).map
      (fun q => (decide (NoTimeout q.1), (q.2.link false).pending.map Pending.call,
        (q.2.link false).replies.isEmpty, sleeping (q.2.host.thread false)))
      = some (true, some (.wait 7), true, true) by decide +kernel)
  obtain ⟨hno, hfacts⟩ := Prod.mk.inj hfacts
  obtain ⟨hcall, hfacts⟩ := Prod.mk.inj hfacts
  obtain ⟨hrep, hsleep⟩ := Prod.mk.inj hfacts
  have hrun := run_of_exec _ (DmSystem.next_sound _) mapAndWait _ hq
  obtain ⟨p, hp, hcall⟩ := Option.map_eq_some_iff.mp hcall
  obtain ⟨tag, k, msg, hth⟩ := asleep_of_sleeping hsleep
  have hrep := List.isEmpty_iff.mp hrep
  have hno := of_decide_eq_true hno
  rcases busy_queue hrun hno hp with ⟨reply, hreply⟩ | ⟨-, hqueue⟩
  · cases hrep.symm.trans hreply
  · exact ⟨q.1, q.2, p, hq, hrun, hno, stuck_of_asleep hrun hp hrep hqueue hth, hcall⟩

theorem completes_alone_mapAndWait :
    ∃ tr s p, SysRun twoClients tr s ∧ p.call = .wait 7 ∧ (s.link false).pending = some p ∧
      (Finishes twoClients s false p ↔ ¬ Stuck s false p) := by
  obtain ⟨tr, s, p, -, hrun, hno, hstuck, hcall⟩ := mapAndWait_stuck
  exact ⟨tr, s, p, hrun, hcall, hstuck.pending, completes_alone hrun hno hstuck.pending⟩

/-- **A WAIT wakes up.** However the system goes on from a stuck WAIT, as long as the WAIT has
    not returned it can return on its own exactly when a write to its block has been accepted
    in the meantime. -/
theorem wait_wakes {D : Deployment ι} {tr tr' : Trace ι} {s s' : System ι} (hrun : SysRun D tr s)
    {c : ι} {p : Pending} (hstuck : Stuck s c p) (hgo : Run (Step D) s tr' s')
    (hno : NoTimeout (tr ++ tr')) (hp : (s'.link c).pending = some p)
    (hbound : acceptedWrites p.call.id tr' < 0x100000000) :
    Finishes D s' c p ↔ 0 < acceptedWrites p.call.id tr' := by
  have hno₀ : NoTimeout tr := fun t ht => hno t (List.mem_append_left _ ht)
  constructor
  · intro hfin
    refine Nat.pos_of_ne_zero fun hzero => ?_
    have hstill := stuck_run hrun hstuck hgo hno hzero
    exact hstill.not_finishes (hrun.append hgo) hno hfin
  · refine fun hpos => finishes_of_free (hrun.append hgo) hno hp fun hstill => ?_
    obtain ⟨b, m, it, hm, hit, hrev⟩ := hstuck.block
    obtain ⟨b', m', it', hm', hit', hrev'⟩ := hstill.block
    obtain ⟨rfl, rfl⟩ := Prod.mk.inj (Except.ok.inj (hm.symm.trans hm'))
    -- the revision has been counted up, and not all the way round
    have hk := hosted_of_blocks hrun hit
    obtain ⟨it₀, hit₀, hrec⟩ := run_recorded hrun hk
    obtain ⟨it₁, hit₁, hrec'⟩ := run_recorded (hrun.append hgo) hk
    obtain rfl := Option.some.inj (hit.symm.trans hit₀)
    obtain rfl := Option.some.inj (hit'.symm.trans hit₁)
    obtain ⟨e, he, hreq, -⟩ := pending_requests hrun hstuck.pending
    have hid : b.id = p.call.id := by
      rw [hreq, Message.deref_emitBlock] at hm
      rw [← (Prod.mk.inj (Except.ok.inj hm)).1]
      exact run_named hrun hno₀ c _ e he
    have hsame := hrev'.trans hrev.symm
    rw [hrec.revision, hrec'.revision, version_eq hrun hk, version_eq (hrun.append hgo) hk,
      acceptedWrites, acceptedWrites, List.countP_append] at hsame
    rw [hid] at hsame
    exact WrapCounter.ofNat_add_ne _ hpos hbound hsame

/-- The second client fills its memory and writes block 7. -/
def thenWrite : List (Action Bool) :=
  [.poke true 7 (Data.memset 65), .call true (.write 7), .serve true]

theorem wait_wakes_thenWrite :
    ∃ tr s tr' s' p, SysRun twoClients tr s ∧ Stuck s false p ∧
      Run (Step twoClients) s tr' s' ∧ acceptedWrites 7 tr' = 1 ∧
      (Finishes twoClients s' false p ↔ 0 < acceptedWrites p.call.id tr') := by
  obtain ⟨tr, s, p, hexec, hrun, hno, hstuck, hcall⟩ := mapAndWait_stuck
  obtain ⟨q, hq, hfacts⟩ := Option.map_eq_some_iff.mp (show
    ((exec (next twoClients) twoClients.start mapAndWait).bind fun x =>
      (exec (next twoClients) x.2 thenWrite).map fun q => (x.2, q)).map
      (fun q => (decide (NoTimeout q.2.1), acceptedWrites 7 q.2.1,
        (q.2.2.link false).pending == (q.1.link false).pending)) = some (true, 1, true) by
      decide +kernel)
  rw [hexec] at hq
  obtain ⟨q', hq', rfl⟩ := Option.map_eq_some_iff.mp hq
  obtain ⟨hno', hfacts⟩ := Prod.mk.inj hfacts
  obtain ⟨hwrites, hsame⟩ := Prod.mk.inj hfacts
  have hgo := run_of_exec _ (DmSystem.next_sound _) thenWrite _ hq'
  have hp : (q'.2.link false).pending = some p := (eq_of_beq hsame).trans hstuck.pending
  refine ⟨tr, s, q'.1, q'.2, p, hrun, hstuck, hgo, hwrites, ?_⟩
  exact wait_wakes hrun hstuck hgo (noTimeout_append hno (of_decide_eq_true hno')) hp
    (by rw [show p.call.id = 7 by rw [hcall]; rfl, hwrites]; decide)

/-! ## Refused writes -/

/-- The server has accepted a write of another client to block `k` since it served the last
    call on the block with which client `c` synchronised. -/
def Overtaken (tr : Trace ι) (c : ι) (k : Int32) : Prop :=
  ∃ (i j j' : Nat) (t served other : Entry (System ι) (Event ι)) (p : Pending) (reply : Node),
    tr[i]? = some t ∧ completed c k t = some (p, reply) ∧ syncs p.call = true ∧
      (∀ (i' : Nat) (t' : Entry (System ι) (Event ι)) (p' : Pending) (reply' : Node), i < i' →
        tr[i']? = some t' → completed c k t' = some (p', reply') → syncs p'.call = false) ∧
      tr[j]? = some served ∧ served.event = .critical c p.tag p.req (some reply) ∧
      j < j' ∧ tr[j']? = some other ∧ acceptsWrite k other = true ∧ other.event.party ≠ c

omit [DecidableEq ι] in
/-- What the event of a completed call is. -/
theorem completed_event {c : ι} {k : Int32} {t : Entry (System ι) (Event ι)} {p : Pending}
    {reply : Node} [DecidableEq ι] (h : completed c k t = some (p, reply)) :
    p.call.id = k ∧ ∃ tag, t.event = .received c p tag reply (some 0) := by
  rw [completed] at h
  split at h
  · rename_i u p' tag reply' code hev
    by_cases hall : u = c ∧ p'.call.id = k ∧ code = 0
    · rw [if_pos hall] at h
      obtain ⟨rfl, rfl⟩ := Prod.mk.inj (Option.some.inj h)
      obtain ⟨rfl, hid, rfl⟩ := hall
      exact ⟨hid, tag, hev⟩
    · rw [if_neg hall] at h
      cases h
  · cases h

/-- Between two moments at which a block has different revisions a write was accepted. -/
theorem accepted_between {D : Deployment ι} {tr : Trace ι} {s : System ι} (hrun : SysRun D tr s)
    {k : Int32} {j : Nat} {t : Entry (System ι) (Event ι)} (hj : tr[j]? = some t)
    {it it' : BlockServer} (hit : t.post.host.server.blocks k = some it)
    (hit' : s.host.server.blocks k = some it') (hne : it.revision ≠ it'.revision) :
    ∃ j' t', j < j' ∧ tr[j']? = some t' ∧ acceptsWrite k t' = true := by
  have hpost : SysRun D (tr.take (j + 1)) t.post := by
    rw [List.take_add_one, hj]
    exact (hrun.take hj).snoc (hrun.step_of_mem (List.mem_of_getElem? hj))
  have hk := hosted_of_blocks hrun hit'
  obtain ⟨it₀, hit₀, hrec⟩ := run_recorded hpost hk
  obtain ⟨it₁, hit₁, hrec'⟩ := run_recorded hrun hk
  obtain rfl := Option.some.inj (hit.symm.trans hit₀)
  obtain rfl := Option.some.inj (hit'.symm.trans hit₁)
  rw [hrec.revision, hrec'.revision, version_eq hpost hk, version_eq hrun hk] at hne
  -- the two counts differ in what comes after step `j`
  have hcount : acceptedWrites k tr
      = acceptedWrites k (tr.take (j + 1)) + (tr.drop (j + 1)).countP (acceptsWrite k) := by
    rw [acceptedWrites, acceptedWrites, ← List.countP_append, List.take_append_drop]
  have hpos : 0 < (tr.drop (j + 1)).countP (acceptsWrite k) := by
    refine Nat.pos_of_ne_zero fun hzero => hne ?_
    rw [hcount, hzero]
    rfl
  obtain ⟨t', ht', hacc⟩ := List.countP_pos_iff.mp hpos
  obtain ⟨n, hn⟩ := List.getElem?_of_mem ht'
  rw [List.getElem?_drop] at hn
  exact ⟨j + 1 + n, t', by omega, hn, hacc⟩

/-- A write of an idle client that was accepted has been read as an ACK. -/
theorem accepted_completed {D : Deployment ι} {tr : Trace ι} {s : System ι} (hrun : SysRun D tr s)
    (hno : NoTimeout tr) {c : ι} (hidle : (s.link c).pending = none) {k : Int32}
    (hk : k ∈ D.blocksId) {j : Nat} {t : Entry (System ι) (Event ι)} (hj : tr[j]? = some t)
    (hacc : acceptsWrite k t = true) (hparty : t.event.party = c) :
    ∃ i t' p reply, j < i ∧ tr[i]? = some t' ∧ completed c k t' = some (p, reply) ∧
      p.call = .write k ∧ (t.pre.link c).pending = some p := by
  have hpre := hrun.take hj
  have hno' := noTimeout_take hno j
  obtain ⟨u, tag, req, ack, b, m, hev, hm, htype, hacktype, hname⟩ := acceptsWrite_cases hacc
  have hs := hrun.step_of_mem (List.mem_of_getElem? hj)
  rw [hev] at hs hparty
  obtain rfl : u = c := hparty
  obtain ⟨p, hp, rfl, rfl, -⟩ := critical_pending hpre hno' hs
  obtain ⟨e, he, hemit, -⟩ := pending_requests hpre hp
  rw [hemit, Message.type_emitBlock] at htype
  rw [hemit, Message.deref_emitBlock] at hm
  obtain ⟨rfl, -⟩ := Prod.mk.inj (Except.ok.inj hm)
  rw [Message.decoded_id, BlockLocal.toBlock_id, run_named hpre hno' u _ e he] at hname
  obtain ⟨id, hcall⟩ := Call.eq_write htype
  obtain rfl : id = k := by rw [← hname, hcall]; rfl
  have hbusy : (t.post.link u).pending = some p := by
    obtain ⟨-, -, -, hlink, -⟩ := critical_queue hs
    rw [hlink]
    exact hp
  rcases returns hrun hj hbusy with hstill | ⟨i, t', hji, hi, ⟨tag, reply, code, hev'⟩ | hgave⟩
  · cases hidle.symm.trans hstill
  · obtain ⟨-, served, -, serving, -, -, -, -, hserved, hcritical, -, hcode⟩ :=
      write_ends hrun hno hk hi hev' hcall
    -- the reply it read is the one made in step `j`
    obtain rfl : served = j := answered_once hrun hserved hj hcritical hev
    obtain rfl : serving = t := Option.some.inj (hserved.symm.trans hj)
    obtain ⟨-, -, -, hreply⟩ := Event.critical.inj (hcritical.symm.trans hev)
    rcases hcode with ⟨rfl, rfl⟩ | ⟨rfl, -⟩
    · refine ⟨i, t', p, emit .ack, hji, hi, ?_, hcall, hp⟩
      rw [completed, hev']
      exact if_pos ⟨rfl, hname, rfl⟩
    · rw [← Option.some.inj hreply, Message.type_emit] at hacktype
      cases hacktype
  · exact absurd hgave (hno t' (List.mem_of_getElem? hi) u p)

/-- **Who is behind has been overtaken.** -/
theorem overtaken_of_behind {D : Deployment ι} {tr : Trace ι} {s : System ι}
    (hids : Function.Injective D.clientId) (hrun : SysRun D tr s) (hno : NoTimeout tr)
    {k : Int32} (hbound : (history k tr).version < 0x80000000) {c : ι}
    (hidle : (s.link c).pending = none) (halive : (s.link c).dead = false) {e : BlockLocal}
    {it : BlockServer} (he : (s.link c).client.blocks k = some e)
    (hit : s.host.server.blocks k = some it) (hne : e.revision ≠ it.revision) :
    Overtaken tr c k := by
  have hk := hosted_of_blocks hrun hit
  obtain ⟨i, j, t, served, p, reply, it', hji, hi, hdone, hsync, hj, hserving, hit', hrev, hlast⟩ :=
    run_knows hids hrun hno hk hbound c e he halive (fun q hq => by cases hidle.symm.trans hq)
  obtain ⟨j', other, hlt, hj', hacc⟩ :=
    accepted_between hrun hj hit' hit (by rw [hrev]; exact hne)
  refine ⟨i, j, j', t, served, other, p, reply, hi, hdone, hsync, hlast, hj, hserving, hlt, hj',
    hacc, fun hparty => ?_⟩
  -- a write of its own would be a later synchronisation
  obtain ⟨i', t', p', reply', hji', hi', hdone', hwrite, hp'⟩ :=
    accepted_completed hrun hno hidle hk hj' hacc hparty
  have hle : i' ≤ i := by
    refine Nat.le_of_not_lt fun hlate => ?_
    have hnot := hlast i' t' p' reply' hlate hi' hdone'
    rw [hwrite] at hnot
    cases hnot
  obtain ⟨-, tag, hev⟩ := completed_event hdone
  -- the call of the last synchronisation is in progress from its service to its receipt
  have hserve := hrun.step_of_mem (List.mem_of_getElem? hj)
  rw [hserving] at hserve
  obtain ⟨p₀, hp₀, htag, -, -⟩ := critical_pending (hrun.take hj) (noTimeout_take hno j) hserve
  have hbusy : (served.post.link c).pending = some p₀ := by
    obtain ⟨-, -, -, hlink, -⟩ := critical_queue hserve
    rw [hlink]
    exact hp₀
  have hjtake : (tr.take j')[j]? = some served := by
    rw [List.getElem?_take_of_lt hlt]
    exact hj
  rcases returns (hrun.take hj') hjtake hbusy with
    hstill | ⟨n, tn, -, hn, ⟨tag', reply₀, code₀, hev₀⟩ | hgave⟩
  · -- still in that call: its request would be answered twice
    obtain rfl := Option.some.inj (hp'.symm.trans hstill)
    obtain ⟨u, tag', req, ack, b, m, hacev, -⟩ := acceptsWrite_cases hacc
    have hs' := hrun.step_of_mem (List.mem_of_getElem? hj')
    rw [hacev] at hs' hparty
    obtain rfl : u = c := hparty
    obtain ⟨q, hq, rfl, -, -⟩ := critical_pending (hrun.take hj') (noTimeout_take hno j') hs'
    obtain rfl := Option.some.inj (hstill.symm.trans hq)
    rw [htag] at hacev
    exact absurd (answered_once hrun hj hj' hserving hacev) (Nat.ne_of_lt hlt)
  · -- it returned before: its reply would be read twice
    obtain ⟨hnlt, hn⟩ := getElem?_of_take hn
    have hread := hrun.step_of_mem (List.mem_of_getElem? hi)
    have hread' := hrun.step_of_mem (List.mem_of_getElem? hn)
    rw [hev] at hread
    rw [hev₀] at hread'
    have htag₁ := number_read (hrun.take hi) hread
    have htag₂ := number_read (hrun.take hn) hread'
    rw [timeouts_eq_zero (noTimeout_take hno i), Nat.add_zero] at htag₁
    rw [timeouts_eq_zero (noTimeout_take hno n), Nat.add_zero, htag] at htag₂
    rw [← htag₁] at hev
    rw [← htag₂] at hev₀
    have hsame := received_once hrun hi hn hev hev₀
    omega
  · obtain ⟨-, hn⟩ := getElem?_of_take hn
    exact absurd hgave (hno tn (List.mem_of_getElem? hn) c p₀)

/-- A refused write leaves its client idle, with an entry that is marked invalid. -/
theorem refused_invalid {D : Deployment ι} {tr : Trace ι} {s s' : System ι} {e : Event ι}
    {c : ι} {k : Int32} (hrun : SysRun D tr s) (hs : Step D s e s')
    (hret : Returns e c (.write k) (-5)) :
    (s'.link c).pending = none ∧ (s'.link c).dead = false ∧
      ∃ entry, (s'.link c).client.blocks k = some entry ∧ entry.valid = false := by
  rcases hret with rfl | ⟨p, tag, reply, hcall, rfl⟩
  · cases hs with
    | @returned _ _ _ client hidle halive hsend =>
        rw [System.setLink_self]
        refine ⟨hidle, halive, ?_⟩
        obtain rfl := (Client.send_returned hsend).2
        rw [Client.send, Client.dmBlockWriteSend, Client.openMapped] at hsend
        have hcode : ∀ n : Int, n ≠ -5 →
            Except.ok (Sending.returned n (s.link c).client)
              ≠ (.ok (.returned (-5) (s.link c).client) : Except Fault Sending) :=
          fun n hn heq => hn (Sending.returned.inj (Except.ok.inj heq)).1
        split at hsend
        · exact absurd hsend (hcode _ (by decide))
        · split at hsend
          · exact absurd hsend (hcode _ (by decide))
          · rename_i entry hentry
            split at hsend
            · cases hsend
            · split at hsend
              · refine ⟨entry, hentry, ?_⟩
                cases hv : entry.valid with
                | false => rfl
                | true =>
                    rw [hv] at hsend
                    cases hsend
              · exact absurd hsend (hcode _ (by decide))
  · obtain ⟨hp, rest, client, -, hrecv, rfl⟩ := received_inv hs
    obtain ⟨entry, hentry, -⟩ := pending_requests hrun hp
    rw [System.setLink_self]
    refine ⟨rfl, busy_alive hrun hp, ?_⟩
    rcases Client.receive_cases hentry hrecv with ⟨-, -, rfl⟩ | ⟨-, hcode, -⟩
    · refine ⟨entry.setValid false, ?_, rfl⟩
      show ((s.link c).client.setBlock p.call.id _).blocks k = _
      rw [hcall]
      exact Client.setBlock_same ..
    · cases hcode

/-- **A write is refused only in favour of another.** In every run with distinct connection
    ids, whenever `dm_block_write` returns `-5`, at once or after an exchange, the server has
    accepted another client's write to the block since it served the last call with which this
    client synchronised. -/
theorem refused_overtaken {D : Deployment ι} {tr : Trace ι} {s : System ι}
    (hids : Function.Injective D.clientId) (hrun : SysRun D tr s) (hno : NoTimeout tr)
    (hfew : FewWrites D tr) {k : Int32} (hk : k ∈ D.blocksId) {i : Nat}
    {t : Entry (System ι) (Event ι)} {c : ι} (hi : tr[i]? = some t)
    (hret : Returns t.event c (.write k) (-5)) : Overtaken (tr.take (i + 1)) c k := by
  have hs := hrun.step_of_mem (List.mem_of_getElem? hi)
  obtain ⟨hidle, halive, e, he, hv⟩ := refused_invalid (hrun.take hi) hs hret
  have hpost : SysRun D (tr.take (i + 1)) t.post := by
    rw [List.take_add_one, hi]
    exact (hrun.take hi).snoc hs
  obtain ⟨it, hit, -⟩ := run_recorded hpost hk
  have hfew' := hfew.take (i + 1)
  have hno' := noTimeout_take hno (i + 1)
  exact overtaken_of_behind hids hpost hno' (hfew'.version hpost hk) hidle halive he hit
    (invalid_behind hpost hno' hfew' he hit hv)

/-- Both clients map block 7 and write; the one that is refused tries again at once. -/
def refusedTwice : List (Action Bool) := twoWriters ++ [.call false (.write 7)]

theorem refused_overtaken_refusedTwice :
    ∃ tr s t, SysRun twoClients tr s ∧ tr[14]? = some t ∧
      t.event = .returned false (.write 7) (-5) ∧ Overtaken (tr.take 15) false 7 := by
  obtain ⟨q, hq, hfacts⟩ := Option.map_eq_some_iff.mp (show
    (exec (next twoClients) twoClients.start refusedTwice).map
      (fun q => (decide (NoTimeout q.1), decide (FewWrites twoClients q.1),
        q.1[14]?.map Entry.event)) = some (true, true, some (.returned false (.write 7) (-5))) by
      decide +kernel)
  obtain ⟨hno, hfacts⟩ := Prod.mk.inj hfacts
  obtain ⟨hfew, hevent⟩ := Prod.mk.inj hfacts
  obtain ⟨t, ht, hev⟩ := Option.map_eq_some_iff.mp hevent
  have hrun := run_of_exec _ (DmSystem.next_sound _) refusedTwice _ hq
  have hids : Function.Injective twoClients.clientId :=
    show ∀ ⦃c u⦄, twoClients.clientId c = twoClients.clientId u → c = u by decide
  exact ⟨q.1, q.2, t, hrun, ht, hev, refused_overtaken hids hrun (of_decide_eq_true hno)
    (of_decide_eq_true hfew) (by decide) ht (Or.inl hev)⟩

end DmProgress
