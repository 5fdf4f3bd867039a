import DistributedMemory.DmHostProofs

/-!
# Isolation — blocks do not interfere

All handlers share one mutex, one block table and one table of conditions, and an accepted
write assigns a whole block, id included. Still the server is no more than its blocks side
by side: what a request does and what it is answered depends on the block it names alone.

* **`effect`** — one block as an object of its own: what a request makes of it, and how
  the critical section ends. **`served_effect`** — the server, seen at the named block, is
  that object; **`served_frame`** — and at any other block it stands still.
* **`serve`** — requests handled one after the other, each to its reply.
* **`blocks_isolated`** — deleting all requests that name other blocks from a run changes
  neither the replies to the rest nor the block.
-/

namespace DmIsolation

open DmBlock DmMessage DmServer DmHost LabelledRun

variable {ι : Type} [DecidableEq ι]

/-! ## One block -/

/-- What a request with the block `b` makes of the block it names (`none`: not hosted), and
    how its critical section ends. -/
def effect (t : MessageType) (clientId : String) (b : BlockServer) (m : Message) :
    Option BlockServer → Option BlockServer × Outcome
  | none => (none, .send (emit (if t = .wait then .ack else .nack)))
  | some it =>
      match t with
      | .map =>
          if clientId ∈ it.mappedClients then (some it, .send (emit .nack))
          else
            (some { it with mappedClients := it.mappedClients ++ [clientId] },
              .send (emitBlock .ack it.toBlock false))
      | .unmap =>
          if clientId ∈ it.mappedClients then
            (some { it with mappedClients := it.mappedClients.erase clientId },
              .send (emit .ack))
          else (some it, .send (emit .nack))
      | .update =>
          (some it, .send (emitBlock .ack it.toBlock (decide ¬ b.revision < it.revision)))
      | .write =>
          if it.revision = b.revision then
            (some (it.assign b).addRevision, .send (emit .ack))
          else (some it, .send (emit .nack))
      | .wait =>
          if it.revision = b.revision then (some it, .wait b.id m)
          else (some it, .send (emit .ack))
      | _ => (some it, .send (emit .nack))

section

variable {s : Server} {clientId : String} {b : BlockServer} {m : Message} {t : MessageType}
  {sec : Section}

/-- Only requests are served. -/
theorem served_isRequest (h : Served s clientId b m t sec) : t.isRequest = true := by
  cases h with
  | unhosted ht _ => rcases ht with rfl | rfl | rfl <;> rfl
  | _ => rfl

/-- **At the block a request names, the server is that block.** -/
theorem served_effect (h : Served s clientId b m t sec) :
    effect t clientId b m (s.blocks b.id) = (sec.server.blocks b.id, sec.outcome) := by
  cases h with
  | unhosted ht hb =>
      rw [hb]
      rcases ht with rfl | rfl | rfl <;> rfl
  | mapped hit hnew =>
      rw [hit, Server.setBlock_same]
      exact if_neg hnew
  | mapRefused hit hold =>
      rw [hit]
      exact if_pos hold
  | unmapped hit hold =>
      rw [hit, Server.setBlock_same]
      exact if_pos hold
  | unmapRefused hit hnew =>
      rw [hit]
      exact if_neg hnew
  | entire hit hlt =>
      rw [hit, effect, decide_eq_false (not_not_intro hlt)]
  | shallow hit hnlt =>
      rw [hit, effect, decide_eq_true hnlt]
  | writeUnhosted hb =>
      rw [Server.condition_blocks, hb]
      rfl
  | accepted hit heq =>
      rw [Server.condition_blocks, Server.setBlock_same, hit]
      exact if_pos heq
  | writeRefused hit hne =>
      rw [Server.condition_blocks, hit]
      exact if_neg hne
  | waitUnhosted hb =>
      rw [hb]
      rfl
  | outdated hit hne =>
      rw [hit]
      exact if_neg hne
  | sleeps hit heq =>
      rw [Server.condition_blocks, hit]
      exact if_pos heq

/-- **No request touches a block it does not name.** -/
theorem served_frame (h : Served s clientId b m t sec) {k : Int32} (hk : k ≠ b.id) :
    sec.server.blocks k = s.blocks k := by
  -- the three ways that assign to a block assign to the named one
  cases h with
  | mapped _ _ => exact Server.setBlock_other _ _ hk
  | unmapped _ _ => exact Server.setBlock_other _ _ hk
  | accepted _ _ => exact Server.setBlock_other _ _ hk
  | unhosted _ _ => rfl
  | mapRefused _ _ => rfl
  | unmapRefused _ _ => rfl
  | entire _ _ => rfl
  | shallow _ _ => rfl
  | writeUnhosted _ => rfl
  | writeRefused _ _ => rfl
  | waitUnhosted _ => rfl
  | outdated _ _ => rfl
  | sleeps _ _ => rfl

/-- A section that ends in sleep leaves every block alone. -/
theorem served_sleep (h : Served s clientId b m t sec) (ho : answer sec = none) :
    sec.server.blocks = s.blocks := by
  cases hout : sec.outcome with
  | send ack =>
      rw [answer, hout] at ho
      cases ho
  | wait k msg =>
      obtain ⟨-, -, -, hsrv, -⟩ := h.of_wait hout
      rw [hsrv, Server.condition_blocks]

end

/-! ## Requests and replies -/

/-- The request names a block other than `k`. -/
def namesOther (k : Int32) (req : Node) : Bool :=
  match req.block with
  | none => false
  | some n => n.id ≠ k

/-- The requests answered in the run, by whom and with what, in the order of the
    replies. -/
def answered (tr : List (Entry (Host ι) (HostEvent ι))) : List ((ι × Node) × Node) :=
  tr.filterMap fun t =>
    match t.event with
    | .critical c _ req (some ack) => some ((c, req), ack)
    | _ => none

/-- The answered requests but those that name another block. -/
def concerning (k : Int32) (xs : List ((ι × Node) × Node)) : List ((ι × Node) × Node) :=
  xs.filter fun x => !namesOther k x.1.2

/-- One pass of the handler that ends in a reply. -/
def reply (s : Server) (clientId : String) (req : Node) : Option (Server × Node) :=
  match s.clientHandler clientId (Message.ofNode req) with
  | .ok sec => (answer sec).map fun ack => (sec.server, ack)
  | .error _ => none

/-- Requests handled one after the other, each to its reply. -/
def serve (clientId : ι → String) : Server → List (ι × Node) → Option (Server × List Node)
  | s, [] => some (s, [])
  | s, (c, req) :: rest =>
      match reply s (clientId c) req with
      | none => none
      | some (s', ack) => (serve clientId s' rest).map fun p => (p.1, ack :: p.2)

omit [DecidableEq ι] in
theorem answered_append (tr tr' : List (Entry (Host ι) (HostEvent ι))) :
    answered (tr ++ tr') = answered tr ++ answered tr' := List.filterMap_append ..

omit [DecidableEq ι] in
theorem concerning_append (k : Int32) (xs ys : List ((ι × Node) × Node)) :
    concerning k (xs ++ ys) = concerning k xs ++ concerning k ys := List.filter_append ..

omit [DecidableEq ι] in
/-- The first request is replied to, and the others are served after it. -/
theorem serve_cons {clientId : ι → String} {s s' : Server} {c : ι} {req : Node}
    {rest : List (ι × Node)} {acks : List Node}
    (h : serve clientId s ((c, req) :: rest) = some (s', acks)) :
    ∃ s₁ ack acks', reply s (clientId c) req = some (s₁, ack) ∧
      serve clientId s₁ rest = some (s', acks') ∧ acks = ack :: acks' := by
  rw [serve] at h
  cases hr : reply s (clientId c) req with
  | none =>
      rw [hr] at h
      exact nomatch h
  | some p =>
      simp only [hr] at h
      obtain ⟨q, hq, heq⟩ := Option.map_eq_some_iff.mp h
      obtain ⟨rfl, rfl⟩ := Prod.mk.inj heq
      exact ⟨p.1, p.2, q.2, rfl, hq, rfl⟩

omit [DecidableEq ι] in
/-- Two batches of requests in a row. -/
theorem serve_append {clientId : ι → String} {s s₁ s₂ : Server} {rs rs' : List (ι × Node)}
    {acks acks' : List Node} (h : serve clientId s rs = some (s₁, acks))
    (h' : serve clientId s₁ rs' = some (s₂, acks')) :
    serve clientId s (rs ++ rs') = some (s₂, acks ++ acks') := by
  induction rs generalizing s acks with
  | nil =>
      obtain ⟨rfl, rfl⟩ := Prod.mk.inj (Option.some.inj h)
      exact h'
  | cons r rest ih =>
      obtain ⟨c, req⟩ := r
      obtain ⟨s', ack, acks, hr, hrest, rfl⟩ := serve_cons h
      rw [List.cons_append, serve, hr]
      simp only [ih hrest]
      rfl

omit [DecidableEq ι] in
/-- The block named by the message a request is. -/
theorem names_of_deref {k : Int32} {req : Node} {b : BlockServer} {m : Message}
    (hm : (Message.ofNode req).deref = .ok (b, m)) : namesOther k req = true ↔ b.id ≠ k := by
  obtain ⟨n, hn, -, hid, -⟩ := Message.block_of_deref hm
  rw [namesOther, hn, hid]
  exact decide_eq_true_iff

/-- **The reply at a block that is the same is the same**: whatever the other blocks are,
    the request gets its reply, and the block ends up as it does here. -/
theorem reply_congr {s s' : Server} {clientId : String} {req ack : Node} {k : Int32}
    {sec : Section} {b : BlockServer} {m : Message} (hsame : s'.blocks k = s.blocks k)
    (hm : (Message.ofNode req).deref = .ok (b, m)) (hk : b.id = k)
    (hserved : Served s clientId b m (Message.ofNode req).type sec)
    (hans : answer sec = some ack) :
    ∃ s'', reply s' clientId req = some (s'', ack) ∧ s''.blocks k = sec.server.blocks k := by
  subst hk
  obtain ⟨sec', hsec', hserved'⟩ :=
    Server.clientHandler_served s' clientId (served_isRequest hserved) hm
  have heq := served_effect hserved'
  rw [hsame, served_effect hserved] at heq
  obtain ⟨hblock, hout⟩ := Prod.mk.inj heq
  have hans' : answer sec' = some ack := by
    rw [answer, ← hout]
    exact hans
  refine ⟨sec'.server, ?_, hblock.symm⟩
  rw [reply, hsec']
  simp only [hans', Option.map_some]

/-- A message that is no request gets the same reply from every server. -/
theorem reply_unknown (s : Server) (clientId : String) {req : Node}
    (ht : (Message.ofNode req).type.isRequest = false) :
    reply s clientId req = some (s, emit .nack) := by
  rw [reply, Server.clientHandler_unknown ht]
  rfl

/-! ## Runs -/

/-- What the replies of the run make of another server, which gets only the requests that do
    not name another block than `k`. -/
structure Projects (clientId : ι → String) (k : Int32) (s : Server)
    (tr : List (Entry (Host ι) (HostEvent ι))) (h : Host ι) (s' : Server) : Prop where
  serves : serve clientId s ((concerning k (answered tr)).map Prod.fst) =
    some (s', (concerning k (answered tr)).map Prod.snd)
  block : s'.blocks k = h.server.blocks k

/-- **One step, seen from block `k`**: nothing, or the same reply and the same effect as on
    any server that has the block in the same state. -/
theorem step_projects {clientId : ι → String} {h h' : Host ι} {e : HostEvent ι} {k : Int32}
    {s : Server} (hset : Settled h) (hs : Step clientId h e h')
    (hsame : s.blocks k = h.server.blocks k) :
    ∃ s', Projects clientId k s [⟨h, e, h'⟩] h' s' := by
  cases e with
  | woken c => exact ⟨s, rfl, by rw [server_woken hs, hsame]⟩
  | critical c tag req ans =>
      obtain ⟨sec, rfl, rfl, hcase⟩ := critical_cases hset hs
      cases hans : answer sec with
      | none =>
          refine ⟨s, rfl, ?_⟩
          rcases hcase with ⟨-, rfl⟩ | ⟨b, m, -, hserved⟩
          · exact hsame
          · rw [Host.leave_server, served_sleep hserved hans, hsame]
      | some ack =>
          cases hnames : namesOther k req with
          | true =>
              refine ⟨s, ?_, ?_⟩
              · simp [answered, concerning, hnames, serve]
              · rcases hcase with ⟨-, rfl⟩ | ⟨b, m, hm, hserved⟩
                · exact hsame
                · have hk := (names_of_deref hm).mp hnames
                  rw [Host.leave_server, served_frame hserved hk.symm, hsame]
          | false =>
              have hreply : ∃ s', reply s (clientId c) req = some (s', ack) ∧
                  s'.blocks k = (h.leave c tag sec).server.blocks k := by
                rcases hcase with ⟨hnot, rfl⟩ | ⟨b, m, hm, hserved⟩
                · refine ⟨s, ?_, hsame⟩
                  rw [reply_unknown s _ hnot, ← Option.some.inj hans]
                · have hk : b.id = k := by
                    by_contra hne
                    rw [(names_of_deref hm).mpr hne] at hnames
                    cases hnames
                  exact reply_congr hsame hm hk hserved hans
              obtain ⟨s', hr, hblock⟩ := hreply
              refine ⟨s', ?_, hblock⟩
              simp [answered, concerning, hnames, serve, hr]

/-- **Every run, seen from block `k`.** -/
theorem run_projects {clientId : ι → String} {h₀ h : Host ι} {k : Int32} {s : Server}
    {tr : List (Entry (Host ι) (HostEvent ι))} (hset : Settled h₀)
    (hrun : Run (Step clientId) h₀ tr h) (hsame : s.blocks k = h₀.server.blocks k) :
    ∃ s', Projects clientId k s tr h s' := by
  induction hrun with
  | nil => exact ⟨s, rfl, hsame⟩
  | @snoc tr h h' e hpre hs ih =>
      obtain ⟨s₁, hserves, hblock⟩ := ih
      have hset' := hpre.invariant hset (fun _ _ _ hi hst => step_settled hi hst)
      obtain ⟨s₂, hlast, hblock'⟩ := step_projects hset' hs hblock
      refine ⟨s₂, ?_, hblock'⟩
      rw [answered_append, concerning_append, List.map_append, List.map_append]
      exact serve_append hserves hlast

/-- The server with all its threads back at their sockets. -/
def awaiting (s : Server) : Host ι := ⟨s, fun _ => .reading⟩

omit [DecidableEq ι] in
/-- Whatever its block table is, its condition variables are in order. -/
theorem awaiting_settled (s : Server) : Settled (awaiting (ι := ι) s) where
  asleep := fun _ _ _ _ hth => nomatch hth
  awake := fun _ _ _ _ hth => nomatch hth

/-- A request with its reply is a step: nobody sleeps, so a broadcast wakes nobody. -/
theorem step_of_reply {clientId : ι → String} {s s' : Server} {c : ι} {req ack : Node}
    (h : reply s (clientId c) req = some (s', ack)) :
    Step clientId (awaiting s) (.critical c 0 req (some ack)) (awaiting s') := by
  rw [reply] at h
  cases hsec : s.clientHandler (clientId c) (Message.ofNode req) with
  | error f =>
      rw [hsec] at h
      exact nomatch h
  | ok sec =>
      simp only [hsec] at h
      obtain ⟨ack', hack, heq⟩ := Option.map_eq_some_iff.mp h
      obtain ⟨rfl, rfl⟩ := Prod.mk.inj heq
      have hstep : Step clientId (awaiting s) (.critical c 0 req (answer sec))
          ((awaiting s).leave c 0 sec) := Step.first rfl hsec
      have hleave : (awaiting s).leave c 0 sec = awaiting sec.server := by
        rw [Host.leave, after, outcome_of_answer hack.symm]
        refine congrArg (Host.mk sec.server) (funext fun u => ?_)
        by_cases hu : u = c
        · rw [hu, Function.update_self]
        · rw [Function.update_of_ne hu]
          rfl
      rwa [hleave, hack] at hstep

/-- Requests handled one after the other are a run. -/
theorem run_of_serve {clientId : ι → String} {s s' : Server} {rs : List (ι × Node)}
    {acks : List Node} (h : serve clientId s rs = some (s', acks)) :
    ∃ tr, Run (Step clientId) (awaiting s) tr (awaiting s') ∧ answered tr = rs.zip acks := by
  induction rs generalizing s acks with
  | nil =>
      obtain ⟨rfl, rfl⟩ := Prod.mk.inj (Option.some.inj h)
      exact ⟨[], Run.nil, rfl⟩
  | cons r rest ih =>
      obtain ⟨c, req⟩ := r
      obtain ⟨s₁, ack, acks, hr, hrest, rfl⟩ := serve_cons h
      obtain ⟨tr, hrun, hans⟩ := ih hrest
      have hstep := step_of_reply hr
      refine ⟨[⟨awaiting s, _, awaiting s₁⟩] ++ tr, (Run.nil.snoc hstep).append hrun, ?_⟩
      rw [answered_append, hans]
      rfl

/-- Block `k` through a run from `h₀` to `h`: the run with all requests that name other
    blocks deleted is possible, and every run of these requests, from a state that has the
    block as `h₀` has it, gets the same replies and leaves the block as `h` has it. -/
structure Isolated (clientId : ι → String) (k : Int32) (h₀ : Host ι)
    (tr : List (Entry (Host ι) (HostEvent ι))) (h : Host ι) : Prop where
  possible : ∃ tr' h', Run (Step clientId) (awaiting h₀.server) tr' h' ∧
    (answered tr').map Prod.fst = (concerning k (answered tr)).map Prod.fst
  same : ∀ h₀' tr' h', Settled h₀' → h₀'.server.blocks k = h₀.server.blocks k →
    Run (Step clientId) h₀' tr' h' →
    (answered tr').map Prod.fst = (concerning k (answered tr)).map Prod.fst →
    answered tr' = concerning k (answered tr) ∧
      h'.server.blocks k = h.server.blocks k

/-- **Blocks do not interfere**, from every state in which the condition variables are in
    order: all reachable ones, and any block table whatever while no thread waits
    (`awaiting_settled`). -/
theorem blocks_isolated {clientId : ι → String} {h₀ h : Host ι}
    {tr : List (Entry (Host ι) (HostEvent ι))} (hset : Settled h₀)
    (hrun : Run (Step clientId) h₀ tr h) (k : Int32) : Isolated clientId k h₀ tr h := by
  obtain ⟨s, hserves, hblock⟩ := run_projects (k := k) (s := h₀.server) hset hrun rfl
  constructor
  · obtain ⟨tr', hrun', hans⟩ := run_of_serve hserves
    refine ⟨tr', _, hrun', ?_⟩
    rw [hans, List.map_fst_zip (by simp)]
  · intro h₀' tr' h' hset' hsame hrun' hreqs
    obtain ⟨s', hserves', hblock'⟩ := run_projects (k := k) hset' hrun' hsame.symm
    -- the other run has only requests that name no other block
    have hall : concerning k (answered tr') = answered tr' := by
      refine List.filter_eq_self.mpr fun x hx => ?_
      have hin : x.1 ∈ (concerning k (answered tr)).map Prod.fst := by
        rw [← hreqs]
        exact List.mem_map_of_mem hx
      obtain ⟨y, hy, heq⟩ := List.mem_map.mp hin
      rw [← heq]
      exact (List.mem_filter.mp hy).2
    rw [hall, hreqs, hserves] at hserves'
    obtain ⟨rfl, hacks⟩ := Prod.mk.inj (Option.some.inj hserves')
    refine ⟨?_, hblock'.symm.trans hblock⟩
    rw [List.zip_of_prod hreqs hacks.symm, ← List.zip_of_prod rfl rfl]

/-- Two clients on two blocks: the first maps block 7 and waits for it, the second writes
    block 8 and then 7, and the first gets its answer. -/
def twoBlocks : List (HostAction Bool) :=
  [.request false (emitBlock .map ⟨7, 0, none⟩ true),
   .request true (emitBlock .write ⟨8, 0, some (Data.memset 66)⟩ false),
   .request false (emitBlock .wait ⟨7, 0, none⟩ true),
   .request true (emitBlock .write ⟨7, 0, some (Data.memset 65)⟩ false),
   .retry false]

theorem blocks_isolated_twoBlocks :
    ∃ tr h, Run (Step fun c : Bool => if c then "10.0.0.2:1" else "10.0.0.1:1")
        (Host.start [7, 8]) tr h ∧ tr.length = 5 ∧
      Isolated (fun c : Bool => if c then "10.0.0.2:1" else "10.0.0.1:1") 7
        (Host.start [7, 8]) tr h := by
  obtain ⟨p, hp⟩ := Option.isSome_iff_exists.mp (show (exec
    (next fun c : Bool => if c then "10.0.0.2:1" else "10.0.0.1:1")
    (Host.start [7, 8]) twoBlocks).isSome = true by decide +kernel)
  have hrun := run_of_exec _ (DmHost.next_sound _) twoBlocks _ hp
  refine ⟨p.1, p.2, hrun, ?_, blocks_isolated (awaiting_settled (Server.create [7, 8])) hrun 7⟩
  have hlen : (exec (next fun c : Bool => if c then "10.0.0.2:1" else "10.0.0.1:1")
    (Host.start [7, 8]) twoBlocks).map (fun q => q.1.length) = some 5 := by
    decide +kernel
  rw [hp] at hlen
  exact Option.some.inj hlen

end DmIsolation
