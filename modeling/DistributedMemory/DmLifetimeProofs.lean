import DistributedMemory.DmIsolationProofs
import DistributedMemory.DmLedgerProofs

/-!
# Lifetimes — mappings and the connections they were made on

A block stores the id of every client that mapped it, and the id is made of the peer's
address, `ip:port`. The handler of a connection ends when it reads an empty message, when a
receive throws or when a send does; on none of the three ways does it look at the block
table. An id comes off the list by an UNMAP alone, and a new connection from the same
address has the same id.

* **`Step`** — the server with its connections coming and going.
* **`run_listed`** — an id is on a block's list exactly if the last acknowledged MAP or
  UNMAP of the block under that id was a MAP, whatever became of the connection.
* **`Tidy`** — the runs in which every connection unmaps what it mapped before it ends;
  **`lifetimes`** — in these no mapping outlives its connection.
-/

namespace DmLifetime

open DmBlock DmMessage DmServer DmHost DmIsolation LabelledRun

variable {ι : Type} [DecidableEq ι]

/-! ## Connections that come and go -/

/-- Where a connection is: not accepted yet, served by its handler, or over. -/
inductive Phase where
  | pending
  | running
  | ended
  deriving DecidableEq

/-- The server, its handler threads, and how far each connection is. -/
structure Lobby (ι : Type) where
  host : Host ι
  phase : ι → Phase

/-- What a step shows. -/
inductive LobbyEvent (ι : Type) where
  /-- A new connection was accepted and got its thread. -/
  | accepted (c : ι)
  /-- A step of a handler thread inside the loop. -/
  | handled (e : HostEvent ι)
  /-- The thread left the loop and deleted its socket. -/
  | ended (c : ι)
  deriving DecidableEq

/-- Whose thread takes the step. -/
def party : HostEvent ι → ι
  | .critical c _ _ _ => c
  | .woken c => c

/-- The history of a run of the server. -/
abbrev Visits (ι : Type) := List (Entry (Lobby ι) (LobbyEvent ι))

/-- Freshly started: no connection yet. -/
def Lobby.start (blocksId : List Int32) : Lobby ι := ⟨Host.start blocksId, fun _ => .pending⟩

/-- Connection `c` set to `p`. -/
def Lobby.setPhase (s : Lobby ι) (c : ι) (p : Phase) : Lobby ι :=
  { s with phase := Function.update s.phase c p }

theorem Lobby.setPhase_other (s : Lobby ι) {c u : ι} (p : Phase) (hu : u ≠ c) :
    (s.setPhase c p).phase u = s.phase u := by
  simp [setPhase, hu]

/-- One step. A thread leaves the loop at the socket, where it reads its next message or
    sends its last reply; what it leaves behind is the block table as it is. -/
inductive Step (clientId : ι → String) : Lobby ι → LobbyEvent ι → Lobby ι → Prop where
  | accepted {s : Lobby ι} {c : ι} (hnew : s.phase c = .pending) :
      Step clientId s (.accepted c) (s.setPhase c .running)
  | handled {s : Lobby ι} {e : HostEvent ι} {host : Host ι}
      (hrun : s.phase (party e) = .running) (hhost : DmHost.Step clientId s.host e host) :
      Step clientId s (.handled e) { s with host := host }
  | ended {s : Lobby ι} {c : ι} (hrun : s.phase c = .running)
      (hread : s.host.thread c = .reading) :
      Step clientId s (.ended c) (s.setPhase c .ended)

/-- A step inside the loop is a step of a running thread. -/
theorem handled_inv {clientId : ι → String} {s s' : Lobby ι} {e : HostEvent ι}
    (hs : Step clientId s (.handled e) s') :
    s.phase (party e) = .running ∧ DmHost.Step clientId s.host e s'.host := by
  cases hs with
  | handled hparty hhost => exact ⟨hparty, hhost⟩

/-- **Connections come and go around the threads**: what happens inside the loops is a run
    of the server without them. -/
theorem run_host {clientId : ι → String} {blocksId : List Int32} {tr : Visits ι}
    {s : Lobby ι} (hrun : Run (Step clientId) (Lobby.start blocksId) tr s) :
    ∃ tr', Run (DmHost.Step clientId) (Host.start blocksId) tr' s.host := by
  refine hrun.project (f := Lobby.host) fun s e s' hs => ?_
  cases hs with
  | accepted _ => exact Or.inl rfl
  | handled _ hhost => exact Or.inr ⟨_, hhost⟩
  | ended _ _ => exact Or.inl rfl

/-- The condition variables are in order in every reachable state. -/
theorem run_settled {clientId : ι → String} {blocksId : List Int32} {tr : Visits ι}
    {s : Lobby ι} (hrun : Run (Step clientId) (Lobby.start blocksId) tr s) :
    Settled s.host := by
  obtain ⟨tr', hrun'⟩ := run_host hrun
  exact DmHost.run_settled hrun'

/-! ## Who mapped what, read off the history -/

/-- The step acknowledges a MAP (`true`) or an UNMAP (`false`) of block `k`, and on which
    connection. -/
def remapOf (k : Int32) : LobbyEvent ι → Option (ι × Bool)
  | .handled (.critical c _ req (some ack)) =>
      match (Message.ofNode req).deref with
      | .ok (b, _) =>
          if b.id = k ∧ (Message.ofNode ack).type = .ack then
            match (Message.ofNode req).type with
            | .map => some (c, true)
            | .unmap => some (c, false)
            | _ => none
          else none
      | .error _ => none
  | _ => none

/-- What an acknowledged MAP or UNMAP makes of the holder of an id. -/
def held (clientId : ι → String) (id : String) (o : Option ι) : Option (ι × Bool) → Option ι
  | some (c, v) => if clientId c = id then (if v then some c else none) else o
  | none => o

/-- The connection that holds block `k` under `id`: the one of the last acknowledged MAP or
    UNMAP of the block under that id, if it was a MAP. -/
def holder (clientId : ι → String) (k : Int32) (id : String) (tr : Visits ι) : Option ι :=
  tr.foldl (fun o t => held clientId id o (remapOf k t.event)) none

omit [DecidableEq ι] in
theorem holder_snoc (clientId : ι → String) (k : Int32) (id : String) (tr : Visits ι)
    (t : Entry (Lobby ι) (LobbyEvent ι)) :
    holder clientId k id (tr ++ [t])
      = held clientId id (holder clientId k id tr) (remapOf k t.event) := by
  rw [holder, List.foldl_append]
  rfl

omit [DecidableEq ι] in
/-- The holder after a step is the connection whose MAP it acknowledges, or was the holder
    before. -/
theorem held_cases {clientId : ι → String} {id : String} {o : Option ι}
    {r : Option (ι × Bool)} {c : ι} (h : held clientId id o r = some c) :
    (r = some (c, true) ∧ clientId c = id) ∨ o = some c := by
  cases r with
  | none => exact Or.inr h
  | some p =>
      obtain ⟨u, v⟩ := p
      rw [held] at h
      by_cases hu : clientId u = id
      · rw [if_pos hu] at h
        cases v with
        | false => exact nomatch h
        | true =>
            obtain rfl := Option.some.inj h
            exact Or.inl ⟨rfl, hu⟩
      · rw [if_neg hu] at h
        exact Or.inr h

omit [DecidableEq ι] in
/-- Whoever holds under an id has that id. -/
theorem holder_id {clientId : ι → String} {k : Int32} {id : String} {tr : Visits ι} {c : ι}
    (h : holder clientId k id tr = some c) : clientId c = id := by
  induction tr using List.reverseRecOn with
  | nil => exact nomatch h
  | append_singleton tr t ih =>
      rw [holder_snoc] at h
      rcases held_cases h with ⟨-, hid⟩ | hold
      · exact hid
      · exact ih hold

omit [DecidableEq ι] in
/-- A holder mapped the block. -/
theorem mapped_of_holder {clientId : ι → String} {k : Int32} {id : String} {tr : Visits ι}
    {c : ι} (h : holder clientId k id tr = some c) :
    ∃ t ∈ tr, remapOf k t.event = some (c, true) := by
  induction tr using List.reverseRecOn with
  | nil => exact nomatch h
  | append_singleton tr t ih =>
      rw [holder_snoc] at h
      rcases held_cases h with ⟨hremap, -⟩ | hold
      · exact ⟨t, List.mem_append_right _ (List.mem_singleton_self t), hremap⟩
      · obtain ⟨t', ht', hremap⟩ := ih hold
        exact ⟨t', List.mem_append_left _ ht', hremap⟩

omit [DecidableEq ι] in
/-- A section on a request that is no MAP or UNMAP of block `k` is no remap of it. -/
theorem remapOf_none {k : Int32} {c : ι} {tag : Nat} {req : Node} {ans : Option Node}
    (h : ∀ b m, (Message.ofNode req).deref = .ok (b, m) →
      ¬ Remaps (Message.ofNode req).type b k) :
    remapOf k (.handled (.critical c tag req ans) : LobbyEvent ι) = none := by
  cases ans with
  | none => rfl
  | some ack =>
      rw [remapOf]
      cases hm : (Message.ofNode req).deref with
      | error f => rfl
      | ok p =>
          have hno := h p.1 p.2 hm
          dsimp only
          split
          · rename_i hif
            split
            · exact absurd ⟨hif.1, Or.inl ‹_›⟩ hno
            · exact absurd ⟨hif.1, Or.inr ‹_›⟩ hno
            · rfl
          · rfl

/-- The ids on a block's list are the ones that somebody holds the block under. -/
def Listed (it : BlockServer) (o : String → Option ι) : Prop :=
  it.mappedClients.Nodup ∧ ∀ id, id ∈ it.mappedClients ↔ ∃ c, o id = some c

omit [DecidableEq ι] in
/-- A new id at the end of the list. -/
theorem listed_append {clientId : ι → String} {it : BlockServer} {o : String → Option ι} {c : ι}
    (h : Listed it o) (hnew : clientId c ∉ it.mappedClients) :
    Listed { it with mappedClients := it.mappedClients ++ [clientId c] }
      fun id => held clientId id (o id) (some (c, true)) := by
  obtain ⟨hnodup, hmem⟩ := h
  constructor
  · refine List.nodup_append.mpr ⟨hnodup, List.nodup_singleton _, ?_⟩
    rintro u hu v hv rfl
    rw [List.mem_singleton.mp hv] at hu
    exact hnew hu
  · intro id
    simp only [held, List.mem_append, List.mem_singleton, hmem]
    by_cases hid : clientId c = id
    · simp [hid]
    · simp [hid, Ne.symm hid]

omit [DecidableEq ι] in
/-- An id struck off the list. -/
theorem listed_erase {clientId : ι → String} {it : BlockServer} {o : String → Option ι} (c : ι)
    (h : Listed it o) :
    Listed { it with mappedClients := it.mappedClients.erase (clientId c) }
      fun id => held clientId id (o id) (some (c, false)) := by
  obtain ⟨hnodup, hmem⟩ := h
  refine ⟨hnodup.erase _, fun id => ?_⟩
  simp only [held, hnodup.mem_erase_iff, hmem]
  by_cases hid : clientId c = id
  · simp [hid]
  · simp [hid, Ne.symm hid]

/-- **One step, on the list of a block**: an id goes on it with an acknowledged MAP and off
    it with an acknowledged UNMAP. -/
theorem step_listed {clientId : ι → String} {h h' : Host ι} {e : HostEvent ι} {k : Int32}
    {it : BlockServer} {o : String → Option ι} (hset : Settled h)
    (hs : DmHost.Step clientId h e h') (hk : h.server.blocks k = some it)
    (hlisted : Listed it o) :
    ∃ it', h'.server.blocks k = some it' ∧
      Listed it' fun id => held clientId id (o id) (remapOf k (.handled e)) := by
  have hsame : ∀ it' : BlockServer, it'.mappedClients = it.mappedClients →
      remapOf k (.handled e) = none →
      Listed it' fun id => held clientId id (o id) (remapOf k (.handled e)) := by
    intro it' hlist hno
    rw [Listed, hlist, hno]
    exact hlisted
  cases e with
  | woken c => exact ⟨it, by rw [server_woken hs]; exact hk, hsame it rfl rfl⟩
  | critical c tag req ans =>
      obtain ⟨sec, rfl, rfl, ⟨hnot, rfl⟩ | ⟨b, m, hm, hserved⟩⟩ := critical_cases hset hs
      · refine ⟨it, hk, hsame it rfl (remapOf_none fun b m hm hre => ?_)⟩
        rcases hre.2 with ht | ht <;> rw [ht] at hnot <;> exact nomatch hnot
      · by_cases hre : Remaps (Message.ofNode req).type b k
        · obtain ⟨rfl, ht⟩ := hre
          have heff := served_effect hserved
          rw [hk] at heff
          -- a refusal leaves the list alone and is no acknowledgement
          have hrefused : (some it, Outcome.send (emit .nack))
                = (sec.server.blocks b.id, sec.outcome) →
              ∃ it', (h.leave c tag sec).server.blocks b.id = some it' ∧
                Listed it' fun id => held clientId id (o id)
                  (remapOf b.id (.handled (.critical c tag req (answer sec)))) := by
            intro heq
            obtain ⟨hblock, hout⟩ := Prod.mk.inj heq
            refine ⟨it, hblock.symm, hsame it rfl ?_⟩
            rw [answer, ← hout]
            simp [remapOf, hm]
          rcases ht with ht | ht
          · rw [ht] at heff
            by_cases hin : clientId c ∈ it.mappedClients
            · exact hrefused ((if_pos hin).symm.trans heff)
            · obtain ⟨hblock, hout⟩ := Prod.mk.inj ((if_neg hin).symm.trans heff)
              refine ⟨_, hblock.symm, ?_⟩
              have hack : remapOf b.id (.handled (.critical c tag req (answer sec)))
                  = some (c, true) := by
                rw [answer, ← hout]
                simp [remapOf, hm, ht]
              rw [hack]
              exact listed_append hlisted hin
          · rw [ht] at heff
            by_cases hin : clientId c ∈ it.mappedClients
            · obtain ⟨hblock, hout⟩ := Prod.mk.inj ((if_pos hin).symm.trans heff)
              refine ⟨_, hblock.symm, ?_⟩
              have hack : remapOf b.id (.handled (.critical c tag req (answer sec)))
                  = some (c, false) := by
                rw [answer, ← hout]
                simp [remapOf, hm, ht]
              rw [hack]
              exact listed_erase c hlisted
            · exact hrefused ((if_neg hin).symm.trans heff)
        · obtain ⟨it', hit', hkeep, -⟩ := hserved.members hk
          refine ⟨it', hit', hsame it' (hkeep hre) (remapOf_none fun b' m' hm' => ?_)⟩
          obtain ⟨rfl, rfl⟩ := Prod.mk.inj (Except.ok.inj (hm.symm.trans hm'))
          exact hre

/-- **Every reachable list**: the ids that hold the block by their last acknowledged MAP or
    UNMAP, each once. -/
theorem run_listed {clientId : ι → String} {blocksId : List Int32} {tr : Visits ι}
    {s : Lobby ι} (hrun : Run (Step clientId) (Lobby.start blocksId) tr s) {k : Int32}
    {it : BlockServer} (hk : s.host.server.blocks k = some it) :
    Listed it fun id => holder clientId k id tr := by
  induction hrun generalizing it with
  | nil =>
      rw [Lobby.start, Host.start, Server.create_blocks] at hk
      split at hk
      · obtain rfl := Option.some.inj hk
        refine ⟨List.nodup_nil, fun id => ?_⟩
        simp [BlockServer.create, holder]
      · cases hk
  | @snoc tr s s' e hpre hs ih =>
      simp only [holder_snoc]
      cases hs with
      | accepted _ => exact ih hk
      | ended _ _ => exact ih hk
      | @handled e host _ hhost =>
          have hset := run_settled hpre
          cases hold : s.host.server.blocks k with
          | none =>
              have hsome := DmLedger.step_hosted (k := k) hset hhost
              rw [hold, show host.server.blocks k = some it from hk] at hsome
              cases hsome
          | some it₀ =>
              obtain ⟨it', hit', hlisted⟩ := step_listed hset hhost hold (ih hold)
              obtain rfl := Option.some.inj (hit'.symm.trans hk)
              exact hlisted

/-! ## Refusals -/

/-- The step answers a MAP of the hosted block `k` on connection `c` with `ack`. -/
def Maps (t : Entry (Lobby ι) (LobbyEvent ι)) (c : ι) (k : Int32) (ack : Node) : Prop :=
  ∃ tag req b m it, t.event = .handled (.critical c tag req (some ack)) ∧
    (Message.ofNode req).type = .map ∧ (Message.ofNode req).deref = .ok (b, m) ∧ b.id = k ∧
    t.pre.host.server.blocks k = some it

/-- **A MAP of a hosted block is refused exactly if somebody holds the block under the same
    id.** -/
theorem refused_iff {clientId : ι → String} {blocksId : List Int32} {tr : Visits ι}
    {s : Lobby ι} (hrun : Run (Step clientId) (Lobby.start blocksId) tr s) {i : Nat}
    {t : Entry (Lobby ι) (LobbyEvent ι)} {c : ι} {k : Int32} {ack : Node}
    (ht : tr[i]? = some t) (hmaps : Maps t c k ack) :
    (Message.ofNode ack).type = .nack ↔
      ∃ u, holder clientId k (clientId c) (tr.take i) = some u := by
  obtain ⟨tag, req, b, m, it, hev, hmap, hm, rfl, hk⟩ := hmaps
  have hpre := hrun.take ht
  rw [← (run_listed hpre hk).2 (clientId c)]
  have hs := hrun.step_of_mem (List.mem_of_getElem? ht)
  rw [hev] at hs
  obtain ⟨sec, -, hans, hserved⟩ :=
    critical_request (run_settled hpre) (handled_inv hs).2 hmap rfl hm
  rcases hserved.map_reply hk with ⟨hnew, ho⟩ | ⟨hold, ho⟩
  · rw [outcome_of_answer hans] at ho
    rw [Outcome.send.inj ho]
    simp [hnew]
  · rw [outcome_of_answer hans] at ho
    rw [Outcome.send.inj ho]
    simp [hold]

/-! ## Connections that unmap what they mapped -/

/-- No handler ends while its connection's id is on a list. -/
def Tidy (clientId : ι → String) (tr : Visits ι) : Prop :=
  ∀ t ∈ tr, ∀ c, t.event = .ended c →
    ∀ k it, t.pre.host.server.blocks k = some it → clientId c ∉ it.mappedClients

/-- No two running connections have one id. -/
def Distinct (clientId : ι → String) (s : Lobby ι) : Prop :=
  ∀ c u, s.phase c = .running → s.phase u = .running → clientId u = clientId c → u = c

omit [DecidableEq ι] in
/-- A remap is by the connection whose thread took the step. -/
theorem remapOf_party {k : Int32} {e : HostEvent ι} {c : ι} {v : Bool}
    (h : remapOf k (.handled e) = some (c, v)) : party e = c := by
  cases e with
  | woken c => exact nomatch h
  | critical u tag req ans =>
      cases ans with
      | none => exact nomatch h
      | some ack =>
          rw [remapOf] at h
          split at h
          · split at h
            · split at h
              · exact (Prod.mk.inj (Option.some.inj h)).1
              · exact (Prod.mk.inj (Option.some.inj h)).1
              · exact nomatch h
            · exact nomatch h
          · exact nomatch h

/-- **In a tidy run every holder still runs.** -/
theorem run_holder {clientId : ι → String} {blocksId : List Int32} {tr : Visits ι}
    {s : Lobby ι} (hrun : Run (Step clientId) (Lobby.start blocksId) tr s)
    (htidy : Tidy clientId tr) {k : Int32} {it : BlockServer}
    (hk : s.host.server.blocks k = some it) {id : String} {c : ι}
    (hholder : holder clientId k id tr = some c) : s.phase c = .running := by
  induction hrun generalizing it with
  | nil => exact nomatch hholder
  | @snoc tr s s' e hpre hs ih =>
      have hbefore : Tidy clientId tr := fun t ht => htidy t (List.mem_append_left _ ht)
      rw [holder_snoc] at hholder
      cases hs with
      | @accepted c' hnew =>
          have hrunning := ih hbefore hk hholder
          have hne : c ≠ c' := by
            rintro rfl
            rw [hnew] at hrunning
            exact nomatch hrunning
          rw [Lobby.setPhase_other _ _ hne]
          exact hrunning
      | @ended c' _ _ =>
          have hne : c ≠ c' := by
            rintro rfl
            refine htidy _ (List.mem_append_right _ (List.mem_singleton_self _)) c rfl k it hk ?_
            rw [holder_id hholder]
            exact ((run_listed hpre hk).2 id).mpr ⟨c, hholder⟩
          rw [Lobby.setPhase_other _ _ hne]
          exact ih hbefore hk hholder
      | @handled e host hparty hhost =>
          rcases held_cases hholder with ⟨hremap, -⟩ | hold
          · rw [← remapOf_party hremap]
            exact hparty
          · have hsome := DmLedger.step_hosted (k := k) (run_settled hpre) hhost
            rw [show host.server.blocks k = some it from hk] at hsome
            obtain ⟨it₀, hk₀⟩ := Option.isSome_iff_exists.mp hsome.symm
            exact ih hbefore hk₀ hold

/-- Every id on a list is that of a connection whose handler still runs. -/
def StoredRun (clientId : ι → String) (s : Lobby ι) : Prop :=
  ∀ k it id, s.host.server.blocks k = some it → id ∈ it.mappedClients →
    ∃ c, clientId c = id ∧ s.phase c = .running

/-- A connection that is refused a MAP of a hosted block mapped the block itself. -/
def OwnRefused (tr : Visits ι) : Prop :=
  ∀ i t c k ack, tr[i]? = some t → Maps t c k ack → (Message.ofNode ack).type = .nack →
    ∃ t' ∈ tr.take i, remapOf k t'.event = some (c, true)

/-- Mappings and connections after the run `tr`. `lasting` and `own` are about the runs in
    which every connection unmaps what it mapped before it ends. -/
structure Lifetimes (clientId : ι → String) (tr : Visits ι) (s : Lobby ι) : Prop where
  stored : ∀ k it id, s.host.server.blocks k = some it →
    (id ∈ it.mappedClients ↔ ∃ c, holder clientId k id tr = some c)
  refused : ∀ i t c k ack, tr[i]? = some t → Maps t c k ack →
    ((Message.ofNode ack).type = .nack ↔
      ∃ u, holder clientId k (clientId c) (tr.take i) = some u)
  lasting : Tidy clientId tr → StoredRun clientId s
  own : Tidy clientId tr → (∀ t ∈ tr, Distinct clientId t.pre) → OwnRefused tr

/-- **A mapping lasts from its MAP to its UNMAP**, and no longer than its connection if the
    connection unmaps before it ends. -/
theorem lifetimes {clientId : ι → String} {blocksId : List Int32} {tr : Visits ι}
    {s : Lobby ι} (hrun : Run (Step clientId) (Lobby.start blocksId) tr s) :
    Lifetimes clientId tr s where
  stored := fun k it id hk => (run_listed hrun hk).2 id
  refused := fun i t c k ack ht hmaps => refused_iff hrun ht hmaps
  lasting := by
    intro htidy k it id hk hid
    obtain ⟨c, hc⟩ := ((run_listed hrun hk).2 id).mp hid
    exact ⟨c, holder_id hc, run_holder hrun htidy hk hc⟩
  own := by
    intro htidy hdistinct i t c k ack ht hmaps hnack
    obtain ⟨u, hu⟩ := (refused_iff hrun ht hmaps).mp hnack
    obtain ⟨tag, req, -, -, it, hev, -, -, -, hk⟩ := hmaps
    have hin := List.mem_of_getElem? ht
    have hs := hrun.step_of_mem hin
    rw [hev] at hs
    have hbefore : Tidy clientId (tr.take i) := fun t' ht' => htidy t' (List.mem_of_mem_take ht')
    have hrunning := run_holder (hrun.take ht) hbefore hk hu
    obtain rfl := hdistinct t hin c u (handled_inv hs).1 hrunning (holder_id hu)
    exact mapped_of_holder hu

/-! ## Running connections -/

/-- What can happen next. -/
inductive LobbyAction (ι : Type) where
  | accept (c : ι)
  | handle (a : HostAction ι)
  | leave (c : ι)

/-- The step an action takes, if it is possible. -/
def next (clientId : ι → String) (s : Lobby ι) :
    LobbyAction ι → Option (LobbyEvent ι × Lobby ι)
  | .accept c =>
      if s.phase c = .pending then some (.accepted c, s.setPhase c .running) else none
  | .handle a =>
      match DmHost.next clientId s.host a with
      | some (e, host) =>
          if s.phase (party e) = .running then some (.handled e, { s with host := host })
          else none
      | none => none
  | .leave c =>
      if s.phase c = .running ∧ s.host.thread c = .reading then
        some (.ended c, s.setPhase c .ended)
      else none

/-- Every action performed is a step. -/
theorem next_sound (clientId : ι → String) :
    ∀ (s : Lobby ι) (a : LobbyAction ι) (e : LobbyEvent ι) (s' : Lobby ι),
      next clientId s a = some (e, s') → Step clientId s e s' := by
  intro s a e s' hn
  cases a with
  | accept c =>
      rw [next] at hn
      split at hn
      · obtain ⟨rfl, rfl⟩ := Prod.mk.inj (Option.some.inj hn)
        exact Step.accepted ‹_›
      · exact nomatch hn
  | handle a =>
      rw [next] at hn
      split at hn
      · rename_i ev host hhost
        split at hn
        · obtain ⟨rfl, rfl⟩ := Prod.mk.inj (Option.some.inj hn)
          exact Step.handled ‹_› (DmHost.next_sound _ _ _ _ _ hhost)
        · exact nomatch hn
      · exact nomatch hn
  | leave c =>
      rw [next] at hn
      split at hn
      · rename_i hif
        obtain ⟨rfl, rfl⟩ := Prod.mk.inj (Option.some.inj hn)
        exact Step.ended hif.1 hif.2
      · exact nomatch hn

/-- One address, two connections one after the other: each maps block 7, and the first ends
    without unmapping it. -/
def portComesBack : List (LobbyAction Bool) :=
  [.accept false, .handle (.request false (emitBlock .map ⟨7, 0, none⟩ true)), .leave false,
   .accept true, .handle (.request true (emitBlock .map ⟨7, 0, none⟩ true))]

/-- What the run shows. -/
def portComesBackEvents : List (LobbyEvent Bool) :=
  [.accepted false,
   .handled (.critical false 0 (emitBlock .map ⟨7, 0, none⟩ true)
     (some (emitBlock .ack ⟨7, 0, some (Data.memset 0)⟩ false))),
   .ended false, .accepted true,
   .handled (.critical true 0 (emitBlock .map ⟨7, 0, none⟩ true) (some (emit .nack)))]

/-- The same, but the first connection unmaps the block before it ends. -/
def unmapsFirst : List (LobbyAction Bool) :=
  [.accept false, .handle (.request false (emitBlock .map ⟨7, 0, none⟩ true)),
   .handle (.request false (emitBlock .unmap ⟨7, 0, none⟩ true)), .leave false,
   .accept true, .handle (.request true (emitBlock .map ⟨7, 0, none⟩ true))]

theorem lifetimes_unmapsFirst :
    ∃ tr s, Run (Step fun _ : Bool => "10.0.0.1:4000") (Lobby.start [7]) tr s ∧ tr.length = 6 ∧
      Tidy (fun _ : Bool => "10.0.0.1:4000") tr ∧
      Lifetimes (fun _ : Bool => "10.0.0.1:4000") tr s := by
  obtain ⟨q, hq, hfacts⟩ := Option.map_eq_some_iff.mp (show
    (exec (next fun _ : Bool => "10.0.0.1:4000") (Lobby.start [7]) unmapsFirst).map
      (fun q => (q.1.length, q.1.all fun t => t.event ∉ [.ended false, .ended true] ||
        (t.pre.host.server.blocks 7).map BlockServer.mappedClients = some [])) =
      some (6, true) by decide +kernel)
  obtain ⟨hlen, hlists⟩ := Prod.mk.inj hfacts
  have hrun := run_of_exec _ (next_sound _) _ _ hq
  refine ⟨q.1, q.2, hrun, hlen, ?_, lifetimes hrun⟩
  intro t ht c hev k it hk
  obtain ⟨i, hi⟩ := List.getElem?_of_mem ht
  obtain ⟨tr', hrun'⟩ := run_host (hrun.take hi)
  have hin := ((DmLedger.run_entered hrun').hosted k).mp (by rw [hk]; rfl)
  obtain rfl := List.mem_singleton.mp hin
  have hended : t.event ∈ [LobbyEvent.ended false, .ended true] := by
    rw [hev]
    cases c <;> simp
  have hlist : it.mappedClients = [] := by
    simpa [hended, hk] using List.all_eq_true.mp hlists t ht
  rw [hlist]
  exact List.not_mem_nil

/-- **The mapping outlives its connection**, and the next connection from the address is
    refused a block that it has not mapped. -/
theorem lifetimes_portComesBack :
    (¬ ∀ tr s, Run (Step fun _ : Bool => "10.0.0.1:4000") (Lobby.start [7]) tr s →
      StoredRun (fun _ : Bool => "10.0.0.1:4000") s) ∧
    ¬ ∀ tr s, Run (Step fun _ : Bool => "10.0.0.1:4000") (Lobby.start [7]) tr s →
      OwnRefused tr := by
  constructor
  · intro h
    obtain ⟨q, hq, hfacts⟩ := Option.map_eq_some_iff.mp (show
      (exec (next fun _ : Bool => "10.0.0.1:4000") (Lobby.start [7])
        (portComesBack.take 3)).map (fun q => ((q.2.host.server.blocks 7).map
          BlockServer.mappedClients, q.2.phase false, q.2.phase true)) =
        some (some ["10.0.0.1:4000"], .ended, .pending) by decide +kernel)
    obtain ⟨hlist, hphases⟩ := Prod.mk.inj hfacts
    obtain ⟨hfalse, htrue⟩ := Prod.mk.inj hphases
    obtain ⟨it, hk, hmapped⟩ := Option.map_eq_some_iff.mp hlist
    obtain ⟨c, -, hc⟩ := h _ _ (run_of_exec _ (next_sound _) _ _ hq) 7 it "10.0.0.1:4000" hk
      (by rw [hmapped]; exact List.mem_singleton_self _)
    cases c with
    | false =>
        rw [hfalse] at hc
        exact nomatch hc
    | true =>
        rw [htrue] at hc
        exact nomatch hc
  · intro h
    obtain ⟨q, hq, hshows⟩ := Option.map_eq_some_iff.mp (show
      (exec (next fun _ : Bool => "10.0.0.1:4000") (Lobby.start [7]) portComesBack).map
        (fun q => (q.1.map Entry.event, q.1.map fun t =>
          (t.pre.host.server.blocks 7).isSome)) =
        some (portComesBackEvents, [true, true, true, true, true]) by decide +kernel)
    obtain ⟨hevents, hhosted⟩ := Prod.mk.inj hshows
    obtain ⟨t, ht, hev⟩ := event_of_map hevents (i := 4) rfl
    have hpre : (q.1.map fun t => (t.pre.host.server.blocks 7).isSome)[4]? = some true := by
      rw [hhosted]
      rfl
    rw [List.getElem?_map, ht] at hpre
    obtain ⟨it, hk⟩ := Option.isSome_iff_exists.mp (Option.some.inj hpre)
    obtain ⟨m, hm⟩ : ∃ m, (Message.ofNode (emitBlock .map ⟨7, 0, none⟩ true)).deref =
        .ok (BlockServer.create 7, m) := ⟨_, rfl⟩
    obtain ⟨t', ht', hown⟩ := h _ _ (run_of_exec _ (next_sound _) _ _ hq) 4 t true 7 (emit .nack)
      ht ⟨0, _, _, m, it, hev, rfl, hm, rfl, hk⟩ rfl
    -- the four steps before are not on the new connection, but for its arrival
    have hbefore : t'.event ∈ portComesBackEvents.take 4 := by
      rw [← hevents, ← List.map_take]
      exact List.mem_map_of_mem ht'
    have hnone : ∀ e ∈ portComesBackEvents.take 4, remapOf 7 e ≠ some (true, true) := by
      decide +kernel
    exact hnone _ hbefore hown

end DmLifetime
