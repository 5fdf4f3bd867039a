import DistributedMemory.DmClientProofs
import DistributedMemory.DmLedgerProofs

/-!
# Refusals — requests for blocks the server does not host

Every branch of `client_handler` looks its block up, and each has its own way with an id
that is not in the table: MAP, UNMAP and UPDATE send the NACK they started with; WRITE
does so too, after a broadcast on `blocks_wait[block_id]`, where the operator makes an
entry for any id; WAIT started with an ACK, which a client takes for the news that its
block is outdated.

* **`Refused`** — a NACK, the server and its threads as before, and no client that takes
  its block for outdated.
* **`unhosted_refused_iff`** — in every reachable state these are the requests to map, unmap
  or update; and the table of conditions has grown by the ids that writes have named.
-/

namespace DmRefusal

open DmBlock DmMessage DmClient DmServer DmHost LabelledRun

variable {ι : Type} [DecidableEq ι]

/-! ## What a refusal is -/

/-- A client that made a call of this type for the block and reads the reply does not clear
    the valid flag of its block. -/
def LeavesValid (type : MessageType) (id : Int32) (ack : Node) : Prop :=
  ∀ (c c' : Client) (call : Call) (e e' : BlockLocal) (code : Int),
    call.type = type → call.id = id → c.blocks id = some e → e.valid = true →
    c.receive call (some ack) = .ok (code, c') → c'.blocks id = some e' → e'.valid = true

/-- Thread `c` handles the request, and always so that the reply is a NACK and the server
    and all threads are as before; and no client is misled by it. -/
structure Refused (clientId : ι → String) (h : Host ι) (c : ι) (req : Node) (id : Int32) :
    Prop where
  handled : ∃ tag ans h', Step clientId h (.critical c tag req ans) h'
  unchanged : ∀ tag ans h', Step clientId h (.critical c tag req ans) h' →
    ans = some (emit .nack) ∧ h' = h
  valid : LeavesValid (Message.ofNode req).type id (emit .nack)

/-- A reading thread that sends a reply and broadcasts nothing reads again. -/
theorem leave_same {h : Host ι} {c : ι} (tag : Nat) (ack : Node)
    (hread : h.thread c = .reading) : h.leave c tag ⟨h.server, none, .send ack⟩ = h := by
  have hthread : (h.leave c tag ⟨h.server, none, .send ack⟩).thread = h.thread := by
    funext u
    by_cases hu : u = c
    · rw [hu, Host.leave_thread_self, hread]
      rfl
    · rw [Host.leave_thread_other _ _ _ hu]
      cases h.thread u <;> rfl
  show Host.mk h.server (h.leave c tag ⟨h.server, none, .send ack⟩).thread = h
  rw [hthread]

/-- A reading thread handles the request as `client_handler` says. -/
theorem step_reading {clientId : ι → String} {h h' : Host ι} {c : ι} {tag : Nat} {req : Node}
    {ans : Option Node} (hread : h.thread c = .reading)
    (hs : Step clientId h (.critical c tag req ans) h') :
    ∃ sec, h.server.clientHandler (clientId c) (Message.ofNode req) = .ok sec ∧
      ans = answer sec ∧ h' = h.leave c tag sec := by
  cases hs with
  | @first _ _ _ sec _ hpass => exact ⟨sec, hpass, rfl, rfl⟩
  | again hawake _ =>
      rw [hread] at hawake
      exact nomatch hawake

/-- A NACK clears the valid flag of a write's block and of no other. -/
theorem leavesValid_nack {type : MessageType} (id : Int32) (h : type ≠ .write) :
    LeavesValid type id (emit .nack) := by
  rintro c c' call e e' code rfl rfl he hvalid hrec he'
  have hnack := Client.receive_nack he (Message.type_emit .nack)
  obtain ⟨-, rfl⟩ := Prod.mk.inj (Except.ok.inj (hrec.symm.trans hnack))
  rw [Client.setBlock_same] at he'
  rw [← Option.some.inj he']
  cases call with
  | write id => exact absurd rfl h
  | map id address => exact hvalid
  | unmap id => exact hvalid
  | update id => exact hvalid
  | wait id => exact hvalid

theorem not_leavesValid_write (id : Int32) : ¬ LeavesValid .write id (emit .nack) := by
  intro h
  -- any client that has the block mapped
  have he : (Client.mk ⟨[]⟩ (fun _ => none)
      fun _ => some (BlockLocal.create id (Data.memset 0))).blocks (Call.write id).id
        = some (BlockLocal.create id (Data.memset 0)) := rfl
  have hfalse := h _ _ (.write id) _ _ _ rfl rfl he rfl
    (Client.receive_nack he (Message.type_emit .nack)) (Client.setBlock_same ..)
  exact nomatch hfalse

/-! ## One request -/

/-- The ways through the `switch` for a block that is not hosted. -/
theorem served_unhosted {s : Server} {clientId : String} {b : BlockServer} {m : Message}
    {t : MessageType} {sec : Section} (h : Served s clientId b m t sec)
    (hno : s.blocks b.id = none) :
    ((t = .map ∨ t = .unmap ∨ t = .update) ∧ sec = ⟨s, none, .send (emit .nack)⟩) ∨
      (t = .write ∧ sec = ⟨s.condition b.id, some b.id, .send (emit .nack)⟩) ∨
      (t = .wait ∧ sec = ⟨s, none, .send (emit .ack)⟩) := by
  have hhosted : ∀ {it : BlockServer}, s.blocks b.id ≠ some it := by
    intro it hit
    rw [hno] at hit
    cases hit
  cases h with
  | unhosted ht _ => exact Or.inl ⟨ht, rfl⟩
  | writeUnhosted _ => exact Or.inr (Or.inl ⟨rfl, rfl⟩)
  | waitUnhosted _ => exact Or.inr (Or.inr ⟨rfl, rfl⟩)
  | mapped hit _ => exact absurd hit hhosted
  | mapRefused hit _ => exact absurd hit hhosted
  | unmapped hit _ => exact absurd hit hhosted
  | unmapRefused hit _ => exact absurd hit hhosted
  | entire hit _ => exact absurd hit hhosted
  | shallow hit _ => exact absurd hit hhosted
  | accepted hit _ => exact absurd hit hhosted
  | writeRefused hit _ => exact absurd hit hhosted
  | outdated hit _ => exact absurd hit hhosted
  | sleeps hit _ => exact absurd hit hhosted

variable {clientId : ι → String} {h : Host ι} {c : ι} {req : Node} {n : BlockNode}

/-- What is refused is a MAP, UNMAP or UPDATE: a write tells its client that the block is
    outdated, and a wait is answered with the ACK that its branch started with. -/
theorem kind_of_refused (hread : h.thread c = .reading)
    (hreq : (Message.ofNode req).type.isRequest = true) (hn : req.block = some n)
    (hno : h.server.blocks n.id = none) (hrefused : Refused clientId h c req n.id) :
    n.copies = true ∧ ((Message.ofNode req).type = .map ∨
      (Message.ofNode req).type = .unmap ∨ (Message.ofNode req).type = .update) := by
  obtain ⟨tag, ans, h', hs⟩ := hrefused.handled
  obtain ⟨hans, -⟩ := hrefused.unchanged tag ans h' hs
  obtain ⟨sec, hpass, hanswer, -⟩ := step_reading hread hs
  rcases Server.clientHandler_cases hpass with ⟨hnot, -⟩ | ⟨b, m, hm, hserved⟩
  · rw [hreq] at hnot
    cases hnot
  · obtain ⟨bn, hbn, hblock, hid, -⟩ := Message.block_of_deref hm
    obtain rfl := Option.some.inj (hn.symm.trans hbn)
    constructor
    · rcases n.readBlock_cases with ⟨hcopies, -⟩ | ⟨-, herr⟩
      · exact hcopies
      · rw [herr] at hblock
        cases hblock
    · rcases served_unhosted hserved (by rw [hid]; exact hno) with
        ⟨hkind, -⟩ | ⟨hwrite, -⟩ | ⟨-, rfl⟩
      · exact hkind
      · have hvalid := hrefused.valid
        rw [hwrite] at hvalid
        exact absurd hvalid (not_leavesValid_write _)
      · rw [hans] at hanswer
        have heq : emit .nack = emit .ack := Option.some.inj hanswer
        exact absurd heq (by decide)

/-- A MAP, UNMAP or UPDATE is answered with a NACK and nothing else. -/
theorem clientHandler_refuses {s : Server} {b : BlockServer} {m : Message} (name : String)
    (hm : (Message.ofNode req).deref = .ok (b, m)) (hno : s.blocks b.id = none)
    (ht : (Message.ofNode req).type = .map ∨ (Message.ofNode req).type = .unmap ∨
      (Message.ofNode req).type = .update) :
    s.clientHandler name (Message.ofNode req) = .ok ⟨s, none, .send (emit .nack)⟩ := by
  have hreq : (Message.ofNode req).type.isRequest = true := by
    rcases ht with ht | ht | ht <;> rw [ht] <;> rfl
  obtain ⟨sec, hsec, hserved⟩ := Server.clientHandler_served s name hreq hm
  rw [hsec]
  rcases served_unhosted hserved hno with ⟨-, rfl⟩ | ⟨hwrite, -⟩ | ⟨hwait, -⟩
  · rfl
  · rw [hwrite] at ht
    rcases ht with ht | ht | ht <;> cases ht
  · rw [hwait] at ht
    rcases ht with ht | ht | ht <;> cases ht

/-- It is refused. -/
theorem refused_of_kind (hread : h.thread c = .reading) (hn : req.block = some n)
    (hno : h.server.blocks n.id = none) (hcopies : n.copies = true)
    (ht : (Message.ofNode req).type = .map ∨ (Message.ofNode req).type = .unmap ∨
      (Message.ofNode req).type = .update) : Refused clientId h c req n.id := by
  obtain ⟨b, hb, hid, -⟩ : ∃ b, Message.readBlock n = .ok b ∧ b.id = n.id ∧
      b.revision = n.readRevision := by
    rcases n.readBlock_cases with ⟨-, b, hb⟩ | ⟨hnot, -⟩
    · exact ⟨b, hb⟩
    · rw [hcopies] at hnot
      cases hnot
  have hm : (Message.ofNode req).deref = .ok (b, ⟨req, some b⟩) := by
    rw [Message.deref_ofNode, hn]
    simp only [hb]
  have hpass := clientHandler_refuses (clientId c) hm (by rw [hid]; exact hno) ht
  refine ⟨⟨0, _, _, Step.first hread hpass⟩, fun tag ans h' hs => ?_, leavesValid_nack _ ?_⟩
  · obtain ⟨sec, hsec, rfl, rfl⟩ := step_reading hread hs
    obtain rfl := Except.ok.inj (hpass.symm.trans hsec)
    exact ⟨rfl, leave_same tag _ hread⟩
  · intro hwrite
    rw [hwrite] at ht
    rcases ht with ht | ht | ht <;> cases ht

/-- **A request for a block that is not hosted is refused exactly if it is a MAP, UNMAP or
    UPDATE** whose block is not cut short. -/
theorem refused_of_unhosted (hread : h.thread c = .reading)
    (hreq : (Message.ofNode req).type.isRequest = true) (hn : req.block = some n)
    (hno : h.server.blocks n.id = none) :
    Refused clientId h c req n.id ↔
      n.copies = true ∧ ((Message.ofNode req).type = .map ∨
        (Message.ofNode req).type = .unmap ∨ (Message.ofNode req).type = .update) := by
  constructor
  · exact kind_of_refused hread hreq hn hno
  · rintro ⟨hcopies, ht⟩
    exact refused_of_kind hread hn hno hcopies ht

/-! ## The table of conditions -/

/-- The step handles a WRITE that names block `k`. -/
def Writes (k : Int32) (e : HostEvent ι) : Prop :=
  ∃ c tag req ans b m, e = .critical c tag req ans ∧ (Message.ofNode req).type = .write ∧
    (Message.ofNode req).deref = .ok (b, m) ∧ b.id = k

/-- A new server has the conditions of its blocks. -/
theorem create_conditions (blocksId : List Int32) (k : Int32) :
    k ∈ (Server.create blocksId).blocksWait ↔ k ∈ blocksId := by
  rw [Server.create]
  induction blocksId using List.reverseRecOn with
  | nil => exact Iff.rfl
  | append_singleton ids id ih =>
      rw [List.foldl_append, List.foldl_cons, List.foldl_nil, Server.addBlock]
      have hwait : ∀ s : Server, k ∈ (s.condition id).blocksWait ↔ k = id ∨ k ∈ s.blocksWait :=
        fun s => List.mem_insert_iff
      rw [hwait, List.mem_append, List.mem_singleton, or_comm]
      refine or_congr_left ?_
      split
      · exact ih
      · exact ih

/-- **A request names a new condition only if it is a WRITE.** A thread that falls asleep
    does so on the condition of a hosted block. -/
theorem served_conditions {s : Server} {clientId : String} {b : BlockServer} {m : Message}
    {t : MessageType} {sec : Section} (h : Served s clientId b m t sec)
    (hwait : ∀ k it, s.blocks k = some it → k ∈ s.blocksWait) (k : Int32) :
    k ∈ sec.server.blocksWait ↔ k ∈ s.blocksWait ∨ (t = .write ∧ b.id = k) := by
  have hsame : t ≠ .write →
      (k ∈ s.blocksWait ↔ k ∈ s.blocksWait ∨ (t = .write ∧ b.id = k)) :=
    fun ht => ⟨Or.inl, fun h => h.resolve_right fun hw => ht hw.1⟩
  have hnamed : k ∈ s.blocksWait.insert b.id ↔
      k ∈ s.blocksWait ∨ (MessageType.write = .write ∧ b.id = k) := by
    rw [List.mem_insert_iff, or_comm, eq_comm]
    exact or_congr_right ⟨fun hk => ⟨rfl, hk⟩, fun hk => hk.2⟩
  cases h with
  | unhosted ht _ =>
      refine hsame fun hw => ?_
      rcases ht with ht | ht | ht <;> rw [hw] at ht <;> exact nomatch ht
  | mapped _ _ => exact hsame nofun
  | mapRefused _ _ => exact hsame nofun
  | unmapped _ _ => exact hsame nofun
  | unmapRefused _ _ => exact hsame nofun
  | entire _ _ => exact hsame nofun
  | shallow _ _ => exact hsame nofun
  | writeUnhosted _ => exact hnamed
  | accepted _ _ => exact hnamed
  | writeRefused _ _ => exact hnamed
  | waitUnhosted _ => exact hsame nofun
  | outdated _ _ => exact hsame nofun
  | sleeps hit _ =>
      have hin : k ∈ s.blocksWait.insert b.id ↔ k ∈ s.blocksWait := by
        rw [List.mem_insert_iff]
        exact or_iff_right_of_imp fun hk => hk ▸ hwait _ _ hit
      exact hin.trans (hsame nofun)

/-- **In every reachable state the conditions are those of the hosted blocks and of the
    blocks that writes have named.** -/
theorem run_conditions {clientId : ι → String} {blocksId : List Int32}
    {tr : List (Entry (Host ι) (HostEvent ι))} {h : Host ι}
    (hrun : Run (Step clientId) (Host.start blocksId) tr h) (k : Int32) :
    k ∈ h.server.blocksWait ↔ k ∈ blocksId ∨ ∃ t ∈ tr, Writes k t.event := by
  induction hrun generalizing k with
  | nil =>
      refine (create_conditions blocksId k).trans ⟨Or.inl, fun h => h.resolve_right ?_⟩
      rintro ⟨t, ht, -⟩
      exact nomatch ht
  | @snoc tr h h' e hpre hs ih =>
      have hsplit : (∃ t ∈ tr ++ [⟨h, e, h'⟩], Writes k t.event) ↔
          (∃ t ∈ tr, Writes k t.event) ∨ Writes k e := by
        simp [or_and_right, exists_or]
      rw [hsplit, ← or_assoc, ← ih k]
      cases e with
      | woken c =>
          rw [server_woken hs]
          refine ⟨Or.inl, fun h => h.resolve_right ?_⟩
          rintro ⟨c', tag, req, ans, b, m, hev, -⟩
          exact nomatch hev
      | critical c tag req ans =>
          obtain ⟨sec, rfl, -, ⟨hnot, rfl⟩ | ⟨b, m, hm, hserved⟩⟩ :=
            critical_cases (run_settled hpre) hs
          · refine ⟨Or.inl, fun h => h.resolve_right ?_⟩
            rintro ⟨c', tag', req', ans', b, m, hev, htype, -⟩
            obtain ⟨-, -, rfl, -⟩ := HostEvent.critical.inj hev
            rw [htype] at hnot
            exact nomatch hnot
          · have hwait : ∀ k it, h.server.blocks k = some it → k ∈ h.server.blocksWait := by
              intro k it hit
              refine (ih k).mpr (Or.inl (((DmLedger.run_entered hpre).hosted k).mp ?_))
              rw [hit]
              rfl
            refine (served_conditions hserved hwait k).trans (or_congr_right ⟨?_, ?_⟩)
            · rintro ⟨htype, hid⟩
              exact ⟨c, tag, req, _, b, m, rfl, htype, hm, hid⟩
            · rintro ⟨c', tag', req', ans', b', m', hev, htype, hm', hid⟩
              obtain ⟨-, -, rfl, -⟩ := HostEvent.critical.inj hev
              obtain ⟨rfl, -⟩ := Prod.mk.inj (Except.ok.inj (hm.symm.trans hm'))
              exact ⟨htype, hid⟩

/-! ## Every run -/

/-- **Requests for blocks that are not configured are refused exactly if they are to map,
    unmap or update**; the block table never grows, and the table of conditions by nothing
    but the blocks that writes have named. -/
theorem unhosted_refused_iff {clientId : ι → String} {blocksId : List Int32}
    {tr : List (Entry (Host ι) (HostEvent ι))} {h : Host ι}
    (hrun : Run (Step clientId) (Host.start blocksId) tr h) :
    (∀ c req n, h.thread c = .reading → (Message.ofNode req).type.isRequest = true →
      req.block = some n → n.id ∉ blocksId →
      (Refused clientId h c req n.id ↔
        n.copies = true ∧ ((Message.ofNode req).type = .map ∨
          (Message.ofNode req).type = .unmap ∨ (Message.ofNode req).type = .update))) ∧
    (∀ k, (h.server.blocks k).isSome = true ↔ k ∈ blocksId) ∧
    ∀ k, k ∈ h.server.blocksWait ↔ k ∈ blocksId ∨ ∃ t ∈ tr, Writes k t.event := by
  have hent := DmLedger.run_entered hrun
  refine ⟨fun c req n hread hreq hn hno => ?_, hent.hosted, run_conditions hrun⟩
  have hnone : h.server.blocks n.id = none := by
    cases hk : h.server.blocks n.id with
    | none => rfl
    | some it => exact absurd ((hent.hosted n.id).mp (by rw [hk]; rfl)) hno
  exact refused_of_unhosted hread hreq hn hnone

/-- Two connections. -/
def twoConnections (c : Bool) : String := if c then "10.0.0.2:40001" else "10.0.0.1:40001"

/-- A WRITE of block 9, which is not hosted here. -/
def strangeWrite : Node := emitBlock .write ⟨9, 0, none⟩ false

theorem unhosted_refused_iff_strangers :
    ∃ tr h, Run (Step twoConnections) (Host.start [7]) tr h ∧ tr.length = 1 ∧
      Refused twoConnections h true (emitBlock .map ⟨9, 0, none⟩ true) 9 ∧
      (h.server.blocks 9).isSome = false ∧ (9 : Int32) ∈ h.server.blocksWait := by
  have hpass : (Host.start (ι := Bool) [7]).server.clientHandler (twoConnections false)
      (Message.ofNode strangeWrite) =
        .ok ⟨(Server.create [7]).condition 9, some 9, .send (emit .nack)⟩ := rfl
  have hs : Step twoConnections (Host.start [7])
      (.critical false 0 strangeWrite (some (emit .nack))) _ := Step.first rfl hpass
  have hrun := Run.nil.snoc hs
  obtain ⟨hrefused, hblocks, hwait⟩ := unhosted_refused_iff hrun
  refine ⟨_, _, hrun, rfl, ?_, ?_, ?_⟩
  · exact (hrefused true (emitBlock .map ⟨9, 0, none⟩ true) ⟨9, .value 0, .absent⟩ rfl rfl rfl
      (by decide)).mpr ⟨rfl, Or.inl rfl⟩
  · exact Bool.eq_false_iff.mpr fun h => absurd ((hblocks 9).mp h) (by decide)
  · exact (hwait 9).mpr (Or.inr ⟨_, List.mem_singleton_self _, false, 0, strangeWrite, _, _, _,
      rfl, rfl, rfl, rfl⟩)

/-- **A WAIT for a block that is not hosted gets an ACK**, and a WRITE of it makes a
    condition. -/
theorem refused_wait :
    (Server.create [7]).clientHandler "10.0.0.1:40001"
        (Message.ofNode (emitBlock .wait ⟨9, 0, none⟩ true)) =
      .ok ⟨Server.create [7], none, .send (emit .ack)⟩ ∧
    (Server.create [7]).clientHandler "10.0.0.1:40001" (Message.ofNode strangeWrite) =
      .ok ⟨(Server.create [7]).condition 9, some 9, .send (emit .nack)⟩ ∧
    ¬ ∀ c req n, (Message.ofNode req).type.isRequest = true → req.block = some n →
      n.id ∉ [(7 : Int32)] → Refused twoConnections (Host.start [7]) c req n.id := by
  refine ⟨rfl, rfl, fun h => ?_⟩
  have hrefused := h false (emitBlock .wait ⟨9, 0, none⟩ true) ⟨9, .value 0, .absent⟩ rfl rfl
    (by decide)
  have hpass : (Host.start (ι := Bool) [7]).server.clientHandler (twoConnections false)
      (Message.ofNode (emitBlock .wait ⟨9, 0, none⟩ true)) =
        .ok ⟨Server.create [7], none, .send (emit .ack)⟩ := rfl
  have hs : Step twoConnections (Host.start [7])
      (.critical false 0 (emitBlock .wait ⟨9, 0, none⟩ true) (some (emit .ack))) _ :=
    Step.first rfl hpass
  exact absurd (hrefused.unchanged _ _ _ hs).1 (by decide)

end DmRefusal
