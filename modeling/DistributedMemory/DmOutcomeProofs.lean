import DistributedMemory.DmClientProofs

/-!
# Outcomes — what a failed call leaves behind, and what a successful one has seen

Every call ends with a code: negative when it failed, `0` when it is done.

* **`FailsClean`** — a call that fails leaves the client's table as it was, but for the
  valid flag that a refused write clears. **`failsClean_iff`** — all do, except a map whose
  exchange fails: its entry is in the table before the request goes out, and stays.
* **`AckOnly`** — a call succeeds only on an ACK, with the block it asked for where it
  takes one. **`ackOnly_iff`** — what is no NACK is taken for an ACK, and a wait on an
  outdated block asks for none.
-/

namespace DmOutcome

open DmBlock DmConfig DmMessage DmClient

/-! ## Failed calls -/

/-- The table is as before the call, but for the valid flag of a block whose write was
    refused. -/
def Kept (c : Client) (call : Call) (code : Int) (c' : Client) : Prop :=
  ∀ k, c'.blocks k = c.blocks k ∨
    ∃ e, call = .write k ∧ code = -5 ∧ c.blocks k = some e ∧
      c'.blocks k = some (e.setValid false)

/-- No map of the block is refused for one that is mapped already. -/
def Mappable (c : Client) (id : Int32) : Prop :=
  ∀ address exchange c', c.perform (.map id address) exchange ≠ .ok (-2, c')

/-- If the call fails, it leaves the table alone; a map that failed can be made again. -/
def FailsClean (c : Client) (call : Call) (exchange : String → Node → Option Node) : Prop :=
  ∀ code c', c.perform call exchange = .ok (code, c') → code < 0 →
    Kept c call code c' ∧
      ∀ id address, call = .map id address → code ≠ -2 → Mappable c' id

/-- The exchange fails, or its reply is a NACK. -/
def Refused : Option Node → Prop
  | none => True
  | some n => (Message.ofNode n).type = .nack

/-- The call is a map that gets as far as its exchange, of a block that is not mapped, and
    the exchange fails or is refused. -/
def MapLost (c : Client) (call : Call) (exchange : String → Node → Option Node) : Prop :=
  ∃ id address sock, call = .map id address ∧
    (c.config.findServerIdByBlockId id).isEmpty = false ∧ c.blocks id = none ∧
    c.sockets (c.config.findServerIdByBlockId id) = some sock ∧ sock.isValid = true ∧
    Refused (exchange (c.config.findServerIdByBlockId id)
      (emitBlock .map (BlockLocal.create id address).toBlock true))

/-- A call that changes nothing keeps the table. -/
theorem Kept.refl (c : Client) (call : Call) (code : Int) : Kept c call code c :=
  fun _ => Or.inl rfl

/-- **How a call that sent its request ends**: with `-4` and the state it waited in, with
    `-5`, or with success. -/
theorem perform_sent {c c₁ c' : Client} {call : Call} {sid : String} {req : Node}
    {exchange : String → Node → Option Node} {code : Int}
    (hsend : c.send call = .ok (.sent sid req c₁))
    (h : c.perform call exchange = .ok (code, c')) :
    (code = -4 ∧ exchange sid req = none ∧ c' = c₁) ∨
      (code = -5 ∧ ∃ n e, exchange sid req = some n ∧ (Message.ofNode n).type = .nack ∧
        c₁.blocks call.id = some e ∧ c' = c₁.setBlock call.id (some (call.onNack e))) ∨
      code = 0 := by
  obtain ⟨e, hreq⟩ := Client.send_sent hsend
  rw [Client.perform, hsend] at h
  cases hex : exchange sid req with
  | none =>
      simp only [hex, Client.receive_none hreq.entry] at h
      obtain ⟨rfl, rfl⟩ := Prod.mk.inj (Except.ok.inj h)
      exact Or.inl ⟨rfl, rfl, rfl⟩
  | some n =>
      simp only [hex] at h
      rcases Client.receive_cases hreq.entry h with ⟨hn, rfl, rfl⟩ | ⟨-, rfl, -⟩
      · exact Or.inr (Or.inl ⟨rfl, n, e, rfl, hn, hreq.entry, rfl⟩)
      · exact Or.inr (Or.inr rfl)

/-- A block that is not mapped is mappable. -/
theorem mappable_of_free {c : Client} {id : Int32} (h : c.blocks id = none) :
    Mappable c id := by
  intro address exchange c' hperform
  cases Client.mapSends c id address with
  | unrouted _ hsend =>
      rw [Client.perform, hsend] at hperform
      exact nomatch (Prod.mk.inj (Except.ok.inj hperform)).1
  | mapped _ hentry _ =>
      rw [h] at hentry
      exact nomatch hentry
  | unconnected _ _ hsend =>
      rw [Client.perform, hsend] at hperform
      exact nomatch hperform
  | closed _ _ _ hsend =>
      rw [Client.perform, hsend] at hperform
      exact nomatch (Prod.mk.inj (Except.ok.inj hperform)).1
  | sent _ _ _ _ hsend =>
      rcases perform_sent hsend hperform with ⟨hcode, -⟩ | ⟨hcode, -⟩ | hcode
      · exact absurd hcode (by decide)
      · exact absurd hcode (by decide)
      · exact absurd hcode (by decide)

/-- So is one that no server hosts. -/
theorem mappable_of_unrouted {c : Client} {id : Int32}
    (h : (c.config.findServerIdByBlockId id).isEmpty = true) : Mappable c id := by
  intro address exchange c' hperform
  have hsend : c.send (.map id address) = .ok (.returned (-1) c) := if_pos h
  rw [Client.perform, hsend] at hperform
  exact nomatch (Prod.mk.inj (Except.ok.inj hperform)).1

/-- **A call other than map that sends its request** keeps the table when it fails. -/
theorem kept_of_sent {c c₁ c' : Client} {call : Call} {sid : String} {req : Node}
    {exchange : String → Node → Option Node} {code : Int} (hmap : call.type ≠ .map)
    (hsend : c.send call = .ok (.sent sid req c₁))
    (h : c.perform call exchange = .ok (code, c')) (hneg : code < 0) :
    Kept c call code c' := by
  obtain ⟨e, hreq⟩ := Client.send_sent hsend
  obtain rfl := hreq.same hmap
  rcases perform_sent hsend h with ⟨-, -, rfl⟩ | ⟨hcode, n, e', -, -, he, rfl⟩ | rfl
  · exact Kept.refl _ _ _
  · intro k
    by_cases hk : k = call.id
    · subst hk
      rw [Client.setBlock_same]
      cases call with
      | write id => exact Or.inr ⟨e', rfl, hcode, he, rfl⟩
      | map id address => exact absurd rfl hmap
      | unmap id => exact Or.inl he.symm
      | update id => exact Or.inl he.symm
      | wait id => exact Or.inl he.symm
    · exact Or.inl (Client.setBlock_other _ _ hk)
  · exact absurd hneg (by decide)

/-- Such a map fails, and the entry it made before its request is still there. -/
theorem perform_of_mapLost {c : Client} {call : Call}
    {exchange : String → Node → Option Node} (h : MapLost c call exchange) :
    ∃ id address code, call = .map id address ∧ code < 0 ∧ c.blocks id = none ∧
      c.perform call exchange =
        .ok (code, c.setBlock id (some (BlockLocal.create id address))) := by
  obtain ⟨id, address, sock, rfl, hserver, hfree, hsock, hvalid, hrefused⟩ := h
  have hsend : c.send (.map id address) = .ok (.sent (c.config.findServerIdByBlockId id)
      (emitBlock .map (BlockLocal.create id address).toBlock true)
      (c.setBlock id (some (BlockLocal.create id address)))) := by
    simp [Client.send, Client.dmBlockMapSend, hserver, hfree, hsock, hvalid]
  have hentry : (c.setBlock id (some (BlockLocal.create id address))).blocks
      (Call.map id address).id = some (BlockLocal.create id address) :=
    Client.setBlock_same ..
  cases hex : exchange (c.config.findServerIdByBlockId id)
      (emitBlock .map (BlockLocal.create id address).toBlock true) with
  | none =>
      refine ⟨id, address, -4, rfl, by decide, hfree, ?_⟩
      rw [Client.perform, hsend]
      simp only [hex, Client.receive_none hentry]
  | some n =>
      rw [hex] at hrefused
      refine ⟨id, address, -5, rfl, by decide, hfree, ?_⟩
      rw [Client.perform, hsend]
      simp only [hex, Client.receive_nack hentry hrefused]
      exact congrArg (fun s => Except.ok ((-5 : Int), s)) (Client.setBlock_eq_self hentry)

/-- So it does not leave the table alone. -/
theorem not_failsClean_of_mapLost {c : Client} {call : Call}
    {exchange : String → Node → Option Node} (h : MapLost c call exchange) :
    ¬ FailsClean c call exchange := by
  intro hclean
  obtain ⟨id, address, code, rfl, hneg, hfree, hperform⟩ := perform_of_mapLost h
  rcases (hclean _ _ hperform hneg).1 id with hsame | ⟨e, hcall, -⟩
  · rw [Client.setBlock_same, hfree] at hsame
    exact nomatch hsame
  · exact nomatch hcall

/-- **Failed calls leave the client as it was, except a map that fails in its exchange.** -/
theorem failsClean_iff (c : Client) (call : Call) (exchange : String → Node → Option Node) :
    FailsClean c call exchange ↔ ¬ MapLost c call exchange := by
  constructor
  · exact fun hclean hlost => not_failsClean_of_mapLost hlost hclean
  · intro hnot code c' hperform hneg
    cases hsend : c.send call with
    | error f =>
        rw [Client.perform, hsend] at hperform
        exact nomatch hperform
    | ok sending =>
        cases sending with
        | returned code' c₁ =>
            rw [Client.perform, hsend] at hperform
            obtain ⟨rfl, rfl⟩ := Prod.mk.inj (Except.ok.inj hperform)
            obtain rfl := (Client.send_returned hsend).2
            refine ⟨Kept.refl _ _ _, ?_⟩
            rintro id address rfl hcode
            cases Client.mapSends c₁ id address with
            | unrouted hserver _ => exact mappable_of_unrouted hserver
            | mapped _ _ hsend' =>
                exact absurd (Sending.returned.inj (Except.ok.inj (hsend.symm.trans hsend'))).1
                  hcode
            | unconnected hfree _ _ => exact mappable_of_free hfree
            | closed hfree _ _ _ => exact mappable_of_free hfree
            | sent _ hfree _ _ _ => exact mappable_of_free hfree
        | sent sid req c₁ =>
            by_cases hmap : call.type = .map
            · obtain ⟨id, address, rfl⟩ := Call.eq_map hmap
              exfalso
              cases Client.mapSends c id address with
              | unrouted _ hsend' => exact nomatch hsend.symm.trans hsend'
              | mapped _ _ hsend' => exact nomatch hsend.symm.trans hsend'
              | unconnected _ _ hsend' => exact nomatch hsend.symm.trans hsend'
              | closed _ _ _ hsend' => exact nomatch hsend.symm.trans hsend'
              | sent hserver hfree hsock hvalid hsend' =>
                  obtain ⟨rfl, rfl, -⟩ :=
                    Sending.sent.inj (Except.ok.inj (hsend.symm.trans hsend'))
                  refine hnot ⟨id, address, _, rfl, hserver, hfree, hsock, hvalid, ?_⟩
                  rcases perform_sent hsend hperform with ⟨-, hex, -⟩ | ⟨-, n, -, hex, hn, -⟩ | rfl
                  · rw [hex]
                    trivial
                  · rw [hex]
                    exact hn
                  · exact absurd hneg (by decide)
            · refine ⟨kept_of_sent hmap hsend hperform hneg, ?_⟩
              rintro id address rfl
              exact absurd rfl hmap

/-- A client just initialised, with a socket to the server of block 7. -/
def connected : Client where
  config := ⟨[("10.0.0.1:5000", ⟨"10.0.0.1", "5000", [7], "pass", "", ""⟩)]⟩
  sockets := fun id => if id = "10.0.0.1:5000" then some ⟨true⟩ else none
  blocks := fun _ => none

/-- **A map that times out** leaves an entry behind. -/
theorem failsClean_timeout :
    ¬ FailsClean connected (.map 7 (Data.memset 1)) (fun _ _ => none) :=
  not_failsClean_of_mapLost ⟨7, Data.memset 1, ⟨true⟩, rfl, by decide, rfl, by decide, rfl,
    trivial⟩

/-! ## Successful calls -/

/-- The document a call makes of the string it reads. -/
def replyNode (yaml : YamlCpp) (reply : String) : Node := (Message.create yaml reply).node

/-- What `sock >> req` delivers: `operator>>` throws on an empty string. -/
def received (yaml : YamlCpp) (reply : String) : Option Node :=
  if reply.isEmpty then none else some (replyNode yaml reply)

/-- The string parses, as an ACK, and carries a block that decodes and has the id of the
    call's block, where the call takes one. -/
def Acknowledges (yaml : YamlCpp) (call : Call) (reply : String) : Prop :=
  ∃ n, reply.isEmpty = false ∧ yaml.getNextDocument Node.null reply = .document n ∧
    (Message.ofNode n).type = .ack ∧
    (call.usesBlock = true → ∃ b m, (Message.ofNode n).deref = .ok (b, m) ∧ b.id = call.id)

/-- Every mapped block is still mapped, with the same id, revision and content. -/
def Unchanged (c c' : Client) : Prop :=
  ∀ k e, c.blocks k = some e → ∃ e', c'.blocks k = some e' ∧ e'.id = e.id ∧
    e'.revision = e.revision ∧ e'.data = e.data

/-- A call to which the string is the reply succeeds only if it acknowledges the call: on
    any other string it returns a negative code and changes no mapped block. -/
def AckOnly (yaml : YamlCpp) (c : Client) (call : Call) (reply : String) : Prop :=
  ¬ Acknowledges yaml call reply →
    ∃ code c', c.perform call (fun _ _ => received yaml reply) = .ok (code, c') ∧
      code < 0 ∧ Unchanged c c'

/-- A block to map is mapped, or a block to do anything else with is not. -/
def Misplaced (c : Client) : Call → Prop
  | .map id _ => (c.blocks id).isSome = true
  | call => c.blocks call.id = none

/-- The call gives up before it asks: its block has no server, or is misplaced, the socket
    is closed, or an outdated block would be written. -/
def Declines (c : Client) (call : Call) : Prop :=
  (c.config.findServerIdByBlockId call.id).isEmpty = true ∨
    Misplaced c call ∨
    ∃ sock, c.sockets (c.config.findServerIdByBlockId call.id) = some sock ∧
      (sock.isValid = false ∨
        ∃ id e, call = .write id ∧ c.blocks id = some e ∧ e.valid = false)

/-- The call waits for a block to become outdated that is so already. -/
def Idle (c : Client) (call : Call) : Prop :=
  ∃ id e, call = .wait id ∧ c.blocks id = some e ∧ e.valid = false

/-- The server of the block was connected to, and the call waits for its reply. -/
def Asks (c : Client) (call : Call) : Prop :=
  (c.sockets (c.config.findServerIdByBlockId call.id)).isSome = true ∧ ¬ Idle c call

/-- **How a call starts.** -/
inductive Starts (c : Client) (call : Call) : Prop where
  | declined (code : Int) (h : Declines c call) (hneg : code < 0)
      (hsend : c.send call = .ok (.returned code c))
  | unconnected (h : ¬ Declines c call)
      (hsock : c.sockets (c.config.findServerIdByBlockId call.id) = none)
      (hsend : c.send call = .error .nullReference)
  | idle (h : ¬ Declines c call) (hidle : Idle c call)
      (hsend : c.send call = .ok (.returned 0 c))
  | asked {sid : String} {req : Node} {c₁ : Client} (h : ¬ Declines c call)
      (hasks : Asks c call) (hsend : c.send call = .ok (.sent sid req c₁))

/-- **The opening of a call other than map**: it settles how the call starts, or the call
    goes on with an entry and a valid socket, and declines only to write an outdated block. -/
theorem opening {c : Client} {call : Call} {k : String → BlockLocal → Sending}
    (hmap : call.type ≠ .map) (hopen : c.send call = c.openMapped call.id k) :
    Starts c call ∨ ∃ e sock, c.blocks call.id = some e ∧
      c.sockets (c.config.findServerIdByBlockId call.id) = some sock ∧
      c.send call = .ok (k (c.config.findServerIdByBlockId call.id) e) ∧
      (Declines c call ↔ ∃ id e', call = .write id ∧ c.blocks id = some e' ∧
        e'.valid = false) := by
  have hentry : Misplaced c call ↔ c.blocks call.id = none := by
    cases call with
    | map id address => exact absurd rfl hmap
    | unmap id => exact Iff.rfl
    | update id => exact Iff.rfl
    | write id => exact Iff.rfl
    | wait id => exact Iff.rfl
  by_cases hserver : (c.config.findServerIdByBlockId call.id).isEmpty = true
  · refine Or.inl (.declined (-1) (Or.inl hserver) (by decide) ?_)
    rw [hopen, Client.openMapped, if_pos hserver]
  · cases he : c.blocks call.id with
    | none =>
        refine Or.inl (.declined (-2) (Or.inr (Or.inl (hentry.mpr he))) (by decide) ?_)
        simp only [hopen, Client.openMapped, if_neg hserver, he]
    | some e =>
        have hdeclines : Declines c call ↔
            ∃ sock, c.sockets (c.config.findServerIdByBlockId call.id) = some sock ∧
              (sock.isValid = false ∨
                ∃ id e', call = .write id ∧ c.blocks id = some e' ∧ e'.valid = false) := by
          refine ⟨?_, fun h => Or.inr (Or.inr h)⟩
          rintro (h | h | h)
          · exact absurd h hserver
          · rw [hentry, he] at h
            cases h
          · exact h
        cases hsock : c.sockets (c.config.findServerIdByBlockId call.id) with
        | none =>
            refine Or.inl (.unconnected ?_ hsock ?_)
            · rw [hdeclines]
              rintro ⟨sock, h, -⟩
              rw [hsock] at h
              cases h
            · simp only [hopen, Client.openMapped, if_neg hserver, he, hsock]
        | some sock =>
            by_cases hvalid : sock.isValid = true
            · refine Or.inr ⟨e, sock, rfl, rfl, ?_, ?_⟩
              · simp only [hopen, Client.openMapped, if_neg hserver, he, hsock, if_pos hvalid]
              · rw [hdeclines]
                constructor
                · rintro ⟨sock', h, hclosed | hwrite⟩
                  · obtain rfl := Option.some.inj (hsock.symm.trans h)
                    rw [hvalid] at hclosed
                    cases hclosed
                  · exact hwrite
                · exact fun hwrite => ⟨sock, hsock, Or.inr hwrite⟩
            · refine Or.inl (.declined (-3) ?_ (by decide) ?_)
              · exact hdeclines.mpr ⟨sock, hsock, Or.inl (Bool.eq_false_iff.mpr hvalid)⟩
              · simp only [hopen, Client.openMapped, if_neg hserver, he, hsock, if_neg hvalid]

/-- A call that sends its request after the opening, if it is neither a write nor a wait. -/
theorem starts_sent {c : Client} {call : Call} (hmap : call.type ≠ .map)
    (hwrite : call.needsValid = false)
    (hopen : c.send call = c.openMapped call.id fun serverId block =>
      .sent serverId (emitBlock call.type block.toBlock true) c) : Starts c call := by
  rcases opening hmap hopen with h | ⟨e, sock, -, hsock, hsend, hdeclines⟩
  · exact h
  · refine .asked ?_ ⟨by rw [hsock]; rfl, ?_⟩ hsend
    · rw [hdeclines]
      rintro ⟨id, e', rfl, -, -⟩
      cases hwrite
    · rintro ⟨id, e', rfl, -, -⟩
      cases hwrite

theorem starts (c : Client) (call : Call) : Starts c call := by
  cases call with
  | map id address =>
      have hidle : ¬ Idle c (.map id address) := by
        rintro ⟨id', e, h, -, -⟩
        cases h
      have hwrite : ¬ ∃ id' e, Call.map id address = .write id' ∧ c.blocks id' = some e ∧
          e.valid = false := by
        rintro ⟨id', e, h, -, -⟩
        cases h
      cases Client.mapSends c id address with
      | unrouted hserver hsend => exact .declined _ (Or.inl hserver) (by decide) hsend
      | mapped _ hentry hsend => exact .declined _ (Or.inr (Or.inl hentry)) (by decide) hsend
      | closed _ hsock hclosed hsend =>
          exact .declined _ (Or.inr (Or.inr ⟨_, hsock, Or.inl hclosed⟩)) (by decide) hsend
      | unconnected hfree hsock hsend =>
          refine .unconnected ?_ hsock hsend
          rintro (h | h | ⟨sock, h, -⟩)
          · have hserver : (c.config.findServerIdByBlockId id).isEmpty = true := h
            rw [Client.send, Client.dmBlockMapSend, if_pos hserver] at hsend
            cases hsend
          · rw [Misplaced, hfree] at h
            cases h
          · cases hsock.symm.trans h
      | sent hserver hfree hsock hvalid hsend =>
          refine .asked ?_ ⟨?_, hidle⟩ hsend
          · rintro (h | h | ⟨sock, h, hclosed | h'⟩)
            · rw [show (Call.map id address).id = id from rfl, hserver] at h
              cases h
            · rw [Misplaced, hfree] at h
              cases h
            · obtain rfl := Option.some.inj (hsock.symm.trans h)
              rw [hvalid] at hclosed
              cases hclosed
            · exact hwrite h'
          · rw [show (Call.map id address).id = id from rfl, hsock]
            rfl
  | unmap id => exact starts_sent (show MessageType.unmap ≠ .map by decide) rfl rfl
  | update id => exact starts_sent (show MessageType.update ≠ .map by decide) rfl rfl
  | write id =>
      have hmap : (Call.write id).type ≠ .map := show MessageType.write ≠ .map by decide
      have hopen : c.send (.write id) = c.openMapped (Call.write id).id fun serverId block =>
        if !block.valid then .returned (-5) c
        else .sent serverId (emitBlock .write block.toBlock false) c := rfl
      rcases opening hmap hopen with h | ⟨e, sock, he, hsock, hsend, hdeclines⟩
      · exact h
      · cases hvalid : e.valid with
        | false =>
            rw [hvalid] at hsend
            exact .declined _ (hdeclines.mpr ⟨id, e, rfl, he, hvalid⟩) (by decide) hsend
        | true =>
            rw [hvalid] at hsend
            refine .asked ?_ ⟨by rw [hsock]; rfl, ?_⟩ hsend
            · rw [hdeclines]
              rintro ⟨id', e', h, he', hinvalid⟩
              obtain rfl := Call.write.inj h
              obtain rfl := Option.some.inj (he.symm.trans he')
              rw [hvalid] at hinvalid
              cases hinvalid
            · rintro ⟨id', e', h, -, -⟩
              cases h
  | wait id =>
      have hmap : (Call.wait id).type ≠ .map := show MessageType.wait ≠ .map by decide
      have hopen : c.send (.wait id) = c.openMapped (Call.wait id).id fun serverId block =>
        if !block.valid then .returned 0 c
        else .sent serverId (emitBlock .wait block.toBlock true) c := rfl
      rcases opening hmap hopen with h | ⟨e, sock, he, hsock, hsend, hdeclines⟩
      · exact h
      · have hno : ¬ Declines c (.wait id) := by
          rw [hdeclines]
          rintro ⟨id', e', h, -, -⟩
          cases h
        cases hvalid : e.valid with
        | false =>
            rw [hvalid] at hsend
            exact .idle hno ⟨id, e, rfl, he, hvalid⟩ hsend
        | true =>
            rw [hvalid] at hsend
            refine .asked hno ⟨by rw [hsock]; rfl, ?_⟩ hsend
            rintro ⟨id', e', h, he', hinvalid⟩
            obtain rfl := Call.wait.inj h
            obtain rfl := Option.some.inj (he.symm.trans he')
            rw [hvalid] at hinvalid
            cases hinvalid

/-- The message that a string makes, as its document says. -/
theorem ofNode_replyNode (yaml : YamlCpp) (reply : String) :
    Message.create yaml reply = Message.ofNode (replyNode yaml reply) := by
  obtain ⟨n, hn⟩ := Message.create_eq yaml reply
  rw [replyNode, hn]
  rfl

theorem Unchanged.refl (c : Client) : Unchanged c c := fun _ e hk => ⟨e, hk, rfl, rfl, rfl⟩

/-- A request that goes out changes no mapped block: a map is sent for one that is not. -/
theorem unchanged_of_requests {c c₁ : Client} {call : Call} {req : Node} {e : BlockLocal}
    (h : Client.Requests c call req c₁ e) : Unchanged c c₁ := by
  intro k e₀ hk
  by_cases hmap : call.type = .map
  · obtain ⟨id, address, rfl⟩ := Call.eq_map hmap
    have hid : k ≠ id := by
      rintro rfl
      rw [(h.created k address rfl).1] at hk
      cases hk
    rw [h.others k hid]
    exact ⟨e₀, hk, rfl, rfl, rfl⟩
  · rw [h.same hmap]
    exact ⟨e₀, hk, rfl, rfl, rfl⟩

/-- Nor does a NACK. -/
theorem unchanged_of_nack {c c₁ : Client} {call : Call} {req : Node} {e : BlockLocal}
    (h : Client.Requests c call req c₁ e) :
    Unchanged c (c₁.setBlock call.id (some (call.onNack e))) := by
  intro k e₀ hk
  obtain ⟨e₁, hk₁, hsame⟩ := unchanged_of_requests h k e₀ hk
  by_cases hid : k = call.id
  · subst hid
    obtain rfl := Option.some.inj (h.entry.symm.trans hk₁)
    rw [Client.setBlock_same]
    refine ⟨_, rfl, ?_⟩
    cases call with
    | map id address => exact hsame
    | unmap id => exact hsame
    | update id => exact hsame
    | write id => exact hsame
    | wait id => exact hsame
  · rw [Client.setBlock_other _ _ hid]
    exact ⟨e₁, hk₁, hsame⟩

/-- What a call that asked does with the string: it fails on an empty one and on a NACK, and
    takes any other for an ACK. -/
theorem ackOnly_of_asked (yaml : YamlCpp) {c c₁ : Client} {call : Call} {sid : String}
    {req : Node} (hsend : c.send call = .ok (.sent sid req c₁)) (reply : String) :
    AckOnly yaml c call reply ↔ Acknowledges yaml call reply ∨
      reply.isEmpty = true ∨ (Message.create yaml reply).type = .nack := by
  obtain ⟨e, hreq⟩ := Client.send_sent hsend
  have hperform : c.perform call (fun _ _ => received yaml reply) =
      c₁.receive call (received yaml reply) := by
    rw [Client.perform, hsend]
  cases hempty : reply.isEmpty with
  | true =>
      refine ⟨fun _ => Or.inr (Or.inl rfl), fun _ _ => ⟨-4, c₁, ?_, by decide, ?_⟩⟩
      · rw [hperform, received, if_pos hempty]
        exact Client.receive_none hreq.entry
      · exact unchanged_of_requests hreq
  | false =>
      rw [ofNode_replyNode yaml reply]
      have hreceived : received yaml reply = some (replyNode yaml reply) :=
        if_neg (by rw [hempty]; decide)
      rw [hreceived] at hperform
      constructor
      · intro h
        by_cases hack : Acknowledges yaml call reply
        · exact Or.inl hack
        · obtain ⟨code, c', hok, hneg, -⟩ := h hack
          rw [hreceived, hperform] at hok
          rcases Client.receive_cases hreq.entry hok with ⟨hn, -, -⟩ | ⟨-, rfl, -⟩
          · exact Or.inr (Or.inr hn)
          · exact absurd hneg (by decide)
      · rintro (hack | hno | hn) hnot
        · exact absurd hack hnot
        · cases hno
        · refine ⟨-5, _, ?_, by decide, unchanged_of_nack hreq⟩
          rw [hreceived, hperform]
          exact Client.receive_nack hreq.entry hn

/-- **A call takes whatever is no NACK for an ACK**: of the strings it may read, it deals
    with empty ones, NACKs and proper ACKs as it should, and with no others; and it succeeds
    without a reply if it waits on an outdated block. -/
theorem ackOnly_iff (yaml : YamlCpp) (c : Client) (call : Call) (reply : String) :
    AckOnly yaml c call reply ↔
      Acknowledges yaml call reply ∨ Declines c call ∨
        (Asks c call ∧ (reply.isEmpty = true ∨ (Message.create yaml reply).type = .nack)) := by
  cases starts c call with
  | declined code hdeclines hneg hsend =>
      refine ⟨fun _ => Or.inr (Or.inl hdeclines), fun _ _ => ⟨code, c, ?_, hneg, .refl c⟩⟩
      rw [Client.perform, hsend]
  | unconnected hno hsock hsend =>
      constructor
      · intro h
        by_contra hnot
        obtain ⟨code, c', hok, -⟩ := h fun hack => hnot (Or.inl hack)
        rw [Client.perform, hsend] at hok
        cases hok
      · rintro (hack | hdeclines | ⟨⟨hsome, -⟩, -⟩) hnot
        · exact absurd hack hnot
        · exact absurd hdeclines hno
        · rw [hsock] at hsome
          cases hsome
  | idle hno hidle hsend =>
      constructor
      · intro h
        by_contra hnot
        obtain ⟨code, c', hok, hneg, -⟩ := h fun hack => hnot (Or.inl hack)
        rw [Client.perform, hsend] at hok
        rw [← (Prod.mk.inj (Except.ok.inj hok)).1] at hneg
        exact absurd hneg (by decide)
      · rintro (hack | hdeclines | ⟨⟨-, hnot'⟩, -⟩) hnot
        · exact absurd hack hnot
        · exact absurd hdeclines hno
        · exact absurd hidle hnot'
  | asked hno hasks hsend =>
      rw [ackOnly_of_asked yaml hsend]
      exact ⟨Or.imp_right fun h => Or.inr ⟨hasks, h⟩,
        Or.imp_right fun h => (h.resolve_left hno).2⟩

/-- A client that has mapped block 7. -/
def mapped : Client :=
  connected.setBlock 7 (some ⟨7, 3, Data.memset 65, true⟩)

/-- A message that is no reply. -/
def requestReply : String := "\x7btype: WAIT\x7d\r\n\r\n"

/-- What the library finds in it. -/
def readsWait : YamlCpp where
  getNextDocument := fun node text =>
    if text = requestReply then .document ⟨some "WAIT", none⟩ else .throws node
  emitter := fun _ => ""

/-- **A reply that is a request** ends a write with success: the revision is counted up. -/
theorem ackOnly_wait : ¬ AckOnly readsWait mapped (.write 7) requestReply := by
  intro h
  have hnot : ¬ Acknowledges readsWait (.write 7) requestReply := by
    rintro ⟨n, -, hdoc, htype, -⟩
    have hwait : readsWait.getNextDocument Node.null requestReply =
        .document ⟨some "WAIT", none⟩ := by simp [readsWait]
    obtain rfl := Read.document.inj (hwait.symm.trans hdoc)
    exact nomatch htype
  obtain ⟨code, c', hok, hneg, -⟩ := h hnot
  have hzero : code = 0 := by
    have hrun : mapped.perform (.write 7)
        (fun _ _ => received readsWait requestReply) =
          .ok (0, mapped.setBlock 7 (some ⟨7, 4, Data.memset 65, true⟩)) := rfl
    rw [hrun] at hok
    exact (Prod.mk.inj (Except.ok.inj hok)).1.symm
  rw [hzero] at hneg
  exact absurd hneg (by decide)

end DmOutcome
