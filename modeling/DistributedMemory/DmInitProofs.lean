import DistributedMemory.RunProofs
import DistributedMemory.DmRoutingProofs

/-!
# Initialization — a client whose `dm_init` ended half way

`dm_init` installs the configuration, then connects to one server after the other in the
order of their ids, and ends with the first that cannot be connected to. The client is
left with the whole configuration and the sockets made so far. A later call finds the
server of its block in the one and looks the socket up in the other, where
`sockets[server_id]` is a null pointer for a server that was never connected to.

* **`Step`** — the calls of a client, in any order, whatever they read from their sockets.
* **`Usable`** — every server that a block is routed to has an open socket, and no call
  uses one that was never opened.
* **`usable_iff`** — so it is after `dm_init`, in every state that calls lead to, exactly if
  the servers of all blocks come before the first that fails.
-/

namespace DmInit

open DmBlock DmConfig DmMessage DmClient DmRouting LabelledRun

/-! ## Calls in any order -/

/-- A call that returned: what it read from its socket, and the code. -/
structure Returned where
  call : Call
  reply : Option Node
  code : Int

/-- One call that returns. -/
inductive Step : Client → Returned → Client → Prop where
  | returned {c c' : Client} {call : Call} {reply : Option Node} {code : Int}
      (h : c.perform call (fun _ _ => reply) = .ok (code, c')) :
      Step c ⟨call, reply, code⟩ c'

/-- The server has a socket, and it is open. -/
def Opened (sockets : String → Option SocketClient) (id : String) : Prop :=
  ∃ sock, sockets id = some sock ∧ sock.isValid = true

/-- The socket threw, the reply is a NACK, or it has the block that the call takes out of
    it. -/
def Readable (call : Call) : Option Node → Prop
  | none => True
  | some n => (Message.ofNode n).type = .nack ∨
      (call.usesBlock = true → ∃ b m, (Message.ofNode n).deref = .ok (b, m))

/-- Every server that a block is routed to has an open socket; no call uses one that was
    never opened, and every call whose reply is readable returns a status code. -/
structure Usable (c : Client) : Prop where
  sockets : ∀ b, c.config.findServerIdByBlockId b ≠ "" →
    Opened c.sockets (c.config.findServerIdByBlockId b)
  opened : ∀ call f, c.send call ≠ .error f
  codes : ∀ call reply, Readable call reply → ∃ code c',
    c.perform call (fun _ _ => reply) = .ok (code, c') ∧ code ∈ Client.statusCodes

/-! ## One call -/

/-- **A call keeps configuration and sockets.** -/
theorem perform_keeps {c c' : Client} {call : Call} {reply : Option Node} {code : Int}
    (h : c.perform call (fun _ _ => reply) = .ok (code, c')) :
    c'.config = c.config ∧ c'.sockets = c.sockets := by
  cases hsend : c.send call with
  | error f =>
      rw [Client.perform, hsend] at h
      exact nomatch h
  | ok s =>
      cases s with
      | returned n c₁ =>
          rw [Client.perform, hsend] at h
          obtain ⟨rfl, rfl⟩ := Prod.mk.inj (Except.ok.inj h)
          rw [(Client.send_returned hsend).2]
          exact ⟨rfl, rfl⟩
      | sent sid req c₁ =>
          obtain ⟨e, hreq⟩ := Client.send_sent hsend
          rw [Client.perform, hsend] at h
          -- what is done with the reply is done to the table of blocks
          cases reply with
          | none =>
              have hret := h.symm.trans (Client.receive_none hreq.entry)
              obtain ⟨-, rfl⟩ := Prod.mk.inj (Except.ok.inj hret)
              exact hreq.config
          | some n =>
              rcases Client.receive_cases hreq.entry h with ⟨-, -, rfl⟩ | ⟨-, -, b, -, rfl⟩
              · exact hreq.config
              · exact hreq.config

/-- A call that sends its request returns a status code, if its reply is readable. -/
theorem receive_codes {c : Client} {call : Call} {e : BlockLocal} {reply : Option Node}
    (he : c.blocks call.id = some e) (hreply : Readable call reply) :
    ∃ code c', c.receive call reply = .ok (code, c') ∧ code ∈ Client.statusCodes := by
  cases reply with
  | none => exact ⟨-4, c, Client.receive_none he, by decide⟩
  | some n =>
      by_cases hn : (Message.ofNode n).type = .nack
      · exact ⟨-5, _, Client.receive_nack he hn, by decide⟩
      · rcases hreply with hnack | hblock
        · exact absurd hnack hn
        · cases hu : call.usesBlock with
          | true =>
              obtain ⟨b, m, hm⟩ := hblock hu
              exact ⟨0, _, Client.receive_ack he hn fun _ => hm, by decide⟩
          | false =>
              refine ⟨0, _, Client.receive_ack (b := BlockServer.create 0)
                (m := Message.ofNode n) he hn fun ht => ?_, by decide⟩
              rw [hu] at ht
              exact nomatch ht

/-- **Open sockets are all that a client needs.** -/
theorem usable_of_opened {c : Client}
    (h : ∀ b, c.config.findServerIdByBlockId b ≠ "" →
      Opened c.sockets (c.config.findServerIdByBlockId b)) : Usable c := by
  have hopened : ∀ call f, c.send call ≠ .error f := by
    intro call f hsend
    obtain ⟨hserver, hnull⟩ := Client.send_error hsend
    have hne : c.config.findServerIdByBlockId call.id ≠ "" := by
      intro hempty
      rw [hempty] at hserver
      exact nomatch hserver
    obtain ⟨sock, hsock, -⟩ := h call.id hne
    rw [hnull] at hsock
    exact nomatch hsock
  refine ⟨h, hopened, fun call reply hreply => ?_⟩
  cases hsend : c.send call with
  | error f => exact absurd hsend (hopened call f)
  | ok s =>
      rw [Client.perform, hsend]
      cases s with
      | returned code c' => exact ⟨code, c', rfl, (Client.send_returned hsend).1⟩
      | sent sid req c' =>
          obtain ⟨e, hreq⟩ := Client.send_sent hsend
          exact receive_codes hreq.entry hreply

/-! ## The sockets `dm_init` makes -/

/-- The server comes before the first whose connection fails, or has an open socket
    already. -/
def Connects (c : Client) (config : Config) (connect : ServerConf → Bool) (id : String) : Prop :=
  (∃ conf, (id, conf) ∈ config.findAll.takeWhile fun sit => connect sit.2) ∨ Opened c.sockets id

/-- **The loop opens the sockets of the servers before the first that fails**, whether it
    gets through or not. -/
theorem openSockets_iff (connect : ServerConf → Bool) (servers : ServerMap)
    (sockets : String → Option SocketClient) (id : String) :
    Opened (openSockets connect sockets servers).2 id ↔
      (∃ conf, (id, conf) ∈ servers.takeWhile fun sit => connect sit.2) ∨
        Opened sockets id := by
  induction servers generalizing sockets with
  | nil => simp [openSockets]
  | cons sit rest ih =>
      obtain ⟨id', conf'⟩ := sit
      rw [openSockets]
      by_cases hconnect : connect conf' = true
      · rw [if_pos hconnect, ih, List.takeWhile_cons, if_pos hconnect]
        -- the socket just made is in the table from now on
        by_cases hid : id = id'
        · subst hid
          have hnew : Opened (Function.update sockets id (some ⟨true⟩)) id :=
            ⟨⟨true⟩, Function.update_self .., rfl⟩
          exact ⟨fun _ => Or.inl ⟨conf', List.mem_cons_self⟩, fun _ => Or.inr hnew⟩
        · rw [Opened, Function.update_of_ne hid]
          refine or_congr_left (exists_congr fun conf => ?_)
          rw [List.mem_cons]
          exact ⟨Or.inr, fun h => h.resolve_left fun heq => hid (congrArg Prod.fst heq)⟩
      · rw [if_neg hconnect, List.takeWhile_cons, if_neg hconnect]
        simp

theorem dmInit_config (c : Client) (yaml : YamlFile) (file : String)
    (connect : ServerConf → Bool) :
    (Client.dmInit c yaml file connect).2.config = Config.create yaml file := by
  rw [Client.dmInit]
  split <;> rfl

/-- The sockets after `dm_init`, returned or thrown. -/
theorem dmInit_sockets (c : Client) (yaml : YamlFile) (file : String)
    (connect : ServerConf → Bool) (id : String) :
    Opened (Client.dmInit c yaml file connect).2.sockets id ↔
      Connects c (Config.create yaml file) connect id := by
  rw [Client.dmInit]
  split
  · exact openSockets_iff connect _ _ id
  · rename_i hvalid
    have hnone : (Config.create yaml file).findAll = [] := by
      simpa [Config.isValid, Config.findAll] using hvalid
    rw [Connects, hnone]
    simp

/-! ## Every state that calls lead to -/

/-- So does every run. -/
theorem run_keeps {tr : List (Entry Client Returned)} {c c' : Client} (hrun : Run Step c tr c') :
    c'.config = c.config ∧ c'.sockets = c.sockets := by
  induction hrun with
  | nil => exact ⟨rfl, rfl⟩
  | snoc _ hstep ih =>
      cases hstep with
      | returned hperform =>
          obtain ⟨hconfig, hsockets⟩ := perform_keeps hperform
          exact ⟨hconfig.trans ih.1, hsockets.trans ih.2⟩

/-- **A client is usable after `dm_init` exactly if the servers of all blocks come before
    the first that fails.** -/
theorem usable_iff (c : Client) (yaml : YamlFile) (file : String) (connect : ServerConf → Bool) :
    (∀ tr c', Run Step (Client.dmInit c yaml file connect).2 tr c' → Usable c') ↔
      ∀ b, (Config.create yaml file).findServerIdByBlockId b ≠ "" →
        Connects c (Config.create yaml file) connect
          ((Config.create yaml file).findServerIdByBlockId b) := by
  constructor
  · intro h b hb
    have hstart := (h [] _ Run.nil).sockets b
    rw [dmInit_config] at hstart
    exact (dmInit_sockets c yaml file connect _).mp (hstart hb)
  · intro h tr c' hrun
    have hkept := run_keeps hrun
    refine usable_of_opened fun b hb => ?_
    rw [hkept.1, dmInit_config] at hb ⊢
    rw [hkept.2]
    exact (dmInit_sockets c yaml file connect _).mpr (h b hb)

/-- Two servers, with one block each. -/
def twoServers : List ServerNode :=
  [⟨.value "10.0.0.1", .value "123", .value [1], .value "pass", .value "k", .value "p"⟩,
   ⟨.value "10.0.0.2", .value "123", .value [2], .value "pass", .value "k", .value "p"⟩]

/-- A new client whose second server cannot be connected to. -/
def halfConnected : Bool × Client :=
  Client.dmInit (Client.create ⟨fun _ => .document twoServers⟩) ⟨fun _ => .document twoServers⟩
    "dmconfig.yml" fun conf => conf.ip != "10.0.0.2"

/-- **`dm_init` has thrown, and mapping a block of the second server uses a null pointer.** -/
theorem usable_halfConnected :
    halfConnected.1 = false ∧
      halfConnected.2.send (.map 2 (Data.memset 0)) = .error .nullReference ∧
      ¬ ∀ tr c', Run Step halfConnected.2 tr c' → Usable c' := by
  have hnull : halfConnected.2.send (.map 2 (Data.memset 0)) = .error .nullReference := by
    have hserver : halfConnected.2.config.findServerIdByBlockId 2 = "10.0.0.2:123" := by
      decide +kernel
    have hsocket : halfConnected.2.sockets "10.0.0.2:123" = none := by decide +kernel
    have hfree : halfConnected.2.blocks 2 = none := by decide +kernel
    rw [Client.send, Client.dmBlockMapSend, hserver, if_neg (by decide), hfree, hsocket]
    rfl
  refine ⟨by decide +kernel, hnull, fun h => ?_⟩
  exact (h [] _ Run.nil).opened _ _ hnull

end DmInit
