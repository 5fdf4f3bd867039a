import Mathlib.Data.String.Basic
import DistributedMemory.OrderedMapProofs
import DistributedMemory.DmClientProofs
import DistributedMemory.DmServerProofs

/-!
# Routing — from the configuration file to the server that hosts a block

Clients and servers read the same file. `Config::Config` makes the map of servers of it, or
nothing at all when the library throws; `dm_init` opens a socket for every key of that map,
`Server::Server` makes the blocks its own entry lists, and a client asks the map in reverse
which server a block is on.

* **`ServerNode`** — what the conversions of the library find in one entry of the file.
* **`Config.create`**, **`Server.ofConfig`**, **`Client.dmInit`** — the three readers.
* **`routing_agrees`** — they agree: the server a client sends a block's requests to is one
  it has a socket for, and hosts the block.
-/

namespace DmRouting

open DmBlock DmConfig DmMessage DmClient DmServer OrderedMap

/-! ## The file -/

/-- One entry of the configuration file. -/
structure ServerNode where
  ip : DmMessage.Field String
  port : DmMessage.Field String
  blocks : DmMessage.Field (List Int32)
  pass : DmMessage.Field String
  privkey : DmMessage.Field String
  pubkey : DmMessage.Field String

/-- `node[key] >> value`; `none` where it throws, for a missing key as for a value that
    does not convert. -/
def read {α : Type} : DmMessage.Field α → Option α
  | .value a => some a
  | .absent => none
  | .illTyped => none

/-- The body of the loop, up to the assignment into the map. -/
def ServerNode.conf (n : ServerNode) : Option ServerConf := do
  let ip ← read n.ip
  let port ← read n.port
  let blocksId ← read n.blocks
  let pass ← read n.pass
  let privkey ← read n.privkey
  let pubkey ← read n.pubkey
  return { ip, port, blocksId, pass, privkey, pubkey }

/-- What `GetNextDocument` makes of a file: a document, by the entries `doc[i]` below
    `doc.size()`; none, which leaves `doc` without entries; or an exception. -/
inductive ConfigRead where
  | document (doc : List ServerNode)
  | nothing
  | throws

/-- The function of the YAML library that reads the configuration file. -/
structure YamlFile where
  getNextDocument : String → ConfigRead

/-- The key of a server. -/
def serverId (server : ServerConf) : String := server.ip ++ ":" ++ server.port

/-- The loop of `Config::Config`; `none` as soon as an entry throws. -/
def readServers (servers : ServerMap) : List ServerNode → Option ServerMap
  | [] => some servers
  | n :: rest =>
      match n.conf with
      | none => none
      | some server => readServers (OrderedMap.insert servers (serverId server) server) rest

/-- `Config::Config`; an exception clears the map. -/
def Config.create (yaml : YamlFile) (filename : String) : Config :=
  match yaml.getNextDocument filename with
  | .document doc => ⟨(readServers [] doc).getD []⟩
  | .nothing => ⟨[]⟩
  | .throws => ⟨[]⟩

/-- `Server::Server`; `none` where it throws. -/
def Server.ofConfig (config : Config) (id : String) : Option Server :=
  if config.isValid then (config.find id).map fun conf => Server.create conf.blocksId
  else none

/-- `Client::Client`. -/
def Client.create (yaml : YamlFile) : Client :=
  ⟨Config.create yaml "", fun _ => none, fun _ => none⟩

/-- The loop of `dm_init`; it ends with the first server that cannot be connected to. -/
def openSockets (connect : ServerConf → Bool) (sockets : String → Option SocketClient) :
    ServerMap → Bool × (String → Option SocketClient)
  | [] => (true, sockets)
  | (id, conf) :: rest =>
      if connect conf then openSockets connect (Function.update sockets id (some ⟨true⟩)) rest
      else (false, sockets)

/-- `dm_init`: whether it returns or throws, and the client after it. -/
def Client.dmInit (c : Client) (yaml : YamlFile) (configFile : String)
    (connect : ServerConf → Bool) : Bool × Client :=
  let c := { c with config := Config.create yaml configFile }
  if c.config.isValid then
    let opened := openSockets connect c.sockets c.config.findAll
    (opened.1, { c with sockets := opened.2 })
  else (false, c)

/-! ## Reading the entries -/

/-- The entry has all its keys, with values that convert. -/
def ServerNode.Complete (n : ServerNode) : Prop :=
  (∃ a, n.ip = .value a) ∧ (∃ a, n.port = .value a) ∧ (∃ a, n.blocks = .value a) ∧
    (∃ a, n.pass = .value a) ∧ (∃ a, n.privkey = .value a) ∧ ∃ a, n.pubkey = .value a

/-- No two entries have the same ip:port. -/
def DistinctIds (doc : List ServerNode) : Prop :=
  doc.Pairwise fun n n' => ∀ conf conf', n.conf = some conf → n'.conf = some conf' →
    serverId conf ≠ serverId conf'

/-- Only a value that is there and converts is read. -/
theorem read_eq_some {α : Type} {f : DmMessage.Field α} {a : α} :
    read f = some a ↔ f = .value a := by
  cases f with
  | absent => simp [read]
  | illTyped => simp [read]
  | value b => simp [read]

/-- The complete entries are those that are read without an exception. -/
theorem complete_iff (n : ServerNode) : n.Complete ↔ ∃ conf, n.conf = some conf := by
  constructor
  · rintro ⟨⟨ip, hip⟩, ⟨port, hport⟩, ⟨blocks, hblocks⟩, ⟨pass, hpass⟩, ⟨privkey, hpriv⟩,
      pubkey, hpub⟩
    exact ⟨_, by rw [ServerNode.conf, hip, hport, hblocks, hpass, hpriv, hpub]; rfl⟩
  · rintro ⟨conf, h⟩
    simp only [ServerNode.conf, Option.bind_eq_bind, Option.bind_eq_some_iff, read_eq_some]
      at h
    obtain ⟨ip, hip, port, hport, blocks, hblocks, pass, hpass, privkey, hpriv, pubkey, hpub,
      -⟩ := h
    exact ⟨⟨ip, hip⟩, ⟨port, hport⟩, ⟨blocks, hblocks⟩, ⟨pass, hpass⟩, ⟨privkey, hpriv⟩,
      pubkey, hpub⟩

/-- The map stays in the order of the server ids. -/
theorem readServers_sorted {servers servers' : ServerMap} {doc : List ServerNode}
    (h : Sorted servers) (hread : readServers servers doc = some servers') :
    Sorted servers' := by
  induction doc generalizing servers with
  | nil =>
      obtain rfl := Option.some.inj hread
      exact h
  | cons n rest ih =>
      rw [readServers] at hread
      cases hn : n.conf with
      | none =>
          rw [hn] at hread
          exact nomatch hread
      | some server =>
          rw [hn] at hread
          exact ih (sorted_insert h _ _) hread

/-- Every key of the map is the id of its entry. -/
theorem readServers_keys {servers servers' : ServerMap} {doc : List ServerNode}
    (h : Sorted servers) (hkeys : ∀ x ∈ servers, x.1 = serverId x.2)
    (hread : readServers servers doc = some servers') :
    ∀ x ∈ servers', x.1 = serverId x.2 := by
  induction doc generalizing servers with
  | nil =>
      obtain rfl := Option.some.inj hread
      exact hkeys
  | cons n rest ih =>
      rw [readServers] at hread
      cases hn : n.conf with
      | none =>
          rw [hn] at hread
          exact nomatch hread
      | some server =>
          rw [hn] at hread
          refine ih (sorted_insert h _ _) (fun x hx => ?_) hread
          rcases (mem_insert h _ _ x).mp hx with rfl | ⟨hin, -⟩
          · rfl
          · exact hkeys x hin

/-- **One entry that is not complete ends the loop**, wherever it stands. -/
theorem readServers_eq_none {servers : ServerMap} {doc : List ServerNode} {n : ServerNode}
    (hn : n ∈ doc) (hnone : n.conf = none) : readServers servers doc = none := by
  induction doc generalizing servers with
  | nil => exact nomatch hn
  | cons m rest ih =>
      rw [readServers]
      rcases List.mem_cons.mp hn with rfl | hin
      · rw [hnone]
      · cases m.conf with
        | none => rfl
        | some server => exact ih hin

/-- **Complete entries with distinct ids are all in the map**, and nothing else is. -/
theorem readServers_mem {servers : ServerMap} {doc : List ServerNode} (h : Sorted servers)
    (hdoc : ∀ n ∈ doc, n.Complete)
    (hdistinct : DistinctIds doc)
    (hnew : ∀ n ∈ doc, ∀ conf, n.conf = some conf → ∀ x ∈ servers, x.1 ≠ serverId conf) :
    ∃ servers', readServers servers doc = some servers' ∧
      ∀ x, x ∈ servers' ↔
        x ∈ servers ∨ ∃ n ∈ doc, n.conf = some x.2 ∧ x.1 = serverId x.2 := by
  induction doc generalizing servers with
  | nil => exact ⟨servers, rfl, fun x => by simp⟩
  | cons n rest ih =>
      obtain ⟨conf, hconf⟩ := (complete_iff n).mp (hdoc n List.mem_cons_self)
      obtain ⟨hhead, hrest⟩ := List.pairwise_cons.mp hdistinct
      obtain ⟨servers', hread, hmem⟩ :=
        ih (sorted_insert h (serverId conf) conf)
          (fun m hm => hdoc m (List.mem_cons_of_mem _ hm)) hrest (by
            intro m hm conf' hconf' x hx
            rcases (mem_insert h _ _ x).mp hx with rfl | ⟨hin, -⟩
            · exact hhead m hm conf conf' hconf hconf'
            · exact hnew m (List.mem_cons_of_mem _ hm) conf' hconf' x hin)
      refine ⟨servers', by rw [readServers, hconf]; exact hread, fun x => ?_⟩
      rw [hmem, mem_insert h]
      constructor
      · rintro ((rfl | ⟨hin, -⟩) | ⟨m, hm, hx⟩)
        · exact Or.inr ⟨n, List.mem_cons_self, hconf, rfl⟩
        · exact Or.inl hin
        · exact Or.inr ⟨m, List.mem_cons_of_mem _ hm, hx⟩
      · rintro (hin | ⟨m, hm, hx, hid⟩)
        · exact Or.inl (Or.inr ⟨hin, hnew n List.mem_cons_self conf hconf x hin⟩)
        · rcases List.mem_cons.mp hm with rfl | hm
          · obtain rfl := Option.some.inj (hconf.symm.trans hx)
            exact Or.inl (Or.inl (Prod.ext hid rfl))
          · exact Or.inr ⟨m, hm, hx, hid⟩

/-- The map of a document is what the loop makes of it, or empty. -/
theorem create_document {yaml : YamlFile} {file : String} {doc : List ServerNode}
    (hdoc : yaml.getNextDocument file = .document doc) :
    (Config.create yaml file).servers = (readServers [] doc).getD [] := by
  rw [Config.create, hdoc]

/-- The map of a configuration is in the order of the server ids, whatever the file. -/
theorem create_sorted (yaml : YamlFile) (filename : String) :
    Sorted (Config.create yaml filename).servers := by
  have hempty : Sorted ([] : ServerMap) := sorted_nil
  rw [Config.create]
  cases yaml.getNextDocument filename with
  | nothing => exact hempty
  | throws => exact hempty
  | document doc =>
      show Sorted ((readServers [] doc).getD [])
      cases hread : readServers [] doc with
      | none => exact hempty
      | some servers => exact readServers_sorted hempty hread

/-- So is every key of a configuration. -/
theorem create_keys (yaml : YamlFile) (filename : String) :
    ∀ x ∈ (Config.create yaml filename).servers, x.1 = serverId x.2 := by
  cases hdoc : yaml.getNextDocument filename with
  | nothing =>
      rw [Config.create, hdoc]
      exact fun _ hx => nomatch hx
  | throws =>
      rw [Config.create, hdoc]
      exact fun _ hx => nomatch hx
  | document doc =>
      rw [create_document hdoc]
      cases hread : readServers [] doc with
      | none => exact fun _ hx => nomatch hx
      | some servers =>
          exact readServers_keys sorted_nil (fun _ hx => nomatch hx) hread

/-- A server id is not empty. -/
theorem serverId_ne_empty (server : ServerConf) : serverId server ≠ "" := by
  intro h
  have hlength := congrArg String.length h
  simp [serverId] at hlength

/-! ## The reverse lookup -/

/-- **What the reverse lookup finds**: the empty string, and no entry lists the block, or
    the id of an entry that does. -/
theorem findServerIdByBlockId_cases (c : Config) (b : Int32) :
    (c.findServerIdByBlockId b = "" ∧ ∀ sit ∈ c.servers, b ∉ sit.2.blocksId) ∨
      ∃ sit ∈ c.servers, b ∈ sit.2.blocksId ∧ c.findServerIdByBlockId b = sit.1 := by
  obtain ⟨servers⟩ := c
  simp only [Config.findServerIdByBlockId]
  -- the last entry decides, if it lists the block
  induction servers using List.reverseRecOn with
  | nil => exact Or.inl ⟨rfl, fun _ h => nomatch h⟩
  | append_singleton servers sit ih =>
      rw [List.foldl_append, List.foldl_cons, List.foldl_nil]
      by_cases hb : b ∈ sit.2.blocksId
      · rw [if_pos hb]
        exact Or.inr ⟨sit, by simp, hb, rfl⟩
      · rw [if_neg hb]
        rcases ih with ⟨hempty, hnone⟩ | ⟨sit', hin, hb', hid⟩
        · refine Or.inl ⟨hempty, fun sit' hin => ?_⟩
          rcases List.mem_append.mp hin with hin | hin
          · exact hnone sit' hin
          · rw [List.mem_singleton.mp hin]
            exact hb
        · exact Or.inr ⟨sit', List.mem_append_left _ hin, hb', hid⟩

/-- **A block is routed to a server whose entry lists it**, if to any. -/
theorem find_of_routed {c : Config} {b : Int32} (hsorted : Sorted c.servers)
    (h : c.findServerIdByBlockId b ≠ "") :
    ∃ conf, c.find (c.findServerIdByBlockId b) = some conf ∧ b ∈ conf.blocksId ∧
      (c.findServerIdByBlockId b, conf) ∈ c.servers := by
  rcases findServerIdByBlockId_cases c b with ⟨hempty, -⟩ | ⟨sit, hin, hb, hid⟩
  · exact absurd hempty h
  · rw [hid]
    exact ⟨sit.2, (lookup_iff hsorted _ _).mpr hin, hb, hin⟩

/-- **A server hosts every block that its clients' configuration routes to it.** -/
theorem hosted_of_routed {yaml : YamlFile} {file id : String} {conf : ServerConf} {b : Int32}
    (hfind : (Config.create yaml file).find id = some conf)
    (hroute : (Config.create yaml file).findServerIdByBlockId b = id) : b ∈ conf.blocksId := by
  have hsorted := create_sorted yaml file
  have hne : (Config.create yaml file).findServerIdByBlockId b ≠ "" := by
    have hkey : id = serverId conf :=
      create_keys yaml file (id, conf) ((lookup_iff hsorted _ _).mp hfind)
    rw [hroute, hkey]
    exact serverId_ne_empty conf
  obtain ⟨conf', hfind', hb, -⟩ := find_of_routed hsorted hne
  rw [hroute, hfind] at hfind'
  rw [Option.some.inj hfind']
  exact hb

/-- Requests about a block go to the server the configuration finds for it. -/
theorem send_server {c c' : Client} {call : Call} {sid : String} {req : Node}
    (h : c.send call = .ok (.sent sid req c')) :
    sid = c.config.findServerIdByBlockId call.id ∧ sid ≠ "" := by
  have hne : ∀ id : Int32, ∀ k, c.openMapped id k = .ok (.sent sid req c') →
      c.config.findServerIdByBlockId id ≠ "" := by
    rintro id k hk hempty
    rw [Client.openMapped, hempty] at hk
    cases hk
  cases call with
  | map id address =>
      cases Client.mapSends c id address with
      | unrouted _ hsend => cases h.symm.trans hsend
      | mapped _ _ hsend => cases h.symm.trans hsend
      | unconnected _ _ hsend => cases h.symm.trans hsend
      | closed _ _ _ hsend => cases h.symm.trans hsend
      | sent hserver _ _ _ hsend =>
          obtain ⟨rfl, -, -⟩ := Sending.sent.inj (Except.ok.inj (h.symm.trans hsend))
          refine ⟨rfl, fun hempty => ?_⟩
          rw [hempty] at hserver
          cases hserver
  | unmap id =>
      rw [Client.send, Client.dmBlockUnmapSend] at h
      obtain ⟨e, -, hk, -⟩ := Client.openMapped_sent h
      obtain ⟨rfl, -, -⟩ := Sending.sent.inj hk
      exact ⟨rfl, hne id _ h⟩
  | update id =>
      rw [Client.send, Client.dmBlockUpdateSend] at h
      obtain ⟨e, -, hk, -⟩ := Client.openMapped_sent h
      obtain ⟨rfl, -, -⟩ := Sending.sent.inj hk
      exact ⟨rfl, hne id _ h⟩
  | write id =>
      rw [Client.send, Client.dmBlockWriteSend] at h
      obtain ⟨e, -, hk, -⟩ := Client.openMapped_sent h
      split at hk
      · cases hk
      · obtain ⟨rfl, -, -⟩ := Sending.sent.inj hk
        exact ⟨rfl, hne id _ h⟩
  | wait id =>
      rw [Client.send, Client.dmBlockWaitSend] at h
      obtain ⟨e, -, hk, -⟩ := Client.openMapped_sent h
      split at hk
      · cases hk
      · obtain ⟨rfl, -, -⟩ := Sending.sent.inj hk
        exact ⟨rfl, hne id _ h⟩

/-! ## Sockets -/

/-- If no connection fails, every key of the map gets a socket, and none loses one. -/
theorem openSockets_opened {connect : ServerConf → Bool}
    {sockets sockets' : String → Option SocketClient} {servers : ServerMap}
    (h : openSockets connect sockets servers = (true, sockets')) (id : String)
    (hid : (sockets id).isSome = true ∨ ∃ conf, (id, conf) ∈ servers) :
    (sockets' id).isSome = true := by
  induction servers generalizing sockets with
  | nil =>
      obtain rfl := (Prod.mk.inj h).2
      rcases hid with hsome | ⟨conf, hin⟩
      · exact hsome
      · exact nomatch hin
  | cons x rest ih =>
      obtain ⟨id', conf'⟩ := x
      rw [openSockets] at h
      split at h
      · refine ih h ?_
        by_cases heq : id = id'
        · subst heq
          exact Or.inl (by rw [Function.update_self]; rfl)
        · rw [Function.update_of_ne heq]
          refine hid.imp_right ?_
          rintro ⟨conf, hin⟩
          rcases List.mem_cons.mp hin with hhead | hin
          · exact absurd (congrArg Prod.fst hhead) heq
          · exact ⟨conf, hin⟩
      · exact nomatch h

/-! ## Agreement -/

/-- Block `b` in the configuration read from the entries `doc`: it is routed nowhere exactly
    if no entry lists it, and otherwise to the server of an entry that lists it; that server
    hosts it, every client that was initialised has a socket for it, and every request about
    the block goes there. -/
structure Routes (yaml : YamlFile) (file : String) (doc : List ServerNode) (b : Int32) :
    Prop where
  nowhere : (Config.create yaml file).findServerIdByBlockId b = "" ↔
    ∀ n ∈ doc, ∀ conf, n.conf = some conf → b ∉ conf.blocksId
  entry : (Config.create yaml file).findServerIdByBlockId b ≠ "" →
    ∃ n ∈ doc, ∃ conf, n.conf = some conf ∧ b ∈ conf.blocksId ∧
      (Config.create yaml file).findServerIdByBlockId b = serverId conf ∧
      (serverId conf, conf) ∈ (Config.create yaml file).findAll
  hosted : (Config.create yaml file).findServerIdByBlockId b ≠ "" →
    ∃ server, Server.ofConfig (Config.create yaml file)
        ((Config.create yaml file).findServerIdByBlockId b) = some server ∧
      server.blocks b = some (BlockServer.create b)
  socket : (Config.create yaml file).findServerIdByBlockId b ≠ "" →
    ∀ c connect c', Client.dmInit c yaml file connect = (true, c') →
      (c'.sockets ((Config.create yaml file).findServerIdByBlockId b)).isSome = true
  sends : ∀ (c c' : Client) (call : Call) (sid : String) (req : Node),
    c.config = Config.create yaml file → call.id = b →
    c.send call = .ok (.sent sid req c') →
    sid = (Config.create yaml file).findServerIdByBlockId b

/-- The map read from complete entries with distinct ids. -/
theorem create_mem {yaml : YamlFile} {file : String} {doc : List ServerNode}
    (hdoc : yaml.getNextDocument file = .document doc) (hcomplete : ∀ n ∈ doc, n.Complete)
    (hdistinct : DistinctIds doc) (x : String × ServerConf) :
    x ∈ (Config.create yaml file).servers ↔
      ∃ n ∈ doc, n.conf = some x.2 ∧ x.1 = serverId x.2 := by
  have hempty : Sorted ([] : ServerMap) := sorted_nil
  obtain ⟨servers, hread, hmem⟩ :=
    readServers_mem hempty hcomplete hdistinct (fun _ _ _ _ _ hx => nomatch hx)
  have hservers : (Config.create yaml file).servers = servers := by
    rw [create_document hdoc, hread]
    rfl
  rw [hservers, hmem]
  exact or_iff_right (fun h => nomatch h)

/-- **Routing agrees with hosting**: for a file of complete entries with distinct ids every
    block is routed to a server that hosts it, if any entry lists it; a single entry that is
    not complete makes the whole configuration invalid and empty. -/
theorem routing_agrees (yaml : YamlFile) (file : String) (doc : List ServerNode)
    (hdoc : yaml.getNextDocument file = .document doc)
    (hdistinct : DistinctIds doc) :
    ((∀ n ∈ doc, n.Complete) → ∀ b, Routes yaml file doc b) ∧
      ((∃ n ∈ doc, ¬ n.Complete) →
        (Config.create yaml file).isValid = false ∧ (Config.create yaml file).findAll = []) := by
  constructor
  · intro hcomplete b
    have hmem := create_mem hdoc hcomplete hdistinct
    have hsorted := create_sorted yaml file
    constructor
    · rcases findServerIdByBlockId_cases (Config.create yaml file) b with
        ⟨hempty, hnone⟩ | ⟨sit, hin, hb, hid⟩
      · refine ⟨fun _ n hn conf hconf => ?_, fun _ => hempty⟩
        exact hnone (serverId conf, conf) ((hmem _).mpr ⟨n, hn, hconf, rfl⟩)
      · obtain ⟨n, hn, hconf, hkey⟩ := (hmem sit).mp hin
        rw [hid, hkey]
        exact ⟨fun h => absurd h (serverId_ne_empty _), fun h => absurd hb (h n hn _ hconf)⟩
    · intro hne
      obtain ⟨conf, -, hb, hin⟩ := find_of_routed hsorted hne
      obtain ⟨n, hn, hconf, hkey⟩ := (hmem _).mp hin
      have hid : (Config.create yaml file).findServerIdByBlockId b = serverId conf := hkey
      exact ⟨n, hn, conf, hconf, hb, hid, by rw [← hid]; exact hin⟩
    · intro hne
      obtain ⟨conf, hfind, hb, hin⟩ := find_of_routed hsorted hne
      refine ⟨Server.create conf.blocksId, ?_, ?_⟩
      · have hvalid : (Config.create yaml file).isValid = true := by
          cases hservers : (Config.create yaml file).servers with
          | nil =>
              rw [hservers] at hin
              exact nomatch hin
          | cons x rest => rw [Config.isValid, hservers]; rfl
        rw [Server.ofConfig, if_pos hvalid, hfind]
        rfl
      · rw [Server.create_blocks, if_pos hb]
    · intro hne c connect c' hinit
      obtain ⟨conf, -, -, hin⟩ := find_of_routed hsorted hne
      rw [Client.dmInit] at hinit
      split at hinit
      · obtain ⟨hopened, rfl⟩ := Prod.mk.inj hinit
        exact openSockets_opened (Prod.ext hopened rfl) _ (Or.inr ⟨conf, hin⟩)
      · exact nomatch hinit
    · rintro c c' call sid req hc rfl hsend
      rw [← hc]
      exact (send_server hsend).1
  · rintro ⟨n, hn, hincomplete⟩
    have hnone : n.conf = none := by
      cases hconf : n.conf with
      | none => rfl
      | some conf => exact absurd ((complete_iff n).mpr ⟨conf, hconf⟩) hincomplete
    have hempty : (Config.create yaml file).servers = [] := by
      rw [create_document hdoc, readServers_eq_none hn hnone]
      rfl
    exact ⟨by rw [Config.isValid, hempty]; rfl, hempty⟩

/-- Two servers that both list block 3, the second one twice. -/
def overlapping : List ServerNode :=
  [⟨.value "10.0.0.1", .value "123", .value [1, 3], .value "pass", .value "k", .value "p"⟩,
   ⟨.value "10.0.0.1", .value "456", .value [3, 4, 3], .value "pass", .value "k", .value "p"⟩]

theorem routing_agrees_overlapping :
    Routes ⟨fun _ => .document overlapping⟩ "dmconfig.yml" overlapping 3 := by
  refine (routing_agrees _ _ overlapping rfl ?_).1 ?_ 3
  · refine List.pairwise_cons.mpr ⟨?_, List.pairwise_singleton _ _⟩
    intro n hn conf conf' hconf hconf'
    rw [List.mem_singleton.mp hn] at hconf'
    rw [← Option.some.inj hconf, ← Option.some.inj hconf']
    decide
  · intro n hn
    rcases List.mem_cons.mp hn with rfl | hn
    · exact (complete_iff _).mpr ⟨_, rfl⟩
    · rw [List.mem_singleton.mp hn]
      exact (complete_iff _).mpr ⟨_, rfl⟩

end DmRouting
