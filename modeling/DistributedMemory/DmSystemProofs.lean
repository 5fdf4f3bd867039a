import DistributedMemory.DmClientProofs
import DistributedMemory.DmHostProofs

/-!
# The system — one server, any number of clients, requests and replies in flight

Each client is one process that makes one `dm_block_*` call at a time over its own
connection; its handler thread on the server is the `DmHost` thread of the same index.
A connection is two queues, delivered in order: requests the thread has not read and
replies the client has not read. Messages carry no number on the wire; the `tag` next to
a message in a queue only says *which* request it is, or is the reply to, and no code
reads it.

Between its calls a client may change the content of the memory it mapped (`poked`). A
call's receive may find nothing for `TCP_TIMEOUT` seconds (`timedOut`). A client that uses
a null pointer or a null reference is dead from then on.
-/

namespace DmSystem

open DmBlock DmConfig DmMessage DmClient DmServer DmHost LabelledRun

variable {ι : Type} [DecidableEq ι]

/-- A call that wrote its request and waits for a reply: the call, which request on its
    connection it is, and the local variable `req`. -/
structure Pending where
  call : Call
  tag : Nat
  req : Node
  deriving DecidableEq

/-- A client with its connection: the call in progress, the number of requests written so
    far, and the two queues. -/
structure Link where
  client : Client
  dead : Bool
  pending : Option Pending
  sent : Nat
  requests : List (Nat × Node)
  replies : List (Nat × Node)

structure System (ι : Type) where
  host : Host ι
  link : ι → Link

/-- What is fixed before the start: the server's id and the blocks it hosts, and for every
    client its connection id, its configuration and its sockets. -/
structure Deployment (ι : Type) where
  serverId : String
  blocksId : List Int32
  clientId : ι → String
  config : ι → Config
  sockets : ι → String → Option SocketClient

/-- Freshly started: nothing mapped, nothing in flight. -/
def Deployment.start (D : Deployment ι) : System ι where
  host := Host.start D.blocksId
  link := fun c =>
    { client := ⟨D.config c, D.sockets c, fun _ => none⟩
      dead := false
      pending := none
      sent := 0
      requests := []
      replies := [] }

/-- What a step shows. -/
inductive Event (ι : Type) where
  /-- A call that came to its end without an exchange. -/
  | returned (c : ι) (call : Call) (code : Int)
  /-- A call wrote its request. -/
  | sent (c : ι) (p : Pending)
  /-- A call used a null pointer before it wrote anything. -/
  | died (c : ι) (call : Call)
  /-- The memory behind a block was changed between calls. -/
  | poked (c : ι) (id : Int32)
  /-- A critical section of the client's handler thread. -/
  | critical (c : ι) (tag : Nat) (req : Node) (ans : Option Node)
  /-- A wake-up without a broadcast. -/
  | woken (c : ι)
  /-- A call read a reply and returned, or (`none`) died of it. -/
  | received (c : ι) (p : Pending) (tag : Nat) (reply : Node) (code : Option Int)
  /-- A call read nothing in time. -/
  | timedOut (c : ι) (p : Pending)
  deriving DecidableEq

/-- Whose connection the step is on. -/
def Event.party : Event ι → ι
  | .returned c _ _ | .sent c _ | .died c _ | .poked c _ | .critical c _ _ _ | .woken c
  | .received c _ _ _ _ | .timedOut c _ => c

/-- The history of a run of the system. -/
abbrev Trace (ι : Type) := List (Entry (System ι) (Event ι))

namespace Link

/-- `sock << req`. -/
def write (l : Link) (client : Client) (call : Call) (req : Node) : Link :=
  { l with
    client := client
    pending := some ⟨call, l.sent, req⟩
    sent := l.sent + 1
    requests := l.requests ++ [(l.sent, req)] }

/-- The thread read the head of the queue and, unless it sleeps, sent a reply. -/
def answered (l : Link) (rest : List (Nat × Node)) (tag : Nat) (ans : Option Node) : Link :=
  { l with
    requests := rest
    replies := l.replies ++ ans.toList.map fun n => (tag, n) }

/-- The call is over. -/
def done (l : Link) (client : Client) (rest : List (Nat × Node)) : Link :=
  { l with client := client, pending := none, replies := rest }

end Link

/-- Client `c`'s link set to `l`. -/
def System.setLink (s : System ι) (c : ι) (l : Link) : System ι :=
  { s with link := Function.update s.link c l }

@[simp] theorem System.setLink_host (s : System ι) (c : ι) (l : Link) :
    (s.setLink c l).host = s.host := rfl

@[simp] theorem System.setLink_self (s : System ι) (c : ι) (l : Link) :
    (s.setLink c l).link c = l := by
  simp [setLink]

theorem System.setLink_other (s : System ι) {c u : ι} (l : Link) (hu : u ≠ c) :
    (s.setLink c l).link u = s.link u := by
  simp [setLink, hu]

/-- One step of the system. Calls on blocks that the configuration routes to another
    server never reach this one and are not part of it. -/
inductive Step (D : Deployment ι) : System ι → Event ι → System ι → Prop where
  | returned {s : System ι} {c : ι} {call : Call} {code : Int} {client : Client}
      (hidle : (s.link c).pending = none) (halive : (s.link c).dead = false)
      (hsend : (s.link c).client.send call = .ok (.returned code client)) :
      Step D s (.returned c call code) (s.setLink c { s.link c with client := client })
  | sent {s : System ι} {c : ι} {call : Call} {req : Node} {client : Client}
      (hidle : (s.link c).pending = none) (halive : (s.link c).dead = false)
      (hsend : (s.link c).client.send call = .ok (.sent D.serverId req client)) :
      Step D s (.sent c ⟨call, (s.link c).sent, req⟩)
        (s.setLink c ((s.link c).write client call req))
  | died {s : System ι} {c : ι} {call : Call} {f : Fault}
      (hidle : (s.link c).pending = none) (halive : (s.link c).dead = false)
      (hsend : (s.link c).client.send call = .error f) :
      Step D s (.died c call) (s.setLink c { s.link c with dead := true })
  | poked {s : System ι} {c : ι} {id : Int32} {e : BlockLocal} (d : Data)
      (hidle : (s.link c).pending = none) (halive : (s.link c).dead = false)
      (he : (s.link c).client.blocks id = some e) :
      Step D s (.poked c id)
        (s.setLink c { s.link c with
          client := (s.link c).client.setBlock id (some { e with data := d }) })
  | request {s : System ι} {c : ι} {tag : Nat} {req : Node} {rest : List (Nat × Node)}
      {ans : Option Node} {host : Host ι}
      (hreq : (s.link c).requests = (tag, req) :: rest)
      (hread : s.host.thread c = .reading)
      (hhost : DmHost.Step D.clientId s.host (.critical c tag req ans) host) :
      Step D s (.critical c tag req ans)
        ({ s with host := host }.setLink c ((s.link c).answered rest tag ans))
  | retry {s : System ι} {c : ι} {tag : Nat} {req : Node} {k : Int32} {msg : Message}
      {ans : Option Node} {host : Host ι}
      (hawake : s.host.thread c = .awake tag k msg)
      (hhost : DmHost.Step D.clientId s.host (.critical c tag req ans) host) :
      Step D s (.critical c tag req ans)
        ({ s with host := host }.setLink c
          ((s.link c).answered (s.link c).requests tag ans))
  | woken {s : System ι} {c : ι} {host : Host ι}
      (hhost : DmHost.Step D.clientId s.host (.woken c) host) :
      Step D s (.woken c) { s with host := host }
  | received {s : System ι} {c : ι} {p : Pending} {tag : Nat} {reply : Node}
      {rest : List (Nat × Node)} {code : Int} {client : Client}
      (hp : (s.link c).pending = some p) (halive : (s.link c).dead = false)
      (hrep : (s.link c).replies = (tag, reply) :: rest)
      (hrecv : (s.link c).client.receive p.call (some reply) = .ok (code, client)) :
      Step D s (.received c p tag reply (some code))
        (s.setLink c ((s.link c).done client rest))
  | receivedDied {s : System ι} {c : ι} {p : Pending} {tag : Nat} {reply : Node}
      {rest : List (Nat × Node)} {f : Fault}
      (hp : (s.link c).pending = some p) (halive : (s.link c).dead = false)
      (hrep : (s.link c).replies = (tag, reply) :: rest)
      (hrecv : (s.link c).client.receive p.call (some reply) = .error f) :
      Step D s (.received c p tag reply none)
        (s.setLink c { (s.link c).done (s.link c).client rest with dead := true })
  | timedOut {s : System ι} {c : ι} {p : Pending} {code : Int} {client : Client}
      (hp : (s.link c).pending = some p) (halive : (s.link c).dead = false)
      (hnone : (s.link c).replies = [])
      (hrecv : (s.link c).client.receive p.call none = .ok (code, client)) :
      Step D s (.timedOut c p) (s.setLink c ((s.link c).done client []))

/-- **A step is on one connection**: it leaves every other link alone, and no other thread
    gets to another request. -/
theorem step_other {D : Deployment ι} {s s' : System ι} {e : Event ι} {u : ι}
    (hs : Step D s e s') (hu : u ≠ e.party) :
    s'.link u = s.link u ∧
      serving (s'.host.thread u) = serving (s.host.thread u) := by
  cases hs with
  | returned _ _ _ => exact ⟨System.setLink_other _ _ hu, rfl⟩
  | sent _ _ _ => exact ⟨System.setLink_other _ _ hu, rfl⟩
  | died _ _ _ => exact ⟨System.setLink_other _ _ hu, rfl⟩
  | poked _ _ _ _ => exact ⟨System.setLink_other _ _ hu, rfl⟩
  | request _ _ hhost => exact ⟨System.setLink_other _ _ hu, serving_other hhost hu⟩
  | retry _ hhost => exact ⟨System.setLink_other _ _ hu, serving_other hhost hu⟩
  | woken hhost => exact ⟨rfl, serving_woken hhost u⟩
  | received _ _ _ _ => exact ⟨System.setLink_other _ _ hu, rfl⟩
  | receivedDied _ _ _ _ => exact ⟨System.setLink_other _ _ hu, rfl⟩
  | timedOut _ _ _ _ => exact ⟨System.setLink_other _ _ hu, rfl⟩

/-- Steps on other connections leave a link alone. -/
theorem run_other {D : Deployment ι} {s s' : System ι} {tr : Trace ι} {u : ι}
    (h : Run (Step D) s tr s') (hu : ∀ t ∈ tr, t.event.party ≠ u) : s'.link u = s.link u := by
  induction h with
  | nil => rfl
  | @snoc tr s₁ s₂ e hrun hs ih =>
      have hlast : e.party ≠ u := hu ⟨s₁, e, s₂⟩ (by simp)
      rw [(step_other hs hlast.symm).1]
      exact ih (fun t ht => hu t (List.mem_append_left _ ht))

/-- The requests a connection's thread still has to answer, oldest first. -/
def queue (s : System ι) (c : ι) : List (Nat × Node) :=
  (serving (s.host.thread c)).toList ++ (s.link c).requests

/-- **A critical section is on the oldest request of the queue**, and either answers it or
    leaves it where it is. -/
theorem critical_queue {D : Deployment ι} {s s' : System ι} {c : ι} {tag : Nat}
    {req : Node} {ans : Option Node} (hs : Step D s (.critical c tag req ans) s') :
    ∃ rest, queue s c = (tag, req) :: rest ∧
      queue s' c = (unanswered tag req ans).toList ++ rest ∧
      s'.link c = (s.link c).answered (s'.link c).requests tag ans ∧
      DmHost.Step D.clientId s.host (.critical c tag req ans) s'.host := by
  cases hs with
  | @request _ _ _ rest _ host hreq hread hhost =>
      refine ⟨rest, ?_, ?_, ?_, hhost⟩
      · rw [queue, hread, hreq]
        rfl
      · rw [queue, System.setLink_self]
        show (serving (host.thread c)).toList ++ rest = _
        rw [serving_critical hhost]
      · rw [System.setLink_self]
        rfl
  | @retry _ _ _ k msg _ host hawake hhost =>
      have hmsg : req = msg.node := by
        cases hhost with
        | first hread _ =>
            rw [hawake] at hread
            exact nomatch hread
        | again hawake' _ =>
            obtain ⟨-, -, rfl⟩ := Thread.awake.inj (hawake.symm.trans hawake')
            rfl
      refine ⟨(s.link c).requests, ?_, ?_, ?_, hhost⟩
      · rw [queue, hawake, hmsg]
        rfl
      · rw [queue, System.setLink_self]
        show (serving (host.thread c)).toList ++ (s.link c).requests = _
        rw [serving_critical hhost]
      · rw [System.setLink_self]
        rfl

/-- The runs of a freshly started system. -/
abbrev SysRun (D : Deployment ι) (tr : Trace ι) (s : System ι) : Prop :=
  Run (Step D) D.start tr s

/-- A call in progress was sent from the client's idle state. -/
theorem sent_inv {D : Deployment ι} {s s' : System ι} {c : ι} {p : Pending}
    (hs : Step D s (.sent c p) s') :
    (s.link c).pending = none ∧ ∃ client,
      (s.link c).client.send p.call = .ok (.sent D.serverId p.req client) ∧
      s' = s.setLink c ((s.link c).write client p.call p.req) ∧
      (s'.link c).pending = some p := by
  cases hs with
  | sent hidle halive hsend =>
      refine ⟨hidle, _, hsend, rfl, ?_⟩
      rw [System.setLink_self]
      rfl

/-- A dead client makes no calls. -/
theorem sent_alive {D : Deployment ι} {s s' : System ι} {c : ι} {p : Pending}
    (hs : Step D s (.sent c p) s') : (s.link c).dead = false := by
  cases hs with
  | sent _ halive _ => exact halive

/-- A call that came to its end without an exchange. -/
theorem returned_inv {D : Deployment ι} {s s' : System ι} {c : ι} {call : Call} {code : Int}
    (hs : Step D s (.returned c call code) s') :
    ∃ client, (s.link c).client.send call = .ok (.returned code client) := by
  cases hs with
  | returned _ _ hsend => exact ⟨_, hsend⟩

/-- A call that read a reply and returned. -/
theorem received_inv {D : Deployment ι} {s s' : System ι} {c : ι} {p : Pending} {tag : Nat}
    {reply : Node} {code : Int} (hs : Step D s (.received c p tag reply (some code)) s') :
    (s.link c).pending = some p ∧ ∃ rest client,
      (s.link c).replies = (tag, reply) :: rest ∧
      (s.link c).client.receive p.call (some reply) = .ok (code, client) ∧
      s' = s.setLink c ((s.link c).done client rest) := by
  cases hs with
  | received hp halive hrep hrecv => exact ⟨hp, _, _, hrep, hrecv, rfl⟩

/-- Whether the call returned or died, the reply it read was the first in its queue. -/
theorem received_head {D : Deployment ι} {s s' : System ι} {c : ι} {p : Pending} {tag : Nat}
    {reply : Node} {code : Option Int} (hs : Step D s (.received c p tag reply code) s') :
    (s.link c).pending = some p ∧ ∃ rest, (s.link c).replies = (tag, reply) :: rest := by
  cases hs with
  | received hp halive hrep hrecv => exact ⟨hp, _, hrep⟩
  | receivedDied hp halive hrep hrecv => exact ⟨hp, _, hrep⟩

/-- What a step does to what client `c` itself keeps: its table, the call it is in and
    whether it lives. -/
inductive ClientStep (D : Deployment ι) (s s' : System ι) (c : ι) : Event ι → Prop where
  /-- Nothing, unless it dies. -/
  | quiet {e : Event ι} (hclient : (s'.link c).client = (s.link c).client)
      (hlive : (s'.link c).dead = false →
        (s.link c).dead = false ∧ (s'.link c).pending = (s.link c).pending)
      (hevent : ∀ p tag reply code, e ≠ .received c p tag reply (some code)) :
      ClientStep D s s' c e
  | sent {p : Pending} {client : Client} (hidle : (s.link c).pending = none)
      (halive : (s.link c).dead = false)
      (hsend : (s.link c).client.send p.call = .ok (.sent D.serverId p.req client))
      (hclient : (s'.link c).client = client) (hpending : (s'.link c).pending = some p) :
      ClientStep D s s' c (.sent c p)
  | poked {id : Int32} {e : BlockLocal} (d : Data) (hidle : (s.link c).pending = none)
      (halive : (s.link c).dead = false) (he : (s.link c).client.blocks id = some e)
      (hclient : (s'.link c).client
        = (s.link c).client.setBlock id (some { e with data := d })) :
      ClientStep D s s' c (.poked c id)
  | received {p : Pending} {tag : Nat} {reply : Node} {code : Int} {client : Client}
      (hp : (s.link c).pending = some p)
      (hrecv : (s.link c).client.receive p.call (some reply) = .ok (code, client))
      (hclient : (s'.link c).client = client) (hdead : (s'.link c).dead = (s.link c).dead) :
      ClientStep D s s' c (.received c p tag reply (some code))
  | timedOut {p : Pending} : ClientStep D s s' c (.timedOut c p)

/-- **Every step is one of these for every client.** -/
theorem client_cases {D : Deployment ι} {s s' : System ι} {e : Event ι}
    (hs : Step D s e s') (c : ι) : ClientStep D s s' c e := by
  by_cases hc : c = e.party
  · cases hs with
    | @returned u call code client hidle halive hsend =>
        obtain rfl : c = u := hc
        refine .quiet ?_ ?_ (fun _ _ _ _ hev => nomatch hev) <;> rw [System.setLink_self]
        · exact (Client.send_returned hsend).2
        · exact fun hlive => ⟨hlive, rfl⟩
    | @sent u call req client hidle halive hsend =>
        obtain rfl : c = u := hc
        refine .sent hidle halive hsend ?_ ?_ <;> rw [System.setLink_self] <;> rfl
    | @died u call f hidle halive hsend =>
        obtain rfl : c = u := hc
        refine .quiet ?_ ?_ (fun _ _ _ _ hev => nomatch hev) <;> rw [System.setLink_self]
        exact nofun
    | @poked u id e d hidle halive he =>
        obtain rfl : c = u := hc
        exact .poked d hidle halive he (by rw [System.setLink_self])
    | @request u tag req rest ans host hreq hread hhost =>
        obtain rfl : c = u := hc
        refine .quiet ?_ ?_ (fun _ _ _ _ hev => nomatch hev) <;> rw [System.setLink_self]
        · rfl
        · exact fun hlive => ⟨hlive, rfl⟩
    | @retry u tag req k msg ans host hawake hhost =>
        obtain rfl : c = u := hc
        refine .quiet ?_ ?_ (fun _ _ _ _ hev => nomatch hev) <;> rw [System.setLink_self]
        · rfl
        · exact fun hlive => ⟨hlive, rfl⟩
    | woken hhost => exact .quiet rfl (fun hlive => ⟨hlive, rfl⟩) (fun _ _ _ _ hev => nomatch hev)
    | @received u p tag reply rest code client hp halive hrep hrecv =>
        obtain rfl : c = u := hc
        refine .received hp hrecv ?_ ?_ <;> rw [System.setLink_self] <;> rfl
    | @receivedDied u p tag reply rest f hp halive hrep hrecv =>
        -- the process is gone with the call
        obtain rfl : c = u := hc
        refine .quiet ?_ ?_ (fun _ _ _ _ hev => nomatch hev) <;> rw [System.setLink_self]
        · rfl
        · exact nofun
    | @timedOut u p code client hp halive hnone hrecv =>
        obtain rfl : c = u := hc
        exact .timedOut
  -- a step on another connection
  · have hlink := (step_other hs hc).1
    refine .quiet ?_ ?_ ?_
    · rw [hlink]
    · rw [hlink]
      exact fun hlive => ⟨hlive, rfl⟩
    · rintro p tag reply code rfl
      exact hc rfl

/-- A step takes the server's threads one step or leaves them alone. -/
theorem host_step {D : Deployment ι} {s s' : System ι} {e : Event ι} (hs : Step D s e s') :
    s'.host = s.host ∨ ∃ he, DmHost.Step D.clientId s.host he s'.host := by
  cases hs with
  | request _ _ hhost => exact Or.inr ⟨_, hhost⟩
  | retry _ hhost => exact Or.inr ⟨_, hhost⟩
  | woken hhost => exact Or.inr ⟨_, hhost⟩
  | returned _ _ _ => exact Or.inl rfl
  | sent _ _ _ => exact Or.inl rfl
  | died _ _ _ => exact Or.inl rfl
  | poked _ _ _ _ => exact Or.inl rfl
  | received _ _ _ _ => exact Or.inl rfl
  | receivedDied _ _ _ _ => exact Or.inl rfl
  | timedOut _ _ _ _ => exact Or.inl rfl

/-- What the server does in a run of the system is a run of the server. -/
theorem run_host {D : Deployment ι} {tr : Trace ι} {s : System ι} (h : SysRun D tr s) :
    ∃ tr', Run (DmHost.Step D.clientId) (Host.start D.blocksId) tr' s.host :=
  h.project (f := System.host) fun _ _ _ hs => host_step hs

/-- The condition variables are in order in every reachable state. -/
theorem sys_settled {D : Deployment ι} {tr : Trace ι} {s : System ι} (h : SysRun D tr s) :
    Settled s.host := by
  obtain ⟨tr', hrun⟩ := run_host h
  exact run_settled hrun

/-- **What a step does to the server**: nothing (a message that is no request gets a NACK
    and nothing else), or what one of the ways of `Served` does. -/
theorem server_cases {D : Deployment ι} {s s' : System ι} {e : Event ι}
    (hset : Settled s.host) (hs : Step D s e s') :
    (s'.host.server = s.host.server ∧ ∀ c tag req ans, e = .critical c tag req ans →
        (Message.ofNode req).type.isRequest = false) ∨
      ∃ c tag req b m sec, e = .critical c tag req (answer sec) ∧
        (Message.ofNode req).deref = .ok (b, m) ∧
        Served s.host.server (D.clientId c) b m (Message.ofNode req).type sec ∧
        s'.host.server = sec.server := by
  cases e with
  -- only a critical section touches the server
  | critical c tag req ans =>
      obtain ⟨-, -, -, -, hhost⟩ := critical_queue hs
      obtain ⟨sec, hleave, rfl, ⟨hnot, rfl⟩ | ⟨b, m, hm, hserved⟩⟩ := critical_cases hset hhost
      · refine Or.inl ⟨by rw [hleave]; rfl, ?_⟩
        rintro c' tag' req' ans' hev
        obtain ⟨-, -, rfl, -⟩ := Event.critical.inj hev
        exact hnot
      · exact Or.inr ⟨c, tag, req, b, m, sec, rfl, hm, hserved, by rw [hleave]; rfl⟩
  | woken c =>
      cases hs with
      | woken hhost => exact Or.inl ⟨server_woken hhost, fun _ _ _ _ hev => nomatch hev⟩
  | returned c call code =>
      cases hs
      exact Or.inl ⟨rfl, fun _ _ _ _ hev => nomatch hev⟩
  | sent c p =>
      cases hs
      exact Or.inl ⟨rfl, fun _ _ _ _ hev => nomatch hev⟩
  | died c call =>
      cases hs
      exact Or.inl ⟨rfl, fun _ _ _ _ hev => nomatch hev⟩
  | poked c id =>
      cases hs
      exact Or.inl ⟨rfl, fun _ _ _ _ hev => nomatch hev⟩
  | received c p tag reply code =>
      cases hs
      · exact Or.inl ⟨rfl, fun _ _ _ _ hev => nomatch hev⟩
      · exact Or.inl ⟨rfl, fun _ _ _ _ hev => nomatch hev⟩
  | timedOut c p =>
      cases hs
      exact Or.inl ⟨rfl, fun _ _ _ _ hev => nomatch hev⟩

/-- **A critical section on a request that a client emitted** is one of the ways of
    `Served`, for the block as it was emitted. -/
theorem critical_emitted {D : Deployment ι} {s s' : System ι} {c : ι} {tag : Nat}
    {ans : Option Node} {t : MessageType} {blk : Block} {shallow : Bool}
    (hset : Settled s.host) (ht : t.isRequest = true)
    (hs : Step D s (.critical c tag (emitBlock t blk shallow) ans) s') :
    ∃ sec, Served s.host.server (D.clientId c) (Message.decoded blk shallow)
        ⟨emitBlock t blk shallow, some (Message.decoded blk shallow)⟩ t sec ∧
      s'.host.server = sec.server ∧ ans = answer sec := by
  obtain ⟨-, -, -, -, hhost⟩ := critical_queue hs
  obtain ⟨sec, hleave, hans, hserved⟩ := critical_request hset hhost
    (Message.type_emitBlock t blk shallow) ht (Message.deref_emitBlock t blk shallow)
  exact ⟨sec, hserved, by rw [hleave]; rfl, hans⟩

/-- A connection with nothing in flight and no call in progress. -/
structure Quiet (s : System ι) (c : ι) : Prop where
  pending : (s.link c).pending = none
  dead : (s.link c).dead = false
  requests : (s.link c).requests = []
  replies : (s.link c).replies = []
  thread : s.host.thread c = .reading

/-- The steps of a call that is made, served and returns with nothing in between. -/
def roundSteps (c : ι) (p : Pending) (ack : Node) (code : Int) (s s₁ s₂ s' : System ι) :
    Trace ι :=
  [⟨s, .sent c p, s₁⟩, ⟨s₁, .critical c p.tag p.req (some ack), s₂⟩,
   ⟨s₂, .received c p p.tag ack (some code), s'⟩]

/-- **A call made, served and returned** with nothing in between, on a quiet
    connection. -/
theorem round {D : Deployment ι} {s : System ι} {c : ι} {call : Call} {req ack : Node}
    {client client' : Client} {sec : Section} {code : Int} (hquiet : Quiet s c)
    (hsend : (s.link c).client.send call = .ok (.sent D.serverId req client))
    (hpass : s.host.server.clientHandler (D.clientId c) (Message.ofNode req) = .ok sec)
    (ho : sec.outcome = .send ack)
    (hrecv : client.receive call (some ack) = .ok (code, client')) :
    ∃ s₁ s₂ s',
      Run (Step D) s (roundSteps c ⟨call, (s.link c).sent, req⟩ ack code s s₁ s₂ s') s' ∧
      s₁.host = s.host ∧ (s₂.link c).client = client ∧
      s'.host = s.host.leave c (s.link c).sent sec ∧ (s'.link c).client = client' ∧
      Quiet s' c ∧ ∀ u, u ≠ c → s'.link u = s.link u := by
  have h₁ := Step.sent hquiet.pending hquiet.dead hsend
  obtain ⟨s₁, hs₁⟩ : ∃ s₁, s₁ = s.setLink c ((s.link c).write client call req) := ⟨_, rfl⟩
  have hlink₁ : s₁.link c = (s.link c).write client call req := by
    rw [hs₁, System.setLink_self]
  have hhost₁ : s₁.host = s.host := by rw [hs₁]; rfl
  -- the thread is reading, so the request is served at once
  have h₂ : Step D s₁ (.critical c (s.link c).sent req (some ack))
      ({ s₁ with host := s.host.leave c (s.link c).sent sec }.setLink c
        ((s₁.link c).answered [] (s.link c).sent (some ack))) := by
    refine Step.request ?_ (by rw [hhost₁]; exact hquiet.thread) ?_
    · rw [hlink₁, Link.write, hquiet.requests]
      rfl
    · have hans : answer sec = some ack := by rw [answer, ho]
      rw [hhost₁, ← hans]
      exact DmHost.Step.first hquiet.thread hpass
  obtain ⟨s₂, hs₂⟩ : ∃ s₂, s₂ =
      System.setLink { s₁ with host := s.host.leave c (s.link c).sent sec } c
        ((s₁.link c).answered [] (s.link c).sent (some ack)) := ⟨_, rfl⟩
  have hlink₂ : s₂.link c = ((s.link c).write client call req).answered [] (s.link c).sent
      (some ack) := by rw [hs₂, System.setLink_self, hlink₁]
  -- the reply is the only one there is to read
  have h₃ : Step D s₂
      (.received c ⟨call, (s.link c).sent, req⟩ (s.link c).sent ack (some code))
      (s₂.setLink c ((s₂.link c).done client' [])) := by
    refine Step.received ?_ ?_ ?_ ?_
    · rw [hlink₂]
      rfl
    · rw [hlink₂]
      exact hquiet.dead
    · rw [hlink₂, Link.answered, Link.write, hquiet.replies]
      rfl
    · rw [hlink₂]
      exact hrecv
  rw [← hs₁] at h₁
  rw [← hs₂] at h₂
  refine ⟨s₁, s₂, _, ((Run.nil.snoc h₁).snoc h₂).snoc h₃, hhost₁, ?_, ?_, ?_, ?_, ?_⟩
  · rw [hlink₂]
    rfl
  · rw [System.setLink_host, hs₂]
    rfl
  · rw [System.setLink_self]
    rfl
  · constructor
    · rw [System.setLink_self]
      rfl
    · rw [System.setLink_self, hlink₂]
      exact hquiet.dead
    · rw [System.setLink_self, hlink₂]
      rfl
    · rw [System.setLink_self]
      rfl
    · rw [System.setLink_host, hs₂]
      show (s.host.leave c (s.link c).sent sec).thread c = .reading
      rw [Host.leave_thread_self, after, ho]
  · intro u hu
    rw [System.setLink_other _ _ hu, hs₂, System.setLink_other _ _ hu]
    show s₁.link u = s.link u
    rw [hs₁, System.setLink_other _ _ hu]

/-- The others' connections stay quiet. -/
theorem Quiet.of_leave {s s' : System ι} {c u : ι} {tag : Nat} {sec : Section}
    (h : Quiet s u) (hu : u ≠ c) (hhost : s'.host = s.host.leave c tag sec)
    (hlink : s'.link u = s.link u) : Quiet s' u := by
  refine ⟨?_, ?_, ?_, ?_, ?_⟩
  · rw [hlink]
    exact h.pending
  · rw [hlink]
    exact h.dead
  · rw [hlink]
    exact h.requests
  · rw [hlink]
    exact h.replies
  · rw [hhost, Host.leave_thread_other _ _ _ hu, h.thread]
    rfl

/-- No call of the run returned `-4`. -/
def NoTimeout (tr : Trace ι) : Prop := ∀ t ∈ tr, ∀ c p, t.event ≠ .timedOut c p

omit [DecidableEq ι] in
theorem noTimeout_append {tr tr' : Trace ι} (h : NoTimeout tr) (h' : NoTimeout tr') :
    NoTimeout (tr ++ tr') := by
  intro t ht
  rcases List.mem_append.mp ht with hin | hin
  · exact h t hin
  · exact h' t hin

omit [DecidableEq ι] in
theorem noTimeout_round (c : ι) (p : Pending) (ack : Node) (code : Int)
    (s s₁ s₂ s' : System ι) : NoTimeout (roundSteps c p ack code s s₁ s₂ s') := by
  intro t ht u q hev
  simp only [roundSteps, List.mem_cons, List.not_mem_nil, or_false] at ht
  rcases ht with rfl | rfl | rfl <;> exact nomatch hev

/-- The call gave up. -/
def Event.isTimeout : Event ι → Bool
  | .timedOut _ _ => true
  | _ => false

omit [DecidableEq ι] in
theorem noTimeout_iff {tr : Trace ι} :
    NoTimeout tr ↔ ∀ t ∈ tr, t.event.isTimeout = false := by
  constructor
  · intro h t ht
    cases hev : t.event with
    | timedOut c p => exact absurd hev (h t ht c p)
    | _ => rfl
  · intro h t ht c p hev
    have := h t ht
    rw [hev] at this
    exact nomatch this

instance (tr : Trace ι) : Decidable (NoTimeout tr) :=
  decidable_of_iff (∀ t ∈ tr, t.event.isTimeout = false) noTimeout_iff.symm

/-! ## Running the system -/

/-- What can happen next. -/
inductive Action (ι : Type) where
  | call (c : ι) (call : Call)
  | poke (c : ι) (id : Int32) (d : Data)
  | serve (c : ι)
  | wake (c : ι)
  | receive (c : ι)
  | timeout (c : ι)

/-- The step an action takes, if it is possible. -/
def next (D : Deployment ι) (s : System ι) : Action ι → Option (Event ι × System ι)
  | .call c call =>
      let l := s.link c
      if l.pending.isSome || l.dead then none
      else
        match l.client.send call with
        | .error _ => some (.died c call, s.setLink c { l with dead := true })
        | .ok (.returned code client) =>
            some (.returned c call code, s.setLink c { l with client := client })
        | .ok (.sent serverId req client) =>
            if serverId = D.serverId then
              some (.sent c ⟨call, l.sent, req⟩, s.setLink c (l.write client call req))
            else none
  | .poke c id d =>
      let l := s.link c
      if l.pending.isSome || l.dead then none
      else
        match l.client.blocks id with
        | none => none
        | some e =>
            some (.poked c id, s.setLink c { l with
              client := l.client.setBlock id (some { e with data := d }) })
  | .serve c =>
      let l := s.link c
      match s.host.thread c with
      | .reading =>
          match l.requests with
          | [] => none
          | (tag, req) :: rest =>
              match s.host.server.clientHandler (D.clientId c) (Message.ofNode req) with
              | .error _ => none
              | .ok sec =>
                  some (.critical c tag req (answer sec),
                    { s with host := s.host.leave c tag sec }.setLink c
                      (l.answered rest tag (answer sec)))
      | .asleep _ _ _ => none
      | .awake tag k msg =>
          match s.host.server.handleWait k msg with
          | .error _ => none
          | .ok sec =>
              some (.critical c tag msg.node (answer sec),
                { s with host := s.host.leave c tag sec }.setLink c
                  (l.answered l.requests tag (answer sec)))
  | .wake c =>
      match s.host.thread c with
      | .asleep tag k msg =>
          some (.woken c, { s with host := s.host.setThread c (.awake tag k msg) })
      | _ => none
  | .receive c =>
      let l := s.link c
      match l.pending, l.dead, l.replies with
      | some p, false, (tag, reply) :: rest =>
          match l.client.receive p.call (some reply) with
          | .error _ =>
              some (.received c p tag reply none,
                s.setLink c { l.done l.client rest with dead := true })
          | .ok (code, client) =>
              some (.received c p tag reply (some code), s.setLink c (l.done client rest))
      | _, _, _ => none
  | .timeout c =>
      let l := s.link c
      match l.pending, l.dead, l.replies with
      | some p, false, [] =>
          match l.client.receive p.call none with
          | .error _ => none
          | .ok (_, client) => some (.timedOut c p, s.setLink c (l.done client []))
      | _, _, _ => none

/-- Every action performed is a step. -/
theorem next_sound (D : Deployment ι) :
    ∀ (s : System ι) (a : Action ι) (e : Event ι) (s' : System ι),
      next D s a = some (e, s') → Step D s e s' := by
  intro s a e s' hn
  cases a with
  | call c call =>
      simp only [next] at hn
      split at hn
      · exact nomatch hn
      · rename_i hfree
        obtain ⟨hidle, halive⟩ : (s.link c).pending = none ∧ (s.link c).dead = false := by
          simpa using hfree
        split at hn
        · rename_i hsend
          obtain ⟨rfl, rfl⟩ := Prod.mk.inj (Option.some.inj hn)
          exact Step.died hidle halive hsend
        · rename_i hsend
          obtain ⟨rfl, rfl⟩ := Prod.mk.inj (Option.some.inj hn)
          exact Step.returned hidle halive hsend
        · rename_i hsend
          split at hn
          · rename_i hsid
            obtain ⟨rfl, rfl⟩ := Prod.mk.inj (Option.some.inj hn)
            rw [hsid] at hsend
            exact Step.sent hidle halive hsend
          · exact nomatch hn
  | poke c id d =>
      simp only [next] at hn
      split at hn
      · exact nomatch hn
      · rename_i hfree
        obtain ⟨hidle, halive⟩ : (s.link c).pending = none ∧ (s.link c).dead = false := by
          simpa using hfree
        split at hn
        · exact nomatch hn
        · rename_i he
          obtain ⟨rfl, rfl⟩ := Prod.mk.inj (Option.some.inj hn)
          exact Step.poked d hidle halive he
  | serve c =>
      simp only [next] at hn
      split at hn
      · rename_i hread
        split at hn
        · exact nomatch hn
        · rename_i hreq
          split at hn
          · exact nomatch hn
          · rename_i hpass
            obtain ⟨rfl, rfl⟩ := Prod.mk.inj (Option.some.inj hn)
            exact Step.request hreq hread (DmHost.Step.first hread hpass)
      · exact nomatch hn
      · rename_i hawake
        split at hn
        · exact nomatch hn
        · rename_i hloop
          obtain ⟨rfl, rfl⟩ := Prod.mk.inj (Option.some.inj hn)
          exact Step.retry hawake (DmHost.Step.again hawake hloop)
  | wake c =>
      simp only [next] at hn
      split at hn
      · rename_i hasleep
        obtain ⟨rfl, rfl⟩ := Prod.mk.inj (Option.some.inj hn)
        exact Step.woken (DmHost.Step.spurious hasleep)
      · exact nomatch hn
  | receive c =>
      simp only [next] at hn
      split at hn
      · rename_i hp halive hrep
        split at hn
        · rename_i hrecv
          obtain ⟨rfl, rfl⟩ := Prod.mk.inj (Option.some.inj hn)
          exact Step.receivedDied hp halive hrep hrecv
        · rename_i hrecv
          obtain ⟨rfl, rfl⟩ := Prod.mk.inj (Option.some.inj hn)
          exact Step.received hp halive hrep hrecv
      · exact nomatch hn
  | timeout c =>
      simp only [next] at hn
      split at hn
      · rename_i hp halive hnone
        split at hn
        · exact nomatch hn
        · rename_i hrecv
          obtain ⟨rfl, rfl⟩ := Prod.mk.inj (Option.some.inj hn)
          exact Step.timedOut hp halive hnone hrecv
      · exact nomatch hn

/-- Two clients of one server that hosts block 7. -/
def twoClients : Deployment Bool where
  serverId := "10.0.0.1:5000"
  blocksId := [7]
  clientId := fun c => if c then "10.0.0.3:40001" else "10.0.0.2:40001"
  config := fun _ => ⟨[("10.0.0.1:5000", ⟨"10.0.0.1", "5000", [7], "pass", "", ""⟩)]⟩
  sockets := fun _ id => if id = "10.0.0.1:5000" then some ⟨true⟩ else none

end DmSystem
