import DistributedMemory.DmServerProofs

/-!
# Answers — what one pass of the handler's loop does with any string

A connection's thread reads a string, makes a message of it, handles it and sends one
reply; for a WAIT it may first sleep and look again each time it is woken. The pass faults
when it uses the block of a message that has none, copies a block out of too few bytes, or
puts out 128 bytes without a NUL as a C string: the process that holds everybody's blocks
is gone then. So it is if the reply goes to a peer that is gone.

* **`pass`** — one pass, run against the states of the table in which the thread gets the
  mutex, and what the connection makes of the reply.
* **`Answered`** — one reply, a NACK unless the message is a known request with a block
  that decodes, and no fault; the loop goes on.
* **`answered_iff`** — the strings that are answered, in any state of the table.
-/

namespace DmAnswer

open DmBlock DmMessage DmServer

/-! ## One pass -/

/-- The reply of a critical section and, if it sleeps, of the ones after it: `woken` are
    the tables the thread finds when it is woken. `none` is a thread still asleep. -/
def replyOf : Outcome → List Server → Except Fault (Option Node)
  | .send ack, _ => .ok (some ack)
  | .wait _ _, [] => .ok none
  | .wait blockId msg, s :: woken =>
      match s.handleWait blockId msg with
      | .error f => .error f
      | .ok sec => replyOf sec.outcome woken

@[simp] theorem replyOf_send (ack : Node) (woken : List Server) :
    replyOf (.send ack) woken = .ok (some ack) := by
  cases woken <;> rfl

/-- The C string in a buffer. Without a NUL in it the reading goes on past its end. -/
def cString (buffer : List UInt8) : Except Fault (List UInt8) :=
  if 0 ∈ buffer then .ok (buffer.takeWhile (· ≠ 0)) else .error .outOfBounds

/-- The debug output of a WRITE to a hosted block: the data of the message's block. The
    bytes are counted before the stream asks whether its level is put out. -/
def printData (s : Server) (msg : Message) : Except Fault (List UInt8) :=
  match msg.type with
  | .write =>
      match msg.deref with
      | .error f => .error f
      | .ok (b, _) => if (s.blocks b.id).isSome then cString b.data.bytes else .ok []
  | _ => .ok []

/-- The reply that a message gets, after what the handler prints of it. -/
def respond (s : Server) (clientId : String) (msg : Message) (woken : List Server) :
    Except Fault (Option Node) :=
  match printData s msg with
  | .error f => .error f
  | .ok _ =>
      match s.clientHandler clientId msg with
      | .error f => .error f
      | .ok sec => replyOf sec.outcome woken

/-- What becomes of the bytes handed to `::send`: all are taken, fewer are or none, or the
    peer is gone and the process gets a SIGPIPE, which it does not handle. -/
inductive SendResult where
  | all
  | short
  | brokenPipe
  deriving DecidableEq

/-- What the connection makes of the two pieces of a reply. -/
structure Link where
  header : SendResult
  body : SendResult

/-- How a pass ends: with a reply sent, asleep, with the loop left, or with the process
    killed. -/
inductive Ending where
  | replied (ack : Node)
  | asleep
  | left
  | killed

/-- `(*socket) << ack`: what is not taken whole throws, and the loop is left. -/
def Link.deliver (link : Link) (ack : Node) : Ending :=
  match link.header with
  | .brokenPipe => .killed
  | .short => .left
  | .all =>
      match link.body with
      | .brokenPipe => .killed
      | .short => .left
      | .all => .replied ack

/-- Both pieces are taken. -/
def Link.takes (link : Link) : Prop := link.header = .all ∧ link.body = .all

/-- Only what is taken is sent. -/
theorem Link.deliver_eq_replied {link : Link} {ack ack' : Node} :
    link.deliver ack = .replied ack' ↔ link.takes ∧ ack = ack' := by
  obtain ⟨header, body⟩ := link
  cases header with
  | all =>
      cases body with
      | all => exact ⟨fun h => ⟨⟨rfl, rfl⟩, Ending.replied.inj h⟩, fun h => congrArg _ h.2⟩
      | short => exact ⟨nofun, fun h => nomatch h.1.2⟩
      | brokenPipe => exact ⟨nofun, fun h => nomatch h.1.2⟩
  | short => exact ⟨nofun, fun h => nomatch h.1.1⟩
  | brokenPipe => exact ⟨nofun, fun h => nomatch h.1.1⟩

theorem Link.deliver_ne_asleep (link : Link) (ack : Node) : link.deliver ack ≠ .asleep := by
  obtain ⟨header, body⟩ := link
  cases header with
  | all => cases body <;> nofun
  | short => nofun
  | brokenPipe => nofun

/-- One pass of the loop of `client_handler` for a string off the socket. `operator>>`
    throws on an empty one. -/
def pass (yaml : YamlCpp) (s : Server) (clientId message : String) (woken : List Server)
    (link : Link) : Except Fault Ending :=
  if message.isEmpty then .ok .left
  else
    match respond s clientId (Message.create yaml message) woken with
    | .error f => .error f
    | .ok none => .ok .asleep
    | .ok (some ack) => .ok (link.deliver ack)

/-- A WAIT for the revision that the hosted block has in all the states. -/
def Current (msg : Message) (states : List Server) : Prop :=
  msg.type = .wait ∧ ∃ b m, msg.deref = .ok (b, m) ∧
    ∀ s ∈ states, ∃ it, s.blocks b.id = some it ∧ it.revision = b.revision

/-- The pass sends one reply, a WAIT's not before the revision differs, and it is a NACK
    unless the message is a request whose block decodes. -/
def Answered (yaml : YamlCpp) (s : Server) (clientId message : String) (link : Link) : Prop :=
  ∀ woken, ∃ ending, pass yaml s clientId message woken link = .ok ending ∧
    (ending = .asleep ∨ ∃ ack, ending = .replied ack) ∧
    (ending = .asleep ↔ Current (Message.create yaml message) (s :: woken)) ∧
    (¬ ((Message.create yaml message).type.isRequest = true ∧
        (Message.create yaml message).decodable = true) → ending = .replied (emit .nack))

/-! ## The loop around the condition variable -/

/-- **A sleeping WAIT is answered the first time it finds the revision changed**, with an
    ACK. -/
theorem replyOf_wait {m : Message} {b : BlockServer} (hm : m.deref = .ok (b, m)) :
    ∀ woken : List Server,
      (replyOf (.wait b.id m) woken = .ok none ∧
        ∀ s ∈ woken, ∃ it, s.blocks b.id = some it ∧ it.revision = b.revision) ∨
      (replyOf (.wait b.id m) woken = .ok (some (emit .ack)) ∧
        ¬ ∀ s ∈ woken, ∃ it, s.blocks b.id = some it ∧ it.revision = b.revision) := by
  intro woken
  -- over the wake-ups; the message has its block cached and stays the same
  induction woken with
  | nil => exact Or.inl ⟨rfl, fun s hs => nomatch hs⟩
  | cons s woken ih =>
      obtain ⟨sec, hsec, hserved⟩ := Server.handleWait_served s "" hm
      have hstep : replyOf (.wait b.id m) (s :: woken) = replyOf sec.outcome woken := by
        rw [replyOf, hsec]
      rw [hstep]
      cases hserved with
      | unhosted ht _ => rcases ht with ht | ht | ht <;> exact nomatch ht
      | waitUnhosted hb =>
          refine Or.inr ⟨replyOf_send _ _, fun hall => ?_⟩
          obtain ⟨it, hit, -⟩ := hall s List.mem_cons_self
          rw [hb] at hit
          exact nomatch hit
      | outdated hit hne =>
          refine Or.inr ⟨replyOf_send _ _, fun hall => ?_⟩
          obtain ⟨it, hit', heq⟩ := hall s List.mem_cons_self
          obtain rfl := Option.some.inj (hit.symm.trans hit')
          exact hne heq
      | sleeps hit heq =>
          rcases ih with ⟨hr, hall⟩ | ⟨hr, hnot⟩
          · refine Or.inl ⟨hr, fun s' hs' => ?_⟩
            rcases List.mem_cons.mp hs' with rfl | hin
            · exact ⟨_, hit, heq⟩
            · exact hall s' hin
          · exact Or.inr ⟨hr, fun hall => hnot fun s' hs' => hall s' (List.mem_cons_of_mem _ hs')⟩

/-- **A request whose block decodes gets one reply**, the one of its critical section or,
    if it slept, an ACK. -/
theorem respond_served {s : Server} {msg m : Message} {b : BlockServer} {out : List UInt8}
    (clientId : String) (hprint : printData s msg = .ok out) (ht : msg.type.isRequest = true)
    (hm : msg.deref = .ok (b, m)) (woken : List Server) :
    ∃ sec reply, Served s clientId b m msg.type sec ∧
      respond s clientId msg woken = .ok reply ∧
      (reply = none ↔ Current msg (s :: woken)) ∧
      ((∃ ack, sec.outcome = .send ack ∧ reply = some ack) ∨
        (msg.type = .wait ∧ reply ≠ some (emit .nack))) := by
  obtain ⟨sec, hsec, hserved⟩ := Server.clientHandler_served s clientId ht hm
  have hrespond : respond s clientId msg woken = replyOf sec.outcome woken := by
    rw [respond, hprint, hsec]
  cases ho : sec.outcome with
  | send ack =>
      refine ⟨sec, some ack, hserved, by rw [hrespond, ho, replyOf_send], ?_,
        Or.inl ⟨ack, ho, rfl⟩⟩
      refine ⟨nofun, ?_⟩
      -- a thread that replies at once did not find the revision it waits for
      rintro ⟨hwait, b', m', hm', hall⟩
      obtain ⟨rfl, rfl⟩ := Prod.mk.inj (Except.ok.inj (hm.symm.trans hm'))
      obtain ⟨it, hit, heq⟩ := hall s List.mem_cons_self
      rw [hwait] at hserved
      exact absurd heq (hserved.wait_reply ho hit).2
  | wait k msg' =>
      obtain ⟨hwait, rfl, rfl, -, it, hit, heq⟩ := hserved.of_wait ho
      -- the first test is the one that put the thread to sleep
      have hcurrent : Current msg (s :: woken) ↔
          ∀ s' ∈ woken, ∃ it, s'.blocks b.id = some it ∧ it.revision = b.revision := by
        constructor
        · rintro ⟨-, b', m', hm', hall⟩
          obtain ⟨rfl, rfl⟩ := Prod.mk.inj (Except.ok.inj (hm.symm.trans hm'))
          exact fun s' hs' => hall s' (List.mem_cons_of_mem _ hs')
        · intro hall
          refine ⟨hwait, b, _, hm, fun s' hs' => ?_⟩
          rcases List.mem_cons.mp hs' with rfl | hin
          · exact ⟨it, hit, heq⟩
          · exact hall s' hin
      rcases replyOf_wait (Message.deref_again hm) woken with ⟨hr, hall⟩ | ⟨hr, hnot⟩
      · refine ⟨sec, none, hserved, by rw [hrespond, ho, hr], ?_, Or.inr ⟨hwait, nofun⟩⟩
        exact ⟨fun _ => hcurrent.mpr hall, fun _ => rfl⟩
      · refine ⟨sec, some (emit .ack), hserved, by rw [hrespond, ho, hr], ?_,
          Or.inr ⟨hwait, by decide⟩⟩
        exact ⟨nofun, fun hc => absurd (hcurrent.mp hc) hnot⟩

/-! ## Which strings are answered -/

/-- The table refuses the request: nothing hosted under the id or, for the types that look
    further, nothing the request fits. A WAIT is never refused. -/
def Refused (s : Server) (clientId : String) (t : MessageType) (n : BlockNode) : Prop :=
  match t with
  | .map => ∀ it, s.blocks n.id = some it → clientId ∈ it.mappedClients
  | .unmap => ∀ it, s.blocks n.id = some it → clientId ∉ it.mappedClients
  | .update => s.blocks n.id = none
  | .write => ∀ it, s.blocks n.id = some it → it.revision ≠ n.readRevision
  | _ => False

/-- Refused requests are the ones whose critical section sends a NACK. -/
theorem nack_iff {s : Server} {clientId : String} {b : BlockServer} {m : Message}
    {t : MessageType} {sec : Section} {n : BlockNode} (h : Served s clientId b m t sec)
    (hid : b.id = n.id) (hrev : b.revision = n.readRevision) :
    sec.outcome = .send (emit .nack) ↔ Refused s clientId t n := by
  have hack : ∀ node : Node, (Message.ofNode node).type = .ack →
      ¬ Outcome.send node = .send (emit .nack) := by
    intro node htype heq
    rw [Outcome.send.inj heq, Message.type_emit] at htype
    exact nomatch htype
  have hhosted : ∀ {it it' : BlockServer}, s.blocks b.id = some it →
      s.blocks n.id = some it' → it' = it := by
    intro it it' hit hit'
    rw [hid] at hit
    exact Option.some.inj (hit'.symm.trans hit)
  have hfree : s.blocks b.id = none → ∀ it, s.blocks n.id = some it → False := by
    intro hb it hit
    rw [← hid, hb] at hit
    exact nomatch hit
  cases h with
  | unhosted ht hb =>
      refine ⟨fun _ => ?_, fun _ => rfl⟩
      rcases ht with rfl | rfl | rfl
      · exact fun it hit => (hfree hb it hit).elim
      · exact fun it hit => (hfree hb it hit).elim
      · show s.blocks n.id = none
        rw [← hid]
        exact hb
  | mapped hit hnew =>
      refine ⟨fun ho => absurd ho (hack _ (Message.type_emitBlock ..)), fun hr => ?_⟩
      exact absurd (hr _ (by rw [← hid]; exact hit)) hnew
  | mapRefused hit hold =>
      exact ⟨fun _ it hit' => by rw [hhosted hit hit']; exact hold, fun _ => rfl⟩
  | unmapped hit hold =>
      refine ⟨fun ho => absurd ho (hack _ (Message.type_emit .ack)), fun hr => ?_⟩
      exact absurd hold (hr _ (by rw [← hid]; exact hit))
  | unmapRefused hit hnew =>
      exact ⟨fun _ it hit' => by rw [hhosted hit hit']; exact hnew, fun _ => rfl⟩
  | entire hit _ =>
      refine ⟨fun ho => absurd ho (hack _ (Message.type_emitBlock ..)), fun hr => ?_⟩
      rw [hid, show s.blocks n.id = none from hr] at hit
      exact nomatch hit
  | shallow hit _ =>
      refine ⟨fun ho => absurd ho (hack _ (Message.type_emitBlock ..)), fun hr => ?_⟩
      rw [hid, show s.blocks n.id = none from hr] at hit
      exact nomatch hit
  | writeUnhosted hb => exact ⟨fun _ it hit => (hfree hb it hit).elim, fun _ => rfl⟩
  | accepted hit heq =>
      refine ⟨fun ho => absurd ho (hack _ (Message.type_emit .ack)), fun hr => ?_⟩
      exact absurd (heq.trans hrev) (hr _ (by rw [← hid]; exact hit))
  | writeRefused hit hne =>
      refine ⟨fun _ it hit' => ?_, fun _ => rfl⟩
      rw [hhosted hit hit', ← hrev]
      exact hne
  | waitUnhosted _ =>
      exact ⟨fun ho => absurd ho (hack _ (Message.type_emit .ack)), fun hr => hr.elim⟩
  | outdated _ _ =>
      exact ⟨fun ho => absurd ho (hack _ (Message.type_emit .ack)), fun hr => hr.elim⟩
  | sleeps _ _ => exact ⟨nofun, fun hr => hr.elim⟩

/-- The bytes that are copied hold a NUL, if any are; a block that was just made does. -/
def holdsNul (data : DmMessage.Field (List UInt8)) : Bool :=
  match data with
  | .value bytes => (bytes.take dimBlock).contains 0
  | _ => true

/-- The data that the block decodes to hold a NUL. Where the revision is ill-typed, the data
    are not looked at. -/
def terminated (n : BlockNode) : Bool :=
  match n.revision with
  | .illTyped => true
  | _ => holdsNul n.data

/-- No data without a NUL are put out. -/
def Printable (s : Server) (msg : Message) : Prop :=
  msg.type = .write → ∀ n, msg.node.block = some n → (s.blocks n.id).isSome = true →
    terminated n = true

/-- The message is no request; or its block decodes; or its block has an id and is not cut
    short, and the table refuses the request. What is put out of a request has an end. -/
def Answerable (s : Server) (clientId : String) (msg : Message) : Prop :=
  msg.type.isRequest = false ∨
    Printable s msg ∧ (msg.decodable = true ∨
      ∃ n, msg.node.block = some n ∧ n.copies = true ∧ Refused s clientId msg.type n)

/-- What `readData` leaves holds a NUL if the bytes it copies do. -/
theorem holdsNul_iff (b₀ : BlockServer) {b : BlockServer} {data : DmMessage.Field (List UInt8)}
    (hzero : (0 : UInt8) ∈ b₀.data.bytes) (hread : Message.readData b₀ data = .ok b) :
    0 ∈ b.data.bytes ↔ holdsNul data = true := by
  cases data with
  | absent =>
      obtain rfl := Except.ok.inj hread
      exact ⟨fun _ => rfl, fun _ => hzero⟩
  | illTyped =>
      obtain rfl := Except.ok.inj hread
      exact ⟨fun _ => rfl, fun _ => hzero⟩
  | value bytes =>
      rw [Message.readData, Data.memcpy] at hread
      by_cases hlen : dimBlock ≤ bytes.length
      · simp only [dif_pos hlen] at hread
        obtain rfl := Except.ok.inj hread
        exact List.contains_iff_mem.symm
      · simp only [dif_neg hlen] at hread
        cases hread

/-- **Which blocks are decoded with a NUL in their data.** -/
theorem terminated_iff {n : BlockNode} {b : BlockServer} (hb : Message.readBlock n = .ok b) :
    0 ∈ b.data.bytes ↔ terminated n = true := by
  have hcreate : (0 : UInt8) ∈ (BlockServer.create n.id).data.bytes :=
    List.mem_replicate.mpr ⟨by decide, rfl⟩
  cases hr : n.revision with
  | illTyped =>
      rw [Message.readBlock, hr] at hb
      obtain rfl := Except.ok.inj hb
      rw [terminated, hr]
      exact ⟨fun _ => rfl, fun _ => hcreate⟩
  | absent =>
      rw [Message.readBlock, hr] at hb
      rw [holdsNul_iff _ hcreate hb, terminated, hr]
  | value r =>
      rw [Message.readBlock, hr] at hb
      rw [holdsNul_iff { BlockServer.create n.id with revision := r } hcreate hb, terminated, hr]

/-- A message that was just made, with a block that is not cut short, decodes. -/
theorem deref_create {yaml : YamlCpp} {message : String} {n : BlockNode}
    (hn : (Message.create yaml message).node.block = some n) (hc : n.copies = true) :
    ∃ b m, (Message.create yaml message).deref = .ok (b, m) ∧ Message.readBlock n = .ok b ∧
      b.id = n.id ∧ b.revision = n.readRevision := by
  obtain ⟨node, hnode⟩ := Message.create_eq yaml message
  rw [hnode] at hn ⊢
  rcases n.readBlock_cases with ⟨-, b, hb, hid, hrev⟩ | ⟨hnot, -⟩
  · refine ⟨b, ⟨node, some b⟩, ?_, hb, hid, hrev⟩
    rw [Message.deref_ofNode, show node.block = some n from hn]
    simp only [hb]
  · rw [hc] at hnot
    exact nomatch hnot

/-- What is put out ends in the block exactly if it has a NUL. -/
theorem printData_iff {yaml : YamlCpp} {s : Server} {message : String} {n : BlockNode}
    (hn : (Message.create yaml message).node.block = some n) (hc : n.copies = true) :
    (∃ out, printData s (Message.create yaml message) = .ok out) ↔
      Printable s (Message.create yaml message) := by
  obtain ⟨b, m, hm, hb, hid, -⟩ := deref_create hn hc
  by_cases ht : (Message.create yaml message).type = .write
  · have hprintable : Printable s (Message.create yaml message) ↔
        ((s.blocks n.id).isSome = true → 0 ∈ b.data.bytes) := by
      rw [terminated_iff hb]
      constructor
      · exact fun h => h ht n hn
      · rintro h - n' hn'
        obtain rfl := Option.some.inj (hn.symm.trans hn')
        exact h
    rw [hprintable, printData, ht]
    simp only [hm, hid]
    cases hhosted : (s.blocks n.id).isSome with
    | false => exact ⟨fun _ => nofun, fun _ => ⟨_, rfl⟩⟩
    | true =>
        rw [if_pos rfl, cString]
        by_cases hzero : (0 : UInt8) ∈ b.data.bytes
        · rw [if_pos hzero]
          exact ⟨fun _ _ => hzero, fun _ => ⟨_, rfl⟩⟩
        · rw [if_neg hzero]
          refine ⟨?_, fun h => absurd (h rfl) hzero⟩
          rintro ⟨out, hout⟩
          cases hout
  · refine ⟨fun _ hwrite => absurd hwrite ht, fun _ => ⟨[], ?_⟩⟩
    rw [printData]
    split
    · exact absurd ‹_› ht
    · rfl

/-- A message without a block, or with one that is cut short, faults when used. -/
theorem deref_create_error (yaml : YamlCpp) (message : String)
    (h : ∀ n, (Message.create yaml message).node.block = some n → n.copies = false) :
    ∃ f, (Message.create yaml message).deref = .error f := by
  obtain ⟨node, hnode⟩ := Message.create_eq yaml message
  rw [hnode] at h ⊢
  rw [Message.deref_ofNode]
  cases hn : node.block with
  | none => exact ⟨_, rfl⟩
  | some n =>
      have hc : n.copies = false := h n hn
      rcases n.readBlock_cases with ⟨hc', -⟩ | ⟨-, herr⟩
      · rw [hc] at hc'
        exact nomatch hc'
      · simp only [herr]
        exact ⟨_, rfl⟩

/-- A pass that comes to an end with a reply or asleep. -/
theorem respond_of_pass {yaml : YamlCpp} {s : Server} {clientId message : String}
    {woken : List Server} {link : Link} {ending : Ending}
    (hpass : pass yaml s clientId message woken link = .ok ending)
    (hends : ending = .asleep ∨ ∃ ack, ending = .replied ack) :
    message.isEmpty = false ∧
      ∃ reply, respond s clientId (Message.create yaml message) woken = .ok reply ∧
        (reply = none ↔ ending = .asleep) ∧
        ∀ ack, ending = .replied ack → reply = some ack ∧ link.takes := by
  rw [pass] at hpass
  cases hempty : message.isEmpty with
  | true =>
      rw [if_pos hempty] at hpass
      rw [← Except.ok.inj hpass] at hends
      rcases hends with h | ⟨ack, h⟩
      · cases h
      · cases h
  | false =>
      rw [if_neg (by rw [hempty]; decide)] at hpass
      refine ⟨rfl, ?_⟩
      cases hrespond : respond s clientId (Message.create yaml message) woken with
      | error f =>
          rw [hrespond] at hpass
          cases hpass
      | ok reply =>
          rw [hrespond] at hpass
          refine ⟨reply, rfl, ?_⟩
          cases reply with
          | none =>
              obtain rfl := Except.ok.inj hpass
              exact ⟨⟨fun _ => rfl, fun _ => rfl⟩, nofun⟩
          | some ack =>
              obtain rfl := Except.ok.inj hpass
              refine ⟨⟨nofun, fun h => absurd h (link.deliver_ne_asleep ack)⟩, ?_⟩
              intro ack' h
              obtain ⟨htakes, rfl⟩ := Link.deliver_eq_replied.mp h
              exact ⟨rfl, htakes⟩

/-- Conversely, a reply that is taken, or none. -/
theorem pass_of_respond {yaml : YamlCpp} {s : Server} {clientId message : String}
    {woken : List Server} {link : Link} {reply : Option Node}
    (hne : message.isEmpty = false) (htakes : link.takes)
    (hrespond : respond s clientId (Message.create yaml message) woken = .ok reply) :
    pass yaml s clientId message woken link = .ok (reply.elim .asleep .replied) := by
  rw [pass, if_neg (by rw [hne]; decide), hrespond]
  cases reply with
  | none => rfl
  | some ack => exact congrArg Except.ok (Link.deliver_eq_replied.mpr ⟨htakes, rfl⟩)

/-- A request that does not fault has a block, and one that is not cut short. -/
theorem block_of_respond {yaml : YamlCpp} {s : Server} {clientId message : String}
    {woken : List Server} {reply : Option Node}
    (ht : (Message.create yaml message).type.isRequest = true)
    (hrespond : respond s clientId (Message.create yaml message) woken = .ok reply) :
    ∃ n, (Message.create yaml message).node.block = some n ∧ n.copies = true := by
  by_contra hno
  have hcut : ∀ n, (Message.create yaml message).node.block = some n → n.copies = false := by
    intro n hn
    cases hc : n.copies with
    | false => rfl
    | true => exact absurd ⟨n, hn, hc⟩ hno
  obtain ⟨f, hf⟩ := deref_create_error yaml message hcut
  rw [respond, Server.clientHandler_fault ht hf] at hrespond
  split at hrespond
  · cases hrespond
  · cases hrespond

/-- **A request with a block that is not cut short gets one reply**, if what is put out of it
    has an end: a NACK exactly where the table refuses it, and none only in its sleep. -/
theorem respond_request {yaml : YamlCpp} {s : Server} {message : String} {n : BlockNode}
    (clientId : String) (ht : (Message.create yaml message).type.isRequest = true)
    (hn : (Message.create yaml message).node.block = some n) (hc : n.copies = true)
    (hprintable : Printable s (Message.create yaml message)) (woken : List Server) :
    ∃ reply, respond s clientId (Message.create yaml message) woken = .ok reply ∧
      (reply = none ↔ Current (Message.create yaml message) (s :: woken)) ∧
      (reply = some (emit .nack) ↔
        Refused s clientId (Message.create yaml message).type n) := by
  obtain ⟨b, m, hm, -, hid, hrev⟩ := deref_create hn hc
  obtain ⟨out, hprint⟩ := (printData_iff hn hc).mpr hprintable
  obtain ⟨sec, reply, hserved, hrespond, hcurrent, hsec⟩ :=
    respond_served clientId hprint ht hm woken
  refine ⟨reply, hrespond, hcurrent, ?_⟩
  rw [← nack_iff hserved hid hrev]
  rcases hsec with ⟨ack, ho, rfl⟩ | ⟨hwait, hne⟩
  · rw [ho]
    constructor
    · exact fun h => congrArg Outcome.send (Option.some.inj h)
    · exact fun h => congrArg some (Outcome.send.inj h)
  · -- a WAIT is never refused
    refine ⟨fun h => absurd h hne, fun ho => ?_⟩
    have hrefused := (nack_iff hserved hid hrev).mp ho
    rw [hwait] at hrefused
    exact hrefused.elim

/-- A table that hosts nothing puts no thread to sleep. -/
theorem not_current_unhosted (msg : Message) (s : Server) :
    ¬ Current msg [s, ⟨fun _ => none, []⟩] := by
  rintro ⟨-, b, m, -, hall⟩
  obtain ⟨it, hit, -⟩ := hall ⟨fun _ => none, []⟩ (List.mem_cons_of_mem _ List.mem_cons_self)
  cases hit

/-- An answered string is a message that `client_handler` gets through, with an answer of its
    own, to a peer that is there. -/
theorem answerable_of_answered {yaml : YamlCpp} {s : Server} {clientId message : String}
    {link : Link} (h : Answered yaml s clientId message link) :
    message.isEmpty = false ∧ link.takes ∧
      Answerable s clientId (Message.create yaml message) := by
  have htakes : link.takes := by
    obtain ⟨ending, hpass, hends, hasleep, -⟩ := h [⟨fun _ => none, []⟩]
    obtain ⟨-, reply, -, -, hreplied⟩ := respond_of_pass hpass hends
    rcases hends with hs | ⟨ack, hack⟩
    · exact absurd (hasleep.mp hs) (not_current_unhosted _ s)
    · exact (hreplied ack hack).2
  obtain ⟨ending, hpass, hends, -, hnack⟩ := h []
  obtain ⟨hne, reply, hrespond, -, hreplied⟩ := respond_of_pass hpass hends
  refine ⟨hne, htakes, ?_⟩
  -- the default branch needs no block
  cases ht : (Message.create yaml message).type.isRequest with
  | false => exact Or.inl ht
  | true =>
      obtain ⟨n, hn, hc⟩ := block_of_respond ht hrespond
      have hprintable : Printable s (Message.create yaml message) := by
        refine (printData_iff hn hc).mp ?_
        rw [respond] at hrespond
        split at hrespond
        · cases hrespond
        · exact ⟨_, ‹_›⟩
      refine Or.inr ⟨hprintable, ?_⟩
      cases hd : (Message.create yaml message).decodable with
      | true => exact Or.inl rfl
      | false =>
          have hreply := (hreplied _ (hnack fun hr => by rw [hd] at hr; cases hr.2)).1
          obtain ⟨reply', hrespond', -, hrefused⟩ :=
            respond_request clientId ht hn hc hprintable []
          obtain rfl := Except.ok.inj (hrespond.symm.trans hrespond')
          exact Or.inr ⟨n, hn, hc, hrefused.mp hreply⟩

/-- And such a message is answered. -/
theorem answered_of_answerable {yaml : YamlCpp} {s : Server} {clientId message : String}
    {link : Link} (hne : message.isEmpty = false) (htakes : link.takes)
    (hanswerable : Answerable s clientId (Message.create yaml message)) :
    Answered yaml s clientId message link := by
  intro woken
  have hends : ∀ reply : Option Node, reply.elim Ending.asleep .replied = .asleep ∨
      ∃ ack, reply.elim Ending.asleep .replied = .replied ack := by
    intro reply
    cases reply with
    | none => exact Or.inl rfl
    | some ack => exact Or.inr ⟨ack, rfl⟩
  have hasleep : ∀ reply : Option Node, reply.elim Ending.asleep .replied = .asleep ↔
      reply = none := by
    intro reply
    cases reply with
    | none => exact ⟨fun _ => rfl, fun _ => rfl⟩
    | some ack => exact ⟨nofun, nofun⟩
  cases ht : (Message.create yaml message).type.isRequest with
  | false =>
      have hprint : printData s (Message.create yaml message) = .ok [] := by
        rw [printData]
        split
        · rename_i hwrite
          rw [hwrite] at ht
          cases ht
        · rfl
      have hrespond : respond s clientId (Message.create yaml message) woken =
          .ok (some (emit .nack)) := by
        rw [respond, hprint, Server.clientHandler_unknown ht]
        exact replyOf_send _ _
      refine ⟨_, pass_of_respond hne htakes hrespond, hends _, ⟨nofun, fun hc => ?_⟩,
        fun _ => rfl⟩
      rw [hc.1] at ht
      cases ht
  | true =>
      rcases hanswerable with hno | ⟨hprintable, hd | ⟨n, hn, hc, hrefused⟩⟩
      · rw [ht] at hno
        cases hno
      · obtain ⟨n, hn, hd'⟩ : ∃ n, (Message.create yaml message).node.block = some n ∧
            n.decodable = true := by
          rw [Message.decodable] at hd
          cases hn : (Message.create yaml message).node.block with
          | none => rw [hn] at hd; cases hd
          | some n => rw [hn] at hd; exact ⟨n, rfl, hd⟩
        have hc := BlockNode.copies_of_decodable hd'
        obtain ⟨reply, hrespond, hcurrent, -⟩ :=
          respond_request clientId ht hn hc hprintable woken
        exact ⟨_, pass_of_respond hne htakes hrespond, hends _, (hasleep _).trans hcurrent,
          fun hnot => absurd ⟨rfl, hd⟩ hnot⟩
      · obtain ⟨reply, hrespond, hcurrent, hnack⟩ :=
          respond_request clientId ht hn hc hprintable woken
        refine ⟨_, pass_of_respond hne htakes hrespond, hends _, (hasleep _).trans hcurrent,
          fun _ => ?_⟩
        rw [hnack.mpr hrefused]
        rfl

/-- **The strings that are answered**, in any state of the table. -/
theorem answered_iff (yaml : YamlCpp) (s : Server) (clientId message : String) (link : Link) :
    Answered yaml s clientId message link ↔
      message.isEmpty = false ∧ link.takes ∧
        Answerable s clientId (Message.create yaml message) := by
  constructor
  · exact answerable_of_answered
  · rintro ⟨hne, htakes, hanswerable⟩
    exact answered_of_answerable hne htakes hanswerable

/-- The library, on the one string read here: a map with a type and no block. -/
def typeOnly : YamlCpp where
  getNextDocument := fun node text =>
    if text = "\x7btype: MAP\x7d\r\n\r\n" then .document ⟨some "MAP", none⟩ else .throws node
  emitter := fun _ => ""

/-- **A request without a block takes the server down**: the reference to its block is
    null. -/
theorem answered_typeOnly :
    pass typeOnly (Server.create [7]) "10.0.0.2:40001" "\x7btype: MAP\x7d\r\n\r\n" []
        ⟨.all, .all⟩ = .error .nullReference ∧
      ¬ Answered typeOnly (Server.create [7]) "10.0.0.2:40001" "\x7btype: MAP\x7d\r\n\r\n"
        ⟨.all, .all⟩ := by
  have hpass : pass typeOnly (Server.create [7]) "10.0.0.2:40001"
      "\x7btype: MAP\x7d\r\n\r\n" [] ⟨.all, .all⟩ = .error .nullReference := by rfl
  refine ⟨hpass, fun h => ?_⟩
  obtain ⟨reply, hok, -⟩ := h []
  rw [hpass] at hok
  exact nomatch hok

end DmAnswer
