import DistributedMemory.MonitorProofs
import DistributedMemory.DmHostProofs

/-!
# The mutex — `client_handler` access by access

`DmHost` takes a critical section of `client_handler` as one step. Here a section is the
code it is in the source, one access to the server's tables at a time: the lookup, the
reading of the revision, the copy of the content byte by byte, `m_revision++` as a read and a
write, the broadcast, the unlock. Handler threads interleave between any two of them.

* **`section_run`** — the code of a section, run without interruption, is the section of
  `DmServer`.
* **`sections_atomic`** — what any interleaving shows, `DmHost` shows: no reply is made from
  a half-written block, and no two threads are in a section at once.
* **`sleepers_current`** — between the sections no sleeper has been forgotten.
* **`handler_answers`** — a thread that has a request in hand is never stuck at the mutex.
-/

namespace DmMonitor

open DmBlock DmMessage DmServer DmHost LabelledRun Monitor

variable {ι : Type} [DecidableEq ι]

/-! ## Single accesses -/

/-- One byte of the content. -/
def byteAt (d : Data) (i : Nat) : UInt8 := d.bytes.getD i 0

/-- The content with one byte replaced. -/
def setByte (d : Data) (i : Nat) (c : UInt8) : Data :=
  ⟨d.bytes.set i c, by rw [List.length_set]; exact d.size_eq⟩

/-- The block the iterator of a successful `find` points to; no entry is ever erased. -/
def pointed (s : Server) (k : Int32) : BlockServer := (s.blocks k).getD (BlockServer.create k)

/-- A write through the iterator. -/
def writeTo (k : Int32) (f : BlockServer → BlockServer) (s : Server) : Server :=
  s.setBlock k (f (pointed s k))

/-- What the thread holds in its local variables when it locks the mutex: the message it
    decoded, or the request `pthread_cond_wait` returned into the loop of. -/
inductive Start where
  | request (tag : Nat) (type : MessageType) (b : BlockServer) (msg : Message)
  | other (tag : Nat) (req : Node)
  | loop (tag : Nat) (b : BlockServer) (msg : Message)

/-- The request a section is about. -/
def Start.node : Start → Node
  | .request _ _ _ msg | .loop _ _ msg => msg.node
  | .other _ req => req

def Start.tag : Start → Nat
  | .request tag _ _ _ | .other tag _ | .loop tag _ _ => tag

/-- A section leaves the mutex with the reply to its request. -/
abbrev Code := Monitor.Code Server Int32 Start (Nat × Node)

def find (k : Int32) (next : Bool → Code) : Code :=
  .access id fun s => next (s.blocks k).isSome

def readId (k : Int32) (next : Int32 → Code) : Code :=
  .access id fun s => next (pointed s k).id

def readRevision (k : Int32) (next : Int32 → Code) : Code :=
  .access id fun s => next (pointed s k).revision

def readByte (k : Int32) (i : Nat) (next : UInt8 → Code) : Code :=
  .access id fun s => next (byteAt (pointed s k).data i)

def findMappedClient (k : Int32) (clientId : String) (next : Bool → Code) : Code :=
  .access id fun s => next (decide (clientId ∈ (pointed s k).mappedClients))

def write (k : Int32) (f : BlockServer → BlockServer) (next : Code) : Code :=
  .access (writeTo k f) fun _ => next

/-- `n` bytes from byte `i` on. -/
def readBytes (k : Int32) : (n i : Nat) → List UInt8 → (List UInt8 → Code) → Code
  | 0, _, bytes, next => next bytes
  | n + 1, i, bytes, next => readByte k i fun c => readBytes k n (i + 1) (bytes ++ [c]) next

/-- `memcpy`, from byte `i` on. -/
def writeBytes (k : Int32) : (i : Nat) → List UInt8 → Code → Code
  | _, [], next => next
  | i, c :: bytes, next =>
      write k (fun b => { b with data := setByte b.data i c }) (writeBytes k (i + 1) bytes next)

/-! ## The sections -/

/-- `Message::emit(ACK, it->second, shallow)`. -/
def emitCode (k : Int32) (shallow : Bool) (next : Node → Code) : Code :=
  readId k fun id => readRevision k fun revision =>
    if shallow then next (emitBlock .ack ⟨id, revision, none⟩ true)
    else readBytes k dimBlock 0 [] fun bytes =>
      next (emitBlock .ack ⟨id, revision, Data.memcpy bytes⟩ false)

/-- `it->second = msg.block()`. -/
def assignCode (k : Int32) (b : BlockServer) (next : Code) : Code :=
  write k (fun this => { this with id := b.id }) <|
    write k (fun this => { this with revision := b.revision }) <|
      writeBytes k 0 b.data.bytes next

/-- `add_revision`. -/
def addRevisionCode (k : Int32) (next : Code) : Code :=
  readRevision k fun revision =>
    write k (fun this => { this with revision := revision + 1 }) next

/-- `pthread_cond_broadcast( &blocks_wait[block_id] )`. -/
def broadcastCode (k : Int32) (next : Code) : Code :=
  .access (fun s => s.condition k) fun _ => .broadcast k next

def mapCode (clientId : String) (tag : Nat) (k : Int32) : Code :=
  find k fun found =>
    if found then
      findMappedClient k clientId fun mapped =>
        if mapped then .leave (tag, emit .nack)
        else
          write k (fun it => { it with mappedClients := it.mappedClients ++ [clientId] }) <|
            emitCode k false fun ack => .leave (tag, ack)
    else .leave (tag, emit .nack)

def unmapCode (clientId : String) (tag : Nat) (k : Int32) : Code :=
  find k fun found =>
    if found then
      findMappedClient k clientId fun mapped =>
        if mapped then
          write k (fun it => { it with mappedClients := it.mappedClients.erase clientId }) <|
            .leave (tag, emit .ack)
        else .leave (tag, emit .nack)
    else .leave (tag, emit .nack)

def updateCode (tag : Nat) (b : BlockServer) : Code :=
  find b.id fun found =>
    if found then
      readRevision b.id fun revision =>
        emitCode b.id (!decide (b.revision < revision)) fun ack => .leave (tag, ack)
    else .leave (tag, emit .nack)

def writeCode (tag : Nat) (b : BlockServer) : Code :=
  find b.id fun found =>
    if found then
      readRevision b.id fun revision =>
        if revision = b.revision then
          assignCode b.id b <| addRevisionCode b.id <|
            broadcastCode b.id <| .leave (tag, emit .ack)
        else broadcastCode b.id <| .leave (tag, emit .nack)
    else broadcastCode b.id <| .leave (tag, emit .nack)

/-- One turn of the loop around `pthread_cond_wait`. -/
def loopCode (tag : Nat) (b : BlockServer) (msg : Message) : Code :=
  readRevision b.id fun revision =>
    if revision = b.revision then
      .access (fun s => s.condition b.id) fun _ => .sleep b.id (.loop tag b msg)
    else .leave (tag, emit .ack)

def waitCode (tag : Nat) (b : BlockServer) (msg : Message) : Code :=
  find b.id fun found => if found then loopCode tag b msg else .leave (tag, emit .ack)

/-- The section of `client_handler` between lock and unlock. -/
def sectionCode (clientId : String) : Start → Code
  | .request tag .map b _ => mapCode clientId tag b.id
  | .request tag .unmap b _ => unmapCode clientId tag b.id
  | .request tag .update b _ => updateCode tag b
  | .request tag .write b _ => writeCode tag b
  | .request tag .wait b msg => waitCode tag b msg
  | .loop tag b msg => loopCode tag b msg
  -- the default branch locks the mutex to log
  | .request tag _ _ _ | .other tag _ => .leave (tag, emit .nack)

/-- What the thread does with a message before it locks the mutex: it looks at the type, and
    for a known request at the block, which is decoded and kept in the message. -/
def arrive (tag : Nat) (req : Node) : Except Fault Start :=
  let msg := Message.ofNode req
  if msg.type.isRequest then
    match msg.deref with
    | .error f => .error f
    | .ok (b, m) => .ok (.request tag msg.type b m)
  else .ok (.other tag req)

/-- A thread may lock the mutex for any message that does not end the process before. -/
def Arrives (_c : ι) (start : Start) : Prop := ∃ tag req, arrive tag req = .ok start

/-! ## A section without interruption -/

theorem pointed_of_some {s : Server} {k : Int32} {it : BlockServer} (h : s.blocks k = some it) :
    pointed s k = it := by
  rw [pointed, h]
  rfl

@[simp] theorem pointed_setBlock (s : Server) (k : Int32) (b : BlockServer) :
    pointed (s.setBlock k b) k = b := by
  simp [pointed]

/-- The last write to an entry is what it holds. -/
@[simp] theorem setBlock_setBlock (s : Server) (k : Int32) (b b' : BlockServer) :
    (s.setBlock k b).setBlock k b' = s.setBlock k b' := by
  simp [Server.setBlock]

/-- Reading byte by byte reads the bytes. -/
theorem readBytes_run (k : Int32) (next : List UInt8 → Code) (s : Server) :
    ∀ (n i : Nat) (bytes : List UInt8), i + n = dimBlock →
      (readBytes k n i bytes next).run s
        = (next (bytes ++ (pointed s k).data.bytes.drop i)).run s := by
  intro n
  induction n with
  | zero =>
      intro i bytes hi
      have hlen := (pointed s k).data.size_eq
      rw [readBytes, List.drop_eq_nil_of_le (by omega), List.append_nil]
  | succ n ih =>
      intro i bytes hi
      have hlen := (pointed s k).data.size_eq
      have hlt : i < (pointed s k).data.bytes.length := by omega
      rw [readBytes, readByte, Monitor.Code.run, id_eq, ih (i + 1) _ (by omega)]
      rw [List.drop_eq_getElem_cons hlt, List.append_assoc]
      simp [byteAt, List.getD_eq_getElem?_getD, hlt]

/-- Writing byte by byte replaces the bytes. -/
theorem writeBytes_run (k : Int32) (next : Code) (src : List UInt8) :
    ∀ (i : Nat) (s : Server) (it : BlockServer) (d : Data), s.blocks k = some it →
      d.bytes = it.data.bytes.take i ++ src → i + src.length = dimBlock →
      (writeBytes k i src next).run s
        = next.run (s.setBlock k { it with data := d }) := by
  induction src with
  | nil =>
      intro i s it d hk hd hi
      have hlen := it.data.size_eq
      have hsame : d = it.data := by
        refine Data.ext ?_
        rw [hd, List.append_nil, List.take_of_length_le (by simp at hi; omega)]
      rw [writeBytes, hsame, Server.setBlock_eq_self hk]
  | cons c src ih =>
      intro i s it d hk hd hi
      have hlen := it.data.size_eq
      have hlt : i < it.data.bytes.length := by
        simp only [List.length_cons] at hi
        omega
      rw [writeBytes, write, Monitor.Code.run]
      rw [ih (i + 1) (writeTo k (fun b => { b with data := setByte b.data i c }) s)
        { it with data := setByte it.data i c } d ?_ ?_ ?_]
      · rw [writeTo, pointed_of_some hk, setBlock_setBlock]
      · rw [writeTo, pointed_of_some hk]
        exact Server.setBlock_same ..
      · rw [hd]
        show _ = (it.data.bytes.set i c).take (i + 1) ++ src
        rw [List.take_succ_eq_append_getElem (by rw [List.length_set]; exact hlt),
          List.take_set_of_le (Nat.le_refl i), List.append_assoc]
        simp
      · simp only [List.length_cons] at hi
        omega

/-- A shallow block is emitted without its content. -/
theorem emitBlock_shallow (t : MessageType) (id revision : Int32) (d d' : Option Data) :
    emitBlock t ⟨id, revision, d⟩ true = emitBlock t ⟨id, revision, d'⟩ true := by
  cases d <;> cases d' <;> rfl

/-- Emitting field by field emits the block. -/
theorem emitCode_run {s : Server} {k : Int32} {it : BlockServer} (hk : s.blocks k = some it)
    (shallow : Bool) (next : Node → Code) :
    (emitCode k shallow next).run s = (next (emitBlock .ack it.toBlock shallow)).run s := by
  rw [emitCode, readId, Monitor.Code.run, readRevision, Monitor.Code.run]
  simp only [id_eq, pointed_of_some hk]
  cases shallow with
  | true =>
      rw [if_pos rfl, emitBlock_shallow .ack it.id it.revision none (some it.data)]
      rfl
  | false =>
      rw [if_neg Bool.false_ne_true, readBytes_run k _ s dimBlock 0 [] (Nat.zero_add _)]
      rw [List.nil_append, List.drop_zero, pointed_of_some hk, Data.memcpy_bytes]
      rfl

/-- The assignment, then the increment. -/
theorem assignCode_run {s : Server} {k : Int32} {it : BlockServer} (hk : s.blocks k = some it)
    (b : BlockServer) (next : Code) :
    (assignCode k b (addRevisionCode k next)).run s
      = next.run (s.setBlock k (it.assign b).addRevision) := by
  rw [assignCode, write, Monitor.Code.run, write, Monitor.Code.run]
  have hfirst : writeTo k (fun this => { this with revision := b.revision })
      (writeTo k (fun this => { this with id := b.id }) s)
        = s.setBlock k { it with id := b.id, revision := b.revision } := by
    simp [writeTo, pointed_of_some hk]
  rw [hfirst, writeBytes_run k _ b.data.bytes 0 _ { it with id := b.id, revision := b.revision }
    b.data (Server.setBlock_same ..) (by simp) (by rw [Nat.zero_add]; exact b.data.size_eq)]
  rw [addRevisionCode, readRevision, Monitor.Code.run, write, Monitor.Code.run]
  simp [writeTo, BlockServer.assign, BlockServer.addRevision]

/-- The end of a section, as the code has it. -/
def endingOf (tag : Nat) (b : BlockServer) : Outcome → Ending Int32 Start (Nat × Node)
  | .send ack => .left (tag, ack)
  | .wait k msg => .asleep k (.loop tag b msg)

/-- What a section leaves behind, as the code has it. -/
def effectOf (tag : Nat) (b : BlockServer) (sec : Section) :
    Effect Server Int32 Start (Nat × Node) :=
  ⟨sec.server, sec.signalled.toList, endingOf tag b sec.outcome⟩

/-- The loop of a WAIT. -/
theorem loopCode_run {s : Server} (tag : Nat) {b it : BlockServer} {msg : Message}
    (hm : msg.deref = .ok (b, msg)) (hit : s.blocks b.id = some it) :
    ∃ sec, s.handleWait b.id msg = .ok sec ∧
      (loopCode tag b msg).run s = effectOf tag b sec := by
  rw [Server.handleWait, hit, loopCode, readRevision, Monitor.Code.run]
  simp only [id_eq, hm, pointed_of_some hit]
  by_cases heq : it.revision = b.revision
  · rw [if_pos heq, if_pos heq]
    exact ⟨_, rfl, rfl⟩
  · rw [if_neg heq, if_neg heq]
    exact ⟨_, rfl, rfl⟩

/-- **The code of a section is the section**: run without interruption, it ends as one pass
    of `clientHandler` does. -/
theorem section_run (s : Server) (clientId : String) (tag : Nat) {req : Node} {b : BlockServer}
    {m : Message} (hm : (Message.ofNode req).deref = .ok (b, m))
    (ht : (Message.ofNode req).type.isRequest = true) :
    ∃ sec, s.clientHandler clientId (Message.ofNode req) = .ok sec ∧
      (sectionCode clientId (.request tag (Message.ofNode req).type b m)).run s
        = effectOf tag b sec := by
  rw [Server.clientHandler]
  cases htype : (Message.ofNode req).type with
  | undef => rw [htype] at ht; cases ht
  | ack => rw [htype] at ht; cases ht
  | nack => rw [htype] at ht; cases ht
  | map =>
      simp only [hm, sectionCode, mapCode, find, Monitor.Code.run, id_eq, Server.handleMap]
      cases hit : s.blocks b.id with
      | none => exact ⟨_, rfl, rfl⟩
      | some it =>
          simp only [Option.isSome_some, if_true, findMappedClient, Monitor.Code.run, id_eq,
            pointed_of_some hit, BlockServer.map]
          by_cases hin : clientId ∈ it.mappedClients
          · simp only [hin, decide_true, if_true]
            rw [Server.setBlock_eq_self hit]
            exact ⟨_, rfl, rfl⟩
          · simp only [hin, decide_false, if_false, Bool.false_eq_true, write,
              Monitor.Code.run]
            rw [writeTo, pointed_of_some hit, emitCode_run (Server.setBlock_same ..)]
            exact ⟨_, rfl, rfl⟩
  | unmap =>
      simp only [hm, sectionCode, unmapCode, find, Monitor.Code.run, id_eq, Server.handleUnmap]
      cases hit : s.blocks b.id with
      | none => exact ⟨_, rfl, rfl⟩
      | some it =>
          simp only [Option.isSome_some, if_true, findMappedClient, Monitor.Code.run, id_eq,
            pointed_of_some hit, BlockServer.unmap]
          by_cases hin : clientId ∈ it.mappedClients
          · simp only [hin, decide_true, if_true, write, Monitor.Code.run]
            rw [writeTo, pointed_of_some hit]
            exact ⟨_, rfl, rfl⟩
          · simp only [hin, decide_false, if_false, Bool.false_eq_true]
            rw [Server.setBlock_eq_self hit]
            exact ⟨_, rfl, rfl⟩
  | update =>
      simp only [hm, sectionCode, updateCode, find, Monitor.Code.run, id_eq,
        Server.handleUpdate]
      cases hit : s.blocks b.id with
      | none => exact ⟨_, rfl, rfl⟩
      | some it =>
          simp only [Option.isSome_some, if_true, readRevision, Monitor.Code.run, id_eq,
            pointed_of_some hit, Message.deref_again hm]
          rw [emitCode_run hit]
          by_cases hlt : b.revision < it.revision
          · rw [if_pos hlt, decide_eq_true hlt]
            exact ⟨_, rfl, rfl⟩
          · rw [if_neg hlt, decide_eq_false hlt]
            exact ⟨_, rfl, rfl⟩
  | write =>
      simp only [hm, sectionCode, writeCode, find, Monitor.Code.run, id_eq,
        Server.handleWrite]
      cases hit : s.blocks b.id with
      | none => exact ⟨_, rfl, rfl⟩
      | some it =>
          simp only [Option.isSome_some, if_true, readRevision, Monitor.Code.run, id_eq,
            pointed_of_some hit, Message.deref_again hm]
          by_cases heq : it.revision = b.revision
          · rw [if_pos heq, if_pos heq, assignCode_run hit]
            exact ⟨_, rfl, rfl⟩
          · rw [if_neg heq, if_neg heq]
            exact ⟨_, rfl, rfl⟩
  | wait =>
      simp only [hm, sectionCode, waitCode, find, Monitor.Code.run, id_eq]
      cases hit : s.blocks b.id with
      | none =>
          simp only [Server.handleWait, hit]
          exact ⟨_, rfl, rfl⟩
      | some it =>
          obtain ⟨sec, hsec, hrun⟩ := loopCode_run tag (Message.deref_again hm) hit
          exact ⟨sec, hsec, hrun⟩

/-! ## The threads of `DmHost` -/

/-- What a thread knows of its message when it is at the lock. -/
def Start.Decoded : Start → Prop
  | .request _ type b msg =>
      type = (Message.ofNode msg.node).type ∧ type.isRequest = true ∧
        (Message.ofNode msg.node).deref = .ok (b, msg)
  | .other _ req => (Message.ofNode req).type.isRequest = false
  | .loop _ b msg => msg.type = .wait ∧ (Message.ofNode msg.node).deref = .ok (b, msg)

theorem arrive_decoded {tag : Nat} {req : Node} {start : Start}
    (h : arrive tag req = .ok start) : start.Decoded ∧ ∀ t b m, start ≠ .loop t b m := by
  rw [arrive] at h
  by_cases ht : (Message.ofNode req).type.isRequest = true
  · rw [if_pos ht] at h
    split at h
    · cases h
    · rename_i b m hm
      obtain rfl := Except.ok.inj h
      have hnode : m.node = req := (Message.deref_caches hm).1
      refine ⟨⟨?_, ht, ?_⟩, fun _ _ _ hloop => by cases hloop⟩
      · rw [hnode]
      · rw [hnode]
        exact hm
  · rw [if_neg ht] at h
    obtain rfl := Except.ok.inj h
    exact ⟨Bool.eq_false_iff.mpr ht, fun _ _ _ hloop => by cases hloop⟩

/-- Where `DmHost` has a thread that is outside, at the lock, asleep or done. -/
inductive Stands : Place Int32 Start (Nat × Node) → DmHost.Thread → Prop where
  | outside : Stands .outside .reading
  | arrived {start : Start} (hdecoded : start.Decoded)
      (hnew : ∀ tag b m, start ≠ .loop tag b m) : Stands (.waiting start) .reading
  | awake {tag : Nat} {b : BlockServer} {m : Message}
      (hdecoded : (Start.loop tag b m).Decoded) :
      Stands (.waiting (.loop tag b m)) (.awake tag b.id m)
  | asleep {tag : Nat} {b : BlockServer} {m : Message}
      (hdecoded : (Start.loop tag b m).Decoded) :
      Stands (.asleep b.id (.loop tag b m)) (.asleep tag b.id m)
  | done {result : Nat × Node} : Stands (.done result) .reading

/-- The broadcast is the same for both. -/
theorem Stands.wake {p : Place Int32 Start (Nat × Node)} {th : DmHost.Thread}
    (h : Stands p th) (signalled : Option Int32) :
    Stands (Monitor.wake signalled.toList p) (wakeAll signalled th) := by
  cases h with
  | outside => exact .outside
  | arrived hdecoded hnew => exact .arrived hdecoded hnew
  | awake hdecoded => exact .awake hdecoded
  | done => exact .done
  | @asleep tag b m hdecoded =>
      cases signalled with
      | none =>
          rw [Option.toList_none, wake_nil]
          exact .asleep hdecoded
      | some k =>
          by_cases hk : k = b.id
          · subst hk
            simpa [Monitor.wake, wakeAll] using Stands.awake hdecoded
          · simpa [Monitor.wake, wakeAll, hk, Ne.symm hk] using Stands.asleep hdecoded

/-- The machine of whole sections and `DmHost` are in the same place. -/
structure Matches (a : Whole ι Server Int32 Start (Nat × Node)) (h : Host ι) : Prop where
  server : h.server = a.shared
  thread : ∀ u, Stands (a.place u) (h.thread u)

/-- A reply, if the section ended in one. -/
def replied : Ending Int32 Start (Nat × Node) → Option Node
  | .asleep _ _ => none
  | .left result => some result.2

/-- What `DmHost` shows of a step of the monitor: the end of a section, and a wake-up
    without a broadcast. -/
def shows : Monitor.Event ι Int32 Start (Nat × Node) → Option (HostEvent ι)
  | .section c start ending => some (.critical c start.tag start.node (replied ending))
  | .woken c => some (.woken c)
  | .called _ _ => none
  | .returned _ _ => none

theorem replied_endingOf (tag : Nat) (b : BlockServer) (sec : Section) :
    replied (endingOf tag b sec.outcome) = answer sec := by
  rw [answer]
  cases sec.outcome <;> rfl

/-- A thread that moves outside its sections, and which `DmHost` has where it was. -/
theorem Matches.move {a : Whole ι Server Int32 Start (Nat × Node)} {h : Host ι}
    (hm : Matches a h) {c : ι} {p : Place Int32 Start (Nat × Node)}
    (hstands : Stands p (h.thread c)) : Matches (a.move c p) h where
  server := hm.server
  thread := fun u => by
    by_cases hu : u = c
    · subst hu
      simpa [Whole.move] using hstands
    · simpa [Whole.move, hu] using hm.thread u

/-- After its section a thread is where `DmHost` has it. -/
theorem Matches.leave {a : Whole ι Server Int32 Start (Nat × Node)} {h : Host ι}
    (hm : Matches a h) {c : ι} {tag : Nat} {b : BlockServer} {sec : Section}
    (hstands : Stands (endingOf tag b sec.outcome).place (after tag sec)) :
    Matches (a.leave c (effectOf tag b sec)) (h.leave c tag sec) where
  server := rfl
  thread := fun u => by
    by_cases hu : u = c
    · subst hu
      rw [Host.leave_thread_self]
      simpa [Whole.leave, effectOf] using hstands
    · rw [Host.leave_thread_other _ _ _ hu]
      simpa [Whole.leave, effectOf, hu] using (hm.thread u).wake sec.signalled

/-- A section that sleeps does so as `DmHost` says, with what it knows of its message. -/
theorem stands_of_section {s : Server} {clientId : String} {tag : Nat} {b : BlockServer}
    {m : Message} {t : MessageType} {sec : Section}
    (hdecoded : t = .wait → (Start.loop tag b m).Decoded)
    (hserved : Served s clientId b m t sec) :
    Stands (endingOf tag b sec.outcome).place (after tag sec) := by
  rw [after]
  cases ho : sec.outcome with
  | send ack => exact .done
  | wait k msg =>
      obtain ⟨ht, rfl, rfl, -, -⟩ := hserved.of_wait ho
      exact .asleep (hdecoded ht)

/-- **A whole section is a critical section of `DmHost`.** -/
theorem section_step {clientId : ι → String} {a : Whole ι Server Int32 Start (Nat × Node)}
    {h : Host ι} (hset : Settled h) (hm : Matches a h) {c : ι} {start : Start}
    (hplace : a.place c = .waiting start) :
    ∃ h', DmHost.Step clientId h (.critical c start.tag start.node
        (replied ((sectionCode (clientId c) start).run a.shared).ending)) h' ∧
      Matches (a.leave c ((sectionCode (clientId c) start).run a.shared)) h' := by
  have hthread := hm.thread c
  rw [hplace] at hthread
  rw [← hm.server]
  generalize hth : h.thread c = th at hthread
  cases hthread with
  | arrived hdecoded hnew =>
      cases start with
      | request tag type b msg =>
          obtain ⟨rfl, ht, hderef⟩ := hdecoded
          obtain ⟨sec, hpass, hrun⟩ := section_run h.server (clientId c) tag hderef ht
          rw [hrun]
          refine ⟨h.leave c tag sec, ?_, hm.leave ?_⟩
          · show DmHost.Step clientId h (.critical c tag msg.node
              (replied (endingOf tag b sec.outcome))) _
            rw [replied_endingOf]
            exact .first hth hpass
          · rcases Server.clientHandler_cases hpass with ⟨-, rfl⟩ | ⟨b', m', hm', hserved⟩
            · exact .done
            · obtain ⟨rfl, rfl⟩ := Prod.mk.inj (Except.ok.inj (hderef.symm.trans hm'))
              exact stands_of_section (fun htype =>
                ⟨(Message.type_congr rfl).trans htype, hderef⟩) hserved
      | other tag req =>
          have hend : Stands (endingOf tag (BlockServer.create 0) (.send (emit .nack))).place
              (after tag ⟨h.server, none, .send (emit .nack)⟩) := .done
          have hrun : (sectionCode (clientId c) (.other tag req)).run h.server
              = effectOf tag (BlockServer.create 0) ⟨h.server, none, .send (emit .nack)⟩ := rfl
          rw [hrun]
          exact ⟨h.leave c tag ⟨h.server, none, .send (emit .nack)⟩,
            .first hth (Server.clientHandler_unknown hdecoded), hm.leave hend⟩
      | loop tag b m => exact absurd rfl (hnew tag b m)
  | @awake tag b m hdecoded =>
      obtain ⟨htype, hderef⟩ := hdecoded
      obtain ⟨-, it, -, hit⟩ := hset.awake c tag b.id m hth
      obtain ⟨sec, hloop, hrun⟩ := loopCode_run tag (Message.deref_again hderef) hit
      obtain ⟨sec', hsec', hserved⟩ :=
        Server.handleWait_served h.server (clientId c) (Message.deref_again hderef)
      obtain rfl : sec = sec' := Except.ok.inj (hloop.symm.trans hsec')
      rw [sectionCode, hrun]
      refine ⟨h.leave c tag sec, ?_, hm.leave (stands_of_section (fun _ => ⟨htype, hderef⟩)
        hserved)⟩
      show DmHost.Step clientId h (.critical c tag m.node
        (replied (endingOf tag b sec.outcome))) _
      rw [replied_endingOf]
      exact .again hth hloop

/-- Every step of whole sections is unseen by `DmHost`, or a step of it. -/
theorem step_matches {clientId : ι → String} {a a' : Whole ι Server Int32 Start (Nat × Node)}
    {h : Host ι} {e : Monitor.Event ι Int32 Start (Nat × Node)} (hset : Settled h)
    (hm : Matches a h)
    (hs : WholeStep (fun c => sectionCode (clientId c)) Arrives a e a') :
    (shows e = none ∧ Matches a' h) ∨
      ∃ e' h', shows e = some e' ∧ DmHost.Step clientId h e' h' ∧ Matches a' h' := by
  cases hs with
  | @called c start hplace hcall =>
      obtain ⟨tag, req, harrive⟩ := hcall
      obtain ⟨hdecoded, hnew⟩ := arrive_decoded harrive
      refine Or.inl ⟨rfl, hm.move ?_⟩
      have hthread := hm.thread c
      rw [hplace] at hthread
      generalize h.thread c = th at hthread
      cases hthread
      exact .arrived hdecoded hnew
  | @«section» c start hplace =>
      obtain ⟨h', hstep, hmatch⟩ := section_step hset hm hplace
      exact Or.inr ⟨_, h', rfl, hstep, hmatch⟩
  | @woken c key again hplace =>
      have hthread := hm.thread c
      rw [hplace] at hthread
      generalize hth : h.thread c = th at hthread
      cases hthread with
      | @asleep tag b m hdecoded =>
          refine Or.inr ⟨_, _, rfl, .spurious hth, ⟨hm.server, fun u => ?_⟩⟩
          by_cases hu : u = c
          · subst hu
            rw [Host.setThread_self]
            simpa [Whole.move] using Stands.awake hdecoded
          · rw [Host.setThread_other _ _ hu]
            simpa [Whole.move, hu] using hm.thread u
  | @returned c result hplace =>
      refine Or.inl ⟨rfl, hm.move ?_⟩
      have hthread := hm.thread c
      rw [hplace] at hthread
      generalize h.thread c = th at hthread
      cases hthread
      exact .outside

/-! ## The server -/

/-- The runs of a freshly started server, access by access. -/
abbrev ServerRun (clientId : ι → String) (blocksId : List Int32)
    (tr : List (Entry (Fine ι Server Int32 Start (Nat × Node))
      (Option (Monitor.Event ι Int32 Start (Nat × Node)))))
    (f : Fine ι Server Int32 Start (Nat × Node)) : Prop :=
  Run (FineStep (fun c => sectionCode (clientId c)) Arrives)
    (Fine.start (Server.create blocksId)) tr f

/-- What a run shows: its critical sections and its wake-ups without a broadcast. -/
def shown (tr : List (Entry (Fine ι Server Int32 Start (Nat × Node))
    (Option (Monitor.Event ι Int32 Start (Nat × Node))))) : List (HostEvent ι) :=
  (tr.filterMap Entry.event).filterMap shows

variable {clientId : ι → String} {blocksId : List Int32}
  {tr : List (Entry (Fine ι Server Int32 Start (Nat × Node))
    (Option (Monitor.Event ι Int32 Start (Nat × Node))))}
  {f : Fine ι Server Int32 Start (Nat × Node)}

omit [DecidableEq ι] in
theorem start_matches (blocksId : List Int32) :
    Matches (Whole.start (ι := ι) (Server.create blocksId)) (Host.start blocksId) where
  server := rfl
  thread := fun _ => .outside

/-- Every run has its run of `DmHost`. -/
theorem run_host (hrun : ServerRun clientId blocksId tr f) :
    ∃ tr' h a, Run (DmHost.Step clientId) (Host.start blocksId) tr' h ∧
      tr'.map Entry.event = shown tr ∧
      Corresponds (fun c => sectionCode (clientId c)) f a ∧ Matches a h ∧ Settled h := by
  obtain ⟨tr₁, a, hrun₁, hcorr, hseen₁⟩ := Monitor.refines hrun
  obtain ⟨tr₂, h, hrun₂, ⟨hset, hmatch⟩, hseen₂⟩ :=
    hrun₁.simulate (R := fun a h => Settled h ∧ Matches a h)
      ⟨start_settled blocksId, start_matches blocksId⟩ (by
        rintro a e a' h ⟨hset, hm⟩ hs
        rcases step_matches hset hm hs with ⟨hnone, hm'⟩ | ⟨e', h', hsome, hs', hm'⟩
        · exact Or.inl ⟨hnone, hset, hm'⟩
        · exact Or.inr ⟨e', h', hsome, hs', step_settled hset hs', hm'⟩)
  refine ⟨tr₂, h, a, hrun₂, ?_, hcorr, hmatch, hset⟩
  rw [hseen₂, shown, ← hseen₁, List.filterMap_map]
  rfl

/-- A thread asks for the mutex. -/
theorem call_run (hrun : ServerRun clientId blocksId tr f) {c : ι} {start : Start}
    (houtside : f.thread c = .off .outside) (harrives : Arrives c start) :
    ∃ tr', ServerRun clientId blocksId tr' (f.set c (.off (.waiting start))) ∧
      shown tr' = shown tr := by
  refine ⟨_, hrun.snoc (.called houtside harrives), ?_⟩
  rw [shown, List.filterMap_append, List.filterMap_append]
  exact List.append_nil _

/-- With the mutex free, a thread that asked for it runs its section. -/
theorem serve_run (hrun : ServerRun clientId blocksId tr f) (hfree : f.owner = none) {c : ι}
    {start : Start} (hwaits : f.thread c = .off (.waiting start)) :
    ∃ tr' f', ServerRun clientId blocksId tr' f' ∧
      Released c ((sectionCode (clientId c) start).run f.shared) f f' ∧
      shown tr' = shown tr ++ [.critical c start.tag start.node
        (replied ((sectionCode (clientId c) start).run f.shared).ending)] := by
  obtain ⟨tr', f', hserved, hreleased, hseen, -⟩ :
      ∃ tr' f', Run (FineStep (fun c => sectionCode (clientId c)) Arrives) f tr' f' ∧ _ :=
    served_free hfree hwaits
  refine ⟨_, f', hrun.append hserved, hreleased, ?_⟩
  rw [shown, List.filterMap_append, List.filterMap_append, hseen]
  rfl

/-- A request as a client emits it. -/
theorem arrive_emitBlock (tag : Nat) {t : MessageType} (ht : t.isRequest = true) (b : Block)
    (shallow : Bool) :
    arrive tag (emitBlock t b shallow)
      = .ok (.request tag t (Message.decoded b shallow)
          ⟨emitBlock t b shallow, some (Message.decoded b shallow)⟩) := by
  simp only [arrive, Message.type_emitBlock, ht, if_true, Message.deref_emitBlock]

/-- Two clients of a server with block 7. -/
def twoIds (c : Bool) : String := if c then "10.0.0.3:40002" else "10.0.0.2:40001"

/-- A WAIT for revision 0 of block 7. -/
def waited : Block := ⟨7, 0, none⟩

/-- Content for block 7, against revision `r`. -/
def written (r : Int32) : Block := ⟨7, r, some (Data.memset 65)⟩

/-- Where the WAIT goes on once it has slept. -/
def waitLoop : Start :=
  .loop 0 (Message.decoded waited true)
    ⟨emitBlock .wait waited true, some (Message.decoded waited true)⟩

/-- One thread sleeps in its WAIT, the other has no request yet. -/
theorem waitAsleep_run :
    ∃ tr f, ServerRun twoIds [7] tr f ∧ f.owner = none ∧
      f.shared = (Server.create [7]).condition 7 ∧ f.thread false = .off .outside ∧
      f.thread true = .off (.asleep 7 waitLoop) ∧
      shown tr = [.critical true 0 (emitBlock .wait waited true) none] := by
  have hstart : ServerRun twoIds [7] [] (Fine.start (Server.create [7])) := Run.nil
  obtain ⟨tr₁, hrun₁, hshown₁⟩ := call_run hstart (c := true) rfl
    ⟨0, _, arrive_emitBlock 0 (show MessageType.wait.isRequest = true from rfl) waited true⟩
  obtain ⟨tr₂, f₂, hrun₂, hreleased, hshown₂⟩ := serve_run hrun₁ rfl (Fine.set_self ..)
  refine ⟨tr₂, f₂, hrun₂, hreleased.owner, hreleased.shared, ?_, hreleased.place, ?_⟩
  · exact hreleased.others false .outside Bool.false_ne_true rfl
  · rw [hshown₂, hshown₁]
    rfl

/-- **Critical sections are atomic.** However the accesses of the handler threads
    interleave, the requests answered, the answers and their order are those of a run in
    which every section is one step; with the mutex free the tables are the same; and no two
    threads are ever in a section together. -/
theorem sections_atomic (hrun : ServerRun clientId blocksId tr f) :
    (∃ tr' h, Run (DmHost.Step clientId) (Host.start blocksId) tr' h ∧
        tr'.map Entry.event = shown tr ∧ (f.owner = none → f.shared = h.server)) ∧
      ∀ c c' start start' rest rest', f.thread c = .inside start rest →
        f.thread c' = .inside start' rest' → c = c' := by
  obtain ⟨tr', h, a, hrun', hseen, hcorr, hmatch, -⟩ := run_host hrun
  refine ⟨⟨tr', h, hrun', hseen, ?_⟩, ?_⟩
  · intro hfree
    rw [hmatch.server]
    cases hcorr with
    | free _ hshared _ => exact hshared
    | held howner _ _ _ _ =>
        rw [hfree] at howner
        cases howner
  · intro c c' start start' rest rest' hin hin'
    have howner := hcorr.owner_of_inside hin
    rw [hcorr.owner_of_inside hin'] at howner
    exact (Option.some.inj howner).symm

/-- Block 7 is at revision 0, so content against revision 0 is accepted. -/
theorem accepts_written :
    ∃ sec, ((Server.create [7]).condition 7).clientHandler (twoIds false)
        (Message.ofNode (emitBlock .write (written 0) false)) = .ok sec ∧
      sec.signalled = some 7 ∧ sec.outcome = .send (emit .ack) := by
  obtain ⟨sec, hsec, hserved⟩ := Server.clientHandler_served ((Server.create [7]).condition 7)
    (twoIds false) (show (Message.ofNode (emitBlock .write (written 0) false)).type.isRequest
      = true from rfl) (Message.deref_emitBlock .write (written 0) false)
  have hblock : ((Server.create [7]).condition 7).blocks 7 = some (BlockServer.create 7) := by
    rw [Server.condition_blocks, Server.create_blocks]
    rfl
  refine ⟨sec, hsec, ?_⟩
  rw [Message.type_emitBlock] at hserved
  cases hserved with
  | unhosted ht _ => rcases ht with ht | ht | ht <;> cases ht
  | writeUnhosted hb => exact nomatch hblock.symm.trans hb
  | accepted _ _ => exact ⟨rfl, rfl⟩
  | writeRefused hit hne =>
      obtain rfl := Option.some.inj (hblock.symm.trans hit)
      exact absurd rfl hne

/-- The other thread has written, which woke the sleeper, and is writing again; the one that
    was woken waits for the mutex. -/
theorem contended_run :
    ∃ tr f, ServerRun twoIds [7] tr f ∧ f.owner = some false ∧
      f.thread true = .off (.waiting waitLoop) ∧
      shown tr = [.critical true 0 (emitBlock .wait waited true) none,
        .critical false 0 (emitBlock .write (written 0) false) (some (emit .ack))] := by
  have hne : true ≠ false := by decide
  have hrequest : MessageType.write.isRequest = true := rfl
  obtain ⟨tr₁, f₁, hrun₁, hfree₁, hshared₁, houtside, hasleep, hshown₁⟩ := waitAsleep_run
  obtain ⟨tr₂, hrun₂, hshown₂⟩ :=
    call_run hrun₁ houtside ⟨0, _, arrive_emitBlock 0 hrequest (written 0) false⟩
  obtain ⟨tr₃, f₃, hrun₃, hreleased, hshown₃⟩ := serve_run hrun₂ hfree₁ (Fine.set_self ..)
  -- the section wrote block 7 and broadcast on it
  obtain ⟨sec, hsec, heffect⟩ := section_run ((Server.create [7]).condition 7) (twoIds false) 0
    (Message.deref_emitBlock .write (written 0) false) rfl
  obtain ⟨sec', hsec', hsignalled, houtcome⟩ := accepts_written
  obtain rfl := Except.ok.inj (hsec.symm.trans hsec')
  rw [Fine.set_shared, hshared₁] at hreleased hshown₃
  rw [Message.type_emitBlock] at heffect
  rw [heffect, effectOf, hsignalled, houtcome] at hreleased hshown₃
  have hwoken : f₃.thread true = .off (.waiting waitLoop) :=
    hreleased.others true _ hne ((Fine.set_other _ _ hne).trans hasleep)
  have hreturned : ServerRun twoIds [7] _ (f₃.set false (.off .outside)) :=
    hrun₃.snoc (.returned hreleased.place)
  obtain ⟨tr₅, hrun₅, hshown₅⟩ := call_run hreturned (Fine.set_self ..)
    ⟨1, _, arrive_emitBlock 1 hrequest (written 1) false⟩
  refine ⟨_, _, hrun₅.snoc (.lock hreleased.owner (Fine.set_self ..)), rfl, ?_, ?_⟩
  · simp only [Fine.set, Function.update_of_ne hne, hwoken]
  · rw [shown, List.filterMap_append, List.filterMap_append]
    show shown tr₅ ++ [] = _
    rw [List.append_nil, hshown₅, shown, List.filterMap_append, List.filterMap_append]
    show shown tr₃ ++ [] = _
    rw [List.append_nil, hshown₃, hshown₂, hshown₁]
    rfl

/-- With one thread in its section and the other at the mutex. -/
theorem sections_atomic_contended :
    ∃ tr f tr' h, ServerRun twoIds [7] tr f ∧ f.owner = some false ∧
      Run (DmHost.Step twoIds) (Host.start [7]) tr' h ∧
      tr'.map Entry.event = [.critical true 0 (emitBlock .wait waited true) none,
        .critical false 0 (emitBlock .write (written 0) false) (some (emit .ack))] ∧
      ∀ c c' start start' rest rest', f.thread c = .inside start rest →
        f.thread c' = .inside start' rest' → c = c' := by
  obtain ⟨tr, f, hrun, howner, -, hshown⟩ := contended_run
  obtain ⟨⟨tr', h, hrun', hseen, -⟩, hexclusive⟩ := sections_atomic hrun
  exact ⟨tr, f, tr', h, hrun, howner, hrun', hseen.trans hshown, hexclusive⟩

/-- A sleeper is in the loop of a WAIT for the revision its block has. -/
def Current (f : Fine ι Server Int32 Start (Nat × Node)) (c : ι) (k : Int32) : Prop :=
  ∃ tag b msg it, f.thread c = .off (.asleep k (.loop tag b msg)) ∧ b.id = k ∧
    f.shared.blocks k = some it ∧ it.revision = b.revision

omit [DecidableEq ι] in
/-- A sleeper of `DmHost` that waits for the revision the block has now does so here, if
    nobody is in a section. -/
theorem current_of_matches {a : Whole ι Server Int32 Start (Nat × Node)} {h : Host ι}
    (hcorr : Corresponds (fun c => sectionCode (clientId c)) f a) (hmatch : Matches a h)
    (hset : Settled h) (hfree : f.owner = none) {c : ι} {k : Int32} {again : Start}
    (hasleep : f.thread c = .off (.asleep k again)) : Current f c k := by
  cases hcorr with
  | held howner _ _ _ _ =>
      rw [hfree] at howner
      cases howner
  | free _ hshared hthread =>
      have hplace : a.place c = .asleep k again := by
        rw [hthread c] at hasleep
        exact Thread.off.inj hasleep
      have hstands := hmatch.thread c
      rw [hplace] at hstands
      generalize hth : h.thread c = th at hstands
      cases hstands with
      | @asleep tag b m hdecoded =>
          obtain ⟨b', it, hw, hit, heq⟩ := hset.asleep c tag b.id m hth
          obtain ⟨rfl, -⟩ := Prod.mk.inj (Except.ok.inj (hdecoded.2.symm.trans hw.decodes))
          refine ⟨tag, b, m, it, hasleep, rfl, ?_, heq⟩
          rw [hshared, ← hmatch.server]
          exact hit

/-- **Between the sections no sleeper is forgotten**: while nobody holds the mutex, a thread
    that sleeps on a condition waits for the revision the block has now. -/
theorem sleepers_current (hrun : ServerRun clientId blocksId tr f) (hfree : f.owner = none)
    {c : ι} {k : Int32} {again : Start} (hasleep : f.thread c = .off (.asleep k again)) :
    Current f c k := by
  obtain ⟨tr', h, a, -, -, hcorr, hmatch, hset⟩ := run_host hrun
  exact current_of_matches hcorr hmatch hset hfree hasleep

/-- A write that was refused woke the sleeper, which sleeps again. -/
theorem sleepers_current_refused :
    ∃ tr f, ServerRun twoIds [7] tr f ∧ Current f true 7 ∧
      shown tr = [.critical true 0 (emitBlock .wait waited true) none,
        .critical false 0 (emitBlock .write (written 5) false) (some (emit .nack)),
        .critical true 0 (emitBlock .wait waited true) none] := by
  have hne : true ≠ false := by decide
  obtain ⟨tr₁, f₁, hrun₁, hfree₁, hshared₁, houtside, hasleep, hshown₁⟩ := waitAsleep_run
  obtain ⟨tr₂, hrun₂, hshown₂⟩ := call_run hrun₁ houtside
    ⟨0, _, arrive_emitBlock 0 (show MessageType.write.isRequest = true from rfl) (written 5) false⟩
  obtain ⟨tr₃, f₃, hrun₃, hreleased₃, hshown₃⟩ := serve_run hrun₂ hfree₁ (Fine.set_self ..)
  rw [Fine.set_shared, hshared₁] at hreleased₃ hshown₃
  have hwoken : f₃.thread true = .off (.waiting waitLoop) :=
    hreleased₃.others true _ hne ((Fine.set_other _ _ hne).trans hasleep)
  obtain ⟨tr₄, f₄, hrun₄, hreleased₄, hshown₄⟩ := serve_run hrun₃ hreleased₃.owner hwoken
  rw [hreleased₃.shared] at hreleased₄ hshown₄
  refine ⟨tr₄, f₄, hrun₄, sleepers_current hrun₄ hreleased₄.owner hreleased₄.place, ?_⟩
  rw [hshown₄, hshown₃, hshown₂, hshown₁]
  rfl

/-- **A thread with a request in hand is never stuck at the mutex**: it and the present owner
    alone can bring its section to its end, and the section ends without a reply only in the
    sleep of a WAIT for the revision the block has then. -/
theorem handler_answers (hrun : ServerRun clientId blocksId tr f) {c : ι} {start : Start}
    (hwaits : f.thread c = .off (.waiting start)) :
    ∃ tr' f' ans others,
      Run (FineStep (fun c => sectionCode (clientId c)) Arrives) f tr' f' ∧
      shown tr' = others ++ [.critical c start.tag start.node ans] ∧
      (∀ e ∈ others, ∃ u tag req ans', e = .critical u tag req ans' ∧ f.owner = some u) ∧
      (∀ t ∈ tr', MadeBy c t ∨ ∃ u, f.owner = some u ∧ MadeBy u t) ∧
      (ans = none → ∃ k, Current f' c k) := by
  obtain ⟨tr₀, h, a, -, -, hcorr, -, -⟩ := run_host hrun
  obtain ⟨tr', f', ending, others, hrun', hfree, hplace, hseen, hothers, hmade⟩ :=
    Monitor.served Arrives hcorr hwaits
  refine ⟨tr', f', replied ending, others.filterMap shows, hrun', ?_, ?_, hmade, ?_⟩
  · rw [shown, hseen, List.filterMap_append]
    rfl
  · intro e he
    obtain ⟨e₀, hin, hshows⟩ := List.mem_filterMap.mp he
    obtain ⟨u, start', ending', rfl, howner⟩ := hothers e₀ hin
    exact ⟨u, _, _, _, (Option.some.inj hshows).symm, howner⟩
  · intro hnone
    cases ending with
    | left result => cases hnone
    | asleep k again =>
        obtain ⟨-, h', a', -, -, hcorr', hmatch, hset⟩ := run_host (hrun.append hrun')
        exact ⟨k, current_of_matches hcorr' hmatch hset hfree hplace⟩

/-- The thread that was woken gets its answer while the other one is at its second write. -/
theorem handler_answers_contended :
    ∃ tr f tr' f' ans others, ServerRun twoIds [7] tr f ∧ f.owner = some false ∧
      Run (FineStep (fun c => sectionCode (twoIds c)) Arrives) f tr' f' ∧
      shown tr' = others ++ [.critical true 0 (emitBlock .wait waited true) ans] ∧
      (∀ t ∈ tr', MadeBy true t ∨ MadeBy false t) ∧
      (ans = none → ∃ k, Current f' true k) := by
  obtain ⟨tr, f, hrun, howner, hwaits, -⟩ := contended_run
  obtain ⟨tr', f', ans, others, hrun', hseen, -, hmade, hnone⟩ := handler_answers hrun hwaits
  refine ⟨tr, f, tr', f', ans, others, hrun, howner, hrun', hseen, fun t ht => ?_, hnone⟩
  refine (hmade t ht).imp_right ?_
  rintro ⟨u, hu, hmade⟩
  obtain rfl := Option.some.inj (howner.symm.trans hu)
  exact hmade

end DmMonitor
