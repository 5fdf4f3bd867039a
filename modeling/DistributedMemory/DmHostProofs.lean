import DistributedMemory.DmServerProofs
import DistributedMemory.RunProofs

/-!
# Handler threads — WAIT, sleep and wake-up

Any number of `client_handler` threads share one server. A critical section is one step;
`pthread_cond_wait` releases the mutex and sleeps in that same step, a broadcast turns
every sleeper on the condition into a thread waiting for the mutex, and a sleeper may wake
up without any broadcast. A thread that got the mutex back takes the loop's test again.

* **`Step`** — the transition relation, for arbitrary requests in any order.
* **`Settled`** — the invariant of the condition variables: whoever sleeps on
  `blocks_wait[b]` serves a WAIT that carries the revision block `b` has now.
* **`wait_settled`** — no lost wake-up and no false answer, over all runs.
-/

namespace DmHost

open DmBlock DmMessage DmServer LabelledRun

variable {ι : Type} [DecidableEq ι]

/-- Where a handler thread is: reading from its socket, or inside the loop of a WAIT,
    asleep or awake again. `tag` numbers the request it serves. -/
inductive Thread where
  | reading
  | asleep (tag : Nat) (blockId : Int32) (msg : Message)
  | awake (tag : Nat) (blockId : Int32) (msg : Message)
  deriving DecidableEq

/-- The server and its handler threads. -/
structure Host (ι : Type) where
  server : Server
  thread : ι → Thread

/-- What a step shows: a critical section of thread `c` on a request, ending in a reply or
    (`none`) in sleep; or a wake-up without a broadcast. -/
inductive HostEvent (ι : Type) where
  | critical (c : ι) (tag : Nat) (req : Node) (ans : Option Node)
  | woken (c : ι)
  deriving DecidableEq

/-- `pthread_cond_broadcast`, for one thread. -/
def wakeAll (signalled : Option Int32) : Thread → Thread
  | .reading => .reading
  | .asleep tag k msg =>
      if signalled = some k then .awake tag k msg else .asleep tag k msg
  | .awake tag k msg => .awake tag k msg

/-- The reply a section ends in, if it does not end in sleep. -/
def answer (sec : Section) : Option Node :=
  match sec.outcome with
  | .send ack => some ack
  | .wait _ _ => none

/-- Where the thread is after the section. -/
def after (tag : Nat) (sec : Section) : Thread :=
  match sec.outcome with
  | .send _ => .reading
  | .wait k msg => .asleep tag k msg

/-- A section that ends in a reply ends in sending it. -/
theorem outcome_of_answer {sec : Section} {ack : Node} (h : some ack = answer sec) :
    sec.outcome = .send ack := by
  cases ho : sec.outcome with
  | send a =>
      rw [answer, ho] at h
      rw [Option.some.inj h]
  | wait k msg =>
      rw [answer, ho] at h
      exact nomatch h

namespace Host

/-- Freshly started: every thread reads. -/
def start (blocksId : List Int32) : Host ι := ⟨Server.create blocksId, fun _ => .reading⟩

/-- Thread `c` leaves its critical section: the broadcast reaches the others. -/
def leave (h : Host ι) (c : ι) (tag : Nat) (sec : Section) : Host ι :=
  ⟨sec.server,
   Function.update (fun u => wakeAll sec.signalled (h.thread u)) c (after tag sec)⟩

/-- Thread `c` set to `th`. -/
def setThread (h : Host ι) (c : ι) (th : Thread) : Host ι :=
  { h with thread := Function.update h.thread c th }

omit [DecidableEq ι] in
@[simp] theorem start_thread (blocksId : List Int32) (c : ι) :
    (start (ι := ι) blocksId).thread c = .reading := rfl

@[simp] theorem leave_server (h : Host ι) (c : ι) (tag : Nat) (sec : Section) :
    (h.leave c tag sec).server = sec.server := rfl

theorem leave_thread_self (h : Host ι) (c : ι) (tag : Nat) (sec : Section) :
    (h.leave c tag sec).thread c = after tag sec := by
  simp [leave]

theorem leave_thread_other (h : Host ι) {c u : ι} (tag : Nat) (sec : Section)
    (hu : u ≠ c) : (h.leave c tag sec).thread u = wakeAll sec.signalled (h.thread u) := by
  simp [leave, hu]

theorem setThread_self (h : Host ι) (c : ι) (th : Thread) :
    (h.setThread c th).thread c = th := by
  simp [setThread]

theorem setThread_other (h : Host ι) {c u : ι} (th : Thread) (hu : u ≠ c) :
    (h.setThread c th).thread u = h.thread u := by
  simp [setThread, hu]

end Host

/-- One step of one thread. `clientId` is what `get_client_id` makes of each thread's
    connection. -/
inductive Step (clientId : ι → String) : Host ι → HostEvent ι → Host ι → Prop where
  | first {h : Host ι} {c : ι} {tag : Nat} {req : Node} {sec : Section}
      (hread : h.thread c = .reading)
      (hpass : h.server.clientHandler (clientId c) (Message.ofNode req) = .ok sec) :
      Step clientId h (.critical c tag req (answer sec)) (h.leave c tag sec)
  | again {h : Host ι} {c : ι} {tag : Nat} {k : Int32} {msg : Message} {sec : Section}
      (hawake : h.thread c = .awake tag k msg)
      (hloop : h.server.handleWait k msg = .ok sec) :
      Step clientId h (.critical c tag msg.node (answer sec)) (h.leave c tag sec)
  | spurious {h : Host ι} {c : ι} {tag : Nat} {k : Int32} {msg : Message}
      (hasleep : h.thread c = .asleep tag k msg) :
      Step clientId h (.woken c) (h.setThread c (.awake tag k msg))

/-! ## Running threads -/

/-- What can happen next. -/
inductive HostAction (ι : Type) where
  | request (c : ι) (req : Node)
  | retry (c : ι)
  | wake (c : ι)

/-- The step an action takes, if it is possible. -/
def next (clientId : ι → String) (h : Host ι) : HostAction ι → Option (HostEvent ι × Host ι)
  | .request c req =>
      match h.thread c with
      | .reading =>
          match h.server.clientHandler (clientId c) (Message.ofNode req) with
          | .ok sec => some (.critical c 0 req (answer sec), h.leave c 0 sec)
          | .error _ => none
      | _ => none
  | .retry c =>
      match h.thread c with
      | .awake tag k msg =>
          match h.server.handleWait k msg with
          | .ok sec => some (.critical c tag msg.node (answer sec), h.leave c tag sec)
          | .error _ => none
      | _ => none
  | .wake c =>
      match h.thread c with
      | .asleep tag k msg => some (.woken c, h.setThread c (.awake tag k msg))
      | _ => none

/-- Every action performed is a step. -/
theorem next_sound (clientId : ι → String) :
    ∀ (h : Host ι) (a : HostAction ι) (e : HostEvent ι) (h' : Host ι),
      next clientId h a = some (e, h') → Step clientId h e h' := by
  intro h a e h' hn
  cases a with
  | request c req =>
      cases hth : h.thread c with
      -- only a reading thread takes a request
      | reading =>
          cases hp : h.server.clientHandler (clientId c) (Message.ofNode req) with
          | error f => simp [next, hth, hp] at hn
          | ok sec =>
              obtain ⟨rfl, rfl⟩ :
                  .critical c 0 req (answer sec) = e ∧ h.leave c 0 sec = h' := by
                simpa [next, hth, hp] using hn
              exact Step.first hth hp
      | asleep tag k msg => simp [next, hth] at hn
      | awake tag k msg => simp [next, hth] at hn
  | retry c =>
      cases hth : h.thread c with
      | awake tag k msg =>
          cases hp : h.server.handleWait k msg with
          | error f => simp [next, hth, hp] at hn
          | ok sec =>
              obtain ⟨rfl, rfl⟩ :
                  .critical c tag msg.node (answer sec) = e ∧ h.leave c tag sec = h' := by
                simpa [next, hth, hp] using hn
              exact Step.again hth hp
      | reading => simp [next, hth] at hn
      | asleep tag k msg => simp [next, hth] at hn
  | wake c =>
      cases hth : h.thread c with
      | asleep tag k msg =>
          obtain ⟨rfl, rfl⟩ : .woken c = e ∧ h.setThread c (.awake tag k msg) = h' := by
            simpa [next, hth] using hn
          exact Step.spurious hth
      | reading => simp [next, hth] at hn
      | awake tag k msg => simp [next, hth] at hn

/-! ## Which request a thread is at -/

/-- The request a thread in the loop of a WAIT is still to answer. -/
def serving : Thread → Option (Nat × Node)
  | .reading => none
  | .asleep tag _ msg => some (tag, msg.node)
  | .awake tag _ msg => some (tag, msg.node)

@[simp] theorem serving_wakeAll (signalled : Option Int32) (th : Thread) :
    serving (wakeAll signalled th) = serving th := by
  cases th with
  | reading => rfl
  | asleep tag k msg =>
      by_cases hk : signalled = some k
      · simp [wakeAll, hk, serving]
      · simp [wakeAll, hk]
  | awake tag k msg => rfl

/-- What is left of a request after a critical section: nothing once it is answered. -/
def unanswered (tag : Nat) (req : Node) : Option Node → Option (Nat × Node)
  | some _ => none
  | none => some (tag, req)

/-- A section that ends in sleep keeps the message it was given. -/
theorem serving_after {s : Server} {clientId : String} {req : Node} {sec : Section}
    (tag : Nat) (h : s.clientHandler clientId (Message.ofNode req) = .ok sec) :
    serving (after tag sec) = unanswered tag req (answer sec) := by
  cases ho : sec.outcome with
  | send ack => simp [after, answer, ho, serving, unanswered]
  | wait k msg =>
      rcases Server.clientHandler_cases h with ⟨-, rfl⟩ | ⟨b, m, hm, hserved⟩
      · exact nomatch ho
      · obtain ⟨-, -, rfl, -, -⟩ := hserved.of_wait ho
        have hnode : msg.node = req := (Message.deref_caches hm).1
        simp [after, answer, ho, serving, unanswered, hnode]

/-- So does a section of a woken thread. -/
theorem serving_after_wait {s : Server} {k : Int32} {msg : Message} {sec : Section}
    (tag : Nat) (h : s.handleWait k msg = .ok sec) :
    serving (after tag sec) = unanswered tag msg.node (answer sec) := by
  rw [Server.handleWait] at h
  split at h
  · obtain rfl := Except.ok.inj h
    rfl
  · split at h
    · cases h
    · rename_i b m hm
      split at h
      · obtain rfl := Except.ok.inj h
        show some (tag, m.node) = some (tag, msg.node)
        rw [(Message.deref_caches hm).1]
      · obtain rfl := Except.ok.inj h
        rfl

/-- After a critical section its thread is still at the request exactly when it sleeps. -/
theorem serving_critical {clientId : ι → String} {h h' : Host ι} {c : ι} {tag : Nat}
    {req : Node} {ans : Option Node}
    (hs : Step clientId h (.critical c tag req ans) h') :
    serving (h'.thread c) = unanswered tag req ans := by
  cases hs with
  | first hread hpass =>
      rw [Host.leave_thread_self]
      exact serving_after tag hpass
  | again hawake hloop =>
      rw [Host.leave_thread_self]
      exact serving_after_wait tag hloop

/-- A critical section moves no other thread to another request. -/
theorem serving_other {clientId : ι → String} {h h' : Host ι} {c u : ι} {tag : Nat}
    {req : Node} {ans : Option Node}
    (hs : Step clientId h (.critical c tag req ans) h') (hu : u ≠ c) :
    serving (h'.thread u) = serving (h.thread u) := by
  cases hs with
  | first hread hpass => rw [Host.leave_thread_other _ _ _ hu, serving_wakeAll]
  | again hawake hloop => rw [Host.leave_thread_other _ _ _ hu, serving_wakeAll]

/-- Neither does a wake-up. -/
theorem serving_woken {clientId : ι → String} {h h' : Host ι} {c : ι}
    (hs : Step clientId h (.woken c) h') (u : ι) :
    serving (h'.thread u) = serving (h.thread u) := by
  cases hs with
  | spurious hasleep =>
      by_cases huc : u = c
      · rw [huc, Host.setThread_self, hasleep]
        rfl
      · rw [Host.setThread_other _ _ huc]

/-- A wake-up leaves the server alone. -/
theorem server_woken {clientId : ι → String} {h h' : Host ι} {c : ι}
    (hs : Step clientId h (.woken c) h') : h'.server = h.server := by
  cases hs
  rfl

/-! ## What a thread in the loop of a WAIT carries -/

/-- The message a waiting thread holds is a WAIT whose block, decoded and cached, names
    the condition it waits on. -/
structure Waits (k : Int32) (msg : Message) (b : BlockServer) : Prop where
  type : msg.type = .wait
  decodes : (Message.ofNode msg.node).deref = .ok (b, msg)
  names : b.id = k

theorem Waits.cached {k : Int32} {msg : Message} {b : BlockServer} (h : Waits k msg b) :
    msg.deref = .ok (b, msg) := Message.deref_again h.decodes

/-- The condition variables are in order: sleepers wait for the present revision of a
    hosted block, and a woken thread still holds its WAIT. -/
structure Settled (h : Host ι) : Prop where
  asleep : ∀ c tag k msg, h.thread c = .asleep tag k msg →
    ∃ b it, Waits k msg b ∧ h.server.blocks k = some it ∧ it.revision = b.revision
  awake : ∀ c tag k msg, h.thread c = .awake tag k msg →
    ∃ b it, Waits k msg b ∧ h.server.blocks k = some it

/-- Every critical section is one of the ways of `Served`, or the answer to a message
    that is no request. -/
theorem critical_cases {clientId : ι → String} {h h' : Host ι} {c : ι} {tag : Nat}
    {req : Node} {ans : Option Node} (hset : Settled h)
    (hs : Step clientId h (.critical c tag req ans) h') :
    ∃ sec, h' = h.leave c tag sec ∧ ans = answer sec ∧
      (((Message.ofNode req).type.isRequest = false ∧
          sec = ⟨h.server, none, .send (emit .nack)⟩) ∨
        ∃ b m, (Message.ofNode req).deref = .ok (b, m) ∧
          Served h.server (clientId c) b m (Message.ofNode req).type sec) := by
  cases hs with
  | @first _ _ _ sec hread hpass =>
      exact ⟨sec, rfl, rfl, Server.clientHandler_cases hpass⟩
  | @again _ _ k msg sec hawake hloop =>
      obtain ⟨b, it, hw, hit⟩ := hset.awake c tag k msg hawake
      obtain ⟨sec', hsec, hserved⟩ :=
        Server.handleWait_served h.server (clientId c) hw.cached
      rw [hw.names, hloop] at hsec
      obtain rfl := Except.ok.inj hsec
      have htype : (Message.ofNode msg.node).type = .wait :=
        (Message.type_congr rfl).trans hw.type
      exact ⟨sec, rfl, rfl, Or.inr ⟨b, msg, hw.decodes, by rw [htype]; exact hserved⟩⟩

/-- A critical section on a request whose block decodes is one of the ways of `Served` for
    that block. -/
theorem critical_request {clientId : ι → String} {h h' : Host ι} {c : ι} {tag : Nat}
    {req : Node} {ans : Option Node} {t : MessageType} {b : BlockServer} {m : Message}
    (hset : Settled h) (hs : Step clientId h (.critical c tag req ans) h')
    (htype : (Message.ofNode req).type = t) (ht : t.isRequest = true)
    (hm : (Message.ofNode req).deref = .ok (b, m)) :
    ∃ sec, h' = h.leave c tag sec ∧ ans = answer sec ∧
      Served h.server (clientId c) b m t sec := by
  obtain ⟨sec, hleave, hans, ⟨hnot, -⟩ | ⟨b', m', hm', hserved⟩⟩ := critical_cases hset hs
  · rw [htype, ht] at hnot
    cases hnot
  · obtain ⟨rfl, rfl⟩ := Prod.mk.inj (Except.ok.inj (hm.symm.trans hm'))
    rw [htype] at hserved
    exact ⟨sec, hleave, hans, hserved⟩

/-! ## The invariant -/

omit [DecidableEq ι] in
theorem start_settled (blocksId : List Int32) : Settled (Host.start (ι := ι) blocksId) where
  asleep := fun _ _ _ _ hth => nomatch hth
  awake := fun _ _ _ _ hth => nomatch hth

/-- A thread that is asleep after a broadcast was asleep before, on another condition. -/
theorem wakeAll_asleep {signalled : Option Int32} {th : Thread} {tag : Nat} {k : Int32}
    {msg : Message} (h : wakeAll signalled th = .asleep tag k msg) :
    th = .asleep tag k msg ∧ signalled ≠ some k := by
  cases th with
  | reading => exact nomatch h
  | awake tag' k' msg' => exact nomatch h
  | asleep tag' k' msg' =>
      by_cases hk : signalled = some k'
      · simp [wakeAll, hk] at h
      · rw [wakeAll, if_neg hk] at h
        obtain ⟨rfl, rfl, rfl⟩ := Thread.asleep.inj h
        exact ⟨rfl, hk⟩

/-- A thread that is awake after a broadcast was in the same loop before. -/
theorem wakeAll_awake {signalled : Option Int32} {th : Thread} {tag : Nat} {k : Int32}
    {msg : Message} (h : wakeAll signalled th = .awake tag k msg) :
    th = .awake tag k msg ∨ th = .asleep tag k msg := by
  cases th with
  | reading => exact nomatch h
  | awake tag' k' msg' => exact Or.inl h
  | asleep tag' k' msg' =>
      by_cases hk : signalled = some k'
      · rw [wakeAll, if_pos hk] at h
        obtain ⟨rfl, rfl, rfl⟩ := Thread.awake.inj h
        exact Or.inr rfl
      · simp [wakeAll, hk] at h

/-- The sleepers a request leaves asleep still wait for the present revision: a change of
    the revision would have woken them. -/
theorem Served.keeps_sleeper {s : Server} {clientId : String} {b₀ : BlockServer}
    {m : Message} {t : MessageType} {sec : Section} (h : Served s clientId b₀ m t sec)
    {k : Int32} {it b : BlockServer} (hk : s.blocks k = some it)
    (heq : it.revision = b.revision) (hsig : sec.signalled ≠ some k) :
    ∃ it', sec.server.blocks k = some it' ∧ it'.revision = b.revision := by
  obtain ⟨it', hit', -, hkeep⟩ := h.content hk
  by_cases ha : Accepts it t b₀ k
  · exact absurd (h.signalled_of_accepts hk ha).1 hsig
  · exact ⟨it', hit', (hkeep ha).revision.trans heq⟩

/-- What the other threads find after a critical section. -/
theorem settled_others {clientId : ι → String} {h : Host ι} {c : ι} (u : ι) (tag : Nat)
    {sec : Section} {b₀ : BlockServer} {m : Message} {t : MessageType} (hset : Settled h)
    (hserved : Served h.server (clientId c) b₀ m t sec) :
    (∀ tag' k msg, wakeAll sec.signalled (h.thread u) = .asleep tag' k msg →
      ∃ b it, Waits k msg b ∧ (h.leave c tag sec).server.blocks k = some it ∧
        it.revision = b.revision) ∧
    (∀ tag' k msg, wakeAll sec.signalled (h.thread u) = .awake tag' k msg →
      ∃ b it, Waits k msg b ∧ (h.leave c tag sec).server.blocks k = some it) := by
  constructor
  · intro tag' k msg hth
    obtain ⟨hold, hsig⟩ := wakeAll_asleep hth
    obtain ⟨b, it, hw, hit, heq⟩ := hset.asleep u tag' k msg hold
    obtain ⟨it', hit', heq'⟩ := Served.keeps_sleeper hserved hit heq hsig
    exact ⟨b, it', hw, hit', heq'⟩
  · intro tag' k msg hth
    have hloop : ∃ b it, Waits k msg b ∧ h.server.blocks k = some it := by
      rcases wakeAll_awake hth with hold | hold
      · exact hset.awake u tag' k msg hold
      · obtain ⟨b, it, hw, hit, -⟩ := hset.asleep u tag' k msg hold
        exact ⟨b, it, hw, hit⟩
    obtain ⟨b, it, hw, hit⟩ := hloop
    obtain ⟨it', hit', -⟩ := hserved.content hit
    exact ⟨b, it', hw, hit'⟩

/-- A critical section keeps the condition variables in order. -/
theorem settled_leave {clientId : ι → String} {h : Host ι} {c : ι} {tag : Nat}
    {req : Node} {sec : Section} {b₀ : BlockServer} {m : Message} (hset : Settled h)
    (hm : (Message.ofNode req).deref = .ok (b₀, m))
    (hserved : Served h.server (clientId c) b₀ m (Message.ofNode req).type sec) :
    Settled (h.leave c tag sec) := by
  have hother := fun u => settled_others u tag hset hserved
  have hnode : m.node = req := (Message.deref_caches hm).1
  constructor
  · intro u tag' k msg hth
    by_cases hu : u = c
    · subst hu
      rw [Host.leave_thread_self] at hth
      cases ho : sec.outcome with
      | send ack =>
          rw [after, ho] at hth
          exact nomatch hth
      | wait k' msg' =>
          rw [after, ho] at hth
          obtain ⟨rfl, rfl, rfl⟩ := Thread.asleep.inj hth
          obtain ⟨ht, rfl, rfl, hsrv, it, hit, heq⟩ := hserved.of_wait ho
          have htype : msg'.type = .wait :=
            (Message.type_congr (show msg'.node = (Message.ofNode req).node from hnode)).trans ht
          refine ⟨b₀, it, ⟨htype, by rw [hnode]; exact hm, rfl⟩, ?_, heq⟩
          show sec.server.blocks b₀.id = some it
          rw [hsrv]
          exact hit
    · rw [Host.leave_thread_other _ _ _ hu] at hth
      exact (hother u).1 tag' k msg hth
  · intro u tag' k msg hth
    by_cases hu : u = c
    · subst hu
      rw [Host.leave_thread_self] at hth
      cases ho : sec.outcome with
      | send ack =>
          rw [after, ho] at hth
          exact nomatch hth
      | wait k' msg' =>
          rw [after, ho] at hth
          exact nomatch hth
    · rw [Host.leave_thread_other _ _ _ hu] at hth
      exact (hother u).2 tag' k msg hth

omit [DecidableEq ι] in
/-- A thread that goes back to reading, over the same server, disturbs nothing. -/
theorem Settled.reading {h h' : Host ι} (hset : Settled h) (hserver : h'.server = h.server)
    (hthread : ∀ u, h'.thread u = .reading ∨ h'.thread u = h.thread u) : Settled h' := by
  constructor
  · intro u tag k msg hth
    rw [hserver]
    rcases hthread u with hread | hold
    · rw [hread] at hth
      cases hth
    · rw [hold] at hth
      exact hset.asleep u tag k msg hth
  · intro u tag k msg hth
    rw [hserver]
    rcases hthread u with hread | hold
    · rw [hread] at hth
      cases hth
    · rw [hold] at hth
      exact hset.awake u tag k msg hth

/-- A section that broadcasts nothing and changes nothing but its own thread, which goes
    back to reading. -/
theorem settled_leave_unknown {h : Host ι} {c : ι} {tag : Nat} (hset : Settled h) :
    Settled (h.leave c tag ⟨h.server, none, .send (emit .nack)⟩) := by
  refine hset.reading rfl fun u => ?_
  by_cases hu : u = c
  · rw [hu]
    exact Or.inl (Host.leave_thread_self ..)
  · rw [Host.leave_thread_other _ _ _ hu]
    exact Or.inr (by cases h.thread u <;> rfl)

/-- **Every step keeps the condition variables in order.** -/
theorem step_settled {clientId : ι → String} {h h' : Host ι} {e : HostEvent ι}
    (hset : Settled h) (hs : Step clientId h e h') : Settled h' := by
  cases e with
  | critical c tag req ans =>
      obtain ⟨sec, rfl, -, ⟨-, rfl⟩ | ⟨b, m, hm, hserved⟩⟩ := critical_cases hset hs
      · exact settled_leave_unknown hset
      · exact settled_leave hset hm hserved
  | woken c =>
      cases hs with
      -- the sleeper takes what it knew along, without the revision
      | @spurious _ tag k msg hasleep =>
          constructor
          · intro u tag' k' msg' hth
            by_cases hu : u = c
            · rw [hu, Host.setThread_self] at hth
              exact nomatch hth
            · rw [Host.setThread_other _ _ hu] at hth
              exact hset.asleep u tag' k' msg' hth
          · intro u tag' k' msg' hth
            by_cases hu : u = c
            · rw [hu, Host.setThread_self] at hth
              obtain ⟨rfl, rfl, rfl⟩ := Thread.awake.inj hth
              obtain ⟨b, it, hw, hit, -⟩ := hset.asleep c _ _ _ hasleep
              exact ⟨b, it, hw, hit⟩
            · rw [Host.setThread_other _ _ hu] at hth
              exact hset.awake u tag' k' msg' hth

theorem run_settled {clientId : ι → String} {blocksId : List Int32}
    {tr : List (Entry (Host ι) (HostEvent ι))} {h : Host ι}
    (hrun : Run (Step clientId) (Host.start blocksId) tr h) : Settled h :=
  hrun.invariant (start_settled blocksId) (fun _ _ _ hset hs => step_settled hset hs)

/-- An entry of a run is a step from a state in which they are. -/
theorem entry_settled {clientId : ι → String} {blocksId : List Int32}
    {tr : List (Entry (Host ι) (HostEvent ι))} {h : Host ι}
    (hrun : Run (Step clientId) (Host.start blocksId) tr h)
    {t : Entry (Host ι) (HostEvent ι)} (ht : t ∈ tr) :
    Step clientId t.pre t.event t.post ∧ Settled t.pre := by
  obtain ⟨i, hi⟩ := List.getElem?_of_mem ht
  exact ⟨hrun.step_of_mem ht, run_settled (hrun.take hi)⟩

/-- Every thread asleep on `blocks_wait[k]` serves a WAIT whose revision is the one block
    `k` has now. -/
def SleepersCurrent (h : Host ι) : Prop :=
  ∀ c tag k msg, h.thread c = .asleep tag k msg →
    ∃ b it, msg.type = .wait ∧ msg.deref = .ok (b, msg) ∧ b.id = k ∧
      h.server.blocks k = some it ∧ it.revision = b.revision

/-- Every WAIT for a hosted block that was answered got an ACK, from a critical section in
    which the block's revision differed from the request's. -/
def AnswersTrue (tr : List (Entry (Host ι) (HostEvent ι))) : Prop :=
  ∀ t ∈ tr, ∀ c tag req ack b m it, t.event = .critical c tag req (some ack) →
    (Message.ofNode req).type = .wait → (Message.ofNode req).deref = .ok (b, m) →
    t.pre.server.blocks b.id = some it →
    ack = emit .ack ∧ it.revision ≠ b.revision

/-- **No lost wake-up and no false answer**, in every reachable state of a freshly started
    server under any requests. -/
theorem wait_settled {clientId : ι → String} {blocksId : List Int32}
    {tr : List (Entry (Host ι) (HostEvent ι))} {h : Host ι}
    (hrun : Run (Step clientId) (Host.start blocksId) tr h) :
    SleepersCurrent h ∧ AnswersTrue tr := by
  constructor
  · intro c tag k msg hth
    obtain ⟨b, it, hw, hit, heq⟩ := (run_settled hrun).asleep c tag k msg hth
    exact ⟨b, it, hw.type, hw.cached, hw.names, hit, heq⟩
  · intro t ht c tag req ack b m it hev hwait hm hit
    obtain ⟨hs, hset⟩ := entry_settled hrun ht
    rw [hev] at hs
    obtain ⟨sec, -, hans, hserved⟩ := critical_request hset hs hwait rfl hm
    -- the thread answers only out of a loop whose test failed
    exact hserved.wait_reply (outcome_of_answer hans) hit

/-- Two threads: one waits for block 7 at revision 0 and falls asleep, the other writes
    the block, and the first takes the test again. -/
def wakeUp : List (HostAction Bool) :=
  [.request false (emitBlock .wait ⟨7, 0, none⟩ true),
   .request true (emitBlock .write ⟨7, 0, some (Data.memset 65)⟩ false),
   .retry false]

theorem wait_settled_wakeUp :
    ∃ tr h, Run (Step fun c : Bool => if c then "10.0.0.2:1" else "10.0.0.1:1")
        (Host.start [7]) tr h ∧ tr.length = 3 ∧ SleepersCurrent h ∧ AnswersTrue tr := by
  obtain ⟨p, hp⟩ := Option.isSome_iff_exists.mp (show (exec
    (next fun c : Bool => if c then "10.0.0.2:1" else "10.0.0.1:1")
    (Host.start [7]) wakeUp).isSome = true by decide +kernel)
  have hrun := run_of_exec _ (next_sound _) wakeUp _ hp
  refine ⟨p.1, p.2, hrun, ?_, wait_settled hrun⟩
  have hlen : (exec (next fun c : Bool => if c then "10.0.0.2:1" else "10.0.0.1:1")
    (Host.start [7]) wakeUp).map (fun q => q.1.length) = some 3 := by
    decide +kernel
  rw [hp] at hlen
  exact Option.some.inj hlen

end DmHost
