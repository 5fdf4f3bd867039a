import DistributedMemory.DmAddressProofs
import DistributedMemory.DmClusterProofs

/-!
# Machines — the cluster with the memory of its processes

The clients of `DmCluster` keep the content of their blocks; here every client is a process
with a memory, a program changes single bytes of it wherever it likes, and the library copies
blocks between the memory and the servers.

* **`Step`** — the steps of `DmCluster`, with `stored` in place of `poked`.
* **`machines_refine`** — where every region handed to `dm_block_map` is free at the time, a run
  of the machines is, through `view`, a run of the cluster: a store shows as a change of the
  block it hits, or not at all.
* **`free_of_layout`** — it is so where every block of a process has a place of its own.
* **`memory_framed`** — a byte that has changed was stored by its program, or is in a region
  handed to `dm_block_map` and came with a map or an update.
-/

namespace DmMachine

open DmBlock DmConfig DmMessage DmClient DmServer DmHost DmSystem DmCluster DmAddress CellMemory
  LabelledRun

variable {ι : Type} [DecidableEq ι]

/-- A call that wrote its request and waits for a reply. -/
structure PendingAt where
  call : CallAt
  tag : Nat
  req : Node

def PendingAt.view (m : Nat → UInt8) (p : PendingAt) : Pending := ⟨p.call.view m, p.tag, p.req⟩

/-- The servers by id, and the processes. -/
structure Machines (ι : Type) where
  host : String → Host ι
  process : ι → Process
  died : ι → Option String
  pending : ι → Option (String × PendingAt)
  wire : ι → String → Wire

/-- Freshly started, whatever is in memory. -/
def start (F : Fleet ι) (memory : ι → Nat → UInt8) : Machines ι where
  host := fun sid => Host.start (F.blocksId sid)
  process := fun c => ⟨F.config c, F.sockets c, fun _ => none, memory c⟩
  died := fun _ => none
  pending := fun _ => none
  wire := fun _ _ => ⟨0, [], []⟩

namespace Machines

def route (s : Machines ι) (c : ι) (id : Int32) : String :=
  (s.process c).config.findServerIdByBlockId id

def setHost (s : Machines ι) (sid : String) (h : Host ι) : Machines ι :=
  { s with host := Function.update s.host sid h }

def setProcess (s : Machines ι) (c : ι) (p : Process) : Machines ι :=
  { s with process := Function.update s.process c p }

def setDied (s : Machines ι) (c : ι) (sid : String) : Machines ι :=
  { s with died := Function.update s.died c (some sid) }

def setPending (s : Machines ι) (c : ι) (p : Option (String × PendingAt)) : Machines ι :=
  { s with pending := Function.update s.pending c p }

def setWire (s : Machines ι) (c : ι) (sid : String) (w : Wire) : Machines ι :=
  { s with wire := Function.update s.wire c (Function.update (s.wire c) sid w) }

end Machines

/-- What a step shows. -/
inductive EventAt (ι : Type) where
  | returned (c : ι) (call : CallAt) (code : Int)
  | sent (c : ι) (p : PendingAt)
  | died (c : ι) (call : CallAt)
  /-- The program changed a byte of its memory. -/
  | stored (c : ι) (x : Nat)
  | critical (c : ι) (tag : Nat) (req : Node) (ans : Option Node)
  | woken (c : ι)
  | received (c : ι) (p : PendingAt) (tag : Nat) (reply : Node) (code : Option Int)
  | timedOut (c : ι) (p : PendingAt)

/-- One step of the machines, with the server it concerns. -/
inductive Step (F : Fleet ι) : Machines ι → String × EventAt ι → Machines ι → Prop where
  | returned {s : Machines ι} {c : ι} {call : CallAt} {code : Int} {p : Process}
      (hidle : s.pending c = none) (halive : s.died c = none)
      (hsend : (s.process c).send call = .ok (.returned code p)) :
      Step F s (s.route c call.id, .returned c call code) (s.setProcess c p)
  | sent {s : Machines ι} {c : ι} {call : CallAt} {sid : String} {req : Node} {p : Process}
      (hidle : s.pending c = none) (halive : s.died c = none)
      (hsend : (s.process c).send call = .ok (.sent sid req p)) :
      Step F s (sid, .sent c ⟨call, (s.wire c sid).sent, req⟩)
        (((s.setProcess c p).setPending c (some (sid, ⟨call, (s.wire c sid).sent, req⟩))).setWire
          c sid ((s.wire c sid).write req))
  | died {s : Machines ι} {c : ι} {call : CallAt} {f : Fault}
      (hidle : s.pending c = none) (halive : s.died c = none)
      (hsend : (s.process c).send call = .error f) :
      Step F s (s.route c call.id, .died c call) (s.setDied c (s.route c call.id))
  | stored {s : Machines ι} {c : ι} {sid : String} {x : Nat} (v : UInt8)
      (hidle : s.pending c = none) (halive : s.died c = none) :
      Step F s (sid, .stored c x) (s.setProcess c ((s.process c).poke x v))
  | request {s : Machines ι} {c : ι} {sid : String} {tag : Nat} {req : Node}
      {rest : List (Nat × Node)} {ans : Option Node} {host : Host ι}
      (hreq : (s.wire c sid).requests = (tag, req) :: rest)
      (hread : (s.host sid).thread c = .reading)
      (hhost : DmHost.Step (fun u => F.clientId u sid) (s.host sid) (.critical c tag req ans)
        host) :
      Step F s (sid, .critical c tag req ans)
        ((s.setHost sid host).setWire c sid ((s.wire c sid).answered rest tag ans))
  | retry {s : Machines ι} {c : ι} {sid : String} {tag : Nat} {req : Node} {k : Int32}
      {msg : Message} {ans : Option Node} {host : Host ι}
      (hawake : (s.host sid).thread c = .awake tag k msg)
      (hhost : DmHost.Step (fun u => F.clientId u sid) (s.host sid) (.critical c tag req ans)
        host) :
      Step F s (sid, .critical c tag req ans)
        ((s.setHost sid host).setWire c sid
          ((s.wire c sid).answered (s.wire c sid).requests tag ans))
  | woken {s : Machines ι} {c : ι} {sid : String} {host : Host ι}
      (hhost : DmHost.Step (fun u => F.clientId u sid) (s.host sid) (.woken c) host) :
      Step F s (sid, .woken c) (s.setHost sid host)
  | received {s : Machines ι} {c : ι} {sid : String} {q : PendingAt} {tag : Nat} {reply : Node}
      {rest : List (Nat × Node)} {code : Int} {p : Process}
      (hp : s.pending c = some (sid, q)) (halive : s.died c = none)
      (hrep : (s.wire c sid).replies = (tag, reply) :: rest)
      (hrecv : (s.process c).receive q.call (some reply) = .ok (code, p)) :
      Step F s (sid, .received c q tag reply (some code))
        (((s.setProcess c p).setPending c none).setWire c sid
          { s.wire c sid with replies := rest })
  | receivedDied {s : Machines ι} {c : ι} {sid : String} {q : PendingAt} {tag : Nat}
      {reply : Node} {rest : List (Nat × Node)} {f : Fault}
      (hp : s.pending c = some (sid, q)) (halive : s.died c = none)
      (hrep : (s.wire c sid).replies = (tag, reply) :: rest)
      (hrecv : (s.process c).receive q.call (some reply) = .error f) :
      Step F s (sid, .received c q tag reply none)
        (((s.setDied c sid).setPending c none).setWire c sid
          { s.wire c sid with replies := rest })
  | timedOut {s : Machines ι} {c : ι} {sid : String} {q : PendingAt} {code : Int} {p : Process}
      (hp : s.pending c = some (sid, q)) (halive : s.died c = none)
      (hnone : (s.wire c sid).replies = [])
      (hrecv : (s.process c).receive q.call none = .ok (code, p)) :
      Step F s (sid, .timedOut c q)
        (((s.setProcess c p).setPending c none).setWire c sid
          { s.wire c sid with replies := [] })

/-- The history of a run of the machines. -/
abbrev MachineTrace (ι : Type) := List (Entry (Machines ι) (String × EventAt ι))

/-- The runs of freshly started machines. -/
abbrev MachineRun (F : Fleet ι) (memory : ι → Nat → UInt8) (tr : MachineTrace ι)
    (s : Machines ι) : Prop :=
  Run (Step F) (start F memory) tr s

/-! ## Running the machines -/

/-- What can happen next, but for wake-ups without a broadcast and timeouts. -/
inductive ActionAt (ι : Type) where
  | call (c : ι) (call : CallAt)
  | store (c : ι) (x : Nat) (v : UInt8)
  | serve (sid : String) (c : ι)
  | receive (c : ι)

/-- The step an action takes, if it is possible. -/
def next (F : Fleet ι) (s : Machines ι) : ActionAt ι → Option ((String × EventAt ι) × Machines ι)
  | .call c call =>
      match s.pending c, s.died c with
      | none, none =>
          match (s.process c).send call with
          | .error _ =>
              some ((s.route c call.id, .died c call), s.setDied c (s.route c call.id))
          | .ok (.returned code p) =>
              some ((s.route c call.id, .returned c call code), s.setProcess c p)
          | .ok (.sent sid req p) =>
              let q : PendingAt := ⟨call, (s.wire c sid).sent, req⟩
              some ((sid, .sent c q), ((s.setProcess c p).setPending c (some (sid, q))).setWire
                c sid ((s.wire c sid).write req))
      | _, _ => none
  | .store c x v =>
      match s.pending c, s.died c with
      | none, none => some (("", .stored c x), s.setProcess c ((s.process c).poke x v))
      | _, _ => none
  | .serve sid c =>
      match (s.host sid).thread c with
      | .reading =>
          match (s.wire c sid).requests with
          | [] => none
          | (tag, req) :: rest =>
              match (s.host sid).server.clientHandler (F.clientId c sid) (Message.ofNode req) with
              | .error _ => none
              | .ok sec =>
                  some ((sid, .critical c tag req (answer sec)),
                    (s.setHost sid ((s.host sid).leave c tag sec)).setWire c sid
                      ((s.wire c sid).answered rest tag (answer sec)))
      | .asleep _ _ _ => none
      | .awake tag k msg =>
          match (s.host sid).server.handleWait k msg with
          | .error _ => none
          | .ok sec =>
              some ((sid, .critical c tag msg.node (answer sec)),
                (s.setHost sid ((s.host sid).leave c tag sec)).setWire c sid
                  ((s.wire c sid).answered (s.wire c sid).requests tag (answer sec)))
  | .receive c =>
      match s.pending c, s.died c with
      | some (sid, q), none =>
          match (s.wire c sid).replies with
          | [] => none
          | (tag, reply) :: rest =>
              match (s.process c).receive q.call (some reply) with
              | .error _ =>
                  some ((sid, .received c q tag reply none),
                    ((s.setDied c sid).setPending c none).setWire c sid
                      { s.wire c sid with replies := rest })
              | .ok (code, p) =>
                  some ((sid, .received c q tag reply (some code)),
                    ((s.setProcess c p).setPending c none).setWire c sid
                      { s.wire c sid with replies := rest })
      | _, _ => none

/-- Every action performed is a step. -/
theorem next_sound (F : Fleet ι) :
    ∀ (s : Machines ι) (a : ActionAt ι) (e : String × EventAt ι) (s' : Machines ι),
      next F s a = some (e, s') → Step F s e s' := by
  intro s a e s' hn
  cases a with
  | call c call =>
      simp only [next] at hn
      split at hn
      · rename_i hidle halive
        split at hn
        · rename_i hsend
          obtain ⟨rfl, rfl⟩ := Prod.mk.inj (Option.some.inj hn)
          exact Step.died hidle halive hsend
        · rename_i hsend
          obtain ⟨rfl, rfl⟩ := Prod.mk.inj (Option.some.inj hn)
          exact Step.returned hidle halive hsend
        · rename_i hsend
          obtain ⟨rfl, rfl⟩ := Prod.mk.inj (Option.some.inj hn)
          exact Step.sent hidle halive hsend
      · cases hn
  | store c x v =>
      simp only [next] at hn
      split at hn
      · rename_i hidle halive
        obtain ⟨rfl, rfl⟩ := Prod.mk.inj (Option.some.inj hn)
        exact Step.stored v hidle halive
      · cases hn
  | serve sid c =>
      simp only [next] at hn
      split at hn
      · rename_i hread
        split at hn
        · cases hn
        · rename_i hreq
          split at hn
          · cases hn
          · rename_i hpass
            obtain ⟨rfl, rfl⟩ := Prod.mk.inj (Option.some.inj hn)
            exact Step.request hreq hread (DmHost.Step.first hread hpass)
      · cases hn
      · rename_i hawake
        split at hn
        · cases hn
        · rename_i hloop
          obtain ⟨rfl, rfl⟩ := Prod.mk.inj (Option.some.inj hn)
          exact Step.retry hawake (DmHost.Step.again hawake hloop)
  | receive c =>
      simp only [next] at hn
      split at hn
      · rename_i hp halive
        split at hn
        · cases hn
        · rename_i hrep
          split at hn
          · rename_i hrecv
            obtain ⟨rfl, rfl⟩ := Prod.mk.inj (Option.some.inj hn)
            exact Step.receivedDied hp halive hrep hrecv
          · rename_i hrecv
            obtain ⟨rfl, rfl⟩ := Prod.mk.inj (Option.some.inj hn)
            exact Step.received hp halive hrep hrecv
      · cases hn

/-! ## The cluster that the machines are -/

/-- Every process as its client. -/
def view (s : Machines ι) : Cluster ι where
  host := s.host
  client := fun c => (s.process c).view
  died := s.died
  pending := fun c => (s.pending c).map fun q => (q.1, q.2.view (s.process c).memory)
  wire := s.wire

/-- The block of a process that has the byte, if there is one. -/
noncomputable def blockOf (p : Process) (x : Nat) : Option Int32 :=
  haveI := Classical.propDecidable (∃ k e, p.blocks k = some e ∧ Within e.address dimBlock x)
  if h : ∃ k e, p.blocks k = some e ∧ Within e.address dimBlock x then some h.choose else none

/-- What a step of the machines is to the cluster. -/
noncomputable def seen (t : Entry (Machines ι) (String × EventAt ι)) :
    Option (String × Event ι) :=
  match t.event with
  | (sid, .returned c call code) =>
      some (sid, .returned c (call.view (t.pre.process c).memory) code)
  | (sid, .sent c q) => some (sid, .sent c (q.view (t.pre.process c).memory))
  | (sid, .died c call) => some (sid, .died c (call.view (t.pre.process c).memory))
  | (_, .stored c x) =>
      (blockOf (t.pre.process c) x).map fun k => (t.pre.route c k, .poked c k)
  | (sid, .critical c tag req ans) => some (sid, .critical c tag req ans)
  | (sid, .woken c) => some (sid, .woken c)
  | (sid, .received c q tag reply code) =>
      some (sid, .received c (q.view (t.pre.process c).memory) tag reply code)
  | (sid, .timedOut c q) => some (sid, .timedOut c (q.view (t.pre.process c).memory))

/-- The run as the cluster has it. -/
noncomputable def clusterTrace (tr : MachineTrace ι) : ClusterTrace ι := imageOf view seen tr

/-- A map that goes out was handed a free region. -/
def TakesFree (t : Entry (Machines ι) (String × EventAt ι)) : Prop :=
  ∀ sid c q k address, t.event = (sid, .sent c q) → q.call = .map k address →
    (t.pre.process c).Fits address

section Refinement

variable {F : Fleet ι} {memory : ι → Nat → UInt8} {tr : MachineTrace ι} {s s' : Machines ι}

/-- Where a process is set together with its call, so are the client and its call. -/
theorem view_setProcess (s : Machines ι) (c : ι) (p : Process)
    (q : Option (String × PendingAt)) :
    view ((s.setProcess c p).setPending c q) =
      ((view s).setClient c p.view).setPending c
        (q.map fun q => (q.1, q.2.view p.memory)) := by
  have hclient : (fun u => (Function.update s.process c p u).view) =
      Function.update (fun u => (s.process u).view) c p.view :=
    funext fun u => Function.apply_update (fun _ => Process.view) s.process c p u
  have hpending : (fun u => (Function.update s.pending c q u).map fun q =>
        (q.1, q.2.view (Function.update s.process c p u).memory)) =
      Function.update (fun u => (s.pending u).map fun q =>
        (q.1, q.2.view (s.process u).memory)) c (q.map fun q => (q.1, q.2.view p.memory)) := by
    funext u
    by_cases hu : u = c
    · subst hu
      simp only [Function.update_self]
    · simp only [Function.update_of_ne hu]
  show Cluster.mk s.host _ s.died _ s.wire = Cluster.mk s.host _ s.died _ s.wire
  exact congrArg₂ (fun a b => Cluster.mk s.host a s.died b s.wire) hclient hpending

/-- Between calls a process can be set alone. -/
theorem view_setProcess_idle {s : Machines ι} {c : ι} (hidle : s.pending c = none)
    (p : Process) : view (s.setProcess c p) = (view s).setClient c p.view := by
  have hstay : (s.setProcess c p).setPending c none = s.setProcess c p :=
    congrArg (fun a => Machines.mk s.host _ s.died a s.wire)
      (Function.update_eq_self_iff.mpr hidle.symm)
  have hstay' : ((view s).setClient c p.view).setPending c none = (view s).setClient c p.view := by
    refine congrArg (fun a => Cluster.mk s.host _ s.died a s.wire)
      (Function.update_eq_self_iff.mpr ?_)
    show none = (s.pending c).map _
    rw [hidle]
    rfl
  rw [← hstay, view_setProcess, Option.map_none, hstay']

theorem view_died (s : Machines ι) (c : ι) (sid : String) :
    view ((s.setDied c sid).setPending c none) = ((view s).setDied c sid).setPending c none := by
  have hpending := congrArg Cluster.pending (view_setProcess s c (s.process c) none)
  rw [show s.setProcess c (s.process c) = s from
    congrArg (fun a => Machines.mk s.host a s.died s.pending s.wire)
      (Function.update_eq_self c s.process)] at hpending
  exact congrArg (fun a => Cluster.mk s.host _ _ a s.wire) hpending

/-! ## What a step does to a process -/

/-- **What happens to a process in a step**: nothing, a store of its program, the entry of a
    map that goes out, or what a reply does. -/
inductive Moves (s : Machines ι) (c : ι) : EventAt ι → Process → Prop where
  | kept (e : EventAt ι) : Moves s c e (s.process c)
  | stored (x : Nat) (v : UInt8) : Moves s c (.stored c x) ((s.process c).poke x v)
  | entered {q : PendingAt} {k : Int32} {address : Nat} (hcall : q.call = .map k address)
      (hfree : (s.process c).blocks k = none) :
      Moves s c (.sent c q) ((s.process c).setBlock k (some (.create k address)))
  | received {q : PendingAt} {code : Int} {p : Process} (tag : Nat) (reply : Node)
      (h : (s.process c).Received q.call code p) :
      Moves s c (.received c q tag reply (some code)) p

theorem step_moves {e : String × EventAt ι} (hs : Step F s e s') (u : ι) :
    Moves s u e.2 (s'.process u) := by
  have hother : ∀ {c : ι} (p : Process) {ev : EventAt ι}, u ≠ c →
      Moves s u ev ((s.setProcess c p).process u) := by
    intro c p ev hu
    rw [show (s.setProcess c p).process u = s.process u from Function.update_of_ne hu ..]
    exact .kept ev
  have hself : ∀ (p : Process), (s.setProcess u p).process u = p :=
    fun p => Function.update_self ..
  cases hs with
  | @returned c call code p hidle halive hsend =>
      show Moves s u _ ((s.setProcess c p).process u)
      by_cases hu : u = c
      · subst hu
        rw [hself]
        cases Process.send_cases hsend with
        | returned _ => exact .kept _
      · exact hother p hu
  | @sent c call sid req p hidle halive hsend =>
      show Moves s u _ ((s.setProcess c p).process u)
      by_cases hu : u = c
      · subst hu
        rw [hself]
        cases Process.send_cases hsend with
        | asked _ _ _ _ => exact .kept _
        | entered _ _ hcall hfree => exact .entered hcall hfree
      · exact hother p hu
  | died _ _ _ => exact .kept _
  | @stored c sid x v hidle halive =>
      by_cases hu : u = c
      · subst hu
        rw [hself]
        exact .stored x v
      · exact hother _ hu
  | request _ _ _ => exact .kept _
  | retry _ _ => exact .kept _
  | woken _ => exact .kept _
  | @received c sid q tag reply rest code p hp halive hrep hrecv =>
      show Moves s u _ ((s.setProcess c p).process u)
      by_cases hu : u = c
      · subst hu
        rw [hself]
        exact .received tag reply (Process.receive_cases hrecv)
      · exact hother p hu
  | receivedDied _ _ _ _ => exact .kept _
  | @timedOut c sid q code p hp halive hnone hrecv =>
      show Moves s u _ ((s.setProcess c p).process u)
      by_cases hu : u = c
      · subst hu
        rw [hself, Process.receive_none hrecv]
        exact .kept _
      · exact hother p hu

/-! ## Regions stay apart -/

/-- The regions of every process are apart. -/
def AllPlaced (s : Machines ι) : Prop := ∀ c, (s.process c).Placed

theorem step_placed {e : String × EventAt ι} (h : AllPlaced s) (hs : Step F s e s')
    (hfree : TakesFree ⟨s, e, s'⟩) : AllPlaced s' := by
  intro c
  obtain ⟨sid, ev⟩ := e
  have hmoves := step_moves hs c
  generalize s'.process c = p at hmoves ⊢
  cases hmoves with
  | kept _ => exact h c
  | stored x v => exact (h c).poke x v
  | @entered q k address hcall _ => exact (hfree sid c q k address rfl hcall).placed (h c) k
  | received _ _ hrecv => exact hrecv.placed (h c)

theorem run_placed (hrun : MachineRun F memory tr s) (hfree : ∀ t ∈ tr, TakesFree t) :
    AllPlaced s := by
  induction hrun with
  | nil => exact fun c => ⟨fun _ _ he => (Option.some_ne_none _ he.symm).elim,
      fun _ _ _ _ _ he => (Option.some_ne_none _ he.symm).elim⟩
  | snoc _ hs ih =>
      have hold := ih fun t ht => hfree t (List.mem_append_left _ ht)
      exact step_placed hold hs (hfree _ (List.mem_append_right _ List.mem_cons_self))

/-! ## The refinement -/

omit [DecidableEq ι] in
theorem view_idle {s : Machines ι} {c : ι} (h : s.pending c = none) :
    (view s).pending c = none := by
  show (s.pending c).map _ = none
  rw [h]
  rfl

omit [DecidableEq ι] in
theorem view_pending {s : Machines ι} {c : ι} {sid : String} {q : PendingAt}
    (h : s.pending c = some (sid, q)) :
    (view s).pending c = some (sid, q.view (s.process c).memory) := by
  show (s.pending c).map _ = _
  rw [h]
  rfl

omit [DecidableEq ι] in
/-- A call starts on the view as it does on the process. -/
theorem view_sends {s : Machines ι} (h : AllPlaced s) {c : ι} {call : CallAt}
    {r : Except Fault SendingAt} (hsend : (s.process c).send call = r) :
    ((view s).client c).send (call.view (s.process c).memory) = r.map SendingAt.view := by
  rw [← hsend]
  exact Process.send_view _ call (h c).nonnull

omit [DecidableEq ι] in
theorem view_receives {s : Machines ι} (h : AllPlaced s) {c : ι} {q : PendingAt}
    {reply : Option Node} {r : Except Fault (Int × Process)}
    (hrecv : (s.process c).receive q.call reply = r) :
    ((view s).client c).receive (q.view (s.process c).memory).call reply =
      r.map (Prod.map id Process.view) := by
  rw [← hrecv]
  exact Process.receive_view (h c) q.call reply

omit [DecidableEq ι] in
theorem seen_stored (s s' : Machines ι) (sid : String) (c : ι) (x : Nat) :
    seen ⟨s, (sid, .stored c x), s'⟩ =
      (blockOf (s.process c) x).map fun k => (s.route c k, .poked c k) := rfl

/-- A store changes the block it hits, or nothing the cluster has. -/
theorem step_stored {c : ι} {sid : String} {x : Nat} (v : UInt8) (h : AllPlaced s)
    (hidle : s.pending c = none) (halive : s.died c = none)
    (hpost : s' = s.setProcess c ((s.process c).poke x v)) :
    (seen ⟨s, (sid, .stored c x), s'⟩ = none ∧ view s' = view s) ∨
      ∃ e', seen ⟨s, (sid, .stored c x), s'⟩ = some e' ∧
        DmCluster.Step F (view s) e' (view s') := by
  subst hpost
  rw [view_setProcess_idle hidle]
  by_cases hin : ∃ k e, (s.process c).blocks k = some e ∧ Within e.address dimBlock x
  · obtain ⟨e, he, hx⟩ := hin.choose_spec
    have hblock : blockOf (s.process c) x = some hin.choose := dif_pos hin
    refine Or.inr ⟨_, by rw [seen_stored, hblock]; rfl, ?_⟩
    rw [Process.view_poke_inside (h c) v he hx]
    exact DmCluster.Step.poked _ (view_idle hidle) halive
      (show ((s.process c).blocks hin.choose).map _ = some (e.view (s.process c).memory) by
        rw [he]; rfl)
  · have hblock : blockOf (s.process c) x = none := dif_neg hin
    refine Or.inl ⟨by rw [seen_stored, hblock]; rfl, ?_⟩
    rw [Process.view_poke_outside v fun k e he hx => hin ⟨k, e, he, hx⟩]
    exact congrArg (fun a => Cluster.mk s.host a s.died _ s.wire)
      (Function.update_eq_self c fun u => (s.process u).view)

/-- **Every step of the machines is a step of the cluster**, or a store that hits no block. -/
theorem step_view {e : String × EventAt ι} (h : AllPlaced s) (hs : Step F s e s') :
    (seen ⟨s, e, s'⟩ = none ∧ view s' = view s) ∨
      ∃ e', seen ⟨s, e, s'⟩ = some e' ∧ DmCluster.Step F (view s) e' (view s') := by
  cases hs with
  | @returned c call code p hidle halive hsend =>
      have hstep := DmCluster.Step.returned (F := F) (view_idle hidle) halive (view_sends h hsend)
      rw [CallAt.view_id, ← view_setProcess_idle hidle] at hstep
      exact Or.inr ⟨_, rfl, hstep⟩
  | @sent c call sid req p hidle halive hsend =>
      have hstep := DmCluster.Step.sent (F := F) (view_idle hidle) halive (view_sends h hsend)
      have hmemory : p.memory = (s.process c).memory := by
        cases Process.send_cases hsend with
        | asked _ _ _ _ => rfl
        | entered _ _ _ _ => rfl
      refine Or.inr ⟨_, rfl, ?_⟩
      show DmCluster.Step F (view s) _ ((view ((s.setProcess c p).setPending c _)).setWire c sid _)
      rw [view_setProcess]
      simp only [Option.map_some, PendingAt.view, hmemory]
      exact hstep
  | @died c call f hidle halive hsend =>
      have hstep := DmCluster.Step.died (F := F) (view_idle hidle) halive (view_sends h hsend)
      rw [CallAt.view_id] at hstep
      exact Or.inr ⟨_, rfl, hstep⟩
  | @stored c sid x v hidle halive => exact step_stored v h hidle halive rfl
  | request hreq hread hhost =>
      exact Or.inr ⟨_, rfl, DmCluster.Step.request (s := view s) hreq hread hhost⟩
  | retry hawake hhost =>
      exact Or.inr ⟨_, rfl, DmCluster.Step.retry (s := view s) hawake hhost⟩
  | woken hhost => exact Or.inr ⟨_, rfl, DmCluster.Step.woken (s := view s) hhost⟩
  | @received c sid q tag reply rest code p hp halive hrep hrecv =>
      have hstep := DmCluster.Step.received (F := F) (view_pending hp) halive hrep
        (view_receives h hrecv)
      refine Or.inr ⟨_, rfl, ?_⟩
      show DmCluster.Step F (view s) _ ((view ((s.setProcess c p).setPending c _)).setWire c sid _)
      rw [view_setProcess]
      exact hstep
  | @receivedDied c sid q tag reply rest f hp halive hrep hrecv =>
      have hstep := DmCluster.Step.receivedDied (F := F) (view_pending hp) halive hrep
        (view_receives h hrecv)
      rw [← view_died] at hstep
      exact Or.inr ⟨_, rfl, hstep⟩
  | @timedOut c sid q code p hp halive hnone hrecv =>
      have hstep := DmCluster.Step.timedOut (F := F) (view_pending hp) halive hnone
        (view_receives h hrecv)
      refine Or.inr ⟨_, rfl, ?_⟩
      show DmCluster.Step F (view s) _ ((view ((s.setProcess c p).setPending c _)).setWire c sid _)
      rw [view_setProcess]
      exact hstep

/-! ## Where blocks come from -/

/-- Step `i` sent a map of block `k` that was handed the region at `address`. -/
def Handed (tr : MachineTrace ι) (c : ι) (k : Int32) (address i : Nat) : Prop :=
  ∃ t sid q, tr[i]? = some (t : Entry (Machines ι) (String × EventAt ι)) ∧
    t.event = (sid, .sent c q) ∧ q.call = .map k address

omit [DecidableEq ι] in
theorem Handed.append {c : ι} {k : Int32} {address i : Nat} (h : Handed tr c k address i)
    (tr' : MachineTrace ι) : Handed (tr ++ tr') c k address i := by
  obtain ⟨t, sid, q, hi, hrest⟩ := h
  exact ⟨t, sid, q, getElem?_append_of_some hi, hrest⟩

omit [DecidableEq ι] in
theorem Handed.lt {c : ι} {k : Int32} {address i : Nat} (h : Handed tr c k address i) :
    i < tr.length := by
  obtain ⟨t, sid, q, hi, -⟩ := h
  exact (List.getElem?_eq_some_iff.mp hi).1

/-- Every block of a table was entered by a map, with the address it still has. -/
theorem run_handed (hrun : MachineRun F memory tr s) {c : ι} {k : Int32} {e : BlockAt}
    (he : (s.process c).blocks k = some e) : ∃ i, Handed tr c k e.address i := by
  induction hrun generalizing e with
  | nil => cases he
  | @snoc tr s s' ev _ hs ih =>
      obtain ⟨sid, ev⟩ := ev
      have hold : ∀ e₀ : BlockAt, (s.process c).blocks k = some e₀ → e₀.address = e.address →
          ∃ i, Handed (tr ++ [⟨s, (sid, ev), s'⟩]) c k e.address i := by
        intro e₀ he₀ haddr
        obtain ⟨i, hi⟩ := ih he₀
        rw [haddr] at hi
        exact ⟨i, hi.append _⟩
      have hmoves := step_moves hs c
      generalize hp : s'.process c = p at hmoves he
      cases hmoves with
      | kept _ => exact hold e he rfl
      | stored x v => exact hold e he rfl
      | @entered q k' address hcall _ =>
          by_cases hkey : k = k'
          · subst hkey
            rw [Process.setBlock_self] at he
            obtain rfl := Option.some.inj he
            exact ⟨tr.length, _, sid, q, List.getElem?_concat_length, rfl, hcall⟩
          · rw [Process.setBlock_other _ _ hkey] at he
            exact hold e he rfl
      | received _ _ hrecv =>
          obtain ⟨e₀, he₀, haddr⟩ := hrecv.address he
          exact hold e₀ he₀ haddr

/-! ## A place for every block -/

/-- A place of its own for every block of a process. -/
structure Layout (place : ι → Int32 → Nat) : Prop where
  nonnull : ∀ c k, place c k ≠ 0
  apart : ∀ c k k', k ≠ k' → Apart dimBlock (place c k) (place c k')

/-- A map that goes out is handed the place of its block. -/
def atPlace (place : ι → Int32 → Nat) : EventAt ι → Bool
  | .sent c q =>
      match q.call with
      | .map k address => address == place c k
      | _ => true
  | _ => true

omit [DecidableEq ι] in
theorem atPlace_map {place : ι → Int32 → Nat} {c : ι} {q : PendingAt} {k : Int32}
    {address : Nat} (hcall : q.call = .map k address)
    (h : atPlace place (.sent c q) = true) : address = place c k := by
  simp only [atPlace, hcall, beq_iff_eq] at h
  exact h

/-- A block is entered where there is none. -/
theorem sent_free {sid : String} {c : ι} {q : PendingAt} {k : Int32} {address : Nat}
    (hs : Step F s (sid, .sent c q) s') (hcall : q.call = .map k address) :
    (s.process c).blocks k = none := by
  cases hs with
  | @sent _ call _ req p hidle halive hsend =>
      obtain rfl : call = .map k address := hcall
      cases Process.send_cases hsend with
      | asked _ _ _ hnot => exact absurd rfl (hnot k address)
      | entered _ _ heq hfree =>
          obtain ⟨rfl, rfl⟩ := CallAt.map.inj heq
          exact hfree

/-- **Blocks with places of their own never meet.** -/
theorem free_of_layout {place : ι → Int32 → Nat} (hlayout : Layout place)
    (hrun : MachineRun F memory tr s) (hplace : ∀ t ∈ tr, atPlace place t.event.2 = true) :
    ∀ t ∈ tr, TakesFree t := by
  intro t ht sid c q k address hevent hcall
  obtain ⟨i, hi⟩ := List.getElem?_of_mem ht
  have hat : ∀ {i : Nat} {k : Int32} {address : Nat}, Handed tr c k address i →
      address = place c k := by
    rintro i k address ⟨u, sid', q', hu, hev, hcall'⟩
    have hplaced := hplace u (List.mem_of_getElem? hu)
    rw [hev] at hplaced
    exact atPlace_map hcall' hplaced
  have hown : address = place c k := hat ⟨t, sid, q, hi, hevent, hcall⟩
  have hs := hrun.step_of_mem ht
  rw [hevent] at hs
  refine ⟨by rw [hown]; exact hlayout.nonnull c k, fun k' e he => ?_⟩
  obtain ⟨i', t', sid', q', hi', hrest⟩ := run_handed (hrun.take hi) he
  rw [hown, hat ⟨t', sid', q', (getElem?_of_take hi').2, hrest⟩]
  -- the block that is entered is not in the table
  refine hlayout.apart c k k' ?_
  rintro rfl
  rw [sent_free hs hcall] at he
  cases he

end Refinement

/-- Blocks one after the other, as in the buffer of a text. -/
def rowOfBlocks (_ : Bool) (k : Int32) : Nat := dimBlock * (k.toUInt32.toNat + 1)

theorem rowOfBlocks_layout : Layout rowOfBlocks where
  nonnull := fun _ k => Nat.mul_ne_zero (by decide) (Nat.succ_ne_zero _)
  apart := by
    intro c k k' hne
    have hnat : k.toUInt32.toNat ≠ k'.toUInt32.toNat := fun h =>
      hne (congrArg Int32.ofUInt32 (UInt32.toNat_inj.mp h))
    simp only [CellMemory.Apart, rowOfBlocks, dimBlock]
    omega

/-- A client maps two neighbouring blocks on two servers, stores a byte of the first and one
    byte of its own, and writes the first; the other client maps it then. -/
def storeAndWrite : List (ActionAt Bool) :=
  [.call true (.map 7 1024), .serve "10.0.0.1:5000" true, .receive true,
   .call true (.map 8 1152), .serve "10.0.0.9:5000" true, .receive true,
   .store true 1151 65, .store true 5 1, .call true (.write 7), .serve "10.0.0.1:5000" true,
   .receive true, .call false (.map 7 1024), .serve "10.0.0.1:5000" false, .receive false]

theorem storeAndWrite_run :
    ∃ tr s, MachineRun twoServers (fun _ _ => 0) tr s ∧
      (∀ t ∈ tr, atPlace rowOfBlocks t.event.2 = true) ∧ tr.length = 14 ∧
      (s.process false).memory 1151 = 65 := by
  obtain ⟨q, hq, hfacts⟩ := Option.map_eq_some_iff.mp (show
    (exec (next twoServers) (start twoServers fun _ _ => 0) storeAndWrite).map
      (fun q => (q.1.all fun t => atPlace rowOfBlocks t.event.2, q.1.length,
        (q.2.process false).memory 1151)) = some (true, 14, 65) by decide +kernel)
  obtain ⟨hplace, hfacts⟩ := Prod.mk.inj hfacts
  obtain ⟨hlen, hbyte⟩ := Prod.mk.inj hfacts
  exact ⟨q.1, q.2, run_of_exec _ (next_sound _) storeAndWrite _ hq,
    List.all_eq_true.mp hplace, hlen, hbyte⟩

/-! ## Machines as a cluster, and their memory -/

section Results

variable {F : Fleet ι} {memory : ι → Nat → UInt8} {tr : MachineTrace ι} {s s' : Machines ι}

/-- What was free along a run was free along its beginnings. -/
theorem placed_at (hrun : MachineRun F memory tr s) (hfree : ∀ t ∈ tr, TakesFree t)
    {t : Entry (Machines ι) (String × EventAt ι)} (ht : t ∈ tr) : AllPlaced t.pre := by
  obtain ⟨i, hi⟩ := List.getElem?_of_mem ht
  exact run_placed (hrun.take hi) fun u hu => hfree u (List.mem_of_mem_take hu)

/-- **The memory of the processes is the content of their blocks.** Where every region handed
    to `dm_block_map` is free at the time, a run of the machines is a run of the cluster, in
    which each block holds the bytes at its address. -/
theorem machines_refine (hrun : MachineRun F memory tr s) (hfree : ∀ t ∈ tr, TakesFree t) :
    ClusterRun F (clusterTrace tr) (view s) := by
  refine hrun.image (f := view) fun t ht => ?_
  exact step_view (placed_at hrun hfree ht) (hrun.step_of_mem ht)

/-- The run of two neighbouring blocks is a run of the cluster. -/
theorem machines_refine_storeAndWrite :
    ∃ tr s, tr.length = 14 ∧ ClusterRun twoServers (clusterTrace tr) (view s) ∧
      (s.process false).memory 1151 = 65 := by
  obtain ⟨tr, s, hrun, hplace, hlen, hbyte⟩ := storeAndWrite_run
  exact ⟨tr, s, hlen, machines_refine hrun (free_of_layout rowOfBlocks_layout hrun hplace), hbyte⟩

/-- Step `j` changed byte `x`: a map or an update of block `k`, which was at `address` then,
    returned 0. -/
def Filled (tr : MachineTrace ι) (c : ι) (k : Int32) (address x j : Nat) : Prop :=
  ∃ t sid q tag reply e, tr[j]? = some (t : Entry (Machines ι) (String × EventAt ι)) ∧
    t.event = (sid, .received c q tag reply (some 0)) ∧ q.call.id = k ∧ q.call.fills = true ∧
    (t.pre.process c).blocks k = some e ∧ e.address = address ∧
    (t.post.process c).memory x ≠ (t.pre.process c).memory x

omit [DecidableEq ι] in
theorem Filled.append {c : ι} {k : Int32} {address x j : Nat} (h : Filled tr c k address x j)
    (tr' : MachineTrace ι) : Filled (tr ++ tr') c k address x j := by
  obtain ⟨t, sid, q, tag, reply, e, hj, hrest⟩ := h
  exact ⟨t, sid, q, tag, reply, e, getElem?_append_of_some hj, hrest⟩

omit [DecidableEq ι] in
/-- A step that changes a byte stored it, or returned 0 from a map or an update of a block
    that has it. -/
theorem step_memory {c : ι} {x : Nat} {ev : EventAt ι} {p : Process} (h : Moves s c ev p)
    (hne : p.memory x ≠ (s.process c).memory x) :
    ev = .stored c x ∨
      ∃ q tag reply e, ev = .received c q tag reply (some 0) ∧ q.call.fills = true ∧
        (s.process c).blocks q.call.id = some e ∧ Within e.address dimBlock x := by
  cases h with
  | kept _ => exact absurd rfl hne
  | stored y v =>
      by_cases hxy : x = y
      · exact Or.inl (by rw [hxy])
      · exact absurd (Function.update_of_ne hxy ..) hne
  | entered _ _ => exact absurd rfl hne
  | @received q code p tag reply hrecv =>
      cases hrecv with
      | kept _ => exact absurd rfl hne
      | marked _ _ _ => exact absurd rfl hne
      | erased _ => exact absurd rfl hne
      | @filled e _ d hfills he _ _ =>
          refine Or.inr ⟨q, tag, reply, e, rfl, hfills, he, ?_⟩
          by_contra hout
          rw [← d.size_eq] at hout
          exact hne (store_outside hout)

/-- **The library keeps to the memory it was handed.** In any run, whatever overlaps, a byte
    that is not what it was at the start was stored by its program, or it is in a region handed
    to a map, and a later map or update of that block changed it. -/
theorem memory_framed (hrun : MachineRun F memory tr s) {c : ι} {x : Nat}
    (hne : (s.process c).memory x ≠ memory c x) :
    (∃ t ∈ tr, t.event.2 = .stored c x) ∨
      ∃ k address i j, i < j ∧ Handed tr c k address i ∧ Within address dimBlock x ∧
        Filled tr c k address x j := by
  induction hrun with
  | nil => exact absurd rfl hne
  | @snoc tr s s' ev hrun hs ih =>
      by_cases hbefore : (s.process c).memory x = memory c x
      · have hchanged : (s'.process c).memory x ≠ (s.process c).memory x := by
          rw [hbefore]
          exact hne
        rcases step_memory (step_moves hs c) hchanged with
          hev | ⟨q, tag, reply, e, hev, hfills, he, hx⟩
        · exact Or.inl ⟨_, List.mem_append_right _ List.mem_cons_self, hev⟩
        · obtain ⟨i, hi⟩ := run_handed hrun he
          obtain ⟨sid, ev⟩ := ev
          obtain rfl : ev = _ := hev
          exact Or.inr ⟨q.call.id, e.address, i, tr.length, hi.lt, hi.append _, hx,
            _, sid, q, tag, reply, e, List.getElem?_concat_length, rfl, rfl, hfills, he, rfl,
            hchanged⟩
      · rcases ih hbefore with ⟨t, ht, hev⟩ | ⟨k, address, i, j, hij, hi, hx, hj⟩
        · exact Or.inl ⟨t, List.mem_append_left _ ht, hev⟩
        · exact Or.inr ⟨k, address, i, j, hij, hi.append _, hx, hj.append _⟩

theorem memory_framed_storeAndWrite :
    ∃ tr s, MachineRun twoServers (fun _ _ => 0) tr s ∧
      ((∃ t ∈ tr, t.event.2 = .stored false 1151) ∨
        ∃ k address i j, i < j ∧ Handed tr false k address i ∧ Within address dimBlock 1151 ∧
          Filled tr false k address 1151 j) := by
  obtain ⟨tr, s, hrun, -, -, hbyte⟩ := storeAndWrite_run
  exact ⟨tr, s, hrun, memory_framed hrun (by rw [hbyte]; decide)⟩

end Results

end DmMachine
