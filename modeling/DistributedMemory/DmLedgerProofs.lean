import DistributedMemory.DmHostProofs
import DistributedMemory.WrapCounterProofs

/-!
# The ledger — what a block says about the writes the server acknowledged

An accepted write assigns the block of its message to the stored one, id and revision
included, and counts the revision up. Whoever the clients are and whatever they send, the
revision of a block is nevertheless the number of its acknowledged writes, as a 32-bit
word, and every block keeps its own id.

* **`step_block`** — a step keeps a block's id, revision and content, or is the critical
  section of a write that is answered with an ACK.
* **`Ledger`** — what every run keeps to; **`run_ledger`**.
-/

namespace DmLedger

open DmBlock DmMessage DmServer DmHost LabelledRun

variable {ι : Type} [DecidableEq ι]

/-- The step answers a WRITE naming block `k` with an ACK. -/
def acksWrite (k : Int32) (e : HostEvent ι) : Bool :=
  match e with
  | .critical _ _ req (some ack) =>
      match (Message.ofNode req).deref with
      | .ok (b, _) =>
          (Message.ofNode req).type = .write && (Message.ofNode ack).type = .ack && b.id = k
      | .error _ => false
  | _ => false

/-- The number of writes naming block `k` that were acknowledged in the run. -/
def ackedWrites (k : Int32) (tr : List (Entry (Host ι) (HostEvent ι))) : Nat :=
  tr.countP fun t => acksWrite k t.event

omit [DecidableEq ι] in
/-- What such a step shows. -/
theorem acksWrite_iff {k : Int32} {e : HostEvent ι} :
    acksWrite k e = true ↔
      ∃ c tag req ack b m, e = .critical c tag req (some ack) ∧
        (Message.ofNode req).deref = .ok (b, m) ∧ (Message.ofNode req).type = .write ∧
        (Message.ofNode ack).type = .ack ∧ b.id = k := by
  constructor
  · intro h
    cases e with
    | woken c => exact nomatch h
    | critical c tag req ans =>
        cases ans with
        | none => exact nomatch h
        | some ack =>
            cases hm : (Message.ofNode req).deref with
            | error f => simp [acksWrite, hm] at h
            | ok p =>
                simp only [acksWrite, hm, Bool.and_eq_true, decide_eq_true_eq] at h
                exact ⟨c, tag, req, ack, p.1, p.2, rfl, hm, h.1.1, h.1.2, h.2⟩
  · rintro ⟨c, tag, req, ack, b, m, rfl, hm, htype, hack, hid⟩
    simp [acksWrite, hm, htype, hack, hid]

omit [DecidableEq ι] in
/-- An accepted write is acknowledged. -/
theorem acksWrite_of_accepts {k : Int32} {c : ι} {tag : Nat} {req : Node} {b it : BlockServer}
    {m : Message} (hm : (Message.ofNode req).deref = .ok (b, m))
    (ha : Accepts it (Message.ofNode req).type b k) :
    acksWrite k (.critical c tag req (some (emit .ack))) = true :=
  acksWrite_iff.mpr ⟨c, tag, req, emit .ack, b, m, rfl, hm, ha.type, Message.type_emit .ack,
    ha.names⟩

omit [DecidableEq ι] in
theorem ackedWrites_snoc (k : Int32) (tr : List (Entry (Host ι) (HostEvent ι)))
    (t : Entry (Host ι) (HostEvent ι)) :
    ackedWrites k (tr ++ [t]) = ackedWrites k tr + if acksWrite k t.event then 1 else 0 := by
  rw [ackedWrites, List.countP_append, List.countP_singleton]
  rfl

/-! ## One step -/

/-- **A step keeps a block's id, revision and content or acknowledges a write** that named
    the block and carried its revision. -/
theorem step_block {clientId : ι → String} {h h' : Host ι} {e : HostEvent ι} {k : Int32}
    {it : BlockServer} (hset : Settled h) (hs : Step clientId h e h')
    (hk : h.server.blocks k = some it) :
    ∃ it', h'.server.blocks k = some it' ∧
      ((SameContent it it' ∧ acksWrite k e = false) ∨
        ∃ c tag req b m, e = .critical c tag req (some (emit .ack)) ∧
          (Message.ofNode req).deref = .ok (b, m) ∧ Accepts it (Message.ofNode req).type b k ∧
          it' = (it.assign b).addRevision) := by
  cases e with
  | woken c =>
      refine ⟨it, ?_, Or.inl ⟨SameContent.refl it, rfl⟩⟩
      rw [server_woken hs]
      exact hk
  | critical c tag req ans =>
      obtain ⟨sec, rfl, rfl, ⟨hnot, rfl⟩ | ⟨b, m, hm, hserved⟩⟩ := critical_cases hset hs
      · refine ⟨it, hk, Or.inl ⟨SameContent.refl it, Bool.eq_false_iff.mpr fun hacc => ?_⟩⟩
        -- what is no request is no write
        obtain ⟨_, _, _, _, _, _, hev, -, htype, -⟩ := acksWrite_iff.mp hacc
        obtain ⟨-, -, rfl, -⟩ := HostEvent.critical.inj hev
        rw [htype] at hnot
        cases hnot
      · obtain ⟨it', hit', hacc, hkeep⟩ := hserved.content hk
        refine ⟨it', hit', ?_⟩
        by_cases ha : Accepts it (Message.ofNode req).type b k
        · have hans : answer sec = some (emit .ack) := by
            rw [answer, (hserved.signalled_of_accepts hk ha).2]
          exact Or.inr ⟨c, tag, req, b, m, by rw [hans], hm, ha, hacc ha⟩
        · refine Or.inl ⟨hkeep ha, Bool.eq_false_iff.mpr fun hack => ha ?_⟩
          -- a write of `k` that got an ACK carried the block's revision
          obtain ⟨_, _, _, ack, b', m', hev, hm', htype, htack, rfl⟩ := acksWrite_iff.mp hack
          obtain ⟨-, -, rfl, hans⟩ := HostEvent.critical.inj hev
          obtain ⟨rfl, -⟩ := Prod.mk.inj (Except.ok.inj (hm.symm.trans hm'))
          rw [htype] at hserved
          rcases hserved.write_reply hk with ⟨heq, -, -⟩ | ⟨-, ho, -⟩
          · exact ⟨htype, rfl, heq⟩
          · rw [answer, ho] at hans
            rw [← Option.some.inj hans, Message.type_emit] at htack
            cases htack

/-- No step makes a block or removes one. -/
theorem step_hosted {clientId : ι → String} {h h' : Host ι} {e : HostEvent ι} {k : Int32}
    (hset : Settled h) (hs : Step clientId h e h') :
    (h'.server.blocks k).isSome = (h.server.blocks k).isSome := by
  cases hk : h.server.blocks k with
  | some it =>
      obtain ⟨it', hit', -⟩ := step_block hset hs hk
      rw [hit']
      rfl
  | none =>
      cases e with
      | woken c => rw [server_woken hs, hk]
      | critical c tag req ans =>
          obtain ⟨sec, rfl, -, ⟨-, rfl⟩ | ⟨b, m, -, hserved⟩⟩ := critical_cases hset hs
          · rw [Host.leave_server, hk]
          · rw [Host.leave_server, hserved.unhosted_of_unhosted hk]

/-! ## Every run -/

/-- The blocks of the table are the listed ones, each under its own id and at the revision
    that counts its acknowledged writes. -/
structure Entered (blocksId : List Int32) (tr : List (Entry (Host ι) (HostEvent ι)))
    (h : Host ι) : Prop where
  hosted : ∀ k, (h.server.blocks k).isSome = true ↔ k ∈ blocksId
  block : ∀ k it, h.server.blocks k = some it →
    it.id = k ∧ it.revision = Int32.ofNat (ackedWrites k tr)

omit [DecidableEq ι] in
theorem start_entered (blocksId : List Int32) :
    Entered blocksId [] (Host.start (ι := ι) blocksId) where
  hosted := by
    intro k
    show ((Server.create blocksId).blocks k).isSome = true ↔ _
    rw [Server.create_blocks]
    by_cases hk : k ∈ blocksId
    · simp [hk]
    · simp [hk]
  block := by
    intro k it hit
    have hcreate : (Server.create blocksId).blocks k = some it := hit
    rw [Server.create_blocks] at hcreate
    split at hcreate
    · obtain rfl := Option.some.inj hcreate
      exact ⟨rfl, rfl⟩
    · exact nomatch hcreate

/-- **Every step keeps the blocks entered.** -/
theorem step_entered {clientId : ι → String} {blocksId : List Int32}
    {tr : List (Entry (Host ι) (HostEvent ι))} {h h' : Host ι} {e : HostEvent ι}
    (hset : Settled h) (hs : Step clientId h e h') (hent : Entered blocksId tr h) :
    Entered blocksId (tr ++ [⟨h, e, h'⟩]) h' where
  hosted := fun k => by rw [step_hosted hset hs]; exact hent.hosted k
  block := by
    intro k it' hit'
    cases hk : h.server.blocks k with
    | none =>
        have hnone := step_hosted (k := k) hset hs
        rw [hk, hit'] at hnone
        cases hnone
    | some it =>
        obtain ⟨hid, hrev⟩ := hent.block k it hk
        obtain ⟨it'', hit'', hcase⟩ := step_block hset hs hk
        obtain rfl := Option.some.inj (hit'.symm.trans hit'')
        rw [ackedWrites_snoc]
        rcases hcase with ⟨hsame, hno⟩ | ⟨c, tag, req, b, m, rfl, hm, ha, rfl⟩
        · rw [show acksWrite k (Entry.mk h e h').event = false from hno]
          exact ⟨hsame.id.trans hid, hsame.revision.trans hrev⟩
        -- the revision written is the one there was, and it is counted up
        · rw [if_pos (acksWrite_of_accepts hm ha), WrapCounter.ofNat_succ]
          refine ⟨ha.names, ?_⟩
          show b.revision + 1 = _
          rw [← ha.revision, hrev]

theorem run_entered {clientId : ι → String} {blocksId : List Int32}
    {tr : List (Entry (Host ι) (HostEvent ι))} {h : Host ι}
    (hrun : Run (Step clientId) (Host.start blocksId) tr h) : Entered blocksId tr h := by
  induction hrun with
  | nil => exact start_entered blocksId
  | snoc hpre hs ih => exact step_entered (run_settled hpre) hs ih

/-- Step `t`, after the steps `before`: a WRITE naming a hosted block is answered with an
    ACK exactly if it carries the number of writes acknowledged so far; any step that
    acknowledges no write leaves id, revision and content of every block alone. -/
structure Booked (before : List (Entry (Host ι) (HostEvent ι)))
    (t : Entry (Host ι) (HostEvent ι)) : Prop where
  write : ∀ c tag req ans b m, t.event = .critical c tag req ans →
    (Message.ofNode req).type = .write → (Message.ofNode req).deref = .ok (b, m) →
    (t.pre.server.blocks b.id).isSome = true →
    ((∃ ack, ans = some ack ∧ (Message.ofNode ack).type = .ack) ↔
      b.revision = Int32.ofNat (ackedWrites b.id before))
  other : (∀ c tag req ack, t.event = .critical c tag req (some ack) →
      (Message.ofNode req).type = .write → (Message.ofNode ack).type ≠ .ack) →
    ∀ k it, t.pre.server.blocks k = some it →
      ∃ it', t.post.server.blocks k = some it' ∧ SameContent it it'

/-- One step is booked. -/
theorem step_booked {clientId : ι → String} {blocksId : List Int32}
    {tr : List (Entry (Host ι) (HostEvent ι))} {h h' : Host ι} {e : HostEvent ι}
    (hset : Settled h) (hs : Step clientId h e h') (hent : Entered blocksId tr h) :
    Booked tr ⟨h, e, h'⟩ where
  write := by
    rintro c tag req ans b m rfl htype hm hhosted
    obtain ⟨it, hit⟩ := Option.isSome_iff_exists.mp hhosted
    obtain ⟨-, hrev⟩ := hent.block b.id it hit
    obtain ⟨sec, -, rfl, hserved⟩ := critical_request hset hs htype rfl hm
    rw [← hrev]
    rcases hserved.write_reply hit with ⟨heq, ho, -⟩ | ⟨hne, ho, -⟩
    · refine ⟨fun _ => heq.symm, fun _ => ⟨emit .ack, ?_, Message.type_emit .ack⟩⟩
      rw [answer, ho]
    · refine ⟨?_, fun heq => absurd heq.symm hne⟩
      rintro ⟨ack, hans, hack⟩
      rw [answer, ho] at hans
      rw [← Option.some.inj hans, Message.type_emit] at hack
      cases hack
  other := by
    intro hno k it hit
    obtain ⟨it', hit', ⟨hsame, -⟩ | ⟨c, tag, req, b, m, hev, -, ha, -⟩⟩ :=
      step_block hset hs hit
    · exact ⟨it', hit', hsame⟩
    · exact absurd (Message.type_emit .ack) (hno c tag req (emit .ack) hev ha.type)

/-- What a run leaves in the block table, and what every step of it did there. -/
structure Ledger (blocksId : List Int32) (tr : List (Entry (Host ι) (HostEvent ι)))
    (h : Host ι) : Prop where
  entered : Entered blocksId tr h
  booked : ∀ i t, tr[i]? = some t → Booked (tr.take i) t

/-- **The block table is a ledger of the acknowledged writes**, under any requests of any
    clients. -/
theorem run_ledger {clientId : ι → String} {blocksId : List Int32}
    {tr : List (Entry (Host ι) (HostEvent ι))} {h : Host ι}
    (hrun : Run (Step clientId) (Host.start blocksId) tr h) : Ledger blocksId tr h where
  entered := run_entered hrun
  booked := by
    intro i t hi
    have hpre := hrun.take hi
    exact step_booked (run_settled hpre) (hrun.step_of_mem (List.mem_of_getElem? hi))
      (run_entered hpre)

/-- A WAIT that sleeps, the write that wakes it, a write that comes too late, and the WAIT's
    answer. -/
def sleepAndWake : List (HostAction Bool) :=
  [.request false (emitBlock .wait ⟨7, 0, none⟩ true),
   .request true (emitBlock .write ⟨7, 0, some (Data.memset 65)⟩ false),
   .request true (emitBlock .write ⟨7, 0, some (Data.memset 66)⟩ false),
   .retry false]

theorem run_ledger_sleepAndWake :
    ∃ tr h, Run (Step fun c : Bool => if c then "10.0.0.2:1" else "10.0.0.1:1")
        (Host.start [7]) tr h ∧ tr.length = 4 ∧ Ledger [7] tr h := by
  obtain ⟨p, hp⟩ := Option.isSome_iff_exists.mp (show (exec
    (next fun c : Bool => if c then "10.0.0.2:1" else "10.0.0.1:1")
    (Host.start [7]) sleepAndWake).isSome = true by decide +kernel)
  have hrun := run_of_exec _ (DmHost.next_sound _) sleepAndWake _ hp
  refine ⟨p.1, p.2, hrun, ?_, run_ledger hrun⟩
  have hlen : (exec (next fun c : Bool => if c then "10.0.0.2:1" else "10.0.0.1:1")
    (Host.start [7]) sleepAndWake).map (fun q => q.1.length) = some 4 := by
    decide +kernel
  rw [hp] at hlen
  exact Option.some.inj hlen

end DmLedger
