import DistributedMemory.DmLedgerProofs
import DistributedMemory.DmSystemProofs
import DistributedMemory.VersionedCellProofs
import DistributedMemory.WrapCounterProofs

/-!
# Histories — the versions a block went through

Seen from outside, a block of the server is a versioned cell: version `0` is the zeroed
content, and every step that changes the block's revision commits what the block holds
then. `history k` reads that cell off a run.

* **`step_block`** — a step either keeps a block's id, revision and content, or is the
  critical section of an accepted write.
* **`run_recorded`** — the block table refines the cells: every block has its own id, the
  number of commits (as a 32-bit word) for its revision and the newest commit for its
  content.
* **`version_eq`** — the commits are the accepted writes.
-/

namespace DmHistory

open DmBlock DmMessage DmServer DmHost DmSystem LabelledRun VersionedCell

variable {ι : Type} [DecidableEq ι]

/-- What block `k` holds after a step that changed its revision. -/
def committed (k : Int32) (t : Entry (System ι) (Event ι)) : Option Data :=
  match t.pre.host.server.blocks k, t.post.host.server.blocks k with
  | some it, some it' => if it'.revision = it.revision then none else some it'.data
  | _, _ => none

/-- A cell with one more commit, if there is something to commit. -/
def record (cell : Cell Data) : Option Data → Cell Data
  | some d => cell.commit d
  | none => cell

/-- `H_k`, up to the end of the run. -/
def history (k : Int32) (tr : Trace ι) : Cell Data :=
  tr.foldl (fun cell t => record cell (committed k t)) (Cell.fresh (Data.memset 0))

/-- The step is the critical section of a WRITE naming block `k` that gets an ACK. -/
def acceptsWrite (k : Int32) (t : Entry (System ι) (Event ι)) : Bool :=
  match t.event with
  | .critical _ _ req (some ack) =>
      match (Message.ofNode req).deref with
      | .ok (b, _) =>
          (Message.ofNode req).type = .write && (Message.ofNode ack).type = .ack && b.id = k
      | .error _ => false
  | _ => false

/-- The number of writes to block `k` accepted in the run. -/
def acceptedWrites (k : Int32) (tr : Trace ι) : Nat := tr.countP (acceptsWrite k)

omit [DecidableEq ι] in
@[simp] theorem history_nil (k : Int32) :
    history k ([] : Trace ι) = Cell.fresh (Data.memset 0) := rfl

omit [DecidableEq ι] in
theorem history_snoc (k : Int32) (tr : Trace ι) (t : Entry (System ι) (Event ι)) :
    history k (tr ++ [t]) = record (history k tr) (committed k t) := by
  rw [history, List.foldl_append]
  rfl

theorem record_extends (cell : Cell Data) (x : Option Data) :
    cell.Extends (record cell x) := by
  cases x with
  | none => exact Cell.Extends.refl cell
  | some d => exact Cell.extends_commit cell d

omit [DecidableEq ι] in
/-- A longer run has a longer history. -/
theorem history_append (k : Int32) (tr tr' : Trace ι) :
    (history k tr).Extends (history k (tr ++ tr')) := by
  induction tr' using List.reverseRecOn with
  | nil =>
      rw [List.append_nil]
      exact Cell.Extends.refl _
  | append_singleton tr' t ih =>
      rw [← List.append_assoc, history_snoc]
      exact ih.trans (record_extends _ _)

omit [DecidableEq ι] in
theorem history_take (k : Int32) (tr : Trace ι) (i : Nat) :
    (history k (tr.take i)).Extends (history k tr) := by
  have h := history_append k (tr.take i) (tr.drop i)
  rwa [List.take_append_drop] at h

omit [DecidableEq ι] in
/-- The history up to and with step `i`. -/
theorem history_take_succ (k : Int32) {tr : Trace ι} {i : Nat}
    {t : Entry (System ι) (Event ι)} (hi : tr[i]? = some t) :
    history k (tr.take (i + 1)) = record (history k (tr.take i)) (committed k t) := by
  rw [List.take_add_one, hi]
  exact history_snoc k _ t

/-! ## What one step does to a block -/

omit [DecidableEq ι] in
/-- What an accepted write shows. -/
theorem acceptsWrite_cases {k : Int32} {t : Entry (System ι) (Event ι)}
    (h : acceptsWrite k t = true) :
    ∃ c tag req ack b m, t.event = .critical c tag req (some ack) ∧
      (Message.ofNode req).deref = .ok (b, m) ∧ (Message.ofNode req).type = .write ∧
      (Message.ofNode ack).type = .ack ∧ b.id = k := by
  rw [acceptsWrite] at h
  split at h
  · rename_i c tag req ack hev
    split at h
    · rename_i b m hm
      simp only [Bool.and_eq_true, decide_eq_true_eq] at h
      exact ⟨c, tag, req, ack, b, m, hev, hm, h.1.1, h.1.2, h.2⟩
    · cases h
  · cases h

omit [DecidableEq ι] in
/-- It is a critical section that acknowledges a write. -/
theorem acceptsWrite_critical (k : Int32) (s s' : System ι) (c : ι) (tag : Nat) (req : Node)
    (ans : Option Node) : acceptsWrite k ⟨s, .critical c tag req ans, s'⟩ =
      DmLedger.acksWrite k (.critical c tag req ans) := by
  cases ans <;> rfl

/-- The step accepted a write with the block `b` in its request. -/
structure Commits (e : Event ι) (k : Int32) (it it' b : BlockServer) : Prop where
  event : ∃ c tag req m, e = .critical c tag req (some (emit .ack)) ∧
    (Message.ofNode req).deref = .ok (b, m) ∧ (Message.ofNode req).type = .write
  names : b.id = k
  revision : it.revision = b.revision
  block : it' = (it.assign b).addRevision

/-- **A step keeps a block's id, revision and content or accepts a write.** -/
theorem step_block {D : Deployment ι} {s s' : System ι} {e : Event ι} {k : Int32}
    {it : BlockServer} (hset : Settled s.host) (hs : Step D s e s')
    (hk : s.host.server.blocks k = some it) :
    ∃ it', s'.host.server.blocks k = some it' ∧
      ((SameContent it it' ∧ acceptsWrite k ⟨s, e, s'⟩ = false) ∨
        ∃ b, Commits e k it it' b ∧ acceptsWrite k ⟨s, e, s'⟩ = true) := by
  by_cases hcritical : ∃ c tag req ans, e = .critical c tag req ans
  · obtain ⟨c, tag, req, ans, rfl⟩ := hcritical
    obtain ⟨-, -, -, -, hhost⟩ := critical_queue hs
    obtain ⟨it', hit', ⟨hsame, hno⟩ | ⟨_, _, _, b, m, hev, hm, ha, hblock⟩⟩ :=
      DmLedger.step_block hset hhost hk
    · exact ⟨it', hit', Or.inl ⟨hsame, (acceptsWrite_critical k s s' c tag req ans).trans hno⟩⟩
    · obtain ⟨rfl, rfl, rfl, rfl⟩ := HostEvent.critical.inj hev
      refine ⟨it', hit', Or.inr ⟨b, ⟨⟨c, tag, req, m, rfl, hm, ha.type⟩, ha.names, ha.revision,
        hblock⟩, ?_⟩⟩
      exact (acceptsWrite_critical k s s' c tag req _).trans (DmLedger.acksWrite_of_accepts hm ha)
  -- only a critical section touches the server
  · rcases server_cases hset hs with ⟨hsrv, -⟩ | ⟨c, tag, req, b, m, sec, hev, -⟩
    · refine ⟨it, by rw [hsrv]; exact hk, Or.inl ⟨SameContent.refl it, ?_⟩⟩
      refine Bool.eq_false_iff.mpr fun hacc => hcritical ?_
      obtain ⟨c, tag, req, ack, b, m, hev, -⟩ := acceptsWrite_cases hacc
      exact ⟨c, tag, req, some ack, hev⟩
    · exact absurd ⟨c, tag, req, answer sec, hev⟩ hcritical

omit [DecidableEq ι] in
/-- A step that counts the revision up commits the content it leaves. -/
theorem committed_of_next {t : Entry (System ι) (Event ι)} {k : Int32}
    {it it' : BlockServer} (hk : t.pre.host.server.blocks k = some it)
    (hk' : t.post.host.server.blocks k = some it') (h : it'.revision = it.revision + 1) :
    committed k t = some it'.data := by
  simp only [committed, hk, hk', h]
  rw [if_neg (WrapCounter.add_one_ne _)]

omit [DecidableEq ι] in
/-- What an accepted write commits is the content of its request. -/
theorem committed_of_commits {s s' : System ι} {e : Event ι} {k : Int32}
    {it it' b : BlockServer} (hk : s.host.server.blocks k = some it)
    (hk' : s'.host.server.blocks k = some it') (h : Commits e k it it' b) :
    committed k ⟨s, e, s'⟩ = some b.data := by
  have hnext : it'.revision = it.revision + 1 := by
    rw [h.block, h.revision]
    rfl
  rw [committed_of_next (t := ⟨s, e, s'⟩) hk hk' hnext, h.block]
  rfl

omit [DecidableEq ι] in
/-- A step that keeps the revision commits nothing. -/
theorem committed_of_same {s s' : System ι} {e : Event ι} {k : Int32}
    {it it' : BlockServer} (hk : s.host.server.blocks k = some it)
    (hk' : s'.host.server.blocks k = some it') (h : SameContent it it') :
    committed k ⟨s, e, s'⟩ = none := by
  simp only [committed, hk, hk']
  rw [if_pos h.revision]

/-! ## The block table refines the cells -/

/-- The block is what the cell records. -/
structure Recorded (cell : Cell Data) (k : Int32) (it : BlockServer) : Prop where
  id : it.id = k
  revision : it.revision = Int32.ofNat cell.version
  data : it.data = cell.current

/-- Every step keeps a block recorded. -/
theorem step_recorded {D : Deployment ι} {tr : Trace ι} {s s' : System ι} {e : Event ι}
    {k : Int32} {it : BlockServer} (hset : Settled s.host) (hs : Step D s e s')
    (hk : s.host.server.blocks k = some it) (h : Recorded (history k tr) k it) :
    ∃ it', s'.host.server.blocks k = some it' ∧
      Recorded (history k (tr ++ [⟨s, e, s'⟩])) k it' := by
  obtain ⟨it', hk', ⟨hsame, -⟩ | ⟨b, hcommit, -⟩⟩ := step_block hset hs hk
  · refine ⟨it', hk', ?_⟩
    rw [history_snoc, committed_of_same hk hk' hsame]
    exact ⟨hsame.id.trans h.id, hsame.revision.trans h.revision, hsame.data.trans h.data⟩
  · refine ⟨it', hk', ?_⟩
    rw [history_snoc, committed_of_commits hk hk' hcommit, hcommit.block]
    refine ⟨hcommit.names, ?_, ?_⟩
    · show b.revision + 1 = Int32.ofNat ((history k tr).commit b.data).version
      rw [Cell.version_commit, WrapCounter.ofNat_succ, ← h.revision, hcommit.revision]
    · show b.data = ((history k tr).commit b.data).current
      rw [Cell.current_commit]

/-- **Every hosted block is the newest version of its cell.** -/
theorem run_recorded {D : Deployment ι} {tr : Trace ι} {s : System ι}
    (hrun : SysRun D tr s) {k : Int32} (hk : k ∈ D.blocksId) :
    ∃ it, s.host.server.blocks k = some it ∧ Recorded (history k tr) k it := by
  induction hrun with
  | nil =>
      refine ⟨BlockServer.create k, ?_, rfl, rfl, rfl⟩
      show (Server.create D.blocksId).blocks k = _
      rw [Server.create_blocks, if_pos hk]
  | snoc hpre hs ih =>
      obtain ⟨it, hit, hrec⟩ := ih
      exact step_recorded (sys_settled hpre) hs hit hrec

/-- A block that is in the table is one that is hosted. -/
theorem hosted_of_blocks {D : Deployment ι} {tr : Trace ι} {s : System ι}
    (hrun : SysRun D tr s) {k : Int32} {it : BlockServer}
    (hit : s.host.server.blocks k = some it) : k ∈ D.blocksId := by
  obtain ⟨tr', hhost⟩ := run_host hrun
  refine ((DmLedger.run_entered hhost).hosted k).mp ?_
  rw [hit]
  rfl

/-- **The commits of a block are the accepted writes.** -/
theorem version_eq {D : Deployment ι} {tr : Trace ι} {s : System ι} (hrun : SysRun D tr s)
    {k : Int32} (hk : k ∈ D.blocksId) :
    (history k tr).version = acceptedWrites k tr := by
  induction hrun with
  | nil => rfl
  | @snoc tr s s' e hpre hs ih =>
      obtain ⟨it, hit, -⟩ := run_recorded hpre hk
      -- both sides grow in the same steps
      have hcount : acceptedWrites k (tr ++ [⟨s, e, s'⟩]) =
          acceptedWrites k tr + if acceptsWrite k ⟨s, e, s'⟩ then 1 else 0 := by
        rw [acceptedWrites, List.countP_append, List.countP_singleton]
        rfl
      obtain ⟨it', hit', ⟨hsame, hacc⟩ | ⟨b, hcommit, hacc⟩⟩ :=
        step_block (sys_settled hpre) hs hit
      · rw [history_snoc, committed_of_same hit hit' hsame, hcount, hacc, ← ih]
        rfl
      · rw [history_snoc, committed_of_commits hit hit' hcommit, hcount, hacc, ← ih]
        exact Cell.version_commit _ _

end DmHistory
