import Mathlib.Logic.Relation
import DistributedMemory.DmClusterProofs
import DistributedMemory.DmLinearProofs
import DistributedMemory.DmUpdateProofs

/-!
# Causality — what one client knows of a block reaches the others through any other block

A program that fills some blocks and then writes one more, to say that they are filled, relies
on more than coherence: whoever sees that last write must find the blocks filled. The blocks
may lie on different servers, which know nothing of each other, and the news may come by way
of a third client.

* **`SyncCall`** — a call that put a client's copy at the server's revision.
* **`Before`** — one such call may have influenced another: the same client made it earlier,
  or it is a write which the other has seen.
* **`causally_consistent`** — along any chain of these the copies of a block get no older.
-/

namespace DmCausality

open DmBlock DmMessage DmClient DmServer DmHost DmSystem DmPairing DmHistory DmService
  DmCoherence DmUpdate DmLinear DmCluster LabelledRun VersionedCell

variable {ι : Type} [DecidableEq ι]

/-- A call that synchronised, read its reply and returned `0`: where it did, and the entry it
    left. -/
structure SyncCall (tr : ClusterTrace ι) where
  returned : Nat
  step : Entry (Cluster ι) (String × Event ι)
  server : String
  caller : ι
  pending : Pending
  tag : Nat
  reply : Node
  entry : BlockLocal
  place : tr[returned]? = some step
  event : step.event = (server, .received caller pending tag reply (some 0))
  synced : syncs pending.call = true
  left : (step.post.client caller).blocks pending.call.id = some entry

namespace SyncCall

variable {tr : ClusterTrace ι}

def block (a : SyncCall tr) : Int32 := a.pending.call.id

/-- What the caller and the server last exchanged for the block, once the call returned. -/
def exchanged (a : SyncCall tr) : Option Data :=
  lastExchanged a.caller a.block (only a.server (tr.take (a.returned + 1)))

/-- The server answered the call in step `j`, while the caller was in it. -/
structure ServedIn (a : SyncCall tr) (j : Nat) (serving : Entry (Cluster ι) (String × Event ι)) :
    Prop where
  place : tr[j]? = some serving
  event : serving.event =
    (a.server, .critical a.caller a.pending.tag a.pending.req (some a.reply))
  pending : serving.pre.pending a.caller = some (a.server, a.pending)

end SyncCall

/-- The version of a block after so many steps. -/
def versionAt (sid : String) (k : Int32) (tr : ClusterTrace ι) (n : Nat) : Nat :=
  (history k (only sid (tr.take n))).version

/-! ## The steps that one server sees -/

section View

variable {F : Fleet ι} {tr : ClusterTrace ι} {s : Cluster ι} {sid : String}

/-- The step as the server sees it, if it concerns the server. -/
def seenBy (sid : String) (t : Entry (Cluster ι) (String × Event ι)) :
    Option (Entry (System ι) (Event ι)) :=
  if t.event.1 = sid then some ⟨view sid t.pre, t.event.2, view sid t.post⟩ else none

omit [DecidableEq ι] in
theorem only_eq (sid : String) (tr : ClusterTrace ι) : only sid tr = tr.filterMap (seenBy sid) :=
  rfl

omit [DecidableEq ι] in
theorem seenBy_eq {t : Entry (Cluster ι) (String × Event ι)} {e : Event ι}
    (h : t.event = (sid, e)) : seenBy sid t = some ⟨view sid t.pre, e, view sid t.post⟩ := by
  rw [seenBy, h]
  exact if_pos rfl

omit [DecidableEq ι] in
/-- A step at a server, found again in what the server sees. -/
theorem only_at {i : Nat} {t : Entry (Cluster ι) (String × Event ι)} {e : Event ι}
    (hi : tr[i]? = some t) (h : t.event = (sid, e)) :
    (only sid tr)[rank (seenBy sid) tr i]? = some ⟨view sid t.pre, e, view sid t.post⟩ :=
  getElem?_filterMap hi (seenBy_eq h)

omit [DecidableEq ι] in
/-- What a server sees is a step of the cluster. -/
theorem of_only_at {n : Nat} {t : Entry (System ι) (Event ι)} (h : (only sid tr)[n]? = some t) :
    ∃ i t', tr[i]? = some t' ∧ t'.event = (sid, t.event) ∧ t.pre = view sid t'.pre ∧
      t.post = view sid t'.post ∧ rank (seenBy sid) tr i = n := by
  obtain ⟨i, t', hi, hsome, hrank⟩ := of_getElem?_filterMap ((only_eq sid tr) ▸ h)
  rw [seenBy] at hsome
  by_cases heq : t'.event.1 = sid
  · rw [if_pos heq] at hsome
    obtain rfl := Option.some.inj hsome
    exact ⟨i, t', hi, by rw [← heq], rfl, rfl, hrank⟩
  · rw [if_neg heq] at hsome
    cases hsome

omit [DecidableEq ι] in
/-- Versions only grow. -/
theorem versionAt_mono (sid : String) (k : Int32) (tr : ClusterTrace ι) {m n : Nat}
    (h : m ≤ n) : versionAt sid k tr m ≤ versionAt sid k tr n := by
  obtain ⟨rest, hrest⟩ := List.take_prefix_take_left (l := tr) h
  rw [versionAt, versionAt, ← hrest, only_append]
  exact (history_append k _ _).version_le

omit [DecidableEq ι] in
/-- The history up to any moment of a run is that of a longer one's beginning. -/
theorem history_extends (sid : String) (k : Int32) (tr : ClusterTrace ι) (n : Nat) :
    (history k (only sid (tr.take n))).Extends (history k (only sid tr)) := by
  have h := history_append k (only sid (tr.take n)) (only sid (tr.drop n))
  rwa [← only_append, List.take_append_drop] at h

/-- The run up to and with a step. -/
theorem run_after (hrun : ClusterRun F tr s) {i : Nat}
    {t : Entry (Cluster ι) (String × Event ι)} (hi : tr[i]? = some t) :
    ClusterRun F (tr.take (i + 1)) t.post := by
  rw [List.take_add_one, hi]
  exact (hrun.take hi).snoc (hrun.step_of_mem (List.mem_of_getElem? hi))

end View

/-! ## Where a call was served -/

/-- A call that synchronised was on a block of its server. -/
theorem synced_hosted {D : Deployment ι} {tr : Trace ι} {s s' : System ι} (hrun : SysRun D tr s)
    (hno : NoTimeout tr) {c : ι} {p : Pending} {tag : Nat} {reply : Node}
    (hsync : syncs p.call = true) (hs : DmSystem.Step D s (.received c p tag reply (some 0)) s') :
    p.call.id ∈ D.blocksId := by
  by_contra hk
  obtain ⟨hp, hrep⟩ := own_reply hrun hno hs
  obtain ⟨j, t, e, sec, hprod⟩ := production hrun hp hrep
  have hid : e.id = p.call.id := run_named hrun hno c _ e hprod.entry
  have hnone : ∀ it, t.pre.host.server.blocks
      (Message.decoded e.toBlock p.call.shallow).id ≠ some it := by
    intro it hit
    rw [Message.decoded_id, BlockLocal.toBlock_id, hid] at hit
    exact hk (hosted_of_blocks (hrun.take hprod.place) hit)
  -- whatever it asked for is refused
  have hnack : reply = emit .nack := by
    have hserved := hprod.served
    have ho := hprod.outcome
    have htype : p.call.type ≠ .wait := by
      intro hwait
      cases hcall : p.call with
      | wait id =>
          rw [hcall] at hsync
          cases hsync
      | map id address | unmap id | update id | write id =>
          rw [hcall] at hwait
          cases hwait
    generalize p.call.type = ty at hserved htype
    cases hserved with
    | unhosted _ _ | writeUnhosted _ => exact (Outcome.send.inj ho).symm
    | waitUnhosted _ => exact absurd rfl htype
    | mapped hit _ | mapRefused hit _ | unmapped hit _ | unmapRefused hit _ | entire hit _
      | shallow hit _ | accepted hit _ | writeRefused hit _ | outdated hit _ | sleeps hit _ =>
        exact absurd hit (hnone _)
  obtain ⟨-, rest, client, -, hrecv, -⟩ := received_inv hs
  rw [hnack, Client.receive_nack hprod.entry (Message.type_emit .nack)] at hrecv
  exact absurd (Prod.mk.inj (Except.ok.inj hrecv)).1 (by decide)

omit [DecidableEq ι] in
/-- A call in progress on a server's socket. -/
theorem pending_of_view {s : Cluster ι} {sid : String} {c : ι} {p : Pending}
    (h : ((view sid s).link c).pending = some p) : s.pending c = some (sid, p) := by
  have hon : pendingOn sid (s.pending c) = some p := h
  cases hp : s.pending c with
  | none =>
      rw [hp] at hon
      cases hon
  | some q =>
      obtain ⟨sid', p'⟩ := q
      rw [hp, pendingOn] at hon
      by_cases heq : sid' = sid
      · rw [if_pos heq] at hon
        rw [heq, Option.some.inj hon]
      · rw [if_neg heq] at hon
        cases hon

section Served

variable {F : Fleet ι} {tr : ClusterTrace ι} {s : Cluster ι}

namespace SyncCall

/-- The step in which a call returned, as its server sees it. -/
theorem step_seen (hrun : ClusterRun F tr s) (a : SyncCall tr) :
    SysRun (F.only a.server) (only a.server (tr.take a.returned)) (view a.server a.step.pre) ∧
      DmSystem.Step (F.only a.server) (view a.server a.step.pre)
        (.received a.caller a.pending a.tag a.reply (some 0)) (view a.server a.step.post) := by
  have hpre := hrun.take a.place
  have hs := hrun.step_of_mem (List.mem_of_getElem? a.place)
  rw [a.event] at hs
  exact ⟨run_view hpre a.server, step_view (run_routed hpre) hs⟩

theorem hosted (hrun : ClusterRun F tr s) (hno : NoTimeouts tr) (a : SyncCall tr) :
    a.block ∈ F.blocksId a.server := by
  obtain ⟨hpre, hs⟩ := a.step_seen hrun
  exact synced_hosted hpre (noTimeout_only (noTimeouts_take hno a.returned) a.server) a.synced hs

/-- The caller was in the call until it returned. -/
theorem in_call (hrun : ClusterRun F tr s) (a : SyncCall tr) :
    a.step.pre.pending a.caller = some (a.server, a.pending) := by
  have hs := hrun.step_of_mem (List.mem_of_getElem? a.place)
  rw [a.event] at hs
  generalize a.server = sid, a.step.post = post at hs ⊢
  cases hs with
  | received hp _ _ _ => exact hp

/-- The tag of the reply is the call's own number. -/
theorem tag_eq (hrun : ClusterRun F tr s) (hno : NoTimeouts tr) (a : SyncCall tr) :
    a.tag = a.pending.tag := by
  obtain ⟨hpre, hs⟩ := a.step_seen hrun
  have h := number_read hpre hs
  rw [timeouts_eq_zero (noTimeout_only (noTimeouts_take hno a.returned) a.server)] at h
  exact h.symm

/-- The entry that the call left, as its server sees it. -/
theorem left_seen (hrun : ClusterRun F tr s) (a : SyncCall tr) :
    ((view a.server a.step.post).link a.caller).client.blocks a.block = some a.entry := by
  have hpre := hrun.take a.place
  have hs := hrun.step_of_mem (List.mem_of_getElem? a.place)
  have hroute : (a.step.post.client a.caller).config.findServerIdByBlockId a.block = a.server := by
    rw [step_config hs]
    exact run_routed hpre _ _ _ (a.in_call hrun)
  exact (restrict_blocks hroute).trans a.left

/-- **A call that synchronised has been served in some step**, and left its entry at the
    version the block had right after that. -/
theorem point (hrun : ClusterRun F tr s) (hno : NoTimeouts tr)
    (hfew : ∀ sid, FewWrites (F.only sid) (only sid tr)) (a : SyncCall tr) :
    ∃ j serving, a.ServedIn j serving ∧ j < a.returned ∧
      a.entry.revision = Int32.ofNat (versionAt a.server a.block tr (j + 1)) := by
  obtain ⟨hpre, hs⟩ := a.step_seen hrun
  have hk := a.hosted hrun hno
  have hno' := noTimeout_only (noTimeouts_take hno a.returned) a.server
  have hbound : (history a.block (only a.server (tr.take a.returned))).version < 0x80000000 :=
    Nat.lt_of_le_of_lt (history_extends a.server a.block tr a.returned).version_le
      ((hfew a.server).version (run_view hrun a.server) hk)
  obtain ⟨n, tn, e, it, sec, u, hrec⟩ := receipt hpre hno' hk hbound hs
  -- it returned `0`, so a map was not refused
  have hmap : a.pending.call.type = .map → (Message.ofNode a.reply).type ≠ .nack := by
    intro hcall hnack
    rcases hrec.service.map hcall with hreply | hreply
    · rw [hreply, Message.type_emitBlock] at hnack
      cases hnack
    · have hrefused := hrec
      rw [hreply] at hrefused
      exact absurd hrefused.of_nack.1 (by decide)
  rcases settles hrec hmap with ⟨-, -, e', it', he', hit', hrev⟩ | ⟨hcode, -, -⟩
  · obtain rfl := Option.some.inj ((a.left_seen hrun).symm.trans he')
    obtain ⟨j, serving, hj, hevent, hservingPre, hservingPost, -⟩ :=
      of_only_at hrec.service.place
    obtain ⟨hlt, hj⟩ := getElem?_of_take hj
    rw [hrec.service.event] at hevent
    have hpending := hrec.service.pending
    rw [hservingPre] at hpending
    refine ⟨j, serving, ⟨hj, hevent, ?_⟩, hlt, ?_⟩
    · exact pending_of_view hpending
    · obtain ⟨it'', hit'', hrecorded⟩ := run_recorded (run_view (run_after hrun hj) a.server) hk
      rw [hservingPost] at hit'
      obtain rfl := Option.some.inj (hit'.symm.trans hit'')
      rw [← hrev, hrecorded.revision]
      rfl
  · have hnot := hcode rfl
    rw [a.synced] at hnot
    cases hnot

/-- A call is served once. -/
theorem ServedIn.unique (hrun : ClusterRun F tr s) {a : SyncCall tr} {j j' : Nat}
    {t t' : Entry (Cluster ι) (String × Event ι)} (h : a.ServedIn j t) (h' : a.ServedIn j' t') :
    j = j' :=
  rank_inj h.place (seenBy_eq h.event) h'.place (seenBy_eq h'.event)
    (answered_once (run_view hrun a.server) (only_at h.place h.event)
      (only_at h'.place h'.event) rfl rfl)

/-- A call's reply is read once. -/
theorem read_once (hrun : ClusterRun F tr s) (hno : NoTimeouts tr) (a : SyncCall tr) {i : Nat}
    {t : Entry (Cluster ι) (String × Event ι)} {p : Pending} {tag : Nat} {reply : Node}
    {code : Option Int} (hi : tr[i]? = some t)
    (hev : t.event = (a.server, .received a.caller p tag reply code))
    (htag : p.tag = a.pending.tag) : i = a.returned := by
  have hs := hrun.step_of_mem (List.mem_of_getElem? hi)
  rw [hev] at hs
  have hpre := hrun.take hi
  have hnumber := number_read (run_view hpre a.server) (step_view (run_routed hpre) hs)
  rw [timeouts_eq_zero (noTimeout_only (noTimeouts_take hno i) a.server)] at hnumber
  have hsame : tag = a.tag := by
    rw [a.tag_eq hrun hno, ← htag]
    exact hnumber.symm
  rw [hsame] at hev
  exact rank_inj hi (seenBy_eq hev) a.place (seenBy_eq a.event)
    (received_once (run_view hrun a.server) (only_at hi hev) (only_at a.place a.event) rfl rfl)

/-- **Program order**: a client's later call is served after its earlier one returned. -/
theorem ServedIn.after_return (hrun : ClusterRun F tr s) (hno : NoTimeouts tr)
    {a b : SyncCall tr} (hcaller : a.caller = b.caller) (hlt : a.returned < b.returned) {j : Nat}
    {t : Entry (Cluster ι) (String × Event ι)} (hb : b.ServedIn j t) : a.returned < j := by
  refine Nat.lt_of_not_le fun hle => ?_
  have hne : j ≠ a.returned := by
    rintro rfl
    obtain rfl := Option.some.inj (a.place.symm.trans hb.place)
    cases (Prod.mk.inj (a.event.symm.trans hb.event)).2
  have hbefore : j < a.returned := Nat.lt_of_le_of_ne hle hne
  -- the later call would be in progress before the earlier one returns
  have hpre := hrun.take a.place
  have hj : (tr.take a.returned)[j]? = some t := by
    rw [List.getElem?_take_of_lt hbefore]
    exact hb.place
  have hs := hrun.step_of_mem (List.mem_of_getElem? hb.place)
  rw [hb.event] at hs
  have hbusy : ((view b.server t.post).link b.caller).pending = some b.pending := by
    obtain ⟨-, -, -, hlink, -⟩ := critical_queue (step_view (run_routed (hrun.take hb.place)) hs)
    rw [hlink]
    exact pending_view hb.pending
  rcases returns (run_view hpre b.server) (only_at hj hb.event) hbusy with
    hstill | ⟨n, tn, -, hn, ⟨tag, reply, code, hev⟩ | hgave⟩
  · have hsame := (pending_of_view hstill).symm.trans (hcaller ▸ a.in_call hrun)
    obtain ⟨hserver, hpending⟩ := Prod.mk.inj (Option.some.inj hsame)
    have hread := a.event
    rw [← hserver, hcaller] at hread
    exact absurd (b.read_once hrun hno a.place hread (by rw [hpending])) (Nat.ne_of_lt hlt)
  · obtain ⟨m, tm, hm, hread, -⟩ := of_only_at hn
    obtain ⟨hmlt, hm⟩ := getElem?_of_take hm
    rw [hev] at hread
    have hsame := b.read_once hrun hno hm hread rfl
    omega
  · obtain ⟨m, tm, hm, hread, -⟩ := of_only_at hn
    have hlate := noTimeouts_take hno a.returned tm (List.mem_of_getElem? hm)
    rw [hread, hgave] at hlate
    cases hlate

/-- A write that returned `0` made the next version. -/
theorem ServedIn.version_succ (hrun : ClusterRun F tr s) (hno : NoTimeouts tr) {a : SyncCall tr}
    (hwrite : a.pending.call = .write a.block) {j : Nat}
    {t : Entry (Cluster ι) (String × Event ι)} (h : a.ServedIn j t) :
    versionAt a.server a.block tr (j + 1) = versionAt a.server a.block tr j + 1 := by
  have hview := run_view hrun a.server
  have hno' := noTimeout_only hno a.server
  have hk := a.hosted hrun hno
  obtain ⟨w, hw⟩ := writeCall_of_returned hview hno' hk (only_at a.place a.event) rfl hwrite
  -- the server sees the one call as the other
  have hreturning := w.returningAt
  rw [hw] at hreturning
  have hsame := Option.some.inj (hreturning.symm.trans (only_at a.place a.event))
  have hread := w.returningEvent
  rw [hsame] at hread
  obtain ⟨hcaller, hpending, -, hreply, -⟩ := Event.received.inj hread
  have hserving := w.servingEvent
  rw [← hcaller, ← hpending] at hserving
  have hplace : w.served = rank (seenBy a.server) tr j :=
    answered_once hview w.servingAt (only_at h.place h.event) hserving rfl
  have haccepted := w.accepted hview hno'
  have hservingAt := w.servingAt
  rw [hplace] at hservingAt
  rw [Option.some.inj (hservingAt.symm.trans (only_at h.place h.event))] at haccepted
  rw [versionAt, versionAt, version_eq (run_view (run_after hrun h.place) a.server) hk,
    version_eq (run_view (hrun.take h.place) a.server) hk, List.take_add_one, h.place,
    only_append, acceptedWrites, List.countP_append]
  show _ + List.countP _ ([t].filterMap (seenBy a.server)) = _
  rw [List.filterMap_cons_some (seenBy_eq h.event), List.filterMap_nil,
    List.countP_singleton, if_pos haccepted]
  rfl

/-- What is known of a call from the step it was served in. -/
theorem ServedIn.left (hrun : ClusterRun F tr s) (hno : NoTimeouts tr)
    (hfew : ∀ sid, FewWrites (F.only sid) (only sid tr)) {a : SyncCall tr} {j : Nat}
    {t : Entry (Cluster ι) (String × Event ι)} (h : a.ServedIn j t) :
    j < a.returned ∧ a.entry.revision = Int32.ofNat (versionAt a.server a.block tr (j + 1)) := by
  obtain ⟨j', t', h', hlt, hrev⟩ := a.point hrun hno hfew
  obtain rfl := h.unique hrun h'
  exact ⟨hlt, hrev⟩

/-- Versions stay below the bound. -/
theorem version_lt (hrun : ClusterRun F tr s) (hno : NoTimeouts tr)
    (hfew : ∀ sid, FewWrites (F.only sid) (only sid tr)) (a : SyncCall tr) (n : Nat) :
    versionAt a.server a.block tr n < 0x80000000 :=
  Nat.lt_of_le_of_lt (history_extends a.server a.block tr n).version_le
    ((hfew a.server).version (run_view hrun a.server) (a.hosted hrun hno))

/-- The entry's revision is the version the call was served at. -/
theorem ServedIn.toInt_revision (hrun : ClusterRun F tr s) (hno : NoTimeouts tr)
    (hfew : ∀ sid, FewWrites (F.only sid) (only sid tr)) {a : SyncCall tr} {j : Nat}
    {t : Entry (Cluster ι) (String × Event ι)} (h : a.ServedIn j t) :
    a.entry.revision.toInt = versionAt a.server a.block tr (j + 1) := by
  rw [(h.left hrun hno hfew).2, WrapCounter.toInt_ofNat (a.version_lt hrun hno hfew (j + 1))]

end SyncCall

/-! ## Chains of calls -/

/-- One call may have influenced the other: the same client made it earlier, or it is a write
    and the other found its block at no earlier revision. -/
inductive Before {tr : ClusterTrace ι} (a b : SyncCall tr) : Prop where
  | earlier (hcaller : a.caller = b.caller) (hlt : a.returned < b.returned)
  | seen (hwrite : a.pending.call = .write a.block) (hserver : a.server = b.server)
      (hblock : a.block = b.block) (hrev : a.entry.revision.toInt ≤ b.entry.revision.toInt)

/-- What may have influenced a call was served no later. -/
theorem Before.served_le (hrun : ClusterRun F tr s) (hno : NoTimeouts tr)
    (hfew : ∀ sid, FewWrites (F.only sid) (only sid tr)) {a b : SyncCall tr} (h : Before a b)
    {j j' : Nat} {t t' : Entry (Cluster ι) (String × Event ι)} (ha : a.ServedIn j t)
    (hb : b.ServedIn j' t') : j ≤ j' := by
  cases h with
  | earlier hcaller hlt =>
      have hreturned := (ha.left hrun hno hfew).1
      have hafter := hb.after_return hrun hno hcaller hlt
      omega
  | seen hwrite hserver hblock hrev =>
      refine Nat.le_of_not_lt fun hlt => ?_
      -- before the write was served the block was at an earlier version
      have hnext := ha.version_succ hrun hno hwrite
      have hmono := versionAt_mono a.server a.block tr (Nat.succ_le_of_lt hlt)
      rw [ha.toInt_revision hrun hno hfew, hb.toInt_revision hrun hno hfew, ← hserver, ← hblock]
        at hrev
      have hle := Int.ofNat_le.mp hrev
      rw [Nat.succ_eq_add_one] at hmono
      omega

theorem chain_served_le (hrun : ClusterRun F tr s) (hno : NoTimeouts tr)
    (hfew : ∀ sid, FewWrites (F.only sid) (only sid tr)) {a b : SyncCall tr}
    (h : Relation.ReflTransGen Before a b) {j j' : Nat}
    {t t' : Entry (Cluster ι) (String × Event ι)} (ha : a.ServedIn j t)
    (hb : b.ServedIn j' t') : j ≤ j' := by
  induction h generalizing j' t' with
  | refl => exact Nat.le_of_eq (ha.unique hrun hb)
  | @tail b c _ hbc ih =>
      obtain ⟨i, ti, hi, -⟩ := b.point hrun hno hfew
      exact Nat.le_trans (ih hi) (hbc.served_le hrun hno hfew hi hb)

/-- What a call exchanged is the content of the block at its entry's revision. -/
theorem SyncCall.exchanged_coherent (hrun : ClusterRun F tr s) (hno : NoTimeouts tr)
    (hfew : ∀ sid, FewWrites (F.only sid) (only sid tr)) (a : SyncCall tr) {d : Data}
    (hd : a.exchanged = some d) :
    ∃ u, u < 0x80000000 ∧ a.entry.revision = Int32.ofNat u ∧
      Coherent (history a.block (only a.server tr)) u d := by
  have hafter := run_after hrun a.place
  have hk := a.hosted hrun hno
  have hbound := a.version_lt hrun hno hfew (a.returned + 1)
  obtain ⟨u, hcopy⟩ := (run_tracks (run_view hafter a.server)
    (noTimeout_only (noTimeouts_take hno _) a.server) hk hbound a.caller).copy a.entry
      (a.left_seen hrun)
  exact ⟨u, Nat.lt_of_le_of_lt hcopy.le hbound, hcopy.revision,
    (hcopy.content d hd).extends (history_extends a.server a.block tr _)⟩

/-- **Causal consistency.** In every run of the cluster without timeouts, if a call that
    synchronised may have influenced another one on the same block, by way of any blocks on any
    servers and any clients, then it left no newer copy than the other, and if both copies have
    one revision, both clients exchanged the same content for it. -/
theorem causally_consistent (hrun : ClusterRun F tr s) (hno : NoTimeouts tr)
    (hfew : ∀ sid, FewWrites (F.only sid) (only sid tr)) {a b : SyncCall tr}
    (h : Relation.ReflTransGen Before a b) (hserver : a.server = b.server)
    (hblock : a.block = b.block) :
    a.entry.revision.toInt ≤ b.entry.revision.toInt ∧
      (a.entry.revision = b.entry.revision →
        ∀ d d', a.exchanged = some d → b.exchanged = some d' → d = d') := by
  constructor
  · obtain ⟨j, t, ha, -⟩ := a.point hrun hno hfew
    obtain ⟨j', t', hb, -⟩ := b.point hrun hno hfew
    have hle := chain_served_le hrun hno hfew h ha hb
    rw [ha.toInt_revision hrun hno hfew, hb.toInt_revision hrun hno hfew, ← hserver, ← hblock]
    exact Int.ofNat_le.mpr (versionAt_mono _ _ _ (Nat.succ_le_succ hle))
  · intro hrev d d' hd hd'
    obtain ⟨u, hu, hrevision, hcontent⟩ := a.exchanged_coherent hrun hno hfew hd
    obtain ⟨u', hu', hrevision', hcontent'⟩ := b.exchanged_coherent hrun hno hfew hd'
    rw [hrevision, hrevision', WrapCounter.ofNat_eq_iff hu hu'] at hrev
    rw [← hserver, ← hblock, ← hrev] at hcontent'
    exact Option.some.inj (hcontent.symm.trans hcontent')

end Served

/-- The call that returned in step `i`, if one did that synchronised. -/
def SyncCall.at? (tr : ClusterTrace ι) (i : Nat) : Option (SyncCall tr) :=
  match hplace : tr[i]? with
  | none => none
  | some t =>
      match hevent : t.event with
      | (sid, .received c p tag reply (some 0)) =>
          if hsync : syncs p.call = true then
            match hleft : (t.post.client c).blocks p.call.id with
            | none => none
            | some e => some ⟨i, t, sid, c, p, tag, reply, e, hplace, hevent, hsync, hleft⟩
          else none
      | _ => none

omit [DecidableEq ι] in
/-- A short run accepts few writes. -/
theorem fewWrites_of_length (F : Fleet ι) {tr : ClusterTrace ι} (h : tr.length < 0x7fffffff)
    (sid : String) : FewWrites (F.only sid) (only sid tr) := by
  intro k _
  refine Nat.lt_of_le_of_lt (Nat.le_trans List.countP_le_length ?_) h
  exact List.length_filterMap_le _ _

/-- Both clients map block 7 on the one server and block 8 on the other. The second writes 7,
    then 8; the first updates 8, then 7. -/
def publish : List (DmCluster.Action Bool) :=
  [.call true (.map 7 (Data.memset 65)), .serve "10.0.0.1:5000" true, .receive true,
   .call true (.map 8 (Data.memset 66)), .serve "10.0.0.9:5000" true, .receive true,
   .call false (.map 7 (Data.memset 1)), .serve "10.0.0.1:5000" false, .receive false,
   .call false (.map 8 (Data.memset 2)), .serve "10.0.0.9:5000" false, .receive false,
   .call true (.write 7), .serve "10.0.0.1:5000" true, .receive true,
   .call true (.write 8), .serve "10.0.0.9:5000" true, .receive true,
   .call false (.update 8), .serve "10.0.0.9:5000" false, .receive false,
   .call false (.update 7), .serve "10.0.0.1:5000" false, .receive false]

/-- What of a call its place in a chain depends on. -/
structure Summary (ι : Type) where
  returned : Nat
  server : String
  caller : ι
  call : Call
  revision : Int32
  deriving DecidableEq

def SyncCall.summary {tr : ClusterTrace ι} (a : SyncCall tr) : Summary ι :=
  ⟨a.returned, a.server, a.caller, a.pending.call, a.entry.revision⟩

theorem causally_consistent_publish :
    ∃ (tr : ClusterTrace Bool) (s : Cluster Bool) (a b : SyncCall tr),
      ClusterRun twoServers tr s ∧ a.caller = true ∧ a.pending.call = .write 7 ∧
        b.caller = false ∧ b.pending.call = .update 7 ∧ Relation.ReflTransGen Before a b ∧
        a.entry.revision.toInt ≤ b.entry.revision.toInt := by
  obtain ⟨q, hq, hfacts⟩ := Option.map_eq_some_iff.mp (show
    (exec (DmCluster.next twoServers) twoServers.start publish).map
      (fun q => (q.1.length, decide (NoTimeouts q.1), [14, 17, 20, 23].map fun i =>
        (SyncCall.at? q.1 i).map SyncCall.summary))
      = some (24, true, [some ⟨14, "10.0.0.1:5000", true, .write 7, 1⟩,
          some ⟨17, "10.0.0.9:5000", true, .write 8, 1⟩,
          some ⟨20, "10.0.0.9:5000", false, .update 8, 1⟩,
          some ⟨23, "10.0.0.1:5000", false, .update 7, 1⟩]) by decide +kernel)
  obtain ⟨hlen, hfacts⟩ := Prod.mk.inj hfacts
  obtain ⟨hno, hfacts⟩ := Prod.mk.inj hfacts
  simp only [List.map_cons, List.map_nil, List.cons.injEq, and_true] at hfacts
  obtain ⟨h₁, h₂, h₃, h₄⟩ := hfacts
  obtain ⟨filled, -, h₁⟩ := Option.map_eq_some_iff.mp h₁
  obtain ⟨told, -, h₂⟩ := Option.map_eq_some_iff.mp h₂
  obtain ⟨heard, -, h₃⟩ := Option.map_eq_some_iff.mp h₃
  obtain ⟨found, -, h₄⟩ := Option.map_eq_some_iff.mp h₄
  obtain ⟨hat₁, hserver₁, hcaller₁, hcall₁, hrev₁⟩ := Summary.mk.inj h₁
  obtain ⟨hat₂, hserver₂, hcaller₂, hcall₂, hrev₂⟩ := Summary.mk.inj h₂
  obtain ⟨hat₃, hserver₃, hcaller₃, hcall₃, hrev₃⟩ := Summary.mk.inj h₃
  obtain ⟨hat₄, hserver₄, hcaller₄, hcall₄, hrev₄⟩ := Summary.mk.inj h₄
  have hrun := run_of_exec _ (DmCluster.next_sound _) publish _ hq
  have hshort : q.1.length < 0x7fffffff := by
    rw [hlen]
    decide
  have hfew := fewWrites_of_length twoServers hshort
  have hno := of_decide_eq_true hno
  -- filled before told, told before heard, heard before found
  have h₁₂ : Before filled told := by
    refine .earlier ?_ ?_
    · rw [hcaller₁, hcaller₂]
    · rw [hat₁, hat₂]
      decide
  have h₂₃ : Before told heard := by
    refine .seen ?_ ?_ ?_ ?_
    · rw [SyncCall.block, hcall₂]
      rfl
    · rw [hserver₂, hserver₃]
    · rw [SyncCall.block, SyncCall.block, hcall₂, hcall₃]
      rfl
    · rw [hrev₂, hrev₃]
  have h₃₄ : Before heard found := by
    refine .earlier ?_ ?_
    · rw [hcaller₃, hcaller₄]
    · rw [hat₃, hat₄]
      decide
  have hchain : Relation.ReflTransGen Before filled found :=
    ((Relation.ReflTransGen.single h₁₂).tail h₂₃).tail h₃₄
  have hblock : filled.block = found.block := by
    rw [SyncCall.block, SyncCall.block, hcall₁, hcall₄]
    rfl
  exact ⟨q.1, q.2, filled, found, hrun, hcaller₁, hcall₁, hcaller₄, hcall₄, hchain,
    (causally_consistent hrun hno hfew hchain (hserver₁.trans hserver₄.symm) hblock).1⟩

end DmCausality
