import DistributedMemory.DmServiceProofs

/-!
# Coherence — what a local copy is worth

A client's entry for a block is a copy of some version of the server's cell.

* **`Copy`** — an entry is at most as new as the cell, strictly older when it is marked
  invalid, and the content last exchanged is the cell's at the entry's revision.
* **`Receipt`** — a call that reads its own reply and returns, with what its entry was
  worth when the reply was made and what it is worth when it is read.
* **`coherence`** — every client has coherent copies in every reachable state.
-/

namespace DmCoherence

open DmBlock DmMessage DmClient DmServer DmHost DmSystem DmPairing DmHistory DmService
  LabelledRun VersionedCell

variable {ι : Type} [DecidableEq ι]

/-! ## What a client exchanged with the server -/

/-- The call on block `k` that client `c` completes with `0` in this step, and the reply. -/
def completed (c : ι) (k : Int32) (t : Entry (System ι) (Event ι)) :
    Option (Pending × Node) :=
  match t.event with
  | .received u p _ reply (some code) =>
      if u = c ∧ p.call.id = k ∧ code = 0 then some (p, reply) else none
  | _ => none

/-- A completed map maps the block, a completed unmap ends that. -/
def mappedBy (m : Bool) : Option (Pending × Node) → Bool
  | none => m
  | some (p, _) =>
      match p.call with
      | .map _ _ => true
      | .unmap _ => false
      | _ => m

/-- A map or update receives content, if the reply carries any; a write sends it. -/
def exchangedBy (x : Option Data) : Option (Pending × Node) → Option Data
  | none => x
  | some (p, reply) =>
      match p.call with
      | .map _ _ | .update _ => (carried reply).or x
      | .write _ => carried p.req
      | .unmap _ => none
      | .wait _ => x

/-- Client `c` has mapped block `k`: map returned `0` and no unmap has since. -/
def mapped (c : ι) (k : Int32) (tr : Trace ι) : Bool :=
  tr.foldl (fun m t => mappedBy m (completed c k t)) false

/-- The content client `c` and the server last exchanged for its mapping of block `k`. -/
def lastExchanged (c : ι) (k : Int32) (tr : Trace ι) : Option Data :=
  tr.foldl (fun x t => exchangedBy x (completed c k t)) none

theorem mapped_snoc (c : ι) (k : Int32) (tr : Trace ι) (t : Entry (System ι) (Event ι)) :
    mapped c k (tr ++ [t]) = mappedBy (mapped c k tr) (completed c k t) := by
  rw [mapped, List.foldl_append]
  rfl

theorem lastExchanged_snoc (c : ι) (k : Int32) (tr : Trace ι)
    (t : Entry (System ι) (Event ι)) :
    lastExchanged c k (tr ++ [t]) = exchangedBy (lastExchanged c k tr) (completed c k t) := by
  rw [lastExchanged, List.foldl_append]
  rfl

theorem completed_received (c : ι) (p : Pending) (tag : Nat) (reply : Node)
    (s s' : System ι) :
    completed c p.call.id ⟨s, .received c p tag reply (some 0), s'⟩ = some (p, reply) := by
  simp [completed]

/-- Only a reply read by client `c` in a call on `k` completes one. -/
theorem completed_eq_none {c : ι} {k : Int32} {t : Entry (System ι) (Event ι)}
    (h : ∀ p tag reply, t.event = .received c p tag reply (some 0) → p.call.id ≠ k) :
    completed c k t = none := by
  rw [completed]
  split
  · rename_i u p tag reply code hev
    rw [if_neg]
    rintro ⟨rfl, hk, rfl⟩
    exact h p tag reply hev hk
  · rfl

/-! ## Entries as copies -/

/-- The entry `e` for block `k` is a copy of a version the cell has been at: not the
    newest one if it is marked invalid, and the one whose content `x` was last
    exchanged. -/
structure Copy (cell : Cell Data) (x : Option Data) (e : BlockLocal) (u : Nat) :
    Prop where
  revision : e.revision = Int32.ofNat u
  le : u ≤ cell.version
  invalid : e.valid = false → Outdated cell u
  content : ∀ d, x = some d → Coherent cell u d

/-- A copy stays a copy while the cell goes on. -/
theorem Copy.extends {cell cell' : Cell Data} {x : Option Data}
    {e : BlockLocal} {u : Nat} (h : Copy cell x e u) (hc : cell.Extends cell') :
    Copy cell' x e u where
  revision := h.revision
  le := Nat.le_trans h.le hc.version_le
  invalid := fun hv => (h.invalid hv).extends hc
  content := fun d hd => (h.content d hd).extends hc

/-- The memory behind a copy is the client's own. -/
theorem Copy.poke {cell : Cell Data} {x : Option Data} {e : BlockLocal}
    {u : Nat} (h : Copy cell x e u) (d : Data) : Copy cell x { e with data := d } u where
  revision := h.revision
  le := h.le
  invalid := h.invalid
  content := h.content

/-- A new entry is at revision 0 and nothing was exchanged for it. -/
theorem copy_create (cell : Cell Data) (k : Int32) (address : Data) :
    Copy cell none (BlockLocal.create k address) 0 where
  revision := rfl
  le := Nat.zero_le _
  invalid := fun hv => nomatch hv
  content := fun _ hd => nomatch hd

/-! ## What the reply says about the copy -/

section Replies

omit [DecidableEq ι]

variable {D : Deployment ι} {tr : Trace ι} {c : ι} {p : Pending} {reply : Node}
  {client : Client} {j : Nat} {t : Entry (System ι) (Event ι)} {e : BlockLocal}
  {it : BlockServer} {sec : Section} {x : Option Data} {u : Nat}

/-- **An update finds the copy behind and sends everything, or finds it current.** Below
    the bound no copy is ahead. -/
theorem update_copy (h : Service D tr c p reply client j t e it sec)
    (hcopy : Copy (history p.call.id (tr.take j)) x e u)
    (hbound : (history p.call.id (tr.take j)).version < 0x80000000)
    (hcall : p.call.type = .update) :
    (Outdated (history p.call.id (tr.take j)) u ∧ e.revision ≠ it.revision ∧
        reply = emitBlock .ack it.toBlock false) ∨
      (u = (history p.call.id (tr.take j)).version ∧ e.valid = true ∧
        e.revision = it.revision ∧ reply = emitBlock .ack it.toBlock true) := by
  have hsent := h.update_sent hcall
  have hu : u < 0x80000000 := Nat.lt_of_le_of_lt hcopy.le hbound
  have hlt : e.revision < it.revision ↔ u < (history p.call.id (tr.take j)).version := by
    rw [hcopy.revision, h.recorded.revision]
    exact WrapCounter.ofNat_lt_iff hu hbound
  have heq : e.revision = it.revision ↔ u = (history p.call.id (tr.take j)).version := by
    rw [hcopy.revision, h.recorded.revision]
    exact WrapCounter.ofNat_eq_iff hu hbound
  -- below the bound the two words compare like the two counts
  rcases Nat.lt_or_eq_of_le hcopy.le with hbehind | hcurrent
  · refine Or.inl ⟨hbehind, fun hr => ?_, ?_⟩
    · exact absurd (heq.mp hr) (Nat.ne_of_lt hbehind)
    · rw [hsent, decide_eq_false (not_not_intro (hlt.mpr hbehind))]
  · refine Or.inr ⟨hcurrent, ?_, heq.mpr hcurrent, ?_⟩
    · cases hv : e.valid with
      | true => rfl
      | false => exact absurd hcurrent (Nat.ne_of_lt (hcopy.invalid hv))
    · have hnlt : ¬ e.revision < it.revision := fun hl =>
        absurd hcurrent (Nat.ne_of_lt (hlt.mp hl))
      rw [hsent, decide_eq_true hnlt]

/-- **A write goes through exactly when the copy is current**, and then commits the
    caller's content. -/
theorem write_copy (h : Service D tr c p reply client j t e it sec)
    (hcopy : Copy (history p.call.id (tr.take j)) x e u)
    (hbound : (history p.call.id (tr.take j)).version < 0x80000000)
    (hcall : p.call.type = .write) (hshallow : p.call.shallow = false) :
    (u = (history p.call.id (tr.take j)).version ∧ reply = emit .ack ∧
        history p.call.id (tr.take (j + 1))
          = (history p.call.id (tr.take j)).commit e.data) ∨
      (Outdated (history p.call.id (tr.take j)) u ∧ reply = emit .nack ∧
        t.post.host.server.blocks = t.pre.host.server.blocks) := by
  have hu : u < 0x80000000 := Nat.lt_of_le_of_lt hcopy.le hbound
  have heq : it.revision = e.revision ↔ u = (history p.call.id (tr.take j)).version := by
    rw [hcopy.revision, h.recorded.revision, WrapCounter.ofNat_eq_iff hbound hu]
    exact eq_comm
  have hserved := h.served
  rw [hcall] at hserved
  rcases hserved.write_reply h.block_named with ⟨hr, ho, hblock⟩ | ⟨hr, ho, hblocks⟩
  · refine Or.inl ⟨heq.mp hr, Outcome.send.inj (h.outcome.symm.trans ho), ?_⟩
    rw [← h.server, Message.decoded_id, BlockLocal.toBlock_id, h.named] at hblock
    have hcommit := committed_of_next h.block hblock (by
      rw [hr]
      rfl)
    rw [history_take_succ _ h.place, hcommit, hshallow]
    rfl
  · refine Or.inr ⟨?_, Outcome.send.inj (h.outcome.symm.trans ho), ?_⟩
    · exact Nat.lt_of_le_of_ne hcopy.le (fun hcurrent => hr (heq.mpr hcurrent))
    · rw [h.server, hblocks]

/-- A wait is answered when the copy is behind. -/
theorem wait_copy (h : Service D tr c p reply client j t e it sec)
    (hcopy : Copy (history p.call.id (tr.take j)) x e u)
    (hcall : p.call.type = .wait) :
    Outdated (history p.call.id (tr.take j)) u ∧ reply = emit .ack := by
  have hserved := h.served
  rw [hcall] at hserved
  obtain ⟨hack, hne⟩ := hserved.wait_reply h.outcome h.block_named
  refine ⟨Nat.lt_of_le_of_ne hcopy.le ?_, hack⟩
  intro hcurrent
  refine hne ?_
  rw [h.recorded.revision, ← hcurrent, ← hcopy.revision]
  rfl

end Replies

/-! ## The invariant -/

/-- Client `c` keeps copies of block `k`, and knows their content while it has mapped the
    block. -/
structure Tracks (tr : Trace ι) (s : System ι) (c : ι) (k : Int32) : Prop where
  copy : ∀ e, (s.link c).client.blocks k = some e →
    ∃ u, Copy (history k tr) (lastExchanged c k tr) e u
  absent : (s.link c).client.blocks k = none →
    mapped c k tr = false ∧ lastExchanged c k tr = none
  content : mapped c k tr = true → (lastExchanged c k tr).isSome = true

theorem start_tracks (D : Deployment ι) (c : ι) (k : Int32) : Tracks [] D.start c k where
  copy := fun _ he => nomatch he
  absent := fun _ => ⟨rfl, rfl⟩
  content := fun hm => nomatch hm

/-- A step that completes no call on the block and leaves the entry alone. -/
theorem Tracks.keep {tr : Trace ι} {s s' : System ι} {c : ι} {k : Int32}
    {t : Entry (System ι) (Event ι)} (h : Tracks tr s c k) (hnone : completed c k t = none)
    (hblocks : (s'.link c).client.blocks k = (s.link c).client.blocks k) :
    Tracks (tr ++ [t]) s' c k := by
  have hm : mapped c k (tr ++ [t]) = mapped c k tr := by rw [mapped_snoc, hnone]; rfl
  have hx : lastExchanged c k (tr ++ [t]) = lastExchanged c k tr := by
    rw [lastExchanged_snoc, hnone]
    rfl
  constructor
  · intro e he
    rw [hblocks] at he
    obtain ⟨u, hcopy⟩ := h.copy e he
    rw [hx]
    exact ⟨u, hcopy.extends (history_append k tr [t])⟩
  · intro he
    rw [hblocks] at he
    rw [hm, hx]
    exact h.absent he
  · rw [hm, hx]
    exact h.content

/-- A step after which the client has the entry `e`. -/
theorem Tracks.of_entry {tr : Trace ι} {s : System ι} {c : ι} {k : Int32} {e : BlockLocal}
    {u : Nat} (he : (s.link c).client.blocks k = some e)
    (hcopy : Copy (history k tr) (lastExchanged c k tr) e u)
    (hcontent : mapped c k tr = true → (lastExchanged c k tr).isSome = true) :
    Tracks tr s c k where
  copy := fun e' he' => by
    obtain rfl := Option.some.inj (he.symm.trans he')
    exact ⟨u, hcopy⟩
  absent := fun hnone => by
    rw [he] at hnone
    exact nomatch hnone
  content := hcontent

/-- A call that ends in a NACK: the entry is marked invalid or left alone. -/
theorem tracks_nack {tr : Trace ι} {s s' : System ι} {c : ι} {p : Pending} {tag : Nat}
    {reply : Node} {e : BlockLocal} {u : Nat} (h : Tracks tr s c p.call.id)
    (hcopy : Copy (history p.call.id tr) (lastExchanged c p.call.id tr) e u)
    (hentry : (s'.link c).client.blocks p.call.id = some (p.call.onNack e))
    (hbehind : p.call.type = .write → Outdated (history p.call.id tr) u) :
    Tracks (tr ++ [⟨s, .received c p tag reply (some (-5)), s'⟩]) s' c p.call.id := by
  have hnone : completed c p.call.id ⟨s, .received c p tag reply (some (-5)), s'⟩ = none := by
    simp [completed]
  have hgrow := hcopy.extends
    (history_append p.call.id tr [⟨s, .received c p tag reply (some (-5)), s'⟩])
  refine Tracks.of_entry hentry (u := u) ?_ ?_
  · rw [lastExchanged_snoc, hnone]
    show Copy _ (lastExchanged c p.call.id tr) _ u
    cases hcall : p.call with
    | write id =>
        rw [hcall] at hgrow hbehind
        exact { hgrow with
          invalid := fun _ => (hbehind rfl).extends (history_append _ tr _) }
    | map id address => rwa [hcall] at hgrow
    | unmap id => rwa [hcall] at hgrow
    | update id => rwa [hcall] at hgrow
    | wait id => rwa [hcall] at hgrow
  · rw [mapped_snoc, lastExchanged_snoc, hnone]
    exact h.content

/-- A call that ends with `0`. -/
theorem tracks_ack {tr : Trace ι} {s s' : System ι} {c : ι} {p : Pending} {tag : Nat}
    {reply : Node} {e' : BlockLocal} {u : Nat}
    (hentry : (s'.link c).client.blocks p.call.id = some e')
    (hcopy : Copy (history p.call.id tr)
      (exchangedBy (lastExchanged c p.call.id tr) (some (p, reply))) e' u)
    (hcontent : mappedBy (mapped c p.call.id tr) (some (p, reply)) = true →
      (exchangedBy (lastExchanged c p.call.id tr) (some (p, reply))).isSome = true) :
    Tracks (tr ++ [⟨s, .received c p tag reply (some 0), s'⟩]) s' c p.call.id := by
  have hdone := completed_received c p tag reply s s'
  refine Tracks.of_entry hentry (u := u) ?_ ?_
  · rw [lastExchanged_snoc, hdone]
    exact hcopy.extends (history_append p.call.id tr _)
  · rw [mapped_snoc, lastExchanged_snoc, hdone]
    exact hcontent

/-- The two counts an entry's revision may stand for are one. -/
theorem Copy.unique {cell cell' : Cell Data} {x x' : Option Data}
    {e : BlockLocal} {u u' : Nat} (h : Copy cell x e u) (h' : Copy cell' x' e u')
    (hb : cell.version < 0x80000000) (hb' : cell'.version < 0x80000000) : u = u' := by
  have hr := h.revision.symm.trans h'.revision
  exact (WrapCounter.ofNat_eq_iff (Nat.lt_of_le_of_lt h.le hb)
    (Nat.lt_of_le_of_lt h'.le hb')).mp hr

/-! ## The receipt of a reply -/

/-- A call on a hosted block reads its own reply and returns: `old` is what its entry was
    worth when the reply was made and `now` what it is worth when it is read. The entry is
    the same, the client being frozen, and so is the count its revision stands for. -/
structure Receipt (D : Deployment ι) (tr : Trace ι) (s s' : System ι) (c : ι) (p : Pending)
    (reply : Node) (code : Int) (j : Nat) (t : Entry (System ι) (Event ι)) (e : BlockLocal)
    (it : BlockServer) (sec : Section) (u : Nat) : Prop where
  tracks : Tracks tr s c p.call.id
  service : Service D tr c p reply (s.link c).client j t e it sec
  bound : (history p.call.id tr).version < 0x80000000
  old : ∃ x, Copy (history p.call.id (tr.take j)) x e u
  now : Copy (history p.call.id tr) (lastExchanged c p.call.id tr) e u
  recv : (s.link c).client.receive p.call (some reply) = .ok (code, (s'.link c).client)

namespace Receipt

variable {D : Deployment ι} {tr : Trace ι} {s s' : System ι} {c : ι} {p : Pending}
  {reply : Node} {code : Int} {j : Nat} {t : Entry (System ι) (Event ι)} {e : BlockLocal}
  {it : BlockServer} {sec : Section} {u : Nat}

/-- The cell grew from the service to the receipt. -/
theorem grow (h : Receipt D tr s s' c p reply code j t e it sec u) :
    (history p.call.id (tr.take j)).Extends (history p.call.id tr) :=
  h.service.cell_le.1.trans h.service.cell_le.2

theorem bound_old (h : Receipt D tr s s' c p reply code j t e it sec u) :
    (history p.call.id (tr.take j)).version < 0x80000000 :=
  Nat.lt_of_le_of_lt h.grow.version_le h.bound

/-- A NACK. -/
theorem of_nack (h : Receipt D tr s s' c p (emit .nack) code j t e it sec u) :
    code = -5 ∧
      (s'.link c).client.blocks p.call.id = some (p.call.onNack e) := by
  have hrecv := h.recv
  rw [Client.receive_nack h.service.entry (Message.type_emit .nack)] at hrecv
  obtain ⟨hcode, hclient⟩ := Prod.mk.inj (Except.ok.inj hrecv)
  exact ⟨hcode.symm, by rw [← hclient]; exact Client.setBlock_same ..⟩

/-- An ACK without a block, to a call that needs none. -/
theorem of_ack (h : Receipt D tr s s' c p (emit .ack) code j t e it sec u)
    (hu : p.call.usesBlock = false) (b : BlockServer) :
    code = 0 ∧ (s'.link c).client.blocks p.call.id = p.call.onAck e b := by
  have hrecv := h.recv
  rw [Client.receive_ack (b := b) (m := Message.ofNode (emit .ack)) h.service.entry
    (by simp) (fun hu' => by rw [hu] at hu'; exact nomatch hu')] at hrecv
  obtain ⟨hcode, hclient⟩ := Prod.mk.inj (Except.ok.inj hrecv)
  exact ⟨hcode.symm, by rw [← hclient]; exact Client.setBlock_same ..⟩

/-- An ACK with a block. -/
theorem of_block {b : Block} {shallow : Bool}
    (h : Receipt D tr s s' c p (emitBlock .ack b shallow) code j t e it sec u) :
    code = 0 ∧ (s'.link c).client.blocks p.call.id
      = p.call.onAck e (Message.decoded b shallow) := by
  have hrecv := h.recv
  rw [Client.receive_ack h.service.entry (by simp)
    (fun _ => Message.deref_emitBlock .ack b shallow)] at hrecv
  obtain ⟨hcode, hclient⟩ := Prod.mk.inj (Except.ok.inj hrecv)
  exact ⟨hcode.symm, by rw [← hclient]; exact Client.setBlock_same ..⟩

/-- **What an update does**: it takes over the server's block, or finds the copy
    current and leaves it. -/
theorem of_update (h : Receipt D tr s s' c p reply code j t e it sec u) {id : Int32}
    (hcall : p.call = .update id) :
    code = 0 ∧
      ((e.revision ≠ it.revision ∧ reply = emitBlock .ack it.toBlock false ∧
          (s'.link c).client.blocks p.call.id
            = some ((e.assign (Message.decoded it.toBlock false)).setValid true)) ∨
        (e.valid = true ∧ e.revision = it.revision ∧
          reply = emitBlock .ack it.toBlock true ∧
          (s'.link c).client.blocks p.call.id = some e)) := by
  obtain ⟨x, hold⟩ := h.old
  rcases update_copy h.service hold h.bound_old (by rw [hcall]; rfl) with
    ⟨-, hne, hreply⟩ | ⟨-, hvalid, heq, hreply⟩
  · subst hreply
    obtain ⟨rfl, hentry⟩ := h.of_block
    have honack : p.call.onAck e (Message.decoded it.toBlock false)
        = some ((e.assign (Message.decoded it.toBlock false)).setValid true) := by
      rw [hcall]
      exact congrArg some (if_pos hne)
    exact ⟨rfl, Or.inl ⟨hne, rfl, hentry.trans honack⟩⟩
  · subst hreply
    obtain ⟨rfl, hentry⟩ := h.of_block
    have honack : p.call.onAck e (Message.decoded it.toBlock true) = some e := by
      rw [hcall]
      exact congrArg some (if_neg (not_not_intro heq))
    exact ⟨rfl, Or.inr ⟨hvalid, heq, rfl, hentry.trans honack⟩⟩

/-- What the server held at the service is worth its revision then. -/
theorem fresh (h : Receipt D tr s s' c p reply code j t e it sec u) :
    Coherent (history p.call.id tr) (history p.call.id (tr.take j)).version it.data := by
  rw [h.service.recorded.data]
  exact (coherent_current _).extends h.grow

/-- An entry that took over the server's block. -/
theorem copy_taken (h : Receipt D tr s s' c p reply code j t e it sec u) {e' : BlockLocal}
    (hrev : e'.revision = it.revision) (hvalid : e'.valid = true) :
    Copy (history p.call.id tr) (some it.data) e'
      (history p.call.id (tr.take j)).version where
  revision := hrev.trans h.service.recorded.revision
  le := h.grow.version_le
  invalid := fun hv => by rw [hvalid] at hv; exact nomatch hv
  content := fun d hd => by rw [← Option.some.inj hd]; exact h.fresh

/-- A map. -/
theorem tracks_map (h : Receipt D tr s s' c p reply code j t e it sec u) (tag : Nat)
    {id : Int32} {address : Data} (hcall : p.call = .map id address) :
    Tracks (tr ++ [⟨s, .received c p tag reply (some code), s'⟩]) s' c p.call.id := by
  have htype : p.call.type = .map := by rw [hcall]; rfl
  rcases h.service.map htype with hreply | hreply
  · subst hreply
    obtain ⟨rfl, hentry⟩ := h.of_block
    have honack : p.call.onAck e (Message.decoded it.toBlock false)
        = some (e.assign (Message.decoded it.toBlock false)) := by rw [hcall]; rfl
    have hx : exchangedBy (lastExchanged c p.call.id tr)
        (some (p, emitBlock .ack it.toBlock false)) = some it.data := by
      simp [exchangedBy, hcall]
    rw [honack] at hentry
    -- the entry is new and takes over what the server sent
    refine tracks_ack hentry (u := (history p.call.id (tr.take j)).version) ?_ ?_
    · rw [hx]
      refine h.copy_taken rfl ?_
      rw [h.service.created id address hcall]
      rfl
    · intro _
      rw [hx]
      rfl
  · subst hreply
    obtain ⟨rfl, hentry⟩ := h.of_nack
    exact tracks_nack h.tracks h.now hentry
      (fun hw => by rw [htype] at hw; exact nomatch hw)

/-- An unmap. -/
theorem tracks_unmap (h : Receipt D tr s s' c p reply code j t e it sec u) (tag : Nat)
    {id : Int32} (hcall : p.call = .unmap id) :
    Tracks (tr ++ [⟨s, .received c p tag reply (some code), s'⟩]) s' c p.call.id := by
  have htype : p.call.type = .unmap := by rw [hcall]; rfl
  rcases h.service.unmap htype with hreply | hreply
  · subst hreply
    obtain ⟨rfl, hentry⟩ := h.of_ack (by rw [hcall]; rfl) (BlockServer.create 0)
    have honack : p.call.onAck e (BlockServer.create 0) = none := by rw [hcall]; rfl
    rw [honack] at hentry
    have hdone := completed_received c p tag (emit .ack) s s'
    have hm : mappedBy (mapped c p.call.id tr) (some (p, emit .ack)) = false := by
      simp [mappedBy, hcall]
    have hx : exchangedBy (lastExchanged c p.call.id tr) (some (p, emit .ack)) = none := by
      simp [exchangedBy, hcall]
    constructor
    · intro e' he'
      rw [hentry] at he'
      exact nomatch he'
    · intro _
      rw [mapped_snoc, lastExchanged_snoc, hdone]
      exact ⟨hm, hx⟩
    · intro hmapped
      rw [mapped_snoc, hdone, hm] at hmapped
      exact nomatch hmapped
  · subst hreply
    obtain ⟨rfl, hentry⟩ := h.of_nack
    exact tracks_nack h.tracks h.now hentry
      (fun hw => by rw [htype] at hw; exact nomatch hw)

/-- An update. -/
theorem tracks_update (h : Receipt D tr s s' c p reply code j t e it sec u) (tag : Nat)
    {id : Int32} (hcall : p.call = .update id) :
    Tracks (tr ++ [⟨s, .received c p tag reply (some code), s'⟩]) s' c p.call.id := by
  rcases h.of_update hcall with
    ⟨rfl, ⟨-, hreply, hentry⟩ | ⟨-, -, hreply, hentry⟩⟩
  · subst hreply
    have hx : exchangedBy (lastExchanged c p.call.id tr)
        (some (p, emitBlock .ack it.toBlock false)) = some it.data := by
      simp [exchangedBy, hcall]
    refine tracks_ack hentry (u := (history p.call.id (tr.take j)).version) ?_ ?_
    · rw [hx]
      exact h.copy_taken rfl rfl
    · intro _
      rw [hx]
      rfl
  · subst hreply
    -- nothing was exchanged, and nothing had to be
    have hx : exchangedBy (lastExchanged c p.call.id tr)
        (some (p, emitBlock .ack it.toBlock true)) = lastExchanged c p.call.id tr := by
      simp [exchangedBy, hcall]
    have hm : mappedBy (mapped c p.call.id tr) (some (p, emitBlock .ack it.toBlock true))
        = mapped c p.call.id tr := by simp [mappedBy, hcall]
    refine tracks_ack hentry (u := u) ?_ ?_
    · rw [hx]
      exact h.now
    · rw [hx, hm]
      exact h.tracks.content

/-- A write. -/
theorem tracks_write (h : Receipt D tr s s' c p reply code j t e it sec u) (tag : Nat)
    {id : Int32} (hcall : p.call = .write id) :
    Tracks (tr ++ [⟨s, .received c p tag reply (some code), s'⟩]) s' c p.call.id := by
  obtain ⟨x, hold⟩ := h.old
  have htype : p.call.type = .write := by rw [hcall]; rfl
  have hshallow : p.call.shallow = false := by rw [hcall]; rfl
  rcases write_copy h.service hold h.bound_old htype hshallow with
    ⟨hcurrent, hreply, hcommit⟩ | ⟨hbehind, hreply, -⟩
  · subst hreply
    obtain ⟨rfl, hentry⟩ := h.of_ack (by rw [hcall]; rfl) (BlockServer.create 0)
    have honack : p.call.onAck e (BlockServer.create 0) = some e.addRevision := by
      rw [hcall]
      rfl
    have hx : exchangedBy (lastExchanged c p.call.id tr) (some (p, emit .ack))
        = some e.data := by
      simp [exchangedBy, hcall, h.service.request, Call.shallow]
    -- the commit of the service is in the history by now
    have hnew : Coherent (history p.call.id tr) (u + 1) e.data := by
      have hafter := h.service.cell_le.2
      rw [hcommit] at hafter
      rw [hcurrent]
      exact (coherent_commit _ _).extends hafter
    rw [honack] at hentry
    refine tracks_ack hentry (u := u + 1) ?_ ?_
    · rw [hx]
      refine ⟨?_, hnew.le_version, ?_, ?_⟩
      · rw [WrapCounter.ofNat_succ, ← hold.revision]
        rfl
      · intro hv
        have hvalid : e.valid = true := h.service.valid (by rw [hcall]; rfl)
        exact Bool.noConfusion (hv.symm.trans hvalid)
      · intro d hd
        rw [← Option.some.inj hd]
        exact hnew
    · intro _
      rw [hx]
      rfl
  · subst hreply
    obtain ⟨rfl, hentry⟩ := h.of_nack
    exact tracks_nack h.tracks h.now hentry (fun _ => hbehind.extends h.grow)

/-- A wait. -/
theorem tracks_wait (h : Receipt D tr s s' c p reply code j t e it sec u) (tag : Nat)
    {id : Int32} (hcall : p.call = .wait id) :
    Tracks (tr ++ [⟨s, .received c p tag reply (some code), s'⟩]) s' c p.call.id := by
  obtain ⟨x, hold⟩ := h.old
  obtain ⟨hbehind, hreply⟩ := wait_copy h.service hold (by rw [hcall]; rfl)
  subst hreply
  obtain ⟨rfl, hentry⟩ := h.of_ack (by rw [hcall]; rfl) (BlockServer.create 0)
  have honack : p.call.onAck e (BlockServer.create 0) = some (e.setValid false) := by
    rw [hcall]
    rfl
  have hx : exchangedBy (lastExchanged c p.call.id tr) (some (p, emit .ack))
      = lastExchanged c p.call.id tr := by
    simp [exchangedBy, hcall]
  have hm : mappedBy (mapped c p.call.id tr) (some (p, emit .ack))
      = mapped c p.call.id tr := by simp [mappedBy, hcall]
  rw [honack] at hentry
  refine tracks_ack hentry (u := u) ?_ ?_
  · rw [hx]
    -- the content stays, only the flag goes
    have hnow := h.now
    exact { hnow with invalid := fun _ => hbehind.extends h.grow }
  · rw [hx, hm]
    exact h.tracks.content

/-- **A receipt keeps the copies**, whichever call it ends. -/
theorem tracks_after (h : Receipt D tr s s' c p reply code j t e it sec u) (tag : Nat) :
    Tracks (tr ++ [⟨s, .received c p tag reply (some code), s'⟩]) s' c p.call.id := by
  cases hcall : p.call with
  | map id address => exact hcall ▸ h.tracks_map tag hcall
  | unmap id => exact hcall ▸ h.tracks_unmap tag hcall
  | update id => exact hcall ▸ h.tracks_update tag hcall
  | write id => exact hcall ▸ h.tracks_write tag hcall
  | wait id => exact hcall ▸ h.tracks_wait tag hcall

end Receipt

/-- When no call timed out and the copies have been in order all along, every call that
    returns after reading a reply has a receipt. -/
theorem receipt_of_tracks {D : Deployment ι} {tr : Trace ι} {s s' : System ι}
    (hrun : SysRun D tr s) (hno : NoTimeout tr) {c : ι} {p : Pending} {tag : Nat}
    {reply : Node} {code : Int} (hk : p.call.id ∈ D.blocksId)
    (hbound : (history p.call.id tr).version < 0x80000000)
    (htracks : Tracks tr s c p.call.id)
    (hall : ∀ i t, tr[i]? = some t → Tracks (tr.take i) t.pre c p.call.id)
    (hs : Step D s (.received c p tag reply (some code)) s') :
    ∃ j t e it sec u, Receipt D tr s s' c p reply code j t e it sec u := by
  obtain ⟨hp, hrep⟩ := own_reply hrun hno hs
  obtain ⟨j, t, e, it, sec, hserv⟩ := service hrun hno hk hp hrep
  have hgrow := hserv.cell_le.1.trans hserv.cell_le.2
  obtain ⟨u, hnow⟩ := htracks.copy e hserv.entry
  obtain ⟨u', hold⟩ := (hall j t hserv.place).copy e (by rw [hserv.frozen]; exact hserv.entry)
  -- the entry did not change, so its revision stands for one count
  obtain rfl : u' = u :=
    hold.unique hnow (Nat.lt_of_le_of_lt hgrow.version_le hbound) hbound
  obtain ⟨-, rest, client, -, hrecv, hs'⟩ := received_inv hs
  refine ⟨j, t, e, it, sec, u', htracks, hserv, hbound, ⟨_, hold⟩, hnow, ?_⟩
  rw [hs', System.setLink_self]
  exact hrecv

/-- A call that sends its request: a map makes a new entry, where nothing was and nothing
    was exchanged; the others leave the table alone. -/
theorem tracks_sent {tr : Trace ι} {s s' : System ι} {c : ι} {k : Int32} {p : Pending}
    {client : Client} {e : BlockLocal} (h : Tracks tr s c k)
    (hreq : Client.Requests (s.link c).client p.call p.req client e)
    (hclient : (s'.link c).client = client) :
    Tracks (tr ++ [⟨s, .sent c p, s'⟩]) s' c k := by
  by_cases hmap : p.call.type = .map
  -- only the mapped block gets an entry
  · by_cases hkp : k = p.call.id
    · obtain ⟨id, address, hcall⟩ := Call.eq_map hmap
      obtain rfl : k = id := by rw [hkp, hcall]; rfl
      rw [hcall] at hreq
      obtain ⟨hfree, rfl⟩ := hreq.created k address rfl
      obtain ⟨hm, hx⟩ := h.absent hfree
      have hm' : mapped c k (tr ++ [⟨s, .sent c p, s'⟩]) = false := by
        rw [mapped_snoc]
        exact hm
      have hx' : lastExchanged c k (tr ++ [⟨s, .sent c p, s'⟩]) = none := by
        rw [lastExchanged_snoc]
        exact hx
      refine Tracks.of_entry (u := 0) (e := BlockLocal.create k address) ?_ ?_ ?_
      · rw [hclient]
        exact hreq.entry
      · rw [hx']
        exact copy_create _ k address
      · rw [hm']
        exact fun hf => nomatch hf
    · exact h.keep rfl (by rw [hclient]; exact hreq.others k hkp)
  · exact h.keep rfl (by rw [hclient, hreq.same hmap])

/-- **Every step keeps the copies**, if they have been in order at every moment before. -/
theorem step_tracks {D : Deployment ι} {tr : Trace ι} {s s' : System ι} {e : Event ι}
    {c : ι} {k : Int32} (hrun : SysRun D tr s) (hno : NoTimeout (tr ++ [⟨s, e, s'⟩]))
    (hk : k ∈ D.blocksId) (hbound : (history k tr).version < 0x80000000)
    (h : Tracks tr s c k) (hall : ∀ i t, tr[i]? = some t → Tracks (tr.take i) t.pre c k)
    (hs : Step D s e s') : Tracks (tr ++ [⟨s, e, s'⟩]) s' c k := by
  have hno' : NoTimeout tr := fun t ht => hno t (List.mem_append_left _ ht)
  cases client_cases hs c with
  | quiet hclient _ hevent =>
      refine h.keep (completed_eq_none ?_) (by rw [hclient])
      intro p tag reply hev
      exact absurd hev (hevent p tag reply 0)
  | sent _ _ hsend hclient _ =>
      obtain ⟨e, hreq⟩ := Client.send_sent hsend
      exact tracks_sent h hreq hclient
  | @poked id e d _ _ he hclient =>
      by_cases hkid : k = id
      · subst hkid
        obtain ⟨u, hcopy⟩ := h.copy e he
        refine Tracks.of_entry (u := u) (e := { e with data := d }) ?_ ?_ ?_
        · rw [hclient]
          exact Client.setBlock_same ..
        · rw [lastExchanged_snoc]
          exact (hcopy.poke d).extends (history_append k tr _)
        · rw [mapped_snoc, lastExchanged_snoc]
          exact h.content
      · refine h.keep rfl ?_
        rw [hclient]
        exact Client.setBlock_other _ _ hkid
  | @received p tag reply code client hp hrecv hclient _ =>
      by_cases hkp : k = p.call.id
      · subst hkp
        obtain ⟨j, t, e, it, sec, u, hrec⟩ :=
          receipt_of_tracks hrun hno' hk hbound h hall hs
        exact hrec.tracks_after tag
      · -- a call on another block
        refine h.keep (completed_eq_none ?_) ?_
        · intro p' tag' reply' hev
          obtain ⟨-, rfl, -, -, -⟩ := Event.received.inj hev
          exact fun heq => hkp heq.symm
        · obtain ⟨e, he, -⟩ := pending_requests hrun hp
          rw [hclient]
          exact receive_other he hrecv hkp
  | @timedOut p => exact absurd rfl (hno ⟨s, .timedOut c p, s'⟩ (by simp) c p)

/-- **Every client keeps copies**, in every reachable state. -/
theorem run_tracks {D : Deployment ι} {tr : Trace ι} {s : System ι} (hrun : SysRun D tr s)
    (hno : NoTimeout tr) {k : Int32} (hk : k ∈ D.blocksId)
    (hbound : (history k tr).version < 0x80000000) (c : ι) : Tracks tr s c k := by
  have hind := hrun.traceInduction
    (J := fun tr s => NoTimeout tr → (history k tr).version < 0x80000000 → Tracks tr s c k)
    (fun _ _ => start_tracks D c k) ?_
  · exact hind.1 hno hbound
  · intro tr s e s' hpre hs ih hall hno hbound
    have hno' : NoTimeout tr := fun t ht => hno t (List.mem_append_left _ ht)
    have hbound' : (history k tr).version < 0x80000000 :=
      Nat.lt_of_le_of_lt (history_append k tr _).version_le hbound
    refine step_tracks hpre hno hk hbound' (ih hno' hbound') ?_ hs
    intro i t hi
    exact hall i t hi (fun t' ht' => hno' t' (List.mem_of_mem_take ht'))
      (Nat.lt_of_le_of_lt (history_take k tr i).version_le hbound')

/-- Every call that returns after reading a reply has a receipt. -/
theorem receipt {D : Deployment ι} {tr : Trace ι} {s s' : System ι} (hrun : SysRun D tr s)
    (hno : NoTimeout tr) {c : ι} {p : Pending} {tag : Nat} {reply : Node} {code : Int}
    (hk : p.call.id ∈ D.blocksId) (hbound : (history p.call.id tr).version < 0x80000000)
    (hs : Step D s (.received c p tag reply (some code)) s') :
    ∃ j t e it sec u, Receipt D tr s s' c p reply code j t e it sec u := by
  refine receipt_of_tracks hrun hno hk hbound (run_tracks hrun hno hk hbound c) ?_ hs
  intro i t hi
  exact run_tracks (hrun.take hi) (fun t' ht' => hno t' (List.mem_of_mem_take ht')) hk
    (Nat.lt_of_le_of_lt (history_take _ tr i).version_le hbound) c

/-- **Coherence of local copies.** Whoever has mapped a block is at a revision the server
    has been at, and the content last exchanged is what the server held at that
    revision. -/
theorem coherence {D : Deployment ι} {tr : Trace ι} {s : System ι} (hrun : SysRun D tr s)
    (hno : NoTimeout tr) {k : Int32} (hk : k ∈ D.blocksId)
    (hwrites : acceptedWrites k tr < 0x7fffffff) {c : ι} (hmapped : mapped c k tr = true) :
    ∃ e it d, (s.link c).client.blocks k = some e ∧
      s.host.server.blocks k = some it ∧
      0 ≤ e.revision.toInt ∧ e.revision.toInt ≤ it.revision.toInt ∧
      lastExchanged c k tr = some d ∧
      (history k tr).at? e.revision.toInt.toNat = some d := by
  have hbound : (history k tr).version < 0x80000000 := by
    rw [version_eq hrun hk]
    omega
  have h := run_tracks hrun hno hk hbound c
  obtain ⟨it, hit, hrec⟩ := run_recorded hrun hk
  cases he : (s.link c).client.blocks k with
  | none =>
      rw [(h.absent he).1] at hmapped
      exact nomatch hmapped
  | some e =>
      obtain ⟨u, hcopy⟩ := h.copy e he
      obtain ⟨d, hd⟩ := Option.isSome_iff_exists.mp (h.content hmapped)
      have hu : e.revision.toInt = u := by
        rw [hcopy.revision]
        exact WrapCounter.toInt_ofNat (Nat.lt_of_le_of_lt hcopy.le hbound)
      have hv : it.revision.toInt = (history k tr).version := by
        rw [hrec.revision]
        exact WrapCounter.toInt_ofNat hbound
      refine ⟨e, it, d, rfl, hit, ?_, ?_, hd, ?_⟩
      · rw [hu]
        exact Int.natCast_nonneg u
      · rw [hu, hv]
        exact Int.ofNat_le.mpr hcopy.le
      · rw [hu, Int.toNat_natCast]
        exact hcopy.content d hd

/-- Both clients map block 7, one fills its memory and writes, the other updates. -/
def writeThenUpdate : List (Action Bool) :=
  [.call false (.map 7 (Data.memset 1)), .serve false, .receive false,
   .call true (.map 7 (Data.memset 2)), .serve true, .receive true,
   .poke true 7 (Data.memset 65), .call true (.write 7), .serve true, .receive true,
   .call false (.update 7), .serve false, .receive false]

theorem coherence_writeThenUpdate :
    ∃ tr s e it d, SysRun twoClients tr s ∧ acceptedWrites 7 tr = 1 ∧
      (s.link false).client.blocks 7 = some e ∧ s.host.server.blocks 7 = some it ∧
      0 ≤ e.revision.toInt ∧ e.revision.toInt ≤ it.revision.toInt ∧
      lastExchanged false 7 tr = some d ∧
      (history 7 tr).at? e.revision.toInt.toNat = some d := by
  obtain ⟨q, hq, hfacts⟩ := Option.map_eq_some_iff.mp (show
    (exec (next twoClients) twoClients.start writeThenUpdate).map
      (fun q => (decide (NoTimeout q.1), acceptedWrites 7 q.1, mapped false 7 q.1))
        = some (true, 1, true) by decide +kernel)
  obtain ⟨hno, hfacts⟩ := Prod.mk.inj hfacts
  obtain ⟨hwrites, hmapped⟩ := Prod.mk.inj hfacts
  have hrun := run_of_exec _ (DmSystem.next_sound _) writeThenUpdate _ hq
  obtain ⟨e, it, d, h⟩ := coherence hrun (of_decide_eq_true hno) (k := 7) (by decide)
    (by rw [hwrites]; decide) hmapped
  exact ⟨q.1, q.2, e, it, d, hrun, hwrites, h⟩

end DmCoherence
