import DistributedMemory.DmLifetimeProofs

/-!
# Mapped clients — the vector as a set

`mapped_clients` is a vector that is searched before anything is put in or taken out, and
that an accepted write leaves in its place when it assigns the message's block. What the
threads make of it in any run is what the history of acknowledgements says.

* **`remaps`** — the acknowledged MAPs and UNMAPs of a block under one id.
* **`bookkeeping`** — the vector is the set of ids whose last one was a MAP.
-/

namespace DmMapped

open DmBlock DmMessage DmServer DmHost LabelledRun
open DmLifetime (remapOf held Listed step_listed party)

variable {ι : Type} [DecidableEq ι]

/-- A run of the server. -/
abbrev History (ι : Type) := List (Entry (Host ι) (HostEvent ι))

/-- What the step acknowledges under the id: a MAP (`true`) or an UNMAP (`false`) of block
    `k`. -/
def remapUnder (clientId : ι → String) (k : Int32) (id : String) (e : HostEvent ι) :
    Option Bool :=
  match remapOf k (.handled e) with
  | some (c, v) => if clientId c = id then some v else none
  | none => none

/-- The acknowledged MAPs and UNMAPs of block `k` under the id, in order. -/
def remaps (clientId : ι → String) (k : Int32) (id : String) (tr : History ι) : List Bool :=
  tr.filterMap fun t => remapUnder clientId k id t.event

/-- Who holds the block under the id after the run. -/
def heldAfter (clientId : ι → String) (k : Int32) (id : String) (tr : History ι) : Option ι :=
  tr.foldl (fun o t => held clientId id o (remapOf k (.handled t.event))) none

omit [DecidableEq ι] in
theorem remaps_snoc (clientId : ι → String) (k : Int32) (id : String) (tr : History ι)
    (t : Entry (Host ι) (HostEvent ι)) :
    remaps clientId k id (tr ++ [t]) =
      remaps clientId k id tr ++ (remapUnder clientId k id t.event).toList := by
  rw [remaps, List.filterMap_append, remaps]
  cases h : remapUnder clientId k id t.event <;> simp [h]

omit [DecidableEq ι] in
theorem heldAfter_snoc (clientId : ι → String) (k : Int32) (id : String) (tr : History ι)
    (t : Entry (Host ι) (HostEvent ι)) :
    heldAfter clientId k id (tr ++ [t]) =
      held clientId id (heldAfter clientId k id tr) (remapOf k (.handled t.event)) := by
  rw [heldAfter, List.foldl_append]
  rfl

omit [DecidableEq ι] in
/-- Somebody holds the block exactly if the last of them was a MAP. -/
theorem heldAfter_iff (clientId : ι → String) (k : Int32) (id : String) (tr : History ι) :
    (∃ c, heldAfter clientId k id tr = some c) ↔
      (remaps clientId k id tr).getLast? = some true := by
  induction tr using List.reverseRecOn with
  | nil =>
      constructor
      · rintro ⟨c, h⟩
        cases h
      · intro h
        cases h
  | append_singleton tr t ih =>
      rw [heldAfter_snoc, remaps_snoc]
      cases hr : remapOf k (.handled t.event) with
      | none =>
          have hno : remapUnder clientId k id t.event = none := by rw [remapUnder, hr]
          rw [hno, Option.toList_none, List.append_nil]
          exact ih
      | some p =>
          obtain ⟨c, v⟩ := p
          rw [held]
          by_cases hc : clientId c = id
          · have hsome : remapUnder clientId k id t.event = some v := by
              rw [remapUnder, hr]
              exact if_pos hc
            rw [if_pos hc, hsome, Option.toList_some, List.getLast?_concat]
            cases v with
            | true => exact iff_of_true ⟨c, rfl⟩ rfl
            | false =>
                refine iff_of_false ?_ (by decide)
                rintro ⟨c', h⟩
                cases h
          · have hno : remapUnder clientId k id t.event = none := by
              rw [remapUnder, hr]
              exact if_neg hc
            rw [if_neg hc, hno, Option.toList_none, List.append_nil]
            exact ih

/-- **Every reachable list** holds the ids whose last acknowledged request was a MAP, each
    once. -/
theorem run_mapped {clientId : ι → String} {blocksId : List Int32} {tr : History ι}
    {h : Host ι} (hrun : Run (Step clientId) (Host.start blocksId) tr h) {k : Int32}
    {it : BlockServer} (hk : h.server.blocks k = some it) :
    Listed it fun id => heldAfter clientId k id tr := by
  induction hrun generalizing it with
  | nil =>
      rw [Host.start, Server.create_blocks] at hk
      split at hk
      · obtain rfl := Option.some.inj hk
        refine ⟨List.nodup_nil, fun id => iff_of_false List.not_mem_nil ?_⟩
        rintro ⟨c, h⟩
        cases h
      · cases hk
  | @snoc tr h h' e hpre hs ih =>
      have hset := run_settled hpre
      cases hold : h.server.blocks k with
      | none =>
          have hsome := DmLedger.step_hosted (k := k) hset hs
          rw [hold, hk] at hsome
          cases hsome
      | some it₀ =>
          obtain ⟨it', hit', hlisted⟩ := step_listed hset hs hold (ih hold)
          obtain rfl := Option.some.inj (hit'.symm.trans hk)
          simp only [heldAfter_snoc]
          exact hlisted

/-- The answer is an acknowledgement. -/
def Acked (ans : Option Node) : Prop := ∃ ack, ans = some ack ∧ (Message.ofNode ack).type = .ack

/-- A section acknowledges if it sends an acknowledgement. -/
theorem acked_answer {sec : Section} {ack : Node} (h : sec.outcome = .send ack) :
    Acked (answer sec) ↔ (Message.ofNode ack).type = .ack := by
  rw [answer, h]
  constructor
  · rintro ⟨ack', heq, hack⟩
    rw [Option.some.inj heq]
    exact hack
  · intro hack
    exact ⟨ack, rfl, hack⟩

/-- The list of every hosted block after the run, and what each step of the run made of the
    lists: `c` is the client whose request the step handles, `it` a hosted block before it. -/
structure Bookkeeping (clientId : ι → String) (tr : History ι) (h : Host ι) : Prop where
  nodup (k : Int32) (it : BlockServer) (hk : h.server.blocks k = some it) :
    it.mappedClients.Nodup
  member (k : Int32) (it : BlockServer) (hk : h.server.blocks k = some it) (id : String) :
    id ∈ it.mappedClients ↔ (remaps clientId k id tr).getLast? = some true
  map (t : Entry (Host ι) (HostEvent ι)) (ht : t ∈ tr) (c : ι) (tag : Nat) (req : Node)
    (ans : Option Node) (hev : t.event = .critical c tag req ans)
    (htype : (Message.ofNode req).type = .map) (b : BlockServer) (m : Message)
    (hm : (Message.ofNode req).deref = .ok (b, m)) (it : BlockServer)
    (hit : t.pre.server.blocks b.id = some it) : Acked ans ↔ clientId c ∉ it.mappedClients
  unmap (t : Entry (Host ι) (HostEvent ι)) (ht : t ∈ tr) (c : ι) (tag : Nat) (req : Node)
    (ans : Option Node) (hev : t.event = .critical c tag req ans)
    (htype : (Message.ofNode req).type = .unmap) (b : BlockServer) (m : Message)
    (hm : (Message.ofNode req).deref = .ok (b, m)) (it : BlockServer)
    (hit : t.pre.server.blocks b.id = some it) : Acked ans ↔ clientId c ∈ it.mappedClients
  others (t : Entry (Host ι) (HostEvent ι)) (ht : t ∈ tr) (k : Int32) (it : BlockServer)
    (hit : t.pre.server.blocks k = some it) :
    ∃ it', t.post.server.blocks k = some it' ∧
      ∀ id, id ≠ clientId (party t.event) → (id ∈ it'.mappedClients ↔ id ∈ it.mappedClients)

/-- A step changes the membership of its own client only. -/
theorem step_others {clientId : ι → String} {h h' : Host ι} {e : HostEvent ι} {k : Int32}
    {it : BlockServer} (hset : Settled h) (hs : Step clientId h e h')
    (hit : h.server.blocks k = some it) :
    ∃ it', h'.server.blocks k = some it' ∧
      ∀ id, id ≠ clientId (party e) → (id ∈ it'.mappedClients ↔ id ∈ it.mappedClients) := by
  cases e with
  | woken c =>
      rw [server_woken hs]
      exact ⟨it, hit, fun _ _ => Iff.rfl⟩
  | critical c tag req ans =>
      obtain ⟨sec, rfl, -, ⟨-, rfl⟩ | ⟨b, m, -, hserved⟩⟩ := critical_cases hset hs
      · exact ⟨it, hit, fun _ _ => Iff.rfl⟩
      · obtain ⟨it', hit', -, hothers, -⟩ := hserved.members hit
        exact ⟨it', hit', hothers⟩

/-- **The bookkeeping is that of a set**, in every run of any clients' requests. -/
theorem bookkeeping {clientId : ι → String} {blocksId : List Int32} {tr : History ι}
    {h : Host ι} (hrun : Run (Step clientId) (Host.start blocksId) tr h) :
    Bookkeeping clientId tr h where
  nodup k it hk := (run_mapped hrun hk).1
  member k it hk id := ((run_mapped hrun hk).2 id).trans (heldAfter_iff clientId k id tr)
  map := by
    intro t ht c tag req ans hev htype b m hm it hit
    obtain ⟨hs, hset⟩ := entry_settled hrun ht
    rw [hev] at hs
    obtain ⟨sec, -, rfl, hserved⟩ := critical_request hset hs htype rfl hm
    rcases hserved.map_reply hit with ⟨hnew, ho⟩ | ⟨hold, ho⟩
    · rw [acked_answer ho, Message.type_emitBlock]
      exact iff_of_true rfl hnew
    · rw [acked_answer ho, Message.type_emit]
      exact iff_of_false (by decide) (not_not_intro hold)
  unmap := by
    intro t ht c tag req ans hev htype b m hm it hit
    obtain ⟨hs, hset⟩ := entry_settled hrun ht
    rw [hev] at hs
    obtain ⟨sec, -, rfl, hserved⟩ := critical_request hset hs htype rfl hm
    rcases hserved.unmap_reply hit with ⟨hold, ho⟩ | ⟨hnew, ho⟩
    · rw [acked_answer ho, Message.type_emit]
      exact iff_of_true rfl hold
    · rw [acked_answer ho, Message.type_emit]
      exact iff_of_false (by decide) hnew
  others := by
    intro t ht k it hit
    obtain ⟨hs, hset⟩ := entry_settled hrun ht
    exact step_others hset hs hit

/-- A MAP, the same MAP again, an accepted write, an UNMAP, and another client's MAP. -/
def mapWriteUnmap : List (HostAction Bool) :=
  [.request false (emitBlock .map ⟨7, 0, none⟩ true),
   .request false (emitBlock .map ⟨7, 0, none⟩ true),
   .request false (emitBlock .write ⟨7, 0, none⟩ true),
   .request false (emitBlock .unmap ⟨7, 0, none⟩ true),
   .request true (emitBlock .map ⟨7, 0, none⟩ true)]

theorem bookkeeping_mapWriteUnmap :
    ∃ tr h, Run (Step fun c : Bool => if c then "10.0.0.2:1" else "10.0.0.1:1")
        (Host.start [7]) tr h ∧ tr.length = 5 ∧
      Bookkeeping (fun c : Bool => if c then "10.0.0.2:1" else "10.0.0.1:1") tr h := by
  obtain ⟨p, hp⟩ := Option.isSome_iff_exists.mp (show (exec
    (next fun c : Bool => if c then "10.0.0.2:1" else "10.0.0.1:1")
    (Host.start [7]) mapWriteUnmap).isSome = true by decide +kernel)
  have hrun := run_of_exec _ (DmHost.next_sound _) mapWriteUnmap _ hp
  refine ⟨p.1, p.2, hrun, ?_, bookkeeping hrun⟩
  have hlen : (exec (next fun c : Bool => if c then "10.0.0.2:1" else "10.0.0.1:1")
    (Host.start [7]) mapWriteUnmap).map (fun q => q.1.length) = some 5 := by
    decide +kernel
  rw [hp] at hlen
  exact Option.some.inj hlen

end DmMapped
