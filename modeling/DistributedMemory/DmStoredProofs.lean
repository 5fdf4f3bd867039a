import DistributedMemory.DmHostProofs

/-!
# Stored data — where the content of a block comes from

An accepted write assigns the decoded block of its message to the stored one, content
included. A message need not carry content; the block decoded from it has zeros then.

* **`FromWriters`** — what a step should do to a block's content: take over the data of an
  acknowledged write, and nothing else.
* **`fromWriters_iff`** — the runs in which every step does.
-/

namespace DmStored

open DmBlock DmMessage DmServer DmHost LabelledRun

variable {ι : Type} [DecidableEq ι]

/-- The step answers a WRITE naming block `k`, with the data `d` in it, with an ACK. -/
def AckedWrite (k : Int32) (e : HostEvent ι) (d : Data) : Prop :=
  ∃ c tag req ack n, e = .critical c tag req (some ack) ∧
    (Message.ofNode req).type = .write ∧ req.block = some n ∧ n.id = k ∧
    carried req = some d ∧ (Message.ofNode ack).type = .ack

/-- After an acknowledged write of block `k` the block holds the data of that write; at any
    other step, a write that carries no data among them, its content stays. -/
def FromWriters (k : Int32) (t : Entry (Host ι) (HostEvent ι)) : Prop :=
  ∀ it it', t.pre.server.blocks k = some it → t.post.server.blocks k = some it' →
    (∀ d, AckedWrite k t.event d → it'.data = d) ∧
    ((∀ d, ¬ AckedWrite k t.event d) → it'.data = it.data)

/-- A WRITE of block `k` that carries no data is served, with the revision the block
    has. -/
def ShallowWrite (k : Int32) (e : HostEvent ι) (it : BlockServer) : Prop :=
  ∃ c tag req ans n, e = .critical c tag req ans ∧ (Message.ofNode req).type = .write ∧
    req.block = some n ∧ n.id = k ∧ n.data = .absent ∧ it.revision = n.readRevision

/-- Whenever such a WRITE is served the block is all zeros already. -/
def ShallowOnZeros (k : Int32) (t : Entry (Host ι) (HostEvent ι)) : Prop :=
  ∀ it, t.pre.server.blocks k = some it → ShallowWrite k t.event it →
    it.data = Data.memset 0

/-- The requests of the run have blocks that decode. -/
def Decodable (tr : List (Entry (Host ι) (HostEvent ι))) : Prop :=
  ∀ t ∈ tr, ∀ c tag req ans, t.event = .critical c tag req ans →
    (Message.ofNode req).decodable = true

omit [DecidableEq ι] in
/-- A step that serves no WRITE and leaves the server as it is. -/
theorem fromWriters_quiet {t : Entry (Host ι) (HostEvent ι)} {k : Int32}
    (hserver : t.post.server = t.pre.server)
    (hno : ∀ c tag req ans, t.event = .critical c tag req ans →
      (Message.ofNode req).type ≠ .write) : FromWriters k t ↔ ShallowOnZeros k t := by
  constructor
  · rintro - it - ⟨c, tag, req, ans, n, hev, htype, -⟩
    exact absurd htype (hno c tag req ans hev)
  · intro _ it it' hit hit'
    rw [hserver] at hit'
    obtain rfl := Option.some.inj (hit.symm.trans hit')
    refine ⟨?_, fun _ => rfl⟩
    rintro d ⟨c, tag, req, ack, n, hev, htype, -⟩
    exact absurd htype (hno c tag req (some ack) hev)

omit [DecidableEq ι] in
/-- A WRITE that the server accepts: what it stores is what the message carries, or
    zeros. -/
theorem fromWriters_accepted {clientId : ι → String} {h h' : Host ι} {c : ι} {tag : Nat}
    {req : Node} {sec : Section} {b it : BlockServer} {m : Message} {k : Int32}
    (hserved : Served h.server (clientId c) b m (Message.ofNode req).type sec)
    (hm : (Message.ofNode req).deref = .ok (b, m)) (hserver : h'.server = sec.server)
    (hdec : (Message.ofNode req).decodable = true) (hit : h.server.blocks k = some it)
    (ha : Accepts it (Message.ofNode req).type b k) :
    FromWriters k ⟨h, .critical c tag req (answer sec), h'⟩ ↔
      ShallowOnZeros k ⟨h, .critical c tag req (answer sec), h'⟩ := by
  obtain ⟨n, hn, -, hid, hrev⟩ := Message.block_of_deref hm
  obtain ⟨hdata, habsent⟩ := data_of_deref hdec hm
  obtain ⟨it', hit', hblock, -⟩ := hserved.content hit
  obtain rfl := hblock ha
  rw [← hserver] at hit'
  have hans : answer sec = some (emit .ack) := by
    rw [answer, (hserved.signalled_of_accepts hit ha).2]
  have hpost : ((it.assign b).addRevision).data = (carried req).getD (Data.memset 0) := hdata
  -- a WRITE with data is a writer's; one without stores the zeros it was decoded to
  cases hc : carried req with
  | some d =>
      rw [hc] at hpost
      have hacked : AckedWrite k (HostEvent.critical c tag req (answer sec)) d :=
        ⟨c, tag, req, _, n, by rw [hans], ha.type, hn, hid.symm.trans ha.names, hc,
          Message.type_emit .ack⟩
      constructor
      · rintro - it₀ - ⟨c', tag', req', ans', n', hev, -, hn', -, habs, -⟩
        obtain ⟨-, -, rfl, -⟩ := HostEvent.critical.inj hev
        rw [carried, hn'] at hc
        obtain ⟨id', rev', data'⟩ := n'
        obtain rfl : data' = .absent := habs
        cases hc
      · intro _ it₀ it₁ hit₀ hit₁
        obtain rfl := Option.some.inj (hit'.symm.trans hit₁)
        refine ⟨?_, fun hno => absurd hacked (hno d)⟩
        rintro d' ⟨c', tag', req', ack', n', hev, -, -, -, hc', -⟩
        obtain ⟨-, -, rfl, -⟩ := HostEvent.critical.inj hev
        rw [hpost, ← Option.some.inj (hc.symm.trans hc')]
        rfl
  | none =>
      rw [hc] at hpost
      obtain ⟨n', hn', habs⟩ := habsent hc
      obtain rfl := Option.some.inj (hn.symm.trans hn')
      have hshallow : ShallowWrite k (HostEvent.critical c tag req (answer sec)) it :=
        ⟨c, tag, req, _, n, rfl, ha.type, hn, hid.symm.trans ha.names, habs,
          ha.revision.trans hrev⟩
      have hno : ∀ d, ¬ AckedWrite k (HostEvent.critical c tag req (answer sec)) d := by
        rintro d ⟨c', tag', req', ack', n', hev, -, -, -, hc', -⟩
        obtain ⟨-, -, rfl, -⟩ := HostEvent.critical.inj hev
        rw [hc] at hc'
        cases hc'
      constructor
      · intro hfrom it₀ hit₀ _
        obtain rfl := Option.some.inj (hit.symm.trans hit₀)
        rw [← (hfrom it _ hit hit').2 hno, hpost]
        rfl
      · intro hzeros it₀ it₁ hit₀ hit₁
        obtain rfl := Option.some.inj (hit.symm.trans hit₀)
        obtain rfl := Option.some.inj (hit'.symm.trans hit₁)
        refine ⟨fun d hd => absurd hd (hno d), fun _ => ?_⟩
        rw [hpost, hzeros it hit hshallow]
        rfl

/-- **One step**: its effect on the content is a writer's exactly if it is no write without
    data onto content that is not zeros. -/
theorem step_fromWriters {clientId : ι → String} {h h' : Host ι} {e : HostEvent ι}
    {k : Int32} (hset : Settled h) (hs : Step clientId h e h')
    (hdec : ∀ c tag req ans, e = .critical c tag req ans →
      (Message.ofNode req).decodable = true) :
    FromWriters k ⟨h, e, h'⟩ ↔ ShallowOnZeros k ⟨h, e, h'⟩ := by
  cases e with
  | woken c => exact fromWriters_quiet (server_woken hs) (fun _ _ _ _ hev => nomatch hev)
  | critical c tag req ans =>
      have hd := hdec c tag req ans rfl
      obtain ⟨sec, rfl, rfl, ⟨hnot, rfl⟩ | ⟨b, m, hm, hserved⟩⟩ := critical_cases hset hs
      · -- no request at all
        refine fromWriters_quiet rfl fun c' tag' req' ans' hev htype => ?_
        obtain ⟨-, -, rfl, -⟩ := HostEvent.critical.inj hev
        rw [htype] at hnot
        cases hnot
      · by_cases hacc : ∃ it, h.server.blocks k = some it ∧
            Accepts it (Message.ofNode req).type b k
        · obtain ⟨it, hit, ha⟩ := hacc
          exact fromWriters_accepted hserved hm rfl hd hit ha
        · obtain ⟨n, hn, -, hid, hrev⟩ := Message.block_of_deref hm
          refine ⟨fun _ it hit hshallow => ?_, fun _ it it' hit hit' => ?_⟩
          · obtain ⟨_, _, _, _, n', hev, htype, hn', hid', -, hrev'⟩ := hshallow
            obtain ⟨-, -, rfl, -⟩ := HostEvent.critical.inj hev
            obtain rfl := Option.some.inj (hn.symm.trans hn')
            exact absurd ⟨it, hit, htype, hid.trans hid', hrev'.trans hrev.symm⟩ hacc
          · obtain ⟨it₁, hit₁, -, hkeep⟩ := hserved.content hit
            have hsame := hkeep (fun ha => hacc ⟨it, hit, ha⟩)
            obtain rfl := Option.some.inj (hit₁.symm.trans hit')
            refine ⟨?_, fun _ => hsame.data⟩
            -- a write that was not accepted got a NACK
            rintro d ⟨_, _, _, ack, n', hev, htype, hn', hid', -, hack⟩
            obtain ⟨-, -, rfl, hans⟩ := HostEvent.critical.inj hev
            obtain rfl := Option.some.inj (hn.symm.trans hn')
            rw [htype] at hserved
            obtain rfl : b.id = k := hid.trans hid'
            rcases hserved.write_reply hit with ⟨heq, -, -⟩ | ⟨-, ho, -⟩
            · exact absurd ⟨it, hit, htype, rfl, heq⟩ hacc
            · rw [answer, ho] at hans
              rw [← Option.some.inj hans, Message.type_emit] at hack
              cases hack

/-- **The runs in which stored data come only from writers** are those in which every
    write without data that the block's revision lets through finds zeros. -/
theorem fromWriters_iff {clientId : ι → String} {blocksId : List Int32}
    {tr : List (Entry (Host ι) (HostEvent ι))} {h : Host ι}
    (hrun : Run (Step clientId) (Host.start blocksId) tr h) (hdec : Decodable tr) :
    (∀ k, ∀ t ∈ tr, FromWriters k t) ↔ ∀ k, ∀ t ∈ tr, ShallowOnZeros k t := by
  have hstep : ∀ k, ∀ t ∈ tr, (FromWriters k t ↔ ShallowOnZeros k t) := by
    intro k t ht
    obtain ⟨i, hi⟩ := List.getElem?_of_mem ht
    exact step_fromWriters (run_settled (hrun.take hi)) (hrun.step_of_mem ht) (hdec t ht)
  exact forall_congr' fun k => forall_congr' fun t => forall_congr' fun ht => hstep k t ht

/-- Two clients write block 7, the second without data. -/
def shallowWrite : List (HostAction Bool) :=
  [.request false (emitBlock .write ⟨7, 0, some (Data.memset 65)⟩ false),
   .request true (emitBlock .write ⟨7, 1, none⟩ true)]

/-- The clients' ids. -/
def twoIds (c : Bool) : String := if c then "10.0.0.3:40001" else "10.0.0.2:40001"

/-- What a step shows and block 7 before and after it. -/
def row (t : Entry (Host Bool) (HostEvent Bool)) :
    HostEvent Bool × Option BlockServer × Option BlockServer :=
  (t.event, t.pre.server.blocks 7, t.post.server.blocks 7)

/-- Both writes are accepted, and the second zeroes what the first stored. -/
theorem shallowWrite_run :
    ∃ tr h, Run (Step twoIds) (Host.start [7]) tr h ∧ tr.map row =
      [(.critical false 0 (emitBlock .write ⟨7, 0, some (Data.memset 65)⟩ false)
          (some (emit .ack)), some ⟨7, 0, Data.memset 0, []⟩, some ⟨7, 1, Data.memset 65, []⟩),
       (.critical true 0 (emitBlock .write ⟨7, 1, none⟩ true) (some (emit .ack)),
          some ⟨7, 1, Data.memset 65, []⟩, some ⟨7, 2, Data.memset 0, []⟩)] := by
  obtain ⟨q, hq, hrows⟩ := Option.map_eq_some_iff.mp (show
    (exec (next twoIds) (Host.start [7]) shallowWrite).map (fun q => q.1.map row) = some
      [(.critical false 0 (emitBlock .write ⟨7, 0, some (Data.memset 65)⟩ false)
          (some (emit .ack)), some ⟨7, 0, Data.memset 0, []⟩, some ⟨7, 1, Data.memset 65, []⟩),
       (.critical true 0 (emitBlock .write ⟨7, 1, none⟩ true) (some (emit .ack)),
          some ⟨7, 1, Data.memset 65, []⟩, some ⟨7, 2, Data.memset 0, []⟩)]
    by decide +kernel)
  exact ⟨q.1, q.2, run_of_exec _ (DmHost.next_sound twoIds) shallowWrite _ hq, hrows⟩

/-- The requests of the two rows are emitted messages, which decode. -/
theorem decodable_of_rows {tr : List (Entry (Host Bool) (HostEvent Bool))}
    {c c' : Bool} {tag tag' : Nat} {b b' : Block} {sh sh' : Bool} {ans ans' : Option Node}
    {w w' : Option BlockServer × Option BlockServer}
    (hrows : tr.map row =
      [(.critical c tag (emitBlock .write b sh) ans, w),
       (.critical c' tag' (emitBlock .write b' sh') ans', w')]) : Decodable tr := by
  intro t ht c₀ tag₀ req ans₀ hev
  have hmem : row t ∈ tr.map row := List.mem_map_of_mem ht
  rw [hrows] at hmem
  rcases List.mem_cons.mp hmem with hrow | hrow
  · have hreq := hev.symm.trans (congrArg Prod.fst hrow)
    obtain ⟨-, -, rfl, -⟩ := HostEvent.critical.inj hreq
    exact Message.decodable_emitBlock .write b sh
  · have hreq := hev.symm.trans (congrArg Prod.fst (List.mem_singleton.mp hrow))
    obtain ⟨-, -, rfl, -⟩ := HostEvent.critical.inj hreq
    exact Message.decodable_emitBlock .write b' sh'

theorem fromWriters_iff_shallowWrite :
    ∃ tr h, Run (Step twoIds) (Host.start [7]) tr h ∧ Decodable tr ∧
      ((∀ k, ∀ t ∈ tr, FromWriters k t) ↔ ∀ k, ∀ t ∈ tr, ShallowOnZeros k t) := by
  obtain ⟨tr, h, hrun, hrows⟩ := shallowWrite_run
  have hdec := decodable_of_rows hrows
  exact ⟨tr, h, hrun, hdec, fromWriters_iff hrun hdec⟩

/-- **Data that no writer sent**: the second write is no write of any data, and yet the
    first one's data are gone. -/
theorem fromWriters_shallowWrite :
    ∃ tr h, Run (Step twoIds) (Host.start [7]) tr h ∧ Decodable tr ∧
      ¬ ∀ k, ∀ t ∈ tr, FromWriters k t := by
  obtain ⟨tr, h, hrun, hrows⟩ := shallowWrite_run
  refine ⟨tr, h, hrun, decodable_of_rows hrows, fun hall => ?_⟩
  have hlast : (HostEvent.critical true 0 (emitBlock .write ⟨7, 1, none⟩ true)
      (some (emit .ack)), some ⟨7, 1, Data.memset 65, []⟩, some ⟨7, 2, Data.memset 0, []⟩)
      ∈ tr.map row := by
    rw [hrows]
    exact List.mem_cons_of_mem _ (List.mem_singleton.mpr rfl)
  obtain ⟨t, ht, hrow⟩ := List.mem_map.mp hlast
  obtain ⟨hev, hwit⟩ := Prod.mk.inj hrow
  obtain ⟨hpre, hpost⟩ := Prod.mk.inj hwit
  have hno : ∀ d, ¬ AckedWrite 7 t.event d := by
    rintro d ⟨c, tag, req, ack, n, hev', -, -, -, hc, -⟩
    obtain ⟨-, -, rfl, -⟩ := HostEvent.critical.inj (hev.symm.trans hev')
    exact nomatch hc
  have hsame : Data.memset 0 = Data.memset 65 := (hall 7 t ht _ _ hpre hpost).2 hno
  exact absurd hsame (by decide)

end DmStored
