import DistributedMemory.DmReaderSidesProofs

/-!
# The readers get along

The test of the repository, over the whole system: two programs, any number of rounds, every
order of the steps of the processes, the servers and the network.

* **`Deployed`** — the test is set up as the script sets it up.
* **`InRound`** — the state of the test between two steps.
* **`step_inRound`**, **`run_inRound`** — every step of the test leads from such a state to
  another.
-/

namespace DmReader

open DmBlock DmClient DmServer DmCluster DmAtomic DmContract DmHandoff DmProgram LabelledRun

/-- The blocks of the test are offered to all its processes, each by one server, and the two
    of a round have different addresses. -/
structure Deployed (F : Fleet (Nat × Bool)) (T : Test) (server : Int32 → String) : Prop where
  fits : T.Fits
  offers : ∀ c, ∀ k ∈ T.keys, Offers F c k (server k)
  distinct : ∀ r sid, F.clientId (r, false) sid ≠ F.clientId (r, true) sid

/-! ## Both programs -/

/-- How far a process is with a block. -/
def sideOf : Reader1 ⊕ Reader2 → Int32 → Side
  | .inl st => st.side
  | .inr st => st.side

/-- What a process has found out is right. -/
def SoundAt (T : Test) (r : Nat) : Reader1 ⊕ Reader2 → Prop
  | .inl st => st.Sound T r
  | .inr st => st.Sound T r

section Within

variable {σ ρ : Type} {P : Program σ} {into : σ → ρ} {back : ρ → Option σ} {st : ρ} {s : σ}
  {blocks : Int32 → Option BlockLocal}

theorem within_call {call : Call} (h : (within P into back).act st blocks = .call call)
    (hback : back st = some s) : P.act s blocks = .call call := by
  rw [within] at h
  simp only [hback] at h
  cases hact : P.act s blocks with
  | call call' =>
      rw [hact] at h
      rw [Act.call.inj h]
  | store id data next =>
      rw [hact] at h
      cases h
  | exit =>
      rw [hact] at h
      cases h

theorem within_store {id : Int32} {data : Data} {next : ρ}
    (h : (within P into back).act st blocks = .store id data next) (hback : back st = some s) :
    ∃ next', next = into next' ∧ P.act s blocks = .store id data next' := by
  rw [within] at h
  simp only [hback] at h
  cases hact : P.act s blocks with
  | call call' =>
      rw [hact] at h
      cases h
  | store id' data' next' =>
      rw [hact] at h
      obtain ⟨rfl, rfl, rfl⟩ := Act.store.inj h
      exact ⟨next', rfl, rfl⟩
  | exit =>
      rw [hact] at h
      cases h

theorem within_exit (h : (within P into back).act st blocks = .exit) (hback : back st = some s) :
    P.act s blocks = .exit := by
  rw [within] at h
  simp only [hback] at h
  cases hact : P.act s blocks with
  | call call' =>
      rw [hact] at h
      cases h
  | store id data next =>
      rw [hact] at h
      cases h
  | exit => rfl

end Within

section Step

variable {F : Fleet (Nat × Bool)} {T : Test} {server : Int32 → String} {r : Nat} {b : Bool}
  {st other : Reader1 ⊕ Reader2} {blocks : Int32 → Option BlockLocal}

theorem program_first (T : Test) (r : Nat) : (T.readertest).program (r, false)
    = within (reader1 T.text (T.unset r) (T.heap (r, false))) .inl Sum.getLeft? := rfl

theorem program_second (T : Test) (r : Nat) : (T.readertest).program (r, true)
    = within (reader2 (T.heap (r, true))) .inr Sum.getRight? := rfl

/-- **A call of either reader** is one of its side. -/
theorem reader_call {call : Call} (hfits : T.Fits) (hkind : st.isLeft = !b)
    (hother : other.isLeft = b) (hsound : SoundAt T r st)
    (hmeet : Meets T r (sideOf st) (sideOf other) blocks)
    (hact : ((T.readertest).program (r, b)).act st blocks = .call call) :
    Keeps T r sideOf (SoundAt T r) (sideOf other) st call
      (((T.readertest).program (r, b)).resume st 0) := by
  cases b with
  | false =>
      obtain ⟨st, rfl⟩ := Sum.isLeft_iff.mp hkind
      obtain ⟨other, rfl⟩ : ∃ s, other = .inr s := Sum.isRight_iff.mp (by simpa using hother)
      rw [program_first] at hact
      have hact' := within_call hact rfl
      have h := reader1_call (q := other.side) hfits hsound ⟨other.sender, rfl⟩ hact'
      exact ⟨h.mem, h.does, h.other, h.sound⟩
  | true =>
      obtain ⟨st, rfl⟩ : ∃ s, st = .inr s := Sum.isRight_iff.mp (by simpa using hkind)
      obtain ⟨other, rfl⟩ := Sum.isLeft_iff.mp hother
      rw [program_second] at hact
      have h := reader2_call hfits hsound hmeet (within_call hact rfl)
      exact ⟨h.mem, h.does, h.other, h.sound⟩

/-- **A change of either reader to its memory** is one of its side. -/
theorem reader_store {id : Int32} {data : Data} {next : Reader1 ⊕ Reader2} (hfits : T.Fits)
    (hkind : st.isLeft = !b) (hsound : SoundAt T r st)
    (hmeet : Meets T r (sideOf st) (sideOf other) blocks)
    (hact : ((T.readertest).program (r, b)).act st blocks = .store id data next) :
    Puts T r sideOf (SoundAt T r) st id (memory blocks id) data next := by
  cases b with
  | false =>
      obtain ⟨st, rfl⟩ := Sum.isLeft_iff.mp hkind
      rw [program_first] at hact
      obtain ⟨next, rfl, hact'⟩ := within_store hact rfl
      have h := reader1_store hfits hsound hmeet hact'
      exact ⟨h.mem, h.stores, h.other, h.sound⟩
  | true =>
      obtain ⟨st, rfl⟩ : ∃ s, st = .inr s := Sum.isRight_iff.mp (by simpa using hkind)
      rw [program_second] at hact
      obtain ⟨next, rfl, hact'⟩ := within_store hact rfl
      have h := reader2_store hfits hsound hmeet hact'
      exact ⟨h.mem, h.stores, h.other, h.sound⟩

/-- A reader stays of its kind. -/
theorem resume_isLeft (st : Reader1 ⊕ Reader2) (code : Int) :
    (((T.readertest).program (r, b)).resume st code).isLeft = st.isLeft := by
  cases b <;> cases st <;> rfl

theorem store_isLeft {id : Int32} {data : Data} {next : Reader1 ⊕ Reader2}
    (hact : ((T.readertest).program (r, b)).act st blocks = .store id data next) :
    next.isLeft = st.isLeft := by
  cases b with
  | false =>
      cases st with
      | inl st =>
          rw [program_first] at hact
          obtain ⟨next, rfl, -⟩ := within_store hact rfl
          rfl
      | inr st => cases hact
  | true =>
      cases st with
      | inl st => cases hact
      | inr st =>
          rw [program_second] at hact
          obtain ⟨next, rfl, -⟩ := within_store hact rfl
          rfl

end Step

/-! ## What a step touches -/

section Touches

variable {ι : Type} [DecidableEq ι]

/-- Nothing but block `k` at its server and the copy that `c` has of it. -/
structure Touches (a a' : Board ι) (sid : String) (c : ι) (k : Int32) (it : BlockServer)
    (copy : Option BlockLocal) : Prop where
  dead : a'.dead = a.dead
  table : a'.table sid k = some it
  tables : ∀ sid' k', k' ≠ k → a'.table sid' k' = a.table sid' k'
  copy : (a'.client c).blocks k = copy
  copies : ∀ u k', k' ≠ k ∨ u ≠ c → (a'.client u).blocks k' = (a.client u).blocks k'

theorem setClient_copy (a : Board ι) (c : ι) (k : Int32) (copy : Option BlockLocal) :
    ((a.setClient c ((a.client c).setBlock k copy)).client c).blocks k = copy := by
  show (Function.update a.client c _ c).blocks k = copy
  rw [Function.update_self, Client.setBlock_same]

theorem setClient_copies (a : Board ι) (c : ι) (k : Int32) (copy : Option BlockLocal) (u : ι)
    (k' : Int32) (h : k' ≠ k ∨ u ≠ c) :
    ((a.setClient c ((a.client c).setBlock k copy)).client u).blocks k'
      = (a.client u).blocks k' := by
  show (Function.update a.client c _ u).blocks k' = _
  by_cases hu : u = c
  · subst hu
    rw [Function.update_self, Client.setBlock_other _ _ (h.resolve_right fun hne => hne rfl)]
  · rw [Function.update_of_ne hu]

theorem put_touches (a : Board ι) (sid : String) (c : ι) (k : Int32) (it : BlockServer)
    (copy : Option BlockLocal) : Touches a (put a sid c k it copy) sid c k it copy where
  dead := rfl
  table := by
    show Function.update a.table sid (Function.update (a.table sid) k (some it)) sid k = some it
    rw [Function.update_self, Function.update_self]
  tables := by
    intro sid' k' hk
    show Function.update a.table sid (Function.update (a.table sid) k (some it)) sid' k' = _
    by_cases hsid : sid' = sid
    · rw [hsid, Function.update_self, Function.update_of_ne hk]
    · rw [Function.update_of_ne hsid]
  copy := setClient_copy a c k copy
  copies := fun u k' h => setClient_copies a c k copy u k' h

theorem setClient_touches (a : Board ι) {sid : String} (c : ι) {k : Int32} {it : BlockServer}
    (hit : a.table sid k = some it) (copy : Option BlockLocal) :
    Touches a (a.setClient c ((a.client c).setBlock k copy)) sid c k it copy where
  dead := rfl
  table := hit
  tables := fun _ _ _ => rfl
  copy := setClient_copy a c k copy
  copies := fun u k' h => setClient_copies a c k copy u k' h

end Touches

/-! ## Between two steps -/

section Rounds

variable {F : Fleet (Nat × Bool)} {T : Test} {server : Int32 → String} {r : Nat}
  {p p' : Play (Nat × Bool) (Reader1 ⊕ Reader2)} {a a' : Board (Nat × Bool)}
  {proc : Nat × Bool → Reader1 ⊕ Reader2} {b : Bool}

/-- A process is through with its work. -/
def Finished (T : Test) (r : Nat) (st : Reader1 ⊕ Reader2) : Prop :=
  (st = .inl (.done (T.expected r)) ∧ (T.expected r).nwords ≠ 0) ∨
    (st = .inr (.done (T.expected r)) ∧ (T.expected r).textsize ≠ 0 ∧ (T.expected r).nspaces ≠ 0)

/-- Reader `b` of round `r` meets the other on block `k`, as `it` is. -/
def MeetAt (F : Fleet (Nat × Bool)) (T : Test) (server : Int32 → String) (r : Nat)
    (a : Board (Nat × Bool)) (proc : Nat × Bool → Reader1 ⊕ Reader2) (k : Int32)
    (it : BlockServer) (b : Bool) : Prop :=
  Meet (T.handoff r k) (F.clientId (r, b) (server k)) (F.clientId (r, !b) (server k))
    (sideOf (proc (r, b)) k) (sideOf (proc (r, !b)) k) it
    ((a.client (r, b)).blocks k) ((a.client (r, !b)).blocks k)

/-- Round `r` is on: the earlier ones are over, the later ones have not begun, and the two
    readers meet on every block. -/
structure InRound (F : Fleet (Nat × Bool)) (T : Test) (server : Int32 → String) (r : Nat)
    (a : Board (Nat × Bool)) (proc : Nat × Bool → Reader1 ⊕ Reader2) : Prop where
  alive : ∀ c, a.dead c = false
  kind : ∀ c, (proc c).isLeft = !c.2
  past : ∀ c, c.1 < r → Finished T c.1 (proc c)
  future : ∀ c, r < c.1 → proc c = T.init c ∧ ∀ k, (a.client c).blocks k = none
  sound : ∀ b, SoundAt T r (proc (r, b))
  meet : ∀ k ∈ T.keys, ∃ it, a.table (server k) k = some it ∧ ∀ b, MeetAt F T server r a proc k it b

/-- Who meets the other is met by it. -/
theorem meetAt_both {k : Int32} {it : BlockServer} (h : MeetAt F T server r a proc k it b) :
    ∀ b', MeetAt F T server r a proc k it b' := by
  intro b'
  cases b <;> cases b' <;> first | exact h | exact h.symm

/-- What a reader knows of the other. -/
theorem InRound.meets (h : InRound F T server r a proc) (b : Bool) :
    Meets T r (sideOf (proc (r, b))) (sideOf (proc (r, !b))) (a.client (r, b)).blocks := by
  intro k hk
  obtain ⟨it, -, hmeet⟩ := h.meet k hk
  exact ⟨_, _, it, _, hmeet b⟩

/-- **A step of a reader of the round** that keeps to its side of one block. -/
theorem InRound.advance (h : InRound F T server r a proc) {k : Int32} {it : BlockServer}
    {copy : Option BlockLocal} {st : Reader1 ⊕ Reader2}
    (htouches : Touches a a' (server k) (r, b) k it copy)
    (hkind : st.isLeft = (proc (r, b)).isLeft) (hsound : SoundAt T r st)
    (hother : ∀ k' ∈ T.keys, k' ≠ k → sideOf st k' = sideOf (proc (r, b)) k')
    (hmeet : Meet (T.handoff r k) (F.clientId (r, b) (server k)) (F.clientId (r, !b) (server k))
      (sideOf st k) (sideOf (proc (r, !b)) k) it copy ((a.client (r, !b)).blocks k)) :
    InRound F T server r a' (Function.update proc (r, b) st) := by
  have hne : (r, !b) ≠ (r, b) := by
    intro heq
    cases b <;> cases (Prod.mk.inj heq).2
  have hnow : ∀ c, c.1 ≠ r → c ≠ (r, b) := fun c hc heq => hc (congrArg Prod.fst heq)
  refine ⟨?_, ?_, ?_, ?_, ?_, ?_⟩
  · rw [htouches.dead]
    exact h.alive
  · intro c
    by_cases hc : c = (r, b)
    · rw [hc, Function.update_self, hkind]
      exact h.kind _
    · rw [Function.update_of_ne hc]
      exact h.kind c
  · intro c hc
    rw [Function.update_of_ne (hnow c (Nat.ne_of_lt hc))]
    exact h.past c hc
  · intro c hc
    have hc' := hnow c (Nat.ne_of_gt hc)
    rw [Function.update_of_ne hc']
    refine ⟨(h.future c hc).1, fun k' => ?_⟩
    rw [htouches.copies c k' (Or.inr hc')]
    exact (h.future c hc).2 k'
  · intro b'
    by_cases hb : b' = b
    · rw [hb, Function.update_self]
      exact hsound
    · have hc : (r, b') ≠ (r, b) := fun heq => hb (Prod.mk.inj heq).2
      rw [Function.update_of_ne hc]
      exact h.sound b'
  · intro k' hk'
    by_cases hk : k' = k
    · subst hk
      refine ⟨it, htouches.table, meetAt_both (b := b) ?_⟩
      rw [MeetAt, Function.update_self, Function.update_of_ne hne, htouches.copy,
        htouches.copies _ _ (Or.inr hne)]
      exact hmeet
    · obtain ⟨it', hit', hmeet'⟩ := h.meet k' hk'
      refine ⟨it', ?_, meetAt_both (b := b) ?_⟩
      · rw [htouches.tables _ _ hk]
        exact hit'
      · rw [MeetAt, Function.update_self, Function.update_of_ne hne, hother k' hk' hk,
          htouches.copies _ _ (Or.inl hk), htouches.copies _ _ (Or.inl hk)]
        exact hmeet' b

/-! ## From one round to the next -/

theorem sound_init (T : Test) (r : Nat) (b : Bool) : SoundAt T r (T.init (r, b)) := by
  cases b with
  | false => exact Reader1.sound_mapping (r := r) (List.suffix_refl _)
  | true => exact Reader2.sound_mapping (T := T) (r := r) (List.suffix_refl _)

/-- Nobody has mapped anything at the start. -/
theorem init_side (T : Test) (r : Nat) (b : Bool) {k : Int32} (hk : k ∈ T.keys) :
    sideOf (T.init (r, b)) k
      = if (k = 102) = (b = true) then .sender .absent else .receiver .absent := by
  cases b with
  | false =>
      show Reader1.side (Reader1.mapping T.textsize 0 T.keys) k = _
      by_cases h2 : k = 102
      · subst h2
        rw [Reader1.side_words, Reader1.receiver_mapping, if_pos hk]
        simp
      · rw [Reader1.side_of_ne _ h2, Reader1.sender_mapping hk h2, if_pos hk]
        simp [h2]
  | true =>
      show Reader2.side (Reader2.mapping 0 [100, 101, 102]) k = _
      by_cases h2 : k = 102
      · subst h2
        rw [Reader2.side_words, Reader2.sender_mapping, if_pos (by decide)]
        simp
      · rw [Reader2.side_of_ne _ h2, Reader2.receiver_mapping]
        have hnone : (if k ∈ [100, 101, 102] then Receiver.absent
            else if k = 100 ∨ k = 101 then .looking else .absent) = .absent := by
          by_cases h0 : k = 100
          · simp [h0]
          · by_cases h1 : k = 101
            · simp [h1]
            · simp [h0, h1, h2]
        rw [hnone]
        simp [h2]

/-- A block that hands over a number is as it was before, two writes on. -/
theorem number_over {k : Int32} {x x' : Int32} {id id' : String} {it : BlockServer}
    {s s' : Option BlockLocal} (h : Cell (Test.number k r x) id id' .gone .gone it s s') :
    it.revision = (Test.number k (r + 1) x').base ∧ (Test.number k (r + 1) x').Blank it.data := by
  refine ⟨?_, h.content⟩
  show _ = Int32.ofNat (2 * (r + 1))
  rw [h.revision, Nat.mul_succ, WrapCounter.ofNat_succ, WrapCounter.ofNat_succ]
  rfl

/-- So is a text block, one write on. -/
theorem page_over {k : Int32} (hfits : T.Fits) (hk : k ∈ T.pages) {id id' : String}
    {it : BlockServer} {s s' : Option BlockLocal}
    (h : Cell (T.handoff r k) id id' .gone .left it s s') :
    it.revision = (T.handoff (r + 1) k).base ∧ (T.handoff (r + 1) k).Blank it.data := by
  rw [handoff_page hfits _ hk] at h ⊢
  refine ⟨?_, trivial⟩
  show _ = Int32.ofNat (r + 1)
  rw [h.revision, WrapCounter.ofNat_succ]
  exact Int32.add_zero _

/-- Who is through has no copy. -/
theorem nobody_of_gone {H : Handoff} {id id' : String} {cs : Receiver} {it : BlockServer}
    {s s' : Option BlockLocal} (h : Cell H id id' .gone cs it s s') (hs' : s' = none) :
    it.id = H.k ∧ ∀ id, id ∉ it.mappedClients := by
  have hs : s = none := h.sender
  subst hs hs'
  exact ⟨h.id, h.nobody⟩

theorem finished_first (hkind : ∀ c, (proc c).isLeft = !c.2)
    (hdone : Finished T r (proc (r, false))) : proc (r, false) = .inl (.done (T.expected r)) := by
  have hleft := hkind (r, false)
  rcases hdone with ⟨h, -⟩ | ⟨h, -⟩
  · exact h
  · rw [h] at hleft
    cases hleft

theorem finished_second (hkind : ∀ c, (proc c).isLeft = !c.2)
    (hdone : Finished T r (proc (r, true))) : proc (r, true) = .inr (.done (T.expected r)) := by
  have hleft := hkind (r, true)
  rcases hdone with ⟨h, -⟩ | ⟨h, -⟩
  · rw [h] at hleft
    cases hleft
  · exact h

/-- What a round leaves of a block. -/
theorem meet_finished {k : Int32} {it : BlockServer} (hfits : T.Fits) (hk : k ∈ T.keys)
    (hkind : ∀ c, (proc c).isLeft = !c.2) (hdone : ∀ b, Finished T r (proc (r, b)))
    (h : MeetAt F T server r a proc k it false) :
    it.id = k ∧ (∀ id, id ∉ it.mappedClients) ∧ it.revision = (T.handoff (r + 1) k).base ∧
      (T.handoff (r + 1) k).Blank it.data := by
  rw [MeetAt, Bool.not_false, finished_first hkind (hdone false),
    finished_second hkind (hdone true)] at h
  rcases keys_cases hk with rfl | rfl | rfl | hpage
  · have hcell : Cell (Test.number 100 r (T.expected r).textsize) _ _ .gone .gone it _ _ := h
    obtain ⟨hid, hnobody⟩ := nobody_of_gone hcell hcell.receiver
    exact ⟨hid, hnobody, number_over hcell⟩
  · have hcell : Cell (Test.number 101 r (T.expected r).nspaces) _ _ .gone .gone it _ _ := h
    obtain ⟨hid, hnobody⟩ := nobody_of_gone hcell hcell.receiver
    exact ⟨hid, hnobody, number_over hcell⟩
  · have hcell : Cell (Test.number 102 r (T.expected r).nwords) _ _ .gone .gone it _ _ := h
    obtain ⟨hid, hnobody⟩ := nobody_of_gone hcell hcell.receiver
    exact ⟨hid, hnobody, number_over hcell⟩
  · obtain ⟨h0, h1, h2⟩ := page_ne hfits hpage
    have hsides : sideOf (.inl (.done (T.expected r))) k = .sender .gone ∧
        sideOf (.inr (.done (T.expected r))) k = .receiver .left := by
      refine ⟨Reader1.side_of_ne _ h2, (Reader2.side_of_ne _ h2).trans ?_⟩
      rw [Reader2.receiver, if_neg (not_or.mpr ⟨h0, h1⟩)]
    rw [hsides.1, hsides.2] at h
    have hcell : Cell (T.handoff r k) _ _ .gone .left it _ _ := h
    obtain ⟨hid, hnobody⟩ := nobody_of_gone hcell hcell.receiver
    rw [Test.handoff_k] at hid
    exact ⟨hid, hnobody, page_over hfits hpage hcell⟩

/-- **The next round** begins as this one did. -/
theorem InRound.next (hfits : T.Fits) (h : InRound F T server r a proc)
    (hdone : ∀ b, Finished T r (proc (r, b))) : InRound F T server (r + 1) a proc := by
  refine ⟨h.alive, h.kind, ?_, ?_, ?_, ?_⟩
  · intro c hc
    rcases Nat.lt_succ_iff_lt_or_eq.mp hc with hlt | heq
    · exact h.past c hlt
    · obtain ⟨r', b⟩ := c
      obtain rfl : r' = r := heq
      exact hdone b
  · intro c hc
    exact h.future c (Nat.lt_of_succ_lt hc)
  · intro b
    rw [(h.future (r + 1, b) (Nat.lt_succ_self r)).1]
    exact sound_init ..
  · intro k hk
    obtain ⟨it, hit, hmeet⟩ := h.meet k hk
    obtain ⟨hid, hnobody, hrev, hblank⟩ := meet_finished hfits hk h.kind hdone (hmeet false)
    refine ⟨it, hit, meetAt_both (b := false) ?_⟩
    obtain ⟨hinit, hnone⟩ := h.future (r + 1, false) (Nat.lt_succ_self r)
    obtain ⟨hinit', hnone'⟩ := h.future (r + 1, true) (Nat.lt_succ_self r)
    have hid' : it.id = (T.handoff (r + 1) k).k := by
      rw [hid, Test.handoff_k]
    rw [MeetAt, hinit, hnone, Bool.not_false, hinit', hnone', init_side T _ _ hk,
      init_side T _ _ hk]
    by_cases h2 : k = 102
    · simp only [h2]
      subst h2
      exact Cell.fresh hid' hnobody hrev hblank
    · simp only [h2]
      exact Cell.fresh hid' hnobody hrev hblank

/-! ## Whose turn it is -/

/-- Who has nothing more to do is through. -/
theorem finished_of_exit {st : Reader1 ⊕ Reader2} {blocks : Int32 → Option BlockLocal}
    (hkind : st.isLeft = !b) (hsound : SoundAt T r st)
    (hact : ((T.readertest).program (r, b)).act st blocks = .exit) : Finished T r st := by
  cases b with
  | false =>
      obtain ⟨st, rfl⟩ := Sum.isLeft_iff.mp hkind
      have hact' := within_exit hact rfl
      cases st with
      | done out =>
          obtain ⟨rfl, hwords⟩ := hsound
          exact Or.inl ⟨rfl, hwords⟩
      | failed => exact hsound.elim
      | map k rest res => cases hact'
      | read k rest => cases hact'
      | writeText k rest => cases hact'
      | putSize => cases hact'
      | writeSize => cases hact'
      | putSpaces => cases hact'
      | writeSpaces nspaces => cases hact'
      | look nspaces =>
          rw [reader1] at hact'
          dsimp only at hact'
          split at hact' <;> cases hact'
      | update nspaces => cases hact'
      | writeWords nspaces nwords => cases hact'
      | unmap k rest out => cases hact'
  | true =>
      obtain ⟨st, rfl⟩ : ∃ s, st = .inr s := Sum.isRight_iff.mp (by simpa using hkind)
      have hact' := within_exit hact rfl
      cases st with
      | done out =>
          obtain ⟨rfl, hnew⟩ := hsound
          exact Or.inr ⟨rfl, hnew⟩
      | failed => exact hsound.elim
      | map k rest res => cases hact'
      | lookSize =>
          rw [reader2] at hact'
          dsimp only at hact'
          split at hact' <;> cases hact'
      | updateSize => cases hact'
      | writeSize textsize => cases hact'
      | mapText k rest textsize => cases hact'
      | putWords textsize => cases hact'
      | writeWords textsize nwords => cases hact'
      | look textsize nwords =>
          rw [reader2] at hact'
          dsimp only at hact'
          split at hact' <;> cases hact'
      | update textsize nwords => cases hact'
      | writeSpaces textsize nwords nspaces => cases hact'
      | unmap k rest out => cases hact'

theorem finished_of_exited {st : Reader1 ⊕ Reader2} (hkind : st.isLeft = !b)
    (hsound : SoundAt T r st) (hexit : ((T.readertest).program (r, b)).Exited st) :
    Finished T r st :=
  finished_of_exit hkind hsound (hexit fun _ => none)

/-- Who is through has exited. -/
theorem exited_of_finished {st : Reader1 ⊕ Reader2} (h : Finished T r st) (c : Nat × Bool) :
    ((T.readertest).program c).Exited st := by
  obtain ⟨r', b⟩ := c
  intro blocks
  rcases h with ⟨rfl, -⟩ | ⟨rfl, -⟩
  · cases b <;> rfl
  · cases b <;> rfl

/-- Nobody has exited at the start. -/
theorem not_exited_init (T : Test) (c : Nat × Bool) :
    ¬ ((T.readertest).program c).Exited (T.init c) := by
  obtain ⟨r', b⟩ := c
  intro hexit
  have hact := hexit fun _ => none
  cases b <;> cases hact

/-- **Whoever acts belongs to the round**, or to the next, which then begins. -/
theorem InRound.turn (hfits : T.Fits) (h : InRound F T server r a proc) {c : Nat × Bool}
    (hready : (T.readertest).Ready proc c)
    (hbusy : ¬ ((T.readertest).program c).Exited (proc c)) :
    ∃ r' b, c = (r', b) ∧ InRound F T server r' a proc := by
  obtain ⟨r', b⟩ := c
  rcases Nat.lt_trichotomy r' r with hlt | rfl | hgt
  · exact absurd (exited_of_finished (h.past (r', b) hlt) (r', b)) hbusy
  · exact ⟨r', b, rfl, h⟩
  · have hdone : ∀ b, Finished T r (proc (r, b)) := fun b =>
      finished_of_exited (h.kind _) (h.sound b) (hready (r, b) hgt)
    have hnext := h.next hfits hdone
    have heq : r' = r + 1 := by
      refine Nat.le_antisymm (Nat.le_of_not_lt fun hlt => ?_) hgt
      have hexit := hready (r + 1, b) hlt
      rw [(h.future (r + 1, b) (Nat.lt_succ_self r)).1] at hexit
      exact not_exited_init T _ hexit
    rw [heq]
    exact ⟨r + 1, b, rfl, hnext⟩

/-- What a reader's call comes to: it returns 0, and if it is a WAIT or an UPDATE, the copy
    was from before the other's write, and is from after it. -/
structure CallDone (F : Fleet (Nat × Bool)) (T : Test) (server : Int32 → String) (r : Nat)
    (b : Bool) (a a' : Board (Nat × Bool)) (proc : Nat × Bool → Reader1 ⊕ Reader2) (call : Call)
    (code : Int) : Prop where
  code_eq : code = 0
  inRound : InRound F T server r a' (Function.update proc (r, b)
    (((T.readertest).program (r, b)).resume (proc (r, b)) 0))
  copies : ∀ u k, u ≠ (r, b) → (a'.client u).blocks k = (a.client u).blocks k
  waited : call.type = .wait →
    (T.handoff r call.id).stale ((a.client (r, b)).blocks call.id) = true
  updated : call.type = .update →
    (T.handoff r call.id).stale ((a'.client (r, b)).blocks call.id) = false

theorem ids_ne (hd : Deployed F T server) (r : Nat) (b : Bool) (sid : String) :
    F.clientId (r, b) sid ≠ F.clientId (r, !b) sid := by
  cases b with
  | false => exact hd.distinct r sid
  | true => exact (hd.distinct r sid).symm

theorem other_kind (h : InRound F T server r a proc) (b : Bool) : (proc (r, !b)).isLeft = b :=
  (h.kind _).trans (Bool.not_not b)

/-- **A call in a round.** -/
theorem InRound.called (hd : Deployed F T server) (hkept : Kept F a)
    (h : InRound F T server r a proc) {call : Call} {code : Int}
    (hact : ((T.readertest).program (r, b)).act (proc (r, b)) (a.client (r, b)).blocks = .call call)
    (hstep : DmAtomic.Step F a (.called (r, b) call code) a') :
    CallDone F T server r b a a' proc call code := by
  have hkeeps := reader_call hd.fits (h.kind _) (other_kind h b) (h.sound b) (h.meets b) hact
  obtain ⟨it, hit, hmeet⟩ := h.meet call.id hkeeps.mem
  have hreach := hkept.reaches (hd.offers (r, b) _ hkeeps.mem) (h.alive (r, b))
  obtain ⟨it', copy', hcontract, rfl⟩ := (called_iff hreach hit).mp hstep
  obtain ⟨rfl, hmeet'⟩ := meet_call (hmeet b) (ids_ne hd r b _) hkeeps.does hcontract
  have htouches := put_touches a (server call.id) (r, b) call.id it' copy'
  refine ⟨rfl, h.advance htouches (resume_isLeft ..) hkeeps.sound hkeeps.other hmeet',
    fun u k hu => htouches.copies u k (Or.inr hu), fun hwait => ?_, fun hupdate => ?_⟩
  · obtain ⟨hside, hcall⟩ := does_wait hkeeps.does hwait
    have hmeetb := hmeet b
    rw [MeetAt, hside] at hmeetb
    exact stale_of_wait hmeetb hcall hcontract
  · obtain ⟨hside, hcall⟩ := does_update hkeeps.does hupdate
    have hmeetb := hmeet b
    rw [MeetAt, hside] at hmeetb
    rw [htouches.copy]
    exact fresh_of_update hmeetb hcall hcontract

/-- **A change of memory in a round.** -/
theorem InRound.poked (hd : Deployed F T server) (h : InRound F T server r a proc) {id : Int32}
    {data : Data} {next : Reader1 ⊕ Reader2}
    (hact : ((T.readertest).program (r, b)).act (proc (r, b)) (a.client (r, b)).blocks
      = .store id data next)
    (hstep : DmAtomic.Step F a (.poked (r, b) id) a')
    (hdata : ((a'.client (r, b)).blocks id).map BlockLocal.data = some data) :
    InRound F T server r a' (Function.update proc (r, b) next) ∧
      ∀ u k, u ≠ (r, b) → (a'.client u).blocks k = (a.client u).blocks k := by
  have hputs := reader_store hd.fits (h.kind _) (h.sound b) (h.meets b) hact
  obtain ⟨it, hit, hmeet⟩ := h.meet id hputs.mem
  cases hstep with
  | @poked _ _ e d halive he =>
      have htouches := setClient_touches a (r, b) hit (some { e with data := d })
      obtain rfl : d = data := by
        rw [htouches.copy] at hdata
        exact Option.some.inj hdata
      have hmeetb := hmeet b
      rw [MeetAt, he] at hmeetb
      have hstores := hputs.stores
      rw [memory_eq he] at hstores
      exact ⟨h.advance htouches (store_isLeft hact) hputs.sound hputs.other
        (meet_store hmeetb hstores), fun u k hu => htouches.copies u k (Or.inr hu)⟩

/-- No reader's process dies of a call. -/
theorem InRound.survives (hd : Deployed F T server) (hkept : Kept F a)
    (h : InRound F T server r a proc) {call : Call}
    (hact : ((T.readertest).program (r, b)).act (proc (r, b)) (a.client (r, b)).blocks
      = .call call) : ¬ DmAtomic.Step F a (.died (r, b) call) a' := by
  intro hstep
  have hkeeps := reader_call hd.fits (h.kind _) (other_kind h b) (h.sound b) (h.meets b) hact
  have hreach := hkept.reaches (hd.offers (r, b) _ hkeeps.mem) (h.alive (r, b))
  obtain ⟨sock, hsock, -⟩ := hreach.socket
  cases hstep with
  | died _ hsend =>
      have hnone := (Client.send_error hsend).2
      rw [hreach.route] at hnone
      cases hnone.symm.trans hsock

/-- Who acts has not exited. -/
theorem busy_of_act {c : Nat × Bool} {act : Act (Reader1 ⊕ Reader2)}
    {blocks : Int32 → Option BlockLocal} {st : Reader1 ⊕ Reader2}
    (hact : ((T.readertest).program c).act st blocks = act) (hne : act ≠ .exit) :
    ¬ ((T.readertest).program c).Exited st := by
  intro hexit
  exact hne (hact.symm.trans (hexit blocks))

/-- **After every step the test is in a round.** -/
theorem step_inRound (hd : Deployed F T server) (hkept : Kept F p.board)
    (h : InRound F T server r p.board p.proc) {d : Deed (Nat × Bool)}
    (hs : PlayStep T.readertest F p d p') : ∃ r', InRound F T server r' p'.board p'.proc := by
  cases hs with
  | called hready hact hstep =>
      obtain ⟨r', b, rfl, h⟩ := h.turn hd.fits hready (busy_of_act hact (by simp))
      have hdone := h.called hd hkept hact hstep
      obtain rfl := hdone.code_eq
      exact ⟨r', hdone.inRound⟩
  | died hready hact hstep =>
      obtain ⟨r', b, rfl, h⟩ := h.turn hd.fits hready (busy_of_act hact (by simp))
      exact absurd hstep (h.survives hd hkept hact)
  | poked hready hact hstep hdata =>
      obtain ⟨r', b, rfl, h⟩ := h.turn hd.fits hready (busy_of_act hact (by simp))
      exact ⟨r', (h.poked hd hact hstep hdata).1⟩

/-! ## Runs -/

/-- A hosted block at the start. -/
theorem table_start {F : Fleet (Nat × Bool)} {sid : String} {k : Int32} (hk : k ∈ F.blocksId sid) :
    (board F.start).table sid k = some (BlockServer.create k) := by
  show (Server.create (F.blocksId sid)).blocks k = _
  rw [Server.create_blocks, if_pos hk]

/-- The first round begins at the start. -/
theorem start_inRound (hd : Deployed F T server) :
    InRound F T server 0 (board F.start) T.init := by
  refine ⟨fun _ => rfl, ?_, fun c hc => absurd hc (Nat.not_lt_zero _), ?_, ?_, ?_⟩
  · intro c
    obtain ⟨r', b⟩ := c
    cases b <;> rfl
  · exact fun c _ => ⟨rfl, fun _ => rfl⟩
  · exact fun b => sound_init T 0 b
  · intro k hk
    refine ⟨_, table_start (hd.offers (0, false) k hk).hosted, meetAt_both (b := false) ?_⟩
    have hid : (BlockServer.create k).id = (T.handoff 0 k).k := (T.handoff_k 0 k).symm
    have hnobody : ∀ id, id ∉ (BlockServer.create k).mappedClients := fun _ => List.not_mem_nil
    have hrest : (BlockServer.create k).revision = (T.handoff 0 k).base ∧
        (T.handoff 0 k).Blank (BlockServer.create k).data := by
      have hzero : readInt (Data.memset 0) = 0 := by decide
      rcases keys_cases hk with rfl | rfl | rfl | hpage
      · exact ⟨rfl, hzero⟩
      · exact ⟨rfl, hzero⟩
      · exact ⟨rfl, hzero⟩
      · rw [handoff_page hd.fits 0 hpage]
        exact ⟨rfl, trivial⟩
    rw [MeetAt, Bool.not_false, init_side T _ _ hk, init_side T _ _ hk]
    by_cases h2 : k = 102
    · simp only [h2]
      subst h2
      exact Cell.fresh hid hnobody hrest.1 hrest.2
    · simp only [h2]
      exact Cell.fresh hid hnobody hrest.1 hrest.2

/-- The runs of the test over the board. -/
abbrev PlayRun (F : Fleet (Nat × Bool)) (T : Test)
    (ptr : List (Entry (Play (Nat × Bool) (Reader1 ⊕ Reader2)) (Deed (Nat × Bool))))
    (p : Play (Nat × Bool) (Reader1 ⊕ Reader2)) : Prop :=
  Run (PlayStep T.readertest F) ⟨board F.start, T.init⟩ ptr p

theorem run_playKept {ptr : List (Entry (Play (Nat × Bool) (Reader1 ⊕ Reader2)) (Deed (Nat × Bool)))}
    (hrun : PlayRun F T ptr p) : Kept F p.board := by
  obtain ⟨atr, hatr⟩ : ∃ atr, Run (DmAtomic.Step F) (board F.start) atr p.board :=
    hrun.project (f := Play.board) fun q e q' hs => by
      cases hs with
      | called _ _ hstep => exact Or.inr ⟨_, hstep⟩
      | died _ _ hstep => exact Or.inr ⟨_, hstep⟩
      | poked _ _ hstep _ => exact Or.inr ⟨_, hstep⟩
  exact run_kept hatr

/-- **The test is in a round** in every state it reaches. -/
theorem run_inRound (hd : Deployed F T server)
    {ptr : List (Entry (Play (Nat × Bool) (Reader1 ⊕ Reader2)) (Deed (Nat × Bool)))}
    (hrun : PlayRun F T ptr p) : ∃ r, InRound F T server r p.board p.proc := by
  induction hrun with
  | nil => exact ⟨0, start_inRound hd⟩
  | snoc hprev hs ih =>
      obtain ⟨r, h⟩ := ih
      exact step_inRound hd (run_playKept hprev) h hs

end Rounds

end DmReader
