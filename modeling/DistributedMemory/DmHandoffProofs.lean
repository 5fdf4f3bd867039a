import DistributedMemory.DmContractProofs

/-!
# A block as a place to hand something over

One client maps a block, fills it and writes it; another maps it, waits and updates until it
is no longer blank, and then leaves with what it found, or blanks the block again and writes
it back. Nothing in the library says that the two get along; it follows from the contract of
their calls, as long as each keeps to its side.

* **`SenderDoes`**, **`ReceiverDoes`** — the two sides: which call comes next.
* **`Cell`** — the block at its server and the two copies of it, by how far the two are.
* **`sender_call`**, **`receiver_call`** — a call of either succeeds and keeps the cell in
  order; **`receiver_store`** — what the receiver takes is what the sender left.
-/

namespace DmHandoff

open DmBlock DmClient DmContract

/-! ## The two sides -/

/-- How far the sender is. -/
inductive Sender where
  | absent
  | mapped
  | filled
  | sent
  | gone
  deriving DecidableEq

/-- How far the receiver is. One that only reads maps when the block is full and unmaps. -/
inductive Receiver where
  | absent
  | looking
  | woken
  | taken
  | emptied
  | gone
  | holding
  | left
  deriving DecidableEq

/-- The sender has written. -/
def Sender.hasSent : Sender → Bool
  | .sent | .gone => true
  | _ => false

/-- The receiver has seen the write. -/
def Receiver.hasSeen : Receiver → Bool
  | .absent | .looking => false
  | _ => true

/-- The receiver has written. -/
def Receiver.hasEmptied : Receiver → Bool
  | .emptied | .gone => true
  | _ => false

/-- What is handed over, on which block, and its revision before. -/
structure Handoff where
  k : Int32
  base : Int32
  Blank : Data → Prop
  Full : Data → Prop

/-- The calls of the sender. -/
inductive SenderDoes (H : Handoff) : Sender → Call → Sender → Prop where
  | map {k : Int32} (address : Data) (hk : H.k = k) : SenderDoes H .absent (.map k address) .mapped
  | write {k : Int32} (hk : H.k = k) : SenderDoes H .filled (.write k) .sent
  | unmap {k : Int32} (hk : H.k = k) : SenderDoes H .sent (.unmap k) .gone

/-- The calls of the receiver, where the sender is `ps`. -/
inductive ReceiverDoes (H : Handoff) (ps : Sender) : Receiver → Call → Receiver → Prop where
  | map {k : Int32} (address : Data) (hk : H.k = k) :
      ReceiverDoes H ps .absent (.map k address) .looking
  | wait {k : Int32} (hk : H.k = k) : ReceiverDoes H ps .looking (.wait k) .woken
  /-- The signed comparison at the server has to see the sender's write. -/
  | update {k : Int32} (hk : H.k = k) (hascends : H.base < H.base + 1) :
      ReceiverDoes H ps .woken (.update k) .looking
  | write {k : Int32} (hk : H.k = k) : ReceiverDoes H ps .taken (.write k) .emptied
  | unmap {k : Int32} (hk : H.k = k) : ReceiverDoes H ps .emptied (.unmap k) .gone
  | hold {k : Int32} (address : Data) (hk : H.k = k) (hsent : ps.hasSent = true) :
      ReceiverDoes H ps .absent (.map k address) .holding
  | leave {k : Int32} (hk : H.k = k) : ReceiverDoes H ps .holding (.unmap k) .left

/-! ## The block and the copies -/

/-- The revision of the block. -/
def Handoff.revision (H : Handoff) (ps : Sender) (cs : Receiver) : Int32 :=
  H.base + (if ps.hasSent then 1 else 0) + (if cs.hasEmptied then 1 else 0)

/-- The content of the block. -/
def Handoff.Content (H : Handoff) (ps : Sender) (cs : Receiver) (d : Data) : Prop :=
  if ps.hasSent = true ∧ cs.hasEmptied = false then H.Full d else H.Blank d

/-- The sender's copy. -/
def Handoff.SenderCopy (H : Handoff) (s : Option BlockLocal) : Sender → Prop
  | .absent | .gone => s = none
  | .mapped => ∃ d, s = some ⟨H.k, H.base, d, true⟩
  | .filled => ∃ d, s = some ⟨H.k, H.base, d, true⟩ ∧ H.Full d
  | .sent => ∃ e, s = some e ∧ H.Full e.data

/-- The receiver's copy. -/
def Handoff.ReceiverCopy (H : Handoff) (ps : Sender) (r : Option BlockLocal) : Receiver → Prop
  | .absent | .gone | .left => r = none
  | .looking => ∃ revision d, r = some ⟨H.k, revision, d, true⟩ ∧
      ((revision = H.base ∧ H.Blank d) ∨
        (ps.hasSent = true ∧ revision = H.base + 1 ∧ H.Full d))
  | .woken => ∃ d, r = some ⟨H.k, H.base, d, false⟩
  | .taken => ∃ d, r = some ⟨H.k, H.base + 1, d, true⟩ ∧ H.Blank d
  | .emptied => ∃ e, r = some e
  | .holding => ∃ e, r = some e ∧ H.Full e.data

/-- A block between a sender called `idS` and a receiver called `idR`: the server's block,
    and the two copies. -/
structure Cell (H : Handoff) (idS idR : String) (ps : Sender) (cs : Receiver) (it : BlockServer)
    (s r : Option BlockLocal) : Prop where
  id : it.id = H.k
  distinct : it.mappedClients.Nodup
  members : ∀ id, id ∈ it.mappedClients ↔
    (id = idS ∧ s.isSome = true) ∨ (id = idR ∧ r.isSome = true)
  revision : it.revision = H.revision ps cs
  content : H.Content ps cs it.data
  order : cs.hasSeen = true → ps.hasSent = true
  sender : H.SenderCopy s ps
  receiver : H.ReceiverCopy ps r cs

variable {H : Handoff} {idS idR : String} {ps ps' : Sender} {cs cs' : Receiver}
  {it it' : BlockServer} {s s' r r' : Option BlockLocal} {call : Call} {code : Int}

theorem hasSeen_of_hasEmptied (h : cs.hasEmptied = true) : cs.hasSeen = true := by
  cases cs <;> first | rfl | cases h

/-- Before the write, the block is as it was. -/
theorem Cell.unsent (h : Cell H idS idR ps cs it s r) (hps : ps.hasSent = false) :
    cs.hasEmptied = false ∧ it.revision = H.base ∧ H.Blank it.data := by
  have hcs : cs.hasEmptied = false := by
    cases hc : cs.hasEmptied with
    | false => rfl
    | true => cases hps.symm.trans (h.order (hasSeen_of_hasEmptied hc))
  refine ⟨hcs, ?_, ?_⟩
  · rw [h.revision, Handoff.revision, hps, hcs]
    exact (Int32.add_zero _).trans (Int32.add_zero _)
  · have hcontent := h.content
    rw [Handoff.Content, if_neg (by rw [hps]; exact fun hc => Bool.noConfusion hc.1)] at hcontent
    exact hcontent

/-- Between the two writes, it holds what was sent. -/
theorem Cell.full (h : Cell H idS idR ps cs it s r) (hps : ps.hasSent = true)
    (hcs : cs.hasEmptied = false) : it.revision = H.base + 1 ∧ H.Full it.data := by
  refine ⟨?_, ?_⟩
  · rw [h.revision, Handoff.revision, hps, hcs]
    exact Int32.add_zero _
  · have hcontent := h.content
    rw [Handoff.Content, if_pos ⟨hps, hcs⟩] at hcontent
    exact hcontent

/-- A party without a copy is not on the list. -/
theorem Cell.sender_absent (h : Cell H idS idR ps cs it none r) (hids : idS ≠ idR) :
    idS ∉ it.mappedClients := by
  rw [h.members]
  rintro (⟨-, hs⟩ | ⟨heq, -⟩)
  · cases hs
  · exact hids heq

theorem Cell.receiver_absent (h : Cell H idS idR ps cs it s none) (hids : idS ≠ idR) :
    idR ∉ it.mappedClients := by
  rw [h.members]
  rintro (⟨heq, -⟩ | ⟨-, hr⟩)
  · exact hids heq.symm
  · cases hr

/-! ## The list of the clients that mapped the block -/

/-- Who is on the list after a MAP. -/
theorem members_append {l : List String} {a b : String} {p q : Prop} (hnew : a ∉ l)
    (hl : l.Nodup) (hmem : ∀ id, id ∈ l ↔ (id = a ∧ p) ∨ (id = b ∧ q)) :
    (l ++ [a]).Nodup ∧ ∀ id, id ∈ l ++ [a] ↔ (id = a ∧ True) ∨ (id = b ∧ q) := by
  refine ⟨?_, fun id => ?_⟩
  · rw [List.nodup_append']
    refine ⟨hl, List.nodup_singleton a, fun x hx hxa => ?_⟩
    rw [List.mem_singleton.mp hxa] at hx
    exact hnew hx
  · rw [List.mem_append, List.mem_singleton, hmem]
    constructor
    · rintro ((⟨ha, -⟩ | hb) | ha)
      · exact Or.inl ⟨ha, trivial⟩
      · exact Or.inr hb
      · exact Or.inl ⟨ha, trivial⟩
    · rintro (⟨ha, -⟩ | hb)
      · exact Or.inr ha
      · exact Or.inl (Or.inr hb)

/-- Who is on it after an UNMAP. -/
theorem members_erase {l : List String} {a b : String} {p q : Prop} (hab : a ≠ b)
    (hl : l.Nodup) (hmem : ∀ id, id ∈ l ↔ (id = a ∧ p) ∨ (id = b ∧ q)) :
    (l.erase a).Nodup ∧ ∀ id, id ∈ l.erase a ↔ (id = a ∧ False) ∨ (id = b ∧ q) := by
  refine ⟨hl.erase a, fun id => ?_⟩
  rw [hl.mem_erase_iff, hmem]
  constructor
  · rintro ⟨hne, ⟨ha, -⟩ | hb⟩
    · exact absurd ha hne
    · exact Or.inr hb
  · rintro (⟨-, hfalse⟩ | ⟨hb, hq⟩)
    · exact hfalse.elim
    · refine ⟨?_, Or.inr ⟨hb, hq⟩⟩
      rw [hb]
      exact hab.symm

/-! ## The sender -/

/-- Before the write the sender may move as it likes. -/
theorem Cell.move (h : Cell H idS idR ps cs it s r) (hps : ps.hasSent = false)
    (hps' : ps'.hasSent = false) {l : List String} (hl : l.Nodup)
    (hmem : ∀ id, id ∈ l ↔ (id = idS ∧ s'.isSome = true) ∨ (id = idR ∧ r.isSome = true))
    (hs' : H.SenderCopy s' ps') :
    Cell H idS idR ps' cs { it with mappedClients := l } s' r := by
  obtain ⟨hcs, hrev, hblank⟩ := h.unsent hps
  refine ⟨h.id, hl, hmem, ?_, ?_, ?_, hs', ?_⟩
  · show it.revision = _
    rw [h.revision, Handoff.revision, Handoff.revision, hps, hps']
  · show H.Content ps' cs it.data
    rw [Handoff.Content, if_neg (by rw [hps']; exact fun hc => Bool.noConfusion hc.1)]
    exact hblank
  · intro hseen
    cases hps.symm.trans (h.order hseen)
  · have hr := h.receiver
    cases cs with
    | looking =>
        obtain ⟨revision, d, he, hcase⟩ := hr
        rcases hcase with hold | ⟨hsent, -⟩
        · exact ⟨revision, d, he, Or.inl hold⟩
        · cases hps.symm.trans hsent
    | absent => exact hr
    | woken => exact hr
    | taken => exact hr
    | emptied => exact hr
    | gone => exact hr
    | holding => exact hr
    | left => exact hr

/-- **A call of the sender** returns 0, and the cell is in order after it. -/
theorem sender_call (h : Cell H idS idR ps cs it s r) (hids : idS ≠ idR)
    (hdoes : SenderDoes H ps call ps')
    (hcall : contract idS call it s = some (code, it', s')) :
    code = 0 ∧ Cell H idS idR ps' cs it' s' r := by
  cases hdoes with
  | map address hk =>
      obtain rfl : s = none := h.sender
      have hnew := h.sender_absent hids
      rw [contract, if_neg hnew] at hcall
      obtain ⟨rfl, hrest⟩ := Prod.mk.inj (Option.some.inj hcall)
      obtain ⟨rfl, rfl⟩ := Prod.mk.inj hrest
      obtain ⟨hdistinct, hmembers⟩ := members_append hnew h.distinct h.members
      obtain ⟨-, hrev, -⟩ := h.unsent rfl
      refine ⟨rfl, h.move rfl rfl hdistinct ?_ ⟨it.data, ?_⟩⟩
      · intro id
        rw [hmembers]
        simp
      · rw [h.id, hrev]
  | write hk =>
      obtain ⟨d, rfl, hfull⟩ := h.sender
      obtain ⟨hcs, hrev, -⟩ := h.unsent rfl
      rw [contract, if_neg (by simp), if_pos hrev] at hcall
      obtain ⟨rfl, hrest⟩ := Prod.mk.inj (Option.some.inj hcall)
      obtain ⟨rfl, rfl⟩ := Prod.mk.inj hrest
      refine ⟨rfl, rfl, h.distinct, h.members, ?_, ?_, fun _ => rfl, ⟨_, rfl, hfull⟩, ?_⟩
      · show it.revision + 1 = _
        rw [hrev, Handoff.revision, hcs]
        exact (Int32.add_zero _).symm
      · show H.Content _ _ d
        rw [Handoff.Content, if_pos ⟨rfl, hcs⟩]
        exact hfull
      · have hr := h.receiver
        cases cs with
        | looking =>
            obtain ⟨revision, d₀, he, hcase⟩ := hr
            rcases hcase with hold | ⟨hsent, -⟩
            · exact ⟨revision, d₀, he, Or.inl hold⟩
            · cases hsent
        | absent => exact hr
        | woken => cases h.order rfl
        | taken => cases h.order rfl
        | emptied => cases h.order rfl
        | gone => cases h.order rfl
        | holding => cases h.order rfl
        | left => cases h.order rfl
  | unmap hk =>
      obtain ⟨e, rfl, -⟩ := h.sender
      have hmem : idS ∈ it.mappedClients := (h.members idS).mpr (Or.inl ⟨rfl, rfl⟩)
      rw [contract, if_pos hmem] at hcall
      obtain ⟨rfl, hrest⟩ := Prod.mk.inj (Option.some.inj hcall)
      obtain ⟨rfl, rfl⟩ := Prod.mk.inj hrest
      obtain ⟨hdistinct, hmembers⟩ := members_erase hids h.distinct h.members
      refine ⟨rfl, h.id, hdistinct, ?_, h.revision, h.content, fun _ => rfl, rfl, ?_⟩
      · intro id
        rw [hmembers]
        simp
      · exact h.receiver

/-- The sender fills its copy. -/
theorem sender_store (h : Cell H idS idR .mapped cs it s r) {d : Data} (hfull : H.Full d) :
    ∃ e, s = some e ∧ Cell H idS idR .filled cs it (some { e with data := d }) r := by
  obtain ⟨d₀, rfl⟩ := h.sender
  exact ⟨_, rfl, h.move rfl rfl h.distinct h.members ⟨d, rfl, hfull⟩⟩

/-! ## The receiver -/

/-- The receiver may move as it likes where it does not write. -/
theorem Cell.moveReceiver (h : Cell H idS idR ps cs it s r) (cs' : Receiver)
    (hcs : cs'.hasEmptied = cs.hasEmptied) {l : List String} (hl : l.Nodup)
    (hmem : ∀ id, id ∈ l ↔ (id = idR ∧ r'.isSome = true) ∨ (id = idS ∧ s.isSome = true))
    (horder : cs'.hasSeen = true → ps.hasSent = true) (hr' : H.ReceiverCopy ps r' cs') :
    Cell H idS idR ps cs' { it with mappedClients := l } s r' := by
  refine ⟨h.id, hl, fun id => (hmem id).trans or_comm, ?_, ?_, horder, h.sender, hr'⟩
  · show it.revision = _
    rw [h.revision, Handoff.revision, Handoff.revision, hcs]
  · show H.Content ps cs' it.data
    rw [Handoff.Content, hcs]
    exact h.content

/-- A MAP by the receiver. -/
theorem receiver_maps {address : Data} (h : Cell H idS idR ps .absent it s r) (hids : idS ≠ idR)
    (hcall : contract idR (.map H.k address) it r = some (code, it', r')) :
    code = 0 ∧ r' = some ⟨H.k, it.revision, it.data, true⟩ ∧
      ∃ l, it' = { it with mappedClients := l } ∧ l.Nodup ∧
        ∀ id, id ∈ l ↔ (id = idR ∧ r'.isSome = true) ∨ (id = idS ∧ s.isSome = true) := by
  obtain rfl : r = none := h.receiver
  have hnew := h.receiver_absent hids
  rw [contract, if_neg hnew] at hcall
  obtain ⟨rfl, hrest⟩ := Prod.mk.inj (Option.some.inj hcall)
  obtain ⟨rfl, rfl⟩ := Prod.mk.inj hrest
  obtain ⟨hdistinct, hmembers⟩ :=
    members_append hnew h.distinct fun id => (h.members id).trans or_comm
  refine ⟨rfl, ?_, _, rfl, hdistinct, fun id => ?_⟩
  · rw [h.id]
  · rw [hmembers]
    simp

/-- An UNMAP by the receiver. -/
theorem receiver_unmaps {e : BlockLocal} (h : Cell H idS idR ps cs it s (some e))
    (hids : idS ≠ idR) (hcall : contract idR (.unmap H.k) it (some e) = some (code, it', r')) :
    code = 0 ∧ r' = none ∧ ∃ l, it' = { it with mappedClients := l } ∧ l.Nodup ∧
      ∀ id, id ∈ l ↔ (id = idR ∧ r'.isSome = true) ∨ (id = idS ∧ s.isSome = true) := by
  have hmem : idR ∈ it.mappedClients := (h.members idR).mpr (Or.inr ⟨rfl, rfl⟩)
  rw [contract, if_pos hmem] at hcall
  obtain ⟨rfl, hrest⟩ := Prod.mk.inj (Option.some.inj hcall)
  obtain ⟨rfl, rfl⟩ := Prod.mk.inj hrest
  obtain ⟨hdistinct, hmembers⟩ :=
    members_erase hids.symm h.distinct fun id => (h.members id).trans or_comm
  refine ⟨rfl, rfl, _, rfl, hdistinct, fun id => ?_⟩
  rw [hmembers]
  simp

/-- **A call of the receiver** that returns, returns 0, and the cell is in order after it. -/
theorem receiver_call (h : Cell H idS idR ps cs it s r) (hids : idS ≠ idR)
    (hdoes : ReceiverDoes H ps cs call cs')
    (hcall : contract idR call it r = some (code, it', r')) :
    code = 0 ∧ Cell H idS idR ps cs' it' s r' := by
  have hmembers : ∀ id, id ∈ it.mappedClients ↔
      (id = idR ∧ r.isSome = true) ∨ (id = idS ∧ s.isSome = true) := fun id =>
    (h.members id).trans or_comm
  cases hdoes with
  | map address hk =>
      subst hk
      obtain ⟨rfl, rfl, l, rfl, hl, hmem⟩ := receiver_maps h hids hcall
      refine ⟨rfl, h.moveReceiver .looking rfl hl hmem (fun hs => by cases hs) ⟨_, _, rfl, ?_⟩⟩
      cases hps : ps.hasSent with
      | true =>
          obtain ⟨hrev, hfull⟩ := h.full hps rfl
          exact Or.inr ⟨rfl, hrev, hfull⟩
      | false =>
          obtain ⟨-, hrev, hblank⟩ := h.unsent hps
          exact Or.inl ⟨hrev, hblank⟩
  | wait hk =>
      obtain ⟨revision, d, rfl, hcase⟩ := h.receiver
      rw [contract, if_neg (by simp)] at hcall
      cases hps : ps.hasSent with
      | false =>
          -- nothing was written: the WAIT does not return
          obtain ⟨-, hrev, -⟩ := h.unsent hps
          rcases hcase with ⟨rfl, -⟩ | ⟨hsent, -⟩
          · rw [if_pos hrev] at hcall
            cases hcall
          · cases hps.symm.trans hsent
      | true =>
          obtain ⟨hrev, -⟩ := h.full hps rfl
          rcases hcase with ⟨rfl, -⟩ | ⟨-, rfl, -⟩
          · have hne : it.revision ≠ H.base := by
              rw [hrev]
              exact WrapCounter.add_one_ne _
            rw [if_neg hne] at hcall
            obtain ⟨rfl, hrest⟩ := Prod.mk.inj (Option.some.inj hcall)
            obtain ⟨rfl, rfl⟩ := Prod.mk.inj hrest
            exact ⟨rfl, h.moveReceiver .woken rfl h.distinct hmembers (fun _ => hps) ⟨d, rfl⟩⟩
          · rw [if_pos hrev] at hcall
            cases hcall
  | update hk hascends =>
      obtain ⟨d, rfl⟩ := h.receiver
      have hps := h.order rfl
      obtain ⟨hrev, hfull⟩ := h.full hps rfl
      have hne : H.base ≠ it.revision := by
        rw [hrev]
        exact (WrapCounter.add_one_ne _).symm
      have hlt : H.base < it.revision := by
        rw [hrev]
        exact hascends
      rw [contract, if_neg hne, if_pos hlt] at hcall
      obtain ⟨rfl, hrest⟩ := Prod.mk.inj (Option.some.inj hcall)
      obtain ⟨rfl, rfl⟩ := Prod.mk.inj hrest
      refine ⟨rfl, h.moveReceiver .looking rfl h.distinct hmembers (fun hs => by cases hs)
        ⟨it.revision, it.data, ?_, Or.inr ⟨hps, hrev, hfull⟩⟩⟩
      rw [h.id]
  | write hk =>
      obtain ⟨d, rfl, hblank⟩ := h.receiver
      have hps := h.order rfl
      obtain ⟨hrev, -⟩ := h.full hps rfl
      rw [contract, if_neg (by simp), if_pos hrev] at hcall
      obtain ⟨rfl, hrest⟩ := Prod.mk.inj (Option.some.inj hcall)
      obtain ⟨rfl, rfl⟩ := Prod.mk.inj hrest
      refine ⟨rfl, rfl, h.distinct, h.members, ?_, ?_, fun _ => hps, h.sender, ⟨_, rfl⟩⟩
      · show it.revision + 1 = _
        rw [hrev, Handoff.revision, hps]
        rfl
      · show H.Content ps .emptied d
        rw [Handoff.Content, if_neg (fun hc => Bool.noConfusion hc.2)]
        exact hblank
  | unmap hk =>
      subst hk
      obtain ⟨e, rfl⟩ := h.receiver
      obtain ⟨rfl, rfl, l, rfl, hl, hmem⟩ := receiver_unmaps h hids hcall
      exact ⟨rfl, h.moveReceiver .gone rfl hl hmem (fun _ => h.order rfl) rfl⟩
  | hold address hk hsent =>
      subst hk
      obtain ⟨rfl, rfl, l, rfl, hl, hmem⟩ := receiver_maps h hids hcall
      obtain ⟨-, hfull⟩ := h.full hsent rfl
      exact ⟨rfl, h.moveReceiver .holding rfl hl hmem (fun _ => hsent) ⟨_, rfl, hfull⟩⟩
  | leave hk =>
      subst hk
      obtain ⟨e, rfl, -⟩ := h.receiver
      obtain ⟨rfl, rfl, l, rfl, hl, hmem⟩ := receiver_unmaps h hids hcall
      exact ⟨rfl, h.moveReceiver .left rfl hl hmem (fun _ => h.order rfl) rfl⟩

/-- **What the receiver takes is what was sent**: if its copy is not blank, it holds what the
    sender filled in. -/
theorem receiver_store {e : BlockLocal} (h : Cell H idS idR ps .looking it s (some e))
    (hnew : ¬ H.Blank e.data) {d : Data} (hblank : H.Blank d) :
    ps.hasSent = true ∧ H.Full e.data ∧
      Cell H idS idR ps .taken it s (some { e with data := d }) := by
  obtain ⟨revision, d₀, he, hcase⟩ := h.receiver
  obtain rfl := Option.some.inj he
  rcases hcase with ⟨-, hold⟩ | ⟨hsent, rfl, hfull⟩
  · exact absurd hold hnew
  · refine ⟨hsent, hfull, h.moveReceiver .taken rfl h.distinct (fun id => ?_) (fun _ => hsent)
      ⟨d, rfl, hblank⟩⟩
    exact (h.members id).trans or_comm

/-! ## Either side -/

/-- One of the two, and how far it is. -/
inductive Side where
  | sender (ps : Sender)
  | receiver (cs : Receiver)
  deriving DecidableEq

/-- The calls of a side whose opposite is `q`. -/
inductive Does (H : Handoff) : (q p : Side) → Call → Side → Prop where
  | sender {q : Side} {ps ps' : Sender} {call : Call} (h : SenderDoes H ps call ps') :
      Does H q (.sender ps) call (.sender ps')
  | receiver {ps : Sender} {cs cs' : Receiver} {call : Call} (h : ReceiverDoes H ps cs call cs') :
      Does H (.sender ps) (.receiver cs) call (.receiver cs')

/-- What a side may make of the content of its copy. -/
inductive Stores (H : Handoff) : Side → (d d' : Data) → Side → Prop where
  | fill {d d' : Data} (hfull : H.Full d') : Stores H (.sender .mapped) d d' (.sender .filled)
  | take {d d' : Data} (hnew : ¬ H.Blank d) (hblank : H.Blank d') :
      Stores H (.receiver .looking) d d' (.receiver .taken)

/-- The cell as the side `p` sees it, with its opposite `q`. -/
def Meet (H : Handoff) (id id' : String) (p q : Side) (it : BlockServer)
    (c c' : Option BlockLocal) : Prop :=
  match p, q with
  | .sender ps, .receiver cs => Cell H id id' ps cs it c c'
  | .receiver cs, .sender ps => Cell H id' id ps cs it c' c
  | _, _ => False

section Meet

variable {id id' : String} {p p' q : Side} {c c' c₁ : Option BlockLocal}

theorem Meet.symm (h : Meet H id id' p q it c c') : Meet H id' id q p it c' c := by
  cases p with
  | sender ps =>
      cases q with
      | sender ps' => exact h
      | receiver cs => exact h
  | receiver cs =>
      cases q with
      | sender ps => exact h
      | receiver cs' => exact h

/-- **A call of either side** that returns, returns 0, and the two still meet. -/
theorem meet_call (h : Meet H id id' p q it c c') (hids : id ≠ id') (hdoes : Does H q p call p')
    (hcall : contract id call it c = some (code, it', c₁)) :
    code = 0 ∧ Meet H id id' p' q it' c₁ c' := by
  cases hdoes with
  | sender hsender =>
      cases q with
      | sender ps => exact h.elim
      | receiver cs => exact sender_call h hids hsender hcall
  | receiver hreceiver => exact receiver_call h hids.symm hreceiver hcall

/-- **A change of either side to its copy**, and the two still meet. -/
theorem meet_store {e : BlockLocal} (h : Meet H id id' p q it (some e) c') {d : Data}
    (hstores : Stores H p e.data d p') :
    Meet H id id' p' q it (some { e with data := d }) c' := by
  cases hstores with
  | fill hfull =>
      cases q with
      | sender ps => exact h.elim
      | receiver cs =>
          obtain ⟨e', he', hcell⟩ := sender_store h hfull
          rw [Option.some.inj he']
          exact hcell
  | take hnew hblank =>
      cases q with
      | sender ps => exact (receiver_store h hnew hblank).2.2
      | receiver cs => exact h.elim

/-- What a looking receiver finds. -/
theorem meet_looking (h : Meet H id id' (.receiver .looking) q it c c') :
    ∃ e, c = some e ∧ (¬ H.Blank e.data → H.Full e.data) := by
  cases q with
  | receiver cs => exact h.elim
  | sender ps =>
      obtain ⟨revision, d, rfl, hcase⟩ := Cell.receiver h
      refine ⟨_, rfl, fun hnew => ?_⟩
      rcases hcase with ⟨-, hold⟩ | ⟨-, -, hfull⟩
      · exact absurd hold hnew
      · exact hfull

/-- A sender that has mapped has a copy. -/
theorem meet_mapped (h : Meet H id id' (.sender .mapped) q it c c') : ∃ e, c = some e := by
  cases q with
  | sender ps => exact h.elim
  | receiver cs =>
      obtain ⟨d, rfl⟩ := Cell.sender h
      exact ⟨_, rfl⟩

/-- Who has sent or holds a block has what it is to hold. -/
theorem meet_full (h : Meet H id id' p q it c c')
    (hp : p = .sender .sent ∨ p = .receiver .holding) : ∃ e, c = some e ∧ H.Full e.data := by
  rcases hp with rfl | rfl
  · cases q with
    | sender ps => exact h.elim
    | receiver cs => exact Cell.sender h
  · cases q with
    | sender ps => exact Cell.receiver h
    | receiver cs => exact h.elim

/-- Whoever has seen a write, it was made. -/
theorem meet_seen {cs : Receiver} (h : Meet H id id' (.receiver cs) q it c c')
    (hseen : cs.hasSeen = true) : ∃ ps, q = .sender ps ∧ ps.hasSent = true := by
  cases q with
  | sender ps => exact ⟨ps, rfl, Cell.order h hseen⟩
  | receiver cs' => exact h.elim

/-! ## Which calls return -/

/-- Every call but a WAIT returns. -/
theorem contract_returns (id : String) (hwait : call.type ≠ .wait) (it : BlockServer)
    (c : Option BlockLocal) : ∃ code it' c₁, contract id call it c = some (code, it', c₁) := by
  cases call with
  | wait k => exact absurd rfl hwait
  | map k address =>
      cases c with
      | none =>
          rw [contract]
          split
          · exact ⟨_, _, _, rfl⟩
          · exact ⟨_, _, _, rfl⟩
      | some e => exact ⟨_, _, _, rfl⟩
  | unmap k =>
      cases c with
      | none => exact ⟨_, _, _, rfl⟩
      | some e =>
          rw [contract]
          split
          · exact ⟨_, _, _, rfl⟩
          · exact ⟨_, _, _, rfl⟩
  | update k =>
      cases c with
      | none => exact ⟨_, _, _, rfl⟩
      | some e =>
          rw [contract]
          split
          · exact ⟨_, _, _, rfl⟩
          · exact ⟨_, _, _, rfl⟩
  | write k =>
      cases c with
      | none => exact ⟨_, _, _, rfl⟩
      | some e =>
          rw [contract]
          split
          · exact ⟨_, _, _, rfl⟩
          · split
            · exact ⟨_, _, _, rfl⟩
            · exact ⟨_, _, _, rfl⟩

/-- Who waits is looking. -/
theorem does_wait (hdoes : Does H q p call p') (hwait : call.type = .wait) :
    p = .receiver .looking ∧ call = .wait H.k := by
  cases hdoes with
  | sender h =>
      cases h with
      | map address hk => cases hwait
      | write hk => cases hwait
      | unmap hk => cases hwait
  | receiver h =>
      cases h with
      | map address hk => cases hwait
      | wait hk =>
          rw [hk]
          exact ⟨rfl, rfl⟩
      | update hk hascends => cases hwait
      | write hk => cases hwait
      | unmap hk => cases hwait
      | hold address hk hsent => cases hwait
      | leave hk => cases hwait

/-- Who updates has waited. -/
theorem does_update (hdoes : Does H q p call p') (hupdate : call.type = .update) :
    p = .receiver .woken ∧ call = .update H.k := by
  cases hdoes with
  | sender h =>
      cases h with
      | map address hk => cases hupdate
      | write hk => cases hupdate
      | unmap hk => cases hupdate
  | receiver h =>
      cases h with
      | map address hk => cases hupdate
      | wait hk => cases hupdate
      | update hk hascends =>
          rw [hk]
          exact ⟨rfl, rfl⟩
      | write hk => cases hupdate
      | unmap hk => cases hupdate
      | hold address hk hsent => cases hupdate
      | leave hk => cases hupdate

/-- A copy from before the sender's write. -/
def Handoff.stale (H : Handoff) (c : Option BlockLocal) : Bool :=
  c.map BlockLocal.revision == some H.base

/-- A WAIT of the receiver returns for a copy from before the write only. -/
theorem stale_of_wait {k : Int32} (h : Meet H id id' (.receiver .looking) q it c c')
    (hwait : call = .wait k) (hcall : contract id call it c = some (code, it', c₁)) :
    H.stale c = true := by
  subst hwait
  cases q with
  | receiver cs => exact h.elim
  | sender ps =>
      obtain ⟨revision, d, rfl, hcase⟩ := Cell.receiver h
      rcases hcase with ⟨rfl, -⟩ | ⟨hsent, rfl, -⟩
      · exact beq_self_eq_true _
      · have hrev := (Cell.full h hsent rfl).1
        rw [contract, if_neg (by simp), if_pos hrev] at hcall
        cases hcall

/-- After an UPDATE the copy is from after the write. -/
theorem fresh_of_update {k : Int32} (h : Meet H id id' (.receiver .woken) q it c c')
    (hupdate : call = .update k) (hcall : contract id call it c = some (code, it', c₁)) :
    H.stale c₁ = false := by
  subst hupdate
  cases q with
  | receiver cs => exact h.elim
  | sender ps =>
      obtain ⟨d, rfl⟩ := Cell.receiver h
      obtain ⟨hrev, -⟩ := Cell.full h (Cell.order h rfl) rfl
      have hne : it.revision ≠ H.base := by
        rw [hrev]
        exact WrapCounter.add_one_ne _
      rw [contract, if_neg hne.symm] at hcall
      obtain ⟨-, hrest⟩ := Prod.mk.inj (Option.some.inj hcall)
      obtain ⟨-, rfl⟩ := Prod.mk.inj hrest
      simpa [Handoff.stale] using hne

/-- **The receiver does not wait for what was sent**: once the sender has written, a WAIT for a
    blank copy returns. -/
theorem wait_returns {k : Int32} {ps : Sender} {e : BlockLocal}
    (h : Meet H id id' (.receiver .looking) (.sender ps) it (some e) c')
    (hsent : ps.hasSent = true) (hnew : ∀ d, H.Full d → ¬ H.Blank d) (hblank : H.Blank e.data) :
    ∃ code it' c₁, contract id (.wait k) it (some e) = some (code, it', c₁) := by
  obtain ⟨revision, d, he, hcase⟩ := Cell.receiver h
  obtain rfl := Option.some.inj he
  rcases hcase with ⟨rfl, -⟩ | ⟨-, -, hfull⟩
  · have hne : it.revision ≠ H.base := by
      rw [(Cell.full h hsent rfl).1]
      exact WrapCounter.add_one_ne _
    rw [contract, if_neg (by simp), if_neg hne]
    exact ⟨_, _, _, rfl⟩
  · exact absurd hblank (hnew d hfull)

end Meet

/-! ## Before and after -/

/-- A block that nobody has mapped. -/
theorem Cell.fresh {it : BlockServer} (hid : it.id = H.k) (hnobody : ∀ id, id ∉ it.mappedClients)
    (hrev : it.revision = H.base) (hblank : H.Blank it.data) :
    Cell H idS idR .absent .absent it none none := by
  have hnil : it.mappedClients = [] := List.eq_nil_iff_forall_not_mem.mpr hnobody
  refine ⟨hid, ?_, ?_, ?_, ?_, ?_, rfl, rfl⟩
  · rw [hnil]
    exact List.nodup_nil
  · intro id
    rw [hnil]
    simp
  · rw [hrev]
    exact ((Int32.add_zero _).trans (Int32.add_zero _)).symm
  · rw [Handoff.Content, if_neg (fun hc => Bool.noConfusion hc.1)]
    exact hblank
  · intro hs
    cases hs

/-- Nobody has the block mapped when both are done with it. -/
theorem Cell.nobody (h : Cell H idS idR ps cs it none none) (id : String) :
    id ∉ it.mappedClients := by
  rw [h.members]
  rintro (⟨-, hs⟩ | ⟨-, hr⟩)
  · cases hs
  · cases hr

end DmHandoff
