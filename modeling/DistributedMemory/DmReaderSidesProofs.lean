import DistributedMemory.DmReaderProofs

/-!
# The sides that the readers keep to

Every block is handed over once in a round: the text blocks, the size and the spaces from
`reader1` to `reader2`, the words back. The three that are waited for come back blank.

* **`Test.handoff`** — what a block hands over in a round.
* **`Reader1.side`**, **`Reader2.side`** — how far a reader is with a block.
* **`reader1_call`**, **`reader1_store`**, **`reader2_call`**, **`reader2_store`** — what a
  reader does next is what its side of the block has next.
-/

namespace DmReader

open DmBlock DmClient DmServer DmCluster DmAtomic DmContract DmHandoff DmProgram LabelledRun

/-! ## What is handed over -/

namespace Test

/-- The text blocks. -/
def pages (T : Test) : List Int32 := textBlocks T.textsize

/-- All blocks of the test. -/
def keys (T : Test) : List Int32 := [100, 101, 102] ++ T.pages

/-- A block that is blank while its number is 0, and hands over the number `x`. It has been
    written twice in every round before. -/
def number (k : Int32) (r : Nat) (x : Int32) : Handoff where
  k := k
  base := Int32.ofNat (2 * r)
  Blank := fun d => readInt d = 0
  Full := fun d => readInt d = x

/-- What block `k` hands over in round `r`. -/
def handoff (T : Test) (r : Nat) (k : Int32) : Handoff :=
  if k = 100 then number k r (T.expected r).textsize
  else if k = 101 then number k r (T.expected r).nspaces
  else if k = 102 then number k r (T.expected r).nwords
  else ⟨k, Int32.ofNat r, fun _ => True, fun d => readText T.text k d = d⟩

@[simp] theorem handoff_k (T : Test) (r : Nat) (k : Int32) : (T.handoff r k).k = k := by
  rw [handoff]
  split
  · rfl
  · split
    · rfl
    · split <;> rfl

/-- The text fits below block 100. -/
def Fits (T : Test) : Prop := T.text.length < 99 * dimBlock

end Test

/-- An even count of writes is not where the sign changes. -/
theorem even_ascends (r : Nat) : Int32.ofNat (2 * r) < Int32.ofNat (2 * r) + 1 := by
  have hone : (1 : Int32).toInt = 1 := by decide
  have hsize : (Int32.size : Nat) = 0x100000000 := rfl
  rw [Int32.lt_iff_toInt_lt, Int32.toInt_add, hone, Int32.toInt_ofNat', hsize, Int.bmod_def,
    Int.bmod_def]
  split <;> split <;> omega

section Pages

variable {T : Test}

theorem Test.Fits.lt (h : T.Fits) : T.text.length < 0x80000000 :=
  Nat.lt_of_lt_of_le h (by decide)

theorem pages_eq (h : T.Fits) :
    T.pages = (List.range (T.text.length / dimBlock + 1)).map fun i => Int32.ofNat (i + 1) :=
  textBlocks_ofNat h.lt

/-- A text block is one of 1 to 99. -/
theorem mem_pages (h : T.Fits) {k : Int32} (hk : k ∈ T.pages) :
    ∃ i, 0 < i ∧ i < 100 ∧ k = Int32.ofNat i := by
  rw [pages_eq h] at hk
  obtain ⟨i, hi, rfl⟩ := List.mem_map.mp hk
  have hlt : T.text.length / dimBlock < 99 := Nat.div_lt_of_lt_mul (by
    rw [Nat.mul_comm]
    exact h)
  have hrange := List.mem_range.mp hi
  exact ⟨i + 1, Nat.succ_pos i, by omega, rfl⟩

theorem page_ne (h : T.Fits) {k : Int32} (hk : k ∈ T.pages) : k ≠ 100 ∧ k ≠ 101 ∧ k ≠ 102 := by
  obtain ⟨i, hpos, hlt, rfl⟩ := mem_pages h hk
  have hne : ∀ n : Nat, 100 ≤ n → n < 0x80000000 → Int32.ofNat i ≠ Int32.ofNat n := by
    intro n hn hn' heq
    have := (WrapCounter.ofNat_eq_iff (by omega) hn').mp heq
    omega
  exact ⟨hne 100 (by decide) (by decide), hne 101 (by decide) (by decide),
    hne 102 (by decide) (by decide)⟩

theorem pages_nodup (h : T.Fits) : T.pages.Nodup := by
  rw [pages_eq h]
  refine List.Nodup.map_on ?_ List.nodup_range
  intro i hi j hj heq
  have hlt := blocks_lt h.lt
  have hi := List.mem_range.mp hi
  have hj := List.mem_range.mp hj
  have := (WrapCounter.ofNat_eq_iff (by omega) (by omega)).mp heq
  omega

theorem keys_nodup (h : T.Fits) : T.keys.Nodup := by
  rw [Test.keys, List.nodup_append']
  refine ⟨by decide, pages_nodup h, fun k hk hpage => ?_⟩
  obtain ⟨h0, h1, h2⟩ := page_ne h hpage
  simp only [List.mem_cons, List.not_mem_nil, or_false] at hk
  rcases hk with hk | hk | hk
  · exact h0 hk
  · exact h1 hk
  · exact h2 hk

/-- A block of the test is one of the three or holds text. -/
theorem keys_cases {k : Int32} (hk : k ∈ T.keys) : k = 100 ∨ k = 101 ∨ k = 102 ∨ k ∈ T.pages := by
  rcases List.mem_append.mp hk with hk | hk
  · simp only [List.mem_cons, List.not_mem_nil, or_false] at hk
    rcases hk with hk | hk | hk
    · exact Or.inl hk
    · exact Or.inr (Or.inl hk)
    · exact Or.inr (Or.inr (Or.inl hk))
  · exact Or.inr (Or.inr (Or.inr hk))

theorem mem_keys_of_page {k : Int32} (hk : k ∈ T.pages) : k ∈ T.keys :=
  List.mem_append_right _ hk

theorem size_mem : (100 : Int32) ∈ T.keys := List.mem_append_left _ (by decide)

theorem spaces_mem : (101 : Int32) ∈ T.keys := List.mem_append_left _ (by decide)

theorem words_mem : (102 : Int32) ∈ T.keys := List.mem_append_left _ (by decide)

/-- The calls of `dm_block_unmap` go the other way round. -/
theorem mem_keys_iff {k : Int32} : k ∈ T.pages ++ [100, 101, 102] ↔ k ∈ T.keys := by
  rw [Test.keys, List.mem_append, List.mem_append, or_comm]

theorem unmaps_nodup (h : T.Fits) : (T.pages ++ [100, 101, 102]).Nodup :=
  (List.perm_append_comm).nodup_iff.mp (keys_nodup h)

/-- A text block hands over its part of the text. -/
theorem handoff_page (h : T.Fits) (r : Nat) {k : Int32} (hk : k ∈ T.pages) :
    T.handoff r k
      = ⟨k, Int32.ofNat r, fun _ => True, fun d => readText T.text k d = d⟩ := by
  obtain ⟨h0, h1, h2⟩ := page_ne h hk
  rw [Test.handoff, if_neg h0, if_neg h1, if_neg h2]

end Pages

/-! ## How far the readers are with a block -/

namespace Reader1

/-- How far `reader1` is with a block that it hands over. -/
def sender (k : Int32) : Reader1 → Sender
  | .map k' rest _ => if k ∈ k' :: rest then .absent else .mapped
  | .read k' rest => if k = 100 ∨ k = 101 ∨ k ∈ k' :: rest then .mapped else .filled
  | .writeText k' rest =>
      if k = 100 ∨ k = 101 then .mapped else if k ∈ k' :: rest then .filled else .sent
  | .putSize => if k = 100 ∨ k = 101 then .mapped else .sent
  | .writeSize => if k = 100 then .filled else if k = 101 then .mapped else .sent
  | .putSpaces => if k = 101 then .mapped else .sent
  | .writeSpaces _ => if k = 101 then .filled else .sent
  | .look _ | .update _ | .writeWords _ _ => .sent
  | .unmap k' rest _ => if k ∈ k' :: rest then .sent else .gone
  | .done _ | .failed => .gone

/-- How far it is with the words. -/
def receiver : Reader1 → Receiver
  | .map k' rest _ => if 102 ∈ k' :: rest then .absent else .looking
  | .read _ _ | .writeText _ _ | .putSize | .writeSize | .putSpaces | .writeSpaces _
  | .look _ => .looking
  | .update _ => .woken
  | .writeWords _ _ => .taken
  | .unmap k' rest _ => if 102 ∈ k' :: rest then .emptied else .gone
  | .done _ | .failed => .gone

def side (st : Reader1) (k : Int32) : Side :=
  if k = 102 then .receiver st.receiver else .sender (st.sender k)

end Reader1

namespace Reader2

/-- How far `reader2` is with a block that is handed to it. -/
def receiver (k : Int32) : Reader2 → Receiver
  | .map k' rest _ =>
      if k ∈ k' :: rest then .absent else if k = 100 ∨ k = 101 then .looking else .absent
  | .lookSize => if k = 100 ∨ k = 101 then .looking else .absent
  | .updateSize => if k = 100 then .woken else if k = 101 then .looking else .absent
  | .writeSize _ => if k = 100 then .taken else if k = 101 then .looking else .absent
  | .mapText k' rest _ =>
      if k = 100 then .emptied else if k = 101 then .looking
      else if k ∈ k' :: rest then .absent else .holding
  | .putWords _ | .writeWords _ _ | .look _ _ =>
      if k = 100 then .emptied else if k = 101 then .looking else .holding
  | .update _ _ => if k = 100 then .emptied else if k = 101 then .woken else .holding
  | .writeSpaces _ _ _ => if k = 100 then .emptied else if k = 101 then .taken else .holding
  | .unmap k' rest _ =>
      if k = 100 ∨ k = 101 then (if k ∈ k' :: rest then .emptied else .gone)
      else if k ∈ k' :: rest then .holding else .left
  | .done _ | .failed => if k = 100 ∨ k = 101 then .gone else .left

/-- How far it is with the words. -/
def sender : Reader2 → Sender
  | .map k' rest _ => if 102 ∈ k' :: rest then .absent else .mapped
  | .lookSize | .updateSize | .writeSize _ | .mapText _ _ _ | .putWords _ => .mapped
  | .writeWords _ _ => .filled
  | .look _ _ | .update _ _ | .writeSpaces _ _ _ => .sent
  | .unmap k' rest _ => if 102 ∈ k' :: rest then .sent else .gone
  | .done _ | .failed => .gone

def side (st : Reader2) (k : Int32) : Side :=
  if k = 102 then .sender st.sender else .receiver (st.receiver k)

end Reader2

/-! ## What the readers carry along -/

/-- What `reader1` has found out is right, and what it still has to do is the end of a list.
    It takes no 0 for the number of words. -/
def Reader1.Sound (T : Test) (r : Nat) : Reader1 → Prop
  | .map k rest res => k :: rest <:+ T.keys ∧ res = 0
  | .read k rest | .writeText k rest => k :: rest <:+ T.pages
  | .putSize | .writeSize | .putSpaces => True
  | .writeSpaces nspaces | .look nspaces | .update nspaces => nspaces = (T.expected r).nspaces
  | .writeWords nspaces nwords =>
      nspaces = (T.expected r).nspaces ∧ nwords = (T.expected r).nwords ∧
        (T.expected r).nwords ≠ 0
  | .unmap k rest out =>
      k :: rest <:+ T.pages ++ [100, 101, 102] ∧ out = T.expected r ∧ (T.expected r).nwords ≠ 0
  | .done out => out = T.expected r ∧ (T.expected r).nwords ≠ 0
  | .failed => False

/-- The same of `reader2`, which takes no 0 for the size and for the number of spaces. -/
def Reader2.Sound (T : Test) (r : Nat) : Reader2 → Prop
  | .map k rest res => k :: rest <:+ [100, 101, 102] ∧ res = 0
  | .lookSize | .updateSize => True
  | .writeSize textsize | .putWords textsize =>
      textsize = (T.expected r).textsize ∧ (T.expected r).textsize ≠ 0
  | .mapText k rest textsize =>
      k :: rest <:+ T.pages ∧ textsize = (T.expected r).textsize ∧ (T.expected r).textsize ≠ 0
  | .writeWords textsize nwords | .look textsize nwords | .update textsize nwords =>
      textsize = (T.expected r).textsize ∧ nwords = (T.expected r).nwords ∧
        (T.expected r).textsize ≠ 0
  | .writeSpaces textsize nwords nspaces =>
      textsize = (T.expected r).textsize ∧ nwords = (T.expected r).nwords ∧
        nspaces = (T.expected r).nspaces ∧ (T.expected r).textsize ≠ 0 ∧
        (T.expected r).nspaces ≠ 0
  | .unmap k rest out =>
      k :: rest <:+ T.pages ++ [100, 101, 102] ∧ out = T.expected r ∧
        (T.expected r).textsize ≠ 0 ∧ (T.expected r).nspaces ≠ 0
  | .done out => out = T.expected r ∧ (T.expected r).textsize ≠ 0 ∧ (T.expected r).nspaces ≠ 0
  | .failed => False

/-- A call that a reader makes next: it is one of its side of the block, and leaves its side
    of the others as it is. -/
structure Keeps {σ : Type} (T : Test) (r : Nat) (side : σ → Int32 → Side)
    (Sound : σ → Prop) (q : Int32 → Side) (st : σ) (call : Call) (st' : σ) : Prop where
  mem : call.id ∈ T.keys
  does : Does (T.handoff r call.id) (q call.id) (side st call.id) call (side st' call.id)
  other : ∀ k ∈ T.keys, k ≠ call.id → side st' k = side st k
  sound : Sound st'

/-- The same of a change to its memory, where `d` was. -/
structure Puts {σ : Type} (T : Test) (r : Nat) (side : σ → Int32 → Side)
    (Sound : σ → Prop) (st : σ) (k : Int32) (d d' : Data) (st' : σ) : Prop where
  mem : k ∈ T.keys
  stores : Stores (T.handoff r k) (side st k) d d' (side st' k)
  other : ∀ k' ∈ T.keys, k' ≠ k → side st' k' = side st k'
  sound : Sound st'

section Look

variable {σ : Type} {x k id : Int32} {d data : Data} {next next' : σ} {call : Call}

/-- Who looks waits as long as it finds 0. -/
theorem look_call (h : (if x = 0 then Act.call (.wait k) else .store k d next) = .call call) :
    x = 0 ∧ call = .wait k := by
  split at h
  · exact ⟨‹_›, (Act.call.inj h).symm⟩
  · cases h

theorem look_store (h : (if x = 0 then Act.call (.wait k) else .store k d next)
    = .store id data next') : x ≠ 0 ∧ id = k ∧ data = d ∧ next' = next := by
  split at h
  · cases h
  · obtain ⟨rfl, rfl, rfl⟩ := Act.store.inj h
    exact ⟨‹_›, rfl, rfl, rfl⟩

end Look

/-! ## `reader1` keeps to its sides -/

section First

variable {T : Test} {r : Nat} {k : Int32} {l : List Int32}

namespace Reader1

theorem side_words (st : Reader1) : st.side 102 = .receiver st.receiver := rfl

theorem side_of_ne (st : Reader1) (hk : k ≠ 102) : st.side k = .sender (st.sender k) := if_neg hk

/-- A reader that stays where it is with a block. -/
theorem side_eq {st st' : Reader1} (hs : k ≠ 102 → st'.sender k = st.sender k)
    (hr : k = 102 → st'.receiver = st.receiver) : st'.side k = st.side k := by
  by_cases hk : k = 102
  · rw [hk, side_words, side_words, hr hk]
  · rw [side_of_ne _ hk, side_of_ne _ hk, hs hk]

theorem sender_writing (k : Int32) (l : List Int32) :
    (writing l).sender k
      = if k = 100 ∨ k = 101 then .mapped else if k ∈ l then .filled else .sent := by
  cases l with
  | nil => simp [writing, sender]
  | cons k' rest => rfl

theorem sender_reading (hk : k ∈ T.keys) (hne : k ≠ 102) (l : List Int32) :
    (reading T.textsize l).sender k
      = if k = 100 ∨ k = 101 ∨ k ∈ l then .mapped else .filled := by
  cases l with
  | nil =>
      rw [reading, sender_writing]
      rcases keys_cases hk with rfl | rfl | rfl | hpage
      · rfl
      · rfl
      · exact absurd rfl hne
      · have hpage' : k ∈ textBlocks T.textsize := hpage
        simp [hpage']
  | cons k' rest => rfl

theorem sender_mapping (hk : k ∈ T.keys) (hne : k ≠ 102) (l : List Int32) :
    (mapping T.textsize 0 l).sender k = if k ∈ l then .absent else .mapped := by
  cases l with
  | nil =>
      rw [mapping, if_neg (by decide), sender_reading hk hne]
      rcases keys_cases hk with rfl | rfl | rfl | hpage
      · rfl
      · rfl
      · exact absurd rfl hne
      · have hpage' : k ∈ textBlocks T.textsize := hpage
        simp [hpage']
  | cons k' rest => rfl

theorem sender_unmapping (out : Output) (k : Int32) (l : List Int32) :
    (unmapping out l).sender k = if k ∈ l then .sent else .gone := by
  cases l with
  | nil => simp [unmapping, sender]
  | cons k' rest => rfl

theorem receiver_writing (l : List Int32) : (writing l).receiver = .looking := by
  cases l <;> rfl

theorem receiver_reading (textsize : Int32) (l : List Int32) :
    (reading textsize l).receiver = .looking := by
  cases l with
  | nil => exact receiver_writing _
  | cons k' rest => rfl

theorem receiver_mapping (textsize : Int32) (l : List Int32) :
    (mapping textsize 0 l).receiver = if 102 ∈ l then .absent else .looking := by
  cases l with
  | nil => exact receiver_reading ..
  | cons k' rest => rfl

theorem receiver_unmapping (out : Output) (l : List Int32) :
    (unmapping out l).receiver = if 102 ∈ l then .emptied else .gone := by
  cases l with
  | nil => rfl
  | cons k' rest => rfl

theorem sound_writing (hl : l <:+ T.pages) : (writing l).Sound T r := by
  cases l with
  | nil => trivial
  | cons k' rest => exact hl

theorem sound_reading (hl : l <:+ T.pages) : (reading T.textsize l).Sound T r := by
  cases l with
  | nil => exact sound_writing (List.suffix_refl _)
  | cons k' rest => exact hl

theorem sound_mapping (hl : l <:+ T.keys) : (mapping T.textsize 0 l).Sound T r := by
  cases l with
  | nil => exact sound_reading (List.suffix_refl _)
  | cons k' rest => exact ⟨hl, rfl⟩

theorem sound_unmapping (hl : l <:+ T.pages ++ [100, 101, 102])
    (hwords : (T.expected r).nwords ≠ 0) : (unmapping (T.expected r) l).Sound T r := by
  cases l with
  | nil => exact ⟨rfl, hwords⟩
  | cons k' rest => exact ⟨hl, rfl, hwords⟩

end Reader1

/-- The head of the end of a list without repetitions. -/
theorem head_of_suffix {k : Int32} {rest l : List Int32} (hl : l.Nodup) (h : k :: rest <:+ l) :
    k ∈ l ∧ rest <:+ l ∧ k ∉ rest :=
  ⟨h.subset List.mem_cons_self, (List.suffix_cons k rest).trans h,
    (List.nodup_cons.mp (hl.sublist h.sublist)).1⟩

variable {heap : Int32 → Data} {blocks : Int32 → Option BlockLocal} {q : Int32 → Side}
  {st : Reader1} {call : Call}

/-- **The calls of `reader1`.** -/
theorem reader1_call (hfits : T.Fits) (hsound : st.Sound T r) (hq : ∃ ps, q 102 = .sender ps)
    (hact : (reader1 T.text (T.unset r) heap).act st blocks = .call call) :
    Keeps T r Reader1.side (Reader1.Sound T r) q st call
      ((reader1 T.text (T.unset r) heap).resume st 0) := by
  obtain ⟨ps, hps⟩ := hq
  cases st with
  | map k rest res =>
      obtain ⟨hsuffix, rfl⟩ := hsound
      obtain ⟨hmem, hrest, hnew⟩ := head_of_suffix (keys_nodup hfits) hsuffix
      obtain rfl := Act.call.inj hact
      refine ⟨hmem, ?_, ?_, Reader1.sound_mapping hrest⟩
      · show Does (T.handoff r k) (q k) (Reader1.side (.map k rest 0) k) (.map k (heap k))
          (Reader1.side (Reader1.mapping T.textsize 0 rest) k)
        by_cases hk : k = 102
        · subst hk
          rw [hps, Reader1.side_words, Reader1.side_words, Reader1.receiver_mapping,
            if_neg hnew, Reader1.receiver, if_pos List.mem_cons_self]
          exact .receiver (.map _ (T.handoff_k r _))
        · rw [Reader1.side_of_ne _ hk, Reader1.side_of_ne _ hk, Reader1.sender_mapping hmem hk,
            if_neg hnew, Reader1.sender, if_pos List.mem_cons_self]
          exact .sender (.map _ (T.handoff_k r _))
      · intro k' hk' hne
        have hne' : k' ≠ k := hne
        refine Reader1.side_eq (fun hk => ?_) fun hk => ?_
        · show (Reader1.mapping T.textsize 0 rest).sender k' = _
          rw [Reader1.sender_mapping hk' hk, Reader1.sender]
          simp [hne']
        · show (Reader1.mapping T.textsize 0 rest).receiver = _
          rw [Reader1.receiver_mapping, Reader1.receiver]
          simp [show (102 : Int32) ≠ k from hk ▸ hne']
  | read k rest => cases hact
  | writeText k rest =>
      obtain ⟨hmem, hrest, hnew⟩ := head_of_suffix (pages_nodup hfits) hsound
      obtain ⟨h0, h1, h2⟩ := page_ne hfits hmem
      obtain rfl := Act.call.inj hact
      refine ⟨mem_keys_of_page hmem, ?_, ?_, Reader1.sound_writing hrest⟩
      · show Does (T.handoff r k) (q k) (Reader1.side (.writeText k rest) k) (.write k)
          (Reader1.side (Reader1.writing rest) k)
        rw [Reader1.side_of_ne _ h2, Reader1.side_of_ne _ h2, Reader1.sender_writing,
          Reader1.sender]
        simp only [h0, h1, hnew, or_self, if_false, List.mem_cons_self, if_true]
        exact .sender (.write (T.handoff_k r _))
      · intro k' _ hne
        have hne' : k' ≠ k := hne
        refine Reader1.side_eq (fun _ => ?_) fun _ => Reader1.receiver_writing rest
        show (Reader1.writing rest).sender k' = _
        rw [Reader1.sender_writing, Reader1.sender]
        simp [hne']
  | writeSize =>
      obtain rfl := Act.call.inj hact
      refine ⟨size_mem, .sender (.write (T.handoff_k r _)), ?_, trivial⟩
      intro k' _ hne
      have hne' : k' ≠ 100 := hne
      refine Reader1.side_eq (fun _ => ?_) fun _ => rfl
      show (if k' = 101 then Sender.mapped else .sent) = Reader1.sender k' .writeSize
      rw [Reader1.sender, if_neg hne']
  | putSpaces => cases hact
  | putSize => cases hact
  | writeSpaces nspaces =>
      obtain rfl := Act.call.inj hact
      refine ⟨spaces_mem, .sender (.write (T.handoff_k r _)), ?_, hsound⟩
      intro k' _ hne
      have hne' : k' ≠ 101 := hne
      refine Reader1.side_eq (fun _ => ?_) fun _ => rfl
      show Sender.sent = Reader1.sender k' (.writeSpaces nspaces)
      rw [Reader1.sender, if_neg hne']
  | look nspaces =>
      obtain ⟨-, rfl⟩ := look_call hact
      refine ⟨words_mem, ?_, ?_, hsound⟩
      · show Does _ (q 102) _ _ _
        rw [hps]
        exact .receiver (.wait (T.handoff_k r _))
      · intro k' _ hne
        exact Reader1.side_eq (fun _ => rfl) fun hk => absurd hk hne
  | update nspaces =>
      obtain rfl := Act.call.inj hact
      refine ⟨words_mem, ?_, ?_, hsound⟩
      · show Does _ (q 102) _ _ _
        rw [hps]
        exact .receiver (.update (T.handoff_k r _) (even_ascends r))
      · intro k' _ hne
        exact Reader1.side_eq (fun _ => rfl) fun hk => absurd hk hne
  | writeWords nspaces nwords =>
      obtain ⟨rfl, rfl, hwords⟩ := hsound
      obtain rfl := Act.call.inj hact
      refine ⟨words_mem, ?_, ?_, Reader1.sound_unmapping (List.suffix_refl _) hwords⟩
      · show Does _ (q 102) _ _ (Reader1.side (Reader1.unmapping (T.expected r)
          (T.pages ++ [100, 101, 102])) 102)
        rw [hps, Reader1.side_words, Reader1.receiver_unmapping, if_pos (by simp)]
        exact .receiver (.write (T.handoff_k r _))
      · intro k' hk' hne
        refine Reader1.side_eq (fun _ => ?_) fun hk => absurd hk hne
        show (Reader1.unmapping (T.expected r) (T.pages ++ [100, 101, 102])).sender k' = .sent
        rw [Reader1.sender_unmapping, if_pos (mem_keys_iff.mpr hk')]
  | unmap k rest out =>
      obtain ⟨hsuffix, rfl, hwords⟩ := hsound
      obtain ⟨hmem, hrest, hnew⟩ := head_of_suffix (unmaps_nodup hfits) hsuffix
      obtain rfl := Act.call.inj hact
      refine ⟨mem_keys_iff.mp hmem, ?_, ?_, Reader1.sound_unmapping hrest hwords⟩
      · show Does (T.handoff r k) (q k) (Reader1.side (.unmap k rest _) k) (.unmap k)
          (Reader1.side (Reader1.unmapping _ rest) k)
        by_cases hk : k = 102
        · subst hk
          rw [hps, Reader1.side_words, Reader1.side_words, Reader1.receiver_unmapping,
            if_neg hnew, Reader1.receiver, if_pos List.mem_cons_self]
          exact .receiver (.unmap (T.handoff_k r _))
        · rw [Reader1.side_of_ne _ hk, Reader1.side_of_ne _ hk, Reader1.sender_unmapping,
            if_neg hnew, Reader1.sender, if_pos List.mem_cons_self]
          exact .sender (.unmap (T.handoff_k r _))
      · intro k' _ hne
        have hne' : k' ≠ k := hne
        refine Reader1.side_eq (fun _ => ?_) fun hk => ?_
        · show (Reader1.unmapping _ rest).sender k' = _
          rw [Reader1.sender_unmapping, Reader1.sender]
          simp [hne']
        · show (Reader1.unmapping _ rest).receiver = _
          rw [Reader1.receiver_unmapping, Reader1.receiver]
          simp [show (102 : Int32) ≠ k from hk ▸ hne']
  | done out => cases hact
  | failed => cases hact

/-- A reader meets the other on every block. -/
def Meets (T : Test) (r : Nat) (p q : Int32 → Side) (blocks : Int32 → Option BlockLocal) : Prop :=
  ∀ k ∈ T.keys, ∃ id id' it c', Meet (T.handoff r k) id id' (p k) (q k) it (blocks k) c'

theorem memory_eq {e : BlockLocal} (h : blocks k = some e) : memory blocks k = e.data := by
  rw [memory, h]

/-- Where the text blocks were sent or are held, the memory is the text. -/
theorem memory_text {p : Int32 → Side} (hfits : T.Fits) (hmeet : Meets T r p q blocks)
    (hp : ∀ k ∈ T.pages, p k = .sender .sent ∨ p k = .receiver .holding) :
    (textbuffer (memory blocks) T.textsize).take T.textsize.toInt.toNat = T.text := by
  refine textbuffer_eq hfits.lt fun k hk => ?_
  obtain ⟨id, id', it, c', h⟩ := hmeet k (mem_keys_of_page hk)
  obtain ⟨e, he, hfull⟩ := meet_full h (hp k hk)
  rw [handoff_page hfits r hk] at hfull
  rw [memory_eq he]
  exact hfull

/-- What is taken from a block that hands over a number. -/
theorem taken_number {p : Int32 → Side} {x : Int32} (hmeet : Meets T r p q blocks)
    (hk : k ∈ T.keys) (hp : p k = .receiver .looking)
    (hhandoff : T.handoff r k = Test.number k r x) (hnew : readInt (memory blocks k) ≠ 0) :
    readInt (memory blocks k) = x := by
  obtain ⟨id, id', it, c', h⟩ := hmeet k hk
  rw [hp] at h
  obtain ⟨e, he, hfull⟩ := meet_looking h
  rw [hhandoff] at hfull
  rw [memory_eq he] at hnew ⊢
  exact hfull hnew

/-- **The changes of `reader1`** to its memory. -/
theorem reader1_store {id : Int32} {data : Data} {next : Reader1} (hfits : T.Fits)
    (hsound : st.Sound T r) (hmeet : Meets T r st.side q blocks)
    (hact : (reader1 T.text (T.unset r) heap).act st blocks = .store id data next) :
    Puts T r Reader1.side (Reader1.Sound T r) st id (memory blocks id) data next := by
  cases st with
  | map k rest res => cases hact
  | read k rest =>
      obtain ⟨hmem, hrest, hnew⟩ := head_of_suffix (pages_nodup hfits) hsound
      obtain ⟨h0, h1, h2⟩ := page_ne hfits hmem
      obtain ⟨rfl, rfl, rfl⟩ := Act.store.inj hact
      refine ⟨mem_keys_of_page hmem, ?_, ?_, Reader1.sound_reading hrest⟩
      · show Stores _ (Reader1.side (.read k rest) k) _ _
          (Reader1.side (Reader1.reading T.textsize rest) k)
        rw [Reader1.side_of_ne _ h2, Reader1.side_of_ne _ h2,
          Reader1.sender_reading (mem_keys_of_page hmem) h2, Reader1.sender]
        simp only [h0, h1, hnew, or_self, if_false, List.mem_cons_self, or_true, if_true]
        refine .fill ?_
        rw [handoff_page hfits r hmem]
        exact readText_twice ..
      · intro k' hk' hne
        refine Reader1.side_eq (fun hk => ?_) fun _ => Reader1.receiver_reading ..
        show (Reader1.reading T.textsize rest).sender k' = _
        rw [Reader1.sender_reading hk' hk, Reader1.sender]
        simp [hne]
  | writeText k rest => cases hact
  | putSize =>
      obtain ⟨rfl, rfl, rfl⟩ := Act.store.inj hact
      refine ⟨size_mem, .fill (readInt_storeInt ..), ?_, trivial⟩
      intro k' _ hne
      refine Reader1.side_eq (fun _ => ?_) fun _ => rfl
      rw [Reader1.sender, Reader1.sender]
      simp [hne]
  | writeSize => cases hact
  | putSpaces =>
      have htext := memory_text hfits hmeet fun k hk => by
        obtain ⟨h0, h1, h2⟩ := page_ne hfits hk
        rw [Reader1.side_of_ne _ h2, Reader1.sender, if_neg h1]
        exact Or.inl rfl
      have hspaces : countSpaces (T.unset r) ((textbuffer (memory blocks) T.textsize).take
          T.textsize.toInt.toNat) = (T.expected r).nspaces := by
        rw [htext]
        rfl
      obtain ⟨rfl, rfl, rfl⟩ := Act.store.inj hact
      refine ⟨spaces_mem, .fill ?_, ?_, hspaces⟩
      · exact (readInt_storeInt ..).trans hspaces
      · intro k' _ hne
        refine Reader1.side_eq (fun _ => ?_) fun _ => rfl
        show (if k' = 101 then Sender.filled else .sent) = Reader1.sender k' .putSpaces
        rw [Reader1.sender, if_neg hne, if_neg hne]
  | writeSpaces nspaces => cases hact
  | look nspaces =>
      obtain ⟨hnew, rfl, rfl, rfl⟩ := look_store hact
      have htaken := taken_number hmeet words_mem rfl rfl hnew
      refine ⟨words_mem, .take hnew (readInt_storeInt ..), ?_, hsound, htaken, ?_⟩
      · intro k' _ hne
        exact Reader1.side_eq (fun _ => rfl) fun hk => absurd hk hne
      · rw [← htaken]
        exact hnew
  | update nspaces => cases hact
  | writeWords nspaces nwords => cases hact
  | unmap k rest out => cases hact
  | done out => cases hact
  | failed => cases hact

end First

/-! ## `reader2` keeps to its sides -/

section Second

variable {T : Test} {r : Nat} {k : Int32} {l : List Int32}

/-- When `reader1` has written the size, it has written the text. -/
theorem Reader1.sent_pages (hfits : T.Fits) {st : Reader1}
    (h : (st.sender 100).hasSent = true) (hk : k ∈ T.pages) :
    (st.sender k).hasSent = true := by
  obtain ⟨h0, h1, h2⟩ := page_ne hfits hk
  cases st with
  | map k' rest res =>
      rw [sender] at h
      split at h <;> cases h
  | read k' rest => cases h
  | writeText k' rest => cases h
  | putSize => cases h
  | writeSize => cases h
  | putSpaces =>
      rw [sender, if_neg h1]
      rfl
  | writeSpaces nspaces =>
      rw [sender, if_neg h1]
      rfl
  | look nspaces => rfl
  | update nspaces => rfl
  | writeWords nspaces nwords => rfl
  | unmap k' rest out =>
      rw [sender]
      split <;> rfl
  | done out => rfl
  | failed => rfl

namespace Reader2

theorem side_words (st : Reader2) : st.side 102 = .sender st.sender := rfl

theorem side_of_ne (st : Reader2) (hk : k ≠ 102) : st.side k = .receiver (st.receiver k) :=
  if_neg hk

theorem side_eq {st st' : Reader2} (hr : k ≠ 102 → st'.receiver k = st.receiver k)
    (hs : k = 102 → st'.sender = st.sender) : st'.side k = st.side k := by
  by_cases hk : k = 102
  · rw [hk, side_words, side_words, hs hk]
  · rw [side_of_ne _ hk, side_of_ne _ hk, hr hk]

theorem receiver_mapping (k : Int32) (l : List Int32) :
    (mapping 0 l).receiver k
      = if k ∈ l then .absent else if k = 100 ∨ k = 101 then .looking else .absent := by
  cases l <;> rfl

theorem sender_mapping (l : List Int32) :
    (mapping 0 l).sender = if 102 ∈ l then .absent else .mapped := by
  cases l <;> rfl

theorem receiver_mappingText (textsize k : Int32) (l : List Int32) :
    (mappingText textsize l).receiver k
      = if k = 100 then .emptied else if k = 101 then .looking
        else if k ∈ l then .absent else .holding := by
  cases l with
  | nil => simp [mappingText, receiver]
  | cons k' rest => rfl

theorem sender_mappingText (textsize : Int32) (l : List Int32) :
    (mappingText textsize l).sender = .mapped := by
  cases l <;> rfl

theorem receiver_unmapping (out : Output) (k : Int32) (l : List Int32) :
    (unmapping out l).receiver k
      = if k = 100 ∨ k = 101 then (if k ∈ l then .emptied else .gone)
        else if k ∈ l then .holding else .left := by
  cases l with
  | nil => simp [unmapping, receiver]
  | cons k' rest => rfl

theorem sender_unmapping (out : Output) (l : List Int32) :
    (unmapping out l).sender = if 102 ∈ l then .sent else .gone := by
  cases l <;> rfl

theorem sound_mapping (hl : l <:+ [100, 101, 102]) : (mapping 0 l).Sound T r := by
  cases l with
  | nil => trivial
  | cons k' rest => exact ⟨hl, rfl⟩

theorem sound_mappingText (hl : l <:+ T.pages) (hsize : (T.expected r).textsize ≠ 0) :
    (mappingText (T.expected r).textsize l).Sound T r := by
  cases l with
  | nil => exact ⟨rfl, hsize⟩
  | cons k' rest => exact ⟨hl, rfl, hsize⟩

theorem sound_unmapping (hl : l <:+ T.pages ++ [100, 101, 102])
    (hnew : (T.expected r).textsize ≠ 0 ∧ (T.expected r).nspaces ≠ 0) :
    (unmapping (T.expected r) l).Sound T r := by
  cases l with
  | nil => exact ⟨rfl, hnew⟩
  | cons k' rest => exact ⟨hl, rfl, hnew⟩

end Reader2

variable {heap : Int32 → Data} {blocks : Int32 → Option BlockLocal} {st : Reader2}
  {first : Reader1} {call : Call}

/-- **The calls of `reader2`.** -/
theorem reader2_call (hfits : T.Fits) (hsound : st.Sound T r)
    (hmeet : Meets T r st.side first.side blocks)
    (hact : (reader2 heap).act st blocks = .call call) :
    Keeps T r Reader2.side (Reader2.Sound T r) first.side st call
      ((reader2 heap).resume st 0) := by
  cases st with
  | map k rest res =>
      obtain ⟨hsuffix, rfl⟩ := hsound
      obtain ⟨hmem, hrest, hnew⟩ := head_of_suffix (by decide) hsuffix
      obtain rfl := Act.call.inj hact
      refine ⟨List.mem_append_left _ hmem, ?_, ?_, Reader2.sound_mapping hrest⟩
      · show Does (T.handoff r k) (first.side k) (Reader2.side (.map k rest 0) k)
          (.map k (heap k)) (Reader2.side (Reader2.mapping 0 rest) k)
        by_cases hk : k = 102
        · subst hk
          rw [Reader2.side_words, Reader2.side_words, Reader2.sender_mapping, if_neg hnew,
            Reader2.sender, if_pos List.mem_cons_self]
          exact .sender (.map _ (T.handoff_k r _))
        · have hlooking : k = 100 ∨ k = 101 := by
            simp only [List.mem_cons, List.not_mem_nil, or_false] at hmem
            rcases hmem with h | h | h
            · exact Or.inl h
            · exact Or.inr h
            · exact absurd h hk
          rw [Reader1.side_of_ne _ hk, Reader2.side_of_ne _ hk, Reader2.side_of_ne _ hk,
            Reader2.receiver_mapping, if_neg hnew, if_pos hlooking, Reader2.receiver,
            if_pos List.mem_cons_self]
          exact .receiver (.map _ (T.handoff_k r _))
      · intro k' _ hne
        have hne' : k' ≠ k := hne
        refine Reader2.side_eq (fun _ => ?_) fun hk => ?_
        · show (Reader2.mapping 0 rest).receiver k' = _
          rw [Reader2.receiver_mapping, Reader2.receiver]
          simp [hne']
        · show (Reader2.mapping 0 rest).sender = _
          rw [Reader2.sender_mapping, Reader2.sender]
          simp [show (102 : Int32) ≠ k from hk ▸ hne']
  | lookSize =>
      obtain ⟨-, rfl⟩ := look_call hact
      refine ⟨size_mem, .receiver (.wait (T.handoff_k r _)), ?_, trivial⟩
      intro k' _ hne
      refine Reader2.side_eq (fun _ => ?_) fun _ => rfl
      have hne' : k' ≠ 100 := hne
      show Reader2.receiver k' .updateSize = _
      rw [Reader2.receiver, Reader2.receiver]
      simp [hne']
  | updateSize =>
      obtain rfl := Act.call.inj hact
      refine ⟨size_mem, .receiver (.update (T.handoff_k r _) (even_ascends r)), ?_, trivial⟩
      intro k' _ hne
      refine Reader2.side_eq (fun _ => ?_) fun _ => rfl
      have hne' : k' ≠ 100 := hne
      show Reader2.receiver k' .lookSize = _
      rw [Reader2.receiver, Reader2.receiver]
      simp [hne']
  | writeSize textsize =>
      obtain ⟨rfl, hsize⟩ := hsound
      obtain rfl := Act.call.inj hact
      have hafter : (Reader2.mappingText (T.expected r).textsize T.pages).side 100
          = .receiver .emptied := by
        rw [Reader2.side_of_ne _ (by decide), Reader2.receiver_mappingText, if_pos rfl]
      refine ⟨size_mem, ?_, ?_, Reader2.sound_mappingText (List.suffix_refl _) hsize⟩
      · show Does _ _ _ _ ((Reader2.mappingText (T.expected r).textsize T.pages).side 100)
        rw [hafter]
        exact .receiver (.write (T.handoff_k r _))
      · intro k' hk' hne
        have hne' : k' ≠ 100 := hne
        refine Reader2.side_eq (fun hk => ?_) fun _ => Reader2.sender_mappingText ..
        show (Reader2.mappingText (T.expected r).textsize T.pages).receiver k' = _
        rw [Reader2.receiver_mappingText, Reader2.receiver, if_neg hne', if_neg hne']
        rcases keys_cases hk' with h | rfl | h | hpage
        · exact absurd h hne'
        · rfl
        · exact absurd h hk
        · rw [if_pos hpage]
  | mapText k rest textsize =>
      obtain ⟨hsuffix, rfl, hsize⟩ := hsound
      obtain ⟨hmem, hrest, hnew⟩ := head_of_suffix (pages_nodup hfits) hsuffix
      obtain ⟨h0, h1, h2⟩ := page_ne hfits hmem
      obtain rfl := Act.call.inj hact
      refine ⟨mem_keys_of_page hmem, ?_, ?_, Reader2.sound_mappingText hrest hsize⟩
      · -- the size was seen, so the text is there
        obtain ⟨id, id', it, c', h⟩ := hmeet 100 size_mem
        obtain ⟨ps, hps, hsent⟩ := meet_seen h rfl
        have hfirst : (first.sender 100).hasSent = true := by
          rw [Side.sender.inj hps]
          exact hsent
        show Does (T.handoff r k) (first.side k)
          (Reader2.side (.mapText k rest (T.expected r).textsize) k) (.map k (heap k))
          (Reader2.side (Reader2.mappingText (T.expected r).textsize rest) k)
        rw [Reader1.side_of_ne _ h2, Reader2.side_of_ne _ h2, Reader2.side_of_ne _ h2,
          Reader2.receiver_mappingText, Reader2.receiver]
        simp only [h0, h1, hnew, if_false, List.mem_cons_self, if_true]
        exact .receiver (.hold _ (T.handoff_k r _) (Reader1.sent_pages hfits hfirst hmem))
      · intro k' _ hne
        have hne' : k' ≠ k := hne
        refine Reader2.side_eq (fun _ => ?_) fun _ => Reader2.sender_mappingText ..
        show (Reader2.mappingText _ rest).receiver k' = _
        rw [Reader2.receiver_mappingText, Reader2.receiver]
        simp [hne']
  | putWords textsize => cases hact
  | writeWords textsize nwords =>
      obtain rfl := Act.call.inj hact
      refine ⟨words_mem, .sender (.write (T.handoff_k r _)), ?_, hsound⟩
      intro k' _ hne
      exact Reader2.side_eq (fun _ => rfl) fun hk => absurd hk hne
  | look textsize nwords =>
      obtain ⟨-, rfl⟩ := look_call hact
      refine ⟨spaces_mem, .receiver (.wait (T.handoff_k r _)), ?_, hsound⟩
      intro k' _ hne
      refine Reader2.side_eq (fun _ => ?_) fun _ => rfl
      have hne' : k' ≠ 101 := hne
      show Reader2.receiver k' (.update textsize nwords) = _
      rw [Reader2.receiver, Reader2.receiver]
      simp [hne']
  | update textsize nwords =>
      obtain rfl := Act.call.inj hact
      refine ⟨spaces_mem, .receiver (.update (T.handoff_k r _) (even_ascends r)), ?_, hsound⟩
      intro k' _ hne
      refine Reader2.side_eq (fun _ => ?_) fun _ => rfl
      have hne' : k' ≠ 101 := hne
      show Reader2.receiver k' (.look textsize nwords) = _
      rw [Reader2.receiver, Reader2.receiver]
      simp [hne']
  | writeSpaces textsize nwords nspaces =>
      obtain ⟨rfl, rfl, rfl, hpositive⟩ := hsound
      obtain rfl := Act.call.inj hact
      have hafter : (Reader2.unmapping (T.expected r) (T.pages ++ [100, 101, 102])).side 101
          = .receiver .emptied := by
        rw [Reader2.side_of_ne _ (by decide), Reader2.receiver_unmapping, if_pos (Or.inr rfl),
          if_pos (mem_keys_iff.mpr spaces_mem)]
      refine ⟨spaces_mem, ?_, ?_, Reader2.sound_unmapping (List.suffix_refl _) hpositive⟩
      · show Does _ _ _ _ ((Reader2.unmapping (T.expected r) (T.pages ++ [100, 101, 102])).side 101)
        rw [hafter]
        exact .receiver (.write (T.handoff_k r _))
      · intro k' hk' hne
        have hne' : k' ≠ 101 := hne
        refine Reader2.side_eq (fun _ => ?_) fun _ => ?_
        · show (Reader2.unmapping (T.expected r) (T.pages ++ [100, 101, 102])).receiver k' = _
          rw [Reader2.receiver_unmapping, if_pos (mem_keys_iff.mpr hk'),
            if_pos (mem_keys_iff.mpr hk'), Reader2.receiver]
          simp [hne']
        · show (Reader2.unmapping (T.expected r) (T.pages ++ [100, 101, 102])).sender = .sent
          rw [Reader2.sender_unmapping, if_pos (mem_keys_iff.mpr words_mem)]
  | unmap k rest out =>
      obtain ⟨hsuffix, rfl, hpositive⟩ := hsound
      obtain ⟨hmem, hrest, hnew⟩ := head_of_suffix (unmaps_nodup hfits) hsuffix
      obtain rfl := Act.call.inj hact
      refine ⟨mem_keys_iff.mp hmem, ?_, ?_, Reader2.sound_unmapping hrest hpositive⟩
      · show Does (T.handoff r k) (first.side k) (Reader2.side (.unmap k rest _) k) (.unmap k)
          (Reader2.side (Reader2.unmapping _ rest) k)
        by_cases hk : k = 102
        · subst hk
          rw [Reader2.side_words, Reader2.side_words, Reader2.sender_unmapping,
            if_neg hnew, Reader2.sender, if_pos List.mem_cons_self]
          exact .sender (.unmap (T.handoff_k r _))
        · rw [Reader1.side_of_ne _ hk, Reader2.side_of_ne _ hk, Reader2.side_of_ne _ hk,
            Reader2.receiver_unmapping, if_neg hnew, if_neg hnew, Reader2.receiver,
            if_pos List.mem_cons_self, if_pos List.mem_cons_self]
          by_cases hnumber : k = 100 ∨ k = 101
          · rw [if_pos hnumber, if_pos hnumber]
            exact .receiver (.unmap (T.handoff_k r _))
          · rw [if_neg hnumber, if_neg hnumber]
            exact .receiver (.leave (T.handoff_k r _))
      · intro k' _ hne
        have hne' : k' ≠ k := hne
        refine Reader2.side_eq (fun _ => ?_) fun hk => ?_
        · show (Reader2.unmapping _ rest).receiver k' = _
          rw [Reader2.receiver_unmapping, Reader2.receiver]
          simp [hne']
        · show (Reader2.unmapping _ rest).sender = _
          rw [Reader2.sender_unmapping, Reader2.sender]
          simp [show (102 : Int32) ≠ k from hk ▸ hne']
  | done out => cases hact
  | failed => cases hact

/-- **The changes of `reader2`** to its memory. -/
theorem reader2_store {q : Int32 → Side} {id : Int32} {data : Data} {next : Reader2}
    (hfits : T.Fits) (hsound : st.Sound T r) (hmeet : Meets T r st.side q blocks)
    (hact : (reader2 heap).act st blocks = .store id data next) :
    Puts T r Reader2.side (Reader2.Sound T r) st id (memory blocks id) data next := by
  cases st with
  | map k rest res => cases hact
  | lookSize =>
      obtain ⟨hnew, rfl, rfl, rfl⟩ := look_store hact
      have htaken := taken_number hmeet size_mem rfl rfl hnew
      refine ⟨size_mem, .take hnew (readInt_storeInt ..), ?_, htaken, ?_⟩
      · intro k' _ hne
        refine Reader2.side_eq (fun _ => ?_) fun _ => rfl
        rw [Reader2.receiver, Reader2.receiver]
        simp [hne]
      · rw [← htaken]
        exact hnew
  | updateSize => cases hact
  | writeSize textsize => cases hact
  | mapText k rest textsize => cases hact
  | putWords textsize =>
      obtain ⟨rfl, hsize⟩ := hsound
      have htext := memory_text hfits hmeet fun k hk => by
        obtain ⟨h0, h1, h2⟩ := page_ne hfits hk
        rw [Reader2.side_of_ne _ h2, Reader2.receiver, if_neg h0, if_neg h1]
        exact Or.inr rfl
      have hwords : countWords ((textbuffer (memory blocks) (T.expected r).textsize).take
          (T.expected r).textsize.toInt.toNat) = (T.expected r).nwords :=
        congrArg countWords htext
      obtain ⟨rfl, rfl, rfl⟩ := Act.store.inj hact
      refine ⟨words_mem, .fill ?_, ?_, rfl, hwords, hsize⟩
      · exact (readInt_storeInt ..).trans hwords
      · intro k' _ hne
        exact Reader2.side_eq (fun _ => rfl) fun hk => absurd hk hne
  | writeWords textsize nwords => cases hact
  | look textsize nwords =>
      obtain ⟨hsize, hwords, hsizeNew⟩ := hsound
      obtain ⟨hnew, rfl, rfl, rfl⟩ := look_store hact
      have htaken := taken_number hmeet spaces_mem rfl rfl hnew
      refine ⟨spaces_mem, .take hnew (readInt_storeInt ..), ?_, hsize, hwords, htaken,
        hsizeNew, ?_⟩
      · intro k' _ hne
        refine Reader2.side_eq (fun _ => ?_) fun _ => rfl
        rw [Reader2.receiver, Reader2.receiver]
        simp [hne]
      · rw [← htaken]
        exact hnew
  | update textsize nwords => cases hact
  | writeSpaces textsize nwords nspaces => cases hact
  | unmap k rest out => cases hact
  | done out => cases hact
  | failed => cases hact

end Second

end DmReader
