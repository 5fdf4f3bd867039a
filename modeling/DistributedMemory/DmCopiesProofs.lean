import DistributedMemory.BufferProofs
import DistributedMemory.DmLoginProofs

/-!
# The copies of M2 — what `open_client` writes into its message buffer

The client puts M2 together in an array of `m_rsa_size` bytes: three times the longest key
length and the passphrase. The server compares that sum when it opens; the client does not.

* **`copies`** — the four `memcpy`s; **`openClientM2_eq`** — the code, with its buffer.
* **`contained_iff`** — when they stay inside.
-/

namespace DmCopies

open DmSocket DmLogin Buffers

variable (S : OpenSsl) (r : Randoms) (pass nonceB : Bytes)

/-- The four copies, each with its place. -/
def copies : List (Nat × Bytes) :=
  [(0 * maxKeyLength, (sessionKey S r pass).take maxKeyLength),
   (1 * maxKeyLength, r.nonceA),
   (2 * maxKeyLength, nonceB),
   (3 * maxKeyLength, pass)]

/-- The copies that are made: none where `open_client` returns before them. -/
def performed : List (Nat × Bytes) :=
  if (S.bytesToKey r.salt pass 5).length = 0 then []
  else if nonceB.length ≠ maxKeyLength then []
  else copies S r pass nonceB

/-- No byte is written outside the buffer, and if the passphrase does not fit behind the
    keys, `open_client` returns `false`. -/
def Contained : Prop :=
  (∀ p ∈ performed S r pass nonceB, p.1 + p.2.length ≤ S.rsaSize) ∧
    (S.rsaSize < 3 * maxKeyLength + pass.length → openClientM2 S r pass nonceB = .ok none)

variable {S r pass nonceB}

/-- The session key fills its array. -/
theorem length_take_sessionKey :
    ((sessionKey S r pass).take maxKeyLength).length = maxKeyLength := by
  have hunset := r.length_unset
  rw [sessionKey, List.length_take, List.length_append, List.length_drop]
  omega

/-- The copies follow one another. -/
theorem copies_eq_place (hnonce : nonceB.length = maxKeyLength) :
    copies S r pass nonceB =
      Buffer.place 0 [(sessionKey S r pass).take maxKeyLength, r.nonceA, nonceB, pass] := by
  simp only [copies, Buffer.place, length_take_sessionKey, r.length_nonceA, hnonce]
  rfl

/-- All four stay inside exactly if the last one does. -/
theorem copies_inside_iff (hnonce : nonceB.length = maxKeyLength) (n : Nat) :
    (∀ p ∈ copies S r pass nonceB, p.1 + p.2.length ≤ n) ↔
      3 * maxKeyLength + pass.length ≤ n := by
  simp only [copies, List.forall_mem_cons, length_take_sessionKey, r.length_nonceA, hnonce]
  constructor
  · rintro ⟨-, -, -, hpass, -⟩
    exact hpass
  · intro hpass
    refine ⟨?_, ?_, ?_, hpass, nofun⟩
    · omega
    · omega
    · omega

/-- **`open_client` with its buffer**: the copies into whatever the array holds, and the
    encryption of its front. -/
theorem openClientM2_eq (hS : S.Sound) (message : Buffer UInt8 S.rsaSize) :
    openClientM2 S r pass nonceB =
      if (S.bytesToKey r.salt pass 5).length = 0 then .ok none
      else if nonceB.length ≠ maxKeyLength then .ok none
      else
        match message.blits (copies S r pass nonceB) with
        | none => .error .message
        | some message =>
            match S.publicEncrypt (message.cells.take (3 * maxKeyLength + pass.length)) with
            | none => .ok none
            | some encrypted =>
                if encrypted.length ≠ S.rsaSize then .ok none else .ok (some encrypted) := by
  rw [openClientM2]
  by_cases hkey : (S.bytesToKey r.salt pass 5).length = 0
  · rw [if_pos hkey, if_pos hkey]
  · rw [if_neg hkey, if_neg hkey]
    by_cases hnonce : nonceB.length ≠ maxKeyLength
    · rw [if_pos hnonce, if_pos hnonce]
    · rw [if_neg hnonce, if_neg hnonce]
      have hlen := not_not.mp hnonce
      have hinside := (message.blits_isSome_iff (copies S r pass nonceB)).trans
        (copies_inside_iff hlen S.rsaSize)
      cases hblits : message.blits (copies S r pass nonceB) with
      | none =>
          rw [hblits] at hinside
          rw [if_pos (Nat.not_le.mp fun hle => Bool.false_ne_true (hinside.mpr hle))]
      | some message' =>
          rw [hblits] at hinside
          rw [if_neg (Nat.not_lt.mpr (hinside.mp rfl))]
          -- the front of the buffer is the message
          rw [copies_eq_place hlen] at hblits
          have hfront := Buffer.blits_place hblits (Nat.zero_le _)
          have hwhole : (sessionKey S r pass).take maxKeyLength = sessionKey S r pass :=
            List.take_of_length_le (Nat.le_of_eq (length_sessionKey hS r pass))
          have hsize : (messageM2 S r pass nonceB).length = 3 * maxKeyLength + pass.length := by
            simp only [messageM2, List.length_append, length_sessionKey hS, r.length_nonceA, hlen]
            omega
          have hparts : [(sessionKey S r pass).take maxKeyLength, r.nonceA, nonceB,
              pass].flatten = messageM2 S r pass nonceB := by
            simp [hwhole, messageM2]
          rw [hparts, hsize, Nat.zero_add, List.take_zero, List.nil_append] at hfront
          cases hsent : S.publicEncrypt (messageM2 S r pass nonceB) with
          | none => simp only [hfront, hsent]
          | some encrypted => simp only [hfront, hsent]

/-- **The copies are contained** exactly if keys and passphrase fit the RSA packet, or
    `open_client` returns before it makes them. -/
theorem contained_iff (S : OpenSsl) (r : Randoms) (pass nonceB : Bytes) :
    Contained S r pass nonceB ↔
      3 * maxKeyLength + pass.length ≤ S.rsaSize ∨
        (S.bytesToKey r.salt pass 5).length = 0 ∨ nonceB.length ≠ maxKeyLength := by
  rw [Contained, performed, openClientM2]
  by_cases hkey : (S.bytesToKey r.salt pass 5).length = 0
  · rw [if_pos hkey, if_pos hkey]
    exact iff_of_true ⟨List.forall_mem_nil _, fun _ => rfl⟩ (Or.inr (Or.inl hkey))
  · rw [if_neg hkey, if_neg hkey]
    by_cases hnonce : nonceB.length ≠ maxKeyLength
    · rw [if_pos hnonce, if_pos hnonce]
      exact iff_of_true ⟨List.forall_mem_nil _, fun _ => rfl⟩ (Or.inr (Or.inr hnonce))
    · rw [if_neg hnonce, if_neg hnonce, copies_inside_iff (not_not.mp hnonce)]
      constructor
      · rintro ⟨hle, -⟩
        exact Or.inl hle
      · rintro (hle | hnot | hnot)
        · exact ⟨hle, fun hlt => absurd hle (Nat.not_le.mpr hlt)⟩
        · exact absurd hnot hkey
        · exact absurd hnot hnonce

/-- A passphrase of 65 characters. -/
def overlongPass : Bytes := List.replicate 65 0x61

/-- **A passphrase that overruns the buffer** of a key of 2048 bits by one byte. The server
    does not open with it. -/
theorem overlongPass_not_contained :
    ¬ Contained paddingOnly zeroRandoms overlongPass zeroRandoms.nonceB ∧
      openClientM2 paddingOnly zeroRandoms overlongPass zeroRandoms.nonceB = .error .message ∧
      openServer paddingOnly overlongPass = none := by
  have hkey : (paddingOnly.bytesToKey zeroRandoms.salt overlongPass 5).length ≠ 0 := by
    rw [paddingOnly_sound.bytesToKey]
    decide
  have hnonce : ¬ zeroRandoms.nonceB.length ≠ maxKeyLength :=
    not_not_intro zeroRandoms.length_nonceB
  have hlt : paddingOnly.rsaSize < 3 * maxKeyLength + overlongPass.length := by decide
  have hfault : openClientM2 paddingOnly zeroRandoms overlongPass zeroRandoms.nonceB =
      .error .message := by
    rw [openClientM2, if_neg hkey, if_neg hnonce, if_pos hlt]
  refine ⟨?_, hfault, by decide⟩
  rintro ⟨-, hfalse⟩
  rw [hfalse hlt] at hfault
  cases hfault

end DmCopies
