import DistributedMemory.DmFramingProofs

/-!
# Receiving — the checks between the connection and a message

Between what `recv` returns and the string that `>>` assigns stand two checks: that the
packet has the size its header says, and that it decrypts. Both compare an `int`.

* **`recvBuffer`** — `recv_secure` up to the call of `cipher`; **`lengthSound_iff`** — when
  the buffer that is decrypted is the packet that was announced.
* **`receive_undecryptable`** — what becomes of a packet that is no encryption.
-/

namespace DmReceive

open ByteStreams DmSocket DmFraming

/-! ## The size of a packet -/

/-- What `recv_secure` does once it has read: return a number, or decrypt. -/
inductive Received where
  | returns (res : Int)
  | decrypts (buffer : Bytes) (size : Int)

/-- `recv_secure` up to the call of `cipher`. -/
def recvBuffer (c : ByteStream) : Received × ByteStream :=
  match recv c 4 with
  | (res, header, c) =>
      if res = 0 then (.returns 0, c)
      else if res ≠ 4 then (.returns (-1), c)
      else
        match recv c (toInt (leValue header)) with
        | (res, buffer, c) =>
            if res = 0 then (.returns 0, c)
            else if res ≠ toInt (leValue header) then (.returns (-1), c)
            else (.decrypts buffer (toInt (leValue header)), c)

/-- The rest of `recv_secure` is the cipher. -/
theorem recvSecure_eq (E : Evp) (key : Bytes) (c : ByteStream) :
    recvSecure E key c =
      match recvBuffer c with
      | (.returns res, c) => (.ok (res, []), c)
      | (.decrypts buffer size, c) =>
          match cipher E .decrypt key buffer size with
          | .error f => (.error f, c)
          | .ok (decryptedSize, data) =>
              if decryptedSize < 0 then (.ok (-1, []), c) else (.ok (decryptedSize, data), c) := by
  rw [recvSecure, recvBuffer]
  obtain ⟨res, header, c₁⟩ := recv c 4
  dsimp only
  by_cases h0 : res = 0
  · rw [if_pos h0, if_pos h0]
  · rw [if_neg h0, if_neg h0]
    by_cases h4 : res ≠ 4
    · rw [if_pos h4, if_pos h4]
    · rw [if_neg h4, if_neg h4, recvPacket]
      obtain ⟨res', buffer, c₂⟩ := recv c₁ (toInt (leValue header))
      dsimp only
      by_cases h0' : res' = 0
      · rw [if_pos h0', if_pos h0']
      · rw [if_neg h0', if_neg h0']
        by_cases hsize : res' ≠ toInt (leValue header)
        · rw [if_pos hsize, if_pos hsize]
        · cases hc : cipher E .decrypt key buffer (toInt (leValue header)) with
          | error f => simp only [if_neg hsize, hc]
          | ok p => simp only [if_neg hsize, hc]

/-- The header, and the connection behind it. -/
def header (c : ByteStream) : Int × Bytes × ByteStream := recv c 4

/-- The number a whole header announces. -/
def announced (c : ByteStream) : Nat := leValue (header c).2.1

/-- The read behind the header. -/
def packet (c : ByteStream) : Int × Bytes × ByteStream :=
  recv (header c).2.2 (toInt (announced c))

/-- What is decrypted is the packet that was announced: as many bytes, and a number of them
    that is a positive `int`. Everything else ends with 0 or -1. -/
def LengthSound (c : ByteStream) : Prop :=
  match (recvBuffer c).1 with
  | .returns res => res = 0 ∨ res = -1
  | .decrypts buffer size =>
      (header c).1 = 4 ∧ buffer.length = announced c ∧ size = (announced c : Int) ∧ 0 < size ∧
        size < 0x80000000

/-- The header arrives, announces a size that is no `int`, and the `int` it is cut to is what
    the second `recv` returns. -/
def Collides (c : ByteStream) : Prop :=
  (header c).1 = 4 ∧ 0x80000000 ≤ announced c ∧ (packet c).1 = toInt (announced c)

/-- **What `recv_secure` checks**: it decrypts after a whole header and a read that returns
    the size announced, as `int`s go, and otherwise returns 0 or -1. -/
theorem recvBuffer_cases (c : ByteStream) :
    ((header c).1 = 4 ∧ (packet c).1 = toInt (announced c) ∧ (packet c).1 ≠ 0 ∧
        (recvBuffer c).1 = .decrypts (packet c).2.1 (toInt (announced c))) ∨
      (¬ ((header c).1 = 4 ∧ (packet c).1 = toInt (announced c) ∧ (packet c).1 ≠ 0) ∧
        ((recvBuffer c).1 = .returns 0 ∨ (recvBuffer c).1 = .returns (-1))) := by
  rw [packet, announced, recvBuffer]
  -- the two reads, as far as the checks look at them
  cases hheader : header c with
  | mk res rest =>
      obtain ⟨bytes, c₁⟩ := rest
      rw [show recv c 4 = (res, bytes, c₁) from hheader]
      dsimp only
      cases hpacket : recv c₁ (toInt (leValue bytes)) with
      | mk res' rest' =>
          obtain ⟨buffer, c₂⟩ := rest'
          dsimp only
          by_cases h0 : res = 0
          · refine Or.inr ⟨fun h => absurd (h0.symm.trans h.1) (by decide), Or.inl ?_⟩
            rw [if_pos h0]
          · rw [if_neg h0]
            by_cases h4 : res = 4
            · rw [if_neg (not_not.mpr h4)]
              by_cases h0' : res' = 0
              · refine Or.inr ⟨fun h => h.2.2 h0', Or.inl ?_⟩
                rw [if_pos h0']
              · rw [if_neg h0']
                by_cases hsize : res' = toInt (leValue bytes)
                · refine Or.inl ⟨h4, hsize, h0', ?_⟩
                  rw [if_neg (not_not.mpr hsize)]
                · refine Or.inr ⟨fun h => hsize h.2.1, Or.inr ?_⟩
                  rw [if_pos hsize]
            · refine Or.inr ⟨fun h => h4 h.1, Or.inr ?_⟩
              rw [if_pos h4]

/-- A `recv` fails, or returns how many bytes it got, and those are not too many. -/
theorem recv_cases (c : ByteStream) (maxsize : Int) :
    ((recv c maxsize).1 = -1 ∧ (recv c maxsize).2.1 = []) ∨
      ((recv c maxsize).1 = toInt (recv c maxsize).2.1.length ∧
        (recv c maxsize).2.1.length ≤ toSize maxsize) := by
  rw [recv]
  cases hread : c.read (toSize maxsize) with
  | mk got c' =>
      cases got with
      | none => exact Or.inl ⟨rfl, rfl⟩
      | some bytes => exact Or.inr ⟨rfl, ByteStream.length_read_le hread⟩

/-- A read of an `int`'s size that returns that size got so many bytes. -/
theorem length_of_recv {c : ByteStream} {n : Nat} (hn : n < 0x80000000)
    (h : (recv c n).1 = n) : (recv c n).2.1.length = n := by
  rcases recv_cases c n with ⟨hfail, -⟩ | ⟨hres, hle⟩
  · omega
  · rw [toSize_natCast (by omega)] at hle
    rw [hres, toInt_of_lt (by omega)] at h
    omega

/-- A whole header is a 32-bit number. -/
theorem announced_lt {c : ByteStream} (h : (header c).1 = 4) : announced c < 0x100000000 := by
  have hlen : (header c).2.1.length = 4 := length_of_recv (n := 4) (by decide) h
  have hlt := leValue_lt (header c).2.1
  rw [hlen] at hlt
  exact hlt

/-- A size that is no `int` is cut to a negative one. -/
theorem toInt_neg {n : Nat} (hle : 0x80000000 ≤ n) (hlt : n < 0x100000000) : toInt n < 0 := by
  rw [toInt, Nat.mod_eq_of_lt hlt, if_neg (by omega)]
  omega

/-- **The length is sound** if and only if no number that `recv` returns is taken for a size
    that is no `int`: whatever the header, and however the two reads end. -/
theorem lengthSound_iff (c : ByteStream) : LengthSound c ↔ ¬ Collides c := by
  rw [LengthSound, Collides]
  rcases recvBuffer_cases c with ⟨h4, hsize, hne, hdecrypts⟩ | ⟨hno, hreturns⟩
  · rw [hdecrypts]
    dsimp only
    constructor
    · rintro ⟨-, -, heq, hpos, -⟩ ⟨-, hle, -⟩
      have hneg := toInt_neg hle (announced_lt h4)
      omega
    · intro hcollide
      have hlt : announced c < 0x80000000 := by
        refine Nat.not_le.mp fun hle => hcollide ⟨h4, hle, hsize⟩
      have hint := toInt_of_lt hlt
      have hlen : (packet c).2.1.length = announced c := by
        rw [packet, hint] at hsize ⊢
        exact length_of_recv hlt hsize
      rw [hsize, hint] at hne
      rw [hint]
      exact ⟨h4, hlen, rfl, by omega, by omega⟩
  · refine iff_of_true ?_ ?_
    · rcases hreturns with h | h
      · rw [h]
        exact Or.inl rfl
      · rw [h]
        exact Or.inr rfl
    · rintro ⟨h4, hle, hsize⟩
      have hneg := toInt_neg hle (announced_lt h4)
      exact hno ⟨h4, hsize, by omega⟩

/-- A header of four bytes `0xff`, and an error after it. -/
def errorAfterHeader : ByteStream :=
  ⟨[0xff, 0xff, 0xff, 0xff], fun i => if i = 0 then .bytes 4 else .failed⟩

/-- **The error code is a size.** 2^32 - 1 is cut to -1, which is what a `recv` that fails
    returns: a buffer nobody wrote to is decrypted. -/
theorem errorAfterHeader_not_sound :
    announced errorAfterHeader = 0xffffffff ∧
      (recvBuffer errorAfterHeader).1 = .decrypts [] (-1) ∧
      ¬ LengthSound errorAfterHeader := by
  have hdecrypts : (recvBuffer errorAfterHeader).1 = .decrypts [] (-1) := by rfl
  refine ⟨by decide, hdecrypts, ?_⟩
  rw [LengthSound, hdecrypts]
  rintro ⟨-, -, -, hpos, -⟩
  exact absurd hpos (by decide)

/-! ## Packets that are no encryption -/

/-- `EVP_CipherFinal_ex` fails on what is no encryption under the key. -/
def Rejects (E : Evp) (key : Bytes) : Prop :=
  ∀ body, (∀ data, body ≠ E.encrypt key data) → E.decryptFinal key body = none

/-- The packet arrives whole, and its header before it. -/
structure Arrives (c : ByteStream) (body rest : Bytes) : Prop where
  pending : c.pending = leBytes 4 body.length ++ (body ++ rest)
  header : ∃ n, 4 ≤ n ∧ c.arrivals 0 = .bytes n
  body : ∃ n, body.length ≤ n ∧ c.arrivals 1 = .bytes n

/-- The error goes all the way: `cipher` returns -1, `recv_secure` returns -1, and `>>`
    throws. -/
def Rejected (E : Evp) (key body : Bytes) (c : ByteStream) : Prop :=
  (∃ output, cipher E .decrypt key body (toInt body.length) = .ok (-1, output)) ∧
    (∃ data, (recvSecure E key c).1 = .ok (-1, data)) ∧
    ∃ what, (receive E key c).1 = .error (.runtimeError what)

/-- `cipher` returns a number of bytes, and that is never -1. -/
theorem cipher_ne_neg (E : Evp) (operation : Operation) (key input output : Bytes)
    (inSize : Int) : cipher E operation key input inSize ≠ .ok (-1, output) := by
  rw [cipher]
  split
  · intro h
    have hsize := (Prod.mk.inj (Except.ok.inj h)).1
    omega
  · intro h
    cases h

/-- A packet that arrives whole is what is decrypted. -/
theorem recvBuffer_arrives {c : ByteStream} {body rest : Bytes} (hc : Arrives c body rest)
    (hne : body ≠ []) (hlen : body.length < 0x80000000) :
    (recvBuffer c).1 = .decrypts body body.length := by
  obtain ⟨hpending, ⟨n, hn, hheader⟩, m, hm, hbody⟩ := hc
  have hpos : 0 < body.length := List.length_pos_iff.mpr hne
  have hread' := recv_whole (c := c.next (body ++ rest)) rfl hbody hlen hm
  rw [recvBuffer, recv_header hpending hheader hn]
  dsimp only
  rw [if_neg (by decide), if_neg (by decide), leValue_leBytes (by omega), toInt_of_lt hlen, hread']
  dsimp only
  rw [if_neg (by omega), if_neg (by simp)]

/-- What `>>` makes of the number that `recv_secure` returns. -/
theorem receive_of_recvSecure {E : Evp} {key data : Bytes} {c : ByteStream} {size : Int}
    (h : (recvSecure E key c).1 = .ok (size, data)) :
    (receive E key c).1 =
      if size = 0 then .error (.runtimeError "Peer disconnected")
      else if size < 0 then .error (.runtimeError "Could not receive from secure socket")
      else .ok (data.take size.toNat) := by
  rw [receive]
  cases hr : recvSecure E key c with
  | mk r c' =>
      rw [hr] at h
      obtain rfl : r = .ok (size, data) := h
      dsimp only
      split
      · rfl
      · split <;> rfl

/-- What is decrypted is returned. -/
theorem recvSecure_decrypts {E : Evp} {key buffer data : Bytes} {c c' : ByteStream}
    {size n : Int} (h : recvBuffer c = (.decrypts buffer size, c'))
    (hcipher : cipher E .decrypt key buffer size = .ok (n, data)) (hn : ¬ n < 0) :
    recvSecure E key c = (.ok (n, data), c') := by
  rw [recvSecure_eq, h]
  simp only [hcipher, if_neg hn]

/-- A packet that is no encryption is decrypted up to its last block. -/
theorem recvSecure_undecryptable {E : Evp} {key body rest : Bytes} {c : ByteStream}
    (hfinal : E.decryptFinal key body = none) (hc : Arrives c body rest) (hne : body ≠ [])
    (hfits : Fits body.length) :
    (recvSecure E key c).1 =
      .ok (((E.decryptUpdate key body).length : Int), E.decryptUpdate key body) := by
  have hlen : body.length < 0x80000000 := by
    have h := hfits.2
    rw [blockSize] at h
    omega
  have hbuffer := recvBuffer_arrives hc hne hlen
  have hcipher : cipher E .decrypt key body body.length =
      .ok (((E.decryptUpdate key body).length : Int), E.decryptUpdate key body) := by
    rw [cipher, if_pos hfits]
    simp only [Int.toNat_natCast, List.take_length, hfinal, Option.getD_none, List.append_nil]
  cases hb : recvBuffer c with
  | mk r c' =>
      rw [hb] at hbuffer
      obtain rfl : r = .decrypts body body.length := hbuffer
      rw [recvSecure_decrypts hb hcipher (Int.not_lt.mpr (Int.natCast_nonneg _))]

/-- **A packet that is no encryption is never rejected as such.** What
    `EVP_CipherUpdate` wrote before the last block failed is delivered, and only if that is
    nothing does `>>` throw. -/
theorem receive_undecryptable {E : Evp} {key body rest : Bytes} {c : ByteStream}
    (hE : Rejects E key) (hbody : ∀ data, body ≠ E.encrypt key data) (hc : Arrives c body rest) :
    ¬ Rejected E key body c ∧
      (body ≠ [] → Fits body.length → ∀ s, (receive E key c).1 = .ok s ↔
        s = E.decryptUpdate key body ∧ s ≠ []) := by
  constructor
  · rintro ⟨⟨output, hcipher⟩, -⟩
    exact cipher_ne_neg E .decrypt key body output _ hcipher
  · intro hne hfits s
    rw [receive_of_recvSecure (recvSecure_undecryptable (hE body hbody) hc hne hfits)]
    by_cases hempty : E.decryptUpdate key body = []
    · rw [hempty, if_pos (show ((([] : Bytes).length : Nat) : Int) = 0 from rfl)]
      refine iff_of_false ?_ ?_
      · exact nofun
      · rintro ⟨rfl, hs⟩
        exact hs rfl
    · have hpos : 0 < (E.decryptUpdate key body).length := List.length_pos_iff.mpr hempty
      rw [if_neg (by omega), if_neg (by omega), Int.toNat_natCast, List.take_length]
      constructor
      · intro h
        rw [← Except.ok.inj h]
        exact ⟨rfl, hempty⟩
      · rintro ⟨rfl, -⟩
        rfl

/-! ## A damaged packet -/

/-- What AES-256 decrypts a block of zeros to under the counting key. -/
def zeroBlock : Bytes :=
  [0x6d, 0x9f, 0x08, 0xeb, 0x2a, 0x2e, 0x27, 0x7a,
   0xb4, 0x89, 0x84, 0xcf, 0xf1, 0xab, 0x9a, 0x09]

/-- AES-256 in ECB mode under the key, as far as 32 zeros go. -/
def zeroCipher : Evp := Evp.known countingKey (zeroBlock ++ zeroBlock) (List.replicate 32 0)

/-- What has the padding taken off is padded. -/
theorem pad_of_unpad (front : Bytes) {block last : Bytes} (h : unpad block = some last)
    (hblock : block.length = 16) (hfront : front.length % 16 = 0) :
    pad (front ++ last) = front ++ block := by
  rw [unpad] at h
  cases hlast : block.getLast? with
  | none => simp [hlast] at h
  | some n =>
      simp only [hlast] at h
      by_cases hpad : 0 < n.toNat ∧
          block = block.take (block.length - n.toNat) ++ List.replicate n.toNat n
      · rw [if_pos hpad] at h
        obtain rfl := Option.some.inj h
        have hlen := congrArg List.length hpad.2
        rw [List.length_append, List.length_take, List.length_replicate, hblock] at hlen
        have hmod : (front ++ block.take (16 - n.toNat)).length % 16 = (16 - n.toNat) % 16 := by
          rw [List.length_append, List.length_take, hblock]
          omega
        have hsize : 16 - (16 - n.toNat) % 16 = n.toNat := by omega
        rw [hblock, pad, hmod, hsize, UInt8.ofNat_toNat, List.append_assoc]
        have hsplit := hpad.2
        rw [hblock] at hsplit
        rw [← hsplit]
      · rw [if_neg hpad] at h
        cases h

/-- The known cipher refuses what is no encryption. -/
theorem rejects_known (key₀ : Bytes) {plain secret : Bytes}
    (h : plain.length = secret.length) (key : Bytes) :
    Rejects (Evp.known key₀ plain secret) key := by
  intro body hbody
  cases hfinal : (Evp.known key₀ plain secret).decryptFinal key body with
  | none => rfl
  | some last =>
      have hopened : (if body.length % 16 = 0 then
          unpad ((exchange key₀ plain secret key body).drop ((body.length - 1) / 16 * 16))
        else none) = some last := hfinal
      have hblocks : body.length % 16 = 0 := by
        by_contra hodd
        rw [if_neg hodd] at hopened
        exact nomatch hopened
      rw [if_pos hblocks] at hopened
      have hlen := length_exchange h key₀ key body
      have hpos : 0 < body.length := by
        refine Nat.pos_of_ne_zero fun hnil => ?_
        rw [List.length_eq_zero_iff.mp (hlen.trans hnil), List.drop_nil] at hopened
        exact nomatch hopened
      have hpad := pad_of_unpad ((exchange key₀ plain secret key body).take
        ((body.length - 1) / 16 * 16)) hopened (by rw [List.length_drop, hlen]; omega)
        (by rw [List.length_take, hlen]; omega)
      rw [List.take_append_drop] at hpad
      refine absurd ?_ (hbody ((exchange key₀ plain secret key body).take
        ((body.length - 1) / 16 * 16) ++ last))
      show body = exchange key₀ plain secret key (pad _)
      rw [hpad, exchange_exchange]

/-- 32 zeros are not an encryption: their last block has no padding. -/
theorem zeros_undecryptable (data : Bytes) :
    List.replicate 32 0 ≠ zeroCipher.encrypt countingKey data := by
  intro heq
  have hsize : (zeroBlock ++ zeroBlock).length = (List.replicate 32 (0 : UInt8)).length := by
    decide
  obtain ⟨last, hlast, -⟩ :=
    (Evp.known_inverts countingKey hsize countingKey).decrypt_encrypt data
  have hnone : zeroCipher.decryptFinal countingKey (List.replicate 32 0) = none := by
    decide +kernel
  rw [heq] at hnone
  exact nomatch hnone.symm.trans hlast

/-- The 32 zeros as a packet. -/
def zeroPacket : ByteStream :=
  ⟨leBytes 4 32 ++ (List.replicate 32 0 ++ []), fun _ => .bytes 32⟩

theorem zeroPacket_arrives : Arrives zeroPacket (List.replicate 32 0) [] where
  pending := rfl
  header := ⟨32, by decide, rfl⟩
  body := ⟨32, by decide, rfl⟩

theorem receive_undecryptable_zeros :
    ¬ Rejected zeroCipher countingKey (List.replicate 32 0) zeroPacket ∧
      (receive zeroCipher countingKey zeroPacket).1 = .ok zeroBlock := by
  obtain ⟨hnot, hdelivered⟩ := receive_undecryptable
    (rejects_known countingKey (by decide +kernel) countingKey) zeros_undecryptable
    zeroPacket_arrives
  refine ⟨hnot, (hdelivered (by decide) (by decide) zeroBlock).mpr ⟨?_, by decide⟩⟩
  decide +kernel

/-- **A packet of 32 zeros is delivered** as the 16 bytes its first block decrypts to. -/
theorem zeros_delivered :
    Rejects zeroCipher countingKey ∧
      (∀ data, List.replicate 32 0 ≠ zeroCipher.encrypt countingKey data) ∧
      (receive zeroCipher countingKey zeroPacket).1 = .ok zeroBlock ∧
      ¬ Rejected zeroCipher countingKey (List.replicate 32 0) zeroPacket := by
  have hrejects : Rejects zeroCipher countingKey :=
    rejects_known countingKey (by decide +kernel) countingKey
  refine ⟨hrejects, zeros_undecryptable, ?_, ?_⟩
  · have hupdate : zeroCipher.decryptUpdate countingKey (List.replicate 32 0) = zeroBlock := by
      decide +kernel
    have hread := recvSecure_undecryptable (hrejects _ zeros_undecryptable) zeroPacket_arrives
      (by decide) (by decide)
    rw [hupdate] at hread
    rw [receive_of_recvSecure hread]
    rfl
  · rintro ⟨⟨output, hcipher⟩, -⟩
    exact cipher_ne_neg _ _ _ _ output _ hcipher

end DmReceive
