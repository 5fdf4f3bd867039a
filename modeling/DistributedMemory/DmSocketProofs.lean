import Mathlib.Logic.Equiv.Basic
import DistributedMemory.ByteStreamProofs
import DistributedMemory.DmHandshakeProofs

/-!
# The socket — `Socket` and `SecureSocket`, byte by byte

What `SecureSocket` writes for a string is a frame: four bytes that say how long the
ciphertext is, in the byte order of the machine, and the ciphertext. Sizes are `int`s in
the code, so that a string's size and a header are cut to 32 bits with a sign on their
way; the model cuts them where the code does.

OpenSSL's cipher is the parameter `Evp`, with the bytes that `EVP_CipherUpdate` and
`EVP_CipherFinal_ex` write.

* **`cipher`**, **`sendSecure`**, **`recvSecure`**, **`send`** (`<<`), **`receive`** (`>>`)
  — the code.
* **`receive_frame`** — a frame that arrives whole is read as the string it was made of;
  **`receive_cutHeader`**, **`receive_cutBody`** — one that does not is an error.
-/

namespace DmSocket

open ByteStreams

/-- Bytes in memory. -/
abbrev Bytes := List UInt8

/-! ## Machine words -/

/-- The conversion of a `size_t` or a `uint32_t` to `int`. -/
def toInt (n : Nat) : Int :=
  if n % 0x100000000 < 0x80000000 then (n % 0x100000000 : Nat)
  else (n % 0x100000000 : Nat) - 0x100000000

/-- The conversion of an `int` to `size_t`. -/
def toSize (n : Int) : Nat := (n % 0x10000000000000000).toNat

theorem toInt_of_lt {n : Nat} (h : n < 0x80000000) : toInt n = n := by
  rw [toInt, Nat.mod_eq_of_lt (by omega), if_pos h]

theorem toInt_le (n : Nat) : toInt n ≤ n := by
  rw [toInt]
  split <;> omega

theorem toSize_natCast {n : Nat} (h : n < 0x10000000000000000) : toSize n = n := by
  rw [toSize]
  omega

/-! ## OpenSSL -/

/-- The cipher of the `EVP` functions under a key, over a whole input: what an encryption
    writes, what `EVP_CipherUpdate` writes of a decryption, and what `EVP_CipherFinal_ex`
    writes of it, or that it fails and writes nothing. -/
structure Evp where
  encrypt : (key input : Bytes) → Bytes
  decryptUpdate : (key input : Bytes) → Bytes
  decryptFinal : (key input : Bytes) → Option Bytes

/-- Decryption undoes encryption under one key; ciphertexts are whole blocks of 16 bytes,
    with one to sixteen bytes of padding. -/
structure Evp.Inverts (E : Evp) (key : Bytes) : Prop where
  length_encrypt : ∀ input, (E.encrypt key input).length = DmHandshake.cipherSize input.length
  decrypt_encrypt : ∀ input, ∃ last, E.decryptFinal key (E.encrypt key input) = some last ∧
    E.decryptUpdate key (E.encrypt key input) ++ last = input

/-! ## What can go wrong -/

/-- How a call ends that does not return. -/
inductive Thrown where
  /-- `throw runtime_error(what)`. -/
  | runtimeError (what : String)
  /-- The size of `cipher`'s output buffer is no `int`, or the buffer is too small for a
      block. -/
  | outputBuffer
  deriving DecidableEq

/-! ## `SecureSocket` -/

/-- `ENCRYPT` and `DECRYPT`. -/
inductive Operation where
  | encrypt
  | decrypt
  deriving DecidableEq

/-- `EVP_CIPHER_CTX_block_size` of AES. -/
def blockSize : Int := 16

/-- `new unsigned char[ in_size + block_size ]` has room for the input and a block: the sum
    is an `int`, and no negative size was added to. -/
def Fits (inSize : Int) : Prop := 0 ≤ inSize ∧ inSize + blockSize < 0x80000000

instance (inSize : Int) : Decidable (Fits inSize) := inferInstanceAs (Decidable (_ ∧ _))

/-- `cipher`: the number it returns, and the output buffer. A final block that fails adds
    no bytes and is not noticed. -/
def cipher (E : Evp) (operation : Operation) (key input : Bytes) (inSize : Int) :
    Except Thrown (Int × Bytes) :=
  if Fits inSize then
    let bytes := input.take inSize.toNat
    let output :=
      match operation with
      | .encrypt => E.encrypt key bytes
      | .decrypt => E.decryptUpdate key bytes ++ (E.decryptFinal key bytes).getD []
    .ok (output.length, output)
  else .error .outputBuffer

/-- `send_secure` on a connection that takes every byte: what is written to it, or `none`
    for `false`. -/
def sendSecure (E : Evp) (key data : Bytes) (size : Int) : Except Thrown (Option Bytes) :=
  match cipher E .encrypt key data size with
  | .error f => .error f
  | .ok (encryptedSize, encrypted) =>
      if encryptedSize < 0 then .ok none
      else .ok (some (leBytes 4 encryptedSize.toNat ++ encrypted))

/-- `Socket::recv`: the number it returns, and what it puts into the buffer. -/
def recv (c : ByteStream) (maxsize : Int) : Int × Bytes × ByteStream :=
  match c.read (toSize maxsize) with
  | (none, c) => (-1, [], c)
  | (some bytes, c) => (toInt bytes.length, bytes, c)

/-- `recv_secure` once it knows the size of the packet. -/
def recvPacket (E : Evp) (key : Bytes) (pktSize : Nat) (c : ByteStream) :
    Except Thrown (Int × Bytes) × ByteStream :=
  match recv c (toInt pktSize) with
  | (res, buffer, c) =>
      if res = 0 then (.ok (0, []), c)
      else if res ≠ toInt pktSize then (.ok (-1, []), c)
      else
        match cipher E .decrypt key buffer (toInt pktSize) with
        | .error f => (.error f, c)
        | .ok (decryptedSize, data) =>
            if decryptedSize < 0 then (.ok (-1, []), c)
            else (.ok (decryptedSize, data), c)

/-- `recv_secure`: the number it returns, and the decrypted data. -/
def recvSecure (E : Evp) (key : Bytes) (c : ByteStream) :
    Except Thrown (Int × Bytes) × ByteStream :=
  match recv c 4 with
  | (res, header, c) =>
      if res = 0 then (.ok (0, []), c)
      else if res ≠ 4 then (.ok (-1, []), c)
      else recvPacket E key (leValue header) c

/-- `operator <<`: what is written to the connection. -/
def send (E : Evp) (key s : Bytes) : Except Thrown Bytes :=
  match sendSecure E key s (toInt s.length) with
  | .error f => .error f
  | .ok none => .error (.runtimeError "Could not send to secure socket")
  | .ok (some wire) => .ok wire

/-- `operator >>`: the string that is read. -/
def receive (E : Evp) (key : Bytes) (c : ByteStream) : Except Thrown Bytes × ByteStream :=
  match recvSecure E key c with
  | (.error f, c) => (.error f, c)
  | (.ok (size, buffer), c) =>
      if size = 0 then (.error (.runtimeError "Peer disconnected"), c)
      else if size < 0 then (.error (.runtimeError "Could not receive from secure socket"), c)
      else (.ok (buffer.take size.toNat), c)

/-! ## Frames -/

/-- What is written for the data: the size of the ciphertext, and the ciphertext. -/
def frame (E : Evp) (key data : Bytes) : Bytes :=
  leBytes 4 (E.encrypt key data).length ++ E.encrypt key data

/-- The bytes of a string that `<<` encrypts: as many as the `int` says that its size is
    converted to. -/
def transmitted (s : Bytes) : Bytes := s.take (toInt s.length).toNat

/-- **`<<` writes the frame of what it encrypts**, if that has a buffer. -/
theorem send_eq (E : Evp) (key s : Bytes) :
    send E key s =
      if Fits (toInt s.length) then .ok (frame E key (transmitted s))
      else .error .outputBuffer := by
  rw [send, sendSecure, cipher]
  by_cases hfits : Fits (toInt s.length)
  · rw [if_pos hfits, if_pos hfits]
    simp only [Int.toNat_natCast]
    rw [if_neg (by omega)]
    rfl
  · rw [if_neg hfits, if_neg hfits]

/-- A string shorter than 2 GiB is encrypted as it is. -/
theorem transmitted_eq {s : Bytes} (h : s.length < 0x80000000) : transmitted s = s := by
  rw [transmitted, toInt_of_lt h, Int.toNat_natCast, List.take_length]

section

variable {E : Evp} {key data rest : Bytes} {c : ByteStream} {n m : Nat}

/-- The size of a frame's ciphertext can be read off its header. -/
theorem header_lt (hE : E.Inverts key) (hfits : Fits data.length) :
    (E.encrypt key data).length < 0x80000000 := by
  rw [hE.length_encrypt, DmHandshake.cipherSize]
  have h := hfits.2
  rw [blockSize] at h
  omega

/-- A read of as many bytes as are there. -/
theorem recv_whole {front : Bytes} (hpending : c.pending = front ++ rest)
    (harrival : c.arrivals 0 = .bytes n) (hsize : front.length < 0x80000000)
    (hn : front.length ≤ n) :
    recv c front.length = ((front.length : Int), front, c.next rest) := by
  rw [recv, toSize_natCast (by omega), ByteStream.read_whole hpending harrival rfl hn]
  show (toInt front.length, front, c.next rest) = _
  rw [toInt_of_lt hsize]

/-- A read that comes back short. -/
theorem recv_short {size : Nat} (harrival : c.arrivals 0 = .bytes n)
    (hsize : size < 0x80000000) (hn : n < size) (hpending : n ≤ c.pending.length) :
    ∃ got, recv c size = ((n : Int), got, c.next (c.pending.drop n)) := by
  obtain ⟨got, hread, hlen⟩ := ByteStream.read_short harrival hn hpending
  refine ⟨got, ?_⟩
  rw [recv, toSize_natCast (by omega), hread]
  show (toInt got.length, got, _) = _
  rw [hlen, toInt_of_lt (by omega)]

/-- A header that arrives whole. -/
theorem recv_header {size : Nat} (hpending : c.pending = leBytes 4 size ++ rest)
    (harrival : c.arrivals 0 = .bytes n) (hn : 4 ≤ n) :
    recv c 4 = (4, leBytes 4 size, c.next rest) := by
  have hlen : (leBytes 4 size).length = 4 := length_leBytes 4 size
  have hread := recv_whole hpending harrival (by rw [hlen]; decide) (by rw [hlen]; exact hn)
  rw [hlen] at hread
  exact hread

/-- **A header that arrives whole** leaves the ciphertext to be read. -/
theorem recvSecure_header (hE : E.Inverts key) (hfits : Fits data.length)
    (hpending : c.pending = frame E key data ++ rest) (harrival : c.arrivals 0 = .bytes n)
    (hn : 4 ≤ n) :
    recvSecure E key c = recvPacket E key (E.encrypt key data).length
      (c.next (E.encrypt key data ++ rest)) := by
  have hsplit : c.pending = leBytes 4 (E.encrypt key data).length ++
      (E.encrypt key data ++ rest) := by rw [hpending, frame, List.append_assoc]
  rw [recvSecure, recv_header hsplit harrival hn]
  simp only [if_false, ne_eq, not_true_eq_false]
  rw [leValue_leBytes (Nat.lt_of_lt_of_le (header_lt hE hfits) (by decide))]
  rfl

/-- **A ciphertext that arrives whole** is decrypted, if there is a buffer for it. -/
theorem recvPacket_whole (hE : E.Inverts key) (hfits : Fits data.length)
    (hpending : c.pending = E.encrypt key data ++ rest) (harrival : c.arrivals 0 = .bytes n)
    (hn : (E.encrypt key data).length ≤ n) :
    recvPacket E key (E.encrypt key data).length c =
      (if Fits (E.encrypt key data).length then .ok ((data.length : Int), data)
        else .error .outputBuffer, c.next rest) := by
  have hlt := header_lt hE hfits
  have hpos : ((E.encrypt key data).length : Int) ≠ 0 := by
    rw [hE.length_encrypt, DmHandshake.cipherSize]
    omega
  rw [recvPacket, toInt_of_lt hlt, recv_whole hpending harrival hlt hn]
  simp only [if_neg hpos, ne_eq, not_true_eq_false, if_false]
  rw [cipher]
  by_cases hpacket : Fits (E.encrypt key data).length
  · obtain ⟨last, hfinal, hplain⟩ := hE.decrypt_encrypt data
    rw [if_pos hpacket, if_pos hpacket]
    simp only [Int.toNat_natCast, List.take_length, hfinal, Option.getD_some, hplain]
    rw [if_neg (by omega)]
  · rw [if_neg hpacket, if_neg hpacket]

/-- A ciphertext that arrives in pieces is an error. -/
theorem recvPacket_short (hE : E.Inverts key) (hfits : Fits data.length)
    (hpending : c.pending = E.encrypt key data ++ rest) (harrival : c.arrivals 0 = .bytes n)
    (hpos : 0 < n) (hn : n < (E.encrypt key data).length) :
    (recvPacket E key (E.encrypt key data).length c).1 = .ok (-1, []) := by
  have hlt := header_lt hE hfits
  obtain ⟨got, hread⟩ := recv_short harrival hlt hn (by
    rw [hpending, List.length_append]
    omega)
  have h0 : (n : Int) ≠ 0 := by omega
  have hne : (n : Int) ≠ ((E.encrypt key data).length : Int) := by omega
  rw [recvPacket, toInt_of_lt hlt, hread]
  simp only [if_neg h0, if_pos hne]

/-- A frame that arrives whole is decrypted to what it was made of. -/
theorem recvSecure_frame (hE : E.Inverts key) (hlen : data.length < 0x7fffffe0)
    (hpending : c.pending = frame E key data ++ rest) (hheader : c.arrivals 0 = .bytes n)
    (hn : 4 ≤ n) (hbody : c.arrivals 1 = .bytes m)
    (hm : DmHandshake.cipherSize data.length ≤ m) :
    recvSecure E key c =
      (.ok ((data.length : Int), data), ⟨rest, fun i => c.arrivals (i + 2)⟩) := by
  have hsize := hE.length_encrypt data
  have hfits : Fits data.length := ⟨by omega, by rw [blockSize]; omega⟩
  have hpacket : Fits (E.encrypt key data).length := by
    rw [hsize, DmHandshake.cipherSize]
    exact ⟨by omega, by rw [blockSize]; omega⟩
  rw [recvSecure_header hE hfits hpending hheader hn,
    recvPacket_whole hE hfits rfl hbody (by rw [hsize]; exact hm), if_pos hpacket]
  rfl

/-- **A frame that arrives whole is read as what it was made of.** -/
theorem receive_frame (hE : E.Inverts key) (hdata : data ≠ []) (hlen : data.length < 0x7fffffe0)
    (hpending : c.pending = frame E key data ++ rest) (hheader : c.arrivals 0 = .bytes n)
    (hn : 4 ≤ n) (hbody : c.arrivals 1 = .bytes m)
    (hm : DmHandshake.cipherSize data.length ≤ m) :
    receive E key c = (.ok data, ⟨rest, fun i => c.arrivals (i + 2)⟩) := by
  have hpos : 0 < data.length := List.length_pos_iff.mpr hdata
  rw [receive, recvSecure_frame hE hlen hpending hheader hn hbody hm]
  simp only [Int.toNat_natCast, List.take_length]
  rw [if_neg (by omega), if_neg (by omega)]

/-- An empty string is read as the end of the connection. -/
theorem receive_empty (hE : E.Inverts key) (hpending : c.pending = frame E key [] ++ rest)
    (hheader : c.arrivals 0 = .bytes n) (hn : 4 ≤ n) (hbody : c.arrivals 1 = .bytes m)
    (hm : 16 ≤ m) : (receive E key c).1 = .error (.runtimeError "Peer disconnected") := by
  rw [receive, recvSecure_frame hE (by decide) hpending hheader hn hbody hm]
  rfl

/-- A frame is read in full or the string is not. -/
theorem receive_cutBody (hE : E.Inverts key) (hfits : Fits data.length)
    (hpending : c.pending = frame E key data ++ rest) (hheader : c.arrivals 0 = .bytes n)
    (hn : 4 ≤ n) (hbody : c.arrivals 1 = .bytes m) (hpos : 0 < m)
    (hm : m < DmHandshake.cipherSize data.length) :
    (receive E key c).1 = .error (.runtimeError "Could not receive from secure socket") := by
  have hshort := recvPacket_short (c := c.next (E.encrypt key data ++ rest)) hE hfits rfl hbody
    hpos (by rw [hE.length_encrypt]; exact hm)
  rw [receive, recvSecure_header hE hfits hpending hheader hn]
  cases hr : recvPacket E key (E.encrypt key data).length (c.next (E.encrypt key data ++ rest))
    with
  | mk r c' =>
      rw [hr] at hshort
      obtain rfl : r = .ok (-1, []) := hshort
      rfl

/-- A ciphertext whose buffer would be too large. -/
theorem receive_tooLarge (hE : E.Inverts key) (hfits : Fits data.length)
    (hlen : 0x7fffffe0 ≤ data.length) (hpending : c.pending = frame E key data ++ rest)
    (hheader : c.arrivals 0 = .bytes n) (hn : 4 ≤ n) (hbody : c.arrivals 1 = .bytes m)
    (hm : DmHandshake.cipherSize data.length ≤ m) :
    (receive E key c).1 = .error .outputBuffer := by
  have hsize := hE.length_encrypt data
  have hpacket : ¬ Fits (E.encrypt key data).length := by
    rw [hsize, DmHandshake.cipherSize, Fits, blockSize]
    omega
  rw [receive, recvSecure_header hE hfits hpending hheader hn,
    recvPacket_whole hE hfits rfl hbody (by rw [hsize]; exact hm), if_neg hpacket]

/-- A header that arrives in pieces is an error. -/
theorem receive_cutHeader (harrival : c.arrivals 0 = .bytes n) (hpos : 0 < n) (hn : n < 4)
    (hpending : n ≤ c.pending.length) :
    (receive E key c).1 = .error (.runtimeError "Could not receive from secure socket") := by
  obtain ⟨got, hread⟩ := recv_short harrival (by decide) hn hpending
  rw [receive, recvSecure, show ((4 : Int) = ((4 : Nat) : Int)) from rfl, hread]
  have h0 : (n : Int) ≠ 0 := by omega
  have h4 : (n : Int) ≠ ((4 : Nat) : Int) := by omega
  simp only [if_neg h0, if_pos h4]
  rfl

end

/-! ## A cipher that is known on one input -/

/-- The padding: `n` bytes of value `n` up to a whole number of blocks. -/
def pad (input : Bytes) : Bytes :=
  input ++ List.replicate (16 - input.length % 16) (UInt8.ofNat (16 - input.length % 16))

/-- Takes the padding off a last block. -/
def unpad (block : Bytes) : Option Bytes :=
  match block.getLast? with
  | none => none
  | some n =>
      let front := block.take (block.length - n.toNat)
      if 0 < n.toNat ∧ block = front ++ List.replicate n.toNat n then some front else none

theorem length_pad (input : Bytes) : (pad input).length = DmHandshake.cipherSize input.length := by
  rw [pad, List.length_append, List.length_replicate, DmHandshake.cipherSize]
  omega

theorem unpad_append {front : Bytes} {n : Nat} (hpos : 0 < n) (hn : n ≤ 16) :
    unpad (front ++ List.replicate n (UInt8.ofNat n)) = some front := by
  have hval : (UInt8.ofNat n).toNat = n := by
    rw [UInt8.toNat_ofNat']
    omega
  have hlast : (front ++ List.replicate n (UInt8.ofNat n)).getLast? = some (UInt8.ofNat n) := by
    rw [List.getLast?_append, List.getLast?_replicate, if_neg (by omega)]
    rfl
  rw [unpad, hlast]
  simp only [hval, List.length_append, List.length_replicate, Nat.add_sub_cancel,
    List.take_left, hpos, and_self, if_true]

/-- Exchanges two messages under one key. -/
def exchange (key₀ plain secret key x : Bytes) : Bytes :=
  if key = key₀ then Equiv.swap plain secret x else x

theorem exchange_exchange (key₀ plain secret key x : Bytes) :
    exchange key₀ plain secret key (exchange key₀ plain secret key x) = x := by
  by_cases hk : key = key₀
  · rw [exchange, exchange, if_pos hk, if_pos hk, Equiv.swap_apply_self]
  · rw [exchange, exchange, if_neg hk, if_neg hk]

/-- Exchanging two messages of one length keeps the length. -/
theorem length_exchange {plain secret : Bytes} (h : plain.length = secret.length)
    (key₀ key x : Bytes) : (exchange key₀ plain secret key x).length = x.length := by
  rw [exchange]
  split
  · by_cases hp : x = plain
    · rw [hp, Equiv.swap_apply_left, h]
    · by_cases hs : x = secret
      · rw [hs, Equiv.swap_apply_right, h]
      · rw [Equiv.swap_apply_of_ne_of_ne hp hs]
  · rfl

/-- A cipher that only pads, but for one key and one padded input, which it exchanges with
    the ciphertext that AES makes of it. -/
def Evp.known (key₀ plain secret : Bytes) : Evp where
  encrypt := fun key input => exchange key₀ plain secret key (pad input)
  decryptUpdate := fun key input =>
    (exchange key₀ plain secret key input).take ((input.length - 1) / 16 * 16)
  decryptFinal := fun key input =>
    if input.length % 16 = 0 then
      unpad ((exchange key₀ plain secret key input).drop ((input.length - 1) / 16 * 16))
    else none

theorem Evp.known_inverts (key₀ : Bytes) {plain secret : Bytes}
    (h : plain.length = secret.length) (key : Bytes) :
    (Evp.known key₀ plain secret).Inverts key := by
  have hlength : ∀ input, (exchange key₀ plain secret key (pad input)).length =
      DmHandshake.cipherSize input.length := by
    intro input
    rw [length_exchange h, length_pad]
  refine ⟨hlength, fun input => ?_⟩
  have hblocks : (DmHandshake.cipherSize input.length - 1) / 16 * 16 = input.length / 16 * 16 := by
    rw [DmHandshake.cipherSize]
    omega
  have hfront : input.length / 16 * 16 ≤ input.length := by omega
  refine ⟨input.drop (input.length / 16 * 16), ?_, ?_⟩
  · show (if (exchange key₀ plain secret key (pad input)).length % 16 = 0 then
      unpad ((exchange key₀ plain secret key (exchange key₀ plain secret key (pad input))).drop
        (((exchange key₀ plain secret key (pad input)).length - 1) / 16 * 16))
      else none) = _
    rw [hlength, exchange_exchange, hblocks, if_pos (by rw [DmHandshake.cipherSize]; omega), pad,
      List.drop_append_of_le_length hfront]
    -- the last block is what is left of the input and the padding
    have hpadding : input.length % 16 < 16 := by omega
    exact unpad_append (by omega) (by omega)
  · show (exchange key₀ plain secret key (exchange key₀ plain secret key (pad input))).take
      (((exchange key₀ plain secret key (pad input)).length - 1) / 16 * 16) ++ _ = _
    rw [hlength, exchange_exchange, hblocks, pad, List.take_append_of_le_length hfront,
      List.take_append_drop]

end DmSocket
