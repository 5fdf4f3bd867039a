import DistributedMemory.DmSocketProofs

/-!
# The login — lengths in `open_server`, `open_client` and `accept`

The handshake of `DmHandshake` once more, over bytes and not over symbols, with every size
as the code computes it: the passphrase a server admits, the buffer that the client copies
M2 into, the padding that `RSA_public_encrypt` needs, and the comparison that the server
makes. The network is honest, and delivers whole messages.

* **`openServer`**, **`openClientM2`**, **`acceptM2`**, **`openClientM3`** — the code.
* **`LogsIn`** — a client with the server's passphrase gets in, and no other.
* **`login_iff`** — an admitted passphrase is as good as that exactly if M2 leaves eleven
  bytes of the RSA packet free.
-/

namespace DmLogin

open ByteStreams DmSocket

/-! ## Both ends -/

/-- `EVP_MAX_KEY_LENGTH`. -/
def maxKeyLength : Nat := 64

/-- OpenSSL, with the server's key pair: the cipher, `EVP_BytesToKey` with the cipher and
    SHA-1, `m_rsa_size`, and `RSA_public_encrypt` and `RSA_private_decrypt` with
    `RSA_PKCS1_PADDING`, where `none` is `-1`. -/
structure OpenSsl where
  evp : Evp
  bytesToKey : (salt data : Bytes) → (count : Nat) → Bytes
  rsaSize : Nat
  rsaSize_lt : rsaSize < 0x80000000
  publicEncrypt : Bytes → Option Bytes
  privateDecrypt : Bytes → Option Bytes

/-- What OpenSSL is relied on for. -/
structure OpenSsl.Sound (S : OpenSsl) : Prop where
  cipher : ∀ key, S.evp.Inverts key
  bytesToKey : ∀ salt data count, (S.bytesToKey salt data count).length = 32
  encrypts : ∀ m, (S.publicEncrypt m).isSome = true ↔ m.length + 11 ≤ S.rsaSize
  size : ∀ m c, S.publicEncrypt m = some c → c.length = S.rsaSize
  decrypts : ∀ m c, S.publicEncrypt m = some c → S.privateDecrypt c = some m

/-- What the two calls draw, and what is in the client's `m_session_key` before, which no
    constructor sets. -/
structure Randoms where
  salt : Bytes
  nonceA : Bytes
  nonceB : Bytes
  unset : Bytes
  length_nonceA : nonceA.length = maxKeyLength
  length_nonceB : nonceB.length = maxKeyLength
  length_unset : unset.length = maxKeyLength

/-- How a call ends that does not return. -/
inductive Fault where
  /-- A `memcpy` past the end of the buffer for M2. -/
  | message
  /-- A `memcmp` of bytes that M2 did not decrypt to. -/
  | decrypted
  /-- Out of `cipher`. -/
  | thrown (t : Thrown)
  deriving DecidableEq

/-- `SecureSocket::open_server` once it listens and has loaded its key: `m_pass`, or `none`
    where it returns `false`. -/
def openServer (S : OpenSsl) (pass : Bytes) : Option Bytes :=
  if toInt pass.length > (S.rsaSize : Int) - 3 * maxKeyLength then none else some pass

/-- `m_session_key` as `open_client` generates it. -/
def sessionKey (S : OpenSsl) (r : Randoms) (pass : Bytes) : Bytes :=
  S.bytesToKey r.salt pass 5 ++ r.unset.drop (S.bytesToKey r.salt pass 5).length

/-- `message` of M2: the four parts copied one behind the other. -/
def messageM2 (S : OpenSsl) (r : Randoms) (pass nonceB : Bytes) : Bytes :=
  sessionKey S r pass ++ r.nonceA ++ nonceB ++ pass

/-- `open_client` from its start to the sending of M2; `none` where it returns `false`. -/
def openClientM2 (S : OpenSsl) (r : Randoms) (pass nonceB : Bytes) :
    Except Fault (Option Bytes) :=
  if (S.bytesToKey r.salt pass 5).length = 0 then .ok none
  else if nonceB.length ≠ maxKeyLength then .ok none
  -- `message` has `m_rsa_size` bytes, and nothing is compared before the copies
  else if S.rsaSize < 3 * maxKeyLength + pass.length then .error .message
  else
    match S.publicEncrypt (messageM2 S r pass nonceB) with
    | none => .ok none
    | some encrypted =>
        if encrypted.length ≠ S.rsaSize then .ok none else .ok (some encrypted)

/-- `accept` from the receipt of M2 to the sending of M3: what M2 decrypts to, if it passes
    the checks; `none` where it returns `false`. -/
def acceptM2 (S : OpenSsl) (r : Randoms) (pass message : Bytes) : Except Fault (Option Bytes) :=
  if message.length ≠ S.rsaSize then .ok none
  else
    let decrypted := (S.privateDecrypt message).getD []
    let decryptedSize : Int :=
      match S.privateDecrypt message with
      | none => -1
      | some m => m.length
    if decryptedSize ≠ toInt (3 * maxKeyLength + pass.length) then .ok none
    else if decrypted.length < 3 * maxKeyLength then .error .decrypted
    else if (decrypted.drop (2 * maxKeyLength)).take maxKeyLength ≠ r.nonceB then .ok none
    else if decrypted.length < 3 * maxKeyLength + pass.length then .error .decrypted
    else if (decrypted.drop (3 * maxKeyLength)).take pass.length ≠ pass then .ok none
    else .ok (some decrypted)

/-- The session key that `accept` copies out of M2. -/
def installedKey (decrypted : Bytes) : Bytes := decrypted.take maxKeyLength

/-- `accept` at the sending of M3. -/
def acceptM3 (S : OpenSsl) (decrypted : Bytes) : Except Thrown (Option Bytes) :=
  sendSecure S.evp (installedKey decrypted) decrypted (2 * maxKeyLength)

/-- `open_client` from the receipt of M3 to its end. -/
def openClientM3 (S : OpenSsl) (r : Randoms) (pass : Bytes) (c : ByteStream) :
    Except Fault Bool :=
  match (recvSecure S.evp (sessionKey S r pass) c).1 with
  | .error t => .error (.thrown t)
  | .ok (decryptedSize, decrypted) =>
      if decryptedSize ≤ 0 then .ok false
      else if decryptedSize ≠ 2 * maxKeyLength ∨
          decrypted.take maxKeyLength ≠ sessionKey S r pass ∨
          (decrypted.drop maxKeyLength).take maxKeyLength ≠ r.nonceA then .ok false
      else .ok true

/-! ## One login -/

/-- How the two calls end: with the session key where they return `true`, with `none` where
    they return `false`. -/
structure Ended where
  client : Except Fault (Option Bytes)
  server : Except Fault (Option Bytes)
  deriving DecidableEq

/-- All that was written is there. -/
def whole (wire : Bytes) : ByteStream := ⟨wire, fun _ => .bytes wire.length⟩

/-- The peer has gone. -/
def gone : ByteStream := ⟨[], fun _ => .closed⟩

/-- The client's call from M3 on. -/
def clientEnd (S : OpenSsl) (r : Randoms) (pass : Bytes) (c : ByteStream) :
    Except Fault (Option Bytes) :=
  match openClientM3 S r pass c with
  | .error f => .error f
  | .ok true => .ok (some (sessionKey S r pass))
  | .ok false => .ok none

/-- The server's call from M2 on: the session key, and the packet of M3. -/
def serverEnd (S : OpenSsl) (r : Randoms) (pass message : Bytes) :
    Except Fault (Option (Bytes × Bytes)) :=
  match acceptM2 S r pass message with
  | .error f => .error f
  | .ok none => .ok none
  | .ok (some decrypted) =>
      match acceptM3 S decrypted with
      | .error t => .error (.thrown t)
      | .ok none => .ok none
      | .ok (some wire) => .ok (some (installedKey decrypted, wire))

/-- What the server's call leaves for the client to read. -/
def answer : Except Fault (Option (Bytes × Bytes)) → ByteStream
  | .ok (some (_, wire)) => whole wire
  | _ => gone

/-- The server's result. -/
def outcome (x : Except Fault (Option (Bytes × Bytes))) : Except Fault (Option Bytes) :=
  x.map fun y => y.map Prod.fst

/-- `open_client` with the passphrase `clientPass` and `accept` with `serverPass`, over a
    network that delivers whole messages. Where one of them ends early the other reads the
    end of the connection. -/
def login (S : OpenSsl) (r : Randoms) (serverPass clientPass : Bytes) : Ended :=
  match openClientM2 S r clientPass r.nonceB with
  | .error f => ⟨.error f, outcome (serverEnd S r serverPass [])⟩
  | .ok none => ⟨.ok none, outcome (serverEnd S r serverPass [])⟩
  | .ok (some message) =>
      ⟨clientEnd S r clientPass (answer (serverEnd S r serverPass message)),
        outcome (serverEnd S r serverPass message)⟩

/-- A client with the passphrase and the server, whose `m_pass` is `serverPass`, both
    succeed, with one session key; with any other passphrase the server does not. -/
structure LogsIn (S : OpenSsl) (r : Randoms) (serverPass pass : Bytes) : Prop where
  same : ∃ key, key.length = maxKeyLength ∧
    login S r serverPass pass = ⟨.ok (some key), .ok (some key)⟩
  different : ∀ clientPass, clientPass ≠ pass →
    (login S r serverPass clientPass).server = .ok none

/-! ## What each part does -/

section

variable {S : OpenSsl} {r : Randoms} {pass clientPass : Bytes}

theorem length_sessionKey (hS : S.Sound) (r : Randoms) (pass : Bytes) :
    (sessionKey S r pass).length = maxKeyLength := by
  rw [sessionKey, List.length_append, List.length_drop, hS.bytesToKey, r.length_unset]
  rfl

theorem length_messageM2 (hS : S.Sound) (r : Randoms) (pass : Bytes) :
    (messageM2 S r pass r.nonceB).length = 3 * maxKeyLength + pass.length := by
  rw [messageM2]
  simp only [List.length_append, length_sessionKey hS, r.length_nonceA, r.length_nonceB]
  omega

/-- What M2 is made of, read off at the offsets that `accept` uses. -/
theorem slices_messageM2 (hS : S.Sound) (r : Randoms) (pass : Bytes) :
    installedKey (messageM2 S r pass r.nonceB) = sessionKey S r pass ∧
      (messageM2 S r pass r.nonceB).take (2 * maxKeyLength) = sessionKey S r pass ++ r.nonceA ∧
      ((messageM2 S r pass r.nonceB).drop (2 * maxKeyLength)).take maxKeyLength = r.nonceB ∧
      (messageM2 S r pass r.nonceB).drop (3 * maxKeyLength) = pass := by
  have hkey := length_sessionKey hS r pass
  have hparts : (sessionKey S r pass ++ r.nonceA).length = 2 * maxKeyLength := by
    rw [List.length_append, hkey, r.length_nonceA]
    rfl
  have hall : (sessionKey S r pass ++ r.nonceA ++ r.nonceB).length = 3 * maxKeyLength := by
    rw [List.length_append, hparts, r.length_nonceB]
    rfl
  refine ⟨?_, ?_, ?_, ?_⟩
  · rw [installedKey, messageM2, List.append_assoc, List.append_assoc, ← hkey, List.take_left]
  · rw [messageM2, List.append_assoc, ← hparts, List.take_left]
  · rw [messageM2, List.append_assoc, ← hparts, List.drop_left, ← r.length_nonceB,
      List.take_left]
  · rw [messageM2, ← hall, List.drop_left]

/-- **The client sends M2** exactly if it fits with its padding. -/
theorem openClientM2_of_le (hS : S.Sound) (hlen : pass.length + 203 ≤ S.rsaSize) :
    ∃ c, openClientM2 S r pass r.nonceB = .ok (some c) ∧ c.length = S.rsaSize ∧
      S.privateDecrypt c = some (messageM2 S r pass r.nonceB) := by
  have hsome := (hS.encrypts (messageM2 S r pass r.nonceB)).mpr (by
    rw [length_messageM2 hS, maxKeyLength]
    omega)
  obtain ⟨c, hc⟩ := Option.isSome_iff_exists.mp hsome
  refine ⟨c, ?_, hS.size _ _ hc, hS.decrypts _ _ hc⟩
  rw [openClientM2, hS.bytesToKey, if_neg (by decide), if_neg (not_not_intro r.length_nonceB),
    if_neg (by rw [maxKeyLength]; omega), hc]
  exact if_neg (not_not_intro (hS.size _ _ hc))

/-- What is sent as M2 is what `RSA_public_encrypt` made of it. -/
theorem openClientM2_inv {c : Bytes} (h : openClientM2 S r pass r.nonceB = .ok (some c)) :
    S.publicEncrypt (messageM2 S r pass r.nonceB) = some c := by
  rw [openClientM2] at h
  split at h
  · exact nomatch h
  · split at h
    · exact nomatch h
    · split at h
      · exact nomatch h
      · cases hc : S.publicEncrypt (messageM2 S r pass r.nonceB) with
        | none =>
            rw [hc] at h
            exact nomatch h
        | some encrypted =>
            simp only [hc] at h
            split at h
            · exact nomatch h
            · exact congrArg some (Option.some.inj (Except.ok.inj h))

theorem openClientM2_of_lt (hS : S.Sound) (hlen : S.rsaSize < pass.length + 203) :
    ∀ c, openClientM2 S r pass r.nonceB ≠ .ok (some c) := by
  intro c h
  have hsome : (S.publicEncrypt (messageM2 S r pass r.nonceB)).isSome = true := by
    rw [openClientM2_inv h]
    rfl
  rw [hS.encrypts, length_messageM2 hS, maxKeyLength] at hsome
  omega

/-- Without M2 the client gets no session. -/
theorem login_of_lt (hS : S.Sound) {serverPass : Bytes} (hlen : S.rsaSize < pass.length + 203)
    (key : Bytes) : (login S r serverPass pass).client ≠ .ok (some key) := by
  intro hclient
  rw [login] at hclient
  cases hM2 : openClientM2 S r pass r.nonceB with
  | error f =>
      rw [hM2] at hclient
      exact nomatch hclient
  | ok x =>
      cases x with
      | none =>
          rw [hM2] at hclient
          exact nomatch hclient
      | some c => exact openClientM2_of_lt hS hlen c hM2

/-- What is sent as M2 decrypts to what it was made of. -/
theorem decrypts_of_openClientM2 (hS : S.Sound) {c : Bytes}
    (h : openClientM2 S r pass r.nonceB = .ok (some c)) :
    c.length = S.rsaSize ∧ S.privateDecrypt c = some (messageM2 S r pass r.nonceB) :=
  ⟨hS.size _ _ (openClientM2_inv h), hS.decrypts _ _ (openClientM2_inv h)⟩

/-- Nothing read is no M2. -/
theorem serverEnd_nil (hlen : pass.length + 203 ≤ S.rsaSize) :
    serverEnd S r pass [] = .ok none := by
  rw [serverEnd, acceptM2, if_pos (by rw [List.length_nil]; omega)]

/-- **The server takes M2 for what the client made of its own passphrase**: it passes the
    checks if that is the server's, and fails them if it is another. -/
theorem acceptM2_cases (hS : S.Sound) (hlen : pass.length + 203 ≤ S.rsaSize) {c : Bytes}
    (hsize : c.length = S.rsaSize)
    (hdec : S.privateDecrypt c = some (messageM2 S r clientPass r.nonceB)) :
    acceptM2 S r pass c =
      .ok (if clientPass = pass then some (messageM2 S r pass r.nonceB) else none) := by
  have hlt := S.rsaSize_lt
  have hM2 := length_messageM2 hS r clientPass
  obtain ⟨-, -, hnonce, hpass⟩ := slices_messageM2 hS r clientPass
  rw [acceptM2, if_neg (not_not_intro hsize), hdec]
  simp only [Option.getD_some]
  rw [toInt_of_lt (by rw [maxKeyLength]; omega), hM2]
  by_cases hlengths : clientPass.length = pass.length
  · rw [if_neg (by rw [hlengths]; simp), if_neg (by omega), if_neg (not_not_intro hnonce),
      if_neg (by omega), hpass, ← hlengths, List.take_length]
    by_cases heq : clientPass = pass
    · rw [if_neg (not_not_intro heq), if_pos heq, heq]
    · rw [if_pos heq, if_neg heq]
  · have hne : clientPass ≠ pass := fun heq => hlengths (congrArg List.length heq)
    rw [if_pos (by omega), if_neg hne]

/-- **M3 goes back** under the key that was in M2. -/
theorem serverEnd_ok (hS : S.Sound) (hlen : pass.length + 203 ≤ S.rsaSize) {c : Bytes}
    (hsize : c.length = S.rsaSize)
    (hdec : S.privateDecrypt c = some (messageM2 S r clientPass r.nonceB)) :
    serverEnd S r pass c = .ok (if clientPass = pass then
      some (sessionKey S r pass, frame S.evp (sessionKey S r pass)
        (sessionKey S r pass ++ r.nonceA)) else none) := by
  rw [serverEnd, acceptM2_cases hS hlen hsize hdec]
  by_cases heq : clientPass = pass
  · obtain ⟨hkey, hfront, -, -⟩ := slices_messageM2 hS r pass
    rw [if_pos heq, if_pos heq]
    have hfits : Fits (2 * maxKeyLength : Nat) := by decide
    have hM3 : acceptM3 S (messageM2 S r pass r.nonceB) =
        .ok (some (frame S.evp (sessionKey S r pass) (sessionKey S r pass ++ r.nonceA))) := by
      rw [acceptM3, hkey, ← hfront, sendSecure, cipher,
        show ((2 : Int) * maxKeyLength) = ((2 * maxKeyLength : Nat) : Int) from rfl, if_pos hfits]
      simp only [Int.toNat_natCast]
      rw [if_neg (by omega)]
      rfl
    simp only [hM3, hkey]
  · rw [if_neg heq, if_neg heq]

/-- **The client takes M3** for what it is. -/
theorem clientEnd_whole (hS : S.Sound) (r : Randoms) (pass : Bytes) :
    clientEnd S r pass (whole (frame S.evp (sessionKey S r pass)
      (sessionKey S r pass ++ r.nonceA))) = .ok (some (sessionKey S r pass)) := by
  have hkey := length_sessionKey hS r pass
  have hdata : (sessionKey S r pass ++ r.nonceA).length = 128 := by
    rw [List.length_append, hkey, r.length_nonceA]
    rfl
  have hcipher := hS.cipher (sessionKey S r pass)
  have hwire : (frame S.evp (sessionKey S r pass) (sessionKey S r pass ++ r.nonceA)).length =
      148 := by
    rw [frame, List.length_append, length_leBytes, hcipher.length_encrypt, hdata]
    rfl
  have hread := recvSecure_frame hcipher
    (c := whole (frame S.evp (sessionKey S r pass) (sessionKey S r pass ++ r.nonceA)))
    (by rw [hdata]; decide) (List.append_nil _).symm rfl (by rw [hwire]; decide) rfl
    (by rw [hwire, hdata]; decide)
  have htake : (sessionKey S r pass ++ r.nonceA).take maxKeyLength = sessionKey S r pass := by
    rw [← hkey, List.take_left]
  have hdrop : ((sessionKey S r pass ++ r.nonceA).drop maxKeyLength).take maxKeyLength =
      r.nonceA := by
    rw [← hkey, List.drop_left, hkey, ← r.length_nonceA, List.take_length]
  have htrue : openClientM3 S r pass (whole (frame S.evp (sessionKey S r pass)
      (sessionKey S r pass ++ r.nonceA))) = .ok true := by
    rw [openClientM3, hread]
    simp only [hdata, htake, hdrop]
    rw [if_neg (by decide), if_neg (by simp [maxKeyLength])]
  rw [clientEnd, htrue]

/-- **With one passphrase that fits** both ends get one session key, and M3 is a frame under
    it. -/
theorem login_same (hS : S.Sound) (r : Randoms) (hlen : pass.length + 203 ≤ S.rsaSize) :
    ∃ message, openClientM2 S r pass r.nonceB = .ok (some message) ∧
      serverEnd S r pass message = .ok (some (sessionKey S r pass,
        frame S.evp (sessionKey S r pass) (sessionKey S r pass ++ r.nonceA))) ∧
      login S r pass pass =
        ⟨.ok (some (sessionKey S r pass)), .ok (some (sessionKey S r pass))⟩ := by
  obtain ⟨message, hM2, hsize, hdec⟩ := openClientM2_of_le hS hlen
  have hserver := serverEnd_ok hS hlen hsize hdec
  rw [if_pos rfl] at hserver
  refine ⟨message, hM2, hserver, ?_⟩
  rw [login, hM2]
  simp only [hserver, answer, clientEnd_whole hS]
  rfl

end

/-! ## Every passphrase that is admitted -/

/-- **An admitted passphrase logs in exactly if M2 and its padding fit one RSA packet.** -/
theorem login_iff {S : OpenSsl} (hS : S.Sound) (r : Randoms) {pass serverPass : Bytes}
    (hopen : openServer S pass = some serverPass) :
    LogsIn S r serverPass pass ↔ pass.length + 203 ≤ S.rsaSize := by
  have hpass : serverPass = pass := by
    rw [openServer] at hopen
    split at hopen
    · exact nomatch hopen
    · exact (Option.some.inj hopen).symm
  subst hpass
  constructor
  · intro h
    by_contra hlen
    obtain ⟨key, -, hkey⟩ := h.same
    have hclient : (login S r serverPass serverPass).client = .ok (some key) := by rw [hkey]
    exact login_of_lt hS (by omega) key hclient
  · intro hlen
    constructor
    · obtain ⟨-, -, -, hboth⟩ := login_same hS r hlen
      exact ⟨sessionKey S r serverPass, length_sessionKey hS r serverPass, hboth⟩
    · intro clientPass hne
      rw [login]
      cases hM2 : openClientM2 S r clientPass r.nonceB with
      | error f =>
          simp only [serverEnd_nil hlen]
          rfl
      | ok x =>
          cases x with
          | none =>
              simp only [serverEnd_nil hlen]
              rfl
          | some c =>
              obtain ⟨hsize, hdec⟩ := decrypts_of_openClientM2 hS hM2
              simp only [serverEnd_ok hS hlen hsize hdec, if_neg hne]
              rfl

/-! ## One key pair -/

/-- PKCS#1 padding up to `size` bytes, with ones for the random bytes. -/
def pkcs1Pad (size : Nat) (m : Bytes) : Bytes :=
  [0, 2] ++ List.replicate (size - 3 - m.length) 1 ++ [0] ++ m

/-- Takes the padding off: two fixed bytes, at least eight that are not zero, a zero. -/
def pkcs1Unpad (packet : Bytes) : Option Bytes :=
  if packet.take 2 = [0, 2] ∧ 8 ≤ ((packet.drop 2).takeWhile (· ≠ 0)).length then
    ((packet.drop 2).dropWhile (· ≠ 0)).tail?
  else none

theorem pkcs1Unpad_pad {size : Nat} {m : Bytes} (h : m.length + 11 ≤ size) :
    pkcs1Unpad (pkcs1Pad size m) = some m := by
  have hrest : (pkcs1Pad size m).drop 2 =
      List.replicate (size - 3 - m.length) 1 ++ 0 :: m := by
    rw [pkcs1Pad, List.append_assoc, List.append_assoc]
    rfl
  have htwo : (pkcs1Pad size m).take 2 = [0, 2] := by
    rw [pkcs1Pad, List.append_assoc, List.append_assoc]
    rfl
  have hones : ∀ b ∈ List.replicate (size - 3 - m.length) (1 : UInt8), decide (b ≠ 0) = true := by
    intro b hb
    rw [List.eq_of_mem_replicate hb]
    decide
  rw [pkcs1Unpad, hrest, htwo, List.takeWhile_append_of_pos hones,
    List.dropWhile_append_of_pos hones, if_pos]
  · rfl
  · refine ⟨rfl, ?_⟩
    rw [List.length_append, List.length_replicate]
    omega

theorem length_pkcs1Pad {size : Nat} {m : Bytes} (h : m.length + 11 ≤ size) :
    (pkcs1Pad size m).length = size := by
  simp only [pkcs1Pad, List.length_append, List.length_replicate, List.length_cons,
    List.length_nil]
  omega

/-- The passphrase `secret`. -/
def secret : Bytes := [0x73, 0x65, 0x63, 0x72, 0x65, 0x74]

/-- The key that `EVP_BytesToKey` makes of it with the salt 1, 2, …, 8 in five rounds. -/
def secretKey : Bytes :=
  [0x41, 0xe2, 0x4d, 0x32, 0x87, 0x5b, 0xcb, 0xaf,
   0xb0, 0xee, 0xfd, 0x13, 0x15, 0x49, 0xf1, 0x02,
   0xb4, 0x3d, 0x66, 0xf0, 0x79, 0xc6, 0x6e, 0x33,
   0x06, 0xc4, 0x99, 0xad, 0xf2, 0x39, 0x26, 0xb0]

/-- The draws of one login: the nonces happen to be zero, and so was the memory. -/
def zeroRandoms : Randoms where
  salt := [1, 2, 3, 4, 5, 6, 7, 8]
  nonceA := List.replicate 64 0
  nonceB := List.replicate 64 0
  unset := List.replicate 64 0
  length_nonceA := rfl
  length_nonceB := rfl
  length_unset := rfl

/-- M3 as AES-256 in ECB mode encrypts it: the key, six blocks of zeros, and the padding. -/
def secretM3 : Bytes :=
  [0x38, 0xc2, 0xc4, 0xdb, 0x95, 0x92, 0x89, 0x17,
   0x46, 0x9c, 0xcf, 0x7b, 0xe6, 0xaf, 0x82, 0xa6,
   0xec, 0x45, 0x86, 0x48, 0x56, 0x65, 0xc6, 0xa1,
   0x73, 0x96, 0x3b, 0x24, 0x0d, 0x7f, 0x43, 0x62] ++
  (List.replicate 6
    [0x11, 0x2d, 0x25, 0x15, 0xbd, 0xf2, 0x2b, 0x94,
     0x11, 0x62, 0x0d, 0x22, 0x6c, 0x29, 0x8a, 0xcd]).flatten ++
  [0x73, 0x1a, 0x49, 0x92, 0x1f, 0xea, 0xea, 0xd7,
   0xc1, 0x3c, 0xec, 0x76, 0x26, 0xc6, 0xf1, 0x6b]

/-- OpenSSL with a key pair of 2048 bits and the public exponent 1, under which a packet is
    its own ciphertext. -/
def paddingOnly : OpenSsl where
  evp := Evp.known (secretKey ++ List.replicate 32 0) (pad (secretKey ++ List.replicate 96 0))
    secretM3
  bytesToKey := fun salt data count =>
    if salt = zeroRandoms.salt ∧ data = secret ∧ count = 5 then secretKey
    else List.replicate 32 0
  rsaSize := 256
  rsaSize_lt := by decide
  publicEncrypt := fun m => if m.length + 11 ≤ 256 then some (pkcs1Pad 256 m) else none
  privateDecrypt := pkcs1Unpad

theorem publicEncrypt_eq {m c : Bytes} (h : paddingOnly.publicEncrypt m = some c) :
    m.length + 11 ≤ 256 ∧ pkcs1Pad 256 m = c := by
  change (if m.length + 11 ≤ 256 then some (pkcs1Pad 256 m) else none) = some c at h
  by_cases hm : m.length + 11 ≤ 256
  · rw [if_pos hm] at h
    exact ⟨hm, Option.some.inj h⟩
  · rw [if_neg hm] at h
    exact nomatch h

theorem paddingOnly_sound : paddingOnly.Sound where
  cipher := Evp.known_inverts _ (by decide +kernel)
  bytesToKey := by
    intro salt data count
    show (if _ then secretKey else List.replicate 32 0 : Bytes).length = 32
    split <;> rfl
  encrypts := by
    intro m
    show (if m.length + 11 ≤ 256 then some (pkcs1Pad 256 m) else none).isSome = true ↔
      m.length + 11 ≤ 256
    by_cases hm : m.length + 11 ≤ 256
    · simp [hm]
    · simp [hm]
  size := by
    intro m c h
    obtain ⟨hm, rfl⟩ := publicEncrypt_eq h
    exact length_pkcs1Pad hm
  decrypts := by
    intro m c h
    obtain ⟨hm, rfl⟩ := publicEncrypt_eq h
    exact pkcs1Unpad_pad hm

theorem login_iff_secret : LogsIn paddingOnly zeroRandoms secret secret :=
  (login_iff paddingOnly_sound zeroRandoms rfl).mpr (by decide)

/-- A passphrase of 54 characters. -/
def longPass : Bytes := List.replicate 54 0x61

/-- **An admitted passphrase that does not log in.** -/
theorem login_longPass :
    openServer paddingOnly longPass = some longPass ∧
      ¬ LogsIn paddingOnly zeroRandoms longPass longPass := by
  refine ⟨rfl, fun h => ?_⟩
  obtain ⟨key, -, hkey⟩ := h.same
  have hclient : (login paddingOnly zeroRandoms longPass longPass).client = .ok (some key) := by
    rw [hkey]
  exact login_of_lt paddingOnly_sound (by decide) key hclient

end DmLogin
