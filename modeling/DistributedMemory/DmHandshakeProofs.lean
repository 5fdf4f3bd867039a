import Mathlib.Data.List.Induction
import DistributedMemory.KnowledgeProofs
import DistributedMemory.RunProofs

/-!
# The handshake — `SecureSocket::open_client` and `SecureSocket::accept`

Three messages open a connection: the server's nonce `N_B` in the clear (M1), session key,
nonce `N_A`, `N_B` and passphrase under the server's public key (M2), session key and
`N_A` under the session key (M3). Both functions are modelled byte by byte, with their
buffers, offsets and length checks, over bytes that are symbols: a byte of a nonce, a key,
the passphrase or a ciphertext is known by having seen it or by having made it, never by
guessing.

The network is the attacker's: every byte sent goes to it, every byte received comes from
it. It may use the public key, make nonces of its own, and run any number of sessions of
both functions side by side.

* **`openClientM2`**, **`acceptM2`**, **`openClientM3`** — the code between two messages.
* **`Safe`** — the bytes the attacker may come to know; **`Secure`** — the invariant.
* **`handshake_secure`** — both ends authenticate, and passphrase and session keys stay
  secret.
-/

namespace DmHandshake

open LabelledRun Knowledge

/-! ## Bytes -/

/-- A byte that is in the clear: a literal, byte `n` of the passphrase, of the session key
    or nonce of the `i`-th call of `open_client`, of the nonce of the `j`-th call of
    `accept`, or of something random the attacker made. -/
inductive Atom where
  | lit (b : UInt8)
  | pass (n : Nat)
  | sessionKey (i n : Nat)
  | nonceA (i n : Nat)
  | nonceB (j n : Nat)
  | attacker (n : Nat)
  deriving DecidableEq

/-- A byte: one in the clear, or byte `n` of an RSA or AES ciphertext. -/
inductive Cell where
  | atom (a : Atom)
  | rsa (plaintext : List Cell) (n : Nat)
  | aes (key plaintext : List Cell) (n : Nat)

mutual

/-- Equality of bytes can be decided. -/
def Cell.decEq : (x y : Cell) → Decidable (x = y)
  | .atom a, .atom b => decidable_of_iff (a = b) (by rw [Cell.atom.injEq])
  | .rsa p n, .rsa q m =>
      have := Cell.decEqList p q
      decidable_of_iff (p = q ∧ n = m) (by rw [Cell.rsa.injEq])
  | .aes k p n, .aes l q m =>
      have := Cell.decEqList k l
      have := Cell.decEqList p q
      decidable_of_iff (k = l ∧ p = q ∧ n = m) (by rw [Cell.aes.injEq])
  | .atom _, .rsa _ _ | .atom _, .aes _ _ _ | .rsa _ _, .atom _ | .rsa _ _, .aes _ _ _
  | .aes _ _ _, .atom _ | .aes _ _ _, .rsa _ _ => isFalse nofun

/-- Equality of messages can be decided. -/
def Cell.decEqList : (xs ys : List Cell) → Decidable (xs = ys)
  | [], [] => isTrue rfl
  | x :: xs, y :: ys =>
      have := Cell.decEq x y
      have := Cell.decEqList xs ys
      decidable_of_iff (x = y ∧ xs = ys) (by rw [List.cons.injEq])
  | [], _ :: _ | _ :: _, [] => isFalse nofun

end

instance : DecidableEq Cell := Cell.decEq

/-- What the attacker can make of bytes it knows: literals and random bytes of its own,
    encryptions under the public key and under keys it knows, and the plaintext of an AES
    ciphertext under a key it knows. -/
inductive Infer : Set Cell → Cell → Prop where
  | lit (b : UInt8) : Infer ∅ (.atom (.lit b))
  | attacker (n : Nat) : Infer ∅ (.atom (.attacker n))
  | rsa (plaintext : List Cell) (n : Nat) :
      Infer {x | x ∈ plaintext} (.rsa plaintext n)
  | aes (key plaintext : List Cell) (n : Nat) :
      Infer {x | x ∈ key ∨ x ∈ plaintext} (.aes key plaintext n)
  | decrypt {key plaintext : List Cell} {n : Nat} {c : Cell} (hc : c ∈ plaintext) :
      Infer {x | x ∈ key ∨ x = .aes key plaintext n} c

/-! ## Ciphers and buffers -/

/-- The size of what `cipher` puts out: whole blocks of 16 bytes, padding included. -/
def cipherSize (size : Nat) : Nat := (size / 16 + 1) * 16

/-- `cipher` with `ENCRYPT`. -/
def cipherEncrypt (key plaintext : List Cell) : List Cell :=
  (List.range (cipherSize plaintext.length)).map (Cell.aes key plaintext)

/-- `cipher` with `DECRYPT`: what is no ciphertext under the key has no plaintext. -/
def cipherDecrypt (key packet : List Cell) : Option (List Cell) :=
  match packet with
  | .aes _ plaintext _ :: _ =>
      if packet = cipherEncrypt key plaintext then some plaintext else none
  | _ => none

/-- `memcmp` of `size` bytes at `offset`, which are within the buffer. -/
def memcmp (buffer : List Cell) (offset size : Nat) (expected : List Cell) : Bool :=
  (buffer.drop offset).take size = expected

/-- What is fixed: the buffer length `EVP_MAX_KEY_LENGTH`, the size of an RSA block under
    the server's key, and the length of the passphrase, which is secret and so not empty.
    `open_server` refuses a passphrase that does not fit. -/
structure Setup where
  maxKeyLength : Nat
  rsaSize : Nat
  passSize : Nat
  maxKeyLength_pos : 0 < maxKeyLength
  passSize_pos : 0 < passSize
  passSize_le : passSize ≤ rsaSize - 3 * maxKeyLength

namespace Setup

variable (A : Setup)

/-- `m_pass`. -/
def pass : List Cell := (List.range A.passSize).map fun n => .atom (.pass n)

/-- `m_session_key` as the `i`-th call of `open_client` generates it. -/
def sessionKey (i : Nat) : List Cell :=
  (List.range A.maxKeyLength).map fun n => .atom (.sessionKey i n)

/-- `nonce_a` of the `i`-th call of `open_client`. -/
def nonceA (i : Nat) : List Cell := (List.range A.maxKeyLength).map fun n => .atom (.nonceA i n)

/-- `nonce_b` of the `j`-th call of `accept`. -/
def nonceB (j : Nat) : List Cell := (List.range A.maxKeyLength).map fun n => .atom (.nonceB j n)

@[simp] theorem length_pass : A.pass.length = A.passSize := by simp [pass]
@[simp] theorem length_sessionKey (i : Nat) : (A.sessionKey i).length = A.maxKeyLength := by
  simp [sessionKey]
@[simp] theorem length_nonceA (i : Nat) : (A.nonceA i).length = A.maxKeyLength := by
  simp [nonceA]
@[simp] theorem length_nonceB (j : Nat) : (A.nonceB j).length = A.maxKeyLength := by
  simp [nonceB]

/-- `RSA_public_encrypt` with `RSA_PKCS1_PADDING`, which takes 11 bytes. -/
def rsaPublicEncrypt (plaintext : List Cell) : Option (List Cell) :=
  if plaintext.length + 11 ≤ A.rsaSize then
    some ((List.range A.rsaSize).map (Cell.rsa plaintext))
  else none

/-- `RSA_private_decrypt`: what is no ciphertext has no plaintext. -/
def rsaPrivateDecrypt (message : List Cell) : Option (List Cell) :=
  match message with
  | .rsa plaintext _ :: _ =>
      if message = (List.range A.rsaSize).map (Cell.rsa plaintext) then some plaintext
      else none
  | _ => none

/-! ## The two functions -/

/-- `message` of M2: the four parts copied one behind the other. -/
def messageM2 (i : Nat) (nonceB : List Cell) : List Cell :=
  A.sessionKey i ++ A.nonceA i ++ nonceB ++ A.pass

/-- `open_client` from the receipt of M1 to the sending of M2; `none` where it returns
    `false`. -/
def openClientM2 (i : Nat) (nonceB : List Cell) : Option (List Cell) :=
  if nonceB.length ≠ A.maxKeyLength then none
  else A.rsaPublicEncrypt (A.messageM2 i nonceB)

/-- `accept` from the receipt of M2 to the sending of M3: what M2 decrypts to, if it passes
    the checks. -/
def acceptM2 (j : Nat) (message : List Cell) : Option (List Cell) :=
  if message.length ≠ A.rsaSize then none
  else
    match A.rsaPrivateDecrypt message with
    | none => none
    | some decrypted =>
        if decrypted.length ≠ 3 * A.maxKeyLength + A.passSize ∨
            ¬ memcmp decrypted (2 * A.maxKeyLength) A.maxKeyLength (A.nonceB j) ∨
            ¬ memcmp decrypted (3 * A.maxKeyLength) A.passSize A.pass then none
        else some decrypted

/-- The session key `accept` copies out of M2. -/
def installedKey (decrypted : List Cell) : List Cell := decrypted.take A.maxKeyLength

/-- The packet of M3. -/
def acceptM3 (decrypted : List Cell) : List Cell :=
  cipherEncrypt (A.installedKey decrypted) (decrypted.take (2 * A.maxKeyLength))

/-- `open_client` from the receipt of M3 to its end. -/
def openClientM3 (i : Nat) (packet : List Cell) : Bool :=
  match cipherDecrypt (A.sessionKey i) packet with
  | none => false
  | some decrypted =>
      if decrypted.length ≠ 2 * A.maxKeyLength ∨
          ¬ memcmp decrypted 0 A.maxKeyLength (A.sessionKey i) ∨
          ¬ memcmp decrypted A.maxKeyLength A.maxKeyLength (A.nonceA i) then false
      else true

end Setup

/-! ## Sessions over the attacker's network -/

/-- How far a call of `open_client` is; from M2 on it remembers the nonce it answered. -/
inductive ClientSession where
  | waitsM1
  | waitsM3 (nonceB : List Cell)
  | opened (nonceB : List Cell)
  | failed (nonceB : Option (List Cell))

/-- The nonce the call sent M2 with. -/
def ClientSession.sentM2 : ClientSession → Option (List Cell)
  | .waitsM1 => none
  | .waitsM3 nonceB | .opened nonceB => some nonceB
  | .failed nonceB => nonceB

/-- How far a call of `accept` is. Once M2 has passed the checks the session key is
    installed; the call returns `true` if M3 could be sent. -/
inductive ServerSession where
  | idle
  | waitsM2
  | accepted (decrypted : List Cell) (sent : Bool)
  | failed

/-- All sessions there are, and every byte sent so far. -/
structure State where
  net : Set Cell
  client : Nat → ClientSession
  server : Nat → ServerSession

/-- Nothing sent, no connection accepted. -/
def State.start : State := ⟨∅, fun _ => .waitsM1, fun _ => .idle⟩

/-- The attacker can put the message on the network. -/
def State.Delivers (s : State) (message : List Cell) : Prop :=
  ∀ x ∈ message, x ∈ derive Infer s.net

/-- The bytes are sent. -/
def State.send (s : State) (message : List Cell) : State :=
  { s with net := s.net ∪ {x | x ∈ message} }

@[simp] theorem State.send_nil (s : State) : s.send [] = s := by simp [send]

def State.setClient (s : State) (i : Nat) (c : ClientSession) : State :=
  { s with client := Function.update s.client i c }

def State.setServer (s : State) (j : Nat) (c : ServerSession) : State :=
  { s with server := Function.update s.server j c }

/-- What a step is about. -/
inductive Event where
  | m1 (j : Nat)
  | m2 (i : Nat)
  | m3 (j : Nat)
  | opened (i : Nat)
  | clientFailed (i : Nat)
  | serverFailed (j : Nat)

/-- One step of one session. A session may fail whenever it waits: a send or receive that
    breaks off, a message of the wrong size, a check that does not pass. -/
inductive Step (A : Setup) : State → Event → State → Prop where
  | m1 {s : State} {j : Nat} (hs : s.server j = .idle) :
      Step A s (.m1 j) ((s.send (A.nonceB j)).setServer j .waitsM2)
  | m2 {s : State} {i : Nat} {nonceB message : List Cell} (hs : s.client i = .waitsM1)
      (hrecv : s.Delivers nonceB) (hsend : A.openClientM2 i nonceB = some message) :
      Step A s (.m2 i) ((s.send message).setClient i (.waitsM3 nonceB))
  | m3 {s : State} {j : Nat} {message decrypted : List Cell} (sent : Bool)
      (hs : s.server j = .waitsM2) (hrecv : s.Delivers message)
      (hcheck : A.acceptM2 j message = some decrypted) :
      Step A s (.m3 j) ((s.send (A.acceptM3 decrypted)).setServer j (.accepted decrypted sent))
  | opened {s : State} {i : Nat} {nonceB packet : List Cell}
      (hs : s.client i = .waitsM3 nonceB) (hrecv : s.Delivers packet)
      (hcheck : A.openClientM3 i packet = true) :
      Step A s (.opened i) (s.setClient i (.opened nonceB))
  | failedM1 {s : State} {i : Nat} (hs : s.client i = .waitsM1) :
      Step A s (.clientFailed i) (s.setClient i (.failed none))
  | failedM3 {s : State} {i : Nat} {nonceB : List Cell} (hs : s.client i = .waitsM3 nonceB) :
      Step A s (.clientFailed i) (s.setClient i (.failed (some nonceB)))
  | failedM2 {s : State} {j : Nat} (hs : s.server j = .waitsM2) :
      Step A s (.serverFailed j) (s.setServer j .failed)

/-! ## What the checks establish -/

namespace Setup

variable {A : Setup}

/-- Two sessions' keys are different. -/
theorem sessionKey_inj {i i' : Nat} (h : A.sessionKey i = A.sessionKey i') : i = i' := by
  -- the first byte already tells them apart
  have hfirst := congrArg List.head? h
  obtain ⟨n, hn⟩ := Nat.exists_eq_succ_of_ne_zero (Nat.ne_of_gt A.maxKeyLength_pos)
  rw [sessionKey, sessionKey, hn, List.range_succ_eq_map] at hfirst
  simpa using hfirst

/-- Two sessions' nonces are different. -/
theorem nonceB_inj {j j' : Nat} (h : A.nonceB j = A.nonceB j') : j = j' := by
  have hfirst := congrArg List.head? h
  obtain ⟨n, hn⟩ := Nat.exists_eq_succ_of_ne_zero (Nat.ne_of_gt A.maxKeyLength_pos)
  rw [nonceB, nonceB, hn, List.range_succ_eq_map] at hfirst
  simpa using hfirst

/-- A session key has a first byte. -/
theorem mem_sessionKey (i : Nat) : Cell.atom (.sessionKey i 0) ∈ A.sessionKey i :=
  List.mem_map.mpr ⟨0, List.mem_range.mpr A.maxKeyLength_pos, rfl⟩

/-- The passphrase has a first byte. -/
theorem mem_pass : Cell.atom (.pass 0) ∈ A.pass :=
  List.mem_map.mpr ⟨0, List.mem_range.mpr A.passSize_pos, rfl⟩

/-- An RSA block has a first byte. -/
theorem rsaSize_pos : 0 < A.rsaSize := by
  have h := A.passSize_le
  have hpos := A.passSize_pos
  omega

/-- What M2 is made of, read off at the offsets that `accept` uses. -/
theorem slices_messageM2 (i : Nat) {nonceB : List Cell}
    (hlen : nonceB.length = A.maxKeyLength) :
    A.installedKey (A.messageM2 i nonceB) = A.sessionKey i ∧
      ((A.messageM2 i nonceB).drop (2 * A.maxKeyLength)).take A.maxKeyLength = nonceB ∧
      ((A.messageM2 i nonceB).drop (3 * A.maxKeyLength)).take A.passSize = A.pass := by
  have hparts : (A.sessionKey i ++ A.nonceA i).length = 2 * A.maxKeyLength := by
    simp
    omega
  have hall : (A.sessionKey i ++ A.nonceA i ++ nonceB).length = 3 * A.maxKeyLength := by
    rw [List.length_append, hparts, hlen]
    omega
  refine ⟨?_, ?_, ?_⟩
  · rw [installedKey, messageM2, List.append_assoc, List.append_assoc,
      List.take_left' (A.length_sessionKey i)]
  · rw [messageM2, List.append_assoc (A.sessionKey i ++ A.nonceA i), List.drop_left' hparts,
      List.take_left' hlen]
  · rw [messageM2, List.drop_left' hall, List.take_of_length_le (by simp)]

/-- What goes back in M3. -/
theorem take_messageM2 (i : Nat) (nonceB : List Cell) :
    (A.messageM2 i nonceB).take (2 * A.maxKeyLength) = A.sessionKey i ++ A.nonceA i := by
  have hparts : (A.sessionKey i ++ A.nonceA i).length = 2 * A.maxKeyLength := by
    simp
    omega
  rw [messageM2, List.append_assoc (A.sessionKey i ++ A.nonceA i), List.take_left' hparts]

/-- The RSA ciphertext's plaintext. -/
theorem rsaPrivateDecrypt_some {message decrypted : List Cell}
    (h : A.rsaPrivateDecrypt message = some decrypted) :
    message = (List.range A.rsaSize).map (Cell.rsa decrypted) := by
  unfold rsaPrivateDecrypt at h
  split at h
  · split at h
    · rename_i heq
      rwa [← Option.some.inj h]
    · exact nomatch h
  · exact nomatch h

/-- The AES ciphertext's plaintext. -/
theorem cipherDecrypt_some {key packet decrypted : List Cell}
    (h : cipherDecrypt key packet = some decrypted) :
    packet = cipherEncrypt key decrypted := by
  unfold cipherDecrypt at h
  split at h
  · split at h
    · rename_i heq
      rwa [← Option.some.inj h]
    · exact nomatch h
  · exact nomatch h

/-- A server can read what is meant for it. -/
theorem rsaPrivateDecrypt_block (plaintext : List Cell) :
    A.rsaPrivateDecrypt ((List.range A.rsaSize).map (Cell.rsa plaintext)) = some plaintext := by
  obtain ⟨n, hn⟩ := Nat.exists_eq_succ_of_ne_zero (Nat.ne_of_gt (rsaSize_pos (A := A)))
  unfold rsaPrivateDecrypt
  rw [hn, List.range_succ_eq_map, List.map_cons]
  exact if_pos rfl

/-- Who has the key can read what was encrypted under it. -/
theorem cipherDecrypt_cipherEncrypt (key plaintext : List Cell) :
    cipherDecrypt key (cipherEncrypt key plaintext) = some plaintext := by
  obtain ⟨n, hn⟩ : ∃ n, cipherSize plaintext.length = n + 1 :=
    ⟨plaintext.length / 16 * 16 + 15, by rw [cipherSize]; omega⟩
  have hhead : cipherEncrypt key plaintext = .aes key plaintext 0 ::
      ((List.range n).map Nat.succ).map (Cell.aes key plaintext) := by
    rw [cipherEncrypt, hn, List.range_succ_eq_map, List.map_cons]
  unfold cipherDecrypt
  rw [hhead]
  exact if_pos hhead.symm

/-- **What `accept` knows of an M2 it takes**: it was one RSA block, whose plaintext has
    the session's own nonce and the passphrase in their places. -/
theorem acceptM2_some {j : Nat} {message decrypted : List Cell}
    (h : A.acceptM2 j message = some decrypted) :
    Cell.rsa decrypted 0 ∈ message ∧
      (decrypted.drop (2 * A.maxKeyLength)).take A.maxKeyLength = A.nonceB j ∧
      (decrypted.drop (3 * A.maxKeyLength)).take A.passSize = A.pass := by
  rw [acceptM2] at h
  split at h
  · exact nomatch h
  · split at h
    · exact nomatch h
    · rename_i plaintext hplain
      split at h
      · exact nomatch h
      · rename_i hchecks
        obtain rfl := Option.some.inj h
        simp only [memcmp, decide_eq_true_eq, not_or, not_not] at hchecks
        refine ⟨?_, hchecks.2.1, hchecks.2.2⟩
        rw [rsaPrivateDecrypt_some hplain]
        exact List.mem_map.mpr ⟨0, List.mem_range.mpr rsaSize_pos, rfl⟩

/-- **What `open_client` knows of an M3 it takes**: it was encrypted under the session's
    own key. -/
theorem openClientM3_true {i : Nat} {packet : List Cell}
    (h : A.openClientM3 i packet = true) :
    ∃ decrypted, Cell.aes (A.sessionKey i) decrypted 0 ∈ packet := by
  rw [openClientM3] at h
  split at h
  · exact nomatch h
  · rename_i decrypted hplain
    refine ⟨decrypted, ?_⟩
    rw [cipherDecrypt_some hplain]
    refine List.mem_map.mpr ⟨0, List.mem_range.mpr ?_, rfl⟩
    rw [cipherSize]
    omega

/-- What `open_client` sends is M2 for a nonce of the right length. -/
theorem openClientM2_some {i : Nat} {nonceB message : List Cell}
    (h : A.openClientM2 i nonceB = some message) :
    nonceB.length = A.maxKeyLength ∧
      message = (List.range A.rsaSize).map (Cell.rsa (A.messageM2 i nonceB)) := by
  rw [openClientM2] at h
  split at h
  · exact nomatch h
  · rename_i hlen
    rw [rsaPublicEncrypt] at h
    split at h
    · exact ⟨not_not.mp hlen, (Option.some.inj h).symm⟩
    · exact nomatch h

end Setup

/-! ## What the attacker may come to know -/

/-- The bytes that must not get out. -/
def Atom.isSecret : Atom → Bool
  | .pass _ | .sessionKey _ _ | .nonceA _ _ => true
  | _ => false

/-- The plaintext of an M2 that was sent. -/
def SentM2 (A : Setup) (s : State) (plaintext : List Cell) : Prop :=
  ∃ i nonceB, (s.client i).sentM2 = some nonceB ∧ plaintext = A.messageM2 i nonceB

/-- Key and plaintext of an M3 that was sent. -/
def SentM3 (A : Setup) (s : State) (key plaintext : List Cell) : Prop :=
  ∃ j decrypted sent, s.server j = .accepted decrypted sent ∧
    key = A.installedKey decrypted ∧ plaintext = decrypted.take (2 * A.maxKeyLength)

/-- The bytes the attacker may come to know: public ones, what can be made of those, and
    the ciphertexts the sessions sent. -/
inductive Safe (A : Setup) (s : State) : Cell → Prop where
  | atom {a : Atom} (ha : a.isSecret = false) : Safe A s (.atom a)
  | rsa {plaintext : List Cell} {n : Nat} (h : ∀ x ∈ plaintext, Safe A s x) :
      Safe A s (.rsa plaintext n)
  | m2 {plaintext : List Cell} {n : Nat} (h : SentM2 A s plaintext) :
      Safe A s (.rsa plaintext n)
  | aes {key plaintext : List Cell} {n : Nat} (hkey : ∀ x ∈ key, Safe A s x)
      (h : ∀ x ∈ plaintext, Safe A s x) : Safe A s (.aes key plaintext n)
  | m3 {key plaintext : List Cell} {n : Nat} (h : SentM3 A s key plaintext) :
      Safe A s (.aes key plaintext n)

/-- A secret is not among them. -/
theorem Safe.not_secret {A : Setup} {s : State} {a : Atom} (h : Safe A s (.atom a)) :
    a.isSecret = false := by
  cases h with
  | atom ha => exact ha

/-- What holds in every reachable state: only safe bytes are on the network, an accepted
    M2 is one an honest client sent with the session's nonce, and an opened session's key
    is one that was accepted. -/
structure Secure (A : Setup) (s : State) : Prop where
  net : ∀ x ∈ s.net, Safe A s x
  size : ∀ i nonceB, (s.client i).sentM2 = some nonceB → nonceB.length = A.maxKeyLength
  accepted : ∀ j decrypted sent, s.server j = .accepted decrypted sent →
    ∃ i, (s.client i).sentM2 = some (A.nonceB j) ∧ decrypted = A.messageM2 i (A.nonceB j)
  opened : ∀ i nonceB, s.client i = .opened nonceB →
    ∃ j decrypted sent, s.server j = .accepted decrypted sent ∧
      A.installedKey decrypted = A.sessionKey i

/-- An accepted session's key is the key of the client session that sent its M2. -/
theorem Secure.key {A : Setup} {s : State} (h : Secure A s) {j : Nat} {decrypted : List Cell}
    {sent : Bool} (hj : s.server j = .accepted decrypted sent) :
    ∃ i, (s.client i).sentM2 = some (A.nonceB j) ∧
      A.installedKey decrypted = A.sessionKey i := by
  obtain ⟨i, hi, rfl⟩ := h.accepted j decrypted sent hj
  exact ⟨i, hi, (Setup.slices_messageM2 i (A.length_nonceB j)).1⟩

/-- **The safe bytes are closed under what the attacker can do.** A ciphertext sent as M3
    gives nothing away, its key being a session key. -/
theorem Secure.closed {A : Setup} {s : State} (h : Secure A s) :
    ClosedUnder Infer {x | Safe A s x} := by
  intro premises c hinfer hsub
  cases hinfer with
  | lit b => exact Safe.atom rfl
  | attacker n => exact Safe.atom rfl
  | rsa plaintext n => exact Safe.rsa hsub
  | aes key plaintext n =>
      exact Safe.aes (fun x hx => hsub (Or.inl hx)) (fun x hx => hsub (Or.inr hx))
  | @decrypt key plaintext n c hc =>
      have hkey : ∀ x ∈ key, Safe A s x := fun x hx => hsub (Or.inl hx)
      have hcipher : Safe A s (.aes key plaintext n) := hsub (Or.inr rfl)
      cases hcipher with
      | aes _ hplain => exact hplain c hc
      | m3 hsent =>
          obtain ⟨j, decrypted, sent, hj, rfl, -⟩ := hsent
          obtain ⟨i, -, hinstalled⟩ := h.key hj
          rw [hinstalled] at hkey
          exact nomatch (hkey _ (Setup.mem_sessionKey i)).not_secret

/-- Whatever is delivered is safe. -/
theorem Secure.known {A : Setup} {s : State} (h : Secure A s) {x : Cell}
    (hx : x ∈ derive Infer s.net) : Safe A s x :=
  derive_subset Infer (S := {x | Safe A s x}) h.net h.closed hx

/-! ## The steps -/

/-- What was sent and accepted stays so. -/
structure Grows (s s' : State) : Prop where
  client : ∀ i nonceB, (s.client i).sentM2 = some nonceB → (s'.client i).sentM2 = some nonceB
  server : ∀ j decrypted sent, s.server j = .accepted decrypted sent →
    s'.server j = .accepted decrypted sent

theorem Safe.grows {A : Setup} {s s' : State} (hg : Grows s s') {x : Cell} (h : Safe A s x) :
    Safe A s' x := by
  induction h with
  | atom ha => exact Safe.atom ha
  | rsa _ ih => exact Safe.rsa ih
  | m2 hsent =>
      obtain ⟨i, nonceB, hi, rfl⟩ := hsent
      exact Safe.m2 ⟨i, nonceB, hg.client i nonceB hi, rfl⟩
  | aes _ _ ihkey ih => exact Safe.aes ihkey ih
  | m3 hsent =>
      obtain ⟨j, decrypted, sent, hj, rfl, rfl⟩ := hsent
      exact Safe.m3 ⟨j, decrypted, sent, hg.server j decrypted sent hj, rfl, rfl⟩

/-- A client session moves on, keeping the nonce it answered. -/
theorem grows_client {s : State} {i : Nat} {c : ClientSession} (message : List Cell)
    (hkeep : ∀ nonceB, (s.client i).sentM2 = some nonceB → c.sentM2 = some nonceB) :
    Grows s ((s.send message).setClient i c) := by
  refine ⟨fun i' nonceB hi' => ?_, fun _ _ _ hj => hj⟩
  by_cases heq : i' = i
  · subst heq
    show ((Function.update s.client i' c) i').sentM2 = _
    rw [Function.update_self]
    exact hkeep nonceB hi'
  · show ((Function.update s.client i c) i').sentM2 = _
    rw [Function.update_of_ne heq]
    exact hi'

/-- A server session that has not accepted moves on. -/
theorem grows_server {s : State} {j : Nat} {c : ServerSession} (message : List Cell)
    (hnot : ∀ decrypted sent, s.server j ≠ .accepted decrypted sent) :
    Grows s ((s.send message).setServer j c) := by
  refine ⟨fun _ _ hi => hi, fun j' decrypted sent hj' => ?_⟩
  have hne : j' ≠ j := by
    rintro rfl
    exact hnot decrypted sent hj'
  show (Function.update s.server j c) j' = _
  rw [Function.update_of_ne hne]
  exact hj'

/-- **A step keeps the invariant** if it does for what is new: the bytes sent, the nonce
    answered, the M2 accepted and the M3 accepted. -/
theorem Secure.step {A : Setup} {s s' : State} (h : Secure A s) (hg : Grows s s')
    (hnet : ∀ x ∈ s'.net, x ∈ s.net ∨ Safe A s' x)
    (hsize : ∀ i nonceB, (s'.client i).sentM2 = some nonceB →
      (s.client i).sentM2 = some nonceB ∨ nonceB.length = A.maxKeyLength)
    (haccepted : ∀ j decrypted sent, s'.server j = .accepted decrypted sent →
      s.server j = .accepted decrypted sent ∨
        ∃ i, (s.client i).sentM2 = some (A.nonceB j) ∧
          decrypted = A.messageM2 i (A.nonceB j))
    (hopened : ∀ i nonceB, s'.client i = .opened nonceB → s.client i = .opened nonceB ∨
      ∃ j decrypted sent, s.server j = .accepted decrypted sent ∧
        A.installedKey decrypted = A.sessionKey i) : Secure A s' := by
  constructor
  · intro x hx
    exact (hnet x hx).elim (fun hold => (h.net x hold).grows hg) id
  · intro i nonceB hi
    exact (hsize i nonceB hi).elim (h.size i nonceB) id
  · intro j decrypted sent hj
    obtain ⟨i, hi, heq⟩ := (haccepted j decrypted sent hj).elim (h.accepted j decrypted sent) id
    exact ⟨i, hg.client i _ hi, heq⟩
  · intro i nonceB hi
    obtain ⟨j, decrypted, sent, hj, hkey⟩ := (hopened i nonceB hi).elim (h.opened i nonceB) id
    exact ⟨j, decrypted, sent, hg.server j decrypted sent hj, hkey⟩

theorem send_net {s : State} {message : List Cell} {x : Cell}
    (hx : x ∈ (s.send message).net) : x ∈ s.net ∨ x ∈ message := hx

/-- The session of the step moved, the others did not. -/
theorem setClient_client {s : State} {i i' : Nat} {c : ClientSession} :
    (s.setClient i c).client i' = if i' = i then c else s.client i' := by
  show (Function.update s.client i c) i' = _
  rw [Function.update_apply]

/-- What holds of a client session after the step holds of the one that moved, or held of it
    before. -/
theorem setClient_cases {s : State} {i i' : Nat} {c : ClientSession} {P : ClientSession → Prop}
    (h : P ((s.setClient i c).client i')) : (i' = i ∧ P c) ∨ P (s.client i') := by
  rw [setClient_client] at h
  by_cases heq : i' = i
  · rw [if_pos heq] at h
    exact Or.inl ⟨heq, h⟩
  · rw [if_neg heq] at h
    exact Or.inr h

theorem setServer_server {s : State} {j j' : Nat} {c : ServerSession} :
    (s.setServer j c).server j' = if j' = j then c else s.server j' := by
  show (Function.update s.server j c) j' = _
  rw [Function.update_apply]

/-- **A client session moves on**: what it sends is safe, the nonce it answered is the old
    one or of the right length, and if it is opened now its key was accepted. -/
theorem secure_client {A : Setup} {s : State} (h : Secure A s) {i : Nat} {c : ClientSession}
    {message : List Cell}
    (hkeep : ∀ nonceB, (s.client i).sentM2 = some nonceB → c.sentM2 = some nonceB)
    (hsafe : ∀ x ∈ message, Safe A ((s.send message).setClient i c) x)
    (hsize : ∀ nonceB, c.sentM2 = some nonceB →
      (s.client i).sentM2 = some nonceB ∨ nonceB.length = A.maxKeyLength)
    (hopened : ∀ nonceB, c = .opened nonceB → ∃ j decrypted sent,
      s.server j = .accepted decrypted sent ∧ A.installedKey decrypted = A.sessionKey i) :
    Secure A ((s.send message).setClient i c) := by
  refine h.step (grows_client message hkeep) ?_ ?_ (fun j d b hj => Or.inl hj) ?_
  · intro x hx
    exact (send_net hx).imp id (hsafe x)
  · intro i' nb hi'
    rcases setClient_cases (P := fun c' => c'.sentM2 = some nb) hi' with ⟨rfl, hnew⟩ | hold
    · exact hsize nb hnew
    · exact Or.inl hold
  · intro i' nb hi'
    rcases setClient_cases (P := fun c' => c' = .opened nb) hi' with ⟨rfl, hnew⟩ | hold
    · exact Or.inr (hopened nb hnew)
    · exact Or.inl hold

/-- **A server session that has not accepted moves on**: what it sends is safe, and if it
    accepts an M2 now, an honest client sent that with the session's nonce. -/
theorem secure_server {A : Setup} {s : State} (h : Secure A s) {j : Nat}
    {c : ServerSession} {message : List Cell}
    (hnot : ∀ decrypted sent, s.server j ≠ .accepted decrypted sent)
    (hsafe : ∀ x ∈ message, Safe A ((s.send message).setServer j c) x)
    (haccepted : ∀ decrypted sent, c = .accepted decrypted sent →
      ∃ i, (s.client i).sentM2 = some (A.nonceB j) ∧
        decrypted = A.messageM2 i (A.nonceB j)) :
    Secure A ((s.send message).setServer j c) := by
  refine h.step (grows_server message hnot) ?_ (fun i nb hi => Or.inl hi) ?_
    (fun i nb hi => Or.inl hi)
  · intro x hx
    exact (send_net hx).imp id (hsafe x)
  · intro j' d b hj'
    rw [setServer_server] at hj'
    by_cases heq : j' = j
    · rw [if_pos heq] at hj'
      subst heq
      exact Or.inr (haccepted d b hj')
    · rw [if_neg heq] at hj'
      exact Or.inl hj'

/-- A client session breaks off. -/
theorem secure_failed {A : Setup} {s : State} (h : Secure A s) {i : Nat}
    {nonceB : Option (List Cell)} (hsent : (s.client i).sentM2 = nonceB) :
    Secure A (s.setClient i (.failed nonceB)) := by
  have hmoved : Secure A ((s.send []).setClient i (.failed nonceB)) := by
    refine secure_client h ?_ (fun x hx => nomatch hx) ?_ (fun nb hnb => nomatch hnb)
    · intro nb hnb
      exact hsent.symm.trans hnb
    · intro nb hnb
      exact Or.inl (hsent.trans hnb)
  rwa [State.send_nil] at hmoved

/-- M2 goes out. -/
theorem secure_m2 {A : Setup} {s : State} (h : Secure A s) {i : Nat}
    {nonceB message : List Cell} (hs : s.client i = .waitsM1)
    (hsend : A.openClientM2 i nonceB = some message) :
    Secure A ((s.send message).setClient i (.waitsM3 nonceB)) := by
  obtain ⟨hlen, rfl⟩ := Setup.openClientM2_some hsend
  refine secure_client h ?_ ?_ ?_ (fun nb hnb => nomatch hnb)
  · intro nb hnb
    rw [hs] at hnb
    exact nomatch hnb
  · -- every byte of the RSA block is one of a sent M2
    intro x hx
    obtain ⟨n, -, rfl⟩ := List.mem_map.mp hx
    refine Safe.m2 ⟨i, nonceB, ?_, rfl⟩
    rw [setClient_client, if_pos rfl]
    rfl
  · intro nb hnb
    obtain rfl := Option.some.inj hnb
    exact Or.inr hlen

/-- The client takes M3: it was encrypted under a key that only the server could have. -/
theorem secure_opened {A : Setup} {s : State} (h : Secure A s) {i : Nat}
    {nonceB packet : List Cell} (hs : s.client i = .waitsM3 nonceB)
    (hrecv : s.Delivers packet) (hcheck : A.openClientM3 i packet = true) :
    Secure A (s.setClient i (.opened nonceB)) := by
  have hmoved : Secure A ((s.send []).setClient i (.opened nonceB)) := by
    refine secure_client h ?_ (fun x hx => nomatch hx) ?_ ?_
    · intro nb hnb
      rw [hs] at hnb
      exact hnb
    · intro nb hnb
      refine Or.inl ?_
      rw [hs]
      exact hnb
    · intro nb _
      obtain ⟨plaintext, hin⟩ := Setup.openClientM3_true hcheck
      cases h.known (hrecv _ hin) with
      -- the attacker would have had to know the session key to make it
      | aes hkey _ => exact nomatch (hkey _ (Setup.mem_sessionKey i)).not_secret
      | m3 hsent =>
          obtain ⟨j, decrypted, sent, hj, hkey, -⟩ := hsent
          exact ⟨j, decrypted, sent, hj, hkey.symm⟩
  rwa [State.send_nil] at hmoved

/-- The server takes M2: only an honest client could have put the passphrase in it. -/
theorem secure_m3 {A : Setup} {s : State} (h : Secure A s) {j : Nat}
    {message decrypted : List Cell} (sent : Bool) (hs : s.server j = .waitsM2)
    (hrecv : s.Delivers message) (hcheck : A.acceptM2 j message = some decrypted) :
    Secure A ((s.send (A.acceptM3 decrypted)).setServer j (.accepted decrypted sent)) := by
  obtain ⟨hin, hnonce, hpass⟩ := Setup.acceptM2_some hcheck
  have horigin : ∃ i, (s.client i).sentM2 = some (A.nonceB j) ∧
      decrypted = A.messageM2 i (A.nonceB j) := by
    cases h.known (hrecv _ hin) with
    | rsa hplain =>
        have hsecret : Cell.atom (.pass 0) ∈ decrypted := by
          have hmem := Setup.mem_pass (A := A)
          rw [← hpass] at hmem
          exact List.mem_of_mem_drop (List.mem_of_mem_take hmem)
        exact nomatch (hplain _ hsecret).not_secret
    | m2 hsent =>
        -- the nonce in its place tells which session the client answered
        obtain ⟨i, nonceB, hi, rfl⟩ := hsent
        rw [(Setup.slices_messageM2 i (h.size i nonceB hi)).2.1] at hnonce
        subst hnonce
        exact ⟨i, hi, rfl⟩
  refine secure_server h (fun d b hd => ?_) ?_ ?_
  · rw [hs] at hd
    exact nomatch hd
  · intro x hx
    obtain ⟨n, -, rfl⟩ := List.mem_map.mp hx
    refine Safe.m3 ⟨j, decrypted, sent, ?_, rfl, rfl⟩
    rw [setServer_server, if_pos rfl]
  · intro d b hd
    obtain ⟨rfl, -⟩ := ServerSession.accepted.inj hd
    exact horigin

/-- **Every step keeps the invariant.** -/
theorem step_secure {A : Setup} {s s' : State} {e : Event} (h : Secure A s)
    (hs : Step A s e s') : Secure A s' := by
  cases hs with
  | m1 hidle =>
      refine secure_server h (fun d b hd => ?_) ?_ (fun d b hd => nomatch hd)
      · rw [hidle] at hd
        exact nomatch hd
      · -- the nonce goes out in the clear
        intro x hx
        obtain ⟨n, -, rfl⟩ := List.mem_map.mp hx
        exact Safe.atom rfl
  | m2 hwaits _ hsend => exact secure_m2 h hwaits hsend
  | m3 sent hwaits hrecv hcheck => exact secure_m3 h sent hwaits hrecv hcheck
  | opened hwaits hrecv hcheck => exact secure_opened h hwaits hrecv hcheck
  | failedM1 hwaits => exact secure_failed h (by rw [hwaits]; rfl)
  | failedM3 hwaits => exact secure_failed h (by rw [hwaits]; rfl)
  | @failedM2 j hwaits =>
      have hmoved : Secure A ((s.send []).setServer j .failed) :=
        secure_server h (fun d b hd => by rw [hwaits] at hd; exact nomatch hd)
          (fun x hx => nomatch hx) (fun d b hd => nomatch hd)
      rwa [State.send_nil] at hmoved

/-- The invariant holds in every reachable state. -/
theorem run_secure {A : Setup} {tr : List (Entry State Event)} {s : State}
    (hrun : Run (Step A) State.start tr s) : Secure A s := by
  refine hrun.invariant (I := Secure A) ?_ (fun s e s' h hs => step_secure h hs)
  exact ⟨fun x hx => (nomatch hx), fun i nb hi => (nomatch hi), fun j d b hj => (nomatch hj),
    fun i nb hi => (nomatch hi)⟩

/-! ## A handshake that nobody disturbs -/

namespace Setup

variable {A : Setup}

/-- The server takes the M2 that an honest client sends it. -/
theorem acceptM2_honest (hfits : 3 * A.maxKeyLength + A.passSize + 11 ≤ A.rsaSize)
    (i j : Nat) :
    ∃ message, A.openClientM2 i (A.nonceB j) = some message ∧
      A.acceptM2 j message = some (A.messageM2 i (A.nonceB j)) := by
  have hlen : (A.messageM2 i (A.nonceB j)).length = 3 * A.maxKeyLength + A.passSize := by
    simp [messageM2]
    omega
  obtain ⟨-, hnonce, hpass⟩ := slices_messageM2 i (A.length_nonceB j)
  refine ⟨(List.range A.rsaSize).map (Cell.rsa (A.messageM2 i (A.nonceB j))), ?_, ?_⟩
  · rw [openClientM2, if_neg (not_not_intro (A.length_nonceB j)), rsaPublicEncrypt,
      if_pos (by rw [hlen]; exact hfits)]
  · rw [acceptM2, if_neg (by simp), rsaPrivateDecrypt_block]
    simp [hlen, memcmp, hnonce, hpass]

/-- The client takes the M3 that the server answers its M2 with. -/
theorem openClientM3_honest (i j : Nat) :
    A.openClientM3 i (A.acceptM3 (A.messageM2 i (A.nonceB j))) = true := by
  rw [openClientM3, acceptM3, (slices_messageM2 i (A.length_nonceB j)).1, take_messageM2,
    cipherDecrypt_cipherEncrypt]
  have hlen : A.maxKeyLength + A.maxKeyLength = 2 * A.maxKeyLength := by omega
  simp [memcmp, hlen, List.take_left' (A.length_sessionKey i),
    List.drop_left' (A.length_sessionKey i), List.take_of_length_le]

end Setup

/-- What was sent can be delivered. -/
theorem delivers_sent {s : State} {message : List Cell} (h : ∀ x ∈ message, x ∈ s.net) :
    s.Delivers message := fun x hx => subset_derive Infer s.net (h x hx)

/-- **Undisturbed, the handshake goes through** at both ends. -/
theorem relay_opens {A : Setup}
    (hfits : 3 * A.maxKeyLength + A.passSize + 11 ≤ A.rsaSize) (i j : Nat) :
    ∃ tr s, Run (Step A) State.start tr s ∧ s.client i = .opened (A.nonceB j) ∧
      s.server j = .accepted (A.messageM2 i (A.nonceB j)) true := by
  obtain ⟨message, hsend, haccept⟩ := A.acceptM2_honest hfits i j
  obtain ⟨s₁, hs₁⟩ : ∃ s₁, s₁ = (State.start.send (A.nonceB j)).setServer j .waitsM2 :=
    ⟨_, rfl⟩
  have h₁ : Step A State.start (.m1 j) s₁ := hs₁ ▸ Step.m1 rfl
  obtain ⟨s₂, hs₂⟩ : ∃ s₂, s₂ = (s₁.send message).setClient i (.waitsM3 (A.nonceB j)) :=
    ⟨_, rfl⟩
  have h₂ : Step A s₁ (.m2 i) s₂ :=
    hs₂ ▸ Step.m2 (by rw [hs₁]; rfl)
      (delivers_sent fun x hx => by rw [hs₁]; exact Or.inr hx) hsend
  obtain ⟨s₃, hs₃⟩ : ∃ s₃, s₃ = (s₂.send (A.acceptM3 (A.messageM2 i (A.nonceB j)))).setServer j
      (.accepted (A.messageM2 i (A.nonceB j)) true) := ⟨_, rfl⟩
  have hwaits : s₂.server j = .waitsM2 := by
    rw [hs₂, hs₁]
    exact Function.update_self ..
  have h₃ : Step A s₂ (.m3 j) s₃ :=
    hs₃ ▸ Step.m3 true hwaits (delivers_sent fun x hx => by rw [hs₂]; exact Or.inr hx) haccept
  have hsent : s₃.client i = .waitsM3 (A.nonceB j) := by
    rw [hs₃, hs₂]
    exact Function.update_self ..
  have h₄ : Step A s₃ (.opened i) (s₃.setClient i (.opened (A.nonceB j))) :=
    Step.opened hsent (delivers_sent fun x hx => by rw [hs₃]; exact Or.inr hx)
      (A.openClientM3_honest i j)
  refine ⟨_, _, (((Run.nil.snoc h₁).snoc h₂).snoc h₃).snoc h₄, ?_, ?_⟩
  · exact Function.update_self ..
  · rw [hs₃]
    exact Function.update_self ..

/-! ## Authentication and secrecy -/

/-- **The handshake is secure.** An accepted session's key was generated by an honest
    client that sent M2 with the session's nonce, a different one for every session; an
    opened client's key was installed by a session of the server that had checked its own
    nonce and the passphrase; no byte of the passphrase or of a session key can be
    known. -/
theorem handshake_secure {A : Setup} {tr : List (Entry State Event)} {s : State}
    (hrun : Run (Step A) State.start tr s) :
    (∀ j decrypted sent, s.server j = .accepted decrypted sent →
      ∃ i, A.installedKey decrypted = A.sessionKey i ∧
        (s.client i).sentM2 = some (A.nonceB j)) ∧
    (∀ i j j' decrypted decrypted' sent sent', s.server j = .accepted decrypted sent →
      s.server j' = .accepted decrypted' sent' → A.installedKey decrypted = A.sessionKey i →
      A.installedKey decrypted' = A.sessionKey i → j = j') ∧
    (∀ i nonceB, s.client i = .opened nonceB →
      ∃ j decrypted sent, s.server j = .accepted decrypted sent ∧
        A.installedKey decrypted = A.sessionKey i ∧
        memcmp decrypted (2 * A.maxKeyLength) A.maxKeyLength (A.nonceB j) = true ∧
        memcmp decrypted (3 * A.maxKeyLength) A.passSize A.pass = true) ∧
    (∀ x ∈ A.pass, x ∉ derive Infer s.net) ∧
    ∀ i, ∀ x ∈ A.sessionKey i, x ∉ derive Infer s.net := by
  have h := run_secure hrun
  refine ⟨?_, ?_, ?_, ?_, ?_⟩
  · intro j decrypted sent hj
    obtain ⟨i, hi, hkey⟩ := h.key hj
    exact ⟨i, hkey, hi⟩
  · intro i j j' decrypted decrypted' sent sent' hj hj' hkey hkey'
    obtain ⟨u, hu, hukey⟩ := h.key hj
    obtain ⟨u', hu', hukey'⟩ := h.key hj'
    obtain rfl := Setup.sessionKey_inj (hukey.symm.trans hkey)
    obtain rfl := Setup.sessionKey_inj (hukey'.symm.trans hkey')
    exact Setup.nonceB_inj (Option.some.inj (hu.symm.trans hu'))
  · intro i nonceB hi
    obtain ⟨j, decrypted, sent, hj, hkey⟩ := h.opened i nonceB hi
    obtain ⟨u, -, rfl⟩ := h.accepted j decrypted sent hj
    obtain ⟨-, hnonce, hpass⟩ := Setup.slices_messageM2 u (A.length_nonceB j)
    exact ⟨j, _, sent, hj, hkey, decide_eq_true hnonce, decide_eq_true hpass⟩
  · intro x hx hknown
    obtain ⟨n, -, rfl⟩ := List.mem_map.mp hx
    exact nomatch (h.known hknown).not_secret
  · intro i x hx hknown
    obtain ⟨n, -, rfl⟩ := List.mem_map.mp hx
    exact nomatch (h.known hknown).not_secret

/-- A passphrase of eight characters, buffers of 64 bytes, an RSA key of 2048 bits. -/
def smallSetup : Setup := ⟨64, 256, 8, by decide, by decide, by decide⟩

theorem handshake_secure_relayed :
    ∃ tr s, Run (Step smallSetup) State.start tr s ∧
      s.client 0 = .opened (smallSetup.nonceB 0) ∧
      (∃ j decrypted sent, s.server j = .accepted decrypted sent ∧
        smallSetup.installedKey decrypted = smallSetup.sessionKey 0) ∧
      (∀ x ∈ smallSetup.pass, x ∉ derive Infer s.net) ∧
      ∀ i, ∀ x ∈ smallSetup.sessionKey i, x ∉ derive Infer s.net := by
  obtain ⟨tr, s, hrun, hi, -⟩ := relay_opens (A := smallSetup) (by decide) 0 0
  obtain ⟨-, -, hopened, hpass, hkey⟩ := handshake_secure hrun
  obtain ⟨j, decrypted, sent, hj, hinstalled, -⟩ := hopened 0 _ hi
  exact ⟨tr, s, hrun, hi, ⟨j, decrypted, sent, hj, hinstalled⟩, hpass, hkey⟩

end DmHandshake
