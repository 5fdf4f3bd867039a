import DistributedMemory.DmSocketProofs

/-!
# Framing — what arrives of a sequence of strings

A stream of bytes has no frames: a `recv` gives what has arrived of what was asked for.
`operator >>` asks twice, for the header and for the ciphertext, and takes whatever falls
short for an error.

* **`Delivered`** — the strings written with `<<` are the strings read with `>>`.
* **`framing_iff`** — they are, exactly if none is too long and every `recv` gets all that
  it asks for.
-/

namespace DmFraming

open ByteStreams DmSocket

variable {E : Evp} {key : Bytes}

/-! ## Both ends -/

/-- `<<` for one string after the other: what is written to the connection. -/
def sendAll (E : Evp) (key : Bytes) : List Bytes → Except Thrown Bytes
  | [] => .ok []
  | s :: strings =>
      match send E key s with
      | .error f => .error f
      | .ok wire => (sendAll E key strings).map fun wires => wire ++ wires

/-- `>>` so many times. -/
def receiveAll (E : Evp) (key : Bytes) : Nat → ByteStream → List (Except Thrown Bytes)
  | 0, _ => []
  | n + 1, c => (receive E key c).1 :: receiveAll E key n (receive E key c).2

/-- The strings are written, and read one by one. -/
def Delivered (E : Evp) (key : Bytes) (strings : List Bytes) (arrivals : Nat → Arrival) :
    Prop :=
  ∃ wire, sendAll E key strings = .ok wire ∧
    receiveAll E key strings.length ⟨wire, arrivals⟩ = strings.map .ok

/-- How many bytes the `i`-th read finds. -/
def found (sizes : Nat → Nat) (i : Nat) : Arrival := .bytes (sizes i)

/-! ## One string -/

/-- A string that is written fits, as far as it is encrypted. -/
theorem fits_transmitted {s : Bytes} (h : Fits (toInt s.length)) :
    Fits (transmitted s).length := by
  have hle := toInt_le s.length
  have hlen : ((transmitted s).length : Int) = toInt s.length := by
    rw [transmitted, List.length_take, Nat.min_eq_left (by omega)]
    have := h.1
    omega
  rwa [hlen]

/-- **One string**: it is read exactly if it is not too long and both reads get all that
    they ask for. -/
theorem receive_iff (hE : E.Inverts key) {s wire rest : Bytes} {c : ByteStream} {n m : Nat}
    (hne : s ≠ []) (hsend : send E key s = .ok wire) (hpending : c.pending = wire ++ rest)
    (hheader : c.arrivals 0 = .bytes n) (hbody : c.arrivals 1 = .bytes m) (hn : 0 < n)
    (hm : 0 < m) :
    (receive E key c).1 = .ok s ↔
      s.length < 0x7fffffe0 ∧ 4 ≤ n ∧ DmHandshake.cipherSize s.length ≤ m := by
  rw [send_eq] at hsend
  by_cases hfits : Fits (toInt s.length)
  · rw [if_pos hfits] at hsend
    obtain rfl := Except.ok.inj hsend
    have hdata := fits_transmitted hfits
    constructor
    · intro hread
      have hsplit := hpending
      rw [frame, List.append_assoc] at hsplit
      by_cases hwhole : 4 ≤ n
      · by_cases hcipher : DmHandshake.cipherSize (transmitted s).length ≤ m
        · by_cases hlong : 0x7fffffe0 ≤ (transmitted s).length
          · rw [receive_tooLarge hE hdata hlong hpending hheader hwhole hbody hcipher] at hread
            cases hread
          · by_cases hempty : transmitted s = []
            · rw [hempty] at hpending
              rw [hempty] at hcipher
              rw [receive_empty hE hpending hheader hwhole hbody hcipher] at hread
              cases hread
            -- what is read is what was encrypted
            · rw [receive_frame hE hempty (by omega) hpending hheader hwhole hbody hcipher]
                at hread
              have heq : transmitted s = s := Except.ok.inj hread
              rw [heq] at hlong hcipher
              exact ⟨by omega, hwhole, hcipher⟩
        · rw [receive_cutBody hE hdata hpending hheader hwhole hbody hm (by omega)] at hread
          cases hread
      · have hlen : n ≤ c.pending.length := by
          rw [hsplit, List.length_append, length_leBytes]
          omega
        rw [receive_cutHeader hheader hn (by omega) hlen] at hread
        cases hread
    · rintro ⟨hlen, hwhole, hcipher⟩
      rw [transmitted_eq (by omega)] at hpending
      rw [receive_frame hE hne hlen hpending hheader hwhole hbody hcipher]
  · rw [if_neg hfits] at hsend
    cases hsend

/-- A string that is not too long is written. -/
theorem send_of_lt (E : Evp) (key : Bytes) {s : Bytes} (h : s.length < 0x7fffffe0) :
    send E key s = .ok (frame E key s) := by
  have hfits : Fits (toInt s.length) := by
    rw [toInt_of_lt (by omega), Fits, blockSize]
    omega
  rw [send_eq, if_pos hfits, transmitted_eq (by omega)]

/-- After it the next string is to be read. -/
theorem receive_sent (hE : E.Inverts key) {s wire rest : Bytes} {sizes : Nat → Nat}
    (hne : s ≠ []) (hsend : send E key s = .ok wire)
    (h : s.length < 0x7fffffe0 ∧ 4 ≤ sizes 0 ∧ DmHandshake.cipherSize s.length ≤ sizes 1) :
    receive E key ⟨wire ++ rest, found sizes⟩ =
      (.ok s, ⟨rest, found fun i => sizes (i + 2)⟩) := by
  rw [send_of_lt E key h.1] at hsend
  obtain rfl := Except.ok.inj hsend
  exact receive_frame hE hne h.1 rfl rfl h.2.1 rfl h.2.2

/-! ## Every string -/

/-- A result that was mapped was there. -/
theorem except_map_ok {ε α β : Type} {f : α → β} {x : Except ε α} {y : β}
    (h : x.map f = .ok y) : ∃ a, x = .ok a ∧ f a = y := by
  cases x with
  | error e => exact nomatch h
  | ok a => exact ⟨a, rfl, Except.ok.inj h⟩

/-- **What is sent is received, exactly if no string is too long and no `recv` comes back
    short.** -/
theorem framing_iff (hE : E.Inverts key) {strings : List Bytes} (hne : ∀ s ∈ strings, s ≠ [])
    {sizes : Nat → Nat} (hpos : ∀ i, 0 < sizes i) :
    Delivered E key strings (found sizes) ↔
      ∀ i s, strings[i]? = some s → s.length < 0x7fffffe0 ∧ 4 ≤ sizes (2 * i) ∧
        DmHandshake.cipherSize s.length ≤ sizes (2 * i + 1) := by
  induction strings generalizing sizes with
  | nil =>
      constructor
      · intro _ i s hs
        exact nomatch hs
      · intro _
        exact ⟨[], rfl, rfl⟩
  | cons s strings ih =>
      have hs : s ≠ [] := hne s List.mem_cons_self
      have hrest := ih (fun s hs => hne s (List.mem_cons_of_mem _ hs)) fun i => hpos (i + 2)
      constructor
      · rintro ⟨wire, hwire, hread⟩
        rw [sendAll] at hwire
        cases hsend : send E key s with
        | error f =>
            rw [hsend] at hwire
            exact nomatch hwire
        | ok front =>
            rw [hsend] at hwire
            obtain ⟨wires, hwires, rfl⟩ := except_map_ok hwire
            rw [List.length_cons, receiveAll, List.map_cons] at hread
            obtain ⟨hhead, htail⟩ := List.cons.inj hread
            have hone := (receive_iff hE hs hsend rfl rfl rfl (hpos 0) (hpos 1)).mp hhead
            rw [receive_sent hE hs hsend hone] at htail
            have hothers := hrest.mp ⟨wires, hwires, htail⟩
            intro i s' hs'
            cases i with
            | zero =>
                obtain rfl := Option.some.inj hs'
                exact hone
            | succ i => exact hothers i s' hs'
      · intro hall
        have hone := hall 0 s rfl
        obtain ⟨wires, hwires, htail⟩ := hrest.mpr fun i s' hs' => hall (i + 1) s' hs'
        have hsend := send_of_lt E key hone.1
        refine ⟨frame E key s ++ wires, ?_, ?_⟩
        · rw [sendAll, hsend, hwires]
          rfl
        · rw [List.length_cons, receiveAll, receive_sent hE hs hsend hone, htail]
          rfl

/-- A session key: the bytes 0, 1, 2 and so on. -/
def countingKey : Bytes := (List.range 64).map UInt8.ofNat

/-- An ACK as it is sent: `{type: ACK}` and the stop sequence. -/
def ackString : Bytes :=
  [0x7b, 0x74, 0x79, 0x70, 0x65, 0x3a, 0x20, 0x41,
   0x43, 0x4b, 0x7d, 0x0d, 0x0a, 0x0d, 0x0a]

/-- AES-256 in ECB mode under the key, as far as the ACK goes. -/
def ackCipher : Evp :=
  Evp.known countingKey (pad ackString)
    [0x0b, 0xc1, 0xfe, 0x26, 0x65, 0x1b, 0x72, 0x25,
     0xf7, 0x53, 0xbb, 0xf3, 0x06, 0x70, 0x2f, 0x64]

theorem ackCipher_inverts (key : Bytes) : ackCipher.Inverts key :=
  Evp.known_inverts countingKey (by decide +kernel) key

theorem framing_iff_acks :
    Delivered ackCipher countingKey [ackString, ackString] (found fun _ => 16) := by
  refine (framing_iff (ackCipher_inverts countingKey) (by decide) (fun _ => by decide)).mpr ?_
  intro i s hs
  have hin : s ∈ [ackString, ackString] := List.mem_of_getElem? hs
  obtain rfl : s = ackString := by simpa using hin
  decide

/-- The first read finds two of the four bytes of the header. -/
def splitHeader (i : Nat) : Nat := if i = 0 then 2 else 16

/-- **A header cut in two** is an error. -/
theorem framing_splitHeader :
    (∀ i, 0 < splitHeader i) ∧
      ¬ Delivered ackCipher countingKey [ackString] (found splitHeader) := by
  constructor
  · intro i
    rw [splitHeader]
    split <;> decide
  · rintro ⟨wire, hwire, hread⟩
    have hsend : sendAll ackCipher countingKey [ackString] =
        .ok (frame ackCipher countingKey ackString ++ []) := by
      rw [sendAll, send_of_lt _ _ (by decide)]
      rfl
    obtain rfl := Except.ok.inj (hsend.symm.trans hwire)
    have hlen : 2 ≤ (frame ackCipher countingKey ackString ++ []).length := by
      rw [List.append_nil, frame, List.length_append, length_leBytes]
      omega
    have hfailed : (receive ackCipher countingKey
        ⟨frame ackCipher countingKey ackString ++ [], found splitHeader⟩).1 =
          .error (.runtimeError "Could not receive from secure socket") :=
      receive_cutHeader (n := 2) rfl (by decide) (by decide) hlen
    obtain ⟨hhead, -⟩ := List.cons.inj hread
    rw [hfailed] at hhead
    cases hhead

end DmFraming
