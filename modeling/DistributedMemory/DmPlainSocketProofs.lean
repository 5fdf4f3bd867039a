import Mathlib.Data.List.TakeWhile
import DistributedMemory.BufferProofs
import DistributedMemory.DelimitedProofs
import DistributedMemory.DmMessageProofs
import DistributedMemory.DmFramingProofs

/-!
# The plain socket — `Socket::operator >>`

A plain socket has no header: a message ends with `Message::STOP`. `>>` receives into a
buffer of fixed size, puts a NUL behind what it got, appends the buffer to the message as a
C string, and stops when the message has the token in it.

* **`loop`**, **`receive`** — the code, with its buffer; **`receiveAll`** — `>>` until it
  throws.
* **`results`** — what the calls of `recv` give; **`receiveAll_eq`** — what `>>` makes of
  them.
* **`delivered_iff`** — when the messages are read one by one.
-/

namespace DmPlainSocket

open ByteStreams Buffers Delimiters
open DmSocket (Bytes recv toInt toInt_of_lt)

/-! ## The code -/

/-- `TCP_BUFFER_SIZE`. -/
def tcpBufferSize : Nat := 1024

/-- `char buffer[ TCP_BUFFER_SIZE ]`. -/
abbrev CharBuffer := Buffer UInt8 tcpBufferSize

/-- `Message::STOP`. -/
def stop : Bytes := DmMessage.STOP.toUTF8.data.toList

theorem stop_eq : stop = [0x0d, 0x0a, 0x0d, 0x0a] := by
  decide +kernel

/-- How a call ends that does not return. -/
inductive Thrown where
  /-- `throw runtime_error(what)`. -/
  | runtimeError (what : String)
  /-- An access outside the buffer. -/
  | outOfBounds
  deriving DecidableEq

/-- `buffer[i] = b`, which has no result outside the buffer. -/
def store (buffer : CharBuffer) (i : Int) (b : UInt8) : Option CharBuffer :=
  if 0 ≤ i then buffer.blit i.toNat [b] else none

/-- The C string that begins with the buffer: up to the first NUL, if there is one. -/
def cString (buffer : CharBuffer) : Option Bytes :=
  if 0 ∈ buffer.cells then some (buffer.cells.takeWhile (· ≠ 0)) else none

/-- What the body of the loop does to the buffer, and the C string that it appends. -/
def fill (buffer : CharBuffer) (size : Int) (bytes : Bytes) : Option (CharBuffer × Bytes) := do
  let buffer ← buffer.blit 0 bytes
  -- at the index that `recv` returned, which is not checked before
  let buffer ← store buffer size 0
  let text ← cString buffer
  pure (buffer, text)

/-- The call of `recv`. -/
def recvChunk (c : ByteStream) : Int × Bytes × ByteStream := recv c (tcpBufferSize - 1)

/-- A `recv` gets what it returns the number of, off the front, or fails. -/
theorem recvChunk_cases (c : ByteStream) :
    (∃ chunk rest, recvChunk c = ((chunk.length : Int), chunk, c.next rest) ∧
        c.pending = chunk ++ rest ∧ chunk.length < tcpBufferSize) ∨
      recvChunk c = (-1, [], c.next c.pending) := by
  have hsize : DmSocket.toSize (tcpBufferSize - 1) = 1023 := by decide
  rw [recvChunk, recv, hsize]
  rcases c.read_cases 1023 with ⟨chunk, rest, hread, hpending, hle⟩ | hread
  · refine Or.inl ⟨chunk, rest, ?_, hpending, Nat.lt_succ_of_le hle⟩
    rw [hread]
    show (toInt chunk.length, chunk, c.next rest) = _
    rw [toInt_of_lt (by omega)]
  · rw [hread]
    exact Or.inr rfl

/-- A `recv` that gets something leaves less to be read. -/
theorem pending_recvChunk {c c' : ByteStream} {size : Int} {chunk : Bytes}
    (h : recvChunk c = (size, chunk, c')) (hpos : 0 < size) :
    c'.pending.length < c.pending.length := by
  rcases recvChunk_cases c with ⟨chunk', rest, hrecv, hpending, -⟩ | hrecv
  · rw [h] at hrecv
    obtain ⟨rfl, rest'⟩ := Prod.mk.inj hrecv
    obtain ⟨rfl, rfl⟩ := Prod.mk.inj rest'
    rw [hpending, List.length_append]
    show rest.length < _
    omega
  · rw [h] at hrecv
    obtain ⟨rfl, -⟩ := Prod.mk.inj hrecv
    exact absurd hpos (by decide)

/-- The `do` loop of `operator >>`, and what it does with the last `size`. -/
def loop (buffer : CharBuffer) (message : Bytes) (c : ByteStream) :
    Except Thrown Bytes × ByteStream :=
  match _ : recvChunk c with
  | (size, bytes, c') =>
      match fill buffer size bytes with
      | none => (.error .outOfBounds, c')
      | some (buffer', text) =>
          if _ : 0 < size ∧ find stop (message ++ text) = none then
            loop buffer' (message ++ text) c'
          else if size = 0 then (.error (.runtimeError "Peer disconnected"), c')
          else if size < 0 then (.error (.runtimeError "Could not receive from socket"), c')
          -- whatever was received behind `STOP` is part of the string
          else (.ok (message ++ text), c')
termination_by c.pending.length
decreasing_by exact pending_recvChunk (by assumption) (And.left (by assumption))

/-- `operator >>`, with what its buffer holds before anything was received. -/
def receive (unset : CharBuffer) (c : ByteStream) : Except Thrown Bytes × ByteStream :=
  loop unset [] c

/-! ## The buffer -/

/-- A C string ends with the first NUL. -/
theorem takeWhile_nul (chunk rest : Bytes) :
    (chunk ++ 0 :: rest).takeWhile (· ≠ 0) = chunk.takeWhile (· ≠ 0) := by
  induction chunk with
  | nil => rfl
  | cons b chunk ih =>
      rw [List.cons_append, List.takeWhile_cons, List.takeWhile_cons, ih]

/-- **What was received is appended** up to its first NUL, whatever the buffer held. -/
theorem fill_chunk (buffer : CharBuffer) {chunk : Bytes} (h : chunk.length < tcpBufferSize) :
    ∃ buffer', fill buffer chunk.length chunk = some (buffer', chunk.takeWhile (· ≠ 0)) := by
  obtain ⟨received, hreceived, hcells⟩ := buffer.blit_of_le (show 0 + chunk.length ≤ _ by omega)
  obtain ⟨ended, hended, hcells'⟩ :=
    received.blit_of_le (show chunk.length + [(0 : UInt8)].length ≤ _ from h)
  have hfront : received.cells.take chunk.length = chunk := by
    rw [hcells, List.take_zero, List.nil_append, List.take_left]
  have hbytes : ∃ rest, ended.cells = chunk ++ 0 :: rest := by
    rw [hcells', hfront, List.append_assoc]
    exact ⟨_, rfl⟩
  obtain ⟨rest, hrest⟩ := hbytes
  have hnul : (0 : UInt8) ∈ ended.cells := by
    rw [hrest]
    exact List.mem_append_right _ List.mem_cons_self
  have hstore : store received chunk.length 0 = some ended := by
    rw [store, if_pos (Int.natCast_nonneg _)]
    exact hended
  have htext : cString ended = some (chunk.takeWhile (· ≠ 0)) := by
    rw [cString, if_pos hnul, hrest, takeWhile_nul]
  refine ⟨ended, ?_⟩
  rw [fill, hreceived]
  show (store received chunk.length 0).bind _ = _
  rw [hstore]
  show (cString ended).bind _ = _
  rw [htext]
  rfl

/-- A `recv` that fails has its NUL put in front of the buffer. -/
theorem fill_failed (buffer : CharBuffer) : fill buffer (-1) [] = none := by
  obtain ⟨received, hreceived, -⟩ :=
    buffer.blit_of_le (show 0 + ([] : Bytes).length ≤ _ from Nat.zero_le _)
  rw [fill, hreceived]
  rfl

/-! ## The loop -/

/-- The loop, once it is known what `recv` returns. -/
theorem loop_of_recv {buffer : CharBuffer} {message bytes : Bytes} {c c' : ByteStream}
    {size : Int} (h : recvChunk c = (size, bytes, c')) :
    loop buffer message c =
      match fill buffer size bytes with
      | none => (.error .outOfBounds, c')
      | some (buffer', text) =>
          if 0 < size ∧ find stop (message ++ text) = none then
            loop buffer' (message ++ text) c'
          else if size = 0 then (.error (.runtimeError "Peer disconnected"), c')
          else if size < 0 then (.error (.runtimeError "Could not receive from socket"), c')
          else (.ok (message ++ text), c') := by
  rw [loop]
  split
  rename_i size' bytes' c'' heq
  obtain ⟨rfl, heq'⟩ := Prod.mk.inj (h.symm.trans heq)
  obtain ⟨rfl, rfl⟩ := Prod.mk.inj heq'
  rfl

/-- What the loop returns has left less to be read. -/
theorem pending_loop {buffer : CharBuffer} {message s : Bytes} {c c' : ByteStream}
    (h : loop buffer message c = (.ok s, c')) : c'.pending.length < c.pending.length := by
  induction buffer, message, c using loop.induct generalizing s c' with
  | case1 buffer message c size bytes c₁ hrecv hfill =>
      rw [loop_of_recv hrecv, hfill] at h
      cases (Prod.mk.inj h).1
  | case2 buffer message c size bytes c₁ hrecv buffer₁ text hfill hagain ih =>
      rw [loop_of_recv hrecv, hfill] at h
      simp only [if_pos hagain] at h
      exact Nat.lt_trans (ih h) (pending_recvChunk hrecv hagain.1)
  | case3 buffer message c bytes c₁ buffer₁ text hrecv hfill hno =>
      rw [loop_of_recv hrecv, hfill] at h
      simp only [if_neg hno, if_true] at h
      cases (Prod.mk.inj h).1
  | case4 buffer message c size bytes c₁ hrecv buffer₁ text hfill hno hzero hneg =>
      rw [loop_of_recv hrecv, hfill] at h
      simp only [if_neg hno, if_neg hzero, if_pos hneg] at h
      cases (Prod.mk.inj h).1
  | case5 buffer message c size bytes c₁ hrecv buffer₁ text hfill hno hzero hneg =>
      rw [loop_of_recv hrecv, hfill] at h
      simp only [if_neg hno, if_neg hzero, if_neg hneg] at h
      obtain ⟨-, rfl⟩ := Prod.mk.inj h
      exact pending_recvChunk hrecv (by omega)

/-! ## One `>>` after the other -/

/-- `>>` until it throws: the strings, and how it ends. Each call has a buffer of its own. -/
def receiveAll (unset : Nat → CharBuffer) (c : ByteStream) : List Bytes × Thrown :=
  match _ : receive (unset 0) c with
  | (.error f, _) => ([], f)
  | (.ok s, c') =>
      let rest := receiveAll (fun i => unset (i + 1)) c'
      (s :: rest.1, rest.2)
termination_by c.pending.length
decreasing_by exact pending_loop (by assumption)

/-- What the calls of `recv` get, up to the first that returns 0 or -1, and what that one
    returns. -/
def results (c : ByteStream) : List Bytes × Int :=
  match _ : recvChunk c with
  | (size, chunk, c') =>
      if _ : 0 < size then
        let rest := results c'
        (chunk :: rest.1, rest.2)
      else ([], size)
termination_by c.pending.length
decreasing_by exact pending_recvChunk (by assumption) (by assumption)

theorem results_of_recv {c c' : ByteStream} {size : Int} {chunk : Bytes}
    (h : recvChunk c = (size, chunk, c')) :
    results c = if 0 < size then (chunk :: (results c').1, (results c').2) else ([], size) := by
  rw [results]
  split
  rename_i size' chunk' c'' heq
  obtain ⟨rfl, heq'⟩ := Prod.mk.inj (h.symm.trans heq)
  obtain ⟨rfl, rfl⟩ := Prod.mk.inj heq'
  rfl

/-- What becomes of a call and of those after it. -/
def readOn (unset : Nat → CharBuffer) : Except Thrown Bytes × ByteStream → List Bytes × Thrown
  | (.error f, _) => ([], f)
  | (.ok s, c) => (s :: (receiveAll unset c).1, (receiveAll unset c).2)

theorem receiveAll_eq_readOn (unset : Nat → CharBuffer) (c : ByteStream) :
    receiveAll unset c = readOn (fun i => unset (i + 1)) (loop (unset 0) [] c) := by
  rw [receiveAll]
  split
  · rename_i f c' heq
    rw [show loop (unset 0) [] c = (.error f, c') from heq]
    rfl
  · rename_i s c' heq
    rw [show loop (unset 0) [] c = (.ok s, c') from heq]
    rfl

/-- How the reading ends when a `recv` returns 0 or -1. -/
def ended (last : Int) : Thrown :=
  if last = 0 then .runtimeError "Peer disconnected" else .outOfBounds

/-- **The loop, and the calls after it**, put the chunks together up to the token. -/
theorem readOn_loop {c : ByteStream} (hnul : 0 ∉ c.pending) (buffer : CharBuffer)
    (unset : Nat → CharBuffer) (message : Bytes) :
    readOn unset (loop buffer message c) =
      (assemble stop message (results c).1, ended (results c).2) := by
  induction hn : c.pending.length using Nat.strongRecOn generalizing c buffer unset message with
  | _ n ih =>
      rcases recvChunk_cases c with ⟨chunk, rest, hrecv, hpending, hlen⟩ | hrecv
      · rw [hpending, List.mem_append, not_or] at hnul
        obtain ⟨hchunk, hrest⟩ := hnul
        obtain ⟨buffer', hfill⟩ := fill_chunk buffer hlen
        have htext : chunk.takeWhile (· ≠ 0) = chunk := by
          refine List.takeWhile_eq_self_iff.mpr fun b hb => decide_eq_true ?_
          rintro rfl
          exact hchunk hb
        rw [htext] at hfill
        rw [loop_of_recv hrecv, results_of_recv hrecv, hfill]
        dsimp only
        by_cases hpos : (0 : Int) < chunk.length
        · have hless := pending_recvChunk hrecv hpos
          rw [hn] at hless
          rw [if_pos hpos, assemble]
          by_cases htoken : stop <:+: message ++ chunk
          · -- the call returns, and the next one begins with nothing
            have hfound := mt (find_eq_none_iff stop (message ++ chunk)).mp (not_not_intro htoken)
            rw [if_neg fun h => hfound h.2, if_neg (by omega), if_neg (by omega), if_pos htoken,
              readOn, receiveAll_eq_readOn, ih _ hless hrest _ _ _ rfl]
          · have hnone := (find_eq_none_iff stop (message ++ chunk)).mpr htoken
            rw [if_pos ⟨hpos, hnone⟩, if_neg htoken]
            exact ih _ hless hrest _ _ _ rfl
        · have hzero : (chunk.length : Int) = 0 := by omega
          rw [if_neg fun h => hpos h.1, if_pos hzero, if_neg hpos, hzero]
          rfl
      · rw [loop_of_recv hrecv, results_of_recv hrecv, fill_failed]
        rfl

/-- `>>` until it throws, on a stream without NUL bytes. -/
theorem receiveAll_eq {c : ByteStream} (hnul : 0 ∉ c.pending) (unset : Nat → CharBuffer) :
    receiveAll unset c = (assemble stop [] (results c).1, ended (results c).2) := by
  rw [receiveAll_eq_readOn, readOn_loop hnul]

/-- The chunks come off the front of the stream, and the last call returns 0 or -1. -/
theorem results_spec (c : ByteStream) :
    (results c).1.flatten <+: c.pending ∧ ((results c).2 = 0 ∨ (results c).2 = -1) := by
  induction hn : c.pending.length using Nat.strongRecOn generalizing c with
  | _ n ih =>
      rcases recvChunk_cases c with ⟨chunk, rest, hrecv, hpending, -⟩ | hrecv
      · rw [results_of_recv hrecv]
        by_cases hpos : (0 : Int) < chunk.length
        · have hless := pending_recvChunk hrecv hpos
          rw [hn] at hless
          obtain ⟨hbegins, hlast⟩ := ih _ hless _ rfl
          rw [if_pos hpos, hpending, List.flatten_cons]
          exact ⟨(List.prefix_append_right_inj chunk).mpr hbegins, hlast⟩
        · rw [if_neg hpos]
          refine ⟨?_, Or.inl (show (chunk.length : Int) = 0 by omega)⟩
          exact List.nil_prefix
      · rw [results_of_recv hrecv]
        refine ⟨?_, Or.inr rfl⟩
        exact List.nil_prefix

/-- A stream that gives the chunks, and then 0 or -1, with some bytes left. -/
def cut (chunks : List Bytes) (left : Bytes) (fails : Bool) : ByteStream where
  pending := chunks.flatten ++ left
  arrivals i :=
    match chunks[i]? with
    | some chunk => .bytes chunk.length
    | none => if fails then .failed else .closed

/-- **Every way of cutting a stream** is a stream. -/
theorem results_cut {chunks : List Bytes}
    (h : ∀ chunk ∈ chunks, chunk ≠ [] ∧ chunk.length < tcpBufferSize) (left : Bytes)
    (fails : Bool) : results (cut chunks left fails) = (chunks, if fails then -1 else 0) := by
  have hsize : DmSocket.toSize (tcpBufferSize - 1) = 1023 := by decide
  induction chunks with
  | nil =>
      have hrecv : recvChunk (cut [] left fails) =
          (if fails then -1 else 0, [], (cut [] left fails).next left) := by
        cases fails <;> rfl
      rw [results_of_recv hrecv, if_neg]
      cases fails <;> decide
  | cons chunk chunks ih =>
      obtain ⟨hne, hlen⟩ := h chunk List.mem_cons_self
      have hrest := ih fun chunk' hin => h chunk' (List.mem_cons_of_mem _ hin)
      have hpos : 0 < chunk.length := List.length_pos_iff.mpr hne
      have hmin : min chunk.length 1023 = chunk.length := Nat.min_eq_left (Nat.le_of_lt_succ hlen)
      have hread : (cut (chunk :: chunks) left fails).read 1023 =
          (some chunk, cut chunks left fails) := by
        rw [ByteStream.read, cut]
        dsimp only [List.getElem?_cons_zero]
        rw [hmin, List.flatten_cons, List.append_assoc, List.take_left, List.drop_left]
        rfl
      have hrecv : recvChunk (cut (chunk :: chunks) left fails) =
          ((chunk.length : Int), chunk, cut chunks left fails) := by
        rw [recvChunk, recv, hsize, hread]
        dsimp only
        rw [toInt_of_lt (Nat.lt_trans hlen (by decide))]
      rw [results_of_recv hrecv, if_pos (by omega), hrest]

/-! ## Messages one by one -/

/-- A message as it is sent: a C string that ends with `STOP` and contains it nowhere
    else. -/
structure IsMessage (m : Bytes) : Prop where
  nulFree : 0 ∉ m
  delimited : Delimited stop m

/-- What is sent with `STOP` behind it is a message, if the text has neither NUL nor carriage
    return. -/
theorem isMessage_append {text : Bytes} (hnul : 0 ∉ text) (hreturn : 0x0d ∉ text) :
    IsMessage (text ++ stop) := by
  rw [stop_eq]
  refine ⟨?_, ?_⟩
  · rw [List.mem_append]
    exact fun hin => hin.elim hnul (by decide)
  · rw [stop_eq]
    exact delimited_append hreturn

/-- The messages that have arrived whole when a `recv` returns 0 or -1 are read one by one,
    each up to its own `STOP`; then `>>` throws. No access is outside the buffer. -/
def Delivered (messages : List Bytes) (unset : Nat → CharBuffer) (c : ByteStream) : Prop :=
  ∃ what, receiveAll unset c =
    (whole messages (results c).1.flatten.length, .runtimeError what)

/-- It throws exactly if the last `recv` returned 0. -/
theorem ended_eq_runtimeError_iff {last : Int} :
    (∃ what, ended last = .runtimeError what) ↔ last = 0 := by
  rw [ended]
  by_cases h : last = 0
  · rw [if_pos h]
    exact iff_of_true ⟨_, rfl⟩ h
  · rw [if_neg h]
    refine iff_of_false ?_ h
    rintro ⟨what, heq⟩
    cases heq

/-- **Messages are read one by one** exactly if no `recv` returns -1, and none gets bytes of
    two messages. -/
theorem delivered_iff {messages : List Bytes} (hmessages : ∀ m ∈ messages, IsMessage m)
    {c : ByteStream} (hpending : c.pending = messages.flatten) (unset : Nat → CharBuffer) :
    Delivered messages unset c ↔ (results c).2 ≠ -1 ∧ Separate messages 0 (results c).1 := by
  have hnul : 0 ∉ c.pending := by
    rw [hpending]
    intro hin
    obtain ⟨m, hm, hin⟩ := List.mem_flatten.mp hin
    exact (hmessages m hm).nulFree hin
  obtain ⟨hbegins, hlast⟩ := results_spec c
  rw [hpending] at hbegins
  have hstop : ¬ stop <:+: [] := by
    rw [List.infix_nil, stop_eq]
    exact nofun
  have hassemble := assemble_eq_iff (fun m hm => (hmessages m hm).delimited)
    (show [] ++ (results c).1.flatten <+: messages.flatten from hbegins) hstop
  rw [List.length_nil, Nat.zero_add] at hassemble
  rw [Delivered, receiveAll_eq hnul, ← hassemble]
  constructor
  · rintro ⟨what, heq⟩
    obtain ⟨hstrings, hended⟩ := Prod.mk.inj heq
    have hzero := ended_eq_runtimeError_iff.mp ⟨what, hended⟩
    refine ⟨?_, hstrings⟩
    rw [hzero]
    decide
  · rintro ⟨hne, hstrings⟩
    obtain ⟨what, hwhat⟩ := ended_eq_runtimeError_iff.mpr (hlast.resolve_right hne)
    exact ⟨what, by rw [hstrings, hwhat]⟩

/-- The text of an ACK, and `STOP`. -/
theorem isMessage_ack : IsMessage DmFraming.ackString := by
  have htext : DmFraming.ackString = DmFraming.ackString.take 11 ++ stop := by
    rw [stop_eq]
    rfl
  rw [htext]
  exact isMessage_append (by decide) (by decide)

/-- Two of them. -/
def twoAcks : List Bytes := [DmFraming.ackString, DmFraming.ackString]

theorem isMessage_twoAcks : ∀ m ∈ twoAcks, IsMessage m := by
  intro m hm
  rcases List.mem_pair.mp hm with rfl | rfl
  · exact isMessage_ack
  · exact isMessage_ack

/-- A buffer of zeros at every call. -/
def zeroBuffers (_ : Nat) : CharBuffer := ⟨List.replicate tcpBufferSize 0, List.length_replicate⟩

/-- The first ACK in two pieces, with its `STOP` cut in the middle, and the second in one. -/
def splitStop : List Bytes :=
  [DmFraming.ackString.take 13, DmFraming.ackString.drop 13, DmFraming.ackString]

theorem delivered_iff_splitStop :
    Delivered twoAcks zeroBuffers (cut splitStop [] false) := by
  refine (delivered_iff isMessage_twoAcks (by rfl) zeroBuffers).mpr ?_
  rw [results_cut (by decide)]
  have hends : ∀ k, endOf twoAcks k = 0 ∨ endOf twoAcks k = 15 ∨ endOf twoAcks k = 30 := by
    intro k
    match k with
    | 0 => exact Or.inl rfl
    | 1 => exact Or.inr (Or.inl rfl)
    | k + 2 =>
        rw [twoAcks, endOf_cons, endOf_cons, endOf_nil]
        exact Or.inr (Or.inr rfl)
  have hlengths : splitStop.map List.length = [13, 2, 15] := by decide
  simp only [splitStop, List.map_cons, List.map_nil, List.cons.injEq, and_true] at hlengths
  obtain ⟨hfirst, hsecond, hthird⟩ := hlengths
  refine ⟨by decide, fun k => ?_, fun k => ?_, fun k => ?_, trivial⟩
  · have hk := hends k
    omega
  · have hk := hends k
    omega
  · have hk := hends k
    omega

/-- **Two messages in one `recv`** are returned as one string, and the second is not
    there for the next call. -/
theorem merged_not_delivered :
    (∀ m ∈ twoAcks, IsMessage m) ∧
      (cut [twoAcks.flatten] [] false).pending = twoAcks.flatten ∧
      receiveAll zeroBuffers (cut [twoAcks.flatten] [] false) =
        ([twoAcks.flatten], .runtimeError "Peer disconnected") ∧
      ¬ Delivered twoAcks zeroBuffers (cut [twoAcks.flatten] [] false) := by
  have hread : receiveAll zeroBuffers (cut [twoAcks.flatten] [] false) =
      ([twoAcks.flatten], .runtimeError "Peer disconnected") := by
    rw [receiveAll_eq (by decide), results_cut (by decide), stop_eq]
    decide +kernel
  refine ⟨isMessage_twoAcks, by rfl, hread, ?_⟩
  rintro ⟨what, heq⟩
  rw [hread, results_cut (by decide)] at heq
  exact absurd (Prod.mk.inj heq).1 (by decide)

end DmPlainSocket
