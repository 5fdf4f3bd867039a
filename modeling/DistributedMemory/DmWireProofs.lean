import DistributedMemory.DmReceiveProofs
import DistributedMemory.DmDecodeProofs
import DistributedMemory.DmSystemProofs

/-!
# The wire — documents, text, frames and streams of bytes

In `DmSystem` a message in flight is a document. In the program it is the bytes of a frame:
`Message::emit` makes the text of the document, `STOP` is put behind it, `SecureSocket`
encrypts the text and writes its size before it, and the other end reads the size, the
ciphertext, decrypts, and parses. Here the two directions of a connection are streams of
bytes, and every read goes through all of this, with whatever pieces the `recv`s come back
with. A read that comes short gives up in the middle of a frame.

* **`Carries`** — the bytes in flight in one direction are the frames of certain documents.
* **`FramedStep`**, **`Step`** — the steps whose reads get whole frames, and all.
* **`step_down`**, **`step_up`** — the framed steps match those on documents.
* **`wire_traces`** — so the system over bytes and the system over documents have the same
  runs, up to the first read that comes short.
-/

namespace DmWire

open DmBlock DmConfig DmMessage DmClient DmServer DmHost DmSystem DmSocket DmFraming DmReceive
  DmDecode DmText FlowText ByteStreams LabelledRun

variable {ι : Type} [DecidableEq ι]

/-! ## Texts -/

/-- The bytes of a string. -/
def bytesOf (s : String) : Bytes := s.toUTF8.data.toList

theorem bytesOf_inj {s t : String} (h : bytesOf s = bytesOf t) : s = t :=
  String.toByteArray_inj.mp (ByteArray.ext (Array.toList_inj.mp h))

/-- What is written for a document: its text, `STOP` behind it. -/
def textOf (yaml : YamlCpp) (n : Node) : Bytes := bytesOf (yaml.emitter n ++ STOP)

theorem textOf_ne_nil (yaml : YamlCpp) (n : Node) : textOf yaml n ≠ [] := by
  intro h
  have hempty : yaml.emitter n ++ STOP = "" := bytesOf_inj h
  have hlen := congrArg String.length hempty
  rw [String.length_append] at hlen
  have hstop : STOP.length = 4 := rfl
  rw [hstop] at hlen
  exact absurd hlen (Nat.succ_ne_zero _)

/-- The documents that `Message::emit` writes. -/
def Emitted (n : Node) : Prop :=
  (∃ t, n = emit t) ∨ ∃ t blk shallow, n = emitBlock t blk shallow

theorem emitted_emit (t : MessageType) : Emitted (emit t) := Or.inl ⟨t, rfl⟩

theorem emitted_emitBlock (t : MessageType) (blk : Block) (shallow : Bool) :
    Emitted (emitBlock t blk shallow) := Or.inr ⟨t, blk, shallow, rfl⟩

/-- The text of an emitted document is parsed as the document. -/
theorem create_emitted {yaml : YamlCpp} (h : Rereads yaml) {n : Node} (hn : Emitted n) :
    Message.create yaml (yaml.emitter n ++ STOP) = Message.ofNode n := by
  rw [create_stop]
  rcases hn with ⟨t, rfl⟩ | ⟨t, blk, sh, rfl⟩
  · exact parse_document (h.type _ t)
  · exact parse_document (h.block _ t blk sh)

/-! ## Documents are short -/

theorem size_utf8Encode_le (l : List Char) : l.utf8Encode.size ≤ 4 * l.length := by
  induction l with
  | nil => exact Nat.le_refl 0
  | cons c l ih =>
      have hchar : [c].utf8Encode.size ≤ 4 := by
        rw [List.utf8Encode_singleton, List.size_toByteArray, String.length_utf8EncodeChar]
        exact c.utf8Size_le_four
      rw [List.utf8Encode_cons, ByteArray.size_append, List.length_cons]
      omega

/-- A string has at most four bytes for a character. -/
theorem length_bytesOf_le (s : String) : (bytesOf s).length ≤ 4 * s.toList.length := by
  have hsize := size_utf8Encode_le s.toList
  rw [← String.toByteArray_ofList, String.ofList_toList] at hsize
  exact hsize

/-- The words of a document are short. -/
theorem length_typeToString (t : MessageType) : (typeToString t).toList.length ≤ 6 := by
  cases t <;> decide

theorem length_decimal_int32 (i : Int32) : (decimal i.toInt).length ≤ 11 := by
  have hlo : -2147483648 ≤ i.toInt := i.le_toInt
  have hhi : i.toInt ≤ 2147483647 := i.toInt_le
  exact length_decimal_le (k := 10) (by decide) (by omega)

theorem length_text_emit (t : MessageType) : (tree (emit t)).text.length ≤ 14 := by
  have htype := length_typeToString t
  simp only [tree, emit, ofOption, entry, ofString, typeKey, Flow.text, Entries.text,
    List.length_append, List.length_cons, List.length_nil]
  omega

/-- The text of an emitted block is short: two numbers and the content in base 64. -/
theorem length_text_treeBlock (id revision : Int32) (d : Option Data) :
    (treeBlock ⟨id, .value revision, ofOption (d.map Data.bytes)⟩).text.length ≤ 580 := by
  have hid := length_decimal_int32 id
  have hrevision := length_decimal_int32 revision
  rw [treeBlock]
  cases d with
  | none =>
      simp only [Option.map_none, ofOption, entry, ofInt, idKey, revisionKey, Flow.text,
        Entries.text, List.length_append, List.length_cons, List.length_nil]
      omega
  | some d =>
      have hdata := length_base64_le d.bytes
      rw [d.size_eq, dimBlock] at hdata
      simp only [Option.map_some, ofOption, entry, ofInt, ofBinary, idKey, revisionKey, dataKey,
        tag, Flow.text, Entries.text, List.length_append, List.length_cons, List.length_nil]
      omega

theorem length_text_emitBlock (t : MessageType) (blk : Block) (shallow : Bool) :
    (tree (emitBlock t blk shallow)).text.length ≤ 700 := by
  have htype := length_typeToString t
  obtain ⟨d, hd⟩ : ∃ d : Option Data, emitBlock t blk shallow =
      ⟨some (typeToString t), some ⟨blk.id, .value blk.revision, ofOption (d.map Data.bytes)⟩⟩ := by
    unfold emitBlock
    split
    · exact ⟨some _, rfl⟩
    · exact ⟨none, rfl⟩
  have hblock := length_text_treeBlock blk.id blk.revision d
  rw [hd, tree]
  simp only [ofOption, entry, ofString, typeKey, blockKey, Flow.text, Entries.text,
    List.length_append, List.length_cons, List.length_nil] at hblock ⊢
  omega

/-- Every document that `Message::emit` writes is short. -/
theorem short_flowYaml {n : Node} (hn : Emitted n) :
    (textOf flowYaml n).length < 0x7fffffe0 := by
  have htext : (tree n).text.length ≤ 700 := by
    rcases hn with ⟨t, rfl⟩ | ⟨t, blk, sh, rfl⟩
    · exact Nat.le_trans (length_text_emit t) (by decide)
    · exact length_text_emitBlock t blk sh
  have hbytes := length_bytesOf_le (flowYaml.emitter n ++ STOP)
  have hemit : (flowYaml.emitter n).toList = (tree n).text := String.toList_ofList
  have hstop : STOP.toList.length = 4 := rfl
  rw [String.toList_append, List.length_append, hstop, hemit] at hbytes
  rw [textOf]
  omega

/-! ## Reading a frame -/

section

variable {E : Evp} {key s rest got : Bytes} {c c' : ByteStream} {n : Nat}

/-- A `recv` that finds nothing, the end of the connection or an error. -/
def Arrival.isNothing : Arrival → Prop
  | .bytes n => n = 0
  | .closed => True
  | .failed => True

theorem recv_nothing (h : Arrival.isNothing (c.arrivals 0)) (size : Int) :
    (recv c size).1 = 0 ∨ (recv c size).1 = -1 := by
  rw [recv, ByteStream.read]
  cases harrival : c.arrivals 0 with
  | bytes n =>
      rw [harrival] at h
      obtain rfl : n = 0 := h
      left
      simp only [Nat.zero_min, List.take_zero]
      rfl
  | closed => exact Or.inl rfl
  | failed => exact Or.inr rfl

/-- Where `recv_secure` returns no size, `>>` throws. -/
theorem receive_nonpos {data : Bytes} {size : Int}
    (h : (recvSecure E key c).1 = .ok (size, data)) (hsize : size ≤ 0) :
    ∃ f, (receive E key c).1 = .error f := by
  rw [receive_of_recvSecure h]
  by_cases h0 : size = 0
  · rw [if_pos h0]
    exact ⟨_, rfl⟩
  · rw [if_neg h0, if_pos (by omega)]
    exact ⟨_, rfl⟩

/-- Nothing for the header. -/
theorem receive_noHeader (h : (recv c 4).1 = 0 ∨ (recv c 4).1 = -1) :
    ∃ f, (receive E key c).1 = .error f := by
  have hres : ∃ size, size ≤ 0 ∧ (recvSecure E key c).1 = .ok (size, []) := by
    rw [recvSecure]
    cases hr : recv c 4 with
    | mk res tail =>
        obtain ⟨header, c₁⟩ := tail
        rw [hr] at h
        dsimp only at h ⊢
        rcases h with rfl | rfl
        · exact ⟨0, Int.le_refl 0, by rw [if_pos rfl]⟩
        · exact ⟨-1, by decide, by rw [if_neg (by decide), if_pos (by decide)]⟩
  obtain ⟨size, hle, hread⟩ := hres
  exact receive_nonpos hread hle

/-- Nothing for the ciphertext. -/
theorem receive_noBody (hE : E.Inverts key) (hfits : Fits s.length)
    (hpending : c.pending = frame E key s ++ rest) (hheader : c.arrivals 0 = .bytes n)
    (hn : 4 ≤ n) (h : Arrival.isNothing (c.arrivals 1)) :
    ∃ f, (receive E key c).1 = .error f := by
  have hlt := header_lt hE hfits
  have hnothing := recv_nothing (c := c.next (E.encrypt key s ++ rest)) h
    ((E.encrypt key s).length : Int)
  have hres : ∃ size, size ≤ 0 ∧ (recvSecure E key c).1 = .ok (size, []) := by
    rw [recvSecure_header hE hfits hpending hheader hn, recvPacket, toInt_of_lt hlt]
    cases hr : recv (c.next (E.encrypt key s ++ rest)) ((E.encrypt key s).length : Int) with
    | mk res tail =>
        obtain ⟨buffer, c₁⟩ := tail
        rw [hr] at hnothing
        dsimp only at hnothing ⊢
        rcases hnothing with rfl | rfl
        · exact ⟨0, Int.le_refl 0, by rw [if_pos rfl]⟩
        · have hne : (-1 : Int) ≠ ((E.encrypt key s).length : Int) := by omega
          exact ⟨-1, by decide, by rw [if_neg (by decide), if_pos hne]⟩
  obtain ⟨size, hle, hread⟩ := hres
  exact receive_nonpos hread hle

/-- How many bytes a `recv` finds. -/
theorem arrival_cases (a : Arrival) : Arrival.isNothing a ∨ ∃ n, 0 < n ∧ a = .bytes n := by
  cases a with
  | bytes n =>
      rcases Nat.eq_zero_or_pos n with hn | hn
      · exact Or.inl hn
      · exact Or.inr ⟨n, hn, rfl⟩
  | closed => exact Or.inl trivial
  | failed => exact Or.inl trivial

/-- **A read that succeeds gives the string of the first frame**, whatever the `recv`s came
    back with. -/
theorem receive_ok (hE : E.Inverts key) (hne : s ≠ []) (hlen : s.length < 0x7fffffe0)
    (hpending : c.pending = frame E key s ++ rest) (h : receive E key c = (.ok got, c')) :
    got = s ∧ c'.pending = rest := by
  have hfits : Fits s.length := ⟨by omega, by rw [blockSize]; omega⟩
  -- a read that falls short ends in an exception
  have hno : ∀ f, (receive E key c).1 ≠ .error f := by
    intro f hf
    rw [h] at hf
    cases hf
  rcases arrival_cases (c.arrivals 0) with hnothing | ⟨n, hn, hheader⟩
  · obtain ⟨f, hf⟩ := receive_noHeader (recv_nothing hnothing 4)
    exact absurd hf (hno f)
  · by_cases hwhole : 4 ≤ n
    · rcases arrival_cases (c.arrivals 1) with hnothing | ⟨m, hm, hbody⟩
      · obtain ⟨f, hf⟩ := receive_noBody hE hfits hpending hheader hwhole hnothing
        exact absurd hf (hno f)
      · by_cases hcipher : DmHandshake.cipherSize s.length ≤ m
        · rw [receive_frame hE hne hlen hpending hheader hwhole hbody hcipher] at h
          obtain ⟨hgot, hrest⟩ := Prod.mk.inj h
          exact ⟨(Except.ok.inj hgot).symm, congrArg ByteStream.pending hrest.symm⟩
        · exact absurd
            (receive_cutBody hE hfits hpending hheader hwhole hbody hm (Nat.not_le.mp hcipher))
            (hno _)
    · refine absurd (receive_cutHeader hheader hn (Nat.not_le.mp hwhole) ?_) (hno _)
      rw [hpending, frame, List.length_append, List.length_append, length_leBytes]
      omega

/-- A `recv` that runs into its timeout. -/
theorem receive_timedOut (E : Evp) (key pending : Bytes) :
    receive E key ⟨pending, fun _ => .failed⟩ =
      (.error (.runtimeError "Could not receive from secure socket"),
        ⟨pending, fun _ => .failed⟩) := rfl

end

/-! ## The system over bytes -/

/-- What is fixed: the deployment, yaml-cpp and OpenSSL, and every connection's session
    key. -/
structure Wiring (ι : Type) where
  deployment : Deployment ι
  yaml : YamlCpp
  evp : Evp
  key : ι → Bytes

/-- A client with its connection: the call in progress, the number of requests written so
    far, and the bytes on the way in either direction, each with the numbers of the requests
    that its frames are, or are the replies to. No code reads the numbers. -/
structure Cable where
  client : Client
  dead : Bool
  pending : Option Pending
  sent : Nat
  toServer : Bytes
  requestTags : List Nat
  toClient : Bytes
  replyTags : List Nat

/-- The server, the clients, and which connections the server has closed. -/
structure Network (ι : Type) where
  host : Host ι
  cable : ι → Cable
  closed : ι → Bool

/-- Freshly started: nothing mapped, no byte on its way. -/
def Wiring.start (W : Wiring ι) : Network ι where
  host := Host.start W.deployment.blocksId
  closed := fun _ => false
  cable := fun c =>
    { client := ⟨W.deployment.config c, W.deployment.sockets c, fun _ => none⟩
      dead := false
      pending := none
      sent := 0
      toServer := []
      requestTags := []
      toClient := []
      replyTags := [] }

namespace Cable

/-- `sock << req`. -/
def write (l : Cable) (client : Client) (call : Call) (req : Node) (wire : Bytes) : Cable :=
  { l with
    client := client
    pending := some ⟨call, l.sent, req⟩
    sent := l.sent + 1
    toServer := l.toServer ++ wire
    requestTags := l.requestTags ++ [l.sent] }

/-- The thread read a request, unless it had one, and wrote a reply, unless it sleeps. -/
def answered (l : Cable) (rest : Bytes) (tags : List Nat) (tag : Nat) (ans : Option Node)
    (wire : Bytes) : Cable :=
  { l with
    toServer := rest
    requestTags := tags
    toClient := l.toClient ++ wire
    replyTags := l.replyTags ++ ans.toList.map fun _ => tag }

/-- The call is over. -/
def done (l : Cable) (client : Client) (rest : Bytes) (tags : List Nat) : Cable :=
  { l with client := client, pending := none, toClient := rest, replyTags := tags }

end Cable

/-- Client `c`'s cable set to `l`. -/
def Network.setCable (s : Network ι) (c : ι) (l : Cable) : Network ι :=
  { s with cable := Function.update s.cable c l }

/-- Client `c`'s connection closed by the server. -/
def Network.close (s : Network ι) (c : ι) : Network ι :=
  { s with closed := Function.update s.closed c true }

@[simp] theorem Network.setCable_host (s : Network ι) (c : ι) (l : Cable) :
    (s.setCable c l).host = s.host := rfl

@[simp] theorem Network.setCable_self (s : Network ι) (c : ι) (l : Cable) :
    (s.setCable c l).cable c = l := by
  simp [setCable]

theorem Network.setCable_other (s : Network ι) {c u : ι} (l : Cable) (hu : u ≠ c) :
    (s.setCable c l).cable u = s.cable u := by
  simp [setCable, hu]

section

omit [DecidableEq ι]

/-- `sock << Message::emit(..) + Message::STOP`: the bytes that are written. -/
def Writes (W : Wiring ι) (c : ι) (n : Node) (wire : Bytes) : Prop :=
  send W.evp (W.key c) (textOf W.yaml n) = .ok wire

/-- The bytes written for an answer, none if there is none yet. -/
def WritesAnswer (W : Wiring ι) (c : ι) : Option Node → Bytes → Prop
  | none, wire => wire = []
  | some n, wire => Writes W c n wire

/-- `sock >> message` and `Message(message)`: what a read makes of the bytes on the way,
    with some way for its `recv`s to come back, and what it leaves. -/
def Reads (W : Wiring ι) (c : ι) (wire : Bytes) (m : Message) (rest : Bytes) : Prop :=
  ∃ arrivals text later,
    receive W.evp (W.key c) ⟨wire, arrivals⟩ = (.ok (bytesOf text), ⟨rest, later⟩) ∧
      m = Message.create W.yaml text

/-- `sock >> message` throws, with some way for its `recv`s to come back, and leaves the rest
    of the bytes. -/
def Throws (W : Wiring ι) (c : ι) (wire : Bytes) (f : Thrown) (rest : Bytes) : Prop :=
  ∃ arrivals later, receive W.evp (W.key c) ⟨wire, arrivals⟩ = (.error f, ⟨rest, later⟩)

end

/-- One step in which a read gets a whole frame or finds no byte on its way: the same as in
    `DmSystem`, on bytes. -/
inductive FramedStep (W : Wiring ι) : Network ι → Event ι → Network ι → Prop where
  | returned {s : Network ι} {c : ι} {call : Call} {code : Int} {client : Client}
      (hidle : (s.cable c).pending = none) (halive : (s.cable c).dead = false)
      (hsend : (s.cable c).client.send call = .ok (.returned code client)) :
      FramedStep W s (.returned c call code) (s.setCable c { s.cable c with client := client })
  | sent {s : Network ι} {c : ι} {call : Call} {req : Node} {client : Client} {wire : Bytes}
      (hidle : (s.cable c).pending = none) (halive : (s.cable c).dead = false)
      (hsend : (s.cable c).client.send call =
        .ok (.sent W.deployment.serverId req client))
      (hwire : Writes W c req wire) :
      FramedStep W s (.sent c ⟨call, (s.cable c).sent, req⟩)
        (s.setCable c ((s.cable c).write client call req wire))
  | died {s : Network ι} {c : ι} {call : Call} {f : Fault}
      (hidle : (s.cable c).pending = none) (halive : (s.cable c).dead = false)
      (hsend : (s.cable c).client.send call = .error f) :
      FramedStep W s (.died c call) (s.setCable c { s.cable c with dead := true })
  | poked {s : Network ι} {c : ι} {id : Int32} {e : BlockLocal} (d : Data)
      (hidle : (s.cable c).pending = none) (halive : (s.cable c).dead = false)
      (he : (s.cable c).client.blocks id = some e) :
      FramedStep W s (.poked c id)
        (s.setCable c { s.cable c with
          client := (s.cable c).client.setBlock id (some { e with data := d }) })
  | request {s : Network ι} {c : ι} {tag : Nat} {tags : List Nat} {m : Message}
      {rest wire : Bytes} {sec : Section}
      (htags : (s.cable c).requestTags = tag :: tags)
      (hreading : s.host.thread c = .reading) (hopen : s.closed c = false)
      (hread : Reads W c (s.cable c).toServer m rest)
      (hpass : s.host.server.clientHandler (W.deployment.clientId c) m = .ok sec)
      (hwire : WritesAnswer W c (answer sec) wire) :
      FramedStep W s (.critical c tag m.node (answer sec))
        ({ s with host := s.host.leave c tag sec }.setCable c
          ((s.cable c).answered rest tags tag (answer sec) wire))
  | retry {s : Network ι} {c : ι} {tag : Nat} {k : Int32} {msg : Message} {wire : Bytes}
      {sec : Section}
      (hawake : s.host.thread c = .awake tag k msg)
      (hloop : s.host.server.handleWait k msg = .ok sec)
      (hwire : WritesAnswer W c (answer sec) wire) :
      FramedStep W s (.critical c tag msg.node (answer sec))
        ({ s with host := s.host.leave c tag sec }.setCable c
          ((s.cable c).answered (s.cable c).toServer (s.cable c).requestTags tag (answer sec)
            wire))
  | woken {s : Network ι} {c : ι} {tag : Nat} {k : Int32} {msg : Message}
      (hasleep : s.host.thread c = .asleep tag k msg) :
      FramedStep W s (.woken c) { s with host := s.host.setThread c (.awake tag k msg) }
  | received {s : Network ι} {c : ι} {p : Pending} {tag : Nat} {tags : List Nat}
      {m : Message} {rest : Bytes} {code : Int} {client : Client}
      (hp : (s.cable c).pending = some p) (halive : (s.cable c).dead = false)
      (htags : (s.cable c).replyTags = tag :: tags)
      (hread : Reads W c (s.cable c).toClient m rest)
      (hrecv : (s.cable c).client.receive p.call (some m.node) = .ok (code, client)) :
      FramedStep W s (.received c p tag m.node (some code))
        (s.setCable c ((s.cable c).done client rest tags))
  | receivedDied {s : Network ι} {c : ι} {p : Pending} {tag : Nat} {tags : List Nat}
      {m : Message} {rest : Bytes} {f : Fault}
      (hp : (s.cable c).pending = some p) (halive : (s.cable c).dead = false)
      (htags : (s.cable c).replyTags = tag :: tags)
      (hread : Reads W c (s.cable c).toClient m rest)
      (hrecv : (s.cable c).client.receive p.call (some m.node) = .error f) :
      FramedStep W s (.received c p tag m.node none)
        (s.setCable c { (s.cable c).done (s.cable c).client rest tags with dead := true })
  | timedOut {s : Network ι} {c : ι} {p : Pending} {code : Int} {client : Client}
      (hp : (s.cable c).pending = some p) (halive : (s.cable c).dead = false)
      {what : String} (hnone : (s.cable c).toClient = [])
      (hread : Throws W c (s.cable c).toClient (.runtimeError what) [])
      (hrecv : (s.cable c).client.receive p.call none = .ok (code, client)) :
      FramedStep W s (.timedOut c p) (s.setCable c ((s.cable c).done client [] []))

/-- One step of the system. It shows nothing if a read comes short with bytes on their way,
    and where that leads to: a thread then closes its connection, and a client goes on, its
    next reads starting anywhere in the bytes. The numbers that go with these are of no
    account from then on. -/
inductive Step (W : Wiring ι) : Network ι → Option (Event ι) → Network ι → Prop where
  | framed {s s' : Network ι} {e : Event ι} (h : FramedStep W s e s') : Step W s (some e) s'
  | cutRequest {s : Network ι} {c : ι} {what : String} {rest : Bytes}
      (hreading : s.host.thread c = .reading) (hopen : s.closed c = false)
      (hbytes : (s.cable c).toServer ≠ [])
      (hread : Throws W c (s.cable c).toServer (.runtimeError what) rest) :
      Step W s none ((s.setCable c { s.cable c with toServer := rest }).close c)
  | cutReply {s : Network ι} {c : ι} {p : Pending} {what : String} {rest : Bytes} {code : Int}
      {client : Client} (tags : List Nat)
      (hp : (s.cable c).pending = some p) (halive : (s.cable c).dead = false)
      (hbytes : (s.cable c).toClient ≠ [])
      (hread : Throws W c (s.cable c).toClient (.runtimeError what) rest)
      (hrecv : (s.cable c).client.receive p.call none = .ok (code, client)) :
      Step W s none (s.setCable c ((s.cable c).done client rest tags))
  /-- What is no `runtime_error` is not caught. Only a client can be out of step: the requests
      on their way to a thread are whole frames. -/
  | crashed {s : Network ι} {c : ι} {p : Pending} {rest : Bytes}
      (hp : (s.cable c).pending = some p) (halive : (s.cable c).dead = false)
      (hread : Throws W c (s.cable c).toClient .outputBuffer rest) :
      Step W s none (s.setCable c { s.cable c with dead := true })
  /-- The server has closed the connection, and `sock << req` throws. -/
  | unsent {s : Network ι} {c : ι} {call : Call} {req : Node} {code : Int}
      {asking client : Client}
      (hidle : (s.cable c).pending = none) (halive : (s.cable c).dead = false)
      (hclosed : s.closed c = true)
      (hsend : (s.cable c).client.send call =
        .ok (.sent W.deployment.serverId req asking))
      (hrecv : asking.receive call none = .ok (code, client)) :
      Step W s none (s.setCable c { s.cable c with client := client })
  /-- The same, but the process gets a SIGPIPE. -/
  | brokenPipe {s : Network ι} {c : ι} {call : Call} {req : Node} {asking : Client}
      (hidle : (s.cable c).pending = none) (halive : (s.cable c).dead = false)
      (hclosed : s.closed c = true)
      (hsend : (s.cable c).client.send call =
        .ok (.sent W.deployment.serverId req asking)) :
      Step W s none (s.setCable c { s.cable c with dead := true })

/-! ## What the bytes carry -/

/-- What the system relies on: the cipher is undone by its inverse, the library reads what it
    wrote, and no document is so long that `cipher` has no buffer for it. -/
structure Wiring.Sound (W : Wiring ι) : Prop where
  inverts : ∀ c, W.evp.Inverts (W.key c)
  rereads : Rereads W.yaml
  short : ∀ n, Emitted n → (textOf W.yaml n).length < 0x7fffffe0

/-- The bytes are the frames of the documents, one behind the other. -/
structure Carries (W : Wiring ι) (c : ι) (wire : Bytes) (tags : List Nat)
    (docs : List (Nat × Node)) : Prop where
  bytes : wire = docs.flatMap fun d => frame W.evp (W.key c) (textOf W.yaml d.2)
  tags : tags = docs.map Prod.fst
  emitted : ∀ d ∈ docs, Emitted d.2

section

omit [DecidableEq ι]

variable {W : Wiring ι} {c : ι} {wire rest : Bytes} {tags : List Nat} {tag : Nat} {n : Node}
  {m : Message} {docs : List (Nat × Node)}

/-- An emitted document is written as its frame. -/
theorem writes_iff (hW : W.Sound) (hn : Emitted n) :
    Writes W c n wire ↔ wire = frame W.evp (W.key c) (textOf W.yaml n) := by
  rw [Writes, send_of_lt W.evp (W.key c) (hW.short n hn)]
  constructor
  · exact fun h => (Except.ok.inj h).symm
  · rintro rfl
    rfl

theorem Carries.nil : Carries W c [] [] [] :=
  ⟨rfl, rfl, fun _ hd => absurd hd List.not_mem_nil⟩

/-- One frame more. -/
theorem Carries.push (h : Carries W c wire tags docs) (hn : Emitted n) :
    Carries W c (wire ++ frame W.evp (W.key c) (textOf W.yaml n)) (tags ++ [tag])
      (docs ++ [(tag, n)]) := by
  refine ⟨?_, ?_, ?_⟩
  · rw [h.bytes, List.flatMap_append, List.flatMap_singleton]
  · rw [h.tags, List.map_append]
    rfl
  · intro d hd
    rcases List.mem_append.mp hd with hin | hlast
    · exact h.emitted d hin
    · rw [List.mem_singleton.mp hlast]
      exact hn

/-- The frame in front. -/
theorem Carries.tail (h : Carries W c wire tags ((tag, n) :: docs)) :
    ∃ tags' rest, tags = tag :: tags' ∧
      wire = frame W.evp (W.key c) (textOf W.yaml n) ++ rest ∧ Emitted n ∧
      Carries W c rest tags' docs := by
  have htail : Carries W c
      (docs.flatMap fun d => frame W.evp (W.key c) (textOf W.yaml d.2)) (docs.map Prod.fst)
      docs :=
    ⟨rfl, rfl, fun d hd => h.emitted d (List.mem_cons_of_mem _ hd)⟩
  refine ⟨_, _, ?_, ?_, h.emitted (tag, n) List.mem_cons_self, htail⟩
  · rw [h.tags, List.map_cons]
  · rw [h.bytes, List.flatMap_cons]

/-- **What is read is the first document**, in every way the read can succeed. -/
theorem Carries.of_reads (hW : W.Sound) (h : Carries W c wire (tag :: tags) docs)
    (hread : Reads W c wire m rest) :
    ∃ n docs', docs = (tag, n) :: docs' ∧ m = Message.ofNode n ∧
      Carries W c rest tags docs' := by
  cases docs with
  | nil => exact absurd h.tags (List.cons_ne_nil _ _)
  | cons d docs =>
      obtain ⟨tag', n⟩ := d
      obtain ⟨tags', wire', htags, hwire, hn, htail⟩ := h.tail
      obtain ⟨rfl, rfl⟩ := List.cons.inj htags
      obtain ⟨arrivals, text, later, hreceive, rfl⟩ := hread
      obtain ⟨htext, hrest⟩ := receive_ok (hW.inverts c) (textOf_ne_nil W.yaml n)
        (hW.short n hn) hwire hreceive
      obtain rfl : rest = wire' := hrest
      obtain rfl := bytesOf_inj htext
      exact ⟨n, docs, rfl, create_emitted hW.rereads hn, htail⟩

/-- **The first document can be read**: with `recv`s that get what they ask for. -/
theorem Carries.reads (hW : W.Sound) (h : Carries W c wire tags ((tag, n) :: docs)) :
    ∃ tags' rest, tags = tag :: tags' ∧ Reads W c wire (Message.ofNode n) rest ∧
      Carries W c rest tags' docs := by
  obtain ⟨tags', rest, htags, hwire, hn, htail⟩ := h.tail
  refine ⟨tags', rest, htags, ?_, htail⟩
  obtain ⟨size, hheader, hbody⟩ : ∃ size, 4 ≤ size ∧
      DmHandshake.cipherSize (textOf W.yaml n).length ≤ size :=
    ⟨_, Nat.le_max_left _ _, Nat.le_max_right _ _⟩
  have hread := receive_frame (c := ⟨wire, fun _ => .bytes size⟩) (n := size) (m := size)
    (hW.inverts c) (textOf_ne_nil W.yaml n) (hW.short n hn) hwire rfl hheader rfl hbody
  exact ⟨_, _, _, hread, (create_emitted hW.rereads hn).symm⟩

/-- There are no bytes exactly if there are no documents. -/
theorem Carries.nil_iff (h : Carries W c wire tags docs) : wire = [] ↔ docs = [] := by
  constructor
  · intro hwire
    cases docs with
    | nil => rfl
    | cons d docs =>
        have hframe : (frame W.evp (W.key c) (textOf W.yaml d.2)).length = 0 := by
          have hlen := congrArg List.length (hwire.symm.trans h.bytes)
          rw [List.flatMap_cons, List.length_append, List.length_nil] at hlen
          omega
        rw [frame, List.length_append, length_leBytes] at hframe
        omega
  · rintro rfl
    exact h.bytes

end

/-! ## The two systems -/

/-- A connection in bytes and the connection in documents. -/
structure Matches (W : Wiring ι) (c : ι) (l : Cable) (k : Link) : Prop where
  client : l.client = k.client
  dead : l.dead = k.dead
  pending : l.pending = k.pending
  sent : l.sent = k.sent
  requests : Carries W c l.toServer l.requestTags k.requests
  replies : Carries W c l.toClient l.replyTags k.replies

/-- The same threads, and connection by connection the same documents on their way. -/
structure Related (W : Wiring ι) (net : Network ι) (s : System ι) : Prop where
  host : net.host = s.host
  link : ∀ c, Matches W c (net.cable c) (s.link c)
  unclosed : ∀ c, net.closed c = false

omit [DecidableEq ι] in
theorem related_start (W : Wiring ι) : Related W W.start W.deployment.start where
  host := rfl
  link _ := ⟨rfl, rfl, rfl, rfl, Carries.nil, Carries.nil⟩
  unclosed _ := rfl

/-- One connection is set on both sides. -/
theorem Related.matches_set {W : Wiring ι} {net : Network ι} {s : System ι} {c : ι} {l : Cable}
    {k : Link} (h : Related W net s) (hc : Matches W c l k) (u : ι) :
    Matches W u ((net.setCable c l).cable u) ((s.setLink c k).link u) := by
  by_cases hu : u = c
  · rw [hu, Network.setCable_self, System.setLink_self]
    exact hc
  · rw [Network.setCable_other _ _ hu, System.setLink_other _ _ hu]
    exact h.link u

theorem Related.setLink {W : Wiring ι} {net : Network ι} {s : System ι} {c : ι} {l : Cable}
    {k : Link} (h : Related W net s) (hc : Matches W c l k) :
    Related W (net.setCable c l) (s.setLink c k) :=
  ⟨h.host, h.matches_set hc, h.unclosed⟩

/-- The same, after a step of the threads. -/
theorem Related.set {W : Wiring ι} {net : Network ι} {s : System ι} {c : ι} {l : Cable}
    {k : Link} {host : Host ι} (h : Related W net s) (hc : Matches W c l k) :
    Related W ({ net with host := host }.setCable c l) ({ s with host := host }.setLink c k) :=
  ⟨rfl, h.matches_set hc, h.unclosed⟩

section

omit [DecidableEq ι]

variable {W : Wiring ι} {c : ι} {l : Cable} {k : Link} {client : Client} {wire rest : Bytes}
  {tags : List Nat} {tag : Nat} {docs : List (Nat × Node)}

/-- A call writes its request. -/
theorem Matches.write {call : Call} {req : Node} (h : Matches W c l k) (hreq : Emitted req)
    (hwire : wire = frame W.evp (W.key c) (textOf W.yaml req)) :
    Matches W c (l.write client call req wire) (k.write client call req) := by
  obtain ⟨-, hdead, -, hsent, hrequests, hreplies⟩ := h
  refine ⟨rfl, hdead, ?_, ?_, ?_, hreplies⟩
  · rw [Cable.write, Link.write, hsent]
  · rw [Cable.write, Link.write, hsent]
  · rw [Cable.write, Link.write, hsent, hwire]
    exact hrequests.push hreq

/-- An answer is written, or none yet. -/
theorem Carries.answer (hW : W.Sound) {ans : Option Node} (h : Carries W c rest tags docs)
    (hans : ∀ n, ans = some n → Emitted n) (hwire : WritesAnswer W c ans wire) :
    Carries W c (rest ++ wire) (tags ++ ans.toList.map fun _ => tag)
      (docs ++ ans.toList.map fun n => (tag, n)) := by
  cases ans with
  | none =>
      obtain rfl : wire = [] := hwire
      rw [List.append_nil]
      simpa using h
  | some n =>
      have hn := hans n rfl
      rw [(writes_iff hW hn).mp hwire]
      exact h.push hn

/-- The thread is at its request, or at the one it read, and answers it or not. -/
theorem Matches.answered (hW : W.Sound) {ans : Option Node} (h : Matches W c l k)
    (hans : ∀ n, ans = some n → Emitted n) (hwire : WritesAnswer W c ans wire)
    (hrest : Carries W c rest tags docs) :
    Matches W c (l.answered rest tags tag ans wire) (k.answered docs tag ans) :=
  ⟨h.client, h.dead, h.pending, h.sent, hrest, h.replies.answer hW hans hwire⟩

/-- A call read its reply. -/
theorem Matches.done (h : Matches W c l k) (hrest : Carries W c rest tags docs) :
    Matches W c (l.done client rest tags) (k.done client docs) :=
  ⟨rfl, h.dead, rfl, h.sent, h.requests, hrest⟩

end

omit [DecidableEq ι] in
/-- Some bytes are written for every answer. -/
theorem exists_writesAnswer {W : Wiring ι} (hW : W.Sound) (c : ι) {ans : Option Node}
    (hans : ∀ n, ans = some n → Emitted n) : ∃ wire, WritesAnswer W c ans wire := by
  cases ans with
  | none => exact ⟨[], rfl⟩
  | some n => exact ⟨_, (writes_iff hW (hans n rfl)).mpr rfl⟩

/-- A request is an emitted document. -/
theorem emitted_request {client client' : Client} {call : Call} {serverId : String} {req : Node}
    (h : client.send call = .ok (.sent serverId req client')) : Emitted req := by
  obtain ⟨e, hreq⟩ := Client.send_sent h
  rw [hreq.request]
  exact emitted_emitBlock _ _ _

/-- So is a reply. -/
theorem emitted_pass {s : Server} {clientId : String} {msg : Message} {sec : Section}
    (h : s.clientHandler clientId msg = .ok sec) {n : Node} (hn : answer sec = some n) :
    Emitted n := by
  have hsend := outcome_of_answer hn.symm
  rcases Server.clientHandler_cases h with ⟨-, rfl⟩ | ⟨b, m, -, hserved⟩
  · obtain rfl := Outcome.send.inj hsend
    exact emitted_emit _
  · generalize msg.type = t at hserved
    cases hserved with
    | mapped _ _ | entire _ _ | shallow _ _ =>
        obtain rfl := Outcome.send.inj hsend
        exact emitted_emitBlock _ _ _
    | sleeps _ _ => cases hsend
    | _ =>
        obtain rfl := Outcome.send.inj hsend
        exact emitted_emit _

/-- And the reply to a WAIT that slept. -/
theorem emitted_retry {s : Server} {k : Int32} {msg : Message} {sec : Section}
    (h : s.handleWait k msg = .ok sec) {n : Node} (hn : answer sec = some n) : Emitted n := by
  have hsend := outcome_of_answer hn.symm
  rw [Server.handleWait] at h
  split at h
  · obtain rfl := Except.ok.inj h
    obtain rfl := Outcome.send.inj hsend
    exact emitted_emit _
  · split at h
    · cases h
    · split at h
      · obtain rfl := Except.ok.inj h
        cases hsend
      · obtain rfl := Except.ok.inj h
        obtain rfl := Outcome.send.inj hsend
        exact emitted_emit _

/-- **Every framed step on bytes is a step on documents** that shows the same. -/
theorem step_down {W : Wiring ι} (hW : W.Sound) {net net' : Network ι} {s : System ι}
    {e : Event ι} (h : Related W net s) (hs : FramedStep W net e net') :
    ∃ s', DmSystem.Step W.deployment s e s' ∧ Related W net' s' := by
  cases hs with
  | @returned c call code client hidle halive hsend =>
      have hc := h.link c
      rw [hc.pending] at hidle
      rw [hc.dead] at halive
      rw [hc.client] at hsend
      exact ⟨_, .returned hidle halive hsend,
        h.setLink ⟨rfl, hc.dead, hc.pending, hc.sent, hc.requests, hc.replies⟩⟩
  | @sent c call req client wire hidle halive hsend hwire =>
      have hc := h.link c
      have hreq := emitted_request hsend
      rw [hc.pending] at hidle
      rw [hc.dead] at halive
      rw [hc.client] at hsend
      rw [hc.sent]
      exact ⟨_, .sent hidle halive hsend,
        h.setLink (hc.write hreq ((writes_iff hW hreq).mp hwire))⟩
  | @died c call f hidle halive hsend =>
      have hc := h.link c
      rw [hc.pending] at hidle
      rw [hc.dead] at halive
      rw [hc.client] at hsend
      exact ⟨_, .died hidle halive hsend,
        h.setLink ⟨hc.client, rfl, hc.pending, hc.sent, hc.requests, hc.replies⟩⟩
  | @poked c id e d hidle halive he =>
      have hc := h.link c
      rw [hc.pending] at hidle
      rw [hc.dead] at halive
      rw [hc.client] at he ⊢
      exact ⟨_, .poked d hidle halive he,
        h.setLink ⟨rfl, hc.dead, hc.pending, hc.sent, hc.requests, hc.replies⟩⟩
  | @request c tag tags m rest wire sec htags hreading hopen hread hpass hwire =>
      have hc := h.link c
      have hrequests := hc.requests
      rw [htags] at hrequests
      obtain ⟨n, docs, hdocs, rfl, hrest⟩ := hrequests.of_reads hW hread
      rw [h.host] at hreading hpass ⊢
      refine ⟨_, .request hdocs hreading (.first hreading hpass), h.set ?_⟩
      exact hc.answered hW (fun n hn => emitted_pass hpass hn) hwire hrest
  | @retry c tag k msg wire sec hawake hloop hwire =>
      have hc := h.link c
      rw [h.host] at hawake hloop ⊢
      refine ⟨_, .retry hawake (.again hawake hloop), h.set ?_⟩
      exact hc.answered hW (fun n hn => emitted_retry hloop hn) hwire hc.requests
  | @woken c tag k msg hasleep =>
      rw [h.host] at hasleep ⊢
      exact ⟨_, .woken (.spurious hasleep), rfl, h.link, h.unclosed⟩
  | @received c p tag tags m rest code client hp halive htags hread hrecv =>
      have hc := h.link c
      have hreplies := hc.replies
      rw [htags] at hreplies
      obtain ⟨n, docs, hdocs, rfl, hrest⟩ := hreplies.of_reads hW hread
      rw [hc.pending] at hp
      rw [hc.dead] at halive
      rw [hc.client] at hrecv
      exact ⟨_, .received hp halive hdocs hrecv, h.setLink (hc.done hrest)⟩
  | @receivedDied c p tag tags m rest f hp halive htags hread hrecv =>
      have hc := h.link c
      have hreplies := hc.replies
      rw [htags] at hreplies
      obtain ⟨n, docs, hdocs, rfl, hrest⟩ := hreplies.of_reads hW hread
      rw [hc.pending] at hp
      rw [hc.dead] at halive
      rw [hc.client] at hrecv ⊢
      exact ⟨_, .receivedDied hp halive hdocs hrecv,
        h.setLink ⟨rfl, rfl, rfl, hc.sent, hc.requests, hrest⟩⟩
  | @timedOut c p code client hp halive what hnone hread hrecv =>
      have hc := h.link c
      rw [hc.pending] at hp
      rw [hc.dead] at halive
      rw [hc.client] at hrecv
      exact ⟨_, .timedOut hp halive (hc.replies.nil_iff.mp hnone) hrecv,
        h.setLink (hc.done Carries.nil)⟩

/-- **Every step on documents is a framed step on bytes** that shows the same. -/
theorem step_up {W : Wiring ι} (hW : W.Sound) {net : Network ι} {s s' : System ι}
    {e : Event ι} (h : Related W net s) (hs : DmSystem.Step W.deployment s e s') :
    ∃ net', FramedStep W net e net' ∧ Related W net' s' := by
  cases hs with
  | @returned c call code client hidle halive hsend =>
      have hc := h.link c
      rw [← hc.pending] at hidle
      rw [← hc.dead] at halive
      rw [← hc.client] at hsend
      exact ⟨_, .returned hidle halive hsend,
        h.setLink ⟨rfl, hc.dead, hc.pending, hc.sent, hc.requests, hc.replies⟩⟩
  | @sent c call req client hidle halive hsend =>
      have hc := h.link c
      have hreq := emitted_request hsend
      rw [← hc.pending] at hidle
      rw [← hc.dead] at halive
      rw [← hc.client] at hsend
      rw [← hc.sent]
      exact ⟨_, .sent hidle halive hsend ((writes_iff hW hreq).mpr rfl),
        h.setLink (hc.write hreq rfl)⟩
  | @died c call f hidle halive hsend =>
      have hc := h.link c
      rw [← hc.pending] at hidle
      rw [← hc.dead] at halive
      rw [← hc.client] at hsend
      exact ⟨_, .died hidle halive hsend,
        h.setLink ⟨hc.client, rfl, hc.pending, hc.sent, hc.requests, hc.replies⟩⟩
  | @poked c id e d hidle halive he =>
      have hc := h.link c
      rw [← hc.pending] at hidle
      rw [← hc.dead] at halive
      rw [← hc.client] at he ⊢
      exact ⟨_, .poked d hidle halive he,
        h.setLink ⟨rfl, hc.dead, hc.pending, hc.sent, hc.requests, hc.replies⟩⟩
  | @request c tag req docs ans host hdocs hreading hhost =>
      have hc := h.link c
      have hrequests := hc.requests
      rw [hdocs] at hrequests
      obtain ⟨tags, rest, htags, hread, hrest⟩ := hrequests.reads hW
      cases hhost with
      | @first _ _ _ sec hreading' hpass =>
          have hans : ∀ n, answer sec = some n → Emitted n := fun n hn => emitted_pass hpass hn
          obtain ⟨wire, hwire⟩ := exists_writesAnswer hW c hans
          rw [← h.host] at hreading hpass ⊢
          exact ⟨_, .request htags hreading (h.unclosed c) hread hpass hwire,
            h.set (hc.answered hW hans hwire hrest)⟩
      | again hawake hloop =>
          rw [hreading] at hawake
          cases hawake
  | @retry c tag req k msg ans host hawake hhost =>
      have hc := h.link c
      cases hhost with
      | first hreading hpass =>
          rw [hawake] at hreading
          cases hreading
      | @again _ _ k' msg' sec hawake' hloop =>
          have hans : ∀ n, answer sec = some n → Emitted n := fun n hn => emitted_retry hloop hn
          obtain ⟨wire, hwire⟩ := exists_writesAnswer hW c hans
          rw [← h.host] at hawake' hloop ⊢
          exact ⟨_, .retry hawake' hloop hwire,
            h.set (hc.answered hW hans hwire hc.requests)⟩
  | @woken c host hhost =>
      cases hhost with
      | spurious hasleep =>
          rw [← h.host] at hasleep ⊢
          exact ⟨_, .woken hasleep, rfl, h.link, h.unclosed⟩
  | @received c p tag reply docs code client hp halive hdocs hrecv =>
      have hc := h.link c
      have hreplies := hc.replies
      rw [hdocs] at hreplies
      obtain ⟨tags, rest, htags, hread, hrest⟩ := hreplies.reads hW
      rw [← hc.pending] at hp
      rw [← hc.dead] at halive
      rw [← hc.client] at hrecv
      exact ⟨_, .received hp halive htags hread hrecv, h.setLink (hc.done hrest)⟩
  | @receivedDied c p tag reply docs f hp halive hdocs hrecv =>
      have hc := h.link c
      have hreplies := hc.replies
      rw [hdocs] at hreplies
      obtain ⟨tags, rest, htags, hread, hrest⟩ := hreplies.reads hW
      rw [← hc.pending] at hp
      rw [← hc.dead] at halive
      rw [← hc.client] at hrecv ⊢
      exact ⟨_, .receivedDied hp halive htags hread hrecv,
        h.setLink ⟨rfl, rfl, rfl, hc.sent, hc.requests, hrest⟩⟩
  | @timedOut c p code client hp halive hnone hrecv =>
      have hc := h.link c
      rw [← hc.pending] at hp
      rw [← hc.dead] at halive
      rw [← hc.client] at hrecv
      have hempty : (net.cable c).toClient = [] := hc.replies.nil_iff.mpr hnone
      have hread := receive_timedOut W.evp (W.key c) (net.cable c).toClient
      rw [hempty] at hread
      exact ⟨_, .timedOut hp halive hempty (by rw [hempty]; exact ⟨_, _, hread⟩) hrecv,
        h.setLink (hc.done Carries.nil)⟩

/-- No read came short. -/
def Uncut (tr : List (Entry (Network ι) (Option (Event ι)))) : Prop :=
  ∀ t ∈ tr, t.event ≠ none

/-- **The steps of a run without short reads are framed.** -/
theorem framed_of_uncut {W : Wiring ι} {tr : List (Entry (Network ι) (Option (Event ι)))}
    {net : Network ι} (hrun : Run (Step W) W.start tr net) (huncut : Uncut tr) :
    ∃ tr', Run (FramedStep W) W.start tr' net ∧
      (tr'.map Entry.event).map some = tr.map Entry.event := by
  induction hrun with
  | nil => exact ⟨[], Run.nil, rfl⟩
  | @snoc tr net net' e hrun hs ih =>
      obtain ⟨tr', hrun', hevents⟩ := ih fun t ht => huncut t (List.mem_append_left _ ht)
      cases hs with
      | framed hframed =>
          refine ⟨_, hrun'.snoc hframed, ?_⟩
          rw [List.map_append, List.map_append, List.map_append, hevents]
          rfl
      | _ => exact absurd rfl (huncut _ (List.mem_append_right _ List.mem_cons_self))

/-- Framed steps are steps of a run without short reads. -/
theorem run_of_framed {W : Wiring ι} {tr : List (Entry (Network ι) (Event ι))}
    {net : Network ι} (hrun : Run (FramedStep W) W.start tr net) :
    ∃ tr', Run (Step W) W.start tr' net ∧
      tr'.map Entry.event = (tr.map Entry.event).map some := by
  induction hrun with
  | nil => exact ⟨[], Run.nil, rfl⟩
  | @snoc tr net net' e hrun hs ih =>
      obtain ⟨tr', hrun', hevents⟩ := ih
      refine ⟨_, hrun'.snoc (.framed hs), ?_⟩
      rw [List.map_append, List.map_append, List.map_append, hevents]
      rfl

/-- **The system over bytes and the system over documents have the same runs**, as long as no
    read comes short: each run of either is matched by one of the other that shows the same,
    ends with the same threads and the same clients, and has the same documents on their
    way. -/
theorem wire_traces {W : Wiring ι} (hW : W.Sound) :
    (∀ tr net, Run (Step W) W.start tr net → Uncut tr →
      ∃ tr' s, SysRun W.deployment tr' s ∧ Related W net s ∧
        (tr'.map Entry.event).map some = tr.map Entry.event) ∧
    ∀ tr s, SysRun W.deployment tr s →
      ∃ tr' net, Run (Step W) W.start tr' net ∧ Related W net s ∧
        tr'.map Entry.event = (tr.map Entry.event).map some := by
  constructor
  · intro tr net hrun huncut
    obtain ⟨tr', hrun', hevents'⟩ := framed_of_uncut hrun huncut
    obtain ⟨tr'', s, hsys, hrel, hevents⟩ :=
      hrun'.simulateEach (related_start W) fun _ _ _ _ hrel hs => step_down hW hrel hs
    exact ⟨tr'', s, hsys, hrel, by rw [hevents, hevents']⟩
  · intro tr s hrun
    obtain ⟨tr', net, hframed, hrel, hevents'⟩ :=
      hrun.simulateEach (R := fun s net => Related W net s) (related_start W)
        fun _ _ _ _ hrel hs => step_up hW hrel hs
    obtain ⟨tr'', hnet, hevents⟩ := run_of_framed hframed
    exact ⟨tr'', net, hnet, hrel, by rw [hevents, hevents']⟩

/-- Two clients of one server, with flow text on the wire and one session key for both. -/
def twoCables : Wiring Bool where
  deployment := twoClients
  yaml := flowYaml
  evp := ackCipher
  key := fun _ => countingKey

theorem twoCables_sound : twoCables.Sound where
  inverts _ := ackCipher_inverts countingKey
  rereads := rereads_flowYaml
  short _ hn := short_flowYaml hn

/-- A client maps block 7. -/
def mapOnce : List (Action Bool) :=
  [.call false (.map 7 (Data.memset 1)), .serve false, .receive false]

theorem wire_traces_mapOnce :
    ∃ tr net, Run (Step twoCables) twoCables.start tr net ∧ tr.length = 3 ∧
      ((net.cable false).client.blocks 7).isSome = true ∧
      ∃ tr' s, SysRun twoClients tr' s ∧ Related twoCables net s ∧
        (tr'.map Entry.event).map some = tr.map Entry.event := by
  obtain ⟨q, hq, hfacts⟩ := Option.map_eq_some_iff.mp (show
    (exec (next twoClients) twoClients.start mapOnce).map
      (fun q => (q.1.length, ((q.2.link false).client.blocks 7).isSome)) = some (3, true) by
        decide +kernel)
  obtain ⟨hlen, hmapped⟩ := Prod.mk.inj hfacts
  have hrun := run_of_exec _ (DmSystem.next_sound _) mapOnce _ hq
  obtain ⟨tr, net, hnet, hrel, hevents⟩ := (wire_traces twoCables_sound).2 q.1 q.2 hrun
  have huncut : Uncut tr := by
    intro t ht hnone
    have hin := List.mem_map_of_mem (f := Entry.event) ht
    rw [hevents, hnone] at hin
    obtain ⟨e, -, he⟩ := List.mem_map.mp hin
    cases he
  refine ⟨tr, net, hnet, ?_, ?_, (wire_traces twoCables_sound).1 tr net hnet huncut⟩
  · rw [← List.length_map (f := Entry.event), hevents, List.length_map, List.length_map, hlen]
  · rw [(hrel.link false).client]
    exact hmapped

end DmWire
