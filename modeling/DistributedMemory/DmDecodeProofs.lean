import DistributedMemory.DmTextProofs

/-!
# Decoding — what a message object gives of the texts it was given

A `Message` is made from a text, may be given others, and is asked for its type and its
block in between. The block is decoded when it is first asked for and kept.

* **`decode`** — the block of a document; **`observed`** — what `block()` refers to: the
  kept block, or else the decoded one.
* **`parse_emitted`** — decoding undoes emitting.
* **`create_exact_iff`** — a message yields exact blocks and no others if and only if its
  document's block, where it has an id, is well formed.
* **`along_fresh_iff`** — an object given one text after another answers like a fresh one
  if and only if no text finds a block or a document that it does not drop.
-/

namespace DmDecode

open DmBlock DmMessage DmText

/-! ## What `block()` refers to -/

/-- The block of a document. -/
def decode (n : Node) : Except Fault (Option BlockServer) :=
  match n.block with
  | none => .ok none
  | some bn =>
      match Message.readBlock bn with
      | .error f => .error f
      | .ok b => .ok (some b)

/-- The block that `block()` returns a reference to; the object it leaves is not looked
    at. -/
def observed (m : Message) : Except Fault (Option BlockServer) :=
  match m.block with
  | .error f => .error f
  | .ok (b, _) => .ok b

theorem decode_of_none {n : Node} (h : n.block = none) : decode n = .ok none := by
  rw [decode, h]

theorem decode_eq_none_iff (n : Node) : decode n = .ok none ↔ n.block = none := by
  constructor
  · intro h
    cases hn : n.block with
    | none => rfl
    | some bn =>
        rw [decode, hn] at h
        cases hr : Message.readBlock bn with
        | error f => simp [hr] at h
        | ok b => simp [hr] at h
  · exact decode_of_none

/-- A block that is kept is referred to as it is. -/
theorem observed_of_kept {m : Message} {b : BlockServer} (h : m.mBlock = some b) :
    observed m = .ok (some b) := by
  rw [observed, Message.block, h]

/-- An object that keeps no block decodes its document's, and keeps it. -/
theorem block_of_none {m : Message} (h : m.mBlock = none) :
    m.block = match decode m.node with
      | .error f => .error f
      | .ok b => .ok (b, ⟨m.node, b⟩) := by
  obtain ⟨n, kept⟩ := m
  obtain rfl : kept = none := h
  rw [Message.block, decode]
  cases hn : n.block with
  | none => simp
  | some bn =>
      cases hr : Message.readBlock bn with
      | error f => simp [hr]
      | ok b => simp [hr]

theorem observed_of_none {m : Message} (h : m.mBlock = none) :
    observed m = decode m.node := by
  rw [observed, block_of_none h]
  cases decode m.node <;> rfl

/-! ## Emitted messages -/

/-- The library reads what it wrote of a message, `STOP` behind it. -/
structure Rereads (yaml : YamlCpp) : Prop where
  type (old : Node) (t : MessageType) :
    yaml.getNextDocument old (yaml.emitter (emit t) ++ STOP) = .document (emit t)
  block (old : Node) (t : MessageType) (b : Block) (shallow : Bool) :
    yaml.getNextDocument old (yaml.emitter (emitBlock t b shallow) ++ STOP) =
      .document (emitBlock t b shallow)

theorem rereads_flowYaml : Rereads flowYaml where
  type old t := by
    refine flowYaml_rereads old ?_
    rintro s ⟨⟩
    exact isWord_typeToString t
  block old t b shallow := by
    refine flowYaml_rereads old ?_
    rintro s ⟨⟩
    exact isWord_typeToString t

/-- A text with `STOP` behind it is parsed. -/
theorem create_stop (yaml : YamlCpp) (text : String) :
    Message.create yaml (text ++ STOP) =
      (Message.ofNode Node.null).parse yaml (text ++ STOP) := by
  have hne : (text ++ STOP).isEmpty = false := by
    refine Bool.eq_false_iff.mpr fun h => ?_
    have hnil : (text ++ STOP).toList = [] := by
      rw [String.isEmpty_iff.mp h]
      rfl
    rw [String.toList_append] at hnil
    exact absurd (List.append_eq_nil_iff.mp hnil).2 (by decide)
  rw [Message.create, hne]
  rfl

/-- A document that is found is all an object has of it. -/
theorem parse_document {yaml : YamlCpp} {m : Message} {text : String} {n : Node}
    (h : yaml.getNextDocument m.node text = .document n) :
    m.parse yaml text = Message.ofNode n := by
  rw [Message.parse, h]
  rfl

/-- The bytes a receiver has of an emitted block: zeros where none were sent. -/
theorem decoded_bytes (b : Block) (shallow : Bool) :
    (Message.decoded b shallow).data.bytes =
      match shallow, b.data with
      | false, some d => d.bytes
      | _, _ => List.replicate dimBlock 0 := by
  obtain ⟨id, rev, data⟩ := b
  cases shallow with
  | true => rfl
  | false => cases data <;> rfl

theorem observed_emitBlock (t : MessageType) (b : Block) (shallow : Bool) :
    observed (Message.ofNode (emitBlock t b shallow)) =
      .ok (some (Message.decoded b shallow)) := by
  have h := Message.deref_emitBlock t b shallow
  rw [Message.deref] at h
  rw [observed]
  cases hblock : (Message.ofNode (emitBlock t b shallow)).block with
  | error f => simp [hblock] at h
  | ok p =>
      obtain ⟨found, m⟩ := p
      cases found with
      | none => simp [hblock] at h
      | some d =>
          simp only [hblock, Except.ok.injEq, Prod.mk.injEq] at h
          rw [h.1]

/-- **Decoding undoes encoding.** A message made from an emitted text, or an object given
    it, has the type that was emitted; it has the block that was emitted, with zeros for
    bytes that were not sent, and no block where none was emitted. -/
theorem parse_emitted {yaml : YamlCpp} (h : Rereads yaml) (t : MessageType) (m : Message) :
    (∀ (b : Block) (shallow : Bool),
      let text := yaml.emitter (emitBlock t b shallow) ++ STOP
      ∀ m' ∈ [Message.create yaml text, m.parse yaml text], m'.type = t ∧
        ∃ d, observed m' = .ok (some d) ∧ d.id = b.id ∧ d.revision = b.revision ∧
          d.data.bytes =
            match shallow, b.data with
            | false, some sent => sent.bytes
            | _, _ => List.replicate dimBlock 0) ∧
      (let text := yaml.emitter (emit t) ++ STOP
      ∀ m' ∈ [Message.create yaml text, m.parse yaml text],
        m'.type = t ∧ observed m' = .ok none) := by
  constructor
  · intro b shallow text m' hm'
    have hnode : m' = Message.ofNode (emitBlock t b shallow) := by
      rcases List.mem_pair.mp hm' with rfl | rfl
      · rw [create_stop]
        exact parse_document (h.block _ t b shallow)
      · exact parse_document (h.block _ t b shallow)
    rw [hnode]
    exact ⟨Message.type_emitBlock t b shallow, Message.decoded b shallow,
      observed_emitBlock t b shallow, rfl, rfl, decoded_bytes b shallow⟩
  · intro text m' hm'
    have hnode : m' = Message.ofNode (emit t) := by
      rcases List.mem_pair.mp hm' with rfl | rfl
      · rw [create_stop]
        exact parse_document (h.type _ t)
      · exact parse_document (h.type _ t)
    rw [hnode]
    exact ⟨Message.type_emit t, (observed_of_none rfl).trans (decode_of_none rfl)⟩

/-- Content that has every byte from 127 down to 0. -/
def countdown : Data where
  bytes := (List.range dimBlock).reverse.map UInt8.ofNat
  size_eq := by rw [List.length_map, List.length_reverse, List.length_range]

/-- A block with a negative revision and differing bytes through the text. -/
theorem parse_emitted_sample :
    ∃ d, observed (Message.create flowYaml
        (flowYaml.emitter (emitBlock .map ⟨1234, -5, some countdown⟩ false) ++ STOP)) =
          .ok (some d) ∧
      d.id = 1234 ∧ d.revision = -5 ∧ d.data.bytes = countdown.bytes := by
  have h := (parse_emitted rereads_flowYaml .map (Message.ofNode Node.null)).1
    ⟨1234, -5, some countdown⟩ false _ List.mem_cons_self
  exact h.2

/-! ## Exact blocks -/

/-- `block()`, after it was called some times before. -/
def blockAgain : Nat → Message → Except Fault (Option BlockServer × Message)
  | 0, m => m.block
  | k + 1, m =>
      match m.block with
      | .error f => .error f
      | .ok (_, m') => blockAgain k m'

/-- The revision, if there is one, is an integer, and the data, if there are any, are a
    block's bytes exactly. -/
def WellFormed (n : BlockNode) : Prop :=
  n.revision ≠ .illTyped ∧ n.data ≠ .illTyped ∧
    ∀ bytes, n.data = .value bytes → bytes.length = dimBlock

/-- The block has the values of its node, and the constructor's where there are none. -/
def HasValues (b : BlockServer) (n : BlockNode) : Prop :=
  b.id = n.id ∧
    (∀ r, n.revision = .value r → b.revision = r) ∧
    (n.revision = .absent → b.revision = 0) ∧
    (∀ bytes, n.data = .value bytes → b.data.bytes = bytes) ∧
    (n.data = .absent → b.data.bytes = List.replicate dimBlock 0)

/-- Every call of `block()` yields a well-formed block with its values, and none for any
    other document; none copies past the data. -/
def Exact (m : Message) : Prop :=
  ∀ k, ∃ found m', blockAgain k m = .ok (found, m') ∧
    match found with
    | some b => ∃ n, m.node.block = some n ∧ WellFormed n ∧ HasValues b n
    | none => ∀ n, m.node.block = some n → ¬ WellFormed n

/-- A kept block is found by every call. -/
theorem blockAgain_of_kept {m : Message} {b : BlockServer} (h : m.mBlock = some b) (k : Nat) :
    blockAgain k m = .ok (some b, m) := by
  have hblock : m.block = .ok (some b, m) := by rw [Message.block, h]
  induction k with
  | zero => exact hblock
  | succ k ih =>
      rw [blockAgain, hblock]
      exact ih

/-- Every call finds what the first one does, and no call finds anything else. -/
theorem blockAgain_eq {m : Message} (h : m.mBlock = none) (k : Nat) :
    blockAgain k m = match decode m.node with
      | .error f => .error f
      | .ok b => .ok (b, ⟨m.node, b⟩) := by
  have hblock := block_of_none h
  cases hd : decode m.node with
  | error f =>
      rw [hd] at hblock
      cases k with
      | zero => exact hblock
      | succ k => rw [blockAgain, hblock]
  | ok found =>
      rw [hd] at hblock
      cases found with
      | some b =>
          cases k with
          | zero => exact hblock
          | succ k =>
              rw [blockAgain, hblock]
              exact blockAgain_of_kept rfl k
      | none =>
          -- nothing is kept, and the next call looks again
          obtain ⟨n, kept⟩ := m
          obtain rfl : kept = none := h
          induction k with
          | zero => exact hblock
          | succ k ih =>
              rw [blockAgain, hblock]
              exact ih

/-- The copy of data of a block's length into a new block gives the data. -/
theorem readData_exact {b : BlockServer} {f : DmMessage.Field (List UInt8)}
    (hzero : b.data = Data.memset 0) (htyped : f ≠ .illTyped)
    (hlen : ∀ bytes, f = .value bytes → bytes.length = dimBlock) :
    ∃ b', Message.readData b f = .ok b' ∧ b'.id = b.id ∧ b'.revision = b.revision ∧
      (∀ bytes, f = .value bytes → b'.data.bytes = bytes) ∧
      (f = .absent → b'.data.bytes = List.replicate dimBlock 0) := by
  cases f with
  | absent =>
      refine ⟨b, rfl, rfl, rfl, nofun, fun _ => ?_⟩
      rw [hzero]
      rfl
  | illTyped => exact absurd rfl htyped
  | value bytes =>
      cases hd : Data.memcpy bytes with
      | none =>
          have hlt := (Data.memcpy_eq_none_iff bytes).mp hd
          rw [hlen bytes rfl] at hlt
          exact absurd hlt (Nat.lt_irrefl _)
      | some d =>
          refine ⟨{ b with data := d }, by rw [Message.readData, hd], rfl, rfl, ?_, nofun⟩
          rintro bytes' heq
          obtain rfl := DmMessage.Field.value.inj heq
          exact Data.bytes_of_memcpy hd (hlen bytes rfl)

/-- A well-formed block is decoded with its values. -/
theorem readBlock_exact {n : BlockNode} (h : WellFormed n) :
    ∃ b, Message.readBlock n = .ok b ∧ HasValues b n := by
  obtain ⟨hrev, htyped, hlen⟩ := h
  cases hr : n.revision with
  | illTyped => exact absurd hr hrev
  | absent =>
      obtain ⟨b, hb, hid, hzero, hdata⟩ :=
        readData_exact (b := BlockServer.create n.id) rfl htyped hlen
      refine ⟨b, by rw [Message.readBlock, hr]; exact hb, hid, ?_, fun _ => hzero, hdata⟩
      intro r heq
      rw [hr] at heq
      cases heq
  | value r =>
      obtain ⟨b, hb, hid, hvalue, hdata⟩ :=
        readData_exact (b := { BlockServer.create n.id with revision := r }) rfl htyped hlen
      refine ⟨b, by rw [Message.readBlock, hr]; exact hb, hid, ?_, ?_, hdata⟩
      · intro r' heq
        rw [hr] at heq
        rw [← DmMessage.Field.value.inj heq]
        exact hvalue
      · intro heq
        rw [hr] at heq
        cases heq

/-- A block with an id is decoded, well formed or not, or the copy leaves the data. -/
theorem decode_ne_none {n : Node} {bn : BlockNode} (h : n.block = some bn) :
    decode n ≠ .ok none := by
  intro hnone
  rw [(decode_eq_none_iff n).mp hnone] at h
  exact nomatch h

/-- An object that keeps no block is exact if and only if the block it would decode is well
    formed. -/
theorem exact_iff_of_none {m : Message} (h : m.mBlock = none) :
    Exact m ↔ ∀ n, m.node.block = some n → WellFormed n := by
  constructor
  · intro hexact n hn
    obtain ⟨found, m', hfound, hmatch⟩ := hexact 0
    rw [blockAgain_eq h] at hfound
    cases hd : decode m.node with
    | error f =>
        rw [hd] at hfound
        exact nomatch hfound
    | ok found' =>
        rw [hd] at hfound
        obtain ⟨rfl, -⟩ := Prod.mk.inj (Except.ok.inj hfound)
        cases found' with
        | none => exact absurd hd (decode_ne_none hn)
        | some b =>
            obtain ⟨n', hn', hwf, -⟩ := hmatch
            obtain rfl : n = n' := Option.some.inj (hn.symm.trans hn')
            exact hwf
  · intro hwf k
    rw [blockAgain_eq h]
    cases hn : m.node.block with
    | none =>
        rw [decode_of_none hn]
        exact ⟨none, _, rfl, nofun⟩
    | some n =>
        obtain ⟨b, hb, hvalues⟩ := readBlock_exact (hwf n hn)
        have hd : decode m.node = .ok (some b) := by
          rw [decode, hn]
          simp only [hb]
        rw [hd]
        exact ⟨some b, _, rfl, n, rfl, hwf n hn, hvalues⟩

/-- **A message yields exact blocks and no others** if and only if its text has no block
    with an integer id, or a well-formed one. -/
theorem create_exact_iff (yaml : YamlCpp) (text : String) :
    Exact (Message.create yaml text) ↔
      ∀ n, (Message.create yaml text).node.block = some n → WellFormed n := by
  obtain ⟨n, hn⟩ := Message.create_eq yaml text
  rw [hn]
  exact exact_iff_of_none rfl

/-- The revision `x` of this text is no integer. -/
def badRevision : String :=
  "\x7btype: ACK, block: \x7bid: 7, revision: x\x7d\x7d"

theorem node_badRevision :
    (Message.create flowYaml badRevision).node = ⟨some "ACK", some ⟨7, .illTyped, .absent⟩⟩ := by
  decide +kernel

/-- Its block is half decoded when the exception comes, and yielded all the same. -/
theorem badRevision_not_exact :
    observed (Message.create flowYaml badRevision) = .ok (some (BlockServer.create 7)) ∧
      ¬ Exact (Message.create flowYaml badRevision) := by
  have hnode := node_badRevision
  obtain ⟨n, hn⟩ := Message.create_eq flowYaml badRevision
  rw [hn] at hnode ⊢
  obtain rfl : n = ⟨some "ACK", some ⟨7, .illTyped, .absent⟩⟩ := hnode
  refine ⟨observed_of_none rfl, fun hexact => ?_⟩
  exact ((exact_iff_of_none rfl).mp hexact _ rfl).1 rfl

/-! ## One object, one text after another -/

/-- What is done with an object. -/
inductive Use where
  | parse (text : String)
  | type
  | block

/-- `parse` and `block` change the object, `type` does not. -/
def use (yaml : YamlCpp) (m : Message) : Use → Except Fault Message
  | .parse text => .ok (m.parse yaml text)
  | .type => .ok m
  | .block =>
      match m.block with
      | .error f => .error f
      | .ok (_, m') => .ok m'

/-- The statement `P` of an object and the text it is given holds at each text of a run. -/
def Along (yaml : YamlCpp) (P : Message → String → Prop) : Message → List Use → Prop
  | _, [] => True
  | m, u :: us =>
      (∀ text, u = .parse text → P m text) ∧ ∀ m', use yaml m u = .ok m' → Along yaml P m' us

/-- The objects before each text of a run. -/
theorem along_iff (yaml : YamlCpp) {P Q : Message → String → Prop}
    (h : ∀ m text, P m text ↔ Q m text) (m : Message) (us : List Use) :
    Along yaml P m us ↔ Along yaml Q m us := by
  induction us generalizing m with
  | nil => exact Iff.rfl
  | cons u us ih =>
      refine and_congr (forall_congr' fun text => imp_congr Iff.rfl (h m text)) ?_
      exact forall_congr' fun m' => imp_congr Iff.rfl (ih m')

/-- What the library does is decided by the text, up to what it leaves when it throws; the
    empty text has no document. -/
structure Documented (yaml : YamlCpp) : Prop where
  document {old : Node} {text : String} {n : Node}
    (h : yaml.getNextDocument old text = .document n) (old' : Node) :
    yaml.getNextDocument old' text = .document n
  nothing {old : Node} {text : String} (h : yaml.getNextDocument old text = .nothing)
    (old' : Node) : yaml.getNextDocument old' text = .nothing
  empty (old : Node) : yaml.getNextDocument old "" = .nothing

/-- Type and block after the text are those of an object made from it. -/
def Fresh (yaml : YamlCpp) (m : Message) (text : String) : Prop :=
  (m.parse yaml text).type = (Message.create yaml text).type ∧
    observed (m.parse yaml text) = observed (Message.create yaml text)

/-- There is nothing the object keeps: the text has a document; or it has none, and the
    object has neither type nor block from before; or it is malformed, and the library leaves
    the type it leaves in a new object, and its block unless another is kept. -/
def Forgets (yaml : YamlCpp) (m : Message) (text : String) : Prop :=
  match yaml.getNextDocument m.node text, yaml.getNextDocument Node.null text with
  | .document _, _ => True
  | .nothing, _ => m.type = .undef ∧ m.node.block = none
  | .throws left, .throws left' =>
      (Message.ofNode left).type = (Message.ofNode left').type ∧
        match m.mBlock with
        | none => decode left = decode left'
        | some b => decode left' = .ok (some b)
  | .throws _, _ => True

/-- An object made from a text is one given the text. -/
theorem create_eq_parse {yaml : YamlCpp} (h : Documented yaml) (text : String) :
    Message.create yaml text = (Message.ofNode Node.null).parse yaml text := by
  rw [Message.create]
  split
  case isTrue hempty =>
    rw [String.isEmpty_iff.mp hempty, Message.parse, h.empty]
    rfl
  case isFalse => rfl

/-- **One text**: the object answers like a fresh one exactly where it forgets. -/
theorem fresh_iff_forgets {yaml : YamlCpp} (h : Documented yaml) (m : Message) (text : String) :
    Fresh yaml m text ↔ Forgets yaml m text := by
  rw [Fresh, Forgets, create_eq_parse h]
  have hnull : (Message.ofNode Node.null).node = Node.null := rfl
  rw [Message.parse, Message.parse, hnull]
  cases hread : yaml.getNextDocument m.node text with
  | document n =>
      rw [h.document hread Node.null]
      exact iff_of_true ⟨rfl, rfl⟩ trivial
  | nothing =>
      rw [h.nothing hread Node.null]
      dsimp only
      rw [observed_of_none rfl, observed_of_none rfl]
      refine and_congr (Eq.congr_right rfl) ?_
      exact decode_eq_none_iff m.node
  | throws left =>
      cases hread' : yaml.getNextDocument Node.null text with
      | document n =>
          rw [h.document hread' m.node] at hread
          cases hread
      | nothing =>
          rw [h.nothing hread' m.node] at hread
          cases hread
      | throws left' =>
          have hfresh : observed ⟨left', (Message.ofNode Node.null).mBlock⟩ = decode left' :=
            observed_of_none rfl
          dsimp only
          rw [hfresh]
          refine and_congr Iff.rfl ?_
          cases hkept : m.mBlock with
          | none => rw [observed_of_none rfl]
          | some b =>
              rw [observed_of_kept rfl]
              exact eq_comm

/-- **A reused object remembers nothing** exactly in the runs where each text finds nothing
    it would keep. -/
theorem along_fresh_iff {yaml : YamlCpp} (h : Documented yaml) (first : String)
    (us : List Use) :
    Along yaml (Fresh yaml) (Message.create yaml first) us ↔
      Along yaml (Forgets yaml) (Message.create yaml first) us :=
  along_iff yaml (fresh_iff_forgets h) _ us

theorem documented_flowYaml : Documented flowYaml where
  document := by
    intro old text n h old'
    cases hread : FlowText.readDocument text.toList with
    | one t =>
        simp only [flowYaml, hread] at h ⊢
        exact h
    | none => simp [flowYaml, hread] at h
    | malformed => simp [flowYaml, hread] at h
  nothing := by
    intro old text h old'
    cases hread : FlowText.readDocument text.toList with
    | one t => simp [flowYaml, hread] at h
    | none => simp only [flowYaml, hread]
    | malformed => simp [flowYaml, hread] at h
  empty := by
    intro old
    have hnone : FlowText.readDocument "".toList = .none := FlowText.readDocument_blanks rfl
    simp only [flowYaml, hnone]

/-- Blocks are answered for with this text. -/
def ackSeven : String := "\x7btype: ACK, block: \x7bid: 7\x7d\x7d"

/-- Its document. -/
def nodeSeven : Node := ⟨some "ACK", some ⟨7, .absent, .absent⟩⟩

theorem along_fresh_iff_seven :
    Along flowYaml (Fresh flowYaml) (Message.create flowYaml "")
        [.parse ackSeven, .type, .block, .parse ackSeven] ↔
      Along flowYaml (Forgets flowYaml) (Message.create flowYaml "")
        [.parse ackSeven, .type, .block, .parse ackSeven] :=
  along_fresh_iff documented_flowYaml "" _

/-- A text that is no document leaves the kept block where it is: the object still yields
    the block of the text before. A new object has none. -/
theorem malformed_keeps_block :
    Documented flowYaml ∧
      ¬ Along flowYaml (Fresh flowYaml) (Message.create flowYaml "")
        [.parse ackSeven, .block, .parse "\x7d"] := by
  refine ⟨documented_flowYaml, fun hrun => ?_⟩
  have hparse : (Message.create flowYaml "").parse flowYaml ackSeven = Message.ofNode nodeSeven := by
    decide +kernel
  have hkept := hrun.2 _ rfl
  rw [hparse] at hkept
  have hfresh : observed (Message.parse flowYaml ⟨nodeSeven, some (BlockServer.create 7)⟩ "\x7d") =
      observed (Message.create flowYaml "\x7d") := ((hkept.2 _ rfl).1 _ rfl).2
  have hthrows : Message.parse flowYaml ⟨nodeSeven, some (BlockServer.create 7)⟩ "\x7d" =
      ⟨nodeSeven, some (BlockServer.create 7)⟩ := by decide +kernel
  have hnew : Message.create flowYaml "\x7d" = Message.ofNode Node.null := by decide +kernel
  rw [hthrows, hnew, observed_of_kept rfl, observed_of_none rfl] at hfresh
  exact nomatch hfresh

end DmDecode
