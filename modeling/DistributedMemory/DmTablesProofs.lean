import Mathlib.Data.String.Basic
import DistributedMemory.RunProofs
import DistributedMemory.OrderedMapProofs
import DistributedMemory.DmDecodeProofs

/-!
# The name tables — what a process keeps of the messages it has seen

`string_to_type` and `type_to_string` are static: every message of a process uses them. They
are filled when they are found empty, and both are read with `operator[]`, which enters a
key that it does not find.

* **`typeIn`**, **`emitIn`**, **`emitBlockIn`** — `type` and `emit`, with the tables;
  **`Step`** — a process that makes, parses, asks and emits messages.
* **`run_holds`** — what the tables hold after any run.
* **`unaltered_iff`** — they are what `maps_initializer` made them exactly if no message was
  asked for a type that has no name.
-/

namespace DmTables

open DmBlock DmMessage LabelledRun OrderedMap

/-! ## The tables -/

/-- The numbers of the enumeration, which `map<MessageType,string>` is ordered by. -/
def value : MessageType → Nat
  | .map => 1
  | .unmap => 2
  | .update => 3
  | .write => 4
  | .wait => 5
  | .ack => 6
  | .nack => 7
  | .undef => 0

theorem value_injective : Function.Injective value := by
  intro s t h
  cases s <;> cases t <;> first | rfl | exact absurd h (by decide)

scoped instance : LinearOrder MessageType := LinearOrder.lift' value value_injective

/-- `string_to_type` and `type_to_string`. -/
structure Tables where
  stringToType : List (String × MessageType)
  typeToString : List (MessageType × String)
  deriving DecidableEq

/-- The tables before anything was done. -/
def Tables.empty : Tables := ⟨[], []⟩

/-- The order in which `maps_initializer` enters the types. -/
def messageTypes : List MessageType :=
  [.map, .unmap, .update, .write, .wait, .ack, .nack, .undef]

/-- `maps_initializer`. -/
def mapsInitializer (t : Tables) : Tables where
  stringToType :=
    if t.stringToType.length = 0 then
      DmMessage.stringToType.foldl (fun m p => insert m p.1 p.2) t.stringToType
    else t.stringToType
  typeToString :=
    if t.typeToString.length = 0 then
      messageTypes.foldl (fun m type => insert m type (DmMessage.typeToString type))
        t.typeToString
    else t.typeToString

/-- The tables as `maps_initializer` sets them up. -/
def Tables.names : Tables := mapsInitializer .empty

/-- `type()`: a string that has no entry gets one, with the type whose number is 0. -/
def typeIn (t : Tables) (m : Message) : MessageType × Tables :=
  match m.node.type with
  | none => (.undef, t)
  | some s =>
      let found := index t.stringToType s .undef
      (found.1, { t with stringToType := found.2 })

/-- `emit(MessageType)`: the document, with the string that the table has for the type. -/
def emitIn (t : Tables) (type : MessageType) : Node × Tables :=
  let t := mapsInitializer t
  let found := index t.typeToString type ""
  ({ emit type with type := some found.1 }, { t with typeToString := found.2 })

/-- `emit(MessageType, const Block&, bool)`. -/
def emitBlockIn (t : Tables) (type : MessageType) (block : Block) (shallow : Bool) :
    Node × Tables :=
  let t := mapsInitializer t
  let found := index t.typeToString type ""
  ({ emitBlock type block shallow with type := some found.1 }, { t with typeToString := found.2 })

/-! ## The names -/

theorem names_stringToType :
    Tables.names.stringToType =
      [("ACK", .ack), ("MAP", .map), ("NACK", .nack), ("UNDEF", .undef), ("UNMAP", .unmap),
       ("UPDATE", .update), ("WAIT", .wait), ("WRITE", .write)] := by
  decide +kernel

theorem names_typeToString :
    Tables.names.typeToString =
      [(.undef, "UNDEF"), (.map, "MAP"), (.unmap, "UNMAP"), (.update, "UPDATE"),
       (.write, "WRITE"), (.wait, "WAIT"), (.ack, "ACK"), (.nack, "NACK")] := by
  decide +kernel

theorem mem_names (s : String) (type : MessageType) :
    (s, type) ∈ Tables.names.stringToType ↔ s = typeToString type := by
  rw [names_stringToType]
  cases type <;> simp [typeToString]

theorem mem_names_types (s : String) (type : MessageType) :
    (type, s) ∈ Tables.names.typeToString ↔ s = typeToString type := by
  rw [names_typeToString]
  cases type <;> simp [typeToString]

/-- **Eight entries each, and each table is the inverse of the other.** -/
theorem names_inverse :
    Tables.names.stringToType.length = 8 ∧ Tables.names.typeToString.length = 8 ∧
      ∀ s type, (s, type) ∈ Tables.names.stringToType ↔
        (type, s) ∈ Tables.names.typeToString := by
  refine ⟨?_, ?_, fun s type => (mem_names s type).trans (mem_names_types s type).symm⟩
  · rw [names_stringToType]
    rfl
  · rw [names_typeToString]
    rfl

/-- One of the eight names. -/
def IsName (s : String) : Prop := ∃ type, s = typeToString type

/-- What is no name reads as `UNDEF`. -/
theorem typeOfString_of_not_name {s : String} (h : ¬ IsName s) : typeOfString s = .undef := by
  have hnames : ∀ p ∈ DmMessage.stringToType, p.1 = typeToString p.2 := by decide
  have hnone : DmMessage.stringToType.lookup s = none := by
    refine List.lookup_eq_none_iff.mpr fun p hp => ?_
    refine bne_iff_ne.mpr fun heq => h ⟨p.2, ?_⟩
    rw [heq]
    exact hnames p hp
  rw [typeOfString, hnone]
  rfl

/-! ## What the tables hold -/

/-- The tables hold the names, and the strings `asked` for that are no names as `UNDEF`. -/
structure Holds (asked : String → Prop) (t : Tables) : Prop where
  sorted : Sorted t.stringToType
  mem : ∀ s type, (s, type) ∈ t.stringToType ↔
    s = typeToString type ∨ (type = .undef ∧ ¬ IsName s ∧ asked s)
  typeToString : t.typeToString = Tables.names.typeToString

variable {asked : String → Prop} {t : Tables}

/-- The tables are as they were made. -/
theorem names_holds : Holds (fun _ => False) Tables.names where
  sorted := by
    rw [names_stringToType]
    unfold Sorted
    decide +kernel
  mem s type := by
    rw [mem_names]
    exact ⟨Or.inl, fun h => h.resolve_right fun hnew => hnew.2.2⟩
  typeToString := rfl

theorem Holds.congr {asked' : String → Prop} (h : Holds asked t)
    (heq : ∀ s, asked' s ↔ asked s) : Holds asked' t := by
  refine ⟨h.sorted, fun s type => (h.mem s type).trans ?_, h.typeToString⟩
  rw [heq s]

/-- An entry says what its string reads as. -/
theorem Holds.typeOfString_eq (h : Holds asked t) {s : String} {type : MessageType}
    (hin : (s, type) ∈ t.stringToType) : typeOfString s = type := by
  rcases (h.mem s type).mp hin with rfl | ⟨rfl, hno, -⟩
  · exact typeOfString_typeToString type
  · exact typeOfString_of_not_name hno

/-- Tables that are not empty are left alone. -/
theorem Holds.initialized (h : Holds asked t) : mapsInitializer t = t := by
  have hstrings : t.stringToType.length ≠ 0 := by
    have hin : ("MAP", .map) ∈ t.stringToType := (h.mem _ _).mpr (Or.inl rfl)
    exact Nat.ne_of_gt (List.length_pos_of_mem hin)
  have htypes : t.typeToString.length ≠ 0 := by
    rw [h.typeToString, names_typeToString]
    decide
  rw [mapsInitializer, if_neg hstrings, if_neg htypes]

/-- **The tables are unaltered** exactly if only names were asked for. -/
theorem Holds.eq_names_iff (h : Holds asked t) :
    t = Tables.names ↔ ∀ s, asked s → IsName s := by
  constructor
  · rintro rfl s hs
    by_contra hno
    have hin := (h.mem s .undef).mpr (Or.inr ⟨rfl, hno, hs⟩)
    exact hno ⟨.undef, (mem_names s .undef).mp hin⟩
  · intro hall
    have hmem : ∀ y, y ∈ t.stringToType ↔ y ∈ Tables.names.stringToType := by
      rintro ⟨s, type⟩
      rw [h.mem, mem_names]
      exact ⟨fun hs => hs.resolve_right fun hnew => hnew.2.1 (hall s hnew.2.2), Or.inl⟩
    have heq := eq_of_mem_iff h.sorted names_holds.sorted hmem
    have htypes := h.typeToString
    obtain ⟨strings, types⟩ := t
    obtain rfl : strings = Tables.names.stringToType := heq
    obtain rfl : types = Tables.names.typeToString := htypes
    rfl

/-! ## What the functions do to them -/

/-- **`type()` with the tables** returns what it returns without them; it enters the string
    it was asked about. -/
theorem typeIn_holds (h : Holds asked t) (m : Message) :
    (typeIn t m).1 = m.type ∧
      Holds (fun s => asked s ∨ m.node.type = some s) (typeIn t m).2 := by
  rw [typeIn, Message.type]
  cases hs : m.node.type with
  | none =>
      refine ⟨rfl, h.congr fun s => or_iff_left fun heq => ?_⟩
      cases heq
  | some s =>
      have hafter : Holds (fun s' => asked s' ∨ some s = some s')
          { t with stringToType := (index t.stringToType s .undef).2 } := by
        refine ⟨sorted_index h.sorted, fun s' type => ?_, h.typeToString⟩
        rw [mem_index h.sorted, h.mem]
        constructor
        · rintro ((hname | ⟨rfl, hno, hasked⟩) | ⟨heq, hnew⟩)
          · exact Or.inl hname
          · exact Or.inr ⟨rfl, hno, Or.inl hasked⟩
          · obtain ⟨rfl, rfl⟩ := Prod.mk.inj heq
            refine Or.inr ⟨rfl, ?_, Or.inr rfl⟩
            rintro ⟨type, rfl⟩
            exact hnew type ((h.mem _ type).mpr (Or.inl rfl))
        · rintro (hname | ⟨rfl, hno, hasked | heq⟩)
          · exact Or.inl (Or.inl hname)
          · exact Or.inl (Or.inr ⟨rfl, hno, hasked⟩)
          · obtain rfl := Option.some.inj heq
            by_cases hasked : asked s
            · exact Or.inl (Or.inr ⟨rfl, hno, hasked⟩)
            · refine Or.inr ⟨rfl, fun type hin => ?_⟩
              rcases (h.mem s type).mp hin with hname | ⟨-, -, hold⟩
              · exact hno ⟨type, hname⟩
              · exact hasked hold
      exact ⟨(hafter.typeOfString_eq (mem_index_self h.sorted)).symm, hafter⟩

/-- The table of a type has its name. -/
theorem index_typeToString (h : Holds asked t) (type : MessageType) :
    index t.typeToString type "" = (typeToString type, t.typeToString) := by
  have hsorted : Sorted Tables.names.typeToString := by
    rw [names_typeToString]
    unfold Sorted
    decide +kernel
  rw [h.typeToString]
  exact index_of_mem hsorted ((mem_names_types _ type).mpr rfl) ""

/-- **`emit` with the tables** makes the document it makes without them, and leaves the
    tables as they are. -/
theorem emitIn_eq (h : Holds asked (mapsInitializer t)) (type : MessageType) :
    emitIn t type = (emit type, mapsInitializer t) := by
  rw [emitIn, index_typeToString h]
  rfl

theorem emitBlockIn_eq (h : Holds asked (mapsInitializer t)) (type : MessageType)
    (block : Block) (shallow : Bool) :
    emitBlockIn t type block shallow = (emitBlock type block shallow, mapsInitializer t) := by
  rw [emitBlockIn, index_typeToString h]
  rfl

/-! ## A process -/

/-- The tables, and the message objects in the order in which they were made. -/
structure Process where
  tables : Tables
  messages : List Message

/-- A process before its first message. -/
def Process.initial : Process := ⟨.empty, []⟩

/-- What is done with messages, and what it returns. -/
inductive Event where
  | construct (message : String)
  | parse (i : Nat) (message : String)
  | type (i : Nat) (returned : MessageType)
  | block (i : Nat)
  | emit (type : MessageType) (returned : String)
  | emitBlock (type : MessageType) (block : Block) (shallow : Bool) (returned : String)

/-- One use of the class. -/
inductive Step (yaml : YamlCpp) : Process → Event → Process → Prop where
  | construct (p : Process) (message : String) :
      Step yaml p (.construct message)
        ⟨mapsInitializer p.tables, p.messages ++ [Message.create yaml message]⟩
  | parse {p : Process} {i : Nat} {m : Message} (message : String)
      (hm : p.messages[i]? = some m) :
      Step yaml p (.parse i message) { p with messages := p.messages.set i (m.parse yaml message) }
  | type {p : Process} {i : Nat} {m : Message} (hm : p.messages[i]? = some m) :
      Step yaml p (.type i (typeIn p.tables m).1) { p with tables := (typeIn p.tables m).2 }
  | block {p : Process} {i : Nat} {m m' : Message} {b : Option BlockServer}
      (hm : p.messages[i]? = some m) (hb : m.block = .ok (b, m')) :
      Step yaml p (.block i) { p with messages := p.messages.set i m' }
  | emit (p : Process) (type : MessageType) :
      Step yaml p (.emit type (yaml.emitter (emitIn p.tables type).1))
        { p with tables := (emitIn p.tables type).2 }
  | emitBlock (p : Process) (type : MessageType) (block : Block) (shallow : Bool) :
      Step yaml p
        (.emitBlock type block shallow (yaml.emitter (emitBlockIn p.tables type block shallow).1))
        { p with tables := (emitBlockIn p.tables type block shallow).2 }

/-- The step asks a message whose type field is the string `s` for its type. -/
def AsksFor (s : String) (t : Entry Process Event) : Prop :=
  ∃ i type m, t.event = .type i type ∧ t.pre.messages[i]? = some m ∧ m.node.type = some s

/-- The strings that were asked for. -/
def Asked (tr : List (Entry Process Event)) (s : String) : Prop := ∃ t ∈ tr, AsksFor s t

section

variable {yaml : YamlCpp} {p p' : Process} {e : Event} {tr : List (Entry Process Event)}

/-- Only `type()` asks. -/
theorem not_asksFor (h : ∀ i type, e ≠ .type i type) (s : String) : ¬ AsksFor s ⟨p, e, p'⟩ := by
  rintro ⟨i, type, m, heq, -⟩
  exact h i type heq

/-- It asks for the type field of its message. -/
theorem asksFor_type {i : Nat} {type : MessageType} {m : Message}
    (hm : p.messages[i]? = some m) (s : String) :
    AsksFor s ⟨p, .type i type, p'⟩ ↔ m.node.type = some s := by
  constructor
  · rintro ⟨j, type', m', heq, hm', hs⟩
    obtain ⟨rfl, -⟩ := Event.type.inj heq
    obtain rfl := Option.some.inj (hm.symm.trans hm')
    exact hs
  · intro hs
    exact ⟨i, type, m, rfl, hm, hs⟩

/-- There are no objects to use before the first is made. -/
theorem initial_messages (i : Nat) (m : Message) : Process.initial.messages[i]? ≠ some m :=
  nofun

/-- The first message, or any other, finds the names when it has called
    `maps_initializer`. -/
theorem mapsInitializer_holds
    (hp : (p = Process.initial ∧ ∀ s, ¬ asked s) ∨ Holds asked p.tables) :
    Holds asked (mapsInitializer p.tables) := by
  rcases hp with ⟨rfl, hnone⟩ | hp
  · exact names_holds.congr fun s => iff_false_intro (hnone s)
  · rw [hp.initialized]
    exact hp

/-- **One step** enters the string it asks for, if that is no name, and nothing else. -/
theorem step_holds (hs : Step yaml p e p')
    (hp : (p = Process.initial ∧ ∀ s, ¬ asked s) ∨ Holds asked p.tables) :
    Holds (fun s => asked s ∨ AsksFor s ⟨p, e, p'⟩) p'.tables := by
  have hinit := mapsInitializer_holds hp
  -- a step that asks for nothing
  have hquiet : ∀ {t : Tables}, Holds asked t → (∀ i type, e ≠ .type i type) →
      Holds (fun s => asked s ∨ AsksFor s ⟨p, e, p'⟩) t := by
    intro t ht he
    exact ht.congr fun s => or_iff_left (not_asksFor he s)
  -- a step on an object that was made before
  have hused : ∀ {i : Nat} {m : Message}, p.messages[i]? = some m → Holds asked p.tables := by
    intro i m hm
    rcases hp with ⟨rfl, -⟩ | hp
    · exact absurd hm (initial_messages i m)
    · exact hp
  cases hs with
  | construct message => exact hquiet hinit nofun
  | parse message hm => exact hquiet (hused hm) nofun
  | type hm =>
      refine (typeIn_holds (hused hm) _).2.congr fun s => ?_
      exact or_congr_right (asksFor_type hm s)
  | block hm hb => exact hquiet (hused hm) nofun
  | emit type =>
      refine hquiet ?_ nofun
      show Holds asked (emitIn p.tables type).2
      rw [emitIn_eq hinit]
      exact hinit
  | emitBlock type block shallow =>
      refine hquiet ?_ nofun
      show Holds asked (emitBlockIn p.tables type block shallow).2
      rw [emitBlockIn_eq hinit]
      exact hinit

/-- **What the tables hold after a run**: the names, and the strings asked for. -/
theorem run_holds (hrun : Run (Step yaml) Process.initial tr p) :
    (p = Process.initial ∧ ∀ s, ¬ Asked tr s) ∨ Holds (Asked tr) p.tables := by
  induction hrun with
  | nil => exact Or.inl ⟨rfl, fun s h => nomatch h.choose_spec.1⟩
  | @snoc tr p p' e hrun hs ih =>
      refine Or.inr ((step_holds hs ih).congr fun s => ?_)
      constructor
      · rintro ⟨t, ht, hasks⟩
        rcases List.mem_append.mp ht with hold | hlast
        · exact Or.inl ⟨t, hold, hasks⟩
        · rw [List.mem_singleton.mp hlast] at hasks
          exact Or.inr hasks
      · rintro (⟨t, ht, hasks⟩ | hasks)
        · exact ⟨t, List.mem_append_left _ ht, hasks⟩
        · exact ⟨_, List.mem_append_right _ (List.mem_singleton_self _), hasks⟩

/-- After every step the tables hold the names, and what was asked for up to it. -/
theorem entry_holds (hrun : Run (Step yaml) Process.initial tr p) {i : Nat}
    {t : Entry Process Event} (ht : tr[i]? = some t) :
    Holds (fun s => Asked (tr.take i) s ∨ AsksFor s t) t.post.tables := by
  have hs := hrun.step_of_mem (List.mem_of_getElem? ht)
  exact step_holds hs (run_holds (hrun.take ht))

/-- The types that were returned do not depend on the tables, so on no other message. -/
theorem returned_type (hrun : Run (Step yaml) Process.initial tr p)
    {t : Entry Process Event} (ht : t ∈ tr) {i : Nat} {type : MessageType}
    (hev : t.event = .type i type) :
    ∃ m, t.pre.messages[i]? = some m ∧ type = m.type := by
  obtain ⟨k, hk⟩ := List.mem_iff_getElem?.mp ht
  have hpre := run_holds (hrun.take hk)
  obtain ⟨pre, event, post⟩ := t
  obtain rfl : event = .type i type := hev
  have hs : Step yaml pre (.type i type) post := hrun.step_of_mem ht
  cases hs with
  | @type _ m hm =>
      refine ⟨m, hm, ?_⟩
      rcases hpre with ⟨hinit, -⟩ | hpre
      · rw [show pre = Process.initial from hinit] at hm
        exact absurd hm (initial_messages i m)
      · exact (typeIn_holds hpre m).1

end

/-! ## Nothing is altered -/

/-- After every step the tables are what `maps_initializer` makes them, and every type that
    is returned is that of its message. -/
def Unaltered (tr : List (Entry Process Event)) : Prop :=
  ∀ t ∈ tr, t.post.tables = Tables.names ∧
    ∀ i type, t.event = .type i type → ∃ m, t.pre.messages[i]? = some m ∧ type = m.type

/-- **The tables are unaltered** exactly in the runs in which no message is asked for a type
    that has no name. -/
theorem unaltered_iff {yaml : YamlCpp} {tr : List (Entry Process Event)} {p : Process}
    (hrun : Run (Step yaml) Process.initial tr p) :
    Unaltered tr ↔ ∀ s, Asked tr s → IsName s := by
  constructor
  · rintro hall s ⟨t, ht, hasks⟩
    obtain ⟨i, hi⟩ := List.mem_iff_getElem?.mp ht
    exact (entry_holds hrun hi).eq_names_iff.mp (hall t ht).1 s (Or.inr hasks)
  · intro hall t ht
    refine ⟨?_, fun i type hev => returned_type hrun ht hev⟩
    obtain ⟨i, hi⟩ := List.mem_iff_getElem?.mp ht
    refine (entry_holds hrun hi).eq_names_iff.mpr ?_
    rintro s (⟨t', ht', hasks⟩ | hasks)
    · exact hall s ⟨t', List.mem_of_mem_take ht', hasks⟩
    · exact hall s ⟨t, ht, hasks⟩

/-- A process that makes a message and asks it for its type. -/
def askOnce (yaml : YamlCpp) (message : String) : List (Entry Process Event) :=
  let m := Message.create yaml message
  let p : Process := ⟨Tables.names, [m]⟩
  [⟨Process.initial, .construct message, p⟩,
   ⟨p, .type 0 (typeIn p.tables m).1, { p with tables := (typeIn p.tables m).2 }⟩]

theorem run_askOnce (yaml : YamlCpp) (message : String) :
    ∃ p, Run (Step yaml) Process.initial (askOnce yaml message) p :=
  ⟨_, (Run.nil.snoc (Step.construct _ message)).snoc (Step.type rfl)⟩

/-- It asks for what the message has as its type. -/
theorem asked_askOnce {yaml : YamlCpp} {message s : String} (h : Asked (askOnce yaml message) s) :
    (Message.create yaml message).node.type = some s := by
  obtain ⟨t, ht, i, type, m, hev, hm, hs⟩ := h
  rcases List.mem_pair.mp ht with rfl | rfl
  · cases hev
  · obtain ⟨rfl, -⟩ := Event.type.inj hev
    obtain rfl := Option.some.inj hm
    exact hs

theorem typeIn_askOnce {yaml : YamlCpp} {message : String}
    (h : Unaltered (askOnce yaml message)) :
    (typeIn Tables.names (Message.create yaml message)).2 = Tables.names :=
  (h _ (List.mem_cons_of_mem _ List.mem_cons_self)).1

/-- A message that has a name for its type. -/
def ackText : String := "\x7btype: ACK\x7d"

theorem unaltered_iff_ack : Unaltered (askOnce DmText.flowYaml ackText) := by
  obtain ⟨p, hrun⟩ := run_askOnce DmText.flowYaml ackText
  refine (unaltered_iff hrun).mpr fun s hs => ?_
  have htype : (Message.create DmText.flowYaml ackText).node.type = some (typeToString .ack) := by
    decide +kernel
  exact ⟨.ack, Option.some.inj ((asked_askOnce hs).symm.trans htype)⟩

/-- A message that has none, as in the unit test. -/
def fooText : String := "\x7btype: FOO\x7d"

/-- What the table has after the message was asked for its type. -/
theorem typeIn_foo :
    (typeIn Tables.names (Message.create DmText.flowYaml fooText)).2.stringToType =
      [("ACK", .ack), ("FOO", .undef), ("MAP", .map), ("NACK", .nack), ("UNDEF", .undef),
       ("UNMAP", .unmap), ("UPDATE", .update), ("WAIT", .wait), ("WRITE", .write)] := by
  decide +kernel

/-- **A type that has no name is entered** by asking for it once. -/
theorem foo_altered :
    (∃ p, Run (Step DmText.flowYaml) Process.initial (askOnce DmText.flowYaml fooText) p) ∧
      ¬ Unaltered (askOnce DmText.flowYaml fooText) := by
  refine ⟨run_askOnce _ _, fun hall => ?_⟩
  have heq := typeIn_foo
  rw [typeIn_askOnce hall, names_stringToType] at heq
  exact absurd heq (by decide)

end DmTables
