import DistributedMemory.DmMessageProofs
import DistributedMemory.FlowTextProofs

/-!
# Message text — messages as flow text

The YAML library is outside the repository. What of it the messages need is small, and is
here as one instance of `YamlCpp`: a document is written as flow text and read back from it.

* **`tree`**, **`view`** — a document as nested maps, and what the conversions of the
  library find in nested maps.
* **`flowYaml`** — the instance; **`flowYaml_rereads`** — it reads what it wrote.
-/

namespace DmText

open DmBlock DmMessage FlowText

/-! ## Conversions -/

/-- The conversion to a string. -/
def readString : Flow → Option String
  | .word s => some (String.ofList s)
  | _ => none

/-- The conversion to an `int`; it throws on numbers out of range. -/
def readInt : Flow → Option Int32
  | .word s =>
      match readDecimal s with
      | some i => if (Int32.ofInt i).toInt = i then some (Int32.ofInt i) else none
      | none => none
  | _ => none

/-- The conversion to a `Binary`. -/
def readBinary : Flow → Option (List UInt8)
  | .binary s => readBase64 s
  | _ => none

def ofString (s : String) : Flow := .word s.toList

def ofInt (i : Int32) : Flow := .word (decimal i.toInt)

def ofBinary (bytes : List UInt8) : Flow := .binary (base64 bytes)

@[simp] theorem readString_ofString (s : String) : readString (ofString s) = some s := by
  rw [ofString, readString, String.ofList_toList]

@[simp] theorem readInt_ofInt (i : Int32) : readInt (ofInt i) = some i := by
  rw [ofInt, readInt, readDecimal_decimal]
  dsimp only
  rw [Int32.ofInt_toInt, if_pos rfl]

@[simp] theorem readBinary_ofBinary (bytes : List UInt8) :
    readBinary (ofBinary bytes) = some bytes := by
  rw [ofBinary, readBinary, readBase64_base64]

theorem ofInt_wellFormed (i : Int32) : (ofInt i).WellFormed := by
  rw [ofInt, Flow.WellFormed]
  exact isWord_decimal i.toInt

theorem ofBinary_wellFormed (bytes : List UInt8) : (ofBinary bytes).WellFormed := by
  rw [ofBinary, Flow.WellFormed]
  exact quote_not_mem_base64 bytes

/-! ## Keys -/

def typeKey : List Char := ['t', 'y', 'p', 'e']

def blockKey : List Char := ['b', 'l', 'o', 'c', 'k']

def idKey : List Char := ['i', 'd']

def revisionKey : List Char := ['r', 'e', 'v', 'i', 's', 'i', 'o', 'n']

def dataKey : List Char := ['d', 'a', 't', 'a']

section Entry

variable {α : Type} (key : List Char) (write : α → Flow) (read : Flow → Option α)

/-- The entry of an optional key; an empty map where no conversion succeeds. -/
def entry (field : DmMessage.Field α) (rest : Entries) : Entries :=
  match field with
  | .absent => rest
  | .illTyped => .cons key (.map .nil) rest
  | .value a => .cons key (write a) rest

/-- What a conversion finds at an optional key. -/
def readEntry (es : Entries) : DmMessage.Field α :=
  match es.find key with
  | none => .absent
  | some t =>
      match read t with
      | none => .illTyped
      | some a => .value a

variable {key write read}

/-- The conversion of the writer's own value succeeds, and that of an empty map does
    not. -/
theorem readEntry_entry (hread : ∀ a, read (write a) = some a) (hmap : read (.map .nil) = none)
    (field : DmMessage.Field α) {rest : Entries} (hrest : rest.find key = none) :
    readEntry key read (entry key write field rest) = field := by
  cases field with
  | absent => rw [entry, readEntry, hrest]
  | illTyped =>
      rw [entry, readEntry, Entries.find, if_pos rfl]
      simp only [hmap]
  | value a =>
      rw [entry, readEntry, Entries.find, if_pos rfl]
      simp only [hread]

/-- An entry hides no other key. -/
theorem find_entry {other : List Char} (hne : key ≠ other) (field : DmMessage.Field α)
    (rest : Entries) : (entry key write field rest).find other = rest.find other := by
  cases field with
  | absent => rfl
  | illTyped => rw [entry, Entries.find, if_neg hne]
  | value a => rw [entry, Entries.find, if_neg hne]

theorem entry_wellFormed (hkey : IsWord key) {field : DmMessage.Field α}
    (hwrite : ∀ a, field = .value a → (write a).WellFormed) {rest : Entries}
    (hrest : rest.WellFormed) : (entry key write field rest).WellFormed := by
  cases field with
  | absent => exact hrest
  | illTyped =>
      rw [entry, Entries.WellFormed, Flow.WellFormed]
      exact ⟨hkey, trivial, hrest⟩
  | value a =>
      rw [entry, Entries.WellFormed]
      exact ⟨hkey, hwrite a rfl, hrest⟩

end Entry

/-! ## Documents as nested maps -/

/-- The optional value as a field. -/
def ofOption {α : Type} : Option α → DmMessage.Field α
  | none => .absent
  | some a => .value a

/-- The map of a block. -/
def treeBlock (n : BlockNode) : Flow :=
  .map (entry idKey ofInt (.value n.id)
    (entry revisionKey ofInt n.revision (entry dataKey ofBinary n.data .nil)))

/-- The map of a document. -/
def tree (n : Node) : Flow :=
  .map (entry typeKey ofString (ofOption n.type) (entry blockKey treeBlock (ofOption n.block) .nil))

/-- The block in a map, if its id converts. -/
def viewBlock : Flow → Option BlockNode
  | .map es =>
      match readEntry idKey readInt es with
      | .value id =>
          some ⟨id, readEntry revisionKey readInt es, readEntry dataKey readBinary es⟩
      | _ => none
  | _ => none

/-- What the conversions find in a document. -/
def view : Flow → Node
  | .map es => ⟨(es.find typeKey).bind readString, (es.find blockKey).bind viewBlock⟩
  | _ => Node.null

/-- A conversion at another key goes past an entry. -/
theorem readEntry_skip {α β : Type} {key other : List Char} {write : α → Flow}
    {read : Flow → Option β} (hne : key ≠ other) (field : DmMessage.Field α) (rest : Entries) :
    readEntry other read (entry key write field rest) = readEntry other read rest := by
  rw [readEntry, readEntry, find_entry hne]

theorem viewBlock_treeBlock (n : BlockNode) : viewBlock (treeBlock n) = some n := by
  have hid : readEntry idKey readInt (entry idKey ofInt (.value n.id)
      (entry revisionKey ofInt n.revision (entry dataKey ofBinary n.data .nil))) =
        .value n.id := by
    refine readEntry_entry readInt_ofInt rfl _ ?_
    rw [find_entry (by decide), find_entry (by decide)]
    rfl
  have hrevision : readEntry revisionKey readInt
      (entry revisionKey ofInt n.revision (entry dataKey ofBinary n.data .nil)) =
        n.revision := by
    refine readEntry_entry readInt_ofInt rfl _ ?_
    rw [find_entry (by decide)]
    rfl
  have hdata : readEntry dataKey readBinary (entry dataKey ofBinary n.data .nil) = n.data :=
    readEntry_entry readBinary_ofBinary rfl _ rfl
  rw [treeBlock, viewBlock, hid, readEntry_skip (by decide), hrevision,
    readEntry_skip (by decide), readEntry_skip (by decide), hdata]

/-- An optional value is found at its key. -/
theorem find_entry_ofOption {α : Type} {key : List Char} {write : α → Flow}
    {read : Flow → Option α} (hread : ∀ a, read (write a) = some a) (a : Option α)
    {rest : Entries} (hrest : rest.find key = none) :
    ((entry key write (ofOption a) rest).find key).bind read = a := by
  cases a with
  | none =>
      rw [ofOption, entry, hrest]
      rfl
  | some a =>
      rw [ofOption, entry, Entries.find, if_pos rfl, Option.bind_some]
      exact hread a

/-- **What was written is what the conversions find.** -/
theorem view_tree (n : Node) : view (tree n) = n := by
  obtain ⟨type, block⟩ := n
  rw [tree, view]
  refine congr (congrArg Node.mk ?_) ?_
  · refine find_entry_ofOption readString_ofString type ?_
    rw [find_entry (by decide)]
    rfl
  · rw [find_entry (by decide)]
    exact find_entry_ofOption viewBlock_treeBlock block rfl

theorem treeBlock_wellFormed (n : BlockNode) : (treeBlock n).WellFormed := by
  have hnil : Entries.nil.WellFormed := by
    rw [Entries.WellFormed]
    exact trivial
  rw [treeBlock, Flow.WellFormed]
  refine entry_wellFormed (by decide) (fun i _ => ofInt_wellFormed i) ?_
  refine entry_wellFormed (by decide) (fun i _ => ofInt_wellFormed i) ?_
  exact entry_wellFormed (by decide) (fun bytes _ => ofBinary_wellFormed bytes) hnil

theorem tree_wellFormed {n : Node} (htype : ∀ s, n.type = some s → IsWord s.toList) :
    (tree n).WellFormed := by
  have hnil : Entries.nil.WellFormed := by
    rw [Entries.WellFormed]
    exact trivial
  rw [tree, Flow.WellFormed]
  refine entry_wellFormed (by decide) ?_ ?_
  · intro s hs
    rw [ofString, Flow.WellFormed]
    refine htype s ?_
    cases hn : n.type with
    | none =>
        rw [hn] at hs
        cases hs
    | some s' =>
        rw [hn] at hs
        exact congrArg some (DmMessage.Field.value.inj hs)
  · exact entry_wellFormed (by decide) (fun bn _ => treeBlock_wellFormed bn) hnil

/-! ## The instance -/

/-- Documents as flow text. A text that is not one leaves the node alone. -/
def flowYaml : YamlCpp where
  emitter n := String.ofList (tree n).text
  getNextDocument node text :=
    match readDocument text.toList with
    | .one t => .document (view t)
    | .none => .nothing
    | .malformed => .throws node

/-- **A document whose type is a word is read from its text**, `STOP` behind it. -/
theorem flowYaml_rereads (old : Node) {n : Node}
    (htype : ∀ s, n.type = some s → IsWord s.toList) :
    flowYaml.getNextDocument old (flowYaml.emitter n ++ STOP) = .document n := by
  have hread : readDocument (flowYaml.emitter n ++ STOP).toList = .one (tree n) := by
    show readDocument (String.ofList (tree n).text ++ STOP).toList = .one (tree n)
    rw [String.toList_append, String.toList_ofList]
    exact readDocument_text (tree_wellFormed htype) (by decide)
  show (match readDocument (flowYaml.emitter n ++ STOP).toList with
    | .one t => Read.document (view t)
    | .none => .nothing
    | .malformed => .throws old) = .document n
  rw [hread]
  exact congrArg Read.document (view_tree n)

/-- The names of the types are words. -/
theorem isWord_typeToString (t : MessageType) : IsWord (typeToString t).toList := by
  cases t <;> decide

end DmText
