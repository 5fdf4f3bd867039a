import DistributedMemory.ByteStreamProofs
import DistributedMemory.DmProgramProofs
import DistributedMemory.DmHandoffProofs

/-!
# `reader1` and `reader2` — two programs that share their work

The programs of `test/reader`. The first reads a file into the blocks `1`, `2`, … and counts
the spaces, the second counts the words of what it finds in the blocks; the size, the spaces
and the words go from one to the other in the blocks `100`, `101` and `102`, and both print
all three.

* **`reader1`**, **`reader2`** — the programs.
* **`readertest`** — the script: both at once, again and again, each time when both have
  exited.
* **`textbuffer_eq`** — the blocks that the file was read into hold the file.
-/

namespace DmReader

open DmBlock DmClient DmCluster DmProgram ByteStreams

/-! ## What the programs do in memory -/

/-- What a process finds where it mapped the blocks. -/
def memory (blocks : Int32 → Option BlockLocal) (k : Int32) : Data :=
  match blocks k with
  | some e => e.data
  | none => Data.memset 0

/-- `*(int*) p`. -/
def readInt (d : Data) : Int32 := Int32.ofNat (leValue (d.bytes.take 4))

/-- `*(int*) p = x`. -/
def storeInt (d : Data) (x : Int32) : Data where
  bytes := leBytes 4 x.toBitVec.toNat ++ d.bytes.drop 4
  size_eq := by
    rw [List.length_append, length_leBytes, List.length_drop, d.size_eq]
    rfl

@[simp] theorem readInt_storeInt (d : Data) (x : Int32) : readInt (storeInt d x) = x := by
  have htake : (storeInt d x).bytes.take 4 = leBytes 4 x.toBitVec.toNat := by
    show (leBytes 4 x.toBitVec.toNat ++ d.bytes.drop 4).take 4 = _
    rw [List.take_append_of_le_length (by rw [length_leBytes]), List.take_of_length_le]
    rw [length_leBytes]
  have hlt : x.toBitVec.toNat < 256 ^ 4 := x.toBitVec.isLt
  rw [readInt, htake, leValue_leBytes hlt]
  refine Int32.toBitVec_inj.mp ?_
  show BitVec.ofNat 32 x.toBitVec.toNat = x.toBitVec
  rw [BitVec.ofNat_toNat, BitVec.setWidth_eq]

/-- The text blocks for `textsize` bytes: `n_blocks` is `textsize / DIMBLOCK + 1`. -/
def textBlocks (textsize : Int32) : List Int32 :=
  (List.range (textsize / Int32.ofNat dimBlock + 1).toInt.toNat).map fun i => Int32.ofNat (i + 1)

/-- The part of the text that belongs into block `k`. -/
def chunk (text : List UInt8) (k : Int32) : List UInt8 :=
  (text.drop (dimBlock * (k.toInt.toNat - 1))).take dimBlock

theorem length_chunk (text : List UInt8) (k : Int32) : (chunk text k).length ≤ dimBlock := by
  rw [chunk, List.length_take]
  exact Nat.min_le_left ..

/-- `text.read`, as far as it goes into the memory of block `k`. -/
def readText (text : List UInt8) (k : Int32) (d : Data) : Data where
  bytes := chunk text k ++ d.bytes.drop (chunk text k).length
  size_eq := by
    have hle := length_chunk text k
    rw [List.length_append, List.length_drop, d.size_eq]
    omega

theorem readText_twice (text : List UInt8) (k : Int32) (d : Data) :
    readText text k (readText text k d) = readText text k d := by
  refine Data.ext ?_
  show chunk text k ++ (chunk text k ++ d.bytes.drop _).drop _ = _
  rw [List.drop_left]
  rfl

/-- `textbuffer`: the memory of the text blocks, one behind the other. -/
def textbuffer (m : Int32 → Data) (textsize : Int32) : List UInt8 :=
  (textBlocks textsize).flatMap fun k => (m k).bytes

/-- `count_spaces`, whose `result` is what the process finds in it. -/
def countSpaces (result : Int32) (buffer : List UInt8) : Int32 :=
  buffer.foldl (fun result c => if c = 32 then result + 1 else result) result

/-- `count_words`; `word` is that a new word may begin. -/
def countWords (buffer : List UInt8) : Int32 :=
  (buffer.foldl (fun (st : Int32 × Bool) c =>
    if c = 32 ∨ c = 10 ∨ c = 13 then (st.1, true)
    else if st.2 then (st.1 + 1, false) else st) (0, true)).1

/-- What a reader prints. -/
structure Output where
  textsize : Int32
  nspaces : Int32
  nwords : Int32
  deriving DecidableEq

/-! ## `reader1` -/

/-- Where `reader1` is: about to make the call or the change to its memory that gives the
    state its name, or over. -/
inductive Reader1 where
  | map (k : Int32) (rest : List Int32) (res : Int)
  | read (k : Int32) (rest : List Int32)
  | writeText (k : Int32) (rest : List Int32)
  | putSize
  | writeSize
  | putSpaces
  | writeSpaces (nspaces : Int32)
  | look (nspaces : Int32)
  | update (nspaces : Int32)
  | writeWords (nspaces nwords : Int32)
  | unmap (k : Int32) (rest : List Int32) (out : Output)
  | done (out : Output)
  | failed
  deriving DecidableEq

namespace Reader1

/-- The loop over the calls of `dm_block_write`. -/
def writing : List Int32 → Reader1
  | [] => .putSize
  | k :: rest => .writeText k rest

/-- The reading of the file, block by block. -/
def reading (textsize : Int32) : List Int32 → Reader1
  | [] => writing (textBlocks textsize)
  | k :: rest => .read k rest

/-- The mapping of all blocks, and the test of `res` after it. -/
def mapping (textsize : Int32) (res : Int) : List Int32 → Reader1
  | [] => if res < 0 then .failed else reading textsize (textBlocks textsize)
  | k :: rest => .map k rest res

/-- The loop over the calls of `dm_block_unmap`, and the three after it. -/
def unmapping (out : Output) : List Int32 → Reader1
  | [] => .done out
  | k :: rest => .unmap k rest out

end Reader1

/-- `reader1` with the bytes of its file, the value that `count_spaces` finds in `result`,
    and what is in the memory it allocates for a block. -/
def reader1 (text : List UInt8) (unset : Int32) (heap : Int32 → Data) : Program Reader1 where
  act st blocks :=
    let textsize := Int32.ofNat text.length
    match st with
    | .map k _ _ => .call (.map k (heap k))
    | .read k rest =>
        .store k (readText text k (memory blocks k)) (Reader1.reading textsize rest)
    | .writeText k _ => .call (.write k)
    | .putSize => .store 100 (storeInt (memory blocks 100) textsize) .writeSize
    | .writeSize => .call (.write 100)
    | .putSpaces =>
        let nspaces := countSpaces unset
          ((textbuffer (memory blocks) textsize).take textsize.toInt.toNat)
        .store 101 (storeInt (memory blocks 101) nspaces) (.writeSpaces nspaces)
    | .writeSpaces _ => .call (.write 101)
    | .look nspaces =>
        let nwords := readInt (memory blocks 102)
        if nwords = 0 then .call (.wait 102)
        else .store 102 (storeInt (memory blocks 102) 0) (.writeWords nspaces nwords)
    | .update _ => .call (.update 102)
    | .writeWords _ _ => .call (.write 102)
    | .unmap k _ _ => .call (.unmap k)
    | .done _ => .exit
    | .failed => .exit
  resume st code :=
    let textsize := Int32.ofNat text.length
    match st with
    | .map _ rest res => Reader1.mapping textsize (res + code) rest
    | .writeText _ rest => if code < 0 then .failed else Reader1.writing rest
    | .writeSize => if code < 0 then .failed else .putSpaces
    | .writeSpaces nspaces => if code < 0 then .failed else .look nspaces
    | .look nspaces => if code < 0 then .failed else .update nspaces
    | .update nspaces => if code < 0 then .failed else .look nspaces
    -- the result of this write is not looked at
    | .writeWords nspaces nwords =>
        Reader1.unmapping ⟨textsize, nspaces, nwords⟩ (textBlocks textsize ++ [100, 101, 102])
    | .unmap _ rest out => Reader1.unmapping out rest
    | st => st

/-! ## `reader2` -/

/-- Where `reader2` is. -/
inductive Reader2 where
  | map (k : Int32) (rest : List Int32) (res : Int)
  | lookSize
  | updateSize
  | writeSize (textsize : Int32)
  | mapText (k : Int32) (rest : List Int32) (textsize : Int32)
  | putWords (textsize : Int32)
  | writeWords (textsize nwords : Int32)
  | look (textsize nwords : Int32)
  | update (textsize nwords : Int32)
  | writeSpaces (textsize nwords nspaces : Int32)
  | unmap (k : Int32) (rest : List Int32) (out : Output)
  | done (out : Output)
  | failed
  deriving DecidableEq

namespace Reader2

/-- The mapping of the three blocks, and the test of `res` after it. -/
def mapping (res : Int) : List Int32 → Reader2
  | [] => if res < 0 then .failed else .lookSize
  | k :: rest => .map k rest res

/-- The mapping of the text blocks. -/
def mappingText (textsize : Int32) : List Int32 → Reader2
  | [] => .putWords textsize
  | k :: rest => .mapText k rest textsize

def unmapping (out : Output) : List Int32 → Reader2
  | [] => .done out
  | k :: rest => .unmap k rest out

end Reader2

/-- `reader2`. -/
def reader2 (heap : Int32 → Data) : Program Reader2 where
  act st blocks :=
    match st with
    | .map k _ _ => .call (.map k (heap k))
    | .lookSize =>
        let textsize := readInt (memory blocks 100)
        if textsize = 0 then .call (.wait 100)
        else .store 100 (storeInt (memory blocks 100) 0) (.writeSize textsize)
    | .updateSize => .call (.update 100)
    | .writeSize _ => .call (.write 100)
    | .mapText k _ _ => .call (.map k (heap k))
    | .putWords textsize =>
        let nwords := countWords
          ((textbuffer (memory blocks) textsize).take textsize.toInt.toNat)
        .store 102 (storeInt (memory blocks 102) nwords) (.writeWords textsize nwords)
    | .writeWords _ _ => .call (.write 102)
    | .look textsize nwords =>
        let nspaces := readInt (memory blocks 101)
        if nspaces = 0 then .call (.wait 101)
        else .store 101 (storeInt (memory blocks 101) 0) (.writeSpaces textsize nwords nspaces)
    | .update _ _ => .call (.update 101)
    | .writeSpaces _ _ _ => .call (.write 101)
    | .unmap k _ _ => .call (.unmap k)
    | .done _ => .exit
    | .failed => .exit
  resume st code :=
    match st with
    | .map _ rest res => Reader2.mapping (res + code) rest
    | .lookSize => if code < 0 then .failed else .updateSize
    | .updateSize => if code < 0 then .failed else .lookSize
    | .writeSize textsize => Reader2.mappingText textsize (textBlocks textsize)
    | .mapText _ rest textsize =>
        if code < 0 then .failed else Reader2.mappingText textsize rest
    | .writeWords textsize nwords => if code < 0 then .failed else .look textsize nwords
    | .look textsize nwords => if code < 0 then .failed else .update textsize nwords
    | .update textsize nwords => if code < 0 then .failed else .look textsize nwords
    | .writeSpaces textsize nwords nspaces =>
        Reader2.unmapping ⟨textsize, nspaces, nwords⟩ (textBlocks textsize ++ [100, 101, 102])
    | .unmap _ rest out => Reader2.unmapping out rest
    | st => st

/-! ## `readertest` -/

/-- The file, and what the processes find in memory they do not set: `reader1` of round `r`
    in `result`, and process `c` in what it allocates for a block. -/
structure Test where
  text : List UInt8
  unset : Nat → Int32
  heap : Nat × Bool → Int32 → Data

/-- A program whose states are among those of `ρ`. -/
def within {σ ρ : Type} (P : Program σ) (into : σ → ρ) (back : ρ → Option σ) : Program ρ where
  act st blocks :=
    match back st with
    | none => .exit
    | some st =>
        match P.act st blocks with
        | .call call => .call call
        | .store id data next => .store id data (into next)
        | .exit => .exit
  resume st code :=
    match back st with
    | none => st
    | some st => into (P.resume st code)

namespace Test

def textsize (T : Test) : Int32 := Int32.ofNat T.text.length

/-- The script: in every round one process of either program, started when those of the
    rounds before have exited. -/
def readertest (T : Test) : Crew (Nat × Bool) (Reader1 ⊕ Reader2) where
  program := fun c =>
    if c.2 then within (reader2 (T.heap c)) .inr Sum.getRight?
    else within (reader1 T.text (T.unset c.1) (T.heap c)) .inl Sum.getLeft?
  after := fun c u => u.1 < c.1

/-- Where a process starts. -/
def init (T : Test) (c : Nat × Bool) : Reader1 ⊕ Reader2 :=
  if c.2 then .inr (Reader2.mapping 0 [100, 101, 102])
  else .inl (Reader1.mapping T.textsize 0 ([100, 101, 102] ++ textBlocks T.textsize))

/-- What the processes of round `r` print if all goes well. `reader1` adds the spaces to what
    it finds in `result`, so theirs is the number of spaces only where that is 0. -/
def expected (T : Test) (r : Nat) : Output :=
  ⟨T.textsize, countSpaces (T.unset r) T.text, countWords T.text⟩

end Test

/-! ## The text in the blocks -/

/-- The part of a text that belongs into the `i`-th block, from 0. -/
theorem chunk_ofNat (text : List UInt8) {i : Nat} (hi : i + 1 < 0x80000000) :
    chunk text (Int32.ofNat (i + 1)) = (text.drop (dimBlock * i)).take dimBlock := by
  rw [chunk, WrapCounter.toInt_ofNat hi]
  rfl

/-- Blocks that begin with the parts of a text, one behind the other, begin with the text. -/
theorem take_flatMap {n : Nat} {block : Nat → Data} :
    ∀ {text : List UInt8}, text.length < dimBlock * n →
      (∀ i < n, (block i).bytes.take ((text.drop (dimBlock * i)).take dimBlock).length
        = (text.drop (dimBlock * i)).take dimBlock) →
      ((List.range n).flatMap fun i => (block i).bytes).take text.length = text := by
  induction n generalizing block with
  | zero =>
      intro text hlen _
      omega
  | succ n ih =>
      intro text hlen hparts
      have hfirst : (block 0).bytes.take (text.take dimBlock).length = text.take dimBlock :=
        hparts 0 (Nat.succ_pos n)
      rw [List.range_succ_eq_map, List.flatMap_cons, List.flatMap_map, List.take_append,
        (block 0).size_eq]
      by_cases hle : text.length ≤ dimBlock
      · -- the text ends in the first block
        rw [List.take_of_length_le hle] at hfirst
        rw [hfirst, Nat.sub_eq_zero_of_le hle, List.take_zero, List.append_nil]
      · have hge : dimBlock ≤ text.length := Nat.le_of_not_le hle
        rw [List.length_take, Nat.min_eq_left hge, ← (block 0).size_eq, List.take_length] at hfirst
        have hlen' : (text.drop dimBlock).length < dimBlock * n := by
          rw [List.length_drop]
          rw [Nat.mul_succ] at hlen
          omega
        have hrest := @ih (block ∘ Nat.succ) (text.drop dimBlock) hlen' fun i hi => by
          rw [List.drop_drop, Nat.add_comm, ← Nat.mul_succ]
          exact hparts (i + 1) (Nat.succ_lt_succ hi)
        rw [List.length_drop] at hrest
        rw [List.take_of_length_le (by rw [(block 0).size_eq]; exact hge), hfirst]
        refine (congrArg _ hrest).trans ?_
        rw [(block 0).size_eq]
        exact List.take_append_drop ..

theorem blocks_lt {n : Nat} (hn : n < 0x80000000) : n / dimBlock + 1 < 0x80000000 := by
  have hlt : n / dimBlock < 0x1000000 := Nat.div_lt_of_lt_mul hn
  omega

/-- How many blocks there are for a text. -/
theorem textBlocks_ofNat {n : Nat} (hn : n < 0x80000000) :
    textBlocks (Int32.ofNat n)
      = (List.range (n / dimBlock + 1)).map fun i => Int32.ofNat (i + 1) := by
  have hblocks : Int32.ofNat n / Int32.ofNat dimBlock + 1 = Int32.ofNat (n / dimBlock + 1) := by
    rw [WrapCounter.ofNat_succ, Int32.ofNat_div hn (by decide)]
  rw [textBlocks, hblocks, WrapCounter.toInt_ofNat (blocks_lt hn)]
  rfl

/-- **The blocks into which the text was read hold the text.** -/
theorem textbuffer_eq {text : List UInt8} (hlen : text.length < 0x80000000) {m : Int32 → Data}
    (hm : ∀ k ∈ textBlocks (Int32.ofNat text.length), readText text k (m k) = m k) :
    (textbuffer m (Int32.ofNat text.length)).take (Int32.ofNat text.length).toInt.toNat
      = text := by
  rw [WrapCounter.toInt_ofNat hlen, Int.toNat_natCast, textbuffer]
  rw [textBlocks_ofNat hlen] at hm ⊢
  rw [List.flatMap_map]
  refine take_flatMap ?_ fun i hi => ?_
  · exact Nat.lt_mul_div_succ _ (by decide)
  · have hk := hm (Int32.ofNat (i + 1)) (List.mem_map.mpr ⟨i, List.mem_range.mpr hi, rfl⟩)
    have hi' : i + 1 < 0x80000000 := by
      have hlt := blocks_lt hlen
      omega
    rw [← chunk_ofNat text hi', ← hk]
    show (chunk text _ ++ _).take (chunk text _).length = _
    rw [List.take_left]

end DmReader
