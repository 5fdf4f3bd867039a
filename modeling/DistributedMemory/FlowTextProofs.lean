import Mathlib.Data.List.Basic
import Mathlib.Data.List.TakeWhile
import Mathlib.Data.Nat.Digits.Defs
import Mathlib.Tactic.FinCases

/-!
# Flow text — nested maps as one line of text, and back

A small language of documents: a map of keys to values in braces, where a value is a word,
a map, or a string of bytes in base 64 behind the tag `!!binary`. Words are made of any
characters but the indicators of the language, and are not empty.

* **`Flow.text`**, **`parseFlow`** — writing and reading; **`parseFlow_text`** — what is
  written is read, whatever follows it.
* **`readDocument`** — a whole text: a document and blanks, blanks alone, or neither.
* **`decimal`**, **`base64`** — numbers and bytes as words, with their readers.
-/

namespace FlowText

/-! ## Documents -/

mutual

/-- A value. -/
inductive Flow where
  | word (s : List Char)
  | binary (s : List Char)
  | map (entries : Entries)

/-- The entries of a map, in order. -/
inductive Entries where
  | nil
  | cons (key : List Char) (value : Flow) (rest : Entries)

end

/-- The value at a key: the first of them. -/
def Entries.find (key : List Char) : Entries → Option Flow
  | .nil => none
  | .cons k v rest => if k = key then some v else rest.find key

/-- The characters that are not part of a word. -/
def indicators : List Char := ['\x7b', '\x7d', ',', ':', '"', '!', ' ', '\r', '\n']

def isPlain (c : Char) : Bool := !indicators.contains c

/-- A word is not empty and has no indicators. -/
def IsWord (s : List Char) : Prop := s ≠ [] ∧ s.all isPlain = true

instance (s : List Char) : Decidable (IsWord s) := inferInstanceAs (Decidable (_ ∧ _))

mutual

/-- All keys and words are words, and no bytes are written with a quotation mark. -/
def Flow.WellFormed : Flow → Prop
  | .word s => IsWord s
  | .binary s => '"' ∉ s
  | .map es => es.WellFormed

def Entries.WellFormed : Entries → Prop
  | .nil => True
  | .cons k v rest => IsWord k ∧ v.WellFormed ∧ rest.WellFormed

end

/-! ## Writing -/

/-- The tag of bytes. -/
def tag : List Char := ['!', '!', 'b', 'i', 'n', 'a', 'r', 'y', ' ', '"']

mutual

/-- The text of a value. -/
def Flow.text : Flow → List Char
  | .word s => s
  | .binary s => tag ++ s ++ ['"']
  | .map .nil => ['\x7b', '\x7d']
  | .map (.cons k v rest) => '\x7b' :: (k ++ ':' :: ' ' :: (v.text ++ rest.text))

/-- The text of further entries and the closing brace. -/
def Entries.text : Entries → List Char
  | .nil => ['\x7d']
  | .cons k v rest => ',' :: ' ' :: (k ++ ':' :: ' ' :: (v.text ++ rest.text))

end

/-! ## Reading -/

/-- The key of an entry, and what follows the colon. -/
def parseKey (text : List Char) : Option (List Char × List Char) :=
  match text.takeWhile isPlain, text.dropWhile isPlain with
  | c :: k, ':' :: ' ' :: rest => some (c :: k, rest)
  | _, _ => none

/-- The text of bytes, up to the quotation mark that ends it. -/
def parseQuoted (text : List Char) : Option (List Char × List Char) :=
  match text.dropWhile (· != '"') with
  | _ :: rest => some (text.takeWhile (· != '"'), rest)
  | [] => none

mutual

/-- A value at the front of the text, and the rest of it. -/
def parseFlow : Nat → List Char → Option (Flow × List Char)
  | 0, _ => none
  | _ + 1, '\x7b' :: '\x7d' :: rest => some (.map .nil, rest)
  | fuel + 1, '\x7b' :: text => (parseEntry fuel text).map fun p => (.map p.1, p.2)
  | _ + 1, text =>
      if tag.isPrefixOf text then
        (parseQuoted (text.drop tag.length)).map fun p => (.binary p.1, p.2)
      else
        match text.takeWhile isPlain with
        | [] => none
        | s => some (.word s, text.dropWhile isPlain)

/-- One entry and those behind it. -/
def parseEntry : Nat → List Char → Option (Entries × List Char)
  | 0, _ => none
  | fuel + 1, text =>
      match parseKey text with
      | none => none
      | some (k, text) =>
          match parseFlow fuel text with
          | none => none
          | some (v, text) => (parseEntries fuel text).map fun p => (.cons k v p.1, p.2)

/-- What follows an entry: more of them, or the closing brace. -/
def parseEntries : Nat → List Char → Option (Entries × List Char)
  | 0, _ => none
  | _ + 1, '\x7d' :: rest => some (.nil, rest)
  | fuel + 1, ',' :: ' ' :: text => parseEntry fuel text
  | _ + 1, _ => none

end

/-- A text that does not go on with a plain character. -/
def Ends (rest : List Char) : Prop := ∀ c text, rest = c :: text → isPlain c = false

/-- A word ends where its characters do. -/
theorem takeWhile_word {s rest : List Char} (hs : IsWord s) (hrest : Ends rest) :
    (s ++ rest).takeWhile isPlain = s ∧ (s ++ rest).dropWhile isPlain = rest := by
  have hall := List.all_eq_true.mp hs.2
  have hend : rest.takeWhile isPlain = [] ∧ rest.dropWhile isPlain = rest := by
    cases rest with
    | nil => exact ⟨rfl, rfl⟩
    | cons c text =>
        have hc : ¬ isPlain c = true := by
          rw [hrest c text rfl]
          exact Bool.false_ne_true
        exact ⟨List.takeWhile_cons_of_neg hc, List.dropWhile_cons_of_neg hc⟩
  constructor
  · rw [List.takeWhile_append_of_pos hall, hend.1, List.append_nil]
  · rw [List.dropWhile_append_of_pos hall, hend.2]

theorem parseKey_text {k rest : List Char} (hk : IsWord k) :
    parseKey (k ++ ':' :: ' ' :: rest) = some (k, rest) := by
  have hcolon : Ends (':' :: ' ' :: rest) := by
    intro c text h
    obtain ⟨rfl, -⟩ := List.cons.inj h
    rfl
  obtain ⟨htake, hdrop⟩ := takeWhile_word hk hcolon
  rw [parseKey, htake, hdrop]
  cases k with
  | nil => exact absurd rfl hk.1
  | cons c k => rfl

theorem parseQuoted_text {s rest : List Char} (hs : '"' ∉ s) :
    parseQuoted (s ++ '"' :: rest) = some (s, rest) := by
  have hall : ∀ c ∈ s, (c != '"') = true := by
    intro c hc
    refine bne_iff_ne.mpr fun heq => hs ?_
    rw [← heq]
    exact hc
  rw [parseQuoted, List.dropWhile_append_of_pos hall, List.takeWhile_append_of_pos hall]
  simp

mutual

/-- How much is to be read. -/
def Flow.size : Flow → Nat
  | .word _ => 1
  | .binary _ => 1
  | .map .nil => 1
  | .map (.cons _ v rest) => 2 + v.size + rest.size

def Entries.size : Entries → Nat
  | .nil => 1
  | .cons _ v rest => 2 + v.size + rest.size

end

/-- What follows a value in a map ends it. -/
theorem ends_text (es : Entries) (rest : List Char) : Ends (es.text ++ rest) := by
  intro c text h
  cases es with
  | nil =>
      obtain ⟨rfl, -⟩ := List.cons.inj h
      rfl
  | cons k v es =>
      obtain ⟨rfl, -⟩ := List.cons.inj h
      rfl

/-- A plain character opens and closes no map, and opens no tag. -/
theorem ne_of_plain {c : Char} (h : isPlain c = true) :
    c ≠ '\x7b' ∧ c ≠ '\x7d' ∧ c ≠ '!' := by
  refine ⟨?_, ?_, ?_⟩
  · rintro rfl
    exact absurd h (by decide)
  · rintro rfl
    exact absurd h (by decide)
  · rintro rfl
    exact absurd h (by decide)

/-- A word is read up to its end. -/
theorem parseFlow_word {s rest : List Char} (hs : IsWord s) (hrest : Ends rest) (fuel : Nat) :
    parseFlow (fuel + 1) (s ++ rest) = some (.word s, rest) := by
  obtain ⟨htake, hdrop⟩ := takeWhile_word hs hrest
  obtain ⟨hne, hall⟩ := hs
  cases s with
  | nil => exact absurd rfl hne
  | cons c s =>
      obtain ⟨hbrace, -, htag⟩ := ne_of_plain (List.all_eq_true.mp hall c List.mem_cons_self)
      have hbegins : tag.isPrefixOf (c :: s ++ rest) = false := by
        rw [List.cons_append, tag, List.isPrefixOf_cons_cons, beq_false_of_ne (Ne.symm htag)]
        rfl
      rw [parseFlow, hbegins, htake, hdrop]
      · rfl
      · rintro text heq
        exact hbrace (List.cons.inj heq).1
      · rintro text heq
        exact hbrace (List.cons.inj heq).1

/-- Bytes are read up to the quotation mark. -/
theorem parseFlow_binary {s : List Char} (hs : '"' ∉ s) (rest : List Char) (fuel : Nat) :
    parseFlow (fuel + 1) (tag ++ s ++ ['"'] ++ rest) = some (.binary s, rest) := by
  have htext : tag ++ s ++ ['"'] ++ rest = tag ++ (s ++ '"' :: rest) := by simp
  have hbegins : tag.isPrefixOf (tag ++ (s ++ '"' :: rest)) = true :=
    List.isPrefixOf_iff_prefix.mpr (List.prefix_append _ _)
  rw [htext, parseFlow, if_pos hbegins, List.drop_left, parseQuoted_text hs]
  · rfl
  · rintro text heq
    exact absurd (List.cons.inj heq).1 (by decide)
  · rintro text heq
    exact absurd (List.cons.inj heq).1 (by decide)

/-- One entry is read, if its value and the others are. -/
theorem parseEntry_text {k : List Char} {v : Flow} {es : Entries} {rest : List Char}
    {fuel : Nat} (hk : IsWord k)
    (hv : parseFlow fuel (v.text ++ (es.text ++ rest)) = some (v, es.text ++ rest))
    (hes : parseEntries fuel (es.text ++ rest) = some (es, rest)) :
    parseEntry (fuel + 1) (k ++ ':' :: ' ' :: (v.text ++ es.text) ++ rest) =
      some (.cons k v es, rest) := by
  have htext : k ++ ':' :: ' ' :: (v.text ++ es.text) ++ rest =
      k ++ ':' :: ' ' :: (v.text ++ (es.text ++ rest)) := by simp
  rw [htext, parseEntry, parseKey_text hk]
  simp only [hv, hes, Option.map_some]

/-- A map that has entries is not closed before the first of them. -/
theorem not_closed {k : List Char} (hk : IsWord k) {rest text : List Char} :
    k ++ rest ≠ '\x7d' :: text := by
  obtain ⟨hne, hall⟩ := hk
  cases k with
  | nil => exact absurd rfl hne
  | cons c k =>
      intro heq
      exact (ne_of_plain (List.all_eq_true.mp hall c List.mem_cons_self)).2.1 (List.cons.inj heq).1

mutual

/-- **What is written is read**, whatever follows it. -/
theorem parseFlow_text : ∀ (t : Flow) (fuel : Nat) (rest : List Char), t.WellFormed →
    t.size ≤ fuel → Ends rest → parseFlow fuel (t.text ++ rest) = some (t, rest)
  | .word s, fuel + 1, rest, hwf, _, hrest => by
      rw [Flow.text]
      rw [Flow.WellFormed] at hwf
      exact parseFlow_word hwf hrest fuel
  | .binary s, fuel + 1, rest, hwf, _, _ => by
      rw [Flow.text]
      rw [Flow.WellFormed] at hwf
      exact parseFlow_binary hwf rest fuel
  | .map .nil, fuel + 1, rest, _, _, _ => by
      rw [Flow.text]
      exact parseFlow.eq_2 fuel rest
  | .map (.cons k v es), fuel + 2, rest, hwf, hsize, _ => by
      rw [Flow.WellFormed, Entries.WellFormed] at hwf
      rw [Flow.size] at hsize
      have hv := parseFlow_text v fuel _ hwf.2.1 (by omega) (ends_text es rest)
      have hes := parseEntries_text es fuel rest hwf.2.2 (by omega)
      have hentry := parseEntry_text hwf.1 hv hes
      rw [Flow.text, List.cons_append, parseFlow, hentry]
      · rfl
      · rintro text heq
        rw [List.append_assoc] at heq
        exact not_closed hwf.1 heq
  | .word _, 0, _, _, h, _ => absurd h (by simp [Flow.size])
  | .binary _, 0, _, _, h, _ => absurd h (by simp [Flow.size])
  | .map .nil, 0, _, _, h, _ => absurd h (by simp [Flow.size])
  | .map (.cons _ _ _), 0, _, _, h, _ => absurd h (by rw [Flow.size]; omega)
  | .map (.cons _ _ _), 1, _, _, h, _ => absurd h (by rw [Flow.size]; omega)

/-- So are further entries. -/
theorem parseEntries_text : ∀ (es : Entries) (fuel : Nat) (rest : List Char), es.WellFormed →
    es.size ≤ fuel → parseEntries fuel (es.text ++ rest) = some (es, rest)
  | .nil, fuel + 1, rest, _, _ => by
      rw [Entries.text]
      rfl
  | .cons k v es, fuel + 2, rest, hwf, hsize => by
      rw [Entries.WellFormed] at hwf
      rw [Entries.size] at hsize
      have hv := parseFlow_text v fuel _ hwf.2.1 (by omega) (ends_text es rest)
      have hes := parseEntries_text es fuel rest hwf.2.2 (by omega)
      rw [Entries.text]
      exact parseEntry_text hwf.1 hv hes
  | .nil, 0, _, _, h => absurd h (by simp [Entries.size])
  | .cons _ _ _, 0, _, _, h => absurd h (by rw [Entries.size]; omega)
  | .cons _ _ _, 1, _, _, h => absurd h (by rw [Entries.size]; omega)

end

/-! ## Documents in a text -/

mutual

/-- A value is no larger than its text. -/
theorem Flow.size_le : ∀ t : Flow, t.WellFormed → t.size ≤ t.text.length
  | .word s, hwf => by
      rw [Flow.WellFormed] at hwf
      rw [Flow.size, Flow.text]
      exact List.length_pos_iff.mpr hwf.1
  | .binary s, _ => by
      simp only [Flow.size, Flow.text, List.length_append, List.length_singleton]
      omega
  | .map .nil, _ => by
      simp [Flow.size, Flow.text]
  | .map (.cons k v es), hwf => by
      rw [Flow.WellFormed, Entries.WellFormed] at hwf
      have hv := v.size_le hwf.2.1
      have hes := es.size_le hwf.2.2
      simp only [Flow.size, Flow.text, List.length_cons, List.length_append]
      omega

/-- So are entries. -/
theorem Entries.size_le : ∀ es : Entries, es.WellFormed → es.size ≤ es.text.length
  | .nil, _ => by
      simp [Entries.size, Entries.text]
  | .cons k v es, hwf => by
      rw [Entries.WellFormed] at hwf
      have hv := v.size_le hwf.2.1
      have hes := es.size_le hwf.2.2
      simp only [Entries.size, Entries.text, List.length_cons, List.length_append]
      omega

end

/-- What separates documents from the end of a text. -/
def isBlank (c : Char) : Bool := [' ', '\r', '\n'].contains c

/-- What a text holds. -/
inductive Document where
  | one (t : Flow)
  | none
  | malformed

/-- A text with one document, or none, among blanks. -/
def readDocument (text : List Char) : Document :=
  match text.dropWhile isBlank with
  | [] => .none
  | c :: rest =>
      match parseFlow (text.length + 1) (c :: rest) with
      | some (t, rest) => if rest.all isBlank then .one t else .malformed
      | none => .malformed

/-- No blank is part of a word. -/
theorem isPlain_of_isBlank {c : Char} (h : isBlank c = true) : isPlain c = false := by
  have hmem : c ∈ [' ', '\r', '\n'] := List.contains_iff_mem.mp h
  fin_cases hmem <;> rfl

/-- Blanks end every value. -/
theorem ends_blanks {blanks : List Char} (h : blanks.all isBlank = true) : Ends blanks := by
  rintro c text rfl
  exact isPlain_of_isBlank (List.all_eq_true.mp h c List.mem_cons_self)

/-- A value does not start with a blank. -/
theorem text_eq_cons {t : Flow} (hwf : t.WellFormed) :
    ∃ c rest, t.text = c :: rest ∧ isBlank c = false := by
  cases t with
  | word s =>
      rw [Flow.WellFormed] at hwf
      cases s with
      | nil => exact absurd rfl hwf.1
      | cons c s =>
          refine ⟨c, s, rfl, ?_⟩
          cases hblank : isBlank c with
          | false => rfl
          | true =>
              have hplain := List.all_eq_true.mp hwf.2 c List.mem_cons_self
              rw [isPlain_of_isBlank hblank] at hplain
              exact absurd hplain Bool.false_ne_true
  | binary s => exact ⟨_, _, rfl, rfl⟩
  | map es =>
      cases es with
      | nil => exact ⟨_, _, rfl, rfl⟩
      | cons k v es => exact ⟨_, _, rfl, rfl⟩

/-- **A document is read back from its text**, with any blanks behind it. -/
theorem readDocument_text {t : Flow} (hwf : t.WellFormed) {blanks : List Char}
    (hblanks : blanks.all isBlank = true) : readDocument (t.text ++ blanks) = .one t := by
  obtain ⟨c, rest, htext, hc⟩ := text_eq_cons hwf
  have hsize : t.size ≤ (t.text ++ blanks).length + 1 := by
    have := t.size_le hwf
    rw [List.length_append]
    omega
  have hread := parseFlow_text t _ blanks hwf hsize (ends_blanks hblanks)
  have hfront : (t.text ++ blanks).dropWhile isBlank = c :: (rest ++ blanks) := by
    rw [htext, List.cons_append, List.dropWhile_cons_of_neg (by rw [hc]; exact Bool.false_ne_true)]
  have hcons : c :: (rest ++ blanks) = t.text ++ blanks := by rw [htext, List.cons_append]
  rw [readDocument, hfront]
  dsimp only
  rw [hcons, hread]
  exact if_pos hblanks

/-- A text of blanks holds no document. -/
theorem readDocument_blanks {blanks : List Char} (h : blanks.all isBlank = true) :
    readDocument blanks = .none := by
  have hdrop : blanks.dropWhile isBlank = [] :=
    List.dropWhile_eq_nil_iff.mpr (List.all_eq_true.mp h)
  rw [readDocument, hdrop]

/-! ## Numbers -/

/-- A number as a word. -/
def decimal (i : Int) : List Char :=
  if i < 0 then '-' :: Nat.toDigits 10 i.natAbs else Nat.toDigits 10 i.natAbs

/-- A word of digits as a number. -/
def readDigits (s : List Char) : Option Nat :=
  if s ≠ [] ∧ s.all Char.isDigit = true then some (Nat.ofDigitChars 10 s 0) else none

/-- A word as a number. -/
def readDecimal : List Char → Option Int
  | '-' :: s => (readDigits s).map fun n : Nat => -(n : Int)
  | s => (readDigits s).map Int.ofNat

theorem readDigits_toDigits (n : Nat) : readDigits (Nat.toDigits 10 n) = some n := by
  have hdigits : (Nat.toDigits 10 n).all Char.isDigit = true :=
    List.all_eq_true.mpr fun c hc => Nat.isDigit_of_mem_toDigits (by omega) (by omega) hc
  rw [readDigits, if_pos ⟨Nat.toDigits_ne_nil, hdigits⟩, Nat.ofDigitChars_ten_toDigits]

/-- Numbers are read back. -/
theorem readDecimal_decimal (i : Int) : readDecimal (decimal i) = some i := by
  rw [decimal]
  split
  case isTrue hneg =>
    rw [readDecimal, readDigits_toDigits, Option.map_some]
    refine congrArg some ?_
    omega
  case isFalse hpos =>
    rw [readDecimal, readDigits_toDigits, Option.map_some]
    · refine congrArg some ?_
      show (i.natAbs : Int) = i
      omega
    · rintro s heq
      -- a minus sign is no digit
      have hmem : '-' ∈ Nat.toDigits 10 i.natAbs := by
        rw [heq]
        exact List.mem_cons_self
      exact absurd (Nat.isDigit_of_mem_toDigits (by omega) (by omega) hmem) (by decide)

theorem isPlain_of_isDigit {c : Char} (h : c.isDigit = true) : isPlain c = true := by
  cases hmem : indicators.contains c with
  | false => rw [isPlain, hmem]; rfl
  | true =>
      have hc : c ∈ indicators := List.contains_iff_mem.mp hmem
      rw [indicators] at hc
      fin_cases hc <;> exact absurd h (by decide)

/-- A number is a word. -/
theorem isWord_decimal (i : Int) : IsWord (decimal i) := by
  have hdigits : ∀ c ∈ Nat.toDigits 10 i.natAbs, isPlain c = true := fun c hc =>
    isPlain_of_isDigit (Nat.isDigit_of_mem_toDigits (by omega) (by omega) hc)
  rw [decimal]
  split
  · refine ⟨List.cons_ne_nil _ _, List.all_eq_true.mpr ?_⟩
    intro c hc
    rcases List.mem_cons.mp hc with rfl | hc
    · rfl
    · exact hdigits c hc
  · exact ⟨Nat.toDigits_ne_nil, List.all_eq_true.mpr hdigits⟩

/-- How long the word of a number is. -/
theorem length_decimal_le {i : Int} {k : Nat} (hk : 0 < k) (h : i.natAbs < 10 ^ k) :
    (decimal i).length ≤ k + 1 := by
  have hdigits := Nat.toDigits_length 10 i.natAbs k hk h
  rw [decimal]
  split
  · rw [List.length_cons]
    omega
  · omega

/-! ## Bytes -/

/-- The 64 characters of base 64. -/
def alphabet : List Char :=
  ['A', 'B', 'C', 'D', 'E', 'F', 'G', 'H', 'I', 'J', 'K', 'L', 'M', 'N', 'O', 'P',
   'Q', 'R', 'S', 'T', 'U', 'V', 'W', 'X', 'Y', 'Z', 'a', 'b', 'c', 'd', 'e', 'f',
   'g', 'h', 'i', 'j', 'k', 'l', 'm', 'n', 'o', 'p', 'q', 'r', 's', 't', 'u', 'v',
   'w', 'x', 'y', 'z', '0', '1', '2', '3', '4', '5', '6', '7', '8', '9', '+', '/']

/-- The character of six bits. -/
def sextet (n : Nat) : Char := alphabet.getD n '='

/-- The six bits of a character. -/
def readSextet (c : Char) : Option Nat := alphabet.idxOf? c

/-- Bytes in base 64: four characters for three bytes, padded at the end. -/
def base64 : List UInt8 → List Char
  | a :: b :: c :: rest =>
      sextet (a.toNat / 4) :: sextet (a.toNat % 4 * 16 + b.toNat / 16) ::
        sextet (b.toNat % 16 * 4 + c.toNat / 64) :: sextet (c.toNat % 64) :: base64 rest
  | [a, b] =>
      [sextet (a.toNat / 4), sextet (a.toNat % 4 * 16 + b.toNat / 16),
        sextet (b.toNat % 16 * 4), '=']
  | [a] => [sextet (a.toNat / 4), sextet (a.toNat % 4 * 16), '=', '=']
  | [] => []

/-- How long the text of bytes is. -/
theorem length_base64_le (bytes : List UInt8) : (base64 bytes).length ≤ 4 * bytes.length := by
  induction bytes using base64.induct with
  | case1 a b c rest ih =>
      rw [base64]
      simp only [List.length_cons]
      omega
  | case2 a b => simp [base64]
  | case3 a => simp [base64]
  | case4 => simp [base64]

/-- The one, two or three bytes of four characters. -/
def readGroup (w x y z : Char) : Option (List UInt8) := do
  let p ← readSextet w
  let q ← readSextet x
  let a := UInt8.ofNat (p * 4 + q / 16)
  if y = '=' then
    return [a]
  let r ← readSextet y
  let b := UInt8.ofNat (q % 16 * 16 + r / 4)
  if z = '=' then
    return [a, b]
  let s ← readSextet z
  return [a, b, UInt8.ofNat (r % 4 * 64 + s)]

/-- Bytes from base 64. -/
def readBase64 : List Char → Option (List UInt8)
  | w :: x :: y :: z :: rest => do
      let g ← readGroup w x y z
      let bs ← readBase64 rest
      return g ++ bs
  | [] => some []
  | _ => none

/-- Six bits are read back, and are no padding. -/
theorem readSextet_sextet {n : Nat} (h : n < 64) :
    readSextet (sextet n) = some n ∧ sextet n ≠ '=' := by
  revert n
  decide

theorem readGroup_three (a b c : UInt8) :
    readGroup (sextet (a.toNat / 4)) (sextet (a.toNat % 4 * 16 + b.toNat / 16))
      (sextet (b.toNat % 16 * 4 + c.toNat / 64)) (sextet (c.toNat % 64)) = some [a, b, c] := by
  have ha := a.toNat_lt
  have hb := b.toNat_lt
  have hc := c.toNat_lt
  obtain ⟨hw, -⟩ := readSextet_sextet (n := a.toNat / 4) (by omega)
  obtain ⟨hx, -⟩ := readSextet_sextet (n := a.toNat % 4 * 16 + b.toNat / 16) (by omega)
  obtain ⟨hy, hy'⟩ := readSextet_sextet (n := b.toNat % 16 * 4 + c.toNat / 64) (by omega)
  obtain ⟨hz, hz'⟩ := readSextet_sextet (n := c.toNat % 64) (by omega)
  have h₁ : a.toNat / 4 * 4 + (a.toNat % 4 * 16 + b.toNat / 16) / 16 = a.toNat := by omega
  have h₂ : (a.toNat % 4 * 16 + b.toNat / 16) % 16 * 16 +
      (b.toNat % 16 * 4 + c.toNat / 64) / 4 = b.toNat := by omega
  have h₃ : (b.toNat % 16 * 4 + c.toNat / 64) % 4 * 64 + c.toNat % 64 = c.toNat := by omega
  simp only [readGroup, hw, hx, hy, hz, Option.bind_eq_bind, Option.bind_some, hy', hz',
    if_false, h₁, h₂, h₃, UInt8.ofNat_toNat]
  rfl

theorem readGroup_two (a b : UInt8) :
    readGroup (sextet (a.toNat / 4)) (sextet (a.toNat % 4 * 16 + b.toNat / 16))
      (sextet (b.toNat % 16 * 4)) '=' = some [a, b] := by
  have ha := a.toNat_lt
  have hb := b.toNat_lt
  obtain ⟨hw, -⟩ := readSextet_sextet (n := a.toNat / 4) (by omega)
  obtain ⟨hx, -⟩ := readSextet_sextet (n := a.toNat % 4 * 16 + b.toNat / 16) (by omega)
  obtain ⟨hy, hy'⟩ := readSextet_sextet (n := b.toNat % 16 * 4) (by omega)
  have h₁ : a.toNat / 4 * 4 + (a.toNat % 4 * 16 + b.toNat / 16) / 16 = a.toNat := by omega
  have h₂ : (a.toNat % 4 * 16 + b.toNat / 16) % 16 * 16 + b.toNat % 16 * 4 / 4 = b.toNat := by
    omega
  simp only [readGroup, hw, hx, hy, Option.bind_eq_bind, Option.bind_some, hy', if_false, if_true,
    h₁, h₂, UInt8.ofNat_toNat]
  rfl

theorem readGroup_one (a : UInt8) :
    readGroup (sextet (a.toNat / 4)) (sextet (a.toNat % 4 * 16)) '=' '=' = some [a] := by
  have ha := a.toNat_lt
  obtain ⟨hw, -⟩ := readSextet_sextet (n := a.toNat / 4) (by omega)
  obtain ⟨hx, -⟩ := readSextet_sextet (n := a.toNat % 4 * 16) (by omega)
  have h₁ : a.toNat / 4 * 4 + a.toNat % 4 * 16 / 16 = a.toNat := by omega
  simp only [readGroup, hw, hx, Option.bind_eq_bind, Option.bind_some, if_true, h₁,
    UInt8.ofNat_toNat]
  rfl

/-- **Bytes are read back**, zero bytes included. -/
theorem readBase64_base64 : ∀ bytes : List UInt8, readBase64 (base64 bytes) = some bytes
  | a :: b :: c :: rest => by
      rw [base64, readBase64, readGroup_three, readBase64_base64 rest]
      rfl
  | [a, b] => by
      rw [base64, readBase64, readGroup_two]
      rfl
  | [a] => by
      rw [base64, readBase64, readGroup_one]
      rfl
  | [] => rfl

theorem sextet_ne_quote (n : Nat) : sextet n ≠ '"' := by
  by_cases h : n < 64
  · revert n
    decide
  · have hlen : alphabet.length ≤ n := Nat.not_lt.mp h
    rw [sextet, List.getD_eq_getElem?_getD, List.getElem?_eq_none hlen]
    decide

/-- Base 64 has no quotation mark. -/
theorem quote_not_mem_base64 : ∀ bytes : List UInt8, '"' ∉ base64 bytes
  | a :: b :: c :: rest => by
      simp [base64, Ne.symm (sextet_ne_quote _), quote_not_mem_base64 rest]
  | [a, b] => by
      simp [base64, Ne.symm (sextet_ne_quote _)]
  | [a] => by
      simp [base64, Ne.symm (sextet_ne_quote _)]
  | [] => by
      simp [base64]

end FlowText
