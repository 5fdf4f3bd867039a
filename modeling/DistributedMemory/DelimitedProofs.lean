import Mathlib.Data.List.Basic
import Mathlib.Data.List.Infix

/-!
# Delimited strings — messages that end with a token

A sequence of strings can be written one behind the other if each ends with a token that it
contains nowhere else. Who reads the sequence in chunks, and takes what there is as soon as
the token is in it, gets the strings back if the chunks end where the strings do.

* **`Delimited`** — a string that ends with the token and contains it nowhere else.
* **`assemble`** — chunks put together until the token is in them.
* **`assemble_eq_iff`** — what is put together are the strings that have arrived, exactly if
  no chunk goes on behind the end of a string.
-/

namespace Delimiters

variable {α : Type}

/-! ## The token in a string -/

/-- Where the token occurs first. -/
def find [DecidableEq α] (token : List α) : List α → Option Nat
  | [] => if token = [] then some 0 else none
  | x :: s => if token <+: x :: s then some 0 else (find token s).map (· + 1)

theorem find_eq_none_iff [DecidableEq α] (token s : List α) :
    find token s = none ↔ ¬ token <:+: s := by
  induction s with
  | nil =>
      rw [find, List.infix_nil]
      by_cases h : token = []
      · rw [if_pos h]
        exact iff_of_false nofun (not_not_intro h)
      · rw [if_neg h]
        exact iff_of_true rfl h
  | cons x s ih =>
      rw [find, List.infix_cons_iff]
      by_cases h : token <+: x :: s
      · rw [if_pos h]
        exact iff_of_false nofun (not_not_intro (Or.inl h))
      · rw [if_neg h, Option.map_eq_none_iff, ih]
        exact ⟨fun hno hin => hin.elim h hno, fun hno hin => hno (Or.inr hin)⟩

/-- The string ends with the token and contains it nowhere else. -/
structure Delimited (token s : List α) : Prop where
  suffix : token <:+ s
  once : ∀ front rest, s = front ++ token ++ rest → rest = []

/-- A text without the token's first element, and the token behind it. -/
theorem delimited_append {x : α} {token text : List α} (h : x ∉ text) :
    Delimited (x :: token) (text ++ x :: token) where
  suffix := List.suffix_append text (x :: token)
  once front rest hsplit := by
    rw [List.append_assoc] at hsplit
    rcases List.append_eq_append_iff.mp hsplit with ⟨between, -, heq⟩ | ⟨between, heq, hrest⟩
    · have hlen := congrArg List.length heq
      rw [List.length_append, List.length_append] at hlen
      exact List.length_eq_zero_iff.mp (by omega)
    · cases between with
      | nil => exact List.append_right_eq_self.mp hrest
      | cons y between =>
          -- the token begins within the text
          obtain ⟨rfl, -⟩ := List.cons.inj hrest
          rw [heq] at h
          exact absurd (List.mem_append_right front List.mem_cons_self) h

/-- **The token is in a part of the stream** exactly if the first string is. -/
theorem Delimited.infix_iff {token s rest x : List α} (h : Delimited token s)
    (hx : x <+: s ++ rest) : token <:+: x ↔ s.length ≤ x.length := by
  constructor
  · rintro ⟨front, back, hsplit⟩
    by_contra hlt
    obtain ⟨more, hmore⟩ :=
      List.prefix_of_prefix_length_le hx (List.prefix_append s rest) (Nat.le_of_not_le hlt)
    -- what follows the token within `s` is nothing, so `x` is all of `s`
    have hs : s = front ++ token ++ (back ++ more) := by
      rw [← hmore, ← hsplit, List.append_assoc]
    have hnil := (List.append_eq_nil_iff.mp (h.once front (back ++ more) hs)).2
    rw [← hmore, hnil, List.append_nil] at hlt
    exact hlt (Nat.le_refl _)
  · intro hle
    have hsx := List.prefix_of_prefix_length_le (List.prefix_append s rest) hx hle
    exact h.suffix.isInfix.trans hsx.isInfix

/-- A part of the stream without the token ends within the first string. -/
theorem Delimited.lt_of_absent {token s rest x : List α} (h : Delimited token s)
    (hx : x <+: s ++ rest) (hno : ¬ token <:+: x) : x.length < s.length :=
  Nat.not_le.mp (mt (h.infix_iff hx).mpr hno)

/-! ## Chunks -/

/-- The length of the first `k` strings: where the `k`-th one ends. -/
def endOf (strings : List (List α)) (k : Nat) : Nat := (strings.take k).flatten.length

theorem endOf_zero (strings : List (List α)) : endOf strings 0 = 0 := rfl

theorem endOf_nil (k : Nat) : endOf ([] : List (List α)) k = 0 := by
  rw [endOf, List.take_nil]
  rfl

theorem endOf_cons (s : List α) (strings : List (List α)) (k : Nat) :
    endOf (s :: strings) (k + 1) = s.length + endOf strings k := by
  rw [endOf, List.take_succ_cons, List.flatten_cons, List.length_append]
  rfl

/-- The strings that lie within the first `n` elements of the stream. -/
def whole : List (List α) → Nat → List (List α)
  | [], _ => []
  | s :: strings, n => if s.length ≤ n then s :: whole strings (n - s.length) else []

/-- No chunk goes on behind the end of a string; the first one begins at `start`. -/
def Separate (strings : List (List α)) : Nat → List (List α) → Prop
  | _, [] => True
  | start, chunk :: chunks =>
      (∀ k, ¬ (start < endOf strings k ∧ endOf strings k < start + chunk.length)) ∧
        Separate strings (start + chunk.length) chunks

/-- Chunks that begin behind the first string are chunks of the others. -/
theorem separate_cons (s : List α) (strings : List (List α)) (start : Nat)
    (chunks : List (List α)) :
    Separate (s :: strings) (s.length + start) chunks ↔ Separate strings start chunks := by
  induction chunks generalizing start with
  | nil => exact Iff.rfl
  | cons chunk chunks ih =>
      rw [Separate, Separate, Nat.add_assoc, ih]
      refine and_congr_left fun _ => ?_
      constructor
      · intro h k
        have hk := h (k + 1)
        rw [endOf_cons] at hk
        omega
      · intro h k
        cases k with
        | zero =>
            rw [endOf_zero]
            omega
        | succ k =>
            have hk := h k
            rw [endOf_cons]
            omega

/-- A chunk that ends within the first string, or with it, goes on behind no end. -/
theorem not_behind {strings : List (List α)} {s : List α} {start n : Nat} (k : Nat)
    (hn : n ≤ s.length) :
    ¬ (start < endOf (s :: strings) k ∧ endOf (s :: strings) k < n) := by
  cases k with
  | zero =>
      rw [endOf_zero]
      omega
  | succ k =>
      rw [endOf_cons]
      omega

/-- The first chunk has the end of the first string: it has to end there. -/
theorem separate_reaches {strings chunks : List (List α)} {s chunk : List α} {start : Nat}
    (hstart : start < s.length) (hle : s.length ≤ start + chunk.length) :
    Separate (s :: strings) start (chunk :: chunks) ↔
      start + chunk.length = s.length ∧ Separate strings 0 chunks := by
  rw [Separate]
  have hshift := separate_cons s strings 0 chunks
  rw [Nat.add_zero] at hshift
  constructor
  · rintro ⟨hnot, hrest⟩
    have hone := hnot 1
    rw [endOf_cons, endOf_zero] at hone
    have heq : start + chunk.length = s.length := by omega
    rw [heq] at hrest
    exact ⟨heq, hshift.mp hrest⟩
  · rintro ⟨heq, hrest⟩
    rw [heq]
    exact ⟨fun k => not_behind k (Nat.le_refl _), hshift.mpr hrest⟩

/-- Chunks put together until the token is in them, from the part `acc` of a string on. -/
def assemble [DecidableEq α] (token : List α) : List α → List (List α) → List (List α)
  | _, [] => []
  | acc, chunk :: chunks =>
      if token <:+: acc ++ chunk then (acc ++ chunk) :: assemble token [] chunks
      else assemble token (acc ++ chunk) chunks

/-- The token is there: what was put together is the first string, if the chunk ends with
    it. -/
theorem assemble_reaches [DecidableEq α] {token s acc chunk : List α}
    {strings chunks : List (List α)} (hs : Delimited token s)
    (hfront : acc ++ chunk <+: s ++ strings.flatten) (hacc : ¬ token <:+: acc)
    (htoken : token <:+: acc ++ chunk)
    (hrest : acc ++ chunk = s → (assemble token [] chunks = whole strings chunks.flatten.length ↔
      Separate strings 0 chunks)) :
    (acc ++ chunk) :: assemble token [] chunks =
        whole (s :: strings) ((acc ++ chunk).length + chunks.flatten.length) ↔
      Separate (s :: strings) acc.length (chunk :: chunks) := by
  have hsum : acc.length + chunk.length = (acc ++ chunk).length := List.length_append.symm
  have hlt : acc.length < s.length :=
    hs.lt_of_absent ((List.prefix_append acc chunk).trans hfront) hacc
  have hle : s.length ≤ (acc ++ chunk).length := (hs.infix_iff hfront).mp htoken
  rw [whole, if_pos (by omega), separate_reaches hlt (by omega)]
  constructor
  · intro hcons
    obtain ⟨hwhole, htail⟩ := List.cons.inj hcons
    rw [hwhole, Nat.add_sub_cancel_left] at htail
    rw [hsum, hwhole]
    exact ⟨rfl, (hrest hwhole).mp htail⟩
  · rintro ⟨heq, hseparate⟩
    have hlength : (acc ++ chunk).length = s.length := hsum.symm.trans heq
    have hwhole : acc ++ chunk = s :=
      (List.prefix_of_prefix_length_le hfront (List.prefix_append s _)
        (Nat.le_of_eq hlength)).eq_of_length hlength
    rw [hwhole, Nat.add_sub_cancel_left, (hrest hwhole).mpr hseparate]

/-- **What is put together are the strings that have arrived**, exactly if no chunk goes on
    behind the end of one. -/
theorem assemble_eq_iff [DecidableEq α] {token : List α} {strings : List (List α)}
    (hstrings : ∀ s ∈ strings, Delimited token s) {acc : List α} {chunks : List (List α)}
    (hbegins : acc ++ chunks.flatten <+: strings.flatten) (hacc : ¬ token <:+: acc) :
    assemble token acc chunks = whole strings (acc.length + chunks.flatten.length) ↔
      Separate strings acc.length chunks := by
  induction chunks generalizing strings acc with
  | nil =>
      rw [assemble, Separate]
      refine iff_true_intro ?_
      cases strings with
      | nil => rfl
      | cons s strings =>
          rw [List.flatten_cons, List.flatten_nil, List.append_nil] at hbegins
          have hlt := (hstrings s List.mem_cons_self).lt_of_absent hbegins hacc
          rw [whole, List.flatten_nil, List.length_nil, Nat.add_zero,
            if_neg (Nat.not_le.mpr hlt)]
  | cons chunk chunks ih =>
      rw [List.flatten_cons, ← List.append_assoc] at hbegins
      have hfront : acc ++ chunk <+: strings.flatten :=
        (List.prefix_append _ _).trans hbegins
      have hlen : acc.length + (chunk :: chunks).flatten.length =
          (acc ++ chunk).length + chunks.flatten.length := by
        rw [List.flatten_cons, List.length_append, List.length_append, Nat.add_assoc]
      rw [assemble, hlen]
      by_cases htoken : token <:+: acc ++ chunk
      · rw [if_pos htoken]
        have hempty : ¬ token <:+: [] := fun h => hacc (h.trans List.nil_infix)
        cases strings with
        | nil =>
            -- there is nothing to read, and the token is not empty
            rw [List.prefix_nil.mp hfront] at htoken
            exact absurd htoken hempty
        | cons s strings =>
            have hs := hstrings s List.mem_cons_self
            refine assemble_reaches hs hfront hacc htoken fun hwhole => ?_
            -- the next string begins with the next chunk
            rw [hwhole] at hbegins
            have hbehind : chunks.flatten <+: strings.flatten :=
              (List.prefix_append_right_inj s).mp hbegins
            have hih := ih (fun s' hs' => hstrings s' (List.mem_cons_of_mem _ hs'))
              (show [] ++ chunks.flatten <+: strings.flatten from hbehind) hempty
            rwa [List.length_nil, Nat.zero_add] at hih
      · have hsum : acc.length + chunk.length = (acc ++ chunk).length :=
          List.length_append.symm
        rw [if_neg htoken, Separate, hsum, ih hstrings hbegins htoken]
        refine (and_iff_right fun k => ?_).symm
        cases strings with
        | nil =>
            rw [endOf_nil]
            omega
        | cons s strings =>
            have hlt := (hstrings s List.mem_cons_self).lt_of_absent hfront htoken
            exact not_behind k (Nat.le_of_lt hlt)

end Delimiters
