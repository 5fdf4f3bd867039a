import Mathlib.Data.List.Basic
import Mathlib.Data.List.Induction

/-!
# Labelled runs — finite executions with their whole history

A labelled transition relation `step : σ → ε → σ → Prop` moves a state and emits an
event. A **run** records, for every step it takes, the state before, the event and the
state after, oldest step first, so that a statement about a run can speak of any earlier
moment of it.

* **`Run.invariant`** — a predicate kept by every step holds at the end of a run.
* **`Run.take`** — the first `i` steps of a run are a run to the state before step `i`;
  with it an argument about the last step reaches every step.
* **`Run.project`** — the run of a part of the state.
* **`Run.image`**, **`Run.simulate`** — the run of a coarser relation that shows the same,
  where the coarser state is a function of the finer one, and where it is related to it.
* **`Run.traceInduction`** — induction on a run where the induction hypothesis holds at
  *every* earlier moment, not only at the previous one.
-/

namespace LabelledRun

variable {σ ε : Type}

/-- One step of a run: the state before, the event, the state after. -/
structure Entry (σ ε : Type) where
  pre : σ
  event : ε
  post : σ

/-- `Run step s₀ tr s`: the steps `tr`, oldest first, lead from `s₀` to `s`. -/
inductive Run (step : σ → ε → σ → Prop) (s₀ : σ) : List (Entry σ ε) → σ → Prop where
  | nil : Run step s₀ [] s₀
  | snoc {tr : List (Entry σ ε)} {s s' : σ} {e : ε} :
      Run step s₀ tr s → step s e s' → Run step s₀ (tr ++ [⟨s, e, s'⟩]) s'

/-- An entry of a list with one more element at its end is an old one or the new one. -/
theorem getElem?_snoc_cases {α : Type} {l : List α} {x y : α} {i : Nat}
    (h : (l ++ [x])[i]? = some y) :
    (i < l.length ∧ l[i]? = some y) ∨ (i = l.length ∧ y = x) := by
  rcases Nat.lt_trichotomy i l.length with hlt | heq | hgt
  · rw [List.getElem?_append_left hlt] at h
    exact Or.inl ⟨hlt, h⟩
  · subst heq
    rw [List.getElem?_concat_length] at h
    exact Or.inr ⟨rfl, (Option.some.inj h).symm⟩
  · rw [List.getElem?_eq_none (by simp; omega)] at h
    cases h

/-- Appending keeps the entries there are. -/
theorem getElem?_append_of_some {α : Type} {l l' : List α} {y : α} {i : Nat}
    (h : l[i]? = some y) : (l ++ l')[i]? = some y := by
  obtain ⟨hlt, -⟩ := List.getElem?_eq_some_iff.mp h
  rw [List.getElem?_append_left hlt]
  exact h

/-- What the first `i` elements have at a place, the list has there, before `i`. -/
theorem getElem?_of_take {α : Type} {l : List α} {i j : Nat} {x : α}
    (h : (l.take i)[j]? = some x) : j < i ∧ l[j]? = some x := by
  rw [List.getElem?_take] at h
  by_cases hlt : j < i
  · rw [if_pos hlt] at h
    exact ⟨hlt, h⟩
  · rw [if_neg hlt] at h
    exact nomatch h

/-- Before the place of the `n`-th element that satisfies `p` there are `n` of them. -/
theorem countP_take_of_findIdxs {α : Type} {p : α → Bool} {l : List α} {n j : Nat}
    (h : (l.findIdxs p)[n]? = some j) : (l.take j).countP p = n := by
  induction l using List.reverseRecOn with
  | nil => exact nomatch h
  | append_singleton l x ih =>
      rw [List.findIdxs_append, List.findIdxs_singleton, Nat.zero_add] at h
      by_cases hx : p x = true
      · rw [if_pos hx] at h
        rcases getElem?_snoc_cases h with ⟨hlt, hold⟩ | ⟨rfl, rfl⟩
        · have hj : j < l.length := by
            have hin := List.mem_of_getElem? hold
            rw [List.mem_findIdxs_iff_exists_getElem_pos] at hin
            exact hin.choose
          rw [List.take_append_of_le_length (Nat.le_of_lt hj)]
          exact ih hold
        · rw [List.take_left, List.length_findIdxs]
      · rw [if_neg hx, List.append_nil] at h
        have hj : j < l.length := by
          have hin := List.mem_of_getElem? h
          rw [List.mem_findIdxs_iff_exists_getElem_pos] at hin
          exact hin.choose
        rw [List.take_append_of_le_length (Nat.le_of_lt hj)]
        exact ih h

/-- The place of an element that satisfies `p`. -/
theorem mem_findIdxs {α : Type} {p : α → Bool} {l : List α} {j : Nat} {x : α}
    (h : l[j]? = some x) : j ∈ l.findIdxs p ↔ p x = true := by
  obtain ⟨hlt, rfl⟩ := List.getElem?_eq_some_iff.mp h
  exact List.mem_findIdxs_iff_pos_getElem hlt

/-! ## Part of a list -/

section Part

variable {α β : Type} (f : α → Option β) (l : List α)

/-- How many of the first `i` elements are taken over. -/
def rank (i : Nat) : Nat := ((l.take i).filterMap f).length

variable {f l}

theorem rank_mono {i j : Nat} (h : i ≤ j) : rank f l i ≤ rank f l j :=
  ((List.take_prefix_take_left h).filterMap f).length_le

theorem rank_succ {i : Nat} {x : α} {y : β} (hi : l[i]? = some x) (hx : f x = some y) :
    rank f l (i + 1) = rank f l i + 1 := by
  rw [rank, List.take_add_one, hi, List.filterMap_append, List.length_append]
  show _ + ([x].filterMap f).length = _
  rw [List.filterMap_cons_some hx]
  rfl

/-- Elements that are taken over keep their order. -/
theorem rank_lt_iff {i j : Nat} {x : α} {y : β} (hi : l[i]? = some x) (hx : f x = some y) :
    rank f l i < rank f l j ↔ i < j := by
  constructor
  · exact fun h => Nat.lt_of_not_le fun hle => absurd (rank_mono hle) (Nat.not_le.mpr h)
  · intro h
    have hmono := rank_mono (f := f) (l := l) (Nat.succ_le_of_lt h)
    rw [Nat.succ_eq_add_one, rank_succ hi hx] at hmono
    exact hmono

theorem rank_inj {i j : Nat} {x x' : α} {y y' : β} (hi : l[i]? = some x) (hx : f x = some y)
    (hj : l[j]? = some x') (hx' : f x' = some y') (h : rank f l i = rank f l j) : i = j := by
  rcases Nat.lt_trichotomy i j with hlt | heq | hgt
  · exact absurd h (Nat.ne_of_lt ((rank_lt_iff hi hx).mpr hlt))
  · exact heq
  · exact absurd h.symm (Nat.ne_of_lt ((rank_lt_iff hj hx').mpr hgt))

/-- Where an element that is taken over ends up. -/
theorem getElem?_filterMap {i : Nat} {x : α} {y : β} (hi : l[i]? = some x)
    (hx : f x = some y) : (l.filterMap f)[rank f l i]? = some y := by
  have hsplit : l.filterMap f = (l.take (i + 1)).filterMap f ++ (l.drop (i + 1)).filterMap f := by
    rw [← List.filterMap_append, List.take_append_drop]
  have htake : (l.take (i + 1)).filterMap f = (l.take i).filterMap f ++ [y] := by
    rw [List.take_add_one, hi, List.filterMap_append]
    show _ ++ [x].filterMap f = _
    rw [List.filterMap_cons_some hx]
    rfl
  rw [hsplit, htake, rank]
  exact getElem?_append_of_some List.getElem?_concat_length

/-- Where an element was taken over from. -/
theorem of_getElem?_filterMap {n : Nat} {y : β} (h : (l.filterMap f)[n]? = some y) :
    ∃ i x, l[i]? = some x ∧ f x = some y ∧ rank f l i = n := by
  induction l using List.reverseRecOn with
  | nil => exact nomatch h
  | append_singleton l x ih =>
      have hold : ∀ {i : Nat} {x' : α}, l[i]? = some x' →
          rank f (l ++ [x]) i = rank f l i := by
        intro i x' hi
        obtain ⟨hlt, -⟩ := List.getElem?_eq_some_iff.mp hi
        rw [rank, rank, List.take_append_of_le_length (Nat.le_of_lt hlt)]
      rw [List.filterMap_append] at h
      cases hx : f x with
      | none =>
          rw [List.filterMap_cons_none hx, List.filterMap_nil, List.append_nil] at h
          obtain ⟨i, x', hi, hx', hrank⟩ := ih h
          exact ⟨i, x', getElem?_append_of_some hi, hx', (hold hi).trans hrank⟩
      | some y' =>
          rw [List.filterMap_cons_some hx, List.filterMap_nil] at h
          rcases getElem?_snoc_cases h with ⟨-, hin⟩ | ⟨rfl, rfl⟩
          · obtain ⟨i, x', hi, hx', hrank⟩ := ih hin
            exact ⟨i, x', getElem?_append_of_some hi, hx', (hold hi).trans hrank⟩
          · refine ⟨l.length, x, List.getElem?_concat_length, hx, ?_⟩
            rw [rank, List.take_left]

end Part

/-- The steps of a run that are seen, between the images of the states. -/
def imageOf {σ' ε' : Type} (f : σ → σ') (seen : Entry σ ε → Option ε')
    (tr : List (Entry σ ε)) : List (Entry σ' ε') :=
  tr.filterMap fun t => (seen t).map fun e => ⟨f t.pre, e, f t.post⟩

namespace Run

variable {step : σ → ε → σ → Prop} {s₀ s : σ} {tr : List (Entry σ ε)}

/-- **Invariant rule.** What holds at the start and is kept by every step holds at the
    end of every run. -/
theorem invariant {I : σ → Prop} (h : Run step s₀ tr s) (h₀ : I s₀)
    (hstep : ∀ s e s', I s → step s e s' → I s') : I s := by
  induction h with
  | nil => exact h₀
  | snoc _ hs ih => exact hstep _ _ _ ih hs

/-- Every recorded step is a step of the relation. -/
theorem step_of_mem (h : Run step s₀ tr s) {t : Entry σ ε} (ht : t ∈ tr) :
    step t.pre t.event t.post := by
  induction h with
  | nil => exact nomatch ht
  | snoc _ hs ih =>
      rcases List.mem_append.mp ht with hin | hlast
      · exact ih hin
      · rw [List.mem_singleton.mp hlast]
        exact hs

/-- The first `i` steps of a run are a run to the state before step `i`. -/
theorem take (h : Run step s₀ tr s) {i : Nat} {t : Entry σ ε} (ht : tr[i]? = some t) :
    Run step s₀ (tr.take i) t.pre := by
  induction h with
  | nil => simp at ht
  | @snoc tr s s' e hrun hs ih =>
      rcases getElem?_snoc_cases ht with ⟨hlt, hin⟩ | ⟨rfl, rfl⟩
      · rw [List.take_append_of_le_length (Nat.le_of_lt hlt)]
        exact ih hin
      · rw [List.take_left]
        exact hrun

/-- The last step of a run, and the run before it. -/
theorem unsnoc {s' : σ} {t : Entry σ ε} (h : Run step s₀ (tr ++ [t]) s') :
    Run step s₀ tr t.pre ∧ step t.pre t.event s' := by
  generalize htr : tr ++ [t] = tr' at h
  cases h with
  | nil => exact absurd htr (List.append_ne_nil_of_right_ne_nil tr (List.cons_ne_nil t []))
  | snoc hrun hs =>
      obtain ⟨rfl, hlast⟩ := List.append_inj' htr rfl
      obtain rfl := List.head_eq_of_cons_eq hlast
      exact ⟨hrun, hs⟩

/-- Two runs in a row are one. -/
theorem append {s' : σ} {tr' : List (Entry σ ε)} (h : Run step s₀ tr s)
    (h' : Run step s tr' s') : Run step s₀ (tr ++ tr') s' := by
  induction h' with
  | nil => rwa [List.append_nil]
  | snoc _ hs ih =>
      rw [← List.append_assoc]
      exact ih.snoc hs

/-- **Projection rule.** Where every step either leaves the part `f` of the state alone or is
    a step of another relation on it, a run is a run of that relation on the part. -/
theorem project {σ' ε' : Type} {step' : σ' → ε' → σ' → Prop} {f : σ → σ'}
    (h : Run step s₀ tr s)
    (hstep : ∀ s e s', step s e s' → f s' = f s ∨ ∃ e', step' (f s) e' (f s')) :
    ∃ tr', Run step' (f s₀) tr' (f s) := by
  induction h with
  | nil => exact ⟨[], Run.nil⟩
  | snoc _ hs ih =>
      obtain ⟨tr', hrun'⟩ := ih
      rcases hstep _ _ _ hs with heq | ⟨e', hs'⟩
      · rw [heq]
        exact ⟨tr', hrun'⟩
      · exact ⟨_, hrun'.snoc hs'⟩

/-- **Image rule.** Where every step of a run is either unseen and leaves the image `f` of the
    state alone, or is a step of another relation on the images, the image of the run is a run
    of that relation. -/
theorem image {σ' ε' : Type} {step' : σ' → ε' → σ' → Prop} {f : σ → σ'}
    {seen : Entry σ ε → Option ε'} (h : Run step s₀ tr s)
    (hstep : ∀ t ∈ tr, (seen t = none ∧ f t.post = f t.pre) ∨
      ∃ e', seen t = some e' ∧ step' (f t.pre) e' (f t.post)) :
    Run step' (f s₀) (imageOf f seen tr) (f s) := by
  induction h with
  | nil => exact Run.nil
  | @snoc tr s s' e _ _ ih =>
      have hpre := ih fun t ht => hstep t (List.mem_append_left _ ht)
      rw [imageOf, List.filterMap_append]
      rcases hstep ⟨s, e, s'⟩ (List.mem_append_right _ List.mem_cons_self)
        with ⟨hnone, heq⟩ | ⟨e', hsome, hs'⟩
      · rw [show f s' = f s from heq, List.filterMap_cons_none (by rw [hnone]; rfl),
          List.filterMap_nil, List.append_nil]
        exact hpre
      · rw [List.filterMap_cons_some (b := ⟨f s, e', f s'⟩) (by rw [hsome]; rfl),
          List.filterMap_nil]
        exact hpre.snoc hs'

/-- **Simulation rule.** Where every step of a run is either unseen by another relation, or
    matched by a step of it that shows what is seen, the other relation has a run that shows
    everything seen, and ends in a related state. -/
theorem simulate {σ' ε' : Type} {step' : σ' → ε' → σ' → Prop} {seen : ε → Option ε'}
    {R : σ → σ' → Prop} {a₀ : σ'} (h : Run step s₀ tr s) (h₀ : R s₀ a₀)
    (hstep : ∀ s e s' a, R s a → step s e s' →
      (seen e = none ∧ R s' a) ∨ ∃ e' a', seen e = some e' ∧ step' a e' a' ∧ R s' a') :
    ∃ tr' a, Run step' a₀ tr' a ∧ R s a ∧
      tr'.map Entry.event = tr.filterMap fun t => seen t.event := by
  induction h with
  | nil => exact ⟨[], a₀, Run.nil, h₀, rfl⟩
  | @snoc tr s s' e _ hs ih =>
      obtain ⟨tr', a, hrun', hR, hseen⟩ := ih
      rcases hstep s e s' a hR hs with ⟨hnone, hR'⟩ | ⟨e', a', hsome, hs', hR'⟩
      · refine ⟨tr', a, hrun', hR', ?_⟩
        rw [List.filterMap_append, hseen]
        simp [hnone]
      · refine ⟨tr' ++ [⟨a, e', a'⟩], a', hrun'.snoc hs', hR', ?_⟩
        rw [List.filterMap_append, List.map_append, hseen]
        simp [hsome]

/-- The same, where nothing is unseen: the other relation shows what the run shows. -/
theorem simulateEach {σ' : Type} {step' : σ' → ε → σ' → Prop} {R : σ → σ' → Prop} {a₀ : σ'}
    (h : Run step s₀ tr s) (h₀ : R s₀ a₀)
    (hstep : ∀ s e s' a, R s a → step s e s' → ∃ a', step' a e a' ∧ R s' a') :
    ∃ tr' a, Run step' a₀ tr' a ∧ R s a ∧ tr'.map Entry.event = tr.map Entry.event := by
  have hone : ∀ s e s' a, R s a → step s e s' →
      (some e = none ∧ R s' a) ∨ ∃ e' a', some e = some e' ∧ step' a e' a' ∧ R s' a' := by
    intro s e s' a hR hs
    obtain ⟨a', hs', hR'⟩ := hstep s e s' a hR hs
    exact Or.inr ⟨e, a', rfl, hs', hR'⟩
  obtain ⟨tr', a, hrun', hR, hseen⟩ := h.simulate h₀ hone
  refine ⟨tr', a, hrun', hR, ?_⟩
  rw [hseen, ← List.filterMap_eq_map]
  rfl

/-- **Induction over all earlier moments.** To prove `J` of a run it may be assumed of
    every proper prefix of it. -/
theorem traceInduction {J : List (Entry σ ε) → σ → Prop} (h : Run step s₀ tr s)
    (h₀ : J [] s₀)
    (hsnoc : ∀ tr s e s', Run step s₀ tr s → step s e s' → J tr s →
      (∀ i t, tr[i]? = some t → J (tr.take i) t.pre) → J (tr ++ [⟨s, e, s'⟩]) s') :
    J tr s ∧ ∀ i t, tr[i]? = some t → J (tr.take i) t.pre := by
  induction h with
  | nil => exact ⟨h₀, fun i t ht => by simp at ht⟩
  | @snoc tr s s' e hrun hs ih =>
      refine ⟨hsnoc tr s e s' hrun hs ih.1 ih.2, ?_⟩
      intro i t ht
      rcases getElem?_snoc_cases ht with ⟨hlt, hin⟩ | ⟨rfl, rfl⟩
      · rw [List.take_append_of_le_length (Nat.le_of_lt hlt)]
        exact ih.2 i t hin
      · rw [List.take_left]
        exact ih.1

end Run

/-! ## Running a list of actions -/

section Exec

variable {α : Type} (next : σ → α → Option (ε × σ))

/-- Perform actions one after the other, recording the steps. -/
def exec : σ → List α → Option (List (Entry σ ε) × σ)
  | s, [] => some ([], s)
  | s, a :: rest =>
      match next s a with
      | none => none
      | some (e, s') =>
          match exec s' rest with
          | none => none
          | some (tr, s'') => some (⟨s, e, s'⟩ :: tr, s'')

/-- What an executable step function performs is a run of any relation it is sound for. -/
theorem run_of_exec {step : σ → ε → σ → Prop}
    (hsound : ∀ s a e s', next s a = some (e, s') → step s e s') :
    ∀ (acts : List α) (s : σ) {tr : List (Entry σ ε)} {s' : σ},
      exec next s acts = some (tr, s') → Run step s tr s' := by
  intro acts
  induction acts with
  | nil =>
      intro s tr s' h
      obtain ⟨rfl, rfl⟩ : [] = tr ∧ s = s' := by simpa [exec] using h
      exact Run.nil
  | cons a rest ih =>
      intro s tr s' h
      rw [exec] at h
      cases hn : next s a with
      | none => rw [hn] at h; exact nomatch h
      | some p =>
          obtain ⟨e, s₁⟩ := p
          rw [hn] at h
          cases hr : exec next s₁ rest with
          | none => simp only [hr] at h; exact nomatch h
          | some q =>
              obtain ⟨tr₁, s₂⟩ := q
              simp only [hr] at h
              obtain ⟨rfl, rfl⟩ : ⟨s, e, s₁⟩ :: tr₁ = tr ∧ s₂ = s' := by simpa using h
              have hfirst : Run step s [⟨s, e, s₁⟩] s₁ := Run.nil.snoc (hsound s a e s₁ hn)
              exact hfirst.append (ih s₁ hr)

/-- The same, for a list of actions of which it is known what it shows. -/
theorem run_of_events {step : σ → ε → σ → Prop}
    (hsound : ∀ s a e s', next s a = some (e, s') → step s e s') (acts : List α) (s : σ)
    {evs : List ε}
    (h : (exec next s acts).map (fun q => q.1.map Entry.event) = some evs) :
    ∃ tr s', Run step s tr s' ∧ tr.map Entry.event = evs := by
  cases hx : exec next s acts with
  | none =>
      rw [hx] at h
      exact nomatch h
  | some q =>
      rw [hx] at h
      exact ⟨q.1, q.2, run_of_exec next hsound acts s hx, Option.some.inj h⟩

/-- An event at a place of the list of events is the event of the step there. -/
theorem event_of_map {tr : List (Entry σ ε)} {evs : List ε} (h : tr.map Entry.event = evs)
    {i : Nat} {e : ε} (hi : evs[i]? = some e) :
    ∃ t, tr[i]? = some t ∧ t.event = e := by
  rw [← h, List.getElem?_map] at hi
  obtain ⟨t, ht, hev⟩ := Option.map_eq_some_iff.mp hi
  exact ⟨t, ht, hev⟩

end Exec

end LabelledRun
