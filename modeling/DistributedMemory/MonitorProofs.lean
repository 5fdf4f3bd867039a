import Mathlib.Logic.Function.Basic
import DistributedMemory.RunProofs

/-!
# Monitors — one mutex, condition variables, and sections made of single accesses

Threads share a state `σ` and run **sections** of code under one mutex. A section is a tree
of single accesses (`Code`): each reads the shared state, changes it, and goes on as it read.
It ends by leaving with a result, or by sleeping on a condition until it is woken and has the
mutex again; a broadcast wakes whoever sleeps on its condition.

* **`Fine`** — the machine that interleaves the accesses of all threads one by one.
* **`Whole`** — the machine that takes every section as one step.
* **`refines`** — what the first can show, the second can: the mutex makes sections atomic.
* **`served`** — no thread that asked for the mutex is stuck.
-/

namespace Monitor

open LabelledRun

variable {ι σ κ ℓ α : Type}

/-- What a thread does from the lock on. `κ` names the conditions, `ℓ` the places in the
    program that a section starts at. -/
inductive Code (σ κ ℓ α : Type) where
  /-- Change the shared state, and go on as it was before. -/
  | access (change : σ → σ) (next : σ → Code σ κ ℓ α)
  | broadcast (key : κ) (next : Code σ κ ℓ α)
  /-- Release the mutex and sleep; once woken, lock it again and go on at `again`. -/
  | sleep (key : κ) (again : ℓ)
  /-- Release the mutex. -/
  | leave (result : α)

/-- How a section ends. -/
inductive Ending (κ ℓ α : Type) where
  | asleep (key : κ) (again : ℓ)
  | left (result : α)

/-- What a section amounts to. -/
structure Effect (σ κ ℓ α : Type) where
  shared : σ
  signalled : List κ
  ending : Ending κ ℓ α

/-- The effect preceded by broadcasts. -/
def Effect.after (keys : List κ) (r : Effect σ κ ℓ α) : Effect σ κ ℓ α :=
  { r with signalled := keys ++ r.signalled }

@[simp] theorem Effect.after_nil (r : Effect σ κ ℓ α) : r.after [] = r := rfl

/-- A section without interruption. -/
def Code.run : Code σ κ ℓ α → σ → Effect σ κ ℓ α
  | .access change next, s => (next s).run (change s)
  | .broadcast key next, s => (next.run s).after [key]
  | .sleep key again, s => ⟨s, [], .asleep key again⟩
  | .leave result, s => ⟨s, [], .left result⟩

/-- Where a thread is outside its sections. -/
inductive Place (κ ℓ α : Type) where
  | outside
  /-- Wants the mutex, for the section that starts there. -/
  | waiting (start : ℓ)
  | asleep (key : κ) (again : ℓ)
  /-- Out of the mutex again, with a result. -/
  | done (result : α)

/-- Where the end of a section leaves its thread. -/
def Ending.place : Ending κ ℓ α → Place κ ℓ α
  | .asleep key again => .asleep key again
  | .left result => .done result

section Wake

variable [DecidableEq κ]

/-- What the broadcasts make of a thread. -/
def wake (keys : List κ) : Place κ ℓ α → Place κ ℓ α
  | .asleep key again => if key ∈ keys then .waiting again else .asleep key again
  | p => p

@[simp] theorem wake_nil (p : Place κ ℓ α) : wake [] p = p := by
  cases p with
  | asleep key again => simp [wake]
  | _ => rfl

theorem wake_append (keys keys' : List κ) (p : Place κ ℓ α) :
    wake (keys ++ keys') p = wake keys' (wake keys p) := by
  cases p with
  | asleep key again =>
      by_cases h : key ∈ keys
      · simp [wake, h]
      · simp [wake, h]
  | _ => rfl

/-- Broadcasts move nobody but sleepers. -/
theorem eq_of_wake_outside {keys : List κ} {p : Place κ ℓ α} (h : wake keys p = .outside) :
    p = .outside := by
  cases p with
  | asleep key again =>
      by_cases hk : key ∈ keys
      · simp [wake, hk] at h
      · simp [wake, hk] at h
  | _ => exact h

theorem eq_of_wake_done {keys : List κ} {p : Place κ ℓ α} {result : α}
    (h : wake keys p = .done result) : p = .done result := by
  cases p with
  | asleep key again =>
      by_cases hk : key ∈ keys
      · simp [wake, hk] at h
      · simp [wake, hk] at h
  | _ => exact h

/-- Who is still asleep was asleep, on a condition that was not broadcast on. -/
theorem eq_of_wake_asleep {keys : List κ} {p : Place κ ℓ α} {key : κ} {again : ℓ}
    (h : wake keys p = .asleep key again) : p = .asleep key again ∧ key ∉ keys := by
  cases p with
  | asleep key' again' =>
      by_cases hk : key' ∈ keys
      · simp [wake, hk] at h
      · rw [wake, if_neg hk] at h
        obtain ⟨rfl, rfl⟩ := Place.asleep.inj h
        exact ⟨rfl, hk⟩
  | outside => cases h
  | waiting start => cases h
  | done result => cases h

end Wake

/-- What is seen of a step. -/
inductive Event (ι κ ℓ α : Type) where
  | called (c : ι) (start : ℓ)
  /-- A section came to its end. -/
  | section (c : ι) (start : ℓ) (ending : Ending κ ℓ α)
  /-- A wake-up without a broadcast. -/
  | woken (c : ι)
  | returned (c : ι) (result : α)

/-! ## Section by section -/

/-- The machine that takes a section as one step. -/
structure Whole (ι σ κ ℓ α : Type) where
  shared : σ
  place : ι → Place κ ℓ α

/-- All threads outside. -/
def Whole.start (s : σ) : Whole ι σ κ ℓ α := ⟨s, fun _ => .outside⟩

/-- Thread `c` moved to `p`. -/
def Whole.move [DecidableEq ι] (a : Whole ι σ κ ℓ α) (c : ι) (p : Place κ ℓ α) :
    Whole ι σ κ ℓ α :=
  { a with place := Function.update a.place c p }

/-- Thread `c` has run its section. -/
def Whole.leave [DecidableEq ι] [DecidableEq κ] (a : Whole ι σ κ ℓ α) (c : ι)
    (r : Effect σ κ ℓ α) : Whole ι σ κ ℓ α :=
  ⟨r.shared, Function.update (fun u => wake r.signalled (a.place u)) c r.ending.place⟩

section Machines

variable [DecidableEq ι] [DecidableEq κ]

/-- One step of the machine of whole sections. `calls` says which sections a thread outside
    may ask for. -/
inductive WholeStep (code : ι → ℓ → Code σ κ ℓ α) (calls : ι → ℓ → Prop) :
    Whole ι σ κ ℓ α → Event ι κ ℓ α → Whole ι σ κ ℓ α → Prop where
  | called {a : Whole ι σ κ ℓ α} {c : ι} {start : ℓ} (hplace : a.place c = .outside)
      (hcall : calls c start) :
      WholeStep code calls a (.called c start) (a.move c (.waiting start))
  | section {a : Whole ι σ κ ℓ α} {c : ι} {start : ℓ} (hplace : a.place c = .waiting start) :
      WholeStep code calls a (.section c start ((code c start).run a.shared).ending)
        (a.leave c ((code c start).run a.shared))
  | woken {a : Whole ι σ κ ℓ α} {c : ι} {key : κ} {again : ℓ}
      (hplace : a.place c = .asleep key again) :
      WholeStep code calls a (.woken c) (a.move c (.waiting again))
  | returned {a : Whole ι σ κ ℓ α} {c : ι} {result : α} (hplace : a.place c = .done result) :
      WholeStep code calls a (.returned c result) (a.move c .outside)

/-! ## Access by access -/

/-- Where a thread is: in a section, with the rest of it to run, or not. -/
inductive Thread (σ κ ℓ α : Type) where
  | off (p : Place κ ℓ α)
  | inside (start : ℓ) (rest : Code σ κ ℓ α)

/-- The broadcast, for one thread. -/
def Thread.wake (key : κ) : Thread σ κ ℓ α → Thread σ κ ℓ α
  | .off p => .off (Monitor.wake [key] p)
  | .inside start rest => .inside start rest

/-- The machine of single accesses. -/
structure Fine (ι σ κ ℓ α : Type) where
  shared : σ
  owner : Option ι
  thread : ι → Thread σ κ ℓ α

/-- All threads outside, the mutex free. -/
def Fine.start (s : σ) : Fine ι σ κ ℓ α := ⟨s, none, fun _ => .off .outside⟩

/-- Thread `c` set to `th`. -/
def Fine.set (f : Fine ι σ κ ℓ α) (c : ι) (th : Thread σ κ ℓ α) : Fine ι σ κ ℓ α :=
  { f with thread := Function.update f.thread c th }

omit [DecidableEq κ] in
@[simp] theorem Fine.set_self (f : Fine ι σ κ ℓ α) (c : ι) (th : Thread σ κ ℓ α) :
    (f.set c th).thread c = th := by
  simp [set]

omit [DecidableEq κ] in
theorem Fine.set_other (f : Fine ι σ κ ℓ α) {c u : ι} (th : Thread σ κ ℓ α) (hu : u ≠ c) :
    (f.set c th).thread u = f.thread u := by
  simp [set, hu]

omit [DecidableEq κ] in
theorem Fine.set_shared (f : Fine ι σ κ ℓ α) (c : ι) (th : Thread σ κ ℓ α) :
    (f.set c th).shared = f.shared := rfl

/-- One step of the machine of single accesses; the mutex, the accesses and the broadcasts
    are not seen. -/
inductive FineStep (code : ι → ℓ → Code σ κ ℓ α) (calls : ι → ℓ → Prop) :
    Fine ι σ κ ℓ α → Option (Event ι κ ℓ α) → Fine ι σ κ ℓ α → Prop where
  | called {f : Fine ι σ κ ℓ α} {c : ι} {start : ℓ} (hthread : f.thread c = .off .outside)
      (hcall : calls c start) :
      FineStep code calls f (some (.called c start)) (f.set c (.off (.waiting start)))
  | lock {f : Fine ι σ κ ℓ α} {c : ι} {start : ℓ} (howner : f.owner = none)
      (hthread : f.thread c = .off (.waiting start)) :
      FineStep code calls f none
        { f.set c (.inside start (code c start)) with owner := some c }
  | access {f : Fine ι σ κ ℓ α} {c : ι} {start : ℓ} {change : σ → σ}
      {next : σ → Code σ κ ℓ α} (hthread : f.thread c = .inside start (.access change next)) :
      FineStep code calls f none
        { f.set c (.inside start (next f.shared)) with shared := change f.shared }
  | broadcast {f : Fine ι σ κ ℓ α} {c : ι} {start : ℓ} {key : κ} {next : Code σ κ ℓ α}
      (hthread : f.thread c = .inside start (.broadcast key next)) :
      FineStep code calls f none
        (Fine.set { f with thread := fun u => (f.thread u).wake key } c (.inside start next))
  | sleep {f : Fine ι σ κ ℓ α} {c : ι} {start again : ℓ} {key : κ}
      (hthread : f.thread c = .inside start (.sleep key again)) :
      FineStep code calls f (some (.section c start (.asleep key again)))
        { f.set c (.off (.asleep key again)) with owner := none }
  | unlock {f : Fine ι σ κ ℓ α} {c : ι} {start : ℓ} {result : α}
      (hthread : f.thread c = .inside start (.leave result)) :
      FineStep code calls f (some (.section c start (.left result)))
        { f.set c (.off (.done result)) with owner := none }
  | woken {f : Fine ι σ κ ℓ α} {c : ι} {key : κ} {again : ℓ}
      (hthread : f.thread c = .off (.asleep key again)) :
      FineStep code calls f (some (.woken c)) (f.set c (.off (.waiting again)))
  | returned {f : Fine ι σ κ ℓ α} {c : ι} {result : α}
      (hthread : f.thread c = .off (.done result)) :
      FineStep code calls f (some (.returned c result)) (f.set c (.off .outside))

/-! ## The mutex makes sections atomic -/

/-- How the two machines correspond. While a section is under way the second has not begun
    it: its shared state is the one the section found, and what is left to run ends as the
    whole section does. -/
inductive Corresponds (code : ι → ℓ → Code σ κ ℓ α) (f : Fine ι σ κ ℓ α)
    (a : Whole ι σ κ ℓ α) : Prop where
  | free (howner : f.owner = none) (hshared : f.shared = a.shared)
      (hthread : ∀ u, f.thread u = .off (a.place u))
  | held {c : ι} {start : ℓ} {r : Code σ κ ℓ α} {k : List κ} (howner : f.owner = some c)
      (hthread : f.thread c = .inside start r) (hplace : a.place c = .waiting start)
      (hrun : (code c start).run a.shared = (r.run f.shared).after k)
      (hothers : ∀ u, u ≠ c → f.thread u = .off (wake k (a.place u)))

variable {code : ι → ℓ → Code σ κ ℓ α} {calls : ι → ℓ → Prop} {f f' : Fine ι σ κ ℓ α}
  {a : Whole ι σ κ ℓ α}

omit [DecidableEq ι] in
theorem start_corresponds (s : σ) :
    Corresponds code (Fine.start (ι := ι) s) (Whole.start s) :=
  .free rfl rfl fun _ => rfl

/-- **Mutual exclusion**: only the owner is inside. -/
theorem Corresponds.owner_of_inside (h : Corresponds code f a) {c : ι} {start : ℓ}
    {rest : Code σ κ ℓ α} (hin : f.thread c = .inside start rest) : f.owner = some c := by
  cases h with
  | free howner hshared hthread =>
      rw [hthread c] at hin
      cases hin
  | @held c' _ _ _ howner hthread hplace hrun hothers =>
      by_cases hc : c = c'
      · rw [hc]
        exact howner
      · rw [hothers c hc] at hin
        cases hin

/-- What a thread that is not inside does is done by both machines. -/
theorem Corresponds.move (h : Corresponds code f a) {c : ι} {p q : Place κ ℓ α}
    (hoff : f.thread c = .off p) (hp : ∀ keys, wake keys (a.place c) = p → a.place c = p)
    (hq : ∀ keys : List κ, wake keys q = q) :
    a.place c = p ∧ Corresponds code (f.set c (.off q)) (a.move c q) := by
  cases h with
  | free howner hshared hthread =>
      have hplace : a.place c = p := by
        rw [hthread c] at hoff
        exact Thread.off.inj hoff
      refine ⟨hplace, .free howner hshared fun u => ?_⟩
      by_cases hu : u = c
      · subst hu
        simp [Whole.move]
      · rw [Fine.set_other _ _ hu, hthread u]
        simp [Whole.move, hu]
  | @held c' start rest keys howner hthread hplace hrun hothers =>
      have hne : c ≠ c' := by
        rintro rfl
        rw [hthread] at hoff
        cases hoff
      have hp' : a.place c = p := by
        rw [hothers c hne] at hoff
        exact hp keys (Thread.off.inj hoff)
      refine ⟨hp', .held (c := c') (r := rest) (k := keys) howner ?_ ?_ hrun ?_⟩
      · rw [Fine.set_other _ _ hne.symm]
        exact hthread
      · simp [Whole.move, hne.symm, hplace]
      · intro u hu
        by_cases huc : u = c
        · subst huc
          simp [Whole.move, hq]
        · rw [Fine.set_other _ _ huc, hothers u hu]
          simp [Whole.move, huc]

/-- The end of a section is the step of the other machine. -/
theorem Corresponds.finish (calls : ι → ℓ → Prop) (h : Corresponds code f a) {c : ι} {start : ℓ}
    {rest : Code σ κ ℓ α} {ending : Ending κ ℓ α} (hin : f.thread c = .inside start rest)
    (hend : rest.run f.shared = ⟨f.shared, [], ending⟩) :
    ∃ a', WholeStep code calls a (.section c start ending) a' ∧
      Corresponds code { f.set c (.off ending.place) with owner := none } a' := by
  cases h with
  | free howner hshared hthread =>
      rw [hthread c] at hin
      cases hin
  | @held c' start' rest' keys howner hthread hplace hrun hothers =>
      obtain rfl : c = c' := by
        by_contra hne
        rw [hothers c hne] at hin
        cases hin
      rw [hthread] at hin
      obtain ⟨rfl, rfl⟩ := Thread.inside.inj hin
      rw [hend] at hrun
      have hsection : WholeStep code calls a (.section c _ _) _ := .section hplace
      rw [hrun] at hsection
      refine ⟨_, hsection, .free rfl rfl fun u => ?_⟩
      by_cases hu : u = c
      · subst hu
        simp [Whole.leave, Effect.after, Fine.set]
      · show (f.set c (.off ending.place)).thread u = _
        rw [Fine.set_other _ _ hu, hothers u hu]
        simp [Whole.leave, Effect.after, hu]

/-- **A step of single accesses is unseen, or a step of whole sections.** -/
theorem step_corresponds {e : Option (Event ι κ ℓ α)} (h : Corresponds code f a)
    (hs : FineStep code calls f e f') :
    (e = none ∧ Corresponds code f' a) ∨
      ∃ e' a', e = some e' ∧ WholeStep code calls a e' a' ∧ Corresponds code f' a' := by
  cases hs with
  | @called c start hthread hcall =>
      obtain ⟨hplace, hnext⟩ := h.move (q := .waiting start) hthread
        (fun _ hk => eq_of_wake_outside hk) (fun _ => rfl)
      exact Or.inr ⟨_, _, rfl, .called hplace hcall, hnext⟩
  | @lock c start howner hthread =>
      refine Or.inl ⟨rfl, ?_⟩
      cases h with
      | free _ hshared hall =>
          have hplace : a.place c = .waiting start := by
            rw [hall c] at hthread
            exact Thread.off.inj hthread
          refine .held (r := code c start) (k := []) rfl (by simp [Fine.set]) hplace ?_ ?_
          · show _ = ((code c start).run f.shared).after []
            rw [Effect.after_nil, hshared]
          · intro u hu
            rw [wake_nil, ← hall u]
            exact Fine.set_other _ _ hu
      | held howner' _ _ _ _ =>
          rw [howner] at howner'
          cases howner'
  | @access c start change next hthread =>
      refine Or.inl ⟨rfl, ?_⟩
      cases h with
      | free _ _ hall =>
          rw [hall c] at hthread
          cases hthread
      | @held c' start' rest keys howner hin hplace hrun hothers =>
          obtain rfl : c = c' := by
            by_contra hne
            rw [hothers c hne] at hthread
            cases hthread
          rw [hin] at hthread
          obtain ⟨rfl, rfl⟩ := Thread.inside.inj hthread
          exact .held howner (by simp [Fine.set]) hplace hrun fun u hu =>
            (Fine.set_other _ _ hu).trans (hothers u hu)
  | @broadcast c start key next hthread =>
      refine Or.inl ⟨rfl, ?_⟩
      cases h with
      | free _ _ hall =>
          rw [hall c] at hthread
          cases hthread
      | @held c' start' rest keys howner hin hplace hrun hothers =>
          obtain rfl : c = c' := by
            by_contra hne
            rw [hothers c hne] at hthread
            cases hthread
          rw [hin] at hthread
          obtain ⟨rfl, rfl⟩ := Thread.inside.inj hthread
          refine .held (r := next) (k := keys ++ [key]) howner (by simp [Fine.set]) hplace
            ?_ ?_
          · rw [hrun]
            show ((next.run f.shared).after [key]).after keys = _
            simp [Effect.after, Fine.set]
          · intro u hu
            rw [Fine.set_other _ _ hu]
            show (f.thread u).wake key = _
            rw [hothers u hu, wake_append]
            rfl
  | sleep hthread =>
      obtain ⟨a', hs', hnext⟩ := h.finish calls hthread rfl
      exact Or.inr ⟨_, a', rfl, hs', hnext⟩
  | unlock hthread =>
      obtain ⟨a', hs', hnext⟩ := h.finish calls hthread rfl
      exact Or.inr ⟨_, a', rfl, hs', hnext⟩
  | @woken c key again hthread =>
      obtain ⟨hplace, hnext⟩ := h.move (q := .waiting again) hthread
        (fun _ hk => (eq_of_wake_asleep hk).1) (fun _ => rfl)
      exact Or.inr ⟨_, _, rfl, .woken hplace, hnext⟩
  | @returned c result hthread =>
      obtain ⟨hplace, hnext⟩ := h.move (q := .outside) hthread
        (fun _ hk => eq_of_wake_done hk) (fun _ => rfl)
      exact Or.inr ⟨_, _, rfl, .returned hplace, hnext⟩

/-- **Refinement.** Whatever a run of single accesses shows, a run of whole sections shows,
    and the two end in corresponding states. -/
theorem refines {s : σ} {tr : List (Entry (Fine ι σ κ ℓ α) (Option (Event ι κ ℓ α)))}
    (hrun : Run (FineStep code calls) (Fine.start s) tr f) :
    ∃ tr' a, Run (WholeStep code calls) (Whole.start s) tr' a ∧ Corresponds code f a ∧
      tr'.map Entry.event = tr.filterMap Entry.event :=
  hrun.simulate (start_corresponds s) fun _ _ _ _ hR hs => step_corresponds hR hs

/-! ## Nobody is stuck -/

/-- A step that `c` makes with the mutex: it owns it before or after, and nothing is seen but
    the end of its section. -/
def MadeBy (c : ι) (t : Entry (Fine ι σ κ ℓ α) (Option (Event ι κ ℓ α))) : Prop :=
  (t.pre.owner = some c ∨ t.post.owner = some c) ∧
    (t.event = none ∨ ∃ start ending, t.event = some (.section c start ending))

/-- Thread `c` has come to the end of a section with the effect `r`. -/
structure Released (c : ι) (r : Effect σ κ ℓ α) (f f' : Fine ι σ κ ℓ α) : Prop where
  owner : f'.owner = none
  shared : f'.shared = r.shared
  place : f'.thread c = .off r.ending.place
  others : ∀ u p, u ≠ c → f.thread u = .off p → f'.thread u = .off (wake r.signalled p)

/-- The owner, left alone, comes to the end of its section. -/
theorem released (rest : Code σ κ ℓ α) :
    ∀ {f : Fine ι σ κ ℓ α} {c : ι} {start : ℓ}, f.owner = some c →
      f.thread c = .inside start rest →
      ∃ tr f', Run (FineStep code calls) f tr f' ∧ Released c (rest.run f.shared) f f' ∧
        tr.filterMap Entry.event = [.section c start (rest.run f.shared).ending] ∧
        ∀ t ∈ tr, MadeBy c t := by
  have hfirst : ∀ {f f' : Fine ι σ κ ℓ α} {c : ι}
      {tr : List (Entry (Fine ι σ κ ℓ α) (Option (Event ι κ ℓ α)))}, f.owner = some c →
      (∀ t ∈ tr, MadeBy c t) → ∀ t ∈ ([] ++ [⟨f, none, f'⟩]) ++ tr, MadeBy c t := by
    intro f f' c tr howner hmade t ht
    rcases List.mem_append.mp ht with hhead | htail
    · obtain rfl := List.mem_singleton.mp hhead
      exact ⟨Or.inl howner, Or.inl rfl⟩
    · exact hmade t htail
  induction rest with
  | access change next ih =>
      intro f c start howner hin
      have hstep : FineStep code calls f none _ := .access hin
      obtain ⟨tr, f', hrun, hreleased, hseen, hmade⟩ :=
        ih f.shared (f := { f.set c (.inside start (next f.shared)) with
          shared := change f.shared }) howner (Fine.set_self ..)
      refine ⟨_, f', (Run.nil.snoc hstep).append hrun, ?_, hseen, hfirst howner hmade⟩
      exact ⟨hreleased.owner, hreleased.shared, hreleased.place, fun u p hu hoff =>
        hreleased.others u p hu ((Fine.set_other _ _ hu).trans hoff)⟩
  | broadcast key next ih =>
      intro f c start howner hin
      have hstep : FineStep code calls f none _ := .broadcast hin
      obtain ⟨tr, f', hrun, hreleased, hseen, hmade⟩ :=
        ih (f := Fine.set { f with thread := fun u => (f.thread u).wake key } c
          (.inside start next)) howner (Fine.set_self ..)
      refine ⟨_, f', (Run.nil.snoc hstep).append hrun, ?_, hseen, hfirst howner hmade⟩
      refine ⟨hreleased.owner, hreleased.shared, hreleased.place, fun u p hu hoff => ?_⟩
      have hwoken : (Fine.set { f with thread := fun u => (f.thread u).wake key } c
          (.inside start next)).thread u = .off (wake [key] p) := by
        rw [Fine.set_other _ _ hu]
        show (f.thread u).wake key = _
        rw [hoff]
        rfl
      rw [hreleased.others u _ hu hwoken, ← wake_append]
      rfl
  | sleep key again =>
      intro f c start howner hin
      refine ⟨_, _, Run.nil.snoc (.sleep hin), ⟨rfl, rfl, Fine.set_self .., fun u p hu hoff => ?_⟩,
        rfl, fun t ht => ?_⟩
      · show (f.set c _).thread u = .off (wake [] p)
        rw [Fine.set_other _ _ hu, hoff, wake_nil]
      · obtain rfl := List.mem_singleton.mp ht
        exact ⟨Or.inl howner, Or.inr ⟨start, _, rfl⟩⟩
  | leave result =>
      intro f c start howner hin
      refine ⟨_, _, Run.nil.snoc (.unlock hin), ⟨rfl, rfl, Fine.set_self .., fun u p hu hoff => ?_⟩,
        rfl, fun t ht => ?_⟩
      · show (f.set c _).thread u = .off (wake [] p)
        rw [Fine.set_other _ _ hu, hoff, wake_nil]
      · obtain rfl := List.mem_singleton.mp ht
        exact ⟨Or.inl howner, Or.inr ⟨start, _, rfl⟩⟩

/-- With the mutex free, a thread that wants it can have its section run. -/
theorem served_free {c : ι} {start : ℓ} (hfree : f.owner = none)
    (hwaits : f.thread c = .off (.waiting start)) :
    ∃ tr f', Run (FineStep code calls) f tr f' ∧
      Released c ((code c start).run f.shared) f f' ∧
      tr.filterMap Entry.event = [.section c start ((code c start).run f.shared).ending] ∧
      ∀ t ∈ tr, MadeBy c t := by
  have hlock : FineStep code calls f none _ := .lock hfree hwaits
  obtain ⟨tr, f', hrun, hreleased, hseen, hmade⟩ :=
    released (code c start) (f := { f.set c (.inside start (code c start)) with
      owner := some c }) rfl (Fine.set_self ..)
  refine ⟨_, f', (Run.nil.snoc hlock).append hrun, ?_, hseen, ?_⟩
  · exact ⟨hreleased.owner, hreleased.shared, hreleased.place, fun u p hu hoff =>
      hreleased.others u p hu ((Fine.set_other _ _ hu).trans hoff)⟩
  · intro t ht
    rcases List.mem_append.mp ht with hhead | htail
    · obtain rfl := List.mem_singleton.mp hhead
      exact ⟨Or.inr rfl, Or.inl rfl⟩
    · exact hmade t htail

/-- **A thread that wants the mutex can have its section run**, after at most one section of
    the thread that holds it, and with no step of any other. -/
theorem served (calls : ι → ℓ → Prop) (h : Corresponds code f a) {c : ι} {start : ℓ}
    (hwaits : f.thread c = .off (.waiting start)) :
    ∃ tr f' ending others, Run (FineStep code calls) f tr f' ∧ f'.owner = none ∧
      f'.thread c = .off ending.place ∧
      tr.filterMap Entry.event = others ++ [.section c start ending] ∧
      (∀ e ∈ others, ∃ u start' ending', e = .section u start' ending' ∧ f.owner = some u) ∧
      ∀ t ∈ tr, MadeBy c t ∨ ∃ u, f.owner = some u ∧ MadeBy u t := by
  cases h with
  | free howner _ _ =>
      obtain ⟨tr, f', hrun, hreleased, hseen, hmade⟩ := served_free howner hwaits
      exact ⟨tr, f', _, [], hrun, hreleased.owner, hreleased.place, hseen, nofun,
        fun t ht => Or.inl (hmade t ht)⟩
  | @held d start' rest keys howner hin _ _ _ =>
      have hne : c ≠ d := by
        rintro rfl
        rw [hin] at hwaits
        cases hwaits
      -- the owner leaves first
      obtain ⟨tr₀, f₀, hrun₀, hreleased₀, hseen₀, hmade₀⟩ := released rest howner hin
      obtain ⟨tr, f', hrun, hreleased, hseen, hmade⟩ :=
        served_free hreleased₀.owner (hreleased₀.others c _ hne hwaits)
      refine ⟨_, f', _, [.section d start' (rest.run f.shared).ending], hrun₀.append hrun,
        hreleased.owner, hreleased.place, by simp [hseen₀, hseen], ?_, ?_⟩
      · intro e he
        exact ⟨d, start', _, List.mem_singleton.mp he, howner⟩
      · intro t ht
        rcases List.mem_append.mp ht with hbefore | hafter
        · exact Or.inr ⟨d, howner, hmade₀ t hbefore⟩
        · exact Or.inl (hmade t hafter)

end Machines

end Monitor
