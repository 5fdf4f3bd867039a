import DistributedMemory.DmReaderRunProofs
import Mathlib.Algebra.Order.BigOperators.Group.Finset
import Mathlib.Data.Fintype.BigOperators

/-!
# The readers finish

Every call and every change to memory brings a reader closer to its end, and as long as a
round is on, one of its readers can go on: a reader waits only for a number that the other
has written or can still write.

* **`Reader1.work`**, **`Reader2.work`** — what is left to do; a WAIT and the UPDATE after it
  are left for a copy from before the other's write.
* **`step_work`** — every step leaves less; **`round_goes_on`** — there is one.
* **`readers_agree`** — no process dies, and the two readers of a round print the same.
* **`readers_finish`** — the steps are bounded, and from every state the test can be brought
  to its end, exactly if no number is 0, which stands for one that is not there yet.
-/

namespace DmReader

open DmBlock DmConfig DmClient DmServer DmRouting DmCluster DmAtomic DmContract DmHandoff DmProgram
  LabelledRun

/-! ## What is left to do -/

namespace Reader1

/-- How many calls and changes to memory `reader1` has before it at most, with `n` text blocks;
    `stale` is that its copy of the words is from before the other's write. -/
def work (n : Nat) (stale : Bool) : Reader1 → Nat
  | .map _ rest _ => 3 * n + 12 + rest.length
  | .read _ rest => 2 * n + 12 + rest.length
  | .writeText _ rest => n + 12 + rest.length
  | .putSize => n + 11
  | .writeSize => n + 10
  | .putSpaces => n + 9
  | .writeSpaces _ => n + 8
  | .look _ => n + 5 + if stale then 2 else 0
  | .update _ => n + 6
  | .writeWords _ _ => n + 4
  | .unmap _ rest _ => rest.length + 1
  | .done _ | .failed => 0

variable {T : Test} {stale stale' : Bool}

theorem work_writing (n : Nat) (l : List Int32) : (writing l).work n stale = n + 11 + l.length := by
  cases l with
  | nil => rfl
  | cons k rest =>
      show n + 12 + rest.length = _
      rw [List.length_cons]
      omega

theorem work_reading (l : List Int32) :
    (reading T.textsize l).work T.pages.length stale = 2 * T.pages.length + 11 + l.length := by
  cases l with
  | nil =>
      show (writing T.pages).work T.pages.length stale = _
      rw [work_writing, List.length_nil]
      omega
  | cons k rest =>
      show 2 * T.pages.length + 12 + rest.length = _
      rw [List.length_cons]
      omega

theorem work_mapping (l : List Int32) :
    (mapping T.textsize 0 l).work T.pages.length stale
      = 3 * T.pages.length + 11 + l.length := by
  cases l with
  | nil =>
      rw [mapping, if_neg (by decide)]
      show (reading T.textsize T.pages).work T.pages.length stale = _
      rw [work_reading, List.length_nil]
      omega
  | cons k rest =>
      show 3 * T.pages.length + 12 + rest.length = _
      rw [List.length_cons]
      omega

theorem work_unmapping (n : Nat) (out : Output) (l : List Int32) :
    (unmapping out l).work n stale = l.length := by
  cases l <;> rfl

theorem work_look (n : Nat) (nspaces : Int32) :
    n + 5 ≤ (Reader1.look nspaces).work n stale ∧ (Reader1.look nspaces).work n stale ≤ n + 7 := by
  rw [work]
  split <;> omega

end Reader1

namespace Reader2

/-- The same of `reader2`, for its copies of the size and of the spaces. -/
def work (n : Nat) (stale stale' : Bool) : Reader2 → Nat
  | .map _ rest _ => 2 * n + 14 + rest.length
  | .lookSize => 2 * n + 11 + if stale then 2 else 0
  | .updateSize => 2 * n + 12
  | .writeSize _ => 2 * n + 10
  | .mapText _ rest _ => n + 10 + rest.length
  | .putWords _ => n + 9
  | .writeWords _ _ => n + 8
  | .look _ _ => n + 5 + if stale' then 2 else 0
  | .update _ _ => n + 6
  | .writeSpaces _ _ _ => n + 4
  | .unmap _ rest _ => rest.length + 1
  | .done _ | .failed => 0

variable {n : Nat} {s s' : Bool}

theorem work_mapping (l : List Int32) : (mapping 0 l).work n s s' ≤ 2 * n + 13 + l.length := by
  cases l with
  | nil =>
      show 2 * n + 11 + (if s then 2 else 0) ≤ 2 * n + 13
      split <;> omega
  | cons k rest =>
      show 2 * n + 14 + rest.length ≤ _
      rw [List.length_cons]
      omega

theorem work_mappingText (textsize : Int32) (l : List Int32) :
    (mappingText textsize l).work n s s' = n + 9 + l.length := by
  cases l with
  | nil => rfl
  | cons k rest =>
      show n + 10 + rest.length = _
      rw [List.length_cons]
      omega

theorem work_unmapping (out : Output) (l : List Int32) :
    (unmapping out l).work n s s' = l.length := by
  cases l <;> rfl

end Reader2

/-! ## Every step leaves less -/

section Work

variable {T : Test} {r : Nat} {heap : Int32 → Data} {blocks : Int32 → Option BlockLocal}

theorem length_unmaps (T : Test) : (T.pages ++ [100, 101, 102]).length = T.pages.length + 3 := by
  rw [List.length_append]
  rfl

/-- **A call of `reader1`** leaves less, as its WAIT is for a copy from before the write and its
    UPDATE gets one from after it. -/
theorem reader1_call_work {st : Reader1} {call : Call} {stale stale' : Bool}
    (hsound : st.Sound T r) (hact : (reader1 T.text (T.unset r) heap).act st blocks = .call call)
    (hwait : call = .wait 102 → stale = true) (hupdate : call = .update 102 → stale' = false) :
    ((reader1 T.text (T.unset r) heap).resume st 0).work T.pages.length stale'
      < st.work T.pages.length stale := by
  cases st with
  | map k rest res =>
      obtain ⟨-, rfl⟩ := hsound
      show (Reader1.mapping T.textsize 0 rest).work T.pages.length stale' < _
      rw [Reader1.work_mapping, Reader1.work]
      omega
  | read k rest => cases hact
  | writeText k rest =>
      show (Reader1.writing rest).work T.pages.length stale' < _
      rw [Reader1.work_writing, Reader1.work]
      omega
  | putSize => cases hact
  | writeSize => exact Nat.lt_succ_self _
  | putSpaces => cases hact
  | writeSpaces nspaces => exact Nat.lt_succ_of_le (Reader1.work_look _ nspaces).2
  | look nspaces =>
      rw [hwait (look_call hact).2]
      exact Nat.lt_succ_self _
  | update nspaces =>
      rw [hupdate (Act.call.inj hact).symm]
      exact Nat.lt_succ_self _
  | writeWords nspaces nwords =>
      show (Reader1.unmapping _ (T.pages ++ [100, 101, 102])).work T.pages.length stale' < _
      rw [Reader1.work_unmapping, length_unmaps]
      exact Nat.lt_succ_self _
  | unmap k rest out =>
      show (Reader1.unmapping out rest).work T.pages.length stale' < _
      rw [Reader1.work_unmapping]
      exact Nat.lt_succ_self _
  | done out => cases hact
  | failed => cases hact

/-- So does a change to its memory. -/
theorem reader1_store_work {st next : Reader1} {id : Int32} {data : Data} {stale stale' : Bool}
    (hact : (reader1 T.text (T.unset r) heap).act st blocks = .store id data next) :
    next.work T.pages.length stale' < st.work T.pages.length stale := by
  cases st with
  | map k rest res => cases hact
  | read k rest =>
      obtain ⟨-, -, rfl⟩ := Act.store.inj hact
      show (Reader1.reading T.textsize rest).work T.pages.length stale' < _
      rw [Reader1.work_reading, Reader1.work]
      omega
  | writeText k rest => cases hact
  | putSize =>
      obtain ⟨-, -, rfl⟩ := Act.store.inj hact
      exact Nat.lt_succ_self _
  | writeSize => cases hact
  | putSpaces =>
      obtain ⟨-, -, rfl⟩ := Act.store.inj hact
      exact Nat.lt_succ_self _
  | writeSpaces nspaces => cases hact
  | look nspaces =>
      obtain ⟨-, -, -, rfl⟩ := look_store hact
      exact (Reader1.work_look _ nspaces).1
  | update nspaces => cases hact
  | writeWords nspaces nwords => cases hact
  | unmap k rest out => cases hact
  | done out => cases hact
  | failed => cases hact

/-- **A call of `reader2`** leaves less. -/
theorem reader2_call_work {st : Reader2} {call : Call} {s t s' t' : Bool}
    (hsound : st.Sound T r) (hact : (reader2 heap).act st blocks = .call call)
    (hwait : (call = .wait 100 → s = true) ∧ (call = .wait 101 → t = true))
    (hupdate : (call = .update 100 → s' = false) ∧ (call = .update 101 → t' = false)) :
    ((reader2 heap).resume st 0).work T.pages.length s' t' < st.work T.pages.length s t := by
  cases st with
  | map k rest res =>
      obtain ⟨-, rfl⟩ := hsound
      refine Nat.lt_of_le_of_lt (Reader2.work_mapping rest) ?_
      rw [Reader2.work]
      omega
  | lookSize =>
      rw [hwait.1 (look_call hact).2]
      exact Nat.lt_succ_self _
  | updateSize =>
      rw [hupdate.1 (Act.call.inj hact).symm]
      exact Nat.lt_succ_self _
  | writeSize textsize =>
      obtain ⟨rfl, -⟩ := hsound
      show (Reader2.mappingText _ T.pages).work T.pages.length s' t' < _
      rw [Reader2.work_mappingText, Reader2.work]
      omega
  | mapText k rest textsize =>
      show (Reader2.mappingText _ rest).work T.pages.length s' t' < _
      rw [Reader2.work_mappingText, Reader2.work]
      omega
  | putWords textsize => cases hact
  | writeWords textsize nwords =>
      show T.pages.length + 5 + (if t' then 2 else 0) < T.pages.length + 8
      split <;> omega
  | look textsize nwords =>
      rw [hwait.2 (look_call hact).2]
      exact Nat.lt_succ_self _
  | update textsize nwords =>
      rw [hupdate.2 (Act.call.inj hact).symm]
      exact Nat.lt_succ_self _
  | writeSpaces textsize nwords nspaces =>
      obtain ⟨rfl, rfl, rfl, -⟩ := hsound
      show (Reader2.unmapping _ (T.pages ++ [100, 101, 102])).work T.pages.length s' t' < _
      rw [Reader2.work_unmapping, length_unmaps]
      exact Nat.lt_succ_self _
  | unmap k rest out =>
      show (Reader2.unmapping out rest).work T.pages.length s' t' < _
      rw [Reader2.work_unmapping]
      exact Nat.lt_succ_self _
  | done out => cases hact
  | failed => cases hact

/-- So does a change to its memory. -/
theorem reader2_store_work {st next : Reader2} {id : Int32} {data : Data} {n : Nat}
    {s t s' t' : Bool} (hact : (reader2 heap).act st blocks = .store id data next) :
    next.work n s' t' < st.work n s t := by
  cases st with
  | map k rest res => cases hact
  | lookSize =>
      obtain ⟨-, -, -, rfl⟩ := look_store hact
      show 2 * n + 10 < 2 * n + 11 + (if s then 2 else 0)
      omega
  | updateSize => cases hact
  | writeSize textsize => cases hact
  | mapText k rest textsize => cases hact
  | putWords textsize =>
      obtain ⟨-, -, rfl⟩ := Act.store.inj hact
      exact Nat.lt_succ_self _
  | writeWords textsize nwords => cases hact
  | look textsize nwords =>
      obtain ⟨-, -, -, rfl⟩ := look_store hact
      show n + 4 < n + 5 + (if t then 2 else 0)
      omega
  | update textsize nwords => cases hact
  | writeSpaces textsize nwords nspaces => cases hact
  | unmap k rest out => cases hact
  | done out => cases hact
  | failed => cases hact

end Work

section Rounds

variable {F : Fleet (Nat × Bool)} {T : Test} {server : Int32 → String} {r : Nat} {b : Bool}
  {p p' : Play (Nat × Bool) (Reader1 ⊕ Reader2)} {a a' : Board (Nat × Bool)}
  {proc : Nat × Bool → Reader1 ⊕ Reader2}

/-- What is left to do for a reader with the copies `blocks`. -/
def work (T : Test) (r : Nat) (st : Reader1 ⊕ Reader2) (blocks : Int32 → Option BlockLocal) :
    Nat :=
  match st with
  | .inl st => st.work T.pages.length ((T.handoff r 102).stale (blocks 102))
  | .inr st => st.work T.pages.length ((T.handoff r 100).stale (blocks 100))
      ((T.handoff r 101).stale (blocks 101))

/-- A call in a round leaves the reader less to do. -/
theorem CallDone.work (h : InRound F T server r a proc) {call : Call} {code : Int}
    (hdone : CallDone F T server r b a a' proc call code)
    (hact : ((T.readertest).program (r, b)).act (proc (r, b)) (a.client (r, b)).blocks = .call call) :
    work T r (((T.readertest).program (r, b)).resume (proc (r, b)) 0) (a'.client (r, b)).blocks
      < work T r (proc (r, b)) (a.client (r, b)).blocks := by
  have hkind := h.kind (r, b)
  have hsound := h.sound b
  have hwaited : ∀ k, call = .wait k → (T.handoff r k).stale ((a.client (r, b)).blocks k) = true := by
    rintro k rfl
    exact hdone.waited rfl
  have hupdated : ∀ k, call = .update k →
      (T.handoff r k).stale ((a'.client (r, b)).blocks k) = false := by
    rintro k rfl
    exact hdone.updated rfl
  generalize proc (r, b) = st at hact hkind hsound ⊢
  cases b with
  | false =>
      obtain ⟨st, rfl⟩ := Sum.isLeft_iff.mp hkind
      rw [program_first] at hact
      exact reader1_call_work hsound (within_call hact rfl) (hwaited 102) (hupdated 102)
  | true =>
      obtain ⟨st, rfl⟩ : ∃ s, st = .inr s := Sum.isRight_iff.mp (by simpa using hkind)
      rw [program_second] at hact
      exact reader2_call_work hsound (within_call hact rfl) ⟨hwaited 100, hwaited 101⟩
        ⟨hupdated 100, hupdated 101⟩

/-- So does a change to its memory. -/
theorem store_work {st next : Reader1 ⊕ Reader2} {blocks blocks' : Int32 → Option BlockLocal}
    {id : Int32} {data : Data} (hkind : st.isLeft = !b)
    (hact : ((T.readertest).program (r, b)).act st blocks = .store id data next) :
    work T r next blocks' < work T r st blocks := by
  cases b with
  | false =>
      obtain ⟨st, rfl⟩ := Sum.isLeft_iff.mp hkind
      rw [program_first] at hact
      obtain ⟨next, rfl, hact'⟩ := within_store hact rfl
      exact reader1_store_work hact'
  | true =>
      obtain ⟨st, rfl⟩ : ∃ s, st = .inr s := Sum.isRight_iff.mp (by simpa using hkind)
      rw [program_second] at hact
      obtain ⟨next, rfl, hact'⟩ := within_store hact rfl
      exact reader2_store_work hact'

/-- What is left to do for a process. -/
def workOf (T : Test) (p : Play (Nat × Bool) (Reader1 ⊕ Reader2)) (c : Nat × Bool) : Nat :=
  work T c.1 (p.proc c) (p.board.client c).blocks

theorem workOf_self {c : Nat × Bool} {st : Reader1 ⊕ Reader2} :
    workOf T ⟨a', Function.update proc c st⟩ c = work T c.1 st (a'.client c).blocks := by
  show work T c.1 (Function.update proc c st c) _ = _
  rw [Function.update_self]

theorem workOf_other {c u : Nat × Bool} {st : Reader1 ⊕ Reader2} (hu : u ≠ c)
    (hcopies : ∀ k, (a'.client u).blocks k = (a.client u).blocks k) :
    workOf T ⟨a', Function.update proc c st⟩ u = workOf T ⟨a, proc⟩ u := by
  show work T u.1 (Function.update proc c st u) (a'.client u).blocks = work T u.1 (proc u) _
  rw [Function.update_of_ne hu, funext hcopies]

/-- **Every step leaves less to do**, for whoever takes it. -/
theorem step_work (hd : Deployed F T server) (hkept : Kept F p.board)
    (h : InRound F T server r p.board p.proc) {d : Deed (Nat × Bool)}
    (hs : PlayStep T.readertest F p d p') :
    workOf T p' d.party < workOf T p d.party ∧
      ∀ u, u ≠ d.party → workOf T p' u = workOf T p u := by
  cases hs with
  | called hready hact hstep =>
      obtain ⟨r', b, rfl, h⟩ := h.turn hd.fits hready (busy_of_act hact (by simp))
      have hdone := h.called hd hkept hact hstep
      obtain rfl := hdone.code_eq
      refine ⟨?_, fun u hu => workOf_other hu fun k => hdone.copies u k hu⟩
      rw [Deed.party, workOf_self]
      exact hdone.work h hact
  | died hready hact hstep =>
      obtain ⟨r', b, rfl, h⟩ := h.turn hd.fits hready (busy_of_act hact (by simp))
      exact absurd hstep (h.survives hd hkept hact)
  | poked hready hact hstep hdata =>
      obtain ⟨r', b, rfl, h⟩ := h.turn hd.fits hready (busy_of_act hact (by simp))
      refine ⟨?_, fun u hu => workOf_other hu fun k => (h.poked hd hact hstep hdata).2 u k hu⟩
      rw [Deed.party, workOf_self]
      exact store_work (h.kind _) hact

/-! ## The whole test -/

/-- What is left to do in the rounds before `R`. -/
def left (T : Test) (R : Nat) (p : Play (Nat × Bool) (Reader1 ⊕ Reader2)) : Nat :=
  ∑ c ∈ Finset.range R ×ˢ Finset.univ, workOf T p c

theorem mem_rounds {R : Nat} {c : Nat × Bool} :
    c ∈ Finset.range R ×ˢ (Finset.univ : Finset Bool) ↔ c.1 < R := by
  rw [Finset.mem_product, Finset.mem_range]
  exact and_iff_left (Finset.mem_univ _)

/-- A step in a round before `R` leaves less to do in these rounds, and one in a later round
    as much as before. -/
theorem step_left (hd : Deployed F T server) (hkept : Kept F p.board)
    (h : InRound F T server r p.board p.proc) {d : Deed (Nat × Bool)}
    (hs : PlayStep T.readertest F p d p') (R : Nat) :
    left T R p' + (if d.party.1 < R then 1 else 0) ≤ left T R p := by
  obtain ⟨hless, hothers⟩ := step_work hd hkept h hs
  have hle : ∀ c ∈ Finset.range R ×ˢ (Finset.univ : Finset Bool),
      workOf T p' c ≤ workOf T p c := by
    intro c _
    by_cases hc : c = d.party
    · rw [hc]
      exact Nat.le_of_lt hless
    · exact Nat.le_of_eq (hothers c hc)
  split
  · exact Finset.sum_lt_sum hle ⟨d.party, mem_rounds.mpr ‹_›, hless⟩
  · exact Finset.sum_le_sum hle

/-- What there is to do in one round. -/
theorem work_init (T : Test) (r : Nat) (blocks : Bool → Int32 → Option BlockLocal) :
    ∑ b, work T r (T.init (r, b)) (blocks b) ≤ 6 * T.pages.length + 30 := by
  have hlength : T.keys.length = T.pages.length + 3 := by
    rw [Test.keys, List.length_append, Nat.add_comm]
    rfl
  have hfirst : work T r (T.init (r, false)) (blocks false) = 4 * T.pages.length + 14 := by
    show (Reader1.mapping T.textsize 0 T.keys).work T.pages.length
      ((T.handoff r 102).stale (blocks false 102)) = _
    rw [Reader1.work_mapping, hlength]
    omega
  have hsecond : work T r (T.init (r, true)) (blocks true) ≤ 2 * T.pages.length + 16 := by
    show (Reader2.mapping 0 [100, 101, 102]).work T.pages.length
      ((T.handoff r 100).stale (blocks true 100)) ((T.handoff r 101).stale (blocks true 101)) ≤ _
    exact Reader2.work_mapping _
  rw [Fintype.sum_bool]
  omega

theorem left_init (F : Fleet (Nat × Bool)) (T : Test) (R : Nat) :
    left T R ⟨board F.start, T.init⟩ ≤ R * (6 * T.pages.length + 30) := by
  rw [left, Finset.sum_product]
  calc ∑ r ∈ Finset.range R, ∑ b, workOf T ⟨board F.start, T.init⟩ (r, b)
      ≤ ∑ _r ∈ Finset.range R, (6 * T.pages.length + 30) :=
        Finset.sum_le_sum fun r _ => work_init T r _
    _ = R * (6 * T.pages.length + 30) := by
        rw [Finset.sum_const_nat fun _ _ => rfl, Finset.card_range]

/-- **The steps of the rounds before `R` are bounded**, however the processes take turns. -/
theorem run_bounded (hd : Deployed F T server)
    {ptr : List (Entry (Play (Nat × Bool) (Reader1 ⊕ Reader2)) (Deed (Nat × Bool)))}
    (hrun : PlayRun F T ptr p) (R : Nat) :
    left T R p + (ptr.map Entry.event).countP (fun d => decide (d.party.1 < R))
      ≤ R * (6 * T.pages.length + 30) := by
  induction hrun with
  | nil => exact left_init F T R
  | @snoc ptr p p' d hprev hs ih =>
      obtain ⟨r, h⟩ := run_inRound hd hprev
      have hstep := step_left hd (run_playKept hprev) h hs R
      rw [List.map_append, List.countP_append]
      have hlast : ([⟨p, d, p'⟩].map Entry.event).countP (fun d => decide (d.party.1 < R))
          = if d.party.1 < R then 1 else 0 := by
        rw [List.map_singleton, List.countP_singleton]
        simp
      omega

/-! ## Somebody can go on -/

/-- No number is 0, which stands for one that is not there yet. -/
def Test.Marked (T : Test) (r : Nat) : Prop :=
  (T.expected r).textsize ≠ 0 ∧ (T.expected r).nspaces ≠ 0 ∧ (T.expected r).nwords ≠ 0

/-- A process can go on. -/
def CanGo (F : Fleet (Nat × Bool)) (T : Test) (p : Play (Nat × Bool) (Reader1 ⊕ Reader2))
    (c : Nat × Bool) : Prop :=
  ∃ d p', PlayStep T.readertest F p d p' ∧ d.party = c

/-- In a round it is the turn of its readers. -/
theorem InRound.ready (h : InRound F T server r a proc) (b : Bool) :
    (T.readertest).Ready proc (r, b) :=
  fun u hu => exited_of_finished (h.past u hu) u

/-- A call that the contract lets return can be made. -/
theorem call_goes (hd : Deployed F T server) (hkept : Kept F a) (h : InRound F T server r a proc)
    {call : Call}
    (hact : ((T.readertest).program (r, b)).act (proc (r, b)) (a.client (r, b)).blocks = .call call)
    (hreturns : ∀ it, MeetAt F T server r a proc call.id it b → ∃ code it' copy',
      contract (F.clientId (r, b) (server call.id)) call it ((a.client (r, b)).blocks call.id)
        = some (code, it', copy')) : CanGo F T ⟨a, proc⟩ (r, b) := by
  have hkeeps := reader_call hd.fits (h.kind _) (other_kind h b) (h.sound b) (h.meets b) hact
  obtain ⟨it, hit, hmeet⟩ := h.meet call.id hkeeps.mem
  have hreach := hkept.reaches (hd.offers (r, b) _ hkeeps.mem) (h.alive (r, b))
  obtain ⟨code, it', copy', hcontract⟩ := hreturns it (hmeet b)
  exact ⟨_, _, .called (h.ready b) hact ((called_iff hreach hit).mpr ⟨it', copy', hcontract, rfl⟩),
    rfl⟩

/-- A change to memory can be made. -/
theorem store_goes (hd : Deployed F T server) (h : InRound F T server r a proc) {id : Int32}
    {data : Data} {next : Reader1 ⊕ Reader2}
    (hact : ((T.readertest).program (r, b)).act (proc (r, b)) (a.client (r, b)).blocks
      = .store id data next) : CanGo F T ⟨a, proc⟩ (r, b) := by
  have hputs := reader_store hd.fits (h.kind _) (h.sound b) (h.meets b) hact
  obtain ⟨it, -, hmeet⟩ := h.meet id hputs.mem
  obtain ⟨e, he⟩ : ∃ e, (a.client (r, b)).blocks id = some e := by
    have hmeetb := hmeet b
    have hstores := hputs.stores
    rw [MeetAt] at hmeetb
    generalize sideOf (proc (r, b)) id = side at hmeetb hstores
    generalize sideOf next id = side' at hstores
    cases hstores with
    | fill _ => exact meet_mapped hmeetb
    | take _ _ =>
        obtain ⟨e, he, -⟩ := meet_looking hmeetb
        exact ⟨e, he⟩
  refine ⟨_, _, .poked (h.ready b) hact (.poked data (h.alive (r, b)) he) ?_, rfl⟩
  rw [setClient_copy]
  rfl

/-- Who waits for a number that was written can go on. -/
theorem wait_goes (hd : Deployed F T server) (hkept : Kept F a) (h : InRound F T server r a proc)
    {k : Int32}
    (hact : ((T.readertest).program (r, b)).act (proc (r, b)) (a.client (r, b)).blocks
      = .call (.wait k))
    (hside : sideOf (proc (r, b)) k = .receiver .looking) {ps : Sender}
    (hother : sideOf (proc (r, !b)) k = .sender ps) (hsent : ps.hasSent = true) {x : Int32}
    (hnumber : T.handoff r k = Test.number k r x) (hx : x ≠ 0)
    (hzero : readInt (memory (a.client (r, b)).blocks k) = 0) : CanGo F T ⟨a, proc⟩ (r, b) := by
  refine call_goes hd hkept h hact fun it hmeet => ?_
  have hmeet' : MeetAt F T server r a proc k it b := hmeet
  rw [MeetAt, hside, hother] at hmeet'
  obtain ⟨e, he, -⟩ := meet_looking hmeet'
  rw [memory_eq he] at hzero
  have hnew : ∀ d, (T.handoff r k).Full d → ¬ (T.handoff r k).Blank d := by
    rw [hnumber]
    intro d hfull hblank
    have hx' : readInt d = x := hfull
    exact hx (hx'.symm.trans hblank)
  have hblank : (T.handoff r k).Blank e.data := by
    rw [hnumber]
    exact hzero
  show ∃ code it' copy', contract _ (.wait k) it ((a.client (r, b)).blocks k) = _
  rw [he] at hmeet' ⊢
  exact wait_returns hmeet' hsent hnew hblank

/-- Who is not through can go on or waits. -/
theorem goes_or_waits (hd : Deployed F T server) (hkept : Kept F a)
    (h : InRound F T server r a proc) (hbusy : ¬ Finished T r (proc (r, b))) :
    CanGo F T ⟨a, proc⟩ (r, b) ∨ ∃ call, call.type = .wait ∧
      ((T.readertest).program (r, b)).act (proc (r, b)) (a.client (r, b)).blocks = .call call := by
  cases hact : ((T.readertest).program (r, b)).act (proc (r, b)) (a.client (r, b)).blocks with
  | exit => exact absurd (finished_of_exit (h.kind _) (h.sound b) hact) hbusy
  | store id data next => exact Or.inl (store_goes hd h hact)
  | call call =>
      by_cases hwait : call.type = .wait
      · exact Or.inr ⟨call, hwait, rfl⟩
      · exact Or.inl (call_goes hd hkept h hact fun it _ => contract_returns _ hwait it _)

/-- `reader1` waits for the words only. -/
theorem reader1_waits {text : List UInt8} {unset : Int32} {heap : Int32 → Data} {st : Reader1}
    {blocks : Int32 → Option BlockLocal} {call : Call}
    (hact : (reader1 text unset heap).act st blocks = .call call) (hwait : call.type = .wait) :
    (∃ nspaces, st = .look nspaces) ∧ call = .wait 102 ∧ readInt (memory blocks 102) = 0 := by
  cases st with
  | look nspaces =>
      obtain ⟨hzero, hcall⟩ := look_call hact
      exact ⟨⟨nspaces, rfl⟩, hcall, hzero⟩
  | map k rest res =>
      obtain rfl := Act.call.inj hact
      cases hwait
  | read k rest => cases hact
  | writeText k rest =>
      obtain rfl := Act.call.inj hact
      cases hwait
  | putSize => cases hact
  | writeSize =>
      obtain rfl := Act.call.inj hact
      cases hwait
  | putSpaces => cases hact
  | writeSpaces nspaces =>
      obtain rfl := Act.call.inj hact
      cases hwait
  | update nspaces =>
      obtain rfl := Act.call.inj hact
      cases hwait
  | writeWords nspaces nwords =>
      obtain rfl := Act.call.inj hact
      cases hwait
  | unmap k rest out =>
      obtain rfl := Act.call.inj hact
      cases hwait
  | done out => cases hact
  | failed => cases hact

/-- `reader2` waits for the size and for the spaces only. -/
theorem reader2_waits {heap : Int32 → Data} {st : Reader2} {blocks : Int32 → Option BlockLocal}
    {call : Call} (hact : (reader2 heap).act st blocks = .call call) (hwait : call.type = .wait) :
    ∃ k, (k = 100 ∨ k = 101) ∧ call = .wait k ∧ st.side k = .receiver .looking ∧
      readInt (memory blocks k) = 0 := by
  cases st with
  | lookSize =>
      obtain ⟨hzero, hcall⟩ := look_call hact
      exact ⟨100, Or.inl rfl, hcall, rfl, hzero⟩
  | look textsize nwords =>
      obtain ⟨hzero, hcall⟩ := look_call hact
      exact ⟨101, Or.inr rfl, hcall, rfl, hzero⟩
  | map k rest res =>
      obtain rfl := Act.call.inj hact
      cases hwait
  | updateSize =>
      obtain rfl := Act.call.inj hact
      cases hwait
  | writeSize textsize =>
      obtain rfl := Act.call.inj hact
      cases hwait
  | mapText k rest textsize =>
      obtain rfl := Act.call.inj hact
      cases hwait
  | putWords textsize => cases hact
  | writeWords textsize nwords =>
      obtain rfl := Act.call.inj hact
      cases hwait
  | update textsize nwords =>
      obtain rfl := Act.call.inj hact
      cases hwait
  | writeSpaces textsize nwords nspaces =>
      obtain rfl := Act.call.inj hact
      cases hwait
  | unmap k rest out =>
      obtain rfl := Act.call.inj hact
      cases hwait
  | done out => cases hact
  | failed => cases hact

/-- When `reader1` waits, or is through, it has written the size and the spaces. -/
theorem first_sent (hd : Deployed F T server) (hkept : Kept F a) (h : InRound F T server r a proc)
    (hstays : ¬ CanGo F T ⟨a, proc⟩ (r, false)) {k : Int32} (hk : k = 100 ∨ k = 101) :
    ∃ ps, sideOf (proc (r, false)) k = .sender ps ∧ ps.hasSent = true := by
  by_cases hdone : Finished T r (proc (r, false))
  · rw [finished_first h.kind hdone]
    rcases hk with rfl | rfl
    · exact ⟨.gone, rfl, rfl⟩
    · exact ⟨.gone, rfl, rfl⟩
  · obtain ⟨call, hwait, hact⟩ := (goes_or_waits hd hkept h hdone).resolve_left hstays
    obtain ⟨st, hst⟩ := Sum.isLeft_iff.mp (h.kind (r, false))
    rw [hst] at hact ⊢
    rw [program_first] at hact
    obtain ⟨⟨nspaces, rfl⟩, -, -⟩ := reader1_waits (within_call hact rfl) hwait
    rcases hk with rfl | rfl
    · exact ⟨.sent, rfl, rfl⟩
    · exact ⟨.sent, rfl, rfl⟩

/-- **As long as a round is on, one of its readers can go on.** -/
theorem round_goes_on (hd : Deployed F T server) (hkept : Kept F a)
    (h : InRound F T server r a proc) (hmarked : T.Marked r)
    (hbusy : ¬ ∀ b, Finished T r (proc (r, b))) : ∃ b, CanGo F T ⟨a, proc⟩ (r, b) := by
  by_cases hfirst : CanGo F T ⟨a, proc⟩ (r, false)
  · exact ⟨false, hfirst⟩
  by_cases hsecond : Finished T r (proc (r, true))
  · -- `reader2` is through: it has written the words
    have hleft : ¬ Finished T r (proc (r, false)) := fun hdone => hbusy fun b => by
      cases b
      · exact hdone
      · exact hsecond
    obtain ⟨call, hwait, hact⟩ := (goes_or_waits hd hkept h hleft).resolve_left hfirst
    obtain ⟨st, hst⟩ := Sum.isLeft_iff.mp (h.kind (r, false))
    have hact' := hact
    rw [hst, program_first] at hact'
    obtain ⟨⟨nspaces, rfl⟩, rfl, hzero⟩ := reader1_waits (within_call hact' rfl) hwait
    have hlooks : sideOf (proc (r, false)) 102 = .receiver .looking := by
      rw [hst]
      rfl
    have hother : sideOf (proc (r, !false)) 102 = .sender .gone := by
      rw [Bool.not_false, finished_second h.kind hsecond]
      rfl
    exact ⟨false, wait_goes hd hkept h hact hlooks hother rfl rfl hmarked.2.2 hzero⟩
  · rcases goes_or_waits hd hkept h hsecond with hgoes | ⟨call, hwait, hact⟩
    · exact ⟨true, hgoes⟩
    · -- `reader2` waits: `reader1` cannot go on, so it has written
      obtain ⟨st, hst⟩ : ∃ s, proc (r, true) = .inr s :=
        Sum.isRight_iff.mp (by simpa using h.kind (r, true))
      have hact' := hact
      rw [hst, program_second] at hact'
      obtain ⟨k, hk, rfl, hside, hzero⟩ := reader2_waits (within_call hact' rfl) hwait
      obtain ⟨ps, hother, hsent⟩ := first_sent hd hkept h hfirst hk
      have hlooks : sideOf (proc (r, true)) k = .receiver .looking := by
        rw [hst]
        exact hside
      rcases hk with rfl | rfl
      · exact ⟨true, wait_goes hd hkept h hact hlooks hother hsent rfl hmarked.1 hzero⟩
      · exact ⟨true, wait_goes hd hkept h hact hlooks hother hsent rfl hmarked.2.1 hzero⟩

/-- Either the rounds before `R` are over, or one of their readers can go on. -/
theorem test_goes_on (hd : Deployed F T server) (hkept : Kept F a) {R : Nat}
    (hmarked : ∀ r < R, T.Marked r) (h : InRound F T server r a proc) :
    (∀ c, c.1 < R → Finished T c.1 (proc c)) ∨ ∃ c, c.1 < R ∧ CanGo F T ⟨a, proc⟩ c := by
  obtain ⟨n, hn⟩ : ∃ n, R - r = n := ⟨_, rfl⟩
  induction n generalizing r with
  | zero => exact Or.inl fun c hc => h.past c (by omega)
  | succ n ih =>
      by_cases hdone : ∀ b, Finished T r (proc (r, b))
      · exact ih (h.next hd.fits hdone) (by omega)
      · have hlt : r < R := by omega
        obtain ⟨b, hgoes⟩ := round_goes_on hd hkept h (hmarked r hlt) hdone
        exact Or.inr ⟨(r, b), hlt, hgoes⟩

/-- **From every state the rounds before `R` can be brought to their end.** -/
theorem play_finishes (hd : Deployed F T server) {R : Nat} (hmarked : ∀ r < R, T.Marked r)
    {ptr : List (Entry (Play (Nat × Bool) (Reader1 ⊕ Reader2)) (Deed (Nat × Bool)))}
    (hrun : PlayRun F T ptr p) :
    ∃ ptr' p', Run (PlayStep T.readertest F) p ptr' p' ∧
      ∀ c, c.1 < R → Finished T c.1 (p'.proc c) := by
  obtain ⟨n, hn⟩ : ∃ n, left T R p = n := ⟨_, rfl⟩
  induction n using Nat.strong_induction_on generalizing ptr p with
  | h n ih =>
      obtain ⟨r, h⟩ := run_inRound hd hrun
      have hkept := run_playKept hrun
      rcases test_goes_on hd hkept hmarked h with hdone | ⟨c, hc, d, p₁, hs, rfl⟩
      · exact ⟨[], p, Run.nil, hdone⟩
      · have hless := step_left hd hkept h hs R
        rw [if_pos hc, hn] at hless
        obtain ⟨ptr', p', hrest, hdone⟩ := ih (left T R p₁) hless (hrun.snoc hs) rfl
        exact ⟨_, p', (Run.nil.snoc hs).append hrest, hdone⟩

/-! ## Over the cluster -/

/-- What a process has printed when it has exited. -/
def printed : Reader1 ⊕ Reader2 → Option Output
  | .inl (.done out) => some out
  | .inr (.done out) => some out
  | _ => none

theorem printed_finished {st : Reader1 ⊕ Reader2} (h : Finished T r st) :
    printed st = some (T.expected r) := by
  rcases h with ⟨rfl, -⟩ | ⟨rfl, -⟩ <;> rfl

section World

variable {tr : WorldTrace (Nat × Bool) (Reader1 ⊕ Reader2)}
  {w : World (Nat × Bool) (Reader1 ⊕ Reader2)}

/-- Who has exited is through. -/
theorem exited_finished (hd : Deployed F T server) (hrun : WorldRun T.readertest F T.init tr w)
    (htimely : Timely tr) (hexit : ((T.readertest).program (r, b)).Exited (w.proc (r, b))) :
    Finished T r (w.proc (r, b)) ∧ (w.proc (r, b)).isLeft = !b := by
  have hplay : PlayRun F T _ (play T.readertest w) := run_play hrun htimely
  obtain ⟨r₀, h⟩ := run_inRound hd hplay
  have hsame : settledProc T.readertest w (r, b) = w.proc (r, b) :=
    settledProc_none (owed_idle ((run_called hrun).idle hexit))
  rw [← hsame] at hexit ⊢
  refine ⟨?_, h.kind (r, b)⟩
  rcases Nat.lt_trichotomy r r₀ with hlt | rfl | hgt
  · exact h.past (r, b) hlt
  · exact finished_of_exited (h.kind _) (h.sound b) hexit
  · have hinit : settledProc T.readertest w (r, b) = T.init (r, b) := (h.future (r, b) hgt).1
    rw [hinit] at hexit
    exact absurd hexit (not_exited_init T _)

/-- The rounds before `R` can be brought to their end over the cluster. -/
theorem world_finishes (hd : Deployed F T server) {R : Nat} (hmarked : ∀ r < R, T.Marked r)
    (hrun : WorldRun T.readertest F T.init tr w) (htimely : Timely tr) :
    ∃ tr' w', Run (DmProgram.Step T.readertest F) w tr' w' ∧ Timely tr' ∧
      ∀ c, c.1 < R → Finished T c.1 (w'.proc c) := by
  have hplay : PlayRun F T _ (play T.readertest w) := run_play hrun htimely
  obtain ⟨ptr', p', hrest, hdone⟩ := play_finishes hd hmarked hplay
  obtain ⟨tr₁, w₁, hrun₁, rfl, htimely₁, -⟩ := run_played hrun htimely hrest
  -- what was answered is read
  obtain ⟨tr₂, w₂, h₂, hnone⟩ := run_settles (hrun.append hrun₁) (timely_append htimely htimely₁)
  refine ⟨tr₁ ++ tr₂, w₂, hrun₁.append h₂.run, timely_append htimely₁ h₂.timely, fun c hc => ?_⟩
  have hfinished := hdone c hc
  rw [← h₂.play_eq] at hfinished
  rw [← settledProc_none (C := T.readertest) (hnone c)]
  exact hfinished

end World

end Rounds

/-! ## The test as it is set up -/

/-- The servers of the test. -/
def readerFile : YamlFile :=
  ⟨fun _ => .document
    [⟨.value "127.0.0.1", .value "5678", .value [1, 3, 5, 7, 9, 11, 13, 15, 17, 19, 101, 103],
      .value "a shared secret", .value "serverkey.priv", .value "serverkey.pub"⟩,
     ⟨.value "127.0.0.1", .value "5679", .value [2, 4, 6, 8, 10, 12, 14, 16, 18, 20, 100, 102],
      .value "another shared secret", .value "serverkey.priv", .value "serverkey.pub"⟩]⟩

def readerConfig : Config := Config.create readerFile "dmconfig.yml"

/-- The servers and the processes of the test, everything connected. -/
def readerFleet : Fleet (Nat × Bool) where
  blocksId := fun sid =>
    match readerConfig.find sid with
    | some conf => conf.blocksId
    | none => []
  clientId := fun c _ => if c.2 then "127.0.0.1:40002" else "127.0.0.1:40001"
  config := fun _ => readerConfig
  sockets := fun _ _ => some ⟨true⟩

/-- The configuration of the test offers the three blocks, and twenty for the text. -/
theorem readerFleet_offers {k : Int32} (hk : k ∈ [100, 101, 102] ∨ ∃ i < 20, k = Int32.ofNat (i + 1))
    (c : Nat × Bool) : Offers readerFleet c k (readerConfig.findServerIdByBlockId k) := by
  have hoffered : (readerConfig.findServerIdByBlockId k).isEmpty = false ∧
      k ∈ readerFleet.blocksId (readerConfig.findServerIdByBlockId k) := by
    rcases hk with hk | ⟨i, hi, rfl⟩
    · simp only [List.mem_cons, List.not_mem_nil, or_false] at hk
      rcases hk with rfl | rfl | rfl
      · decide +kernel
      · decide +kernel
      · decide +kernel
    · have hall : ∀ i < 20,
          (readerConfig.findServerIdByBlockId (Int32.ofNat (i + 1))).isEmpty = false ∧
            Int32.ofNat (i + 1) ∈ readerFleet.blocksId
              (readerConfig.findServerIdByBlockId (Int32.ofNat (i + 1))) := by
        decide +kernel
      exact hall i hi
  exact ⟨rfl, hoffered.1, ⟨_, rfl, rfl⟩, hoffered.2⟩

/-- **The test is well set up** for every text of less than twenty blocks. -/
theorem readerFleet_deployed {T : Test} (hlen : T.text.length < 20 * dimBlock) :
    Deployed readerFleet T readerConfig.findServerIdByBlockId := by
  have hfits : T.Fits := Nat.lt_of_lt_of_le hlen (by decide)
  refine ⟨hfits, fun c k hk => readerFleet_offers ?_ c, fun r sid => ?_⟩
  · rcases List.mem_append.mp hk with hk | hk
    · exact Or.inl hk
    · rw [pages_eq hfits] at hk
      obtain ⟨i, hi, rfl⟩ := List.mem_map.mp hk
      have hdiv : T.text.length / dimBlock < 20 := Nat.div_lt_of_lt_mul (by
        rw [Nat.mul_comm]
        exact hlen)
      have hi' := List.mem_range.mp hi
      exact Or.inr ⟨i, by omega, rfl⟩
  · show "127.0.0.1:40001" ≠ "127.0.0.1:40002"
    decide

/-- Three bytes, two words and a space. -/
def shortTest : Test := ⟨[97, 32, 98], fun _ => 0, fun _ _ => Data.memset 0⟩

theorem shortTest_marked (r : Nat) : shortTest.Marked r := by
  show (3 : Int32) ≠ 0 ∧ countSpaces 0 [97, 32, 98] ≠ 0 ∧ countWords [97, 32, 98] ≠ 0
  decide

/-! ## Results -/

section Results

variable {F : Fleet (Nat × Bool)} {T : Test} {server : Int32 → String}
  {tr : WorldTrace (Nat × Bool) (Reader1 ⊕ Reader2)}
  {w : World (Nat × Bool) (Reader1 ⊕ Reader2)}

/-- **The readers agree.** In every run of the test without timeouts, over any number of rounds
    and in every order of steps, no process dies, and every process that has exited has printed
    the size of the file, its words, and its spaces on top of what `reader1` found in `result`:
    no call whose code a reader looks at has failed, and the two print the same. -/
theorem readers_agree (hd : Deployed F T server) (hrun : WorldRun T.readertest F T.init tr w)
    (htimely : Timely tr) :
    (∀ c, w.cluster.died c = none) ∧
      ∀ r b, ((T.readertest).program (r, b)).Exited (w.proc (r, b)) →
        printed (w.proc (r, b)) = some (T.expected r) := by
  have hplay : PlayRun F T _ (play T.readertest w) := run_play hrun htimely
  obtain ⟨r₀, h⟩ := run_inRound hd hplay
  refine ⟨fun c => ?_, fun r b hexit =>
    printed_finished (exited_finished hd hrun htimely hexit).1⟩
  have halive : (w.cluster.died c).isSome = false := h.alive c
  exact Option.isNone_iff_eq_none.mp (Option.isSome_eq_false_iff.mp halive)

/-- Ten rounds, all of which come to their end. -/
theorem readers_agree_shortTest :
    ∃ tr w, WorldRun shortTest.readertest readerFleet shortTest.init tr w ∧ Timely tr ∧
      (∀ c, w.cluster.died c = none) ∧
      ∀ r < 10, ∀ b, printed (w.proc (r, b)) = some ⟨3, 1, 2⟩ := by
  have hd := readerFleet_deployed (T := shortTest) (by decide)
  obtain ⟨tr, w, hrun, htimely, hdone⟩ := world_finishes (R := 10) hd
    (fun r _ => shortTest_marked r) Run.nil (fun t ht => by cases ht)
  obtain ⟨halive, hprinted⟩ := readers_agree hd hrun htimely
  refine ⟨tr, w, hrun, htimely, halive, fun r hr b => ?_⟩
  exact hprinted r b (exited_of_finished (hdone (r, b) hr) (r, b))

/-- **The readers finish.** However the processes take turns, the rounds before `R` make at most
    `R * (6 * n + 30)` calls and changes to memory, for a text of `n` blocks; and from every
    state without timeouts they can be brought to their end exactly if none of the numbers they
    wait for is 0. -/
theorem readers_finish (hd : Deployed F T server) (hrun : WorldRun T.readertest F T.init tr w)
    (htimely : Timely tr) (R : Nat) :
    ((clusterTrace tr).filterMap seen).countP (fun d => decide (d.party.1 < R))
        ≤ R * (6 * T.pages.length + 30) ∧
      ((∃ tr' w', Run (DmProgram.Step T.readertest F) w tr' w' ∧ Timely tr' ∧
          ∀ c : Nat × Bool, c.1 < R → ((T.readertest).program c).Exited (w'.proc c)) ↔
        ∀ r < R, T.Marked r) := by
  constructor
  · obtain ⟨ptr, hplay, hevents⟩ := run_shown hrun htimely
    have hbound := run_bounded hd hplay R
    rw [hevents] at hbound
    exact Nat.le_trans (Nat.le_add_left ..) hbound
  · constructor
    · rintro ⟨tr', w', hrest, htimely', hexit⟩ r hr
      have hrun' := hrun.append hrest
      have htime := timely_append htimely htimely'
      obtain ⟨hfirst, hleft⟩ := exited_finished hd hrun' htime (hexit (r, false) hr)
      obtain ⟨hsecond, hright⟩ := exited_finished hd hrun' htime (hexit (r, true) hr)
      -- each of the two has found the numbers it waits for
      rcases hfirst with ⟨-, hwords⟩ | ⟨heq, -⟩
      · rcases hsecond with ⟨heq, -⟩ | ⟨-, hsize, hspaces⟩
        · rw [heq] at hright
          cases hright
        · exact ⟨hsize, hspaces, hwords⟩
      · rw [heq] at hleft
        cases hleft
    · intro hmarked
      obtain ⟨tr', w', hrest, htimely', hdone⟩ := world_finishes hd hmarked hrun htimely
      exact ⟨tr', w', hrest, htimely', fun c hc => exited_of_finished (hdone c hc) c⟩

/-- The same ten rounds make at most 360 calls and changes to memory. -/
theorem readers_finish_shortTest :
    ∃ tr w, WorldRun shortTest.readertest readerFleet shortTest.init tr w ∧
      ((clusterTrace tr).filterMap seen).countP (fun d => decide (d.party.1 < 10)) ≤ 360 ∧
      ∀ c : Nat × Bool, c.1 < 10 → ((shortTest.readertest).program c).Exited (w.proc c) := by
  have hd := readerFleet_deployed (T := shortTest) (by decide)
  obtain ⟨tr, w, hrun, htimely, hexit⟩ := (readers_finish hd Run.nil
    (fun t ht => by cases ht) 10).2.mpr fun r _ => shortTest_marked r
  exact ⟨tr, w, hrun, (readers_finish hd hrun htimely 10).1, hexit⟩

end Results

end DmReader
