import DistributedMemory.DmContractProofs

/-!
# Programs that use the library

A process runs a program: between its calls it looks at the memory it mapped and changes it,
and how it goes on depends on what its calls return. Several processes run over one cluster,
some of them started only when others have exited.

* **`Program`**, **`Crew`** — what a process does next, and who is started after whom.
* **`Step`** — a step of the cluster that the programs make or that happens to them.
* **`PlayStep`** — the same over the board, where a call is one step.
* **`run_play`** — what the programs do over a cluster they do over the board.
-/

namespace DmProgram

open DmBlock DmConfig DmMessage DmClient DmServer DmSystem DmPairing DmProgress DmCluster DmAtomic
  LabelledRun

/-- What a program does next: a call, a change to the memory of a mapped block, or nothing
    any more. -/
inductive Act (σ : Type) where
  | call (call : Call)
  | store (id : Int32) (data : Data) (next : σ)
  | exit

/-- A program: what it does next, given its state and the blocks it has mapped, and how it
    goes on when a call has returned. -/
structure Program (σ : Type) where
  act : σ → (Int32 → Option BlockLocal) → Act σ
  resume : σ → Int → σ

/-- Nothing is left to do, whatever is in memory. -/
def Program.Exited {σ : Type} (P : Program σ) (st : σ) : Prop :=
  ∀ blocks, P.act st blocks = .exit

/-- The programs of the processes, and which of them have to exit before a process starts. -/
structure Crew (ι σ : Type) where
  program : ι → Program σ
  after : ι → ι → Prop

variable {ι σ : Type} [DecidableEq ι]

/-- A process whose predecessors have exited. -/
def Crew.Ready (C : Crew ι σ) (proc : ι → σ) (c : ι) : Prop :=
  ∀ u, C.after c u → (C.program u).Exited (proc u)

/-! ## Over a cluster -/

/-- A cluster and the states of the programs. -/
structure World (ι σ : Type) where
  cluster : Cluster ι
  proc : ι → σ

/-- What an event of the cluster is to the programs: they make the calls and the changes to
    memory, and go on when a call has returned. -/
inductive Moves (C : Crew ι σ) (s s' : Cluster ι) (proc : ι → σ) : Event ι → (ι → σ) → Prop where
  | returned {c : ι} {call : Call} {code : Int} (hready : C.Ready proc c)
      (hact : (C.program c).act (proc c) (s.client c).blocks = .call call) :
      Moves C s s' proc (.returned c call code)
        (Function.update proc c ((C.program c).resume (proc c) code))
  | sent {c : ι} {p : Pending} (hready : C.Ready proc c)
      (hact : (C.program c).act (proc c) (s.client c).blocks = .call p.call) :
      Moves C s s' proc (.sent c p) proc
  | died {c : ι} {call : Call} (hready : C.Ready proc c)
      (hact : (C.program c).act (proc c) (s.client c).blocks = .call call) :
      Moves C s s' proc (.died c call) proc
  | poked {c : ι} {id : Int32} {data : Data} {next : σ} (hready : C.Ready proc c)
      (hact : (C.program c).act (proc c) (s.client c).blocks = .store id data next)
      (hdata : ((s'.client c).blocks id).map BlockLocal.data = some data) :
      Moves C s s' proc (.poked c id) (Function.update proc c next)
  | critical {c : ι} {tag : Nat} {req : Node} {ans : Option Node} :
      Moves C s s' proc (.critical c tag req ans) proc
  | woken {c : ι} : Moves C s s' proc (.woken c) proc
  | received {c : ι} {p : Pending} {tag : Nat} {reply : Node} {code : Int} :
      Moves C s s' proc (.received c p tag reply (some code))
        (Function.update proc c ((C.program c).resume (proc c) code))
  | receivedDied {c : ι} {p : Pending} {tag : Nat} {reply : Node} :
      Moves C s s' proc (.received c p tag reply none) proc
  | timedOut {c : ι} {p : Pending} :
      Moves C s s' proc (.timedOut c p)
        (Function.update proc c ((C.program c).resume (proc c) (-4)))

/-- One step of the processes and the cluster under them. -/
structure Step (C : Crew ι σ) (F : Fleet ι) (w : World ι σ) (e : String × Event ι)
    (w' : World ι σ) : Prop where
  cluster : DmCluster.Step F w.cluster e w'.cluster
  moves : Moves C w.cluster w'.cluster w.proc e.2 w'.proc

/-- The history of the processes. -/
abbrev WorldTrace (ι σ : Type) := List (Entry (World ι σ) (String × Event ι))

/-- The runs of processes started in the states `init` over a freshly started cluster. -/
abbrev WorldRun (C : Crew ι σ) (F : Fleet ι) (init : ι → σ) (tr : WorldTrace ι σ)
    (w : World ι σ) : Prop :=
  Run (Step C F) ⟨F.start, init⟩ tr w

/-- What the cluster does in a run of the processes. -/
def clusterTrace (tr : WorldTrace ι σ) : ClusterTrace ι :=
  imageOf World.cluster (fun t => some t.event) tr

/-- No call has timed out. -/
def Timely (tr : WorldTrace ι σ) : Prop := ∀ t ∈ tr, t.event.2.isTimeout = false

/-! ## Over the board -/

/-- The board and the states of the programs. -/
structure Play (ι σ : Type) where
  board : Board ι
  proc : ι → σ

/-- One step of the processes over the board. -/
inductive PlayStep (C : Crew ι σ) (F : Fleet ι) : Play ι σ → Deed ι → Play ι σ → Prop where
  | called {a a' : Board ι} {proc : ι → σ} {c : ι} {call : Call} {code : Int}
      (hready : C.Ready proc c)
      (hact : (C.program c).act (proc c) (a.client c).blocks = .call call)
      (hs : DmAtomic.Step F a (.called c call code) a') :
      PlayStep C F ⟨a, proc⟩ (.called c call code)
        ⟨a', Function.update proc c ((C.program c).resume (proc c) code)⟩
  | died {a a' : Board ι} {proc : ι → σ} {c : ι} {call : Call} (hready : C.Ready proc c)
      (hact : (C.program c).act (proc c) (a.client c).blocks = .call call)
      (hs : DmAtomic.Step F a (.died c call) a') :
      PlayStep C F ⟨a, proc⟩ (.died c call) ⟨a', proc⟩
  | poked {a a' : Board ι} {proc : ι → σ} {c : ι} {id : Int32} {data : Data} {next : σ}
      (hready : C.Ready proc c)
      (hact : (C.program c).act (proc c) (a.client c).blocks = .store id data next)
      (hs : DmAtomic.Step F a (.poked c id) a')
      (hdata : ((a'.client c).blocks id).map BlockLocal.data = some data) :
      PlayStep C F ⟨a, proc⟩ (.poked c id) ⟨a', Function.update proc c next⟩

/-- A program that has gone on from a call exactly if the call was answered. -/
def settledProc (C : Crew ι σ) (w : World ι σ) (c : ι) : σ :=
  match owed w.cluster c with
  | none => w.proc c
  | some r => (C.program c).resume (w.proc c) r.2.1

/-- What the processes see of themselves. -/
def play (C : Crew ι σ) (w : World ι σ) : Play ι σ := ⟨board w.cluster, settledProc C w⟩

/-! ## From the cluster to the board -/

section Simulation

variable {C : Crew ι σ} {F : Fleet ι} {init : ι → σ} {tr : WorldTrace ι σ} {w w' : World ι σ}

omit [DecidableEq ι] in
theorem timely_cluster (h : Timely tr) : NoTimeouts (clusterTrace tr) := by
  intro t ht
  obtain ⟨t₀, ht₀, heq⟩ := List.mem_filterMap.mp ht
  rw [← Option.some.inj heq]
  exact h t₀ ht₀

theorem run_cluster (hrun : WorldRun C F init tr w) :
    ClusterRun F (clusterTrace tr) w.cluster :=
  hrun.image (f := World.cluster) fun t ht =>
    Or.inr ⟨t.event, rfl, (hrun.step_of_mem ht).cluster⟩

/-- A call in progress is the one its program makes, whose turn it is. -/
def Called (C : Crew ι σ) (w : World ι σ) : Prop :=
  ∀ c sid p, w.cluster.pending c = some (sid, p) → C.Ready w.proc c ∧
    (C.program c).act (w.proc c) (unsent p.call (w.cluster.client c)).blocks = .call p.call

omit [DecidableEq ι] in
/-- An exited program is in no call. -/
theorem Called.idle (h : Called C w) {c : ι} (hexit : (C.program c).Exited (w.proc c)) :
    w.cluster.pending c = none := by
  cases hp : w.cluster.pending c with
  | none => rfl
  | some x =>
      obtain ⟨-, hact⟩ := h c x.1 x.2 hp
      rw [hexit] at hact
      cases hact

/-- Nobody but the party of an event goes on. -/
theorem Moves.other {s s' : Cluster ι} {proc proc' : ι → σ} {e : Event ι}
    (h : Moves C s s' proc e proc') {u : ι} (hu : u ≠ e.party) : proc' u = proc u := by
  cases h with
  | returned _ _ => exact Function.update_of_ne hu ..
  | sent _ _ => rfl
  | died _ _ => rfl
  | poked _ _ _ => exact Function.update_of_ne hu ..
  | critical => rfl
  | woken => rfl
  | received => exact Function.update_of_ne hu ..
  | receivedDied => rfl
  | timedOut => exact Function.update_of_ne hu ..

/-- Exited programs stay exited. -/
theorem step_exited (h : Called C w) {e : String × Event ι} (hs : Step C F w e w') {u : ι}
    (hexit : (C.program u).Exited (w.proc u)) : w'.proc u = w.proc u := by
  have hidle := h.idle hexit
  by_cases hu : u = e.2.party
  · obtain ⟨sid, ev⟩ := e
    have hmoves := hs.moves
    have hcluster := hs.cluster
    generalize w'.proc = proc' at hmoves ⊢
    cases hmoves with
    | returned _ hact =>
        obtain rfl := hu
        cases (hexit _).symm.trans hact
    | sent _ _ => rfl
    | died _ _ => rfl
    | poked _ hact _ =>
        obtain rfl := hu
        cases (hexit _).symm.trans hact
    | critical => rfl
    | woken => rfl
    | received =>
        obtain rfl := hu
        cases hidle.symm.trans (received_inv hcluster).1
    | receivedDied => rfl
    | timedOut =>
        obtain rfl := hu
        generalize w'.cluster = s' at hcluster
        cases hcluster with
        | timedOut hp _ _ _ => cases hidle.symm.trans hp
  · exact hs.moves.other hu

/-- Whose turn it is stays so. -/
theorem ready_step (h : Called C w) {e : String × Event ι} (hs : Step C F w e w') {c : ι}
    (hready : C.Ready w.proc c) : C.Ready w'.proc c := by
  intro u hu
  rw [step_exited h hs (hready u hu)]
  exact hready u hu

theorem step_called (h : Called C w) {e : String × Event ι} (hs : Step C F w e w') :
    Called C w' := by
  intro u sid p hp
  by_cases hu : u = e.2.party
  · obtain ⟨sid', ev⟩ := e
    have hready := fun hr => ready_step (c := u) h hs hr
    have hmoves := hs.moves
    have hcluster := hs.cluster
    cases ev with
    | returned c call code =>
        obtain rfl : u = c := hu
        generalize w'.cluster = s' at hcluster hp
        cases hcluster with
        | returned hidle _ _ => cases hidle.symm.trans hp
    | sent c q =>
        obtain rfl : u = c := hu
        obtain ⟨-, hpending, -, -, -, hsend⟩ := sent_inv hcluster
        obtain ⟨-, rfl⟩ := Prod.mk.inj (Option.some.inj (hpending.symm.trans hp))
        rw [unsent_of_sent hsend]
        generalize w'.proc = proc' at hmoves hready ⊢
        cases hmoves with
        | sent hr hact => exact ⟨hready hr, hact⟩
    | died c call =>
        obtain rfl : u = c := hu
        generalize w'.cluster = s' at hcluster hp
        cases hcluster with
        | died hidle _ _ => cases hidle.symm.trans hp
    | poked c id =>
        obtain rfl : u = c := hu
        generalize w'.cluster = s' at hcluster hp
        cases hcluster with
        | poked _ hidle _ _ => cases hidle.symm.trans hp
    | critical c tag req ans =>
        obtain ⟨hpending, hclient⟩ : w'.cluster.pending = w.cluster.pending ∧
            w'.cluster.client = w.cluster.client := by
          generalize w'.cluster = s' at hcluster
          cases hcluster <;> exact ⟨rfl, rfl⟩
        have hproc : w'.proc = w.proc := by
          generalize w'.proc = proc' at hmoves
          cases hmoves
          rfl
        rw [hpending] at hp
        rw [hclient, hproc]
        exact h u sid p hp
    | woken c =>
        obtain ⟨hpending, hclient⟩ : w'.cluster.pending = w.cluster.pending ∧
            w'.cluster.client = w.cluster.client := by
          generalize w'.cluster = s' at hcluster
          cases hcluster
          exact ⟨rfl, rfl⟩
        have hproc : w'.proc = w.proc := by
          generalize w'.proc = proc' at hmoves
          cases hmoves
          rfl
        rw [hpending] at hp
        rw [hclient, hproc]
        exact h u sid p hp
    | received c q tag reply code =>
        obtain rfl : u = c := hu
        have hnone : w'.cluster.pending u = none := by
          generalize w'.cluster = s' at hcluster
          cases hcluster <;> exact Function.update_self ..
        cases hnone.symm.trans hp
    | timedOut c q =>
        obtain rfl : u = c := hu
        have hnone : w'.cluster.pending u = none := by
          generalize w'.cluster = s' at hcluster
          cases hcluster
          exact Function.update_self ..
        cases hnone.symm.trans hp
  · have hside := step_aside hs.cluster hu
    rw [hside.pending] at hp
    rw [hside.client, hs.moves.other hu]
    obtain ⟨hready, hact⟩ := h u sid p hp
    exact ⟨ready_step h hs hready, hact⟩

theorem run_called (hrun : WorldRun C F init tr w) : Called C w :=
  hrun.invariant (fun _ _ _ hp => by cases hp) fun _ _ _ h hs => step_called h hs

omit [DecidableEq ι] in
theorem settledProc_none {c : ι} (h : owed w.cluster c = none) :
    settledProc C w c = w.proc c := by
  rw [settledProc, h]

omit [DecidableEq ι] in
theorem settledProc_some {c : ι} {r : Call × Int × Client} (h : owed w.cluster c = some r) :
    settledProc C w c = (C.program c).resume (w.proc c) r.2.1 := by
  rw [settledProc, h]

omit [DecidableEq ι] in
/-- Whose turn it is over the cluster, it is over the board. -/
theorem ready_play (h : Called C w) {c : ι} (hready : C.Ready w.proc c) :
    C.Ready (play C w).proc c := by
  intro u hu
  have hexit := hready u hu
  show (C.program u).Exited (settledProc C w u)
  rw [settledProc_none (owed_idle (h.idle hexit))]
  exact hexit

/-- The processes go on as their party does. -/
theorem play_proc {e : String × Event ι} (hs : Step C F w e w') :
    (play C w').proc
      = Function.update (play C w).proc e.2.party (settledProc C w' e.2.party) := by
  refine funext fun u => ?_
  by_cases hu : u = e.2.party
  · rw [hu, Function.update_self]
    rfl
  · rw [Function.update_of_ne hu]
    show settledProc C w' u = settledProc C w u
    rw [settledProc, settledProc, (step_aside hs.cluster hu).owed, hs.moves.other hu]

/-- A step that the board does not show, in which the party's program stays where it is. -/
theorem play_silent {e : String × Event ι} (hs : Step C F w e w')
    (hboard : board w'.cluster = board w.cluster)
    (hproc : settledProc C w' e.2.party = settledProc C w e.2.party) : play C w' = play C w := by
  have hprocs := play_proc hs
  rw [hproc] at hprocs
  exact Play.mk.injEq .. |>.mpr ⟨hboard, hprocs.trans (Function.update_eq_self ..)⟩

/-- What a silent step of the cluster leaves of the board. -/
theorem board_of_unseen {s s' : Cluster ι} {e : String × Event ι}
    (h : (seen ⟨s, e, s'⟩ = none ∧ board s' = board s) ∨
      ∃ d, seen ⟨s, e, s'⟩ = some d ∧ DmAtomic.Step F (board s) d (board s'))
    (hunseen : seen ⟨s, e, s'⟩ = none) : board s' = board s := by
  rcases h with ⟨-, hboard⟩ | ⟨d, hd, -⟩
  · exact hboard
  · cases hunseen.symm.trans hd

/-- The step of the board that another step shows. -/
theorem step_of_seen {s s' : Cluster ι} {e : String × Event ι} {d : Deed ι}
    (h : (seen ⟨s, e, s'⟩ = none ∧ board s' = board s) ∨
      ∃ d, seen ⟨s, e, s'⟩ = some d ∧ DmAtomic.Step F (board s) d (board s'))
    (hseen : seen ⟨s, e, s'⟩ = some d) : DmAtomic.Step F (board s) d (board s') := by
  rcases h with ⟨hnone, -⟩ | ⟨d', hd', hstep⟩
  · cases hnone.symm.trans hseen
  · rw [Option.some.inj (hseen.symm.trans hd')]
    exact hstep

/-- **What the processes see of a step**: nothing, or one step over the board. -/
theorem step_play (hrun : WorldRun C F init tr w) (htimely : Timely tr) {e : String × Event ι}
    (hs : Step C F w e w') (hlate : e.2.isTimeout = false) :
    (seen ⟨w.cluster, e, w'.cluster⟩ = none ∧ play C w' = play C w) ∨
      ∃ d, seen ⟨w.cluster, e, w'.cluster⟩ = some d ∧ PlayStep C F (play C w) d (play C w') := by
  have hcrun := run_cluster hrun
  have hno := timely_cluster htimely
  have hcalled := run_called hrun
  have hboard := step_board hcrun hno hs.cluster hlate
  have hplay : play C w' = ⟨board w'.cluster,
      Function.update (play C w).proc e.2.party (settledProc C w' e.2.party)⟩ :=
    Play.mk.injEq .. |>.mpr ⟨rfl, play_proc hs⟩
  have hsilent := play_silent hs
  have hmoves := hs.moves
  have hcluster := hs.cluster
  obtain ⟨sid, ev⟩ := e
  cases ev with
  | returned c call code =>
      right
      refine ⟨.called c call code, rfl, ?_⟩
      have hstep := step_of_seen hboard (d := .called c call code) rfl
      obtain ⟨hidle, hidle'⟩ : w.cluster.pending c = none ∧ w'.cluster.pending c = none := by
        generalize w'.cluster = s' at hcluster
        cases hcluster with
        | returned hidle _ _ => exact ⟨hidle, hidle⟩
      rw [hplay]
      show PlayStep C F _ _ ⟨_, Function.update _ c (settledProc C w' c)⟩
      rw [settledProc_none (owed_idle hidle')]
      generalize w'.proc = proc' at hmoves ⊢
      cases hmoves with
      | returned hready hact =>
          have hproc : settledProc C w c = w.proc c := settledProc_none (owed_idle hidle)
          rw [Function.update_self, ← hproc]
          refine .called (ready_play hcalled hready) ?_ hstep
          show (C.program c).act (settledProc C w c) _ = _
          rw [hproc, show (board w.cluster).client c = w.cluster.client c from settled_idle hidle]
          exact hact
  | sent c p =>
      left
      obtain ⟨hidle, hpending, -, -, hreplies, -⟩ := sent_inv hcluster
      have hrep : (w.cluster.wire c sid).replies = [] :=
        (idle_quiet (run_view hcrun sid) (noTimeout_only hno sid) (idle_view hidle)).1
      refine ⟨rfl, hsilent (board_of_unseen hboard rfl) ?_⟩
      show settledProc C w' c = settledProc C w c
      rw [settledProc_none (owed_asked hpending (hreplies.trans hrep)),
        settledProc_none (owed_idle hidle)]
      generalize w'.proc = proc' at hmoves ⊢
      cases hmoves
      rfl
  | died c call =>
      right
      refine ⟨.died c call, rfl, ?_⟩
      have hstep := step_of_seen hboard (d := .died c call) rfl
      obtain ⟨hidle, hidle'⟩ : w.cluster.pending c = none ∧ w'.cluster.pending c = none := by
        generalize w'.cluster = s' at hcluster
        cases hcluster with
        | died hidle _ _ => exact ⟨hidle, hidle⟩
      rw [hplay]
      show PlayStep C F _ _ ⟨_, Function.update _ c (settledProc C w' c)⟩
      rw [settledProc_none (owed_idle hidle')]
      generalize w'.proc = proc' at hmoves ⊢
      cases hmoves with
      | died hready hact =>
          have hproc : settledProc C w c = w.proc c := settledProc_none (owed_idle hidle)
          rw [← hproc, show Function.update (play C w).proc c (settledProc C w c) = (play C w).proc
            from Function.update_eq_self ..]
          refine .died (ready_play hcalled hready) ?_ hstep
          show (C.program c).act (settledProc C w c) _ = _
          rw [hproc, show (board w.cluster).client c = w.cluster.client c from settled_idle hidle]
          exact hact
  | poked c id =>
      right
      refine ⟨.poked c id, rfl, ?_⟩
      have hstep := step_of_seen hboard (d := .poked c id) rfl
      obtain ⟨hidle, hidle'⟩ : w.cluster.pending c = none ∧ w'.cluster.pending c = none := by
        generalize w'.cluster = s' at hcluster
        cases hcluster with
        | poked _ hidle _ _ => exact ⟨hidle, hidle⟩
      rw [hplay]
      show PlayStep C F _ _ ⟨_, Function.update _ c (settledProc C w' c)⟩
      rw [settledProc_none (owed_idle hidle')]
      have hclient' : (board w'.cluster).client c = w'.cluster.client c := settled_idle hidle'
      generalize w'.proc = proc' at hmoves ⊢
      cases hmoves with
      | @poked _ _ data next hready hact hdata =>
          have hproc : settledProc C w c = w.proc c := settledProc_none (owed_idle hidle)
          have hact' : (C.program c).act (settledProc C w c) ((board w.cluster).client c).blocks
              = .store id data next := by
            rw [hproc, show (board w.cluster).client c = w.cluster.client c from settled_idle hidle]
            exact hact
          rw [Function.update_self]
          refine .poked (ready_play hcalled hready) hact' hstep ?_
          rw [hclient']
          exact hdata
  | critical c tag req ans =>
      have hproc' : w'.proc = w.proc := by
        generalize w'.proc = proc' at hmoves
        cases hmoves
        rfl
      obtain ⟨p₀, sec, h⟩ := serving_of_critical hcrun hno hcluster
      have howed : owed w.cluster c = none := owed_asked h.pending h.replies
      cases ans with
      | none =>
          left
          refine ⟨rfl, hsilent (board_of_unseen hboard rfl) ?_⟩
          show settledProc C w' c = settledProc C w c
          have howed' : owed w'.cluster c = none :=
            owed_asked (h.pending_eq.trans h.pending) h.replied
          rw [settledProc_none howed', settledProc_none howed, hproc']
      | some reply =>
          right
          obtain ⟨p, code, client, hp, howed', hstep⟩ := exchanged_seen hcrun hno hcluster
          refine ⟨.called c p.call code, ?_, ?_⟩
          · show (owed w'.cluster c).map _ = _
            rw [howed']
            rfl
          · obtain ⟨hready, hact⟩ := hcalled c sid p hp
            obtain ⟨-, rfl⟩ := Prod.mk.inj (Option.some.inj (h.pending.symm.trans hp))
            have hproc : settledProc C w c = w.proc c := settledProc_none howed
            rw [hplay]
            show PlayStep C F _ _ ⟨_, Function.update _ c (settledProc C w' c)⟩
            rw [settledProc_some howed', hproc', ← hproc]
            refine .called (ready_play hcalled hready) ?_ hstep
            show (C.program c).act (settledProc C w c) _ = _
            rw [hproc, show (board w.cluster).client c = unsent p₀.call (w.cluster.client c) from
              settled_asked h.pending h.replies]
            exact hact
  | woken c =>
      left
      refine ⟨rfl, hsilent (board_of_unseen hboard rfl) ?_⟩
      have hproc' : w'.proc = w.proc := by
        generalize w'.proc = proc' at hmoves
        cases hmoves
        rfl
      have howed' : owed w'.cluster c = owed w.cluster c := by
        generalize w'.cluster = s' at hcluster
        cases hcluster
        rfl
      show settledProc C w' c = settledProc C w c
      rw [settledProc, settledProc, howed', hproc']
  | received c p tag reply code =>
      left
      obtain ⟨code, rfl⟩ := received_survives hcrun hno hcluster
      obtain ⟨hp, hidle, -, -, ⟨rest, hrep⟩, hrecv⟩ := received_inv hcluster
      refine ⟨rfl, hsilent (board_of_unseen hboard rfl) ?_⟩
      show settledProc C w' c = settledProc C w c
      rw [settledProc_none (owed_idle hidle), settledProc_some (owed_answered hp hrep hrecv)]
      generalize w'.proc = proc' at hmoves ⊢
      cases hmoves
      exact Function.update_self ..
  | timedOut c p => cases hlate

omit [DecidableEq ι] in
theorem timely_take (h : Timely tr) (n : Nat) : Timely (tr.take n) :=
  fun t ht => h t (List.mem_of_mem_take ht)

/-- **What programs do over the cluster, they do over the board**: a run of the processes
    without timeouts is a run of them in which every call is one step, between the same states
    of the programs. -/
theorem run_play (hrun : WorldRun C F init tr w) (htimely : Timely tr) :
    Run (PlayStep C F) (play C ⟨F.start, init⟩)
      (imageOf (play C) (fun t => seen ⟨t.pre.cluster, t.event, t.post.cluster⟩) tr)
      (play C w) := by
  refine hrun.image fun t ht => ?_
  obtain ⟨i, hi⟩ := List.getElem?_of_mem ht
  exact step_play (hrun.take hi) (timely_take htimely i) (hrun.step_of_mem ht) (htimely t ht)

/-- The board shows the events that are seen. -/
theorem run_shown (hrun : WorldRun C F init tr w) (htimely : Timely tr) :
    ∃ ptr, Run (PlayStep C F) (play C ⟨F.start, init⟩) ptr (play C w) ∧
      ptr.map Entry.event = (clusterTrace tr).filterMap seen := by
  refine ⟨_, run_play hrun htimely, ?_⟩
  rw [clusterTrace, imageOf, imageOf, List.map_filterMap, List.filterMap_filterMap]
  refine List.filterMap_congr fun t _ => ?_
  show Option.map Entry.event ((seen _).map _) = seen _
  cases seen ⟨t.pre.cluster, t.event, t.post.cluster⟩ <;> rfl

end Simulation

/-! ## From the board to the cluster -/

section Catching

variable {F : Fleet ι} {tr : ClusterTrace ι} {s : Cluster ι} {c : ι} {sid : String} {p : Pending}

/-- A call that was answered can return. -/
theorem receipt_enabled (hrun : ClusterRun F tr s) {r : Call × Int × Client}
    (h : owed s c = some r) :
    ∃ sid p tag reply code s', DmCluster.Step F s (sid, .received c p tag reply (some code)) s' := by
  cases hp : s.pending c with
  | none => cases (owed_idle hp).symm.trans h
  | some x =>
      obtain ⟨sid, p⟩ := x
      cases hrep : (s.wire c sid).replies with
      | nil => cases (owed_asked hp hrep).symm.trans h
      | cons y rest =>
          rw [owed, hp] at h
          dsimp only at h
          rw [hrep] at h
          dsimp only at h
          cases hrecv : (s.client c).receive p.call (some y.2) with
          | error f =>
              rw [hrecv] at h
              cases h
          | ok q =>
              exact ⟨sid, p, y.1, y.2, q.1, _, .received hp (run_asked hrun c sid p hp).1 hrep hrecv⟩

/-- A call that is not owed anything was not answered. -/
theorem replies_nil (hrun : ClusterRun F tr s) (hno : NoTimeouts tr)
    (hp : s.pending c = some (sid, p)) (h : owed s c = none) : (s.wire c sid).replies = [] := by
  rcases busy_queue (run_view hrun sid) (noTimeout_only hno sid) (pending_view hp) with
    ⟨reply, hone⟩ | ⟨hnil, -⟩
  · have hrep : (s.wire c sid).replies = [(p.tag, reply)] := hone
    have hmem : (p.tag, reply) ∈ (s.wire c sid).replies := by
      rw [hrep]
      exact List.mem_cons_self
    obtain ⟨code, client, hrecv⟩ := reply_received hrun hp hmem
    cases h.symm.trans (owed_answered hp hrep hrecv)
  · exact hnil

/-- A call that is a step of the board is not stuck at its server. -/
theorem free_of_called (hrun : ClusterRun F tr s) (hp : s.pending c = some (sid, p))
    (hrep : (s.wire c sid).replies = []) {code : Int} {a : Board ι}
    (hs : DmAtomic.Step F (board s) (.called c p.call code) a) : ¬ Stuck (view sid s) c p := by
  intro hstuck
  obtain ⟨-, hsend⟩ := run_asked hrun c sid p hp
  rw [← settled_asked hp hrep] at hsend
  obtain ⟨b, m, it, hm, hit, hrev⟩ := hstuck.block
  have htype : (Message.ofNode p.req).type = .wait := by
    obtain ⟨e, -, hreq, -⟩ := pending_requests (run_view hrun sid) (pending_view hp)
    rw [hreq, Message.type_emitBlock]
    exact hstuck.wait
  cases hs with
  | returned _ hsend' => cases hsend.symm.trans hsend'
  | exchanged _ hsend' hserve hreply _ =>
      obtain ⟨rfl, rfl, -⟩ := Sending.sent.inj (Except.ok.inj (hsend.symm.trans hsend'))
      rcases Server.clientHandler_cases hserve with ⟨hunknown, -⟩ | ⟨b', m', hm', hserved⟩
      · rw [htype] at hunknown
        cases hunknown
      · obtain ⟨rfl, rfl⟩ := Prod.mk.inj (Except.ok.inj (hm'.symm.trans hm))
        rw [htype] at hserved
        exact (hserved.wait_reply hreply hit).2 hrev

/-- A call in progress that is a step of the board is answered next. -/
theorem service_enabled (hrun : ClusterRun F tr s) (hno : NoTimeouts tr)
    (hp : s.pending c = some (sid, p)) (hrep : (s.wire c sid).replies = [])
    (hfree : ¬ Stuck (view sid s) c p) :
    ∃ reply s', DmCluster.Step F s (sid, .critical c p.tag p.req (some reply)) s' := by
  have hview := run_view hrun sid
  rcases busy_queue hview (noTimeout_only hno sid) (pending_view hp) with ⟨reply, hone⟩ | ⟨-, hq⟩
  · cases hrep.symm.trans hone
  · obtain ⟨reply, v, hs⟩ := answers hview (pending_view hp) hrep hq hfree
    cases hs with
    | request hreq hread hhost => exact ⟨reply, _, .request hreq hread hhost⟩
    | retry hawake hhost => exact ⟨reply, _, .retry hawake hhost⟩

/-- Only finitely many clients are in a call. -/
theorem run_finite (hrun : ClusterRun F tr s) :
    ∃ l : List ι, ∀ c, s.pending c ≠ none → c ∈ l := by
  refine hrun.invariant (I := fun s => ∃ l : List ι, ∀ c, s.pending c ≠ none → c ∈ l)
    ⟨[], fun c hc => absurd rfl hc⟩ fun s e s' h hs => ?_
  obtain ⟨l, hl⟩ := h
  refine ⟨e.2.party :: l, fun c hc => ?_⟩
  by_cases hparty : c = e.2.party
  · rw [hparty]
    exact List.mem_cons_self
  · rw [(step_aside hs hparty).pending] at hc
    exact List.mem_cons_of_mem _ (hl c hc)

end Catching

section Unique

variable {F : Fleet ι} {a a' a'' : Board ι} {c : ι} {call : Call} {code code' : Int}

/-- What a call on the board comes to is decided. -/
theorem called_unique (h : DmAtomic.Step F a (.called c call code) a')
    (h' : DmAtomic.Step F a (.called c call code') a'') : code' = code ∧ a'' = a' := by
  cases h with
  | returned _ hsend =>
      cases h' with
      | returned _ hsend' =>
          obtain ⟨rfl, rfl⟩ := Sending.returned.inj (Except.ok.inj (hsend.symm.trans hsend'))
          exact ⟨rfl, rfl⟩
      | exchanged _ hsend' _ _ _ => cases hsend.symm.trans hsend'
  | exchanged _ hsend hserve hreply hrecv =>
      cases h' with
      | returned _ hsend' => cases hsend.symm.trans hsend'
      | exchanged _ hsend' hserve' hreply' hrecv' =>
          obtain ⟨rfl, rfl, rfl⟩ := Sending.sent.inj (Except.ok.inj (hsend.symm.trans hsend'))
          obtain rfl := Except.ok.inj (hserve.symm.trans hserve')
          obtain rfl := Outcome.send.inj (hreply.symm.trans hreply')
          obtain ⟨rfl, rfl⟩ := Prod.mk.inj (Except.ok.inj (hrecv.symm.trans hrecv'))
          exact ⟨rfl, rfl⟩

theorem not_died_of_called (h : DmAtomic.Step F a (.called c call code) a') :
    ¬ DmAtomic.Step F a (.died c call) a'' := by
  intro h'
  cases h' with
  | died _ hsend' =>
      cases h with
      | returned _ hsend => cases hsend.symm.trans hsend'
      | exchanged _ hsend _ _ _ => cases hsend.symm.trans hsend'

/-- What a change to memory leaves there. -/
theorem stored_data {client : Client} {id : Int32} {e : BlockLocal} {d data : Data}
    (h : (((a.setClient c (client.setBlock id (some { e with data := d }))).client c).blocks id).map
      BlockLocal.data = some data) : d = data := by
  rw [show (a.setClient c (client.setBlock id (some { e with data := d }))).client c
    = client.setBlock id (some { e with data := d }) from Function.update_self ..,
    Client.setBlock_same] at h
  exact Option.some.inj h

variable {C : Crew ι σ} {p p' p'' : Play ι σ} {d d' : Deed ι}

/-- **What a process does next is decided.** -/
theorem playStep_unique (h : PlayStep C F p d p') (h' : PlayStep C F p d' p'')
    (hparty : d'.party = d.party) : d' = d ∧ p'' = p' := by
  cases h with
  | called _ hact hs =>
      cases h' with
      | called _ hact' hs' =>
          obtain rfl := hparty
          obtain rfl := Act.call.inj (hact.symm.trans hact')
          obtain ⟨rfl, rfl⟩ := called_unique hs hs'
          exact ⟨rfl, rfl⟩
      | died _ hact' hs' =>
          obtain rfl := hparty
          obtain rfl := Act.call.inj (hact.symm.trans hact')
          exact absurd hs' (not_died_of_called hs)
      | poked _ hact' _ _ =>
          obtain rfl := hparty
          cases hact.symm.trans hact'
  | died _ hact hs =>
      cases h' with
      | called _ hact' hs' =>
          obtain rfl := hparty
          obtain rfl := Act.call.inj (hact.symm.trans hact')
          exact absurd hs (not_died_of_called hs')
      | died _ hact' hs' =>
          obtain rfl := hparty
          obtain rfl := Act.call.inj (hact.symm.trans hact')
          cases hs
          cases hs'
          exact ⟨rfl, rfl⟩
      | poked _ hact' _ _ =>
          obtain rfl := hparty
          cases hact.symm.trans hact'
  | poked _ hact hs hdata =>
      cases h' with
      | called _ hact' _ =>
          obtain rfl := hparty
          cases hact.symm.trans hact'
      | died _ hact' _ =>
          obtain rfl := hparty
          cases hact.symm.trans hact'
      | poked _ hact' hs' hdata' =>
          obtain rfl := hparty
          obtain ⟨rfl, rfl, rfl⟩ := Act.store.inj (hact.symm.trans hact')
          cases hs with
          | poked d _ he =>
              cases hs' with
              | poked d' _ he' =>
                  obtain rfl := Option.some.inj (he.symm.trans he')
                  obtain rfl := (stored_data hdata).trans (stored_data hdata').symm
                  exact ⟨rfl, rfl⟩

end Unique

section Realization

variable {C : Crew ι σ} {F : Fleet ι} {init : ι → σ} {tr : WorldTrace ι σ} {w w₁ : World ι σ}
  {p' : Play ι σ} {d : Deed ι}

/-- What the processes do over the cluster to do one deed over the board. -/
structure Plays (C : Crew ι σ) (F : Fleet ι) (w : World ι σ) (d : Deed ι) (p' : Play ι σ)
    (tr : WorldTrace ι σ) (w' : World ι σ) : Prop where
  run : Run (Step C F) w tr w'
  play_eq : play C w' = p'
  timely : Timely tr
  seen_eq : (clusterTrace tr).filterMap seen = [d]

omit [DecidableEq ι] in
theorem timely_append {tr tr' : WorldTrace ι σ} (h : Timely tr) (h' : Timely tr') :
    Timely (tr ++ tr') := by
  intro t ht
  rcases List.mem_append.mp ht with ht | ht
  · exact h t ht
  · exact h' t ht

omit [DecidableEq ι] in
theorem timely_single {e : String × Event ι} (h : e.2.isTimeout = false) :
    Timely [(⟨w, e, w₁⟩ : Entry (World ι σ) (String × Event ι))] := by
  intro t ht
  rw [List.mem_singleton.mp ht]
  exact h

omit [DecidableEq ι] in
theorem seen_append (tr tr' : WorldTrace ι σ) : (clusterTrace (tr ++ tr')).filterMap seen
    = (clusterTrace tr).filterMap seen ++ (clusterTrace tr').filterMap seen := by
  rw [clusterTrace, imageOf, List.filterMap_append, List.filterMap_append]
  rfl

/-- A step in which the party of a deed is seen does the deed. -/
theorem plays_of_seen (hrun : WorldRun C F init tr w) (htimely : Timely tr)
    (hs : PlayStep C F (play C w) d p') {e : String × Event ι} (hstep : Step C F w e w₁)
    (hlate : e.2.isTimeout = false) {d' : Deed ι}
    (hseen : seen ⟨w.cluster, e, w₁.cluster⟩ = some d') (hparty : d'.party = d.party) :
    Plays C F w d p' [⟨w, e, w₁⟩] w₁ := by
  rcases step_play hrun htimely hstep hlate with ⟨hnone, -⟩ | ⟨d'', hd, hplay⟩
  · cases hnone.symm.trans hseen
  · obtain rfl := Option.some.inj (hseen.symm.trans hd)
    obtain ⟨rfl, rfl⟩ := playStep_unique hs hplay hparty
    refine ⟨Run.nil.snoc hstep, rfl, timely_single hlate, ?_⟩
    show [(⟨w.cluster, e, w₁.cluster⟩ : Entry (Cluster ι) _)].filterMap seen = _
    rw [List.filterMap_cons_some hseen]
    rfl

/-- What follows a step that is not seen. -/
theorem Plays.after {e : String × Event ι} (hstep : Step C F w e w₁) (hlate : e.2.isTimeout = false)
    (hunseen : seen ⟨w.cluster, e, w₁.cluster⟩ = none) {tr' : WorldTrace ι σ} {w' : World ι σ}
    (h : Plays C F w₁ d p' tr' w') : Plays C F w d p' (⟨w, e, w₁⟩ :: tr') w' where
  run := (Run.nil.snoc hstep).append h.run
  play_eq := h.play_eq
  timely := timely_append (timely_single hlate) h.timely
  seen_eq := by
    show List.filterMap seen (⟨w.cluster, e, w₁.cluster⟩ :: clusterTrace tr') = _
    rw [List.filterMap_cons_none hunseen]
    exact h.seen_eq

/-- A process whose call was answered goes on, which the board does not show. -/
theorem reads_reply (hrun : WorldRun C F init tr w) {u : ι} {r : Call × Int × Client}
    (h : owed w.cluster u = some r) :
    ∃ e w', Step C F w e w' ∧ e.2.isTimeout = false ∧ seen ⟨w.cluster, e, w'.cluster⟩ = none ∧
      owed w'.cluster u = none ∧ ∀ c, c ≠ u → owed w'.cluster c = owed w.cluster c := by
  obtain ⟨sid, p, tag, reply, code, s', hs⟩ := receipt_enabled (run_cluster hrun) h
  refine ⟨_, ⟨s', _⟩, ⟨hs, .received⟩, rfl, rfl, ?_, fun c hc => ?_⟩
  · exact owed_idle (received_inv hs).2.1
  · exact (step_aside hs hc).owed

/-- What the board shows of a step that is not seen. -/
theorem play_of_unseen (hrun : WorldRun C F init tr w) (htimely : Timely tr)
    {e : String × Event ι} (hs : Step C F w e w₁) (hlate : e.2.isTimeout = false)
    (hunseen : seen ⟨w.cluster, e, w₁.cluster⟩ = none) : play C w₁ = play C w := by
  rcases step_play hrun htimely hs hlate with ⟨-, hsame⟩ | ⟨d, hd, -⟩
  · exact hsame
  · cases hunseen.symm.trans hd

/-- What follows a run that is not seen. -/
structure Silent (C : Crew ι σ) (F : Fleet ι) (w : World ι σ) (tr : WorldTrace ι σ)
    (w' : World ι σ) : Prop where
  run : Run (Step C F) w tr w'
  timely : Timely tr
  play_eq : play C w' = play C w
  seen_eq : (clusterTrace tr).filterMap seen = []

theorem settles_of (l : List ι) (hrun : WorldRun C F init tr w) (htimely : Timely tr)
    (hl : ∀ c, owed w.cluster c ≠ none → c ∈ l) :
    ∃ tr' w', Silent C F w tr' w' ∧ ∀ c, owed w'.cluster c = none := by
  induction l generalizing tr w with
  | nil =>
      refine ⟨[], w, ⟨Run.nil, (fun t ht => by cases ht), rfl, rfl⟩, fun c => ?_⟩
      exact Classical.not_not.mp fun hc => List.not_mem_nil (hl c hc)
  | cons u l ih =>
      cases howed : owed w.cluster u with
      | none =>
          refine ih hrun htimely fun c hc => ?_
          rcases List.mem_cons.mp (hl c hc) with rfl | hin
          · exact absurd howed hc
          · exact hin
      | some r =>
          obtain ⟨e, w₁, hs, hlate, hunseen, hnone, hothers⟩ := reads_reply hrun howed
          have hrest : ∀ c, owed w₁.cluster c ≠ none → c ∈ l := by
            intro c hc
            have hcu : c ≠ u := by
              rintro rfl
              exact hc hnone
            rw [hothers c hcu] at hc
            exact (List.mem_cons.mp (hl c hc)).resolve_left hcu
          obtain ⟨tr', w', h, hall⟩ :=
            ih (hrun.snoc hs) (timely_append htimely (timely_single hlate)) hrest
          refine ⟨[⟨w, e, w₁⟩] ++ tr', w', ⟨(Run.nil.snoc hs).append h.run,
            timely_append (timely_single hlate) h.timely,
            h.play_eq.trans (play_of_unseen hrun htimely hs hlate hunseen), ?_⟩, hall⟩
          rw [seen_append, h.seen_eq, List.append_nil]
          exact List.filterMap_cons_none hunseen

/-- **The replies that are on their way are read**, and nothing else happens. -/
theorem run_settles (hrun : WorldRun C F init tr w) (htimely : Timely tr) :
    ∃ tr' w', Silent C F w tr' w' ∧ ∀ c, owed w'.cluster c = none := by
  obtain ⟨l, hl⟩ := run_finite (run_cluster hrun)
  exact settles_of l hrun htimely fun c hc => hl c fun hp => hc (owed_idle hp)

/-- A deed of a process that is in a call: the call is answered. -/
theorem plays_asked (hrun : WorldRun C F init tr w) (htimely : Timely tr) {c : ι}
    (hc : d.party = c) (howed : owed w.cluster c = none) {sid : String} {p : Pending}
    (hp : w.cluster.pending c = some (sid, p)) (hs : PlayStep C F (play C w) d p') :
    ∃ tr' w', Plays C F w d p' tr' w' := by
  have hcrun := run_cluster hrun
  have hno := timely_cluster htimely
  have hrep := replies_nil hcrun hno hp howed
  obtain ⟨-, hcall⟩ := run_called hrun c sid p hp
  rw [← settled_asked hp hrep, ← settledProc_none (C := C) howed] at hcall
  have hdecided := hs
  change PlayStep C F ⟨board w.cluster, settledProc C w⟩ d p' at hs
  cases hs with
  | @called _ _ _ u _ _ _ hact hstep =>
      obtain rfl : u = c := hc
      obtain rfl := Act.call.inj (hcall.symm.trans hact)
      obtain ⟨reply, s', hserve⟩ :=
        service_enabled hcrun hno hp hrep (free_of_called hcrun hp hrep hstep)
      obtain ⟨p₁, code, client, -, howed', -⟩ := exchanged_seen hcrun hno hserve
      have hseen : seen ⟨w.cluster, (sid, .critical u p.tag p.req (some reply)), s'⟩
          = some (.called u p₁.call code) := by
        show (owed s' u).map _ = _
        rw [howed']
        rfl
      exact ⟨_, ⟨s', w.proc⟩,
        plays_of_seen hrun htimely hdecided ⟨hserve, .critical⟩ rfl hseen rfl⟩
  | died _ hact hstep =>
      obtain rfl := hc
      obtain rfl := Act.call.inj (hcall.symm.trans hact)
      obtain ⟨-, hsend⟩ := run_asked hcrun _ sid p hp
      rw [← settled_asked hp hrep] at hsend
      cases hstep with
      | died _ hfails => cases hsend.symm.trans hfails
  | poked _ hact _ _ =>
      obtain rfl := hc
      cases hcall.symm.trans hact

/-- A deed of a process that is in no call, when nobody has a reply to read. -/
theorem plays_idle (hrun : WorldRun C F init tr w) (htimely : Timely tr)
    (hall : ∀ c, owed w.cluster c = none) (hidle : w.cluster.pending d.party = none)
    (hs : PlayStep C F (play C w) d p') : ∃ tr' w', Plays C F w d p' tr' w' := by
  have hcrun := run_cluster hrun
  have hno := timely_cluster htimely
  have hproc : settledProc C w = w.proc := funext fun c => settledProc_none (hall c)
  have hlives : ∀ {c}, (board w.cluster).dead c = false → w.cluster.died c = none := by
    intro c hdead
    exact Option.isNone_iff_eq_none.mp (Option.isSome_eq_false_iff.mp hdead)
  have hdecided := hs
  change PlayStep C F ⟨board w.cluster, settledProc C w⟩ d p' at hs
  rw [hproc] at hs
  cases hs with
  | @called _ _ _ c call code hready hact hstep =>
      have hidle : w.cluster.pending c = none := hidle
      have hclient : (board w.cluster).client c = w.cluster.client c := settled_idle hidle
      rw [hclient] at hact
      cases hstep with
      | returned halive hsend =>
          rw [hclient] at hsend
          exact ⟨_, ⟨_, _⟩, plays_of_seen hrun htimely hdecided
            ⟨.returned hidle (hlives halive) hsend, .returned hready hact⟩ rfl rfl rfl⟩
      | @exchanged _ _ sid req _ client _ _ _ halive hsend _ _ _ =>
          rw [hclient] at hsend
          -- the request is sent, which the board does not show
          obtain ⟨s₁, hsent⟩ : ∃ s₁, DmCluster.Step F w.cluster
              (sid, .sent c ⟨call, (w.cluster.wire c sid).sent, req⟩) s₁ :=
            ⟨_, .sent hidle (hlives halive) hsend⟩
          have hstep₁ : Step C F w (sid, .sent c ⟨call, (w.cluster.wire c sid).sent, req⟩)
              ⟨s₁, w.proc⟩ := ⟨hsent, .sent hready hact⟩
          obtain ⟨-, hpending, -, -, hreplies, -⟩ := sent_inv hsent
          have hquiet := (idle_quiet (run_view hcrun sid) (noTimeout_only hno sid)
            (idle_view hidle)).1
          rw [← play_of_unseen hrun htimely hstep₁ rfl rfl] at hdecided
          have howed : owed s₁ c = none := owed_asked hpending (hreplies.trans hquiet)
          obtain ⟨tr', w', h⟩ := plays_asked (hrun.snoc hstep₁)
            (timely_append htimely (timely_single rfl)) (c := c) rfl howed hpending hdecided
          exact ⟨_, w', h.after hstep₁ rfl rfl⟩
  | @died _ _ _ c call hready hact hstep =>
      have hidle : w.cluster.pending c = none := hidle
      have hclient : (board w.cluster).client c = w.cluster.client c := settled_idle hidle
      rw [hclient] at hact
      cases hstep with
      | died halive hsend =>
          rw [hclient] at hsend
          exact ⟨_, ⟨_, _⟩, plays_of_seen hrun htimely hdecided
            ⟨.died hidle (hlives halive) hsend, .died hready hact⟩ rfl rfl rfl⟩
  | @poked _ _ _ c id data next hready hact hstep hdata =>
      have hidle : w.cluster.pending c = none := hidle
      have hclient : (board w.cluster).client c = w.cluster.client c := settled_idle hidle
      rw [hclient] at hact
      cases hstep with
      | @poked _ _ e d halive he =>
          have hsame : (((w.cluster.setClient c ((w.cluster.client c).setBlock id
              (some { e with data := d }))).client c).blocks id).map BlockLocal.data = some data := by
            rw [show (w.cluster.setClient c ((w.cluster.client c).setBlock id
              (some { e with data := d }))).client c = _ from Function.update_self ..,
              Client.setBlock_same]
            exact congrArg some (stored_data hdata)
          rw [hclient] at he
          exact ⟨_, ⟨_, _⟩, plays_of_seen hrun htimely hdecided
            ⟨.poked d hidle (hlives halive) he, .poked hready hact hsame⟩ rfl rfl rfl⟩

/-- **Whatever the processes see that they can do, they can do**, wherever the cluster is. -/
theorem step_played (hrun : WorldRun C F init tr w) (htimely : Timely tr)
    (hs : PlayStep C F (play C w) d p') :
    ∃ tr' w', Run (Step C F) w tr' w' ∧ play C w' = p' ∧ Timely tr' ∧
      (clusterTrace tr').filterMap seen = [d] := by
  obtain ⟨tr₁, w₁, h₁, hall⟩ := run_settles hrun htimely
  have hrun₁ : WorldRun C F init (tr ++ tr₁) w₁ := hrun.append h₁.run
  have htimely₁ := timely_append htimely h₁.timely
  rw [← h₁.play_eq] at hs
  obtain ⟨tr₂, w₂, h₂⟩ : ∃ tr' w', Plays C F w₁ d p' tr' w' := by
    cases hp : w₁.cluster.pending d.party with
    | none => exact plays_idle hrun₁ htimely₁ hall hp hs
    | some x => exact plays_asked hrun₁ htimely₁ rfl (hall _) hp hs
  refine ⟨tr₁ ++ tr₂, w₂, h₁.run.append h₂.run, h₂.play_eq,
    timely_append h₁.timely h₂.timely, ?_⟩
  rw [seen_append, h₁.seen_eq, h₂.seen_eq]
  rfl

/-- So it is with runs. -/
theorem run_played {ptr : List (Entry (Play ι σ) (Deed ι))} (hrun : WorldRun C F init tr w)
    (htimely : Timely tr) (hplay : Run (PlayStep C F) (play C w) ptr p') :
    ∃ tr' w', Run (Step C F) w tr' w' ∧ play C w' = p' ∧ Timely tr' ∧
      (clusterTrace tr').filterMap seen = ptr.map Entry.event := by
  induction hplay with
  | nil => exact ⟨[], w, Run.nil, rfl, (fun t ht => by cases ht), rfl⟩
  | snoc _ hs ih =>
      obtain ⟨tr₁, w₁, hrun₁, rfl, htimely₁, hseen₁⟩ := ih
      obtain ⟨tr₂, w₂, hrun₂, hplay₂, htimely₂, hseen₂⟩ :=
        step_played (hrun.append hrun₁) (timely_append htimely htimely₁) hs
      refine ⟨tr₁ ++ tr₂, w₂, hrun₁.append hrun₂, hplay₂, timely_append htimely₁ htimely₂, ?_⟩
      rw [seen_append, hseen₁, hseen₂, List.map_append]
      rfl

end Realization

/-! ## Results -/

/-- **Programs see the board.** Whatever programs do over the cluster without timeouts, they do
    over the board, where every call is one step; and wherever the cluster is, whatever they
    can do over the board they can do over the cluster. -/
theorem programs_atomic (C : Crew ι σ) (F : Fleet ι) (init : ι → σ) (tr : WorldTrace ι σ)
    (w : World ι σ) (hrun : WorldRun C F init tr w) (htimely : Timely tr) :
    (∃ ptr, Run (PlayStep C F) ⟨board F.start, init⟩ ptr (play C w) ∧
      ptr.map Entry.event = (clusterTrace tr).filterMap seen) ∧
    ∀ ptr p, Run (PlayStep C F) (play C w) ptr p →
      ∃ tr' w', Run (Step C F) w tr' w' ∧ Timely tr' ∧ play C w' = p ∧
        (clusterTrace tr').filterMap seen = ptr.map Entry.event := by
  constructor
  · exact run_shown hrun htimely
  · intro ptr p hplay
    obtain ⟨tr', w', hrun', hplay', htimely', hseen⟩ := run_played hrun htimely hplay
    exact ⟨tr', w', hrun', htimely', hplay', hseen⟩

/-- Two processes that map block 7 and exit. -/
def mapSeven : Crew Bool (Option Int) where
  program := fun _ =>
    { act := fun st _ =>
        match st with
        | none => .call (.map 7 (Data.memset 1))
        | some _ => .exit
      resume := fun _ code => some code }
  after := fun _ _ => False

/-- One of them has sent its request. -/
theorem programs_atomic_mapSeven :
    ∃ e w, WorldRun mapSeven twoServers (fun _ => none) [⟨⟨twoServers.start, fun _ => none⟩, e, w⟩] w ∧
      (w.cluster.pending false).isSome = true ∧
      ∀ ptr p, Run (PlayStep mapSeven twoServers) (play mapSeven w) ptr p →
        ∃ tr' w', Run (Step mapSeven twoServers) w tr' w' ∧ Timely tr' ∧ play mapSeven w' = p ∧
          (clusterTrace tr').filterMap seen = ptr.map Entry.event := by
  have hsent : ((twoServers.start.client false).send (.map 7 (Data.memset 1))).toOption.bind
      (fun x => match x with
        | .sent sid _ _ => some sid
        | .returned _ _ => none) = some "10.0.0.1:5000" := by
    decide +kernel
  cases hsend : (twoServers.start.client false).send (.map 7 (Data.memset 1)) with
  | error f =>
      rw [hsend] at hsent
      cases hsent
  | ok x =>
      cases x with
      | returned code client =>
          rw [hsend] at hsent
          cases hsent
      | sent sid req client =>
          have hs : Step mapSeven twoServers ⟨twoServers.start, fun _ => none⟩ _ ⟨_, fun _ => none⟩ :=
            ⟨.sent rfl rfl hsend, .sent (fun _ hu => hu.elim) rfl⟩
          exact ⟨_, _, Run.nil.snoc hs, rfl,
            (programs_atomic mapSeven twoServers (fun _ => none) _ _ (Run.nil.snoc hs)
              (timely_single rfl)).2⟩

end DmProgram
