import DistributedMemory.DmSystemProofs

/-!
# Pairing — which reply a call reads

Requests and replies are matched by their place in the stream alone. A call that gave up
after `TCP_TIMEOUT` leaves its reply to the next call on the connection, and from then on
every call reads the reply to an earlier request.

* **`Paired`** — the messages in flight on a connection are numbered consecutively from
  the number of replies read so far, one for the call in progress and one for every
  timeout there was.
* **`Exchanging`** — what is in flight for the call in progress was made from its own
  request, while its client stood still.
* **`exchange`** — the whole story of a call that read its own reply, for the modules on
  coherence to use.
* **`ownReplies_iff`** — exactly the runs without a reply read after a timeout pair every
  call with its own reply.
-/

namespace DmPairing

open DmBlock DmMessage DmClient DmServer DmHost DmSystem LabelledRun

variable {ι : Type} [DecidableEq ι]

/-! ## Counting replies -/

/-- Client `c` reads a reply in this step. -/
def readsReply (c : ι) (t : Entry (System ι) (Event ι)) : Bool :=
  match t.event with
  | .received u _ _ _ _ => u = c
  | _ => false

/-- A call of client `c` times out in this step. -/
def timesOut (c : ι) (t : Entry (System ι) (Event ι)) : Bool :=
  match t.event with
  | .timedOut u _ => u = c
  | _ => false

/-- The replies client `c` has read. -/
def reads (c : ι) (tr : Trace ι) : Nat := tr.countP (readsReply c)

/-- The calls of client `c` that timed out. -/
def timeouts (c : ι) (tr : Trace ι) : Nat := tr.countP (timesOut c)

theorem reads_snoc (c : ι) (tr : Trace ι) (t : Entry (System ι) (Event ι)) :
    reads c (tr ++ [t]) = reads c tr + if readsReply c t then 1 else 0 := by
  rw [reads, List.countP_append, List.countP_singleton]
  rfl

theorem timeouts_snoc (c : ι) (tr : Trace ι) (t : Entry (System ι) (Event ι)) :
    timeouts c (tr ++ [t]) = timeouts c tr + if timesOut c t then 1 else 0 := by
  rw [timeouts, List.countP_append, List.countP_singleton]
  rfl

/-- A timeout counted is a timeout of the run. -/
theorem timeouts_pos_iff {c : ι} {tr : Trace ι} :
    0 < timeouts c tr ↔ ∃ (j : Nat) (t : Entry (System ι) (Event ι)) (p : Pending),
      tr[j]? = some t ∧ t.event = .timedOut c p := by
  rw [timeouts, List.countP_pos_iff]
  constructor
  · rintro ⟨t, ht, htime⟩
    obtain ⟨j, hj⟩ := List.getElem?_of_mem ht
    rw [timesOut] at htime
    split at htime
    · rename_i u p hev
      rw [of_decide_eq_true htime] at hev
      exact ⟨j, t, p, hj, hev⟩
    · exact nomatch htime
  · rintro ⟨j, t, p, hj, hev⟩
    refine ⟨t, List.mem_of_getElem? hj, ?_⟩
    rw [timesOut, hev]
    exact decide_eq_true rfl

theorem timeouts_eq_zero {c : ι} {tr : Trace ι} (h : NoTimeout tr) : timeouts c tr = 0 := by
  refine Nat.eq_zero_of_not_pos fun hpos => ?_
  obtain ⟨j, t, p, hj, hev⟩ := timeouts_pos_iff.mp hpos
  exact h t (List.mem_of_getElem? hj) c p hev

/-! ## The numbers in flight -/

/-- The numbers of the messages in flight on a connection, oldest first: replies to read,
    then requests to answer. -/
def inFlight (s : System ι) (c : ι) : List Nat :=
  (s.link c).replies.map Prod.fst ++ (queue s c).map Prod.fst

/-- A connection's messages in flight are numbered in a row from the first reply not read
    yet, and there is one for each timeout and one for the call in progress. -/
structure Paired (tr : Trace ι) (s : System ι) (c : ι) : Prop where
  numbers : inFlight s c = List.range' (reads c tr) (inFlight s c).length
  count : (inFlight s c).length = timeouts c tr + (s.link c).pending.toList.length
  sent : (s.link c).sent = reads c tr + (inFlight s c).length
  last : ∀ p, (s.link c).pending = some p → p.tag + 1 = (s.link c).sent

/-- Every number in flight belongs to a request that was sent. -/
theorem Paired.lt_sent {tr : Trace ι} {s : System ι} {c : ι} (h : Paired tr s c) {n : Nat}
    (hn : n ∈ inFlight s c) : n < (s.link c).sent := by
  rw [h.numbers, List.mem_range'_1] at hn
  rw [h.sent]
  exact hn.2

/-- A step that shows no reply read and no timeout, and neither sends nor ends a call,
    keeps the numbers as they are. -/
theorem Paired.keep {tr : Trace ι} {s s' : System ι} {c : ι}
    {t : Entry (System ι) (Event ι)} (h : Paired tr s c) (hread : readsReply c t = false)
    (htime : timesOut c t = false) (hfly : inFlight s' c = inFlight s c)
    (hsent : (s'.link c).sent = (s.link c).sent)
    (hpending : (s'.link c).pending = (s.link c).pending) :
    Paired (tr ++ [t]) s' c := by
  have hreads : reads c (tr ++ [t]) = reads c tr := by rw [reads_snoc, hread]; rfl
  have htimes : timeouts c (tr ++ [t]) = timeouts c tr := by rw [timeouts_snoc, htime]; rfl
  constructor
  · rw [hreads, hfly]
    exact h.numbers
  · rw [htimes, hfly, hpending]
    exact h.count
  · rw [hreads, hfly, hsent]
    exact h.sent
  · rw [hpending, hsent]
    exact h.last

/-- A call that sends its request puts the next number in flight. -/
theorem Paired.send {tr : Trace ι} {s s' : System ι} {c : ι} {p : Pending}
    (h : Paired tr s c) (hidle : (s.link c).pending = none)
    (hfly : inFlight s' c = inFlight s c ++ [p.tag]) (htag : p.tag = (s.link c).sent)
    (hsent : (s'.link c).sent = (s.link c).sent + 1)
    (hpending : (s'.link c).pending = some p) :
    Paired (tr ++ [⟨s, .sent c p, s'⟩]) s' c := by
  have hreads : reads c (tr ++ [⟨s, .sent c p, s'⟩]) = reads c tr := by
    rw [reads_snoc]; rfl
  have htimes : timeouts c (tr ++ [⟨s, .sent c p, s'⟩]) = timeouts c tr := by
    rw [timeouts_snoc]; rfl
  have hlen : (inFlight s' c).length = (inFlight s c).length + 1 := by
    rw [hfly, List.length_append, List.length_singleton]
  constructor
  · rw [hreads, hlen, List.range'_1_concat, ← h.numbers, hfly, htag, h.sent]
  · have hcount := h.count
    rw [hidle] at hcount
    rw [htimes, hpending, hlen, hcount]
    rfl
  · rw [hreads, hlen, hsent, h.sent]
    rfl
  · intro q hq
    obtain rfl : p = q := Option.some.inj (hpending.symm.trans hq)
    rw [hsent, htag]

/-- A call that reads a reply takes the first number in flight out. -/
theorem Paired.receive {tr : Trace ι} {s s' : System ι} {c : ι} {p : Pending} {tag : Nat}
    {reply : Node} {code : Option Int} (h : Paired tr s c)
    (hp : (s.link c).pending = some p) (hfly : inFlight s c = tag :: inFlight s' c)
    (hsent : (s'.link c).sent = (s.link c).sent) (hpending : (s'.link c).pending = none) :
    Paired (tr ++ [⟨s, .received c p tag reply code, s'⟩]) s' c := by
  have hreads : reads c (tr ++ [⟨s, .received c p tag reply code, s'⟩]) = reads c tr + 1 := by
    rw [reads_snoc]
    simp [readsReply]
  have htimes : timeouts c (tr ++ [⟨s, .received c p tag reply code, s'⟩]) = timeouts c tr := by
    rw [timeouts_snoc]; rfl
  have hlen : (inFlight s c).length = (inFlight s' c).length + 1 := by
    rw [hfly, List.length_cons]
  constructor
  · have hnum := h.numbers
    rw [hlen, List.range'_succ, hfly] at hnum
    rw [hreads]
    exact (List.cons.inj hnum).2
  · have hcount := h.count
    rw [hp, hlen] at hcount
    rw [htimes, hpending]
    exact Nat.succ.inj hcount
  · rw [hreads, hsent, h.sent, hlen]
    omega
  · intro q hq
    rw [hpending] at hq
    exact nomatch hq

/-- A call that gives up leaves its number in flight. -/
theorem Paired.giveUp {tr : Trace ι} {s s' : System ι} {c : ι} {p : Pending}
    (h : Paired tr s c) (hp : (s.link c).pending = some p)
    (hfly : inFlight s' c = inFlight s c)
    (hsent : (s'.link c).sent = (s.link c).sent) (hpending : (s'.link c).pending = none) :
    Paired (tr ++ [⟨s, .timedOut c p, s'⟩]) s' c := by
  have hreads : reads c (tr ++ [⟨s, .timedOut c p, s'⟩]) = reads c tr := by
    rw [reads_snoc]; rfl
  have htimes : timeouts c (tr ++ [⟨s, .timedOut c p, s'⟩]) = timeouts c tr + 1 := by
    rw [timeouts_snoc]
    simp [timesOut]
  constructor
  · rw [hreads, hfly]
    exact h.numbers
  · have hcount := h.count
    rw [hp] at hcount
    rw [htimes, hpending, hfly, hcount]
    rfl
  · rw [hreads, hfly, hsent]
    exact h.sent
  · intro q hq
    rw [hpending] at hq
    exact nomatch hq

theorem start_paired (D : Deployment ι) (c : ι) : Paired [] D.start c where
  numbers := rfl
  count := rfl
  sent := rfl
  last := fun _ hp => nomatch hp

/-- A critical section moves a number from the requests to the replies, or leaves it. -/
theorem inFlight_critical {D : Deployment ι} {s s' : System ι} {c : ι} {tag : Nat}
    {req : Node} {ans : Option Node} (hs : Step D s (.critical c tag req ans) s') :
    inFlight s' c = inFlight s c := by
  obtain ⟨rest, hq, hq', hlink, -⟩ := critical_queue hs
  rw [inFlight, inFlight, hq, hq', hlink]
  cases ans with
  | none => simp [Link.answered, unanswered]
  | some ack => simp [Link.answered, unanswered]

omit [DecidableEq ι] in
theorem inFlight_congr {s s' : System ι} {c : ι}
    (hreplies : (s'.link c).replies = (s.link c).replies)
    (hserving : serving (s'.host.thread c) = serving (s.host.thread c))
    (hrequests : (s'.link c).requests = (s.link c).requests) :
    inFlight s' c = inFlight s c := by
  rw [inFlight, inFlight, queue, queue, hreplies, hserving, hrequests]

/-- **Every step keeps the numbers in a row.** -/
theorem step_paired {D : Deployment ι} {tr : Trace ι} {s s' : System ι} {e : Event ι} {c : ι}
    (h : Paired tr s c) (hs : Step D s e s') : Paired (tr ++ [⟨s, e, s'⟩]) s' c := by
  by_cases hc : c = e.party
  · cases hs with
    | @returned u call code client hidle halive hsend =>
        obtain rfl : c = u := hc
        refine h.keep rfl rfl (inFlight_congr ?_ rfl ?_) ?_ ?_ <;> rw [System.setLink_self]
    -- one more in flight, and the call it belongs to
    | @sent u call req client hidle halive hsend =>
        obtain rfl : c = u := hc
        refine h.send hidle ?_ rfl ?_ ?_
        · simp [inFlight, queue, Link.write]
        · rw [System.setLink_self]
          rfl
        · rw [System.setLink_self]
          rfl
    | @died u call f hidle halive hsend =>
        obtain rfl : c = u := hc
        refine h.keep rfl rfl (inFlight_congr ?_ rfl ?_) ?_ ?_ <;> rw [System.setLink_self]
    | @poked u id entry d hidle halive he =>
        obtain rfl : c = u := hc
        refine h.keep rfl rfl (inFlight_congr ?_ rfl ?_) ?_ ?_ <;> rw [System.setLink_self]
    | @request u tag req rest ans host hreq hread hhost =>
        obtain rfl : c = u := hc
        refine h.keep rfl rfl (inFlight_critical (Step.request hreq hread hhost)) ?_ ?_ <;>
          rw [System.setLink_self] <;> rfl
    | @retry u tag req k msg ans host hawake hhost =>
        obtain rfl : c = u := hc
        refine h.keep rfl rfl (inFlight_critical (Step.retry hawake hhost)) ?_ ?_ <;>
          rw [System.setLink_self] <;> rfl
    | @woken u host hhost =>
        exact h.keep rfl rfl (inFlight_congr rfl (serving_woken hhost c) rfl) rfl rfl
    | @received u p tag reply rest code client hp halive hrep hrecv =>
        obtain rfl : c = u := hc
        refine h.receive hp ?_ ?_ ?_
        · simp [inFlight, queue, Link.done, hrep]
        · rw [System.setLink_self]
          rfl
        · rw [System.setLink_self]
          rfl
    | @receivedDied u p tag reply rest f hp halive hrep hrecv =>
        obtain rfl : c = u := hc
        refine h.receive hp ?_ ?_ ?_
        · simp [inFlight, queue, Link.done, hrep]
        · rw [System.setLink_self]
          rfl
        · rw [System.setLink_self]
          rfl
    -- the call is over, its message stays in flight
    | @timedOut u p code client hp halive hnone hrecv =>
        obtain rfl : c = u := hc
        refine h.giveUp hp ?_ ?_ ?_
        · simp [inFlight, queue, Link.done, hnone]
        · rw [System.setLink_self]
          rfl
        · rw [System.setLink_self]
          rfl
  · obtain ⟨hlink, hserving⟩ := step_other hs hc
    have hread : readsReply c ⟨s, e, s'⟩ = false := by
      rw [readsReply]
      split
      · rename_i u _ _ _ _ hev
        rw [show e = _ from hev] at hc
        exact decide_eq_false fun heq => hc heq.symm
      · rfl
    have htime : timesOut c ⟨s, e, s'⟩ = false := by
      rw [timesOut]
      split
      · rename_i u _ hev
        rw [show e = _ from hev] at hc
        exact decide_eq_false fun heq => hc heq.symm
      · rfl
    refine h.keep hread htime (inFlight_congr ?_ hserving ?_) ?_ ?_ <;> rw [hlink]

theorem run_paired {D : Deployment ι} {tr : Trace ι} {s : System ι} (hrun : SysRun D tr s)
    (c : ι) : Paired tr s c := by
  induction hrun with
  | nil => exact start_paired D c
  | snoc _ hs ih => exact step_paired ih hs

/-! ## The call in progress -/

/-- What is in flight under the number of the call in progress was made from the call's
    own request, and the client has not changed since it sent it. -/
structure Exchanging (tr : Trace ι) (s : System ι) (c : ι) (p : Pending) : Prop where
  issued : ∃ (k : Nat) (t : Entry (System ι) (Event ι)), tr[k]? = some t ∧
    t.event = .sent c p ∧ (t.post.link c).client = (s.link c).client
  asked : ∀ req, (p.tag, req) ∈ queue s c → req = p.req
  answered : ∀ reply, (p.tag, reply) ∈ (s.link c).replies →
    ∃ (j : Nat) (t : Entry (System ι) (Event ι)), tr[j]? = some t ∧
      t.event = .critical c p.tag p.req (some reply) ∧ (t.pre.link c).pending = some p ∧
      (t.pre.link c).client = (s.link c).client

omit [DecidableEq ι] in
/-- Nothing new in flight. -/
theorem Exchanging.keep {tr : Trace ι} {s s' : System ι} {c : ι} {p : Pending}
    {t : Entry (System ι) (Event ι)} (h : Exchanging tr s c p)
    (hclient : (s'.link c).client = (s.link c).client)
    (hqueue : ∀ x ∈ queue s' c, x ∈ queue s c)
    (hreplies : (s'.link c).replies = (s.link c).replies) :
    Exchanging (tr ++ [t]) s' c p := by
  constructor
  · obtain ⟨k, tk, hk, hev, hsame⟩ := h.issued
    exact ⟨k, tk, getElem?_append_of_some hk, hev, hsame.trans hclient.symm⟩
  · intro req hreq
    exact h.asked req (hqueue _ hreq)
  · intro reply hrep
    rw [hreplies] at hrep
    obtain ⟨j, tj, hj, hev, hpend, hsame⟩ := h.answered reply hrep
    exact ⟨j, tj, getElem?_append_of_some hj, hev, hpend, hsame.trans hclient.symm⟩

/-- The request just sent is the only message in flight under its number. -/
theorem exchanging_sent {tr : Trace ι} {s s' : System ι} {c : ι} {p : Pending}
    (h : Paired tr s c) (htag : p.tag = (s.link c).sent)
    (hqueue : queue s' c = queue s c ++ [(p.tag, p.req)])
    (hreplies : (s'.link c).replies = (s.link c).replies) :
    Exchanging (tr ++ [⟨s, .sent c p, s'⟩]) s' c p := by
  have hnew : p.tag ∉ inFlight s c := fun hin =>
    absurd (h.lt_sent hin) (Nat.not_lt.mpr (Nat.le_of_eq htag.symm))
  constructor
  · exact ⟨tr.length, _, List.getElem?_concat_length, rfl, rfl⟩
  · intro req hreq
    rw [hqueue] at hreq
    rcases List.mem_append.mp hreq with hold | hlast
    · refine absurd ?_ hnew
      exact List.mem_append_right _ (List.mem_map_of_mem (f := Prod.fst) hold)
    · exact (Prod.mk.inj (List.mem_singleton.mp hlast)).2
  · intro reply hrep
    rw [hreplies] at hrep
    refine absurd ?_ hnew
    exact List.mem_append_left _ (List.mem_map_of_mem (f := Prod.fst) hrep)

/-- A critical section on the call's request answers that request, for the client as it
    stands. -/
theorem exchanging_critical {D : Deployment ι} {tr : Trace ι} {s s' : System ι} {c : ι}
    {p : Pending} {tag : Nat} {req : Node} {ans : Option Node}
    (h : Exchanging tr s c p) (hp : (s.link c).pending = some p)
    (hs : Step D s (.critical c tag req ans) s') :
    Exchanging (tr ++ [⟨s, .critical c tag req ans, s'⟩]) s' c p := by
  obtain ⟨rest, hq, hq', hlink, -⟩ := critical_queue hs
  have hclient : (s'.link c).client = (s.link c).client := by rw [hlink]; rfl
  constructor
  · obtain ⟨k, t, hk, hev, hsame⟩ := h.issued
    exact ⟨k, t, getElem?_append_of_some hk, hev, hsame.trans hclient.symm⟩
  · intro req' hreq'
    refine h.asked req' ?_
    rw [hq]
    rw [hq'] at hreq'
    cases ans with
    | none => exact hreq'
    | some ack => exact List.mem_cons_of_mem _ hreq'
  · intro reply hrep
    rw [hlink] at hrep
    rcases List.mem_append.mp hrep with hold | hnew
    · obtain ⟨j, t, hj, hev, hpend, hsame⟩ := h.answered reply hold
      exact ⟨j, t, getElem?_append_of_some hj, hev, hpend, hsame.trans hclient.symm⟩
    · cases ans with
      | none => exact nomatch hnew
      | some ack =>
          obtain ⟨rfl, rfl⟩ := Prod.mk.inj (List.mem_singleton.mp hnew)
          have hreq : req = p.req := h.asked req (by rw [hq]; exact List.mem_cons_self)
          refine ⟨tr.length, _, List.getElem?_concat_length, ?_, hp, hclient.symm⟩
          rw [hreq]

/-- **Every call in progress exchanges its own messages.** -/
theorem step_exchanging {D : Deployment ι} {tr : Trace ι} {s s' : System ι} {e : Event ι}
    {c : ι} (hpaired : Paired tr s c)
    (h : ∀ p, (s.link c).pending = some p → Exchanging tr s c p) (hs : Step D s e s') :
    ∀ p, (s'.link c).pending = some p → Exchanging (tr ++ [⟨s, e, s'⟩]) s' c p := by
  intro p hp
  by_cases hc : c = e.party
  -- a call in progress rules out the steps of an idle client
  · cases hs with
    | @returned u call code client hidle halive hsend =>
        obtain rfl : c = u := hc
        rw [System.setLink_self] at hp
        cases hidle.symm.trans hp
    | @sent u call req client hidle halive hsend =>
        obtain rfl : c = u := hc
        rw [System.setLink_self] at hp
        obtain rfl := Option.some.inj hp
        refine exchanging_sent hpaired rfl ?_ ?_
        · rw [queue, System.setLink_self, queue, List.append_assoc]
          rfl
        · rw [System.setLink_self]
          rfl
    | @died u call f hidle halive hsend =>
        obtain rfl : c = u := hc
        rw [System.setLink_self] at hp
        cases hidle.symm.trans hp
    | @poked u id entry d hidle halive he =>
        obtain rfl : c = u := hc
        rw [System.setLink_self] at hp
        cases hidle.symm.trans hp
    | @request u tag req rest ans host hreq hread hhost =>
        obtain rfl : c = u := hc
        rw [System.setLink_self] at hp
        exact exchanging_critical (h p hp) hp (Step.request hreq hread hhost)
    | @retry u tag req k msg ans host hawake hhost =>
        obtain rfl : c = u := hc
        rw [System.setLink_self] at hp
        exact exchanging_critical (h p hp) hp (Step.retry hawake hhost)
    | @woken u host hhost =>
        refine (h p hp).keep rfl (fun x hx => ?_) rfl
        rw [queue, ← serving_woken hhost c]
        exact hx
    | @received u p' tag reply rest code client hp' halive hrep hrecv =>
        obtain rfl : c = u := hc
        rw [System.setLink_self] at hp
        cases hp
    | @receivedDied u p' tag reply rest f hp' halive hrep hrecv =>
        obtain rfl : c = u := hc
        rw [System.setLink_self] at hp
        cases hp
    | @timedOut u p' code client hp' halive hnone hrecv =>
        obtain rfl : c = u := hc
        rw [System.setLink_self] at hp
        cases hp
  · obtain ⟨hlink, hserving⟩ := step_other hs hc
    rw [hlink] at hp
    refine (h p hp).keep (by rw [hlink]) (fun x hx => ?_) (by rw [hlink])
    rw [queue, ← hserving, ← hlink]
    exact hx

theorem run_exchanging {D : Deployment ι} {tr : Trace ι} {s : System ι}
    (hrun : SysRun D tr s) (c : ι) :
    ∀ p, (s.link c).pending = some p → Exchanging tr s c p := by
  induction hrun with
  | nil => exact fun p hp => nomatch hp
  | snoc hpre hs ih => exact step_exchanging (run_paired hpre c) ih hs

/-- What a call in progress sent was made from an entry its client still has. -/
theorem pending_requests {D : Deployment ι} {tr : Trace ι} {s : System ι}
    (hrun : SysRun D tr s) {c : ι} {p : Pending} (hp : (s.link c).pending = some p) :
    ∃ e, (s.link c).client.blocks p.call.id = some e ∧
      p.req = emitBlock p.call.type e.toBlock p.call.shallow ∧
      (p.call.needsValid = true → e.valid = true) ∧
      ∀ id address, p.call = .map id address → e = BlockLocal.create id address := by
  obtain ⟨k, t, hk, hev, hsame⟩ := (run_exchanging hrun c p hp).issued
  have hs := hrun.step_of_mem (List.mem_of_getElem? hk)
  rw [hev] at hs
  obtain ⟨-, client, hsend, hpost, -⟩ := sent_inv hs
  obtain ⟨e, hreq⟩ := Client.send_sent hsend
  have hclient : (s.link c).client = client := by
    rw [← hsame, hpost, System.setLink_self]
    rfl
  refine ⟨e, ?_, hreq.request, hreq.valid, fun id address hc => (hreq.created _ _ hc).2⟩
  rw [hclient]
  exact hreq.entry

/-! ## A call that reads its own reply -/

/-- What led to a call's reply: the call sent its request in step `k`, and in step `j` the
    server produced the reply to it, for the client as it stood from the one to the
    other. -/
structure Exchange (tr : Trace ι) (c : ι) (p : Pending) (reply : Node) (client : Client)
    (k j : Nat) (sending serving : Entry (System ι) (Event ι)) : Prop where
  before : k < j
  sentAt : tr[k]? = some sending
  sent : sending.event = .sent c p
  issuer : (sending.post.link c).client = client
  servedAt : tr[j]? = some serving
  served : serving.event = .critical c p.tag p.req (some reply)
  pending : (serving.pre.link c).pending = some p
  frozen : (serving.pre.link c).client = client

/-- **A reply under the call's own number was produced for the call's own request**, after
    the call sent it. -/
theorem exchange {D : Deployment ι} {tr : Trace ι} {s : System ι} (hrun : SysRun D tr s)
    {c : ι} {p : Pending} {reply : Node} (hp : (s.link c).pending = some p)
    (hrep : (p.tag, reply) ∈ (s.link c).replies) :
    ∃ k j sending serving, j < tr.length ∧
      Exchange tr c p reply (s.link c).client k j sending serving := by
  obtain ⟨j, tj, hj, hev, hpend, hfrozen⟩ :=
    (run_exchanging hrun c p hp).answered reply hrep
  -- the call was in progress when the reply was produced, so it was sent before
  obtain ⟨k, tk, hk, hsent, hissuer⟩ := (run_exchanging (hrun.take hj) c p hpend).issued
  obtain ⟨hlt, -⟩ := List.getElem?_eq_some_iff.mp hj
  have hkj : k < j := by
    obtain ⟨hk', -⟩ := List.getElem?_eq_some_iff.mp hk
    rw [List.length_take] at hk'
    omega
  rw [List.getElem?_take_of_lt hkj] at hk
  exact ⟨k, j, tk, tj, hlt, hkj, hk, hsent, hissuer.trans hfrozen, hj, hev, hpend, hfrozen⟩

/-- The same for a reply about to be read at step `i` of a run. -/
theorem exchange_at {D : Deployment ι} {tr : Trace ι} {s : System ι} (hrun : SysRun D tr s)
    {i : Nat} {t : Entry (System ι) (Event ι)} (hi : tr[i]? = some t) {c : ι} {p : Pending}
    {reply : Node} (hp : (t.pre.link c).pending = some p)
    (hrep : (p.tag, reply) ∈ (t.pre.link c).replies) :
    ∃ k j sending serving, j < i ∧
      Exchange tr c p reply (t.pre.link c).client k j sending serving := by
  obtain ⟨k, j, sending, serving, hlt, hex⟩ := exchange (hrun.take hi) hp hrep
  have hji : j < i := by
    rw [List.length_take] at hlt
    omega
  have hk := hex.sentAt
  have hj := hex.servedAt
  rw [List.getElem?_take_of_lt (Nat.lt_trans hex.before hji)] at hk
  rw [List.getElem?_take_of_lt hji] at hj
  exact ⟨k, j, sending, serving, hji, { hex with sentAt := hk, servedAt := hj }⟩

/-- The number of the reply a call reads counts the replies read before. -/
theorem tag_eq_reads {D : Deployment ι} {tr : Trace ι} {s s' : System ι}
    (hrun : SysRun D tr s) {c : ι} {p : Pending} {tag : Nat} {reply : Node}
    {code : Option Int} (hs : Step D s (.received c p tag reply code) s') :
    tag = reads c tr := by
  have h := run_paired hrun c
  obtain ⟨hp, rest, hrep⟩ := received_head hs
  have hhead : inFlight s c = tag :: (rest.map Prod.fst ++ (queue s c).map Prod.fst) := by
    rw [inFlight, hrep]
    rfl
  have hnum := h.numbers
  rw [hhead, List.length_cons, List.range'_succ] at hnum
  exact (List.cons.inj hnum).1

/-- The call's own number also counts the calls that timed out. -/
theorem number_read {D : Deployment ι} {tr : Trace ι} {s s' : System ι}
    (hrun : SysRun D tr s) {c : ι} {p : Pending} {tag : Nat} {reply : Node}
    {code : Option Int} (hs : Step D s (.received c p tag reply code) s') :
    p.tag = tag + timeouts c tr := by
  have h := run_paired hrun c
  have htag := tag_eq_reads hrun hs
  have hp := (received_head hs).1
  have hcount := h.count
  rw [hp] at hcount
  have hlast := h.last p hp
  rw [h.sent] at hlast
  have hone : (some p).toList.length = 1 := rfl
  omega

theorem reads_mono (c : ι) (tr tr' : Trace ι) : reads c tr ≤ reads c (tr ++ tr') := by
  rw [reads, reads, List.countP_append]
  exact Nat.le_add_right _ _

/-- **A reply is read once.** -/
theorem received_once {D : Deployment ι} {tr : Trace ι} {s : System ι} (hrun : SysRun D tr s)
    {i i' : Nat} {t t' : Entry (System ι) (Event ι)} {c : ι} {p p' : Pending} {tag : Nat}
    {reply reply' : Node} {code code' : Option Int} (hi : tr[i]? = some t)
    (hi' : tr[i']? = some t') (hev : t.event = .received c p tag reply code)
    (hev' : t'.event = .received c p' tag reply' code') : i = i' := by
  -- a later reply has a higher number
  have hlater : ∀ {i i' : Nat} {t t' : Entry (System ι) (Event ι)} {p p' : Pending}
      {reply reply' : Node} {code code' : Option Int}, tr[i]? = some t → tr[i']? = some t' →
      t.event = .received c p tag reply code → t'.event = .received c p' tag reply' code' →
      ¬ i < i' := by
    intro i i' t t' p p' reply reply' code code' hi hi' hev hev' hlt
    have hs := hrun.step_of_mem (List.mem_of_getElem? hi)
    have hs' := hrun.step_of_mem (List.mem_of_getElem? hi')
    rw [hev] at hs
    rw [hev'] at hs'
    have h := tag_eq_reads (hrun.take hi) hs
    have h' := tag_eq_reads (hrun.take hi') hs'
    have hread : readsReply c t = true := by
      rw [readsReply, hev]
      exact decide_eq_true rfl
    have hsucc : reads c (tr.take (i + 1)) = reads c (tr.take i) + 1 := by
      rw [List.take_add_one, hi]
      show reads c (tr.take i ++ [t]) = _
      rw [reads_snoc, hread]
      rfl
    have hmono := reads_mono c ((tr.take i').take (i + 1)) ((tr.take i').drop (i + 1))
    rw [List.take_append_drop, List.take_take, Nat.min_eq_left hlt, hsucc] at hmono
    omega
  rcases Nat.lt_trichotomy i i' with hlt | heq | hgt
  · exact absurd hlt (hlater hi hi' hev hev')
  · exact heq
  · exact absurd hgt (hlater hi' hi hev' hev)

/-- A step of the client's own that sends nothing leaves counter and queue alone. -/
theorem queue_setLink {s : System ι} {c : ι} {l : Link} (hsent : (s.link c).sent = l.sent)
    (hrequests : l.requests = (s.link c).requests) :
    (s.link c).sent ≤ ((s.setLink c l).link c).sent ∧
      ∀ n ∈ (queue (s.setLink c l) c).map Prod.fst,
        n ∈ (queue s c).map Prod.fst ∨ n = (s.link c).sent := by
  refine ⟨by rw [System.setLink_self]; exact Nat.le_of_eq hsent, ?_⟩
  rintro n hn
  rw [queue, System.setLink_self, hrequests] at hn
  exact Or.inl hn

/-- One step: nothing joins a queue but the request that is sent now. -/
theorem step_queue {D : Deployment ι} {s s' : System ι} {e : Event ι} (c : ι)
    (hs : Step D s e s') :
    (s.link c).sent ≤ (s'.link c).sent ∧
      ∀ n ∈ (queue s' c).map Prod.fst, n ∈ (queue s c).map Prod.fst ∨ n = (s.link c).sent := by
  by_cases hc : c = e.party
  · cases e with
    | critical u tag' req' ans =>
        obtain rfl : c = u := hc
        obtain ⟨rest, hq, hq', hlink, -⟩ := critical_queue hs
        have hsame : (s.link c).sent = (s'.link c).sent := by rw [hlink]; rfl
        refine ⟨Nat.le_of_eq hsame, fun n hn => Or.inl ?_⟩
        rw [hq'] at hn
        rw [hq]
        -- a reply takes the first request off, sleep leaves it there
        cases ans with
        | none => exact hn
        | some ack' => exact List.mem_cons_of_mem _ hn
    | sent u p =>
        obtain rfl : c = u := hc
        obtain ⟨-, client, -, hpost, -⟩ := sent_inv hs
        have hqueue : queue s' c = queue s c ++ [((s.link c).sent, p.req)] := by
          rw [hpost, queue, System.setLink_self, queue, List.append_assoc]
          rfl
        refine ⟨?_, fun n hn => ?_⟩
        · rw [hpost, System.setLink_self]
          exact Nat.le_succ _
        · rw [hqueue, List.map_append] at hn
          rcases List.mem_append.mp hn with hin | hnew
          · exact Or.inl hin
          · exact Or.inr (List.mem_singleton.mp hnew)
    | woken u =>
        cases hs with
        | woken hhost =>
            refine ⟨Nat.le_refl _, fun n hn => Or.inl ?_⟩
            rw [queue, ← serving_woken hhost c]
            exact hn
    | returned u call code =>
        obtain rfl : c = u := hc
        cases hs
        exact queue_setLink rfl rfl
    | died u call =>
        obtain rfl : c = u := hc
        cases hs
        exact queue_setLink rfl rfl
    | poked u id =>
        obtain rfl : c = u := hc
        cases hs
        exact queue_setLink rfl rfl
    | received u p tag' reply code =>
        obtain rfl : c = u := hc
        cases hs <;> exact queue_setLink rfl rfl
    | timedOut u p =>
        obtain rfl : c = u := hc
        cases hs
        exact queue_setLink rfl rfl
  · obtain ⟨hlink, hserving⟩ := step_other hs hc
    rw [queue, hlink, hserving]
    exact ⟨Nat.le_refl _, fun n hn => Or.inl hn⟩

/-- An answered request is in the queue no more. -/
theorem answered_not_queued {D : Deployment ι} {tr : Trace ι} {s : System ι}
    (hrun : SysRun D tr s) {j : Nat} {t : Entry (System ι) (Event ι)} {c : ι} {tag : Nat}
    {req ack : Node} (hj : tr[j]? = some t) (hev : t.event = .critical c tag req (some ack)) :
    tag < (s.link c).sent ∧ tag ∉ (queue s c).map Prod.fst := by
  induction hrun with
  | nil => simp at hj
  | @snoc tr s s' e hpre hs ih =>
      have hpaired := run_paired hpre c
      rcases getElem?_snoc_cases hj with ⟨-, hold⟩ | ⟨-, rfl⟩
      · -- answered before: its number is below every one that comes
        obtain ⟨hlt, hout⟩ := ih hold
        obtain ⟨hle, hqueue⟩ := step_queue c hs
        refine ⟨Nat.lt_of_lt_of_le hlt hle, fun hin => ?_⟩
        rcases hqueue tag hin with hin' | heq
        · exact hout hin'
        · exact absurd hlt (Nat.not_lt.mpr (Nat.le_of_eq heq.symm))
      · obtain rfl : e = .critical c tag req (some ack) := hev
        obtain ⟨rest, hq, hq', hlink, -⟩ := critical_queue hs
        have hin : tag ∈ inFlight s c := by
          rw [inFlight, hq]
          exact List.mem_append_right _ List.mem_cons_self
        refine ⟨by rw [hlink]; exact hpaired.lt_sent hin, ?_⟩
        -- the numbers in flight are all different
        have hnodup : (inFlight s c).Nodup := by
          rw [hpaired.numbers]
          exact List.nodup_range'
        rw [inFlight, hq, List.map_cons] at hnodup
        have htail := (List.nodup_append.mp hnodup).2.1
        rw [hq']
        exact (List.nodup_cons.mp htail).1

/-- **A request is answered once.** -/
theorem answered_once {D : Deployment ι} {tr : Trace ι} {s : System ι} (hrun : SysRun D tr s)
    {j j' : Nat} {t t' : Entry (System ι) (Event ι)} {c : ι} {tag : Nat}
    {req req' ack ack' : Node} (hj : tr[j]? = some t) (hj' : tr[j']? = some t')
    (hev : t.event = .critical c tag req (some ack))
    (hev' : t'.event = .critical c tag req' (some ack')) : j = j' := by
  have hlater : ∀ {j j' : Nat} {t t' : Entry (System ι) (Event ι)} {req req' ack ack' : Node},
      tr[j]? = some t → tr[j']? = some t' → t.event = .critical c tag req (some ack) →
      t'.event = .critical c tag req' (some ack') → ¬ j < j' := by
    intro j j' t t' req req' ack ack' hj hj' hev hev' hlt
    have hold : (tr.take j')[j]? = some t := by rw [List.getElem?_take_of_lt hlt]; exact hj
    have hout := (answered_not_queued (hrun.take hj') hold hev).2
    have hs' := hrun.step_of_mem (List.mem_of_getElem? hj')
    rw [hev'] at hs'
    obtain ⟨rest, hq, -⟩ := critical_queue hs'
    rw [hq] at hout
    exact hout List.mem_cons_self
  rcases Nat.lt_trichotomy j j' with hlt | heq | hgt
  · exact absurd hlt (hlater hj hj' hev hev')
  · exact heq
  · exact absurd hgt (hlater hj' hj hev' hev)

/-- A call in progress goes on until it reads a reply or gives up. -/
theorem pending_step {D : Deployment ι} {s s' : System ι} {e : Event ι} {c : ι}
    {p : Pending} (hs : Step D s e s') (hp : (s.link c).pending = some p) :
    (s'.link c).pending = some p ∨ (∃ tag reply code, e = .received c p tag reply code) ∨
      e = .timedOut c p := by
  by_cases hc : c = e.party
  · cases hs with
    | @returned u call code client hidle halive hsend =>
        obtain rfl : c = u := hc
        exact nomatch hidle.symm.trans hp
    | @sent u call req client hidle halive hsend =>
        obtain rfl : c = u := hc
        exact nomatch hidle.symm.trans hp
    | @died u call f hidle halive hsend =>
        obtain rfl : c = u := hc
        exact nomatch hidle.symm.trans hp
    | @poked u id entry d hidle halive he =>
        obtain rfl : c = u := hc
        exact nomatch hidle.symm.trans hp
    | @request u tag req rest ans host hreq hread hhost =>
        obtain rfl : c = u := hc
        exact Or.inl (by rw [System.setLink_self]; exact hp)
    | @retry u tag req k msg ans host hawake hhost =>
        obtain rfl : c = u := hc
        exact Or.inl (by rw [System.setLink_self]; exact hp)
    | woken hhost => exact Or.inl hp
    | @received u p' tag reply rest code client hp' halive hrep hrecv =>
        obtain rfl : c = u := hc
        obtain rfl := Option.some.inj (hp.symm.trans hp')
        exact Or.inr (Or.inl ⟨_, _, _, rfl⟩)
    | @receivedDied u p' tag reply rest f hp' halive hrep hrecv =>
        obtain rfl : c = u := hc
        obtain rfl := Option.some.inj (hp.symm.trans hp')
        exact Or.inr (Or.inl ⟨_, _, _, rfl⟩)
    | @timedOut u p' code client hp' halive hnone hrecv =>
        obtain rfl : c = u := hc
        obtain rfl := Option.some.inj (hp.symm.trans hp')
        exact Or.inr (Or.inr rfl)
  · rw [(step_other hs hc).1]
    exact Or.inl hp

/-- A call in progress after step `i` is still in progress or has ended since. -/
theorem returns {D : Deployment ι} {tr : Trace ι} {s : System ι} (hrun : SysRun D tr s)
    {i : Nat} {t : Entry (System ι) (Event ι)} {c : ι} {p : Pending} (hi : tr[i]? = some t)
    (hp : (t.post.link c).pending = some p) :
    (s.link c).pending = some p ∨ ∃ j t', i < j ∧ tr[j]? = some t' ∧
      ((∃ tag reply code, t'.event = .received c p tag reply code) ∨
        t'.event = .timedOut c p) := by
  induction hrun with
  | nil => simp at hi
  | @snoc tr s s' e hpre hs ih =>
      rcases getElem?_snoc_cases hi with ⟨hlt, hold⟩ | ⟨rfl, rfl⟩
      · rcases ih hold with hbusy | ⟨j, t', hij, hj, hev⟩
        · rcases pending_step hs hbusy with hstill | hend
          · exact Or.inl hstill
          · exact Or.inr ⟨tr.length, _, hlt, List.getElem?_concat_length, hend⟩
        · exact Or.inr ⟨j, t', hij, getElem?_append_of_some hj, hev⟩
      · exact Or.inl hp

/-! ## Connections without timeouts -/

omit [DecidableEq ι] in
theorem inFlight_eq_nil {s : System ι} {c : ι} (h : inFlight s c = []) :
    (s.link c).replies = [] ∧ queue s c = [] := by
  rw [inFlight, List.append_eq_nil_iff, List.map_eq_nil_iff, List.map_eq_nil_iff] at h
  exact h

/-- Between calls nothing is in flight. -/
theorem idle_quiet {D : Deployment ι} {tr : Trace ι} {s : System ι} (hrun : SysRun D tr s)
    (hno : NoTimeout tr) {c : ι} (hp : (s.link c).pending = none) :
    (s.link c).replies = [] ∧ queue s c = [] := by
  have hcount := (run_paired hrun c).count
  rw [timeouts_eq_zero hno, hp] at hcount
  exact inFlight_eq_nil (List.length_eq_zero_iff.mp hcount)

/-- During a call its own number alone is in flight. -/
theorem busy_inFlight {D : Deployment ι} {tr : Trace ι} {s : System ι} (hrun : SysRun D tr s)
    (hno : NoTimeout tr) {c : ι} {p : Pending} (hp : (s.link c).pending = some p) :
    inFlight s c = [p.tag] := by
  have h := run_paired hrun c
  have hcount := h.count
  rw [timeouts_eq_zero hno, hp] at hcount
  have hone : (inFlight s c).length = 1 := hcount
  have hlast := h.last p hp
  rw [h.sent, hone] at hlast
  rw [h.numbers, hone, ← Nat.succ.inj hlast]
  rfl

/-- A critical section works on the call in progress, whose reply is not there yet. -/
theorem critical_pending {D : Deployment ι} {tr : Trace ι} {s s' : System ι}
    (hrun : SysRun D tr s) (hno : NoTimeout tr) {c : ι} {tag : Nat} {req : Node}
    {ans : Option Node} (hs : Step D s (.critical c tag req ans) s') :
    ∃ p, (s.link c).pending = some p ∧ p.tag = tag ∧ p.req = req ∧
      (s.link c).replies = [] := by
  obtain ⟨rest, hq, -⟩ := critical_queue hs
  cases hp : (s.link c).pending with
  | none =>
      rw [(idle_quiet hrun hno hp).2] at hq
      exact nomatch hq
  | some p =>
      have hfly := busy_inFlight hrun hno hp
      rw [inFlight, hq] at hfly
      cases hrep : (s.link c).replies with
      | cons x l =>
          rw [hrep] at hfly
          simp at hfly
      | nil =>
          rw [hrep] at hfly
          have htag : p.tag = tag := (List.cons.inj hfly).1.symm
          have hreq := (run_exchanging hrun c p hp).asked req (by
            rw [hq, htag]
            exact List.mem_cons_self)
          exact ⟨p, rfl, htag, hreq.symm, rfl⟩

/-! ## Runs with timeouts -/

/-- The server accepted the write: it carried the revision of the block it names, and the
    step made it the block's next revision. -/
def WriteAccepted (t : Entry (System ι) (Event ι)) (req : Node) : Prop :=
  ∃ b m it, (Message.ofNode req).deref = .ok (b, m) ∧
    t.pre.host.server.blocks b.id = some it ∧ it.revision = b.revision ∧
    t.post.host.server.blocks b.id = some (it.assign b).addRevision

/-- The reply read in step `i` is the one that the server produced for the request which
    this very call sent; a write that returned `0` was accepted by the server. -/
def OwnReply (tr : Trace ι) (i : Nat) (c : ι) (p : Pending) (tag : Nat) (reply : Node)
    (code : Option Int) : Prop :=
  tag = p.tag ∧
    ∃ k j sending serving, k < j ∧ j < i ∧
      tr[k]? = some sending ∧ sending.event = .sent c p ∧
      tr[j]? = some serving ∧ serving.event = .critical c p.tag p.req (some reply) ∧
      (p.call.type = .write → code = some 0 → WriteAccepted serving p.req)

/-- Every reply client `c` reads in the run is the reply to the call that reads it. -/
def OwnReplies (tr : Trace ι) (c : ι) : Prop :=
  ∀ (i : Nat) (t : Entry (System ι) (Event ι)) (p : Pending) (tag : Nat) (reply : Node)
    (code : Option Int), tr[i]? = some t → t.event = .received c p tag reply code →
      OwnReply tr i c p tag reply code

/-- No call of client `c` reads a reply after an earlier one timed out. -/
def NoReadAfterTimeout (tr : Trace ι) (c : ι) : Prop :=
  ∀ (i j : Nat) (t t' : Entry (System ι) (Event ι)) (p p' : Pending) (tag : Nat)
    (reply : Node) (code : Option Int), tr[i]? = some t →
      t.event = .received c p tag reply code → tr[j]? = some t' → j < i →
      t'.event ≠ .timedOut c p'

/-- A write whose own reply was no NACK was accepted. -/
theorem writeAccepted_of_exchange {D : Deployment ι} {tr : Trace ι} {s : System ι}
    (hrun : SysRun D tr s) {c : ι} {p : Pending} {reply : Node} {client : Client} {k j : Nat}
    {sending serving : Entry (System ι) (Event ι)}
    (hex : Exchange tr c p reply client k j sending serving) (hw : p.call.type = .write)
    (hack : (Message.ofNode reply).type ≠ .nack) : WriteAccepted serving p.req := by
  have hpre := hrun.take hex.servedAt
  obtain ⟨e, -, hreq, -, -⟩ := pending_requests hpre hex.pending
  have hs := hrun.step_of_mem (List.mem_of_getElem? hex.servedAt)
  rw [hex.served, hreq, hw] at hs
  obtain ⟨sec, hserved, hpost, hans⟩ := critical_emitted (sys_settled hpre) rfl hs
  have ho := outcome_of_answer hans
  rw [hreq, hw]
  cases hserved with
  | unhosted ht hb => rcases ht with ht | ht | ht <;> exact nomatch ht
  | writeUnhosted hb =>
      obtain rfl := Outcome.send.inj ho
      exact absurd (Message.type_emit .nack) hack
  | writeRefused hit hne =>
      obtain rfl := Outcome.send.inj ho
      exact absurd (Message.type_emit .nack) hack
  | @accepted it hit heq =>
      refine ⟨_, _, it, Message.deref_emitBlock .write _ _, hit, heq, ?_⟩
      rw [hpost]
      exact Server.setBlock_same ..

/-- **Exactly when every call consumes its own reply**: when no reply is read on the
    connection after a timeout. -/
theorem ownReplies_iff {D : Deployment ι} {tr : Trace ι} {s : System ι}
    (hrun : SysRun D tr s) (c : ι) : OwnReplies tr c ↔ NoReadAfterTimeout tr c := by
  have hnumber : ∀ i t p tag reply code, tr[i]? = some t →
      t.event = .received c p tag reply code → p.tag = tag + timeouts c (tr.take i) := by
    intro i t p tag reply code hi hev
    have hs := hrun.step_of_mem (List.mem_of_getElem? hi)
    rw [hev] at hs
    exact number_read (hrun.take hi) hs
  constructor
  -- after a timeout the reply read is an older one
  · intro hown i j t t' p p' tag reply code hi hev hj hji htime
    have hpos : 0 < timeouts c (tr.take i) := by
      refine timeouts_pos_iff.mpr ⟨j, t', p', ?_, htime⟩
      rw [List.getElem?_take_of_lt hji]
      exact hj
    have htag := (hown i t p tag reply code hi hev).1
    have := hnumber i t p tag reply code hi hev
    omega
  · intro hno i t p tag reply code hi hev
    have hzero : timeouts c (tr.take i) = 0 := by
      refine Nat.eq_zero_of_not_pos fun hpos => ?_
      obtain ⟨j, t', p', hj, htime⟩ := timeouts_pos_iff.mp hpos
      have hji : j < i := by
        obtain ⟨hlt, -⟩ := List.getElem?_eq_some_iff.mp hj
        rw [List.length_take] at hlt
        omega
      rw [List.getElem?_take_of_lt hji] at hj
      exact hno i j t t' p p' tag reply code hi hev hj hji htime
    have htag : tag = p.tag := by
      have := hnumber i t p tag reply code hi hev
      omega
    have hs := hrun.step_of_mem (List.mem_of_getElem? hi)
    rw [hev] at hs
    obtain ⟨hp, rest, hrep⟩ := received_head hs
    obtain ⟨k, j, sending, serving, hji, hex⟩ :=
      exchange_at hrun hi hp (by rw [hrep, ← htag]; exact List.mem_cons_self)
    refine ⟨htag, k, j, sending, serving, hex.before, hji, hex.sentAt, hex.sent,
      hex.servedAt, hex.served, ?_⟩
    intro hw hcode
    -- a NACK would have made it return -5
    refine writeAccepted_of_exchange hrun hex hw ?_
    intro hnack
    rw [hcode] at hs
    obtain ⟨hp', rest', client, hrep', hrecv, -⟩ := received_inv hs
    obtain ⟨e, he, -⟩ := pending_requests (hrun.take hi) hp'
    rw [Client.receive_nack he hnack] at hrecv
    exact absurd (Prod.mk.inj (Except.ok.inj hrecv)).1 (by decide)

/-- Client `false` waits for block 7 and gives up, client `true` writes the block, and the
    late ACK of the wait is what the first client's next write reads. -/
def lateAck : List (Action Bool) :=
  [.call false (.map 7 (Data.memset 0)), .serve false, .receive false,
   .call true (.map 7 (Data.memset 1)), .serve true, .receive true,
   .call false (.wait 7), .serve false, .timeout false,
   .call true (.write 7), .serve true, .receive true,
   .serve false, .call false (.write 7), .receive false, .serve false]

/-- The late write's request: revision 0, which the other client's write has outdated. -/
def lateWrite : Pending :=
  ⟨.write 7, 2, emitBlock .write ⟨7, 0, some (Data.memset 0)⟩ false⟩

/-- The write returns `0` on the reply to the wait, and the server refuses it. -/
theorem ownReplies_lateAck :
    ∃ tr s, SysRun twoClients tr s ∧ ¬ OwnReplies tr false ∧
      (∃ t, tr[14]? = some t ∧ t.event = .received false lateWrite 1 (emit .ack) (some 0)) ∧
      ∃ t, tr[15]? = some t ∧
        t.event = .critical false 2 lateWrite.req (some (emit .nack)) := by
  have h14 : ((exec (next twoClients) twoClients.start lateAck).map
      fun q => q.1.map Entry.event).bind (·[14]?) =
      some (.received false lateWrite 1 (emit .ack) (some 0)) := by
    decide +kernel
  have h15 : ((exec (next twoClients) twoClients.start lateAck).map
      fun q => q.1.map Entry.event).bind (·[15]?) =
      some (.critical false 2 lateWrite.req (some (emit .nack))) := by
    decide +kernel
  obtain ⟨evs, hevs, h14⟩ := Option.bind_eq_some_iff.mp h14
  rw [hevs] at h15
  obtain ⟨tr, s, hrun, hmap⟩ := run_of_events _ (DmSystem.next_sound _) lateAck _ hevs
  obtain ⟨t, ht, hev⟩ := event_of_map hmap h14
  refine ⟨tr, s, hrun, ?_, ⟨t, ht, hev⟩, event_of_map hmap h15⟩
  intro hown
  exact absurd (hown 14 t lateWrite 1 (emit .ack) (some 0) ht hev).1 (by decide)

/-- In the same run the other client, whose calls never time out, reads its own replies. -/
theorem ownReplies_iff_lateAck :
    ∃ tr s, SysRun twoClients tr s ∧ tr.length = 16 ∧ OwnReplies tr true := by
  obtain ⟨q, hq, hall⟩ := Option.map_eq_some_iff.mp (show
    (exec (next twoClients) twoClients.start lateAck).map
      (fun q => (q.1.length, q.1.all fun t => !timesOut true t)) = some (16, true) by
    decide +kernel)
  obtain ⟨hlen, hnone⟩ := Prod.mk.inj hall
  have hrun := run_of_exec _ (DmSystem.next_sound _) lateAck _ hq
  refine ⟨q.1, q.2, hrun, hlen, (ownReplies_iff hrun true).mpr ?_⟩
  intro i j t t' p p' tag reply code hi hev hj hji htime
  have hcount := List.all_eq_true.mp hnone t' (List.mem_of_getElem? hj)
  simp [timesOut, htime] at hcount

end DmPairing
