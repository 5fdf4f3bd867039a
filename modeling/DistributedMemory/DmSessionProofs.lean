import DistributedMemory.RunProofs
import DistributedMemory.DmFramingProofs
import DistributedMemory.DmLoginProofs

/-!
# The session — what an attacker can make of recorded frames

After the handshake both ends write frames under one key. A frame is the encryption of a
string and nothing else: no number, no direction, no checksum, and the same under the same
key for M3, which has the same form. Who does not know the key can still drop a frame,
deliver it later or twice, out of order, or to the end it came from, or one that was
recorded on another session.

* **`Step`** — both ends, and a network that delivers recorded frames as it likes.
* **`run_consistent`** — an end accepts the contents of the frames it is given, one by one.
* **`session_integrity`** — so of the session's frames it accepts only what was sent, all of
  it in any order there is, and in the order of the sender if the network keeps that.
-/

namespace DmSession

open ByteStreams DmSocket DmFraming DmLogin LabelledRun

/-! ## Two ends and an attacker -/

/-- The two ends. -/
inductive Peer where
  | client
  | server
  deriving DecidableEq

/-- The other end. -/
def Peer.other : Peer → Peer
  | .client => .server
  | .server => .client

/-- What a completed handshake leaves: the cipher, the session key that both ends have, and
    `nonce_a`, which M3 carried under the key; and the ciphertexts that were recorded on
    other sessions. -/
structure Channel where
  evp : Evp
  key : Bytes
  nonceA : Bytes
  foreign : List Bytes
  inverts : evp.Inverts key
  length_key : key.length = maxKeyLength
  length_nonceA : nonceA.length = maxKeyLength

/-- The content of M3. -/
def Channel.m3 (K : Channel) : Bytes := K.key ++ K.nonceA

/-- What each end has written, was given to read, and has accepted, and whether it still
    uses the connection. -/
structure Session where
  sent : Peer → List Bytes
  given : Peer → List Bytes
  accepted : Peer → List Bytes
  live : Peer → Bool

/-- The handshake is over and M3 was read. -/
def Session.start : Session := ⟨fun _ => [], fun _ => [], fun _ => [], fun _ => true⟩

/-- Who goes on after a frame that is refused: a client catches a `runtime_error` in its
    call, the handler of a server ends with it. -/
def goesOn : Peer → Thrown → Bool
  | .client, .runtimeError _ => true
  | _, _ => false

/-- What a step shows. -/
inductive Event where
  | sent (p : Peer) (x : Bytes)
  | accepted (p : Peer) (wire x : Bytes)
  | refused (p : Peer) (wire : Bytes) (t : Thrown)
  deriving DecidableEq

/-- The history of a run. -/
abbrev Exchange := List (Entry Session Event)

/-- One more at end `p`. -/
def push (f : Peer → List Bytes) (p : Peer) (x : Bytes) : Peer → List Bytes :=
  Function.update f p (f p ++ [x])

@[simp] theorem push_self (f : Peer → List Bytes) (p : Peer) (x : Bytes) :
    push f p x p = f p ++ [x] := by
  simp [push]

theorem push_other (f : Peer → List Bytes) {p q : Peer} (x : Bytes) (h : q ≠ p) :
    push f p x q = f q := by
  simp [push, h]

/-- The frame is one of the session: M3's, or one that either end wrote. -/
def Own (K : Channel) (s : Session) (wire : Bytes) : Prop :=
  wire = frame K.evp K.key K.m3 ∨ ∃ p, ∃ x ∈ s.sent p, send K.evp K.key x = .ok wire

/-- The frame is one of another session. -/
def Foreign (K : Channel) (wire : Bytes) : Prop :=
  ∃ c ∈ K.foreign, wire = leBytes 4 c.length ++ c

/-- The frame was on the wire. -/
def Recorded (K : Channel) (s : Session) (wire : Bytes) : Prop := Own K s wire ∨ Foreign K wire

/-- One step: an end writes a string with `<<`, or reads with `>>` what the attacker puts in
    front of it. -/
inductive Step (K : Channel) : Session → Event → Session → Prop where
  | sent {s : Session} {p : Peer} {x wire : Bytes} (hlive : s.live p = true)
      (hsend : send K.evp K.key x = .ok wire) :
      Step K s (.sent p x) { s with sent := push s.sent p x }
  | accepted {s : Session} {p : Peer} {wire x : Bytes} (hlive : s.live p = true)
      (hwire : Recorded K s wire) (hread : (receive K.evp K.key (whole wire)).1 = .ok x) :
      Step K s (.accepted p wire x)
        { s with given := push s.given p wire, accepted := push s.accepted p x }
  | refused {s : Session} {p : Peer} {wire : Bytes} {t : Thrown} (hlive : s.live p = true)
      (hwire : Recorded K s wire) (hread : (receive K.evp K.key (whole wire)).1 = .error t) :
      Step K s (.refused p wire t)
        { s with
          given := push s.given p wire
          live := Function.update s.live p (goesOn p t) }

/-! ## Frame by frame -/

/-- What an end accepts of a frame. -/
def content (K : Channel) (wire : Bytes) : Option Bytes :=
  match (receive K.evp K.key (whole wire)).1 with
  | .ok x => some x
  | .error _ => none

theorem receive_of_content {K : Channel} {wire x : Bytes} (h : content K wire = some x) :
    (receive K.evp K.key (whole wire)).1 = .ok x := by
  rw [content] at h
  split at h
  · rename_i y hread
    rw [hread, Option.some.inj h]
  · exact nomatch h

/-- A string that can be accepted. -/
def Acceptable (x : Bytes) : Prop := x ≠ [] ∧ x.length < 0x7fffffe0

instance (x : Bytes) : Decidable (Acceptable x) := inferInstanceAs (Decidable (_ ∧ _))

/-- **What is accepted of a frame is what it was made of**, whatever frame it is. -/
theorem content_frame (K : Channel) {data : Bytes} (hfits : Fits data.length) :
    content K (frame K.evp K.key data) = if Acceptable data then some data else none := by
  have hwire : (frame K.evp K.key data).length = 4 + DmHandshake.cipherSize data.length := by
    rw [frame, List.length_append, length_leBytes, K.inverts.length_encrypt]
  have hpending : (whole (frame K.evp K.key data)).pending = frame K.evp K.key data ++ [] :=
    (List.append_nil _).symm
  have hheader : 4 ≤ (frame K.evp K.key data).length := by omega
  have hbody : DmHandshake.cipherSize data.length ≤ (frame K.evp K.key data).length := by omega
  rw [content]
  by_cases hdata : data = []
  · subst hdata
    rw [receive_empty K.inverts hpending rfl hheader rfl hbody, if_neg (fun h => h.1 rfl)]
  · by_cases hlen : data.length < 0x7fffffe0
    · rw [receive_frame K.inverts hdata hlen hpending rfl hheader rfl hbody,
        if_pos ⟨hdata, hlen⟩]
    · rw [receive_tooLarge K.inverts hfits (by omega) hpending rfl hheader rfl hbody,
        if_neg (fun h => hlen h.2)]

theorem acceptable_m3 (K : Channel) : Acceptable K.m3 := by
  have hlen : K.m3.length = 128 := by
    rw [Channel.m3, List.length_append, K.length_key, K.length_nonceA]
    rfl
  refine ⟨fun h => ?_, by omega⟩
  rw [h] at hlen
  exact nomatch hlen

/-- What a string is on the wire. -/
def wireOf (K : Channel) (x : Bytes) : Bytes := frame K.evp K.key (transmitted x)

/-- What was written was the frame, and it had a buffer. -/
theorem wireOf_of_send {K : Channel} {x wire : Bytes} (h : send K.evp K.key x = .ok wire) :
    wire = wireOf K x ∧ Fits (transmitted x).length := by
  rw [send_eq] at h
  by_cases hfits : Fits (toInt x.length)
  · rw [if_pos hfits] at h
    exact ⟨(Except.ok.inj h).symm, fits_transmitted hfits⟩
  · rw [if_neg hfits] at h
    exact nomatch h

/-! ## Every run -/

/-- The frames an end was given were on the wire, and it has accepted what they contain. -/
structure Consistent (K : Channel) (s : Session) : Prop where
  written : ∀ p, ∀ x ∈ s.sent p, ∃ wire, send K.evp K.key x = .ok wire
  given : ∀ p, ∀ wire ∈ s.given p, Recorded K s wire
  accepted : ∀ p, s.accepted p = (s.given p).filterMap (content K)

/-- What was recorded stays recorded. -/
theorem Recorded.mono {K : Channel} {s s' : Session} {wire : Bytes} (h : Recorded K s wire)
    (hsub : ∀ p, s.sent p ⊆ s'.sent p) : Recorded K s' wire := by
  rcases h with (hm3 | ⟨p, x, hx, hsend⟩) | hforeign
  · exact Or.inl (Or.inl hm3)
  · exact Or.inl (Or.inr ⟨p, x, hsub p hx, hsend⟩)
  · exact Or.inr hforeign

/-- One more element, of the list it was added to or of another. -/
theorem mem_push {f : Peer → List Bytes} {p q : Peer} {x y : Bytes} (h : y ∈ push f p x q) :
    y ∈ f q ∨ (q = p ∧ y = x) := by
  by_cases hq : q = p
  · subst hq
    rw [push_self] at h
    rcases List.mem_append.mp h with hold | hnew
    · exact Or.inl hold
    · exact Or.inr ⟨rfl, List.mem_singleton.mp hnew⟩
  · rw [push_other _ _ hq] at h
    exact Or.inl h

/-- **One step**: a frame that is given adds what it contains. -/
theorem step_consistent {K : Channel} {s s' : Session} {e : Event} (hc : Consistent K s)
    (hs : Step K s e s') : Consistent K s' := by
  -- a frame given to one end, and what it accepts of it
  have hgive : ∀ (p : Peer) (wire : Bytes) (accepted : Peer → List Bytes) (live : Peer → Bool),
      Recorded K s wire → (∀ q, accepted q = (push s.given p wire q).filterMap (content K)) →
      Consistent K ⟨s.sent, push s.given p wire, accepted, live⟩ := by
    intro p wire accepted live hwire haccepted
    refine ⟨hc.written, fun q w hw => ?_, haccepted⟩
    rcases mem_push hw with hold | ⟨-, rfl⟩
    · exact (hc.given q w hold).mono fun _ => List.Subset.refl _
    · exact hwire.mono fun _ => List.Subset.refl _
  cases hs with
  | @sent p x wire hlive hsend =>
      refine ⟨fun q y hy => ?_, fun q w hw => ?_, hc.accepted⟩
      · rcases mem_push hy with hold | ⟨-, rfl⟩
        · exact hc.written q y hold
        · exact ⟨wire, hsend⟩
      · refine (hc.given q w hw).mono fun q => ?_
        by_cases hq : q = p
        · subst hq
          show s.sent q ⊆ push s.sent q x q
          rw [push_self]
          exact List.subset_append_left _ _
        · show s.sent q ⊆ push s.sent p x q
          rw [push_other _ _ hq]
          exact List.Subset.refl _
  | @accepted p wire x hlive hwire hread =>
      refine hgive p wire _ _ hwire fun q => ?_
      have hcontent : content K wire = some x := by rw [content, hread]
      by_cases hq : q = p
      · subst hq
        rw [push_self, push_self, List.filterMap_append, ← hc.accepted q]
        simp [hcontent]
      · rw [push_other _ _ hq, push_other _ _ hq]
        exact hc.accepted q
  | @refused p wire t hlive hwire hread =>
      refine hgive p wire _ _ hwire fun q => ?_
      have hcontent : content K wire = none := by rw [content, hread]
      by_cases hq : q = p
      · subst hq
        rw [push_self, List.filterMap_append, ← hc.accepted q]
        simp [hcontent]
      · rw [push_other _ _ hq]
        exact hc.accepted q

/-- **An end accepts the contents of the frames it is given**, in every run. -/
theorem run_consistent {K : Channel} {tr : Exchange} {s : Session}
    (hrun : Run (Step K) Session.start tr s) : Consistent K s := by
  refine hrun.invariant ?_ fun s e s' hc hs => step_consistent hc hs
  constructor
  · intro p x hx
    exact nomatch hx
  · intro p wire hwire
    exact nomatch hwire
  · intro p
    rfl

/-- The string was sent on the session, by either end, or is what M3 contains. -/
def Said (K : Channel) (s : Session) (x : Bytes) : Prop :=
  x = K.m3 ∨ ∃ p, ∃ y ∈ s.sent p, x = transmitted y

/-- A frame of the session is that of something said. -/
theorem said_of_own {K : Channel} {s : Session} {wire : Bytes} (h : Own K s wire) :
    ∃ x, Said K s x ∧ Fits x.length ∧ wire = frame K.evp K.key x := by
  rcases h with rfl | ⟨p, y, hy, hsend⟩
  · have hlen := (acceptable_m3 K).2
    refine ⟨K.m3, Or.inl rfl, ⟨by omega, ?_⟩, rfl⟩
    rw [blockSize]
    omega
  · obtain ⟨hwire, hfits⟩ := wireOf_of_send hsend
    exact ⟨transmitted y, Or.inr ⟨p, y, hy, rfl⟩, hfits, hwire⟩

/-- Everything said has a frame. -/
theorem own_of_said {K : Channel} {s : Session} (hc : Consistent K s) {x : Bytes}
    (h : Said K s x) : ∃ wire, Own K s wire ∧ wire = frame K.evp K.key x := by
  rcases h with rfl | ⟨p, y, hy, rfl⟩
  · exact ⟨_, Or.inl rfl, rfl⟩
  · obtain ⟨wire, hsend⟩ := hc.written p y hy
    exact ⟨wire, Or.inr ⟨p, y, hy, hsend⟩, (wireOf_of_send hsend).1⟩

/-- **Whatever was said can be made to be accepted**, in any order and any number of
    times. -/
theorem replay {K : Channel} {s : Session} (hc : Consistent K s) {p : Peer}
    (hlive : s.live p = true) {xs : List Bytes} (hxs : ∀ x ∈ xs, Said K s x ∧ Acceptable x) :
    ∃ tr s', Run (Step K) s tr s' ∧ s'.sent = s.sent ∧ s'.live = s.live ∧
      s'.accepted = Function.update s.accepted p (s.accepted p ++ xs) := by
  induction xs using List.reverseRecOn with
  | nil => exact ⟨[], s, Run.nil, rfl, rfl, by rw [List.append_nil, Function.update_eq_self]⟩
  | append_singleton xs x ih =>
      obtain ⟨tr, s', hrun, hsent, hlive', haccepted⟩ :=
        ih fun y hy => hxs y (List.mem_append_left _ hy)
      obtain ⟨hsaid, hok⟩ := hxs x (List.mem_append_right _ (List.mem_singleton_self x))
      have hc' : Consistent K s' := hrun.invariant hc fun _ _ _ hi hs => step_consistent hi hs
      have hsaid' : Said K s' x := by
        rw [Said, hsent]
        exact hsaid
      obtain ⟨wire, hwire, rfl⟩ := own_of_said hc' hsaid'
      have hfits : Fits x.length := by
        have hlen := hok.2
        rw [Fits, blockSize]
        omega
      have hread := receive_of_content (by rw [content_frame K hfits, if_pos hok])
      have hstep : Step K s' (.accepted p (frame K.evp K.key x) x) _ :=
        Step.accepted (by rw [hlive', hlive]) (Or.inl hwire) hread
      refine ⟨_, _, hrun.snoc hstep, hsent, hlive', ?_⟩
      show push s'.accepted p x = _
      rw [push, haccepted, Function.update_self, Function.update_idem, List.append_assoc]

/-- What the attacker can do to a session, and what it cannot. -/
structure Integrity (K : Channel) (s : Session) : Prop where
  /-- Nothing is accepted of the session's frames that was not sent on the session. -/
  genuine : ∀ p, ∀ x ∈ s.accepted p,
    Said K s x ∨ ∃ wire ∈ s.given p, Foreign K wire ∧ content K wire = some x
  /-- Whatever was, can be, at either end. -/
  replayed : ∀ p xs, s.live p = true → (∀ x ∈ xs, Said K s x ∧ Acceptable x) →
    ∃ tr s', Run (Step K) s tr s' ∧ s'.sent = s.sent ∧ s'.accepted p = s.accepted p ++ xs
  /-- If the frames of a direction are lost at most, so are the strings. -/
  ordered : ∀ p, (s.given p).Sublist ((s.sent p.other).map (wireOf K)) →
    (s.accepted p).Sublist ((s.sent p.other).map transmitted)
  /-- If only the last ones are missing, so are the last strings. -/
  unbroken : ∀ p, s.given p <+: (s.sent p.other).map (wireOf K) →
    (∀ x ∈ s.sent p.other, Acceptable x) → s.accepted p <+: s.sent p.other

/-- What a frame that was written contains. -/
theorem content_wireOf {K : Channel} {s : Session} (hc : Consistent K s) {p : Peer} {x : Bytes}
    (hx : x ∈ s.sent p) : content K (wireOf K x) =
      if Acceptable (transmitted x) then some (transmitted x) else none := by
  obtain ⟨wire, hsend⟩ := hc.written p x hx
  exact content_frame K (wireOf_of_send hsend).2

/-- A filter that changes what it keeps as `g` does. -/
theorem filterMap_sublist_map {α β : Type} {f : α → Option β} {g : α → β} {l : List α}
    (h : ∀ x ∈ l, f x = some (g x) ∨ f x = none) : (l.filterMap f).Sublist (l.map g) := by
  induction l with
  | nil => exact List.Sublist.refl _
  | cons x l ih =>
      have hrest := ih fun y hy => h y (List.mem_cons_of_mem _ hy)
      rcases h x List.mem_cons_self with hx | hx
      · rw [List.filterMap_cons_some hx, List.map_cons]
        exact hrest.cons_cons _
      · rw [List.filterMap_cons_none hx, List.map_cons]
        exact hrest.cons _

/-- The contents of an end's frames are the strings it sent, without those that cannot be
    accepted. -/
theorem contents_sublist {K : Channel} {s : Session} (hc : Consistent K s) (p : Peer) :
    (((s.sent p).map (wireOf K)).filterMap (content K)).Sublist
      ((s.sent p).map transmitted) := by
  rw [List.filterMap_map]
  refine filterMap_sublist_map fun x hx => ?_
  rw [Function.comp_apply, content_wireOf hc hx]
  split
  · exact Or.inl rfl
  · exact Or.inr rfl

theorem contents_eq {K : Channel} {s : Session} (hc : Consistent K s) (p : Peer)
    (hok : ∀ x ∈ s.sent p, Acceptable x) :
    ((s.sent p).map (wireOf K)).filterMap (content K) = s.sent p := by
  rw [List.filterMap_map]
  have hsome : ∀ x ∈ s.sent p, (content K ∘ wireOf K) x = some x := by
    intro x hx
    have heq : transmitted x = x := transmitted_eq (by have := (hok x hx).2; omega)
    rw [Function.comp_apply, content_wireOf hc hx, heq, if_pos (hok x hx)]
  rw [List.filterMap_congr hsome, List.filterMap_some]

/-- **The integrity of a session**: every message that either end accepts of its frames was
    sent on it. What an end makes of the frames of other sessions is another question. -/
theorem session_integrity {K : Channel} {tr : Exchange} {s : Session}
    (hrun : Run (Step K) Session.start tr s) : Integrity K s := by
  have hc := run_consistent hrun
  constructor
  · intro p x hx
    rw [hc.accepted p] at hx
    obtain ⟨wire, hwire, hcontent⟩ := List.mem_filterMap.mp hx
    rcases hc.given p wire hwire with hown | hforeign
    · obtain ⟨y, hy, hfits, rfl⟩ := said_of_own hown
      rw [content_frame K hfits] at hcontent
      split at hcontent
      · exact Or.inl (Option.some.inj hcontent ▸ hy)
      · exact nomatch hcontent
    · exact Or.inr ⟨wire, hwire, hforeign, hcontent⟩
  · intro p xs hlive hxs
    obtain ⟨tr', s', hrun', hsent, -, haccepted⟩ := replay hc hlive hxs
    exact ⟨tr', s', hrun', hsent, by rw [haccepted, Function.update_self]⟩
  · intro p hsub
    rw [hc.accepted p]
    exact (hsub.filterMap _).trans (contents_sublist hc p.other)
  · intro p hbegins hok
    rw [hc.accepted p, ← contents_eq hc p.other hok]
    exact hbegins.filterMap _

/-! ## After a login, and under attack -/

/-- **What a completed handshake leaves**: one key at both ends, and a frame that carries
    the key and `nonce_a`. -/
def Channel.ofLogin {S : OpenSsl} (hS : S.Sound) (r : Randoms) (pass : Bytes)
    (foreign : List Bytes) : Channel where
  evp := S.evp
  key := sessionKey S r pass
  nonceA := r.nonceA
  foreign := foreign
  inverts := hS.cipher _
  length_key := length_sessionKey hS r pass
  length_nonceA := r.length_nonceA

/-- The first frame under the key of a login is that of M3. -/
theorem login_channel {S : OpenSsl} (hS : S.Sound) (r : Randoms) {pass : Bytes}
    (hlen : pass.length + 203 ≤ S.rsaSize) (foreign : List Bytes) :
    let K := Channel.ofLogin hS r pass foreign
    login S r pass pass = ⟨.ok (some K.key), .ok (some K.key)⟩ ∧
      ∃ message, openClientM2 S r pass r.nonceB = .ok (some message) ∧
        serverEnd S r pass message = .ok (some (K.key, frame K.evp K.key K.m3)) := by
  obtain ⟨message, hM2, hserver, hboth⟩ := login_same hS r hlen
  exact ⟨hboth, message, hM2, hserver⟩

/-- A session under the key of which the cipher is known for an ACK. -/
def ackChannel : Channel where
  evp := ackCipher
  key := countingKey
  nonceA := zeroRandoms.nonceA
  foreign := []
  inverts := ackCipher_inverts countingKey
  length_key := rfl
  length_nonceA := zeroRandoms.length_nonceA

/-- The server sends one ACK, and the client accepts it `n` times. -/
theorem run_replayed (n : Nat) : ∃ tr s, Run (Step ackChannel) Session.start tr s ∧
    s.sent .server = [ackString] ∧ s.accepted .client = List.replicate n ackString := by
  have hsent : Step ackChannel Session.start (.sent .server ackString) _ :=
    Step.sent rfl (send_of_lt _ _ (by decide))
  have hrun := Run.nil.snoc hsent
  have hsaid : ∀ x ∈ List.replicate n ackString,
      Said ackChannel { Session.start with sent := push Session.start.sent .server ackString } x ∧
        Acceptable x := by
    intro x hx
    rw [List.eq_of_mem_replicate hx]
    refine ⟨Or.inr ⟨.server, ackString, ?_, (transmitted_eq (by decide)).symm⟩, by decide⟩
    show ackString ∈ push Session.start.sent .server ackString .server
    rw [push_self]
    exact List.mem_append_right _ (List.mem_singleton_self _)
  obtain ⟨tr, s, hthen, hsent', -, haccepted⟩ :=
    replay (p := .client) (run_consistent hrun) rfl hsaid
  refine ⟨_, s, hrun.append hthen, ?_, ?_⟩
  · rw [hsent']
    rfl
  · rw [haccepted, Function.update_self]
    rfl

/-- What the client says in the session under attack. -/
def waitString : Bytes := [87, 65, 73, 84]

/-- Either end says one thing; the client accepts the server's twice and its own, the server
    the client's and its own. -/
theorem run_reflected : ∃ tr s, Run (Step ackChannel) Session.start tr s ∧
    s.sent .server = [ackString] ∧ s.sent .client = [waitString] ∧
    s.accepted .client = [ackString, ackString, waitString] ∧
    s.accepted .server = [waitString, ackString] := by
  have hserver : Step ackChannel Session.start (.sent .server ackString) _ :=
    Step.sent rfl (send_of_lt _ _ (by decide))
  have hclient : Step ackChannel { Session.start with
      sent := push Session.start.sent .server ackString } (.sent .client waitString) _ :=
    Step.sent rfl (send_of_lt _ _ (by decide))
  have hrun := (Run.nil.snoc hserver).snoc hclient
  have hack : ∀ s : Session, s.sent .server = [ackString] → Said ackChannel s ackString ∧
      Acceptable ackString := fun s hs =>
    ⟨Or.inr ⟨.server, ackString, by rw [hs]; exact List.mem_cons_self,
      (transmitted_eq (by decide)).symm⟩, by decide⟩
  have hwait : ∀ s : Session, s.sent .client = [waitString] → Said ackChannel s waitString ∧
      Acceptable waitString := fun s hs =>
    ⟨Or.inr ⟨.client, waitString, by rw [hs]; exact List.mem_cons_self,
      (transmitted_eq (by decide)).symm⟩, by decide⟩
  have hboth : ∀ s : Session, s.sent .server = [ackString] → s.sent .client = [waitString] →
      ∀ x ∈ [ackString, ackString, waitString], Said ackChannel s x ∧ Acceptable x := by
    intro s hs hc x hx
    rcases List.mem_cons.mp hx with rfl | hx
    · exact hack s hs
    · rcases List.mem_pair.mp hx with rfl | rfl
      · exact hack s hs
      · exact hwait s hc
  obtain ⟨tr₁, s₁, hrun₁, hsent₁, hlive₁, haccepted₁⟩ :=
    replay (p := .client) (run_consistent hrun) rfl (hboth _ rfl rfl)
  obtain ⟨tr₂, s₂, hrun₂, hsent₂, -, haccepted₂⟩ :=
    replay (p := .server) (run_consistent (hrun.append hrun₁)) (by rw [hlive₁]; rfl)
      fun x hx => by
        refine hboth s₁ (by rw [hsent₁]; rfl) (by rw [hsent₁]; rfl) x ?_
        rcases List.mem_pair.mp hx with rfl | rfl
        · exact List.mem_cons_of_mem _ (List.mem_cons_of_mem _ List.mem_cons_self)
        · exact List.mem_cons_self
  refine ⟨_, s₂, (hrun.append hrun₁).append hrun₂, ?_, ?_, ?_, ?_⟩
  · rw [hsent₂, hsent₁]
    rfl
  · rw [hsent₂, hsent₁]
    rfl
  · rw [haccepted₂, haccepted₁]
    rfl
  · rw [haccepted₂, haccepted₁]
    rfl

theorem session_integrity_reflected :
    ∃ tr s, Run (Step ackChannel) Session.start tr s ∧ s.sent .server = [ackString] ∧
      s.accepted .client = [ackString, ackString, waitString] ∧
      s.accepted .server = [waitString, ackString] ∧ Integrity ackChannel s := by
  obtain ⟨tr, s, hrun, hsent, -, hclient, hserver⟩ := run_reflected
  exact ⟨tr, s, hrun, hsent, hclient, hserver, session_integrity hrun⟩

/-- **One ACK is accepted twice.** -/
theorem session_integrity_replayed :
    ¬ ∀ tr s, Run (Step ackChannel) Session.start tr s →
      s.accepted .server <+: s.sent .client ∧ s.accepted .client <+: s.sent .server := by
  intro h
  obtain ⟨tr, s, hrun, hsent, haccepted⟩ := run_replayed 2
  have hlen := (h tr s hrun).2.length_le
  rw [hsent, haccepted, List.length_replicate] at hlen
  exact absurd hlen (by decide)

end DmSession
