import DistributedMemory.LeaseProofs
import DistributedMemory.DmLoginProofs
import DistributedMemory.RunProofs

/-!
# The listener — `Server::start`, its sockets and its threads

The main thread of a server opens its listening socket and then, over and over, accepts one
connection, goes through the handshake with it, and leaves it to a thread of its own or
deletes its socket. Threads come to their end at any time in between. A socket closes its
descriptor when it is deleted, and the system hands out any descriptor that is not open, one
that was just closed among them.

* **`openListening`** — `Server::start` up to its loop: it opens the listening socket, or the
  language leaves open what the process does.
* **`Step`** — the main thread and the ends of the others.
* **`descriptors_held`** — every open descriptor is that of one socket, however the steps
  interleave; a thread that `pthread_create` did not start is what is lost.
* **`threads_admitted`** — every thread serves the one connection that was in the handshake
  when it started, and has its session key out of an M2 with the passphrase in it.
-/

namespace DmListener

open ByteStreams DmSocket DmLogin Lease LabelledRun

/-! ## `Socket::open_server` -/

/-- What `socket()` comes to at one address, `none` where it is `-1`, and whether `bind()`
    succeeds. -/
structure Attempt where
  descriptor : Option Nat
  bound : Bool

/-- The loop over the addresses: the open descriptors, and `m_sockfd`. -/
def openLoop (opened : Finset Nat) : List Attempt → Finset Nat × Option Nat
  | [] => (opened, none)
  | a :: rest =>
      match a.descriptor with
      | none => openLoop opened rest
      | some fd =>
          if a.bound then (insert fd opened, some fd)
          else openLoop ((insert fd opened).erase fd) rest

/-- What a process does that the language says nothing of. -/
inductive Undefined where
  /-- `open_server` goes through the list that `getaddrinfo` did not set. -/
  | addresses
  /-- `stop` deletes the `listen_socket` that was never set. -/
  | listenSocket
  /-- `accept` compares bytes that M2 did not decrypt to. -/
  | decrypted
  deriving DecidableEq

/-- `open_server`: `addresses` is what `getaddrinfo` finds, `none` where it fails, and
    `listens` whether `listen()` succeeds; `none` where it returns `false`. -/
def openServer (opened : Finset Nat) (addresses : Option (List Attempt)) (listens : Bool) :
    Except Undefined (Finset Nat × Option Nat) :=
  match addresses with
  | none => .error .addresses
  | some attempts =>
      match openLoop opened attempts with
      | (opened', none) => .ok (opened', none)
      | (opened', some fd) =>
          if listens then .ok (opened', some fd) else .ok (opened'.erase fd, none)

/-- `SecureSocket::open_server` in the constructor of `SocketServer`, which throws where it
    returns `false`; the descriptor is closed with the object then. -/
def openSecure (S : OpenSsl) (pass : Bytes) (opened : Finset Nat)
    (addresses : Option (List Attempt)) (listens keyLoads : Bool) :
    Except Undefined (Finset Nat × Option Nat) :=
  match openServer opened addresses listens with
  | .error u => .error u
  | .ok (opened', none) => .ok (opened', none)
  | .ok (opened', some fd) =>
      if keyLoads && (DmLogin.openServer S pass).isSome then .ok (opened', some fd)
      else .ok (opened'.erase fd, none)

/-- `Server::start` up to its loop. What the constructor throws is caught, but `stop` is
    called then, and the assignment to `listen_socket` was not made. -/
def openListening (S : OpenSsl) (pass : Bytes) (opened : Finset Nat)
    (addresses : Option (List Attempt)) (listens keyLoads : Bool) :
    Except Undefined (Finset Nat × Nat) :=
  match openSecure S pass opened addresses listens keyLoads with
  | .error u => .error u
  | .ok (_, none) => .error .listenSocket
  | .ok (opened', some fd) => .ok (opened', fd)

/-- `socket()` hands out descriptors that are not open. -/
def Fresh (opened : Finset Nat) (addresses : Option (List Attempt)) : Prop :=
  ∀ attempts, addresses = some attempts → ∀ a ∈ attempts, ∀ fd, a.descriptor = some fd →
    fd ∉ opened

/-- What the loop leaves: one more descriptor, which is `m_sockfd`, or none more. -/
theorem openLoop_opens {opened : Finset Nat} {attempts : List Attempt}
    (h : ∀ a ∈ attempts, ∀ fd, a.descriptor = some fd → fd ∉ opened) :
    openLoop opened attempts = (opened, none) ∨
      ∃ fd, fd ∉ opened ∧ openLoop opened attempts = (insert fd opened, some fd) := by
  induction attempts with
  | nil => exact Or.inl rfl
  | cons a rest ih =>
      have hrest := ih fun b hb => h b (List.mem_cons_of_mem a hb)
      rw [openLoop]
      cases hfd : a.descriptor with
      | none => exact hrest
      | some fd =>
          have hnew := h a List.mem_cons_self fd hfd
          simp only
          cases a.bound with
          | true => exact Or.inr ⟨fd, hnew, rfl⟩
          | false =>
              rw [Finset.erase_insert hnew]
              exact hrest

section Opening

variable {S : OpenSsl} {pass : Bytes} {opened opened' : Finset Nat}
  {addresses : Option (List Attempt)} {listens keyLoads : Bool} {fd : Nat}

theorem openServer_opens (hfresh : Fresh opened addresses)
    (h : openServer opened addresses listens = .ok (opened', some fd)) :
    fd ∉ opened ∧ opened' = insert fd opened := by
  cases addresses with
  | none => cases h
  | some attempts =>
      rcases openLoop_opens (hfresh attempts rfl) with heq | ⟨fd', hnew, heq⟩
      · simp only [openServer, heq] at h
        cases h
      · simp only [openServer, heq] at h
        cases listens with
        | false => cases h
        | true =>
            obtain ⟨rfl, hfd⟩ := Prod.mk.inj (Except.ok.inj h)
            obtain rfl := Option.some.inj hfd
            exact ⟨hnew, rfl⟩

theorem openSecure_opens (hfresh : Fresh opened addresses)
    (h : openSecure S pass opened addresses listens keyLoads = .ok (opened', some fd)) :
    fd ∉ opened ∧ opened' = insert fd opened := by
  rw [openSecure] at h
  split at h
  · cases h
  · cases h
  · rename_i hserver
    split at h
    · obtain ⟨rfl, hfd⟩ := Prod.mk.inj (Except.ok.inj h)
      obtain rfl := Option.some.inj hfd
      exact openServer_opens hfresh hserver
    · cases h

/-- **Opening leaks nothing**: where it succeeds, one descriptor more is open, whatever failed
    on the way. -/
theorem openListening_opens (hfresh : Fresh opened addresses)
    (h : openListening S pass opened addresses listens keyLoads = .ok (opened', fd)) :
    fd ∉ opened ∧ opened' = insert fd opened := by
  rw [openListening] at h
  split at h
  · cases h
  · cases h
  · rename_i hsecure
    obtain ⟨rfl, rfl⟩ := Prod.mk.inj (Except.ok.inj h)
    exact openSecure_opens hfresh hsecure

end Opening

/-! ## `Server::start` -/

/-- How far the main thread is: `listen_socket` is not open yet or is open, or nothing is
    known of the process any more. -/
inductive Phase where
  | starting
  | listening (fd : Nat)
  | undefined
  deriving DecidableEq

/-- The open descriptors of the process, and its sockets: that of the connection in the
    handshake, with what is drawn for it, those of the threads, with their session keys, and
    those that no thread was started for. -/
structure Listener where
  opened : Finset Nat
  phase : Phase
  greeting : Option (Nat × Randoms)
  threads : List (Nat × Bytes)
  lost : List Nat

/-- Nothing but the descriptors the process was started with. -/
def start (standard : Finset Nat) : Listener := ⟨standard, .starting, none, [], []⟩

/-- What a step shows. -/
inductive Event where
  | listened (fd : Nat)
  | undefined (u : Undefined)
  /-- `::accept` returned a descriptor, and the handshake begins. -/
  | accepted (fd : Nat) (r : Randoms)
  | unaccepted
  /-- The handshake came to nothing, and its socket was deleted. -/
  | refused (fd : Nat)
  /-- A thread was started for the connection. -/
  | started (fd : Nat) (key message : Bytes)
  /-- `pthread_create` failed after the handshake. -/
  | lost (fd : Nat)
  /-- A thread came to its end and deleted its socket. -/
  | ended (fd : Nat)

/-- Why `SecureSocket::accept` does not return `true`. -/
inductive Refuses (S : OpenSsl) (pass : Bytes) (fd : Nat) (r : Randoms) : Prop where
  /-- `Socket::accept` takes descriptor 0 for an error. -/
  | descriptor (hzero : fd = 0)
  | unsentM1
  | message (message : Bytes) (h : serverEnd S r pass message = .ok none)
  | unsentM3 (message key wire : Bytes)
      (h : serverEnd S r pass message = .ok (some (key, wire)))

/-- One step of the server process. After undefined behaviour its state can be any. -/
inductive Step (S : OpenSsl) (pass : Bytes) : Listener → Event → Listener → Prop where
  | listened {s : Listener} {opened : Finset Nat} {fd : Nat}
      (addresses : Option (List Attempt)) (listens keyLoads : Bool)
      (hphase : s.phase = .starting) (hfresh : Fresh s.opened addresses)
      (hopen : openListening S pass s.opened addresses listens keyLoads = .ok (opened, fd)) :
      Step S pass s (.listened fd) { s with opened := opened, phase := .listening fd }
  | unopened {s s' : Listener} {u : Undefined} (addresses : Option (List Attempt))
      (listens keyLoads : Bool) (hphase : s.phase = .starting)
      (hfresh : Fresh s.opened addresses)
      (hopen : openListening S pass s.opened addresses listens keyLoads = .error u)
      (hundefined : s'.phase = .undefined) : Step S pass s (.undefined u) s'
  | accepted {s : Listener} {l fd : Nat} (r : Randoms) (hphase : s.phase = .listening l)
      (hfree : s.greeting = none) (hfresh : fd ∉ s.opened) :
      Step S pass s (.accepted fd r)
        { s with opened := insert fd s.opened, greeting := some (fd, r) }
  | unaccepted {s : Listener} {l : Nat} (hphase : s.phase = .listening l)
      (hfree : s.greeting = none) : Step S pass s .unaccepted s
  | refused {s : Listener} {fd : Nat} {r : Randoms} (hgreet : s.greeting = some (fd, r))
      (hwhy : Refuses S pass fd r) :
      Step S pass s (.refused fd) { s with opened := s.opened.erase fd, greeting := none }
  | undecrypted {s s' : Listener} {fd : Nat} {r : Randoms} (message : Bytes)
      (hgreet : s.greeting = some (fd, r)) (hfd : fd ≠ 0)
      (hend : serverEnd S r pass message = .error .decrypted)
      (hundefined : s'.phase = .undefined) : Step S pass s (.undefined .decrypted) s'
  | started {s : Listener} {fd : Nat} {r : Randoms} {message key wire : Bytes}
      (hgreet : s.greeting = some (fd, r)) (hfd : fd ≠ 0)
      (hend : serverEnd S r pass message = .ok (some (key, wire))) :
      Step S pass s (.started fd key message)
        { s with greeting := none, threads := (fd, key) :: s.threads }
  | lost {s : Listener} {fd : Nat} {r : Randoms} {message key wire : Bytes}
      (hgreet : s.greeting = some (fd, r)) (hfd : fd ≠ 0)
      (hend : serverEnd S r pass message = .ok (some (key, wire))) :
      Step S pass s (.lost fd) { s with greeting := none, lost := fd :: s.lost }
  | ended {s : Listener} {fd : Nat} {key : Bytes} {before after : List (Nat × Bytes)}
      (hthreads : s.threads = before ++ (fd, key) :: after) :
      Step S pass s (.ended fd)
        { s with opened := s.opened.erase fd, threads := before ++ after }

/-- The history of the process. -/
abbrev ListenerTrace := List (Entry Listener Event)

/-- The runs of a freshly started server process. -/
abbrev ListenerRun (S : OpenSsl) (pass : Bytes) (standard : Finset Nat) (tr : ListenerTrace)
    (s : Listener) : Prop :=
  Run (Step S pass) (start standard) tr s

/-- The server listens on descriptor 3; a first connection gets a thread on descriptor 4, a
    second one is under way on descriptor 5. -/
theorem secondGuest_run :
    ∃ tr s, ListenerRun paddingOnly secret {0, 1, 2} tr s ∧ tr.length = 4 ∧
      s.phase = .listening 3 ∧ (4, sessionKey paddingOnly zeroRandoms secret) ∈ s.threads := by
  have hlen : secret.length + 203 ≤ paddingOnly.rsaSize := by decide
  obtain ⟨c, -, hsize, hdec⟩ := openClientM2_of_le (r := zeroRandoms) paddingOnly_sound hlen
  have hend := serverEnd_ok paddingOnly_sound hlen hsize hdec
  rw [if_pos rfl] at hend
  have hfresh : Fresh {0, 1, 2} (some [⟨some 3, true⟩]) := by
    intro attempts hattempts a ha fd hfd
    obtain rfl := Option.some.inj hattempts
    obtain rfl := List.mem_singleton.mp ha
    obtain rfl := Option.some.inj hfd
    decide
  have hopen : openListening paddingOnly secret {0, 1, 2} (some [⟨some 3, true⟩]) true true =
      .ok ({3, 0, 1, 2}, 3) := by decide
  have hlistened : Step paddingOnly secret (start {0, 1, 2}) (.listened 3)
      ⟨{3, 0, 1, 2}, .listening 3, none, [], []⟩ := Step.listened _ _ _ rfl hfresh hopen
  have haccepted : Step paddingOnly secret ⟨{3, 0, 1, 2}, .listening 3, none, [], []⟩
      (.accepted 4 zeroRandoms)
      ⟨{4, 3, 0, 1, 2}, .listening 3, some (4, zeroRandoms), [], []⟩ :=
    Step.accepted zeroRandoms rfl rfl (by decide)
  have hstarted : Step paddingOnly secret
      ⟨{4, 3, 0, 1, 2}, .listening 3, some (4, zeroRandoms), [], []⟩
      (.started 4 (sessionKey paddingOnly zeroRandoms secret) c)
      ⟨{4, 3, 0, 1, 2}, .listening 3, none,
        [(4, sessionKey paddingOnly zeroRandoms secret)], []⟩ :=
    Step.started rfl (by decide) hend
  have hsecond : Step paddingOnly secret
      ⟨{4, 3, 0, 1, 2}, .listening 3, none,
        [(4, sessionKey paddingOnly zeroRandoms secret)], []⟩ (.accepted 5 zeroRandoms)
      ⟨{5, 4, 3, 0, 1, 2}, .listening 3, some (5, zeroRandoms),
        [(4, sessionKey paddingOnly zeroRandoms secret)], []⟩ :=
    Step.accepted zeroRandoms rfl rfl (by decide)
  exact ⟨_, _, (((Run.nil.snoc hlistened).snoc haccepted).snoc hstarted).snoc hsecond, rfl, rfl,
    List.mem_cons_self⟩

/-! ## Descriptors -/

def Phase.descriptors : Phase → List Nat
  | .listening fd => [fd]
  | _ => []

/-- The descriptors of the sockets there are. -/
def Listener.sockets (s : Listener) : List Nat :=
  (s.greeting.map Prod.fst).toList ++ s.threads.map Prod.fst ++ s.lost ++ s.phase.descriptors

theorem sublist_sockets (s : Listener) : (s.threads.map Prod.fst).Sublist s.sockets :=
  ((List.sublist_append_right _ _).trans (List.sublist_append_left _ _)).trans
    (List.sublist_append_left _ _)

section Runs

variable {S : OpenSsl} {pass : Bytes} {standard : Finset Nat} {tr : ListenerTrace}
  {s s' : Listener}

/-- The one in the handshake goes to the front. -/
theorem sockets_greeting {fd : Nat} {r : Randoms} (h : s.greeting = some (fd, r)) :
    s.sockets = fd :: { s with greeting := none }.sockets := by
  simp only [Listener.sockets, h, Option.map_some, Option.toList_some, Option.map_none,
    Option.toList_none, List.nil_append, List.cons_append]

/-- What is known of a process was known before. -/
theorem defined_before {e : Event} (hs : Step S pass s e s') (h : s'.phase ≠ .undefined) :
    s.phase ≠ .undefined := by
  cases hs with
  | listened _ _ _ hphase _ _ => exact fun hno => nomatch hphase.symm.trans hno
  | unopened _ _ _ _ _ _ hundefined => exact absurd hundefined h
  | accepted _ hphase _ _ => exact fun hno => nomatch hphase.symm.trans hno
  | unaccepted hphase _ => exact h
  | refused _ _ => exact h
  | undecrypted _ _ _ _ hundefined => exact absurd hundefined h
  | started _ _ _ => exact h
  | lost _ _ _ => exact h
  | ended _ => exact h

/-- **Every step keeps the descriptors and the sockets in line.** -/
theorem step_held {e : Event} (h : Held standard s.opened s.sockets) (hs : Step S pass s e s')
    (hdefined : s'.phase ≠ .undefined) : Held standard s'.opened s'.sockets := by
  cases hs with
  | @listened opened fd addresses listens keyLoads hphase hfresh hopen =>
      obtain ⟨hnew, rfl⟩ := openListening_opens hfresh hopen
      refine (h.gain hnew).perm ?_
      simp only [Listener.sockets, hphase, Phase.descriptors, List.append_nil]
      exact (List.perm_append_singleton _ _).symm
  | unopened _ _ _ _ _ _ hundefined => exact absurd hundefined hdefined
  | @accepted l fd r hphase hfree hfresh =>
      refine (h.gain hfresh).perm ?_
      simp only [Listener.sockets, hfree, Option.map_none, Option.toList_none, Option.map_some,
        Option.toList_some, List.nil_append, List.cons_append]
      exact List.Perm.refl _
  | unaccepted _ _ => exact h
  | @refused fd r hgreet _ =>
      rw [sockets_greeting hgreet] at h
      exact h.drop
  | undecrypted _ _ _ _ hundefined => exact absurd hundefined hdefined
  | @started fd r message key wire hgreet _ _ =>
      rw [sockets_greeting hgreet] at h
      exact h
  | @lost fd r message key wire hgreet _ _ =>
      rw [sockets_greeting hgreet] at h
      refine h.perm ?_
      simp only [Listener.sockets, Option.map_none, Option.toList_none, List.nil_append,
        List.append_assoc, List.cons_append]
      exact List.perm_middle.symm
  | @ended fd key before after hthreads =>
      refine Held.drop (x := fd) (h.perm ?_)
      have hmiddle : ∀ a b c : List Nat, (a ++ (b ++ fd :: c)).Perm (fd :: (a ++ (b ++ c))) := by
        intro a b c
        rw [← List.append_assoc, ← List.append_assoc]
        exact List.perm_middle
      simp only [Listener.sockets, hthreads, List.map_append, List.map_cons, List.append_assoc,
        List.cons_append]
      exact hmiddle _ _ _

/-- The descriptors and the sockets are in line, as long as anything is known of them. -/
def InLine (standard : Finset Nat) (s : Listener) : Prop :=
  s.phase ≠ .undefined → Held standard s.opened s.sockets

theorem start_inLine (standard : Finset Nat) : InLine standard (start standard) :=
  fun _ => Held.start standard

theorem step_inLine {e : Event} (h : InLine standard s) (hs : Step S pass s e s') :
    InLine standard s' :=
  fun hdefined => step_held (h (defined_before hs hdefined)) hs hdefined

/-- **Every open descriptor is that of one socket.** Apart from those the process was started
    with, the open descriptors are those of the listening socket, of the connection in the
    handshake, of the threads and of what `pthread_create` failed on, each once: no socket is
    deleted whose descriptor was closed or is another's, and nothing else stays open. -/
theorem descriptors_held (hrun : ListenerRun S pass standard tr s)
    (hdefined : s.phase ≠ .undefined) : Held standard s.opened s.sockets := by
  have hline : InLine standard s :=
    hrun.invariant (start_inLine standard) fun s e s' h hs => step_inLine h hs
  exact hline hdefined

theorem descriptors_held_secondGuest :
    ∃ tr s, ListenerRun paddingOnly secret {0, 1, 2} tr s ∧ tr.length = 4 ∧
      Held {0, 1, 2} s.opened s.sockets := by
  obtain ⟨tr, s, hrun, hlen, hphase, -⟩ := secondGuest_run
  exact ⟨tr, s, hrun, hlen, descriptors_held hrun (by rw [hphase]; nofun)⟩

/-! ## Who is served -/

/-- What passes the checks of `accept` is as long as it should be: a length that did not fit
    into an `int` would not have been decrypted. -/
theorem acceptM2_inv {r : Randoms} {message decrypted : Bytes}
    (h : acceptM2 S r pass message = .ok (some decrypted)) :
    S.privateDecrypt message = some decrypted ∧
      decrypted.length = 3 * maxKeyLength + pass.length ∧
      (decrypted.drop (2 * maxKeyLength)).take maxKeyLength = r.nonceB ∧
      (decrypted.drop (3 * maxKeyLength)).take pass.length = pass := by
  cases hdec : S.privateDecrypt message with
  | none =>
      simp only [acceptM2, hdec, Option.getD_none] at h
      split at h
      · cases h
      · split at h
        · cases h
        · rw [if_pos (by decide)] at h
          cases h
  | some m =>
      simp only [acceptM2, hdec, Option.getD_some] at h
      split at h
      · cases h
      · split at h
        · cases h
        · rename_i hsize
          split at h
          · cases h
          · split at h
            · cases h
            · rename_i hnonce
              split at h
              · cases h
              · rename_i hlong
                split at h
                · cases h
                · rename_i hpass
                  obtain rfl := Option.some.inj (Except.ok.inj h)
                  have hle := toInt_le (3 * maxKeyLength + pass.length)
                  exact ⟨rfl, by omega, not_not.mp hnonce, not_not.mp hpass⟩

/-- **What M2 was**, if the server sends M3: the session key, two nonces and the passphrase,
    the second nonce being the one of this connection. -/
theorem serverEnd_inv {r : Randoms} {message key wire : Bytes}
    (h : serverEnd S r pass message = .ok (some (key, wire))) :
    key.length = maxKeyLength ∧ ∃ nonceA : Bytes, nonceA.length = maxKeyLength ∧
      S.privateDecrypt message = some (key ++ nonceA ++ r.nonceB ++ pass) := by
  simp only [serverEnd] at h
  split at h
  · cases h
  · cases h
  · rename_i decrypted hM2
    split at h
    · cases h
    · cases h
    · obtain ⟨rfl, -⟩ := Prod.mk.inj (Option.some.inj (Except.ok.inj h))
      obtain ⟨hdec, hlen, hnonce, hpass⟩ := acceptM2_inv hM2
      rw [installedKey, maxKeyLength] at *
      refine ⟨by rw [List.length_take]; omega, (decrypted.drop 64).take 64,
        by rw [List.length_take, List.length_drop]; omega, ?_⟩
      have hrest : (decrypted.drop 192).take pass.length = decrypted.drop 192 :=
        List.take_of_length_le (by rw [List.length_drop]; omega)
      have hsplit : decrypted = decrypted.take 64 ++ (decrypted.drop 64).take 64 ++
          (decrypted.drop 128).take 64 ++ decrypted.drop 192 := by
        have hlast : decrypted.drop 192 = (decrypted.drop 128).drop 64 := by rw [List.drop_drop]
        have hthird : decrypted.drop 128 = (decrypted.drop 64).drop 64 := by rw [List.drop_drop]
        rw [List.append_assoc, hlast, List.take_append_drop, List.append_assoc, hthird,
          List.take_append_drop, List.take_append_drop]
      rw [hdec]
      refine congrArg some (hsplit.trans ?_)
      rw [← hrest, hpass, hnonce]

/-- No handshake begins or is over with it. -/
def aside : Event → Prop
  | .accepted _ _ | .refused _ | .started _ _ _ | .lost _ => False
  | _ => True

/-- The descriptor that is closed with a socket. -/
def closes : Event → Option Nat
  | .refused fd | .ended fd => some fd
  | _ => none

/-- The connection in the handshake was the last one accepted. -/
def Greeted (events : List Event) (fd : Nat) (r : Randoms) : Prop :=
  ∃ before between, events = before ++ .accepted fd r :: between ∧ ∀ e ∈ between, aside e

/-- A thread that was started at the end of the handshake with its connection, for an M2 that
    had the key, the nonce of that handshake and the passphrase in it, and whose descriptor has
    not been closed since. -/
structure Admitted (S : OpenSsl) (pass : Bytes) (events : List Event) (fd : Nat)
    (key : Bytes) : Prop where
  admitted : ∃ handshake r message nonceA after,
    events = handshake ++ .started fd key message :: after ∧ Greeted handshake fd r ∧
      (∀ e ∈ after, closes e ≠ some fd) ∧ key.length = maxKeyLength ∧
      nonceA.length = maxKeyLength ∧
      S.privateDecrypt message = some (key ++ nonceA ++ r.nonceB ++ pass)

theorem Greeted.append {events : List Event} {fd : Nat} {r : Randoms} {e : Event}
    (h : Greeted events fd r) (he : aside e) : Greeted (events ++ [e]) fd r := by
  obtain ⟨before, between, rfl, hbetween⟩ := h
  refine ⟨before, between ++ [e], by rw [List.append_assoc, List.cons_append], ?_⟩
  intro e' he'
  rcases List.mem_append.mp he' with hin | hlast
  · exact hbetween e' hin
  · rw [List.mem_singleton.mp hlast]
    exact he

theorem Admitted.append {events : List Event} {fd : Nat} {key : Bytes} {e : Event}
    (h : Admitted S pass events fd key) (he : closes e ≠ some fd) :
    Admitted S pass (events ++ [e]) fd key := by
  obtain ⟨handshake, r, message, nonceA, after, rfl, hgreeted, hafter, hrest⟩ := h.admitted
  refine ⟨handshake, r, message, nonceA, after ++ [e],
    by rw [List.append_assoc, List.cons_append], hgreeted, ?_, hrest⟩
  intro e' he'
  rcases List.mem_append.mp he' with hin | hlast
  · exact hafter e' hin
  · rw [List.mem_singleton.mp hlast]
    exact he

theorem run_greeted (hrun : ListenerRun S pass standard tr s) (hdefined : s.phase ≠ .undefined)
    {fd : Nat} {r : Randoms} (h : s.greeting = some (fd, r)) :
    Greeted (tr.map Entry.event) fd r := by
  induction hrun with
  | nil => cases h
  | @snoc tr s s' e _ hs ih =>
      have hbefore := ih (defined_before hs hdefined)
      rw [List.map_append]
      cases hs with
      | listened _ _ _ _ _ _ => exact (hbefore h).append trivial
      | unopened _ _ _ _ _ _ hundefined => exact absurd hundefined hdefined
      | accepted _ _ _ _ =>
          obtain ⟨rfl, rfl⟩ := Prod.mk.inj (Option.some.inj h)
          exact ⟨_, [], rfl, fun e he => absurd he List.not_mem_nil⟩
      | unaccepted _ _ => exact (hbefore h).append trivial
      | refused _ _ => cases h
      | undecrypted _ _ _ _ hundefined => exact absurd hundefined hdefined
      | started _ _ _ => cases h
      | lost _ _ _ => cases h
      | ended _ => exact (hbefore h).append trivial

/-- A thread's descriptor is not the one in the handshake. -/
theorem thread_ne_greeting (h : Held standard s.opened s.sockets) {fd fd' : Nat} {key : Bytes}
    {r : Randoms} (hthread : (fd, key) ∈ s.threads) (hgreet : s.greeting = some (fd', r)) :
    fd' ≠ fd := by
  rintro rfl
  have hnodup := h.nodup
  rw [sockets_greeting hgreet] at hnodup
  refine (List.nodup_cons.mp hnodup).1 ((sublist_sockets _).subset ?_)
  exact List.mem_map.mpr ⟨(fd', key), hthread, rfl⟩

/-- **Only who knows the passphrase is served.** Every thread there is was started at the end
    of the handshake with the last connection accepted, for an M2 that decrypts to its session
    key, a nonce, the nonce drawn for this connection, and the passphrase. -/
theorem threads_admitted (hrun : ListenerRun S pass standard tr s)
    (hdefined : s.phase ≠ .undefined) {fd : Nat} {key : Bytes} (h : (fd, key) ∈ s.threads) :
    Admitted S pass (tr.map Entry.event) fd key := by
  induction hrun with
  | nil => cases h
  | @snoc tr s s' e hrun hs ih =>
      have hbefore := defined_before hs hdefined
      have hline : InLine standard s :=
        hrun.invariant (start_inLine standard) fun s e s' h hs => step_inLine h hs
      have hheld := hline hbefore
      rw [List.map_append]
      cases hs with
      | listened _ _ _ _ _ _ => exact (ih hbefore h).append nofun
      | unopened _ _ _ _ _ _ hundefined => exact absurd hundefined hdefined
      | accepted _ _ _ _ => exact (ih hbefore h).append nofun
      | unaccepted _ _ => exact (ih hbefore h).append nofun
      | refused hgreet _ =>
          exact (ih hbefore h).append fun heq =>
            thread_ne_greeting hheld h hgreet (Option.some.inj heq)
      | undecrypted _ _ _ _ hundefined => exact absurd hundefined hdefined
      | @started fd' r message key' wire hgreet _ hend =>
          rcases List.mem_cons.mp h with heq | hold
          · obtain ⟨rfl, rfl⟩ := Prod.mk.inj heq
            obtain ⟨hkey, nonceA, hnonce, hdec⟩ := serverEnd_inv hend
            exact ⟨_, r, message, nonceA, [], rfl, run_greeted hrun hbefore hgreet,
              fun e he => absurd he List.not_mem_nil, hkey, hnonce, hdec⟩
          · exact (ih hbefore hold).append nofun
      | lost _ _ _ => exact (ih hbefore h).append nofun
      | @ended fd' key' before after hthreads =>
          have hin : (fd, key) ∈ s.threads := by
            rw [hthreads]
            rcases List.mem_append.mp h with hb | ha
            · exact List.mem_append_left _ hb
            · exact List.mem_append_right _ (List.mem_cons_of_mem _ ha)
          refine (ih hbefore hin).append ?_
          intro heq
          obtain rfl : fd' = fd := Option.some.inj heq
          have hnodup := hheld.nodup.sublist (sublist_sockets s)
          rw [hthreads, List.map_append, List.map_cons, List.nodup_middle] at hnodup
          refine (List.nodup_cons.mp hnodup).1 ?_
          rw [← List.map_append]
          exact List.mem_map.mpr ⟨(fd', key), h, rfl⟩

theorem threads_admitted_secondGuest :
    ∃ tr s, ListenerRun paddingOnly secret {0, 1, 2} tr s ∧
      Admitted paddingOnly secret (tr.map Entry.event) 4
        (sessionKey paddingOnly zeroRandoms secret) := by
  obtain ⟨tr, s, hrun, -, hphase, hthread⟩ := secondGuest_run
  exact ⟨tr, s, hrun, threads_admitted hrun (by rw [hphase]; nofun) hthread⟩

end Runs

end DmListener
