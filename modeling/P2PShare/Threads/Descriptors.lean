import P2PShare.Pair.Basic

/-!
The descriptors that a `SyncManager` uses. They are numbers that the system gives
again once they are closed.

* `Sockets`: what each open descriptor is, `__out_fd`, and the threads with the
  descriptors in their local variables: `connect_loop`, the handlers of inbound
  links, the sessions of clients, and the calls of `record_and_replicate` that have
  read `__out_fd`.
* `Act.Proper`: a close or a send on a descriptor that is the link that it was
  obtained for.
* `InOrder` (**the invariant**) and `own_link_only`: every act is proper as long as no
  inbound link supersedes another and no link is closed under a session that is about
  to write to it. `closed_twice` is a run in which both happen.
* `InOrder.slips`: a step that does one of these can always be followed by an act that
  is not proper.
-/

namespace P2PShare

namespace Threads

/-- What a descriptor is. Connections are numbered as they are made. -/
inductive Conn
  /-- A link with the peer tracker. -/
  | link (n : ℕ)
  /-- The connection of a client: any other that is accepted. -/
  | client (n : ℕ)
deriving DecidableEq

/-- The descriptor of a link, in a variable. -/
structure Held where
  fd : ℕ
  link : ℕ
deriving DecidableEq

/-- Where `connect_loop` is. -/
inductive Dialing
  /-- About to connect. -/
  | dial
  /-- About to store the descriptor in `__out_fd`. -/
  | publish (h : Held)
  /-- About to send the hello. -/
  | greet (h : Held)
  /-- About to test whether the state is empty. -/
  | choose (h : Held)
  /-- About to send the request that this test has led to. -/
  | ask (h : Held) (request : MsgType)
  /-- Reading from the link. -/
  | receive (h : Held)
  /-- The link is lost: about to close `__out_fd`. -/
  | cleanUp (h : Held)
deriving DecidableEq

namespace Dialing

/-- Its descriptor. -/
def held : Dialing → Option Held
  | dial => none
  | publish h | greet h | choose h | ask h _ | receive h | cleanUp h => some h

/-- Its descriptor once it has been stored in `__out_fd`. -/
def published : Dialing → Option Held
  | dial | publish _ => none
  | greet h | choose h | ask h _ | receive h | cleanUp h => some h

/-- Its descriptor if it is about to close `__out_fd`. -/
def closing : Dialing → Option Held
  | dial | publish _ | greet _ | choose _ | ask .. | receive _ => none
  | cleanUp h => some h

lemma held_of_published {d : Dialing} {h : Held} (hp : d.published = some h) : d.held = some h := by
  cases d with
  | dial | publish => cases hp
  | greet | choose | ask | receive | cleanUp => exact hp

end Dialing

/-- Where `handle_peer_connection` is. -/
inductive Serving
  /-- About to close the older link and to store the descriptor in `__out_fd`. -/
  | enter
  /-- About to test whether the state is empty. -/
  | choose
  /-- About to ask for a snapshot. -/
  | ask
  /-- Reading from the link. -/
  | receive
  /-- The link is lost: about to close it. -/
  | leave
deriving DecidableEq

/-- A thread in `handle_peer_connection`. -/
structure Handler where
  fd : ℕ
  stage : Serving
deriving DecidableEq

/-- What a `SyncManager` does with a descriptor. -/
inductive Deed
  | close
  | send (t : MsgType)
deriving DecidableEq

/-- It has been done with this descriptor, which was `found` then. -/
structure Act where
  deed : Deed
  held : Held
  found : Option Conn
deriving DecidableEq

/-- The descriptor was open and the link that it was obtained for. -/
def Act.Proper (a : Act) : Prop := a.found = some (.link a.held.link)

instance (a : Act) : Decidable a.Proper := inferInstanceAs (Decidable (_ = _))

/-- A tracker with its descriptors and threads. Handlers and sessions are found under
the number of their connection. -/
structure Sockets where
  role : Role
  table : ℕ → Option Conn
  made : ℕ
  outFd : Option Held
  dialing : Dialing
  handlers : ℕ → Option Handler
  sessions : ℕ → Option ℕ
  pushes : List Held
  acts : List Act

/-- What the threads do next. -/
inductive SocketMove
  /-- `connect_loop` connects, on tracker 0 only. -/
  | connect (fd : ℕ)
  /-- It goes on; `empty` is what the state is when it is tested. -/
  | advance (empty : Bool)
  /-- It sends an answer to the peer. -/
  | answer (t : MsgType)
  /-- It has lost the link. -/
  | lost
  /-- A connection is accepted whose first frame is a hello. -/
  | inbound (fd : ℕ)
  /-- The handler of this link goes on. -/
  | handle (n : ℕ) (empty : Bool)
  /-- It sends an answer to the peer. -/
  | handlerAnswer (n : ℕ) (t : MsgType)
  /-- It has lost the link. -/
  | handlerLost (n : ℕ)
  /-- The connection of a client is accepted. -/
  | accept (fd : ℕ)
  /-- The session on it ends. -/
  | hangUp (n : ℕ)
  /-- `record_and_replicate` reads `__out_fd` under `__mu_lock`. -/
  | record
  /-- It writes its op under `__send_mu`. -/
  | push (i : ℕ)

namespace Sockets

/-- A process that has just started. -/
def start (r : Role) : Sockets :=
  ⟨r, fun _ => none, 0, none, .dial, fun _ => none, fun _ => none, [], []⟩

/-- `send_msg` on a descriptor. -/
def send (s : Sockets) (h : Held) (t : MsgType) : Sockets :=
  { s with acts := s.acts ++ [⟨.send t, h, s.table h.fd⟩] }

/-- `close` of a descriptor. -/
def close (s : Sockets) (h : Held) : Sockets :=
  { s with
    table := Function.update s.table h.fd none
    acts := s.acts ++ [⟨.close, h, s.table h.fd⟩] }

/-- `if (__out_fd >= 0) close(__out_fd)`. -/
def closeOut (s : Sockets) : Sockets := s.outFd.elim s s.close

/-- A new connection, on a descriptor that is free. -/
def opened (s : Sockets) (fd : ℕ) (x : Conn) : Sockets :=
  { s with table := Function.update s.table fd (some x), made := s.made + 1 }

/-- One handler replaced. -/
def setHandler (s : Sockets) (n : ℕ) (x : Option Handler) : Sockets :=
  { s with handlers := Function.update s.handlers n x }

/-- It opens nothing. -/
lemma table_of_closeOut (s : Sockets) {fd : ℕ} {x : Conn} (h : s.closeOut.table fd = some x) :
    s.table fd = some x := by
  cases hout : s.outFd with
  | none => simpa [closeOut, hout] using h
  | some o =>
      replace h : Function.update s.table o.fd none fd = some x := by
        simpa [closeOut, hout, close] using h
      have hne : fd ≠ o.fd := by
        rintro rfl
        simp at h
      rwa [Function.update_of_ne hne] at h

@[simp] lemma setHandler_self (s : Sockets) (n : ℕ) (x : Option Handler) :
    (s.setHandler n x).handlers n = x := by simp [setHandler]

lemma setHandler_of_ne (s : Sockets) {m n : ℕ} (hne : m ≠ n) (x : Option Handler) :
    (s.setHandler n x).handlers m = s.handlers m := by simp [setHandler, hne]

/-- The next step of `connect_loop`, apart from reading. -/
def advance (s : Sockets) (empty : Bool) : Option Sockets :=
  match s.dialing with
  | .publish h => some { s with outFd := some h, dialing := .greet h }
  | .greet h => some ({ s with dialing := .choose h }.send h .syncHello)
  | .choose h =>
      some { s with dialing := .ask h (if empty then .syncSnapshotRequest else .syncCatchup) }
  | .ask h t => some ({ s with dialing := .receive h }.send h t)
  | .cleanUp _ => some { s.closeOut with outFd := none, dialing := .dial }
  | .dial | .receive _ => none

/-- The next step of `handle_peer_connection`, apart from reading. The last one closes
the descriptor whether or not it is still `__out_fd`. -/
def handle (s : Sockets) (n : ℕ) (empty : Bool) : Option Sockets :=
  (s.handlers n).bind fun x =>
    let h : Held := ⟨x.fd, n⟩
    match x.stage with
    | .enter =>
        some ({ s.closeOut with outFd := some h }.setHandler n (some { x with stage := .choose }))
    | .choose => some (s.setHandler n (some { x with stage := if empty then .ask else .receive }))
    | .ask =>
        some ((s.send h .syncSnapshotRequest).setHandler n (some { x with stage := .receive }))
    | .leave =>
        let out := s.outFd.filter fun o => o.fd ≠ x.fd
        some ({ s.close h with outFd := out }.setHandler n none)
    | .receive => none

/-- One step. -/
def step (s : Sockets) : SocketMove → Option Sockets
  | .connect fd =>
      if s.role = .dialer ∧ s.dialing = .dial ∧ s.table fd = none then
        some { s.opened fd (.link s.made) with dialing := .publish ⟨fd, s.made⟩ }
      else none
  | .advance empty => s.advance empty
  | .answer t =>
      match s.dialing with
      | .receive h => some (s.send h t)
      | _ => none
  | .lost =>
      match s.dialing with
      | .receive h => some { s with dialing := .cleanUp h }
      | _ => none
  | .inbound fd =>
      if s.table fd = none then
        some ((s.opened fd (.link s.made)).setHandler s.made (some ⟨fd, .enter⟩))
      else none
  | .handle n empty => s.handle n empty
  | .handlerAnswer n t =>
      (s.handlers n).bind fun x => if x.stage = .receive then some (s.send ⟨x.fd, n⟩ t) else none
  | .handlerLost n =>
      (s.handlers n).bind fun x =>
        if x.stage = .receive then some (s.setHandler n (some { x with stage := .leave })) else none
  | .accept fd =>
      if s.table fd = none then
        some
          { s.opened fd (.client s.made) with
            sessions := Function.update s.sessions s.made (some fd) }
      else none
  | .hangUp n =>
      (s.sessions n).map fun fd =>
        { s with
          table := Function.update s.table fd none
          sessions := Function.update s.sessions n none }
  | .record => some { s with pushes := s.pushes ++ s.outFd.toList }
  | .push i => s.pushes[i]?.map fun h => { s with pushes := s.pushes.eraseIdx i }.send h .syncOp

/-- **The condition**: a handler finds no older link in `__out_fd`, and a link is
closed only when no session that has read its descriptor still has to write to it. -/
def Guarded (s : Sockets) : SocketMove → Prop
  | .handle n _ => ∀ x ∈ s.handlers n,
      (x.stage = .enter → s.outFd = none) ∧ (x.stage = .leave → ∀ p ∈ s.pushes, p.fd ≠ x.fd)
  | .advance _ => ∀ h ∈ s.dialing.closing, ∀ p ∈ s.pushes, p.fd ≠ h.fd
  | .connect _ | .answer _ | .lost | .inbound _ | .handlerAnswer .. | .handlerLost _ | .accept _
  | .hangUp _ | .record | .push _ => True

instance (s : Sockets) : ∀ m, Decidable (Guarded s m)
  | .handle n _ => inferInstanceAs (Decidable (∀ x ∈ s.handlers n, _ ∧ _))
  | .advance _ => inferInstanceAs (Decidable (∀ h ∈ s.dialing.closing, _))
  | .connect _ | .answer _ | .lost | .inbound _ | .handlerAnswer .. | .handlerLost _ | .accept _
  | .hangUp _ | .record | .push _ => .isTrue trivial

variable {s s' : Sockets}

/-! ### Who has which descriptor -/

/-- A thread that reads from a link has its descriptor. -/
def Owns (s : Sockets) (h : Held) : Prop :=
  s.dialing.held = some h ∨ ∃ x ∈ s.handlers h.link, x.fd = h.fd

/-- **The invariant.** -/
structure InOrder (s : Sockets) : Prop where
  links : ∀ h, s.Owns h → s.table h.fd = some (.link h.link)
  clients : ∀ n fd, s.sessions n = some fd → s.table fd = some (.client n)
  out : ∀ h ∈ s.outFd, s.Owns h
  pushes : ∀ h ∈ s.pushes, s.Owns h
  made : ∀ h, s.Owns h → h.link < s.made
  sessions : ∀ n fd, s.sessions n = some fd → n < s.made
  apart : ∀ h, s.dialing.held = some h → s.handlers h.link = none
  published : ∀ h, s.dialing.published = some h → s.outFd = some h
  acts : ∀ a ∈ s.acts, a.Proper

namespace InOrder

lemma start (r : Role) : (start r).InOrder where
  links h hown := by rcases hown with hd | ⟨x, hx, -⟩ <;> [cases hd; cases hx]
  clients n fd hs := by cases hs
  out h hh := by cases hh
  pushes h hh := by cases hh
  made h hown := by rcases hown with hd | ⟨x, hx, -⟩ <;> [cases hd; cases hx]
  sessions n fd hs := by cases hs
  apart h hd := by cases hd
  published h hp := by cases hp
  acts a ha := by cases ha

/-- What a thread does with its own descriptor is proper. -/
lemma proper_append (hs : s.InOrder) {h : Held} (hown : s.Owns h) (d : Deed) :
    ∀ a ∈ s.acts ++ [⟨d, h, s.table h.fd⟩], a.Proper := by
  intro a ha
  rcases List.mem_append.mp ha with ha | ha
  · exact hs.acts a ha
  · obtain rfl := List.mem_singleton.mp ha
    exact hs.links h hown

/-- A frame is sent by a thread on its own link. -/
lemma send (hs : s.InOrder) {h : Held} (hown : s.Owns h) (t : MsgType) : (s.send h t).InOrder where
  links := hs.links
  clients := hs.clients
  out := hs.out
  pushes := hs.pushes
  made := hs.made
  sessions := hs.sessions
  apart := hs.apart
  published := hs.published
  acts := hs.proper_append hown _

/-- The threads move on with the descriptors that they have. -/
lemma moved (hs : s.InOrder) (htable : s'.table = s.table) (hmade : s'.made = s.made)
    (hsessions : s'.sessions = s.sessions) (hacts : s'.acts = s.acts)
    (howns : ∀ h, s'.Owns h ↔ s.Owns h) (hout : ∀ h ∈ s'.outFd, s.Owns h)
    (hpushes : ∀ h ∈ s'.pushes, s.Owns h)
    (hapart : ∀ h, s'.dialing.held = some h → s'.handlers h.link = none)
    (hpublished : ∀ h, s'.dialing.published = some h → s'.outFd = some h) : s'.InOrder where
  links h hown := htable ▸ hs.links h ((howns h).mp hown)
  clients n fd hn := htable ▸ hs.clients n fd (hsessions ▸ hn)
  out h hh := (howns h).mpr (hout h hh)
  pushes h hh := (howns h).mpr (hpushes h hh)
  made h hown := hmade ▸ hs.made h ((howns h).mp hown)
  sessions n fd hn := hmade ▸ hs.sessions n fd (hsessions ▸ hn)
  apart := hapart
  published := hpublished
  acts a ha := hs.acts a (hacts ▸ ha)

/-- `connect_loop` moves on. -/
lemma dialing (hs : s.InOrder) {d : Dialing} {out : Option Held} (hheld : d.held = s.dialing.held)
    (hout : ∀ h ∈ out, s.Owns h) (hpublished : ∀ h, d.published = some h → out = some h) :
    InOrder { s with dialing := d, outFd := out } := by
  refine hs.moved rfl rfl rfl rfl (fun h => ?_) hout hs.pushes (fun h hh => ?_) hpublished
  · rw [Owns, Owns, hheld]
  · exact hs.apart h (hheld ▸ hh)

/-- It goes on to its next stage. -/
lemma went (hs : s.InOrder) {d : Dialing} (hheld : d.held = s.dialing.held)
    (hpublished : d.published = s.dialing.published) : InOrder { s with dialing := d } :=
  hs.dialing hheld hs.out fun h hh => hs.published h (hpublished ▸ hh)

/-- A handler moves on. -/
lemma handler (hs : s.InOrder) {n : ℕ} {x : Handler} (hx : s.handlers n = some x) (g : Serving)
    {out : Option Held} (hout : ∀ h ∈ out, s.Owns h)
    (hpublished : ∀ h, s.dialing.published = some h → out = some h) :
    ({ s with outFd := out }.setHandler n (some { x with stage := g })).InOrder := by
  refine hs.moved rfl rfl rfl rfl (fun h => or_congr_right ?_) hout hs.pushes (fun h hh => ?_)
    hpublished
  · by_cases hn : h.link = n
    · simp [hn, hx]
    · rw [setHandler_of_ne _ hn]
  · have hnone := hs.apart h hh
    have hn : h.link ≠ n := by
      rintro rfl
      cases hnone.symm.trans hx
    rwa [setHandler_of_ne _ hn]

/-- Two threads do not share a descriptor. -/
lemma fd_ne (hs : s.InOrder) {g h : Held} (hg : s.Owns g) (hh : s.Owns h) (hne : g ≠ h) :
    g.fd ≠ h.fd := by
  intro hfd
  have hlink : Conn.link g.link = .link h.link := by
    have htable := hs.links g hg
    rw [hfd, hs.links h hh] at htable
    exact (Option.some.inj htable).symm
  apply hne
  cases g
  cases h
  simp_all

/-- Nor does a thread share one with a session. -/
lemma fd_ne_client (hs : s.InOrder) {h : Held} (hh : s.Owns h) {n fd : ℕ}
    (hn : s.sessions n = some fd) : h.fd ≠ fd := by
  rintro rfl
  cases (hs.links h hh).symm.trans (hs.clients n h.fd hn)

/-- A connection is made, and a thread or a session gets its descriptor. -/
lemma connected (hs : s.InOrder) {fd : ℕ} {x : Conn} (hfree : s.table fd = none)
    (htable : s'.table = Function.update s.table fd (some x)) (hmade : s'.made = s.made + 1)
    (hkept : ∀ h, s.Owns h → s'.Owns h)
    (howns : ∀ h, s'.Owns h → s.Owns h ∨ h = ⟨fd, s.made⟩ ∧ x = .link s.made)
    (hsessions : ∀ n g, s'.sessions n = some g →
      s.sessions n = some g ∨ n = s.made ∧ g = fd ∧ x = .client s.made)
    (hout : s'.outFd = s.outFd) (hpushes : s'.pushes = s.pushes) (hacts : s'.acts = s.acts)
    (hapart : ∀ h, s'.dialing.held = some h → s'.handlers h.link = none)
    (hpublished : ∀ h, s'.dialing.published = some h → s.dialing.published = some h) :
    s'.InOrder where
  links h hown := by
    rcases howns h hown with hown | ⟨rfl, rfl⟩
    · have hlink := hs.links h hown
      -- the new descriptor was free, so it is none of those in use
      have hne : h.fd ≠ fd := by
        rintro rfl
        cases hfree.symm.trans hlink
      rw [htable, Function.update_of_ne hne, hlink]
    · rw [htable, Function.update_self]
  clients n g hn := by
    rcases hsessions n g hn with hn | ⟨rfl, rfl, rfl⟩
    · have hclient := hs.clients n g hn
      have hne : g ≠ fd := by
        rintro rfl
        cases hfree.symm.trans hclient
      rw [htable, Function.update_of_ne hne, hclient]
    · rw [htable, Function.update_self]
  out h hh := hkept h (hs.out h (hout ▸ hh))
  pushes h hh := hkept h (hs.pushes h (hpushes ▸ hh))
  made h hown := by
    rw [hmade]
    rcases howns h hown with hown | ⟨rfl, -⟩
    · exact (hs.made h hown).trans (Nat.lt_succ_self _)
    · exact Nat.lt_succ_self _
  sessions n g hn := by
    rw [hmade]
    rcases hsessions n g hn with hn | ⟨rfl, -, -⟩
    · exact (hs.sessions n g hn).trans (Nat.lt_succ_self _)
    · exact Nat.lt_succ_self _
  apart := hapart
  published h hp := hout ▸ hs.published h (hpublished h hp)
  acts a ha := hs.acts a (hacts ▸ ha)

/-- A descriptor is closed, and nothing refers to it any more. -/
lemma freed (hs : s.InOrder) {fd : ℕ} (htable : s'.table = Function.update s.table fd none)
    (hmade : s'.made = s.made) (howns : ∀ h, s'.Owns h → s.Owns h ∧ h.fd ≠ fd)
    (hsessions : ∀ n g, s'.sessions n = some g → s.sessions n = some g ∧ g ≠ fd)
    (hout : ∀ h ∈ s'.outFd, s'.Owns h) (hpushes : ∀ h ∈ s'.pushes, s'.Owns h)
    (hapart : ∀ h, s'.dialing.held = some h → s'.handlers h.link = none)
    (hpublished : ∀ h, s'.dialing.published = some h → s'.outFd = some h)
    (hacts : ∀ a ∈ s'.acts, a.Proper) : s'.InOrder where
  links h hown := by
    obtain ⟨hown, hne⟩ := howns h hown
    rw [htable, Function.update_of_ne hne, hs.links h hown]
  clients n g hn := by
    obtain ⟨hn, hne⟩ := hsessions n g hn
    rw [htable, Function.update_of_ne hne, hs.clients n g hn]
  out := hout
  pushes := hpushes
  made h hown := hmade ▸ hs.made h (howns h hown).1
  sessions n g hn := hmade ▸ hs.sessions n g (hsessions n g hn).1
  apart := hapart
  published := hpublished
  acts := hacts

/-! ### Connections -/

/-- The next connection has no handler yet. -/
lemma handlers_made (hs : s.InOrder) : s.handlers s.made = none := by
  cases hx : s.handlers s.made with
  | none => rfl
  | some x => exact absurd (hs.made ⟨x.fd, s.made⟩ (.inr ⟨x, hx, rfl⟩)) (lt_irrefl _)

lemma connect (hs : s.InOrder) (hdial : s.dialing = .dial) {fd : ℕ} (hfree : s.table fd = none) :
    InOrder { s.opened fd (.link s.made) with dialing := .publish ⟨fd, s.made⟩ } := by
  refine hs.connected hfree rfl rfl ?_ ?_ (fun _ _ => .inl) rfl rfl rfl ?_ nofun
  · rintro h (hd | hh)
    · rw [hdial] at hd
      cases hd
    · exact .inr hh
  · rintro h (hd | hh)
    · exact .inr ⟨(Option.some.inj hd).symm, rfl⟩
    · exact .inl (.inr hh)
  · rintro h hd
    obtain rfl := Option.some.inj hd
    exact hs.handlers_made

lemma inbound (hs : s.InOrder) {fd : ℕ} (hfree : s.table fd = none) :
    ((s.opened fd (.link s.made)).setHandler s.made (some ⟨fd, .enter⟩)).InOrder := by
  refine hs.connected hfree rfl rfl ?_ ?_ (fun _ _ => .inl) rfl rfl rfl ?_ (fun _ => id)
  · rintro h (hd | ⟨x, hx, hfd⟩)
    · exact .inl hd
    · have hne : h.link ≠ s.made := (hs.made h (.inr ⟨x, hx, hfd⟩)).ne
      refine .inr ⟨x, ?_, hfd⟩
      rwa [setHandler_of_ne _ hne]
  · rintro h (hd | ⟨x, hx, hfd⟩)
    · exact .inl (.inl hd)
    · by_cases hlink : h.link = s.made
      · rw [hlink, setHandler_self] at hx
        obtain rfl := Option.some.inj hx
        refine .inr ⟨?_, rfl⟩
        rw [show fd = h.fd from hfd, ← hlink]
      · rw [setHandler_of_ne _ hlink] at hx
        exact .inl (.inr ⟨x, hx, hfd⟩)
  · intro h hd
    have hne : h.link ≠ s.made := (hs.made h (.inl hd)).ne
    rw [setHandler_of_ne _ hne]
    exact hs.apart h hd

lemma accept (hs : s.InOrder) {fd : ℕ} (hfree : s.table fd = none) :
    InOrder { s.opened fd (.client s.made) with
      sessions := Function.update s.sessions s.made (some fd) } := by
  refine hs.connected hfree rfl rfl (fun _ => id) (fun _ => .inl) ?_ rfl rfl rfl hs.apart
    (fun _ => id)
  intro n g hn
  by_cases hmade : n = s.made
  · obtain rfl : fd = g := by simpa [hmade] using hn
    exact .inr ⟨hmade, rfl, rfl⟩
  · replace hn : Function.update s.sessions s.made (some fd) n = some g := hn
    rw [Function.update_of_ne hmade] at hn
    exact .inl hn

lemma hangUp (hs : s.InOrder) {n fd : ℕ} (hn : s.sessions n = some fd) :
    InOrder { s with
      table := Function.update s.table fd none
      sessions := Function.update s.sessions n none } := by
  refine hs.freed rfl rfl (fun h hown => ⟨hown, hs.fd_ne_client hown hn⟩) ?_ hs.out hs.pushes
    hs.apart hs.published hs.acts
  intro m g hm
  replace hm : Function.update s.sessions n none m = some g := hm
  have hne : m ≠ n := by
    rintro rfl
    simp at hm
  rw [Function.update_of_ne hne] at hm
  refine ⟨hm, ?_⟩
  rintro rfl
  have hclient : Conn.client m = .client n :=
    Option.some.inj ((hs.clients m g hm).symm.trans (hs.clients n g hn))
  exact hne (Conn.client.inj hclient)

/-- The close at the end of `connect_loop` is one of its own link. -/
lemma cleanUp (hs : s.InOrder) {h : Held} (hd : s.dialing = .cleanUp h)
    (hpushes : ∀ p ∈ s.pushes, p.fd ≠ h.fd) :
    InOrder { s.closeOut with outFd := none, dialing := .dial } := by
  have hheld : s.dialing.held = some h := by rw [hd, Dialing.held]
  have hown : s.Owns h := .inl hheld
  have hout : s.outFd = some h := hs.published h (by rw [hd, Dialing.published])
  have hclose : s.closeOut = s.close h := by rw [closeOut, hout, Option.elim_some]
  rw [hclose]
  refine hs.freed rfl rfl ?_ (fun n g hn => ⟨hn, (hs.fd_ne_client hown hn).symm⟩) nofun ?_ nofun
    nofun (hs.proper_append hown _)
  · rintro g (hg | ⟨x, hx, hfd⟩)
    · cases hg
    · have hg : s.Owns g := .inr ⟨x, hx, hfd⟩
      refine ⟨hg, hs.fd_ne hg hown ?_⟩
      rintro rfl
      cases (hs.apart g hheld).symm.trans hx
  · intro p hp
    rcases hs.pushes p hp with hp' | hp'
    · obtain rfl : h = p := Option.some.inj (hheld.symm.trans hp')
      exact absurd rfl (hpushes h hp)
    · exact .inr hp'

/-- So is the close at the end of `handle_peer_connection`. -/
lemma leave (hs : s.InOrder) {n : ℕ} {x : Handler} (hx : s.handlers n = some x)
    (hpushes : ∀ p ∈ s.pushes, p.fd ≠ x.fd) :
    ({ s.close ⟨x.fd, n⟩ with
        outFd := s.outFd.filter fun o => o.fd ≠ x.fd }.setHandler n none).InOrder := by
  have hown : s.Owns ⟨x.fd, n⟩ := .inr ⟨x, hx, rfl⟩
  -- `connect_loop` has another link.
  have hdialing : ∀ g, s.dialing.held = some g → g.link ≠ n := by
    rintro g hg rfl
    cases (hs.apart g hg).symm.trans hx
  have hkept : ∀ g, s.Owns g → g.fd ≠ x.fd →
      s.dialing.held = some g ∨ ∃ y ∈ Function.update s.handlers n none g.link, y.fd = g.fd := by
    rintro g (hg | ⟨y, hy, hfd⟩) hne
    · exact .inl hg
    · have hlink : g.link ≠ n := by
        intro hlink
        rw [hlink, hx] at hy
        exact hne (Option.some.inj hy ▸ hfd.symm)
      refine .inr ⟨y, ?_, hfd⟩
      rwa [Function.update_of_ne hlink]
  refine hs.freed rfl rfl ?_ (fun m g hm => ⟨hm, (hs.fd_ne_client hown hm).symm⟩) ?_
    (fun p hp => hkept p (hs.pushes p hp) (hpushes p hp)) ?_ ?_ (hs.proper_append hown _)
  · rintro g (hg | ⟨y, hy, hfd⟩)
    · refine ⟨.inl hg, hs.fd_ne (.inl hg) hown ?_⟩
      rintro rfl
      exact hdialing _ hg rfl
    · have hlink : g.link ≠ n := by
        intro hlink
        simp [hlink] at hy
      rw [setHandler_of_ne _ hlink] at hy
      have hg : s.Owns g := .inr ⟨y, hy, hfd⟩
      refine ⟨hg, hs.fd_ne hg hown ?_⟩
      rintro rfl
      exact hlink rfl
  · intro g hg
    obtain ⟨hg, hne⟩ := Option.mem_filter_iff.mp hg
    exact hkept g (hs.out g hg) (by simpa using hne)
  · intro g hg
    rw [setHandler_of_ne _ (hdialing g hg)]
    exact hs.apart g hg
  · intro g hg
    have hheld : s.dialing.held = some g := Dialing.held_of_published hg
    have hne : g.fd ≠ x.fd := by
      refine hs.fd_ne (.inl hheld) hown ?_
      rintro rfl
      exact hdialing _ hheld rfl
    have hout : s.outFd = some g := hs.published g hg
    simp [setHandler, hout, hne]

/-! ### Steps -/

lemma advance (hs : s.InOrder) {b : Bool} (hok : s.Guarded (.advance b))
    (hstep : s.advance b = some s') : s'.InOrder := by
  rw [Sockets.advance] at hstep
  cases hd : s.dialing with
  | dial | receive => simp [hd] at hstep
  | publish h =>
      obtain rfl : { s with outFd := some h, dialing := .greet h } = s' := by simpa [hd] using hstep
      have hheld : s.dialing.held = some h := by rw [hd, Dialing.held]
      refine hs.dialing hheld.symm ?_ fun g hg => hg
      rintro g ⟨⟩
      exact .inl hheld
  | greet h =>
      obtain rfl : ({ s with dialing := .choose h }.send h .syncHello) = s' := by
        simpa [hd] using hstep
      exact (hs.went (d := .choose h) (by rw [hd]; rfl) (by rw [hd]; rfl)).send (.inl rfl) _
  | choose h =>
      obtain rfl : { s with
          dialing := .ask h (if b then .syncSnapshotRequest else .syncCatchup) } = s' := by
        simpa [hd] using hstep
      exact hs.went (by rw [hd]; rfl) (by rw [hd]; rfl)
  | ask h t =>
      obtain rfl : ({ s with dialing := .receive h }.send h t) = s' := by simpa [hd] using hstep
      exact (hs.went (d := .receive h) (by rw [hd]; rfl) (by rw [hd]; rfl)).send (.inl rfl) _
  | cleanUp h =>
      obtain rfl : { s.closeOut with outFd := none, dialing := .dial } = s' := by
        simpa [hd] using hstep
      exact hs.cleanUp hd (hok h (by rw [hd]; rfl))

lemma handle (hs : s.InOrder) {n : ℕ} {b : Bool} (hok : s.Guarded (.handle n b))
    (hstep : s.handle n b = some s') : s'.InOrder := by
  obtain ⟨x, hx, hstep⟩ := Option.bind_eq_some_iff.mp hstep
  obtain ⟨henter, hleave⟩ := hok x hx
  have hown : s.Owns ⟨x.fd, n⟩ := .inr ⟨x, hx, rfl⟩
  cases hstage : x.stage with
  | enter =>
      -- No older link is up, so nothing is closed.
      have hout : s.outFd = none := henter hstage
      obtain rfl : ({ s with outFd := some ⟨x.fd, n⟩ }.setHandler n
          (some { x with stage := .choose })) = s' := by
        simpa [hstage, closeOut, hout] using hstep
      refine hs.handler hx .choose ?_ fun h hp => ?_
      · rintro g ⟨⟩
        exact hown
      · cases hout.symm.trans (hs.published h hp)
  | choose =>
      obtain rfl : s.setHandler n (some { x with stage := if b then .ask else .receive }) = s' := by
        simpa [hstage] using hstep
      exact hs.handler hx _ hs.out hs.published
  | ask =>
      obtain rfl : (s.send ⟨x.fd, n⟩ .syncSnapshotRequest).setHandler n
          (some { x with stage := .receive }) = s' := by
        simpa [hstage] using hstep
      exact (hs.send hown _).handler hx _ hs.out hs.published
  | receive => simp [hstage] at hstep
  | leave =>
      obtain rfl : { s.close ⟨x.fd, n⟩ with
          outFd := s.outFd.filter fun o => o.fd ≠ x.fd }.setHandler n none = s' := by
        simpa [hstage] using hstep
      exact hs.leave hx (hleave hstage)

end InOrder

/-- **What one step keeps.** -/
theorem InOrder.step (hs : s.InOrder) {m : SocketMove} (hok : s.Guarded m)
    (hstep : s.step m = some s') : s'.InOrder := by
  cases m with
  | connect fd =>
      simp only [Sockets.step, Option.ite_none_right_eq_some, Option.some.injEq] at hstep
      obtain ⟨⟨-, hdial, hfree⟩, rfl⟩ := hstep
      exact hs.connect hdial hfree
  | advance b => exact hs.advance hok hstep
  | answer t =>
      rw [Sockets.step] at hstep
      split at hstep
      · rename_i h hd
        obtain rfl := Option.some.inj hstep
        exact hs.send (.inl (by rw [hd, Dialing.held])) t
      · cases hstep
  | lost =>
      rw [Sockets.step] at hstep
      split at hstep
      · rename_i h hd
        obtain rfl := Option.some.inj hstep
        exact hs.went (by rw [hd]; rfl) (by rw [hd]; rfl)
      · cases hstep
  | inbound fd =>
      simp only [Sockets.step, Option.ite_none_right_eq_some, Option.some.injEq] at hstep
      obtain ⟨hfree, rfl⟩ := hstep
      exact hs.inbound hfree
  | handle n b => exact hs.handle hok hstep
  | handlerAnswer n t =>
      obtain ⟨x, hx, hstep⟩ := Option.bind_eq_some_iff.mp hstep
      simp only [Option.ite_none_right_eq_some, Option.some.injEq] at hstep
      obtain ⟨-, rfl⟩ := hstep
      exact hs.send (.inr ⟨x, hx, rfl⟩) t
  | handlerLost n =>
      obtain ⟨x, hx, hstep⟩ := Option.bind_eq_some_iff.mp hstep
      simp only [Option.ite_none_right_eq_some, Option.some.injEq] at hstep
      obtain ⟨-, rfl⟩ := hstep
      exact hs.handler hx .leave hs.out hs.published
  | accept fd =>
      simp only [Sockets.step, Option.ite_none_right_eq_some, Option.some.injEq] at hstep
      obtain ⟨hfree, rfl⟩ := hstep
      exact hs.accept hfree
  | hangUp n =>
      obtain ⟨fd, hn, rfl⟩ := Option.map_eq_some_iff.mp hstep
      exact hs.hangUp hn
  | record =>
      obtain rfl : { s with pushes := s.pushes ++ s.outFd.toList } = s' := Option.some.inj hstep
      -- the session has read the descriptor that is published now
      refine hs.moved rfl rfl rfl rfl (fun _ => Iff.rfl) hs.out ?_ hs.apart hs.published
      intro h hh
      rcases List.mem_append.mp hh with hh | hh
      · exact hs.pushes h hh
      · exact hs.out h (Option.mem_toList.mp hh)
  | push i =>
      obtain ⟨h, hh, rfl⟩ := Option.map_eq_some_iff.mp hstep
      -- and writes to it while it is still that of the link
      have hown : s.Owns h := hs.pushes h (List.mem_of_getElem? hh)
      have hrest : InOrder { s with pushes := s.pushes.eraseIdx i } :=
        hs.moved rfl rfl rfl rfl (fun _ => Iff.rfl) hs.out
          (fun g hg => hs.pushes g (List.mem_of_mem_eraseIdx hg)) hs.apart hs.published
      exact hrest.send hown _

/-! ### After a close that the condition excludes -/

/-- A thread can come to close or to write what is not its link. -/
def Slips (s : Sockets) : Prop :=
  ∃ s', Run Sockets.step (fun _ _ => True) s s' ∧ ∃ a ∈ s'.acts, ¬ a.Proper

namespace Slips

lemma of_step {m : SocketMove} (hstep : s.step m = some s') (h : s'.Slips) : s.Slips := by
  obtain ⟨s'', hrun, ha⟩ := h
  have hfirst : Run Sockets.step (fun _ _ => True) s s' := .step .start trivial hstep
  exact ⟨s'', hfirst.trans hrun, ha⟩

/-- It does so now, on the descriptor of this link. -/
lemma of_act {m : SocketMove} {d : Deed} {h : Held} (hstep : s.step m = some s')
    (hacts : s'.acts = s.acts ++ [⟨d, h, s.table h.fd⟩])
    (hnot : s.table h.fd ≠ some (.link h.link)) : s.Slips := by
  have hact : (⟨d, h, s.table h.fd⟩ : Act) ∈ s'.acts := by
    rw [hacts]
    exact List.mem_append_right _ (List.mem_singleton_self _)
  exact of_step hstep ⟨s', .start, _, hact, hnot⟩

/-- A session still has to write its op to a link that is gone. -/
lemma push {p : Held} (hp : p ∈ s.pushes) (hnot : s.table p.fd ≠ some (.link p.link)) :
    s.Slips := by
  obtain ⟨i, hi⟩ := List.mem_iff_getElem?.mp hp
  have hstep : s.step (.push i) =
      some ({ s with pushes := s.pushes.eraseIdx i }.send p .syncOp) := by
    rw [Sockets.step, hi, Option.map_some]
  exact of_act hstep rfl hnot

/-- The handler of a link that is gone closes its descriptor in the end. -/
lemma handler {n : ℕ} {x : Handler} (hx : s.handlers n = some x)
    (hnot : s.table x.fd ≠ some (.link n)) : s.Slips := by
  have hleave : ∀ {s : Sockets}, s.handlers n = some { x with stage := .leave } →
      s.table x.fd ≠ some (.link n) → s.Slips := by
    intro s hx hnot
    have hstep : s.step (.handle n false) = some ({ s.close ⟨x.fd, n⟩ with
        outFd := s.outFd.filter fun o => o.fd ≠ x.fd }.setHandler n none) := by
      simp [Sockets.step, Sockets.handle, hx]
    exact of_act (h := ⟨x.fd, n⟩) hstep rfl hnot
  have hreceive : ∀ {s : Sockets}, s.handlers n = some { x with stage := .receive } →
      s.table x.fd ≠ some (.link n) → s.Slips := by
    intro s hx hnot
    have hstep : s.step (.handlerLost n) =
        some (s.setHandler n (some { x with stage := .leave })) := by
      simp [Sockets.step, hx]
    exact of_step hstep (hleave (setHandler_self _ _ _) hnot)
  have hchoose : ∀ {s : Sockets}, s.handlers n = some { x with stage := .choose } →
      s.table x.fd ≠ some (.link n) → s.Slips := by
    intro s hx hnot
    have hstep : s.step (.handle n false) =
        some (s.setHandler n (some { x with stage := .receive })) := by
      simp [Sockets.step, Sockets.handle, hx]
    exact of_step hstep (hreceive (setHandler_self _ _ _) hnot)
  obtain ⟨fd, stage⟩ := x
  cases stage with
  | enter =>
      have hstep : s.step (.handle n false) = some ({ s.closeOut with
          outFd := some ⟨fd, n⟩ }.setHandler n (some ⟨fd, .choose⟩)) := by
        simp [Sockets.step, Sockets.handle, hx]
      refine of_step hstep (hchoose (setHandler_self _ _ _) fun htable => hnot ?_)
      exact s.table_of_closeOut htable
  | choose => exact hchoose hx hnot
  | ask =>
      have hstep : s.step (.handle n false) = some ((s.send ⟨fd, n⟩ .syncSnapshotRequest).setHandler
          n (some ⟨fd, .receive⟩)) := by
        simp [Sockets.step, Sockets.handle, hx]
      exact of_act (h := ⟨fd, n⟩) hstep rfl hnot
  | receive => exact hreceive hx hnot
  | leave => exact hleave hx hnot

/-- `connect_loop` writes to its link if that is gone. Before it would do nothing but
close, it closes the link that has taken the place of its own. -/
lemma dialing {h o : Held} {x : Handler} (hd : s.dialing.held = some h)
    (hnot : s.table h.fd ≠ some (.link h.link)) (hout : s.outFd = some o)
    (hx : s.handlers o.link = some x) (hfd : x.fd = o.fd) : s.Slips := by
  -- one more step and the thread writes to a descriptor that is not its own
  have hask : ∀ {s : Sockets} {t : MsgType}, s.dialing = .ask h t →
      s.table h.fd ≠ some (.link h.link) → s.Slips := by
    intro s t hd hnot
    have hstep : s.step (.advance false) = some ({ s with dialing := .receive h }.send h t) := by
      simp [Sockets.step, Sockets.advance, hd]
    exact of_act hstep rfl hnot
  have hgreet : ∀ {s : Sockets}, s.dialing = .greet h →
      s.table h.fd ≠ some (.link h.link) → s.Slips := by
    intro s hd hnot
    have hstep : s.step (.advance false) =
        some ({ s with dialing := .choose h }.send h .syncHello) := by
      simp [Sockets.step, Sockets.advance, hd]
    exact of_act hstep rfl hnot
  cases hdialing : s.dialing with
  | dial =>
      rw [hdialing] at hd
      cases hd
  | publish g =>
      obtain rfl : g = h := by simpa [hdialing, Dialing.held] using hd
      have hstep : s.step (.advance false) =
          some { s with outFd := some g, dialing := .greet g } := by
        simp [Sockets.step, Sockets.advance, hdialing]
      exact of_step hstep (hgreet rfl hnot)
  | greet g =>
      obtain rfl : g = h := by simpa [hdialing, Dialing.held] using hd
      exact hgreet hdialing hnot
  | choose g =>
      obtain rfl : g = h := by simpa [hdialing, Dialing.held] using hd
      have hstep : s.step (.advance false) = some { s with dialing := .ask g .syncCatchup } := by
        simp [Sockets.step, Sockets.advance, hdialing]
      exact of_step hstep (hask rfl hnot)
  | ask g t =>
      obtain rfl : g = h := by simpa [hdialing, Dialing.held] using hd
      exact hask hdialing hnot
  | receive g =>
      obtain rfl : g = h := by simpa [hdialing, Dialing.held] using hd
      have hstep : s.step (.answer .syncAck) = some (s.send g .syncAck) := by
        simp [Sockets.step, hdialing]
      exact of_act hstep rfl hnot
  | cleanUp g =>
      have hstep : s.step (.advance false) =
          some { s.close o with outFd := none, dialing := .dial } := by
        simp [Sockets.step, Sockets.advance, hdialing, closeOut, hout]
      refine of_step hstep (handler hx ?_)
      simp [close, hfd]

end Slips

/-- A handler closes the older link, whose thread still has its descriptor. -/
lemma InOrder.supersede (hs : s.InOrder) {n : ℕ} {x : Handler} (hx : s.handlers n = some x)
    {o : Held} (hout : s.outFd = some o) :
    ({ s.close o with outFd := some ⟨x.fd, n⟩ }.setHandler n
      (some { x with stage := .choose })).Slips := by
  have hgone : ∀ fd, fd = o.fd → ∀ link : ℕ,
      Function.update s.table o.fd none fd ≠ some (.link link) := by
    rintro fd rfl link
    simp
  rcases hs.out o hout with hd | ⟨y, hy, hfd⟩
  · exact Slips.dialing hd (hgone _ rfl _) rfl (setHandler_self _ _ _) rfl
  · by_cases hlink : o.link = n
    · rw [hlink, hx] at hy
      obtain rfl := Option.some.inj hy
      exact Slips.handler (setHandler_self _ _ _) (hgone _ hfd _)
    · refine Slips.handler (n := o.link) (x := y) ?_ (hgone _ hfd _)
      rw [setHandler_of_ne _ hlink]
      exact hy

/-- **A step that fails the condition** is followed by a close or a send on what is not
the thread's link, if no other thread comes between. -/
lemma InOrder.slips (hs : s.InOrder) {m : SocketMove} (hnot : ¬ s.Guarded m)
    (hstep : s.step m = some s') : s'.Slips := by
  cases m with
  | advance b =>
      simp only [Guarded, not_forall, not_not] at hnot
      obtain ⟨h, hh, p, hp, hfd⟩ := hnot
      cases hd : s.dialing with
      | dial | publish | greet | choose | ask | receive => rw [hd] at hh; cases hh
      | cleanUp g =>
          obtain rfl : g = h := by simpa [hd, Dialing.closing] using hh
          have hout : s.outFd = some g := hs.published g (by rw [hd, Dialing.published])
          obtain rfl : { s.close g with outFd := none, dialing := .dial } = s' := by
            simpa [Sockets.step, Sockets.advance, hd, closeOut, hout] using hstep
          refine Slips.push (p := p) hp ?_
          simp [close, hfd]
  | handle n b =>
      obtain ⟨x, hx, hstep⟩ := Option.bind_eq_some_iff.mp hstep
      have hnot : ¬ ((x.stage = .enter → s.outFd = none) ∧
          (x.stage = .leave → ∀ p ∈ s.pushes, p.fd ≠ x.fd)) := fun h => hnot fun y hy => by
        obtain rfl := Option.some.inj (hx.symm.trans hy)
        exact h
      cases hstage : x.stage with
      | enter =>
          have hsome : s.outFd ≠ none := fun h => hnot (by simp [hstage, h])
          -- an older link is published, and its descriptor is closed under its thread
          obtain ⟨o, hout⟩ := Option.ne_none_iff_exists'.mp hsome
          obtain rfl : { s.close o with outFd := some ⟨x.fd, n⟩ }.setHandler n
              (some { x with stage := .choose }) = s' := by
            simpa [hstage, closeOut, hout] using hstep
          exact hs.supersede hx hout
      | leave =>
          simp only [hstage, reduceCtorEq, false_imp_iff, true_and, forall_true_left, not_forall,
            not_not] at hnot
          -- a session is about to write to the descriptor that is closed
          obtain ⟨p, hp, hfd⟩ := hnot
          obtain rfl : { s.close ⟨x.fd, n⟩ with
              outFd := s.outFd.filter fun o => o.fd ≠ x.fd }.setHandler n none = s' := by
            simpa [hstage] using hstep
          refine Slips.push (p := p) hp ?_
          show Function.update s.table x.fd none p.fd ≠ _
          simp [hfd]
      | choose | ask | receive => exact absurd (by simp [hstage]) hnot
  | connect | answer | lost | inbound | handlerAnswer | handlerLost | accept | hangUp | record |
    push => exact absurd trivial hnot

/-- **Own links only**: where no inbound link supersedes another and none is closed
under a session that is about to write to it, every close and every send is one on an
open descriptor, which is the link that it was obtained for. The first step that is
not so leads to a state from which a thread can come to close or write another one. -/
theorem own_link_only {r : Role} (hrun : Run Sockets.step Guarded (start r) s) :
    (∀ a ∈ s.acts, a.Proper) ∧ ∀ m s', ¬ s.Guarded m → s.step m = some s' → s'.Slips := by
  have h : s.InOrder := hrun.invariant (.start r) fun hI hok hstep => hI.step hok hstep
  exact ⟨h.acts, fun m s' hnot hstep => h.slips hnot hstep⟩

/-- Tracker 0 links and sends an op, loses the link, and links again while a client
has the number of the old descriptor. -/
def relinking : List SocketMove :=
  [.connect 5, .advance true, .advance true, .advance true, .advance true, .record, .push 0, .lost,
    .advance false, .accept 5, .connect 6, .advance false, .advance false, .record, .push 0]

theorem own_link_only_relinking :
    let s := (exec Sockets.step (start .dialer) relinking).get (by decide +kernel)
    ∀ a ∈ s.acts, a.Proper := by
  intro s
  have hmeets : Meets Sockets.step Guarded (start .dialer) relinking := by decide +kernel
  exact (own_link_only (Run.of_exec hmeets (Option.some_get _).symm)).1

/-- **A client's connection written to and closed**: a session of tracker 1 has read
the descriptor of the first link when the second one supersedes it. A client gets the
number, the session writes its op there, and the handler of the first link, which
finds it lost, closes it once more. -/
theorem closed_twice :
    ∃ s, Run Sockets.step (fun _ _ => True) (start .acceptor) s ∧
      s.acts = [⟨.close, ⟨5, 0⟩, some (.link 0)⟩, ⟨.send .syncOp, ⟨5, 0⟩, some (.client 2)⟩,
        ⟨.close, ⟨5, 0⟩, some (.client 2)⟩] ∧
      ¬ ∀ a ∈ s.acts, a.Proper := by
  let moves : List SocketMove :=
    [.inbound 5, .handle 0 false, .handle 0 false, .record, .inbound 6, .handle 1 false, .accept 5,
      .push 0, .handlerLost 0, .handle 0 false]
  refine ⟨(exec Sockets.step (start .acceptor) moves).get (by decide +kernel), ?_,
    by decide +kernel, by decide +kernel⟩
  exact Run.of_exec (meets_of_forall (fun _ _ => trivial) _) (Option.some_get _).symm

end Sockets

end Threads

end P2PShare
