import P2PShare.Lib.Runs
import P2PShare.Pair.Basic

/-!
The link between the trackers with channels of finite capacity.

* `Port`, `Channels.step`: each tracker with the thread that reads from the link,
  the sessions that push ops and `__send_mu`. A send waits while the channel is
  full, and the reading thread reads nothing before its answer is sent.
* `Overdrawn`: the reading thread has an answer of which more is left than the channel
  has room for. As long as both threads are, nothing is read.
* `Deadlock`: both reading threads have something to send over a full channel, whoever
  holds `__send_mu`.
* `step_overdrawn`: which steps make both of them overdrawn.
* `no_deadlock`: no deadlock is reached if none of these steps is taken; after one of
  them, a deadlock can be reached. `catchup_deadlock` is a run that reaches one.
-/

namespace P2PShare

namespace Threads

/-- Who holds `__send_mu`. -/
inductive Holder
  | free
  /-- The thread that reads from the link. -/
  | reader
  /-- A session thread with this op. -/
  | session (op : Op)
deriving DecidableEq

/-- One tracker at its end of the link: the channel that it reads from, what its
reading thread is about to send, and the sessions that wait for `__send_mu`. -/
structure Port where
  server : Server
  phase : Phase
  inbox : List SyncMsg
  todo : List SyncMsg
  holder : Holder
  waiting : List Op

namespace Port

/-- The request that a tracker sends on a new link. -/
def request (x : Port) : Role → List SyncMsg
  | .dialer => [x.server.tracker.dialRequest]
  | .acceptor => x.server.tracker.acceptRequest

/-- A session has recorded this op and goes on to push it. -/
def serve (H : Str → Str) (x : Port) (ev : ClientEvent) : Port :=
  let res := x.server.serve H ev
  { x with
    server := res.2
    waiting := x.waiting ++ if x.phase.linked then res.1.toList else [] }

/-- Where the reading thread is when it has sent all it had to. -/
def afterSend : Phase → Phase
  | .hello => .choose
  | .ask _ => .up
  | .down => .down
  | .choose => .choose
  | .up => .up
  | .client => .client

/-- The reading thread has sent a frame, and `rest` is left. -/
def sent (x : Port) (rest : List SyncMsg) : Port :=
  if rest = [] then { x with todo := [], holder := .free, phase := afterSend x.phase }
  else { x with todo := rest }

/-- The test whether the state is empty, and the request that it leads to. -/
def choose (x : Port) (r : Role) : Port :=
  if x.request r = [] then { x with phase := .up }
  else { x with phase := .ask (x.request r), todo := x.request r }

/-- The reading thread processes a message and has its answer to send. -/
def process (H : Str → Str) (x : Port) (m : SyncMsg) (rest : List SyncMsg) : Port :=
  let res := x.server.tracker.process H m
  { x with server := { x.server with tracker := res.2 }, inbox := rest, todo := res.1 }

/-- How many frames the answer to the next message has. -/
def asks (x : Port) : ℕ :=
  match x.phase, x.inbox with
  | .up, .op _ :: _ => 1
  | .up, .snapshotRequest :: _ => 1
  | .up, .catchup after :: _ => x.server.tracker.log.countP fun op => after < op.seq
  | _, _ => 0

/-- The answer is as long as the message asks for. -/
lemma length_answer (H : Str → Str) {x : Port} {m : SyncMsg} {rest : List SyncMsg}
    (hphase : x.phase = .up) (hinbox : x.inbox = m :: rest) :
    (x.server.tracker.process H m).1.length = x.asks := by
  rw [asks, hphase, hinbox]
  cases m with
  | catchup after =>
      rw [Tracker.process, List.length_map, Tracker.catchupFrom]
      exact List.countP_eq_length_filter.symm
  | hello | op | ack | snapshotRequest | snapshotData => rfl

end Port

/-- The two trackers. -/
abbrev Channels := Role → Port

/-- What the threads do next. -/
inductive Turn
  /-- A client event, up to the recording of its op. -/
  | client (r : Role) (ev : ClientEvent)
  /-- A session thread locks `__send_mu`. -/
  | lock (r : Role) (i : ℕ)
  /-- It sends its op and unlocks. -/
  | push (r : Role)
  /-- The reading thread locks `__send_mu`. -/
  | begin (r : Role)
  /-- It sends its next frame, and unlocks after the last. -/
  | emit (r : Role)
  /-- It tests whether the state is empty. -/
  | choose (r : Role)
  /-- It reads the next message. -/
  | read (r : Role)

/-- The tracker whose turn it is. -/
def Turn.role : Turn → Role
  | client r _ | lock r _ | push r | begin r | emit r | choose r | read r => r

namespace Channels

/-- One side replaced. -/
def set (c : Channels) (r : Role) (x : Port) : Channels := Function.update c r x

/-- A frame is put into the channel to the peer. -/
def post (c : Channels) (r : Role) (m : SyncMsg) : Channels :=
  c.set r.peer { c r.peer with inbox := (c r.peer).inbox ++ [m] }

section

variable (c : Channels) (r : Role) (x : Port) (m : SyncMsg)

@[simp] lemma set_self : c.set r x r = x := by simp [set]

@[simp] lemma set_peer : c.set r x r.peer = c r.peer := by simp [set]

@[simp] lemma post_self : c.post r m r = c r := by simp [post, set]

@[simp] lemma post_peer :
    c.post r m r.peer = { c r.peer with inbox := (c r.peer).inbox ++ [m] } := by
  rw [post, set_self]

end

/-- The link has just formed: tracker 0 is about to send its hello. -/
def start (servers : Role → Server) : Channels
  | .dialer => ⟨servers .dialer, .hello, [], [.hello Role.dialer.index], .free, []⟩
  | .acceptor => ⟨servers .acceptor, .down, [], [], .free, []⟩

/-- The channel to the peer has room for another frame. -/
def HasRoom (K : ℕ) (c : Channels) (r : Role) : Prop := (c r.peer).inbox.length < K

instance (K : ℕ) (c : Channels) (r : Role) : Decidable (HasRoom K c r) :=
  inferInstanceAs (Decidable (_ < _))

/-- The reading thread reads a message. On tracker 1 the accept loop reads the first
one of the connection. -/
def read (H : Str → Str) (c : Channels) (r : Role) : Option Channels :=
  let x := c r
  match x.inbox with
  | [] => none
  | m :: rest =>
      if ¬ m.Sendable ∨ x.todo ≠ [] then none
      else match r, x.phase with
        | _, .up => some (c.set r (x.process H m rest))
        | .acceptor, .down =>
            let phase := if m.type = .syncHello then .choose else .client
            some (c.set r { x with phase := phase, inbox := rest })
        | .acceptor, .client => some (c.set r { x with inbox := rest })
        | _, _ => none

/-- One step; the channels hold `K` frames. -/
def step (H : Str → Str) (K : ℕ) (c : Channels) : Turn → Option Channels
  | .client r ev => some (c.set r ((c r).serve H ev))
  | .lock r i =>
      if (c r).holder = .free then
        (c r).waiting[i]?.map fun op =>
          c.set r { c r with holder := .session op, waiting := (c r).waiting.eraseIdx i }
      else none
  | .push r =>
      match (c r).holder with
      | .session op =>
          if HasRoom K c r then some ((c.set r { c r with holder := .free }).post r (.op op))
          else none
      | .free | .reader => none
  | .begin r =>
      if (c r).holder = .free ∧ (c r).todo ≠ [] then some (c.set r { c r with holder := .reader })
      else none
  | .emit r =>
      match (c r).todo with
      | [] => none
      | m :: rest =>
          if (c r).holder = .reader ∧ HasRoom K c r then some ((c.set r ((c r).sent rest)).post r m)
          else none
  | .choose r =>
      if (c r).phase = .choose ∧ (c r).todo = [] then some (c.set r ((c r).choose r)) else none
  | .read r => c.read H r

/-! ### Deadlocks -/

/-- The reading thread has something to send and the channel is full. It waits in the send, or
for `__send_mu` behind a session that does. -/
def Blocked (K : ℕ) (c : Channels) (r : Role) : Prop :=
  (c r).todo ≠ [] ∧ K ≤ (c r.peer).inbox.length

/-- Both reading threads do. -/
def Deadlock (K : ℕ) (c : Channels) : Prop := ∀ r, Blocked K c r

/-- There are `n` frames to send, and a channel with `k` frames in it has no room for all. -/
def Short (K n k : ℕ) : Prop := 0 < n ∧ K < n + k

/-- The reading thread has more to send than there is room for. -/
def Overdrawn (K : ℕ) (c : Channels) (r : Role) : Prop :=
  Short K (c r).todo.length (c r.peer).inbox.length

/-- **The condition**: a reading thread takes on an answer, and a session takes the room for one
by its op, only if the answer still fits or the other reading thread is not overdrawn. A message
that is read makes room for the other one. -/
def Yields (K : ℕ) (c : Channels) : Turn → Prop
  | .read r => ¬ (Short K (c r).asks (c r.peer).inbox.length ∧
      Short K (c r.peer).todo.length ((c r).inbox.length - 1))
  | .choose r => ¬ (Short K ((c r).request r).length (c r.peer).inbox.length ∧
      Overdrawn K c r.peer)
  | .push r => ¬ (Short K (c r).todo.length ((c r.peer).inbox.length + 1) ∧ Overdrawn K c r.peer)
  | .client .. | .lock .. | .begin _ | .emit _ => True

instance (K : ℕ) (c : Channels) (r : Role) : Decidable (Blocked K c r) :=
  inferInstanceAs (Decidable (_ ∧ _))

instance (K : ℕ) (c : Channels) : Decidable (Deadlock K c) :=
  inferInstanceAs (Decidable (∀ _, _))

instance (K n k : ℕ) : Decidable (Short K n k) := inferInstanceAs (Decidable (_ ∧ _))

instance (K : ℕ) (c : Channels) (r : Role) : Decidable (Overdrawn K c r) :=
  inferInstanceAs (Decidable (Short _ _ _))

instance (K : ℕ) (c : Channels) : ∀ t, Decidable (Yields K c t)
  | .read _ | .choose _ | .push _ => inferInstanceAs (Decidable (¬ _))
  | .client .. | .lock .. | .begin _ | .emit _ => .isTrue trivial

variable {H : Str → Str} {K : ℕ} {c c' : Channels} {r : Role}

lemma Short.mono {n k k' : ℕ} (h : Short K n k) (hk : k ≤ k') : Short K n k' :=
  ⟨h.1, h.2.trans_le (Nat.add_le_add_left hk n)⟩

/-- A thread with nothing to send is not overdrawn. -/
lemma not_overdrawn (htodo : (c r).todo = []) : ¬ Overdrawn K c r := by
  rintro ⟨hpos, -⟩
  rw [htodo] at hpos
  exact absurd hpos (lt_irrefl 0)

lemma Blocked.overdrawn (h : Blocked K c r) : Overdrawn K c r := by
  obtain ⟨htodo, hfull⟩ := h
  have hpos : 0 < (c r).todo.length := List.length_pos_iff.mpr htodo
  exact ⟨hpos, by omega⟩

lemma forall_overdrawn (r : Role) :
    (∀ r, Overdrawn K c r) ↔ Overdrawn K c r ∧ Overdrawn K c r.peer :=
  ⟨fun h => ⟨h r, h r.peer⟩, fun h => Role.forall_of_peer r h.1 h.2⟩

lemma read_cases (h : c.read H r = some c') :
    ∃ m rest, (c r).inbox = m :: rest ∧ (c r).todo = [] ∧ c' r.peer = c r.peer ∧
      (c' r).inbox = rest ∧ (c' r).todo.length = (c r).asks := by
  rw [read] at h
  cases hinbox : (c r).inbox with
  | nil => simp [hinbox] at h
  | cons m rest =>
      rw [hinbox] at h
      by_cases hbad : ¬ m.Sendable ∨ (c r).todo ≠ []
      · simp only [hbad, if_true, reduceCtorEq] at h
      · simp only [hbad, if_false] at h
        have htodo : (c r).todo = [] := by
          by_contra hne
          exact hbad (.inr hne)
        refine ⟨m, rest, rfl, htodo, ?_⟩
        cases hphase : (c r).phase with
        | up =>
            obtain rfl : c.set r ((c r).process H m rest) = c' := by
              cases r <;> simpa [hphase] using h
            refine ⟨by simp, by simp [Port.process], ?_⟩
            rw [set_self]
            exact Port.length_answer H hphase hinbox
        | down | client =>
            -- no message is answered before the link is up
            cases r with
            | dialer => simp [hphase] at h
            | acceptor =>
                obtain rfl : _ = c' := by simpa [hphase] using h
                exact ⟨c.set_peer .acceptor _, by simp, by simp [Port.asks, hphase, htodo]⟩
        | hello | choose | ask => cases r <;> simp [hphase] at h

/-- **Which steps make both reading threads overdrawn**: those that the condition excludes. -/
lemma step_overdrawn {t : Turn} (hstep : c.step H K t = some c') :
    (∀ r, Overdrawn K c' r) ↔ (∀ r, Overdrawn K c r) ∨ ¬ Yields K c t := by
  rw [forall_overdrawn t.role, forall_overdrawn t.role]
  cases t with
  | client r ev =>
      obtain rfl : c.set r ((c r).serve H ev) = c' := Option.some.inj hstep
      simp [Overdrawn, Turn.role, Port.serve, Yields]
  | lock r i =>
      simp only [step, Option.ite_none_right_eq_some, Option.map_eq_some_iff] at hstep
      obtain ⟨-, op, -, rfl⟩ := hstep
      simp [Overdrawn, Turn.role, Yields]
  | begin r =>
      simp only [step, Option.ite_none_right_eq_some, Option.some.injEq] at hstep
      obtain ⟨-, rfl⟩ := hstep
      simp [Overdrawn, Turn.role, Yields]
  | push r =>
      rw [step] at hstep
      split at hstep
      · simp only [Option.ite_none_right_eq_some, Option.some.injEq] at hstep
        obtain ⟨-, rfl⟩ := hstep
        -- the op takes room from the answer of the same tracker
        have hmono : Overdrawn K c r →
            Short K (c r).todo.length ((c r.peer).inbox.length + 1) := fun h =>
          h.mono (Nat.le_succ _)
        simp only [Yields, not_not, Turn.role]
        rw [← or_and_right, or_iff_right_of_imp hmono]
        simp [Overdrawn]
      · cases hstep
      · cases hstep
  | emit r =>
      rw [step] at hstep
      cases htodo : (c r).todo with
      | nil => simp [htodo] at hstep
      | cons m rest =>
          simp only [htodo, Option.ite_none_right_eq_some, Option.some.injEq] at hstep
          obtain ⟨⟨-, hroom⟩, rfl⟩ := hstep
          rw [HasRoom] at hroom
          -- one frame less to send and one more in the channel, which had room for it
          have hself : Overdrawn K ((c.set r ((c r).sent rest)).post r m) r ↔ Overdrawn K c r := by
            simp only [Overdrawn, Short, post_self, set_self, post_peer, set_peer, htodo,
              List.length_append, List.length_cons, List.length_nil]
            cases rest with
            | nil =>
                simp only [Port.sent, if_true, List.length_nil]
                omega
            | cons m' rest =>
                simp only [Port.sent, reduceCtorEq, if_false, List.length_cons]
                omega
          have hpeer : Overdrawn K ((c.set r ((c r).sent rest)).post r m) r.peer ↔
              Overdrawn K c r.peer := by
            have hinbox : ((c r).sent rest).inbox = (c r).inbox := by
              rw [Port.sent]
              split <;> rfl
            simp [Overdrawn, hinbox]
          simp [Turn.role, hself, hpeer, Yields]
  | choose r =>
      simp only [step, Option.ite_none_right_eq_some, Option.some.injEq] at hstep
      obtain ⟨⟨-, htodo⟩, rfl⟩ := hstep
      have hchosen : ((c r).choose r).todo = (c r).request r ∧
          ((c r).choose r).inbox = (c r).inbox := by
        rw [Port.choose]
        split
        · next hnone => exact ⟨htodo.trans hnone.symm, rfl⟩
        · exact ⟨rfl, rfl⟩
      have hidle : ¬ (Overdrawn K c r ∧ Overdrawn K c r.peer) := fun h => not_overdrawn htodo h.1
      simp only [Turn.role, or_iff_right hidle]
      simp [Yields, Overdrawn, hchosen]
  | read r =>
      obtain ⟨m, rest, hinbox, htodo, hpeer, hrest, hasks⟩ := read_cases hstep
      have hidle : ¬ (Overdrawn K c r ∧ Overdrawn K c r.peer) := fun h => not_overdrawn htodo h.1
      simp only [Turn.role, or_iff_right hidle]
      simp [Yields, Overdrawn, hasks, hpeer, hrest, hinbox]

/-! ### Where the condition fails -/

/-- A reading thread that holds the lock sends its next frame while there is room. -/
lemma Overdrawn.emit (h : Overdrawn K c r) (hroom : HasRoom K c r) (hr : (c r).holder = .reader) :
    ∃ c₁, c.step H K (.emit r) = some c₁ ∧ Overdrawn K c₁ r ∧ (c₁ r).inbox = (c r).inbox ∧
      ∃ m, c₁ r.peer = { c r.peer with inbox := (c r.peer).inbox ++ [m] } := by
  obtain ⟨hpos, hlt⟩ := h
  rw [HasRoom] at hroom
  cases htodo : (c r).todo with
  | nil =>
      rw [htodo] at hpos
      cases hpos
  | cons m rest =>
      rw [htodo, List.length_cons] at hlt
      have hrest : rest ≠ [] := by
        rintro rfl
        rw [List.length_nil] at hlt
        omega
      have hleft : 0 < rest.length := List.length_pos_iff.mpr hrest
      refine ⟨(c.set r ((c r).sent rest)).post r m, ?_, ?_, ?_, m, ?_⟩
      · simp [Channels.step, htodo, hr, HasRoom, hroom]
      · simp only [Overdrawn, Short, post_self, set_self, Port.sent, hrest, if_false, post_peer,
          set_peer, List.length_append, List.length_cons, List.length_nil]
        omega
      · simp [Port.sent, hrest]
      · simp

/-- While there is room, whoever holds the lock sends a frame; if nobody does, the reading thread
takes it. -/
lemma Overdrawn.advance (h : Overdrawn K c r) (hroom : HasRoom K c r) :
    ∃ c₁, Run (step H K) (fun _ _ => True) c c₁ ∧ Overdrawn K c₁ r ∧ (c₁ r).inbox = (c r).inbox ∧
      ∃ m, c₁ r.peer = { c r.peer with inbox := (c r.peer).inbox ++ [m] } := by
  have htodo : (c r).todo ≠ [] := List.length_pos_iff.mp h.1
  cases hholder : (c r).holder with
  | reader =>
      obtain ⟨c₁, hstep, hrest⟩ := h.emit (H := H) hroom hholder
      exact ⟨c₁, .step .start trivial hstep, hrest⟩
  | session op =>
      refine ⟨(c.set r { c r with holder := .free }).post r (.op op),
        .step (e := .push r) .start trivial ?_, ?_, by simp, .op op, by simp⟩
      · simp [Channels.step, hholder, hroom]
      · have hmore : Short K (c r).todo.length ((c r.peer).inbox.length + 1) :=
          Short.mono h (Nat.le_succ _)
        simpa [Overdrawn] using hmore
  | free =>
      have hbegin : c.step H K (.begin r) = some (c.set r { c r with holder := .reader }) := by
        simp [Channels.step, hholder, htodo]
      have hover : Overdrawn K (c.set r { c r with holder := .reader }) r := by
        simpa [Overdrawn] using h
      obtain ⟨c₁, hstep, hover₁, hinbox, m, hpeer⟩ :=
        hover.emit (H := H) (by simpa [HasRoom] using hroom) (by simp)
      refine ⟨c₁, .step (.step .start trivial hbegin) trivial hstep, hover₁, ?_, m, ?_⟩
      · rw [hinbox, set_self]
      · rw [hpeer, set_peer]

/-- The channel fills, and somebody waits with the lock. -/
lemma Overdrawn.fills (h : Overdrawn K c r) :
    ∃ c', Run (step H K) (fun _ _ => True) c c' ∧ Blocked K c' r ∧ (c' r).holder ≠ .free ∧
      (c' r).inbox = (c r).inbox ∧
      ∃ msgs, c' r.peer = { c r.peer with inbox := (c r.peer).inbox ++ msgs } := by
  induction hn : K - (c r.peer).inbox.length generalizing c with
  | zero =>
      have htodo : (c r).todo ≠ [] := List.length_pos_iff.mp h.1
      by_cases hfree : (c r).holder = .free
      · have hbegin : c.step H K (.begin r) = some (c.set r { c r with holder := .reader }) := by
          simp [Channels.step, hfree, htodo]
        refine ⟨_, .step .start trivial hbegin, ⟨by simpa using htodo, ?_⟩, by simp, by simp, [],
          by simp⟩
        rw [set_peer]
        omega
      · exact ⟨c, .start, ⟨htodo, by omega⟩, hfree, rfl, [], by simp⟩
  | succ n ih =>
      have hroom : HasRoom K c r := by
        rw [HasRoom]
        omega
      obtain ⟨c₁, hrun, hover, hinbox, m, hpeer⟩ := h.advance (H := H) hroom
      obtain ⟨c', hrun', hblocked, hheld, hinbox', msgs, hpeer'⟩ := ih hover (by
        rw [hpeer, List.length_append, List.length_singleton]
        omega)
      refine ⟨c', hrun.trans hrun', hblocked, hheld, hinbox'.trans hinbox, m :: msgs, ?_⟩
      rw [hpeer', hpeer]
      simp

/-- **Two threads that are overdrawn end in a deadlock** if no other thread comes
between: each channel fills, and neither thread reads. -/
lemma deadlock_of_overdrawn (h : ∀ r, Overdrawn K c r) :
    ∃ c', Run (step H K) (fun _ _ => True) c c' ∧ Deadlock K c' ∧ ∀ r, (c' r).holder ≠ .free := by
  obtain ⟨c₁, hrun₁, ⟨htodo, hfull⟩, hheld, hinbox, msgs, hpeer⟩ := (h .dialer).fills (H := H)
  have hside₁ : c₁ .acceptor = { c .acceptor with inbox := (c .acceptor).inbox ++ msgs } := hpeer
  have hover : Overdrawn K c₁ .acceptor := by
    have hold : Short K (c .acceptor).todo.length (c .dialer).inbox.length := h .acceptor
    show Short K (c₁ .acceptor).todo.length (c₁ .dialer).inbox.length
    rw [hside₁, hinbox]
    exact hold
  obtain ⟨c₂, hrun₂, hblocked, hheld₂, hinbox₂, msgs₂, hpeer₂⟩ := hover.fills (H := H)
  -- tracker 0 is where it was, but for its inbox
  have hside : c₂ .dialer = { c₁ .dialer with inbox := (c₁ .dialer).inbox ++ msgs₂ } := hpeer₂
  have hdialer : Blocked K c₂ .dialer := by
    refine ⟨by rw [hside]; exact htodo, ?_⟩
    show K ≤ (c₂ .acceptor).inbox.length
    rw [hinbox₂]
    exact hfull
  refine ⟨c₂, hrun₁.trans hrun₂, Role.forall_of_peer .acceptor hblocked hdialer,
    Role.forall_of_peer .acceptor hheld₂ ?_⟩
  rw [show c₂ (Role.peer .acceptor) = _ from hside]
  exact hheld

/-- **No deadlock**: where no step makes both reading threads overdrawn, the two never wait for
each other. The first step that does leads to a state from which they can come to do so. -/
theorem no_deadlock {servers : Role → Server}
    (hrun : Run (step H K) (Yields K) (start servers) c) :
    ¬ Deadlock K c ∧ ∀ t c', ¬ Yields K c t → c.step H K t = some c' →
      ∃ c'', Run (step H K) (fun _ _ => True) c' c'' ∧ Deadlock K c'' ∧
        ∀ r, (c'' r).holder ≠ .free := by
  have hstart : ¬ ∀ r, Overdrawn K (start servers) r := fun h =>
    not_overdrawn (r := .acceptor) rfl (h .acceptor)
  have h : ¬ ∀ r, Overdrawn K c r := by
    refine hrun.invariant (I := fun c => ¬ ∀ r, Overdrawn K c r) hstart ?_
    intro c c' t hI hok hstep hboth
    exact ((step_overdrawn hstep).mp hboth).elim hI fun hnot => hnot hok
  refine ⟨fun hdead => h fun r => (hdead r).overdrawn, fun t c' hnot hstep => ?_⟩
  exact deadlock_of_overdrawn ((step_overdrawn hstep).mpr (.inr hnot))

/-- A tracker on which these users have registered. -/
def registered (uids : List Str) : Server :=
  (Server.start.run id (.connect 7 [4] peerIp_fits :: uids.map fun uid =>
    .request 7 MsgType.createUser.code (putStr uid ++ putStr [2]) 0)).2

/-- Tracker 0 has lost the link before four users registered on tracker 1. -/
def backlog : Role → Server
  | .dialer => registered [[1]]
  | .acceptor => registered [[1], [2], [3], [4]]

/-- The link forms and tracker 0 asks for a catch-up. -/
def catchingUp : List Turn :=
  [.begin .dialer, .emit .dialer, .read .acceptor, .choose .acceptor, .choose .dialer,
    .begin .dialer, .emit .dialer, .read .acceptor, .begin .acceptor, .emit .acceptor]

theorem no_deadlock_catchingUp :
    let c := (exec (step id 1) (start backlog) catchingUp).get (by decide +kernel)
    ¬ Deadlock 1 c := by
  intro c
  have hmeets : Meets (step id 1) (Yields 1) (start backlog) catchingUp := by decide +kernel
  exact (no_deadlock (Run.of_exec hmeets (Option.some_get _).symm)).1

/-- **A deadlock over the backlog**: tracker 1 waits with its last op for tracker 0
to read, and tracker 0 waits with an ACK for tracker 1 to read. -/
theorem catchup_deadlock :
    ∃ (K : ℕ) (servers : Role → Server) (c : Channels), 1 ≤ K ∧
      Run (step id K) (fun _ _ => True) (start servers) c ∧ Deadlock K c ∧
      ∀ r, (c r).holder = .reader := by
  let turns := catchingUp ++
    [.read .dialer, .begin .dialer, .emit .dialer, .emit .acceptor, .read .dialer, .begin .dialer,
      .emit .acceptor]
  refine ⟨1, backlog, (exec (step id 1) (start backlog) turns).get (by decide +kernel), le_rfl, ?_,
    by decide +kernel, by decide +kernel⟩
  exact Run.of_exec (meets_of_forall (fun _ _ => trivial) _) (Option.some_get _).symm

end Channels

end Threads

end P2PShare
