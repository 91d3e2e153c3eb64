import P2PShare.Lib.Runs
import P2PShare.Tracker.Server

/-!
The pair of trackers and the link between them (`SyncManager::connect_loop`,
`SyncManager::handle_peer_connection` and the accept loop of `main.cpp`).
Tracker 0 dials and tracker 1 accepts. A client request, from the change of the
state to the push of its op, is one step here, and so is a message of the peer, up
to the sending of the answer; `Pair.Answers` takes the latter apart.

* `Phase`: where a tracker is in setting up its end of the link.
* `opsIn`, `acksIn`, `asksIn`: what is among some messages.
* `Side`: a tracker, its end of the link, the messages on their way to it, and
  two histories: the ops that its process has recorded and the ops of the peer's
  process that it has processed.
* `Pair.step`: a client event, a step of the link set-up, the delivery of the
  next message, the loss of the link and the restart of a process.
* `deliver_cases`, `advance_cases`: what these steps do, by the phase.
-/

namespace P2PShare

/-- The index of a tracker: 0 dials, 1 accepts. -/
inductive Role
  | dialer
  | acceptor
deriving DecidableEq

namespace Role

/-- The other tracker. -/
def peer : Role → Role
  | dialer => acceptor
  | acceptor => dialer

/-- `__self_index`. -/
def index : Role → UInt8
  | dialer => 0
  | acceptor => 1

@[simp] lemma peer_dialer : dialer.peer = acceptor := rfl

@[simp] lemma peer_acceptor : acceptor.peer = dialer := rfl

@[simp] lemma peer_peer (r : Role) : r.peer.peer = r := by cases r <;> rfl

@[simp] lemma peer_ne (r : Role) : r.peer ≠ r := by cases r <;> decide

@[simp] lemma ne_peer (r : Role) : r ≠ r.peer := by cases r <;> decide

lemma forall_iff {p : Role → Prop} : (∀ r, p r) ↔ p dialer ∧ p acceptor :=
  ⟨fun h => ⟨h dialer, h acceptor⟩, fun h r => by cases r; exacts [h.1, h.2]⟩

instance {p : Role → Prop} [DecidablePred p] : Decidable (∀ r, p r) :=
  decidable_of_iff _ forall_iff.symm

lemma eq_or_eq_peer (r r' : Role) : r' = r ∨ r' = r.peer := by cases r <;> cases r' <;> decide

/-- A fact about both trackers, seen from one of them. -/
lemma forall_of_peer {p : Role → Prop} (r : Role) (hself : p r) (hpeer : p r.peer) :
    ∀ r', p r' := by
  intro r'
  rcases eq_or_eq_peer r r' with rfl | rfl
  · exact hself
  · exact hpeer

end Role

/-- Where a tracker is in setting up its end of the link. -/
inductive Phase
  /-- `__out_fd` is negative. -/
  | down
  /-- The dialer has connected and is about to send its hello. -/
  | hello
  /-- About to test whether the own state is empty. -/
  | choose
  /-- About to send the request that this test has led to. -/
  | ask (request : List SyncMsg)
  /-- In the receive loop. -/
  | up
  /-- The first message was no hello, so the accept loop has made a client
  session of the connection. -/
  | client
deriving DecidableEq

/-- `__out_fd` is the link. -/
def Phase.linked : Phase → Bool
  | hello | choose | ask _ | up => true
  | down | client => false

/-- The messages that a tracker is about to send. -/
def Phase.pending : Phase → List SyncMsg
  | .ask request => request
  | .down | .hello | .choose | .up | .client => []

/-- One side of the pair. -/
structure Side where
  server : Server
  phase : Phase
  inbox : List SyncMsg
  recorded : List Op
  processed : List Op

namespace Side

/-- The state of the tracker. -/
def state (x : Side) : TrackerState := x.server.tracker.state

/-- A process that has just started, without a link. -/
def start : Side := ⟨.start, .down, [], [], []⟩

/-- The link is gone, and what was on its way with it. -/
def cut (x : Side) : Side := { x with phase := .down, inbox := [] }

/-- The request that a tracker sends on a new link. -/
def request (x : Side) : Role → List SyncMsg
  | .dialer => [x.server.tracker.dialRequest]
  | .acceptor => x.server.tracker.acceptRequest

end Side

/-- The op that a message carries. -/
def SyncMsg.asOp : SyncMsg → Option Op
  | .op o => some o
  | _ => none

/-- The ops among these messages. -/
def opsIn (msgs : List SyncMsg) : List Op := msgs.filterMap SyncMsg.asOp

section

variable (msgs msgs' : List SyncMsg) (ops : List Op) {op : Op}

@[simp] lemma opsIn_nil : opsIn [] = [] := rfl

@[simp] lemma opsIn_append : opsIn (msgs ++ msgs') = opsIn msgs ++ opsIn msgs' :=
  List.filterMap_append

@[simp] lemma opsIn_map : opsIn (ops.map .op) = ops := by
  induction ops with
  | nil => rfl
  | cons op ops ih => exact congrArg (op :: ·) ih

lemma opsIn_cons (m : SyncMsg) : opsIn (m :: msgs) = m.asOp.toList ++ opsIn msgs := by
  cases m <;> rfl

variable {msgs}

@[simp] lemma mem_opsIn : op ∈ opsIn msgs ↔ SyncMsg.op op ∈ msgs := by
  have hop : ∀ m : SyncMsg, m.asOp = some op ↔ m = .op op := by
    intro m
    cases m <;> simp [SyncMsg.asOp]
  simp [opsIn, List.mem_filterMap, hop]

end

/-- The number that an ACK carries. -/
def SyncMsg.asAck : SyncMsg → Option ℕ
  | .ack n => some n
  | _ => none

/-- The number that a catch-up request carries. -/
def SyncMsg.asCatchup : SyncMsg → Option ℕ
  | .catchup n => some n
  | _ => none

/-- The ACKs among these messages. -/
def acksIn (msgs : List SyncMsg) : List ℕ := msgs.filterMap SyncMsg.asAck

/-- The catch-up requests among these messages. -/
def asksIn (msgs : List SyncMsg) : List ℕ := msgs.filterMap SyncMsg.asCatchup

section

variable (msgs msgs' : List SyncMsg) (ops : List Op) {n : ℕ}

@[simp] lemma acksIn_append : acksIn (msgs ++ msgs') = acksIn msgs ++ acksIn msgs' :=
  List.filterMap_append

@[simp] lemma asksIn_append : asksIn (msgs ++ msgs') = asksIn msgs ++ asksIn msgs' :=
  List.filterMap_append

@[simp] lemma acksIn_ops : acksIn (ops.map .op) = [] := by
  induction ops with
  | nil => rfl
  | cons op ops ih => exact ih

@[simp] lemma asksIn_ops : asksIn (ops.map .op) = [] := by
  induction ops with
  | nil => rfl
  | cons op ops ih => exact ih

lemma mem_acksIn {msgs : List SyncMsg} : n ∈ acksIn msgs ↔ SyncMsg.ack n ∈ msgs := by
  have hack : ∀ m : SyncMsg, m.asAck = some n ↔ m = .ack n := by
    intro m
    cases m <;> simp [SyncMsg.asAck]
  simp [acksIn, List.mem_filterMap, hack]

lemma mem_asksIn {msgs : List SyncMsg} : n ∈ asksIn msgs ↔ SyncMsg.catchup n ∈ msgs := by
  have hask : ∀ m : SyncMsg, m.asCatchup = some n ↔ m = .catchup n := by
    intro m
    cases m <;> simp [SyncMsg.asCatchup]
  simp [asksIn, List.mem_filterMap, hask]

end

/-- The two trackers. -/
abbrev Pair := Role → Side

/-- What can happen to a pair. -/
inductive Event
  | client (r : Role) (ev : ClientEvent)
  | dial
  | advance (r : Role)
  | deliver (r : Role)
  | drop
  | restart (r : Role)

/-- Not the restart of this tracker. -/
def Event.Spares (r : Role) : Event → Prop
  | .restart r' => r' ≠ r
  | .client .. | .dial | .advance _ | .deliver _ | .drop => True

instance (r : Role) : ∀ e : Event, Decidable (e.Spares r)
  | .restart r' => inferInstanceAs (Decidable (r' ≠ r))
  | .client .. | .dial | .advance _ | .deliver _ | .drop => .isTrue trivial

namespace Pair

/-- One side replaced. -/
def set (c : Pair) (r : Role) (x : Side) : Pair := Function.update c r x

/-- Messages put on their way to a tracker. -/
def post (c : Pair) (r : Role) (msgs : List SyncMsg) : Pair :=
  c.set r { c r with inbox := (c r).inbox ++ msgs }

section

variable (c : Pair) (r : Role) (x : Side) (msgs : List SyncMsg)

@[simp] lemma set_self : c.set r x r = x := by simp [set]

@[simp] lemma set_peer : c.set r x r.peer = c r.peer := by simp [set]

@[simp] lemma set_of_peer : c.set r.peer x r = c r := by simp [set]

@[simp] lemma post_self : c.post r.peer msgs r = c r := by rw [post, set_of_peer]

@[simp] lemma post_peer :
    c.post r.peer msgs r.peer = { c r.peer with inbox := (c r.peer).inbox ++ msgs } := by
  rw [post, set_self]

end

/-- A client event. The op it records is pushed if there is a link. -/
def client (H : Str → Str) (c : Pair) (r : Role) (ev : ClientEvent) : Pair :=
  let x := c r
  let res := x.server.serve H ev
  (c.set r { x with server := res.2, recorded := x.recorded ++ res.1.toList }).post r.peer
    (if x.phase.linked then res.1.toList.map .op else [])

/-- The next step of a tracker that is setting up its end of the link. -/
def advance (c : Pair) (r : Role) : Option Pair :=
  let x := c r
  match x.phase with
  | .hello => some ((c.set r { x with phase := .choose }).post r.peer [.hello r.index])
  | .choose => some (c.set r { x with phase := .ask (x.request r) })
  | .ask request => some ((c.set r { x with phase := .up }).post r.peer request)
  | .down | .up | .client => none

/-- A tracker in its receive loop processes a message and sends the answer. -/
def process (H : Str → Str) (c : Pair) (r : Role) (m : SyncMsg) (rest : List SyncMsg) : Pair :=
  let x := c r
  let res := x.server.tracker.process H m
  let x' : Side :=
    { x with
      server := { x.server with tracker := res.2 }
      inbox := rest
      processed := x.processed ++ m.asOp.toList }
  (c.set r x').post r.peer res.1

/-- A tracker reads the next message. On tracker 1 the accept loop reads the
first one of a connection, and a client session has no use for any. -/
def deliver (H : Str → Str) (c : Pair) (r : Role) : Option Pair :=
  let x := c r
  match x.inbox with
  | [] => none
  | m :: rest =>
      if ¬ m.Sendable then none
      else match r, x.phase with
        | _, .up => some (c.process H r m rest)
        | .acceptor, .down =>
            let phase := if m.type = .syncHello then .choose else .client
            some (c.set r { x with phase := phase, inbox := rest })
        | .acceptor, .client => some (c.set r { x with inbox := rest })
        | _, _ => none

/-- One step. -/
def step (H : Str → Str) (c : Pair) : Event → Option Pair
  | .client r ev => some (c.client H r ev)
  | .dial =>
      if (c .dialer).phase = .down then some (c.set .dialer { c .dialer with phase := .hello })
      else none
  | .advance r => c.advance r
  | .deliver r => c.deliver H r
  | .drop => if (c .dialer).phase = .down then none else some fun r => (c r).cut
  | .restart r =>
      some fun r' => if r' = r then .start else { (c r').cut with processed := [] }

/-- The steps that set up a link when nothing comes between. -/
def linking : List Event :=
  [.dial, .advance .dialer, .advance .dialer, .advance .dialer, .deliver .acceptor,
    .advance .acceptor, .advance .acceptor]

/-- A client connects to a tracker and registers a user there. -/
def newcomer (r : Role) : List Event :=
  [.client r (.connect 7 [4] peerIp_fits),
    .client r (.request 7 MsgType.createUser.code (putStr [8] ++ putStr [2]) 0)]

/-- The link is up on both sides, and nothing is on its way. -/
def Quiet (c : Pair) : Prop := ∀ r, (c r).phase = .up ∧ (c r).inbox = []

instance (c : Pair) : Decidable c.Quiet := inferInstanceAs (Decidable (∀ _, _ ∧ _))

/-! ### What the steps do -/

section

variable (H : Str → Str) (c : Pair) (r : Role)

@[simp] lemma client_self (ev : ClientEvent) :
    c.client H r ev r =
      { c r with
        server := ((c r).server.serve H ev).2
        recorded := (c r).recorded ++ ((c r).server.serve H ev).1.toList } := by
  rw [client, post_self, set_self]

@[simp] lemma client_peer (ev : ClientEvent) :
    c.client H r ev r.peer =
      { c r.peer with
        inbox := (c r.peer).inbox ++
          if (c r).phase.linked then ((c r).server.serve H ev).1.toList.map .op else [] } := by
  rw [client, post_peer, set_peer]

@[simp] lemma process_self (m : SyncMsg) (rest : List SyncMsg) :
    c.process H r m rest r =
      { c r with
        server := { (c r).server with tracker := ((c r).server.tracker.process H m).2 }
        inbox := rest
        processed := (c r).processed ++ m.asOp.toList } := by
  rw [process, post_self, set_self]

@[simp] lemma process_peer (m : SyncMsg) (rest : List SyncMsg) :
    c.process H r m rest r.peer =
      { c r.peer with
        inbox := (c r.peer).inbox ++ ((c r).server.tracker.process H m).1 } := by
  rw [process, post_peer, set_peer]

end

variable {H : Str → Str} {c c' : Pair} {r : Role}

lemma advance_cases (h : c.advance r = some c') :
    ((c r).phase = .hello ∧ c' r = { c r with phase := .choose } ∧
      c' r.peer = { c r.peer with inbox := (c r.peer).inbox ++ [.hello r.index] }) ∨
    ((c r).phase = .choose ∧ c' r = { c r with phase := .ask ((c r).request r) } ∧
      c' r.peer = c r.peer) ∨
    ∃ request, (c r).phase = .ask request ∧ c' r = { c r with phase := .up } ∧
      c' r.peer = { c r.peer with inbox := (c r.peer).inbox ++ request } := by
  rw [advance] at h
  cases hphase : (c r).phase with
  | hello =>
      obtain rfl : _ = c' := by simpa [hphase] using h
      exact .inl ⟨rfl, by simp, by simp⟩
  | choose =>
      obtain rfl : _ = c' := by simpa [hphase] using h
      exact .inr (.inl ⟨rfl, by simp, by simp⟩)
  | ask request =>
      obtain rfl : _ = c' := by simpa [hphase] using h
      exact .inr (.inr ⟨request, rfl, by simp, by simp⟩)
  | down | up | client => simp [hphase] at h

lemma deliver_cases (h : c.deliver H r = some c') :
    ∃ m rest, (c r).inbox = m :: rest ∧ m.Sendable ∧
      (((c r).phase = .up ∧ c' = c.process H r m rest) ∨
        r = .acceptor ∧ c' .dialer = c .dialer ∧
          ((c r).phase = .down ∧ m.type = .syncHello ∧
              c' r = { c r with phase := .choose, inbox := rest } ∨
            (c r).phase = .down ∧ m.type ≠ .syncHello ∧
              c' r = { c r with phase := .client, inbox := rest } ∨
            (c r).phase = .client ∧ c' r = { c r with inbox := rest })) := by
  rw [deliver] at h
  cases hinbox : (c r).inbox with
  | nil => simp [hinbox] at h
  | cons m rest =>
      by_cases hm : m.Sendable
      · refine ⟨m, rest, rfl, hm, ?_⟩
        cases hphase : (c r).phase with
        | up => exact .inl ⟨rfl, by cases r <;> simpa [hinbox, hphase, hm] using h.symm⟩
        | down =>
            cases r with
            | dialer => simp [hinbox, hphase, hm] at h
            | acceptor =>
                obtain rfl : _ = c' := by simpa [hinbox, hphase, hm] using h
                refine .inr ⟨rfl, c.set_peer .acceptor _, ?_⟩
                by_cases hhello : m.type = .syncHello
                · exact .inl ⟨rfl, hhello, by simp [hhello]⟩
                · exact .inr (.inl ⟨rfl, hhello, by simp [hhello]⟩)
        | client =>
            cases r with
            | dialer => simp [hinbox, hphase, hm] at h
            | acceptor =>
                obtain rfl : _ = c' := by simpa [hinbox, hphase, hm] using h
                exact .inr ⟨rfl, c.set_peer .acceptor _, .inr (.inr ⟨rfl, by simp [hphase]⟩)⟩
        | hello | choose | ask request => cases r <;> simp [hinbox, hphase, hm] at h
      · simp [hinbox, hm] at h

end Pair

end P2PShare
