import P2PShare.Pair.Basic

/-!
The pair of trackers thread by thread. A client request changes the state, is
recorded under `__mu_lock` and is pushed under `__send_mu` in three steps, and
an answer to the peer is worked out and sent in two, so the threads of a tracker
and of its peer can come in between.

* `Change`, `Frame`: what a client has done to the state of a tracker, and a
  message together with the changes it carries.
* `Task`: what is left to do for a request; the descriptor that
  `record_and_replicate` has read from `__out_fd` may be that of an older link,
  and the number may have been given again.
* `Node`, `Net.step`: the system. `work_cases`, `deliver_cases`, … say what the
  steps do.
-/

namespace P2PShare

namespace Threads

/-- The call of a client that has succeeded on a tracker, the how-manieth there. -/
structure Change where
  origin : Role
  number : ℕ
  call : Call
deriving DecidableEq

/-- A message on the link and the changes it carries: an op that of its request,
a snapshot those that its state has gone through. -/
structure Frame where
  msg : SyncMsg
  changes : List Change
deriving DecidableEq

/-- What is left to do for a request of a client. -/
inductive Task
  /-- `record_and_replicate` is about to lock the log. -/
  | record (rep : UInt16 × Str) (now : UInt64) (changes : List Change)
  /-- It has read a descriptor and is about to write the op to it. -/
  | send (fd : ℕ) (op : Op) (changes : List Change)
deriving DecidableEq

/-- One tracker with its threads: `fd` is `__out_fd` while there is a link,
`reply` is what the thread that reads from the link is about to send. -/
structure Node where
  server : Server
  phase : Phase
  fd : ℕ
  inbox : List Frame
  tasks : List Task
  reply : List Frame
  recorded : List (Op × List Change)
  processed : List Op
  changes : List Change
  made : ℕ

namespace Node

/-- The state of the tracker. -/
def state (x : Node) : TrackerState := x.server.tracker.state

/-- A process that has just started. -/
def start : Node := ⟨.start, .down, 0, [], [], [], [], [], [], 0⟩

/-- The link is gone. Threads that were about to write to it still are. -/
def cut (x : Node) : Node := { x with phase := .down, inbox := [], reply := [] }

/-- The changes that a message of this tracker carries. -/
def carried (x : Node) : SyncMsg → List Change
  | .op op => (x.recorded.filter fun r => r.1 = op).flatMap Prod.snd
  | .snapshotData _ => x.changes
  | .hello _ | .catchup _ | .ack _ | .snapshotRequest => []

/-- A message of this tracker. -/
def frame (x : Node) (m : SyncMsg) : Frame := ⟨m, x.carried m⟩

/-- The request that a tracker sends on a new link. -/
def request (x : Node) : Role → List SyncMsg
  | .dialer => [x.server.tracker.dialRequest]
  | .acceptor => x.server.tracker.acceptRequest

lemma type_of_mem_request (x : Node) (r : Role) {m : SyncMsg} (h : m ∈ x.request r) :
    m.type = .syncSnapshotRequest ∨ m.type = .syncCatchup := by
  cases r with
  | dialer =>
      rw [List.mem_singleton.mp h]
      exact x.server.tracker.type_dialRequest
  | acceptor => exact .inl (Tracker.type_of_mem_acceptRequest h)

/-- The change that a client event makes, if its call succeeds. -/
def change (H : Str → Str) (x : Node) (r : Role) (ev : ClientEvent) : List Change :=
  match ev.stateCall x.server with
  | none => []
  | some call => if (x.state.exec H call).1 = .ok then [⟨r, x.made, call⟩] else []

/-- The changes of the state once a frame has been processed: an op adds its own
if the call it decodes to succeeds, and a snapshot that is loaded replaces them. -/
def changesAfter (H : Str → Str) (x : Node) (f : Frame) : List Change :=
  match f.msg with
  | .op op =>
      match opCall op.type op.payload with
      | none => x.changes
      | some call =>
          if (x.state.exec H call).1 = .ok then
            x.changes ++ f.changes.map fun ch => { ch with call := call }
          else x.changes
  | .snapshotData blob => if (x.state.restore blob).1 then f.changes else x.changes
  | .hello _ | .catchup _ | .ack _ | .snapshotRequest => x.changes

/-- The reading thread processes a message, up to the sending of its answer. -/
def process (H : Str → Str) (x : Node) (f : Frame) (rest : List Frame) : Node :=
  let res := x.server.tracker.process H f.msg
  { x with
    server := { x.server with tracker := res.2 }
    inbox := rest
    reply := res.1.map x.frame
    processed := x.processed ++ f.msg.asOp.toList
    changes := x.changesAfter H f }

end Node

/-- The two trackers. -/
abbrev Net := Role → Node

/-- What can happen. -/
inductive Event
  | client (r : Role) (ev : ClientEvent)
  | work (r : Role) (i : ℕ)
  | dial (fd : Role → ℕ)
  | advance (r : Role)
  | deliver (r : Role)
  | reply (r : Role)
  | drop

namespace Net

/-- One node replaced. -/
def set (n : Net) (r : Role) (x : Node) : Net := Function.update n r x

/-- Frames put on their way to a tracker. -/
def post (n : Net) (r : Role) (frames : List Frame) : Net :=
  n.set r { n r with inbox := (n r).inbox ++ frames }

section

variable (n : Net) (r : Role) (x : Node) (frames : List Frame)

@[simp] lemma set_self : n.set r x r = x := by simp [set]

@[simp] lemma set_peer : n.set r x r.peer = n r.peer := by simp [set]

@[simp] lemma set_of_peer : n.set r.peer x r = n r := by simp [set]

@[simp] lemma post_self : n.post r.peer frames r = n r := by rw [post, set_of_peer]

@[simp] lemma post_peer :
    n.post r.peer frames r.peer = { n r.peer with inbox := (n r.peer).inbox ++ frames } := by
  rw [post, set_self]

end

/-- A client event up to `record_and_replicate`. -/
def client (H : Str → Str) (n : Net) (r : Role) (ev : ClientEvent) : Net :=
  let x := n r
  let res := x.server.apply H ev
  let made := x.change H r ev
  n.set r
    { x with
      server := res.2
      tasks := x.tasks ++ res.1.toList.map fun rep => .record rep ev.now made
      changes := x.changes ++ made
      made := x.made + made.length }

/-- The next step of one of the threads that serve clients: recording the op and
reading the descriptor, or writing the op to the descriptor that was read. -/
def work (n : Net) (r : Role) (i : ℕ) : Option Net :=
  let x := n r
  match x.tasks[i]? with
  | none => none
  | some (.record rep now changes) =>
      let res := x.server.record rep now
      let next := if x.phase.linked then [Task.send x.fd res.1 changes] else []
      some (n.set r
        { x with
          server := res.2
          tasks := x.tasks.eraseIdx i ++ next
          recorded := x.recorded ++ [(res.1, changes)] })
  | some (.send fd op changes) =>
      let sent := if x.phase.linked ∧ fd = x.fd then [Frame.mk (.op op) changes] else []
      some ((n.set r { x with tasks := x.tasks.eraseIdx i }).post r.peer sent)

/-- The next step of a tracker that is setting up its end of the link. -/
def advance (n : Net) (r : Role) : Option Net :=
  let x := n r
  match x.phase with
  | .hello =>
      some ((n.set r { x with phase := .choose }).post r.peer [x.frame (.hello r.index)])
  | .choose => some (n.set r { x with phase := .ask (x.request r) })
  | .ask request =>
      some ((n.set r { x with phase := .up }).post r.peer (request.map x.frame))
  | .down | .up | .client => none

/-- A tracker reads the next message, unless it has an answer to send first. -/
def deliver (H : Str → Str) (n : Net) (r : Role) : Option Net :=
  let x := n r
  match x.inbox with
  | [] => none
  | f :: rest =>
      if ¬ f.msg.Sendable ∨ x.reply ≠ [] then none
      else match r, x.phase with
        | _, .up => some (n.set r (x.process H f rest))
        | .acceptor, .down =>
            let phase := if f.msg.type = .syncHello then .choose else .client
            some (n.set r { x with phase := phase, inbox := rest })
        | .acceptor, .client => some (n.set r { x with inbox := rest })
        | _, _ => none

/-- The reading thread sends its answer. -/
def reply (n : Net) (r : Role) : Option Net :=
  let x := n r
  if x.reply = [] then none
  else some ((n.set r { x with reply := [] }).post r.peer x.reply)

/-- One step. The descriptors of a new link are any numbers. -/
def step (H : Str → Str) (n : Net) : Event → Option Net
  | .client r ev => some (n.client H r ev)
  | .work r i => n.work r i
  | .dial fd =>
      if (n .dialer).phase = .down then
        some fun
          | .dialer => { n .dialer with phase := .hello, fd := fd .dialer }
          | .acceptor => { n .acceptor with fd := fd .acceptor }
      else none
  | .advance r => n.advance r
  | .deliver r => n.deliver H r
  | .reply r => n.reply r
  | .drop => if (n .dialer).phase = .down then none else some fun r => (n r).cut

/-! ### What the steps do -/

variable {H : Str → Str} {n n' : Net} {r : Role}

lemma work_cases {i : ℕ} (h : n.work r i = some n') :
    (∃ rep now changes, (n r).tasks[i]? = some (.record rep now changes) ∧
      n' r.peer = n r.peer ∧
      n' r = { n r with
        server := ((n r).server.record rep now).2
        tasks := (n r).tasks.eraseIdx i ++
          if (n r).phase.linked then [Task.send (n r).fd ((n r).server.record rep now).1 changes]
          else []
        recorded := (n r).recorded ++ [(((n r).server.record rep now).1, changes)] }) ∨
    ∃ fd op changes, (n r).tasks[i]? = some (.send fd op changes) ∧
      n' r = { n r with tasks := (n r).tasks.eraseIdx i } ∧
      n' r.peer = { n r.peer with
        inbox := (n r.peer).inbox ++
          if (n r).phase.linked ∧ fd = (n r).fd then [Frame.mk (.op op) changes] else [] } := by
  rw [work] at h
  cases htask : (n r).tasks[i]? with
  | none => simp [htask] at h
  | some task =>
      cases task with
      | record rep now changes =>
          obtain rfl : _ = n' := by simpa only [htask, Option.some.injEq] using h
          exact .inl ⟨rep, now, changes, rfl, by simp, by simp⟩
      | send fd op changes =>
          obtain rfl : _ = n' := by simpa only [htask, Option.some.injEq] using h
          exact .inr ⟨fd, op, changes, rfl, by simp, by simp⟩

lemma advance_cases (h : n.advance r = some n') :
    ((n r).phase = .hello ∧ n' r = { n r with phase := .choose } ∧
      n' r.peer = { n r.peer with
        inbox := (n r.peer).inbox ++ [(n r).frame (.hello r.index)] }) ∨
    ((n r).phase = .choose ∧ n' r = { n r with phase := .ask ((n r).request r) } ∧
      n' r.peer = n r.peer) ∨
    ∃ request, (n r).phase = .ask request ∧ n' r = { n r with phase := .up } ∧
      n' r.peer = { n r.peer with
        inbox := (n r.peer).inbox ++ request.map (n r).frame } := by
  rw [advance] at h
  cases hphase : (n r).phase with
  | hello =>
      obtain rfl : _ = n' := by simpa [hphase] using h
      exact .inl ⟨rfl, by simp, by simp⟩
  | choose =>
      obtain rfl : _ = n' := by simpa [hphase] using h
      exact .inr (.inl ⟨rfl, by simp, by simp⟩)
  | ask request =>
      obtain rfl : _ = n' := by simpa [hphase] using h
      exact .inr (.inr ⟨request, rfl, by simp, by simp⟩)
  | down | up | client => simp [hphase] at h

lemma deliver_cases (h : n.deliver H r = some n') :
    ∃ f rest, (n r).inbox = f :: rest ∧ f.msg.Sendable ∧ (n r).reply = [] ∧
      n' r.peer = n r.peer ∧
      (((n r).phase = .up ∧ n' r = (n r).process H f rest) ∨
        r = .acceptor ∧
          ((n r).phase = .down ∧ f.msg.type = .syncHello ∧
              n' r = { n r with phase := .choose, inbox := rest } ∨
            (n r).phase = .down ∧ f.msg.type ≠ .syncHello ∧
              n' r = { n r with phase := .client, inbox := rest } ∨
            (n r).phase = .client ∧ n' r = { n r with inbox := rest })) := by
  rw [deliver] at h
  cases hinbox : (n r).inbox with
  | nil => simp [hinbox] at h
  | cons f rest =>
      by_cases hf : ¬ f.msg.Sendable ∨ (n r).reply ≠ []
      · simp only [hinbox, hf, if_true, reduceCtorEq] at h
      · obtain ⟨hsend, hreply⟩ : f.msg.Sendable ∧ (n r).reply = [] := by simpa using hf
        refine ⟨f, rest, rfl, hsend, hreply, ?_⟩
        simp only [hinbox, hf, if_false] at h
        cases hphase : (n r).phase with
        | up =>
            obtain rfl : n.set r ((n r).process H f rest) = n' := by
              cases r <;> simpa [hphase] using h
            exact ⟨by simp, .inl ⟨rfl, by simp⟩⟩
        | down =>
            cases r with
            | dialer => simp [hphase] at h
            | acceptor =>
                obtain rfl : _ = n' := by simpa [hphase] using h
                refine ⟨n.set_peer .acceptor _, .inr ⟨rfl, ?_⟩⟩
                by_cases hhello : f.msg.type = .syncHello
                · exact .inl ⟨rfl, hhello, by simp [hhello]⟩
                · exact .inr (.inl ⟨rfl, hhello, by simp [hhello]⟩)
        | client =>
            cases r with
            | dialer => simp [hphase] at h
            | acceptor =>
                obtain rfl : _ = n' := by simpa [hphase] using h
                exact ⟨n.set_peer .acceptor _, .inr ⟨rfl, .inr (.inr ⟨rfl, by simp [hphase]⟩)⟩⟩
        | hello | choose | ask request => cases r <;> simp [hphase] at h

lemma reply_cases (h : n.reply r = some n') :
    n' r = { n r with reply := [] } ∧
      n' r.peer = { n r.peer with inbox := (n r.peer).inbox ++ (n r).reply } := by
  rw [reply] at h
  by_cases hreply : (n r).reply = []
  · simp [hreply] at h
  · obtain rfl : _ = n' := by simpa only [hreply, if_false, Option.some.injEq] using h
    exact ⟨by simp, by simp⟩

end Net

end Threads

end P2PShare
