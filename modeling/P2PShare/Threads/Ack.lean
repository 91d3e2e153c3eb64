import P2PShare.Lib.Outbox
import P2PShare.Threads.Basic

/-!
ACKs and the log. An ACK for one op drops every op up to its number, so what it
drops has been processed only if ops reach the wire in the order of their
numbers.

* `outbox x y` (**the abstraction**): the ops of one tracker on their way to the
  other, as an outbox.
* `InTurn`: a thread writes an op to the link only when every older op still in
  the log has been processed by the peer or is ahead of it on the link.
* `Sound` (**the invariant**), seen from each of the trackers, with its step
  lemmas.
* `trimmed_processed`: in the runs in which every op is sent in turn, an op that
  an ACK drops from the log has been processed; `sent_out_of_turn` is a run that
  is not one of them.
-/

namespace P2PShare

namespace Threads

/-- The messages of these frames. -/
abbrev msgs (frames : List Frame) : List SyncMsg := frames.map Frame.msg

/-- The ops that the frames on their way to a tracker bring it. A client session
has no use for them. -/
def Node.coming (y : Node) : List Op := if y.phase = .client then [] else opsIn (msgs y.inbox)

/-- **The abstraction**: the ops of the tracker `x` on their way to `y`. -/
def outbox (x y : Node) : Outbox Op where
  issued := x.recorded.map Prod.fst
  log := x.server.tracker.log
  next := x.server.tracker.nextSeq
  done := y.processed
  mark := y.server.tracker.appliedPeerSeq
  queue := y.coming
  acks := acksIn (msgs x.inbox) ++ acksIn (msgs y.reply)
  asks := asksIn (msgs x.inbox) ++ asksIn y.phase.pending

/-- **The invariant** of one tracker and its peer: the outbox is in order and
tight; what threads of the tracker are about to write are recorded ops; an
answer that is about to be sent fits what is on its way. -/
structure Sound (x y : Node) : Prop where
  ok : (outbox x y).Ok Op.seq
  tight : (outbox x y).Tight Op.seq
  tasks : ∀ fd op changes, Task.send fd op changes ∈ x.tasks → op ∈ x.recorded.map Prod.fst
  batch : InOrder Op.seq (x.recorded.map Prod.fst) y.processed (opsIn (msgs x.reply))
  resent : ∀ op ∈ opsIn (msgs x.reply), op ∈ x.recorded.map Prod.fst
  pending : ∀ m ∈ x.phase.pending, m.type = .syncSnapshotRequest ∨ m.type = .syncCatchup
  answer : ∀ f ∈ x.reply, f.msg.type ≠ .syncCatchup

namespace Sound

variable {H : Str → Str} {x y : Node}

/-! ### Clients -/

/-- A client event of the tracker changes its state only. -/
lemma client (h : Sound x y) (r : Role) (ev : ClientEvent) :
    Sound { x with
      server := (x.server.apply H ev).2
      tasks := x.tasks ++ (x.server.apply H ev).1.toList.map fun rep =>
        .record rep ev.now (x.change H r ev)
      changes := x.changes ++ x.change H r ev
      made := x.made + (x.change H r ev).length } y := by
  obtain ⟨s', -, htracker⟩ := Server.apply_applied H x.server ev
  refine { h with ok := ?_, tight := ?_, tasks := fun fd op changes hmem => ?_ }
  · simpa [outbox, htracker] using h.ok
  · simpa [outbox, htracker] using h.tight
  · refine h.tasks fd op changes ?_
    simpa using hmem

/-- A client event of the peer. -/
lemma peer_client (h : Sound x y) (r : Role) (ev : ClientEvent) :
    Sound x { y with
      server := (y.server.apply H ev).2
      tasks := y.tasks ++ (y.server.apply H ev).1.toList.map fun rep =>
        .record rep ev.now (y.change H r ev)
      changes := y.changes ++ y.change H r ev
      made := y.made + (y.change H r ev).length } := by
  obtain ⟨s', -, htracker⟩ := Server.apply_applied H y.server ev
  refine { h with ok := ?_, tight := ?_ }
  · simpa [outbox, Node.coming, htracker] using h.ok
  · simpa [outbox, Node.coming, htracker] using h.tight

/-- A task is taken off the list. -/
lemma mem_of_eraseIdx {i : ℕ} {task : Task} {tasks : List Task} (h : task ∈ tasks.eraseIdx i) :
    task ∈ tasks := List.eraseIdx_subset h

/-- The op of a request is recorded: the outbox emits it without sending it. -/
lemma record (h : Sound x y) (i : ℕ) (rep : UInt16 × Str) (now : UInt64)
    (changes : List Change) :
    Sound { x with
      server := (x.server.record rep now).2
      tasks := x.tasks.eraseIdx i ++
        if x.phase.linked then [Task.send x.fd (x.server.record rep now).1 changes] else []
      recorded := x.recorded ++ [((x.server.record rep now).1, changes)] } y := by
  have hout : ∀ {tasks : List Task}, outbox { x with
      server := (x.server.record rep now).2
      tasks := tasks
      recorded := x.recorded ++ [((x.server.record rep now).1, changes)] } y
        = (outbox x y).emit (x.server.record rep now).1 false := by
    intro tasks
    simp [outbox, Outbox.emit, Server.record, Tracker.record]
  have hseq : (x.server.record rep now).1.seq = (outbox x y).next := rfl
  refine { h with ok := ?_, tight := ?_, tasks := ?_, batch := ?_, resent := ?_ }
  · rw [hout]
    exact h.ok.emit hseq (fun hsent => by cases hsent) fun _ => h.tight.mark_lt
  · rw [hout]
    exact h.tight.emit hseq false
  · intro fd op ch hmem
    rw [List.map_append, List.mem_append]
    rcases List.mem_append.mp hmem with hmem | hmem
    · exact .inl (h.tasks fd op ch (mem_of_eraseIdx hmem))
    · split at hmem
      · cases List.mem_singleton.mp hmem
        exact .inr List.mem_cons_self
      · cases hmem
  · rw [List.map_append]
    exact h.batch.issue fun op hop => h.ok.below op (h.resent op hop)
  · intro op hop
    rw [List.map_append]
    exact List.mem_append_left _ (h.resent op hop)

/-- The peer records an op. -/
lemma peer_record (h : Sound x y) (i : ℕ) (rep : UInt16 × Str) (now : UInt64)
    (changes : List Change) (next : List Task) :
    Sound x { y with
      server := (y.server.record rep now).2
      tasks := y.tasks.eraseIdx i ++ next
      recorded := y.recorded ++ [((y.server.record rep now).1, changes)] } :=
  { h with }

/-! ### Writing to the link -/

/-- Frames on their way to the peer: their ops are recorded and fit what is
already on its way. -/
lemma post (h : Sound x y) {frames : List Frame}
    (hsub : ∀ op ∈ opsIn (msgs frames), op ∈ x.recorded.map Prod.fst)
    (hord : InOrder Op.seq (x.recorded.map Prod.fst) (y.processed ++ y.coming)
      (opsIn (msgs frames))) :
    Sound x { y with inbox := y.inbox ++ frames } := by
  have hout : outbox x { y with inbox := y.inbox ++ frames } = outbox x y ∨
      outbox x { y with inbox := y.inbox ++ frames } = (outbox x y).push (opsIn (msgs frames)) := by
    by_cases hclient : y.phase = .client
    · exact .inl (by simp [outbox, Node.coming, hclient])
    · exact .inr (by simp [outbox, Node.coming, hclient, Outbox.push, msgs])
  rcases hout with heq | heq
  · exact { h with ok := heq ▸ h.ok, tight := heq ▸ h.tight }
  · exact { h with
      ok := heq ▸ h.ok.push hsub hord
      tight := heq ▸ ⟨h.tight.marked, h.tight.mark_lt⟩ }

/-- Frames on their way to the tracker that bring neither ACKs nor catch-up
requests. -/
lemma peer_post (h : Sound x y) {frames : List Frame} (hacks : acksIn (msgs frames) = [])
    (hasks : asksIn (msgs frames) = []) : Sound { x with inbox := x.inbox ++ frames } y := by
  have hout : outbox { x with inbox := x.inbox ++ frames } y = outbox x y := by
    simp [outbox, msgs, hacks, hasks]
  exact { h with ok := hout ▸ h.ok, tight := hout ▸ h.tight }

/-- A thread writes an op to the link, or to a descriptor that is not it. -/
lemma send (h : Sound x y) {i : ℕ} {fd : ℕ} {op : Op} {changes : List Change} {sent : List Frame}
    (htask : Task.send fd op changes ∈ x.tasks)
    (hsent : sent = [] ∨ sent = [⟨.op op, changes⟩] ∧
      ∀ op' ∈ x.server.tracker.log, op'.seq < op.seq →
        op' ∈ y.processed ∨ op' ∈ opsIn (msgs y.inbox)) :
    Sound { x with tasks := x.tasks.eraseIdx i } { y with inbox := y.inbox ++ sent } := by
  have hx : Sound { x with tasks := x.tasks.eraseIdx i } y :=
    { h with tasks := fun fd' op' ch hmem => h.tasks fd' op' ch (mem_of_eraseIdx hmem) }
  have hop : op ∈ x.recorded.map Prod.fst := h.tasks fd op changes htask
  rcases hsent with rfl | ⟨rfl, hturn⟩
  · exact hx.post (fun op' hmem => by cases hmem) trivial
  · by_cases hclient : y.phase = .client
    · have hout : outbox { x with tasks := x.tasks.eraseIdx i }
          { y with inbox := y.inbox ++ [⟨.op op, changes⟩] } = outbox x y := by
        simp [outbox, Node.coming, hclient]
      exact { hx with ok := hout ▸ h.ok, tight := hout ▸ h.tight }
    · refine hx.post (fun op' hmem => ?_) ⟨fun op' hop' hlt => ?_, trivial⟩
      · obtain rfl : op' = op := by simpa using hmem
        exact hop
      · rw [List.mem_append, Node.coming, if_neg hclient]
        rcases h.ok.kept op' hop' with hlog | hdone
        · exact hturn op' hlog hlt
        · exact .inl hdone

/-- The answer of the reading thread is sent. -/
lemma reply (h : Sound x y) :
    Sound { x with reply := [] } { y with inbox := y.inbox ++ x.reply } := by
  have hpost := h.post h.resent (h.batch.mono fun op hop => List.mem_append_left _ hop)
  exact { hpost with
    batch := trivial
    resent := fun op hop => by cases hop
    answer := fun f hf => by cases hf }

/-- The peer sends its answer, which is no catch-up request. -/
lemma peer_reply (h : Sound x y) (hanswer : ∀ f ∈ y.reply, f.msg.type ≠ .syncCatchup) :
    Sound { x with inbox := x.inbox ++ y.reply } { y with reply := [] } := by
  have hnone : asksIn (msgs y.reply) = [] := by
    refine List.eq_nil_iff_forall_not_mem.mpr fun n hn => ?_
    obtain ⟨f, hf, hmsg⟩ := List.mem_map.mp (mem_asksIn.mp hn)
    exact hanswer f hf (by rw [hmsg]; rfl)
  have hout : outbox { x with inbox := x.inbox ++ y.reply } { y with reply := [] }
      = outbox x y := by
    simp [outbox, Node.coming, msgs, hnone, acksIn]
  exact { h with ok := hout ▸ h.ok, tight := hout ▸ h.tight }

/-! ### Setting up the link -/

/-- The catch-up request that a new link may make a tracker send starts from its
mark. -/
lemma asksIn_request (x : Node) (r : Role) :
    asksIn (x.request r) = [] ∨ asksIn (x.request r) = [x.server.tracker.appliedPeerSeq] := by
  cases r with
  | dialer =>
      change asksIn [x.server.tracker.dialRequest] = [] ∨
        asksIn [x.server.tracker.dialRequest] = [x.server.tracker.appliedPeerSeq]
      rw [Tracker.dialRequest]
      split
      · exact .inl rfl
      · exact .inr rfl
  | acceptor =>
      left
      change asksIn x.server.tracker.acceptRequest = []
      rw [Tracker.acceptRequest]
      split <;> rfl


/-- The frames of messages of a tracker are those messages. -/
@[simp] lemma msgs_frame (x : Node) (l : List SyncMsg) : msgs (l.map x.frame) = l := by
  induction l with
  | nil => rfl
  | cons m l ih => exact congrArg (m :: ·) ih

/-- The tracker moves on in setting up its end. -/
lemma phase (h : Sound x y) {p : Phase}
    (hpend : ∀ m ∈ p.pending, m.type = .syncSnapshotRequest ∨ m.type = .syncCatchup) :
    Sound { x with phase := p } y :=
  { h with pending := hpend }

/-- The peer moves on in setting up its end, and may be about to ask. -/
lemma peer_phase (h : Sound x y) {p : Phase} (hold : y.phase ≠ .client)
    (hnew : p ≠ .client) (hask : asksIn p.pending = asksIn y.phase.pending ∨
      asksIn y.phase.pending = [] ∧ asksIn p.pending = [y.server.tracker.appliedPeerSeq]) :
    Sound x { y with phase := p } := by
  rcases hask with heq | ⟨hnone, hmark⟩
  · have hout : outbox x { y with phase := p } = outbox x y := by
      simp [outbox, Node.coming, hold, hnew, heq]
    exact { h with ok := hout ▸ h.ok, tight := hout ▸ h.tight }
  · have hout : outbox x { y with phase := p } = (outbox x y).ask := by
      simp [outbox, Outbox.ask, Node.coming, hold, hnew, hnone, hmark]
    exact { h with ok := hout ▸ h.ok.ask, tight := hout ▸ ⟨h.tight.marked, h.tight.mark_lt⟩ }

/-- The tracker sends its hello. -/
lemma hello (h : Sound x y) (index : UInt8) :
    Sound { x with phase := .choose } { y with inbox := y.inbox ++ [x.frame (.hello index)] } :=
  (h.phase (p := .choose) fun m hm => by cases hm).post (fun op hop => by cases hop) trivial

/-- The peer sends its hello. -/
lemma peer_hello (h : Sound x y) (hphase : y.phase = .hello) (index : UInt8) :
    Sound { x with inbox := x.inbox ++ [y.frame (.hello index)] } { y with phase := .choose } :=
  (h.peer_phase (p := .choose) (by simp [hphase]) (by simp)
    (.inl (by rw [hphase]; rfl))).peer_post rfl rfl

/-- The tracker sends its request. -/
lemma ask (h : Sound x y) {request : List SyncMsg} (hphase : x.phase = .ask request) :
    Sound { x with phase := .up } { y with inbox := y.inbox ++ request.map x.frame } := by
  have hnone : opsIn (msgs (request.map x.frame)) = [] := by
    rw [msgs_frame]
    refine List.eq_nil_iff_forall_not_mem.mpr fun op hop => ?_
    have htype := h.pending (.op op) (by rw [hphase]; exact mem_opsIn.mp hop)
    simp [SyncMsg.type] at htype
  refine (h.phase (p := .up) fun m hm => by cases hm).post ?_ ?_
  · rw [hnone]
    exact fun op hop => by cases hop
  · rw [hnone]
    trivial

/-- The peer sends its request. -/
lemma peer_ask (h : Sound x y) {request : List SyncMsg} (hphase : y.phase = .ask request)
    (hpend : ∀ m ∈ request, m.type = .syncSnapshotRequest ∨ m.type = .syncCatchup) :
    Sound { x with inbox := x.inbox ++ request.map y.frame } { y with phase := .up } := by
  have hacks : acksIn request = [] := by
    refine List.eq_nil_iff_forall_not_mem.mpr fun n hn => ?_
    have htype := hpend (.ack n) (mem_acksIn.mp hn)
    simp [SyncMsg.type] at htype
  have hout : outbox { x with inbox := x.inbox ++ request.map y.frame } { y with phase := .up }
      = outbox x y := by
    have hmsgs : msgs (x.inbox ++ request.map y.frame) = msgs x.inbox ++ request := by
      rw [msgs, List.map_append]
      exact congrArg _ (msgs_frame y request)
    simp [outbox, Node.coming, hphase, hmsgs, hacks, Phase.pending, asksIn]
  exact { h with ok := hout ▸ h.ok, tight := hout ▸ h.tight }

/-! ### Reading from the link -/

/-- The outbox once the tracker has read a frame. -/
def after (o : Outbox Op) (rest : List Frame) (y : Node) : Outbox Op :=
  { o with
    acks := acksIn (msgs rest) ++ acksIn (msgs y.reply)
    asks := asksIn (msgs rest) ++ asksIn y.phase.pending }

/-- Reading a frame loses no more than its number. -/
lemma ok_after {o : Outbox Op} (hok : o.Ok Op.seq) {f : Frame} {rest : List Frame}
    (hinbox : x.inbox = f :: rest) (hacks : o.acks = (outbox x y).acks)
    (hasks : o.asks = (outbox x y).asks) : (after o rest y).Ok Op.seq := by
  have hsub : ∀ m ∈ msgs rest, m ∈ msgs x.inbox := fun m hm => by
    rw [hinbox]
    exact List.mem_cons_of_mem f.msg hm
  refine hok.forget (fun n hn => ?_) fun n hn => ?_
  · rw [hacks]
    rcases List.mem_append.mp hn with hn | hn
    · exact List.mem_append_left _ (mem_acksIn.mpr (hsub _ (mem_acksIn.mp hn)))
    · exact List.mem_append_right _ hn
  · rw [hasks]
    rcases List.mem_append.mp hn with hn | hn
    · exact List.mem_append_left _ (mem_asksIn.mpr (hsub _ (mem_asksIn.mp hn)))
    · exact List.mem_append_right _ hn

/-- The tracker reads a frame that it has no use for. -/
lemma skip (h : Sound x y) {f : Frame} {rest : List Frame} (hinbox : x.inbox = f :: rest) :
    Sound { x with inbox := rest } y :=
  { h with
    ok := ok_after (x := x) h.ok hinbox rfl rfl
    tight := ⟨h.tight.marked, h.tight.mark_lt⟩ }

/-- The tracker processes a message: an ACK trims its log, a catch-up request
makes its answer. -/
lemma process (h : Sound x y) {f : Frame} {rest : List Frame}
    (hinbox : x.inbox = f :: rest) : Sound (x.process H f rest) y := by
  have hmem : f.msg ∈ msgs x.inbox := by
    rw [hinbox]
    exact List.mem_cons_self
  -- the invariant, from the outbox after the message and the ops in its answer
  have hsides : ∀ {o : Outbox Op}, o.Ok Op.seq → o.Tight Op.seq → o.acks = (outbox x y).acks →
      o.asks = (outbox x y).asks → outbox (x.process H f rest) y = after o rest y →
      InOrder Op.seq (x.recorded.map Prod.fst) y.processed
        (opsIn (x.server.tracker.process H f.msg).1) →
      (∀ op ∈ opsIn (x.server.tracker.process H f.msg).1, op ∈ x.recorded.map Prod.fst) →
      Sound (x.process H f rest) y := by
    intro o hok htight hacks hasks hout hbatch hresent
    have hmsgs : msgs (x.process H f rest).reply = (x.server.tracker.process H f.msg).1 :=
      msgs_frame x _
    refine ⟨hout ▸ ok_after (x := x) hok hinbox hacks hasks,
      hout ▸ ⟨htight.marked, htight.mark_lt⟩, h.tasks, ?_, ?_, h.pending, fun f' hf' => ?_⟩
    · rw [hmsgs]
      exact hbatch
    · rw [hmsgs]
      exact hresent
    · obtain ⟨m, hm, rfl⟩ := List.mem_map.mp hf'
      rcases Tracker.answer_cases hm with ⟨n, -, op, -, rfl⟩ | ⟨op, -, rfl⟩ | ⟨-, rfl⟩ <;>
        exact fun htype => by cases htype
  cases hmsg : f.msg with
  | ack n =>
      have hn : n ∈ (outbox x y).acks :=
        List.mem_append_left _ (mem_acksIn.mpr (hmsg ▸ hmem))
      refine hsides (h.ok.trim hn) ⟨h.tight.marked, h.tight.mark_lt⟩ rfl rfl ?_ ?_ ?_
      · simp [outbox, after, Node.process, hmsg, Outbox.trim, Tracker.process, Tracker.trim]
      · simp [hmsg, Tracker.process, InOrder]
      · simp [hmsg, Tracker.process]
  | catchup n =>
      have hn : n ∈ (outbox x y).asks :=
        List.mem_append_left _ (mem_asksIn.mpr (hmsg ▸ hmem))
      -- the answer is what the log has above the number
      have habove : opsIn (x.server.tracker.process H f.msg).1 = (outbox x y).above Op.seq n := by
        simp [hmsg, Tracker.process, Tracker.catchupFrom, Outbox.above, outbox]
      refine hsides h.ok h.tight rfl rfl ?_ ?_ ?_
      · simp [outbox, after, Node.process, hmsg, Tracker.process]
      · rw [habove]
        exact h.tight.inOrder_above h.ok hn
      · rw [habove]
        exact fun op hop => h.ok.mem_issued_of_above hop
  | hello | op | snapshotRequest | snapshotData =>
      refine hsides h.ok h.tight rfl rfl ?_ ?_ ?_
      · simp [outbox, after, Node.process, hmsg, Tracker.process, Tracker.applyOp]
      · simp [hmsg, Tracker.process, opsIn_cons, SyncMsg.asOp, InOrder]
      · simp [hmsg, Tracker.process, opsIn_cons, SyncMsg.asOp]

/-- The peer processes a message: an op arrives. -/
lemma peer_process (h : Sound x y) (hup : y.phase = .up) (hreply : y.reply = []) {f : Frame}
    {rest : List Frame} (hinbox : y.inbox = f :: rest) : Sound x (y.process H f rest) := by
  have hmsgs : msgs (y.process H f rest).reply = (y.server.tracker.process H f.msg).1 :=
    msgs_frame y _
  have hcoming : ∀ y' : Node, y'.phase = .up → y'.coming = opsIn (msgs y'.inbox) :=
    fun y' hy' => by simp [Node.coming, hy']
  have hphase : (y.process H f rest).phase = .up := hup
  have hqueue : y.coming = f.msg.asOp.toList ++ opsIn (msgs rest) := by
    rw [hcoming y hup, hinbox]
    exact opsIn_cons (msgs rest) f.msg
  cases hmsg : f.msg with
  | op op =>
      have hout : outbox x (y.process H f rest) = (outbox x y).arrive Op.seq op (opsIn (msgs rest))
          (applyRemote H y.server.tracker.state op).1 := by
        rw [outbox, hcoming _ hphase, hmsgs]
        simp [outbox, Outbox.arrive, Node.process, hmsg, hreply, Tracker.process, Tracker.applyOp,
          SyncMsg.asOp, acksIn, SyncMsg.asAck]
      rw [hmsg] at hqueue
      exact { h with
        ok := hout ▸ h.ok.arrive hqueue _
        tight := hout ▸ h.tight.arrive h.ok hqueue _
        batch := h.batch.mono fun op' hop' => List.mem_append_left _ hop' }
  | hello | catchup | ack | snapshotRequest | snapshotData =>
      have hout : outbox x (y.process H f rest) = outbox x y := by
        rw [outbox, hcoming _ hphase, hmsgs]
        simp [outbox, hqueue, Node.process, hmsg, hreply, Tracker.process, Tracker.trim,
          SyncMsg.asOp, acksIn, SyncMsg.asAck]
      exact { h with
        ok := hout ▸ h.ok
        tight := hout ▸ h.tight
        batch := by simpa [Node.process, hmsg, SyncMsg.asOp] using h.batch }

/-- The peer takes the first frame for a hello and goes on to test whether it is
empty. -/
lemma peer_greeted (h : Sound x y) (hdown : y.phase = .down) {f : Frame} {rest : List Frame}
    (hinbox : y.inbox = f :: rest) (hhello : f.msg.type = .syncHello) :
    Sound x { y with phase := .choose, inbox := rest } := by
  have hnone : f.msg.asOp = none := by
    cases hmsg : f.msg <;> simp [hmsg, SyncMsg.type, SyncMsg.asOp] at hhello ⊢
  have hout : outbox x { y with phase := .choose, inbox := rest } = outbox x y := by
    simp [outbox, Node.coming, hdown, hinbox, opsIn_cons, hnone, Phase.pending]
  exact { h with ok := hout ▸ h.ok, tight := hout ▸ h.tight }

/-- The peer makes a client session of the connection, and everything on its way
there is lost. -/
lemma peer_mistaken (h : Sound x y) (hpend : y.phase.pending = []) (rest : List Frame) :
    Sound x { y with phase := .client, inbox := rest } := by
  have hout : outbox x { y with phase := .client, inbox := rest }
      = { outbox x y with queue := [] } := by
    simp [outbox, Node.coming, hpend]
    rfl
  exact { h with
    ok := hout ▸ h.tight.lose h.ok
    tight := hout ▸ ⟨h.tight.marked, h.tight.mark_lt⟩ }

/-! ### The link -/

/-- The descriptors of a new link. -/
lemma dial (h : Sound x y) (fd fd' : ℕ) :
    Sound { x with phase := .hello, fd := fd } { y with fd := fd' } :=
  { h with pending := fun m hm => by cases hm }

/-- The peer connects. -/
lemma peer_dial (h : Sound x y) (hy : y.phase = .down) (fd fd' : ℕ) :
    Sound { x with fd := fd } { y with phase := .hello, fd := fd' } :=
  { h.peer_phase (p := .hello) (by simp [hy]) (by simp) (.inl (by rw [hy]; rfl)) with }

/-- The link is lost, with everything on it. -/
lemma drop (h : Sound x y) : Sound x.cut y.cut := by
  have hout : outbox x.cut y.cut = (outbox x y).cut := by
    simp [outbox, Outbox.cut, Node.cut, Node.coming, Phase.pending, acksIn, asksIn]
  refine ⟨?_, ?_, h.tasks, trivial, fun op hop => (by cases hop), fun m hm => (by cases hm),
    fun f hf => (by cases hf)⟩
  · exact hout ▸ h.ok.cut fun op hop hle => h.tight.marked op (h.ok.sent op hop) hle
  · exact hout ▸ ⟨h.tight.marked, h.tight.mark_lt⟩

/-- Two trackers that have just started. -/
lemma start : Sound .start .start where
  ok := .blank 1 0
  tight := ⟨fun op hop => (by cases hop), Nat.zero_lt_one⟩
  tasks fd op changes h := by cases h
  batch := trivial
  resent op h := by cases h
  pending m h := by cases h
  answer f h := by cases h

end Sound

namespace Net

/-! ### Runs -/

/-- If this task writes an op to the link, every older op that is still in the
log has been processed by the peer or is ahead of it on the link. -/
def TaskInTurn (n : Net) (r : Role) : Task → Prop
  | .record .. => True
  | .send fd op _ => (n r).phase.linked = true → fd = (n r).fd →
      ∀ op' ∈ (n r).server.tracker.log, op'.seq < op.seq →
        op' ∈ (n r.peer).processed ∨ op' ∈ opsIn (msgs (n r.peer).inbox)

instance (n : Net) (r : Role) : ∀ task, Decidable (n.TaskInTurn r task)
  | .record .. => .isTrue trivial
  | .send .. => inferInstanceAs (Decidable (_ → _ → ∀ _ ∈ _, _ → _ ∨ _))

/-- **The condition**: ops are written to the link in turn. -/
def InTurn (n : Net) : Event → Prop
  | .work r i => ∀ task ∈ (n r).tasks[i]?, n.TaskInTurn r task
  | .client .. | .dial _ | .advance _ | .deliver _ | .reply _ | .drop => True

instance (n : Net) : ∀ e, Decidable (n.InTurn e)
  | .work .. => inferInstanceAs (Decidable (∀ _ ∈ _, _))
  | .client .. | .dial _ | .advance _ | .deliver _ | .reply _ | .drop => .isTrue trivial

variable {H : Str → Str} {n n' : Net}

/-- The invariant of the two trackers. -/
def AllSound (n : Net) : Prop := ∀ r, Sound (n r) (n r.peer)

/-- It is enough to look at a tracker and its peer. -/
lemma allSound_of {r : Role} {x y : Node} (hx : n r = x) (hy : n r.peer = y) (h : Sound x y)
    (h' : Sound y x) : n.AllSound := by
  refine Role.forall_of_peer r ?_ ?_
  · rw [hx, hy]
    exact h
  · rw [Role.peer_peer, hx, hy]
    exact h'

namespace AllSound

lemma work (h : n.AllSound) {r : Role} {i : ℕ} (hturn : n.InTurn (.work r i))
    (hstep : n.work r i = some n') : n'.AllSound := by
  have hx : Sound (n r) (n r.peer) := h r
  have hy : Sound (n r.peer) (n r) := by simpa using h r.peer
  rcases work_cases hstep with
    ⟨rep, now, changes, htask, hpeer, hself⟩ | ⟨fd, op, changes, htask, hself, hpeer⟩
  · exact allSound_of hself hpeer (hx.record i rep now changes) (hy.peer_record i rep now changes _)
  · refine allSound_of hself hpeer (hx.send (List.mem_of_getElem? htask) ?_) ?_
    · split
      · next hlive =>
          exact .inr ⟨rfl, hturn _ htask hlive.1 hlive.2⟩
      · exact .inl rfl
    · have hy' : Sound (n r.peer) { n r with tasks := (n r).tasks.eraseIdx i } := { hy with }
      split
      · exact hy'.peer_post rfl rfl
      · exact hy'.peer_post rfl rfl

lemma advance (h : n.AllSound) {r : Role} (hstep : n.advance r = some n') : n'.AllSound := by
  have hx : Sound (n r) (n r.peer) := h r
  have hy : Sound (n r.peer) (n r) := by simpa using h r.peer
  rcases advance_cases hstep with
    ⟨hphase, hself, hpeer⟩ | ⟨hphase, hself, hpeer⟩ | ⟨request, hphase, hself, hpeer⟩
  · exact allSound_of hself hpeer (hx.hello r.index) (hy.peer_hello hphase r.index)
  · refine allSound_of hself hpeer (hx.phase fun _ => (n r).type_of_mem_request r)
      (hy.peer_phase (by simp [hphase]) (by simp) ?_)
    rcases Sound.asksIn_request (n r) r with hnone | hmark
    · exact .inl (by rw [hphase]; exact hnone)
    · exact .inr ⟨by rw [hphase]; rfl, hmark⟩
  · refine allSound_of hself hpeer (hx.ask hphase) (hy.peer_ask hphase fun m hm => ?_)
    exact hx.pending m (by rw [hphase]; exact hm)

lemma deliver (h : n.AllSound) {r : Role} (hstep : n.deliver H r = some n') : n'.AllSound := by
  have hx : Sound (n r) (n r.peer) := h r
  have hy : Sound (n r.peer) (n r) := by simpa using h r.peer
  obtain ⟨f, rest, hinbox, -, hreply, hpeer, hcase⟩ := deliver_cases hstep
  rcases hcase with
    ⟨hup, hself⟩ | ⟨-, ⟨hdown, hhello, hself⟩ | ⟨hdown, -, hself⟩ | ⟨hclient, hself⟩⟩
  · exact allSound_of hself hpeer (hx.process hinbox) (hy.peer_process hup hreply hinbox)
  · exact allSound_of hself hpeer ((hx.skip hinbox).phase fun m hm => by cases hm)
      (hy.peer_greeted hdown hinbox hhello)
  · exact allSound_of hself hpeer ((hx.skip hinbox).phase fun m hm => by cases hm)
      (hy.peer_mistaken (by rw [hdown]; rfl) rest)
  · refine allSound_of (x := { n r with phase := .client, inbox := rest }) ?_ hpeer
      ((hx.skip hinbox).phase fun m hm => by cases hm)
      (hy.peer_mistaken (by rw [hclient]; rfl) rest)
    rw [hself, ← hclient]

lemma reply (h : n.AllSound) {r : Role} (hstep : n.reply r = some n') : n'.AllSound := by
  have hx : Sound (n r) (n r.peer) := h r
  have hy : Sound (n r.peer) (n r) := by simpa using h r.peer
  obtain ⟨hself, hpeer⟩ := reply_cases hstep
  exact allSound_of hself hpeer hx.reply (hy.peer_reply hx.answer)

/-- **The step lemma.** -/
theorem step (h : n.AllSound) {e : Event} (hturn : n.InTurn e) (hstep : n.step H e = some n') :
    n'.AllSound := by
  cases e with
  | client r ev =>
      obtain rfl : n.client H r ev = n' := Option.some.inj hstep
      have hx : Sound (n r) (n r.peer) := h r
      have hy : Sound (n r.peer) (n r) := by simpa using h r.peer
      exact allSound_of (n.set_self r _) (n.set_peer r _) (hx.client r ev) (hy.peer_client r ev)
  | work r i => exact h.work hturn hstep
  | dial fd =>
      rw [Net.step] at hstep
      split at hstep
      · next hdown =>
          obtain rfl := Option.some.inj hstep
          exact allSound_of (r := .dialer) rfl rfl ((h .dialer).dial _ _)
            ((h .acceptor).peer_dial hdown _ _)
      · cases hstep
  | advance r => exact h.advance hstep
  | deliver r => exact h.deliver hstep
  | reply r => exact h.reply hstep
  | drop =>
      rw [Net.step] at hstep
      split at hstep
      · cases hstep
      · obtain rfl := Option.some.inj hstep
        exact fun r => (h r).drop

end AllSound

/-- Two trackers that have just started. -/
def start : Net := fun _ => .start

/-- **What an ACK drops from the log has been processed**, in runs in which every
op is written in turn. -/
theorem trimmed_processed (h : Run (step H) InTurn start n) {r : Role}
    (hstep : n.step H (.deliver r) = some n') {op : Op} (hop : op ∈ (n r).server.tracker.log)
    (hgone : op ∉ (n' r).server.tracker.log) : op ∈ (n r.peer).processed := by
  have hsound : n.AllSound := h.invariant (fun _ => .start) fun hI hok hstep => hI.step hok hstep
  have hsound' : n'.AllSound := hsound.step (e := .deliver r) trivial hstep
  obtain ⟨f, rest, -, -, -, hpeer, hcase⟩ := deliver_cases hstep
  have hrecorded : (n' r).recorded = (n r).recorded := by
    rcases hcase with ⟨-, hself⟩ | ⟨-, ⟨-, -, hself⟩ | ⟨-, -, hself⟩ | ⟨-, hself⟩⟩ <;>
      simp [hself, Node.process]
  have hissued : op ∈ (outbox (n' r) (n' r.peer)).issued := by
    change op ∈ (n' r).recorded.map Prod.fst
    rw [hrecorded]
    exact (hsound r).ok.logged op hop
  rcases (hsound' r).ok.kept op hissued with hlog | hdone
  · exact absurd hlog hgone
  · rwa [outbox, hpeer] at hdone

/-- The steps that set up a link between two empty trackers, and the snapshots
they exchange. -/
def linking : List Event :=
  [.dial fun _ => 3, .advance .dialer, .deliver .acceptor, .advance .dialer, .advance .dialer,
    .advance .acceptor, .advance .acceptor, .deliver .acceptor, .reply .acceptor, .deliver .dialer,
    .reply .dialer, .deliver .dialer, .deliver .acceptor]

/-- A client connects to tracker 0 and registers a user there. -/
def newcomer (fd : ℕ) (uid : Str) : List Event :=
  [.client .dialer (.connect fd [4] peerIp_fits),
    .client .dialer (.request fd MsgType.createUser.code (putStr uid ++ putStr [2]) 0)]

theorem trimmed_processed_newcomer :
    let n := (exec (step id) start (linking ++ newcomer 7 [8] ++
      [.work .dialer 0, .work .dialer 0, .deliver .acceptor, .reply .acceptor])).get
      (by decide +kernel)
    ⟨1, MsgType.createUser.code, putStr [8] ++ putStr [2], 0⟩ ∈ (n .acceptor).processed :=
  trimmed_processed (H := id) (r := .dialer)
    (Run.of_exec (by decide +kernel) (Option.some_get _).symm)
    (Option.some_get (by decide +kernel)).symm (by decide +kernel) (by decide +kernel)

/-- **Two ops that are not written in turn**: the sessions of two clients record
op 1 and op 2 and write op 2 first. The ACK for it drops op 1, which has not been
written yet. -/
theorem sent_out_of_turn :
    ∃ n n' : Net, Run (step id) (fun _ _ => True) start n ∧ n.step id (.deliver .dialer) = some n' ∧
      ∃ op ∈ (n .dialer).server.tracker.log, op ∉ (n' .dialer).server.tracker.log ∧
        op ∉ (n .acceptor).processed := by
  let n := (exec (step id) start (linking ++ newcomer 7 [8] ++ newcomer 6 [9] ++
    [.work .dialer 0, .work .dialer 0, .work .dialer 1, .deliver .acceptor, .reply .acceptor])).get
    (by decide +kernel)
  have hrun : Run (step id) (fun _ _ => True) start n :=
    Run.of_exec (meets_of_forall (p := fun _ => True) (fun _ _ => trivial) start)
      (Option.some_get _).symm
  exact ⟨n, (n.step id (.deliver .dialer)).get (by decide +kernel), hrun,
    (Option.some_get _).symm, by decide +kernel⟩

end Net

end Threads

end P2PShare
