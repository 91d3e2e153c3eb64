import P2PShare.Lib.Runs
import P2PShare.Pair.Basic

/-!
Tracker 0 thread by thread: the sessions of its clients and
`SyncManager::connect_loop`.

* `Host`, `Host.step`: a session changes the state, records its op under
  `__mu_lock` and writes it under `__send_mu` in three steps; `connect_loop`
  connects, publishes the descriptor, sends its hello, tests whether the state is
  empty, sends its request and reads from the link.
* `Greets` (**the invariant of the link**) and `first_frame_hello`: the first
  frame on a link is the hello if no session writes to it before. `op_first` is a
  run in which one does.
* `Ordered` (**the invariant of the log**) and `log_in_order`: the log has the
  order of the changes if sessions record in that order. `recorded_later` is a
  run in which two do not.
-/

namespace P2PShare

namespace Threads

/-- A session that has changed the state, as the `turn`-th, and is about to
record it. -/
structure Waiting where
  turn : ℕ
  rep : UInt16 × Str
  now : UInt64
deriving DecidableEq

/-- A session that has recorded an op and is about to write it to the descriptor
that it has read from `__out_fd`. -/
structure Sending where
  fd : ℕ
  op : Op
deriving DecidableEq

/-- Where `connect_loop` is; `fd` is its local variable. -/
inductive Loop
  /-- About to connect. -/
  | dial
  /-- About to store the descriptor in `__out_fd`. -/
  | publish (fd : ℕ)
  /-- About to send the hello. -/
  | greet (fd : ℕ)
  /-- About to test whether the state is empty. -/
  | choose (fd : ℕ)
  /-- About to send the request that this test has led to. -/
  | ask (fd : ℕ) (request : SyncMsg)
  /-- Reading from the link. -/
  | receive (fd : ℕ)
deriving DecidableEq

/-- The link that was dialed: its descriptor and the frames written to it so
far. -/
structure Link where
  fd : ℕ
  written : List SyncMsg
deriving DecidableEq

/-- Tracker 0 with its threads. The history `recorded` has each op with the turn
of its change. -/
structure Host where
  server : Server
  outFd : Option ℕ
  loop : Loop
  link : Option Link
  waiting : List Waiting
  sending : List Sending
  turns : ℕ
  recorded : List (ℕ × Op)

/-- What the threads do next. -/
inductive Move
  | client (ev : ClientEvent)
  | record (i : ℕ)
  | send (i : ℕ)
  | connect (fd : ℕ)
  | advance
  | receive (m : SyncMsg)
  | lost

/-- What becomes of a new connection. -/
inductive Route
  /-- `handle_peer_connection` serves it. -/
  | peer
  /-- A client session serves it. -/
  | session
deriving DecidableEq

/-- The accept loop of the other tracker, by the first message of a
connection. -/
def route (m : SyncMsg) : Route := if m.type = .syncHello then .peer else .session

namespace Host

/-- A process that has just started. -/
def start : Host := ⟨.start, none, .dial, none, [], [], 0, []⟩

/-- A frame goes to the link if the descriptor is the link's. -/
def write (h : Host) (fd : ℕ) (m : SyncMsg) : Host :=
  { h with
    link := h.link.map fun l => if l.fd = fd then { l with written := l.written ++ [m] } else l }

/-- A client event up to `record_and_replicate`. -/
def client (H : Str → Str) (h : Host) (ev : ClientEvent) : Host :=
  let res := h.server.apply H ev
  match res.1 with
  | none => { h with server := res.2 }
  | some rep =>
      { h with
        server := res.2
        waiting := h.waiting ++ [⟨h.turns, rep, ev.now⟩]
        turns := h.turns + 1 }

/-- The locked part of `record_and_replicate`: the op is numbered and logged and
`__out_fd` is read. -/
def record (h : Host) (i : ℕ) : Option Host :=
  h.waiting[i]?.map fun w =>
    let res := h.server.record w.rep w.now
    { h with
      server := res.2
      waiting := h.waiting.eraseIdx i
      sending := h.sending ++ h.outFd.toList.map fun fd => ⟨fd, res.1⟩
      recorded := h.recorded ++ [(w.turn, res.1)] }

/-- `send_op_locked`. -/
def send (h : Host) (i : ℕ) : Option Host :=
  h.sending[i]?.map fun s =>
    { h with sending := h.sending.eraseIdx i }.write s.fd (.op s.op)

/-- The next step of `connect_loop` on a connection. -/
def advance (h : Host) : Option Host :=
  match h.loop with
  | .publish fd => some { h with outFd := some fd, loop := .greet fd }
  | .greet fd => some ({ h with loop := .choose fd }.write fd (.hello Role.dialer.index))
  | .choose fd => some { h with loop := .ask fd h.server.tracker.dialRequest }
  | .ask fd request => some ({ h with loop := .receive fd }.write fd request)
  | .dial | .receive _ => none

/-- `connect_loop` processes a message of the peer and writes its answers. -/
def receive (H : Str → Str) (h : Host) (m : SyncMsg) : Option Host :=
  match h.loop with
  | .receive fd =>
      let res := h.server.tracker.process H m
      some (res.1.foldl (fun h m => h.write fd m)
        { h with server := { h.server with tracker := res.2 } })
  | _ => none

/-- One step. A connection may get any descriptor, one that a session still
holds included. -/
def step (H : Str → Str) (h : Host) : Move → Option Host
  | .client ev => some (h.client H ev)
  | .record i => h.record i
  | .send i => h.send i
  | .connect fd =>
      if h.loop = .dial then some { h with loop := .publish fd, link := some ⟨fd, []⟩ } else none
  | .advance => h.advance
  | .receive m => h.receive H m
  | .lost =>
      match h.loop with
      | .receive _ => some { h with outFd := none, loop := .dial, link := none }
      | _ => none

variable {H : Str → Str} {h h' : Host}

/-! ### The first frame of a link -/

/-- **The condition for the link**: a session does not write to the descriptor of
a new link before `connect_loop` has sent its hello there. -/
def Awaits (h : Host) : Move → Prop
  | .send i => ∀ s ∈ h.sending[i]?, h.loop ≠ .publish s.fd ∧ h.loop ≠ .greet s.fd
  | .client _ | .record _ | .connect _ | .advance | .receive _ | .lost => True

instance (h : Host) : ∀ m, Decidable (h.Awaits m)
  | .send _ => inferInstanceAs (Decidable (∀ _ ∈ _, _ ∧ _))
  | .client _ | .record _ | .connect _ | .advance | .receive _ | .lost => .isTrue trivial

/-- **The invariant of the link**: nothing is written to it before the hello. -/
def Greets (h : Host) : Prop :=
  match h.loop with
  | .dial => h.link = none
  | .publish fd | .greet fd => h.link = some ⟨fd, []⟩
  | .choose fd | .ask fd _ | .receive fd =>
      ∃ w, h.link = some ⟨fd, .hello Role.dialer.index :: w⟩

/-- What is written once the hello has been sent comes behind it. -/
lemma Greets.write (hg : h.Greets) {fd : ℕ} {m : SyncMsg}
    (hfd : h.loop ≠ .publish fd ∧ h.loop ≠ .greet fd) : (h.write fd m).Greets := by
  have hloop : (h.write fd m).loop = h.loop := rfl
  rw [Greets] at hg ⊢
  rw [hloop]
  cases hl : h.loop with
  | dial =>
      rw [hl] at hg
      simp [Host.write, hg]
  | publish fd' | greet fd' =>
      rw [hl] at hg hfd
      have hne : fd' ≠ fd := by simpa using hfd
      simp [Host.write, hg, hne]
  | choose fd' | ask fd' | receive fd' =>
      rw [hl] at hg
      obtain ⟨w, hw⟩ := hg
      by_cases heq : fd' = fd
      · exact ⟨w ++ [m], by simp [Host.write, hw, heq]⟩
      · exact ⟨w, by simp [Host.write, hw, heq]⟩

/-- A step that neither writes nor moves `connect_loop`. -/
lemma Greets.of_eq (hg : h.Greets) (hloop : h'.loop = h.loop) (hlink : h'.link = h.link) :
    h'.Greets := by
  rw [Greets, hloop, hlink]
  exact hg

/-- Answers on a link that has been greeted. -/
lemma Greets.answers {fd : ℕ} (msgs : List SyncMsg) (hg : h.Greets) (hloop : h.loop = .receive fd) :
    (msgs.foldl (fun h m => h.write fd m) h).Greets := by
  induction msgs generalizing h with
  | nil => exact hg
  | cons m msgs ih => exact ih (hg.write (by simp [hloop])) hloop

/-- **The step lemma** for the link. -/
lemma Greets.step (hg : h.Greets) {m : Move} (hok : h.Awaits m) (hstep : h.step H m = some h') :
    h'.Greets := by
  cases m with
  | client ev =>
      obtain rfl : h.client H ev = h' := Option.some.inj hstep
      rw [client]
      split
      · exact hg.of_eq rfl rfl
      · exact hg.of_eq rfl rfl
  | record i =>
      obtain ⟨w, -, rfl⟩ := Option.map_eq_some_iff.mp hstep
      exact hg.of_eq rfl rfl
  | send i =>
      obtain ⟨s, hs, rfl⟩ := Option.map_eq_some_iff.mp hstep
      -- a session writes only after the hello: this is the condition
      have hrest : Greets { h with sending := h.sending.eraseIdx i } := hg.of_eq rfl rfl
      exact hrest.write (hok s hs)
  | connect fd =>
      rw [Host.step] at hstep
      split at hstep
      · obtain rfl := Option.some.inj hstep
        rfl
      · cases hstep
  | advance =>
      change h.advance = some h' at hstep
      rw [Greets] at hg
      rw [Host.advance] at hstep
      split at hstep
      · next fd hloop =>
          rw [hloop] at hg
          obtain rfl := Option.some.inj hstep
          exact hg
      · next fd hloop =>
          rw [hloop] at hg
          obtain rfl := Option.some.inj hstep
          -- the hello is the first frame that the thread writes
          exact ⟨[], by simp [Host.write, hg]⟩
      · next fd hloop =>
          rw [hloop] at hg
          obtain rfl := Option.some.inj hstep
          exact hg
      · next fd request hloop =>
          rw [hloop] at hg
          obtain rfl := Option.some.inj hstep
          have hrest : Greets { h with loop := .receive fd } := hg
          exact hrest.write (by simp)
      · cases hstep
      · cases hstep
  | receive m =>
      change h.receive H m = some h' at hstep
      rw [Host.receive] at hstep
      split at hstep
      · next fd hloop =>
          obtain rfl := Option.some.inj hstep
          exact Greets.answers _ (hg.of_eq rfl rfl) hloop
      · cases hstep
  | lost =>
      rw [Host.step] at hstep
      split at hstep
      · obtain rfl := Option.some.inj hstep
        rfl
      · cases hstep

/-- **The first frame of a link is the hello**, and the other tracker takes the
connection for its peer, in runs in which no session writes to it before. -/
theorem first_frame_hello (hrun : Run (step H) Awaits start h) {l : Link} (hl : h.link = some l)
    {m : SyncMsg} (hm : l.written.head? = some m) : m.type = .syncHello ∧ route m = .peer := by
  have hstart : start.Greets := rfl
  have hg : h.Greets := hrun.invariant hstart fun hI hok hstep => hI.step hok hstep
  have hhello : m.type = .syncHello := by
    rw [Greets] at hg
    cases hloop : h.loop with
    | dial =>
        rw [hloop] at hg
        rw [hg] at hl
        cases hl
    | publish fd | greet fd =>
        rw [hloop] at hg
        obtain rfl := Option.some.inj (hg.symm.trans hl)
        cases hm
    | choose fd | ask fd | receive fd =>
        rw [hloop] at hg
        obtain ⟨w, hw⟩ := hg
        obtain rfl := Option.some.inj (hw.symm.trans hl)
        obtain rfl := Option.some.inj hm
        rfl
  exact ⟨hhello, by rw [route, if_pos hhello]⟩

/-- A client connects and registers a user. -/
def newcomer (fd : ℕ) (uid : Str) : List Move :=
  [.client (.connect fd [4] peerIp_fits),
    .client (.request fd MsgType.createUser.code (putStr uid ++ putStr [2]) 0)]

theorem first_frame_hello_newcomer :
    let h := (exec (step id) start ([.connect 3, .advance] ++ newcomer 7 [8] ++
      [.record 0, .advance, .send 0])).get (by decide +kernel)
    ∃ l m, h.link = some l ∧ l.written.head? = some m ∧ m.type = .syncHello ∧ route m = .peer := by
  have hmeets : Meets (step id) Awaits start
      ([Move.connect 3, .advance] ++ newcomer 7 [8] ++ [Move.record 0, .advance, .send 0]) := by
    decide +kernel
  have hrun := Run.of_exec hmeets (Option.some_get (by decide +kernel)).symm
  let l : Link := ⟨3, [.hello 0, .op ⟨1, MsgType.createUser.code, putStr [8] ++ putStr [2], 0⟩]⟩
  exact ⟨l, .hello 0, by decide +kernel, rfl,
    first_frame_hello hrun (l := l) (by decide +kernel) rfl⟩

/-- **A session that writes before the hello**: the descriptor is published, a
session records an op, reads the descriptor and writes the op to it. The other
tracker takes the connection for a client. -/
theorem op_first :
    ∃ h : Host, Run (step id) (fun _ _ => True) start h ∧
      ∃ l ∈ h.link, ∃ m ∈ l.written.head?, m.type ≠ .syncHello ∧ route m = .session := by
  refine ⟨(exec (step id) start ([Move.connect 3, .advance] ++ newcomer 7 [8] ++
    [Move.record 0, .send 0])).get (by decide +kernel), ?_, by decide +kernel⟩
  exact Run.of_exec (meets_of_forall (p := fun _ => True) (fun _ _ => trivial) start)
    (Option.some_get _).symm

/-! ### The order of the log -/

/-- **The condition for the log**: a session records its change only when those
of the earlier changes have been recorded. -/
def Queues (h : Host) : Move → Prop
  | .record i => ∀ w ∈ h.waiting[i]?, ∀ w' ∈ h.waiting, w.turn ≤ w'.turn
  | .client _ | .send _ | .connect _ | .advance | .receive _ | .lost => True

instance (h : Host) : ∀ m, Decidable (h.Queues m)
  | .record _ => inferInstanceAs (Decidable (∀ _ ∈ _, ∀ _ ∈ _, _))
  | .client _ | .send _ | .connect _ | .advance | .receive _ | .lost => .isTrue trivial

/-- **The invariant of the log**: it has the order of the changes, and those that
wait to be recorded come later. -/
structure Ordered (h : Host) : Prop where
  log : ∀ p ∈ h.recorded, ∀ q ∈ h.recorded, p.1 < q.1 → p.2.seq < q.2.seq
  next : ∀ p ∈ h.recorded, p.2.seq < h.server.tracker.nextSeq
  later : ∀ p ∈ h.recorded, ∀ w ∈ h.waiting, p.1 < w.turn
  past : ∀ p ∈ h.recorded, p.1 < h.turns
  queue : h.waiting.Pairwise fun w w' => w.turn < w'.turn
  waiting : ∀ w ∈ h.waiting, w.turn < h.turns

namespace Ordered

/-- A step that touches neither the history nor the sessions that wait. -/
lemma of_eq (ho : h.Ordered) (hrecorded : h'.recorded = h.recorded)
    (hwaiting : h'.waiting = h.waiting) (hturns : h'.turns = h.turns)
    (hnext : h'.server.tracker.nextSeq = h.server.tracker.nextSeq) : h'.Ordered := by
  constructor
  · rw [hrecorded]
    exact ho.log
  · rw [hrecorded, hnext]
    exact ho.next
  · rw [hrecorded, hwaiting]
    exact ho.later
  · rw [hrecorded, hturns]
    exact ho.past
  · rw [hwaiting]
    exact ho.queue
  · rw [hwaiting, hturns]
    exact ho.waiting

/-- A session changes the state. -/
lemma client (ho : h.Ordered) (ev : ClientEvent) : (h.client H ev).Ordered := by
  obtain ⟨s', -, htracker⟩ := Server.apply_applied H h.server ev
  have hnext : (h.server.apply H ev).2.tracker.nextSeq = h.server.tracker.nextSeq := by
    rw [htracker]
  rw [Host.client]
  split
  · exact ho.of_eq rfl rfl rfl hnext
  · next rep hrep =>
      refine ⟨ho.log, ?_, fun p hp w hw => ?_, fun p hp => ?_, ?_, fun w hw => ?_⟩
      · intro p hp
        rw [hnext]
        exact ho.next p hp
      · rcases List.mem_append.mp hw with hw | hw
        · exact ho.later p hp w hw
        · rw [List.mem_singleton.mp hw]
          exact ho.past p hp
      · exact Nat.lt_succ_of_lt (ho.past p hp)
      · refine List.pairwise_append.mpr
          ⟨ho.queue, List.pairwise_singleton _ _, fun w hw w' hw' => ?_⟩
        rw [List.mem_singleton.mp hw']
        exact ho.waiting w hw
      · rcases List.mem_append.mp hw with hw | hw
        · exact Nat.lt_succ_of_lt (ho.waiting w hw)
        · rw [List.mem_singleton.mp hw]
          exact Nat.lt_succ_self h.turns

/-- The session that has waited longest records its op. -/
lemma record (ho : h.Ordered) {i : ℕ} (hok : h.Queues (.record i)) (hstep : h.record i = some h') :
    h'.Ordered := by
  obtain ⟨w, hw, rfl⟩ := Option.map_eq_some_iff.mp hstep
  have hmem : w ∈ h.waiting := List.mem_of_getElem? hw
  have hfirst : ∀ w' ∈ h.waiting.eraseIdx i, w.turn < w'.turn := by
    intro w' hw'
    obtain ⟨j, hj, hw'⟩ := List.mem_eraseIdx_iff_getElem?.mp hw'
    obtain ⟨hi, rfl⟩ := List.getElem?_eq_some_iff.mp hw
    obtain ⟨hlt, rfl⟩ := List.getElem?_eq_some_iff.mp hw'
    have hsorted := List.pairwise_iff_getElem.mp ho.queue
    rcases Nat.lt_or_gt_of_ne hj with hlt' | hgt
    · have hle := hok _ hw _ (List.getElem_mem hlt)
      exact absurd (hsorted j i hlt hi hlt') (Nat.not_lt.mpr hle)
    · exact hsorted i j hi hlt hgt
  refine ⟨fun p hp q hq hlt => ?_, fun p hp => ?_, fun p hp w' hw' => ?_, fun p hp => ?_, ?_,
    fun w' hw' => ho.waiting w' (List.eraseIdx_subset hw')⟩
  · rcases List.mem_append.mp hp with hp | hp <;> rcases List.mem_append.mp hq with hq | hq
    · exact ho.log p hp q hq hlt
    · rw [List.mem_singleton.mp hq]
      exact ho.next p hp
    · rw [List.mem_singleton.mp hp] at hlt
      exact absurd (ho.later q hq w hmem) (Nat.lt_asymm hlt)
    · rw [List.mem_singleton.mp hp, List.mem_singleton.mp hq] at hlt
      exact absurd hlt (lt_irrefl _)
  · rcases List.mem_append.mp hp with hp | hp
    · exact Nat.lt_succ_of_lt (ho.next p hp)
    · rw [List.mem_singleton.mp hp]
      exact Nat.lt_succ_self h.server.tracker.nextSeq
  · rcases List.mem_append.mp hp with hp | hp
    · exact ho.later p hp w' (List.eraseIdx_subset hw')
    · rw [List.mem_singleton.mp hp]
      exact hfirst w' hw'
  · rcases List.mem_append.mp hp with hp | hp
    · exact ho.past p hp
    · rw [List.mem_singleton.mp hp]
      exact ho.waiting w hmem
  · exact ho.queue.sublist (List.eraseIdx_sublist ..)

/-- Writing a frame is no change. -/
lemma answers {fd : ℕ} (msgs : List SyncMsg) (ho : h.Ordered) :
    (msgs.foldl (fun h m => h.write fd m) h).Ordered := by
  induction msgs generalizing h with
  | nil => exact ho
  | cons m msgs ih => exact ih (ho.of_eq rfl rfl rfl rfl)

/-- **The step lemma** for the log. -/
lemma step (ho : h.Ordered) {m : Move} (hok : h.Queues m) (hstep : h.step H m = some h') :
    h'.Ordered := by
  cases m with
  | client ev =>
      obtain rfl : h.client H ev = h' := Option.some.inj hstep
      exact ho.client ev
  | record i => exact ho.record hok hstep
  | send i =>
      obtain ⟨s, -, rfl⟩ := Option.map_eq_some_iff.mp hstep
      exact ho.of_eq rfl rfl rfl rfl
  | connect fd =>
      rw [Host.step] at hstep
      split at hstep
      · obtain rfl := Option.some.inj hstep
        exact ho.of_eq rfl rfl rfl rfl
      · cases hstep
  | advance =>
      change h.advance = some h' at hstep
      rw [Host.advance] at hstep
      split at hstep <;> cases hstep <;> exact ho.of_eq rfl rfl rfl rfl
  | receive m =>
      change h.receive H m = some h' at hstep
      rw [Host.receive] at hstep
      split at hstep
      · obtain rfl := Option.some.inj hstep
        exact answers _ (ho.of_eq rfl rfl rfl (h.server.tracker.process_log H m).1)
      · cases hstep
  | lost =>
      rw [Host.step] at hstep
      split at hstep
      · obtain rfl := Option.some.inj hstep
        exact ho.of_eq rfl rfl rfl rfl
      · cases hstep

end Ordered

/-- **The log has the order of the changes** in runs in which sessions record
their changes in that order. -/
theorem log_in_order (hrun : Run (step H) Queues start h) {i j : ℕ} {x y : Op}
    (hx : (i, x) ∈ h.recorded) (hy : (j, y) ∈ h.recorded) (hij : i < j) : x.seq < y.seq := by
  have hstart : start.Ordered :=
    ⟨fun p hp => (by cases hp), fun p hp => (by cases hp), fun p hp => (by cases hp),
      fun p hp => (by cases hp), .nil, fun w hw => (by cases hw)⟩
  have ho : h.Ordered := hrun.invariant hstart fun hI hok hstep => hI.step hok hstep
  exact ho.log (i, x) hx (j, y) hy hij

theorem log_in_order_newcomers :
    let h := (exec (step id) start (newcomer 7 [8] ++ newcomer 6 [9] ++
      [.record 0, .record 0])).get (by decide +kernel)
    ∃ x y, (0, x) ∈ h.recorded ∧ (1, y) ∈ h.recorded ∧ x.seq < y.seq := by
  have hmeets : Meets (step id) Queues start
      (newcomer 7 [8] ++ newcomer 6 [9] ++ [.record 0, .record 0]) := by
    decide +kernel
  have hrun := Run.of_exec hmeets (Option.some_get (by decide +kernel)).symm
  let x : Op := ⟨1, MsgType.createUser.code, putStr [8] ++ putStr [2], 0⟩
  let y : Op := ⟨2, MsgType.createUser.code, putStr [9] ++ putStr [2], 0⟩
  exact ⟨x, y, by decide +kernel, by decide +kernel,
    log_in_order hrun (i := 0) (j := 1) (by decide +kernel) (by decide +kernel) (by decide)⟩

/-- **Two sessions that record the other way round**: one registers a user, then
the other logs in as that user and creates a group, and records that first. The
op that creates the group comes before the one that creates its owner. -/
theorem recorded_later :
    ∃ h : Host, Run (step id) (fun _ _ => True) start h ∧
      ∃ x y, (0, x) ∈ h.recorded ∧ (1, y) ∈ h.recorded ∧ ¬ x.seq < y.seq := by
  let moves : List Move := newcomer 7 [8] ++
    [.client (.connect 6 [4] peerIp_fits),
      .client (.request 6 MsgType.login.code (putStr [8] ++ putStr [2] ++ putU16 5) 0),
      .client (.request 6 MsgType.createGroup.code (putStr [3]) 0), .record 1, .record 0]
  let x : Op := ⟨2, MsgType.createUser.code, putStr [8] ++ putStr [2], 0⟩
  let y : Op := ⟨1, MsgType.createGroup.code, putStr [3] ++ putStr [8], 0⟩
  refine ⟨(exec (step id) start moves).get (by decide +kernel), ?_, x, y, by decide +kernel⟩
  exact Run.of_exec (meets_of_forall (p := fun _ => True) (fun _ _ => trivial) start)
    (Option.some_get _).symm

end Host

end Threads

end P2PShare
