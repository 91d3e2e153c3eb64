import P2PShare.Threads.Basic

/-!
What the ghost fields of the threaded trackers stand for, over runs in which the
processes may also start again.

* `Happening`, `Net.live`: a step of the system, or a process that starts again.
* `Played`: changes that succeed one after the other, and the state they lead
  to.
* `Frame.Recounts`: an op carries one change, and a snapshot is that of the
  state which its changes lead to.
* `Node.History` (**the invariant**), its step lemmas for one tracker and, as
  `Net.History`, for the system.
-/

namespace P2PShare

namespace Threads

/-- A step of the system, or a process that starts again. -/
inductive Happening
  | event (e : Event)
  | restart (r : Role)

namespace Net

/-- A process that starts again has lost everything but the number of the
changes that its clients have made, which tells them apart. The link is gone. -/
def restart (n : Net) (r : Role) : Net := fun r' =>
  if r' = r then { Node.start with made := (n r).made } else (n r').cut

/-- The steps of a system whose processes may start again. -/
def live (H : Str → Str) (n : Net) : Happening → Option Net
  | .event e => n.step H e
  | .restart r => some (n.restart r)

end Net

/-- **These changes, made one after the other on an empty tracker, succeed** and
lead to this state. -/
inductive Played (H : Str → Str) : List Change → TrackerState → Prop
  | init : Played H [] .init
  | change {changes : List Change} {s s' : TrackerState} (h : Played H changes s) (ch : Change)
      (hran : TrackerState.Ran H s ch.call s') : Played H (changes ++ [ch]) s'

namespace Played

variable {H : Str → Str} {changes : List Change} {s : TrackerState}

lemma wellFormed (h : Played H changes s) : s.WellFormed := by
  induction h with
  | init => exact .init
  | change _ ch hran ih => exact hran.wellFormed ih

/-- A call that succeeds. -/
lemma after (h : Played H changes s) {ch : Change} (hok : (s.exec H ch.call).1 = .ok) :
    Played H (changes ++ [ch]) (s.after H ch.call) :=
  h.change ch (TrackerState.exec_eq_ok_iff.mp (Prod.ext hok rfl))

/-- A tracker that has been through a change is not empty. -/
lemma full (h : Played H changes s) (hne : changes ≠ []) : s.isEmpty = false := by
  cases h with
  | init => exact absurd rfl hne
  | @change _ s₀ _ h ch hran =>
      have huser : ∀ uid, uid ∈ s.users → s.isEmpty = false := fun _ =>
        TrackerState.isEmpty_eq_false
      have hgroup : ∀ {gid : Str} {grp : Group}, s₀.groups[gid]? = some grp → s₀.users = s.users →
          s.isEmpty = false := by
        intro gid grp hg heq
        have hgrp := h.wellFormed.group gid grp hg
        exact huser grp.owner (heq ▸ hgrp.member _ hgrp.owner)
      generalize ch.call = call at hran
      cases hran with
      | @createUser uid | @login uid | @logout uid => exact huser uid (by simp)
      | createGroup _ _ howner => exact huser _ howner
      | joinGroup _ _ hg | dissolve _ _ hg | handoff _ _ hg | leave _ _ hg
      | acceptRequest _ _ _ hg | addSeeder _ _ _ hg | addFile _ _ _ hg | stopShare _ _ _ hg
      | updateBitfield _ _ _ hg => exact hgroup hg rfl

end Played

/-- The changes of a frame are those of its message. -/
def Frame.Recounts (H : Str → Str) (f : Frame) : Prop :=
  match f.msg with
  | .op _ => ∃ ch, f.changes = [ch]
  | .snapshotData blob => ∃ s, Played H f.changes s ∧ blob = s.snapshot
  | .hello _ | .catchup _ | .ack _ | .snapshotRequest => True

/-- The changes that a thread is about to record or to send. -/
def Task.changes : Task → List Change
  | .record _ _ changes => changes
  | .send _ _ changes => changes

namespace Node

/-- **The invariant** of one tracker: its changes lead to its state, its op
threads and the ops of its log carry one change each, and the frames around it
carry the changes of their messages. -/
structure History (H : Str → Str) (x : Node) : Prop where
  played : Played H x.changes x.state
  tasks : ∀ task ∈ x.tasks, ∃ ch, task.changes = [ch]
  single : ∀ op changes, (op, changes) ∈ x.recorded → ∃ ch, changes = [ch]
  nodup : (x.recorded.map Prod.fst).Nodup
  below : ∀ op ∈ x.recorded.map Prod.fst, op.seq < x.server.tracker.nextSeq
  log : ∀ op ∈ x.server.tracker.log, op ∈ x.recorded.map Prod.fst
  pending : ∀ m ∈ x.phase.pending, m.type = .syncSnapshotRequest ∨ m.type = .syncCatchup
  inbox : ∀ f ∈ x.inbox, f.Recounts H
  reply : ∀ f ∈ x.reply, f.Recounts H

variable {H : Str → Str} {x : Node}

/-- The change that an op of the log carries. -/
lemma carried_op {op : Op} {changes : List Change} (hnodup : (x.recorded.map Prod.fst).Nodup)
    (hmem : (op, changes) ∈ x.recorded) : x.carried (.op op) = changes := by
  rw [carried]
  generalize x.recorded = recorded at hnodup hmem
  induction recorded with
  | nil => cases hmem
  | cons p recorded ih =>
      obtain ⟨hnot, hnodup⟩ := List.nodup_cons.mp hnodup
      have hfst : ∀ q ∈ recorded, q.1 ≠ p.1 := fun q hq heq =>
        hnot (heq ▸ List.mem_map_of_mem hq)
      rcases List.mem_cons.mp hmem with rfl | hmem
      · have hrest : recorded.filter (fun q => q.1 = op) = [] :=
          List.filter_eq_nil_iff.mpr fun q hq => by simpa using hfst q hq
        simp [hrest]
      · have hne : ¬ p.1 = op := fun heq => hfst _ hmem heq.symm
        rw [List.filter_cons_of_neg (by simpa using hne)]
        exact ih hnodup hmem

/-- The change of an event that changes the state, and no other has one. -/
lemma change_cases (H : Str → Str) (x : Node) (r : Role) (ev : ClientEvent) :
    (x.change H r ev = [] ∧ (x.server.apply H ev).2.tracker.state = x.state) ∨
      ∃ call, (x.state.exec H call).1 = .ok ∧ x.change H r ev = [⟨r, x.made, call⟩] ∧
        (x.server.apply H ev).2.tracker.state = x.state.after H call := by
  have happly := Server.state_apply H x.server ev
  rw [change]
  cases hcall : ev.stateCall x.server with
  | none =>
      rw [hcall] at happly
      exact .inl ⟨rfl, happly⟩
  | some call =>
      rw [hcall] at happly
      dsimp only
      by_cases hok : (x.state.exec H call).1 = .ok
      · rw [if_pos hok]
        exact .inr ⟨call, hok, rfl, happly⟩
      · rw [if_neg hok]
        exact .inl ⟨rfl, happly.trans (TrackerState.exec_refused hok)⟩

/-- What is recorded for an event is its change. -/
lemma change_of_apply {r : Role} {ev : ClientEvent} {rep : UInt16 × Str}
    (h : (x.server.apply H ev).1 = some rep) :
    ∃ call, x.change H r ev = [⟨r, x.made, call⟩] ∧
      (ev.Faithful x.server → opCall rep.1 rep.2 = some call) := by
  obtain ⟨s', happ, -⟩ := Server.apply_applied H x.server ev
  rw [h] at happ
  cases happ with
  | @mutated call _ _ hacc hstate _ _ hpeer =>
      refine ⟨call, ?_, hpeer⟩
      rw [change, hstate]
      exact if_pos hacc.2

/-! ### What the steps keep -/

namespace History

lemma start (made : ℕ) : History H { Node.start with made := made } where
  played := .init
  tasks task h := by cases h
  single op changes h := by cases h
  nodup := .nil
  below op h := by cases h
  log op h := by cases h
  pending m h := by cases h
  inbox f h := by cases h
  reply f h := by cases h

/-- A client event. -/
lemma client (h : x.History H) (r : Role) (ev : ClientEvent) :
    History H { x with
      server := (x.server.apply H ev).2
      tasks := x.tasks ++ (x.server.apply H ev).1.toList.map fun rep =>
        .record rep ev.now (x.change H r ev)
      changes := x.changes ++ x.change H r ev
      made := x.made + (x.change H r ev).length } := by
  obtain ⟨s', -, htracker⟩ := Server.apply_applied H x.server ev
  refine { h with played := ?_, tasks := fun task hmem => ?_, below := ?_, log := ?_ }
  · show Played H _ (x.server.apply H ev).2.tracker.state
    rcases change_cases H x r ev with ⟨hnone, hstate⟩ | ⟨call, hok, hone, hstate⟩
    · rw [hstate, hnone, List.append_nil]
      exact h.played
    · rw [hstate, hone]
      exact h.played.after hok
  · rcases List.mem_append.mp hmem with hmem | hmem
    · exact h.tasks task hmem
    · obtain ⟨rep, hrep, rfl⟩ := List.mem_map.mp hmem
      obtain ⟨call, hone, -⟩ := change_of_apply (r := r) (Option.mem_toList.mp hrep)
      exact ⟨_, hone⟩
  · rw [htracker]
    exact h.below
  · rw [htracker]
    exact h.log

/-- A thread records an op. -/
lemma record (h : x.History H) {i : ℕ} {rep : UInt16 × Str} {now : UInt64}
    {changes : List Change} (htask : x.tasks[i]? = some (.record rep now changes)) :
    History H { x with
      server := (x.server.record rep now).2
      tasks := x.tasks.eraseIdx i ++
        if x.phase.linked then [Task.send x.fd (x.server.record rep now).1 changes] else []
      recorded := x.recorded ++ [((x.server.record rep now).1, changes)] } := by
  have hone : ∃ ch, changes = [ch] := h.tasks _ (List.mem_of_getElem? htask)
  refine { h with tasks := fun task hmem => ?_, single := fun op ch hmem => ?_, nodup := ?_,
                  below := ?_, log := ?_ }
  · rcases List.mem_append.mp hmem with hmem | hmem
    · exact h.tasks task (List.eraseIdx_subset hmem)
    · split at hmem
      · obtain rfl := List.mem_singleton.mp hmem
        exact hone
      · cases hmem
  · rcases List.mem_append.mp hmem with hmem | hmem
    · exact h.single op ch hmem
    · cases List.mem_singleton.mp hmem
      exact hone
  · rw [List.map_append]
    refine h.nodup.append (List.nodup_singleton _) fun op hop hop' => ?_
    obtain rfl := List.mem_singleton.mp hop'
    exact lt_irrefl _ (h.below _ hop)
  · intro op hop
    rw [List.map_append] at hop
    rcases List.mem_append.mp hop with hop | hop
    · exact Nat.lt_succ_of_lt (h.below op hop)
    · obtain rfl := List.mem_singleton.mp hop
      exact Nat.lt_succ_self _
  · intro op hop
    rw [List.map_append]
    rcases List.mem_append.mp hop with hop | hop
    · exact List.mem_append_left _ (h.log op hop)
    · exact List.mem_append_right _ hop

/-- A thread is done. -/
lemma done (h : x.History H) (i : ℕ) : History H { x with tasks := x.tasks.eraseIdx i } :=
  { h with tasks := fun task hmem => h.tasks task (List.eraseIdx_subset hmem) }

/-- Frames of the peer. -/
lemma receive (h : x.History H) {frames : List Frame} (hframes : ∀ f ∈ frames, f.Recounts H) :
    History H { x with inbox := x.inbox ++ frames } :=
  { h with
    inbox := fun f hf => (List.mem_append.mp hf).elim (h.inbox f) (hframes f) }

/-- The next step of the link set-up. -/
lemma phase (h : x.History H) {phase : Phase}
    (hpending : ∀ m ∈ phase.pending, m.type = .syncSnapshotRequest ∨ m.type = .syncCatchup) :
    History H { x with phase := phase } :=
  { h with pending := hpending }

/-- What a tracker sends while it sets up the link. -/
lemma recounts_frame {m : SyncMsg} (hop : m.type ≠ .syncOp) (hdata : m.type ≠ .syncSnapshotData) :
    (x.frame m).Recounts H := by
  cases m with
  | op op => exact absurd rfl hop
  | snapshotData blob => exact absurd rfl hdata
  | hello | catchup | ack | snapshotRequest => trivial

/-- What a tracker answers. -/
lemma recounts_answer (h : x.History H) {m m' : SyncMsg}
    (hm : m' ∈ (x.server.tracker.process H m).1) : (x.frame m').Recounts H := by
  rcases Tracker.answer_cases hm with ⟨n, -, op, hop, rfl⟩ | ⟨op, -, rfl⟩ | ⟨-, rfl⟩
  · obtain ⟨⟨op', changes⟩, hrec, rfl⟩ := List.mem_map.mp (h.log op hop)
    show ∃ ch, x.carried (.op op') = [ch]
    rw [carried_op h.nodup hrec]
    exact h.single op' changes hrec
  · trivial
  · exact ⟨x.state, h.played, rfl⟩

/-- A message is processed. -/
lemma process (h : x.History H) {f : Frame} {rest : List Frame} (hinbox : x.inbox = f :: rest)
    (hsend : f.msg.Sendable) : (x.process H f rest).History H := by
  have hf : f.Recounts H := h.inbox f (hinbox ▸ List.mem_cons_self)
  have hreply : ∀ f' ∈ (x.process H f rest).reply, f'.Recounts H := by
    intro f' hf'
    obtain ⟨m, hm, rfl⟩ := List.mem_map.mp hf'
    exact h.recounts_answer hm
  have hrest : ∀ f' ∈ rest, f'.Recounts H := fun f' hf' =>
    h.inbox f' (hinbox ▸ List.mem_cons_of_mem f hf')
  obtain ⟨hnext, hlog⟩ := x.server.tracker.process_log H f.msg
  have hbelow : (x.process H f rest).server.tracker.nextSeq = x.server.tracker.nextSeq := hnext
  refine { h with played := ?_, below := hbelow ▸ h.below, log := fun op hop => h.log op (hlog hop),
                  inbox := hrest, reply := hreply }
  show Played H (x.changesAfter H f) (x.server.tracker.process H f.msg).2.state
  rw [Node.changesAfter]
  rw [Frame.Recounts] at hf
  cases hmsg : f.msg with
  | op op =>
      rw [hmsg] at hf
      obtain ⟨ch, hch⟩ := hf
      show Played H _ (applyRemote H x.state op).2
      dsimp only
      rw [applyRemote]
      cases hcall : opCall op.type op.payload with
      | none => exact h.played
      | some call =>
          dsimp only
          by_cases hok : (x.state.exec H call).1 = .ok
          · rw [if_pos hok, hch]
            exact @Played.after H _ _ h.played { ch with call := call } hok
          · rw [if_neg hok, TrackerState.exec_refused hok]
            exact h.played
  | snapshotData blob =>
      rw [hmsg] at hf hsend
      obtain ⟨s, hs, rfl⟩ := hf
      show Played H (if (x.state.restore s.snapshot).1 then f.changes else x.changes)
        (x.state.restore s.snapshot).2
      rw [hs.wellFormed.restore x.state hsend]
      exact hs
  | hello | catchup | ack | snapshotRequest => exact h.played

/-- The answer is sent. -/
lemma sent (h : x.History H) : History H { x with reply := [] } :=
  { h with reply := fun f hf => (by cases hf) }

/-- The link is gone. -/
lemma cut (h : x.History H) : x.cut.History H :=
  { h with
    pending := fun m hm => (by cases hm)
    inbox := fun f hf => (by cases hf)
    reply := fun f hf => (by cases hf) }

end History

end Node

namespace Net

variable {H : Str → Str} {n n' : Net} {r : Role}

/-- The invariant of the two trackers. -/
def History (H : Str → Str) (n : Net) : Prop := ∀ r, (n r).History H

namespace History

/-- It is enough to look at a tracker and its peer. -/
lemma of_sides (hself : (n r).History H) (hpeer : (n r.peer).History H) : n.History H :=
  Role.forall_of_peer r hself hpeer

lemma work (h : n.History H) {i : ℕ} (hstep : n.work r i = some n') : n'.History H := by
  rcases work_cases hstep with
    ⟨rep, now, changes, htask, hpeer, hself⟩ | ⟨fd, op, changes, htask, hself, hpeer⟩
  · refine of_sides (r := r) ?_ ?_
    · rw [hself]
      exact (h r).record htask
    · rw [hpeer]
      exact h r.peer
  · refine of_sides (r := r) ?_ ?_
    · rw [hself]
      exact (h r).done i
    · rw [hpeer]
      refine (h r.peer).receive fun f hf => ?_
      split at hf
      · obtain rfl := List.mem_singleton.mp hf
        exact (h r).tasks _ (List.mem_of_getElem? htask)
      · cases hf

lemma advance (h : n.History H) (hstep : n.advance r = some n') : n'.History H := by
  rcases advance_cases hstep with
    ⟨-, hself, hpeer⟩ | ⟨-, hself, hpeer⟩ | ⟨request, hphase, hself, hpeer⟩
  · refine of_sides (r := r) ?_ ?_
    · rw [hself]
      exact (h r).phase fun m hm => (by cases hm)
    · rw [hpeer]
      refine (h r.peer).receive fun f hf => ?_
      obtain rfl := List.mem_singleton.mp hf
      trivial
  · refine of_sides (r := r) ?_ ?_
    · rw [hself]
      exact (h r).phase fun _ => (n r).type_of_mem_request r
    · rw [hpeer]
      exact h r.peer
  · refine of_sides (r := r) ?_ ?_
    · rw [hself]
      exact (h r).phase fun m hm => (by cases hm)
    · rw [hpeer]
      refine (h r.peer).receive fun f hf => ?_
      obtain ⟨m, hm, rfl⟩ := List.mem_map.mp hf
      rcases (h r).pending m (by rw [hphase]; exact hm) with htype | htype <;>
        exact Node.History.recounts_frame (by simp [htype]) (by simp [htype])

lemma deliver (h : n.History H) (hstep : n.deliver H r = some n') : n'.History H := by
  obtain ⟨f, rest, hinbox, hsend, -, hpeer, hcase⟩ := deliver_cases hstep
  have hrest : ∀ phase : Phase, phase.pending = [] →
      Node.History H { n r with phase := phase, inbox := rest } := fun phase hphase =>
    { h r with
      pending := fun m hm => (by rw [hphase] at hm; cases hm)
      inbox := fun f' hf' => (h r).inbox f' (hinbox ▸ List.mem_cons_of_mem f hf') }
  refine of_sides (r := r) ?_ (hpeer ▸ h r.peer)
  rcases hcase with ⟨-, hself⟩ | ⟨-, ⟨-, -, hself⟩ | ⟨-, -, hself⟩ | ⟨hclient, hself⟩⟩
  · exact hself ▸ (h r).process hinbox hsend
  · exact hself ▸ hrest .choose rfl
  · exact hself ▸ hrest .client rfl
  · have hsame := hrest (n r).phase (by rw [hclient]; rfl)
    rw [hself]
    exact hsame

lemma reply (h : n.History H) (hstep : n.reply r = some n') : n'.History H := by
  obtain ⟨hself, hpeer⟩ := reply_cases hstep
  refine of_sides (r := r) ?_ ?_
  · exact hself ▸ (h r).sent
  · exact hpeer ▸ (h r.peer).receive (h r).reply

/-- **The step lemma.** -/
theorem step (h : n.History H) {e : Event} (hstep : n.step H e = some n') : n'.History H := by
  cases e with
  | client r ev =>
      obtain rfl : n.client H r ev = n' := Option.some.inj hstep
      refine of_sides (r := r) ?_ ?_
      · show (n.set r _ r).History H
        rw [set_self]
        exact (h r).client r ev
      · show (n.set r _ r.peer).History H
        rw [set_peer]
        exact h r.peer
  | work r i => exact h.work hstep
  | dial fd =>
      rw [Net.step] at hstep
      split at hstep
      · obtain rfl := Option.some.inj hstep
        intro r
        cases r with
        | dialer => exact { h .dialer with pending := fun m hm => (by cases hm) }
        | acceptor => exact { h .acceptor with }
      · cases hstep
  | advance r => exact h.advance hstep
  | deliver r => exact h.deliver hstep
  | reply r => exact h.reply hstep
  | drop =>
      rw [Net.step] at hstep
      split at hstep
      · cases hstep
      · obtain rfl := Option.some.inj hstep
        exact fun r => (h r).cut

/-- A process that starts again. -/
lemma restart (h : n.History H) (r : Role) : (n.restart r).History H := by
  intro r'
  rw [Net.restart]
  split
  · exact .start _
  · exact (h r').cut

lemma live (h : n.History H) {e : Happening} (hstep : n.live H e = some n') : n'.History H := by
  cases e with
  | event e => exact h.step hstep
  | restart r =>
      obtain rfl := Option.some.inj hstep
      exact h.restart r

end History

end Net

end Threads

end P2PShare
