import P2PShare.Pair.Basic
import P2PShare.Tracker.Clash

/-!
Convergence of the two trackers over a link that does not drop.

* `Orderly`: no accepted request clashes with an op that is on its way to the
  tracker, and the peer reads each request as it was made.
* `Converging` (**the invariant**): what each tracker will be once it has
  processed what is on its way to it is the same.
* `directories_converge`: in orderly runs the directories are equal whenever no
  op is in flight; `two_passwords` is a run that is not orderly.
-/

namespace P2PShare

/-- The event is one of a link that is up and stays so. -/
def Event.Steady : Event → Prop
  | .client .. | .deliver _ => True
  | .dial | .advance _ | .drop | .restart _ => False

namespace Pair

variable {H : Str → Str} {c c' : Pair} {r : Role}

/-- Two trackers that have just started, with a link. -/
def fresh : Pair := fun _ => { Side.start with phase := .up }

/-- A request that a tracker accepts can be read by the peer and does not clash
with an op that is on its way to the tracker. -/
def Orderly (H : Str → Str) (c : Pair) : Event → Prop
  | .client r ev => ∀ call, ev.Accepted H (c r).server call →
      ev.Faithful (c r).server ∧
        ∀ op ∈ opsIn (c r).inbox, ¬ (call.dirOp H).Clash (op.dirOp H)
  | .dial | .advance _ | .deliver _ | .drop | .restart _ => True

/-- The operations on their way to a tracker. -/
def coming (H : Str → Str) (c : Pair) (r : Role) : List DirOp :=
  (opsIn (c r).inbox).map (Op.dirOp H)

/-- The directories of the two trackers, seen from one of them, and what is on
its way between them. -/
def Agrees (H : Str → Str) (c : Pair) (r : Role) : Prop :=
  Agree Directory.act Directory.Owned (fun d a => a.Enabled d) (c r).state.directory
    (c r.peer).state.directory (c.coming H r.peer) (c.coming H r)

lemma Agrees.peer (h : c.Agrees H r) : c.Agrees H r.peer := by
  cases r with
  | dialer => exact h.swap
  | acceptor => exact h.swap

/-- One side of a link that is up, with ops and their ACKs on the way. -/
structure InService (x : Side) : Prop where
  up : x.phase = .up
  wellFormed : x.state.WellFormed
  traffic : ∀ m ∈ x.inbox, m.type = .syncOp ∨ m.type = .syncAck

/-- **The invariant.** -/
structure Converging (H : Str → Str) (c : Pair) : Prop where
  sides : ∀ r, InService (c r)
  agrees : ∀ r, c.Agrees H r

namespace Converging

/-- It is enough to look from one side. -/
lemma agrees_of (h : c.Agrees H r) : ∀ r', c.Agrees H r' := Role.forall_of_peer r h h.peer

lemma fresh : Converging H fresh where
  sides r := ⟨rfl, .init, fun m hm => by simp [Pair.fresh, Side.start] at hm⟩
  agrees r := .refl (TrackerState.WellFormed.owned .init)

/-- **A client event** that is orderly keeps the invariant. -/
lemma client (h : Converging H c) {ev : ClientEvent} (hok : c.Orderly H (.client r ev)) :
    Converging H (c.client H r ev) := by
  have hdid := Server.serve_did H (c r).server ev
  have hself := c.client_self H r ev
  have hpeer := c.client_peer H r ev
  rw [(h.sides r).up] at hpeer
  generalize (c r).server.serve H ev = res at hdid hself hpeer
  generalize c.client H r ev = c' at hself hpeer ⊢
  obtain ⟨o, sv⟩ := res
  dsimp only at hdid hself hpeer
  have hinbox : (c' r).inbox = (c r).inbox := by rw [hself]
  have hother : (c' r.peer).state = (c r.peer).state := by rw [hpeer]; rfl
  have hstate : (c' r).state = sv.tracker.state := by rw [hself]; rfl
  refine ⟨Role.forall_of_peer r ?_ ?_, agrees_of (r := r) ?_⟩
  · rw [hself]
    exact ⟨(h.sides r).up, hdid.wellFormed (h.sides r).wellFormed, (h.sides r).traffic⟩
  · rw [hpeer]
    refine ⟨(h.sides r.peer).up, (h.sides r.peer).wellFormed, fun m hm => ?_⟩
    rcases List.mem_append.mp hm with hm | hm
    · exact (h.sides r.peer).traffic m hm
    · obtain ⟨op, -, rfl⟩ := List.mem_map.mp hm
      exact .inl rfl
  · have hagree := h.agrees r
    have hcoming : c'.coming H r = c.coming H r := by rw [coming, hinbox]; rfl
    rw [Agrees, hstate, hother, hcoming]
    rcases hdid.directory_cases with ⟨rfl, hdir⟩ | ⟨call, op, rfl, hacc, hran, hread⟩
    · have hpushed : c'.coming H r.peer = c.coming H r.peer := by simp [coming, hpeer, Phase.linked]
      rw [hdir, hpushed]
      exact hagree
    · obtain ⟨hfaith, hclash⟩ := hok call hacc
      have hop : op.dirOp H = call.dirOp H := by rw [Op.dirOp, hread hfaith]
      have hpushed : c'.coming H r.peer = c.coming H r.peer ++ [call.dirOp H] := by
        simp [coming, hpeer, Phase.linked, opsIn_cons, SyncMsg.asOp, hop]
      rw [hran.directory_eq, hpushed]
      refine hagree.issue directory_confluent hran.enabled fun b hb => ?_
      obtain ⟨op', hop', rfl⟩ := List.mem_map.mp hb
      exact hclash op' hop'

/-- What a tracker in service does with an op or an ACK: the operation of the op
on the directory, and at most an ACK in return. -/
lemma process_traffic (t : Tracker) {m : SyncMsg} (hm : m.type = .syncOp ∨ m.type = .syncAck) :
    (∀ m' ∈ (t.process H m).1, m'.type = .syncAck) ∧
      (t.state.WellFormed → (t.process H m).2.state.WellFormed) ∧
      (t.process H m).2.state.directory
        = (m.asOp.toList.map (Op.dirOp H)).foldl Directory.act t.state.directory := by
  cases m with
  | op op =>
      refine ⟨fun m' hm' => ?_, fun hs => hs.applyRemote op, directory_applyRemote H t.state op⟩
      obtain rfl : m' = .ack op.seq := by simpa [Tracker.process] using hm'
      rfl
  | ack seq => exact ⟨fun m' hm' => by simp [Tracker.process] at hm', id, rfl⟩
  | hello | catchup | snapshotRequest | snapshotData => simp [SyncMsg.type] at hm

/-- **A delivery** keeps the invariant. -/
lemma deliver (h : Converging H c) (hstep : c.deliver H r = some c') : Converging H c' := by
  obtain ⟨m, rest, hinbox, -, hcase⟩ := deliver_cases hstep
  simp only [(h.sides r).up, true_and, reduceCtorEq, false_and, and_false, or_false] at hcase
  have hself := c.process_self H r m rest
  have hpeer := c.process_peer H r m rest
  rw [← hcase] at hself hpeer
  obtain ⟨hacks, hwf, hdir⟩ :=
    process_traffic (H := H) (c r).server.tracker ((h.sides r).traffic m (by simp [hinbox]))
  generalize (c r).server.tracker.process H m = res at hself hpeer hacks hwf hdir
  have hquiet : opsIn res.1 = [] := by
    refine List.eq_nil_iff_forall_not_mem.mpr fun op hop => ?_
    exact absurd (hacks _ (mem_opsIn.mp hop)) (by simp [SyncMsg.type])
  refine ⟨Role.forall_of_peer r ?_ ?_, agrees_of (r := r.peer) ?_⟩
  · rw [hself]
    refine ⟨(h.sides r).up, hwf (h.sides r).wellFormed, fun m' hm' => ?_⟩
    exact (h.sides r).traffic m' (hinbox ▸ List.mem_cons_of_mem m hm')
  · rw [hpeer]
    refine ⟨(h.sides r.peer).up, (h.sides r.peer).wellFormed, fun m' hm' => ?_⟩
    rcases List.mem_append.mp hm' with hm' | hm'
    · exact (h.sides r.peer).traffic m' hm'
    · exact .inr (hacks m' hm')
  · have hagree := (h.agrees r).peer
    have hback : c'.coming H r.peer = c.coming H r.peer := by simp [coming, hpeer, hquiet]
    have hhead : c.coming H r = m.asOp.toList.map (Op.dirOp H) ++ c'.coming H r := by
      rw [coming, hinbox, opsIn_cons, List.map_append, coming, hself]
    have hother : (c' r.peer).state = (c r.peer).state := by rw [hpeer]; rfl
    have hstate : (c' r).state = res.2.state := by rw [hself]; rfl
    rw [Agrees, Role.peer_peer, hhead] at hagree
    rw [Agrees, Role.peer_peer, hback, hother, hstate, hdir]
    cases hop : m.asOp with
    | none =>
        rw [hop] at hagree
        exact hagree
    | some op =>
        rw [hop] at hagree
        exact hagree.deliver directory_confluent

/-- **Every step** of an orderly run keeps the invariant. -/
lemma step (h : Converging H c) {e : Event} (hok : e.Steady ∧ Orderly H c e)
    (hstep : c.step H e = some c') : Converging H c' := by
  obtain ⟨hsteady, hok⟩ := hok
  cases e with
  | client r ev =>
      obtain rfl : c.client H r ev = c' := Option.some.inj hstep
      exact h.client hok
  | deliver r => exact h.deliver hstep
  | dial | advance r | drop | restart r => exact hsteady.elim

end Converging

/-- **Convergence**: two trackers that start empty over a link that does not drop
have equal directories whenever no op is in flight, in every orderly run. -/
theorem directories_converge (h : Run (step H) (fun c e => e.Steady ∧ Orderly H c e) fresh c)
    (hquiet : ∀ r, opsIn (c r).inbox = []) :
    (c .dialer).state.directory = (c .acceptor).state.directory := by
  have hconv : Converging H c := h.invariant .fresh fun hI hok hstep => hI.step hok hstep
  have hagree := hconv.agrees .dialer
  rw [Agrees, coming, coming, hquiet, hquiet] at hagree
  exact hagree.eq

/-- A user registers on one tracker. -/
def registering : List Event :=
  [.client .dialer (.connect 7 [4] peerIp_fits),
    .client .dialer (.request 7 MsgType.createUser.code (putStr [1] ++ putStr [2]) 0),
    .deliver .acceptor]

theorem directories_converge_registering :
    let c := (exec (step id) fresh registering).get (by decide)
    (c .dialer).state.directory = (c .acceptor).state.directory := by
  have hmeets : Meets (step id) (fun c e => e.Steady ∧ Orderly id c e) fresh registering := by
    refine ⟨⟨trivial, fun call hacc => by cases hacc.1⟩, fun c₁ h₁ => ?_⟩
    obtain rfl : _ = c₁ := Option.some.inj h₁
    refine ⟨⟨trivial, fun call hacc => ⟨?_, ?_⟩⟩, fun c₂ h₂ =>
      ⟨⟨trivial, trivial⟩, fun _ _ => trivial⟩⟩
    · exact (ClientEvent.noTrailing_request (by decide) 7 0).faithful _
    · simp [fresh, Side.start]
  exact directories_converge (Run.of_exec hmeets (Option.some_get _).symm) (by decide)

/-- The same id is registered on both trackers with different passwords before
either op arrives. -/
def twoPasswords : List Event :=
  [.client .dialer (.connect 7 [4] peerIp_fits),
    .client .acceptor (.connect 7 [4] peerIp_fits),
    .client .dialer (.request 7 MsgType.createUser.code (putStr [1] ++ putStr [2]) 0),
    .client .acceptor (.request 7 MsgType.createUser.code (putStr [1] ++ putStr [3]) 0),
    .deliver .dialer, .deliver .acceptor]

/-- **A run that is not orderly**: the trackers keep the password that each of
them saw first. -/
theorem two_passwords :
    ∃ c, Run (step id) (fun _ e => e.Steady) fresh c ∧ (∀ r, opsIn (c r).inbox = []) ∧
      (c .dialer).state.directory ≠ (c .acceptor).state.directory := by
  have hsteady : ∀ e ∈ twoPasswords, e.Steady := by
    simp [twoPasswords, Event.Steady]
  refine ⟨(exec (step id) fresh twoPasswords).get (by decide), ?_, by decide, by decide⟩
  exact Run.of_exec (meets_of_forall hsteady fresh) (Option.some_get _).symm

end Pair

end P2PShare
