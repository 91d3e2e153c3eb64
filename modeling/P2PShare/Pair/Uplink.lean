import P2PShare.Lib.Outbox
import P2PShare.Pair.Basic
import P2PShare.Tracker.Clash

/-!
The ops of tracker 1 on their way to tracker 0, as an outbox: only tracker 0
ever asks for a catch-up.

* `Pair.uplink` (**the abstraction**): the outbox that a pair is, seen from this
  direction; `uplink_client`, `uplink_deliver_dialer`, … say which outbox
  operation each step is.
* `Upright`: the outbox invariant, and that tracker 0 has a user and so never
  asks for a snapshot.
* `Upright.step` (**the step lemma**): every step keeps it, under conditions on
  the ops that tracker 1 records and on the moments at which the link drops.
* `Answered`: once tracker 0 is in its receive loop, its catch-up is on its way
  or has been answered, and then every op has been processed or is on its way.
-/

namespace P2PShare

namespace Pair

/-- **The abstraction**: the ops of tracker 1 as an outbox. -/
def uplink (c : Pair) : Outbox Op where
  issued := (c .acceptor).recorded
  log := (c .acceptor).server.tracker.log
  next := (c .acceptor).server.tracker.nextSeq
  done := (c .dialer).processed
  mark := (c .dialer).server.tracker.appliedPeerSeq
  queue := opsIn (c .dialer).inbox
  acks := acksIn (c .acceptor).inbox
  asks := asksIn (c .acceptor).inbox ++ asksIn (c .dialer).phase.pending

variable {H : Str → Str} {c c' : Pair}

/-! ### Steps as outbox operations -/

/-- A request on tracker 0 is none. -/
lemma uplink_client_dialer (ev : ClientEvent) : (c.client H .dialer ev).uplink = c.uplink := by
  have hdid := Server.serve_did H (c .dialer).server ev
  have hself := c.client_self H .dialer ev
  have hpeer : c.client H .dialer ev .acceptor = _ := c.client_peer H .dialer ev
  obtain ⟨hmark, -⟩ := hdid.log_eq
  rw [uplink, hself, hpeer]
  split <;> simp [uplink, hmark]

/-- A request on tracker 1 issues an op or nothing. -/
lemma uplink_client_acceptor (ev : ClientEvent) :
    ((c .acceptor).server.serve H ev).1 = none ∧ (c.client H .acceptor ev).uplink = c.uplink ∨
    ∃ op, op.seq = c.uplink.next ∧ ev.Accepts H (c .acceptor).server ∧
      (c.client H .acceptor ev).uplink = c.uplink.emit op (c .acceptor).phase.linked := by
  have hdid := Server.serve_did H (c .acceptor).server ev
  have hself := c.client_self H .acceptor ev
  have hpeer : c.client H .acceptor ev .dialer = _ := c.client_peer H .acceptor ev
  obtain ⟨-, hlog, hnext, hseq⟩ := hdid.log_eq
  cases ho : ((c .acceptor).server.serve H ev).1 with
  | none =>
      rw [ho] at hself hpeer hlog hnext
      refine .inl ⟨rfl, ?_⟩
      rw [uplink, hself, hpeer]
      simp [uplink, hlog, hnext]
  | some op =>
      rw [ho] at hself hpeer hlog hnext hseq
      obtain ⟨hop, hacc⟩ := hseq op rfl
      refine .inr ⟨op, hop, hacc, ?_⟩
      rw [uplink, hself, hpeer]
      cases (c .acceptor).phase.linked <;>
        simp [uplink, Outbox.emit, hlog, hnext, opsIn_cons, SyncMsg.asOp]

/-- Connecting is none. -/
lemma uplink_dial (hdown : (c .dialer).phase = .down) :
    (c.set .dialer { c .dialer with phase := .hello }).uplink = c.uplink := by
  have hself := c.set_self .dialer { c .dialer with phase := .hello }
  have hpeer : (c.set .dialer { c .dialer with phase := .hello }) .acceptor = c .acceptor :=
    c.set_peer .dialer _
  rw [uplink, hself, hpeer]
  simp [uplink, hdown, Phase.pending]

/-- The request that tracker 0 is about to send is a catch-up. -/
def AsksCatchup (c : Pair) : Prop :=
  ∀ request, (c .dialer).phase = .ask request → ∃ n, request = [.catchup n]

/-- All that tracker 1 may be about to send is a snapshot request. -/
def AsksSnapshot (c : Pair) : Prop := ∀ m ∈ (c .acceptor).phase.pending, m = .snapshotRequest

/-- Setting up its end of the link, tracker 0 may ask for a catch-up. -/
lemma uplink_advance_dialer (hask : c.AsksCatchup) (hstep : c.advance .dialer = some c') :
    c'.uplink = c.uplink ∨ c'.uplink = c.uplink.ask := by
  rcases advance_cases hstep with
    ⟨hphase, hself, hpeer⟩ | ⟨hphase, hself, hpeer⟩ | ⟨request, hphase, hself, hpeer⟩
  · left
    rw [Role.peer_dialer] at hpeer
    rw [uplink, hself, hpeer]
    simp [uplink, hphase, Phase.pending, acksIn, asksIn, SyncMsg.asAck, SyncMsg.asCatchup]
  · rw [Role.peer_dialer] at hpeer
    rw [uplink, hself, hpeer]
    simp only [Side.request, Tracker.dialRequest, Phase.pending]
    split
    · left
      simp [uplink, hphase, Phase.pending, asksIn, SyncMsg.asCatchup]
    · right
      simp [uplink, Outbox.ask, hphase, Phase.pending, asksIn, SyncMsg.asCatchup]
  · left
    obtain ⟨n, rfl⟩ := hask request hphase
    rw [Role.peer_dialer] at hpeer
    rw [uplink, hself, hpeer]
    simp [uplink, hphase, Phase.pending, acksIn, asksIn, SyncMsg.asAck, SyncMsg.asCatchup]

/-- Setting up its end of the link, tracker 1 sends no op. -/
lemma uplink_advance_acceptor (hpend : c.AsksSnapshot)
    (hstep : c.advance .acceptor = some c') : c'.uplink = c.uplink := by
  rcases advance_cases hstep with
    ⟨hphase, hself, hpeer⟩ | ⟨hphase, hself, hpeer⟩ | ⟨request, hphase, hself, hpeer⟩
  · rw [Role.peer_acceptor] at hpeer
    rw [uplink, hself, hpeer]
    simp [uplink, opsIn, SyncMsg.asOp]
  · rw [Role.peer_acceptor] at hpeer
    rw [uplink, hself, hpeer]
    rfl
  · have hnone : opsIn request = [] := by
      refine List.eq_nil_iff_forall_not_mem.mpr fun op hop => ?_
      have hreq := hpend (.op op) (by rw [hphase]; exact mem_opsIn.mp hop)
      simp at hreq
    rw [Role.peer_acceptor] at hpeer
    rw [uplink, hself, hpeer]
    simp [uplink, hnone]

/-- A message that tracker 0 processes arrives if it is an op. -/
lemma uplink_process_dialer {m : SyncMsg} {rest : List SyncMsg}
    (hinbox : (c .dialer).inbox = m :: rest) :
    (c.process H .dialer m rest).uplink = c.uplink ∧ opsIn rest = c.uplink.queue ∨
    ∃ op raise, m = .op op ∧ c.uplink.queue = op :: opsIn rest ∧
      (c.process H .dialer m rest).uplink = c.uplink.arrive Op.seq op (opsIn rest) raise := by
  have hself := c.process_self H .dialer m rest
  have hpeer := c.process_peer H .dialer m rest
  have hqueue : c.uplink.queue = m.asOp.toList ++ opsIn rest := by
    rw [uplink, hinbox, opsIn_cons]
  rw [Role.peer_dialer] at hpeer
  cases m with
  | op op =>
      right
      refine ⟨op, (applyRemote H (c .dialer).server.tracker.state op).1, rfl, hqueue, ?_⟩
      rw [uplink, hself, hpeer]
      simp [uplink, Outbox.arrive, Tracker.process, Tracker.applyOp, SyncMsg.asOp, acksIn, asksIn,
        SyncMsg.asAck, SyncMsg.asCatchup]
  | hello | catchup | ack | snapshotRequest | snapshotData =>
      left
      refine ⟨?_, hqueue.symm⟩
      rw [uplink, hself, hpeer]
      simp [uplink, Tracker.process, Tracker.trim, SyncMsg.asOp, hinbox, opsIn_cons, acksIn, asksIn,
        SyncMsg.asAck, SyncMsg.asCatchup]

/-- The outbox once tracker 1 has taken a message off its inbox. -/
def uplinkAfter (c : Pair) (f : Outbox Op) (rest : List SyncMsg) : Outbox Op :=
  { f with acks := acksIn rest, asks := asksIn rest ++ asksIn (c .dialer).phase.pending }

/-- Taking a message off the inbox of tracker 1 loses no more than its number. -/
lemma ok_uplinkAfter {f : Outbox Op} (hok : f.Ok Op.seq) {m : SyncMsg} {rest : List SyncMsg}
    (hinbox : (c .acceptor).inbox = m :: rest) (hacks : f.acks = c.uplink.acks)
    (hasks : f.asks = c.uplink.asks) : (c.uplinkAfter f rest).Ok Op.seq := by
  have hsub : ∀ m' ∈ rest, m' ∈ (c .acceptor).inbox := fun m' hm' =>
    hinbox ▸ List.mem_cons_of_mem m hm'
  refine hok.forget (fun n hn => ?_) fun n hn => ?_
  · rw [hacks]
    exact mem_acksIn.mpr (hsub _ (mem_acksIn.mp hn))
  · rw [hasks]
    rcases List.mem_append.mp hn with hn | hn
    · exact List.mem_append_left _ (mem_asksIn.mpr (hsub _ (mem_asksIn.mp hn)))
    · exact List.mem_append_right _ hn

/-- A message that tracker 1 processes trims the log, is answered with what lies
above a mark, or does not matter. -/
lemma uplink_process_acceptor (m : SyncMsg) (rest : List SyncMsg) :
    (∃ n, m = .ack n ∧ (c.process H .acceptor m rest).uplink
      = c.uplinkAfter (c.uplink.trim Op.seq n) rest) ∨
    (∃ n, m = .catchup n ∧ (c.process H .acceptor m rest).uplink
      = c.uplinkAfter (c.uplink.push (c.uplink.above Op.seq n)) rest) ∨
    (∀ n, m ≠ .catchup n) ∧
      (c.process H .acceptor m rest).uplink = c.uplinkAfter c.uplink rest := by
  have hself := c.process_self H .acceptor m rest
  have hpeer := c.process_peer H .acceptor m rest
  rw [Role.peer_acceptor] at hpeer
  cases m with
  | ack n =>
      refine .inl ⟨n, rfl, ?_⟩
      rw [uplink, hself, hpeer]
      simp [uplink, uplinkAfter, Outbox.trim, Tracker.process, Tracker.trim]
  | catchup n =>
      refine .inr (.inl ⟨n, rfl, ?_⟩)
      rw [uplink, hself, hpeer]
      simp [uplink, uplinkAfter, Outbox.push, Outbox.above, Tracker.process, Tracker.catchupFrom]
  | hello | op | snapshotRequest | snapshotData =>
      refine .inr (.inr ⟨by simp, ?_⟩)
      rw [uplink, hself, hpeer]
      simp [uplink, uplinkAfter, Tracker.process, Tracker.applyOp, opsIn_cons, SyncMsg.asOp]

/-! ### The invariant -/

/-- **The invariant**: the ops of tracker 1 are an outbox in order, and tracker 0
has a user, so it only ever asks for a catch-up, and that is answered before it
counts as set up. -/
structure Upright (c : Pair) : Prop where
  ok : c.uplink.Ok Op.seq
  pending : c.AsksSnapshot
  user : ∃ uid, uid ∈ (c .dialer).state.users
  asks : c.AsksCatchup
  unasked : .snapshotRequest ∉ (c .acceptor).inbox
  unfilled : ∀ blob, .snapshotData blob ∉ (c .dialer).inbox
  answered : (c .dialer).phase = .up → (∃ n, .catchup n ∈ (c .acceptor).inbox) ∨
    (c .acceptor).phase = .client ∨ (c .acceptor).phase = .up ∧ c.uplink.Complete

/-- The conditions under which every step keeps the invariant: an op that
tracker 1 records while it has a link does not overtake an older one, one that
it records without a link lies above the mark of tracker 0, and the link does
not drop while the mark has passed an op on its way. -/
def Keeps (H : Str → Str) (c : Pair) : Event → Prop
  | .client .acceptor ev => ev.Accepts H (c .acceptor).server →
      if (c .acceptor).phase.linked then
        ∀ op ∈ (c .acceptor).server.tracker.log,
          op ∈ (c .dialer).processed ∨ op ∈ opsIn (c .dialer).inbox
      else (c .dialer).server.tracker.appliedPeerSeq < (c .acceptor).server.tracker.nextSeq
  | .drop => ∀ op ∈ opsIn (c .dialer).inbox,
      op.seq ≤ (c .dialer).server.tracker.appliedPeerSeq → op ∈ (c .dialer).processed
  | .client .dialer _ | .dial | .advance _ | .deliver _ | .restart _ => True

instance (H : Str → Str) (c : Pair) : ∀ e, Decidable (c.Keeps H e)
  | .client .acceptor _ => inferInstanceAs (Decidable (_ → ite _ _ _))
  | .drop => inferInstanceAs (Decidable (∀ op ∈ _, _ → _))
  | .client .dialer _ | .dial | .advance _ | .deliver _ | .restart _ => .isTrue trivial

namespace Upright

lemma client_dialer (h : c.Upright) (ev : ClientEvent) : (c.client H .dialer ev).Upright := by
  have hup := uplink_client_dialer (H := H) (c := c) ev
  have hself := c.client_self H .dialer ev
  have hpeer := c.client_peer H .dialer ev
  have hdid := Server.serve_did H (c .dialer).server ev
  rw [Role.peer_dialer] at hpeer
  have hsub : ∀ m, m ∈ (c .acceptor).inbox → m ∈ (c.client H .dialer ev .acceptor).inbox := by
    intro m hm
    rw [hpeer]
    exact List.mem_append_left _ hm
  refine ⟨hup ▸ h.ok, ?_, ?_, ?_, ?_, ?_, ?_⟩
  · rw [AsksSnapshot, hpeer]
    exact h.pending
  · obtain ⟨uid, huid⟩ := h.user
    rw [hself]
    exact ⟨uid, hdid.mem_users huid⟩
  · rw [AsksCatchup, hself]
    exact h.asks
  · rw [hpeer]
    intro hm
    rcases List.mem_append.mp hm with hm | hm
    · exact h.unasked hm
    · split at hm <;> simp at hm
  · rw [hself]
    exact h.unfilled
  · rw [hup, hself]
    intro hphase
    rcases h.answered hphase with ⟨n, hn⟩ | hclient | hcomplete
    · exact .inl ⟨n, hsub _ hn⟩
    · exact .inr (.inl (by rw [hpeer]; exact hclient))
    · exact .inr (.inr (by rw [hpeer]; exact hcomplete))

lemma client_acceptor (h : c.Upright) {ev : ClientEvent}
    (hok : c.Keeps H (.client .acceptor ev)) : (c.client H .acceptor ev).Upright := by
  have hself := c.client_self H .acceptor ev
  have hpeer := c.client_peer H .acceptor ev
  rw [Role.peer_acceptor] at hpeer
  have hphase : (c.client H .acceptor ev .acceptor).phase = (c .acceptor).phase := by rw [hself]
  have hinbox : (c.client H .acceptor ev .acceptor).inbox = (c .acceptor).inbox := by rw [hself]
  have hphase' : (c.client H .acceptor ev .dialer).phase = (c .dialer).phase := by rw [hpeer]
  have hfill : ∀ blob, .snapshotData blob ∉ (c.client H .acceptor ev .dialer).inbox := by
    intro blob hmem
    rw [hpeer] at hmem
    rcases List.mem_append.mp hmem with hmem | hmem
    · exact h.unfilled blob hmem
    · split at hmem <;> simp at hmem
  have huser : ∃ uid, uid ∈ (c.client H .acceptor ev .dialer).state.users := by
    rw [hpeer]
    exact h.user
  have hsides : ∀ {f : Outbox Op}, (c.client H .acceptor ev).uplink = f → f.Ok Op.seq →
      ((c .acceptor).phase = .up → c.uplink.Complete → f.Complete) →
      (c.client H .acceptor ev).Upright := by
    rintro f rfl hf hcomp
    refine ⟨hf, ?_, huser, ?_, hinbox ▸ h.unasked, hfill, ?_⟩
    · rw [AsksSnapshot, hphase]
      exact h.pending
    · rw [AsksCatchup, hphase']
      exact h.asks
    · rw [hphase', hphase, hinbox]
      intro hup
      rcases h.answered hup with hn | hclient | ⟨hlink, hcomplete⟩
      · exact .inl hn
      · exact .inr (.inl hclient)
      · exact .inr (.inr ⟨hlink, hcomp hlink hcomplete⟩)
  rcases uplink_client_acceptor (H := H) (c := c) ev with ⟨-, heq⟩ | ⟨op, hseq, hacc, heq⟩
  · exact hsides heq h.ok fun _ hcomplete => hcomplete
  · have hcond := hok hacc
    refine hsides heq (h.ok.emit hseq (fun hlink => ?_) fun hlink => ?_) fun hlink hcomplete => ?_
    · rw [if_pos hlink] at hcond
      exact hcond
    · rw [if_neg (by simp [hlink])] at hcond
      exact hcond
    · rw [hlink]
      exact hcomplete.emit op

/-- The link set-up on tracker 0. -/
lemma advance_dialer (h : c.Upright) (hstep : c.advance .dialer = some c') : c'.Upright := by
  have hok : c'.uplink.Ok Op.seq := by
    rcases uplink_advance_dialer h.asks hstep with heq | heq
    · exact heq ▸ h.ok
    · exact heq ▸ h.ok.ask
  have hfull : (c .dialer).state.isEmpty = false := by
    obtain ⟨uid, huid⟩ := h.user
    exact TrackerState.isEmpty_eq_false huid
  rcases advance_cases hstep with
    ⟨hphase, hself, hpeer⟩ | ⟨hphase, hself, hpeer⟩ | ⟨request, hphase, hself, hpeer⟩
  · rw [Role.peer_dialer] at hpeer
    refine ⟨hok, by rw [AsksSnapshot, hpeer]; exact h.pending, by rw [hself]; exact h.user, ?_, ?_,
      by rw [hself]; exact h.unfilled, ?_⟩
    · simp [AsksCatchup, hself]
    · simpa [hpeer] using h.unasked
    · simp [hself]
  · rw [Role.peer_dialer] at hpeer
    refine ⟨hok, by rw [AsksSnapshot, hpeer]; exact h.pending, by rw [hself]; exact h.user, ?_,
      by rw [hpeer]; exact h.unasked, by rw [hself]; exact h.unfilled, ?_⟩
    · intro request hrequest
      rw [hself] at hrequest
      obtain rfl : (c .dialer).request .dialer = request := Phase.ask.inj hrequest
      refine ⟨(c .dialer).server.tracker.appliedPeerSeq, ?_⟩
      rw [Side.request, Tracker.dialRequest, if_neg]
      simpa [Side.state] using hfull
    · simp [hself]
  · obtain ⟨n, rfl⟩ := h.asks request hphase
    rw [Role.peer_dialer] at hpeer
    refine ⟨hok, by rw [AsksSnapshot, hpeer]; exact h.pending, by rw [hself]; exact h.user, ?_, ?_,
      by rw [hself]; exact h.unfilled, fun _ => .inl ⟨n, by simp [hpeer]⟩⟩
    · simp [AsksCatchup, hself]
    · simpa [hpeer] using h.unasked

/-- The link set-up on tracker 1. -/
lemma advance_acceptor (h : c.Upright) (hstep : c.advance .acceptor = some c') : c'.Upright := by
  have heq := uplink_advance_acceptor h.pending hstep
  have hlate : ∀ {phase : Phase}, (c .acceptor).phase = phase → phase ≠ .client → phase ≠ .up →
      (c .dialer).phase = .up → ∃ n, .catchup n ∈ (c .acceptor).inbox := by
    intro phase hphase hclient hlink hup
    rcases h.answered hup with hn | hc | hc
    · exact hn
    · exact absurd (hphase.symm.trans hc) hclient
    · exact absurd (hphase.symm.trans hc.1) hlink
  rcases advance_cases hstep with
    ⟨hphase, hself, hpeer⟩ | ⟨hphase, hself, hpeer⟩ | ⟨request, hphase, hself, hpeer⟩
  · rw [Role.peer_acceptor] at hpeer
    refine ⟨heq ▸ h.ok, by simp [AsksSnapshot, hself, Phase.pending], by rw [hpeer]; exact h.user,
      by rw [AsksCatchup, hpeer]; exact h.asks, by rw [hself]; exact h.unasked, ?_, ?_⟩
    · simpa [hpeer] using h.unfilled
    · rw [hpeer, hself]
      exact fun hup => .inl (hlate hphase (by simp) (by simp) hup)
  · rw [Role.peer_acceptor] at hpeer
    refine ⟨heq ▸ h.ok, ?_, by rw [hpeer]; exact h.user,
      by rw [AsksCatchup, hpeer]; exact h.asks, by rw [hself]; exact h.unasked,
      by rw [hpeer]; exact h.unfilled, ?_⟩
    · intro m hm
      rw [hself] at hm
      simp only [Phase.pending, Side.request, Tracker.acceptRequest] at hm
      split at hm
      · exact List.mem_singleton.mp hm
      · cases hm
    · rw [hpeer, hself]
      exact fun hup => .inl (hlate hphase (by simp) (by simp) hup)
  · rw [Role.peer_acceptor] at hpeer
    refine ⟨heq ▸ h.ok, by simp [AsksSnapshot, hself, Phase.pending], by rw [hpeer]; exact h.user,
      by rw [AsksCatchup, hpeer]; exact h.asks, by rw [hself]; exact h.unasked, ?_, ?_⟩
    · intro blob hmem
      rw [hpeer] at hmem
      rcases List.mem_append.mp hmem with hmem | hmem
      · exact h.unfilled blob hmem
      · have hreq := h.pending _ (by rw [hphase]; exact hmem)
        simp at hreq
    · rw [hpeer, hself]
      exact fun hup => .inl (hlate hphase (by simp) (by simp) hup)

/-- Tracker 0 processes a message. -/
lemma process_dialer (h : c.Upright) (hup : (c .dialer).phase = .up) {m : SyncMsg}
    {rest : List SyncMsg} (hinbox : (c .dialer).inbox = m :: rest) :
    (c.process H .dialer m rest).Upright := by
  have hself := c.process_self H .dialer m rest
  have hpeer := c.process_peer H .dialer m rest
  rw [Role.peer_dialer] at hpeer
  have hblob : ∀ blob, m ≠ .snapshotData blob := fun blob hm =>
    h.unfilled blob (by rw [hinbox, hm]; exact List.mem_cons_self)
  have huser : ∃ uid, uid ∈ (c.process H .dialer m rest .dialer).state.users := by
    obtain ⟨uid, huid⟩ := h.user
    rw [hself]
    exact ⟨uid, mem_users_process hblob huid⟩
  have hasked : .snapshotRequest ∉ (c.process H .dialer m rest .acceptor).inbox := by
    rw [hpeer]
    intro hmem
    rcases List.mem_append.mp hmem with hmem | hmem
    · exact h.unasked hmem
    · rcases Tracker.answer_cases hmem with ⟨n, -, op, -, hm⟩ | ⟨op, -, hm⟩ | ⟨-, hm⟩ <;> cases hm
  have hfill : ∀ blob, .snapshotData blob ∉ (c.process H .dialer m rest .dialer).inbox := by
    intro blob hmem
    rw [hself] at hmem
    exact h.unfilled blob (hinbox ▸ List.mem_cons_of_mem m hmem)
  have hsides : ∀ {f : Outbox Op}, (c.process H .dialer m rest).uplink = f → f.Ok Op.seq →
      (c.uplink.Complete → f.Complete) → (c.process H .dialer m rest).Upright := by
    rintro f rfl hf hcomp
    refine ⟨hf, by rw [AsksSnapshot, hpeer]; exact h.pending, huser, ?_, hasked, hfill, fun _ => ?_⟩
    · rw [AsksCatchup, hself]
      exact h.asks
    · rcases h.answered hup with ⟨n, hn⟩ | hclient | ⟨hlink, hcomplete⟩
      · exact .inl ⟨n, by rw [hpeer]; exact List.mem_append_left _ hn⟩
      · exact .inr (.inl (by rw [hpeer]; exact hclient))
      · exact .inr (.inr ⟨by rw [hpeer]; exact hlink, hcomp hcomplete⟩)
  rcases uplink_process_dialer (H := H) hinbox with ⟨heq, -⟩ | ⟨op, raise, -, hqueue, heq⟩
  · exact hsides heq h.ok id
  · exact hsides heq (h.ok.arrive hqueue raise) fun hcomplete => hcomplete.arrive hqueue raise

/-- Tracker 1 processes a message. -/
lemma process_acceptor (h : c.Upright) (hup : (c .acceptor).phase = .up) {m : SyncMsg}
    {rest : List SyncMsg} (hinbox : (c .acceptor).inbox = m :: rest) :
    (c.process H .acceptor m rest).Upright := by
  have hself := c.process_self H .acceptor m rest
  have hpeer := c.process_peer H .acceptor m rest
  rw [Role.peer_acceptor] at hpeer
  have hmem : m ∈ (c .acceptor).inbox := hinbox ▸ List.mem_cons_self
  have hrest : ∀ m' ∈ rest, m' ∈ (c .acceptor).inbox := fun m' hm' =>
    hinbox ▸ List.mem_cons_of_mem m hm'
  -- there is no snapshot in the answer, as none has been asked for
  have hfill : ∀ blob, .snapshotData blob ∉ (c.process H .acceptor m rest .dialer).inbox := by
    intro blob hblob
    rw [hpeer] at hblob
    rcases List.mem_append.mp hblob with hblob | hblob
    · exact h.unfilled blob hblob
    · rcases Tracker.answer_cases hblob with ⟨n, -, op, -, hm⟩ | ⟨op, -, hm⟩ | ⟨hm, -⟩
      · cases hm
      · cases hm
      · exact h.unasked (hm ▸ hmem)
  have hsides : ∀ {f : Outbox Op}, (c.process H .acceptor m rest).uplink = f → f.Ok Op.seq →
      ((∀ n, m = .catchup n → f.Complete) ∧ (c.uplink.Complete → f.Complete)) →
      (c.process H .acceptor m rest).Upright := by
    rintro f rfl hf ⟨hask, hcomp⟩
    refine ⟨hf, by rw [AsksSnapshot, hself]; exact h.pending, by rw [hpeer]; exact h.user,
      by rw [AsksCatchup, hpeer]; exact h.asks, ?_, hfill, ?_⟩
    · rw [hself]
      exact fun hm => h.unasked (hrest _ hm)
    · rw [hpeer, hself]
      intro hdialer
      rcases h.answered hdialer with ⟨n, hn⟩ | hclient | ⟨hlink, hcomplete⟩
      · rw [hinbox] at hn
        rcases List.mem_cons.mp hn with hm | hn
        · exact .inr (.inr ⟨hup, hask n hm.symm⟩)
        · exact .inl ⟨n, hn⟩
      · exact .inr (.inl hclient)
      · exact .inr (.inr ⟨hlink, hcomp hcomplete⟩)
  -- an acknowledgement trims the log, a catch-up request is answered from it
  rcases uplink_process_acceptor (H := H) (c := c) m rest with
    ⟨n, rfl, heq⟩ | ⟨n, rfl, heq⟩ | ⟨hne, heq⟩
  · have hn : n ∈ c.uplink.acks := mem_acksIn.mpr hmem
    exact hsides heq (ok_uplinkAfter (h.ok.trim hn) hinbox rfl rfl) ⟨by simp, id⟩
  · have hn : n ∈ c.uplink.asks := List.mem_append_left _ (mem_asksIn.mpr hmem)
    obtain ⟨hok, hcomplete⟩ := h.ok.answer hn
    exact hsides heq (ok_uplinkAfter hok hinbox rfl rfl) ⟨fun _ _ => hcomplete, fun _ => hcomplete⟩
  · exact hsides heq (ok_uplinkAfter h.ok hinbox rfl rfl) ⟨fun n hm => absurd hm (hne n), id⟩

/-- Tracker 1 reads a message, as a peer or not. -/
lemma deliver_acceptor (h : c.Upright) (hstep : c.deliver H .acceptor = some c') :
    c'.Upright := by
  obtain ⟨m, rest, hinbox, -, hcase⟩ := deliver_cases hstep
  rcases hcase with ⟨hup, rfl⟩ | ⟨-, hdialer, hcase⟩
  · exact h.process_acceptor hup hinbox
  · have hok : c'.uplink = c.uplinkAfter c.uplink rest → c'.uplink.Ok Op.seq := fun heq =>
      heq ▸ ok_uplinkAfter h.ok hinbox rfl rfl
    have hunasked : .snapshotRequest ∉ rest := fun hm =>
      h.unasked (hinbox ▸ List.mem_cons_of_mem m hm)
    rcases hcase with ⟨hdown, hhello, hself⟩ | ⟨hdown, -, hself⟩ | ⟨hclient, hself⟩
    · refine ⟨hok (by rw [uplink, hself, hdialer]; rfl),
        by simp [AsksSnapshot, hself, Phase.pending], by rw [hdialer]; exact h.user,
        by rw [AsksCatchup, hdialer]; exact h.asks,
        by rw [hself]; exact hunasked, by rw [hdialer]; exact h.unfilled, ?_⟩
      rw [hdialer, hself]
      intro hup
      rcases h.answered hup with ⟨n, hn⟩ | hclient | ⟨hlink, -⟩
      · rw [hinbox] at hn
        rcases List.mem_cons.mp hn with rfl | hn
        · cases hhello
        · exact .inl ⟨n, hn⟩
      · exact .inr (.inl (by rw [hdown] at hclient; cases hclient))
      · rw [hdown] at hlink
        cases hlink
    · refine ⟨hok (by rw [uplink, hself, hdialer]; rfl),
        by simp [AsksSnapshot, hself, Phase.pending], by rw [hdialer]; exact h.user,
        by rw [AsksCatchup, hdialer]; exact h.asks,
        by rw [hself]; exact hunasked, by rw [hdialer]; exact h.unfilled, fun _ => .inr (.inl ?_)⟩
      rw [hself]
    · refine ⟨hok (by rw [uplink, hself, hdialer]; rfl),
        by rw [AsksSnapshot, hself]; exact h.pending, by rw [hdialer]; exact h.user,
        by rw [AsksCatchup, hdialer]; exact h.asks,
        by rw [hself]; exact hunasked, by rw [hdialer]; exact h.unfilled, fun _ => .inr (.inl ?_)⟩
      rw [hself]
      exact hclient

/-- The link drops. -/
lemma drop (h : c.Upright) (hok : c.Keeps H .drop) : Upright fun r => (c r).cut where
  ok := h.ok.cut hok
  pending m hm := by cases hm
  user := h.user
  asks request hrequest := by cases hrequest
  unasked hm := by cases hm
  unfilled blob hm := by cases hm
  answered hup := by cases hup

/-- Tracker 0 connects. -/
lemma dial (h : c.Upright) (hdown : (c .dialer).phase = .down) :
    Upright (c.set .dialer { c .dialer with phase := .hello }) := by
  have hself : (c.set .dialer { c .dialer with phase := .hello }) .dialer = _ :=
    c.set_self .dialer _
  have hpeer : (c.set .dialer { c .dialer with phase := .hello }) .acceptor = c .acceptor :=
    c.set_peer .dialer _
  exact ⟨uplink_dial hdown ▸ h.ok, by rw [AsksSnapshot, hpeer]; exact h.pending,
    by rw [hself]; exact h.user, by simp [AsksCatchup], by rw [hpeer]; exact h.unasked,
    by rw [hself]; exact h.unfilled, by simp⟩

/-- Tracker 1 starts again: it has recorded nothing yet. -/
lemma restart (h : c.Upright) :
    Upright fun r => if r = .acceptor then .start else { (c r).cut with processed := [] } where
  ok := .blank 1 (c .dialer).server.tracker.appliedPeerSeq
  pending m hm := by cases hm
  user := h.user
  asks request hrequest := by cases hrequest
  unasked hm := by cases hm
  unfilled blob hm := by cases hm
  answered hup := by cases hup

/-- **The step lemma.** -/
theorem step (h : c.Upright) {e : Event} (hstay : e.Spares .dialer) (hok : c.Keeps H e)
    (hstep : c.step H e = some c') : c'.Upright := by
  cases e with
  | client r ev =>
      obtain rfl : c.client H r ev = c' := Option.some.inj hstep
      cases r with
      | dialer => exact h.client_dialer ev
      | acceptor => exact h.client_acceptor hok
  | dial =>
      rw [Pair.step] at hstep
      split at hstep
      · next hdown =>
          obtain rfl := Option.some.inj hstep
          exact h.dial hdown
      · cases hstep
  | advance r =>
      cases r with
      | dialer => exact h.advance_dialer hstep
      | acceptor => exact h.advance_acceptor hstep
  | deliver r =>
      cases r with
      | acceptor => exact h.deliver_acceptor hstep
      | dialer =>
          obtain ⟨m, rest, hinbox, -, ⟨hup, rfl⟩ | ⟨hrole, -⟩⟩ := deliver_cases hstep
          · exact h.process_dialer hup hinbox
          · cases hrole
  | drop =>
      rw [Pair.step] at hstep
      split at hstep
      · cases hstep
      · obtain rfl := Option.some.inj hstep
        exact h.drop hok
  | restart r =>
      cases r with
      | dialer => exact absurd rfl hstay
      | acceptor =>
          obtain rfl := Option.some.inj hstep
          exact h.restart

/-- **In a quiet state** with the link up, every op of tracker 1 has been
processed. -/
theorem mem_processed (h : c.Upright) (hquiet : c.Quiet) {op : Op}
    (hop : op ∈ (c .acceptor).recorded) : op ∈ (c .dialer).processed := by
  rcases h.answered (hquiet .dialer).1 with ⟨n, hn⟩ | hclient | ⟨-, hcomplete⟩
  · rw [(hquiet .acceptor).2] at hn
    cases hn
  · rw [(hquiet .acceptor).1] at hclient
    cases hclient
  · rcases hcomplete op hop with hdone | hqueue
    · exact hdone
    · rw [uplink, (hquiet .dialer).2] at hqueue
      cases hqueue

end Upright

end Pair

end P2PShare
