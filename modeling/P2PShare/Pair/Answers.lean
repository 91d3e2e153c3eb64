import P2PShare.Pair.Basic

/-!
The pair of trackers when an answer is worked out and sent in two steps:
`process_peer_message` takes the snapshot, and `send_catchup_from` the ops, before it
locks `__send_mu`, so the ops of clients can be written in between.

* `Held`: the pair, and the answer that each reading thread has in hand.
* `Held.step`: the steps of `Pair.step`, where a delivery leaves the answer in the hands
  of the thread, and the sending of it.
* `Held.flush`: the pair with these answers on their way.
* `flush_step` (**simulation**): each step is one of that pair or none, except that the op
  of a client overtakes the answer that its tracker has in hand; `client_flush` says what
  it comes to then.
-/

namespace P2PShare

/-- The two trackers, and the answers that their reading threads have in hand. -/
structure Held where
  pair : Pair
  held : Role → List SyncMsg

/-- What can happen. -/
inductive HeldEvent
  | event (e : Event)
  /-- The reading thread locks `__send_mu` and sends its answer. -/
  | send (r : Role)

/-- Not the restart of this tracker. -/
def HeldEvent.Spares (r : Role) : HeldEvent → Prop
  | .event e => e.Spares r
  | .send _ => True

instance (r : Role) : ∀ e : HeldEvent, Decidable (e.Spares r)
  | .event e => inferInstanceAs (Decidable (e.Spares r))
  | .send _ => .isTrue trivial

namespace Held

/-- Two trackers that have just started. -/
def start : Held := ⟨fun _ => .start, fun _ => []⟩

/-- A client event. The op it records goes out before any answer in hand. -/
def client (H : Str → Str) (s : Held) (r : Role) (ev : ClientEvent) : Held :=
  ⟨s.pair.client H r ev, s.held⟩

/-- A tracker in its receive loop processes a message and has the answer to send. -/
def process (H : Str → Str) (s : Held) (r : Role) (m : SyncMsg) (rest : List SyncMsg) : Held :=
  let x := s.pair r
  let res := x.server.tracker.process H m
  ⟨s.pair.set r
    { x with
      server := { x.server with tracker := res.2 }
      inbox := rest
      processed := x.processed ++ m.asOp.toList }, Function.update s.held r res.1⟩

/-- A tracker reads the next message, unless it has an answer to send. Only the receive
loop answers. -/
def deliver (H : Str → Str) (s : Held) (r : Role) : Option Held :=
  if s.held r ≠ [] then none
  else match (s.pair r).phase, (s.pair r).inbox with
    | .up, m :: rest => if m.Sendable then some (s.process H r m rest) else none
    | _, _ => (s.pair.deliver H r).map fun c => ⟨c, s.held⟩

/-- One step. When the link is lost, so are the answers. -/
def step (H : Str → Str) (s : Held) : HeldEvent → Option Held
  | .event (.client r ev) => some (s.client H r ev)
  | .event .dial => (s.pair.step H .dial).map fun c => ⟨c, s.held⟩
  | .event (.advance r) =>
      if s.held r ≠ [] then none else (s.pair.advance r).map fun c => ⟨c, s.held⟩
  | .event (.deliver r) => s.deliver H r
  | .event .drop => (s.pair.step H .drop).map fun c => ⟨c, fun _ => []⟩
  | .event (.restart r) => (s.pair.step H (.restart r)).map fun c => ⟨c, fun _ => []⟩
  | .send r =>
      if s.held r = [] then none
      else some ⟨s.pair.post r.peer (s.held r), Function.update s.held r []⟩

/-- The pair with the answers on their way. -/
def flush (s : Held) : Pair := fun r =>
  { s.pair r with inbox := (s.pair r).inbox ++ s.held r.peer }

/-- The link is up on both sides, nothing is on its way and no answer is to be sent. -/
def Quiet (s : Held) : Prop := s.pair.Quiet ∧ ∀ r, s.held r = []

instance (s : Held) : Decidable s.Quiet := inferInstanceAs (Decidable (_ ∧ _))

variable {H : Str → Str} {s s' : Held} {r : Role}

/-- Nothing in hand, and the pair is as it is. -/
lemma flush_eq (h : ∀ r, s.held r = []) : s.flush = s.pair := by
  funext r
  rw [flush, h r.peer, List.append_nil]

lemma Quiet.flush (h : s.Quiet) : s.flush.Quiet := by
  rw [flush_eq h.2]
  exact h.1

/-- Two pairs that agree from the side of a tracker. -/
lemma pair_ext {c c' : Pair} (r : Role) (hself : c r = c' r) (hpeer : c r.peer = c' r.peer) :
    c = c' :=
  funext (Role.forall_of_peer r hself hpeer)

/-- **A client event**: the op goes ahead of what its tracker has in hand. -/
lemma client_flush (s : Held) (r : Role) (ev : ClientEvent) :
    let pushed := if (s.pair r).phase.linked then
      ((s.pair r).server.serve H ev).1.toList.map SyncMsg.op else []
    (s.client H r ev).flush r = s.flush.client H r ev r ∧
      (s.client H r ev).flush r.peer =
        { s.pair r.peer with inbox := (s.pair r.peer).inbox ++ pushed ++ s.held r } ∧
      s.flush.client H r ev r.peer =
        { s.pair r.peer with inbox := (s.pair r.peer).inbox ++ s.held r ++ pushed } := by
  refine ⟨?_, ?_, ?_⟩
  · simp [flush, client]
  · simp [flush, client]
  · simp [flush]
    rfl

/-- Without an answer in hand, or without an op, nothing is overtaken. -/
lemma client_flush_eq {ev : ClientEvent}
    (h : s.held r = [] ∨ ((s.pair r).server.serve H ev).1 = none) :
    (s.client H r ev).flush = s.flush.client H r ev := by
  obtain ⟨hself, hpeer, hpeer'⟩ := s.client_flush (H := H) r ev
  refine pair_ext r hself (hpeer.trans (Eq.trans ?_ hpeer'.symm))
  rcases h with hheld | hnone
  · rw [hheld, List.append_nil, List.append_nil]
  · rw [hnone]
    simp

/-- A delivery in the receive loop. -/
lemma flush_process (hheld : s.held r = []) {m : SyncMsg} {rest : List SyncMsg} :
    (s.process H r m rest).flush = s.flush.process H r m (rest ++ s.held r.peer) := by
  refine pair_ext r ?_ ?_
  · rw [Pair.process_self, flush, process]
    simp [flush]
  · rw [Pair.process_peer, flush, process]
    simp [flush, hheld]

/-- A delivery that is not answered. -/
lemma flush_deliver {c : Pair} (hdeliver : s.pair.deliver H r = some c)
    (hup : (s.pair r).phase ≠ .up) : s.flush.deliver H r = some (flush ⟨c, s.held⟩) := by
  obtain ⟨m, rest, hinbox, hm, hcase⟩ := Pair.deliver_cases hdeliver
  obtain ⟨rfl, hdialer, hcase⟩ := hcase.resolve_left fun h => hup h.1
  have hflush : (s.flush .acceptor).inbox = m :: (rest ++ s.held .dialer) := by
    rw [flush]
    dsimp only
    rw [hinbox]
    rfl
  have hphase : (s.flush .acceptor).phase = (s.pair .acceptor).phase := rfl
  have heq : ∀ phase : Phase,
      c .acceptor = { s.pair .acceptor with phase := phase, inbox := rest } →
      s.flush.set .acceptor { s.flush .acceptor with
        phase := phase, inbox := rest ++ s.held .dialer } = flush ⟨c, s.held⟩ := by
    intro phase hself
    refine pair_ext .acceptor ?_ ?_
    · simp [flush, hself]
    · rw [Pair.set_peer]
      simp [flush, hdialer]
  rcases hcase with ⟨hdown, htype, hself⟩ | ⟨hdown, htype, hself⟩ | ⟨hclient, hself⟩
  · rw [← heq _ hself, Pair.deliver]
    simp [hflush, hphase, hdown, hm, htype]
  · rw [← heq _ hself, Pair.deliver]
    simp [hflush, hphase, hdown, hm, htype]
  · rw [← heq .client (by rw [hself, ← hclient]), Pair.deliver]
    simp [hflush, hphase, hclient, hm]

/-- A tracker that has nothing in hand goes on setting up the link. -/
lemma flush_set (phase : Phase) :
    flush ⟨s.pair.set r { s.pair r with phase := phase }, s.held⟩ =
      s.flush.set r { s.flush r with phase := phase } := by
  refine pair_ext r ?_ ?_
  · simp [flush]
  · simp [flush]

/-- The same when it sends messages. -/
lemma flush_post (hheld : s.held r = []) (phase : Phase) (msgs : List SyncMsg) :
    flush ⟨(s.pair.set r { s.pair r with phase := phase }).post r.peer msgs, s.held⟩ =
      (s.flush.set r { s.flush r with phase := phase }).post r.peer msgs := by
  refine pair_ext r ?_ ?_
  · simp [flush]
  · simp [flush, hheld]

lemma flush_advance {c : Pair} (hheld : s.held r = []) (hadvance : s.pair.advance r = some c) :
    s.flush.advance r = some (flush ⟨c, s.held⟩) := by
  have hphase : (s.flush r).phase = (s.pair r).phase := rfl
  have hrequest : (s.flush r).request r = (s.pair r).request r := by cases r <;> rfl
  rw [Pair.advance] at hadvance
  rw [Pair.advance, hphase]
  cases hr : (s.pair r).phase with
  | hello =>
      obtain rfl : _ = c := by simpa [hr] using hadvance
      exact congrArg some (flush_post hheld .choose [.hello r.index]).symm
  | choose =>
      obtain rfl : _ = c := by simpa [hr] using hadvance
      rw [← hrequest]
      exact congrArg some (flush_set _).symm
  | ask request =>
      obtain rfl : _ = c := by simpa [hr] using hadvance
      exact congrArg some (flush_post hheld .up request).symm
  | down | up | client => simp [hr] at hadvance

/-- The sending of an answer leaves the pair with the answers on their way as it is. -/
lemma flush_send (hstep : s.step H (.send r) = some s') : s'.flush = s.flush := by
  rw [step] at hstep
  split at hstep
  · cases hstep
  · obtain rfl := Option.some.inj hstep
    refine pair_ext r ?_ ?_
    · simp [flush]
    · simp [flush]

/-- What a tracker has in hand it has worked out. -/
lemma held_step {e : HeldEvent} (hstep : s.step H e = some s') {m : SyncMsg}
    (hm : m ∈ s'.held r) :
    m ∈ s.held r ∨ ∃ (t : Tracker) (m' : SyncMsg), m ∈ (t.process H m').1 := by
  -- only the answers of the tracker that acts change
  have hkeep : ∀ (r' : Role) (msgs : List SyncMsg), m ∈ Function.update s.held r' msgs r →
      m ∈ msgs ∨ m ∈ s.held r := by
    intro r' msgs hupdate
    by_cases hr : r = r'
    · subst hr
      rw [Function.update_self] at hupdate
      exact .inl hupdate
    · rw [Function.update_of_ne hr] at hupdate
      exact .inr hupdate
  cases e with
  | send r' =>
      rw [step] at hstep
      split at hstep
      · cases hstep
      · obtain rfl := Option.some.inj hstep
        exact .inl ((hkeep r' [] hm).resolve_left List.not_mem_nil)
  | event e =>
      cases e with
      | client r' ev =>
          obtain rfl := Option.some.inj hstep
          exact .inl hm
      | dial =>
          obtain ⟨c, -, rfl⟩ := Option.map_eq_some_iff.mp hstep
          exact .inl hm
      | advance r' =>
          rw [step] at hstep
          split at hstep
          · cases hstep
          · obtain ⟨c, -, rfl⟩ := Option.map_eq_some_iff.mp hstep
            exact .inl hm
      | deliver r' =>
          rw [step, deliver] at hstep
          split at hstep
          · cases hstep
          · split at hstep
            · next m' rest _ _ =>
                split at hstep
                · obtain rfl := Option.some.inj hstep
                  -- what is held from now on is the answer to the message that is read
                  exact (hkeep r' _ hm).symm.imp_right fun hm => ⟨_, m', hm⟩
                · cases hstep
            · obtain ⟨c, -, rfl⟩ := Option.map_eq_some_iff.mp hstep
              exact .inl hm
      | drop =>
          obtain ⟨c, -, rfl⟩ := Option.map_eq_some_iff.mp hstep
          cases hm
      | restart r' =>
          obtain rfl := Option.some.inj hstep
          cases hm

/-- **Simulation**: but for the ops of clients, each step is one of the pair with the
answers on their way. -/
lemma flush_step {e : Event} (hno : ∀ r ev, e ≠ .client r ev)
    (hstep : s.step H (.event e) = some s') : s.flush.step H e = some s'.flush := by
  cases e with
  | client r ev => exact absurd rfl (hno r ev)
  | dial =>
      obtain ⟨c, hdial, rfl⟩ := Option.map_eq_some_iff.mp hstep
      rw [Pair.step] at hdial
      split at hdial
      · next hdown =>
          obtain rfl := Option.some.inj hdial
          have hdown' : (s.flush .dialer).phase = .down := hdown
          rw [Pair.step, if_pos hdown']
          exact congrArg some (flush_set .hello).symm
      · cases hdial
  | advance r =>
      rw [step] at hstep
      split at hstep
      · cases hstep
      · next hheld =>
          obtain ⟨c, hadvance, rfl⟩ := Option.map_eq_some_iff.mp hstep
          exact flush_advance (not_not.mp hheld) hadvance
  | deliver r =>
      rw [step, deliver] at hstep
      split at hstep
      · cases hstep
      · next hheld =>
          rw [not_not] at hheld
          split at hstep
          · next m rest hup hinbox =>
              split at hstep
              · next hm =>
                  obtain rfl := Option.some.inj hstep
                  have hflush : (s.flush r).inbox = m :: (rest ++ s.held r.peer) := by
                    rw [flush]
                    dsimp only
                    rw [hinbox, List.cons_append]
                  have hphase : (s.flush r).phase = .up := hup
                  rw [Pair.step, Pair.deliver, flush_process hheld]
                  cases r <;> simp [hflush, hphase, hm]
              · cases hstep
          · next hno =>
              -- the accept loop reads the first message, or a client session does
              obtain ⟨c, hdeliver, rfl⟩ := Option.map_eq_some_iff.mp hstep
              refine flush_deliver hdeliver fun hup => ?_
              obtain ⟨m, rest, hinbox, -⟩ := Pair.deliver_cases hdeliver
              exact hno m rest hup hinbox
  | drop =>
      obtain ⟨c, hdrop, rfl⟩ := Option.map_eq_some_iff.mp hstep
      rw [Pair.step] at hdrop
      split at hdrop
      · cases hdrop
      · next hup =>
          obtain rfl := Option.some.inj hdrop
          have hup' : (s.flush .dialer).phase ≠ .down := hup
          rw [Pair.step, if_neg hup', Option.some_inj]
          funext r
          simp [flush, Side.cut]
  | restart r =>
      obtain rfl := Option.some.inj hstep
      rw [Pair.step, Option.some_inj]
      funext r'
      by_cases hr : r' = r
      · simp [flush, hr]
      · simp [flush, hr, Side.cut]

end Held

end P2PShare
