import P2PShare.Pair.Accounts
import P2PShare.Pair.Answers

/-!
The recovery of a tracker that has started again while its peer has stayed up.

* `Pair.Recovers`: the condition on the test whether the state is empty, and on
  what clients register.
* `Held.Recovers` (**the condition**): that one, and none of the peer's clients
  registers an account while it has a snapshot in hand.
* `Side.Sane`: what holds of a tracker in any run.
* `Mending` (**the invariant**): it is `Sane`, and `Traffic` and `Recovering` hold
  of the tracker and its peer, with the answers on their way.
* `accounts_recovered`: in the runs that meet the condition, whenever the link is
  quiet the tracker has every account of its peer; `client_before_link` is a run
  that does not.
-/

namespace P2PShare

namespace Pair

/-- A client registers an account. No other hash of this user id is known, and
the tracker that recovers is not between the test that leads to a snapshot request
and the loading of the snapshot. -/
def Registers (H : Str → Str) (t : Role) (c : Pair) (r : Role) (a : Account) : Prop :=
  (∀ b ∈ (c t).known H (c t.peer), b.1 = a.1 → b = a) ∧
    (r = t → ¬ (c t).Requested (c t.peer) ∧ ∀ m ∈ (c t).inbox, m.type ≠ .syncSnapshotData)

instance (H : Str → Str) (t : Role) (c : Pair) (r : Role) (a : Account) :
    Decidable (c.Registers H t r a) :=
  inferInstanceAs (Decidable ((∀ _ ∈ _, _ → _) ∧ (_ → ¬ (_ ∨ _) ∧ ∀ _ ∈ _, _)))

/-- The tracker that recovers tests whether its state is empty. It is, or each
account of the peer is in the state, on its way or in the backlog that will be
sent, with one hash for each user id. -/
def TestsEmpty (H : Str → Str) (t : Role) (c : Pair) : Prop :=
  (c t).state.isEmpty = true ∨
    (∀ a ∈ (c t.peer).state.accounts,
      a ∈ (c t).state.accounts ++ accountsIn H ((c t).inbox ++ (c t).backlog (c t.peer) t)) ∧
    Unambiguous ((c t).known H (c t.peer) ++ accountsIn H ((c t).backlog (c t.peer) t))

instance (H : Str → Str) (t : Role) (c : Pair) : Decidable (c.TestsEmpty H t) :=
  inferInstanceAs (Decidable (_ ∨ (∀ _ ∈ _, _) ∧ _))

/-- A client registers an account on the tracker `r`. -/
def RegistersAt (H : Str → Str) (r : Role) (c : Pair) : Event → Prop
  | .client r' ev => r' = r ∧ ∃ call ∈ ev.call (c r).server,
      ((c r).state.exec H call).1 = .ok ∧ call.accounts H ≠ []
  | .dial | .advance _ | .deliver _ | .drop | .restart _ => False

instance (H : Str → Str) (r : Role) (c : Pair) : ∀ e, Decidable (c.RegistersAt H r e)
  | .client .. => inferInstanceAs (Decidable (_ ∧ ∃ _ ∈ _, _ ∧ _ ≠ []))
  | .dial | .advance _ | .deliver _ | .drop | .restart _ => .isFalse id

/-- The condition on a step of the pair. -/
def Recovers (H : Str → Str) (t : Role) (c : Pair) : Event → Prop
  | .client r ev => ∀ call ∈ ev.call (c r).server, ((c r).state.exec H call).1 = .ok →
      ∀ a ∈ call.accounts H, c.Registers H t r a
  | .advance r => r = t → (c t).phase = .choose → c.TestsEmpty H t
  | .dial | .deliver _ | .drop | .restart _ => True

instance (H : Str → Str) (t : Role) (c : Pair) : ∀ e, Decidable (c.Recovers H t e)
  | .client .. => inferInstanceAs (Decidable (∀ _ ∈ _, _ → ∀ _ ∈ _, _))
  | .advance _ => inferInstanceAs (Decidable (_ → _ → _))
  | .dial | .deliver _ | .drop | .restart _ => .isTrue trivial

end Pair

/-- What holds of a tracker in any run. -/
structure Side.Sane (x : Side) : Prop where
  wellFormed : x.state.WellFormed
  data : ∀ blob, SyncMsg.snapshotData blob ∈ x.inbox →
    ∃ s : TrackerState, s.WellFormed ∧ blob = s.snapshot
  below : ∀ op ∈ x.server.tracker.log, op.seq < x.server.tracker.nextSeq
  next : 0 < x.server.tracker.nextSeq
  pending : ∀ m ∈ x.phase.pending, m.IsRequest

/-! ### Any run -/

namespace Side.Sane

variable {H : Str → Str} {x x' : Side}

lemma start : Side.start.Sane where
  wellFormed := .init
  data _ h := by cases h
  below _ h := by cases h
  next := Nat.one_pos
  pending _ h := by cases h

/-- The tracker stays as it is. -/
lemma congr (h : x.Sane) (htracker : x'.server.tracker = x.server.tracker)
    (hinbox : x'.inbox ⊆ x.inbox) (hpending : ∀ m ∈ x'.phase.pending, m.IsRequest) : x'.Sane where
  wellFormed := by
    rw [state, htracker]
    exact h.wellFormed
  data blob hblob := h.data blob (hinbox hblob)
  below := htracker ▸ h.below
  next := htracker ▸ h.next
  pending := hpending

lemma receive (h : x.Sane) {msgs : List SyncMsg}
    (hdata : ∀ blob, SyncMsg.snapshotData blob ∈ msgs →
      ∃ s : TrackerState, s.WellFormed ∧ blob = s.snapshot) :
    Sane { x with inbox := x.inbox ++ msgs } :=
  { h with data := fun blob hblob => (List.mem_append.mp hblob).elim (h.data blob) (hdata blob) }

/-- A client event. -/
lemma serve (h : x.Sane) {ev : ClientEvent} {o : Option Op} (hinbox : x'.inbox = x.inbox)
    (hphase : x'.phase = x.phase) (hdid : Server.Did H x.server ev o x'.server.tracker) :
    x'.Sane := by
  obtain ⟨-, hlog, hnext, hop⟩ := hdid.log_eq
  refine ⟨hdid.wellFormed h.wellFormed, hinbox ▸ h.data, fun op hmem => ?_, ?_, hphase ▸ h.pending⟩
  · rw [hlog] at hmem
    rw [hnext]
    rcases List.mem_append.mp hmem with hold | hnew
    · exact lt_of_lt_of_le (h.below op hold) (Nat.le_add_right _ _)
    · obtain rfl := Option.mem_toList.mp hnew
      rw [(hop op rfl).1]
      simp
  · rw [hnext]
    exact Nat.add_pos_left h.next _

/-- A message that the tracker processes. -/
lemma process (h : x.Sane) {m : SyncMsg} {rest : List SyncMsg} (hinbox : x.inbox = m :: rest)
    (hm : m.Sendable) (hrest : x'.inbox = rest) (hphase : x'.phase = x.phase)
    (htracker : x'.server.tracker = (x.server.tracker.process H m).2) : x'.Sane := by
  have hnext : x'.server.tracker.nextSeq = x.server.tracker.nextSeq := by
    rw [htracker]
    exact (x.server.tracker.process_log H m).1
  refine ⟨?_, fun blob hblob => ?_, fun op hop => ?_, hnext ▸ h.next, hphase ▸ h.pending⟩
  · rw [state, htracker]
    cases m with
    | op op => exact h.wellFormed.applyRemote op
    | snapshotData blob =>
        obtain ⟨s, hs, rfl⟩ := h.data blob (hinbox ▸ List.mem_cons_self)
        rw [Tracker.process]
        dsimp only
        rw [hs.restore _ hm]
        exact hs
    | hello | catchup | ack | snapshotRequest => exact h.wellFormed
  · exact h.data blob (hinbox ▸ List.mem_cons_of_mem m (hrest ▸ hblob))
  · rw [hnext]
    exact h.below op ((x.server.tracker.process_log H m).2 (htracker ▸ hop))

/-- The snapshots among the answers are those of a well-formed state. -/
lemma data_answer (h : x.Sane) {m : SyncMsg} {blob : Str}
    (hblob : SyncMsg.snapshotData blob ∈ (x.server.tracker.process H m).1) :
    ∃ s : TrackerState, s.WellFormed ∧ blob = s.snapshot := by
  rcases Tracker.answer_cases hblob with ⟨n, -, op, -, heq⟩ | ⟨op, -, heq⟩ | ⟨-, heq⟩
  · cases heq
  · cases heq
  · exact ⟨x.state, h.wellFormed, SyncMsg.snapshotData.inj heq⟩

end Side.Sane

namespace Pair

variable {H : Str → Str} {c c' : Pair} {r : Role}

/-- Both trackers are sane. -/
def Sane (c : Pair) : Prop := ∀ r, (c r).Sane

/-- It is enough to look from one side. -/
lemma Sane.of (h : (c r).Sane) (h' : (c r.peer).Sane) : c.Sane := Role.forall_of_peer r h h'

/-- **Every step** of any run keeps the trackers sane. -/
lemma Sane.step (h : c.Sane) {e : Event} (hstep : c.step H e = some c') : c'.Sane := by
  cases e with
  | client r ev =>
      obtain rfl : c.client H r ev = c' := Option.some.inj hstep
      refine .of (r := r) ?_ ?_
      · rw [client_self]
        exact (h r).serve rfl rfl (Server.serve_did H _ ev)
      · rw [client_peer]
        refine (h r.peer).receive fun blob hblob => ?_
        obtain ⟨op, -, heq⟩ := List.mem_map.mp (pushed_subset _ _ hblob)
        cases heq
  | dial =>
      rw [Pair.step] at hstep
      split at hstep
      · obtain rfl := Option.some.inj hstep
        refine .of (r := .dialer) ?_ ?_
        · rw [set_self]
          exact (h .dialer).congr rfl (List.Subset.refl _) fun m hm => by cases hm
        · rw [set_peer]
          exact h .acceptor
      · cases hstep
  | advance r =>
      rcases advance_cases hstep with
        ⟨-, hself, hpeer⟩ | ⟨-, hself, hpeer⟩ | ⟨request, hask, hself, hpeer⟩
      · refine .of (r := r) (hself ▸ (h r).congr rfl (List.Subset.refl _) fun m hm => ?_) ?_
        · cases hm
        rw [hpeer]
        exact (h r.peer).receive fun blob hblob => by simp at hblob
      · refine .of (r := r) (hself ▸ (h r).congr rfl (List.Subset.refl _) ?_) (hpeer ▸ h r.peer)
        exact fun m hm => isRequest_of_request hm
      · refine .of (r := r) (hself ▸ (h r).congr rfl (List.Subset.refl _) fun m hm => ?_) ?_
        · cases hm
        rw [hpeer]
        refine (h r.peer).receive fun blob hblob => ?_
        -- what waits to be sent is a request, and no snapshot
        have hrequest := (h r).pending (.snapshotData blob) (by rw [hask]; exact hblob)
        simp [SyncMsg.IsRequest, SyncMsg.type] at hrequest
  | deliver r =>
      obtain ⟨m, rest, hinbox, hm, hcase⟩ := deliver_cases hstep
      have hrest : rest ⊆ (c r).inbox := hinbox ▸ List.subset_cons_self m rest
      -- a message is processed, or read while the link is set up
      rcases hcase with ⟨hup, rfl⟩ | ⟨rfl, hdialer, hcase⟩
      · refine .of (r := r) ?_ ?_
        · rw [process_self]
          exact (h r).process hinbox hm rfl rfl rfl
        · rw [process_peer]
          exact (h r.peer).receive fun blob hblob => (h r).data_answer hblob
      · refine .of (r := .acceptor) ?_ (hdialer ▸ h .dialer)
        rcases hcase with ⟨-, -, hself⟩ | ⟨-, -, hself⟩ | ⟨-, hself⟩ <;>
          refine hself ▸ (h .acceptor).congr rfl hrest ?_
        · exact fun m hm => by cases hm
        · exact fun m hm => by cases hm
        · exact (h .acceptor).pending
  | drop =>
      rw [Pair.step] at hstep
      split at hstep
      · cases hstep
      · obtain rfl := Option.some.inj hstep
        exact fun r => (h r).congr rfl (List.nil_subset _) fun m hm => by cases hm
  | restart r =>
      obtain rfl := Option.some.inj hstep
      intro r'
      by_cases hr : r' = r
      · simp only [hr, if_pos]
        exact .start
      · simp only [hr, if_neg, not_false_eq_true]
        exact (h r').congr rfl (List.nil_subset _) fun m hm => by cases hm

/-! ### Runs that meet the condition -/

/-- **The invariant** of a tracker that recovers. -/
structure Mending (H : Str → Str) (t : Role) (c : Pair) : Prop where
  sane : c.Sane
  traffic : Traffic t (c t) (c t.peer)
  recovering : Recovering H (c t) (c t.peer)

namespace Mending

variable {t : Role}

lemma of {x y : Side} (hsane : c.Sane) (hself : c t = x) (hpeer : c t.peer = y)
    (htraffic : Traffic t x y) (hrec : Recovering H x y) : Mending H t c := by
  subst hself hpeer
  exact ⟨hsane, htraffic, hrec⟩

/-- The tracker has just started again. -/
lemma restart (h : c.Sane) (hstep : c.step H (.restart t) = some c') : Mending H t c' := by
  refine .of (h.step hstep) (x := .start) (y := { (c t.peer).cut with processed := [] }) ?_ ?_
    (.of_cut ⟨rfl, rfl⟩ rfl (h t.peer).next) (.restart rfl)
  · obtain rfl := Option.some.inj hstep
    exact if_pos rfl
  · obtain rfl := Option.some.inj hstep
    exact if_neg t.peer_ne

/-- A client event. -/
lemma client (h : Mending H t c) {ev : ClientEvent} (hok : c.Recovers H t (.client r ev)) :
    Mending H t (c.client H r ev) := by
  have hsane := h.sane.step (H := H) (e := .client r ev) rfl
  have hdid := Server.serve_did H (c r).server ev
  have hself := c.client_self H r ev
  have hpeer := c.client_peer H r ev
  generalize c.client H r ev = c' at hsane hself hpeer ⊢
  generalize (c r).server.serve H ev = res at hdid hself hpeer
  obtain ⟨o, sv⟩ := res
  dsimp only at hdid hself hpeer
  obtain ⟨hmark, hlog, hnext, hop⟩ := hdid.log_eq
  have hseq : ∀ op ∈ o.toList, op.seq = (c r).server.tracker.nextSeq := fun op hmem =>
    (hop op (Option.mem_toList.mp hmem)).1
  have hknown : (c r).state.accounts ⊆ (c t).known H (c t.peer) := by
    obtain ⟨hx, -, -, hy, -⟩ := subset_known (H := H) (x := c t) (y := c t.peer)
    rcases Role.eq_or_eq_peer t r with rfl | rfl
    · exact hx
    · exact hy
  obtain ⟨hstate, hone⟩ := hdid.mem_accounts fun call hacc a ha b hb =>
    (hok call hacc.1 hacc.2 a ha).1 b (hknown hb)
  have hreg : ∀ a ∈ accountsIn H (o.toList.map .op), c.Registers H t r a := fun a ha => by
    obtain ⟨call, hacc, hmem⟩ := hdid.accounts_accepted ha
    exact hok call hacc.1 hacc.2 a hmem
  rcases Role.eq_or_eq_peer t r with rfl | rfl
  · refine .of hsane hself hpeer (h.traffic.client rfl rfl hmark) ?_
    exact h.recovering.client rfl rfl hlog hstate hone fun a ha =>
      ⟨(hreg a ha).1, (hreg a ha).2 rfl⟩
  · rw [Role.peer_peer] at hpeer
    refine .of hsane hpeer hself (h.traffic.peer_client rfl rfl hnext hseq) ?_
    exact h.recovering.peer_client h.traffic rfl rfl hlog hseq hstate hone fun a ha => (hreg a ha).1

/-- Tracker 0 dials. -/
lemma dial (h : Mending H t c) (hstep : c.step H .dial = some c') : Mending H t c' := by
  have hsane := h.sane.step hstep
  rw [Pair.step] at hstep
  split at hstep
  · next hdown =>
      obtain rfl := Option.some.inj hstep
      have hself := c.set_self .dialer { c .dialer with phase := .hello }
      have hpeer := c.set_peer .dialer { c .dialer with phase := .hello }
      cases t with
      | dialer =>
          refine .of hsane hself hpeer ?_ ?_
          · exact h.traffic.setPhase rfl (by rw [hdown]; rfl) (by simp [hdown])
              (by simp [Phase.Tested]) fun ht => by cases ht
          · exact h.recovering.setPhase rfl (by rw [hdown]; rfl) (by simp [hdown])
              (by simp [Phase.Tested])
      | acceptor =>
          refine .of hsane hpeer hself (h.traffic.peer_setPhase rfl) ?_
          exact h.recovering.peer_setPhase (by simp [hdown])
  · cases hstep

/-- The next step of setting up the link. -/
lemma advance (h : Mending H t c) (hok : c.Recovers H t (.advance r))
    (hstep : c.step H (.advance r) = some c') : Mending H t c' := by
  have hsane := h.sane.step hstep
  rcases Role.eq_or_eq_peer t r with rfl | rfl
  -- the restarted tracker sends its hello, makes its test, or sends its request
  · rcases advance_cases hstep with
      ⟨hphase, hself, hpeer⟩ | ⟨hphase, hself, hpeer⟩ | ⟨request, hphase, hself, hpeer⟩
    · have hne : (c r).phase ≠ .up := by simp [hphase]
      refine .of hsane hself hpeer ?_ ?_
      · refine (h.traffic.setPhase rfl (by rw [hphase]; rfl) hne (by simp [Phase.Tested])
          fun _ => by simp [hphase]).post (fun m hm => ?_) fun _ m hm => ?_
        · simp [List.mem_singleton.mp hm, SyncMsg.IsRequest, SyncMsg.type]
        · exact .inl (by rw [List.mem_singleton.mp hm]; rfl)
      · refine (h.recovering.setPhase rfl (by rw [hphase]; rfl) hne (by simp [Phase.Tested])).post
          (fun m hm => ?_) (List.nil_subset _)
        simp [List.mem_singleton.mp hm, SyncMsg.IsRequest, SyncMsg.type]
    · exact .of hsane hself hpeer (h.traffic.choose hphase)
        (h.recovering.choose h.traffic hphase (hok rfl hphase))
    · exact .of hsane hself hpeer (h.traffic.ask hphase) (h.recovering.ask h.traffic hphase)
  -- its peer does
  · rcases advance_cases hstep with
      ⟨hphase, hself, hpeer⟩ | ⟨hphase, hself, hpeer⟩ | ⟨request, hphase, hself, hpeer⟩
    · rw [Role.peer_peer] at hpeer
      refine .of hsane hpeer hself ?_ ?_
      · exact (h.traffic.peer_setPhase rfl).receive (fun _ => rfl) fun op hop => by cases hop
      · refine (h.recovering.peer_setPhase (by simp [hphase])).receive (fun m hm hl => ?_)
          (List.nil_subset _) fun _ => rfl
        rw [List.mem_singleton.mp hm] at hl
        cases hl.1
    · rw [Role.peer_peer] at hpeer
      exact .of hsane hpeer hself (h.traffic.peer_setPhase rfl)
        (h.recovering.peer_setPhase (by simp [hphase]))
    · rw [Role.peer_peer] at hpeer
      have hrequest : ∀ m ∈ request, m.IsRequest := fun m hm =>
        (h.sane t.peer).pending m (by rw [hphase]; exact hm)
      have hnone := accountsIn_requests (H := H) hrequest
      refine .of hsane hpeer hself ?_ ?_
      · refine (h.traffic.peer_setPhase rfl).receive (fun _ => rfl) fun op hop => ?_
        have hop' := hrequest _ (mem_opsIn.mp hop)
        simp [SyncMsg.IsRequest, SyncMsg.type] at hop'
      · refine (h.recovering.peer_setPhase (by simp [hphase])).receive (fun m hm hl => ?_)
          (by rw [hnone]; exact List.nil_subset _) fun _ => hnone
        have hm' := hrequest m hm
        simp [SyncMsg.IsRequest, hl.1] at hm'

/-- A delivery. -/
lemma deliver (h : Mending H t c) (hstep : c.step H (.deliver r) = some c') : Mending H t c' := by
  have hsane := h.sane.step hstep
  obtain ⟨m, rest, hinbox, hm, hcase⟩ := deliver_cases hstep
  have hdata : ∀ blob, m = .snapshotData blob →
      ∃ s : TrackerState, s.WellFormed ∧ blob = s.snapshot :=
    fun blob heq => (h.sane r).data blob (by rw [hinbox, heq]; exact List.mem_cons_self)
  rcases hcase with ⟨hup, rfl⟩ | ⟨rfl, hdialer, hcase⟩
  · have hself := c.process_self H r m rest
    have hpeer := c.process_peer H r m rest
    rcases Role.eq_or_eq_peer t r with rfl | rfl
    · refine .of hsane hself hpeer (h.traffic.process hinbox hup hup rfl rfl) ?_
      exact h.recovering.answer hinbox hup hm hdata (h.sane r).wellFormed rfl rfl rfl
    · rw [Role.peer_peer] at hpeer
      have hy := h.sane t.peer
      refine .of hsane hpeer hself (h.traffic.peer_process hinbox hy.below hup rfl rfl) ?_
      exact h.recovering.peer_process h.traffic hinbox hup hm hdata hy.wellFormed rfl rfl
  · cases t with
    | acceptor =>
        have hold : (c .acceptor).phase.pending = [] ∧ (c .acceptor).phase ≠ .up := by
          rcases hcase with ⟨hphase, -⟩ | ⟨hphase, -⟩ | ⟨hphase, -⟩ <;> simp [hphase, Phase.pending]
        -- before the link is up nothing is processed, and the message is dropped
        have hskip : ∀ phase : Phase, phase.pending = [] → phase ≠ .up → ¬ phase.Tested →
            c' .acceptor = { c .acceptor with phase := phase, inbox := rest } →
            Mending H .acceptor c' := by
          intro phase hpending hup htest hself
          refine .of hsane hself hdialer ?_ (h.recovering.take hinbox hpending hold.1 hold.2 htest)
          exact h.traffic.take hinbox hpending hold.1 (iff_of_false hup hold.2) fun ht =>
            absurd ht htest
        rcases hcase with ⟨-, -, hself⟩ | ⟨-, -, hself⟩ | ⟨hphase, hself⟩
        · exact hskip .choose rfl (by simp) id hself
        · exact hskip .client rfl (by simp) id hself
        · exact hskip .client rfl (by simp) id (by rw [hself, ← hphase])
    | dialer =>
        rcases hcase with ⟨hphase, hhello, hself⟩ | ⟨hphase, -, hself⟩ | ⟨hphase, hself⟩
        · refine .of hsane hdialer hself (h.traffic.peer_take hinbox (.inl rfl)) ?_
          exact h.recovering.peer_take hinbox (.inr ⟨by simp [hphase], hhello⟩)
        · refine .of hsane hdialer hself (h.traffic.peer_take hinbox (.inr ⟨rfl, by simp⟩)) ?_
          exact h.recovering.peer_take hinbox (.inl rfl)
        · refine .of hsane hdialer hself (h.traffic.peer_take hinbox (.inr ⟨hphase, by simp⟩)) ?_
          exact h.recovering.peer_take hinbox (.inl hphase)

/-- The link is lost. -/
lemma drop (h : Mending H t c) (hstep : c.step H .drop = some c') : Mending H t c' := by
  have hsane := h.sane.step hstep
  rw [Pair.step] at hstep
  split at hstep
  · cases hstep
  · obtain rfl := Option.some.inj hstep
    exact .of hsane rfl rfl (.of_cut ⟨rfl, rfl⟩ rfl h.traffic.mark) (h.recovering.cut rfl rfl rfl)

/-- **Every step** that meets the condition keeps the invariant. -/
lemma step (h : Mending H t c) {e : Event} (hspare : e.Spares t.peer) (hok : c.Recovers H t e)
    (hstep : c.step H e = some c') : Mending H t c' := by
  cases e with
  | client r ev =>
      obtain rfl : c.client H r ev = c' := Option.some.inj hstep
      exact h.client hok
  | dial => exact h.dial hstep
  | advance r => exact h.advance hok hstep
  | deliver r => exact h.deliver hstep
  | drop => exact h.drop hstep
  | restart r =>
      obtain rfl : r = t := ((Role.eq_or_eq_peer t r).resolve_right hspare)
      exact restart h.sane hstep

/-- Where the link is quiet, nothing is missing. -/
lemma covered (h : Mending H t c) (hquiet : c.Quiet) :
    (c t.peer).state.accounts ⊆ (c t).state.accounts := by
  obtain ⟨hup, hin⟩ := hquiet t
  obtain ⟨hup', hin'⟩ := hquiet t.peer
  have hreq : ¬ (c t).Requested (c t.peer) := by simp [Side.Requested, hup, hin', Phase.pending]
  have howed : (c t).owed (c t.peer) = [] := by
    simp [Side.owed, Side.asked, hup, hin', Phase.pending, asksIn]
  have hcov := h.recovering.covered (by rw [hup]; trivial) (by simp [hup']) hreq (by simp [hin])
  rwa [Side.coming, hin, howed, List.append_nil, accountsIn_nil, List.append_nil] at hcov

end Mending

end Pair

/-! ### The answers in hand -/

namespace Held

variable {H : Str → Str} {t r : Role} {s s' : Held}

/-- **The condition**: what `Pair.Recovers` says of the pair with the answers on their way,
and no client registers an account on the peer while it has a snapshot in hand. -/
def Recovers (H : Str → Str) (t : Role) (s : Held) : HeldEvent → Prop
  | .event e => s.flush.Recovers H t e ∧
      (s.pair.RegistersAt H t.peer e → ∀ m ∈ s.held t.peer, m.type ≠ .syncSnapshotData)
  | .send _ => True

instance (H : Str → Str) (t : Role) (s : Held) : ∀ e, Decidable (s.Recovers H t e)
  | .event e => inferInstanceAs (Decidable (s.flush.Recovers H t e ∧
      (s.pair.RegistersAt H t.peer e → ∀ m ∈ s.held t.peer, m.type ≠ .syncSnapshotData)))
  | .send _ => .isTrue trivial

/-- What holds of the trackers and their answers in any run. -/
structure Sane (s : Held) : Prop where
  flush : s.flush.Sane
  held : ∀ r, ∀ m ∈ s.held r, ¬ m.IsRequest

lemma Sane.start : start.Sane where
  flush _ := .start
  held _ m hm := by cases hm

/-- A client event. -/
lemma Sane.client (h : s.Sane) {ev : ClientEvent} : (s.client H r ev).Sane := by
  obtain ⟨hself, hpeer, hpeer'⟩ := s.client_flush (H := H) r ev
  have hstep : (s.flush.client H r ev).Sane := h.flush.step (e := .client r ev) rfl
  refine ⟨.of (r := r) (hself ▸ hstep r) ?_, h.held⟩
  have hold := hstep r.peer
  rw [hpeer'] at hold
  rw [hpeer]
  refine hold.congr rfl (fun m hm => ?_) hold.pending
  simp only [List.mem_append] at hm ⊢
  tauto

/-- **Every step** of any run keeps them sane. -/
lemma Sane.step (h : s.Sane) {e : HeldEvent} (hstep : s.step H e = some s') : s'.Sane := by
  have hheld : ∀ r, ∀ m ∈ s'.held r, ¬ m.IsRequest := fun r m hm =>
    (held_step hstep hm).elim (h.held r m) fun ⟨_, _, hm⟩ => not_isRequest_of_answer hm
  cases e with
  | send r => exact ⟨(flush_send hstep).symm ▸ h.flush, hheld⟩
  | event e =>
      cases e with
      | client r ev =>
          obtain rfl := Option.some.inj hstep
          exact h.client
      | dial | advance r | deliver r | drop | restart r =>
          exact ⟨h.flush.step (flush_step (by simp) hstep), hheld⟩

/-- A client event. Its op may overtake what its tracker has in hand. -/
lemma Sane.mending_client (h : s.Sane) (hmend : Pair.Mending H t s.flush) {ev : ClientEvent}
    (hok : s.Recovers H t (.event (.client r ev))) :
    Pair.Mending H t (s.client H r ev).flush := by
  have hdone := hmend.client hok.1
  have hsane : (s.client H r ev).Sane := h.client
  obtain ⟨hself, hpeer, hpeer'⟩ := s.client_flush (H := H) r ev
  have hdid := Server.serve_did H (s.pair r).server ev
  have hsent := pushed_subset (s.pair r).phase.linked ((s.pair r).server.serve H ev).1.toList
  generalize (if (s.pair r).phase.linked then
    ((s.pair r).server.serve H ev).1.toList.map SyncMsg.op else []) = msgs at hpeer hpeer' hsent
  have hno : ∀ m ∈ s.held r ++ msgs, ¬ m.IsRequest := by
    refine List.forall_mem_append.mpr ⟨h.held r, fun m hm => ?_⟩
    obtain ⟨op, -, rfl⟩ := List.mem_map.mp (hsent hm)
    simp [SyncMsg.IsRequest, SyncMsg.type]
  rcases Role.eq_or_eq_peer t r with rfl | rfl
  · have htraffic := hdone.traffic
    have hrec := hdone.recovering
    rw [hpeer'] at htraffic hrec
    refine .of hsane.flush hself hpeer (htraffic.overtake hno) (hrec.overtake hno)
  · have htraffic := hdone.traffic
    have hrec := hdone.recovering
    rw [Role.peer_peer] at hpeer hpeer'
    rw [hpeer'] at htraffic hrec
    refine .of hsane.flush hpeer hself htraffic.peer_overtake (hrec.peer_overtake ?_)
    by_contra hnot
    rw [not_or] at hnot
    obtain ⟨a, ha⟩ := List.exists_mem_of_ne_nil _ hnot.1
    obtain ⟨call, hacc, hmem⟩ := hdid.accounts_accepted (accountsIn_mono hsent ha)
    exact hnot.2 (hok.2 ⟨rfl, call, hacc.1, hacc.2, List.ne_nil_of_mem hmem⟩)

/-- **Every step** that meets the condition keeps the invariant of the pair with the answers
on their way. -/
lemma Sane.mending_step (h : s.Sane) (hmend : Pair.Mending H t s.flush) {e : HeldEvent}
    (hspare : e.Spares t.peer) (hok : s.Recovers H t e) (hstep : s.step H e = some s') :
    Pair.Mending H t s'.flush := by
  cases e with
  | send r => exact (flush_send hstep).symm ▸ hmend
  | event e =>
      have hspare : e.Spares t.peer := hspare
      cases e with
      | client r ev =>
          obtain rfl := Option.some.inj hstep
          exact h.mending_client hmend hok
      | dial | advance r | deliver r | drop | restart r =>
          exact hmend.step hspare hok.1 (flush_step (by simp) hstep)

/-- **Recovery**: in every run that meets the condition, whenever the link is
quiet a tracker that has started again has every user id of its peer, with its
password hash. -/
theorem accounts_recovered {s₀ s₁ : Held} (h₀ : Run (step H) (fun _ _ => True) start s₀)
    (hrestart : s₀.step H (.event (.restart t)) = some s₁)
    (h : Run (step H) (fun s e => e.Spares t.peer ∧ s.Recovers H t e) s₁ s) (hquiet : s.Quiet) :
    ∀ a ∈ (s.pair t.peer).state.accounts, a ∈ (s.pair t).state.accounts := by
  have hsane₀ : s₀.Sane := h₀.invariant .start fun hI _ hstep => hI.step hstep
  have hmend₁ : Pair.Mending H t s₁.flush :=
    .restart hsane₀.flush (flush_step (by simp) hrestart)
  have hmend : s.Sane ∧ Pair.Mending H t s.flush := by
    refine h.invariant (I := fun s => s.Sane ∧ Pair.Mending H t s.flush) ?_ ?_
    · exact ⟨hsane₀.step hrestart, hmend₁⟩
    · exact fun hI hok hstep => ⟨hI.1.step hstep, hI.1.mending_step hI.2 hok.1 hok.2 hstep⟩
  have hcovered := hmend.2.covered hquiet.flush
  exact fun a ha => hcovered ha

/-- A user registers on tracker 0. -/
def userZero : List HeldEvent :=
  [.event (.client .dialer (.connect 7 [4] peerIp_fits)),
    .event (.client .dialer
      (.request 7 MsgType.createUser.code (putStr [1] ++ putStr [2]) 0))]

/-- Tracker 1 starts again without clients. -/
theorem accounts_recovered_idle :
    let s₀ := (exec (step id) start userZero).get (by decide +kernel)
    let s₁ := (s₀.step id (.event (.restart .acceptor))).get rfl
    let s := (exec (step id) s₁ (Pair.linking.map .event ++ [.event (.deliver .dialer),
      .send .dialer, .event (.deliver .acceptor), .event (.deliver .acceptor)])).get
        (by decide +kernel)
    ([1], [2]) ∈ (s.pair .dialer).state.accounts ∧
      ∀ a ∈ (s.pair .dialer).state.accounts, a ∈ (s.pair .acceptor).state.accounts := by
  intro s₀ s₁ s
  have h₀ : Run (step id) (fun _ _ => True) start s₀ :=
    Run.of_exec (meets_of_forall (fun _ _ => trivial) _) (Option.some_get _).symm
  refine ⟨by decide +kernel, ?_⟩
  exact accounts_recovered (t := .acceptor) h₀ (Option.some_get _).symm
    (Run.of_exec (by decide +kernel) (Option.some_get _).symm) (by decide +kernel)

/-- **A client before the link**: tracker 1 starts again, and a client registers
there before the link is up. Tracker 1 is not empty then and asks for nothing. -/
theorem client_before_link :
    ∃ s₀ s₁ s : Held, Run (step id) (fun _ e => ∀ r, e.Spares r) start s₀ ∧
      s₀.step id (.event (.restart .acceptor)) = some s₁ ∧
      Run (step id) (fun _ e => ∀ r, e.Spares r) s₁ s ∧ s.Quiet ∧
      ∃ a ∈ (s.pair .dialer).state.accounts, a ∉ (s.pair .acceptor).state.accounts := by
  let s₀ := (exec (step id) start userZero).get (by decide +kernel)
  let s₁ := (s₀.step id (.event (.restart .acceptor))).get rfl
  let s := (exec (step id) s₁ ((Pair.newcomer .acceptor ++ Pair.linking).map .event ++
    [.event (.deliver .acceptor), .send .acceptor, .event (.deliver .dialer), .send .dialer,
      .event (.deliver .acceptor)])).get (by decide +kernel)
  refine ⟨s₀, s₁, s, ?_, (Option.some_get _).symm, ?_, by decide +kernel, by decide +kernel⟩
  · exact Run.of_exec (meets_of_forall (by decide +kernel) _) (Option.some_get _).symm
  · exact Run.of_exec (meets_of_forall (by decide +kernel) _) (Option.some_get _).symm

end Held

end P2PShare
