import P2PShare.Pair.Uplink

/-!
Link drops between two trackers whose processes do not restart.

* `Synced`: the trackers are linked, agree, and owe each other nothing.
* `Careful`: tracker 0 records only on a link it has greeted, its ops are not on
  the way when the link drops, and an op of tracker 1 does not overtake an older
  one.
* `Downward` (**the invariant for the ops of tracker 0**): they have been
  processed or are on their way. Nothing is ever sent to tracker 1 again.
* `tight_step`: without restarts the mark of tracker 0 has passed only what it
  has processed.
* `nothing_lost`: in careful runs every op has been processed whenever the link
  is quiet; `recorded_while_down` is a run that is not careful.
-/

namespace P2PShare

/-- The dialer has sent its hello. -/
def Phase.Greeted : Phase → Prop
  | .choose | .ask _ | .up => True
  | .down | .hello | .client => False

instance : ∀ phase : Phase, Decidable phase.Greeted
  | .choose | .ask _ | .up => .isTrue trivial
  | .down | .hello | .client => .isFalse id

/-- The restart of no tracker. -/
def Event.Lasting (e : Event) : Prop := ∀ r, e.Spares r

instance (e : Event) : Decidable e.Lasting := inferInstanceAs (Decidable (∀ r, e.Spares r))

namespace Pair

variable {H : Str → Str} {c₀ c c' : Pair}

/-- The two trackers are linked with equal states that are not empty, and
nothing is recorded or on its way. -/
structure Synced (c : Pair) : Prop where
  quiet : c.Quiet
  log : ∀ r, (c r).server.tracker.log = []
  recorded : ∀ r, (c r).recorded = []
  processed : ∀ r, (c r).processed = []
  mark : ∀ r, (c r).server.tracker.appliedPeerSeq < (c r.peer).server.tracker.nextSeq
  agree : (c .dialer).state = (c .acceptor).state
  wellFormed : (c .dialer).state.WellFormed
  full : (c .dialer).state.isEmpty = false

/-- The conditions on requests and drops. -/
def Careful (H : Str → Str) (c : Pair) : Event → Prop
  | .client .dialer ev => ev.Accepts H (c .dialer).server → (c .dialer).phase.Greeted
  | .client .acceptor ev => ev.Accepts H (c .acceptor).server → (c .acceptor).phase.linked →
      ∀ op ∈ (c .acceptor).server.tracker.log,
        op ∈ (c .dialer).processed ∨ op ∈ opsIn (c .dialer).inbox
  | .drop => ∀ op ∈ opsIn (c .acceptor).inbox, op ∈ (c .acceptor).processed
  | .dial | .advance _ | .deliver _ | .restart _ => True

instance (H : Str → Str) (c : Pair) : ∀ e, Decidable (c.Careful H e)
  | .client .dialer _ => inferInstanceAs (Decidable (_ → _))
  | .client .acceptor _ => inferInstanceAs (Decidable (_ → _ → ∀ op ∈ _, _ ∨ _))
  | .drop => inferInstanceAs (Decidable (∀ op ∈ _, _))
  | .dial | .advance _ | .deliver _ | .restart _ => .isTrue trivial

/-! ### The ops of tracker 0 -/

/-- **The invariant for the ops of tracker 0.** What tracker 1 reads first on a
link is the hello, so it never takes the link for a client. -/
structure Downward (c : Pair) : Prop where
  sent : ∀ op ∈ (c .dialer).recorded,
    op ∈ (c .acceptor).processed ∨ op ∈ opsIn (c .acceptor).inbox
  idle : ¬ (c .dialer).phase.Greeted → (c .acceptor).phase = .down ∧ (c .acceptor).inbox = []
  first : (c .dialer).phase.Greeted → (c .acceptor).phase = .down →
    ∃ m rest, (c .acceptor).inbox = m :: rest ∧ m.type = .syncHello
  peer : (c .acceptor).phase ≠ .client

namespace Downward

/-- More messages on their way to tracker 1. -/
lemma of_append (h : c.Downward) {msgs : List SyncMsg} (hgreeted : (c .dialer).phase.Greeted)
    (hgreeted' : (c' .dialer).phase.Greeted)
    (hpeer : c' .acceptor = { c .acceptor with inbox := (c .acceptor).inbox ++ msgs })
    (hsent : ∀ op ∈ (c' .dialer).recorded, op ∈ (c .dialer).recorded ∨ op ∈ opsIn msgs) :
    c'.Downward where
  sent op hop := by
    rw [hpeer, opsIn_append, List.mem_append]
    rcases hsent op hop with hold | hnew
    · exact (h.sent op hold).imp_right .inl
    · exact .inr (.inr hnew)
  idle hnot := absurd hgreeted' hnot
  first _ hdown := by
    rw [hpeer] at hdown
    obtain ⟨m, rest, heq, hm⟩ := h.first hgreeted hdown
    exact ⟨m, rest ++ msgs, by rw [hpeer, heq]; rfl, hm⟩
  peer := by
    rw [hpeer]
    exact h.peer

lemma client_dialer (h : c.Downward) {ev : ClientEvent} (hok : c.Careful H (.client .dialer ev)) :
    (c.client H .dialer ev).Downward := by
  have hself := c.client_self H .dialer ev
  have hpeer := c.client_peer H .dialer ev
  have hdid := Server.serve_did H (c .dialer).server ev
  obtain ⟨-, -, -, hacc⟩ := hdid.log_eq
  rw [Role.peer_dialer] at hpeer
  cases ho : ((c .dialer).server.serve H ev).1 with
  | none =>
      rw [ho] at hself hpeer
      refine ⟨?_, ?_, ?_, ?_⟩
      · simpa [hpeer, ho] using h.sent
      · simpa [hpeer] using h.idle
      · simpa [hpeer] using h.first
      · simpa [hpeer] using h.peer
  | some op =>
      have hgreeted := hok (hacc op ho).2
      have hlink : (c .dialer).phase.linked = true := by
        cases hphase : (c .dialer).phase <;>
          simp [hphase, Phase.Greeted, Phase.linked] at hgreeted ⊢
      rw [ho] at hself hpeer
      rw [hlink, if_pos rfl] at hpeer
      refine h.of_append hgreeted (by rw [hself]; exact hgreeted) hpeer fun op' hop' => ?_
      rw [hself] at hop'
      simpa using hop'

lemma client_acceptor (h : c.Downward) (ev : ClientEvent) :
    (c.client H .acceptor ev).Downward := by
  have hself := c.client_self H .acceptor ev
  have hpeer := c.client_peer H .acceptor ev
  rw [Role.peer_acceptor] at hpeer
  refine ⟨?_, ?_, ?_, ?_⟩
  · simpa [hself, hpeer] using h.sent
  · simpa [hself, hpeer] using h.idle
  · simpa [hself, hpeer] using h.first
  · simpa [hself] using h.peer

lemma dial (h : c.Downward) (hdown : (c .dialer).phase = .down) :
    Downward (c.set .dialer { c .dialer with phase := .hello }) := by
  have hpeer : (c.set .dialer { c .dialer with phase := .hello }) .acceptor = c .acceptor :=
    c.set_peer .dialer _
  have hidle := h.idle (by rw [hdown]; exact id)
  refine ⟨?_, ?_, ?_, ?_⟩
  · simpa [hpeer] using h.sent
  · rw [hpeer]
    exact fun _ => hidle
  · intro hgreeted
    simp [Phase.Greeted] at hgreeted
  · rw [hpeer]
    exact h.peer

lemma advance_dialer (h : c.Downward) (hstep : c.advance .dialer = some c') : c'.Downward := by
  rcases advance_cases hstep with
    ⟨hphase, hself, hpeer⟩ | ⟨hphase, hself, hpeer⟩ | ⟨request, hphase, hself, hpeer⟩
  · rw [Role.peer_dialer] at hpeer
    obtain ⟨hdown, hempty⟩ := h.idle (by rw [hphase]; exact id)
    refine ⟨?_, ?_, ?_, ?_⟩
    · rw [hself, hpeer]
      intro op hop
      refine (h.sent op hop).imp_right fun hin => ?_
      rw [opsIn_append]
      exact List.mem_append_left _ hin
    · rw [hself]
      exact fun hnot => absurd trivial hnot
    · rw [hpeer, hempty]
      exact fun _ _ => ⟨_, [], rfl, rfl⟩
    · rw [hpeer]
      exact h.peer
  · have hsame : c' .acceptor = { c .acceptor with inbox := (c .acceptor).inbox ++ [] } := by
      rw [List.append_nil]
      exact hpeer
    refine h.of_append (by rw [hphase]; trivial) (by rw [hself]; trivial) hsame ?_
    rw [hself]
    exact fun op hop => .inl hop
  · refine h.of_append (by rw [hphase]; trivial) (by rw [hself]; trivial) hpeer ?_
    rw [hself]
    exact fun op hop => .inl hop

lemma advance_acceptor (h : c.Downward) (hstep : c.advance .acceptor = some c') :
    c'.Downward := by
  have hsides : ∀ {phase phase' : Phase}, (c .acceptor).phase = phase →
      phase ≠ .down → phase' ≠ .client → phase' ≠ .down →
      c' .acceptor = { c .acceptor with phase := phase' } →
      (c' .dialer).phase = (c .dialer).phase → (c' .dialer).recorded = (c .dialer).recorded →
      c'.Downward := by
    intro phase phase' hphase hne hclient hdown hself hpeer hrecorded
    refine ⟨?_, ?_, ?_, ?_⟩
    · rw [hself, hrecorded]
      exact h.sent
    · rw [hpeer]
      exact fun hnot => absurd (hphase.symm.trans (h.idle hnot).1) hne
    · rw [hself]
      exact fun _ hd => absurd hd hdown
    · rw [hself]
      exact hclient
  rcases advance_cases hstep with
    ⟨hphase, hself, hpeer⟩ | ⟨hphase, hself, hpeer⟩ | ⟨request, hphase, hself, hpeer⟩
  all_goals
    rw [Role.peer_acceptor] at hpeer
    exact hsides hphase (by simp) (by simp) (by simp) hself (by rw [hpeer]) (by rw [hpeer])

lemma process_dialer (h : c.Downward) (hup : (c .dialer).phase = .up) (m : SyncMsg)
    (rest : List SyncMsg) : (c.process H .dialer m rest).Downward := by
  have hself := c.process_self H .dialer m rest
  have hpeer := c.process_peer H .dialer m rest
  refine h.of_append (by rw [hup]; trivial) (by rw [hself, hup]; trivial) hpeer ?_
  rw [hself]
  exact fun op hop => .inl hop

/-- Tracker 1 reads a message: the hello, or one that it processes. -/
lemma deliver_acceptor (h : c.Downward) (hstep : c.deliver H .acceptor = some c') :
    c'.Downward := by
  obtain ⟨m, rest, hinbox, -, hcase⟩ := deliver_cases hstep
  have hgreeted : (c .dialer).phase.Greeted := by
    by_contra hnot
    have hempty := (h.idle hnot).2
    rw [hinbox] at hempty
    cases hempty
  rcases hcase with ⟨hup, rfl⟩ | ⟨-, hdialer, hcase⟩
  · have hself := c.process_self H .acceptor m rest
    have hpeer := c.process_peer H .acceptor m rest
    rw [Role.peer_acceptor] at hpeer
    refine ⟨?_, ?_, ?_, ?_⟩
    · rw [hself, hpeer]
      intro op hop
      have hsent := h.sent op hop
      rw [hinbox, opsIn_cons] at hsent
      simp only [List.mem_append] at hsent ⊢
      tauto
    · rw [hpeer]
      exact fun hnot => absurd hgreeted hnot
    · rw [hself, hup]
      exact fun _ hdown => by cases hdown
    · rw [hself]
      exact h.peer
  · rcases hcase with ⟨hdown, hhello, hself⟩ | ⟨hdown, hno, -⟩ | ⟨hclient, -⟩
    · refine ⟨?_, ?_, ?_, ?_⟩
      · rw [hself, hdialer]
        intro op hop
        refine (h.sent op hop).imp_right fun hin => ?_
        rw [hinbox, opsIn_cons] at hin
        cases m with
        | hello index => exact hin
        | _ => cases hhello
      · rw [hdialer]
        exact fun hnot => absurd hgreeted hnot
      · rw [hself]
        exact fun _ hd => by cases hd
      · rw [hself]
        simp
    -- the first message of a link is the hello, so this case does not arise
    · obtain ⟨m', rest', heq, hm'⟩ := h.first hgreeted hdown
      rw [hinbox] at heq
      obtain ⟨rfl, -⟩ := List.cons.inj heq
      exact absurd hm' hno
    · exact absurd hclient h.peer

lemma drop (h : c.Downward) (hok : c.Careful H .drop) : Downward fun r => (c r).cut where
  sent op hop := .inl ((h.sent op hop).elim id fun hin => hok op hin)
  idle _ := ⟨rfl, rfl⟩
  first hgreeted := hgreeted.elim
  peer := by
    show Phase.down ≠ .client
    simp

/-- **The step lemma** for the ops of tracker 0. -/
theorem step (h : c.Downward) {e : Event} (hlast : e.Lasting) (hok : c.Careful H e)
    (hstep : c.step H e = some c') : c'.Downward := by
  cases e with
  | client r ev =>
      obtain rfl : c.client H r ev = c' := Option.some.inj hstep
      cases r with
      | dialer => exact h.client_dialer hok
      | acceptor => exact h.client_acceptor ev
  | dial =>
      rw [Pair.step] at hstep
      split at hstep
      · next hdown =>
          obtain rfl := Option.some.inj hstep
          exact h.dial hdown
      · cases hstep
  | advance r =>
      cases r with
      | dialer => exact h.advance_dialer hstep
      | acceptor => exact h.advance_acceptor hstep
  | deliver r =>
      cases r with
      | acceptor => exact h.deliver_acceptor hstep
      | dialer =>
          obtain ⟨m, rest, hinbox, -, ⟨hup, rfl⟩ | ⟨hrole, -⟩⟩ := deliver_cases hstep
          · exact h.process_dialer hup m rest
          · cases hrole
  | drop =>
      rw [Pair.step] at hstep
      split at hstep
      · cases hstep
      · obtain rfl := Option.some.inj hstep
        exact h.drop hok
  | restart r => exact absurd rfl (hlast r)

end Downward

/-! ### The ops of tracker 1 -/

/-- Without restarts the mark of tracker 0 passes only what it processes. -/
lemma tight_step (h : c.Upright) (ht : c.uplink.Tight Op.seq) {e : Event} (hlast : e.Lasting)
    (hstep : c.step H e = some c') : c'.uplink.Tight Op.seq := by
  cases e with
  | client r ev =>
      obtain rfl : c.client H r ev = c' := Option.some.inj hstep
      cases r with
      | dialer =>
          rw [uplink_client_dialer]
          exact ht
      | acceptor =>
          rcases uplink_client_acceptor (H := H) (c := c) ev with ⟨-, heq⟩ | ⟨op, hseq, -, heq⟩
          · exact heq ▸ ht
          · exact heq ▸ ht.emit hseq _
  | dial =>
      rw [Pair.step] at hstep
      split at hstep
      · next hdown =>
          obtain rfl := Option.some.inj hstep
          exact uplink_dial hdown ▸ ht
      · cases hstep
  | advance r =>
      cases r with
      | dialer =>
          rcases uplink_advance_dialer h.asks hstep with heq | heq
          · exact heq ▸ ht
          · exact heq ▸ ⟨ht.marked, ht.mark_lt⟩
      | acceptor => exact uplink_advance_acceptor h.pending hstep ▸ ht
  | deliver r =>
      obtain ⟨m, rest, hinbox, -, hcase⟩ := deliver_cases hstep
      cases r with
      | dialer =>
          rcases hcase with ⟨hup, rfl⟩ | ⟨hrole, -⟩
          · rcases uplink_process_dialer (H := H) hinbox with ⟨heq, -⟩ | ⟨op, raise, -, hqueue, heq⟩
            · exact heq ▸ ht
            · exact heq ▸ ht.arrive h.ok hqueue raise
          · cases hrole
      | acceptor =>
          rcases hcase with ⟨hup, rfl⟩ | ⟨-, hdialer, hcase⟩
          · rcases uplink_process_acceptor (H := H) (c := c) m rest with
              ⟨n, -, heq⟩ | ⟨n, -, heq⟩ | ⟨-, heq⟩ <;> exact heq ▸ ⟨ht.marked, ht.mark_lt⟩
          · have heq : c'.uplink = c.uplinkAfter c.uplink rest := by
              rcases hcase with ⟨-, -, hself⟩ | ⟨-, -, hself⟩ | ⟨-, hself⟩ <;>
                (rw [uplink, hself, hdialer]; rfl)
            exact heq ▸ ⟨ht.marked, ht.mark_lt⟩
  | drop =>
      rw [Pair.step] at hstep
      split at hstep
      · cases hstep
      · obtain rfl := Option.some.inj hstep
        exact ⟨ht.marked, ht.mark_lt⟩
  | restart r => exact absurd rfl (hlast r)

/-- What a careful step has to keep is kept when the mark is tight. -/
lemma Careful.keeps (h : c.Upright) (ht : c.uplink.Tight Op.seq) {e : Event}
    (hok : c.Careful H e) : c.Keeps H e := by
  cases e with
  | client r ev =>
      cases r with
      | dialer => trivial
      | acceptor =>
          intro hacc
          split
          · next hlink => exact hok hacc hlink
          · exact ht.mark_lt
  | drop => exact fun op hop hle => ht.marked op (h.ok.sent op hop) hle
  | dial | advance r | deliver r | restart r => trivial

/-! ### Both directions -/

/-- **The invariant** of a careful run. -/
structure Caught (c : Pair) : Prop where
  upright : c.Upright
  tight : c.uplink.Tight Op.seq
  downward : c.Downward

lemma Synced.caught (h : c.Synced) : c.Caught := by
  have hup := fun r => (h.quiet r).1
  have hinbox := fun r => (h.quiet r).2
  have huplink : c.uplink = ⟨[], [], (c .acceptor).server.tracker.nextSeq, [],
      (c .dialer).server.tracker.appliedPeerSeq, [], [], []⟩ := by
    simp [uplink, h.recorded, h.log, h.processed, hinbox, hup, Phase.pending, acksIn, asksIn]
  refine ⟨⟨?_, ?_, h.wellFormed.exists_user h.full, ?_, ?_, ?_, ?_⟩, ⟨?_, ?_⟩, ⟨?_, ?_, ?_, ?_⟩⟩
  · rw [huplink]
    exact .blank _ _
  · simp [AsksSnapshot, hup, Phase.pending]
  · simp [AsksCatchup, hup]
  · simp [hinbox]
  · simp [hinbox]
  · refine fun _ => .inr (.inr ⟨hup .acceptor, fun op hop => ?_⟩)
    rw [huplink] at hop
    cases hop
  · intro op hop
    rw [huplink] at hop
    cases hop
  · exact h.mark .dialer
  · simp [h.recorded]
  · simp [hup, Phase.Greeted]
  · simp [hup]
  · simp [hup]

lemma Caught.step (h : c.Caught) {e : Event} (hlast : e.Lasting) (hok : c.Careful H e)
    (hstep : c.step H e = some c') : c'.Caught where
  upright := h.upright.step (hlast .dialer) (hok.keeps h.upright h.tight) hstep
  tight := tight_step h.upright h.tight hlast hstep
  downward := h.downward.step hlast hok hstep

/-- **Nothing is lost** in careful runs: whenever the link is quiet, each tracker
has processed every op that the other has recorded. -/
theorem nothing_lost (h₀ : c₀.Synced)
    (h : Run (step H) (fun c e => e.Lasting ∧ c.Careful H e) c₀ c) (hquiet : c.Quiet) :
    ∀ r, ∀ op ∈ (c r).recorded, op ∈ (c r.peer).processed := by
  have hcaught : c.Caught := h.invariant h₀.caught fun hI hok hstep => hI.step hok.1 hok.2 hstep
  refine Role.forall_iff.mpr ⟨fun op hop => ?_, fun op hop => ?_⟩
  · rcases hcaught.downward.sent op hop with hdone | hin
    · exact hdone
    · rw [(hquiet .acceptor).2] at hin
      cases hin
  · exact hcaught.upright.mem_processed hquiet hop

/-- Two trackers with one user. -/
def oneUser : Pair := fun _ =>
  { Side.start with
    server := ⟨⟨TrackerState.init.after id (.createUser [1] [2]), 1, 0, []⟩, fun _ => none⟩
    phase := .up }

lemma oneUser_synced : oneUser.Synced where
  quiet := by decide +kernel
  log _ := rfl
  recorded _ := rfl
  processed _ := rfl
  mark := by decide +kernel
  agree := rfl
  wellFormed := TrackerState.WellFormed.init.after _
  full := by decide +kernel

theorem nothing_lost_newcomer :
    let c := (exec (step id) oneUser ([.drop] ++ newcomer .acceptor ++ linking ++
      [.deliver .acceptor, .deliver .dialer, .deliver .acceptor])).get (by decide +kernel)
    ∀ r, ∀ op ∈ (c r).recorded, op ∈ (c r.peer).processed :=
  nothing_lost (H := id) oneUser_synced (Run.of_exec (by decide +kernel) (Option.some_get _).symm)
    (by decide +kernel)

/-- **A run that is not careful**: tracker 0 records an op while the link is
down, and tracker 1 never asks for it. -/
theorem recorded_while_down :
    ∃ c₀ c : Pair, c₀.Synced ∧ Run (step id) (fun _ e => e.Lasting) c₀ c ∧ c.Quiet ∧
      ∃ op ∈ (c .dialer).recorded, op ∉ (c .acceptor).processed := by
  have hlast : ∀ e ∈ [.drop] ++ newcomer .dialer ++ linking ++ [.deliver .acceptor],
      Event.Lasting e := by
    decide +kernel
  refine ⟨oneUser, (exec (step id) oneUser ([.drop] ++ newcomer .dialer ++ linking ++
    [.deliver .acceptor])).get (by decide +kernel), oneUser_synced, ?_, by decide +kernel,
    by decide +kernel⟩
  exact Run.of_exec (meets_of_forall hlast oneUser) (Option.some_get _).symm

end Pair

end P2PShare
