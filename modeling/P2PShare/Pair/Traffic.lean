import P2PShare.Pair.Basic

/-!
The messages between a tracker `x` that sets up the link with the role `t` and
its peer `y`.

* `Side.asked`, `Side.Requested`: the catch-up and the snapshot that `x` has
  asked `y` for, or is about to.
* `Traffic` (**the invariant**): `x` sends one request at most, behind plain
  messages only, and the numbers on both sides fit.
* `Traffic.choose`, `Traffic.ask`, `Traffic.peer_take`: what the steps of the
  link set-up do to them.
-/

namespace P2PShare

namespace SyncMsg

/-- A message that a tracker may send before it is in its receive loop, other
than its request. -/
def IsPlain (m : SyncMsg) : Prop := m.type = .syncHello ∨ m.type = .syncOp

/-- A request for ops or for a snapshot. -/
def IsRequest (m : SyncMsg) : Prop := m.type = .syncCatchup ∨ m.type = .syncSnapshotRequest

end SyncMsg

/-- The tracker has tested whether its state is empty. -/
def Phase.Tested : Phase → Prop
  | .ask _ | .up => True
  | .down | .hello | .choose | .client => False

namespace Side

/-- The numbers above which `x` has asked for the ops of `y`, or is about to. -/
def asked (x y : Side) : List ℕ := asksIn x.phase.pending ++ asksIn y.inbox

/-- The snapshot request of `x` has not been processed yet. -/
def Requested (x y : Side) : Prop :=
  SyncMsg.snapshotRequest ∈ x.phase.pending ∨ SyncMsg.snapshotRequest ∈ y.inbox

lemma mem_asked {x y : Side} {n : ℕ} :
    n ∈ x.asked y ↔ SyncMsg.catchup n ∈ x.phase.pending ∨ SyncMsg.catchup n ∈ y.inbox := by
  rw [asked, List.mem_append, mem_asksIn, mem_asksIn]

end Side

/-- The messages between `x` and `y`, where `x` has the role `t`. -/
structure Traffic (t : Role) (x y : Side) : Prop where
  /-- Before its request `x` sends plain messages only. -/
  early : y.inbox.Pairwise fun m m' => m'.IsRequest → m.IsPlain
  fresh : x.phase ≠ .up → ∀ m ∈ y.inbox, m.IsPlain
  pending : x.phase.pending.length ≤ 1 ∧ ∀ m ∈ x.phase.pending, m.IsRequest
  single : x.Requested y → x.asked y = []
  idle : t = .acceptor → y.phase.linked = true ∨ x.phase = .down ∧ x.inbox = []
  mark : x.server.tracker.appliedPeerSeq < y.server.tracker.nextSeq
  numbers : ∀ op ∈ opsIn x.inbox, op.seq < y.server.tracker.nextSeq
  linked : x.phase.Tested → y.phase.linked = true ∨ y.phase = .client ∨ x.Requested y ∨
    ∃ n ∈ x.asked y, n < y.server.tracker.nextSeq

section

variable {msgs : List SyncMsg}

lemma asksIn_eq_nil (h : ∀ m ∈ msgs, m.type ≠ .syncCatchup) : asksIn msgs = [] := by
  refine List.eq_nil_iff_forall_not_mem.mpr fun n hn => ?_
  exact h _ (mem_asksIn.mp hn) rfl

/-- A plain message is no request. -/
lemma SyncMsg.IsPlain.not_isRequest {m : SyncMsg} (h : m.IsPlain) : ¬ m.IsRequest := by
  rcases h with h | h <;> simp [SyncMsg.IsRequest, h]

/-- An answer is no request. -/
lemma not_isRequest_of_answer {H : Str → Str} {t : Tracker} {m m' : SyncMsg}
    (h : m' ∈ (t.process H m).1) : ¬ m'.IsRequest := by
  rcases Tracker.answer_cases h with ⟨n, -, op, -, rfl⟩ | ⟨op, -, rfl⟩ | ⟨-, rfl⟩ <;>
    simp [SyncMsg.IsRequest, SyncMsg.type]

/-- What a new link makes a tracker send. -/
lemma isRequest_of_request {x : Side} {r : Role} {m : SyncMsg} (h : m ∈ x.request r) :
    m.IsRequest := by
  cases r with
  | dialer =>
      rw [List.mem_singleton.mp h]
      exact x.server.tracker.type_dialRequest.symm
  | acceptor => exact .inr (Tracker.type_of_mem_acceptRequest h)

/-- What a tracker pushes for a client event. -/
lemma pushed_subset (linked : Bool) (ops : List Op) :
    (if linked then ops.map SyncMsg.op else []) ⊆ ops.map .op := by
  split
  · exact List.Subset.refl _
  · exact List.nil_subset _

end

namespace Traffic

variable {H : Str → Str} {t : Role} {x y : Side}

/-- What matters for the messages is the same. -/
lemma congr (h : Traffic t x y) {x' y' : Side} (hphase : x'.phase = x.phase)
    (hinbox : x'.inbox = x.inbox)
    (hmark : x'.server.tracker.appliedPeerSeq < y'.server.tracker.nextSeq)
    (hphase' : y'.phase = y.phase) (hinbox' : y'.inbox = y.inbox)
    (hnext : y.server.tracker.nextSeq ≤ y'.server.tracker.nextSeq) : Traffic t x' y' := by
  have hasked : x'.asked y' = x.asked y := by rw [Side.asked, Side.asked, hphase, hinbox']
  have hreq : x'.Requested y' ↔ x.Requested y := by
    rw [Side.Requested, Side.Requested, hphase, hinbox']
  refine ⟨?_, ?_, ?_, ?_, ?_, ?_, ?_, ?_⟩
  · exact hinbox' ▸ h.early
  · rw [hphase, hinbox']
    exact h.fresh
  · rw [hphase]
    exact h.pending
  · rw [hasked, hreq]
    exact h.single
  · rw [hphase, hinbox, hphase']
    exact h.idle
  · exact hmark
  · rw [hinbox]
    exact fun op hop => lt_of_lt_of_le (h.numbers op hop) hnext
  · rw [hphase, hphase', hreq, hasked]
    intro htest
    refine (h.linked htest).imp_right (Or.imp_right (Or.imp_right ?_))
    exact fun ⟨n, hn, hlt⟩ => ⟨n, hn, lt_of_lt_of_le hlt hnext⟩

/-- `x` sends messages that are no requests. -/
lemma post (h : Traffic t x y) {msgs : List SyncMsg} (hno : ∀ m ∈ msgs, ¬ m.IsRequest)
    (hplain : x.phase ≠ .up → ∀ m ∈ msgs, m.IsPlain) :
    Traffic t x { y with inbox := y.inbox ++ msgs } := by
  have hcatchup : asksIn msgs = [] := asksIn_eq_nil fun m hm htype => hno m hm (.inl htype)
  have hsnap : SyncMsg.snapshotRequest ∉ msgs := fun hm => hno _ hm (.inr rfl)
  have hasked : x.asked { y with inbox := y.inbox ++ msgs } = x.asked y := by
    simp [Side.asked, hcatchup]
  have hreq : x.Requested { y with inbox := y.inbox ++ msgs } ↔ x.Requested y := by
    simp [Side.Requested, hsnap]
  refine { h with early := ?_, fresh := fun hne m hm => ?_, single := ?_, linked := ?_ }
  · refine List.pairwise_append.mpr ⟨h.early, ?_, fun m _ m' hm' hr => absurd hr (hno m' hm')⟩
    exact List.pairwise_iff_getElem.mpr fun i j _ hj _ hr => absurd hr (hno _ (List.getElem_mem hj))
  · exact (List.mem_append.mp hm).elim (h.fresh hne m) (hplain hne m)
  · rw [hasked, hreq]
    exact h.single
  · rw [hasked, hreq]
    exact h.linked

/-- `y` sends messages. -/
lemma receive (h : Traffic t x y) {msgs : List SyncMsg} (hlink : msgs ≠ [] → y.phase.linked = true)
    (hnumbers : ∀ op ∈ opsIn msgs, op.seq < y.server.tracker.nextSeq) :
    Traffic t { x with inbox := x.inbox ++ msgs } y := by
  refine { h with idle := fun ht => ?_, numbers := fun op hop => ?_ }
  · by_cases hmsgs : msgs = []
    · simpa [hmsgs] using h.idle ht
    · exact .inl (hlink hmsgs)
  · rw [opsIn_append] at hop
    exact (List.mem_append.mp hop).elim (h.numbers op) (hnumbers op)

/-- A client event of `x`, and the ops that are pushed for it. -/
lemma client (h : Traffic t x y) {x' : Side} {ops : List Op} (hphase : x'.phase = x.phase)
    (hinbox : x'.inbox = x.inbox)
    (hmark : x'.server.tracker.appliedPeerSeq = x.server.tracker.appliedPeerSeq) :
    Traffic t x' { y with inbox := y.inbox ++ if x.phase.linked then ops.map .op else [] } := by
  have hops : ∀ m ∈ (if x.phase.linked then ops.map SyncMsg.op else []), m.type = .syncOp := by
    intro m hm
    obtain ⟨op, -, rfl⟩ := List.mem_map.mp (pushed_subset _ _ hm)
    rfl
  have hsame := h.congr hphase hinbox (hmark ▸ h.mark) rfl rfl le_rfl
  refine hsame.post (fun m hm => ?_) fun _ m hm => ?_
  · simp [SyncMsg.IsRequest, hops m hm]
  · exact .inr (hops m hm)

/-- A client event of `y`. -/
lemma peer_client (h : Traffic t x y) {y' : Side} {ops : List Op} (hphase : y'.phase = y.phase)
    (hinbox : y'.inbox = y.inbox)
    (hnext : y'.server.tracker.nextSeq = y.server.tracker.nextSeq + ops.length)
    (hseq : ∀ op ∈ ops, op.seq = y.server.tracker.nextSeq) :
    Traffic t { x with inbox := x.inbox ++ if y.phase.linked then ops.map .op else [] } y' := by
  have hle : y.server.tracker.nextSeq ≤ y'.server.tracker.nextSeq := by omega
  refine (h.congr rfl rfl (lt_of_lt_of_le h.mark hle) hphase hinbox hle).receive
    (fun hmsgs => ?_) fun op hop => ?_
  · rw [hphase]
    by_contra hlink
    exact hmsgs (if_neg hlink)
  · have hmem : op ∈ ops := by
      have hop' := pushed_subset _ _ (mem_opsIn.mp hop)
      rwa [← mem_opsIn, opsIn_map] at hop'
    rw [hseq op hmem, hnext]
    have hpos := List.length_pos_of_mem hmem
    omega

/-- `y` reads a message, and is or becomes linked or a client session. -/
lemma peer_take (h : Traffic t x y) {m : SyncMsg} {rest : List SyncMsg}
    (hinbox : y.inbox = m :: rest) {phase : Phase}
    (hphase : phase.linked = true ∨ phase = .client ∧ t ≠ .acceptor) :
    Traffic t x { y with phase := phase, inbox := rest } := by
  have hrest : ∀ m' ∈ rest, m' ∈ y.inbox := fun m' hm' => hinbox ▸ List.mem_cons_of_mem m hm'
  refine { h with early := ?_, fresh := fun hne m' hm' => h.fresh hne m' (hrest m' hm'),
                  single := fun hreq => ?_, idle := fun ht => ?_, linked := fun _ => ?_ }
  · exact (List.pairwise_cons.mp (hinbox ▸ h.early)).2
  · have hnone := h.single (hreq.imp_right (hrest _))
    rw [Side.asked, hinbox, List.append_eq_nil_iff] at hnone
    refine List.append_eq_nil_iff.mpr ⟨hnone.1, List.eq_nil_iff_forall_not_mem.mpr fun n hn => ?_⟩
    have hmem : n ∈ asksIn (m :: rest) := mem_asksIn.mpr (List.mem_cons_of_mem m (mem_asksIn.mp hn))
    rw [hnone.2] at hmem
    cases hmem
  · exact .inl (hphase.resolve_right fun hc => hc.2 ht)
  · exact hphase.imp_right fun hc => .inl hc.1

/-- `x` reads a message. -/
lemma take (h : Traffic t x y) {m : SyncMsg} {rest : List SyncMsg} (hinbox : x.inbox = m :: rest)
    {phase : Phase} (hpending : phase.pending = []) (hpending' : x.phase.pending = [])
    (hup : phase = .up ↔ x.phase = .up) (htest : phase.Tested → x.phase.Tested) :
    Traffic t { x with phase := phase, inbox := rest } y := by
  have hreq : Side.Requested { x with phase := phase, inbox := rest } y ↔ x.Requested y := by
    simp [Side.Requested, hpending, hpending']
  have hasked : Side.asked { x with phase := phase, inbox := rest } y = x.asked y := by
    simp [Side.asked, hpending, hpending']
  refine { h with fresh := fun hne => h.fresh fun hup' => hne (hup.mpr hup'), pending := ?_,
                  single := ?_, idle := fun ht => ?_, numbers := fun op hop => ?_, linked := ?_ }
  · rw [hpending]
    simp
  · rw [hreq, hasked]
    exact h.single
  · refine .inl ((h.idle ht).resolve_right fun hidle => ?_)
    rw [hinbox] at hidle
    cases hidle.2
  · refine h.numbers op (hinbox ▸ ?_)
    exact mem_opsIn.mpr (List.mem_cons_of_mem m (mem_opsIn.mp hop))
  · rw [hreq, hasked]
    exact fun ht => h.linked (htest ht)

/-- `x` processes a message and answers it. -/
lemma process (h : Traffic t x y) {m : SyncMsg} {rest : List SyncMsg} (hinbox : x.inbox = m :: rest)
    (hup : x.phase = .up) {x' : Side} (hphase : x'.phase = .up) (hrest : x'.inbox = rest)
    (htracker : x'.server.tracker = (x.server.tracker.process H m).2) :
    Traffic t x' { y with inbox := y.inbox ++ (x.server.tracker.process H m).1 } := by
  have htake : Traffic t { x with phase := .up, inbox := rest } y :=
    h.take hinbox rfl (by rw [hup]; rfl) (by simp [hup]) fun _ => by rw [hup]; trivial
  have hmark : x'.server.tracker.appliedPeerSeq < y.server.tracker.nextSeq := by
    rw [htracker]
    cases m with
    | op op =>
        have hop : op.seq < y.server.tracker.nextSeq :=
          h.numbers op (mem_opsIn.mpr (hinbox ▸ List.mem_cons_self))
        have hold := h.mark
        simp only [Tracker.process, Tracker.applyOp]
        split <;> omega
    | hello | catchup | ack | snapshotRequest | snapshotData => exact h.mark
  refine (htake.congr hphase hrest hmark rfl rfl le_rfl).post ?_ fun hne => absurd hphase hne
  exact fun m' hm' => not_isRequest_of_answer hm'

/-- `y` processes a message and answers it. -/
lemma peer_process (h : Traffic t x y) {m : SyncMsg} {rest : List SyncMsg}
    (hinbox : y.inbox = m :: rest) (hbelow : ∀ op ∈ y.server.tracker.log,
      op.seq < y.server.tracker.nextSeq) {y' : Side} (hphase : y'.phase = .up)
    (hrest : y'.inbox = rest) (htracker : y'.server.tracker = (y.server.tracker.process H m).2) :
    Traffic t { x with inbox := x.inbox ++ (y.server.tracker.process H m).1 } y' := by
  have htake : Traffic t x { y with phase := .up, inbox := rest } :=
    h.peer_take hinbox (.inl rfl)
  have hnext : y'.server.tracker.nextSeq = y.server.tracker.nextSeq := by
    rw [htracker]
    exact (y.server.tracker.process_log H m).1
  refine (htake.congr rfl rfl (hnext ▸ h.mark) hphase hrest hnext.ge).receive ?_ fun op hop => ?_
  · exact fun _ => by rw [hphase]; rfl
  · rw [hnext]
    rcases Tracker.answer_cases (mem_opsIn.mp hop) with
      ⟨n, -, op', hlog, heq⟩ | ⟨op', -, heq⟩ | ⟨-, heq⟩
    · exact SyncMsg.op.inj heq ▸ hbelow op' hlog
    · cases heq
    · cases heq

/-- The phase of `x` changes outside the receive loop, without a request. -/
lemma setPhase (h : Traffic t x y) {phase : Phase} (hpending : phase.pending = [])
    (hpending' : x.phase.pending = []) (hup : x.phase ≠ .up) (htest : ¬ phase.Tested)
    (hidle : t = .acceptor → x.phase ≠ .down) : Traffic t { x with phase := phase } y := by
  have hreq : Side.Requested { x with phase := phase } y ↔ x.Requested y := by
    simp [Side.Requested, hpending, hpending']
  have hasked : Side.asked { x with phase := phase } y = x.asked y := by
    simp [Side.asked, hpending, hpending']
  refine { h with fresh := fun _ => h.fresh hup, pending := ?_, single := ?_, idle := fun ht => ?_,
                  linked := fun ht => absurd ht htest }
  · rw [hpending]
    simp
  · rw [hreq, hasked]
    exact h.single
  · exact .inl ((h.idle ht).resolve_right fun hdown => hidle ht hdown.1)

/-- `y` goes on setting up the link. -/
lemma peer_setPhase (h : Traffic t x y) {phase : Phase} (hlink : phase.linked = true) :
    Traffic t x { y with phase := phase } :=
  { h with
    idle := fun _ => .inl hlink
    linked := fun _ => .inl hlink }

/-- `x` tests whether its state is empty. -/
lemma choose (h : Traffic t x y) (hphase : x.phase = .choose) :
    Traffic t { x with phase := .ask (x.request t) } y := by
  have hplain := h.fresh (by rw [hphase]; simp)
  have hcatchup : asksIn y.inbox = [] :=
    asksIn_eq_nil fun m hm htype => (hplain m hm).not_isRequest (.inl htype)
  have hnone : SyncMsg.snapshotRequest ∉ y.inbox := fun hm => (hplain _ hm).not_isRequest (.inr rfl)
  have hlinked : t = .acceptor → y.phase.linked = true := fun ht =>
    (h.idle ht).resolve_right fun hdown => by simp [hphase] at hdown
  have hreq : Side.Requested { x with phase := .ask (x.request t) } y ↔
      .snapshotRequest ∈ x.request t := by
    simp [Side.Requested, Phase.pending, hnone]
  have hasked : Side.asked { x with phase := .ask (x.request t) } y = asksIn (x.request t) := by
    simp [Side.asked, Phase.pending, hcatchup]
  have hcases : x.request t = [.snapshotRequest] ∨ t = .acceptor ∧ x.request t = [] ∨
      t = .dialer ∧ x.request t = [.catchup x.server.tracker.appliedPeerSeq] := by
    cases t with
    | dialer =>
        by_cases hempty : x.server.tracker.state.isEmpty
        · exact .inl (by simp [Side.request, Tracker.dialRequest, hempty])
        · exact .inr (.inr ⟨rfl, by simp [Side.request, Tracker.dialRequest, hempty]⟩)
    | acceptor =>
        by_cases hempty : x.server.tracker.state.isEmpty
        · exact .inl (by simp [Side.request, Tracker.acceptRequest, hempty])
        · exact .inr (.inl ⟨rfl, by simp [Side.request, Tracker.acceptRequest, hempty]⟩)
  refine { h with fresh := fun _ => hplain, pending := ?_, single := ?_,
                  idle := fun ht => .inl (hlinked ht), linked := fun _ => ?_ }
  · rw [Phase.pending]
    rcases hcases with heq | ⟨-, heq⟩ | ⟨-, heq⟩ <;> simp [heq, SyncMsg.IsRequest, SyncMsg.type]
  · rw [hreq, hasked]
    rcases hcases with heq | ⟨-, heq⟩ | ⟨-, heq⟩ <;> simp [heq, asksIn, SyncMsg.asCatchup]
  · rw [hreq, hasked]
    rcases hcases with heq | ⟨ht, -⟩ | ⟨-, heq⟩
    · exact .inr (.inr (.inl (by simp [heq])))
    · exact .inl (hlinked ht)
    · refine .inr (.inr (.inr ⟨_, ?_, h.mark⟩))
      rw [heq]
      exact List.mem_cons_self

/-- `x` sends its request. -/
lemma ask (h : Traffic t x y) {request : List SyncMsg} (hphase : x.phase = .ask request) :
    Traffic t { x with phase := .up } { y with inbox := y.inbox ++ request } := by
  have hplain := h.fresh (by rw [hphase]; simp)
  have hpending := h.pending
  rw [hphase] at hpending
  have hreq : Side.Requested { x with phase := .up } { y with inbox := y.inbox ++ request } ↔
      x.Requested y := by
    simp [Side.Requested, Phase.pending, hphase, or_comm]
  have hasked : ∀ n, n ∈ Side.asked { x with phase := .up } { y with inbox := y.inbox ++ request } ↔
      n ∈ x.asked y := by
    simp [Side.asked, Phase.pending, hphase, asksIn, or_comm]
  refine { h with early := ?_, fresh := fun hne => absurd rfl hne, pending := ?_,
                  single := fun hr => ?_, idle := fun ht => ?_, linked := fun _ => ?_ }
  · refine List.pairwise_append.mpr ⟨h.early, ?_, fun m hm _ _ _ => hplain m hm⟩
    obtain _ | ⟨m, _ | ⟨m', rest⟩⟩ := request
    · exact .nil
    · exact List.pairwise_singleton _ m
    · simp [Phase.pending] at hpending
  · simp [Phase.pending]
  · refine List.eq_nil_iff_forall_not_mem.mpr fun n hn => ?_
    rw [hasked, h.single (hreq.mp hr)] at hn
    cases hn
  · exact .inl ((h.idle ht).resolve_right fun hdown => by simp [hphase] at hdown)
  · rw [hreq]
    refine (h.linked (by rw [hphase]; trivial)).imp_right (Or.imp_right (Or.imp_right ?_))
    rintro ⟨n, hn, hlt⟩
    exact ⟨n, (hasked n).mpr hn, hlt⟩

/-- Without a link. -/
lemma of_cut {x y : Side} (hx : x.phase = .down ∧ x.inbox = []) (hy : y.inbox = [])
    (hmark : x.server.tracker.appliedPeerSeq < y.server.tracker.nextSeq) : Traffic t x y where
  early := by rw [hy]; exact .nil
  fresh _ m hm := by rw [hy] at hm; cases hm
  pending := by simp [hx.1, Phase.pending]
  single hr := by simp [Side.Requested, hx.1, hy, Phase.pending] at hr
  idle _ := .inr hx
  mark := hmark
  numbers op hop := by rw [hx.2] at hop; cases hop
  linked ht := by rw [hx.1] at ht; cases ht

/-- What `x` sends overtakes an answer that it has not sent yet. -/
lemma overtake {inbox answer msgs : List SyncMsg}
    (h : Traffic t x { y with inbox := inbox ++ answer ++ msgs })
    (hno : ∀ m ∈ answer ++ msgs, ¬ m.IsRequest) :
    Traffic t x { y with inbox := inbox ++ msgs ++ answer } := by
  obtain ⟨hanswer, hmsgs⟩ := List.forall_mem_append.mp hno
  have hasks : ∀ {l : List SyncMsg}, (∀ m ∈ l, ¬ m.IsRequest) → asksIn l = [] := fun hl =>
    asksIn_eq_nil fun m hm htype => hl m hm (.inl htype)
  have hasked : x.asked { y with inbox := inbox ++ msgs ++ answer } =
      x.asked { y with inbox := inbox ++ answer ++ msgs } := by
    simp [Side.asked, hasks hanswer, hasks hmsgs]
  have hreq : x.Requested { y with inbox := inbox ++ msgs ++ answer } ↔
      x.Requested { y with inbox := inbox ++ answer ++ msgs } := by
    simp [Side.Requested, or_comm]
  refine { h with early := ?_, fresh := fun hne m hm => ?_, single := ?_, linked := ?_ }
  · -- nothing among them is a request, so their order is of no concern
    have hearly := h.early
    dsimp only at hearly ⊢
    rw [List.append_assoc, List.pairwise_append] at hearly ⊢
    refine ⟨hearly.1, ?_, fun m _ m' hm' hr => ?_⟩
    · refine List.pairwise_iff_getElem.mpr fun i j _ hj _ hr => ?_
      exact absurd hr ((List.forall_mem_append.mpr ⟨hmsgs, hanswer⟩) _ (List.getElem_mem hj))
    · exact absurd hr ((List.forall_mem_append.mpr ⟨hmsgs, hanswer⟩) m' hm')
  · refine h.fresh hne m ?_
    simp only [List.mem_append] at hm ⊢
    tauto
  · rw [hasked, hreq]
    exact h.single
  · rw [hasked, hreq]
    exact h.linked

/-- What `y` sends overtakes an answer that it has not sent yet. -/
lemma peer_overtake {inbox answer msgs : List SyncMsg}
    (h : Traffic t { x with inbox := inbox ++ answer ++ msgs } y) :
    Traffic t { x with inbox := inbox ++ msgs ++ answer } y := by
  refine { h with idle := fun ht => (h.idle ht).imp_right fun hidle => ⟨hidle.1, ?_⟩,
                  numbers := fun op hop => h.numbers op ?_ }
  · have hnil := hidle.2
    simp only [List.append_eq_nil_iff] at hnil ⊢
    tauto
  · simp only [opsIn_append, List.mem_append] at hop ⊢
    tauto

/-- A request that `x` has not seen answered stands behind plain messages. -/
lemma plain_of_requested (h : Traffic t x y) {m : SyncMsg} {rest : List SyncMsg}
    (hinbox : y.inbox = m :: rest) (hm : m ≠ .snapshotRequest) (hreq : x.Requested y) :
    m.IsPlain := by
  rcases hreq with hpending | hin
  · refine h.fresh (fun hup => ?_) m (hinbox ▸ List.mem_cons_self)
    simp [hup, Phase.pending] at hpending
  · have hearly := h.early
    rw [hinbox] at hearly hin
    have hrest := (List.mem_cons.mp hin).resolve_left (Ne.symm hm)
    exact (List.pairwise_cons.mp hearly).1 _ hrest (.inr rfl)

/-- The same for a catch-up request. -/
lemma plain_of_asked (h : Traffic t x y) {m : SyncMsg} {rest : List SyncMsg}
    (hinbox : y.inbox = m :: rest) {n : ℕ} (hm : m ≠ .catchup n) (hn : n ∈ x.asked y) :
    m.IsPlain := by
  rcases Side.mem_asked.mp hn with hpending | hin
  · refine h.fresh (fun hup => ?_) m (hinbox ▸ List.mem_cons_self)
    simp [hup, Phase.pending] at hpending
  · have hearly := h.early
    rw [hinbox] at hearly hin
    have hrest := (List.mem_cons.mp hin).resolve_left (Ne.symm hm)
    exact (List.pairwise_cons.mp hearly).1 _ hrest (.inl rfl)

end Traffic

end P2PShare
