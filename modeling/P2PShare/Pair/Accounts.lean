import Mathlib.Data.List.TakeWhile
import P2PShare.Pair.Traffic
import P2PShare.Tracker.Accounts

/-!
The accounts of a tracker `x` that recovers and of its peer `y`, and those in the
messages between them.

* `Side.owed`, `Side.coming`: the ops that the catch-up request of `x` will
  bring, and all that is on its way to it.
* `Recovering` (**the invariant**): once `x` has tested whether its state is
  empty, each account of `y` is in its state or on its way there.
* `Recovering.process`, `Recovering.peer_read`, `Recovering.choose`: what the
  steps do, one lemma for each.
-/

namespace P2PShare

namespace Side

/-- The ops that `y` will send for these requests. -/
def owed (x y : Side) : List SyncMsg :=
  (x.asked y).flatMap fun n => (y.server.tracker.catchupFrom n).map .op

/-- What `y` reads before that request. -/
def ahead (y : Side) : List SyncMsg := y.inbox.takeWhile (· ≠ .snapshotRequest)

/-- What is on its way to `x` or will be sent there for its catch-up request. -/
def coming (x y : Side) : List SyncMsg := x.inbox ++ x.owed y

/-- The accounts of both trackers and of what is on its way between them. -/
def known (H : Str → Str) (x y : Side) : List Account :=
  x.state.accounts ++ accountsIn H (x.coming y) ++ (y.state.accounts ++ accountsIn H y.inbox)

/-- The ops that a catch-up request of `x` would bring. -/
def backlog (x y : Side) : Role → List SyncMsg
  | .dialer => (y.server.tracker.catchupFrom x.server.tracker.appliedPeerSeq).map .op
  | .acceptor => []

end Side

/-- **The invariant**: the accounts. -/
structure Recovering (H : Str → Str) (x y : Side) : Prop where
  clear : Unambiguous (x.known H y)
  /-- Whatever `x` sends or has logged is in its state. -/
  origin : ∀ a ∈ accountsIn H (y.inbox ++ x.server.tracker.log.map .op), a ∈ x.state.accounts
  /-- A snapshot has the accounts of the state it is loaded into and of what comes before it. -/
  ordered : x.inbox.Pairwise fun m s => s.Loads → m.accounts H ⊆ s.accounts H
  loaded : ∀ s ∈ x.inbox, s.Loads → x.state.accounts ⊆ s.accounts H
  requested : x.Requested y → y.phase ≠ .client →
    x.state.accounts ++ accountsIn H x.inbox ⊆ y.state.accounts ++ accountsIn H y.ahead
  fresh : x.phase ≠ .up → accountsIn H x.inbox ⊆ y.state.accounts
  covered : x.phase.Tested → y.phase ≠ .client → ¬ x.Requested y → (∀ m ∈ x.inbox, m.Sendable) →
    y.state.accounts ⊆ x.state.accounts ++ accountsIn H (x.coming y)

section

variable {H : Str → Str} {x y : Side}

lemma mem_owed {m : SyncMsg} :
    m ∈ x.owed y ↔ ∃ n ∈ x.asked y, ∃ op ∈ y.server.tracker.log, n < op.seq ∧ .op op = m := by
  simp [Side.owed, Tracker.catchupFrom, and_assoc]

/-- What is known lies in this list. -/
lemma known_subset {accounts : List Account} (hx : x.state.accounts ⊆ accounts)
    (hinbox : accountsIn H x.inbox ⊆ accounts) (howed : accountsIn H (x.owed y) ⊆ accounts)
    (hy : y.state.accounts ⊆ accounts) (hinbox' : accountsIn H y.inbox ⊆ accounts) :
    x.known H y ⊆ accounts := by
  simp only [Side.known, Side.coming, accountsIn_append, List.append_subset]
  exact ⟨⟨hx, hinbox, howed⟩, hy, hinbox'⟩

/-- The parts of what is known. -/
lemma subset_known : x.state.accounts ⊆ x.known H y ∧ accountsIn H x.inbox ⊆ x.known H y ∧
    accountsIn H (x.owed y) ⊆ x.known H y ∧ y.state.accounts ⊆ x.known H y ∧
      accountsIn H y.inbox ⊆ x.known H y := by
  have hself : x.known H y ⊆ x.known H y := List.Subset.refl _
  rw [Side.known, Side.coming, accountsIn_append, List.append_subset, List.append_subset,
    List.append_subset, List.append_subset] at hself
  rw [Side.known, Side.coming, accountsIn_append]
  exact ⟨hself.1.1, hself.1.2.1, hself.1.2.2, hself.2.1, hself.2.2⟩

/-- More messages behind what is ahead of the request. -/
lemma ahead_subset_append (y : Side) (msgs : List SyncMsg) :
    y.ahead ⊆ Side.ahead { y with inbox := y.inbox ++ msgs } := by
  rw [Side.ahead, Side.ahead]
  dsimp only
  induction y.inbox with
  | nil => exact List.nil_subset _
  | cons m rest ih =>
      rw [List.cons_append, List.takeWhile_cons, List.takeWhile_cons]
      split
      · exact List.cons_subset_cons m ih
      · exact List.Subset.refl _

/-- Messages that are no such request may change places behind what is ahead of it. -/
lemma ahead_overtake {inbox msgs msgs' : List SyncMsg}
    (hno : ∀ m ∈ msgs ++ msgs', m ≠ .snapshotRequest) :
    Side.ahead { y with inbox := inbox ++ msgs ++ msgs' } ⊆
      Side.ahead { y with inbox := inbox ++ msgs' ++ msgs } := by
  have hahead : ∀ l : List SyncMsg, (∀ m ∈ l, m ≠ .snapshotRequest) →
      (inbox ++ l).takeWhile (· ≠ .snapshotRequest) =
        if (inbox.takeWhile (· ≠ .snapshotRequest)).length = inbox.length then inbox ++ l
        else inbox.takeWhile (· ≠ .snapshotRequest) := by
    intro l hl
    have hself : l.takeWhile (· ≠ .snapshotRequest) = l :=
      List.takeWhile_eq_self_iff.mpr fun m hm => by simpa using hl m hm
    rw [List.takeWhile_append, hself]
  obtain ⟨hmsgs, hmsgs'⟩ := List.forall_mem_append.mp hno
  rw [Side.ahead, Side.ahead]
  dsimp only
  rw [List.append_assoc, List.append_assoc, hahead _ hno,
    hahead _ (List.forall_mem_append.mpr ⟨hmsgs', hmsgs⟩)]
  split
  · intro m hm
    simp only [List.mem_append] at hm ⊢
    tauto
  · exact List.Subset.refl _

/-- What a snapshot brings when it is taken. -/
lemma accounts_snapshot_subset {s : TrackerState} (hs : s.WellFormed) :
    (SyncMsg.snapshotData s.snapshot).accounts H ⊆ s.accounts := by
  by_cases hsend : (SyncMsg.snapshotData s.snapshot).Sendable
  · rw [SyncMsg.accounts_snapshot hs hsend]
    exact List.Subset.refl _
  · rw [SyncMsg.accounts, if_neg hsend]
    exact List.nil_subset _

/-- **What a tracker answers** brings accounts of its log and its state. -/
lemma accounts_answer {t : Tracker} (hs : t.state.WellFormed) (m : SyncMsg) :
    accountsIn H (t.process H m).1 ⊆
      accountsIn H ((t.process H m).2.log.map .op) ++ (t.process H m).2.state.accounts := by
  cases m with
  | catchup n =>
      refine List.Subset.trans (accountsIn_mono (List.map_subset _ fun op hop => ?_))
        (List.subset_append_left _ _)
      exact (List.mem_filter.mp hop).1
  | snapshotRequest =>
      show accountsIn H [.snapshotData t.state.snapshot] ⊆ _
      rw [accountsIn_cons, accountsIn_nil, List.append_nil]
      exact List.Subset.trans (accounts_snapshot_subset hs) (List.subset_append_right _ _)
  | hello | op | ack | snapshotData => exact List.nil_subset _

/-- A request brings no accounts. -/
lemma accountsIn_requests {msgs : List SyncMsg} (h : ∀ m ∈ msgs, m.IsRequest) :
    accountsIn H msgs = [] := by
  refine List.flatMap_eq_nil_iff.mpr fun m hm => ?_
  rcases h m hm with htype | htype
  · exact accounts_eq_nil (by simp [htype]) (by simp [htype])
  · exact accounts_eq_nil (by simp [htype]) (by simp [htype])

/-- A message that is not the request has been ahead of it. -/
lemma ahead_cons {m : SyncMsg} {rest : List SyncMsg} (hinbox : y.inbox = m :: rest)
    (hm : m ≠ .snapshotRequest) : y.ahead = m :: rest.takeWhile (· ≠ .snapshotRequest) := by
  rw [Side.ahead, hinbox, List.takeWhile_cons_of_pos (by simpa using hm)]

end

namespace Recovering

variable {H : Str → Str} {t : Role} {x y : Side}

/-- What is left when `y` has read a message. -/
lemma origin_tail (h : Recovering H x y) {m : SyncMsg} {rest : List SyncMsg}
    (hinbox : y.inbox = m :: rest) {a : Account}
    (ha : a ∈ accountsIn H (rest ++ x.server.tracker.log.map .op)) : a ∈ x.state.accounts := by
  refine h.origin a (accountsIn_mono ?_ ha)
  rw [hinbox, List.cons_append]
  exact List.subset_cons_self _ _

/-- What `y` sends behind its snapshots loads nothing. -/
lemma ordered_append (h : Recovering H x y) {msgs : List SyncMsg} (hload : ∀ m ∈ msgs, ¬ m.Loads) :
    ((x.inbox ++ msgs).Pairwise fun m s => s.Loads → m.accounts H ⊆ s.accounts H) ∧
      ∀ s ∈ x.inbox ++ msgs, s.Loads → x.state.accounts ⊆ s.accounts H := by
  refine ⟨?_, fun s hs hl => ?_⟩
  · refine List.pairwise_append.mpr ⟨h.ordered, ?_, fun m _ s hs hl => absurd hl (hload s hs)⟩
    exact List.pairwise_iff_getElem.mpr fun i j _ hj _ hl =>
      absurd hl (hload _ (List.getElem_mem hj))
  · exact h.loaded s ((List.mem_append.mp hs).resolve_right fun hs => hload s hs hl) hl

/-- `x` sends messages that bring accounts of its state. -/
lemma post (h : Recovering H x y) {msgs : List SyncMsg} (hno : ∀ m ∈ msgs, ¬ m.IsRequest)
    (hsub : accountsIn H msgs ⊆ x.state.accounts) :
    Recovering H x { y with inbox := y.inbox ++ msgs } := by
  have hasked : x.asked { y with inbox := y.inbox ++ msgs } = x.asked y := by
    have hcatchup : asksIn msgs = [] := asksIn_eq_nil fun m hm htype => hno m hm (.inl htype)
    simp [Side.asked, hcatchup]
  have howed : x.owed { y with inbox := y.inbox ++ msgs } = x.owed y := by
    rw [Side.owed, hasked]
    rfl
  have hreq : x.Requested { y with inbox := y.inbox ++ msgs } ↔ x.Requested y := by
    have hsnap : SyncMsg.snapshotRequest ∉ msgs := fun hm => hno _ hm (.inr rfl)
    simp [Side.Requested, hsnap]
  obtain ⟨hx, hinbox, howed', hy, hinbox'⟩ := subset_known (H := H) (x := x) (y := y)
  refine { h with clear := h.clear.mono ?_, origin := fun a ha => ?_,
                  requested := fun hr hne => ?_, covered := ?_ }
  · refine known_subset hx hinbox (howed ▸ howed') hy ?_
    rw [accountsIn_append, List.append_subset]
    exact ⟨hinbox', List.Subset.trans hsub hx⟩
  · have horigin := h.origin a
    simp only [accountsIn_append, List.mem_append] at ha horigin
    tauto
  · refine List.Subset.trans (h.requested (hreq.mp hr) hne) (List.append_subset.mpr ⟨?_, ?_⟩)
    · exact List.subset_append_left _ _
    · exact List.Subset.trans (accountsIn_mono (ahead_subset_append y msgs))
        (List.subset_append_right _ _)
  · rw [hreq, Side.coming, howed]
    exact h.covered

/-- A client event of `x`. What it registers is new, and no snapshot is coming that
would be without it. -/
lemma client (h : Recovering H x y) {x' : Side} {ops : List Op} (hphase : x'.phase = x.phase)
    (hinbox : x'.inbox = x.inbox) (hlog : x'.server.tracker.log = x.server.tracker.log ++ ops)
    (hstate : ∀ a, a ∈ x'.state.accounts ↔ a ∈ x.state.accounts ∨ a ∈ accountsIn H (ops.map .op))
    (hone : Unambiguous (accountsIn H (ops.map .op)))
    (hreg : ∀ a ∈ accountsIn H (ops.map .op), (∀ b ∈ x.known H y, b.1 = a.1 → b = a) ∧
      ¬ x.Requested y ∧ ∀ m ∈ x.inbox, m.type ≠ .syncSnapshotData) :
    Recovering H x'
      { y with inbox := y.inbox ++ if x.phase.linked then ops.map .op else [] } := by
  have hsent := pushed_subset x.phase.linked ops
  have hsub := accountsIn_mono (H := H) hsent
  generalize (if x.phase.linked then ops.map SyncMsg.op else []) = msgs at hsent hsub ⊢
  have hcatchup : asksIn msgs = [] := asksIn_eq_nil fun m hm htype => by
    obtain ⟨op, -, rfl⟩ := List.mem_map.mp (hsent hm)
    cases htype
  have hsnap : SyncMsg.snapshotRequest ∉ msgs := fun hm => by
    obtain ⟨op, -, heq⟩ := List.mem_map.mp (hsent hm)
    cases heq
  have hasked : x'.asked { y with inbox := y.inbox ++ msgs } = x.asked y := by
    simp [Side.asked, hphase, hcatchup]
  have howed : x'.owed { y with inbox := y.inbox ++ msgs } = x.owed y := by
    rw [Side.owed, hasked]
    rfl
  have hreq : x'.Requested { y with inbox := y.inbox ++ msgs } ↔ x.Requested y := by
    simp [Side.Requested, hphase, hsnap]
  have hgrow : x.state.accounts ⊆ x'.state.accounts := fun a ha => (hstate a).mpr (.inl ha)
  have hnew : accountsIn H (ops.map .op) ⊆ x'.state.accounts := fun a ha => (hstate a).mpr (.inr ha)
  refine ⟨?_, ?_, hinbox ▸ h.ordered, fun s hs hload => ?_, fun hr hne => ?_, ?_, ?_⟩
  · have hclear : Unambiguous (x.known H y ++ accountsIn H (ops.map .op)) :=
      h.clear.append hone fun a ha => (hreg a ha).1
    obtain ⟨hx, hin, howed', hy, hin'⟩ := subset_known (H := H) (x := x) (y := y)
    have hold := List.subset_append_left (x.known H y) (accountsIn H (ops.map .op))
    have hops := List.subset_append_right (x.known H y) (accountsIn H (ops.map .op))
    refine hclear.mono (known_subset ?_ ?_ ?_ (List.Subset.trans hy hold) ?_)
    · exact fun a ha => ((hstate a).mp ha).elim (fun ha => hold (hx ha)) fun ha => hops ha
    · rw [hinbox]
      exact List.Subset.trans hin hold
    · rw [howed]
      exact List.Subset.trans howed' hold
    · rw [accountsIn_append, List.append_subset]
      exact ⟨List.Subset.trans hin' hold, List.Subset.trans hsub hops⟩
  · intro a ha
    have horigin := h.origin a
    rw [hlog, List.map_append] at ha
    simp only [accountsIn_append, List.mem_append] at ha horigin
    rcases ha with (ha | ha) | ha | ha
    · exact hgrow (horigin (.inl ha))
    · exact hnew (hsub ha)
    · exact hgrow (horigin (.inr ha))
    · exact hnew ha
  · rw [hinbox] at hs
    intro a ha
    rcases (hstate a).mp ha with hold | hin
    · exact h.loaded s hs hload hold
    -- no snapshot is on its way that would be without what is new
    · exact absurd hload.1 ((hreg a hin).2.2 s hs)
  · have hold := h.requested (hreq.mp hr) hne
    have hahead := accountsIn_mono (H := H) (ahead_subset_append y msgs)
    have hgone : ∀ a ∈ x.state.accounts ++ accountsIn H x.inbox,
        a ∈ y.state.accounts ++ accountsIn H (Side.ahead { y with inbox := y.inbox ++ msgs }) := by
      intro a ha
      rcases List.mem_append.mp (hold ha) with hy | hin
      · exact List.mem_append_left _ hy
      · exact List.mem_append_right _ (hahead hin)
    rw [hinbox]
    intro a ha
    rcases List.mem_append.mp ha with ha | ha
    · rcases (hstate a).mp ha with ha | ha
      · exact hgone a (List.mem_append_left _ ha)
      -- nor has one been asked for
      · exact absurd (hreq.mp hr) (hreg a ha).2.1
    · exact hgone a (List.mem_append_right _ ha)
  · rw [hphase, hinbox]
    exact h.fresh
  · rw [hphase, hreq, hinbox, Side.coming, howed, hinbox]
    intro htest hne hr hsend a ha
    rcases List.mem_append.mp (h.covered htest hne hr hsend ha) with hx | hin
    · exact List.mem_append_left _ (hgrow hx)
    · exact List.mem_append_right _ hin

/-- A client event of `y`. What it registers goes to `x`, or is in the log when
the catch-up request of `x` is processed. -/
lemma peer_client (h : Recovering H x y) (htraffic : Traffic t x y) {y' : Side} {ops : List Op}
    (hphase : y'.phase = y.phase) (hinbox : y'.inbox = y.inbox)
    (hlog : y'.server.tracker.log = y.server.tracker.log ++ ops)
    (hseq : ∀ op ∈ ops, op.seq = y.server.tracker.nextSeq)
    (hstate : ∀ a, a ∈ y'.state.accounts ↔ a ∈ y.state.accounts ∨ a ∈ accountsIn H (ops.map .op))
    (hone : Unambiguous (accountsIn H (ops.map .op)))
    (hreg : ∀ a ∈ accountsIn H (ops.map .op), ∀ b ∈ x.known H y, b.1 = a.1 → b = a) :
    Recovering H { x with inbox := x.inbox ++ if y.phase.linked then ops.map .op else [] } y' := by
  have hsent := pushed_subset y.phase.linked ops
  have hsub := accountsIn_mono (H := H) hsent
  have hpushed : y.phase.linked = true →
      (if y.phase.linked then ops.map SyncMsg.op else []) = ops.map .op := fun hl => if_pos hl
  generalize (if y.phase.linked then ops.map SyncMsg.op else []) = msgs at hsent hsub hpushed ⊢
  have hnoload : ∀ s ∈ msgs, ¬ s.Loads := by
    intro s hs hload
    obtain ⟨op, -, rfl⟩ := List.mem_map.mp (hsent hs)
    cases hload.1
  have hasked : Side.asked { x with inbox := x.inbox ++ msgs } y' = x.asked y := by
    rw [Side.asked, Side.asked, hinbox]
  have hreq : Side.Requested { x with inbox := x.inbox ++ msgs } y' ↔ x.Requested y := by
    rw [Side.Requested, Side.Requested, hinbox]
  have hahead : y'.ahead = y.ahead := by rw [Side.ahead, Side.ahead, hinbox]
  have hgrow : y.state.accounts ⊆ y'.state.accounts := fun a ha => (hstate a).mpr (.inl ha)
  have hnew : accountsIn H (ops.map .op) ⊆ y'.state.accounts := fun a ha => (hstate a).mpr (.inr ha)
  -- what is new is owed too, if a catch-up request on its way asks for it
  have howed : ∀ m, m ∈ Side.owed { x with inbox := x.inbox ++ msgs } y' ↔
      m ∈ x.owed y ∨ ∃ n ∈ x.asked y, ∃ op ∈ ops, n < op.seq ∧ .op op = m := by
    intro m
    rw [mem_owed, mem_owed, hasked, hlog, ← exists_or]
    refine exists_congr fun n => ?_
    rw [← and_or_left, ← exists_or]
    refine and_congr_right fun _ => exists_congr fun op => ?_
    rw [List.mem_append, or_and_right]
  obtain ⟨hordered, hloaded⟩ := h.ordered_append hnoload
  refine ⟨?_, ?_, hordered, hloaded, fun hr hne => ?_, fun hne => ?_, ?_⟩
  · have hclear : Unambiguous (x.known H y ++ accountsIn H (ops.map .op)) :=
      h.clear.append hone hreg
    obtain ⟨hx, hin, howed', hy, hin'⟩ := subset_known (H := H) (x := x) (y := y)
    have hold := List.subset_append_left (x.known H y) (accountsIn H (ops.map .op))
    have hops := List.subset_append_right (x.known H y) (accountsIn H (ops.map .op))
    refine hclear.mono (known_subset (List.Subset.trans hx hold) ?_ ?_ ?_ ?_)
    · rw [accountsIn_append, List.append_subset]
      exact ⟨List.Subset.trans hin hold, List.Subset.trans hsub hops⟩
    · intro a ha
      obtain ⟨m, hm, ham⟩ := mem_accountsIn.mp ha
      rcases (howed m).mp hm with hm | ⟨n, -, op, hop, -, rfl⟩
      · exact hold (howed' (mem_accountsIn.mpr ⟨m, hm, ham⟩))
      · exact hops (mem_accountsIn.mpr ⟨.op op, List.mem_map_of_mem hop, ham⟩)
    · exact fun a ha => ((hstate a).mp ha).elim (fun ha => hold (hy ha)) fun ha => hops ha
    · rw [hinbox]
      exact List.Subset.trans hin' hold
  · rw [hinbox]
    exact h.origin
  · rw [hphase] at hne
    have hold := h.requested (hreq.mp hr) hne
    rw [hahead, accountsIn_append, ← List.append_assoc, List.append_subset]
    refine ⟨fun a ha => ?_, fun a ha => List.mem_append_left _ (hnew (hsub ha))⟩
    exact (List.mem_append.mp (hold ha)).elim (fun hy => List.mem_append_left _ (hgrow hy))
      fun hin => List.mem_append_right _ hin
  · rw [accountsIn_append, List.append_subset]
    exact ⟨List.Subset.trans (h.fresh hne) hgrow, List.Subset.trans hsub hnew⟩
  · rw [hphase, hreq]
    intro htest hne hr hsend a ha
    show a ∈ x.state.accounts ++ accountsIn H (x.inbox ++ msgs ++ _)
    rw [accountsIn_append, accountsIn_append]
    simp only [List.mem_append]
    rcases (hstate a).mp ha with hold | hin
    · have hcov := h.covered htest hne hr (fun m hm => hsend m (List.mem_append_left _ hm)) hold
      rw [Side.coming, accountsIn_append] at hcov
      simp only [List.mem_append] at hcov
      rcases hcov with hx | hin | hin
      · exact .inl hx
      · exact .inr (.inl (.inl hin))
      · refine .inr (.inr (accountsIn_mono (fun m hm => ?_) hin))
        exact (howed m).mpr (.inl hm)
    -- what is new is pushed, or the catch-up request finds it in the log
    · rcases htraffic.linked htest with hlink | hclient | hr' | ⟨n, hn, hlt⟩
      · rw [hpushed hlink]
        exact .inr (.inl (.inr hin))
      · exact absurd hclient hne
      · exact absurd hr' hr
      · obtain ⟨m, hm, ham⟩ := mem_accountsIn.mp hin
        obtain ⟨op, hop, rfl⟩ := List.mem_map.mp hm
        refine .inr (.inr (mem_accountsIn.mpr ⟨.op op, (howed _).mpr (.inr ?_), ham⟩))
        exact ⟨n, hn, op, hop, by rw [hseq op hop]; exact hlt, rfl⟩

/-- `x` processes a message, before its answers are sent. -/
lemma process (h : Recovering H x y) {m : SyncMsg} {rest : List SyncMsg}
    (hinbox : x.inbox = m :: rest) (hup : x.phase = .up) (hm : m.Sendable)
    (hdata : ∀ blob, m = .snapshotData blob → ∃ s : TrackerState, s.WellFormed ∧ blob = s.snapshot)
    {x' : Side} (hphase : x'.phase = x.phase) (hrest : x'.inbox = rest)
    (htracker : x'.server.tracker = (x.server.tracker.process H m).2) : Recovering H x' y := by
  obtain ⟨hx, hin, howed, hy, hin'⟩ := subset_known (H := H) (x := x) (y := y)
  rw [hinbox, accountsIn_cons, List.append_subset] at hin
  have hreq : x'.Requested y ↔ x.Requested y := by rw [Side.Requested, Side.Requested, hphase]
  have howed' : x'.owed y = x.owed y := by rw [Side.owed, Side.owed, Side.asked, Side.asked, hphase]
  have hstate : ∀ a, a ∈ x'.state.accounts ↔
      a ∈ m.accounts H ∨ m.type ≠ .syncSnapshotData ∧ a ∈ x.state.accounts := by
    intro a
    rw [Side.state, htracker]
    exact mem_accounts_process hm hdata (h.clear.mono (List.append_subset.mpr ⟨hx, hin.1⟩))
  have hlog : x'.server.tracker.log ⊆ x.server.tracker.log := by
    rw [htracker]
    exact (x.server.tracker.process_log H m).2
  have hfrom : x'.state.accounts ⊆ x.state.accounts ++ m.accounts H := fun a ha =>
    ((hstate a).mp ha).elim (List.mem_append_right _) fun ha => List.mem_append_left _ ha.2
  have hbring : m.accounts H ⊆ x'.state.accounts := fun a ha => (hstate a).mpr (.inl ha)
  have hgrow : x.state.accounts ⊆ x'.state.accounts := by
    intro a ha
    -- a snapshot has all that the state has, and anything else only adds to it
    by_cases htype : m.type = .syncSnapshotData
    · exact hbring (h.loaded m (hinbox ▸ List.mem_cons_self) ⟨htype, hm⟩ ha)
    · exact (hstate a).mpr (.inr ⟨htype, ha⟩)
  have hordered := h.ordered
  rw [hinbox, List.pairwise_cons] at hordered
  refine ⟨h.clear.mono ?_, fun a ha => ?_, ?_, fun s hs hload a ha => ?_, fun hr hne => ?_,
    fun hne => absurd (hphase.trans hup) hne, fun htest hne hr hsend a ha => ?_⟩
  · refine known_subset ?_ (hrest ▸ hin.2) (howed' ▸ howed) hy hin'
    exact List.Subset.trans hfrom (List.append_subset.mpr ⟨hx, hin.1⟩)
  · refine hgrow (h.origin a (accountsIn_mono ?_ ha))
    exact List.append_subset.mpr ⟨List.subset_append_left _ _,
      List.Subset.trans (List.map_subset _ hlog) (List.subset_append_right _ _)⟩
  · rw [hrest]
    exact hordered.2
  · rw [hrest] at hs
    -- what a later snapshot must have was there before, or has just been read
    rcases List.mem_append.mp (hfrom ha) with hold | hmsg
    · exact h.loaded s (hinbox ▸ List.mem_cons_of_mem m hs) hload hold
    · exact hordered.1 s hs hload hmsg
  · have hold := h.requested (hreq.mp hr) hne
    rw [hinbox, accountsIn_cons, List.append_subset, List.append_subset] at hold
    rw [hrest]
    refine List.append_subset.mpr ⟨List.Subset.trans hfrom ?_, hold.2.2⟩
    exact List.append_subset.mpr ⟨hold.1, hold.2.1⟩
  · rw [hphase] at htest
    rw [hreq] at hr
    rw [hrest] at hsend
    have hsend' : ∀ m' ∈ x.inbox, m'.Sendable := by
      rw [hinbox]
      exact List.forall_mem_cons.mpr ⟨hm, hsend⟩
    have hcov := h.covered htest hne hr hsend' ha
    rw [Side.coming, hinbox, List.cons_append, accountsIn_cons] at hcov
    rw [Side.coming, hrest, howed']
    simp only [List.mem_append] at hcov ⊢
    exact hcov.elim (fun ha => .inl (hgrow ha)) (Or.imp_left fun ha => hbring ha)

/-- `x` answers it. -/
lemma answer (h : Recovering H x y) {m : SyncMsg} {rest : List SyncMsg}
    (hinbox : x.inbox = m :: rest) (hup : x.phase = .up) (hm : m.Sendable)
    (hdata : ∀ blob, m = .snapshotData blob → ∃ s : TrackerState, s.WellFormed ∧ blob = s.snapshot)
    (hs : x.state.WellFormed) {x' : Side} (hphase : x'.phase = x.phase) (hrest : x'.inbox = rest)
    (htracker : x'.server.tracker = (x.server.tracker.process H m).2) :
    Recovering H x' { y with inbox := y.inbox ++ (x.server.tracker.process H m).1 } := by
  have hdone := h.process hinbox hup hm hdata hphase hrest htracker
  refine hdone.post (fun m' hm' => not_isRequest_of_answer hm') fun a ha => ?_
  rcases List.mem_append.mp (accounts_answer hs m ha) with hlog | hstate
  · refine hdone.origin a ?_
    rw [accountsIn_append, htracker]
    exact List.mem_append_right _ hlog
  · rw [Side.state, htracker]
    exact hstate

/-- `x` reads a message outside its receive loop. -/
lemma take (h : Recovering H x y) {m : SyncMsg} {rest : List SyncMsg} (hinbox : x.inbox = m :: rest)
    {phase : Phase} (hpending : phase.pending = []) (hpending' : x.phase.pending = [])
    (hup : x.phase ≠ .up) (htest : ¬ phase.Tested) :
    Recovering H { x with phase := phase, inbox := rest } y := by
  have hreq : Side.Requested { x with phase := phase, inbox := rest } y ↔ x.Requested y := by
    simp [Side.Requested, hpending, hpending']
  have howed' : Side.owed { x with phase := phase, inbox := rest } y = x.owed y := by
    simp [Side.owed, Side.asked, hpending, hpending']
  have hrest : accountsIn H rest ⊆ accountsIn H x.inbox := by
    rw [hinbox]
    exact accountsIn_mono (List.subset_cons_self m rest)
  obtain ⟨hx, hin, howed, hy, hin'⟩ := subset_known (H := H) (x := x) (y := y)
  refine { h with clear := h.clear.mono ?_, ordered := ?_, loaded := fun s hs => ?_,
                  requested := fun hr hne => ?_, fresh := fun _ => ?_,
                  covered := fun ht => absurd ht htest }
  · exact known_subset hx (List.Subset.trans hrest hin) (howed' ▸ howed) hy hin'
  · exact (List.pairwise_cons.mp (hinbox ▸ h.ordered)).2
  · exact h.loaded s (hinbox ▸ List.mem_cons_of_mem m hs)
  · obtain ⟨hstate, hinbox'⟩ := List.append_subset.mp (h.requested (hreq.mp hr) hne)
    exact List.append_subset.mpr ⟨hstate, List.Subset.trans hrest hinbox'⟩
  · exact List.Subset.trans hrest (h.fresh hup)

/-- What `y` sends brings accounts that are known. -/
lemma receive (h : Recovering H x y) {msgs : List SyncMsg}
    (hload : ∀ m ∈ msgs, ¬ m.Loads) (hsub : accountsIn H msgs ⊆ x.known H y)
    (hbring : x.phase ≠ .up ∨ x.Requested y → accountsIn H msgs = []) :
    Recovering H { x with inbox := x.inbox ++ msgs } y := by
  obtain ⟨hx, hin, howed, hy, hin'⟩ := subset_known (H := H) (x := x) (y := y)
  obtain ⟨hordered, hloaded⟩ := h.ordered_append hload
  refine { h with clear := h.clear.mono ?_, ordered := hordered, loaded := hloaded,
                  requested := fun hr hne => ?_, fresh := fun hne => ?_,
                  covered := fun ht hne hr hsend a ha => ?_ }
  · refine known_subset hx ?_ howed hy hin'
    rw [accountsIn_append]
    exact List.append_subset.mpr ⟨hin, hsub⟩
  · rw [accountsIn_append, hbring (.inr hr), List.append_nil]
    exact h.requested hr hne
  · rw [accountsIn_append, hbring (.inl hne), List.append_nil]
    exact h.fresh hne
  · have hcov := h.covered ht hne hr (fun m hm => hsend m (List.mem_append_left _ hm)) ha
    rw [Side.coming] at hcov ⊢
    simp only [accountsIn_append, List.mem_append] at hcov ⊢
    exact hcov.imp_right (Or.imp_left Or.inl)

/-- `y` processes a message that is no request, before its ACK is sent. -/
lemma peer_read (h : Recovering H x y) (htraffic : Traffic t x y) {m : SyncMsg}
    {rest : List SyncMsg} (hinbox : y.inbox = m :: rest) (hup : y.phase = .up) (hm : m.Sendable)
    (hdata : ∀ blob, m = .snapshotData blob → ∃ s : TrackerState, s.WellFormed ∧ blob = s.snapshot)
    (hno : ¬ m.IsRequest) {y' : Side} (hrest : y'.inbox = rest)
    (htracker : y'.server.tracker = (y.server.tracker.process H m).2) : Recovering H x y' := by
  obtain ⟨hx, hin, howed, hy, hin'⟩ := subset_known (H := H) (x := x) (y := y)
  rw [hinbox, accountsIn_cons, List.append_subset] at hin'
  have hnone : m ≠ .snapshotRequest := fun heq => hno (heq ▸ .inr rfl)
  have hcatchup : ∀ n, m ≠ .catchup n := fun n heq => hno (heq ▸ .inl rfl)
  have hreq : x.Requested y' ↔ x.Requested y := by
    rw [Side.Requested, Side.Requested, hrest, hinbox, List.mem_cons, or_iff_right (Ne.symm hnone)]
  have hasked : x.asked y' = x.asked y := by
    have hone : m.asCatchup = none := by
      cases m with
      | catchup n => exact absurd rfl (hcatchup n)
      | hello | op | ack | snapshotRequest | snapshotData => rfl
    have hrest' : asksIn (m :: rest) = asksIn rest := List.filterMap_cons_none hone
    rw [Side.asked, Side.asked, hrest, hinbox, hrest']
  have hstate : ∀ a, a ∈ y'.state.accounts ↔
      a ∈ m.accounts H ∨ m.type ≠ .syncSnapshotData ∧ a ∈ y.state.accounts := by
    intro a
    rw [Side.state, htracker]
    exact mem_accounts_process hm hdata (h.clear.mono (List.append_subset.mpr ⟨hy, hin'.1⟩))
  have hlog : y'.server.tracker.log ⊆ y.server.tracker.log := by
    rw [htracker]
    exact (y.server.tracker.process_log H m).2
  have howed' : x.owed y' ⊆ x.owed y := by
    intro m' hm'
    rw [mem_owed, hasked] at hm'
    obtain ⟨n, hn, op, hop, hlt⟩ := hm'
    exact mem_owed.mpr ⟨n, hn, op, hlog hop, hlt⟩
  have hbring : m.accounts H ⊆ y'.state.accounts := fun a ha => (hstate a).mpr (.inl ha)
  have hplain : m.IsPlain → y.state.accounts ⊆ y'.state.accounts := fun hp a ha =>
    (hstate a).mpr (.inr ⟨by rcases hp with hp | hp <;> simp [hp], ha⟩)
  refine { h with clear := h.clear.mono ?_, origin := fun a ha => ?_,
                  requested := fun hr hne => ?_, fresh := fun hne => ?_,
                  covered := fun ht hne hr hsend a ha => ?_ }
  · refine known_subset hx hin (List.Subset.trans (accountsIn_mono howed') howed) ?_
      (hrest ▸ hin'.2)
    exact fun a ha => ((hstate a).mp ha).elim (fun ha => hin'.1 ha) fun ha => hy ha.2
  · rw [hrest] at ha
    exact h.origin_tail hinbox ha
  · have hp := htraffic.plain_of_requested hinbox hnone (hreq.mp hr)
    refine List.Subset.trans (h.requested (hreq.mp hr) (by rw [hup]; simp)) ?_
    rw [ahead_cons hinbox hnone, accountsIn_cons, Side.ahead, hrest]
    refine List.append_subset.mpr ⟨?_, List.append_subset.mpr ⟨?_, List.subset_append_right _ _⟩⟩
    · exact List.Subset.trans (hplain hp) (List.subset_append_left _ _)
    · exact List.Subset.trans hbring (List.subset_append_left _ _)
  · exact List.Subset.trans (h.fresh hne)
      (hplain (htraffic.fresh hne m (hinbox ▸ List.mem_cons_self)))
  · rcases (hstate a).mp ha with hmsg | ⟨-, hold⟩
    · refine List.mem_append_left _ (h.origin a ?_)
      rw [hinbox, List.cons_append, accountsIn_cons]
      exact List.mem_append_left _ hmsg
    · rw [hreq] at hr
      have hcov := h.covered ht (by rw [hup]; simp) hr hsend hold
      rw [Side.coming, accountsIn_append] at hcov ⊢
      simp only [List.mem_append] at hcov ⊢
      refine hcov.imp_right (Or.imp_right fun hin => ?_)
      obtain ⟨m', hm', ham'⟩ := mem_accountsIn.mp hin
      obtain ⟨n, hn, op, hop, hlt⟩ := mem_owed.mp hm'
      -- a message before the catch-up request is plain and leaves the log as it is
      have hsame : y'.server.tracker.log = y.server.tracker.log := by
        rw [htracker]
        rcases htraffic.plain_of_asked hinbox (hcatchup n) hn with hp | hp <;>
          cases m <;> simp [SyncMsg.type] at hp <;> rfl
      refine mem_accountsIn.mpr ⟨m', mem_owed.mpr ⟨n, hasked ▸ hn, op, ?_, hlt⟩, ham'⟩
      rw [hsame]
      exact hop

/-- `y` sends the ops above the number that `x` has asked for. -/
lemma peer_catchup (h : Recovering H x y) (htraffic : Traffic t x y) {n : ℕ} {rest : List SyncMsg}
    (hinbox : y.inbox = .catchup n :: rest) (hup : y.phase = .up) {y' : Side}
    (hrest : y'.inbox = rest)
    (htracker : y'.server.tracker = y.server.tracker) :
    Recovering H
      { x with inbox := x.inbox ++ (y.server.tracker.catchupFrom n).map .op } y' := by
  obtain ⟨hx, hin, howed, hy, hin'⟩ := subset_known (H := H) (x := x) (y := y)
  have hup' : x.phase = .up := by
    by_contra hne
    exact absurd (htraffic.fresh hne _ (hinbox ▸ List.mem_cons_self))
      (by simp [SyncMsg.IsPlain, SyncMsg.type])
  have hn : n ∈ x.asked y := by
    rw [Side.asked, hinbox]
    exact List.mem_append_right _ (mem_asksIn.mpr List.mem_cons_self)
  -- one request at most is on its way, and this one is for ops
  have hreq : ¬ x.Requested y := by
    intro hr
    rw [htraffic.single hr] at hn
    cases hn
  have hreq' : ¬ Side.Requested
      { x with inbox := x.inbox ++ (y.server.tracker.catchupFrom n).map .op } y' := by
    rw [Side.Requested, hrest]
    exact fun hr => hreq (hr.imp_right fun hr => hinbox ▸ List.mem_cons_of_mem _ hr)
  have hasked : ∀ k, k ∈ x.asked y ↔ k = n ∨
      k ∈ Side.asked
        { x with inbox := x.inbox ++ (y.server.tracker.catchupFrom n).map .op } y' := by
    intro k
    have hcons : asksIn (.catchup n :: rest) = n :: asksIn rest := rfl
    rw [Side.asked, Side.asked, hrest, hinbox, hcons]
    simp only [List.mem_append, List.mem_cons]
    exact or_left_comm
  have howed' : Side.owed
      { x with inbox := x.inbox ++ (y.server.tracker.catchupFrom n).map .op } y' ⊆ x.owed y := by
    intro m hm
    obtain ⟨k, hk, hop⟩ := mem_owed.mp hm
    rw [htracker] at hop
    exact mem_owed.mpr ⟨k, (hasked k).mpr (.inr hk), hop⟩
  have hsent : (y.server.tracker.catchupFrom n).map .op ⊆ x.owed y := by
    intro m hm
    obtain ⟨op, hop, rfl⟩ := List.mem_map.mp hm
    obtain ⟨hmem, hlt⟩ := List.mem_filter.mp hop
    exact mem_owed.mpr ⟨n, hn, op, hmem, by simpa using hlt, rfl⟩
  have hload : ∀ m ∈ (y.server.tracker.catchupFrom n).map SyncMsg.op, ¬ m.Loads := by
    intro m hm hl
    obtain ⟨op, -, rfl⟩ := List.mem_map.mp hm
    cases hl.1
  obtain ⟨hordered, hloaded⟩ := h.ordered_append hload
  refine { h with clear := h.clear.mono ?_, origin := fun a ha => ?_, ordered := hordered,
                  loaded := hloaded, requested := fun hr => absurd hr hreq',
                  fresh := fun hne => absurd hup' hne, covered := fun ht _ _ hsend a ha => ?_ }
  · refine known_subset hx ?_ (List.Subset.trans (accountsIn_mono howed') howed) ?_ ?_
    · rw [accountsIn_append]
      exact List.append_subset.mpr ⟨hin, List.Subset.trans (accountsIn_mono hsent) howed⟩
    · rw [Side.state, htracker]
      exact hy
    · rw [hrest]
      refine List.Subset.trans (accountsIn_mono ?_) hin'
      rw [hinbox]
      exact List.subset_cons_self _ _
  · rw [hrest] at ha
    exact h.origin_tail hinbox ha
  · rw [Side.state, htracker] at ha
    have hcov := h.covered ht (by rw [hup]; simp) hreq
      (fun m hm => hsend m (List.mem_append_left _ hm)) ha
    rw [Side.coming] at hcov ⊢
    simp only [accountsIn_append, List.mem_append] at hcov ⊢
    rcases hcov with hstate | hin | hin
    · exact .inl hstate
    · exact .inr (.inl (.inl hin))
    · obtain ⟨m, hm, ham⟩ := mem_accountsIn.mp hin
      obtain ⟨k, hk, op, hop, hlt, rfl⟩ := mem_owed.mp hm
      -- owed for this request, and sent now, or still owed for another one
      rcases (hasked k).mp hk with rfl | hk
      · refine .inr (.inl (.inr (mem_accountsIn.mpr ⟨.op op, ?_, ham⟩)))
        exact List.mem_map_of_mem (List.mem_filter.mpr ⟨hop, by simpa using hlt⟩)
      · refine .inr (.inr (mem_accountsIn.mpr
          ⟨.op op, mem_owed.mpr ⟨k, hk, op, ?_, hlt, rfl⟩, ham⟩))
        rw [htracker]
        exact hop

/-- `y` takes and sends the snapshot that `x` has asked for. -/
lemma peer_snapshot (h : Recovering H x y) (htraffic : Traffic t x y) {rest : List SyncMsg}
    (hinbox : y.inbox = .snapshotRequest :: rest) (hup : y.phase = .up) (hs : y.state.WellFormed)
    {y' : Side} (hrest : y'.inbox = rest) (htracker : y'.server.tracker = y.server.tracker) :
    Recovering H { x with inbox := x.inbox ++ [.snapshotData y.state.snapshot] } y' := by
  obtain ⟨hx, hin, howed, hy, hin'⟩ := subset_known (H := H) (x := x) (y := y)
  have hup' : x.phase = .up := by
    by_contra hne
    exact absurd (htraffic.fresh hne _ (hinbox ▸ List.mem_cons_self))
      (by simp [SyncMsg.IsPlain, SyncMsg.type])
  have hreq : x.Requested y := .inr (hinbox ▸ List.mem_cons_self)
  have hreq' : ¬ Side.Requested
      { x with inbox := x.inbox ++ [.snapshotData y.state.snapshot] } y' := by
    rw [Side.Requested, hrest, hup']
    rintro (hr | hr)
    · cases hr
    · have hearly := htraffic.early
      rw [hinbox, List.pairwise_cons] at hearly
      exact absurd (hearly.1 _ hr (.inr rfl)) (by simp [SyncMsg.IsPlain, SyncMsg.type])
  have howed' : Side.owed
      { x with inbox := x.inbox ++ [.snapshotData y.state.snapshot] } y' = [] := by
    have hnone := htraffic.single hreq
    rw [Side.asked, hinbox] at hnone
    rw [Side.owed, Side.asked, hrest]
    exact congrArg (List.flatMap _) hnone
  have hbring := accounts_snapshot_subset (H := H) hs
  -- the request has come to the front, so nothing of `x` is ahead of it
  have hold : x.state.accounts ++ accountsIn H x.inbox ⊆ y.state.accounts := by
    have hnil : y.ahead = [] := by rw [Side.ahead, hinbox]; rfl
    simpa [hnil] using h.requested hreq (by rw [hup]; simp)
  obtain ⟨hstate, hbefore⟩ := List.append_subset.mp hold
  refine { h with clear := h.clear.mono ?_, origin := fun a ha => ?_, ordered := ?_,
                  loaded := fun s hs' hl => ?_, requested := fun hr => absurd hr hreq',
                  fresh := fun hne => absurd hup' hne, covered := fun _ _ _ hsend a ha => ?_ }
  · refine known_subset hx ?_ (by rw [howed']; exact List.nil_subset _) ?_ ?_
    · rw [accountsIn_append, accountsIn_cons, accountsIn_nil, List.append_nil]
      exact List.append_subset.mpr ⟨hin, List.Subset.trans hbring hy⟩
    · rw [Side.state, htracker]
      exact hy
    · rw [hrest]
      refine List.Subset.trans (accountsIn_mono ?_) hin'
      rw [hinbox]
      exact List.subset_cons_self _ _
  · rw [hrest] at ha
    exact h.origin_tail hinbox ha
  · refine List.pairwise_append.mpr
      ⟨h.ordered, List.pairwise_singleton _ _, fun m hm s hs' hl => ?_⟩
    obtain rfl := List.mem_singleton.mp hs'
    rw [SyncMsg.accounts_snapshot hs hl.2]
    exact fun a ha => hbefore (mem_accountsIn.mpr ⟨m, hm, ha⟩)
  · rcases List.mem_append.mp hs' with hs' | hs'
    · exact h.loaded s hs' hl
    · obtain rfl := List.mem_singleton.mp hs'
      rw [SyncMsg.accounts_snapshot hs hl.2]
      exact hstate
  · have hsend' := hsend _ (List.mem_append_right _ List.mem_cons_self)
    rw [Side.state, htracker] at ha
    refine List.mem_append_right _ (mem_accountsIn.mpr ⟨.snapshotData y.state.snapshot, ?_, ?_⟩)
    · exact List.mem_append_left _ (List.mem_append_right _ List.mem_cons_self)
    · rw [SyncMsg.accounts_snapshot hs hsend']
      exact ha

/-- `y` processes a message and answers it. -/
lemma peer_process (h : Recovering H x y) (htraffic : Traffic t x y) {m : SyncMsg}
    {rest : List SyncMsg} (hinbox : y.inbox = m :: rest) (hup : y.phase = .up) (hm : m.Sendable)
    (hdata : ∀ blob, m = .snapshotData blob → ∃ s : TrackerState, s.WellFormed ∧ blob = s.snapshot)
    (hs : y.state.WellFormed) {y' : Side} (hrest : y'.inbox = rest)
    (htracker : y'.server.tracker = (y.server.tracker.process H m).2) :
    Recovering H { x with inbox := x.inbox ++ (y.server.tracker.process H m).1 } y' := by
  cases m with
  | catchup n => exact h.peer_catchup htraffic hinbox hup hrest htracker
  | snapshotRequest => exact h.peer_snapshot htraffic hinbox hup hs hrest htracker
  | hello | op | ack | snapshotData =>
      refine (h.peer_read htraffic hinbox hup hm hdata (by simp [SyncMsg.IsRequest, SyncMsg.type])
        hrest htracker).receive (fun m' hm' hl => ?_) (List.nil_subset _) fun _ => rfl
      rcases Tracker.answer_cases hm' with ⟨n, heq, -⟩ | ⟨op, -, rfl⟩ | ⟨heq, -⟩
      · cases heq
      · cases hl.1
      · cases heq

/-- `y` reads a message outside its receive loop. -/
lemma peer_take (h : Recovering H x y) {m : SyncMsg} {rest : List SyncMsg}
    (hinbox : y.inbox = m :: rest) {phase : Phase}
    (hphase : phase = .client ∨ y.phase ≠ .client ∧ m.type = .syncHello) :
    Recovering H x { y with phase := phase, inbox := rest } := by
  obtain ⟨hx, hin, howed, hy, hin'⟩ := subset_known (H := H) (x := x) (y := y)
  have hrest : rest ⊆ y.inbox := hinbox ▸ List.subset_cons_self m rest
  have howed' : x.owed { y with phase := phase, inbox := rest } ⊆ x.owed y := by
    intro m' hm'
    obtain ⟨n, hn, hop⟩ := mem_owed.mp hm'
    refine mem_owed.mpr ⟨n, ?_, hop⟩
    rw [Side.mem_asked] at hn ⊢
    exact hn.imp_right fun hn => hrest hn
  refine { h with clear := h.clear.mono ?_,
                  origin := fun a ha => h.origin_tail hinbox ha,
                  requested := fun hr hne => ?_, covered := fun ht hne hr hsend => ?_ }
  · exact known_subset hx hin (List.Subset.trans (accountsIn_mono howed') howed) hy
      (List.Subset.trans (accountsIn_mono hrest) hin')
  · obtain ⟨hne', hhello⟩ := hphase.resolve_left hne
    have hnone : m ≠ .snapshotRequest := fun heq => by
      rw [heq] at hhello
      cases hhello
    have hold := h.requested (hr.imp_right fun hr => hrest hr) hne'
    rw [ahead_cons hinbox hnone, accountsIn_cons,
      accounts_eq_nil (by simp [hhello]) (by simp [hhello]), List.nil_append] at hold
    exact hold
  · obtain ⟨hne', hhello⟩ := hphase.resolve_left hne
    have hcons : ∀ {m'}, m' ∈ y.inbox → m'.type ≠ .syncHello → m' ∈ rest := by
      intro m' hm' htype
      rw [hinbox] at hm'
      exact (List.mem_cons.mp hm').resolve_left fun heq => htype (heq ▸ hhello)
    have hold := h.covered ht hne'
      (fun hr' => hr (hr'.imp_right fun hr' => hcons hr' (by simp [SyncMsg.type]))) hsend
    refine List.Subset.trans hold ?_
    rw [Side.coming, Side.coming, accountsIn_append, accountsIn_append, ← List.append_assoc,
      ← List.append_assoc]
    refine List.append_subset.mpr ⟨List.subset_append_left _ _, ?_⟩
    refine List.Subset.trans (accountsIn_mono fun m' hm' => ?_) (List.subset_append_right _ _)
    obtain ⟨n, hn, hop⟩ := mem_owed.mp hm'
    refine mem_owed.mpr ⟨n, ?_, hop⟩
    rw [Side.mem_asked] at hn ⊢
    exact hn.imp_right fun hn => hcons hn (by simp [SyncMsg.type])

/-- `y` goes on setting up the link. -/
lemma peer_setPhase (h : Recovering H x y) {phase : Phase} (hne : y.phase ≠ .client) :
    Recovering H x { y with phase := phase } :=
  { h with
    requested := fun hr _ => h.requested hr hne
    covered := fun ht _ => h.covered ht hne }

/-- `x` goes on setting up the link, before its test. -/
lemma setPhase (h : Recovering H x y) {phase : Phase} (hpending : phase.pending = [])
    (hpending' : x.phase.pending = []) (hup : x.phase ≠ .up) (htest : ¬ phase.Tested) :
    Recovering H { x with phase := phase } y := by
  have hreq : Side.Requested { x with phase := phase } y ↔ x.Requested y := by
    simp [Side.Requested, hpending, hpending']
  have howed : Side.owed { x with phase := phase } y = x.owed y := by
    simp [Side.owed, Side.asked, hpending, hpending']
  refine { h with clear := ?_, requested := ?_, fresh := fun _ => h.fresh hup,
                  covered := fun ht => absurd ht htest }
  · rw [Side.known, Side.coming, howed]
    exact h.clear
  · rw [hreq]
    exact h.requested

/-- `x` tests whether its state is empty. -/
lemma choose (h : Recovering H x y) (htraffic : Traffic t x y) (hphase : x.phase = .choose)
    (htest : x.state.isEmpty = true ∨
      (∀ a ∈ y.state.accounts, a ∈ x.state.accounts ++ accountsIn H (x.inbox ++ x.backlog y t)) ∧
        Unambiguous (x.known H y ++ accountsIn H (x.backlog y t))) :
    Recovering H { x with phase := .ask (x.request t) } y := by
  have hup : x.phase ≠ .up := by rw [hphase]; simp
  have hplain := htraffic.fresh hup
  have hcatchup : asksIn y.inbox = [] :=
    asksIn_eq_nil fun m hm htype => (hplain m hm).not_isRequest (.inl htype)
  have hnone : SyncMsg.snapshotRequest ∉ y.inbox := fun hm => (hplain _ hm).not_isRequest (.inr rfl)
  have hreq : Side.Requested { x with phase := .ask (x.request t) } y ↔
      .snapshotRequest ∈ x.request t := by
    simp [Side.Requested, Phase.pending, hnone]
  have hasked : Side.asked { x with phase := .ask (x.request t) } y = asksIn (x.request t) := by
    simp [Side.asked, Phase.pending, hcatchup]
  obtain ⟨hx, hin, -, hy, hin'⟩ := subset_known (H := H) (x := x) (y := y)
  -- an empty state asks for a snapshot, any other for the ops above its mark
  by_cases hempty : x.state.isEmpty = true
  · have hrequest : x.request t = [.snapshotRequest] := by
      cases t <;> simp_all [Side.request, Side.state, Tracker.dialRequest, Tracker.acceptRequest]
    have howed : Side.owed { x with phase := .ask (x.request t) } y = [] := by
      rw [Side.owed, hasked, hrequest]
      rfl
    refine { h with clear := h.clear.mono ?_, requested := fun _ _ => ?_,
                    fresh := fun _ => h.fresh hup,
                    covered := fun _ _ hr => absurd (hreq.mpr (by simp [hrequest])) hr }
    · exact known_subset hx hin (by rw [howed]; exact List.nil_subset _) hy hin'
    · show x.state.accounts ++ accountsIn H x.inbox ⊆ _
      rw [TrackerState.accounts_of_isEmpty hempty, List.nil_append]
      exact List.Subset.trans (h.fresh hup) (List.subset_append_left _ _)
  · obtain ⟨hcov, hclear⟩ := htest.resolve_left hempty
    have hno : SyncMsg.snapshotRequest ∉ x.request t := by
      cases t <;> simp_all [Side.request, Side.state, Tracker.dialRequest, Tracker.acceptRequest]
    have howed : Side.owed { x with phase := .ask (x.request t) } y = x.backlog y t := by
      rw [Side.owed, hasked]
      cases t <;> simp_all [Side.request, Side.state, Tracker.dialRequest, Tracker.acceptRequest,
        Side.backlog, asksIn, SyncMsg.asCatchup]
    have hknown := List.subset_append_left (x.known H y) (accountsIn H (x.backlog y t))
    refine { h with clear := hclear.mono (known_subset ?_ ?_ ?_ ?_ ?_),
                    requested := fun hr => absurd (hreq.mp hr) hno, fresh := fun _ => h.fresh hup,
                    covered := fun _ _ _ _ a ha => ?_ }
    · exact List.Subset.trans hx hknown
    · exact List.Subset.trans hin hknown
    · rw [howed]
      exact List.subset_append_right _ _
    · exact List.Subset.trans hy hknown
    · exact List.Subset.trans hin' hknown
    · rw [Side.coming, howed]
      exact hcov a ha

/-- `x` sends its request. -/
lemma ask (h : Recovering H x y) (htraffic : Traffic t x y) {request : List SyncMsg}
    (hphase : x.phase = .ask request) :
    Recovering H { x with phase := .up } { y with inbox := y.inbox ++ request } := by
  obtain ⟨hx, hin, howed, hy, hin'⟩ := subset_known (H := H) (x := x) (y := y)
  have hnone : accountsIn H request = [] := by
    have hrequests := htraffic.pending.2
    rw [hphase] at hrequests
    exact accountsIn_requests hrequests
  have hreq : Side.Requested { x with phase := .up } { y with inbox := y.inbox ++ request } ↔
      x.Requested y := by
    simp [Side.Requested, Phase.pending, hphase, or_comm]
  have howed' : ∀ m, m ∈ Side.owed { x with phase := .up } { y with inbox := y.inbox ++ request } ↔
      m ∈ x.owed y := by
    have hasked : ∀ n, n ∈ Side.asked { x with phase := .up }
        { y with inbox := y.inbox ++ request } ↔ n ∈ x.asked y := by
      simp [Side.asked, Phase.pending, hphase, asksIn, or_comm]
    intro m
    rw [mem_owed, mem_owed]
    exact exists_congr fun n => and_congr_left' (hasked n)
  refine { h with clear := h.clear.mono ?_, origin := ?_, requested := fun hr hne => ?_,
                  fresh := fun hne => absurd rfl hne, covered := fun _ hne hr hsend => ?_ }
  · refine known_subset hx hin ?_ hy (by rw [accountsIn_append, hnone, List.append_nil]; exact hin')
    exact List.Subset.trans (accountsIn_mono fun m hm => (howed' m).mp hm) howed
  · rw [accountsIn_append, accountsIn_append, hnone, List.append_nil, ← accountsIn_append]
    exact h.origin
  · refine List.Subset.trans (h.requested (hreq.mp hr) hne) (List.append_subset.mpr ⟨?_, ?_⟩)
    · exact List.subset_append_left _ _
    · exact List.Subset.trans (accountsIn_mono (ahead_subset_append y request))
        (List.subset_append_right _ _)
  · have hold := h.covered (by rw [hphase]; trivial) hne (fun hr' => hr (hreq.mpr hr')) hsend
    refine List.Subset.trans hold ?_
    rw [Side.coming, Side.coming, accountsIn_append, accountsIn_append, ← List.append_assoc,
      ← List.append_assoc]
    refine List.append_subset.mpr ⟨List.subset_append_left _ _, ?_⟩
    exact List.Subset.trans (accountsIn_mono fun m hm => (howed' m).mpr hm)
      (List.subset_append_right _ _)

/-- What `x` sends overtakes an answer that it has not sent yet. -/
lemma overtake {inbox answer msgs : List SyncMsg}
    (h : Recovering H x { y with inbox := inbox ++ answer ++ msgs })
    (hno : ∀ m ∈ answer ++ msgs, ¬ m.IsRequest) :
    Recovering H x { y with inbox := inbox ++ msgs ++ answer } := by
  have hmem : ∀ m, m ∈ inbox ++ msgs ++ answer ↔ m ∈ inbox ++ answer ++ msgs := by
    intro m
    simp only [List.mem_append]
    tauto
  have hsub : accountsIn H (inbox ++ msgs ++ answer) ⊆ accountsIn H (inbox ++ answer ++ msgs) :=
    accountsIn_mono fun m hm => (hmem m).mp hm
  have hreq : x.Requested { y with inbox := inbox ++ msgs ++ answer } ↔
      x.Requested { y with inbox := inbox ++ answer ++ msgs } := or_congr_right (hmem _)
  have howed : ∀ m, m ∈ x.owed { y with inbox := inbox ++ msgs ++ answer } ↔
      m ∈ x.owed { y with inbox := inbox ++ answer ++ msgs } := by
    intro m
    rw [mem_owed, mem_owed]
    refine exists_congr fun n => and_congr_left' ?_
    rw [Side.mem_asked, Side.mem_asked]
    exact or_congr_right (hmem _)
  obtain ⟨hx, hin, howed', hy, hin'⟩ := subset_known (H := H) (x := x)
    (y := { y with inbox := inbox ++ answer ++ msgs })
  refine { h with clear := h.clear.mono ?_, origin := fun a ha => h.origin a ?_,
                  requested := fun hr hne => ?_, covered := fun ht hne hr hsend a ha => ?_ }
  · refine known_subset hx hin ?_ hy (List.Subset.trans hsub hin')
    exact List.Subset.trans (accountsIn_mono fun m hm => (howed m).mp hm) howed'
  · rw [accountsIn_append] at ha ⊢
    exact (List.mem_append.mp ha).elim (fun ha => List.mem_append_left _ (hsub ha))
      (List.mem_append_right _)
  · refine List.Subset.trans (h.requested (hreq.mp hr) hne) (List.append_subset.mpr ⟨?_, ?_⟩)
    · exact List.subset_append_left _ _
    · refine List.Subset.trans (accountsIn_mono ?_) (List.subset_append_right _ _)
      exact ahead_overtake fun m hm heq => hno m hm (heq ▸ .inr rfl)
  · have hcov := h.covered ht hne (fun hr' => hr (hreq.mpr hr')) hsend ha
    rw [Side.coming, accountsIn_append] at hcov ⊢
    simp only [List.mem_append] at hcov ⊢
    refine hcov.imp_right (Or.imp_right fun hin => ?_)
    exact accountsIn_mono (fun m hm => (howed m).mpr hm) hin

/-- What `y` sends overtakes an answer that it has not sent yet, which is no snapshot if
there are accounts in it. -/
lemma peer_overtake {inbox answer msgs : List SyncMsg}
    (h : Recovering H { x with inbox := inbox ++ answer ++ msgs } y)
    (hload : accountsIn H msgs = [] ∨ ∀ m ∈ answer, m.type ≠ .syncSnapshotData) :
    Recovering H { x with inbox := inbox ++ msgs ++ answer } y := by
  have hmem : ∀ m, m ∈ inbox ++ msgs ++ answer ↔ m ∈ inbox ++ answer ++ msgs := by
    intro m
    simp only [List.mem_append]
    tauto
  have hsub : accountsIn H (inbox ++ msgs ++ answer) ⊆ accountsIn H (inbox ++ answer ++ msgs) :=
    accountsIn_mono fun m hm => (hmem m).mp hm
  obtain ⟨hx, hin, howed, hy, hin'⟩ := subset_known (H := H)
    (x := { x with inbox := inbox ++ answer ++ msgs }) (y := y)
  refine { h with clear := h.clear.mono ?_, ordered := ?_,
                  loaded := fun s hs => h.loaded s ((hmem s).mp hs),
                  requested := fun hr hne => ?_, fresh := fun hne => ?_,
                  covered := fun ht hne hr hsend a ha => ?_ }
  · exact known_subset hx (List.Subset.trans hsub hin) howed hy hin'
  · have hordered := h.ordered
    dsimp only at hordered ⊢
    rw [List.append_assoc, List.pairwise_append, List.pairwise_append] at hordered
    rw [List.append_assoc, List.pairwise_append, List.pairwise_append]
    obtain ⟨hold, ⟨hanswer, hmsgs, -⟩, hbefore⟩ := hordered
    refine ⟨hold, ⟨hmsgs, hanswer, fun m hm s hs hl => ?_⟩, fun m hm s hs => ?_⟩
    · rcases hload with hnone | hplain
      · exact fun a ha => absurd (hnone ▸ mem_accountsIn.mpr ⟨m, hm, ha⟩) List.not_mem_nil
      · exact absurd hl.1 (hplain s hs)
    · exact hbefore m hm s (List.mem_append.mpr (List.mem_append.mp hs).symm)
  · obtain ⟨hstate, hbefore⟩ := List.append_subset.mp (h.requested hr hne)
    exact List.append_subset.mpr ⟨hstate, List.Subset.trans hsub hbefore⟩
  · exact List.Subset.trans hsub (h.fresh hne)
  · have hcov := h.covered ht hne hr (fun m hm => hsend m ((hmem m).mpr hm)) ha
    rw [Side.coming, accountsIn_append] at hcov ⊢
    simp only [List.mem_append] at hcov ⊢
    refine hcov.imp_right (Or.imp_left fun hin => accountsIn_mono (fun m hm => ?_) hin)
    exact (hmem m).mpr hm

/-- The link is gone. -/
lemma cut (h : Recovering H x y) {x' y' : Side} (hx' : x' = x.cut) (hinbox : y'.inbox = [])
    (htracker : y'.server.tracker = y.server.tracker) :
    Recovering H x' y' := by
  subst hx'
  obtain ⟨hx, -, -, hy, -⟩ := subset_known (H := H) (x := x) (y := y)
  have hasked : x.cut.asked y' = [] := by simp [Side.asked, Side.cut, Phase.pending, hinbox, asksIn]
  have hreq : ¬ x.cut.Requested y' := by simp [Side.Requested, Side.cut, Phase.pending, hinbox]
  refine ⟨h.clear.mono (known_subset hx (List.nil_subset _) ?_ ?_ ?_), fun a ha => ?_, .nil,
    fun s hs => (by cases hs), fun hr => absurd hr hreq, fun _ => List.nil_subset _,
    fun ht => (by cases ht)⟩
  · rw [Side.owed, hasked]
    exact List.nil_subset _
  · rw [Side.state, htracker]
    exact hy
  · rw [hinbox]
    exact List.nil_subset _
  · refine h.origin a (accountsIn_mono ?_ ha)
    rw [hinbox, List.nil_append]
    exact List.subset_append_right _ _

/-- `x` starts again. -/
lemma restart {y' : Side} (hinbox : y'.inbox = []) : Recovering H .start y' := by
  have hasked : Side.start.asked y' = [] := by
    simp [Side.asked, Side.start, Phase.pending, hinbox, asksIn]
  have hreq : ¬ Side.start.Requested y' := by
    simp [Side.Requested, Side.start, Phase.pending, hinbox]
  have hstart : Side.start.state.accounts = [] := TrackerState.accounts_of_isEmpty rfl
  refine ⟨y'.state.unambiguous_accounts.mono (known_subset ?_ (List.nil_subset _) ?_ ?_ ?_),
    fun a ha => ?_, .nil, fun s hs => (by cases hs), fun hr => absurd hr hreq,
    fun _ => List.nil_subset _, fun ht => (by cases ht)⟩
  · rw [hstart]
    exact List.nil_subset _
  · rw [Side.owed, hasked]
    exact List.nil_subset _
  · exact List.Subset.refl _
  · rw [hinbox]
    exact List.nil_subset _
  · rw [hinbox] at ha
    cases ha

end Recovering

end P2PShare
