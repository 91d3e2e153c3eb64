import P2PShare.Threads.Ack
import P2PShare.Threads.History

/-!
Snapshots and the changes of the tracker that loads them. A tracker that is
empty when a link forms asks for a snapshot; the test, the taking of the
snapshot, its sending and its loading are steps of their own, and the loading
replaces the state.

* `coming`: what the peer has sent or is about to send, in the order in which it
  arrives; `Requested`, `Awaits`: where the snapshot of a tracker is.
* `Undisturbed` (**the condition**): what clients and the peer may do around a
  snapshot.
* `Node.Own`, `Kept` (**the invariant**): the peer has every change that it
  sends, and a snapshot has those of the state it is loaded into and of every
  frame ahead of it.
* `restored_kept`: in undisturbed runs the loading of a snapshot keeps every
  change of the state; `registered_meanwhile` is a run that is not one of them.
-/

namespace P2PShare

namespace Threads

/-- A snapshot. -/
def Frame.IsSnapshot (f : Frame) : Prop := f.msg.type = .syncSnapshotData

instance (f : Frame) : Decidable f.IsSnapshot := inferInstanceAs (Decidable (_ = _))

/-- An op that is read as the call it was recorded for. -/
def Frame.ReadAsMade (f : Frame) : Prop :=
  ∀ op ∈ f.msg.asOp, ∀ ch ∈ f.changes, opCall op.type op.payload = some ch.call

instance (f : Frame) : Decidable f.ReadAsMade := inferInstanceAs (Decidable (∀ _ ∈ _, ∀ _ ∈ _, _))

/-- The frames on their way from the tracker `y` to `x`, in the order in which
they arrive; the last ones are yet to be sent. -/
def coming (x y : Node) : List Frame := x.inbox ++ y.reply

/-- The snapshot request of `x` has not been processed by `y` yet. -/
def Requested (x y : Node) : Prop :=
  SyncMsg.snapshotRequest ∈ x.phase.pending ∨ SyncMsg.snapshotRequest ∈ msgs y.inbox

instance (x y : Node) : Decidable (Requested x y) := inferInstanceAs (Decidable (_ ∨ _))

/-- A snapshot for `x` has been taken and not loaded yet. -/
def Taken (x y : Node) : Prop := ∃ f ∈ coming x y, f.IsSnapshot

instance (x y : Node) : Decidable (Taken x y) := inferInstanceAs (Decidable (∃ _ ∈ _, _))

/-- `x` waits for a snapshot. -/
def Awaits (x y : Node) : Prop := Requested x y ∨ Taken x y

instance (x y : Node) : Decidable (Awaits x y) := inferInstanceAs (Decidable (_ ∨ _))

namespace Net

/-- If this task writes an op to the link, a snapshot that the tracker has taken
and is about to send has its change. -/
def TaskInSnapshot (n : Net) (r : Role) : Task → Prop
  | .record .. => True
  | .send fd _ changes => (n r).phase.linked = true → fd = (n r).fd →
      ∀ f ∈ (n r).reply, f.IsSnapshot → ∀ ch ∈ changes, ch ∈ f.changes

instance (n : Net) (r : Role) : ∀ task, Decidable (n.TaskInSnapshot r task)
  | .record .. => .isTrue trivial
  | .send .. => inferInstanceAs (Decidable (_ → _ → ∀ _ ∈ _, _ → ∀ _ ∈ _, _))

/-- A tracker processes a frame. If it is a snapshot request, the tracker has
applied the changes that clients of the other one have made; if it is an op and
the tracker waits for a snapshot, the op is read as it was made. -/
def FrameInTime (n : Net) (r : Role) (f : Frame) : Prop :=
  (f.msg = .snapshotRequest →
    ∀ ch ∈ (n r.peer).changes, ch.origin = r.peer → ch ∈ (n r).changes) ∧
  (Awaits (n r) (n r.peer) → f.ReadAsMade)

instance (n : Net) (r : Role) (f : Frame) : Decidable (n.FrameInTime r f) :=
  inferInstanceAs (Decidable ((_ → ∀ _ ∈ _, _ → _) ∧ (_ → _)))

/-- **The condition.** Clients of a tracker for which a snapshot has been taken
change nothing until it is loaded, an op that is written between the taking and
the sending of a snapshot is in it, and frames are processed in time. -/
def Undisturbed (H : Str → Str) (n : Net) : Happening → Prop
  | .event (.client r ev) => Taken (n r) (n r.peer) → (n r).change H r ev = []
  | .event (.work r i) => ∀ task ∈ (n r).tasks[i]?, n.TaskInSnapshot r task
  | .event (.deliver r) => (n r).phase = .up → ∀ f ∈ (n r).inbox.head?, n.FrameInTime r f
  | .event (.dial _) | .event (.advance _) | .event (.reply _) | .event .drop | .restart _ => True

instance (H : Str → Str) (n : Net) : ∀ e, Decidable (n.Undisturbed H e)
  | .event (.client ..) => inferInstanceAs (Decidable (_ → _))
  | .event (.work ..) => inferInstanceAs (Decidable (∀ _ ∈ _, _))
  | .event (.deliver _) => inferInstanceAs (Decidable (_ → ∀ _ ∈ _, _))
  | .event (.dial _) | .event (.advance _) | .event (.reply _) | .event .drop | .restart _ =>
      .isTrue trivial

end Net

/-- What a tracker has recorded or is about to record, to send or to answer
carries changes of its state, and no answer is a snapshot request. -/
structure Node.Own (y : Node) : Prop where
  tasks : ∀ task ∈ y.tasks, task.changes ⊆ y.changes
  recorded : ∀ op changes, (op, changes) ∈ y.recorded → changes ⊆ y.changes
  answer : ∀ f ∈ y.reply, f.msg ≠ .snapshotRequest

/-- **The invariant** of a tracker `x` and the peer `y` whose frames it gets. -/
structure Kept (r : Role) (x y : Node) : Prop where
  own : y.Own
  frames : ∀ f ∈ coming x y, f.changes ⊆ y.changes
  ordered : (coming x y).Pairwise fun f s => s.IsSnapshot → f.changes ⊆ s.changes
  loaded : ∀ s ∈ coming x y, s.IsSnapshot → x.changes ⊆ s.changes
  requested : Requested x y → ∀ ch ∈ x.changes, ch.origin ≠ r → ch ∈ y.changes

namespace Node

variable {H : Str → Str} {x y : Node}

/-- A message carries changes of the state. -/
lemma Own.carried_subset (h : y.Own) (m : SyncMsg) : y.carried m ⊆ y.changes := by
  cases m with
  | op op =>
      intro ch hch
      obtain ⟨p, hp, hmem⟩ := List.mem_flatMap.mp hch
      exact h.recorded p.1 p.2 (List.mem_filter.mp hp).1 hmem
  | snapshotData blob => exact fun ch hch => hch
  | hello | catchup | ack | snapshotRequest => exact List.nil_subset _

/-- The state has more changes. -/
lemma Own.grow (h : y.Own) {changes : List Change} (hgrow : y.changes ⊆ changes) :
    Own { y with changes := changes } where
  tasks task htask := List.Subset.trans (h.tasks task htask) hgrow
  recorded op ch hmem := List.Subset.trans (h.recorded op ch hmem) hgrow
  answer := h.answer

/-- An answer is no snapshot request. -/
lemma answer_ne {t : Tracker} {m m' : SyncMsg} (h : m' ∈ (t.process H m).1) :
    m' ≠ .snapshotRequest := by
  rcases Tracker.answer_cases h with ⟨n, -, op, -, rfl⟩ | ⟨op, -, rfl⟩ | ⟨-, rfl⟩ <;> simp

/-- What a frame adds to the changes of the state, if it is no snapshot. -/
lemma changesAfter_subset {f : Frame} (hread : f.ReadAsMade) :
    x.changesAfter H f ⊆ x.changes ++ f.changes := by
  rw [changesAfter]
  rw [Frame.ReadAsMade] at hread
  cases hmsg : f.msg with
  | op op =>
      dsimp only
      cases hcall : opCall op.type op.payload with
      | none => exact List.subset_append_left _ _
      | some call =>
          dsimp only
          have hsame : f.changes.map (fun ch => { ch with call := call }) = f.changes := by
            conv_rhs => rw [← List.map_id f.changes]
            refine List.map_congr_left fun ch hch => ?_
            have hcall' := hread op (by rw [hmsg]; rfl) ch hch
            obtain rfl : call = ch.call := Option.some.inj (hcall.symm.trans hcall')
            rfl
          rw [hsame]
          split
          · exact fun ch hch => hch
          · exact List.subset_append_left _ _
  | snapshotData blob =>
      dsimp only
      split
      · exact List.subset_append_right _ _
      · exact List.subset_append_left _ _
  | hello | catchup | ack | snapshotRequest => exact List.subset_append_left _ _

end Node

namespace Kept

variable {H : Str → Str} {r : Role} {x y : Node}

/-! ### What the steps of one tracker keep -/

/-- Nothing changes for what is on its way to `x`. -/
lemma of_sides (h : Kept r x y) {x' y' : Node} (hown : y'.Own)
    (hcoming : coming x' y' = coming x y) (hx : x'.changes = x.changes)
    (hy : y.changes ⊆ y'.changes) (hreq : Requested x' y' → Requested x y) : Kept r x' y' where
  own := hown
  frames f hf := List.Subset.trans (h.frames f (hcoming ▸ hf)) hy
  ordered := hcoming ▸ h.ordered
  loaded s hs hsnap := hx ▸ h.loaded s (hcoming ▸ hs) hsnap
  requested hr ch hch horigin := hy (h.requested (hreq hr) ch (hx ▸ hch) horigin)

/-- A client event of `x`. -/
lemma client (h : Kept r x y) (ev : ClientEvent) (hok : Taken x y → x.change H r ev = []) :
    Kept r { x with
      server := (x.server.apply H ev).2
      tasks := x.tasks ++ (x.server.apply H ev).1.toList.map fun rep =>
        .record rep ev.now (x.change H r ev)
      changes := x.changes ++ x.change H r ev
      made := x.made + (x.change H r ev).length } y where
  own := h.own
  frames := h.frames
  ordered := h.ordered
  loaded s hs hsnap := by
    rw [hok ⟨s, hs, hsnap⟩, List.append_nil]
    exact h.loaded s hs hsnap
  requested hr ch hch horigin := by
    rcases List.mem_append.mp hch with hold | hnew
    · exact h.requested hr ch hold horigin
    · rcases Node.change_cases H x r ev with ⟨hnone, -⟩ | ⟨call, -, hone, -⟩
      · rw [hnone] at hnew
        cases hnew
      · rw [hone] at hnew
        obtain rfl := List.mem_singleton.mp hnew
        exact absurd rfl horigin

/-- A client event of `y`. -/
lemma peer_client (h : Kept r x y) (r' : Role) (ev : ClientEvent) :
    Kept r x { y with
      server := (y.server.apply H ev).2
      tasks := y.tasks ++ (y.server.apply H ev).1.toList.map fun rep =>
        .record rep ev.now (y.change H r' ev)
      changes := y.changes ++ y.change H r' ev
      made := y.made + (y.change H r' ev).length } := by
  have hown := h.own.grow (List.subset_append_left y.changes (y.change H r' ev))
  refine h.of_sides { hown with tasks := fun task htask => ?_ } rfl rfl
    (List.subset_append_left _ _) id
  rcases List.mem_append.mp htask with htask | htask
  · exact hown.tasks task htask
  · obtain ⟨rep, -, rfl⟩ := List.mem_map.mp htask
    exact List.subset_append_right _ _

/-- A thread of `y` records an op. -/
lemma peer_record (h : Kept r x y) {i : ℕ} {rep : UInt16 × Str} {now : UInt64}
    {changes : List Change} (htask : y.tasks[i]? = some (.record rep now changes)) :
    Kept r x { y with
      server := (y.server.record rep now).2
      tasks := y.tasks.eraseIdx i ++
        if y.phase.linked then [Task.send y.fd (y.server.record rep now).1 changes] else []
      recorded := y.recorded ++ [((y.server.record rep now).1, changes)] } := by
  have hin : changes ⊆ y.changes := h.own.tasks _ (List.mem_of_getElem? htask)
  refine h.of_sides ⟨fun task hmem => ?_, fun op ch hmem => ?_, h.own.answer⟩ rfl rfl
    (List.Subset.refl _) id
  · rcases List.mem_append.mp hmem with hmem | hmem
    · exact h.own.tasks task (List.eraseIdx_subset hmem)
    · split at hmem
      · obtain rfl := List.mem_singleton.mp hmem
        exact hin
      · cases hmem
  · rcases List.mem_append.mp hmem with hmem | hmem
    · exact h.own.recorded op ch hmem
    · cases List.mem_singleton.mp hmem
      exact hin

/-- A thread of `y` is done. -/
lemma peer_done (h : Kept r x y) (i : ℕ) : Kept r x { y with tasks := y.tasks.eraseIdx i } := by
  refine h.of_sides { h.own with tasks := fun task hmem => ?_ } rfl rfl (List.Subset.refl _) id
  exact h.own.tasks task (List.eraseIdx_subset hmem)

/-- Frames that are sent ahead of the answer of `y`. -/
lemma post (h : Kept r x y) {frames : List Frame} (hsub : ∀ f ∈ frames, f.changes ⊆ y.changes)
    (hnone : ∀ f ∈ frames, ¬ f.IsSnapshot)
    (hahead : ∀ f ∈ frames, ∀ s ∈ y.reply, s.IsSnapshot → f.changes ⊆ s.changes) :
    Kept r { x with inbox := x.inbox ++ frames } y := by
  have hmem : ∀ f ∈ x.inbox ++ frames ++ y.reply, f ∈ coming x y ∨ f ∈ frames := by
    intro f hf
    rw [coming]
    simp only [List.mem_append] at hf ⊢
    tauto
  refine ⟨h.own, fun f hf => ?_, ?_, fun s hs hsnap => ?_, h.requested⟩
  · exact (hmem f hf).elim (h.frames f) (hsub f)
  · obtain ⟨hinbox, hreply, hcross⟩ := List.pairwise_append.mp h.ordered
    refine List.pairwise_append.mpr ⟨List.pairwise_append.mpr ⟨hinbox, ?_, ?_⟩, hreply, ?_⟩
    · exact List.pairwise_iff_getElem.mpr fun i j _ hj _ hsnap =>
        absurd hsnap (hnone _ (List.getElem_mem hj))
    · exact fun f _ s hs hsnap => absurd hsnap (hnone s hs)
    · intro f hf s hs
      rcases List.mem_append.mp hf with hf | hf
      · exact hcross f hf s hs
      · exact hahead f hf s hs
  · exact (hmem s hs).elim (fun hold => h.loaded s hold hsnap) fun hnew =>
      absurd hsnap (hnone s hnew)

/-- `x` tests whether its state is empty. If it asks for a snapshot, no change
has been made to it. -/
lemma choose (h : Kept r x y) (hist : x.History H) (r' : Role) :
    Kept r { x with phase := .ask (x.request r') } y := by
  refine { h with requested := fun hr ch hch horigin => ?_ }
  rcases hr with hr | hr
  · by_cases hempty : x.state.isEmpty
    · have hnone : x.changes = [] := by
        by_contra hne
        rw [hist.played.full hne] at hempty
        cases hempty
      rw [hnone] at hch
      cases hch
    · have hno : SyncMsg.snapshotRequest ∉ x.request r' := by
        have hstate : x.server.tracker.state.isEmpty = false := Bool.eq_false_of_not_eq_true hempty
        cases r' <;> simp [Node.request, Tracker.dialRequest, Tracker.acceptRequest, hstate]
      exact absurd hr hno
  · exact h.requested (.inr hr) ch hch horigin

/-- `x` takes a frame from its inbox without processing it. -/
lemma skip (h : Kept r x y) {f : Frame} {rest : List Frame} (hinbox : x.inbox = f :: rest)
    {phase : Phase} (hphase : phase.pending = []) :
    Kept r { x with phase := phase, inbox := rest } y := by
  have hcoming : coming x y = f :: (rest ++ y.reply) := by rw [coming, hinbox]; rfl
  refine ⟨h.own, fun f' hf' => ?_, ?_, fun s hs => ?_, fun hr => ?_⟩
  · exact h.frames f' (hcoming ▸ List.mem_cons_of_mem f hf')
  · exact (List.pairwise_cons.mp (hcoming ▸ h.ordered)).2
  · exact h.loaded s (hcoming ▸ List.mem_cons_of_mem f hs)
  · rcases hr with hr | hr
    · change _ ∈ phase.pending at hr
      rw [hphase] at hr
      cases hr
    · exact h.requested (.inr hr)

/-- `x` processes a frame. -/
lemma process (h : Kept r x y) {f : Frame} {rest : List Frame} (hinbox : x.inbox = f :: rest)
    (hread : Awaits x y → f.ReadAsMade) : Kept r (x.process H f rest) y := by
  have hcoming : coming x y = f :: (rest ++ y.reply) := by rw [coming, hinbox]; rfl
  obtain ⟨hhead, hordered⟩ := List.pairwise_cons.mp (hcoming ▸ h.ordered)
  have hadd : Awaits x y → ∀ ch ∈ x.changesAfter H f, ch ∈ x.changes ∨ ch ∈ f.changes :=
    fun hawait ch hch => List.mem_append.mp (Node.changesAfter_subset (hread hawait) hch)
  refine ⟨h.own, fun f' hf' => ?_, hordered, fun s hs hsnap ch hch => ?_, fun hr ch hch ho => ?_⟩
  · exact h.frames f' (hcoming ▸ List.mem_cons_of_mem f hf')
  · have hs' : s ∈ coming x y := hcoming ▸ List.mem_cons_of_mem f hs
    rcases hadd (.inr ⟨s, hs', hsnap⟩) ch hch with hold | hnew
    · exact h.loaded s hs' hsnap hold
    · exact hhead s hs hsnap hnew
  · rcases hadd (.inl hr) ch hch with hold | hnew
    · exact h.requested hr ch hold ho
    · exact h.frames f (hcoming ▸ List.mem_cons_self) hnew

/-- **No frame takes a change away** from the state that it arrives at. -/
lemma subset_changesAfter (h : Kept r x y) {f : Frame} {rest : List Frame}
    (hinbox : x.inbox = f :: rest) : x.changes ⊆ x.changesAfter H f := by
  rw [Node.changesAfter]
  cases hmsg : f.msg with
  | op op =>
      dsimp only
      split
      · exact List.Subset.refl _
      · split
        · exact List.subset_append_left _ _
        · exact List.Subset.refl _
  | snapshotData blob =>
      dsimp only
      split
      · refine h.loaded f ?_ (by rw [Frame.IsSnapshot, hmsg]; rfl)
        rw [coming, hinbox]
        exact List.mem_cons_self
      · exact List.Subset.refl _
  | hello | catchup | ack | snapshotRequest => exact List.Subset.refl _

/-- `y` processes a frame: it answers with what it has. -/
lemma peer_process (h : Kept r x y) {f : Frame} {rest : List Frame} (hinbox : y.inbox = f :: rest)
    (hreply : y.reply = []) (hgrow : y.changes ⊆ y.changesAfter H f)
    (htaken : f.msg = .snapshotRequest → ∀ ch ∈ x.changes, ch.origin = r → ch ∈ y.changes) :
    Kept r x (y.process H f rest) := by
  have hanswer : ∀ s ∈ (y.process H f rest).reply, s.changes ⊆ y.changes ∧
      s.msg ≠ .snapshotRequest ∧
        (s.IsSnapshot → f.msg = .snapshotRequest ∧ s.changes = y.changes) := by
    intro s hs
    obtain ⟨m, hm, rfl⟩ := List.mem_map.mp hs
    refine ⟨h.own.carried_subset m, Node.answer_ne hm, fun hsnap => ?_⟩
    rcases Tracker.answer_cases hm with ⟨n, -, op, -, rfl⟩ | ⟨op, -, rfl⟩ | ⟨hreq, rfl⟩
    · cases hsnap
    · cases hsnap
    · exact ⟨hreq, rfl⟩
  have hcoming : coming x y = x.inbox := by rw [coming, hreply, List.append_nil]
  have hreq : Requested x (y.process H f rest) → Requested x y := by
    refine Or.imp_right fun hr => ?_
    rw [hinbox]
    exact List.mem_cons_of_mem _ hr
  have hown := h.own.grow hgrow
  refine ⟨⟨hown.tasks, hown.recorded, fun s hs => (hanswer s hs).2.1⟩, fun s hs => ?_, ?_,
    fun s hs hsnap => ?_, fun hr ch hch ho => hgrow (h.requested (hreq hr) ch hch ho)⟩
  · refine List.Subset.trans ?_ hgrow
    rcases List.mem_append.mp hs with hs | hs
    · exact h.frames s (hcoming ▸ hs)
    · exact (hanswer s hs).1
  · refine List.pairwise_append.mpr ⟨hcoming ▸ h.ordered, ?_, fun f' hf' s hs hsnap => ?_⟩
    · refine List.pairwise_iff_getElem.mpr fun i j hi hj _ hsnap => ?_
      rw [((hanswer _ (List.getElem_mem hj)).2.2 hsnap).2]
      exact (hanswer _ (List.getElem_mem hi)).1
    · rw [((hanswer s hs).2.2 hsnap).2]
      exact h.frames f' (hcoming ▸ hf')
  · rcases List.mem_append.mp hs with hs | hs
    · exact h.loaded s (hcoming ▸ hs) hsnap
    · obtain ⟨hmsg, hsame⟩ := (hanswer s hs).2.2 hsnap
      -- the request has just been processed, so what `x` has from `y` is there
      have hr : Requested x y := by
        refine .inr ?_
        rw [hinbox]
        exact List.mem_cons.mpr (.inl hmsg.symm)
      intro ch hch
      rw [hsame]
      by_cases ho : ch.origin = r
      · exact htaken hmsg ch hch ho
      · exact h.requested hr ch hch ho

/-- Without a link nothing is on its way. -/
lemma of_cut {x y : Node} (hown : y.Own) (hx : coming x y = []) (hphase : x.phase.pending = [])
    (hinbox : y.inbox = []) : Kept r x y where
  own := hown
  frames f hf := by rw [hx] at hf; cases hf
  ordered := hx ▸ .nil
  loaded s hs := by rw [hx] at hs; cases hs
  requested hr := by
    rw [Requested, hphase, hinbox] at hr
    rcases hr with hr | hr <;> cases hr

end Kept

namespace Net

variable {H : Str → Str} {n n' : Net} {r : Role}

/-- The invariant of the two trackers. -/
def AllKept (n : Net) : Prop := ∀ r, Kept r (n r) (n r.peer)

namespace AllKept

/-- It is enough to look at a tracker and its peer. -/
lemma of_both {x y : Node} (hx : n r = x) (hy : n r.peer = y) (h : Kept r x y)
    (h' : Kept r.peer y x) : n.AllKept := by
  refine Role.forall_of_peer r ?_ ?_
  · rw [hx, hy]
    exact h
  · rw [Role.peer_peer, hx, hy]
    exact h'

/-- The invariant, seen from one of the trackers. -/
lemma peer (h : n.AllKept) (r : Role) : Kept r.peer (n r.peer) (n r) := by
  have hpeer := h r.peer
  rwa [Role.peer_peer] at hpeer

lemma client (h : n.AllKept) {ev : ClientEvent} (hok : n.Undisturbed H (.event (.client r ev))) :
    (n.client H r ev).AllKept :=
  of_both (n.set_self r _) (n.set_peer r _) ((h r).client ev hok) ((h.peer r).peer_client r ev)

lemma work (h : n.AllKept) {i : ℕ} (hok : n.Undisturbed H (.event (.work r i)))
    (hstep : n.work r i = some n') : n'.AllKept := by
  rcases work_cases hstep with
    ⟨rep, now, changes, htask, hpeer, hself⟩ | ⟨fd, op, changes, htask, hself, hpeer⟩
  · refine of_both hself hpeer ?_ ((h.peer r).peer_record htask)
    exact (h r).of_sides (h r).own rfl rfl (List.Subset.refl _) id
  · have hself' := (h.peer r).peer_done i
    have hother : Kept r { n r with tasks := (n r).tasks.eraseIdx i } (n r.peer) :=
      (h r).of_sides (h r).own rfl rfl (List.Subset.refl _) id
    have hmem : changes ⊆ (n r).changes :=
      (h.peer r).own.tasks (.send fd op changes) (List.mem_of_getElem? htask)
    split at hpeer
    · next hlive =>
        have hsnap : ∀ f ∈ [Frame.mk (.op op) changes], ¬ f.IsSnapshot := by
          simp [Frame.IsSnapshot, SyncMsg.type]
        have hreq : SyncMsg.snapshotRequest ∈ msgs ((n r.peer).inbox ++ [⟨.op op, changes⟩]) →
            SyncMsg.snapshotRequest ∈ msgs (n r.peer).inbox := by
          simp
        refine of_both hself hpeer ?_ (hself'.post ?_ hsnap ?_)
        · exact hother.of_sides { hother.own with } rfl rfl
            (List.Subset.refl _) (Or.imp_right hreq)
        · intro f hf
          obtain rfl := List.mem_singleton.mp hf
          exact hmem
        · intro f hf s hs hs'
          obtain rfl := List.mem_singleton.mp hf
          exact hok _ htask hlive.1 hlive.2 s hs hs'
    · rw [List.append_nil] at hpeer
      exact of_both hself hpeer hother hself'

lemma advance (h : n.AllKept) (hist : n.History H) (hstep : n.advance r = some n') :
    n'.AllKept := by
  have hx : Kept r (n r) (n r.peer) := h r
  have hy : ∀ phase : Phase, Kept r.peer (n r.peer) { n r with phase := phase } := fun phase =>
    (h.peer r).of_sides { (h.peer r).own with } rfl
      rfl (List.Subset.refl _) id
  rcases advance_cases hstep with
    ⟨-, hself, hpeer⟩ | ⟨-, hself, hpeer⟩ | ⟨request, hphase, hself, hpeer⟩
  · refine of_both hself hpeer (hx.of_sides { hx.own with } rfl rfl
      (List.Subset.refl _) ?_) ((hy .choose).post ?_ ?_ ?_)
    · rintro (hr | hr)
      · cases hr
      · exact .inr (by simpa [Node.frame] using hr)
    · exact fun f hf => List.mem_singleton.mp hf ▸ List.nil_subset _
    · intro f hf
      rw [List.mem_singleton.mp hf]
      simp [Frame.IsSnapshot, Node.frame, SyncMsg.type]
    · exact fun f hf s _ _ => List.mem_singleton.mp hf ▸ List.nil_subset _
  · exact of_both hself hpeer (hx.choose (hist r) r) (hy _)
  · have hplain : ∀ f ∈ request.map (n r).frame, f.changes = [] ∧ ¬ f.IsSnapshot := by
      intro f hf
      obtain ⟨m, hm, rfl⟩ := List.mem_map.mp hf
      have htype := (hist r).pending m (by rw [hphase]; exact hm)
      cases m with
      | snapshotRequest | catchup =>
          exact ⟨rfl, by simp [Frame.IsSnapshot, Node.frame, SyncMsg.type]⟩
      | hello | op | ack | snapshotData => simp [SyncMsg.type] at htype
    refine of_both hself hpeer (hx.of_sides { hx.own with } rfl rfl
      (List.Subset.refl _) ?_) ((hy .up).post ?_ ?_ ?_)
    · rintro (hr | hr)
      · cases hr
      · have hmem : SyncMsg.snapshotRequest ∈ msgs (n r.peer).inbox ∨
            SyncMsg.snapshotRequest ∈ request := by
          simpa [Node.frame] using hr
        refine hmem.symm.imp_left fun hin => ?_
        rw [hphase]
        exact hin
    · exact fun f hf => (hplain f hf).1 ▸ List.nil_subset _
    · exact fun f hf => (hplain f hf).2
    · exact fun f hf s _ _ => (hplain f hf).1 ▸ List.nil_subset _

lemma deliver (h : n.AllKept) (hok : n.Undisturbed H (.event (.deliver r)))
    (hstep : n.deliver H r = some n') : n'.AllKept := by
  have hx : Kept r (n r) (n r.peer) := h r
  have hy : Kept r.peer (n r.peer) (n r) := h.peer r
  obtain ⟨f, rest, hinbox, -, hreply, hpeer, hcase⟩ := deliver_cases hstep
  have hskip : ∀ phase : Phase,
      Kept r.peer (n r.peer) { n r with phase := phase, inbox := rest } := by
    intro phase
    refine hy.of_sides { hy.own with } rfl rfl
      (List.Subset.refl _) (Or.imp_right fun hr => ?_)
    rw [hinbox]
    exact List.mem_cons_of_mem _ hr
  rcases hcase with ⟨hup, hself⟩ | ⟨-, ⟨-, -, hself⟩ | ⟨-, -, hself⟩ | ⟨hclient, hself⟩⟩
  · obtain ⟨htaken, hread⟩ := hok hup f (by rw [hinbox]; rfl)
    exact of_both hself hpeer (hx.process hinbox hread)
      (hy.peer_process hinbox hreply (hx.subset_changesAfter hinbox) htaken)
  · exact of_both hself hpeer (hx.skip hinbox rfl) (hskip .choose)
  · exact of_both hself hpeer (hx.skip hinbox rfl) (hskip .client)
  · have hpending : (n r).phase.pending = [] := by rw [hclient]; rfl
    exact of_both hself hpeer (hx.skip hinbox hpending) (hskip (n r).phase)

lemma reply (h : n.AllKept) (hstep : n.reply r = some n') : n'.AllKept := by
  have hx : Kept r (n r) (n r.peer) := h r
  have hy : Kept r.peer (n r.peer) (n r) := h.peer r
  obtain ⟨hself, hpeer⟩ := reply_cases hstep
  refine of_both hself hpeer (hx.of_sides { hx.own with } rfl rfl (List.Subset.refl _)
    (Or.imp_right fun hr => ?_))
    (hy.of_sides { hy.own with answer := fun f hf => (by cases hf) } ?_ rfl (List.Subset.refl _) id)
  · change _ ∈ msgs ((n r.peer).inbox ++ (n r).reply) at hr
    rw [msgs, List.map_append, List.mem_append] at hr
    rcases hr with hr | hr
    · exact hr
    · obtain ⟨f, hf, hmsg⟩ := List.mem_map.mp hr
      exact absurd hmsg (hy.own.answer f hf)
  · show (n r.peer).inbox ++ (n r).reply ++ [] = _
    exact List.append_nil _

/-- The link is gone. -/
lemma cut (h : n.AllKept) : AllKept fun r => (n r).cut := fun r =>
  .of_cut { (h r).own with answer := fun f hf => (by cases hf) } rfl rfl rfl

lemma restart (h : n.AllKept) (r : Role) : (n.restart r).AllKept := by
  have hside : ∀ r', (n.restart r r').Own ∧ (n.restart r r').inbox = [] ∧
      (n.restart r r').reply = [] ∧ (n.restart r r').phase = .down := by
    intro r'
    rw [Net.restart]
    split
    · exact ⟨⟨fun task h => (by cases h), fun op ch h => (by cases h), fun f h => (by cases h)⟩,
        rfl, rfl, rfl⟩
    · have hown := (h.peer r').own
      exact ⟨⟨hown.tasks, hown.recorded, fun f h => (by cases h)⟩, rfl, rfl, rfl⟩
  intro r'
  obtain ⟨-, hinbox, -, hphase⟩ := hside r'
  obtain ⟨hown, hinbox', hreply, -⟩ := hside r'.peer
  exact .of_cut hown (by rw [coming, hinbox, hreply]; rfl) (by rw [hphase]; rfl) hinbox'

/-- **The step lemma.** -/
theorem live (h : n.AllKept) (hist : n.History H) {e : Happening} (hok : n.Undisturbed H e)
    (hstep : n.live H e = some n') : n'.AllKept := by
  cases e with
  | restart r =>
      obtain rfl := Option.some.inj hstep
      exact h.restart r
  | event e =>
      cases e with
      | client r ev =>
          obtain rfl : n.client H r ev = n' := Option.some.inj hstep
          exact h.client hok
      | work r i => exact h.work hok hstep
      | dial fd =>
          change Net.step H n (.dial fd) = some n' at hstep
          rw [Net.step] at hstep
          split at hstep
          · next hdown =>
              obtain rfl := Option.some.inj hstep
              have hx := h .dialer
              have hy := h.peer .dialer
              refine of_both (r := .dialer) rfl rfl ?_ ?_
              · refine hx.of_sides { hx.own with } rfl rfl
                  (List.Subset.refl _) (Or.imp_left fun hr => ?_)
                cases hr
              · exact hy.of_sides { hy.own with } rfl rfl
                  (List.Subset.refl _) id
          · cases hstep
      | advance r => exact h.advance hist hstep
      | deliver r => exact h.deliver hok hstep
      | reply r => exact h.reply hstep
      | drop =>
          change Net.step H n .drop = some n' at hstep
          rw [Net.step] at hstep
          split at hstep
          · cases hstep
          · obtain rfl := Option.some.inj hstep
            exact h.cut

lemma start : AllKept start := fun _ =>
  .of_cut ⟨fun task h => (by cases h), fun op ch h => (by cases h), fun f h => (by cases h)⟩ rfl rfl
    rfl

end AllKept

/-- **The loading of a snapshot keeps every change**, as every delivery does, in
undisturbed runs: what a tracker has been through before it, it has been through
after it, and its changes lead to its state both times. -/
theorem restored_kept (h : Run (live H) (Undisturbed H) start n)
    (hstep : n.step H (.deliver r) = some n') :
    Played H (n r).changes (n r).state ∧ Played H (n' r).changes (n' r).state ∧
      ∀ ch ∈ (n r).changes, ch ∈ (n' r).changes := by
  have hinv : n.History H ∧ n.AllKept := by
    refine h.invariant (I := fun n => n.History H ∧ n.AllKept)
      ⟨fun _ => .start 0, .start⟩ fun hI hok hstep => ?_
    exact ⟨hI.1.live hstep, hI.2.live hI.1 hok hstep⟩
  have hist' : n'.History H := hinv.1.step hstep
  refine ⟨(hinv.1 r).played, (hist' r).played, ?_⟩
  obtain ⟨f, rest, hinbox, -, -, -, hcase⟩ := deliver_cases hstep
  rcases hcase with ⟨-, hself⟩ | ⟨-, ⟨-, -, hself⟩ | ⟨-, -, hself⟩ | ⟨-, hself⟩⟩
  · rw [hself]
    exact (hinv.2 r).subset_changesAfter hinbox
  · exact fun ch hch => by rwa [hself]
  · exact fun ch hch => by rwa [hself]
  · exact fun ch hch => by rwa [hself]

/-- A client registers a user on tracker 1, which records it. -/
def registering (fd : ℕ) (uid : Str) : List Event :=
  [.client .acceptor (.connect fd [4] peerIp_fits),
    .client .acceptor (.request fd MsgType.createUser.code (putStr uid ++ putStr [2]) 0),
    .work .acceptor 0]

/-- Tracker 1 has a user when the link forms. Another one registers there while
tracker 0 waits for its snapshot, and the op arrives before it. -/
def waiting : List Event :=
  registering 7 [9] ++
    [.dial fun _ => 3, .advance .dialer, .deliver .acceptor, .advance .dialer, .advance .dialer,
      .advance .acceptor, .advance .acceptor] ++
    registering 6 [8] ++
    [.work .acceptor 0, .deliver .dialer, .reply .dialer, .deliver .acceptor, .reply .acceptor]

theorem restored_kept_waiting :
    let n := (exec (live id) start (waiting.map .event)).get (by decide +kernel)
    let n' := (n.step id (.deliver .dialer)).get (by decide +kernel)
    ⟨.acceptor, 1, .createUser [8] [2]⟩ ∈ (n' .dialer).changes :=
  (restored_kept (H := id) (r := .dialer)
    (Run.of_exec (by decide +kernel) (Option.some_get _).symm)
    (Option.some_get (by decide +kernel)).symm).2.2 _ (by decide +kernel)

/-- **A change that is made meanwhile**: tracker 1 has taken and sent a snapshot
when a client of tracker 0 registers. Tracker 0 loads the snapshot, and the user
is gone. -/
theorem registered_meanwhile :
    ∃ n n' : Net, Run (live id) (fun _ _ => True) start n ∧
      n.step id (.deliver .dialer) = some n' ∧
      (∃ ch ∈ (n .dialer).changes, ch.call = .createUser [8] [2] ∧ ch ∉ (n' .dialer).changes) ∧
      [8] ∈ (n .dialer).state.users ∧ [8] ∉ (n' .dialer).state.users := by
  let n := (exec (live id) start ((linking.take 11 ++ newcomer 7 [8]).map .event)).get
    (by decide +kernel)
  have hrun : Run (live id) (fun _ _ => True) start n :=
    Run.of_exec (meets_of_forall (p := fun _ => True) (fun _ _ => trivial) start)
      (Option.some_get _).symm
  exact ⟨n, (n.step id (.deliver .dialer)).get (by decide +kernel), hrun,
    (Option.some_get _).symm, by decide +kernel⟩

end Net

end Threads

end P2PShare
