import P2PShare.Client.ResumeScan

/-!
How far the announcements of a download lag behind it.

* `untold`: the pieces that the store has got since the job started whose bit is in none of the
  given announcements. `GetsOut` says that the request of an announcement is sent.
* `Telling`, `Worker.step_telling`: what a step of a worker does to what is announced.
* `Round.Prompt` (**the invariant of a round**): unless a worker is about to read the bitmap, no
  more pieces are untold than have been counted since the last announcement or are being
  counted; and an announcement is due, or the count is low.
* `Download.Prompt` carries it over the rounds, and `announce_lag` reads it off.
-/

namespace P2PShare

open PieceStore

/-! ### Pieces that have not been announced -/

/-- The pieces that have come since `base` and whose bit no announcement has. -/
def untold (base st : PieceStore) (sent : List (List UInt8)) : Finset ℕ :=
  (Finset.range st.pieceCount).filter fun i =>
    st.have' i = true ∧ base.have' i = false ∧ ∀ bits ∈ sent, Bitmap.testBytes bits i = false

section

variable {base st st' : PieceStore} {sent sent' : List (List UInt8)}

lemma mem_untold {i : ℕ} : i ∈ untold base st sent ↔ st.have' i = true ∧ base.have' i = false ∧
    ∀ bits ∈ sent, Bitmap.testBytes bits i = false := by
  rw [untold, Finset.mem_filter, Finset.mem_range, and_iff_right_iff_imp]
  rintro ⟨hhave, -⟩
  rw [PieceStore.have', Bool.and_eq_true] at hhave
  exact of_decide_eq_true hhave.1

/-- The pieces are those that were there, and nothing is unsaid. -/
lemma untold_subset (hhave : ∀ i, st'.have' i = st.have' i) (hsent : ∀ bits ∈ sent, bits ∈ sent') :
    untold base st' sent' ⊆ untold base st sent := by
  intro i hi
  rw [mem_untold, hhave] at hi
  exact mem_untold.mpr ⟨hi.1, hi.2.1, fun bits hbits => hi.2.2 bits (hsent bits hbits)⟩

/-- One piece more. -/
lemma card_untold_mark (base : PieceStore) (sent : List (List UInt8)) {k : ℕ}
    (hk : k < st.pieceCount) :
    (untold base (st.mark k) sent).card ≤ (untold base st sent).card + 1 := by
  have hsub : untold base (st.mark k) sent ⊆ insert k (untold base st sent) := by
    intro i hi
    rw [mem_untold, Round.have'_mark st hk, Bool.or_eq_true, decide_eq_true_eq] at hi
    rw [Finset.mem_insert, mem_untold]
    obtain ⟨hhave | rfl, hrest⟩ := hi
    · exact .inr ⟨hhave, hrest⟩
    · exact .inl rfl
  exact (Finset.card_le_card hsub).trans (Finset.card_insert_le _ _)

/-- An announcement of all that is held leaves nothing untold. -/
lemma untold_eq_empty (h : st.have_.bytes ∈ sent) : untold base st sent = ∅ := by
  rw [Finset.eq_empty_iff_forall_notMem]
  intro i hi
  obtain ⟨hhave, -, htold⟩ := mem_untold.mp hi
  rw [PieceStore.have', Bool.and_eq_true] at hhave
  have htest : st.have_.test i = false := htold _ h
  rw [htest] at hhave
  exact Bool.noConfusion hhave.2

end

/-! ### What a worker announces -/

/-- An announcement finds a tracker to be sent to. -/
def Act.GetsOut : Act → Prop
  | send out => out = true
  | connect _ | pop | fetch _ | pwrite _ | mark | giveBack | count _ | reset | read => True

/-- An announcement, be it of a worker or of `run_job`, finds a tracker to be sent to. -/
def JobEvent.GetsOut : JobEvent → Prop
  | worker _ a => a.GetsOut
  | send out => out = true
  | begin _ | join | reset | read | finish | addShare | setDone => True

/-- The worker is not on its way to an announcement. -/
def WorkerPhase.Silent : WorkerPhase → Prop
  | counting | resetting | reading | sending _ => False
  | connecting | top | fetching _ | writing _ _ _ | failing _ | ended => True

/-- The bitmap that the worker is sending. -/
def WorkerPhase.bits : WorkerPhase → Option (List UInt8)
  | sending b => some b
  | connecting | top | fetching _ | writing _ _ _ | failing _ | counting | resetting | reading
  | ended => none

/-- Whether the worker has got a piece and not counted it yet. -/
def WorkerPhase.counts (p : WorkerPhase) : ℕ := if p = .counting then 1 else 0

lemma WorkerPhase.Silent.counts {p : WorkerPhase} (h : p.Silent) : p.counts = 0 := by
  refine if_neg ?_
  rintro rfl
  exact h

lemma WorkerPhase.Silent.bits {p : WorkerPhase} (h : p.Silent) : p.bits = none := by
  cases p with
  | counting | resetting | reading | sending => exact absurd h id
  | connecting | top | fetching | writing | failing | ended => rfl

/-- **What a step of a worker does to the announcements**: nothing, or it gets a piece, counts
it, clears the count, reads the bitmap or has sent it. -/
inductive Telling (s : Shared) (x : Worker) : Shared → Worker → Prop
  | quiet {s' : Shared} {x' : Worker} (hhave : ∀ i, s'.store.have' i = s.store.have' i)
      (hsince : s'.sinceAnnounce = s.sinceAnnounce) (hsent : s'.sent = s.sent)
      (hx : x.phase.Silent) (hx' : x'.phase.Silent) : Telling s x s' x'
  | marked {i put : ℕ} {data : Str} (hx : x.phase = .writing i data put) :
      Telling s x { s with store := s.store.mark i } ⟨.counting, 0⟩
  | counted {p : WorkerPhase} (hx : x.phase = .counting)
      (hp : p = .resetting ∨ p = .top ∧ s.sinceAnnounce + 1 < announceEveryPieces) :
      Telling s x { s with sinceAnnounce := s.sinceAnnounce + 1 } { x with phase := p }
  | cleared (hx : x.phase = .resetting) :
      Telling s x { s with sinceAnnounce := 0 } { x with phase := .reading }
  | read (hx : x.phase = .reading) :
      Telling s x s { x with phase := .sending s.store.have_.bytes }
  | sent {bits : List UInt8} (hx : x.phase = .sending bits) :
      Telling s x { s with sent := s.sent ++ [bits] } { x with phase := .top }

lemma Worker.step_telling {H : Str → Str} {job : DownloadJob} {s s' : Shared} {x x' : Worker}
    {a : Act} (hout : a.GetsOut) (h : x.step H job s a = some (s', x')) : Telling s x s' x' := by
  have hsilent : ∀ {y : Worker}, x.phase.Silent → y.phase.Silent → Telling s x s y :=
    fun hx hy => .quiet (fun _ => rfl) rfl rfl hx hy
  unfold Worker.step at h
  split at h
  · next ok hphase =>
      obtain ⟨rfl, rfl⟩ := Prod.mk.inj (Option.some.inj h)
      refine hsilent (by rw [hphase]; trivial) ?_
      cases ok <;> trivial
  · next hphase =>
      have hx : x.phase.Silent := by rw [hphase]; trivial
      split at h
      · obtain ⟨rfl, rfl⟩ := Prod.mk.inj (Option.some.inj h)
        exact hsilent hx trivial
      · obtain ⟨rfl, rfl⟩ := Prod.mk.inj (Option.some.inj h)
        exact .quiet (fun _ => rfl) rfl rfl hx trivial
  · next index reply hphase =>
      have hx : x.phase.Silent := by rw [hphase]; trivial
      split at h
      · obtain ⟨rfl, rfl⟩ := Prod.mk.inj (Option.some.inj h)
        exact hsilent hx trivial
      · split at h
        · obtain ⟨rfl, rfl⟩ := Prod.mk.inj (Option.some.inj h)
          exact hsilent hx trivial
        · obtain ⟨rfl, rfl⟩ := Prod.mk.inj (Option.some.inj h)
          exact hsilent hx trivial
  · next index data put k hphase =>
      have hx : x.phase.Silent := by rw [hphase]; trivial
      split at h
      · cases h
      · split at h
        · obtain ⟨rfl, rfl⟩ := Prod.mk.inj (Option.some.inj h)
          exact hsilent hx trivial
        · obtain ⟨rfl, rfl⟩ := Prod.mk.inj (Option.some.inj h)
          exact hsilent hx trivial
        · split at h
          · cases h
          · obtain ⟨rfl, rfl⟩ := Prod.mk.inj (Option.some.inj h)
            -- `pwrite` leaves the bitmap alone
            exact .quiet (fun _ => rfl) rfl rfl hx trivial
  · next index data put hphase =>
      split at h
      · obtain ⟨rfl, rfl⟩ := Prod.mk.inj (Option.some.inj h)
        exact .marked hphase
      · cases h
  · next index hphase =>
      obtain ⟨rfl, rfl⟩ := Prod.mk.inj (Option.some.inj h)
      refine .quiet (fun _ => rfl) rfl rfl (by rw [hphase]; trivial) ?_
      dsimp only
      split <;> trivial
  · next late hphase =>
      obtain ⟨rfl, rfl⟩ := Prod.mk.inj (Option.some.inj h)
      refine .counted hphase ?_
      split
      · exact .inl rfl
      · next hdue =>
          rw [not_or, Nat.not_le] at hdue
          exact .inr ⟨rfl, hdue.1⟩
  · next hphase =>
      obtain ⟨rfl, rfl⟩ := Prod.mk.inj (Option.some.inj h)
      exact .cleared hphase
  · next hphase =>
      obtain ⟨rfl, rfl⟩ := Prod.mk.inj (Option.some.inj h)
      exact .read hphase
  · next bits out hphase =>
      obtain rfl : out = true := hout
      obtain ⟨rfl, rfl⟩ := Prod.mk.inj (Option.some.inj h)
      exact .sent hphase
  · cases h

lemma announceEveryPieces_pos : 0 < announceEveryPieces := by decide

/-! ### A round -/

namespace Round

/-- The bitmaps that workers are sending. -/
def underWay (r : Round) : List (List UInt8) := r.workers.filterMap fun x => x.phase.bits

/-- The number of workers that have got a piece and not counted it yet. -/
def counting (r : Round) : ℕ := (r.workers.map fun x => x.phase.counts).sum

/-- **The invariant of a round.** -/
structure Prompt (base : PieceStore) (r : Round) : Prop where
  fresh : (∃ x ∈ r.workers, x.phase = .reading) ∨
    (untold base r.store (r.sent ++ r.underWay)).card ≤ r.sinceAnnounce + r.counting
  due : (∃ x ∈ r.workers, x.phase = .resetting) ∨ r.sinceAnnounce < announceEveryPieces

variable {H : Str → Str} {job : DownloadJob} {base : PieceStore} {r r' : Round} {w : ℕ}
  {x x' : Worker}

/-- The other workers stay. -/
lemma mem_set_of_ne {l : List Worker} {y : Worker} (hx : l[w]? = some x) (hy : y ∈ l)
    (hne : y ≠ x) : y ∈ l.set w x' := by
  obtain ⟨v, hv⟩ := List.mem_iff_getElem?.mp hy
  have hvw : v ≠ w := by
    rintro rfl
    exact hne (Option.some.inj (hv.symm.trans hx))
  exact List.mem_of_getElem? ((List.getElem?_set_ne hvw.symm).trans hv)

lemma mem_set_self {l : List Worker} (hx : l[w]? = some x) : x' ∈ l.set w x' :=
  List.mem_of_getElem? (List.getElem?_set_self (List.getElem?_eq_some_iff.mp hx).1)

/-- A worker in this phase, unless it is the one that has moved. -/
lemma exists_set {l : List Worker} {p : WorkerPhase} (hx : l[w]? = some x) (hp : x.phase ≠ p)
    (h : ∃ y ∈ l, y.phase = p) : ∃ y ∈ l.set w x', y.phase = p := by
  obtain ⟨y, hy, hphase⟩ := h
  refine ⟨y, mem_set_of_ne hx hy ?_, hphase⟩
  rintro rfl
  exact hp hphase

/-- A bitmap that is being sent, unless it is that of the worker that has moved. -/
lemma mem_underWay_set {s : Shared} {bits : List UInt8} (hx : r.workers[w]? = some x)
    (hbits : bits ∈ r.underWay) (hne : x.phase.bits ≠ some bits) :
    bits ∈ underWay ⟨s, r.workers.set w x'⟩ := by
  obtain ⟨y, hy, hphase⟩ := List.mem_filterMap.mp hbits
  refine List.mem_filterMap.mpr ⟨y, mem_set_of_ne hx hy ?_, hphase⟩
  rintro rfl
  exact hne hphase

lemma counting_set {s : Shared} (hx : r.workers[w]? = some x) :
    counting ⟨s, r.workers.set w x'⟩ + x.phase.counts = r.counting + x'.phase.counts :=
  sum_map_set (fun x => x.phase.counts) hx x'

/-- **The step lemma.** -/
theorem Prompt.step (h : r.Prompt base) (hplaces : r.OnePlace) {e : ℕ × Act} (hout : e.2.GetsOut)
    (hstep : r.step H job e = some r') : r'.Prompt base := by
  obtain ⟨x, s', x', hx, hworker, rfl⟩ := step_worker hstep
  have hcount : counting ⟨s', r.workers.set e.1 x'⟩ + x.phase.counts =
      r.counting + x'.phase.counts := counting_set hx
  -- whatever has been announced or is under way stays so, unless `x` was sending it
  have hless : ∀ {st : PieceStore}, (∀ i, st.have' i = r.store.have' i) →
      (∀ bits ∈ r.sent, bits ∈ s'.sent) →
      (∀ bits, x.phase.bits = some bits → bits ∈ s'.sent) →
      (untold base st (s'.sent ++ underWay ⟨s', r.workers.set e.1 x'⟩)).card ≤
        (untold base r.store (r.sent ++ r.underWay)).card := by
    intro st hhave hsent hown
    refine Finset.card_le_card (untold_subset hhave fun bits hbits => ?_)
    rw [List.mem_append] at hbits ⊢
    rcases hbits with hbits | hbits
    · exact .inl (hsent bits hbits)
    · by_cases hne : x.phase.bits = some bits
      · exact .inl (hown bits hne)
      · exact .inr (mem_underWay_set hx hbits hne)
  cases Worker.step_telling hout hworker with
  | quiet hhave hsince hsent hsilent hsilent' =>
      rw [hsilent.counts, hsilent'.counts] at hcount
      have hne : ∀ p : WorkerPhase, ¬ p.Silent → x.phase ≠ p := fun p hp hphase =>
        hp (hphase ▸ hsilent)
      refine ⟨h.fresh.imp (exists_set hx (hne _ id)) fun hle => ?_,
        h.due.imp (exists_set hx (hne _ id)) fun hlt => ?_⟩
      · have hsub := hless hhave (fun bits hbits => hsent ▸ hbits) fun bits hbits => by
          rw [hsilent.bits] at hbits
          cases hbits
        dsimp only at hsub ⊢
        rw [hsince]
        omega
      · dsimp only
        rw [hsince]
        exact hlt
  | @marked k put data hphase =>
      have hk := (hplaces.of_hand hx (show x.phase.hand = some k by rw [hphase]; rfl)).1
      rw [hphase] at hcount
      refine ⟨h.fresh.imp (exists_set hx (by rw [hphase]; rintro ⟨⟩)) fun hle => ?_,
        h.due.imp_left (exists_set hx (by rw [hphase]; rintro ⟨⟩))⟩
      have hsame := hless (fun i => rfl) (fun bits hbits => hbits) fun bits hbits => by
        rw [hphase] at hbits
        cases hbits
      have hnew : (WorkerPhase.writing k data put).counts = 0 ∧ WorkerPhase.counting.counts = 1 :=
        ⟨rfl, rfl⟩
      rw [hnew.1, hnew.2] at hcount
      -- one more piece is untold, and one worker more is about to count
      refine (card_untold_mark base _ hk).trans ?_
      dsimp only at hsame ⊢
      omega
  | counted hphase hp =>
      rw [hphase] at hcount
      have hcounts : WorkerPhase.counting.counts = 1 := rfl
      refine ⟨h.fresh.imp (exists_set hx (by rw [hphase]; rintro ⟨⟩)) fun hle => ?_, ?_⟩
      · have hsame := hless (fun i => rfl) (fun bits hbits => hbits) fun bits hbits => by
          rw [hphase] at hbits
          cases hbits
        have hp' : ∀ q : WorkerPhase, q = .resetting ∨ q = .top → q.counts = 0 := by
          rintro q (rfl | rfl) <;> rfl
        rw [hcounts, hp' _ (hp.imp_right And.left)] at hcount
        dsimp only at hsame ⊢
        omega
      · rcases hp with rfl | ⟨-, hlt⟩
        · exact .inl ⟨_, mem_set_self hx, rfl⟩
        · exact .inr hlt
  | cleared hphase => exact ⟨.inl ⟨_, mem_set_self hx, rfl⟩, .inr announceEveryPieces_pos⟩
  | read hphase =>
      refine ⟨.inr ?_, h.due.imp_left (exists_set hx (by rw [hphase]; rintro ⟨⟩))⟩
      -- the bitmap under way has every piece of the store
      have hall : r.store.have_.bytes ∈ r.sent ++ underWay ⟨r.toShared, r.workers.set e.1
          { x with phase := .sending r.store.have_.bytes }⟩ :=
        List.mem_append_right _ (List.mem_filterMap.mpr ⟨_, mem_set_self hx, rfl⟩)
      rw [untold_eq_empty hall, Finset.card_empty]
      exact Nat.zero_le _
  | @sent bits hphase =>
      rw [hphase] at hcount
      refine ⟨h.fresh.imp (exists_set hx (by rw [hphase]; rintro ⟨⟩)) fun hle => ?_,
        h.due.imp_left (exists_set hx (by rw [hphase]; rintro ⟨⟩))⟩
      -- the bitmap that was under way has been sent
      have hsame := hless (fun i => rfl) (fun b hb => List.mem_append_left _ hb) fun b hb => by
        rw [hphase] at hb
        obtain rfl := Option.some.inj hb
        exact List.mem_append_right _ (List.mem_singleton_self _)
      have hcounts : (WorkerPhase.sending bits).counts = 0 ∧ WorkerPhase.top.counts = 0 :=
        ⟨rfl, rfl⟩
      rw [hcounts.1, hcounts.2] at hcount
      dsimp only at hsame ⊢
      omega

end Round

/-! ### A job -/

/-- The bitmap that `run_job` is sending at the end of a round. -/
def Stage.bits : Stage → List (List UInt8)
  | sending b => [b]
  | between | running | resetting | reading | sharing | shared | done | failed => []

namespace Download

/-- **The invariant**: that of the round while its workers have not been joined and the count
not been cleared; and apart from rounds, everything is told. -/
structure Prompt (base : PieceStore) (d : Download) : Prop where
  places : d.stage = .running → d.toRound.OnePlace
  ended : d.stage ≠ .running → ∀ x ∈ d.workers, x.phase = .ended
  round : d.stage = .running ∨ d.stage = .resetting → d.toRound.Prompt base
  cleared : d.stage ≠ .running → d.stage ≠ .resetting → d.sinceAnnounce = 0
  told : d.stage ≠ .running → d.stage ≠ .resetting → d.stage ≠ .reading →
    untold base d.store (d.sent ++ d.stage.bits) = ∅

variable {H : Str → Str} {job : DownloadJob} {base : PieceStore} {d d' : Download}

/-- A round begins with everything told. -/
lemma prompt_start {s : Shared} (hsince : s.sinceAnnounce = 0)
    (htold : untold base s.store s.sent = ∅) (n : ℕ) : (Round.start s n).Prompt base := by
  have hnone : (Round.start s n).underWay = [] := by
    rw [Round.underWay, List.filterMap_eq_nil_iff]
    intro x hx
    obtain rfl := List.eq_of_mem_replicate hx
    rfl
  refine ⟨.inr ?_, .inr ?_⟩
  · rw [hnone, List.append_nil]
    change (untold base s.store s.sent).card ≤ _
    rw [htold, Finset.card_empty]
    exact Nat.zero_le _
  · change s.sinceAnnounce < announceEveryPieces
    rw [hsince]
    exact announceEveryPieces_pos

/-- **The step lemma.** -/
theorem Prompt.step (h : d.Prompt base) {e : JobEvent} (hout : e.GetsOut)
    (hstep : d.step H job e = some d') : d'.Prompt base := by
  -- behind the rounds, nothing that the invariant is about changes
  have hquiet : ∀ {p : Stage} {n : ℕ}, (d.stage = .between ∨ d.stage = .sharing ∨
        d.stage = .shared) → (p = .between ∨ p = .sharing ∨ p = .shared ∨ p = .done ∨ p = .failed) →
      Prompt base { d with stage := p, rounds := n } := by
    intro p n hd hp
    have hd' : d.stage ≠ .running ∧ d.stage ≠ .resetting ∧ d.stage ≠ .reading ∧
        d.stage.bits = [] := by
      rcases hd with hd | hd | hd <;> (rw [hd]; exact ⟨by decide, by decide, by decide, rfl⟩)
    have hp' : p ≠ .running ∧ p ≠ .resetting ∧ p.bits = [] := by
      rcases hp with rfl | rfl | rfl | rfl | rfl <;> exact ⟨by decide, by decide, rfl⟩
    have htold := h.told hd'.1 hd'.2.1 hd'.2.2.1
    rw [hd'.2.2.2] at htold
    refine ⟨fun hrun => absurd hrun hp'.1, fun _ => h.ended hd'.1,
      fun hrun => absurd hrun (not_or.mpr ⟨hp'.1, hp'.2.1⟩), fun _ _ => h.cleared hd'.1 hd'.2.1,
      fun _ _ _ => ?_⟩
    dsimp only
    rw [hp'.2.2]
    exact htold
  unfold Download.step at hstep
  split at hstep
  · next w a hstage =>
      obtain ⟨r, hr, rfl⟩ := Option.map_eq_some_iff.mp hstep
      have hplaces := h.places hstage
      refine ⟨fun _ => hplaces.step hr, fun hne => absurd hstage hne,
        fun _ => (h.round (.inl hstage)).step (e := (w, a)) hplaces hout hr,
        fun hne => absurd hstage hne, fun hne => absurd hstage hne⟩
  · next peers hstage =>
      have hout : d.stage ≠ .running ∧ d.stage ≠ .resetting ∧ d.stage ≠ .reading := by
        rw [hstage]
        exact ⟨by decide, by decide, by decide⟩
      split at hstep
      · split at hstep
        · split at hstep
          · cases hstep
          · obtain rfl := Option.some.inj hstep
            have hsame := hquiet (p := d.stage) (n := d.rounds + 1) (.inl hstage) (.inl hstage)
            exact hsame
        · obtain rfl := Option.some.inj hstep
          have htold := h.told hout.1 hout.2.1 hout.2.2
          rw [hstage, Stage.bits, List.append_nil] at htold
          -- the round starts with a counter of zero and nothing untold
          have hround := prompt_start (s := d.toShared) (h.cleared hout.1 hout.2.1) htold
            (peers * connsPerPeer peers)
          exact ⟨fun _ => Round.onePlace_start _ _, fun hne => absurd rfl hne, fun _ => hround,
            fun hne => absurd rfl hne, fun hne => absurd rfl hne⟩
      · cases hstep
  · next hstage =>
      split at hstep
      · next hall =>
          obtain rfl := Option.some.inj hstep
          exact ⟨fun hrun => (by cases hrun), fun _ => hall, fun _ => h.round (.inl hstage),
            fun _ hne => absurd rfl hne, fun _ hne => absurd rfl hne⟩
      · cases hstep
  · next hstage =>
      obtain rfl := Option.some.inj hstep
      have hended := h.ended (by rw [hstage]; decide)
      refine ⟨fun hrun => (by cases hrun), fun _ => hended, fun hrun => ?_, fun _ _ => rfl,
        fun _ _ hne => absurd rfl hne⟩
      rcases hrun with hrun | hrun <;> cases hrun
  · next hstage =>
      obtain rfl := Option.some.inj hstep
      have hended := h.ended (by rw [hstage]; decide)
      have hcleared := h.cleared (by rw [hstage]; decide) (by rw [hstage]; decide)
      refine ⟨fun hrun => (by cases hrun), fun _ => hended, fun hrun => ?_, fun _ _ => hcleared,
        fun _ _ _ => ?_⟩
      · rcases hrun with hrun | hrun <;> cases hrun
      -- the bitmap that has been read has all that the store has
      · exact untold_eq_empty (List.mem_append_right _ (List.mem_singleton_self _))
  · next bits out hstage =>
      obtain rfl : out = true := hout
      obtain rfl := Option.some.inj hstep
      have hended := h.ended (by rw [hstage]; rintro ⟨⟩)
      have hcleared := h.cleared (by rw [hstage]; rintro ⟨⟩) (by rw [hstage]; rintro ⟨⟩)
      have htold := h.told (by rw [hstage]; rintro ⟨⟩) (by rw [hstage]; rintro ⟨⟩)
        (by rw [hstage]; rintro ⟨⟩)
      rw [hstage, Stage.bits] at htold
      refine ⟨fun hrun => (by cases hrun), fun _ => hended, fun hrun => ?_, fun _ _ => hcleared,
        fun _ _ _ => ?_⟩
      · rcases hrun with hrun | hrun <;> cases hrun
      · dsimp only
        rw [Stage.bits, List.append_nil]
        exact htold
  · next hstage =>
      split at hstep
      · cases hstep
      · obtain rfl := Option.some.inj hstep
        refine hquiet (n := d.rounds) (.inl hstage) ?_
        split
        · exact .inr (.inl rfl)
        · exact .inr (.inr (.inr (.inr rfl)))
  · next hstage =>
      obtain rfl := Option.some.inj hstep
      exact hquiet (n := d.rounds) (.inr (.inl hstage)) (.inr (.inr (.inl rfl)))
  · next hstage =>
      obtain rfl := Option.some.inj hstep
      exact hquiet (n := d.rounds) (.inr (.inr hstage)) (.inr (.inr (.inr (.inl rfl))))
  · cases hstep

/-- **How far the announcements lag behind**, as long as their requests are sent: in every state of
a job in which no worker is on its way to announce, fewer than `announceEveryPieces` pieces that
the job has got are in no announcement, apart from those that are not counted yet; and between the
rounds and at the end of the job, failed or not, none is. -/
theorem announce_lag (H : Str → Str) (job : DownloadJob) (st : PieceStore)
    (hrun : Run (step H job) (fun _ e => e.GetsOut) (start st) d) :
    (d.stage = .running → (∀ x ∈ d.workers, x.phase.Silent ∨ x.phase = .counting) →
      (untold st d.store d.sent).card < announceEveryPieces + d.counting) ∧
    (d.stage = .between ∨ d.Finished ∨ d.stage = .failed → untold st d.store d.sent = ∅) := by
  have hfirst : untold st st [] = ∅ := by
    rw [Finset.eq_empty_iff_forall_notMem]
    intro i hi
    obtain ⟨hhave, hbase, -⟩ := mem_untold.mp hi
    exact Bool.noConfusion (hhave.symm.trans hbase)
  have hstart : (start st).Prompt st :=
    ⟨fun h => (by cases h), fun _ x hx => (by cases hx),
      fun h => (by rcases h with h | h <;> cases h),
      fun _ _ => rfl, fun _ _ _ => hfirst⟩
  have hprompt : d.Prompt st := hrun.invariant hstart fun hI hout hstep => hI.step hout hstep
  constructor
  · intro hrunning hsilent
    obtain ⟨hfresh, hdue⟩ := hprompt.round (.inl hrunning)
    have hnone : d.underWay = [] := by
      rw [Round.underWay, List.filterMap_eq_nil_iff]
      intro x hx
      rcases hsilent x hx with hx | hx
      · exact hx.bits
      · rw [hx]
        rfl
    have hno : ∀ p : WorkerPhase, ¬ p.Silent → p ≠ .counting → ¬ ∃ x ∈ d.workers, x.phase = p := by
      rintro p hp hne ⟨x, hx, rfl⟩
      exact (hsilent x hx).elim hp hne
    have hle := hfresh.resolve_left (hno _ id (by rintro ⟨⟩))
    have hlt := hdue.resolve_left (hno _ id (by rintro ⟨⟩))
    rw [hnone, List.append_nil] at hle
    omega
  · intro hstage
    have hout : d.stage ≠ .running ∧ d.stage ≠ .resetting ∧ d.stage ≠ .reading ∧
        d.stage.bits = [] := by
      rcases hstage with h | (h | h | h) | h <;>
        (rw [h]; exact ⟨by decide, by decide, by decide, rfl⟩)
    have htold := hprompt.told hout.1 hout.2.1 hout.2.2.1
    rwa [hout.2.2.2, List.append_nil] at htold

/-- A worker has got a piece and not counted it. -/
theorem announce_lag_onePeer :
    let st : PieceStore := ⟨1, 1, .empty 1, [0]⟩
    let d := (exec (step id Round.oneByte) (start st) onePeer).get (by decide +kernel)
    (untold st d.store d.sent).card < announceEveryPieces + d.counting := by
  intro st d
  have hmeets : Meets (step id Round.oneByte) (fun _ e => e.GetsOut) (start st) onePeer :=
    meets_of_forall (p := JobEvent.GetsOut) (by simp [onePeer, JobEvent.GetsOut, Act.GetsOut]) _
  have hrun := Run.of_exec hmeets (Option.some_get (by decide +kernel)).symm
  refine (announce_lag id Round.oneByte st hrun).1 (by decide +kernel) fun x hx => ?_
  have hphases : ∀ x ∈ d.workers, x.phase = .connecting ∨ x.phase = .counting := by
    decide +kernel
  rcases hphases x hx with hphase | hphase
  · rw [hphase]
    exact .inl trivial
  · exact .inr hphase

end Download

end P2PShare
