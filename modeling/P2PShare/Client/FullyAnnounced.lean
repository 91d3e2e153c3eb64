import P2PShare.Client.Whole

/-!
The announcements of a download that is done.

* `PieceStore.complete_resumeScan`: when `resume_scan` leaves nothing to download.
* `Flushed` (**the invariant**): between two rounds and behind the loop, the last bitmap
  that was announced is that of the store if the store is whole, as long as the
  announcements at the end of a round are sent.
* `Unannounced`: a job that finds everything in place has no round, and says nothing.
* `Trail`, `ToldLast`: who has read the bitmap since the last piece was marked, and whether
  the announcement that was sent last had such a bitmap; `Trailed` (**the invariant**) is what
  this says about the bitmaps themselves.
* `fully_announced_iff`: a job that is done has announced every piece at the end exactly
  when the file was not whole at the start and `ToldLast` holds.
-/

namespace P2PShare

open PieceStore

namespace PieceStore

/-- Nothing is left to download when every piece passes the scan. -/
lemma complete_resumeScan (H : Str → Str) (seekData : ℕ → Option ℕ) (fails : ℕ → Bool)
    {hashes : List Str} {st : PieceStore} (hempty : ∀ i, st.have_.test i = false)
    (hcount : st.pieceCount = hashes.length) :
    (st.resumeScan H hashes seekData fails).complete = true ↔
      ∀ i < hashes.length, st.valid H hashes seekData fails i = true := by
  have hrange : ∀ k ∈ List.range (min st.pieceCount hashes.length), k < st.pieceCount :=
    fun k hk => lt_of_lt_of_le (List.mem_range.mp hk) (Nat.min_le_left _ _)
  have htest : ∀ i < hashes.length, (st.resumeScan H hashes seekData fails).have_.test i =
      st.valid H hashes seekData fails i := by
    intro i hi
    rw [resumeScan]
    dsimp only
    rw [Bitmap.test_foldl_set _ _ hrange, hempty i, Bool.false_or]
    simp [hcount, hi]
  rw [complete_iff]
  show (∀ i < st.pieceCount, _) ↔ _
  rw [hcount]
  exact forall₂_congr fun i hi => by rw [htest i hi]

end PieceStore

/-! ### The announcement that was sent last -/

/-- The threads that have read the bitmap since the last piece was marked (`none` is `run_job`),
and whether the announcement that was sent last is one of theirs. -/
structure Trail where
  readers : List (Option ℕ)
  told : Bool

/-- What an event adds. A mark makes every bitmap that has been read an old one. -/
def Trail.step (t : Trail) : JobEvent → Trail
  | .worker w .read => { t with readers := some w :: t.readers }
  | .worker _ .mark => ⟨[], false⟩
  | .worker w (.send true) => { t with told := decide (some w ∈ t.readers) }
  | .read => { t with readers := none :: t.readers }
  | .send true => { t with told := decide (none ∈ t.readers) }
  | _ => t

/-- **The condition**: an announcement has been sent, and no piece has been marked after the
last one that was sent read its bitmap. -/
def ToldLast (es : List JobEvent) : Prop := (es.foldl Trail.step ⟨[], false⟩).told = true

/-- A piece that is held has no bit here. -/
def Dated (bits : List UInt8) (st : PieceStore) : Prop :=
  ∃ i < st.pieceCount, st.have_.test i = true ∧ Bitmap.testBytes bits i = false

/-- What a bitmap is now that has been read after the last mark, or before it. -/
def Current (fresh : Bool) (bits : List UInt8) (st : PieceStore) : Prop :=
  if fresh then bits = st.have_.bytes else Dated bits st

section

variable {fresh : Bool} {bits : List UInt8} {st st' : PieceStore}

/-- Only the bitmap of the store is looked at. -/
lemma Current.of_same (h : Current fresh bits st) (hbits : st'.have_.bytes = st.have_.bytes)
    (hcount : st'.pieceCount = st.pieceCount) : Current fresh bits st' := by
  cases fresh with
  | true => exact Eq.trans h hbits.symm
  | false =>
      obtain ⟨i, hi, hheld, hbit⟩ : Dated bits st := h
      refine ⟨i, hcount ▸ hi, ?_, hbit⟩
      rw [Bitmap.test, hbits]
      exact hheld

/-- A mark makes every bitmap an old one. -/
lemma Current.mark (h : Current fresh bits st) {k : ℕ} (hk : k < st.pieceCount)
    (hnew : st.have_.test k = false) : Current false bits (st.mark k) := by
  cases fresh with
  | true =>
      obtain rfl : bits = st.have_.bytes := h
      refine ⟨k, hk, ?_, hnew⟩
      change (st.have_.set k).test k = true
      rw [Bitmap.test_set _ hk, decide_eq_true rfl, Bool.or_true]
  | false =>
      obtain ⟨i, hi, hheld, hbit⟩ : Dated bits st := h
      exact ⟨i, hi, Bitmap.test_set_of_test _ hk hheld, hbit⟩

end

/-- An act that neither reads the bitmap nor marks a piece nor sends an announcement. -/
def Act.Quiet : Act → Prop
  | read | mark | send _ => False
  | connect _ | pop | fetch _ | pwrite _ | giveBack | count _ | reset => True

lemma Trail.step_quiet (t : Trail) (w : ℕ) {a : Act} (ha : a.Quiet) : t.step (.worker w a) = t := by
  cases a with
  | read | mark | send => exact absurd ha id
  | connect | pop | fetch | pwrite | giveBack | count | reset => rfl

/-- **What a step of a worker does to the bitmaps**: nothing, or it marks a piece, reads the
bitmap or announces it. -/
inductive Heard (s : Shared) (x : Worker) : Act → Shared → Worker → Prop
  | quiet {a : Act} {s' : Shared} {x' : Worker} (ha : a.Quiet)
      (hbits : s'.store.have_.bytes = s.store.have_.bytes)
      (hcount : s'.store.pieceCount = s.store.pieceCount) (hsent : s'.sent = s.sent)
      (hx : ∀ bits, x'.phase ≠ .sending bits) : Heard s x a s' x'
  | marked {i put : ℕ} {data : Str} (hx : x.phase = .writing i data put) :
      Heard s x .mark { s with store := s.store.mark i } ⟨.counting, 0⟩
  | read : Heard s x .read s { x with phase := .sending s.store.have_.bytes }
  | sent {bits : List UInt8} {out : Bool} (hx : x.phase = .sending bits) :
      Heard s x (.send out) { s with sent := if out then s.sent ++ [bits] else s.sent }
        { x with phase := .top }

lemma Worker.step_heard {H : Str → Str} {job : DownloadJob} {s s' : Shared} {x x' : Worker}
    {a : Act} (h : x.step H job s a = some (s', x')) : Heard s x a s' x' := by
  unfold Worker.step at h
  split at h
  · next ok hphase =>
      obtain ⟨rfl, rfl⟩ := Prod.mk.inj (Option.some.inj h)
      refine .quiet trivial rfl rfl rfl fun bits => ?_
      cases ok <;> rintro ⟨⟩
  · split at h
    · obtain ⟨rfl, rfl⟩ := Prod.mk.inj (Option.some.inj h)
      exact .quiet trivial rfl rfl rfl (by rintro bits ⟨⟩)
    · obtain ⟨rfl, rfl⟩ := Prod.mk.inj (Option.some.inj h)
      exact .quiet trivial rfl rfl rfl (by rintro bits ⟨⟩)
  · split at h
    · obtain ⟨rfl, rfl⟩ := Prod.mk.inj (Option.some.inj h)
      exact .quiet trivial rfl rfl rfl (by rintro bits ⟨⟩)
    · split at h
      · obtain ⟨rfl, rfl⟩ := Prod.mk.inj (Option.some.inj h)
        exact .quiet trivial rfl rfl rfl (by rintro bits ⟨⟩)
      · obtain ⟨rfl, rfl⟩ := Prod.mk.inj (Option.some.inj h)
        exact .quiet trivial rfl rfl rfl (by rintro bits ⟨⟩)
  · split at h
    · cases h
    · split at h
      · obtain ⟨rfl, rfl⟩ := Prod.mk.inj (Option.some.inj h)
        exact .quiet trivial rfl rfl rfl (by rintro bits ⟨⟩)
      · obtain ⟨rfl, rfl⟩ := Prod.mk.inj (Option.some.inj h)
        exact .quiet trivial rfl rfl rfl (by rintro bits ⟨⟩)
      · split at h
        · cases h
        · obtain ⟨rfl, rfl⟩ := Prod.mk.inj (Option.some.inj h)
          -- `pwrite` leaves the bitmap alone
          exact .quiet trivial rfl rfl rfl (by rintro bits ⟨⟩)
  · next hphase =>
      split at h
      · obtain ⟨rfl, rfl⟩ := Prod.mk.inj (Option.some.inj h)
        exact .marked hphase
      · cases h
  · obtain ⟨rfl, rfl⟩ := Prod.mk.inj (Option.some.inj h)
    refine .quiet trivial rfl rfl rfl fun bits => ?_
    dsimp only
    split <;> rintro ⟨⟩
  · obtain ⟨rfl, rfl⟩ := Prod.mk.inj (Option.some.inj h)
    refine .quiet trivial rfl rfl rfl fun bits => ?_
    dsimp only
    split <;> rintro ⟨⟩
  · obtain ⟨rfl, rfl⟩ := Prod.mk.inj (Option.some.inj h)
    exact .quiet trivial rfl rfl rfl (by rintro bits ⟨⟩)
  · obtain ⟨rfl, rfl⟩ := Prod.mk.inj (Option.some.inj h)
    exact .read
  · next bits out hphase =>
      obtain ⟨rfl, rfl⟩ := Prod.mk.inj (Option.some.inj h)
      exact .sent hphase
  · cases h

namespace Download

variable {H : Str → Str} {job : DownloadJob} {d d' : Download}

/-- **The invariant**: a store that is whole when no round is on has been announced, and
nothing has been announced since. -/
structure Flushed (d : Download) : Prop where
  sending : ∀ bits, d.stage = .sending bits → bits = d.store.have_.bytes
  last : d.stage = .between ∨ d.Finished → d.store.complete = true →
    d.sent.getLast? = some d.store.have_.bytes

/-- **The step lemma**: the threads have joined before `run_job` reads the bitmap, so the
bits that it sends are those of the store at the end of the round. -/
lemma Flushed.step (h : d.Flushed) {e : JobEvent} (hout : e ≠ .send false)
    (hstep : d.step H job e = some d') : d'.Flushed := by
  unfold Download.step at hstep
  split at hstep
  · next hstage =>
      obtain ⟨r, -, rfl⟩ := Option.map_eq_some_iff.mp hstep
      exact ⟨by simp [hstage], by simp [hstage, Finished]⟩
  · next hstage =>
      split at hstep
      · next hloop =>
          split at hstep
          · split at hstep
            · cases hstep
            · obtain rfl := Option.some.inj hstep
              exact ⟨h.sending, h.last⟩
          · obtain rfl := Option.some.inj hstep
            exact ⟨by simp, by simp [Finished]⟩
      · cases hstep
  · split at hstep
    · obtain rfl := Option.some.inj hstep
      exact ⟨by simp, by simp [Finished]⟩
    · cases hstep
  · obtain rfl := Option.some.inj hstep
    exact ⟨by simp, by simp [Finished]⟩
  · obtain rfl := Option.some.inj hstep
    exact ⟨by simp, by simp [Finished]⟩
  · next bits out hstage =>
      obtain rfl := Option.some.inj hstep
      refine ⟨by simp, fun _ _ => ?_⟩
      cases out with
      | false => exact absurd rfl hout
      | true =>
          -- what the flush sends is the bitmap of the store
          rw [h.sending bits hstage]
          exact List.getLast?_concat
  · next hstage =>
      split at hstep
      · cases hstep
      · obtain rfl := Option.some.inj hstep
        refine ⟨fun bits hbits => ?_, fun _ hwhole => h.last (.inl hstage) hwhole⟩
        dsimp only at hbits
        split at hbits
        · cases hbits
        · cases hbits
  · next hstage =>
      obtain rfl := Option.some.inj hstep
      exact ⟨by simp, fun _ hwhole => h.last (.inr (.inl hstage)) hwhole⟩
  · next hstage =>
      obtain rfl := Option.some.inj hstep
      exact ⟨by simp, fun _ hwhole => h.last (.inr (.inr (.inl hstage))) hwhole⟩
  · cases hstep

lemma flushed_start {st : PieceStore} (hmissing : st.complete = false) : (start st).Flushed where
  sending := by simp [start]
  last := fun _ hwhole => by
    rw [show (start st).store.complete = false from hmissing] at hwhole
    cases hwhole

/-- Everything is in place and no round has been started. -/
structure Unannounced (d : Download) : Prop where
  whole : d.store.complete = true
  stage : d.stage = .between ∨ d.Finished
  sent : d.sent = []

/-- **The step lemma**: the loop is left at once. -/
lemma Unannounced.step (h : d.Unannounced) {e : JobEvent} (hstep : d.step H job e = some d') :
    d'.Unannounced := by
  have hwhole := h.whole
  have hstages : d.stage = .between ∨ d.stage = .sharing ∨ d.stage = .shared ∨ d.stage = .done :=
    h.stage
  rcases hstages with hstage | hstage | hstage | hstage
  · cases e with
    | finish =>
        obtain rfl : { d with stage := .sharing } = d' := by
          simpa [Download.step, hstage, hwhole] using hstep
        exact ⟨hwhole, .inr (.inl rfl), h.sent⟩
    | _ => simp [Download.step, hstage, hwhole] at hstep
  · cases e with
    | addShare =>
        obtain rfl : { d with stage := .shared } = d' := by
          simpa [Download.step, hstage] using hstep
        exact ⟨hwhole, .inr (.inr (.inl rfl)), h.sent⟩
    | _ => simp [Download.step, hstage] at hstep
  · cases e with
    | setDone =>
        obtain rfl : { d with stage := .done } = d' := by
          simpa [Download.step, hstage] using hstep
        exact ⟨hwhole, .inr (.inr (.inr rfl)), h.sent⟩
    | _ => simp [Download.step, hstage] at hstep
  · simp [Download.step, hstage] at hstep

/-- **The invariant**: what a worker is about to send, and what was sent last, is the bitmap of
the store if it has been read since the last mark, and without a piece that is held if not. -/
structure Trailed (t : Trail) (d : Download) : Prop where
  workers : ∀ (w : ℕ) (x : Worker) (bits : List UInt8), d.workers[w]? = some x →
    x.phase = .sending bits → Current (decide (some w ∈ t.readers)) bits d.store
  job : ∀ bits, d.stage = .sending bits → none ∈ t.readers ∧ bits = d.store.have_.bytes
  last : ∀ bits, d.sent.getLast? = some bits → Current t.told bits d.store
  told : t.told = true → d.sent ≠ []

variable {t : Trail}

/-- `run_job` goes on without reading the bitmap or announcing. -/
lemma Trailed.of_same (h : Trailed t d) (hstore : d'.store = d.store)
    (hworkers : d'.workers = d.workers) (hsent : d'.sent = d.sent)
    (hstage : ∀ bits, d'.stage ≠ .sending bits) : Trailed t d' := by
  refine ⟨?_, fun bits hbits => absurd hbits (hstage bits), ?_, ?_⟩
  · rw [hworkers, hstore]
    exact h.workers
  · rw [hsent, hstore]
    exact h.last
  · rw [hsent]
    exact h.told

/-- **The step lemma for a worker.** -/
lemma Trailed.worker (h : Trailed t d) (hplaces : d.OnePlace) (hstage : d.stage = .running)
    {w : ℕ} {a : Act} {r : Round} (hround : d.toRound.step H job (w, a) = some r) :
    Trailed (t.step (.worker w a)) { d with toRound := r } := by
  obtain ⟨x, s', x', hx, hworker, rfl⟩ := Round.step_worker hround
  have hjob : ∀ {t' : Trail} {bits : List UInt8}, d.stage = .sending bits →
      none ∈ t'.readers ∧ bits = s'.store.have_.bytes := by
    intro t' bits hbits
    rw [hstage] at hbits
    cases hbits
  cases Worker.step_heard hworker with
  | quiet ha hbits hcount hsent hquiet =>
      rw [t.step_quiet w ha]
      refine ⟨fun w' y bits hy hphase => ?_, fun _ => hjob, fun bits hlast => ?_, fun htold => ?_⟩
      · rcases getElem?_set_or hx hy with ⟨-, rfl⟩ | ⟨-, hy⟩
        · exact absurd hphase (hquiet bits)
        · exact (h.workers w' y bits hy hphase).of_same hbits hcount
      · dsimp only at hlast
        rw [hsent] at hlast
        exact (h.last bits hlast).of_same hbits hcount
      · dsimp only
        rw [hsent]
        exact h.told htold
  | @marked k put data hphase =>
      -- the piece is in the worker's hands, so it has not been marked before
      have hhand : x.phase.hand = some k := by rw [hphase]; rfl
      obtain ⟨hk, hhave, -⟩ := hplaces.of_hand hx hhand
      have hnew : d.store.have_.test k = false := by
        rw [PieceStore.have', decide_eq_true hk, Bool.true_and] at hhave
        exact hhave
      refine ⟨fun w' y bits hy hsending => ?_, fun _ => hjob, fun bits hlast => ?_, by rintro ⟨⟩⟩
      · rcases getElem?_set_or hx hy with ⟨-, rfl⟩ | ⟨-, hy⟩
        · cases hsending
        · exact (h.workers w' y bits hy hsending).mark hk hnew
      · exact (h.last bits hlast).mark hk hnew
  | read =>
      refine ⟨fun w' y bits hy hsending => ?_, fun _ => hjob, h.last, h.told⟩
      rcases getElem?_set_or hx hy with ⟨rfl, rfl⟩ | ⟨hw, hy⟩
      · cases hsending
        simp only [Trail.step, List.mem_cons_self, decide_true]
        exact rfl
      · have hmem : some w' ∈ some w :: t.readers ↔ some w' ∈ t.readers := by
          simp [hw]
        simp only [Trail.step, hmem]
        exact h.workers w' y bits hy hsending
  | @sent bits out hphase =>
      have hothers : ∀ w' y b, (d.workers.set w { x with phase := .top })[w']? = some y →
          y.phase = .sending b → Current (decide (some w' ∈ t.readers)) b d.store := by
        intro w' y b hy hsending
        rcases getElem?_set_or hx hy with ⟨-, rfl⟩ | ⟨-, hy⟩
        · cases hsending
        · exact h.workers w' y b hy hsending
      cases out with
      | false => exact ⟨hothers, fun _ => hjob, h.last, h.told⟩
      | true =>
          refine ⟨hothers, fun _ => hjob, fun b hlast => ?_, fun _ => List.concat_ne_nil _ _⟩
          obtain rfl : bits = b := Option.some.inj (List.getLast?_concat.symm.trans hlast)
          exact h.workers w x bits hx hphase

/-- **The step lemma.** -/
lemma Trailed.step (h : Trailed t d) (hs : d.Sound H job) {e : JobEvent}
    (hstep : d.step H job e = some d') : Trailed (t.step e) d' := by
  unfold Download.step at hstep
  split at hstep
  · next w a hstage =>
      obtain ⟨r, hr, rfl⟩ := Option.map_eq_some_iff.mp hstep
      exact h.worker (hs.round hstage).places hstage hr
  · next hstage =>
      split at hstep
      · split at hstep
        · split at hstep
          · cases hstep
          · obtain rfl := Option.some.inj hstep
            exact h.of_same rfl rfl rfl (by rw [hstage]; rintro bits ⟨⟩)
        · obtain rfl := Option.some.inj hstep
          refine ⟨fun w x bits hx hsending => ?_, by rintro bits ⟨⟩, h.last, h.told⟩
          obtain rfl := List.eq_of_mem_replicate (List.mem_of_getElem? hx)
          cases hsending
      · cases hstep
  · split at hstep
    · obtain rfl := Option.some.inj hstep
      exact h.of_same rfl rfl rfl (by rintro bits ⟨⟩)
    · cases hstep
  · obtain rfl := Option.some.inj hstep
    exact h.of_same rfl rfl rfl (by rintro bits ⟨⟩)
  · obtain rfl := Option.some.inj hstep
    refine ⟨fun w x bits hx hsending => ?_, fun bits hbits => ?_, h.last, h.told⟩
    -- `run_job` reads the bitmap, which does not change who else has read it
    · have hmem : some w ∈ none :: t.readers ↔ some w ∈ t.readers := by simp
      simp only [Trail.step, hmem]
      exact h.workers w x bits hx hsending
    · cases hbits
      exact ⟨List.mem_cons_self, rfl⟩
  · next bits out hstage =>
      obtain rfl := Option.some.inj hstep
      obtain ⟨hmem, hbits⟩ := h.job bits hstage
      cases out with
      | false => exact ⟨h.workers, by rintro b ⟨⟩, h.last, h.told⟩
      | true =>
          refine ⟨h.workers, by rintro b ⟨⟩, fun b hlast => ?_, fun _ => List.concat_ne_nil _ _⟩
          obtain rfl : bits = b := Option.some.inj (List.getLast?_concat.symm.trans hlast)
          -- what has been sent is the bitmap as it was read
          simp only [Trail.step, decide_eq_true hmem]
          exact hbits
  · split at hstep
    · cases hstep
    · obtain rfl := Option.some.inj hstep
      refine h.of_same rfl rfl rfl fun bits hbits => ?_
      dsimp only at hbits
      split at hbits <;> cases hbits
  · obtain rfl := Option.some.inj hstep
    exact h.of_same rfl rfl rfl (by rintro bits ⟨⟩)
  · obtain rfl := Option.some.inj hstep
    exact h.of_same rfl rfl rfl (by rintro bits ⟨⟩)
  · cases hstep

/-- **The run lemma**, for given events. -/
lemma Trailed.after (h : Trailed t d) (hs : d.Sound H job) {es : List JobEvent}
    (hexec : exec (Download.step H job) d es = some d') : Trailed (es.foldl Trail.step t) d' := by
  induction es generalizing t d with
  | nil =>
      obtain rfl : d = d' := Option.some.inj hexec
      exact h
  | cons e es ih =>
      obtain ⟨d₁, hstep, hrest⟩ := Option.bind_eq_some_iff.mp hexec
      exact ih (h.step hs hstep) (hs.step hstep) hrest

lemma trailed_start (st : PieceStore) : Trailed ⟨[], false⟩ (start st) where
  workers w x bits hx := by cases hx
  job := by rintro bits ⟨⟩
  last := by rintro bits ⟨⟩
  told := by rintro ⟨⟩

/-! ### The end of a job -/

/-- The last announcement has the bit of every piece. -/
def FullyAnnounced (d : Download) (job : DownloadJob) : Prop :=
  ∃ bits, d.sent.getLast? = some bits ∧
    ∀ i < job.pieceHashes.length, Bitmap.testBytes bits i = true

/-- A whole store has been announced just if the last bitmap that was sent was read after the
last mark. -/
lemma Trailed.fullyAnnounced_iff (h : Trailed t d) (hs : d.Sound H job)
    (hwhole : d.store.complete = true) : d.FullyAnnounced job ↔ t.told = true := by
  constructor
  · rintro ⟨bits, hlast, hall⟩
    have hcurrent := h.last bits hlast
    by_contra htold
    rw [Bool.eq_false_of_not_eq_true htold] at hcurrent
    obtain ⟨i, hi, -, hbit⟩ : Dated bits d.store := hcurrent
    rw [hall i (hs.count ▸ hi)] at hbit
    cases hbit
  · intro htold
    refine ⟨_, List.getLast?_eq_some_getLast (h.told htold), ?_⟩
    have hcurrent := h.last _ (List.getLast?_eq_some_getLast (h.told htold))
    rw [htold] at hcurrent
    rw [show d.sent.getLast (h.told htold) = d.store.have_.bytes from hcurrent, ← hs.count]
    exact (complete_iff d.store).mp hwhole

/-- **A job that is done has announced every piece** exactly when some piece did not pass
the scan of the file that was there before, and the last announcement that was sent read the
bitmap after the last mark; which it did if no announcement at the end of a round was lost. -/
theorem fully_announced_iff (H : Str → Str) (job : DownloadJob) (file : Str)
    (seekData : ℕ → Option ℕ) (fails : ℕ → Bool) {st : PieceStore}
    (hopen : openForDownload file job.size job.pieceHashes.length = some st) {es : List JobEvent}
    (hexec : exec (step H job) (start (st.resumeScan H job.pieceHashes seekData fails)) es = some d)
    (hdone : d.stage = .done) :
    (d.FullyAnnounced job ↔
      (∃ i < job.pieceHashes.length, st.valid H job.pieceHashes seekData fails i = false) ∧
        ToldLast es) ∧
    (.send false ∉ es → (d.FullyAnnounced job ↔
      ∃ i < job.pieceHashes.length, st.valid H job.pieceHashes seekData fails i = false)) := by
  have hsound : d.Sound H job :=
    exec_invariant (fun hI hstep => hI.step hstep) (sound_start hopen) hexec
  have hcomplete := hsound.whole (.inr (.inr hdone))
  have htold :=
    ((trailed_start _).after (sound_start hopen) hexec).fullyAnnounced_iff hsound hcomplete
  obtain ⟨-, hcount, hempty⟩ := of_openForDownload hopen
  have hscan := complete_resumeScan H seekData fails hempty hcount
  -- the scan finds a piece missing, or the job ends without a round
  cases hwhole : (st.resumeScan H job.pieceHashes seekData fails).complete with
  | false =>
      have hinvalid : ∃ i < job.pieceHashes.length,
          st.valid H job.pieceHashes seekData fails i = false := by
        by_contra hall
        have hvalid := hscan.mpr fun i hi => by
          by_contra hne
          exact hall ⟨i, hi, by simpa using hne⟩
        rw [hwhole] at hvalid
        cases hvalid
      refine ⟨htold.trans (and_iff_right hinvalid).symm, fun hout => iff_of_true ?_ hinvalid⟩
      have hmeets : Meets (step H job) (fun _ e => e ≠ .send false)
          (start (st.resumeScan H job.pieceHashes seekData fails)) es :=
        meets_of_forall (p := fun e => e ≠ JobEvent.send false)
          (fun e he heq => hout (heq ▸ he)) _
      -- no flush is lost, so the last one comes after the last mark
      have hflushed : d.Flushed := (Run.of_exec hmeets hexec).invariant (flushed_start hwhole)
        fun hI hne hstep => hI.step hne hstep
      refine ⟨_, hflushed.last (.inr (.inr (.inr hdone))) hcomplete, ?_⟩
      rw [← hsound.count]
      exact (complete_iff d.store).mp hcomplete
  | true =>
      have hstart : (start (st.resumeScan H job.pieceHashes seekData fails)).Unannounced :=
        ⟨hwhole, .inl rfl, rfl⟩
      have hsilent : d.Unannounced := exec_invariant (fun hI hstep => hI.step hstep) hstart hexec
      have hnot : ¬ d.FullyAnnounced job := by
        rintro ⟨bits, hlast, -⟩
        rw [hsilent.sent] at hlast
        cases hlast
      have hvalid : ¬ ∃ i < job.pieceHashes.length,
          st.valid H job.pieceHashes seekData fails i = false := by
        rintro ⟨i, hi, hinvalid⟩
        rw [hscan.mp hwhole i hi] at hinvalid
        cases hinvalid
      exact ⟨iff_of_false hnot fun h => hvalid h.1, fun _ => iff_of_false hnot hvalid⟩

/-- The job gets there. -/
lemma isSome_toTheEnd :
    (exec (step id Round.oneByte)
      (start (resumeScan id [[9]] (fun _ => some 0) (fun _ => false) ⟨1, 1, .empty 1, [0]⟩))
        toTheEnd).isSome = true := by
  decide +kernel

theorem fully_announced_toTheEnd :
    let d := (exec (step id Round.oneByte)
      (start (resumeScan id [[9]] (fun _ => some 0) (fun _ => false) ⟨1, 1, .empty 1, [0]⟩))
        toTheEnd).get isSome_toTheEnd
    d.FullyAnnounced Round.oneByte := by
  intro d
  exact (fully_announced_iff id Round.oneByte [] (fun _ => some 0) (fun _ => false)
    (by decide +kernel) (Option.some_get isSome_toTheEnd).symm (by decide +kernel)).1.mpr
      ⟨⟨0, by decide +kernel, by decide +kernel⟩, rfl⟩

/-- **Done and not announced**: the file is at its place before the job starts, so there
is no round, and no message to the tracker. -/
theorem done_unannounced :
    ∃ st d, openForDownload [9] Round.oneByte.size Round.oneByte.pieceHashes.length = some st ∧
      Run (step id Round.oneByte) (fun _ _ => True)
        (start (st.resumeScan id Round.oneByte.pieceHashes (fun _ => some 0) fun _ => false)) d ∧
      d.stage = .done ∧ d.sent = [] ∧ ¬ d.FullyAnnounced Round.oneByte := by
  have hopen : openForDownload [9] Round.oneByte.size Round.oneByte.pieceHashes.length =
      some ⟨1, 1, .empty 1, [9]⟩ := by
    decide +kernel
  have hmeets : Meets (step id Round.oneByte) (fun _ _ => True)
      (start (resumeScan id Round.oneByte.pieceHashes (fun _ => some 0) (fun _ => false)
        ⟨1, 1, .empty 1, [9]⟩)) [.finish, .addShare, .setDone] :=
    meets_of_forall (p := fun _ => True) (fun _ _ => trivial) _
  have hrun := Run.of_exec hmeets (Option.some_get (by decide +kernel)).symm
  have hsent : ((exec (step id Round.oneByte)
      (start (resumeScan id Round.oneByte.pieceHashes (fun _ => some 0) (fun _ => false)
        ⟨1, 1, .empty 1, [9]⟩)) [.finish, .addShare, .setDone]).get (by decide +kernel)).sent =
          [] := by
    decide +kernel
  refine ⟨_, _, hopen, hrun, by decide +kernel, hsent, ?_⟩
  rintro ⟨bits, hlast, -⟩
  rw [hsent] at hlast
  cases hlast

end Download

end P2PShare
