import P2PShare.Client.Round

/-!
`DownloadManager::run_job`: the rounds of a download.

* `Stage`: where `run_job` is; `Download.step` is one step of it or of one of the
  workers of the round that is on.
* `Round.Sound` (**the invariant of a round**): each index is in one place, what is
  held is verified, and what a worker has written of a piece is there.
* `Round.Sound.step` is the step lemma, `Download.Sound` carries it over the rounds,
  and `held_verified` says that every piece marked as held is a verified piece on
  disk.
-/

namespace P2PShare

open Extent PieceStore

/-- `kTargetConnections`. -/
def targetConnections : ℕ := 8

/-- `kMaxRounds`. -/
def maxRounds : ℕ := 5

/-- `conns_per_peer`. -/
def connsPerPeer (peers : ℕ) : ℕ := max 1 (targetConnections / peers)

/-! ### The invariant of a round -/

namespace Round

/-- **The invariant of a round.** -/
structure Sound (H : Str → Str) (job : DownloadJob) (r : Round) : Prop where
  places : r.OnePlace
  held : ∀ i, r.store.have_.test i = true →
    i < r.store.pieceCount ∧ r.store.Verified H job.pieceHashes i
  writing : ∀ (w : ℕ) (x : Worker), r.workers[w]? = some x →
    ∀ (i put : ℕ) (data : Str), x.phase = .writing i data put →
      data.length = r.store.pieceLen i ∧ H data = job.pieceHash i ∧
        Holds r.store.file (pieceOff i) (data.take put)

variable {H : Str → Str} {job : DownloadJob} {r r' : Round}

/-- **The step lemma.** -/
theorem Sound.step (h : r.Sound H job) {e : ℕ × Act} (hstep : r.step H job e = some r') :
    r'.Sound H job := by
  obtain ⟨w, a⟩ := e
  obtain ⟨x, x', hx, hmoved, hworkers⟩ := step_moved hstep
  have hplaces := h.places.step hstep
  obtain ⟨s', workers'⟩ := r'
  dsimp only at hmoved hworkers
  subst hworkers
  -- where the store is as it was, only the worker that has moved can be in question
  have hkept : s'.store = r.store →
      (∀ i put data, x'.phase = .writing i data put → data.length = r.store.pieceLen i ∧
        H data = job.pieceHash i ∧ Holds r.store.file (pieceOff i) (data.take put)) →
      Sound H job ⟨s', r.workers.set w x'⟩ := by
    intro hstore hnew
    refine ⟨hplaces, ?_, ?_⟩
    · dsimp only
      rw [hstore]
      exact h.held
    · intro w' y hy i put data hphase
      dsimp only
      rw [hstore]
      rcases getElem?_set_or hx hy with ⟨-, rfl⟩ | ⟨-, hy⟩
      · exact hnew i put data hphase
      · exact h.writing w' y hy i put data hphase
  cases hmoved with
  | idle hstore hqueue hhand hhand' =>
      refine hkept hstore fun i put data hphase => ?_
      rw [hphase] at hhand'
      cases hhand'
  | popped => exact hkept rfl fun i put data hphase => by cases hphase
  | @fetched index data hphase hok =>
      refine hkept rfl fun i put data' hphase' => ?_
      obtain ⟨-, hlen, hhash⟩ := of_decide_eq_true hok
      cases hphase'
      exact ⟨hlen, hhash, holds_nil _ _⟩
  | lost => exact hkept rfl fun i put data hphase => by cases hphase
  | @wrote index put k data hphase hk =>
      obtain ⟨hlen, hhash, hholds⟩ := h.writing w x hx index put data hphase
      have hhand : x.phase.hand = some index := by rw [hphase]; rfl
      obtain ⟨hlt, hhave, -⟩ := h.places.of_hand hx hhand
      refine ⟨hplaces, fun i hi => ?_, fun w' y hy i put' data' hphase' => ?_⟩
      -- a write for one piece leaves those that are held as they are
      · obtain ⟨hilt, hver⟩ := h.held i hi
        have hne : i ≠ index := by
          rintro rfl
          simp [PieceStore.have', hilt, show r.store.have_.test i = true from hi] at hhave
        exact ⟨hilt, hver.pwrite_of_ne hilt hlt hne hlen hk⟩
      · rcases getElem?_set_or hx hy with ⟨-, rfl⟩ | ⟨hw, hy₀⟩
        · cases hphase'
          exact ⟨hlen, hhash, hholds.writeAt_next 0 (by omega) hk⟩
        -- nor does it touch what another worker is writing
        · obtain ⟨hlen', hhash', hholds'⟩ := h.writing w' y hy₀ i put' data' hphase'
          have hhand' : y.phase.hand = some i := by rw [hphase']; rfl
          have hilt := (h.places.of_hand hy₀ hhand').1
          have hne : i ≠ index := by
            rintro rfl
            exact hw (h.places.hand_unique hy₀ hx hhand' hhand)
          refine ⟨hlen', hhash', holds_pwrite_of_ne hholds' ?_ hilt hlt hne hlen hk⟩
          rw [List.length_take, hlen']
          exact Nat.min_le_right _ _
  | @marked index put data hphase hput =>
      obtain ⟨hlen, hhash, hholds⟩ := h.writing w x hx index put data hphase
      have hhand : x.phase.hand = some index := by rw [hphase]; rfl
      have hlt := (h.places.of_hand hx hhand).1
      rw [List.take_of_length_le hput] at hholds
      refine ⟨hplaces, fun i hi => ?_, fun w' y hy i put' data' hphase' => ?_⟩
      · change (r.store.have_.set index).test i = true at hi
        rw [Bitmap.test_set _ hlt] at hi
        -- the piece that is marked has just been written whole
        by_cases hindex : index = i
        · subst hindex
          exact ⟨hlt, verified_of_holds hholds hlen hhash⟩
        · exact h.held i (by simpa [hindex] using hi)
      · rcases getElem?_set_or hx hy with ⟨-, rfl⟩ | ⟨-, hy⟩
        · cases hphase'
        · exact h.writing w' y hy i put' data' hphase'
  | gaveBack hphase hp =>
      refine hkept rfl fun i put data hphase' => ?_
      rcases hp with rfl | rfl
      · cases hphase'
      · cases hphase'

/-- A round starts with nothing in hand. -/
lemma sound_start {s : Shared} (hheld : ∀ i, s.store.have_.test i = true →
    i < s.store.pieceCount ∧ s.store.Verified H job.pieceHashes i) (n : ℕ) :
    (start s n).Sound H job := by
  refine ⟨onePlace_start s n, hheld, fun w x hx i put data hphase => ?_⟩
  obtain ⟨-, rfl⟩ := List.mem_replicate.mp (List.mem_of_getElem? hx)
  cases hphase

/-- The size and the number of pieces stay. -/
lemma step_size {e : ℕ × Act} (hstep : r.step H job e = some r') :
    r'.store.size = r.store.size ∧ r'.store.pieceCount = r.store.pieceCount := by
  obtain ⟨x, x', -, hmoved, -⟩ := step_moved hstep
  obtain ⟨s', workers'⟩ := r'
  dsimp only at hmoved ⊢
  cases hmoved with
  | idle hstore =>
      rw [hstore]
      exact ⟨rfl, rfl⟩
  | popped | fetched | lost | wrote | marked | gaveBack => exact ⟨rfl, rfl⟩

end Round

/-! ### The rounds of a download -/

/-- Where `run_job` is: before the next round, in a round, announcing after it, or
behind the loop. -/
inductive Stage
  | between
  | running
  | resetting
  | reading
  | sending (bits : List UInt8)
  | sharing
  | shared
  | done
  | failed
deriving DecidableEq

/-- A download: the round that is on or was the last, and how many there have
been. -/
structure Download extends Round where
  stage : Stage
  rounds : ℕ
deriving DecidableEq

/-- What happens next: a worker goes on, or `run_job` does. `begin` has the number of
peers of the round, which the caller gives for the first one and the tracker for the
others, and `send` has whether the request of the announcement gets out. -/
inductive JobEvent
  | worker (w : ℕ) (a : Act)
  | begin (peers : ℕ)
  | join
  | reset
  | read
  | send (out : Bool)
  | finish
  | addShare
  | setDone
deriving DecidableEq

namespace Download

/-- The job behind `resume_scan`. -/
def start (st : PieceStore) : Download :=
  ⟨⟨⟨st, [], 0, []⟩, []⟩, .between, 0⟩

/-- One step of a download. Without peers there is no round; in the first one the
division by their number is not defined, and `start` is not called without peers. -/
def step (H : Str → Str) (job : DownloadJob) (d : Download) (e : JobEvent) : Option Download :=
  match d.stage, e with
  | .running, .worker w a =>
      (d.toRound.step H job (w, a)).map fun r => { d with toRound := r }
  | .between, .begin peers =>
      if d.rounds < maxRounds ∧ d.store.complete = false then
        if peers = 0 then
          if d.rounds = 0 then none else some { d with rounds := d.rounds + 1 }
        else
          some { d with
            toRound := Round.start d.toShared (peers * connsPerPeer peers), stage := .running }
      else none
  | .running, .join =>
      if ∀ x ∈ d.workers, x.phase = .ended then some { d with stage := .resetting } else none
  | .resetting, .reset => some { d with sinceAnnounce := 0, stage := .reading }
  | .reading, .read => some { d with stage := .sending d.store.have_.bytes }
  | .sending bits, .send out =>
      some { d with
        sent := if out then d.sent ++ [bits] else d.sent
        stage := .between
        rounds := d.rounds + 1 }
  | .between, .finish =>
      if d.rounds < maxRounds ∧ d.store.complete = false then none
      else some { d with stage := if d.store.complete then .sharing else .failed }
  | .sharing, .addShare => some { d with stage := .shared }
  | .shared, .setDone => some { d with stage := .done }
  | _, _ => none

/-- The loop is over and every piece is there. -/
def Finished (d : Download) : Prop := d.stage = .sharing ∨ d.stage = .shared ∨ d.stage = .done

/-- **What a step of a download does**: a worker of the round moves, a round starts, or
`run_job` goes on without touching the store. -/
inductive Stepped (H : Str → Str) (job : DownloadJob) (d : Download) : Download → Prop
  | worker {w : ℕ} {a : Act} {r : Round} (hstage : d.stage = .running)
      (hround : d.toRound.step H job (w, a) = some r) : Stepped H job d { d with toRound := r }
  | begin (workers : ℕ) : Stepped H job d
      { d with toRound := Round.start d.toShared workers, stage := .running }
  | quiet {d' : Download} (hstore : d'.store = d.store) (hworkers : d'.workers = d.workers)
      (hstage : d'.stage ≠ .running)
      (hfinished : d'.Finished → d.Finished ∨ d.store.complete = true)
      (hsent : d'.sent = d.sent ∨ ∃ bits, d.stage = .sending bits ∧ d'.sent = d.sent ++ [bits])
      (hbits : ∀ bits, d'.stage = .sending bits → bits = d.store.have_.bytes) : Stepped H job d d'

variable {H : Str → Str} {job : DownloadJob} {d d' : Download}

lemma step_stepped {e : JobEvent} (h : d.step H job e = some d') : Stepped H job d d' := by
  unfold Download.step at h
  split at h
  · next hstage =>
      obtain ⟨r, hr, rfl⟩ := Option.map_eq_some_iff.mp h
      exact .worker hstage hr
  · next hstage =>
      split at h
      · split at h
        · split at h
          · cases h
          · obtain rfl := Option.some.inj h
            exact .quiet rfl rfl (by rw [hstage]; rintro ⟨⟩) .inl (.inl rfl)
              fun bits hbits => by rw [hstage] at hbits; cases hbits
        · obtain rfl := Option.some.inj h
          exact .begin _
      · cases h
  · split at h
    · obtain rfl := Option.some.inj h
      exact .quiet rfl rfl (by rintro ⟨⟩) (by simp [Finished]) (.inl rfl) (by rintro bits ⟨⟩)
    · cases h
  · obtain rfl := Option.some.inj h
    exact .quiet rfl rfl (by rintro ⟨⟩) (by simp [Finished]) (.inl rfl) (by rintro bits ⟨⟩)
  · obtain rfl := Option.some.inj h
    exact .quiet rfl rfl (by rintro ⟨⟩) (by simp [Finished]) (.inl rfl) (by rintro bits ⟨⟩; rfl)
  · next bits out hstage =>
      obtain rfl := Option.some.inj h
      refine .quiet rfl rfl (by rintro ⟨⟩) (by simp [Finished]) ?_ (by rintro bits ⟨⟩)
      cases out with
      | false => exact .inl rfl
      | true => exact .inr ⟨bits, hstage, rfl⟩
  · split at h
    · cases h
    · obtain rfl := Option.some.inj h
      cases hcomplete : d.store.complete with
      | true =>
          exact .quiet rfl rfl (by rintro ⟨⟩) (fun _ => .inr hcomplete) (.inl rfl)
            (by rintro bits ⟨⟩)
      | false =>
          exact .quiet rfl rfl (by rintro ⟨⟩) (by simp [Finished]) (.inl rfl) (by rintro bits ⟨⟩)
  · next hstage =>
      obtain rfl := Option.some.inj h
      exact .quiet rfl rfl (by rintro ⟨⟩) (fun _ => .inl (.inl hstage)) (.inl rfl)
        (by rintro bits ⟨⟩)
  · next hstage =>
      obtain rfl := Option.some.inj h
      exact .quiet rfl rfl (by rintro ⟨⟩) (fun _ => .inl (.inr (.inl hstage))) (.inl rfl)
        (by rintro bits ⟨⟩)
  · cases h

/-- **The invariant of a download.** -/
structure Sound (H : Str → Str) (job : DownloadJob) (d : Download) : Prop where
  size : d.store.size = job.size
  count : d.store.pieceCount = job.pieceHashes.length
  held : ∀ i, d.store.have_.test i = true →
    i < d.store.pieceCount ∧ d.store.Verified H job.pieceHashes i
  round : d.stage = .running → d.toRound.Sound H job
  whole : d.Finished → d.store.complete = true

/-- **The step lemma.** -/
theorem Sound.step (h : d.Sound H job) {e : JobEvent} (hstep : d.step H job e = some d') :
    d'.Sound H job := by
  cases step_stepped hstep with
  | @worker w a r hstage hround =>
      have hsound := (h.round hstage).step hround
      obtain ⟨hsize, hcount⟩ := Round.step_size hround
      exact ⟨hsize.trans h.size, hcount.trans h.count, hsound.held, fun _ => hsound,
        by simp [Finished, hstage]⟩
  | begin workers =>
      have hsound := Round.sound_start (s := d.toShared) h.held workers
      exact ⟨h.size, h.count, hsound.held, fun _ => hsound, by simp [Finished]⟩
  | quiet hstore _ hstage hfinished =>
      refine ⟨?_, ?_, ?_, fun hrun => absurd hrun hstage, fun hfin => ?_⟩
      · rw [hstore]
        exact h.size
      · rw [hstore]
        exact h.count
      · rw [hstore]
        exact h.held
      · rw [hstore]
        exact (hfinished hfin).elim h.whole id

/-- The job as it starts, on a file that has been opened. -/
lemma sound_start {file : Str} {seekData : ℕ → Option ℕ} {fails : ℕ → Bool} {st : PieceStore}
    (hopen : openForDownload file job.size job.pieceHashes.length = some st) :
    (start (st.resumeScan H job.pieceHashes seekData fails)).Sound H job := by
  obtain ⟨hsize, hcount, hempty⟩ := of_openForDownload hopen
  exact ⟨hsize, hcount,
    fun i hi => @verified_resumeScan H job.pieceHashes st i seekData fails hempty hi,
    by rintro ⟨⟩, by simp [Finished, start]⟩

/-- **A piece marked as held is a verified piece on disk**, in every run of a job:
whatever the file was, whatever the peers send, and however the writes end. -/
theorem held_verified (H : Str → Str) (job : DownloadJob) (file : Str) (seekData : ℕ → Option ℕ)
    (fails : ℕ → Bool) {st : PieceStore}
    (hopen : openForDownload file job.size job.pieceHashes.length = some st)
    (hrun : Run (step H job) (fun _ _ => True)
      (start (st.resumeScan H job.pieceHashes seekData fails)) d)
    {i : ℕ} (hi : d.store.have_.test i = true) :
    i < d.store.pieceCount ∧ d.store.Verified H job.pieceHashes i := by
  have hsound : d.Sound H job := hrun.invariant (sound_start hopen) fun hI _ hstep => hI.step hstep
  exact hsound.held i hi

/-- One of the workers of a round with one peer fetches a piece. -/
def onePeer : List JobEvent :=
  [.begin 1, .worker 3 (.connect true), .worker 3 .pop,
    .worker 3 (.fetch (some (MsgType.pieceData.code, Status.ok.code, putU32 0 ++ [9]))),
    .worker 3 (.pwrite (some 1)), .worker 3 .mark]

theorem held_verified_onePeer :
    let st : PieceStore := ⟨1, 1, .empty 1, [0]⟩
    let d := (exec (step id Round.oneByte)
      (start (st.resumeScan id [[9]] (fun _ => some 0) fun _ => false)) onePeer).get
        (by decide +kernel)
    d.store.Verified id [[9]] 0 := by
  intro st d
  have hmeets : Meets (step id Round.oneByte) (fun _ _ => True)
      (start (st.resumeScan id [[9]] (fun _ => some 0) fun _ => false)) onePeer :=
    meets_of_forall (p := fun _ => True) (fun _ _ => trivial) _
  have hrun := Run.of_exec hmeets (Option.some_get (by decide +kernel)).symm
  exact (held_verified id Round.oneByte [] (fun _ => some 0) (fun _ => false) (by decide +kernel)
    hrun (by decide +kernel)).2

end Download

end P2PShare
