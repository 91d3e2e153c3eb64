import P2PShare.Client.JobEnds
import P2PShare.Client.Transfer

/-!
A download from peers that have the file.

* `PieceStore.HasWhole`: the store of such a peer. That of the uploader is one, and so is that of
  a download that is done.
* `pieceAnswer`: what its seeder answers to a request for a piece.
* `Honest` (**the condition**): each request for a piece is answered so, and no write fails.
* `Worker.step_unfailing`: then a worker loses no piece.
* `Undaunted` (**the invariant**): no worker has failed; `Supplied`: once a worker has reached its
  peer the round lasts or the file is whole.
* `honest_peers_suffice`: then a job fails only if no peer was ever reached.
-/

namespace P2PShare

open Cursor Reader Extent PieceStore

/-! ### The peers -/

/-- The store has the whole file with this content, as the metadata of the job describes it. -/
structure PieceStore.HasWhole (content : Str) (job : DownloadJob) (store : PieceStore) : Prop where
  file : store.file = content
  size : store.size = job.size
  count : store.pieceCount = job.pieceHashes.length
  held : ∀ i < store.pieceCount, store.have_.test i = true

/-- The answer of a peer with this store, and with other shares beside it, to a request for a
piece of the job. -/
def pieceAnswer (others : ShareKey → Option PieceStore) (job : DownloadJob) (store : PieceStore)
    (index : ℕ) : UInt16 × UInt16 × Str :=
  let k : ShareKey := ⟨job.group, job.file⟩
  let (type, status, payload) := servePeer (Function.update others k (some store))
    MsgType.pieceRequest.code (putPieceRequest k (UInt32.ofNat index))
  (type.code, status.code, payload)

namespace PieceStore.HasWhole

variable {H : Str → Str} {content : Str} {job : DownloadJob} {store : PieceStore}

/-- The uploader has the whole file. -/
lemma openForSeed (content : Str) (job : DownloadJob) :
    HasWhole content job (openForSeed content job.size job.pieceHashes.length) where
  file := rfl
  size := rfl
  count := rfl
  held _ hi := Bitmap.test_full hi

/-- The piece that such a peer reads. -/
lemma readPiece (h : HasWhole content job store) (hof : job.Of H content)
    (hsize : content.length ≤ (2 ^ 32 - 1) * pieceSize) {i : ℕ} (hi : i < job.pieceHashes.length) :
    ∃ data, store.readPiece i = some data ∧ data.length = store.pieceLen i ∧
      H data = job.pieceHash i := by
  have hcons := hof.consistent hsize
  have htoNat := hof.toNat_size hsize
  have hcount := h.count
  have hpieces : i < pieces content.length := by
    have hlen := hof.pieceHashes
    rwa [hlen, List.length_map, length_chunks] at hi
  have hlen : store.pieceLen i = min pieceSize (content.length - i * pieceSize) := by
    rw [← htoNat]
    exact hcons.pieceLen_eq h.size h.count hi
  have hend := hcons.pieceEnd_le h.size h.count hi
  have hread : readAt store.file (pieceOff i) (store.pieceLen i) =
      readAt content (i * pieceSize) pieceSize := by
    rw [h.file, hlen, pieceOff, readAt_min]
  have hdata : (readAt store.file (pieceOff i) (store.pieceLen i)).length = store.pieceLen i := by
    rw [length_readAt, h.file]
    omega
  refine ⟨readAt store.file (pieceOff i) (store.pieceLen i), ?_, hdata, ?_⟩
  · rw [PieceStore.readPiece, if_neg (by omega), if_neg (by simp [h.held i (by omega)])]
    exact if_pos hdata
  · rw [hread, ← hof.pieceHash hpieces]
    rfl

/-- **Such a peer answers** a request for a piece so that the piece is accepted. -/
lemma fetched (h : HasWhole content job store) (hof : job.Of H content)
    (hsize : content.length ≤ (2 ^ 32 - 1) * pieceSize) (hgroup : job.group.length < 2 ^ 32)
    (hfile : job.file.length < 2 ^ 32) (others : ShareKey → Option PieceStore) {st : PieceStore}
    (hst : st.size = job.size) (hcount : st.pieceCount = job.pieceHashes.length) {i : ℕ}
    (hi : i < st.pieceCount) :
    ∃ data, fetchPiece i (some (pieceAnswer others job store i)) = some data ∧
      st.accepts H i data (job.pieceHash i) = true := by
  have hlt := job.pieceHashes_lt
  obtain ⟨data, hread, hlen, hhash⟩ := h.readPiece hof hsize (hcount ▸ hi)
  have hindex : (UInt32.ofNat i).toNat = i := by
    rw [UInt32.toNat_ofNat', Nat.mod_eq_of_lt (by omega)]
  have hserve : servePeer (Function.update others ⟨job.group, job.file⟩ (some store))
      MsgType.pieceRequest.code (putPieceRequest ⟨job.group, job.file⟩ (UInt32.ofNat i)) =
        (.pieceData, .ok, putU32 (UInt32.ofNat i) ++ data) :=
    servePeer_piece (decodes_pieceRequest _ _ hgroup hfile).1 (Function.update_self ..)
      (by rwa [hindex])
  refine ⟨data, ?_, decide_eq_true ⟨hi, ?_, hhash⟩⟩
  · have hfetch := fetchPiece_answer (UInt32.ofNat i) data
    rw [hindex] at hfetch
    rw [pieceAnswer, hserve]
    exact hfetch
  · rw [hlen, PieceStore.pieceLen, PieceStore.pieceLen, h.count, h.size, hcount, hst]

end PieceStore.HasWhole

/-! ### Workers that do not fail -/

/-- The worker has not failed and is not about to. -/
def Worker.Unfailing (x : Worker) : Prop := x.failures = 0 ∧ ∀ i, x.phase ≠ .failing i

/-- The answer that a worker gets is one that it accepts, and its writes do not fail. -/
def Act.Helps (H : Str → Str) (job : DownloadJob) (st : PieceStore) (p : WorkerPhase) : Act → Prop
  | .fetch reply => ∀ i, p = .fetching i → ∃ data, fetchPiece i reply = some data ∧
      st.accepts H i data (job.pieceHash i) = true
  | .pwrite k => ∃ n, k = some (n + 1)
  | _ => True

/-- **The step lemma** of a worker. -/
lemma Worker.step_unfailing {H : Str → Str} {job : DownloadJob} {s s' : Shared} {x x' : Worker}
    {a : Act} (hx : x.Unfailing) (ha : a.Helps H job s.store x.phase)
    (h : x.step H job s a = some (s', x')) : x'.Unfailing := by
  obtain ⟨hzero, hnot⟩ := hx
  unfold Worker.step at h
  split at h
  · next ok hphase =>
      obtain ⟨rfl, rfl⟩ := Prod.mk.inj (Option.some.inj h)
      refine ⟨hzero, fun i hi => ?_⟩
      cases ok <;> cases hi
  · split at h
    · obtain ⟨rfl, rfl⟩ := Prod.mk.inj (Option.some.inj h)
      exact ⟨hzero, fun i hi => by cases hi⟩
    · obtain ⟨rfl, rfl⟩ := Prod.mk.inj (Option.some.inj h)
      exact ⟨hzero, fun i hi => by cases hi⟩
  · next index reply hphase =>
      -- the answer of such a peer passes both checks
      obtain ⟨data, hdata, hok⟩ := ha index hphase
      rw [hdata] at h
      dsimp only at h
      rw [if_pos hok] at h
      obtain ⟨rfl, rfl⟩ := Prod.mk.inj (Option.some.inj h)
      exact ⟨hzero, fun i hi => by cases hi⟩
  · next index data put k hphase =>
      -- and the write puts some bytes into the file
      obtain ⟨n, rfl⟩ := ha
      split at h
      · cases h
      · dsimp only at h
        split at h
        · cases h
        · obtain ⟨rfl, rfl⟩ := Prod.mk.inj (Option.some.inj h)
          exact ⟨hzero, fun i hi => by cases hi⟩
  · split at h
    · obtain ⟨rfl, rfl⟩ := Prod.mk.inj (Option.some.inj h)
      exact ⟨rfl, fun i hi => by cases hi⟩
    · cases h
  · next index hphase => exact absurd hphase (hnot index)
  · obtain ⟨rfl, rfl⟩ := Prod.mk.inj (Option.some.inj h)
    refine ⟨hzero, fun i hi => ?_⟩
    dsimp only at hi
    split at hi <;> cases hi
  · obtain ⟨rfl, rfl⟩ := Prod.mk.inj (Option.some.inj h)
    exact ⟨hzero, fun i hi => by cases hi⟩
  · obtain ⟨rfl, rfl⟩ := Prod.mk.inj (Option.some.inj h)
    exact ⟨hzero, fun i hi => by cases hi⟩
  · obtain ⟨rfl, rfl⟩ := Prod.mk.inj (Option.some.inj h)
    exact ⟨hzero, fun i hi => by cases hi⟩
  · cases h

/-! ### The job -/

namespace Download

open Round

variable {H : Str → Str} {content : Str} {job : DownloadJob} {d d' : Download}

/-- **The condition**: each request for a piece is answered by a peer that has the whole file, and
no write fails. -/
def Honest (content : Str) (job : DownloadJob) (d : Download) : JobEvent → Prop
  | .worker w (.fetch reply) => ∀ x i, d.workers[w]? = some x → x.phase = .fetching i →
      ∃ others store, HasWhole content job store ∧ reply = some (pieceAnswer others job store i)
  | .worker _ (.pwrite k) => ∃ n, k = some (n + 1)
  | _ => True

/-- **The invariant**: nothing has failed. -/
structure Undaunted (H : Str → Str) (job : DownloadJob) (d : Download) : Prop where
  sound : d.Sound H job
  counted : d.Counted
  unfailing : ∀ x ∈ d.workers, x.Unfailing

/-- **The step lemma.** -/
lemma Undaunted.step (h : d.Undaunted H job) (hof : job.Of H content)
    (hsize : content.length ≤ (2 ^ 32 - 1) * pieceSize) (hgroup : job.group.length < 2 ^ 32)
    (hfile : job.file.length < 2 ^ 32) {e : JobEvent} (hok : d.Honest content job e)
    (hstep : d.step H job e = some d') : d'.Undaunted H job := by
  refine ⟨h.sound.step hstep, (h.counted.step hstep).1, ?_⟩
  by_cases hstage : d.stage = .running
  · rcases running_cases hstage hstep with ⟨w, a, r, rfl, hr, rfl⟩ | ⟨-, rfl⟩
    · obtain ⟨x, s', x', hx, hworker, rfl⟩ := step_worker hr
      have hhelps : a.Helps H job d.store x.phase := by
        cases a with
        | fetch reply =>
            intro i hphase
            obtain ⟨others, store, hwhole, rfl⟩ := hok x i hx hphase
            have hi := ((h.sound.round hstage).places.of_hand hx
              (show x.phase.hand = some i by rw [hphase]; rfl)).1
            exact hwhole.fetched hof hsize hgroup hfile others h.sound.size h.sound.count hi
        | pwrite k => exact hok
        | connect | pop | mark | giveBack | count | reset | read | send => trivial
      have hx' := Worker.step_unfailing (h.unfailing x (List.mem_of_getElem? hx)) hhelps hworker
      intro y hy
      rcases List.mem_or_eq_of_mem_set hy with hy | rfl
      · exact h.unfailing y hy
      · exact hx'
    · exact h.unfailing
  · rcases (workers_cases hstage hstep).2 with heq | ⟨n, heq⟩
    · rw [heq]
      exact h.unfailing
    · rw [heq]
      intro x hx
      obtain ⟨-, rfl⟩ := List.mem_replicate.mp hx
      exact ⟨rfl, fun i hi => by cases hi⟩

/-- **The invariant** once a worker has reached its peer: the round lasts, or the file is whole. -/
def Supplied (d : Download) : Prop :=
  d.store.complete = true ∨ d.stage = .running ∧ ∃ w, d.toRound.Accounted w

/-- **The step lemma.** -/
lemma Supplied.step (h : d.Supplied) (hd : d.Undaunted H job) {e : JobEvent}
    (hstep : d.step H job e = some d') : d'.Supplied := by
  rcases h with hwhole | ⟨hstage, w, haccounted⟩
  · have hle := (hd.counted.step hstep).2
    rw [lacking_eq_zero.mpr hwhole] at hle
    exact .inl (lacking_eq_zero.mp (Nat.le_zero.mp hle))
  · rcases running_cases hstage hstep with ⟨w', a, r, rfl, hr, rfl⟩ | ⟨hended, rfl⟩
    · exact .inr ⟨hstage, w, haccounted.step hr⟩
    · refine .inl (haccounted.complete hended fun x hx hgave => ?_)
      have hzero := (hd.unfailing x hx).1
      rw [Worker.GaveUp, hzero] at hgave
      cases hgave

/-- A worker that reaches its peer. -/
lemma supplied_connect (hd : d.Undaunted H job) {w : ℕ}
    (hstep : d.step H job (.worker w (.connect true)) = some d') : d'.Supplied := by
  have hstage : d.stage = .running := by
    by_contra hne
    exact (workers_cases hne hstep).1 w _ rfl
  rcases running_cases hstage hstep with ⟨w', a, r, heq, hr, rfl⟩ | ⟨hended, rfl⟩
  · cases heq
    exact .inr ⟨hstage, w, accounted_connect (hd.counted.ending hstage) hr⟩
  · simp [Download.step, hstage] at hstep

/-- A job that has not ended can go on, and peers that have the file let it. -/
lemma exists_honest_step (H : Str → Str) (content : Str) (job : DownloadJob) (d : Download)
    (hdone : d.stage ≠ .done) (hfailed : d.stage ≠ .failed) :
    ∃ e, d.Honest content job e ∧ (d.step H job e).isSome := by
  by_cases hstage : d.stage = .running
  · by_cases hended : ∀ x ∈ d.workers, x.phase = .ended
    · exact ⟨.join, trivial,
        by simp only [Download.step, hstage, if_pos hended, Option.isSome_some]⟩
    · simp only [not_forall] at hended
      obtain ⟨x, hx, hphase⟩ := hended
      obtain ⟨w, hw, rfl⟩ := List.getElem_of_mem hx
      obtain ⟨a, hok, hworker⟩ : ∃ a, d.Honest content job (.worker w a) ∧
          (d.workers[w].step H job d.toShared a).isSome := by
        cases hp : d.workers[w].phase with
        | fetching i =>
            -- the answer of a peer that has the file and shares it
            refine ⟨.fetch (some (pieceAnswer (fun _ => none) job
              (openForSeed content job.size job.pieceHashes.length) i)), ?_, ?_⟩
            · intro x j hx hj
              rw [List.getElem?_eq_getElem hw] at hx
              obtain rfl := Option.some.inj hx
              rw [hp] at hj
              cases hj
              exact ⟨_, _, HasWhole.openForSeed content job, rfl⟩
            · simp only [Worker.step, hp]
              split
              · rfl
              · split <;> rfl
        | writing i data put =>
            by_cases hput : data.length ≤ put
            · exact ⟨.mark, trivial, by simp [Worker.step, hp, hput]⟩
            -- a write of one byte is always possible
            · refine ⟨.pwrite (some 1), ⟨0, rfl⟩, ?_⟩
              have hlt : ¬ data.length - put < 0 + 1 := by omega
              simp only [Worker.step, hp, if_neg hput, if_neg hlt, Option.isSome_some]
        | ended => exact absurd hp hphase
        | connecting => exact ⟨.connect true, trivial, by simp [Worker.step, hp]⟩
        | top =>
            refine ⟨.pop, trivial, ?_⟩
            cases hlast : d.queue.getLast? with
            | none => simp [Worker.step, hp, hlast]
            | some i => simp [Worker.step, hp, hlast]
        | failing i => exact ⟨.giveBack, trivial, by simp [Worker.step, hp]⟩
        | counting => exact ⟨.count false, trivial, by simp [Worker.step, hp]⟩
        | resetting => exact ⟨.reset, trivial, by simp [Worker.step, hp]⟩
        | reading => exact ⟨.read, trivial, by simp [Worker.step, hp]⟩
        | sending bits => exact ⟨.send true, trivial, by simp [Worker.step, hp]⟩
      obtain ⟨⟨s', x'⟩, hworker⟩ := Option.isSome_iff_exists.mp hworker
      exact ⟨.worker w a, hok, by
        simp [Download.step, hstage, Round.step, List.getElem?_eq_getElem hw, hworker]⟩
  · obtain ⟨e, hstep⟩ := exists_step H job d hdone hfailed
    obtain ⟨d', hstep'⟩ := Option.isSome_iff_exists.mp hstep
    refine ⟨e, ?_, hstep⟩
    cases e with
    | worker w a => exact absurd rfl ((workers_cases hstage hstep').1 w a)
    | begin | join | reset | read | send | finish | addShare | setDone => trivial

/-- **Peers that have the file suffice**: in every run of a job in which each request for a piece
is answered by some peer that has the whole file and no write fails, no worker fails; the job does
not fail once a worker has reached its peer; and it can go on like that until it has ended. -/
theorem honest_peers_suffice (H : Str → Str) (job : DownloadJob) (hof : job.Of H content)
    (hsize : content.length ≤ (2 ^ 32 - 1) * pieceSize) (hgroup : job.group.length < 2 ^ 32)
    (hfile : job.file.length < 2 ^ 32) (file : Str) (seekData : ℕ → Option ℕ) (fails : ℕ → Bool)
    {st : PieceStore} (hopen : openForDownload file job.size job.pieceHashes.length = some st)
    {es : List JobEvent}
    (hexec : exec (step H job) (start (st.resumeScan H job.pieceHashes seekData fails)) es = some d)
    (hhonest : Meets (step H job) (Honest content job)
      (start (st.resumeScan H job.pieceHashes seekData fails)) es) :
    (∀ x ∈ d.workers, x.failures = 0) ∧
      (d.stage = .failed → ∀ w, .worker w (.connect true) ∉ es) ∧
      (d.stage ≠ .done → d.stage ≠ .failed →
        ∃ e, d.Honest content job e ∧ (d.step H job e).isSome) := by
  have hstart : (start (st.resumeScan H job.pieceHashes seekData fails)).Undaunted H job :=
    ⟨sound_start hopen, counted_start _, fun x hx => by cases hx⟩
  have hkeep : ∀ {d d' : Download} {e : JobEvent}, d.Undaunted H job → d.Honest content job e →
      d.step H job e = some d' → d'.Undaunted H job := fun hI hok hstep =>
    hI.step hof hsize hgroup hfile hok hstep
  have hd : d.Undaunted H job := (Run.of_exec hhonest hexec).invariant hstart hkeep
  refine ⟨fun x hx => (hd.unfailing x hx).1, fun hfailed w hmem => ?_,
    exists_honest_step H content job d⟩
  obtain ⟨before, after, rfl⟩ := List.append_of_mem hmem
  rw [exec_append] at hexec
  obtain ⟨d₁, hbefore, hexec⟩ := Option.bind_eq_some_iff.mp hexec
  obtain ⟨hmeets₁, hmeets₂⟩ := (meets_append hbefore).mp hhonest
  obtain ⟨d₂, hconnect, hafter⟩ := Option.bind_eq_some_iff.mp hexec
  have hd₁ : d₁.Undaunted H job := (Run.of_exec hmeets₁ hbefore).invariant hstart hkeep
  have hd₂ : d₂.Undaunted H job := hkeep hd₁ hmeets₂.1 hconnect
  have hlast : d.Undaunted H job ∧ d.Supplied := by
    refine (Run.of_exec (hmeets₂.2 d₂ hconnect) hafter).invariant
      (I := fun d => d.Undaunted H job ∧ d.Supplied) ⟨hd₂, supplied_connect hd₁ hconnect⟩
      fun hI hok hstep => ?_
    exact ⟨hkeep hI.1 hok hstep, hI.2.step hI.1 hstep⟩
  rcases hlast.2 with hwhole | ⟨hstage, -⟩
  · rw [(hd.counted.failed hfailed).2] at hwhole
    cases hwhole
  · rw [hfailed] at hstage
    cases hstage

lemma isSome_nine : (exec (step first40 jobNine) startNine toTheEnd).isSome := by decide +kernel

/-- The uploader of the file of the byte 9 is the peer. -/
theorem honest_peers_suffice_nine :
    let d := (exec (step first40 jobNine) startNine toTheEnd).get isSome_nine
    (∀ x ∈ d.workers, x.failures = 0) ∧ d.stage ≠ .failed := by
  intro d
  let asked : List JobEvent := [.begin 1, .worker 3 (.connect true), .worker 3 .pop]
  let d₁ := (exec (step first40 jobNine) startNine asked).get (by decide +kernel)
  have hasked : exec (step first40 jobNine) startNine asked = some d₁ := (Option.some_get _).symm
  have hfetching : d₁.workers[3]? = some ⟨.fetching 0, 0⟩ := by decide +kernel
  have hbefore : ∀ e ∈ asked, ∀ d : Download, d.Honest [9] jobNine e := by
    simp [asked, Honest]
  have hafter : ∀ e ∈ toTheEnd.drop 4, ∀ d : Download, d.Honest [9] jobNine e := by
    simp [toTheEnd, onePeer, Honest]
  have hhonest : Meets (step first40 jobNine) (Honest [9] jobNine) startNine toTheEnd := by
    refine (meets_append hasked).mpr ⟨meets_of_always hbefore _, ?_,
      fun d₂ _ => meets_of_always hafter d₂⟩
    intro x i hx hphase
    obtain rfl := Option.some.inj (hfetching.symm.trans hx)
    cases hphase
    exact ⟨fun _ => none, _, HasWhole.openForSeed [9] jobNine, by decide +kernel⟩
  have hopen : openForDownload [] jobNine.size jobNine.pieceHashes.length =
      some ⟨1, 1, .empty 1, [0]⟩ := by
    decide +kernel
  obtain ⟨hnone, hreached, -⟩ :=
    honest_peers_suffice first40 jobNine of_nine (by decide) (by decide)
      (by decide) [] (fun _ => some 0) (fun _ => false) hopen
      (show exec _ startNine toTheEnd = some d from (Option.some_get _).symm) hhonest
  exact ⟨hnone, fun hfailed => hreached hfailed 3 (by decide)⟩

end Download

end P2PShare
