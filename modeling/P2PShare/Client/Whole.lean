import P2PShare.Client.Download

/-!
What a finished download leaves on disk, against the hash of the whole file.

* `hashFile`: `SHA1::hash_file` at `PIECE_SIZE`, the hash of the concatenated piece
  hashes.
* `DownloadJob.Consistent`: the metadata is that of one file: as many hashes as the
  file has pieces, and the file hash is the hash of them. Neither the tracker nor the
  client checks this.
* `pieceLen_eq`: then the pieces are those that `hash_file` cuts the file into;
  `length_file` (**the invariant**): the file keeps its size.
* `finished_whole`: then a finished download is the published file.
-/

namespace P2PShare

open Extent PieceStore

/-- How many pieces a file of this size has. -/
def pieces (size : ℕ) : ℕ := (size + pieceSize - 1) / pieceSize

/-- `SHA1::hash_file`: the pieces are counted in 32 bits. -/
def hashFile (H : Str → Str) (file : Str) : Str :=
  H ((List.range (UInt32.ofNat (pieces file.length)).toNat).flatMap fun i =>
    H (readAt file (i * pieceSize) (min pieceSize (file.length - i * pieceSize))))

/-- **The metadata of one file.** A file that ends with a whole piece may be listed
with an empty piece behind it. -/
def DownloadJob.Consistent (H : Str → Str) (job : DownloadJob) : Prop :=
  (job.pieceHashes.length = pieces job.size.toNat ∨
    job.pieceHashes.length = pieces job.size.toNat + 1 ∧ job.size.toNat % pieceSize = 0) ∧
  job.fileHash = H (job.pieceHashes.take (pieces job.size.toNat)).flatten

lemma pieceSize_pos : 0 < pieceSize := by decide

/-- The pieces cover the file, and all but the last fit into it. -/
lemma le_pieces_mul (size : ℕ) : size ≤ pieces size * pieceSize ∧
    pieces size * pieceSize < size + pieceSize := by
  have hdiv := Nat.div_add_mod (size + pieceSize - 1) pieceSize
  have hmod := Nat.mod_lt (size + pieceSize - 1) pieceSize_pos
  have hpos := pieceSize_pos
  rw [Nat.mul_comm] at hdiv
  rw [pieces]
  omega

/-- The part of length `n` that a byte of the file is in. -/
lemma part_of_byte {n size k : ℕ} (hn : 0 < n) (hk : k < size) :
    k / n * n ≤ k ∧ k < k / n * n + min n (size - k / n * n) := by
  have hdiv := Nat.div_add_mod k n
  have hmod := Nat.mod_lt k hn
  rw [Nat.mul_comm] at hdiv
  omega

/-- The rest of a size behind `i` parts of `n`, as a 32-bit number. -/
lemma toNat_rest {size : UInt64} {i n : ℕ} (hle : i * n ≤ size.toNat)
    (hlt : size.toNat - i * n < 2 ^ 32) :
    (size - UInt64.ofNat i * UInt64.ofNat n).toUInt32.toNat = size.toNat - i * n := by
  have hsize := size.toNat_lt
  have hmul : (UInt64.ofNat i * UInt64.ofNat n).toNat = i * n := by
    rw [← UInt64.ofNat_mul, UInt64.toNat_ofNat', Nat.mod_eq_of_lt (by omega)]
  have hsub : UInt64.ofNat i * UInt64.ofNat n ≤ size := by
    rw [UInt64.le_iff_toNat_le, hmul]
    exact hle
  rw [UInt64.toNat_toUInt32, UInt64.toNat_sub_of_le _ _ hsub, hmul, Nat.mod_eq_of_lt hlt]

/-- **The length of a piece** where every piece begins within the file and they cover it. -/
lemma pieceLen_eq_min {st : PieceStore}
    (hoff : ∀ i < st.pieceCount, i * pieceSize ≤ st.size.toNat)
    (hcover : pieces st.size.toNat ≤ st.pieceCount) {i : ℕ} (hi : i < st.pieceCount) :
    st.pieceLen i = min pieceSize (st.size.toNat - i * pieceSize) := by
  have hbegin := hoff i hi
  rw [pieceLen]
  split
  · next hnext =>
      have hend := hoff (i + 1) hnext
      rw [Nat.add_mul, Nat.one_mul] at hend
      omega
  · next hlast =>
      have hge := (le_pieces_mul st.size.toNat).1
      have hrest : pieces st.size.toNat * pieceSize ≤ (i + 1) * pieceSize :=
        Nat.mul_le_mul_right pieceSize (by omega)
      rw [Nat.add_mul, Nat.one_mul] at hrest
      have hsmall : pieceSize < 2 ^ 32 := by decide
      rw [toNat_rest hbegin (by omega)]
      omega

namespace DownloadJob.Consistent

variable {H : Str → Str} {job : DownloadJob}

lemma pieces_le (h : job.Consistent H) : pieces job.size.toNat ≤ job.pieceHashes.length := by
  rcases h.1 with hlen | ⟨hlen, -⟩
  · omega
  · omega

/-- Every piece begins within the file. -/
lemma pieceOff_le (h : job.Consistent H) {i : ℕ} (hi : i < job.pieceHashes.length) :
    i * pieceSize ≤ job.size.toNat := by
  obtain ⟨hge, hlt⟩ := le_pieces_mul job.size.toNat
  rcases h.1 with hlen | ⟨hlen, hmod⟩
  · have hstep : (i + 1) * pieceSize ≤ pieces job.size.toNat * pieceSize :=
      Nat.mul_le_mul_right pieceSize (by omega)
    rw [Nat.add_mul, Nat.one_mul] at hstep
    omega
  · -- the size is a multiple of the piece size, so it is that of the whole pieces
    obtain ⟨q, hq⟩ := Nat.dvd_of_mod_eq_zero hmod
    have hqn : pieces job.size.toNat * pieceSize = job.size.toNat := by
      rw [hq, Nat.mul_comm pieceSize q] at hge hlt ⊢
      have hle : q ≤ pieces (q * pieceSize) := Nat.le_of_mul_le_mul_right hge pieceSize_pos
      have hlt' : pieces (q * pieceSize) < q + 1 :=
        Nat.lt_of_mul_lt_mul_right (a := pieceSize) (by rw [Nat.add_mul, Nat.one_mul]; exact hlt)
      rw [show pieces (q * pieceSize) = q by omega]
    calc i * pieceSize ≤ pieces job.size.toNat * pieceSize :=
          Nat.mul_le_mul_right pieceSize (by omega)
      _ = job.size.toNat := hqn

/-- **The pieces are those of the file.** -/
lemma pieceLen_eq (h : job.Consistent H) {st : PieceStore} (hsize : st.size = job.size)
    (hcount : st.pieceCount = job.pieceHashes.length) {i : ℕ} (hi : i < job.pieceHashes.length) :
    st.pieceLen i = min pieceSize (job.size.toNat - i * pieceSize) := by
  rw [← hsize]
  refine pieceLen_eq_min (fun j hj => ?_) ?_ (by omega)
  · rw [hsize]
    exact h.pieceOff_le (by omega)
  · rw [hsize, hcount]
    exact h.pieces_le

lemma pieceEnd_le (h : job.Consistent H) {st : PieceStore} (hsize : st.size = job.size)
    (hcount : st.pieceCount = job.pieceHashes.length) {i : ℕ} (hi : i < job.pieceHashes.length) :
    pieceOff i + st.pieceLen i ≤ job.size.toNat := by
  have hoff := h.pieceOff_le hi
  rw [pieceOff, h.pieceLen_eq hsize hcount hi]
  omega

end DownloadJob.Consistent

namespace Download

variable {H : Str → Str} {job : DownloadJob} {d d' : Download}

/-- **A write within the file leaves its size.** -/
lemma length_pwrite {st : PieceStore} {i put k : ℕ} {data : Str} (hk : put + k ≤ data.length)
    (hend : pieceOff i + data.length ≤ st.file.length) :
    (st.pwrite i data put k).file.length = st.file.length := by
  have hlen : ((data.drop put).take k).length = k := by
    rw [List.length_take, List.length_drop]
    omega
  show (writeAt 0 st.file (pieceOff i + put) ((data.drop put).take k)).length = _
  by_cases hempty : (data.drop put).take k = []
  · rw [writeAt, if_pos hempty]
  · rw [length_writeAt _ _ _ hempty, hlen]
    omega

/-- The step lemma. -/
lemma length_file_step (hcons : job.Consistent H) (h : d.Sound H job)
    (hlen : d.store.file.length = job.size.toNat) {e : JobEvent}
    (hstep : d.step H job e = some d') : d'.store.file.length = job.size.toNat := by
  cases step_stepped hstep with
  | begin => exact hlen
  | quiet hstore =>
      rw [hstore]
      exact hlen
  | @worker w a r hstage hround =>
      have hsound := h.round hstage
      obtain ⟨x, x', hx, hmoved, -⟩ := Round.step_moved hround
      obtain ⟨s', workers'⟩ := r
      dsimp only at hmoved ⊢
      cases hmoved with
      | idle hstore =>
          rw [hstore]
          exact hlen
      | popped | fetched | lost | marked | gaveBack => exact hlen
      | @wrote i put k data hphase hk =>
          have hlt := (hsound.places.of_hand hx (show x.phase.hand = some i by rw [hphase]; rfl)).1
          have hdata := (hsound.writing w x hx i put data hphase).1
          rw [h.count] at hlt
          have hend := hcons.pieceEnd_le h.size h.count hlt
          exact (length_pwrite hk (by omega)).trans hlen

/-- **The published file**: its hash and its size, and every byte in a verified
piece. -/
structure Whole (H : Str → Str) (job : DownloadJob) (d : Download) : Prop where
  hash : hashFile H d.store.file = job.fileHash
  size : d.store.file.length = job.size.toNat
  covered : ∀ k < d.store.file.length, ∃ i < job.pieceHashes.length,
    pieceOff i ≤ k ∧ k < pieceOff i + d.store.pieceLen i ∧ d.store.Verified H job.pieceHashes i

/-- **What every piece of is verified is whole.** -/
lemma whole_of_complete (hcons : job.Consistent H) (h : d.Sound H job)
    (hlen : d.store.file.length = job.size.toNat) (hcomplete : d.store.complete = true) :
    d.Whole H job := by
  have hver : ∀ i < job.pieceHashes.length, d.store.Verified H job.pieceHashes i := by
    intro i hi
    rw [← h.count] at hi
    exact (h.held i (d.store.complete_iff.mp hcomplete i hi)).2
  refine ⟨?_, hlen, fun k hk => ?_⟩
  · have hle := hcons.pieces_le
    have hcount : (UInt32.ofNat (pieces job.size.toNat)).toNat = pieces job.size.toNat := by
      have hlt := job.pieceHashes_lt
      rw [UInt32.toNat_ofNat', Nat.mod_eq_of_lt (by omega)]
    have hpiece : ∀ i < pieces job.size.toNat,
        H (readAt d.store.file (i * pieceSize) (min pieceSize (job.size.toNat - i * pieceSize))) =
          job.pieceHashes.getD i [] := by
      intro i hi
      rw [← hcons.pieceLen_eq h.size h.count (by omega)]
      exact (hver i (by omega)).2
    have hmap : (List.range (pieces job.size.toNat)).map (fun i =>
        H (readAt d.store.file (i * pieceSize) (min pieceSize (job.size.toNat - i * pieceSize)))) =
          job.pieceHashes.take (pieces job.size.toNat) := by
      refine List.ext_getElem (by simp [hle]) fun i hi hi' => ?_
      have hi : i < pieces job.size.toNat := by simpa using hi
      rw [List.getElem_map, List.getElem_range, hpiece i hi, List.getElem_take,
        List.getD_eq_getElem _ _ (by omega)]
    calc hashFile H d.store.file
        = H ((List.range (pieces job.size.toNat)).map fun i => H (readAt d.store.file
            (i * pieceSize) (min pieceSize (job.size.toNat - i * pieceSize)))).flatten := by
          rw [hashFile, hlen, hcount, List.flatMap_def]
      _ = job.fileHash := by rw [hmap, hcons.2]
  · rw [hlen] at hk
    obtain ⟨hbegin, hend⟩ := part_of_byte pieceSize_pos hk
    have hge := (le_pieces_mul job.size.toNat).1
    have hi : k / pieceSize < job.pieceHashes.length := by
      refine lt_of_lt_of_le (Nat.div_lt_of_lt_mul ?_) hcons.pieces_le
      rw [Nat.mul_comm]
      exact lt_of_lt_of_le hk hge
    refine ⟨k / pieceSize, hi, hbegin, ?_, hver _ hi⟩
    rw [hcons.pieceLen_eq h.size h.count hi]
    exact hend

/-- **A finished download is the whole published file** if its metadata is that of one
file. -/
theorem finished_whole (H : Str → Str) (job : DownloadJob) (hcons : job.Consistent H) (file : Str)
    (seekData : ℕ → Option ℕ) (fails : ℕ → Bool) {st : PieceStore}
    (hopen : openForDownload file job.size job.pieceHashes.length = some st)
    (hrun : Run (step H job) (fun _ _ => True)
      (start (st.resumeScan H job.pieceHashes seekData fails)) d)
    (hdone : d.stage = .done) : d.Whole H job := by
  have hstart : st.file.length = job.size.toNat := by
    obtain ⟨-, hst⟩ := openForDownload_eq_some.mp hopen
    rw [← hst]
    exact length_resize 0 file job.size.toNat
  have hinv : d.Sound H job ∧ d.store.file.length = job.size.toNat := by
    refine hrun.invariant (I := fun d => d.Sound H job ∧ d.store.file.length = job.size.toNat)
      ⟨sound_start hopen, hstart⟩ fun hI _ hstep => ?_
    exact ⟨hI.1.step hstep, length_file_step hcons hI.1 hI.2 hstep⟩
  exact whole_of_complete hcons hinv.1 hinv.2 (hinv.1.whole (.inr (.inr hdone)))

/-- The round with one peer to its end, and what `run_job` does then. -/
def toTheEnd : List JobEvent :=
  onePeer ++ [.worker 3 (.count false), .worker 3 .pop] ++
    [0, 1, 2, 4, 5, 6, 7].map (fun w => .worker w (.connect false)) ++
    [.join, .reset, .read, .send true, .finish, .addShare, .setDone]

theorem finished_whole_toTheEnd :
    let st : PieceStore := ⟨1, 1, .empty 1, [0]⟩
    let d := (exec (step id Round.oneByte)
      (start (st.resumeScan id [[9]] (fun _ => some 0) fun _ => false)) toTheEnd).get
        (by decide +kernel)
    d.Whole id Round.oneByte := by
  intro st d
  have hmeets : Meets (step id Round.oneByte) (fun _ _ => True)
      (start (st.resumeScan id [[9]] (fun _ => some 0) fun _ => false)) toTheEnd :=
    meets_of_forall (p := fun _ => True) (fun _ _ => trivial) _
  have hrun := Run.of_exec hmeets (Option.some_get (by decide +kernel)).symm
  have hcons : Round.oneByte.Consistent id := ⟨.inl (by decide +kernel), by decide +kernel⟩
  exact finished_whole id Round.oneByte hcons [] (fun _ => some 0) (fun _ => false)
    (by decide +kernel) hrun (by decide +kernel)

/-- A file of one byte that is published without piece hashes. -/
def noPieces : DownloadJob := ⟨[3], [7], 1, [9], [], by decide⟩

/-- **Nothing to verify**: without piece hashes the job is done at once, and the byte
of the file is in no piece. -/
theorem done_unverified :
    ∃ st d, openForDownload [] noPieces.size noPieces.pieceHashes.length = some st ∧
      Run (step id noPieces) (fun _ _ => True)
        (start (st.resumeScan id noPieces.pieceHashes (fun _ => none) fun _ => false)) d ∧
      d.stage = .done ∧ ¬ d.Whole id noPieces := by
  have hopen : openForDownload [] noPieces.size noPieces.pieceHashes.length =
      some ⟨1, 0, .empty 0, [0]⟩ := by
    decide +kernel
  have hmeets : Meets (step id noPieces) (fun _ _ => True)
      (start (resumeScan id noPieces.pieceHashes (fun _ => none) (fun _ => false)
        ⟨1, 0, .empty 0, [0]⟩)) [.finish, .addShare, .setDone] :=
    meets_of_forall (p := fun _ => True) (fun _ _ => trivial) _
  have hrun := Run.of_exec hmeets (Option.some_get (by decide +kernel)).symm
  refine ⟨_, _, hopen, hrun, by decide +kernel, fun hwhole => ?_⟩
  obtain ⟨i, hi, -⟩ := hwhole.covered 0 (by decide +kernel)
  exact absurd hi (Nat.not_lt_zero i)

end Download

end P2PShare
