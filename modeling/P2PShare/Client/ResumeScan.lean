import P2PShare.Client.Chunks

/-!
`PieceStore::resume_scan` with its threads.

* `seekData`: `lseek` with `SEEK_DATA`, on a file of which some bytes are in holes.
* `scanPiece`: the scan of one piece, which skips a hole and stops reading at the first failure.
* `Good`: what is asked of a piece that is marked; `scanPiece_good` (**one piece**): a scan says
  of its piece that it is good just if it is.
* `scanJobs` and `scanStep`: the threads, which are a `Pool`; `resumed`: the bitmap after they
  have been joined.
* `resume_scan_any_schedule`: the good pieces are marked and nothing else; `resumed_eq`: this is
  `resumeScan`, from which a download starts.
-/

namespace P2PShare

open Extent

namespace PieceStore

/-! ### Holes -/

/-- `lseek` with `SEEK_DATA`: the first byte from `off` on that is not in a hole. -/
def seekData (data : ℕ → Bool) (length off : ℕ) : Option ℕ :=
  (List.range' off (length - off)).find? data

/-! ### One piece -/

/-- Where the scan of a piece is: before `lseek`, reading, or behind a read that failed. -/
inductive ScanStage
  | atStart
  | reading (buf : Str)
  | broken (buf : Str)
deriving DecidableEq

/-- What the scan of a piece meets. -/
inductive ScanEvent
  | seek
  | pread (k : ℕ)
  | fail
  | store
deriving DecidableEq

/-- What a scan leaves behind: the bytes it got before its loop ended, and `valid`. -/
structure Finding where
  got : Str
  valid : Bool
deriving DecidableEq

section

variable (H : Str → Str) (data : ℕ → Bool) (file : Str) (off len : ℕ) (hash : Str)

/-- What is stored behind the loop. -/
def finding (buf : Str) : Finding := ⟨buf, decide (buf.length = len ∧ H buf = hash)⟩

/-- The scan of the piece of length `len` at `off`. -/
def scanPiece : ScanStage → ScanEvent → Option (Work ScanStage Finding)
  | .atStart, .seek =>
      match seekData data file.length off with
      | none => some (.result ⟨[], false⟩)
      | some k => if off + len ≤ k then some (.result ⟨[], false⟩) else some (.more (.reading []))
  | .reading buf, .pread k =>
      -- no more than was asked for, and no more than the file has there
      if 0 < k ∧ k ≤ len - buf.length ∧ off + buf.length + k ≤ file.length then
        some (.more (.reading (buf ++ readAt file (off + buf.length) k)))
      else none
  | .reading buf, .fail => if buf.length < len then some (.more (.broken buf)) else none
  | .reading buf, .store =>
      if buf.length < len then none else some (.result (finding H len hash buf))
  | .broken buf, .store => some (.result (finding H len hash buf))
  | _, _ => none

/-- The range is not wholly a hole. -/
def HasData : Prop := ∃ k, off ≤ k ∧ k < off + len ∧ k < file.length ∧ data k = true

/-- **A good piece**, of which a scan got the bytes `got`. -/
def Good (got : Str) : Prop :=
  HasData data file off len ∧ got.length = len ∧ H (readAt file off len) = hash

/-- **The invariant** of the scan of one piece. -/
def ScanStage.Sound : ScanStage → Prop
  | .atStart => True
  | .reading buf | .broken buf => HasData data file off len ∧ buf = readAt file off buf.length

/-- The steps that are left. -/
def ScanStage.rank : ScanStage → ℕ
  | .atStart => len + 2
  | .reading buf => len - buf.length + 1
  | .broken _ => 0

variable {H data file off len hash}

/-- **`lseek` tells a hole**: data in the range is data that begins before its end. -/
lemma hasData_iff : HasData data file off len ↔
    ∃ d, seekData data file.length off = some d ∧ d < off + len := by
  constructor
  · rintro ⟨k, hoff, hlen, hfile, hk⟩
    cases hseek : seekData data file.length off with
    | none =>
        rw [seekData, List.find?_range'_eq_none] at hseek
        have hno := hseek k hoff (by omega)
        simp [hk] at hno
    | some d =>
        refine ⟨d, rfl, lt_of_le_of_lt ?_ hlen⟩
        rw [seekData, List.find?_range'_eq_some] at hseek
        by_contra hgt
        have hno := hseek.2.2 k hoff (by omega)
        simp [hk] at hno
  · rintro ⟨d, hseek, hlt⟩
    rw [seekData, List.find?_range'_eq_some, List.mem_range'_1] at hseek
    obtain ⟨hd, hmem, -⟩ := hseek
    exact ⟨d, by omega, hlt, by omega, hd⟩

/-- No data, or none before the end of the range. -/
lemma not_hasData {d : Option ℕ} (hseek : seekData data file.length off = d)
    (hd : ∀ k ∈ d, off + len ≤ k) : ¬ HasData data file off len := by
  intro h
  obtain ⟨k, hk, hlt⟩ := hasData_iff.mp h
  exact absurd hlt (Nat.not_lt_of_le (hd k (hseek.symm.trans hk)))

/-- The step lemma. -/
lemma scanPiece_more {t t' : ScanStage} {e : ScanEvent}
    (hstep : scanPiece H data file off len hash t e = some (.more t')) :
    (t.Sound data file off len → t'.Sound data file off len) ∧ t'.rank len < t.rank len := by
  cases t with
  | atStart =>
      cases e with
      | seek =>
          simp only [scanPiece] at hstep
          split at hstep
          · cases hstep
          · next k hseek =>
              split at hstep
              · cases hstep
              · next hlt =>
                  obtain rfl := Work.more.inj (Option.some.inj hstep)
                  have hdata : HasData data file off len :=
                    hasData_iff.mpr ⟨k, hseek, Nat.lt_of_not_le hlt⟩
                  refine ⟨fun _ => ⟨hdata, by simp [readAt]⟩, ?_⟩
                  simp [ScanStage.rank]
      | pread | fail | store => cases hstep
  | reading buf =>
      cases e with
      | seek => cases hstep
      | pread k =>
          simp only [scanPiece] at hstep
          split at hstep
          · next hk =>
              obtain rfl := Work.more.inj (Option.some.inj hstep)
              constructor
              · rintro ⟨hdata, hread⟩
                refine ⟨hdata, ?_⟩
                -- the bytes read so far are those of the file from the start of the piece
                obtain ⟨hlength, hgrown⟩ := readAt_grow hread hk.2.2
                rw [hlength]
                exact hgrown
              · rw [ScanStage.rank, ScanStage.rank, List.length_append, length_readAt]
                omega
          · cases hstep
      | fail =>
          simp only [scanPiece] at hstep
          split at hstep
          · obtain rfl := Work.more.inj (Option.some.inj hstep)
            refine ⟨id, ?_⟩
            rw [ScanStage.rank, ScanStage.rank]
            omega
          · cases hstep
      | store =>
          simp only [scanPiece] at hstep
          split at hstep <;> cases hstep
  | broken buf => cases e <;> cases hstep

/-- A finding about a piece that is not a hole. -/
lemma finding_good {buf : Str} (hdata : HasData data file off len)
    (hread : buf = readAt file off buf.length) :
    (finding H len hash buf).valid = true ↔
      Good H data file off len hash (finding H len hash buf).got := by
  have hbytes : buf.length = len → readAt file off len = buf := by
    intro hlen
    rw [← hlen]
    exact hread.symm
  simp only [finding, Good, decide_eq_true_eq]
  constructor
  · rintro ⟨hlen, hhash⟩
    exact ⟨hdata, hlen, by rw [hbytes hlen, hhash]⟩
  · rintro ⟨-, hlen, hhash⟩
    exact ⟨hlen, by rwa [hbytes hlen] at hhash⟩

/-- A hole is not good. -/
lemma hole_good (hno : ¬ HasData data file off len) :
    (⟨[], false⟩ : Finding).valid = true ↔
      Good H data file off len hash (⟨[], false⟩ : Finding).got :=
  ⟨nofun, fun hgood => absurd hgood.1 hno⟩

/-- **What is found**: `valid` says whether the piece is good. -/
lemma scanPiece_good {t : ScanStage} {e : ScanEvent} {r : Finding}
    (h : t.Sound data file off len)
    (hstep : scanPiece H data file off len hash t e = some (.result r)) :
    r.got = readAt file off r.got.length ∧
      (r.valid = true ↔ Good H data file off len hash r.got) := by
  cases t with
  | atStart =>
      cases e with
      | seek =>
          simp only [scanPiece] at hstep
          split at hstep
          · next hseek =>
              obtain rfl := Work.result.inj (Option.some.inj hstep)
              -- no data from the start of the piece to the end of the file
              exact ⟨by simp [readAt], hole_good (not_hasData hseek nofun)⟩
          · next d hseek =>
              split at hstep
              · next hend =>
                  obtain rfl := Work.result.inj (Option.some.inj hstep)
                  -- the next data are behind the piece
                  refine ⟨by simp [readAt], hole_good (not_hasData hseek ?_)⟩
                  rintro k ⟨⟩
                  exact hend
              · cases hstep
      | pread | fail | store => cases hstep
  | reading buf =>
      obtain ⟨hdata, hread⟩ := h
      cases e with
      | seek => cases hstep
      | pread =>
          simp only [scanPiece] at hstep
          split at hstep <;> cases hstep
      | fail =>
          simp only [scanPiece] at hstep
          split at hstep <;> cases hstep
      | store =>
          simp only [scanPiece] at hstep
          split at hstep
          · cases hstep
          · obtain rfl := Work.result.inj (Option.some.inj hstep)
            exact ⟨hread, finding_good hdata hread⟩
  | broken buf =>
      obtain ⟨hdata, hread⟩ := h
      cases e with
      | seek | pread | fail => cases hstep
      | store =>
          obtain rfl := Work.result.inj (Option.some.inj hstep)
          exact ⟨hread, finding_good hdata hread⟩

/-- No scan ends the others. -/
lemma scanPiece_not_abort (t : ScanStage) (e : ScanEvent) :
    scanPiece H data file off len hash t e ≠ some .abort := by
  intro h
  unfold scanPiece at h
  split at h
  · split at h
    · cases h
    · split at h <;> cases h
  all_goals first | cases h | (split at h <;> cases h)

/-- A scan can always go on: a read may fail. -/
lemma exists_scanPiece (t : ScanStage) :
    ∃ e, (scanPiece H data file off len hash t e).isSome := by
  cases t with
  | atStart =>
      refine ⟨.seek, ?_⟩
      simp only [scanPiece]
      split
      · rfl
      · split <;> rfl
  | reading buf =>
      by_cases hmore : buf.length < len
      · exact ⟨.fail, by simp [scanPiece, hmore]⟩
      · exact ⟨.store, by simp [scanPiece, hmore]⟩
  | broken buf => exact ⟨.store, rfl⟩

end

/-! ### The threads -/

variable (H : Str → Str) (hashes : List Str) (data : ℕ → Bool) (st : PieceStore)

/-- The scan of the pieces. -/
def scanJobs : Jobs ScanStage ScanEvent Finding where
  count := min st.pieceCount hashes.length
  start _ := .atStart
  step i := scanPiece H data st.file (pieceOff i) (st.pieceLen i) (hashes.getD i [])

/-- The number of threads, `nt`. -/
def scanThreadCount (cores : UInt32) : ℕ :=
  (HashFile.threadCount 0 cores (UInt32.ofNat (min st.pieceCount hashes.length))).toNat

/-- One step of one thread. There is no stop flag: `look` is the head of the loop. -/
def scanStep : Pool ScanStage Finding → ℕ × Deed ScanEvent → Option (Pool ScanStage Finding) :=
  Pool.step (scanJobs H hashes data st) (2 ^ 32)

/-- `valid[i]`. -/
def foundValid (s : Pool ScanStage Finding) (i : ℕ) : Bool := (s.slots i).any Finding.valid

/-- The end of `resume_scan`. -/
def resumed (s : Pool ScanStage Finding) : PieceStore :=
  { st with
    have_ := (List.range (min st.pieceCount hashes.length)).foldl
      (fun b i => if foundValid s i then b.set i else b) st.have_ }

/-- **The piece is found**: its range is not wholly a hole, the scan that ended got all its bytes,
and they have the hash. -/
def Found (s : Pool ScanStage Finding) (i : ℕ) : Prop :=
  i < hashes.length ∧ ∃ f, s.slots i = some f ∧
    HasData data st.file (pieceOff i) (st.pieceLen i) ∧ f.got.length = st.pieceLen i ∧
    H (readAt st.file (pieceOff i) (st.pieceLen i)) = hashes.getD i []

variable {H hashes data st} {i : ℕ}

/-- The run of one scan. -/
lemma within_scan {t : ScanStage} (h : (scanJobs H hashes data st).Within i t) :
    t.Sound data st.file (pieceOff i) (st.pieceLen i) := by
  induction h with
  | start => trivial
  | step _ hstep ih => exact (scanPiece_more hstep).1 ih

lemma yields_good {r : Finding} (h : (scanJobs H hashes data st).Yields i r) :
    r.got = readAt st.file (pieceOff i) r.got.length ∧ (r.valid = true ↔
      Good H data st.file (pieceOff i) (st.pieceLen i) (hashes.getD i []) r.got) := by
  obtain ⟨t, e, hwithin, hstep⟩ := h
  exact scanPiece_good (within_scan hwithin) hstep

/-- **After the scan**: the bits of the good pieces have been set and nothing else. -/
lemma test_resumed {n : ℕ} {s : Pool ScanStage Finding} (hn : 0 < n)
    (hsound : s.Sound (scanJobs H hashes data st) n) (hstop : s.stop = false)
    (hjoined : s.Joined) (i : ℕ) :
    (st.resumed hashes s).have_.test i = true ↔ st.have_.test i = true ∨
      i < min st.pieceCount hashes.length ∧ ∃ f, s.slots i = some f ∧
        Good H data st.file (pieceOff i) (st.pieceLen i) (hashes.getD i []) f.got := by
  have hrange : ∀ k ∈ List.range (min st.pieceCount hashes.length), k < st.pieceCount :=
    fun k hk => lt_of_lt_of_le (List.mem_range.mp hk) (Nat.min_le_left _ _)
  obtain ⟨-, -, hslots⟩ := hsound.results hn hjoined hstop
  rw [resumed]
  dsimp only
  rw [Bitmap.test_foldl_set _ _ hrange, Bool.or_eq_true, decide_eq_true_eq, List.mem_range]
  refine or_congr_right (and_congr_right fun hi => ?_)
  obtain ⟨r, hr, hyields⟩ := hslots i hi
  rw [foundValid, hr, Option.any_some, (yields_good hyields).2]
  simp

/-- What `resumeScan` asks of a piece. -/
lemma valid_iff {fails : ℕ → Bool} (i : ℕ) :
    st.valid H hashes (seekData data st.file.length) fails i = true ↔
      HasData data st.file (pieceOff i) (st.pieceLen i) ∧ fails i = false ∧
        (readAt st.file (pieceOff i) (st.pieceLen i)).length = st.pieceLen i ∧
        H (readAt st.file (pieceOff i) (st.pieceLen i)) = hashes.getD i [] := by
  rw [valid]
  cases hseek : seekData data st.file.length (pieceOff i) with
  | none =>
      refine ⟨fun h => absurd h Bool.false_ne_true, fun h => absurd h.1 (not_hasData hseek ?_)⟩
      rintro k ⟨⟩
  | some d =>
      dsimp only
      split
      · next hend =>
          have hno : ¬ HasData data st.file (pieceOff i) (st.pieceLen i) := by
            refine not_hasData hseek ?_
            rintro k ⟨⟩
            exact hend
          exact ⟨fun h => absurd h Bool.false_ne_true, fun h => absurd h.1 hno⟩
      · next hlt =>
          have hdata : HasData data st.file (pieceOff i) (st.pieceLen i) :=
            hasData_iff.mpr ⟨d, hseek, Nat.lt_of_not_le hlt⟩
          simp [hdata]

/-- **The threads do what one loop does**: `resumeScan`, which takes a read that came short as a
failure. -/
theorem resumed_eq {n : ℕ} {s : Pool ScanStage Finding} (hn : 0 < n)
    (hsound : s.Sound (scanJobs H hashes data st) n) (hstop : s.stop = false)
    (hjoined : s.Joined) :
    st.resumed hashes s = st.resumeScan H hashes (seekData data st.file.length)
      fun i => (s.slots i).any fun f => f.got.length ≠ st.pieceLen i := by
  obtain ⟨-, -, hslots⟩ := hsound.results hn hjoined hstop
  rw [resumed, resumeScan]
  congr 1
  refine List.foldl_ext _ _ _ fun b i hi => ?_
  obtain ⟨r, hr, hyields⟩ := hslots i (List.mem_range.mp hi)
  obtain ⟨hread, hgood⟩ := yields_good hyields
  have hsame : foundValid s i = st.valid H hashes (seekData data st.file.length)
      (fun i => (s.slots i).any fun f => f.got.length ≠ st.pieceLen i) i := by
    rw [foundValid, hr, Option.any_some, Bool.eq_iff_iff, hgood, valid_iff, hr, Option.any_some,
      decide_eq_false_iff_not, not_not, Good]
    refine and_congr_right fun _ => and_congr_right fun hlen => ?_
    rw [hlen] at hread
    rw [← hread]
    exact (and_iff_right hlen).symm
  rw [hsame]

/-- **Resuming finds the good pieces**, in every schedule of the threads and whatever the reads
return: no schedule goes on for ever or gets stuck, and in the end the bit of a piece is set
just if its range is not wholly a hole, all its bytes were read and they have the hash. -/
theorem resume_scan_any_schedule (H : Str → Str) (hashes : List Str) (data : ℕ → Bool)
    (before content : Str) (size : UInt64) (cores : UInt32) {opened st : PieceStore}
    (hopen : openForDownload before size hashes.length = some opened)
    (hst : st = { opened with file := content })
    (hwrap : hashes.length + st.scanThreadCount hashes cores < 2 ^ 32 - 8)
    {es : List (ℕ × Deed ScanEvent)} {s : Pool ScanStage Finding}
    (hexec : exec (st.scanStep H hashes data) (.start (st.scanThreadCount hashes cores)) es =
      some s) :
    es.length ≤ hashes.length * (2 ^ 32 + 5) + 2 * st.scanThreadCount hashes cores ∧
      (¬ s.Joined → ∃ e, (st.scanStep H hashes data s e).isSome) ∧
      (s.Joined → ∀ i,
        ((st.resumed hashes s).have_.test i = true ↔ st.Found H hashes data s i) ∧
        (¬ st.Found H hashes data s i →
          (st.resumed hashes s).have_.test i = st.have_.test i)) := by
  obtain ⟨-, hcount, hempty⟩ := of_openForDownload hopen
  have hpieces : st.pieceCount = hashes.length := by rw [hst, hcount]
  have hjobs : (scanJobs H hashes data st).count = hashes.length := by
    show min st.pieceCount hashes.length = _
    omega
  have hfits : (scanJobs H hashes data st).count + st.scanThreadCount hashes cores < 2 ^ 32 := by
    omega
  have hrun := Run.of_exec
    (meets_of_forall (p := fun e : ℕ × Deed ScanEvent => e.2.All fun _ => True)
      (fun e _ => by cases e.2 <;> trivial) _) hexec
  have hsound := Pool.sound_run hfits hrun
  refine ⟨?_, fun hnot => ?_, fun hjoined i => ?_⟩
  · rw [← hjobs]
    refine Pool.steps_le (fun i => ScanStage.rank (st.pieceLen i)) (2 ^ 32 + 2) (fun i _ => ?_)
      (fun i t e t' hstep => (scanPiece_more hstep).2) hfits hexec
    have hlt := st.pieceLen_lt i
    show st.pieceLen i + 2 ≤ _
    omega
  · obtain ⟨e, -, he⟩ := hsound.exists_step (p := fun _ => True)
      (fun i t _ _ => (exists_scanPiece t).imp fun e he => ⟨trivial, he⟩) hnot
    exact ⟨e, he⟩
  -- no finding stops the scan, so all pieces are looked at
  · have hstop := Pool.stop_run (fun i t e _ => scanPiece_not_abort t e) hrun
    have hnew : st.have_.test i = false := by
      rw [hst]
      exact hempty i
    have hiff := test_resumed (HashFile.threadCount_pos _ _ _) hsound hstop hjoined i
    rw [hnew, hpieces, Nat.min_self] at hiff
    have hfound : (st.resumed hashes s).have_.test i = true ↔ st.Found H hashes data s i := by
      refine hiff.trans ?_
      rw [Bool.false_eq_true, false_or]
      exact Iff.rfl
    refine ⟨hfound, fun hno => ?_⟩
    rw [hnew, ← Bool.not_eq_true, hfound]
    exact hno

/-- One thread on a file of one piece of two bytes, which it reads one at a time. -/
def oneThread : List (ℕ × Deed ScanEvent) :=
  [(0, .look), (0, .claim), (0, .work .seek), (0, .work (.pread 1)), (0, .work (.pread 1)),
    (0, .work .store), (0, .look), (0, .claim)]

theorem resume_scan_any_schedule_oneThread :
    let st : PieceStore := ⟨2, 1, .empty 1, [5, 6]⟩
    let s := (exec (st.scanStep id [[5, 6]] fun _ => true)
      (.start (st.scanThreadCount [[5, 6]] 1)) oneThread).get (by decide +kernel)
    st.Found id [[5, 6]] (fun _ => true) s 0 := by
  intro st s
  have hexec : exec (st.scanStep id [[5, 6]] fun _ => true)
      (.start (st.scanThreadCount [[5, 6]] 1)) oneThread = some s :=
    (Option.some_get (by decide +kernel)).symm
  have hopen : openForDownload [] 2 1 = some ⟨2, 1, .empty 1, [0, 0]⟩ := by decide +kernel
  obtain ⟨-, -, hend⟩ := resume_scan_any_schedule id [[5, 6]] (fun _ => true) [] [5, 6] 2 1 hopen
    rfl (by decide +kernel) hexec
  have hjoined : ∀ d ∈ s.workers, d = .ended := by decide +kernel
  exact (hend hjoined 0).1.mp (by decide +kernel)

end PieceStore

end P2PShare
