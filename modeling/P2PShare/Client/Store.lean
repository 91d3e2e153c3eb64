import P2PShare.Common.Protocol
import P2PShare.Lib.Bitmap
import P2PShare.Lib.Extent

/-!
`client/piece_store.hpp` and `client/piece_store.cpp`: the pieces of one file and
which of them are held.

* `DownloadJob`: the metadata a download works from. `main` resizes the list of
  piece hashes to the count in the reply, whatever the frame holds; the bound that
  it carries leaves out the last counts, at which the size of the bitmap overflows
  (`BitmapAccess`).
* `PieceStore`: the bitmap together with the file behind the descriptor.
  `write_piece` is cut into its check `accepts`, its `pwrite` calls and `mark`.
* `pieceEnd_le` (**pieces do not overlap**): the range of a piece ends where the
  next one begins, whatever the size of the file is.
* `Verified`: the bytes of a piece have the published hash; `verified_resumeScan`
  says that `resume_scan` marks such pieces only.
-/

namespace P2PShare

open Extent

/-- `DownloadJob`: the fields that a download reads. -/
structure DownloadJob where
  group : Str
  file : Str
  size : UInt64
  fileHash : Str
  pieceHashes : List Str
  pieceHashes_lt : pieceHashes.length < 2 ^ 32 - 8
deriving DecidableEq

/-- The hash that is expected of a piece. -/
def DownloadJob.pieceHash (job : DownloadJob) (index : ℕ) : Str := job.pieceHashes.getD index []

/-- `PieceStore`, open, with the bytes of its file. -/
structure PieceStore where
  size : UInt64
  pieceCount : ℕ
  have_ : Bitmap pieceCount
  file : Str
deriving DecidableEq

namespace PieceStore

/-! ### Pieces -/

/-- The offset of a piece. -/
def pieceOff (index : ℕ) : ℕ := index * pieceSize

/-- `piece_len`: the last piece takes the rest of the file, as a 32-bit number. -/
def pieceLen (st : PieceStore) (index : ℕ) : ℕ :=
  if index + 1 < st.pieceCount then pieceSize
  else (st.size - UInt64.ofNat index * UInt64.ofNat pieceSize).toUInt32.toNat

/-- `have`. -/
def have' (st : PieceStore) (index : ℕ) : Bool :=
  decide (index < st.pieceCount) && st.have_.test index

/-- `have_count`. -/
def haveCount (st : PieceStore) : ℕ := (List.range st.pieceCount).countP st.have_.test

/-- `complete`. -/
def complete (st : PieceStore) : Bool := st.haveCount == st.pieceCount

/-- **The pieces do not overlap**: one that is not the last ends where the next
begins. -/
lemma pieceEnd_le (st : PieceStore) {i j : ℕ} (hij : i < j) (hj : j < st.pieceCount) :
    pieceOff i + st.pieceLen i ≤ pieceOff j := by
  rw [pieceLen, if_pos (by omega), pieceOff, pieceOff]
  calc i * pieceSize + pieceSize = (i + 1) * pieceSize := by ring
    _ ≤ j * pieceSize := Nat.mul_le_mul_right pieceSize hij

lemma pieceLen_lt (st : PieceStore) (i : ℕ) : st.pieceLen i < 2 ^ 32 := by
  rw [pieceLen]
  split
  · decide
  · exact UInt32.toNat_lt _

lemma complete_iff (st : PieceStore) :
    st.complete = true ↔ ∀ i < st.pieceCount, st.have_.test i = true := by
  have hcount : st.haveCount = (List.range st.pieceCount).length ↔
      ∀ i ∈ List.range st.pieceCount, st.have_.test i = true := List.countP_eq_length
  rw [List.length_range] at hcount
  rw [complete, beq_iff_eq, hcount]
  simp only [List.mem_range]

/-! ### Opening and scanning -/

/-- `open_for_download`: `ftruncate` refuses a size that is negative as an
`off_t`. -/
def openForDownload (file : Str) (size : UInt64) (pieceCount : ℕ) : Option PieceStore :=
  if size.toNat < 2 ^ 63 then
    some ⟨size, pieceCount, .empty pieceCount, resize 0 file size.toNat⟩
  else none

lemma openForDownload_eq_some {file : Str} {size : UInt64} {pieceCount : ℕ} {st : PieceStore} :
    openForDownload file size pieceCount = some st ↔
      size.toNat < 2 ^ 63 ∧
        ⟨size, pieceCount, .empty pieceCount, resize 0 file size.toNat⟩ = st := by
  rw [openForDownload]
  split
  · next h => exact ⟨fun heq => ⟨h, Option.some.inj heq⟩, fun heq => congrArg some heq.2⟩
  · next h => exact ⟨fun heq => (by cases heq), fun heq => absurd heq.1 h⟩

/-- A store that has just been opened holds nothing. -/
lemma of_openForDownload {file : Str} {size : UInt64} {pieceCount : ℕ} {st : PieceStore}
    (h : openForDownload file size pieceCount = some st) :
    st.size = size ∧ st.pieceCount = pieceCount ∧ ∀ i, st.have_.test i = false := by
  obtain ⟨-, rfl⟩ := openForDownload_eq_some.mp h
  exact ⟨rfl, rfl, fun i => Bitmap.test_empty i⟩

/-- `open_for_seed`: a seeder has everything. -/
def openForSeed (file : Str) (size : UInt64) (pieceCount : ℕ) : PieceStore :=
  ⟨size, pieceCount, .full pieceCount, file⟩

/-- What `resume_scan` finds out about a piece, given where `lseek` finds data from
its offset on and whether a read fails: a hole is not hashed. -/
def valid (H : Str → Str) (hashes : List Str) (seekData : ℕ → Option ℕ) (fails : ℕ → Bool)
    (st : PieceStore) (index : ℕ) : Bool :=
  match seekData (pieceOff index) with
  | none => false
  | some data =>
      if pieceOff index + st.pieceLen index ≤ data then false
      else
        let buf := readAt st.file (pieceOff index) (st.pieceLen index)
        !fails index && decide (buf.length = st.pieceLen index ∧ H buf = hashes.getD index [])

/-- `resume_scan`. -/
def resumeScan (H : Str → Str) (hashes : List Str) (seekData : ℕ → Option ℕ) (fails : ℕ → Bool)
    (st : PieceStore) : PieceStore :=
  let n := min st.pieceCount hashes.length
  { st with
    have_ := (List.range n).foldl
      (fun b i => if st.valid H hashes seekData fails i then b.set i else b) st.have_ }

/-! ### Reading and writing pieces -/

/-- `read_piece`: `none` is `false`. -/
def readPiece (st : PieceStore) (index : ℕ) : Option Str :=
  if st.pieceCount ≤ index then none
  else if st.have_.test index = false then none
  else
    let out := readAt st.file (pieceOff index) (st.pieceLen index)
    if out.length = st.pieceLen index then some out else none

/-- The checks of `write_piece`: nothing that does not have the expected hash is
written. -/
def accepts (H : Str → Str) (st : PieceStore) (index : ℕ) (data expectedHash : Str) : Bool :=
  decide (index < st.pieceCount ∧ data.length = st.pieceLen index ∧ H data = expectedHash)

/-- One `pwrite` of `write_piece`, which writes `k` bytes behind the first `put`. -/
def pwrite (st : PieceStore) (index : ℕ) (data : Str) (put k : ℕ) : PieceStore :=
  { st with file := writeAt 0 st.file (pieceOff index + put) ((data.drop put).take k) }

/-- The end of `write_piece`: the bytes are on disk. -/
def mark (st : PieceStore) (index : ℕ) : PieceStore := { st with have_ := st.have_.set index }

/-! ### Verified pieces -/

/-- **The bytes of a piece are those that were published.** -/
def Verified (H : Str → Str) (hashes : List Str) (st : PieceStore) (index : ℕ) : Prop :=
  (readAt st.file (pieceOff index) (st.pieceLen index)).length = st.pieceLen index ∧
    H (readAt st.file (pieceOff index) (st.pieceLen index)) = hashes.getD index []

variable {H : Str → Str} {hashes : List Str} {st : PieceStore} {i : ℕ}

/-- A piece is verified once the file has bytes of its length and hash. -/
lemma verified_of_holds {d : Str} (hd : Holds st.file (pieceOff i) d)
    (hlen : d.length = st.pieceLen i) (hhash : H d = hashes.getD i []) :
    st.Verified H hashes i := by
  have hread : readAt st.file (pieceOff i) (st.pieceLen i) = d := by rw [← hlen, hd]
  rw [Verified, hread]
  exact ⟨hlen, hhash⟩

lemma Verified.holds (h : st.Verified H hashes i) :
    Holds st.file (pieceOff i) (readAt st.file (pieceOff i) (st.pieceLen i)) := holds_readAt h.1

/-- Writing one piece leaves the bytes of another. -/
lemma holds_pwrite_of_ne {d : Str} (h : Holds st.file (pieceOff i) d)
    (hlen : d.length ≤ st.pieceLen i) {j : ℕ} (hi : i < st.pieceCount) (hj : j < st.pieceCount)
    (hne : i ≠ j) {data : Str} {put k : ℕ} (hdata : data.length = st.pieceLen j)
    (hk : put + k ≤ data.length) : Holds (st.pwrite j data put k).file (pieceOff i) d := by
  refine h.writeAt_of_disjoint 0 ?_
  have hwrite : ((data.drop put).take k).length = k := by
    rw [List.length_take, List.length_drop]
    omega
  rw [hwrite]
  rcases lt_or_gt_of_ne hne with hlt | hlt
  · have hend := st.pieceEnd_le hlt hj
    omega
  · have hend := st.pieceEnd_le hlt hi
    omega

lemma Verified.pwrite_of_ne (h : st.Verified H hashes i) {j : ℕ} (hi : i < st.pieceCount)
    (hj : j < st.pieceCount) (hne : i ≠ j) {data : Str} {put k : ℕ}
    (hdata : data.length = st.pieceLen j) (hk : put + k ≤ data.length) :
    (st.pwrite j data put k).Verified H hashes i := by
  have hkept := holds_pwrite_of_ne h.holds h.1.le hi hj hne hdata hk
  exact verified_of_holds hkept h.1 h.2

/-- **What `resume_scan` marks is verified.** -/
lemma verified_resumeScan {seekData : ℕ → Option ℕ} {fails : ℕ → Bool}
    (hempty : ∀ i, st.have_.test i = false)
    (hi : (st.resumeScan H hashes seekData fails).have_.test i = true) :
    i < st.pieceCount ∧ (st.resumeScan H hashes seekData fails).Verified H hashes i := by
  have hrange : ∀ k ∈ List.range (min st.pieceCount hashes.length), k < st.pieceCount :=
    fun k hk => lt_of_lt_of_le (List.mem_range.mp hk) (Nat.min_le_left _ _)
  rw [resumeScan] at hi
  dsimp only at hi
  rw [Bitmap.test_foldl_set _ _ hrange, hempty i, Bool.false_or] at hi
  obtain ⟨hmem, hvalid⟩ := of_decide_eq_true hi
  refine ⟨hrange i hmem, ?_⟩
  rw [valid] at hvalid
  split at hvalid
  · cases hvalid
  · split at hvalid
    · cases hvalid
    · simp only [Bool.and_eq_true, decide_eq_true_eq] at hvalid
      exact hvalid.2

end PieceStore

end P2PShare
