import P2PShare.Common.HashFile
import P2PShare.Client.Whole

/-!
The cut of a file into pieces, at the uploader and at the downloader.

* `offset`, `pieceLen32`: where `PieceStore` finds a piece, in the integers of the source;
  `toInt_offset` and `toNat_pieceLen32` connect them with `pieceOff` and `pieceLen`.
* `same_chunks`: the pieces that `hash_file` hashes are those of `PieceStore`, and every byte of
  the file is in one of them, as long as they can be counted in 32 bits; `uncounted` is a size
  where they cannot.
* `hashFile_run`: the hash of a whole file is what the threads of `hash_file` return.
-/

namespace P2PShare

open Extent PieceStore

/-- `PIECE_SIZE`. -/
def pieceSize32 : UInt32 := UInt32.ofNat pieceSize

@[simp] lemma toNat_pieceSize32 : pieceSize32.toNat = pieceSize := rfl

namespace PieceStore

/-- `off`: the index is converted before the product is taken. -/
def offset (index : UInt32) : Int64 := Int64.ofNat index.toNat * Int64.ofNat pieceSize

/-- `piece_len`, with the comparison in 32 bits. -/
def pieceLen32 (size : UInt64) (pieceCount index : UInt32) : UInt32 :=
  if index + 1 < pieceCount then pieceSize32
  else (size - index.toUInt64 * pieceSize32.toUInt64).toUInt32

/-- Offsets are not negative. -/
lemma toInt_offset (index : UInt32) : (offset index).toInt = pieceOff index.toNat := by
  have hindex := index.toNat_lt
  have hmul : index.toNat * pieceSize < 2 ^ 51 := by
    rw [pieceSize]
    omega
  rw [offset, ← Int64.ofNat_mul, Int64.toInt_ofNat_of_lt (by omega), pieceOff]

/-- The index of a piece can be counted on. -/
lemma toNat_pieceLen32 (st : PieceStore) {pc index : UInt32} (hcount : st.pieceCount = pc.toNat)
    (hi : index < pc) : (pieceLen32 st.size pc index).toNat = st.pieceLen index.toNat := by
  rw [UInt32.lt_iff_toNat_lt] at hi
  have hpc := pc.toNat_lt
  have hnext : (index + 1).toNat = index.toNat + 1 := by
    rw [UInt32.toNat_add]
    exact Nat.mod_eq_of_lt (by rw [show (1 : UInt32).toNat = 1 from rfl]; omega)
  have hiff : index + 1 < pc ↔ index.toNat + 1 < pc.toNat := by
    rw [UInt32.lt_iff_toNat_lt, hnext]
  rw [pieceLen32, pieceLen, hcount]
  by_cases hlast : index.toNat + 1 < pc.toNat
  · rw [if_pos (hiff.mpr hlast), if_pos hlast]
    rfl
  · rw [if_neg (hiff.not.mpr hlast), if_neg hlast]
    rw [show UInt64.ofNat index.toNat = index.toUInt64 by
      rw [← UInt32.toNat_toUInt64, UInt64.ofNat_toNat]]
    rfl

end PieceStore

/-! ### The pieces of both sides -/

/-- So many pieces can be counted. -/
lemma pieces_lt {size : ℕ} (hsize : size ≤ (2 ^ 32 - 1) * pieceSize) : pieces size < 2 ^ 32 := by
  have hlt := (le_pieces_mul size).2
  by_contra hge
  have hmul : 2 ^ 32 * pieceSize ≤ pieces size * pieceSize :=
    Nat.mul_le_mul_right pieceSize (by omega)
  have hpos := pieceSize_pos
  omega

variable {size : UInt64}

/-- `parts` at `PIECE_SIZE`. -/
lemma parts_pieceSize (length : ℕ) : HashFile.parts length pieceSize32.toNat = pieces length := by
  rw [toNat_pieceSize32, HashFile.parts, pieces]

lemma pieceSize32_pos : 0 < pieceSize32.toNat := by
  rw [toNat_pieceSize32]
  exact pieceSize_pos

lemma toNat_pieceCount32 (hfits : pieces size.toNat < 2 ^ 32) :
    (HashFile.pieceCount size pieceSize32).toNat = pieces size.toNat := by
  rw [← parts_pieceSize] at hfits ⊢
  exact HashFile.toNat_pieceCount pieceSize32_pos hfits

/-- Where `hash_file` cuts, in numbers. -/
lemma chunk_eq (hfits : pieces size.toNat < 2 ^ 32) {i : UInt32}
    (hi : i.toNat < pieces size.toNat) :
    (HashFile.chunkOff pieceSize32 i).toNat = pieceOff i.toNat ∧
      (HashFile.chunkLen size pieceSize32 i).toNat =
        min pieceSize (size.toNat - pieceOff i.toNat) := by
  have hoff := HashFile.toNat_chunkOff pieceSize32 i.toNat_lt
  rw [← parts_pieceSize] at hfits hi
  have hlen := HashFile.toNat_chunkLen pieceSize32_pos hfits hi
  rw [UInt32.ofNat_toNat, toNat_pieceSize32] at hoff hlen
  exact ⟨hoff, hlen⟩

/-- **The pieces of `PieceStore` are those of `hash_file`.** -/
lemma pieceLen_chunk (hfits : pieces size.toNat < 2 ^ 32) {st : PieceStore} (hsize : st.size = size)
    (hcount : st.pieceCount = (HashFile.pieceCount size pieceSize32).toNat) {i : UInt32}
    (hi : i.toNat < pieces size.toNat) :
    st.pieceLen i.toNat = (HashFile.chunkLen size pieceSize32 i).toNat := by
  have hpieces : st.pieceCount = pieces st.size.toNat := by
    rw [hcount, toNat_pieceCount32 hfits, hsize]
  have hoff : ∀ j < st.pieceCount, j * pieceSize ≤ st.size.toNat := by
    intro j hj
    rw [hpieces] at hj
    exact (HashFile.mul_lt_of_lt_parts pieceSize_pos hj).le
  rw [(chunk_eq hfits hi).2, pieceLen_eq_min hoff hpieces.ge (by rwa [hpieces, hsize]), hsize]
  rfl

lemma lt_pieceCount32 (hfits : pieces size.toNat < 2 ^ 32) {i : UInt32} :
    i < HashFile.pieceCount size pieceSize32 ↔ i.toNat < pieces size.toNat := by
  rw [UInt32.lt_iff_toNat_lt, toNat_pieceCount32 hfits]

/-- **Every byte is in one chunk**: the one its offset divided by `PIECE_SIZE` says. -/
lemma chunk_of_byte (hfits : pieces size.toNat < 2 ^ 32) {k : ℕ} (hk : k < size.toNat) :
    ∃! i, i < HashFile.pieceCount size pieceSize32 ∧
      (HashFile.chunkOff pieceSize32 i).toNat ≤ k ∧
      k < (HashFile.chunkOff pieceSize32 i).toNat +
        (HashFile.chunkLen size pieceSize32 i).toNat := by
  obtain ⟨hbegin, hend⟩ := part_of_byte pieceSize_pos hk
  have hcover := (le_pieces_mul size.toNat).1
  have hlt : k / pieceSize < pieces size.toNat := by
    refine Nat.div_lt_of_lt_mul ?_
    rw [Nat.mul_comm]
    omega
  have hnat : (UInt32.ofNat (k / pieceSize)).toNat = k / pieceSize := by
    rw [UInt32.toNat_ofNat', Nat.mod_eq_of_lt (by omega)]
  refine ⟨UInt32.ofNat (k / pieceSize), ⟨?_, ?_⟩, fun i ⟨hi, hle, hlast⟩ => ?_⟩
  · rw [lt_pieceCount32 hfits, hnat]
    exact hlt
  · obtain ⟨hoff, hlen⟩ := chunk_eq (i := UInt32.ofNat (k / pieceSize)) hfits (by rwa [hnat])
    rw [hoff, hlen, hnat]
    exact ⟨hbegin, hend⟩
  · rw [lt_pieceCount32 hfits] at hi
    obtain ⟨hoff, hlen⟩ := chunk_eq hfits hi
    rw [hoff, hlen] at hlast
    rw [hoff] at hle
    have hdiv : k / pieceSize = i.toNat := by
      refine Nat.div_eq_of_lt_le hle ?_
      calc k < pieceOff i.toNat + min pieceSize (size.toNat - pieceOff i.toNat) := hlast
        _ ≤ i.toNat * pieceSize + pieceSize := Nat.add_le_add_left (Nat.min_le_left _ _) _
        _ = (i.toNat + 1) * pieceSize := (Nat.succ_mul _ _).symm
    rw [hdiv, UInt32.ofNat_toNat]

/-- **Uploader and downloader cut a file the same way**: the ranges agree, none of them is empty
or longer than a piece, they are within the file, and every byte of the file is in one of
them. -/
theorem same_chunks (size : UInt64) (hsize : size.toNat ≤ (2 ^ 32 - 1) * pieceSize) :
    let pc := HashFile.pieceCount size pieceSize32
    (∀ i < pc,
      (offset i).toInt = (HashFile.chunkOff pieceSize32 i).toNat ∧
      (pieceLen32 size pc i).toNat = (HashFile.chunkLen size pieceSize32 i).toNat ∧
      (∀ st : PieceStore, st.size = size → st.pieceCount = pc.toNat →
        pieceOff i.toNat = (HashFile.chunkOff pieceSize32 i).toNat ∧
        st.pieceLen i.toNat = (HashFile.chunkLen size pieceSize32 i).toNat) ∧
      1 ≤ (HashFile.chunkLen size pieceSize32 i).toNat ∧
      (HashFile.chunkLen size pieceSize32 i).toNat ≤ pieceSize ∧
      (HashFile.chunkOff pieceSize32 i).toNat + (HashFile.chunkLen size pieceSize32 i).toNat ≤
        size.toNat) ∧
    ∀ k < size.toNat, ∃! i, i < pc ∧ (HashFile.chunkOff pieceSize32 i).toNat ≤ k ∧
      k < (HashFile.chunkOff pieceSize32 i).toNat +
        (HashFile.chunkLen size pieceSize32 i).toNat := by
  intro pc
  have hfits := pieces_lt hsize
  have hpos := pieceSize_pos
  refine ⟨fun i hi => ?_, fun k hk => chunk_of_byte hfits hk⟩
  have hlt : i.toNat < pieces size.toNat := (lt_pieceCount32 hfits).mp hi
  obtain ⟨hoff, hlen⟩ := chunk_eq hfits hlt
  have hbegin : pieceOff i.toNat < size.toNat := HashFile.mul_lt_of_lt_parts hpos hlt
  refine ⟨by rw [toInt_offset, hoff], ?_, fun st hst hcount => ?_, by omega, by omega, by omega⟩
  · let st : PieceStore := ⟨size, pc.toNat, .empty pc.toNat, []⟩
    have h32 : (pieceLen32 size pc i).toNat = st.pieceLen i.toNat := toNat_pieceLen32 st rfl hi
    exact h32.trans (pieceLen_chunk hfits rfl rfl hlt)
  · exact ⟨hoff.symm, pieceLen_chunk hfits hst hcount hlt⟩

theorem same_chunks_twoPieces :
    pieceLen32 524289 2 1 = 1 ∧ HashFile.pieceCount 524289 pieceSize32 = 2 ∧
      (HashFile.chunkLen 524289 pieceSize32 1).toNat = (pieceLen32 524289 2 1).toNat := by
  obtain ⟨hsame, -⟩ := same_chunks 524289 (by decide +kernel)
  obtain ⟨-, hlen, -⟩ := hsame 1 (by decide +kernel)
  exact ⟨by decide +kernel, by decide +kernel, hlen.symm⟩

/-- **One piece too many**: the last byte below `2 ^ 51` makes the number of pieces `2 ^ 32`, and
then there are none. -/
theorem chunks_uncounted :
    ¬ ∀ size : UInt64, size.toNat < 2 ^ 51 → ∀ k < size.toNat,
      ∃! i, i < HashFile.pieceCount size pieceSize32 ∧
        (HashFile.chunkOff pieceSize32 i).toNat ≤ k ∧
        k < (HashFile.chunkOff pieceSize32 i).toNat +
          (HashFile.chunkLen size pieceSize32 i).toNat := by
  intro hall
  obtain ⟨i, ⟨hi, -⟩, -⟩ :=
    hall (UInt64.ofNat (2 ^ 51 - 1)) (by decide +kernel) 0 (by decide +kernel)
  have hzero : HashFile.pieceCount (UInt64.ofNat (2 ^ 51 - 1)) pieceSize32 = 0 := by decide +kernel
  rw [hzero, UInt32.lt_iff_toNat_lt] at hi
  exact absurd hi (Nat.not_lt_zero _)

/-- The hash of a whole file is that of the hashes of the chunks, one after another. -/
lemma hashFile_eq (H : Str → Str) {file : Str} (hsize : file.length ≤ (2 ^ 32 - 1) * pieceSize) :
    hashFile H file = H ((HashFile.chunks file pieceSize).flatMap H) := by
  have hcount : (UInt32.ofNat (pieces file.length)).toNat = pieces file.length := by
    rw [UInt32.toNat_ofNat', Nat.mod_eq_of_lt (pieces_lt hsize)]
  rw [hashFile, hcount, HashFile.chunks, List.flatMap_map, HashFile.parts, pieces]
  congr 1
  refine List.flatMap_congr fun i _ => ?_
  congr 1
  -- a read of a whole piece ends with the file
  rw [readAt, readAt, List.take_eq_take_iff, List.length_drop]
  omega

/-- **The hash of a whole file** is what the threads of `hash_file` return, whatever the
schedule: the uploader announces, and the downloader compares in the end, the same value. -/
theorem hashFile_run {H : Str → Str} {file : Str} {threads cores : UInt32} {s : Pool Str Str}
    (hsize : file.length ≤ (2 ^ 32 - 1) * pieceSize)
    (hcount : pieces file.length +
      (HashFile.threadCount threads cores
        (HashFile.pieceCount (HashFile.fileSize file) pieceSize32)).toNat < 2 ^ 32)
    (hrun : Run (HashFile.hashStep H file pieceSize32) (fun _ e => e.2.All (· ≠ .fail))
      (HashFile.hashThreads file pieceSize32 threads cores) s) (hjoined : s.Joined) :
    HashFile.returned H file pieceSize32 s =
      some (hashFile H file, (HashFile.chunks file pieceSize).flatMap H,
        HashFile.fileSize file) := by
  rw [← parts_pieceSize] at hcount
  obtain ⟨-, -, hreturned⟩ := HashFile.joined_run pieceSize32_pos hcount hrun hjoined
  rw [hreturned, hashFile_eq H hsize]
  rfl

end P2PShare
