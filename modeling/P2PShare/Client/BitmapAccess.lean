import P2PShare.Client.Chunks
import P2PShare.Lib.Runs

/-!
The bytes of the bitmap that the operations of `PieceStore` access.

* `RawStore`: the fields of `PieceStore` with their widths, and a bitmap of any size;
  `bitmapBytes`, the size that it gets when it is opened.
* `StoreOp` and `RawStore.after`: the public operations; `accesses`: the indices `index / 8` at
  which each of them reads or writes the bitmap.
* `in_range_iff`: no operation, whichever comes next, accesses a byte that is not there, exactly
  if the number of pieces leaves room for the sum in `bitmap_bytes` and `set_bitfield` gets enough
  bytes. `have_opened`: then the bitmap is that of `PieceStore`.
-/

namespace P2PShare

open PieceStore

/-- `PieceStore`: whether `fd_` is open, and the other fields. -/
structure RawStore where
  isOpen : Bool
  size : UInt64
  pieceCount : UInt32
  have_ : List UInt8
deriving DecidableEq

/-- The public operations, with what the files make of them: whether a file can be opened and
truncated, what a scan finds, and whether `pwrite` succeeds. `complete` goes through
`have_count`. -/
inductive StoreOp
  | openForSeed (size : UInt64) (pieceCount : UInt32) (opens : Bool)
  | openForDownload (size : UInt64) (pieceCount : UInt32) (opens truncates : Bool)
  | resumeScan (pieceHashes : List Str) (valid : ℕ → Bool)
  | readPiece (index : UInt32)
  | writePiece (index : UInt32) (data expectedHash : Str) (writes : Bool)
  | have' (index : UInt32)
  | haveCount
  | setBitfield (bits : List UInt8)

namespace RawStore

/-- Before it is opened. -/
def init : RawStore := ⟨false, 0, 0, []⟩

/-- `bitmap_bytes`: the sum is one of 32 bits. -/
def bitmapBytes (n : UInt32) : ℕ := ((n + 7) / 8).toNat

/-- `n` in `resume_scan`: the number of hashes is cast to 32 bits. -/
def scanned (s : RawStore) (pieceHashes : List Str) : ℕ :=
  min s.pieceCount.toNat (UInt32.ofNat pieceHashes.length).toNat

variable (H : Str → Str)

/-- `write_piece` gets to its end. -/
def writePiece (s : RawStore) (index : UInt32) (data expectedHash : Str) (writes : Bool) : Bool :=
  decide (index < s.pieceCount ∧ data.length = (pieceLen32 s.size s.pieceCount index).toNat ∧
    H data = expectedHash) && s.isOpen && writes

/-- The indices at which an operation accesses the bitmap. -/
def accesses (s : RawStore) : StoreOp → List ℕ
  | .openForSeed .. | .openForDownload .. | .setBitfield _ => []
  | .resumeScan pieceHashes valid =>
      if s.isOpen then ((List.range (s.scanned pieceHashes)).filter valid).map (· / 8) else []
  | .readPiece index => if s.isOpen ∧ index < s.pieceCount then [index.toNat / 8] else []
  | .writePiece index data expectedHash writes =>
      if s.writePiece H index data expectedHash writes then [index.toNat / 8] else []
  | .have' index => if index < s.pieceCount then [index.toNat / 8] else []
  | .haveCount => (List.range s.pieceCount.toNat).map (· / 8)

/-- `have_[index / 8] |= 0x80u >> (index % 8)`. -/
def setBit (bits : List UInt8) (index : ℕ) : List UInt8 :=
  bits.modify (index / 8) (· ||| Bitmap.mask index)

/-- The store after an operation. -/
def after (s : RawStore) : StoreOp → RawStore
  | .openForSeed size pieceCount opens =>
      if opens then ⟨true, size, pieceCount, List.replicate (bitmapBytes pieceCount) 0xFF⟩
      else { s with isOpen := false }
  | .openForDownload size pieceCount opens truncates =>
      if opens ∧ truncates then
        ⟨true, size, pieceCount, List.replicate (bitmapBytes pieceCount) 0⟩
      else { s with isOpen := false }
  | .resumeScan pieceHashes valid =>
      if s.isOpen then
        { s with have_ := ((List.range (s.scanned pieceHashes)).filter valid).foldl setBit s.have_ }
      else s
  | .writePiece index data expectedHash writes =>
      if s.writePiece H index data expectedHash writes then
        { s with have_ := setBit s.have_ index.toNat }
      else s
  | .setBitfield bits => { s with have_ := bits }
  | .readPiece _ | .have' _ | .haveCount => s

def step (s : RawStore) (op : StoreOp) : Option RawStore := some (s.after H op)

/-- **Accesses stay in range**, whichever operation comes next. -/
def InRange (s : RawStore) : Prop := ∀ op, ∀ a ∈ s.accesses H op, a < s.have_.length

/-- **The condition**: a store that can be opened has at most `2 ^ 32 - 8` pieces, and a bitmap
that is set has a bit for each of them. -/
def Fits (s : RawStore) : StoreOp → Prop
  | .openForSeed _ pieceCount opens => opens = true → pieceCount.toNat ≤ 2 ^ 32 - 8
  | .openForDownload _ pieceCount opens truncates =>
      opens = true ∧ truncates = true → pieceCount.toNat ≤ 2 ^ 32 - 8
  | .setBitfield bits => s.pieceCount.toNat ≤ 8 * bits.length
  | .resumeScan .. | .readPiece _ | .writePiece .. | .have' _ | .haveCount => True

/-! ### The size of the bitmap -/

variable {H} {s : RawStore}

/-- **Where the sum does not wrap around**, there is a bit for each piece. -/
lemma le_bitmapBytes_iff (n : UInt32) : n.toNat ≤ 8 * bitmapBytes n ↔ n.toNat ≤ 2 ^ 32 - 8 := by
  have hn := n.toNat_lt
  have hbytes : bitmapBytes n = (n.toNat + 7) % 2 ^ 32 / 8 := by
    rw [bitmapBytes, UInt32.toNat_div, UInt32.toNat_add]
    rfl
  rw [hbytes]
  omega

lemma bitmapBytes_eq {n : UInt32} (hn : n.toNat ≤ 2 ^ 32 - 8) :
    bitmapBytes n = (n.toNat + 7) / 8 := by
  rw [bitmapBytes, UInt32.toNat_div, UInt32.toNat_add]
  rw [show (7 : UInt32).toNat = 7 from rfl, Nat.mod_eq_of_lt (by omega)]
  rfl

/-- The bitmap of a store that has been opened is that of `PieceStore`. -/
lemma have_opened {file : Str} {size : UInt64} {pieceCount : UInt32} {st : PieceStore}
    (hpieces : pieceCount.toNat ≤ 2 ^ 32 - 8)
    (hopen : PieceStore.openForDownload file size pieceCount.toNat = some st) :
    (s.after H (.openForDownload size pieceCount true true)).have_ = st.have_.bytes := by
  obtain ⟨-, rfl⟩ := openForDownload_eq_some.mp hopen
  rw [after, if_pos ⟨rfl, rfl⟩, bitmapBytes_eq hpieces]
  rfl

lemma length_setBit (bits : List UInt8) (index : ℕ) : (setBit bits index).length = bits.length :=
  List.length_modify _ _ _

lemma length_foldl_setBit (is : List ℕ) (bits : List UInt8) :
    (is.foldl setBit bits).length = bits.length := by
  induction is generalizing bits with
  | nil => rfl
  | cons i is ih => rw [List.foldl_cons, ih, length_setBit]

/-! ### The accesses -/

/-- An operation accesses bits of pieces only. -/
lemma exists_of_access {op : StoreOp} {a : ℕ} (ha : a ∈ s.accesses H op) :
    ∃ i < s.pieceCount.toNat, a = i / 8 := by
  cases op with
  | openForSeed | openForDownload | setBitfield => cases ha
  | resumeScan pieceHashes valid =>
      rw [accesses] at ha
      split at ha
      · obtain ⟨i, hi, rfl⟩ := List.mem_map.mp ha
        have hlt := List.mem_range.mp (List.mem_filter.mp hi).1
        exact ⟨i, lt_of_lt_of_le hlt (Nat.min_le_left _ _), rfl⟩
      · cases ha
  | readPiece index =>
      rw [accesses] at ha
      split at ha
      · next h => exact ⟨index.toNat, UInt32.lt_iff_toNat_lt.mp h.2, List.mem_singleton.mp ha⟩
      · cases ha
  | writePiece index data expectedHash writes =>
      rw [accesses] at ha
      split at ha
      · next h =>
          simp only [writePiece, Bool.and_eq_true, decide_eq_true_eq] at h
          exact ⟨index.toNat, UInt32.lt_iff_toNat_lt.mp h.1.1.1, List.mem_singleton.mp ha⟩
      · cases ha
  | have' index =>
      rw [accesses] at ha
      split at ha
      · next h => exact ⟨index.toNat, UInt32.lt_iff_toNat_lt.mp h, List.mem_singleton.mp ha⟩
      · cases ha
  | haveCount =>
      obtain ⟨i, hi, rfl⟩ := List.mem_map.mp ha
      exact ⟨i, List.mem_range.mp hi, rfl⟩

/-- **What it takes**: a bit for each piece. -/
lemma inRange_iff : s.InRange H ↔ s.pieceCount.toNat ≤ 8 * s.have_.length := by
  constructor
  · intro h
    by_contra hlt
    -- `have_count` looks at the bit of the last piece
    have hmem : (s.pieceCount.toNat - 1) / 8 ∈ s.accesses H .haveCount :=
      List.mem_map.mpr ⟨_, List.mem_range.mpr (by omega), rfl⟩
    have hin := h .haveCount _ hmem
    omega
  · intro h op a ha
    obtain ⟨i, hi, rfl⟩ := exists_of_access ha
    omega

/-- The step lemma. -/
lemma inRange_after_iff (h : s.InRange H) (op : StoreOp) :
    (s.after H op).InRange H ↔ s.Fits op := by
  have hsize := inRange_iff.mp h
  rw [inRange_iff]
  cases op with
  | openForSeed size pieceCount opens =>
      rw [after, Fits]
      split
      · next hopens =>
          rw [List.length_replicate, le_bitmapBytes_iff]
          exact ⟨fun hn _ => hn, fun hn => hn hopens⟩
      · next hopens => exact iff_of_true hsize fun h => absurd h hopens
  | openForDownload size pieceCount opens truncates =>
      rw [after, Fits]
      split
      · next hopens =>
          rw [List.length_replicate, le_bitmapBytes_iff]
          exact ⟨fun hn _ => hn, fun hn => hn hopens⟩
      · next hopens => exact iff_of_true hsize fun h => absurd h hopens
  | resumeScan pieceHashes valid =>
      rw [after, Fits]
      split
      · refine iff_of_true ?_ trivial
        rw [length_foldl_setBit]
        exact hsize
      · exact iff_of_true hsize trivial
  | writePiece index data expectedHash writes =>
      rw [after, Fits]
      split
      · refine iff_of_true ?_ trivial
        rw [length_setBit]
        exact hsize
      · exact iff_of_true hsize trivial
  | setBitfield bits => exact Iff.rfl
  | readPiece | have' | haveCount => exact iff_of_true hsize trivial

/-- **When the accesses stay in range**: in every sequence of operations they do, whichever comes
next at any point, exactly if no store of more than `2 ^ 32 - 8` pieces is opened and no bitmap is
set that is too short for the pieces. -/
theorem in_range_iff (H : Str → Str) (ops : List StoreOp) :
    Throughout (step H) (InRange H) init ops ↔ Meets (step H) Fits init ops := by
  refine throughout_iff_meets (J := fun _ => True) (fun {s op} _ h => ?_) trivial
    (inRange_iff.mpr (Nat.zero_le _))
  exact ⟨_, rfl, trivial, inRange_after_iff h op⟩

/-- **No bitmap for `2 ^ 32 - 1` pieces**: the sum wraps around, and the first bit is out of
range. -/
theorem out_of_range :
    ¬ Throughout (step id) (InRange id) init [.openForDownload 0 0xFFFFFFFF true true] := by
  rintro ⟨-, h⟩
  have hin := h _ rfl (.have' 0) 0 (by decide +kernel)
  revert hin
  decide +kernel

end RawStore

end P2PShare
