import Mathlib.Tactic

/-!
A file as the list of its bytes, read and written at offsets.

* `readAt`, `writeAt`, `resize`: `pread`, `pwrite` and `ftruncate`. A read stops
  at the end of the file; a write behind the end and a longer size fill the gap
  with `z`.
* `Holds f off d`: the file has the bytes `d` at `off`.
* `Holds.writeAt_of_disjoint` (**the frame rule**) and `Holds.writeAt_next`: other
  ranges keep what they hold, and a write that goes on where the last one ended
  extends it.
-/

universe u

namespace Extent

variable {α : Type u}

/-- `pread`: up to `n` bytes from `off` on. -/
def readAt (f : List α) (off n : ℕ) : List α := (f.drop off).take n

/-- `pwrite`: the bytes `d` at `off`. A write of nothing leaves the file. -/
def writeAt (z : α) (f : List α) (off : ℕ) (d : List α) : List α :=
  if d = [] then f
  else
    let g := f ++ List.replicate (off - f.length) z
    g.take off ++ d ++ g.drop (off + d.length)

/-- `ftruncate`. -/
def resize (z : α) (f : List α) (n : ℕ) : List α := (f ++ List.replicate (n - f.length) z).take n

/-- The file has the bytes `d` at `off`. -/
def Holds (f : List α) (off : ℕ) (d : List α) : Prop := readAt f off d.length = d

lemma getElem?_readAt (f : List α) (off n k : ℕ) :
    (readAt f off n)[k]? = if k < n then f[off + k]? else none := by
  rw [readAt, List.getElem?_take]
  split
  · rw [List.getElem?_drop]
  · rfl

lemma length_readAt (f : List α) (off n : ℕ) :
    (readAt f off n).length = min n (f.length - off) := by
  rw [readAt, List.length_take, List.length_drop]

/-- A read ends with the file. -/
lemma readAt_min (f : List α) (off n : ℕ) :
    readAt f off (min n (f.length - off)) = readAt f off n := by
  rw [readAt, readAt, List.take_eq_take_iff, List.length_drop, Nat.min_assoc, Nat.min_self]

/-- A read goes on where the last one ended. -/
lemma readAt_append (f : List α) (off a b : ℕ) :
    readAt f off a ++ readAt f (off + a) b = readAt f off (a + b) := by
  rw [readAt, readAt, readAt, List.take_add, List.drop_drop]

/-- The first bytes of a range, with what the next read returns. -/
lemma readAt_grow {f buf : List α} {off k : ℕ} (hread : buf = readAt f off buf.length)
    (hk : off + buf.length + k ≤ f.length) :
    (buf ++ readAt f (off + buf.length) k).length = buf.length + k ∧
      buf ++ readAt f (off + buf.length) k = readAt f off (buf.length + k) := by
  have hgot : (readAt f (off + buf.length) k).length = k := by
    rw [length_readAt]
    omega
  refine ⟨by rw [List.length_append, hgot], ?_⟩
  calc buf ++ readAt f (off + buf.length) k
      = readAt f off buf.length ++ readAt f (off + buf.length) k := by rw [← hread]
    _ = readAt f off (buf.length + k) := readAt_append _ _ _ _

lemma holds_iff {f : List α} {off : ℕ} {d : List α} :
    Holds f off d ↔ ∀ k < d.length, f[off + k]? = d[k]? := by
  constructor
  · intro h k hk
    have hread := getElem?_readAt f off d.length k
    rw [if_pos hk, h] at hread
    exact hread.symm
  · intro h
    refine List.ext_getElem? fun k => ?_
    rw [getElem?_readAt]
    split
    · next hk => exact h k hk
    · next hk => exact (List.getElem?_eq_none (not_lt.mp hk)).symm

lemma holds_nil (f : List α) (off : ℕ) : Holds f off [] := holds_iff.mpr fun k hk => by simp at hk

/-- A full read finds what it returns. -/
lemma holds_readAt {f : List α} {off n : ℕ} (h : (readAt f off n).length = n) :
    Holds f off (readAt f off n) := by
  rw [Holds, h]

/-- Bytes that are there end within the file. -/
lemma Holds.le_length {f : List α} {off : ℕ} {d : List α} (h : Holds f off d) (hd : d ≠ []) :
    off + d.length ≤ f.length := by
  have hlen := length_readAt f off d.length
  rw [h] at hlen
  have hpos : 0 < d.length := List.length_pos_of_ne_nil hd
  omega

/-! ### Writing -/

lemma length_writeAt (z : α) (f : List α) (off : ℕ) {d : List α} (hd : d ≠ []) :
    (writeAt z f off d).length = max f.length (off + d.length) := by
  simp only [writeAt, hd, if_false, List.length_append, List.length_take, List.length_drop,
    List.length_replicate]
  omega

lemma getElem?_writeAt (z : α) (f : List α) (off : ℕ) {d : List α} {k : ℕ} (hk : k < d.length) :
    (writeAt z f off d)[off + k]? = d[k]? := by
  have hd : d ≠ [] := by
    rintro rfl
    simp at hk
  have htake : ((f ++ List.replicate (off - f.length) z).take off).length = off := by
    simp only [List.length_take, List.length_append, List.length_replicate]
    omega
  simp only [writeAt, hd, if_false]
  rw [List.append_assoc, List.getElem?_append_right (by omega), htake, Nat.add_sub_cancel_left,
    List.getElem?_append_left hk]

lemma getElem?_writeAt_of_outside (z : α) {f : List α} {off : ℕ} {d : List α} {k : ℕ}
    (hf : k < f.length) (hk : k < off ∨ off + d.length ≤ k) : (writeAt z f off d)[k]? = f[k]? := by
  rw [writeAt]
  split
  · rfl
  · have htake : ((f ++ List.replicate (off - f.length) z).take off).length = off := by
      simp only [List.length_take, List.length_append, List.length_replicate]
      omega
    dsimp only
    rcases hk with hk | hk
    · rw [List.append_assoc, List.getElem?_append_left (by omega), List.getElem?_take, if_pos hk,
        List.getElem?_append_left hf]
    · rw [List.getElem?_append_right (by rw [List.length_append]; omega), List.getElem?_drop,
        List.length_append, htake, show off + d.length + (k - (off + d.length)) = k by omega,
        List.getElem?_append_left hf]

/-- **The frame rule**: a write leaves what other ranges hold. -/
lemma Holds.writeAt_of_disjoint {f : List α} {off off' : ℕ} {d e : List α} (h : Holds f off d)
    (z : α) (hdisj : off + d.length ≤ off' ∨ off' + e.length ≤ off) :
    Holds (writeAt z f off' e) off d := by
  refine holds_iff.mpr fun k hk => ?_
  have hd : d ≠ [] := by
    rintro rfl
    simp at hk
  have hlen := h.le_length hd
  rw [getElem?_writeAt_of_outside z (by omega) (by omega)]
  exact holds_iff.mp h k hk

/-- **Writing on**: the next bytes behind those that are there. -/
lemma Holds.writeAt_next {f : List α} {off put k : ℕ} {d : List α} (h : Holds f off (d.take put))
    (z : α) (hput : put ≤ d.length) (hk : put + k ≤ d.length) :
    Holds (writeAt z f (off + put) ((d.drop put).take k)) off (d.take (put + k)) := by
  have hlen : ((d.drop put).take k).length = k := by
    rw [List.length_take, List.length_drop]
    omega
  refine holds_iff.mpr fun j hj => ?_
  have hj' : j < put + k := by simpa [List.length_take] using (List.length_take_le _ _).trans_lt' hj
  rw [List.getElem?_take, if_pos hj']
  by_cases hold : j < put
  · have hkept : Holds (writeAt z f (off + put) ((d.drop put).take k)) off (d.take put) :=
      h.writeAt_of_disjoint z (.inl (by rw [List.length_take]; omega))
    have hfile := holds_iff.mp hkept j (by rw [List.length_take]; omega)
    rw [hfile, List.getElem?_take, if_pos hold]
  · have hnew := getElem?_writeAt z f (off + put) (d := (d.drop put).take k) (k := j - put)
      (by omega)
    rw [show off + put + (j - put) = off + j by omega] at hnew
    rw [hnew, List.getElem?_take, if_pos (by omega), List.getElem?_drop,
      show put + (j - put) = j by omega]

/-! ### Resizing -/

lemma length_resize (z : α) (f : List α) (n : ℕ) : (resize z f n).length = n := by
  simp only [resize, List.length_take, List.length_append, List.length_replicate]
  omega

end Extent
