import Mathlib.Data.Nat.Bitwise
import Mathlib.Tactic

/-!
Sets of numbers below `n` as bitmaps, the most significant bit of each byte
first.

* `Bitmap n`: as many bytes as `n` bits take; `test` and `set` address a bit as
  `b[i / 8] & (0x80 >> (i % 8))` does.
* `test_set` (**the set rule**), `test_empty` and `test_full`: which numbers are in
  the set after an insertion and at the start; `test_foldl_set` for a loop of
  insertions.
-/

/-- A bitmap with a bit for each number below `n`. -/
structure Bitmap (n : ℕ) where
  bytes : List UInt8
  length_bytes : bytes.length = (n + 7) / 8
deriving DecidableEq

namespace Bitmap

variable {n : ℕ}

/-- The bit of a number in its byte. -/
def mask (i : ℕ) : UInt8 := 0x80 >>> UInt8.ofNat (i % 8)

/-- No number. -/
def empty (n : ℕ) : Bitmap n := ⟨List.replicate ((n + 7) / 8) 0, List.length_replicate⟩

/-- All bytes `0xFF`. -/
def full (n : ℕ) : Bitmap n := ⟨List.replicate ((n + 7) / 8) 0xFF, List.length_replicate⟩

/-- The bit of a number in a list of bytes. -/
def testBytes (bytes : List UInt8) (i : ℕ) : Bool := bytes.getD (i / 8) 0 &&& mask i != 0

/-- The number is in the set. -/
def test (b : Bitmap n) (i : ℕ) : Bool := testBytes b.bytes i

/-- The set with one more number. -/
def set (b : Bitmap n) (i : ℕ) : Bitmap n :=
  ⟨b.bytes.modify (i / 8) (· ||| mask i), by rw [List.length_modify, b.length_bytes]⟩

/-! ### One byte -/

lemma toNat_mask (i : ℕ) : (mask i).toNat = 2 ^ (7 - i % 8) := by
  have hbyte : ∀ r < 8, ((0x80 : UInt8) >>> UInt8.ofNat r).toNat = 2 ^ (7 - r) := by decide
  exact hbyte (i % 8) (Nat.mod_lt i (by decide))

lemma and_mask (x : UInt8) (i : ℕ) : (x &&& mask i != 0) = x.toNat.testBit (7 - i % 8) := by
  have hnat : (x &&& mask i).toNat = (x.toNat.testBit (7 - i % 8)).toNat * 2 ^ (7 - i % 8) := by
    rw [UInt8.toNat_and, toNat_mask, Nat.and_two_pow]
  have hzero : x &&& mask i = 0 ↔ (x &&& mask i).toNat = 0 := by
    rw [← UInt8.toNat_inj]
    rfl
  cases hbit : x.toNat.testBit (7 - i % 8) with
  | false =>
      rw [hbit] at hnat
      simpa [hzero] using hnat
  | true =>
      rw [hbit] at hnat
      have hpos : (x &&& mask i).toNat ≠ 0 := by rw [hnat]; simp
      simpa [hzero] using hpos

/-- A mask adds its own bit to a byte. -/
lemma or_mask_and_mask (x : UInt8) (i j : ℕ) :
    ((x ||| mask i) &&& mask j != 0) = ((x &&& mask j != 0) || decide (i % 8 = j % 8)) := by
  rw [and_mask, and_mask, UInt8.toNat_or, Nat.testBit_or, toNat_mask, Nat.testBit_two_pow]
  congr 1
  have hi := Nat.mod_lt i (show 0 < 8 by decide)
  have hj := Nat.mod_lt j (show 0 < 8 by decide)
  exact decide_eq_decide.mpr (by omega)

/-! ### The set -/

@[simp] lemma test_empty (i : ℕ) : (empty n).test i = false := by
  have hzero : (List.replicate ((n + 7) / 8) (0 : UInt8)).getD (i / 8) 0 = 0 := by
    rw [List.getD_eq_getElem?_getD, List.getElem?_replicate]
    split <;> rfl
  rw [test, testBytes, empty, hzero]
  simp

lemma test_full {i : ℕ} (hi : i < n) : (full n).test i = true := by
  have hbyte : (List.replicate ((n + 7) / 8) (0xFF : UInt8)).getD (i / 8) 0 = 0xFF := by
    rw [List.getD_eq_getElem?_getD, List.getElem?_replicate, if_pos (by omega)]
    rfl
  have hbits : ∀ r < 8, (0xFF : UInt8).toNat.testBit (7 - r) = true := by decide
  rw [test, testBytes, full, hbyte, and_mask]
  exact hbits (i % 8) (Nat.mod_lt i (by decide))

/-- **The set rule.** -/
lemma test_set (b : Bitmap n) {i : ℕ} (hi : i < n) (j : ℕ) :
    (b.set i).test j = (b.test j || decide (i = j)) := by
  rw [test, test, testBytes, testBytes, set, List.getD_eq_getElem?_getD, List.getElem?_modify,
    List.getD_eq_getElem?_getD]
  by_cases hbyte : i / 8 = j / 8
  · have hlt : j / 8 < b.bytes.length := by
      rw [b.length_bytes]
      omega
    have hij : (i % 8 = j % 8) ↔ i = j := by omega
    rw [List.getElem?_eq_getElem hlt]
    simp [hbyte, or_mask_and_mask, hij]
  · have hij : i ≠ j := fun h => hbyte (by rw [h])
    simp [hbyte, hij]

/-- A number stays in the set. -/
lemma test_set_of_test (b : Bitmap n) {i j : ℕ} (hi : i < n) (hj : b.test j = true) :
    (b.set i).test j = true := by
  rw [test_set b hi, hj]
  rfl

/-- A loop that inserts the numbers that pass a check. -/
lemma test_foldl_set (b : Bitmap n) (p : ℕ → Bool) {is : List ℕ} (his : ∀ i ∈ is, i < n) (j : ℕ) :
    (is.foldl (fun b i => if p i then b.set i else b) b).test j =
      (b.test j || decide (j ∈ is ∧ p j = true)) := by
  induction is generalizing b with
  | nil => simp
  | cons i is ih =>
      have hi : i < n := his i List.mem_cons_self
      rw [List.foldl_cons, ih _ fun k hk => his k (List.mem_cons_of_mem i hk)]
      by_cases hp : p i
      · rw [if_pos hp, test_set b hi, Bool.or_assoc]
        congr 1
        by_cases hij : i = j
        · subst hij
          simp [hp]
        · simp [hij, Ne.symm hij]
      · rw [if_neg hp]
        congr 1
        refine decide_eq_decide.mpr ?_
        rw [List.mem_cons, or_and_right]
        refine ⟨.inr, fun h => h.resolve_left ?_⟩
        rintro ⟨rfl, hj⟩
        exact hp hj

end Bitmap
