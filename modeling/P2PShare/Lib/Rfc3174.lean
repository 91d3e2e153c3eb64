import P2PShare.Lib.LittleEndian

/-!
SHA-1 as RFC 3174 defines it, for messages that are byte strings.

* `pad`: the message with the padding of section 4; `length_pad` and `zeros_lt` say that
  it is made of blocks of 64 bytes and that no shorter padding would do.
* `f`, `K`, `W`, `round`, `compress`: the functions, the constants, the word sequence and
  the computation of section 6.1 for one block.
* `process`, `digest`: all blocks, and the message digest; `hex` writes it down.
* `process_append`: whole blocks are processed one after another.
-/

namespace Rfc3174

/-- A word of 32 bits. -/
abbrev Word := UInt32

/-! ### Padding -/

/-- How many bytes of zeros follow the first byte of the padding. -/
def zeros (n : ℕ) : ℕ := (119 - n % 64) % 64

/-- The padded message: a bit 1, bits 0, and the length in bits as two words. -/
def pad (m : List UInt8) : List UInt8 :=
  m ++ [0x80] ++ List.replicate (zeros m.length) 0 ++ (leBytes 8 (8 * m.length)).reverse

/-- The zeros fill the block up to the length. -/
lemma add_zeros_mod (n : ℕ) : (n + 1 + zeros n) % 64 = 56 := by
  rw [zeros]
  omega

lemma zeros_lt (n : ℕ) : zeros n < 64 := Nat.mod_lt _ (by decide)

/-- **The padded message consists of blocks.** -/
lemma length_pad (m : List UInt8) : 64 ∣ (pad m).length := by
  have h := add_zeros_mod m.length
  simp only [pad, List.length_append, List.length_singleton, List.length_replicate,
    List.length_reverse, length_leBytes]
  omega

/-! ### One block -/

/-- `S^n(X)`. -/
def rotl (n : Word) (x : Word) : Word := (x <<< n) ||| (x >>> (32 - n))

/-- `f(t;B,C,D)`. -/
def f (t : ℕ) (b c d : Word) : Word :=
  if t < 20 then (b &&& c) ||| (~~~b &&& d)
  else if t < 40 then b ^^^ c ^^^ d
  else if t < 60 then (b &&& c) ||| (b &&& d) ||| (c &&& d)
  else b ^^^ c ^^^ d

/-- `K(t)`. -/
def K (t : ℕ) : Word :=
  if t < 20 then 0x5A827999
  else if t < 40 then 0x6ED9EBA1
  else if t < 60 then 0x8F1BBCDC
  else 0xCA62C1D6

/-- The word `i` of a block, its leftmost byte being the most significant. -/
def word (block : List UInt8) (i : ℕ) : Word :=
  UInt32.ofNat (leNat ((block.drop (4 * i)).take 4).reverse)

/-- `W(t)`. -/
def W (block : List UInt8) (t : ℕ) : Word :=
  if t < 16 then word block t
  else rotl 1 (W block (t - 3) ^^^ W block (t - 8) ^^^ W block (t - 14) ^^^ W block (t - 16))

/-- Five words: the buffers `A` to `E`, or `H0` to `H4`. -/
@[ext]
structure Words where
  a : Word
  b : Word
  c : Word
  d : Word
  e : Word
deriving DecidableEq

/-- The initial values of `H0` to `H4`. -/
def init : Words := ⟨0x67452301, 0xEFCDAB89, 0x98BADCFE, 0x10325476, 0xC3D2E1F0⟩

/-- Step `t` for the word `w`. -/
def round (w : Word) (t : ℕ) (r : Words) : Words :=
  let temp := rotl 5 r.a + f t r.b r.c r.d + r.e + w + K t
  ⟨temp, r.a, rotl 30 r.b, r.c, r.d⟩

/-- One block. -/
def compress (h : Words) (block : List UInt8) : Words :=
  let r := (List.range 80).foldl (fun r t => round (W block t) t r) h
  ⟨h.a + r.a, h.b + r.b, h.c + r.c, h.d + r.d, h.e + r.e⟩

/-! ### All blocks -/

/-- One block after the other. -/
def process (h : Words) (bytes : List UInt8) : Words :=
  if bytes.length < 64 then h
  else process (compress h (bytes.take 64)) (bytes.drop 64)
termination_by bytes.length
decreasing_by
  rw [List.length_drop]
  omega

/-- The bytes of five words. -/
def Words.bytes (h : Words) : List UInt8 :=
  [h.a, h.b, h.c, h.d, h.e].flatMap fun w => (leBytes 4 w.toNat).reverse

/-- **The message digest.** -/
def digest (m : List UInt8) : List UInt8 := (process init (pad m)).bytes

/-- A hexadecimal digit in lower case. -/
def hexDigit (n : ℕ) : UInt8 := UInt8.ofNat (if n < 10 then 48 + n else 87 + n)

/-- Two digits for each byte. -/
def hex (bytes : List UInt8) : List UInt8 :=
  bytes.flatMap fun b => [hexDigit (b.toNat / 16), hexDigit (b.toNat % 16)]

lemma length_hex (bytes : List UInt8) : (hex bytes).length = 2 * bytes.length := by
  induction bytes with
  | nil => rfl
  | cons b bytes ih =>
      rw [hex, List.flatMap_cons, List.length_append, ← hex, ih, List.length_cons]
      simp only [List.length_cons, List.length_nil]
      ring

lemma length_digest (m : List UInt8) : (digest m).length = 20 := by
  rw [digest, Words.bytes]
  simp only [List.flatMap_cons, List.flatMap_nil, List.append_nil, List.length_append,
    List.length_reverse, length_leBytes]

/-! ### Blocks follow one another -/

lemma process_of_lt {h : Words} {bytes : List UInt8} (hlen : bytes.length < 64) :
    process h bytes = h := by
  rw [process, if_pos hlen]

lemma process_of_le {h : Words} {bytes : List UInt8} (hlen : 64 ≤ bytes.length) :
    process h bytes = process (compress h (bytes.take 64)) (bytes.drop 64) := by
  rw [process, if_neg (by omega)]

/-- **Whole blocks are processed one after another.** -/
lemma process_append (h : Words) (xs ys : List UInt8) (hxs : 64 ∣ xs.length) :
    process h (xs ++ ys) = process (process h xs) ys := by
  obtain ⟨n, hn⟩ := hxs
  induction n generalizing h xs with
  | zero =>
      obtain rfl := List.length_eq_zero_iff.mp hn
      rw [List.nil_append, process_of_lt (show ([] : List UInt8).length < 64 by decide)]
  | succ n ih =>
      have hle : 64 ≤ xs.length := by omega
      have hrest : (xs.drop 64).length = 64 * n := by
        rw [List.length_drop]
        omega
      rw [process_of_le (show 64 ≤ (xs ++ ys).length by rw [List.length_append]; omega),
        List.take_append_of_le_length hle, List.drop_append_of_le_length hle, ih _ _ hrest,
        process_of_le hle]

/-- A single block. -/
lemma process_block {h : Words} {block : List UInt8} (hlen : block.length = 64) :
    process h block = compress h block := by
  have hrest : (block.drop 64).length < 64 := by
    rw [List.length_drop]
    omega
  rw [process_of_le hlen.ge, List.take_of_length_le hlen.le, process_of_lt hrest]

end Rfc3174
