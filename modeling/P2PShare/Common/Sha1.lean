import P2PShare.Common.Protocol
import P2PShare.Lib.Rfc3174
import Mathlib.Data.List.GetD

/-!
`common/sha1.hpp` and `common/sha1.cpp`: the class `SHA1`.

* `SHA1`: the fields of an object, with the bounds that its buffer has between two calls;
  `transform`, `update` and `finalHex` are its functions, loop by loop.
* `transform_eq`: one block is what the standard computes for it.
* `Absorbed` (**the invariant**): the whole blocks of what has been put in are processed
  and the rest is in the buffer. `Absorbed.update` keeps it.
* `final_hex_eq` (**the class computes SHA-1**): for every way of cutting the input.
-/

namespace P2PShare

open Rfc3174 (Words)

/-- `rol`. -/
def rol (v b : UInt32) : UInt32 := (v <<< b) ||| (v >>> (32 - b))

/-! ### `transform` -/

/-- The first 16 of the words `w`, which are put together from bytes. -/
def bigEndian (p : Str) (i : ℕ) : UInt32 :=
  ((p.getD (4 * i) 0).toUInt32 <<< 24) ||| ((p.getD (4 * i + 1) 0).toUInt32 <<< 16) |||
    ((p.getD (4 * i + 2) 0).toUInt32 <<< 8) ||| (p.getD (4 * i + 3) 0).toUInt32

/-- The array `w`, once the two loops in front have filled it. -/
def schedule (p : Str) : List UInt32 :=
  let w := (List.range' 0 16).foldl (fun w i => w.set i (bigEndian p i)) (List.replicate 80 0)
  (List.range' 16 64).foldl
    (fun w i => w.set i
      (rol (w.getD (i - 3) 0 ^^^ w.getD (i - 8) 0 ^^^ w.getD (i - 14) 0 ^^^ w.getD (i - 16) 0) 1)) w

/-- The body of the third loop. -/
def rotate (w : List UInt32) (i : ℕ) (r : Words) : Words :=
  let (f, k) : UInt32 × UInt32 :=
    if i < 20 then ((r.b &&& r.c) ||| (~~~r.b &&& r.d), 0x5A827999)
    else if i < 40 then (r.b ^^^ r.c ^^^ r.d, 0x6ED9EBA1)
    else if i < 60 then ((r.b &&& r.c) ||| (r.b &&& r.d) ||| (r.c &&& r.d), 0x8F1BBCDC)
    else (r.b ^^^ r.c ^^^ r.d, 0xCA62C1D6)
  let t := rol r.a 5 + f + r.e + k + w.getD i 0
  ⟨t, r.a, rol r.b 30, r.c, r.d⟩

/-- `transform`: the new `h_`. -/
def transform (h : Words) (p : Str) : Words :=
  let w := schedule p
  let r := (List.range 80).foldl (fun r i => rotate w i r) h
  ⟨h.a + r.a, h.b + r.b, h.c + r.c, h.d + r.d, h.e + r.e⟩

/-! ### The class -/

/-- `SHA1`. Between two calls the buffer is never full. -/
structure SHA1 where
  h : Words
  buf : Str
  bufUsed : ℕ
  totalBits : UInt64
  buf_len : buf.length = 64
  used_lt : bufUsed < 64

namespace SHA1

/-- `memcpy(buf + off, p, n)`, where `data` are the `n` bytes at `p`. -/
def memcpy (buf : Str) (off : ℕ) (data : Str) : Str :=
  buf.take off ++ data ++ buf.drop (off + data.length)

lemma length_memcpy {buf data : Str} {off : ℕ} (h : off + data.length ≤ buf.length) :
    (memcpy buf off data).length = buf.length := by
  simp only [memcpy, List.length_append, List.length_take, List.length_drop]
  omega

/-- The bytes up to the end of what has been copied. -/
lemma take_memcpy {buf : Str} {off : ℕ} (h : off ≤ buf.length) (data : Str) :
    (memcpy buf off data).take (off + data.length) = buf.take off ++ data := by
  have hlen : (buf.take off ++ data).length = off + data.length := by
    rw [List.length_append, List.length_take, Nat.min_eq_left h]
  rw [memcpy, ← hlen, List.take_left]

/-- The constructor and `reset`: the buffer has no initial value. -/
def fresh (buf : Str) (h : buf.length = 64) : SHA1 :=
  ⟨⟨0x67452301, 0xEFCDAB89, 0x98BADCFE, 0x10325476, 0xC3D2E1F0⟩, buf, 0, 0, h, by decide⟩

/-- One turn of the loop in `update`: it copies `data` and processes the buffer when it
is full. -/
def turn (s : SHA1) (data : Str) (h : s.bufUsed + data.length ≤ 64) : SHA1 :=
  let buf := memcpy s.buf s.bufUsed data
  have hlen : buf.length = 64 := by rw [length_memcpy (by rw [s.buf_len]; exact h), s.buf_len]
  if hfull : s.bufUsed + data.length = 64 then
    ⟨transform s.h buf, buf, 0, s.totalBits, hlen, by decide⟩
  else ⟨s.h, buf, s.bufUsed + data.length, s.totalBits, hlen, by omega⟩

/-- What a turn takes fits into the buffer. -/
lemma turn_fits (s : SHA1) (p : Str) :
    s.bufUsed + (p.take (min (64 - s.bufUsed) p.length)).length ≤ 64 := by
  have hused := s.used_lt
  rw [List.length_take]
  omega

/-- The loop of `update`. -/
def updateLoop (s : SHA1) (p : Str) : SHA1 :=
  if p = [] then s
  else
    let take := min (64 - s.bufUsed) p.length
    updateLoop (s.turn (p.take take) (s.turn_fits p)) (p.drop take)
termination_by p.length
decreasing_by
  next hp =>
    have hpos := List.length_pos_iff.mpr hp
    have hused := s.used_lt
    rw [List.length_drop]
    omega

/-- `update`. -/
def update (s : SHA1) (data : Str) : SHA1 :=
  updateLoop { s with totalBits := s.totalBits + UInt64.ofNat data.length * 8 } data

lemma bufUsed_turn (s : SHA1) (data : Str) (h : s.bufUsed + data.length ≤ 64) :
    (s.turn data h).bufUsed = (s.bufUsed + data.length) % 64 := by
  rw [turn]
  split
  · next hfull => rw [hfull]
  · next hfull =>
      have hlt : s.bufUsed + data.length < 64 := by omega
      exact (Nat.mod_eq_of_lt hlt).symm

/-- How full the buffer is afterwards. -/
lemma bufUsed_updateLoop (s : SHA1) (p : Str) :
    (s.updateLoop p).bufUsed = (s.bufUsed + p.length) % 64 := by
  induction s, p using updateLoop.induct with
  | case1 s =>
      rw [updateLoop, if_pos rfl, List.length_nil, Nat.add_zero, Nat.mod_eq_of_lt s.used_lt]
  | case2 s p hp take ih =>
      have htake : (p.take take).length + (p.drop take).length = p.length := by
        rw [← List.length_append, List.take_append_drop]
      rw [updateLoop, if_neg hp, ih, bufUsed_turn, ← htake]
      omega

lemma bufUsed_update (s : SHA1) (data : Str) :
    (s.update data).bufUsed = (s.bufUsed + data.length) % 64 := bufUsed_updateLoop _ data

/-- The padding loop of `final_hex`. -/
def padLoop (s : SHA1) : SHA1 :=
  if s.bufUsed = 56 then s else padLoop (s.update [0])
termination_by (120 - s.bufUsed) % 64
decreasing_by
  have hused := s.used_lt
  rw [bufUsed_update, List.length_singleton]
  omega

/-- A number in hexadecimal digits with `snprintf` and `"%08x"`. -/
def hex08 (v : UInt32) : Str :=
  let digits := ((Nat.digits 16 v.toNat).map Rfc3174.hexDigit).reverse
  List.replicate (8 - digits.length) 48 ++ digits

/-- `final_hex`. -/
def finalHex (s : SHA1) : Str :=
  let bits := s.totalBits
  let s := padLoop (s.update [0x80])
  let len := (List.range 8).map fun i => ((bits >>> UInt64.ofNat (56 - 8 * i)) &&& 0xFF).toUInt8
  let h := transform s.h (memcpy s.buf s.bufUsed len)
  hex08 h.a ++ hex08 h.b ++ hex08 h.c ++ hex08 h.d ++ hex08 h.e

/-- `hash_buffer`. -/
def hashBuffer (data : Str) : Str :=
  ((fresh (List.replicate 64 0) List.length_replicate).update data).finalHex

end SHA1

/-! ### Words -/

open Rfc3174

/-- A byte in its place in a word. -/
lemma toNat_shift (a : UInt8) {n : ℕ} (hn : n ≤ 24) :
    (a.toUInt32 <<< UInt32.ofNat n).toNat = 2 ^ n * a.toNat := by
  have ha := a.toNat_lt
  have hpow : 2 ^ n * a.toNat < 2 ^ 32 := calc
    2 ^ n * a.toNat < 2 ^ n * 2 ^ 8 := Nat.mul_lt_mul_of_pos_left ha (Nat.two_pow_pos n)
    _ = 2 ^ (n + 8) := (Nat.pow_add ..).symm
    _ ≤ 2 ^ 32 := Nat.pow_le_pow_right (by decide) (by omega)
  rw [UInt32.toNat_shiftLeft, UInt8.toNat_toUInt32, UInt32.toNat_ofNat',
    Nat.mod_mod_of_dvd n (by decide), Nat.mod_eq_of_lt (by omega : n < 32), Nat.shiftLeft_eq,
    Nat.mul_comm, Nat.mod_eq_of_lt hpow]

/-- Four bytes put together are the word that they make up. -/
lemma or_shift (a b c d : UInt8) :
    (a.toUInt32 <<< 24) ||| (b.toUInt32 <<< 16) ||| (c.toUInt32 <<< 8) ||| d.toUInt32 =
      UInt32.ofNat (leNat [d, c, b, a]) := by
  have ha := a.toNat_lt
  have hb := b.toNat_lt
  have hc := c.toNat_lt
  have hd := d.toNat_lt
  have h₁ : 2 ^ 24 * a.toNat ||| 2 ^ 16 * b.toNat = 2 ^ 16 * (2 ^ 8 * a.toNat + b.toNat) := by
    rw [← Nat.two_pow_add_eq_or_of_lt (by omega)]
    ring
  have h₂ : 2 ^ 16 * (2 ^ 8 * a.toNat + b.toNat) ||| 2 ^ 8 * c.toNat =
      2 ^ 8 * (2 ^ 8 * (2 ^ 8 * a.toNat + b.toNat) + c.toNat) := by
    rw [← Nat.two_pow_add_eq_or_of_lt (by omega)]
    ring
  have h₃ : 2 ^ 8 * (2 ^ 8 * (2 ^ 8 * a.toNat + b.toNat) + c.toNat) ||| d.toNat =
      leNat [d, c, b, a] := by
    rw [← Nat.two_pow_add_eq_or_of_lt (by omega)]
    simp only [leNat]
    omega
  have hlt : leNat [d, c, b, a] < 2 ^ 32 := (leNat_lt [d, c, b, a]).trans_eq (by norm_num)
  refine UInt32.toNat_inj.mp ?_
  rw [UInt32.toNat_or, UInt32.toNat_or, UInt32.toNat_or, UInt8.toNat_toUInt32 d,
    show (a.toUInt32 <<< 24).toNat = _ from toNat_shift a (by decide : 24 ≤ 24),
    show (b.toUInt32 <<< 16).toNat = _ from toNat_shift b (by decide : 16 ≤ 24),
    show (c.toUInt32 <<< 8).toNat = _ from toNat_shift c (by decide : 8 ≤ 24), h₁, h₂, h₃,
    UInt32.toNat_ofNat', Nat.mod_eq_of_lt hlt]

/-- A word of a block as `transform` puts it together. -/
lemma bigEndian_eq {p : Str} {i : ℕ} (h : 4 * i + 4 ≤ p.length) : bigEndian p i = word p i := by
  have hfour : (p.drop (4 * i)).take 4 =
      [p.getD (4 * i) 0, p.getD (4 * i + 1) 0, p.getD (4 * i + 2) 0, p.getD (4 * i + 3) 0] := by
    refine List.ext_getElem (by simp; omega) fun j hj hj' => ?_
    have hj4 : j < 4 := by simpa using hj'
    rw [List.getElem_take, List.getElem_drop]
    rcases j with _ | _ | _ | _ | j
    · rw [List.getElem_cons_zero, List.getD_eq_getElem _ _ (by omega)]; rfl
    · rw [List.getElem_cons_succ, List.getElem_cons_zero, List.getD_eq_getElem _ _ (by omega)]
    · simp only [List.getElem_cons_succ, List.getElem_cons_zero]
      rw [List.getD_eq_getElem _ _ (by omega)]
    · simp only [List.getElem_cons_succ, List.getElem_cons_zero]
      rw [List.getD_eq_getElem _ _ (by omega)]
    · omega
  rw [bigEndian, or_shift, word, hfour]
  rfl

/-! ### One block -/

lemma getD_set_self {w : List UInt32} {i : ℕ} (v : UInt32) (h : i < w.length) :
    (w.set i v).getD i 0 = v := by
  rw [List.getD_eq_getElem _ _ (by rwa [List.length_set]), List.getElem_set_self]

lemma getD_set_ne {w : List UInt32} {i j : ℕ} (v : UInt32) (h : i ≠ j) :
    (w.set i v).getD j 0 = w.getD j 0 := by
  rw [List.getD_eq_getElem?_getD, List.getD_eq_getElem?_getD, List.getElem?_set_ne h]

/-- A loop that fills the array from `s` on: what it writes depends on what stands in
front. -/
lemma fill_loop {g : List UInt32 → ℕ → UInt32} {word : ℕ → UInt32} (s n : ℕ) {w : List UInt32}
    (hlen : s + n ≤ w.length) (hw : ∀ t < s, w.getD t 0 = word t)
    (hg : ∀ (w' : List UInt32) (i : ℕ), s ≤ i → i < s + n → (∀ t < i, w'.getD t 0 = word t) →
      g w' i = word i) :
    ((List.range' s n).foldl (fun w i => w.set i (g w i)) w).length = w.length ∧
      ∀ t < s + n, ((List.range' s n).foldl (fun w i => w.set i (g w i)) w).getD t 0 = word t := by
  induction n with
  | zero => exact ⟨rfl, hw⟩
  | succ n ih =>
      obtain ⟨hlen', hfilled⟩ :=
        ih (by omega) fun w' i hi hi' => hg w' i hi (by omega)
      rw [List.range'_1_concat, List.foldl_append, List.foldl_cons, List.foldl_nil]
      refine ⟨by rw [List.length_set, hlen'], fun t ht => ?_⟩
      by_cases hlast : t = s + n
      · subst hlast
        rw [getD_set_self _ (by omega)]
        exact hg _ _ (by omega) (by omega) hfilled
      · rw [getD_set_ne _ (Ne.symm hlast)]
        exact hfilled t (by omega)

/-- **The array holds the word sequence.** -/
lemma schedule_getD {p : Str} (hp : p.length = 64) {t : ℕ} (ht : t < 80) :
    (schedule p).getD t 0 = W p t := by
  have hblock : ∀ (w : List UInt32) (i : ℕ), 0 ≤ i → i < 0 + 16 →
      (∀ t < i, w.getD t 0 = W p t) → bigEndian p i = W p i := by
    intro w i _ hi _
    rw [bigEndian_eq (by omega), W, if_pos (by omega)]
  have hrest : ∀ (w : List UInt32) (i : ℕ), 16 ≤ i → i < 16 + 64 →
      (∀ t < i, w.getD t 0 = W p t) →
      rol (w.getD (i - 3) 0 ^^^ w.getD (i - 8) 0 ^^^ w.getD (i - 14) 0 ^^^ w.getD (i - 16) 0) 1 =
        W p i := by
    intro w i hi _ hw
    rw [hw _ (by omega), hw _ (by omega), hw _ (by omega), hw _ (by omega)]
    conv_rhs => rw [W, if_neg (by omega)]
    rfl
  obtain ⟨hlen, hfirst⟩ := fill_loop (g := fun _ i => bigEndian p i) 0 16
    (w := List.replicate 80 0) (by rw [List.length_replicate]; omega) (by omega) hblock
  rw [List.length_replicate] at hlen
  exact (fill_loop (g := fun w i => rol (w.getD (i - 3) 0 ^^^ w.getD (i - 8) 0 ^^^
    w.getD (i - 14) 0 ^^^ w.getD (i - 16) 0) 1) 16 64 hlen.ge hfirst hrest).2 t ht

/-- One turn of the third loop is a step of the computation. -/
lemma rotate_eq {p : Str} (hp : p.length = 64) {t : ℕ} (ht : t < 80) (r : Words) :
    rotate (schedule p) t r = Rfc3174.round (W p t) t r := by
  have hadd : ∀ x f e k w : UInt32, x + f + e + k + w = x + f + e + w + k := fun x f e k w => by
    rw [UInt32.add_assoc _ k, UInt32.add_comm k, ← UInt32.add_assoc]
  rw [rotate, Rfc3174.round, schedule_getD hp ht, f, K]
  split_ifs <;> exact Words.ext (hadd ..) rfl rfl rfl rfl

/-- **One block** is what the standard computes for it. -/
lemma transform_eq (h : Words) {p : Str} (hp : p.length = 64) : transform h p = compress h p := by
  have hloop : (List.range 80).foldl (fun r i => rotate (schedule p) i r) h =
      (List.range 80).foldl (fun r t => Rfc3174.round (W p t) t r) h :=
    List.foldl_ext _ _ _ fun r t ht => rotate_eq hp (List.mem_range.mp ht) r
  rw [transform, compress, hloop]

/-! ### What has been put in -/

namespace SHA1

/-- **The invariant**: the whole blocks of `m` are processed, and the rest of it is in the
buffer. -/
def Absorbed (s : SHA1) (m : Str) : Prop :=
  ∃ whole, m = whole ++ s.buf.take s.bufUsed ∧ 64 ∣ whole.length ∧ s.h = process init whole

variable {s : SHA1} {m : Str}

lemma absorbed_fresh (buf : Str) (h : buf.length = 64) : (fresh buf h).Absorbed [] :=
  ⟨[], rfl, Nat.dvd_zero 64, (process_of_lt (by decide)).symm⟩

/-- How full the buffer is. -/
lemma Absorbed.bufUsed (h : s.Absorbed m) : s.bufUsed = m.length % 64 := by
  obtain ⟨whole, hm, hdvd, -⟩ := h
  have hlen := congrArg List.length hm
  have hused := s.used_lt
  rw [List.length_append, List.length_take, s.buf_len, Nat.min_eq_left hused.le] at hlen
  omega

lemma Absorbed.turn (h : s.Absorbed m) (data : Str) (hfit : s.bufUsed + data.length ≤ 64) :
    (s.turn data hfit).Absorbed (m ++ data) := by
  obtain ⟨whole, hm, hdvd, hwords⟩ := h
  have hle : s.bufUsed ≤ s.buf.length := s.used_lt.le.trans_eq s.buf_len.symm
  have htake := take_memcpy hle data
  have hlen : (memcpy s.buf s.bufUsed data).length = 64 := by
    rw [length_memcpy (by rw [s.buf_len]; exact hfit), s.buf_len]
  rw [SHA1.turn]
  split
  · next hfull =>
      -- the buffer is the last whole block
      rw [hfull, ← hlen, List.take_length] at htake
      refine ⟨whole ++ memcpy s.buf s.bufUsed data, ?_, ?_, ?_⟩
      · rw [hm, List.take_zero, List.append_nil, List.append_assoc, htake]
      · rw [List.length_append, hlen]
        exact dvd_add hdvd (dvd_refl 64)
      · dsimp only
        rw [transform_eq _ hlen, hwords, process_append _ _ _ hdvd, process_block hlen]
  · refine ⟨whole, ?_, hdvd, hwords⟩
    dsimp only
    rw [htake, hm, List.append_assoc]

/-- **The loop of `update` keeps the invariant.** -/
lemma Absorbed.updateLoop (h : s.Absorbed m) (p : Str) : (s.updateLoop p).Absorbed (m ++ p) := by
  induction s, p using SHA1.updateLoop.induct generalizing m with
  | case1 s => rwa [SHA1.updateLoop, if_pos rfl, List.append_nil]
  | @case2 s p hp take ih =>
      have hnext := ih (h.turn _ (s.turn_fits p))
      rw [List.append_assoc, List.take_append_drop] at hnext
      rwa [SHA1.updateLoop, if_neg hp]

lemma Absorbed.update (h : s.Absorbed m) (data : Str) : (s.update data).Absorbed (m ++ data) := by
  have hcounted : Absorbed { s with totalBits := s.totalBits + UInt64.ofNat data.length * 8 } m := h
  exact hcounted.updateLoop data

/-! ### The length in bits -/

lemma totalBits_updateLoop (s : SHA1) (p : Str) : (s.updateLoop p).totalBits = s.totalBits := by
  induction s, p using SHA1.updateLoop.induct with
  | case1 s => rw [SHA1.updateLoop, if_pos rfl]
  | case2 s p hp take ih =>
      have hturn : (s.turn (p.take take) (s.turn_fits p)).totalBits = s.totalBits := by
        rw [SHA1.turn]
        split <;> rfl
      rw [SHA1.updateLoop, if_neg hp, ih, hturn]

/-- `total_bits_` counts the bits of what has been put in, as a 64-bit number. -/
lemma totalBits_update (h : s.totalBits = UInt64.ofNat (8 * m.length)) (data : Str) :
    (s.update data).totalBits = UInt64.ofNat (8 * (m ++ data).length) := by
  rw [SHA1.update, totalBits_updateLoop]
  dsimp only
  rw [h, List.length_append, Nat.mul_add, UInt64.ofNat_add, Nat.mul_comm 8 data.length,
    UInt64.ofNat_mul data.length]
  rfl

/-- **All pieces**: what has been put in is their concatenation. -/
lemma absorbed_pieces (pieces : List Str) (h : s.Absorbed m)
    (hbits : s.totalBits = UInt64.ofNat (8 * m.length)) :
    (pieces.foldl SHA1.update s).Absorbed (m ++ pieces.flatten) ∧
      (pieces.foldl SHA1.update s).totalBits = UInt64.ofNat (8 * (m ++ pieces.flatten).length) := by
  induction pieces generalizing s m with
  | nil => rw [List.flatten_nil, List.append_nil]; exact ⟨h, hbits⟩
  | cons piece pieces ih =>
      rw [List.foldl_cons, List.flatten_cons, ← List.append_assoc]
      exact ih (h.update piece) (totalBits_update hbits piece)

/-! ### Padding and output -/

/-- **The padding loop ends**, with room for the length. -/
lemma padLoop_eq (s : SHA1) :
    s.padLoop = (fun s => s.update [0])^[(120 - s.bufUsed) % 64] s ∧ s.padLoop.bufUsed = 56 := by
  induction s using SHA1.padLoop.induct with
  | case1 s hused =>
      have hnone : (120 - s.bufUsed) % 64 = 0 := by rw [hused]
      rw [SHA1.padLoop, if_pos hused, hnone]
      exact ⟨rfl, hused⟩
  | case2 s hused ih =>
      have hlt := s.used_lt
      have hsucc : (120 - s.bufUsed) % 64 = (120 - (s.update [0]).bufUsed) % 64 + 1 := by
        rw [bufUsed_update, List.length_singleton]
        omega
      rw [SHA1.padLoop, if_neg hused, hsucc, Function.iterate_succ_apply]
      exact ih

lemma Absorbed.zeros (h : s.Absorbed m) (n : ℕ) :
    ((fun s => s.update [0])^[n] s).Absorbed (m ++ List.replicate n 0) := by
  induction n with
  | zero => rwa [List.replicate_zero, List.append_nil]
  | succ n ih =>
      rw [Function.iterate_succ_apply', List.replicate_succ', ← List.append_assoc]
      exact ih.update [0]

/-- The length of the message in network order. -/
lemma lengthBytes (bits : UInt64) :
    ((List.range 8).map fun i => ((bits >>> UInt64.ofNat (56 - 8 * i)) &&& 0xFF).toUInt8) =
      (leBytes 8 bits.toNat).reverse := by
  have hbyte : ∀ n < 64, ((bits >>> UInt64.ofNat n) &&& 0xFF).toUInt8 =
      UInt8.ofNat (bits.toNat / 2 ^ n % 256) := by
    intro n hn
    refine UInt8.toNat_inj.mp ?_
    rw [UInt64.toNat_toUInt8, UInt64.toNat_and, UInt64.toNat_shiftRight, UInt64.toNat_ofNat',
      Nat.mod_eq_of_lt (by omega : n < 2 ^ 64), Nat.mod_eq_of_lt hn, Nat.shiftRight_eq_div_pow,
      UInt8.toNat_ofNat', show (0xFF : UInt64).toNat = 2 ^ 8 - 1 from rfl,
      Nat.and_two_pow_sub_one_eq_mod]
  rw [List.map_congr_left fun i hi => hbyte (56 - 8 * i) (by omega)]
  have hrange : List.range 8 = [0, 1, 2, 3, 4, 5, 6, 7] := rfl
  rw [hrange]
  simp only [leBytes, Nat.div_div_eq_div_mul, List.map_cons, List.map_nil, List.reverse_cons,
    List.reverse_nil, List.nil_append, List.cons_append]
  norm_num

/-- The `n` lowest hexadecimal digits of `v`, lowest first. -/
def nibbles : ℕ → ℕ → List ℕ
  | 0, _ => []
  | n + 1, v => v % 16 :: nibbles n (v / 16)

/-- They are the digits of `v` and zeros in front of them. -/
lemma nibbles_eq {n v : ℕ} (h : v < 16 ^ n) :
    nibbles n v = Nat.digits 16 v ++ List.replicate (n - (Nat.digits 16 v).length) 0 := by
  induction n generalizing v with
  | zero =>
      obtain rfl : v = 0 := by simpa using h
      rw [Nat.digits_zero]
      rfl
  | succ n ih =>
      have hdiv : v / 16 < 16 ^ n := by
        rw [pow_succ] at h
        omega
      rw [nibbles, ih hdiv]
      rcases Nat.eq_zero_or_pos v with rfl | hpos
      · rw [Nat.zero_mod, Nat.zero_div, Nat.digits_zero, List.nil_append, List.nil_append]
        exact List.replicate_succ.symm
      · rw [Nat.digits_def' (by decide) hpos, List.cons_append, List.length_cons,
          Nat.add_sub_add_right]

/-- A word in hexadecimal digits, with zeros in front. -/
lemma hex08_eq (v : UInt32) : hex08 v = ((nibbles 8 v.toNat).map Rfc3174.hexDigit).reverse := by
  have hzero : Rfc3174.hexDigit 0 = 48 := by decide
  have hlt : v.toNat < 16 ^ 8 := by
    have := v.toNat_lt
    omega
  rw [hex08, nibbles_eq hlt, List.map_append, List.reverse_append, List.map_replicate,
    List.reverse_replicate, hzero, List.length_reverse, List.length_map]

/-- Bytes in network order, two digits for each of them. -/
lemma hex_leBytes (n v : ℕ) :
    hex (leBytes n v).reverse = ((nibbles (2 * n) v).map Rfc3174.hexDigit).reverse := by
  induction n generalizing v with
  | zero => rfl
  | succ n ih =>
      have hb : (UInt8.ofNat (v % 256)).toNat = v % 256 := by simp
      have hlow : v % 256 % 16 = v % 16 := by omega
      have hhigh : v % 256 / 16 = v / 16 % 16 := by omega
      have hrest : v / 16 / 16 = v / 256 := by omega
      rw [leBytes, List.reverse_cons, hex, List.flatMap_append, ← hex, ih, List.flatMap_singleton,
        hb, hlow, hhigh, Nat.mul_succ, nibbles, nibbles, hrest, List.map_cons, List.map_cons,
        List.reverse_cons, List.reverse_cons, List.append_assoc]
      rfl

/-- The output of `final_hex` for the final words. -/
lemma hex_bytes (h : Words) :
    hex08 h.a ++ hex08 h.b ++ hex08 h.c ++ hex08 h.d ++ hex08 h.e = hex h.bytes := by
  have hword : ∀ v : UInt32, hex (leBytes 4 v.toNat).reverse = hex08 v := fun v => by
    rw [hex_leBytes, hex08_eq]
  have happ : ∀ x y : Str, hex (x ++ y) = hex x ++ hex y := fun x y => List.flatMap_append
  rw [Words.bytes]
  simp only [List.flatMap_cons, List.flatMap_nil, List.append_nil, happ, hword, List.append_assoc]

lemma length_hex08 (v : UInt32) : (hex08 v).length = 8 := by
  rw [hex08_eq, List.length_reverse, List.length_map]
  rfl

/-- A hash is a string of `SHA1_HEX_LEN` characters. -/
lemma length_hashBuffer (data : Str) : (hashBuffer data).length = 40 := by
  rw [hashBuffer, SHA1.finalHex]
  simp only [List.length_append, length_hex08]

/-- **`final_hex`** writes the digest of what has been put in. -/
lemma Absorbed.finalHex (h : s.Absorbed m) (hbits : s.totalBits = UInt64.ofNat (8 * m.length))
    (hlen : m.length < 2 ^ 61) : s.finalHex = hex (digest m) := by
  have hzeros : (120 - (s.update [0x80]).bufUsed) % 64 = Rfc3174.zeros m.length := by
    have hmod := (h.update [0x80]).bufUsed
    rw [List.length_append, List.length_singleton] at hmod
    rw [hmod, Rfc3174.zeros]
    omega
  obtain ⟨hloop, hused⟩ := (s.update [0x80]).padLoop_eq
  have hpadded := (h.update [0x80]).zeros (Rfc3174.zeros m.length)
  rw [← hzeros, ← hloop, hzeros] at hpadded
  obtain ⟨whole, hm, hdvd, hwords⟩ := hpadded
  rw [hused] at hm
  have htotal : s.totalBits.toNat = 8 * m.length := by
    rw [hbits, UInt64.toNat_ofNat', Nat.mod_eq_of_lt (by omega)]
  rw [SHA1.finalHex, lengthBytes, htotal, hused]
  generalize (s.update [0x80]).padLoop = s' at hm hwords
  have hlast : (leBytes 8 (8 * m.length)).reverse.length = 8 := by
    rw [List.length_reverse, length_leBytes]
  have hblock : (memcpy s'.buf 56 (leBytes 8 (8 * m.length)).reverse).length = 64 := by
    rw [length_memcpy (by rw [s'.buf_len, hlast]), s'.buf_len]
  have hroom : 56 ≤ s'.buf.length := by
    rw [s'.buf_len]
    decide
  have htake := take_memcpy hroom (leBytes 8 (8 * m.length)).reverse
  rw [hlast, List.take_of_length_le hblock.le] at htake
  have hpad : pad m = whole ++ memcpy s'.buf 56 (leBytes 8 (8 * m.length)).reverse := by
    rw [htake, ← List.append_assoc, ← hm, pad]
  have hprocess : transform s'.h (memcpy s'.buf 56 (leBytes 8 (8 * m.length)).reverse) =
      process init (pad m) := by
    rw [transform_eq _ hblock, hwords, hpad, process_append _ _ _ hdvd, process_block hblock]
  rw [hprocess, hex_bytes, digest]

/-- **The class computes SHA-1**: however the input is cut into calls of `update`, and
whatever the buffer has held before, `final_hex` returns the digest of the whole in
hexadecimal digits. The padding loop ends after fewer than 64 turns from every state. -/
theorem final_hex_eq (buf : Str) (hbuf : buf.length = 64) (pieces : List Str)
    (hlen : pieces.flatten.length < 2 ^ 61) :
    (pieces.foldl update (fresh buf hbuf)).finalHex = hex (digest pieces.flatten) ∧
      (hex (digest pieces.flatten)).length = 40 ∧
      ∀ s : SHA1, ∃ n < 64, s.padLoop = (fun s => s.update [0])^[n] s ∧ s.padLoop.bufUsed = 56 := by
  refine ⟨?_, by rw [length_hex, length_digest],
    fun s => ⟨_, Nat.mod_lt _ (by decide), s.padLoop_eq⟩⟩
  obtain ⟨habs, hbits⟩ := absorbed_pieces pieces (absorbed_fresh buf hbuf) rfl
  exact habs.finalHex hbits hlen

/-- The digest of "abc". -/
example : hashBuffer [97, 98, 99] =
    [97, 57, 57, 57, 51, 101, 51, 54, 52, 55, 48, 54, 56, 49, 54, 97, 98, 97, 51, 101, 50, 53, 55,
      49, 55, 56, 53, 48, 99, 50, 54, 99, 57, 99, 100, 48, 100, 56, 57, 100] := by
  decide +kernel

theorem final_hex_eq_pieces :
    (([[97], [], [98, 99]] : List Str).foldl update
        (fresh (List.replicate 64 7) List.length_replicate)).finalHex =
      hex (digest [97, 98, 99]) :=
  (final_hex_eq (List.replicate 64 7) List.length_replicate [[97], [], [98, 99]] (by decide)).1

end SHA1

end P2PShare
