import P2PShare.Lib.Cursor
import P2PShare.Lib.LittleEndian
import P2PShare.Common.Protocol

/-!
`common/buffer.hpp` and `common/buffer.cpp`: length-prefixed serialization of
message payloads.

* `putU8`, …, `putStr` are the bytes that the `put_` calls append; integers are
  written in host order, which is little-endian on the supported machines.
* `getU8`, …, `getRaw`, `getStr` are the `get_` calls as readers over a
  `Buffer`. `getStr` is the two-step read of the source: when the length has
  been read and the body is missing, the length stays consumed.
* `codec_u8`, …, `codec_str`, `codec_counted`: each getter undoes its putter,
  the strings and collections under the bound that the 32-bit size sets.
-/

namespace P2PShare

open Cursor Reader

/-- `Buffer`: the payload bytes with the read position. -/
abbrev Buffer := Cursor UInt8

/-- A sequence of `get_` calls on a `Buffer`. -/
abbrev Get := Reader UInt8

/-! ### The `put_` calls -/

/-- `put_u8`. -/
def putU8 (v : UInt8) : Str := [v]

/-- `put_u16`. -/
def putU16 (v : UInt16) : Str := leBytes 2 v.toNat

/-- `put_u32`. -/
def putU32 (v : UInt32) : Str := leBytes 4 v.toNat

/-- `put_u64`. -/
def putU64 (v : UInt64) : Str := leBytes 8 v.toNat

/-- A size cast to `uint32_t` and written with `put_u32`. -/
def putSize (n : ℕ) : Str := putU32 (UInt32.ofNat n)

/-- `put_str`: the length as `uint32_t`, then the bytes. -/
def putStr (s : Str) : Str := putSize s.length ++ s

/-- A bitfield: its size as `uint32_t`, then `put_raw`. -/
def putBits (bits : List UInt8) : Str := putSize bits.length ++ bits

/-- A collection: its size as `uint32_t`, then the elements. -/
def putCounted {α : Type} (put : α → Str) (as : List α) : Str :=
  putSize as.length ++ as.flatMap put

/-! ### The `get_` calls -/

/-- `get_raw`. -/
def getRaw (n : ℕ) : Get Str := Reader.take n

/-- `get_u8`. -/
def getU8 : Get UInt8 := return UInt8.ofNat (leNat (← getRaw 1))

/-- `get_u16`. -/
def getU16 : Get UInt16 := return UInt16.ofNat (leNat (← getRaw 2))

/-- `get_u32`. -/
def getU32 : Get UInt32 := return UInt32.ofNat (leNat (← getRaw 4))

/-- `get_u64`. -/
def getU64 : Get UInt64 := return UInt64.ofNat (leNat (← getRaw 8))

/-- `get_str`. -/
def getStr : Get Str := do
  let n ← getU32
  getRaw n.toNat

/-- A bitfield. The source skips `get_raw` when the size is 0, and a read of
nothing always succeeds. -/
def getBits : Get (List UInt8) := do
  let n ← getU32
  getRaw n.toNat

/-- A collection: a loop of as many reads as the count says. -/
def getCounted {α : Type} (g : Get α) : Get (List α) := do
  let n ← getU32
  Reader.times n.toNat g

/-- What a decoder makes of a payload: `Buffer in(payload)` followed by the
`get_` calls, the buffer as they leave it being dropped. -/
def decode {α : Type} (g : Get α) (payload : Str) : Option α :=
  (g.read (Cursor.start payload)).1

/-- What the decoder leaves unread. -/
def leftover {α : Type} (g : Get α) (payload : Str) : Str :=
  (g.read (Cursor.start payload)).2.unread

lemma decode_eq_some {α : Type} {g : Get α} {payload : Str} {a : α} :
    decode g payload = some a ↔ ∃ c', Reads g (Cursor.start payload) a c' := by
  rw [decode]
  generalize hr : g.read (Cursor.start payload) = r
  obtain ⟨o, c₁⟩ := r
  constructor
  · rintro rfl
    exact ⟨c₁, hr⟩
  · rintro ⟨c', hc'⟩
    rw [Reads, hr] at hc'
    exact congrArg Prod.fst hc'

/-- Decoding by a codec: the encoding of what is read stands at the front. -/
lemma decode_eq_some_iff {α : Type} {g : Get α} {enc : α → Str} {ok : α → Prop}
    (hg : Codec g enc ok) {payload : Str} {a : α} :
    decode g payload = some a ↔ ok a ∧ enc a <+: payload := by
  rw [decode_eq_some]
  constructor
  · rintro ⟨c', hread⟩
    obtain ⟨hok, hcut⟩ := (hg _ _ _).mp hread
    exact ⟨hok, c'.unread, (cut_start hcut).symm⟩
  · rintro ⟨hok, rest, rfl⟩
    obtain ⟨c', hread, -⟩ := hg.read_enc hok rest
    exact ⟨c', hread⟩

/-- What a codec reads and what it leaves make up the payload. -/
lemma enc_append_leftover {α : Type} {g : Get α} {enc : α → Str} {ok : α → Prop}
    (hg : Codec g enc ok) {payload : Str} {a : α} (ha : decode g payload = some a) :
    enc a ++ leftover g payload = payload := by
  obtain ⟨c', hread⟩ := decode_eq_some.mp ha
  obtain ⟨-, hcut⟩ := (hg _ _ _).mp hread
  rw [leftover, show g.read (Cursor.start payload) = (some a, c') from hread]
  exact (cut_start hcut).symm

/-! ### Sizes -/

@[simp] lemma length_putU8 (v : UInt8) : (putU8 v).length = 1 := rfl

@[simp] lemma length_putU16 (v : UInt16) : (putU16 v).length = 2 := length_leBytes 2 _

@[simp] lemma length_putU64 (v : UInt64) : (putU64 v).length = 8 := length_leBytes 8 _

@[simp] lemma length_putSize (n : ℕ) : (putSize n).length = 4 := length_leBytes 4 _

@[simp] lemma length_putStr (s : Str) : (putStr s).length = 4 + s.length := by
  simp [putStr]

@[simp] lemma length_putBits (bits : List UInt8) : (putBits bits).length = 4 + bits.length := by
  simp [putBits]

/-- An element is not longer than the collection it is written with. -/
lemma length_le_putCounted {α : Type} (put : α → Str) {as : List α} {a : α} (ha : a ∈ as) :
    (put a).length ≤ (putCounted put as).length := by
  have hsum : (put a).length ≤ (as.map fun x => (put x).length).sum :=
    List.le_sum_of_mem (List.mem_map_of_mem ha)
  rw [putCounted, List.length_append, List.length_flatMap]
  omega

/-- A collection of written elements is at least as long as their number. -/
lemma card_le_putCounted {α : Type} (put : α → Str) (as : List α)
    (hpos : ∀ a, 0 < (put a).length) : as.length ≤ (putCounted put as).length := by
  have hsum : as.length ≤ (as.flatMap put).length := by
    induction as with
    | nil => simp
    | cons a as ih =>
        have := hpos a
        simp only [List.flatMap_cons, List.length_append, List.length_cons]
        omega
  rw [putCounted, List.length_append]
  omega

/-! ### Getters undo putters -/

/-- A fixed-width integer is read from its little-endian bytes. -/
lemma codec_le {α : Type} (n : ℕ) (ofNat : ℕ → α) (toNat : α → ℕ)
    (hof : ∀ a, ofNat (toNat a) = a) (hto : ∀ k, k < 256 ^ n → toNat (ofNat k) = k)
    (hlt : ∀ a, toNat a < 256 ^ n) :
    Codec (do return ofNat (leNat (← getRaw n)) : Get α) (fun a => leBytes n (toNat a))
      (fun _ => True) := by
  intro c a c'
  simp only [getRaw, reads_bind, reads_take, reads_pure, true_and]
  constructor
  · rintro ⟨x, c₁, ⟨rfl, hcut⟩, rfl, rfl⟩
    rw [hto _ (leNat_lt x), leBytes_leNat]
    exact hcut
  · intro hcut
    exact ⟨leBytes n (toNat a), c', ⟨by simp, hcut⟩, by rw [leNat_leBytes (hlt a), hof], rfl⟩

lemma codec_u8 : Codec getU8 putU8 (fun _ => True) := by
  refine (codec_le 1 UInt8.ofNat UInt8.toNat (by simp) (fun k hk => ?_) fun a => ?_).congr
    (fun _ => Iff.rfl) fun a _ => ?_
  · rw [UInt8.toNat_ofNat']; omega
  · have := a.toNat_lt; omega
  · have := a.toNat_lt
    simp [leBytes, putU8, Nat.mod_eq_of_lt this]

lemma codec_u16 : Codec getU16 putU16 (fun _ => True) := by
  refine codec_le 2 UInt16.ofNat UInt16.toNat (by simp) (fun k hk => ?_) fun a => ?_
  · rw [UInt16.toNat_ofNat']; omega
  · have := a.toNat_lt; omega

lemma codec_u32 : Codec getU32 putU32 (fun _ => True) := by
  refine codec_le 4 UInt32.ofNat UInt32.toNat (by simp) (fun k hk => ?_) fun a => ?_
  · rw [UInt32.toNat_ofNat']; omega
  · have := a.toNat_lt; omega

lemma codec_u64 : Codec getU64 putU64 (fun _ => True) := by
  refine codec_le 8 UInt64.ofNat UInt64.toNat (by simp) (fun k hk => ?_) fun a => ?_
  · rw [UInt64.toNat_ofNat']; omega
  · have := a.toNat_lt; omega

/-- A byte string whose size was written with `putSize`. -/
lemma codec_sized :
    Codec (do let n ← getU32; getRaw n.toNat) (fun s : Str => putSize s.length ++ s)
      (fun s => s.length < 2 ^ 32) := by
  refine (codec_u32.bind (fun s : Str => UInt32.ofNat s.length) (fun s => s)
    (fun s => s.length < 2 ^ 32) fun n _ => ?_).congr (by simp) fun _ _ => rfl
  refine (codec_take n.toNat).congr (fun s => ?_) fun _ _ => rfl
  constructor
  · rintro h
    exact ⟨h ▸ n.toNat_lt, by rw [h, UInt32.ofNat_toNat]⟩
  · rintro ⟨h, rfl⟩
    rw [UInt32.toNat_ofNat', Nat.mod_eq_of_lt h]

lemma codec_str : Codec getStr putStr (fun s => s.length < 2 ^ 32) := codec_sized

lemma codec_bits : Codec getBits putBits (fun bits => bits.length < 2 ^ 32) := codec_sized

/-- A counted collection of things that a codec reads. -/
lemma codec_counted {α : Type} {g : Get α} {enc : α → Str} {ok : α → Prop}
    (hg : Codec g enc ok) :
    Codec (getCounted g) (putCounted enc) (fun as => as.length < 2 ^ 32 ∧ ∀ a ∈ as, ok a) := by
  refine (codec_u32.bind (fun as : List α => UInt32.ofNat as.length) (fun as => as.flatMap enc)
    (fun as => as.length < 2 ^ 32 ∧ ∀ a ∈ as, ok a) fun n _ => ?_).congr
    (by simp) fun _ _ => rfl
  refine (hg.times n.toNat).congr (fun as => ?_) fun _ _ => rfl
  constructor
  · rintro ⟨h, hall⟩
    exact ⟨⟨h ▸ n.toNat_lt, hall⟩, by rw [h, UInt32.ofNat_toNat]⟩
  · rintro ⟨⟨h, hall⟩, rfl⟩
    exact ⟨by rw [UInt32.toNat_ofNat', Nat.mod_eq_of_lt h], hall⟩

/-- A counted collection is read back when each element is. -/
lemma undoes_counted {α : Type} {g : Get α} {enc : α → Str} {ok : α → Prop}
    (hg : Undoes g enc ok) :
    Undoes (getCounted g) (putCounted enc) (fun as => as.length < 2 ^ 32 ∧ ∀ a ∈ as, ok a) := by
  rintro as c c'' ⟨hlen, hall⟩ hcut
  obtain ⟨c', hcut₁, hcut₂⟩ := cut_append.mp hcut
  have hn : Reads getU32 c (UInt32.ofNat as.length) c' := codec_u32.undoes _ _ _ trivial hcut₁
  refine hn.bind ((hg.times as.length) as c' c'' ⟨rfl, hall⟩ hcut₂ |> fun h => ?_)
  rwa [UInt32.toNat_ofNat', Nat.mod_eq_of_lt hlen]

/-! ### Whole payloads -/

/-- The decoder reads `a` from the payload and leaves nothing of it. -/
def Decodes {α : Type} (g : Get α) (payload : Str) (a : α) : Prop :=
  decode g payload = some a ∧ leftover g payload = []

/-- A decoder that reads `a` wherever the payload comes next. -/
lemma decodes_of_reads {α : Type} {g : Get α} {payload : Str} {a : α}
    (h : ∀ c c', Cut c payload c' → Reads g c a c') : Decodes g payload a := by
  obtain ⟨c', hcut, hrest⟩ := exists_cut
    ((unread_start payload).trans (List.append_nil payload).symm)
  have hread : g.read (Cursor.start payload) = (some a, c') := h _ _ hcut
  exact ⟨by rw [decode, hread], by rw [leftover, hread]; exact hrest⟩

lemma decodes_enc {α : Type} {g : Get α} {enc : α → Str} {ok : α → Prop} (hg : Undoes g enc ok)
    {a : α} (ha : ok a) : Decodes g (enc a) a :=
  decodes_of_reads fun c c' hcut => hg a c c' ha hcut

/-- What is read is passed on. -/
lemma Decodes.map {α β : Type} {g : Get α} {payload : Str} {a : α} (h : Decodes g payload a)
    (f : α → β) : Decodes (do let a ← g; return f a) payload (f a) := by
  obtain ⟨hdec, hleft⟩ := h
  obtain ⟨c', hread⟩ := decode_eq_some.mp hdec
  have hmap : Reads (do let a ← g; return f a) (Cursor.start payload) (f a) c' :=
    hread.bind (read_pure (f a) c')
  refine ⟨decode_eq_some.mpr ⟨c', hmap⟩, ?_⟩
  rw [leftover, show g.read (Cursor.start payload) = (some a, c') from hread] at hleft
  rw [leftover, show Reader.read _ _ = (some (f a), c') from hmap]
  exact hleft

end P2PShare
