import P2PShare.Common.Buffer
import P2PShare.Lib.Runs

/-!
Sequences of `get_` calls on a `Buffer` whose caller goes on after a failure.

* `RawBuffer`: the data and the cursor in the integers of the source, where `remaining` can wrap
  around; `GetCall` and `RawBuffer.call`: the calls.
* `call_ofCursor` (**the simulation**): as long as the cursor is inside the data, a call does what
  the reader over a `Cursor` does.
* `Right`: what is asked of a call; `Torn`: a `get_str` that finds a length and not so many bytes.
* `inside_run`: the cursor never passes the end. `reads_right_iff`: every call of a sequence is
  right, exactly if none of them is torn; `torn_str` is a sequence in which one is.
-/

namespace P2PShare

open Cursor Reader

/-- `Buffer`, with `__rpos` as a `size_t`. -/
structure RawBuffer where
  data : Str
  rpos : UInt64
deriving DecidableEq

/-- What a `get_` call leaves in its variable. -/
inductive Got
  | u8 (v : UInt8)
  | u16 (v : UInt16)
  | u32 (v : UInt32)
  | u64 (v : UInt64)
  | str (s : Str)
  | raw (bytes : Str)
deriving DecidableEq

/-- A `get_` call; `get_raw` with its number of bytes. -/
inductive GetCall
  | u8
  | u16
  | u32
  | u64
  | str
  | raw (n : UInt64)
deriving DecidableEq

namespace RawBuffer

/-- `Buffer in(data)`. -/
def start (data : Str) : RawBuffer := ⟨data, 0⟩

/-- `remaining`. -/
def remaining (b : RawBuffer) : UInt64 := UInt64.ofNat b.data.length - b.rpos

/-- The data from the cursor on. -/
def unread (b : RawBuffer) : Str := b.data.drop b.rpos.toNat

/-- `get_raw`. -/
def getRaw (b : RawBuffer) (n : UInt64) : Option Str × RawBuffer :=
  if b.remaining < n then (none, b)
  else (some (b.unread.take n.toNat), { b with rpos := b.rpos + n })

/-- `get_raw` into an integer of `n` bytes. -/
def getInt {α : Type} (b : RawBuffer) (n : UInt64) (ofNat : ℕ → α) : Option α × RawBuffer :=
  (b.getRaw n).map (Option.map fun bytes => ofNat (leNat bytes)) id

/-- `get_u8`. -/
def getU8 (b : RawBuffer) : Option UInt8 × RawBuffer := b.getInt 1 UInt8.ofNat

/-- `get_u16`. -/
def getU16 (b : RawBuffer) : Option UInt16 × RawBuffer := b.getInt 2 UInt16.ofNat

/-- `get_u32`. -/
def getU32 (b : RawBuffer) : Option UInt32 × RawBuffer := b.getInt 4 UInt32.ofNat

/-- `get_u64`. -/
def getU64 (b : RawBuffer) : Option UInt64 × RawBuffer := b.getInt 8 UInt64.ofNat

/-- `get_str`. -/
def getStr (b : RawBuffer) : Option Str × RawBuffer :=
  match b.getU32 with
  | (none, b) => (none, b)
  | (some n, b) =>
      if b.remaining < n.toUInt64 then (none, b)
      else (some (b.unread.take n.toNat), { b with rpos := b.rpos + n.toUInt64 })

/-- One call, with its value if it returns `true`. -/
def call (b : RawBuffer) : GetCall → Option Got × RawBuffer
  | .u8 => b.getU8.map (Option.map .u8) id
  | .u16 => b.getU16.map (Option.map .u16) id
  | .u32 => b.getU32.map (Option.map .u32) id
  | .u64 => b.getU64.map (Option.map .u64) id
  | .str => b.getStr.map (Option.map .str) id
  | .raw n => (b.getRaw n).map (Option.map .raw) id

/-- What the calls return, one after another. -/
def answers : RawBuffer → List GetCall → List (Option Got)
  | _, [] => []
  | b, g :: gs => (b.call g).1 :: answers (b.call g).2 gs

/-- A call as a step, which can always be taken. -/
def step (b : RawBuffer) (g : GetCall) : Option RawBuffer := some (b.call g).2

end RawBuffer

/-! ### The simulation -/

/-- The same call as a reader. -/
def GetCall.read (c : Buffer) : GetCall → Option Got × Buffer
  | .u8 => (getU8.read c).map (Option.map .u8) id
  | .u16 => (getU16.read c).map (Option.map .u16) id
  | .u32 => (getU32.read c).map (Option.map .u32) id
  | .u64 => (getU64.read c).map (Option.map .u64) id
  | .str => (getStr.read c).map (Option.map .str) id
  | .raw n => ((getRaw n.toNat).read c).map (Option.map .raw) id

namespace RawBuffer

/-- The cursor as a `size_t`. -/
def ofCursor (c : Buffer) : RawBuffer := ⟨c.data, UInt64.ofNat c.pos⟩

variable {c : Buffer}

lemma toNat_rpos (hsize : c.data.length < 2 ^ 64) : (ofCursor c).rpos.toNat = c.pos := by
  have hpos := c.pos_le
  rw [ofCursor, UInt64.toNat_ofNat', Nat.mod_eq_of_lt (by omega)]

lemma unread_ofCursor (hsize : c.data.length < 2 ^ 64) : (ofCursor c).unread = c.unread := by
  rw [RawBuffer.unread, toNat_rpos hsize]
  rfl

/-- Inside the data nothing wraps around. -/
lemma toNat_remaining (hsize : c.data.length < 2 ^ 64) :
    (ofCursor c).remaining.toNat = c.remaining := by
  have hdata : (UInt64.ofNat c.data.length).toNat = c.data.length := by
    rw [UInt64.toNat_ofNat', Nat.mod_eq_of_lt hsize]
  have hle : (ofCursor c).rpos ≤ UInt64.ofNat c.data.length := by
    rw [UInt64.le_iff_toNat_le, toNat_rpos hsize, hdata]
    exact c.pos_le
  rw [RawBuffer.remaining, show (ofCursor c).data = c.data from rfl, UInt64.toNat_sub_of_le _ _ hle,
    toNat_rpos hsize, hdata]
  rfl

lemma remaining_lt (hsize : c.data.length < 2 ^ 64) (n : UInt64) :
    (ofCursor c).remaining < n ↔ c.remaining < n.toNat := by
  rw [UInt64.lt_iff_toNat_lt, toNat_remaining hsize]

/-- The cursor is moved by a number of bytes that are there. -/
lemma advance_ofCursor (n : UInt64) (hn : n.toNat ≤ c.remaining) :
    { ofCursor c with rpos := (ofCursor c).rpos + n } = ofCursor (c.advance n.toNat hn) := by
  have hrpos : UInt64.ofNat c.pos + n = UInt64.ofNat (c.pos + n.toNat) := by
    rw [UInt64.ofNat_add, UInt64.ofNat_toNat]
  exact congrArg (RawBuffer.mk c.data) hrpos

lemma getRaw_ofCursor (hsize : c.data.length < 2 ^ 64) (n : UInt64) :
    (ofCursor c).getRaw n = ((P2PShare.getRaw n.toNat).read c).map id ofCursor := by
  have hrun : (P2PShare.getRaw n.toNat).read c =
      if h : n.toNat ≤ c.remaining then (some (c.unread.take n.toNat), c.advance n.toNat h)
      else (none, c) := rfl
  rw [RawBuffer.getRaw, hrun, unread_ofCursor hsize]
  by_cases hn : n.toNat ≤ c.remaining
  · rw [if_neg fun hlt => absurd ((remaining_lt hsize n).mp hlt) (Nat.not_lt.mpr hn), dif_pos hn,
      advance_ofCursor n hn]
    rfl
  · rw [if_pos ((remaining_lt hsize n).mpr (Nat.lt_of_not_le hn)), dif_neg hn]
    rfl

/-- The integers. -/
lemma getInt_ofCursor {α : Type} (hsize : c.data.length < 2 ^ 64) (n : UInt64) (ofNat : ℕ → α) :
    (ofCursor c).getInt n ofNat =
      ((do return ofNat (leNat (← P2PShare.getRaw n.toNat)) : Get α).read c).map id ofCursor := by
  rw [getInt, getRaw_ofCursor hsize, read_map]
  rfl

lemma getStr_ofCursor (hsize : c.data.length < 2 ^ 64) :
    (ofCursor c).getStr = (P2PShare.getStr.read c).map id ofCursor := by
  have hlen : (ofCursor c).getU32 = (P2PShare.getU32.read c).map id ofCursor :=
    getInt_ofCursor hsize 4 UInt32.ofNat
  rw [RawBuffer.getStr, hlen, P2PShare.getStr, read_bind]
  cases hread : P2PShare.getU32.read c with
  | mk r c' =>
      cases r with
      | none => rfl
      | some n =>
          obtain ⟨-, hcut⟩ := (codec_u32 _ _ _).mp hread
          have hsize' : c'.data.length < 2 ^ 64 := by rwa [hcut.1]
          -- the body is read as by `get_raw`
          exact getRaw_ofCursor hsize' n.toUInt64

/-- **The simulation**: a call does what the reader does. -/
theorem call_ofCursor (hsize : c.data.length < 2 ^ 64) (g : GetCall) :
    (ofCursor c).call g = (g.read c).map id ofCursor := by
  cases g with
  | u8 => exact congrArg (Prod.map (Option.map Got.u8) id) (getInt_ofCursor hsize 1 UInt8.ofNat)
  | u16 => exact congrArg (Prod.map (Option.map Got.u16) id) (getInt_ofCursor hsize 2 UInt16.ofNat)
  | u32 => exact congrArg (Prod.map (Option.map Got.u32) id) (getInt_ofCursor hsize 4 UInt32.ofNat)
  | u64 => exact congrArg (Prod.map (Option.map Got.u64) id) (getInt_ofCursor hsize 8 UInt64.ofNat)
  | str => exact congrArg (Prod.map (Option.map Got.str) id) (getStr_ofCursor hsize)
  | raw n => exact congrArg (Prod.map (Option.map Got.raw) id) (getRaw_ofCursor hsize n)

end RawBuffer

/-! ### How a call ends -/

/-- The bytes that stand for a value in the data. -/
def Got.bytes : Got → Str
  | u8 v => putU8 v
  | u16 v => putU16 v
  | u32 v => putU32 v
  | u64 v => putU64 v
  | str s => putStr s
  | raw bytes => bytes

namespace GetCall

/-- The value is one that the call can return. -/
def Returns : GetCall → Got → Prop
  | u8, .u8 _ | u16, .u16 _ | u32, .u32 _ | u64, .u64 _ => True
  | str, .str s => s.length < 2 ^ 32
  | raw n, .raw bytes => bytes.length = n.toNat
  | _, _ => False

variable {c c' : Buffer} {g : GetCall}

/-- A result that is passed on. -/
lemma map_eq_some {α : Type} {f : α → Got} {v : Got} {r : Option α × Buffer}
    (h : r.map (Option.map f) id = (some v, c')) : ∃ a, r = (some a, c') ∧ f a = v := by
  obtain ⟨hfst, rfl⟩ := Prod.mk.inj h
  obtain ⟨a, ha, hv⟩ := Option.map_eq_some_iff.mp hfst
  exact ⟨a, Prod.ext ha rfl, hv⟩

lemma map_eq_none {α : Type} {f : α → Got} {r : Option α × Buffer}
    (h : r.map (Option.map f) id = (none, c')) : r = (none, c') := by
  obtain ⟨hfst, rfl⟩ := Prod.mk.inj h
  exact Prod.ext (Option.map_eq_none_iff.mp hfst) rfl

/-- **A call that succeeds** returns the next bytes and moves past them. -/
lemma read_some {v : Got} (h : g.read c = (some v, c')) : g.Returns v ∧ Cut c v.bytes c' := by
  cases g with
  | u8 =>
      obtain ⟨a, hread, rfl⟩ := map_eq_some h
      exact (codec_u8 _ _ _).mp hread
  | u16 =>
      obtain ⟨a, hread, rfl⟩ := map_eq_some h
      exact (codec_u16 _ _ _).mp hread
  | u32 =>
      obtain ⟨a, hread, rfl⟩ := map_eq_some h
      exact (codec_u32 _ _ _).mp hread
  | u64 =>
      obtain ⟨a, hread, rfl⟩ := map_eq_some h
      exact (codec_u64 _ _ _).mp hread
  | str =>
      obtain ⟨s, hread, rfl⟩ := map_eq_some h
      exact (codec_str _ _ _).mp hread
  | raw n =>
      obtain ⟨bytes, hread, rfl⟩ := map_eq_some h
      exact reads_take.mp hread

/-- An integer fails where its bytes are missing, and consumes none. -/
lemma fails_int {α : Type} {n : ℕ} {ofNat : ℕ → α} :
    Fails (do return ofNat (leNat (← getRaw n)) : Get α) c c' ↔ c.remaining < n ∧ c' = c :=
  fails_map.trans fails_take

/-- **The two failures of `get_str`**: there is no length, or there is one and not so many bytes
behind it. In the second the length has been consumed. -/
lemma fails_getStr : Fails getStr c c' ↔ c.remaining < 4 ∧ c' = c ∨
    ∃ n, Cut c (putU32 n) c' ∧ c'.remaining < n.toNat := by
  have hlen : Fails getU32 c c' ↔ c.remaining < 4 ∧ c' = c := fails_int
  rw [getStr, fails_bind, hlen]
  refine or_congr_right ⟨?_, ?_⟩
  · rintro ⟨n, c₁, hread, hfail⟩
    obtain ⟨-, hcut⟩ := (codec_u32 _ _ _).mp hread
    obtain ⟨hshort, rfl⟩ := fails_take.mp hfail
    exact ⟨n, hcut, hshort⟩
  · rintro ⟨n, hcut, hshort⟩
    exact ⟨n, c', (codec_u32 _ _ _).mpr ⟨trivial, hcut⟩, fails_take.mpr ⟨hshort, rfl⟩⟩

/-- **A call that fails** consumes nothing, or it is a `get_str` that has consumed the length. -/
lemma read_none (h : g.read c = (none, c')) :
    c' = c ∨ g = .str ∧ ∃ n, Cut c (putU32 n) c' ∧ c'.remaining < n.toNat := by
  cases g with
  | u8 => exact .inl (fails_int.mp (map_eq_none h)).2
  | u16 => exact .inl (fails_int.mp (map_eq_none h)).2
  | u32 => exact .inl (fails_int.mp (map_eq_none h)).2
  | u64 => exact .inl (fails_int.mp (map_eq_none h)).2
  | str => exact (fails_getStr.mp (map_eq_none h)).imp And.right fun htorn => ⟨rfl, htorn⟩
  | raw n => exact .inl (fails_take.mp (map_eq_none h)).2

/-- A call does not change the data. -/
lemma data_read (g : GetCall) (c : Buffer) : (g.read c).2.data = c.data := by
  cases hread : g.read c with
  | mk r c' =>
      cases r with
      | some v => exact (read_some hread).2.1
      | none =>
          rcases read_none hread with rfl | ⟨-, n, hcut, -⟩
          · rfl
          · exact hcut.1

end GetCall

namespace RawBuffer

/-- **What is asked of a call** with these calls behind it: the cursor stays inside the data; on
success it has moved past what was returned, and on failure the call might not have been made. -/
structure Right (b : RawBuffer) (g : GetCall) (later : List GetCall) : Prop where
  data : (b.call g).2.data = b.data
  inside : (b.call g).2.rpos.toNat ≤ b.data.length
  succeeded : ∀ v, (b.call g).1 = some v → g.Returns v ∧
    b.unread = v.bytes ++ (b.call g).2.unread ∧
    (b.call g).2.rpos.toNat = b.rpos.toNat + v.bytes.length
  failed : (b.call g).1 = none →
    (b.call g).2.rpos = b.rpos ∧ (b.call g).2.answers later = b.answers later

/-- Every call of the sequence is right. -/
def ReadsRight : RawBuffer → List GetCall → Prop
  | _, [] => True
  | b, g :: gs => b.Right g gs ∧ ReadsRight (b.call g).2 gs

/-- **The condition that is broken**: the call is a `get_str`, and the next four bytes are a
length that is larger than the number of bytes behind them. -/
def Torn (b : RawBuffer) : GetCall → Prop
  | .str => 4 ≤ b.unread.length ∧ b.unread.length < 4 + leNat (b.unread.take 4)
  | .u8 | .u16 | .u32 | .u64 | .raw _ => False

instance (b : RawBuffer) : ∀ g, Decidable (b.Torn g)
  | .str => inferInstanceAs (Decidable (_ ∧ _))
  | .u8 | .u16 | .u32 | .u64 | .raw _ => .isFalse id

/-- Four bytes are the length that they spell. -/
lemma exists_length {s : Str} (hfour : 4 ≤ s.length) :
    ∃ n : UInt32, putU32 n = s.take 4 ∧ n.toNat = leNat (s.take 4) := by
  have hlen : (s.take 4).length = 4 := by
    rw [List.length_take]
    omega
  have hlt := leNat_lt (s.take 4)
  have hbytes := leBytes_leNat (s.take 4)
  rw [hlen] at hlt hbytes
  have hnat : (UInt32.ofNat (leNat (s.take 4))).toNat = leNat (s.take 4) := by
    rw [UInt32.toNat_ofNat']
    exact Nat.mod_eq_of_lt hlt
  exact ⟨UInt32.ofNat (leNat (s.take 4)), by rw [putU32, hnat, hbytes], hnat⟩

/-- What `get_str` finds where it is torn. -/
lemma torn_iff (hsize : c.data.length < 2 ^ 64) :
    (ofCursor c).Torn .str ↔ ∃ n c', Cut c (putU32 n) c' ∧ c'.remaining < n.toNat := by
  rw [Torn, unread_ofCursor hsize]
  constructor
  · rintro ⟨hfour, hshort⟩
    obtain ⟨n, hput, hnat⟩ := exists_length hfour
    obtain ⟨c', hcut, hrest⟩ := exists_cut (List.take_append_drop 4 c.unread).symm
    refine ⟨n, c', by rwa [hput], ?_⟩
    rw [← length_unread, hrest, List.length_drop, hnat]
    omega
  · rintro ⟨n, c', ⟨-, hunread⟩, hshort⟩
    have hlen : (putU32 n).length = 4 := length_leBytes 4 _
    have hnat : leNat (putU32 n) = n.toNat := leNat_leBytes n.toNat_lt
    have htake : c.unread.take 4 = putU32 n := by
      rw [hunread, ← hlen, List.take_left]
    rw [← length_unread] at hshort
    rw [htake, hnat, hunread, List.length_append, hlen]
    omega

/-- Past a cut. -/
lemma rpos_of_cut {c' : Buffer} {x : Str} (hsize : c.data.length < 2 ^ 64) (hcut : Cut c x c') :
    (ofCursor c').rpos.toNat = (ofCursor c).rpos.toNat + x.length := by
  have hlength := congrArg List.length hcut.2
  rw [List.length_append, length_unread, length_unread, Cursor.remaining, Cursor.remaining,
    hcut.1] at hlength
  have hpos := c.pos_le
  have hpos' := c'.pos_le
  rw [hcut.1] at hpos'
  rw [toNat_rpos hsize, toNat_rpos (by rwa [hcut.1])]
  omega

/-- **A torn call** fails four bytes further on. -/
lemma call_torn (hsize : c.data.length < 2 ^ 64) (htorn : (ofCursor c).Torn .str) :
    ((ofCursor c).call .str).1 = none ∧
      ((ofCursor c).call .str).2.rpos.toNat = (ofCursor c).rpos.toNat + 4 := by
  obtain ⟨n, c', hcut, hshort⟩ := (torn_iff hsize).mp htorn
  have hfail : P2PShare.getStr.read c = (none, c') :=
    GetCall.fails_getStr.mpr (.inr ⟨n, hcut, hshort⟩)
  have hcall := call_ofCursor hsize .str
  rw [GetCall.read, hfail] at hcall
  have hmoved := rpos_of_cut hsize hcut
  rw [show (putU32 n).length = 4 from length_leBytes 4 _] at hmoved
  rw [hcall]
  exact ⟨rfl, hmoved⟩

/-- A call that is not torn is right. -/
lemma right_of_not_torn {g : GetCall} (hsize : c.data.length < 2 ^ 64)
    (hwhole : ¬ (ofCursor c).Torn g) (later : List GetCall) : (ofCursor c).Right g later := by
  have hcall := call_ofCursor hsize g
  have hdata := GetCall.data_read g c
  cases hread : g.read c with
  | mk r c' =>
      rw [hread] at hcall hdata
      have hsize' : c'.data.length < 2 ^ 64 := by rwa [hdata]
      have hinside : (ofCursor c').rpos.toNat ≤ c.data.length := by
        rw [toNat_rpos hsize', ← hdata]
        exact c'.pos_le
      refine ⟨by rw [hcall]; exact hdata, by rw [hcall]; exact hinside, fun v hv => ?_,
        fun hnone => ?_⟩
      · rw [hcall] at hv ⊢
        obtain rfl : r = some v := hv
        obtain ⟨hreturns, hcut⟩ := GetCall.read_some hread
        refine ⟨hreturns, ?_, rpos_of_cut hsize hcut⟩
        rw [unread_ofCursor hsize]
        exact (unread_ofCursor hsize').symm ▸ hcut.2
      · rw [hcall] at hnone ⊢
        obtain rfl : r = none := hnone
        rcases GetCall.read_none hread with rfl | ⟨rfl, n, hcut, hshort⟩
        · exact ⟨rfl, rfl⟩
        · exact absurd ((torn_iff hsize).mpr ⟨n, c', hcut, hshort⟩) hwhole

/-- **One call** is right exactly if it is not torn. -/
lemma right_iff (hsize : c.data.length < 2 ^ 64) (g : GetCall) (later : List GetCall) :
    (ofCursor c).Right g later ↔ ¬ (ofCursor c).Torn g := by
  refine ⟨fun h htorn => ?_, fun hwhole => right_of_not_torn hsize hwhole later⟩
  cases g with
  | str =>
      obtain ⟨hfail, hmoved⟩ := call_torn hsize htorn
      have hrpos := (h.failed hfail).1
      rw [hrpos] at hmoved
      omega
  | u8 | u16 | u32 | u64 | raw => exact htorn

/-- **The cursor never passes the end**, whatever fails. -/
theorem inside_run {data : Str} {b : RawBuffer} (hsize : data.length < 2 ^ 64)
    (hrun : Run step (fun _ _ => True) (start data) b) :
    b.data = data ∧ b.rpos.toNat ≤ data.length := by
  obtain ⟨c, hdata, rfl⟩ : ∃ c : Buffer, c.data = data ∧ ofCursor c = b := by
    refine hrun.invariant (I := fun b => ∃ c : Buffer, c.data = data ∧ ofCursor c = b)
      ⟨Cursor.start data, rfl, rfl⟩ ?_
    rintro _ s' g ⟨c, hdata, rfl⟩ - hstep
    obtain rfl : ((ofCursor c).call g).2 = s' := Option.some.inj hstep
    refine ⟨(g.read c).2, (GetCall.data_read g c).trans hdata, ?_⟩
    rw [call_ofCursor (by rwa [hdata]) g]
    rfl
  subst hdata
  rw [toNat_rpos hsize]
  exact ⟨rfl, c.pos_le⟩

/-- The sequence from a cursor inside the data. -/
lemma readsRight_iff (hsize : c.data.length < 2 ^ 64) (gs : List GetCall) :
    (ofCursor c).ReadsRight gs ↔ Meets step (fun b g => ¬ b.Torn g) (ofCursor c) gs := by
  induction gs generalizing c with
  | nil => exact Iff.rfl
  | cons g gs ih =>
      have hnext : ((ofCursor c).call g).2 = ofCursor (g.read c).2 :=
        congrArg Prod.snd (call_ofCursor hsize g)
      have hsize' : (g.read c).2.data.length < 2 ^ 64 := by rwa [GetCall.data_read]
      rw [ReadsRight, Meets, right_iff hsize, hnext, ih hsize']
      refine and_congr_right fun _ => ?_
      simp [step, hnext]

/-- **When failed reads consume nothing**: in a sequence of `get_` calls on any data, the cursor
stays inside the data, every success returns the next bytes and every failure might not have been
made, exactly if no `get_str` finds a length with fewer bytes behind it. -/
theorem reads_right_iff (data : Str) (hsize : data.length < 2 ^ 64) (gs : List GetCall) :
    (start data).ReadsRight gs ↔ Meets step (fun b g => ¬ b.Torn g) (start data) gs :=
  readsRight_iff (c := Cursor.start data) hsize gs

theorem reads_right_iff_string :
    (start (putStr [7, 8] ++ [9])).ReadsRight [.str, .u16, .u8, .str] :=
  (reads_right_iff (putStr [7, 8] ++ [9]) (by decide) [.str, .u16, .u8, .str]).mpr
    (by decide +kernel)

/-- **A torn string**: a length of five with one byte behind it. The `get_str` that fails has
consumed the length, and the `get_u8` behind it reads the byte. -/
theorem torn_str : ¬ (start [5, 0, 0, 0, 7]).ReadsRight [.str, .u8] := by
  rintro ⟨h, -⟩
  have hrpos := (h.failed (by decide +kernel)).1
  revert hrpos
  decide +kernel

end RawBuffer

end P2PShare
