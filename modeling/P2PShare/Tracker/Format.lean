import P2PShare.Lib.Format
import P2PShare.Tracker.Snapshot

/-!
The wire format of a snapshot as languages of byte strings, one for each record.

* `strs`, `bitfields`, `counted`: the parts that other formats are made of; `peerRefs`, `files`,
  `groups`, `users`, `snapshots`: what the readers of a snapshot recognize.
* `snapshot_mem`: every state that fits is written in the format, whatever its keys are.
* `restore_truncated` (**no partial state**): the format is prefix-free, so a snapshot that is
  cut off anywhere is refused and the state stays.
-/

namespace P2PShare

open Cursor Reader

namespace Format

/-! ### The format -/

/-- What `put_u8` writes. -/
def u8s : Language UInt8 := codewords putU8 fun _ => True

/-- What `put_u16` writes. -/
def u16s : Language UInt8 := codewords putU16 fun _ => True

/-- What `put_u64` writes. -/
def u64s : Language UInt8 := codewords putU64 fun _ => True

/-- What `put_str` writes of a string that fits its length prefix. -/
def strs : Language UInt8 := codewords putStr fun s => s.length < 2 ^ 32

/-- Bitfields that fit their length prefix. -/
def bitfields : Language UInt8 := codewords putBits fun bits => bits.length < 2 ^ 32

/-- A count and as many words of `L`. -/
def counted (L : Language UInt8) : Language UInt8 :=
  {x | ∃ n : UInt32, ∃ y ∈ L ^ n.toNat, putU32 n ++ y = x}

/-- The seeder entries of a snapshot. -/
def peerRefs : Language UInt8 := strs * (strs * (u16s * bitfields))

/-- The files of a snapshot. -/
def files : Language UInt8 := strs * (u64s * (strs * (counted strs * counted peerRefs)))

/-- The groups of a snapshot. -/
def groups : Language UInt8 := strs * (strs * (counted strs * (counted strs * counted files)))

/-- The users of a snapshot. -/
def users : Language UInt8 := strs * (strs * (u8s * (strs * u16s)))

/-- The snapshots. -/
def snapshots : Language UInt8 := counted users * counted groups

/-! ### Reading -/

lemma recognizes_counted {α : Type} {g : Get α} {L : Language UInt8} (hg : Recognizes g L) :
    Recognizes (getCounted g) (counted L) := by
  intro c c''
  constructor
  · rintro ⟨as, has⟩
    obtain ⟨n, c', hn, has⟩ := reads_bind.mp has
    obtain ⟨-, hcut⟩ := (codec_u32 c n c').mp hn
    obtain ⟨y, hy, hcut'⟩ := (hg.times n.toNat c' c'').mp ⟨as, has⟩
    exact ⟨putU32 n ++ y, ⟨n, y, hy, rfl⟩, cut_append.mpr ⟨c', hcut, hcut'⟩⟩
  · rintro ⟨x, ⟨n, y, hy, rfl⟩, hcut⟩
    obtain ⟨c', hcut, hcut'⟩ := cut_append.mp hcut
    obtain ⟨as, has⟩ := (hg.times n.toNat c' c'').mpr ⟨y, hy, hcut'⟩
    exact ⟨as, Reads.bind ((codec_u32 c n c').mpr ⟨trivial, hcut⟩) has⟩

lemma recognizes_str : Recognizes getStr strs := codec_str.recognizes

lemma recognizes_peerRef : Recognizes getPeerRef peerRefs :=
  recognizes_str.bind fun _ => recognizes_str.bind fun _ =>
    codec_u16.recognizes.bind fun _ => codec_bits.recognizes.map _

lemma recognizes_fileMeta : Recognizes getFileMeta files :=
  recognizes_str.bind fun _ => codec_u64.recognizes.bind fun _ => recognizes_str.bind fun _ =>
    (recognizes_counted recognizes_str).bind fun _ =>
      (recognizes_counted recognizes_peerRef).map _

lemma recognizes_group : Recognizes getGroup groups :=
  recognizes_str.bind fun _ => recognizes_str.bind fun _ =>
    (recognizes_counted recognizes_str).bind fun _ =>
      (recognizes_counted recognizes_str).bind fun _ =>
        (recognizes_counted recognizes_fileMeta).map _

lemma recognizes_user : Recognizes getUser users :=
  recognizes_str.bind fun _ => recognizes_str.bind fun _ => codec_u8.recognizes.bind fun _ =>
    recognizes_str.bind fun _ => codec_u16.recognizes.map _

/-- **What `restore` reads is the format.** -/
lemma recognizes_state : Recognizes getState snapshots :=
  (recognizes_counted recognizes_user).bind fun _ =>
    (recognizes_counted recognizes_group).map _

/-! ### Writing -/

lemma flatMap_mem_pow {α : Type} {put : α → Str} {L : Language UInt8} {as : List α}
    (h : ∀ a ∈ as, put a ∈ L) : as.flatMap put ∈ L ^ as.length := by
  induction as with
  | nil => exact Language.nil_mem_one
  | cons a as ih =>
      rw [List.flatMap_cons, List.length_cons, pow_succ']
      exact Language.append_mem_mul (h a List.mem_cons_self)
        (ih fun b hb => h b (List.mem_cons_of_mem a hb))

lemma putCounted_mem {α : Type} {put : α → Str} {L : Language UInt8} {as : List α}
    (hlen : as.length < 2 ^ 32) (h : ∀ a ∈ as, put a ∈ L) : putCounted put as ∈ counted L := by
  refine ⟨UInt32.ofNat as.length, as.flatMap put, ?_, rfl⟩
  rw [UInt32.toNat_ofNat', Nat.mod_eq_of_lt hlen]
  exact flatMap_mem_pow h

/-- The values of a map. -/
lemma putValues_mem {β : Type} {put : β → Str} {L : Language UInt8} {m : StrMap β}
    (hsize : m.size < 2 ^ 32) (h : ∀ (k : Str) (v : β), m[k]? = some v → put v ∈ L) :
    putCounted put (m.toList.map Prod.snd) ∈ counted L := by
  refine putCounted_mem ?_ fun v hv => ?_
  · rwa [List.length_map, Std.ExtTreeMap.length_toList]
  · obtain ⟨⟨k, w⟩, hkw, rfl⟩ := List.mem_map.mp hv
    exact h k w (Std.ExtTreeMap.mem_toList_iff_getElem?_eq_some.mp hkw)

/-- The elements of a set. -/
lemma putElements_mem {t : StrSet} (hsize : t.size < 2 ^ 32) (h : ∀ m ∈ t, m.length < 2 ^ 32) :
    putCounted putStr t.toList ∈ counted strs := by
  refine putCounted_mem ?_ fun m hm => mem_codewords (h m (Std.ExtTreeSet.mem_toList.mp hm))
  rwa [Std.ExtTreeSet.length_toList]

end Format

open Format

lemma PeerRef.Fits.mem {pr : PeerRef} (h : pr.Fits) : putPeerRef pr ∈ peerRefs := by
  rw [putPeerRef, List.append_assoc, List.append_assoc]
  refine Language.append_mem_mul (mem_codewords h.userId) ?_
  refine Language.append_mem_mul (mem_codewords h.ip) ?_
  exact Language.append_mem_mul (mem_codewords trivial) (mem_codewords h.bitfield)

lemma FileMeta.Fits.mem {fm : FileMeta} (h : fm.Fits) : putFileMeta fm ∈ files := by
  simp only [putFileMeta, List.append_assoc]
  refine Language.append_mem_mul (mem_codewords h.name) ?_
  refine Language.append_mem_mul (mem_codewords trivial) ?_
  refine Language.append_mem_mul (mem_codewords h.fileHash) (Language.append_mem_mul ?_ ?_)
  · exact putCounted_mem h.pieceHashes fun x hx => mem_codewords (h.pieceHash x hx)
  · exact putValues_mem h.seeders fun k pr hpr => (h.seeder k pr hpr).mem

lemma Group.Fits.mem {grp : Group} (h : grp.Fits) : putGroup grp ∈ groups := by
  simp only [putGroup, List.append_assoc]
  refine Language.append_mem_mul (mem_codewords h.id) ?_
  refine Language.append_mem_mul (mem_codewords h.owner) ?_
  refine Language.append_mem_mul (putElements_mem h.members h.member) ?_
  refine Language.append_mem_mul (putElements_mem h.pending h.request) ?_
  exact putValues_mem h.files fun k fm hfm => (h.file k fm hfm).mem

lemma User.Fits.mem {u : User} (h : u.Fits) : putUser u ∈ users := by
  simp only [putUser, List.append_assoc]
  refine Language.append_mem_mul (mem_codewords h.id) ?_
  refine Language.append_mem_mul (mem_codewords h.password) ?_
  refine Language.append_mem_mul (mem_codewords trivial) ?_
  exact Language.append_mem_mul (mem_codewords h.ip) (mem_codewords trivial)

namespace TrackerState

/-- **A snapshot is written in the format.** -/
lemma snapshot_mem {s : TrackerState} (h : s.Fits) : s.snapshot ∈ snapshots :=
  Language.append_mem_mul (putValues_mem h.users fun k u hu => (h.user k u hu).mem)
    (putValues_mem h.groups fun k grp hgrp => (h.group k grp hgrp).mem)

/-- **A truncated snapshot is refused whole**: wherever it is cut off, `restore` fails and
leaves the state as it was. -/
theorem restore_truncated (s t : TrackerState) (hfits : s.Fits) {b : Str}
    (hpre : b <+: s.snapshot) (hne : b ≠ s.snapshot) : t.restore b = (false, t) := by
  have hnone : decode getState b = none :=
    recognizes_state.strict_prefix (snapshot_mem hfits) hpre hne
  rw [restore, hnone]

theorem restore_truncated_sharing :
    sharing.restore (sharing.snapshot.take 60) = (false, sharing) :=
  restore_truncated sharing sharing (fits_of_length_snapshot (by decide))
    (List.take_prefix 60 _) (by decide)

end TrackerState

end P2PShare
