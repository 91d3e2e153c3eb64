import P2PShare.Lib.TreeMap
import P2PShare.Common.Buffer
import P2PShare.Tracker.State

/-!
`TrackerState::snapshot` and `TrackerState::restore`: the full serialization of
a tracker's state and its wholesale loading.

* `snapshot`, `getState`, `restore`: the nested loops of the source, one put
  and one get function for each record.
* `KeysMatch`: every map key is the id stored under it; `Fits`: every string,
  bitfield and collection is shorter than `2 ^ 32`.
* `decode_snapshot`: a state that has both properties is read back from its
  snapshot. The online byte is read as "not 0", so `getUser` undoes `putUser`
  without being its inverse, and the proof goes through `Undoes`.
* `fits_of_length_snapshot`: a short snapshot comes from a state that fits.
-/

namespace P2PShare

open Cursor Reader

/-! ### Writing -/

/-- One seeder entry in a snapshot. -/
def putPeerRef (pr : PeerRef) : Str :=
  putStr pr.userId ++ putStr pr.ip ++ putU16 pr.port ++ putBits pr.bitfield

/-- One file in a snapshot. -/
def putFileMeta (fm : FileMeta) : Str :=
  putStr fm.name ++ putU64 fm.size ++ putStr fm.fileHash ++ putCounted putStr fm.pieceHashes ++
    putCounted putPeerRef (fm.seeders.toList.map Prod.snd)

/-- One group in a snapshot. -/
def putGroup (grp : Group) : Str :=
  putStr grp.id ++ putStr grp.owner ++ putCounted putStr grp.members.toList ++
    putCounted putStr grp.pending.toList ++ putCounted putFileMeta (grp.files.toList.map Prod.snd)

/-- One user in a snapshot. -/
def putUser (u : User) : Str :=
  putStr u.id ++ putStr u.password ++ putU8 (if u.online then 1 else 0) ++ putStr u.ip ++
    putU16 u.port

namespace TrackerState

/-- `snapshot`: the keys are not written, each record carries its own. -/
def snapshot (s : TrackerState) : Str :=
  putCounted putUser (s.users.toList.map Prod.snd) ++
    putCounted putGroup (s.groups.toList.map Prod.snd)

end TrackerState

/-! ### Reading -/

/-- `m[key v] = v` for each of `vs` in order. -/
def insertAll {β : Type} (key : β → Str) (vs : List β) : StrMap β :=
  Std.ExtTreeMap.ofList (vs.map fun v => (key v, v)) compare

/-- One seeder entry of a snapshot. -/
def getPeerRef : Get PeerRef := do
  let userId ← getStr
  let ip ← getStr
  let port ← getU16
  let bitfield ← getBits
  return ⟨userId, ip, port, bitfield⟩

/-- One file of a snapshot. -/
def getFileMeta : Get FileMeta := do
  let name ← getStr
  let size ← getU64
  let fileHash ← getStr
  let pieceHashes ← getCounted getStr
  let seeders ← getCounted getPeerRef
  return ⟨name, size, fileHash, pieceHashes, insertAll PeerRef.userId seeders⟩

/-- One group of a snapshot. -/
def getGroup : Get Group := do
  let id ← getStr
  let owner ← getStr
  let members ← getCounted getStr
  let pending ← getCounted getStr
  let files ← getCounted getFileMeta
  return ⟨id, owner, .ofList members compare, .ofList pending compare,
    insertAll FileMeta.name files⟩

/-- One user of a snapshot. -/
def getUser : Get User := do
  let id ← getStr
  let password ← getStr
  let online ← getU8
  let ip ← getStr
  let port ← getU16
  return ⟨id, password, online ≠ 0, ip, port⟩

/-- The two tables of a snapshot. -/
def getState : Get TrackerState := do
  let users ← getCounted getUser
  let groups ← getCounted getGroup
  return ⟨insertAll User.id users, insertAll Group.id groups⟩

namespace TrackerState

/-- `restore`: both tables are replaced once the whole blob has been read, and
otherwise the state stays. -/
def restore (t : TrackerState) (blob : Str) : Bool × TrackerState :=
  match decode getState blob with
  | some s => (true, s)
  | none => (false, t)

end TrackerState

/-! ### States that a snapshot describes -/

/-- Every key of the map is the one its value carries. -/
def Keyed {β : Type} (key : β → Str) (m : StrMap β) : Prop :=
  ∀ (k : Str) (v : β), m[k]? = some v → key v = k

lemma keyed_empty {β : Type} (key : β → Str) : Keyed key (∅ : StrMap β) := by
  intro k v hv
  simp at hv

lemma Keyed.insert {β : Type} {key : β → Str} {m : StrMap β} (hm : Keyed key m) {k : Str} {v : β}
    (hv : key v = k) : Keyed key (m.insert k v) := by
  intro k' w hw
  rw [Std.ExtTreeMap.getElem?_insert] at hw
  by_cases hk : k = k'
  · obtain rfl : v = w := by simpa [hk] using hw
    exact hv.trans hk
  · exact hm k' w (by simpa [hk] using hw)

lemma Keyed.erase {β : Type} {key : β → Str} {m : StrMap β} (hm : Keyed key m) (k : Str) :
    Keyed key (m.erase k) := by
  intro k' w hw
  rw [Std.ExtTreeMap.getElem?_erase] at hw
  by_cases hk : k = k'
  · simp [hk] at hw
  · exact hm k' w (by simpa [hk] using hw)

lemma Keyed.map {β : Type} {key : β → Str} {m : StrMap β} (hm : Keyed key m) {f : Str → β → β}
    (hf : ∀ k v, key (f k v) = key v) : Keyed key (m.map f) := by
  intro k w hw
  rw [Std.ExtTreeMap.getElem?_map] at hw
  obtain ⟨v, hv, rfl⟩ := Option.map_eq_some_iff.mp hw
  exact (hf k v).trans (hm k v hv)

/-- The keys of the files and of their seeders are the ones stored under them. -/
structure Group.KeysMatch (grp : Group) : Prop where
  files : Keyed FileMeta.name grp.files
  seeders : ∀ (k : Str) (fm : FileMeta), grp.files[k]? = some fm → Keyed PeerRef.userId fm.seeders

/-- Every map key is the id or name stored under it. -/
structure TrackerState.KeysMatch (s : TrackerState) : Prop where
  users : Keyed User.id s.users
  groups : Keyed Group.id s.groups
  group : ∀ (k : Str) (grp : Group), s.groups[k]? = some grp → grp.KeysMatch

/-- The strings and the bitfield of a seeder entry are shorter than `2 ^ 32`. -/
structure PeerRef.Fits (pr : PeerRef) : Prop where
  userId : pr.userId.length < 2 ^ 32
  ip : pr.ip.length < 2 ^ 32
  bitfield : pr.bitfield.length < 2 ^ 32

/-- The strings and collections of a file are shorter than `2 ^ 32`. -/
structure FileMeta.Fits (fm : FileMeta) : Prop where
  name : fm.name.length < 2 ^ 32
  fileHash : fm.fileHash.length < 2 ^ 32
  pieceHashes : fm.pieceHashes.length < 2 ^ 32
  pieceHash : ∀ h ∈ fm.pieceHashes, h.length < 2 ^ 32
  seeders : fm.seeders.size < 2 ^ 32
  seeder : ∀ (k : Str) (pr : PeerRef), fm.seeders[k]? = some pr → pr.Fits

/-- The strings and collections of a group are shorter than `2 ^ 32`. -/
structure Group.Fits (grp : Group) : Prop where
  id : grp.id.length < 2 ^ 32
  owner : grp.owner.length < 2 ^ 32
  members : grp.members.size < 2 ^ 32
  member : ∀ m ∈ grp.members, m.length < 2 ^ 32
  pending : grp.pending.size < 2 ^ 32
  request : ∀ p ∈ grp.pending, p.length < 2 ^ 32
  files : grp.files.size < 2 ^ 32
  file : ∀ (k : Str) (fm : FileMeta), grp.files[k]? = some fm → fm.Fits

/-- The strings of a user are shorter than `2 ^ 32`. -/
structure User.Fits (u : User) : Prop where
  id : u.id.length < 2 ^ 32
  password : u.password.length < 2 ^ 32
  ip : u.ip.length < 2 ^ 32

/-- Every string, bitfield and collection of the state is shorter than `2 ^ 32`. -/
structure TrackerState.Fits (s : TrackerState) : Prop where
  users : s.users.size < 2 ^ 32
  user : ∀ (k : Str) (u : User), s.users[k]? = some u → u.Fits
  groups : s.groups.size < 2 ^ 32
  group : ∀ (k : Str) (grp : Group), s.groups[k]? = some grp → grp.Fits

/-! ### Reading back -/

/-- A map is rebuilt from its values. -/
lemma insertAll_values {β : Type} {key : β → Str} {m : StrMap β} (hm : Keyed key m) :
    insertAll key (m.toList.map Prod.snd) = m :=
  Std.ExtTreeMap.ofList_keyed m key hm

/-- The values of a map are written as a counted collection and read back. -/
lemma reads_values {β : Type} {g : Get β} {enc : β → Str} {ok : β → Prop} (hg : Undoes g enc ok)
    {m : StrMap β} (hsize : m.size < 2 ^ 32) (hok : ∀ (k : Str) (v : β), m[k]? = some v → ok v)
    {c c' : Buffer} (hcut : Cut c (putCounted enc (m.toList.map Prod.snd)) c') :
    Reads (getCounted g) c (m.toList.map Prod.snd) c' := by
  refine undoes_counted hg _ c c' ⟨?_, fun v hv => ?_⟩ hcut
  · rwa [List.length_map, Std.ExtTreeMap.length_toList]
  · obtain ⟨⟨k, w⟩, hkw, rfl⟩ := List.mem_map.mp hv
    exact hok k w (Std.ExtTreeMap.mem_toList_iff_getElem?_eq_some.mp hkw)

/-- The elements of a set are written as a counted collection and read back. -/
lemma reads_elements {t : StrSet} (hsize : t.size < 2 ^ 32) (hok : ∀ m ∈ t, m.length < 2 ^ 32)
    {c c' : Buffer} (hcut : Cut c (putCounted putStr t.toList) c') :
    Reads (getCounted getStr) c t.toList c' := by
  refine undoes_counted codec_str.undoes _ c c' ⟨?_, fun m hm => ?_⟩ hcut
  · rwa [Std.ExtTreeSet.length_toList]
  · exact hok m (Std.ExtTreeSet.mem_toList.mp hm)

lemma undoes_peerRef : Undoes getPeerRef putPeerRef PeerRef.Fits := by
  intro pr c c' hfit hcut
  simp only [putPeerRef, cut_append] at hcut
  obtain ⟨c₃, ⟨c₂, ⟨c₁, hid, hip⟩, hport⟩, hbits⟩ := hcut
  refine (codec_str.undoes _ _ _ hfit.userId hid).bind ?_
  refine (codec_str.undoes _ _ _ hfit.ip hip).bind ?_
  refine (codec_u16.undoes _ _ _ trivial hport).bind ?_
  refine (codec_bits.undoes _ _ _ hfit.bitfield hbits).bind ?_
  exact read_pure _ _

lemma undoes_fileMeta :
    Undoes getFileMeta putFileMeta (fun fm => fm.Fits ∧ Keyed PeerRef.userId fm.seeders) := by
  rintro fm c c' ⟨hfit, hkeys⟩ hcut
  simp only [putFileMeta, cut_append] at hcut
  obtain ⟨c₄, ⟨c₃, ⟨c₂, ⟨c₁, hname, hsize⟩, hhash⟩, hpieces⟩, hseeders⟩ := hcut
  refine (codec_str.undoes _ _ _ hfit.name hname).bind ?_
  refine (codec_u64.undoes _ _ _ trivial hsize).bind ?_
  refine (codec_str.undoes _ _ _ hfit.fileHash hhash).bind ?_
  refine ((codec_counted codec_str).undoes _ _ _ ⟨hfit.pieceHashes, hfit.pieceHash⟩ hpieces).bind ?_
  refine (reads_values undoes_peerRef hfit.seeders hfit.seeder hseeders).bind ?_
  rw [insertAll_values hkeys]
  exact read_pure _ _

lemma undoes_group : Undoes getGroup putGroup (fun grp => grp.Fits ∧ grp.KeysMatch) := by
  rintro grp c c' ⟨hfit, hkeys⟩ hcut
  simp only [putGroup, cut_append] at hcut
  obtain ⟨c₄, ⟨c₃, ⟨c₂, ⟨c₁, hid, howner⟩, hmembers⟩, hpending⟩, hfiles⟩ := hcut
  refine (codec_str.undoes _ _ _ hfit.id hid).bind ?_
  refine (codec_str.undoes _ _ _ hfit.owner howner).bind ?_
  refine (reads_elements hfit.members hfit.member hmembers).bind ?_
  refine (reads_elements hfit.pending hfit.request hpending).bind ?_
  refine (reads_values undoes_fileMeta hfit.files
    (fun k fm hfm => ⟨hfit.file k fm hfm, hkeys.seeders k fm hfm⟩) hfiles).bind ?_
  rw [insertAll_values hkeys.files, Std.ExtTreeSet.ofList_toList, Std.ExtTreeSet.ofList_toList]
  exact read_pure _ _

lemma undoes_user : Undoes getUser putUser User.Fits := by
  intro u c c' hfit hcut
  simp only [putUser, cut_append] at hcut
  obtain ⟨c₄, ⟨c₃, ⟨c₂, ⟨c₁, hid, hpwd⟩, honline⟩, hip⟩, hport⟩ := hcut
  refine (codec_str.undoes _ _ _ hfit.id hid).bind ?_
  refine (codec_str.undoes _ _ _ hfit.password hpwd).bind ?_
  refine (codec_u8.undoes _ _ _ trivial honline).bind ?_
  refine (codec_str.undoes _ _ _ hfit.ip hip).bind ?_
  refine (codec_u16.undoes _ _ _ trivial hport).bind ?_
  have hbyte : decide ((if u.online then 1 else 0 : UInt8) ≠ 0) = u.online := by
    cases u.online <;> decide
  rw [hbyte]
  exact read_pure _ _

lemma undoes_state :
    Undoes getState TrackerState.snapshot (fun s => s.Fits ∧ s.KeysMatch) := by
  rintro s c c' ⟨hfit, hkeys⟩ hcut
  obtain ⟨c₁, husers, hgroups⟩ := cut_append.mp hcut
  refine (reads_values undoes_user hfit.users hfit.user husers).bind ?_
  refine (reads_values undoes_group hfit.groups
    (fun k grp hgrp => ⟨hfit.group k grp hgrp, hkeys.group k grp hgrp⟩) hgroups).bind ?_
  rw [insertAll_values hkeys.users, insertAll_values hkeys.groups]
  exact read_pure _ _

/-! ### Short snapshots -/

/-- The values of a written map are shorter than the whole. -/
lemma lt_of_putValues {β : Type} (put : β → Str) {m : StrMap β} {n : ℕ} {k : Str} {v : β}
    (h : (putCounted put (m.toList.map Prod.snd)).length < n) (hv : m[k]? = some v) :
    (put v).length < n := by
  have hmem : v ∈ m.toList.map Prod.snd :=
    List.mem_map.mpr ⟨(k, v), Std.ExtTreeMap.mem_toList_iff_getElem?_eq_some.mpr hv, rfl⟩
  exact (length_le_putCounted put hmem).trans_lt h

/-- A written map has fewer entries than bytes. -/
lemma size_lt_of_putValues {β : Type} (put : β → Str) (hpos : ∀ v, 0 < (put v).length)
    {m : StrMap β} {n : ℕ} (h : (putCounted put (m.toList.map Prod.snd)).length < n) :
    m.size < n := by
  have hcard := card_le_putCounted put (m.toList.map Prod.snd) hpos
  rw [List.length_map, Std.ExtTreeMap.length_toList] at hcard
  exact hcard.trans_lt h

/-- A written set has fewer elements than bytes, and so has each element. -/
lemma lt_of_putElements {t : StrSet} {n : ℕ} (h : (putCounted putStr t.toList).length < n) :
    t.size < n ∧ ∀ m ∈ t, m.length < n := by
  have hcard := card_le_putCounted putStr t.toList (fun a => by simp)
  rw [Std.ExtTreeSet.length_toList] at hcard
  refine ⟨hcard.trans_lt h, fun m hm => ?_⟩
  have hlen := length_le_putCounted putStr (Std.ExtTreeSet.mem_toList.mpr hm)
  rw [length_putStr] at hlen
  omega

lemma PeerRef.fits_of_length {pr : PeerRef} (h : (putPeerRef pr).length < 2 ^ 32) : pr.Fits := by
  simp only [putPeerRef, List.length_append, length_putStr, length_putU16, length_putBits] at h
  exact ⟨by omega, by omega, by omega⟩

lemma FileMeta.fits_of_length {fm : FileMeta} (h : (putFileMeta fm).length < 2 ^ 32) : fm.Fits := by
  simp only [putFileMeta, List.length_append, length_putStr, length_putU64] at h
  have hpieces : (putCounted putStr fm.pieceHashes).length < 2 ^ 32 := by omega
  have hseeders :
      (putCounted putPeerRef (fm.seeders.toList.map Prod.snd)).length < 2 ^ 32 := by omega
  refine ⟨by omega, by omega, ?_, fun x hx => ?_, ?_, fun k pr hpr => ?_⟩
  · exact (card_le_putCounted putStr fm.pieceHashes fun a => by simp).trans_lt hpieces
  · have hlen := length_le_putCounted putStr hx
    rw [length_putStr] at hlen
    omega
  · exact size_lt_of_putValues putPeerRef (fun v => by simp [putPeerRef]) hseeders
  · exact PeerRef.fits_of_length (lt_of_putValues putPeerRef hseeders hpr)

lemma Group.fits_of_length {grp : Group} (h : (putGroup grp).length < 2 ^ 32) : grp.Fits := by
  simp only [putGroup, List.length_append, length_putStr] at h
  obtain ⟨hmsize, hmem⟩ := lt_of_putElements (t := grp.members) (n := 2 ^ 32) (by omega)
  obtain ⟨hpsize, hpend⟩ := lt_of_putElements (t := grp.pending) (n := 2 ^ 32) (by omega)
  have hfiles : (putCounted putFileMeta (grp.files.toList.map Prod.snd)).length < 2 ^ 32 := by omega
  refine ⟨by omega, by omega, hmsize, hmem, hpsize, hpend, ?_, fun k fm hfm => ?_⟩
  · exact size_lt_of_putValues putFileMeta (fun v => by simp [putFileMeta]) hfiles
  · exact FileMeta.fits_of_length (lt_of_putValues putFileMeta hfiles hfm)

lemma User.fits_of_length {u : User} (h : (putUser u).length < 2 ^ 32) : u.Fits := by
  simp only [putUser, List.length_append, length_putStr, length_putU8, length_putU16] at h
  exact ⟨by omega, by omega, by omega⟩

namespace TrackerState

/-- **A snapshot shorter than `2 ^ 32` is one of a state that fits.** -/
theorem fits_of_length_snapshot {s : TrackerState} (h : s.snapshot.length < 2 ^ 32) : s.Fits := by
  rw [snapshot, List.length_append] at h
  have husers : (putCounted putUser (s.users.toList.map Prod.snd)).length < 2 ^ 32 := by omega
  have hgroups : (putCounted putGroup (s.groups.toList.map Prod.snd)).length < 2 ^ 32 := by omega
  refine ⟨?_, fun k u hu => ?_, ?_, fun k grp hgrp => ?_⟩
  · exact size_lt_of_putValues putUser (fun v => by simp [putUser]) husers
  · exact User.fits_of_length (lt_of_putValues putUser husers hu)
  · exact size_lt_of_putValues putGroup (fun v => by simp [putGroup]) hgroups
  · exact Group.fits_of_length (lt_of_putValues putGroup hgroups hgrp)

/-- **A snapshot is read back as the state it was taken of.** -/
lemma decode_snapshot {s : TrackerState} (hkeys : s.KeysMatch) (hfits : s.Fits) :
    decode getState s.snapshot = some s :=
  undoes_state.read_start ⟨hfits, hkeys⟩

/-- **Snapshot round trip**: restoring a snapshot succeeds and leaves exactly
the state it was taken of, whatever was there before. -/
theorem restore_snapshot (s t : TrackerState) (hkeys : s.KeysMatch) (hfits : s.Fits) :
    t.restore s.snapshot = (true, s) := by
  rw [restore, decode_snapshot hkeys hfits]

/-- A user who owns a group and seeds one file in it. -/
def sharing : TrackerState :=
  let fm : FileMeta := ⟨[3], 5, [9], [[7], [8]], (∅ : StrMap PeerRef).insert [1] ⟨[1], [4], 6, [3]⟩⟩
  { users := (∅ : StrMap User).insert [1] ⟨[1], [2], true, [4], 6⟩
    groups := (∅ : StrMap Group).insert [5]
      ⟨[5], [1], (∅ : StrSet).insert [1], (∅ : StrSet).insert [2],
        (∅ : StrMap FileMeta).insert [3] fm⟩ }

lemma sharing_keysMatch : sharing.KeysMatch where
  users := (keyed_empty _).insert rfl
  groups := (keyed_empty _).insert rfl
  group k grp hgrp := by
    rw [sharing, Std.ExtTreeMap.getElem?_insert] at hgrp
    split at hgrp
    · obtain rfl := Option.some.inj hgrp
      refine ⟨(keyed_empty _).insert rfl, fun k' fm hfm => ?_⟩
      rw [Std.ExtTreeMap.getElem?_insert] at hfm
      split at hfm
      · obtain rfl := Option.some.inj hfm
        exact (keyed_empty _).insert rfl
      · simp at hfm
    · simp at hgrp

theorem restore_snapshot_sharing : init.restore sharing.snapshot = (true, sharing) :=
  restore_snapshot sharing init sharing_keysMatch (fits_of_length_snapshot (by decide))

end TrackerState

end P2PShare
