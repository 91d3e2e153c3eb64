import P2PShare.Lib.Runs
import P2PShare.Tracker.Invariant

/-!
The seeder maps of a tracker over any sequence of its operations.

* `EveryGroup P`: `P` holds of every group, with one lemma for each way a state
  is written; for a call that writes one group, `P` has to be shown of that
  group only.
* `OnlyMembersSeed` and `members_seed`: the seeders are members exactly as long
  as nobody leaves a group in which they seed. `leaver_seeds` is a run in which
  somebody does.
* `BitfieldsFit` and `bitfields_fit`: the bitfields have the length that the
  stored pieces ask for exactly as long as those written later do.
  `bitfield_grows` is a run with another one.
* `Unshared`: a user who seeds nothing, as after a logout; only the user's own
  uploads and announcements end it.
* `Share`: one file that one user seeds, and `seeds_after_iff`: what puts the user
  among its seeders and what takes the user out.
-/

namespace P2PShare

/-- The user whom an operation records as a seeder. -/
def Call.sharer : Call → Option Str
  | addFile _ uid _ _ _ => some uid
  | updateBitfield _ uid _ _ _ _ => some uid
  | createUser .. | login .. | logout .. | createGroup .. | joinGroup .. | leaveGroup ..
  | acceptRequest .. | stopShare .. => none

namespace TrackerState

/-- One operation, whatever it answers. -/
def step (H : Str → Str) (s : TrackerState) (c : Call) : Option TrackerState := some (s.after H c)

/-! ### What holds of every group -/

/-- Every group satisfies `P`. -/
def EveryGroup (P : Group → Prop) (s : TrackerState) : Prop :=
  ∀ (gid : Str) (grp : Group), s.groups[gid]? = some grp → P grp

namespace EveryGroup

variable {P : Group → Prop} {s : TrackerState}

lemma init : EveryGroup P init := by
  intro gid grp hgrp
  simp [TrackerState.init] at hgrp

/-- Where one group is written, `P` rests on that group. -/
lemma setGroup_iff (h : EveryGroup P s) {gid : Str} {grp : Group} :
    EveryGroup P (s.setGroup gid grp) ↔ P grp := by
  refine ⟨fun hset => hset gid grp (by simp [TrackerState.setGroup]), fun hgrp k grp' hk => ?_⟩
  rw [TrackerState.setGroup, Std.ExtTreeMap.getElem?_insert] at hk
  split at hk
  · obtain rfl := Option.some.inj hk
    exact hgrp
  · exact h k grp' hk

lemma erase (h : EveryGroup P s) (gid : Str) :
    EveryGroup P { s with groups := s.groups.erase gid } := by
  intro k grp hk
  rw [Std.ExtTreeMap.getElem?_erase] at hk
  split at hk
  · cases hk
  · exact h k grp hk

lemma map (h : EveryGroup P s) {f : Group → Group} (hf : ∀ grp, P grp → P (f grp))
    (users : StrMap User) : EveryGroup P ⟨users, s.groups.map fun _ grp => f grp⟩ := by
  intro k grp hk
  rw [Std.ExtTreeMap.getElem?_map] at hk
  obtain ⟨grp₀, hgrp₀, rfl⟩ := Option.map_eq_some_iff.mp hk
  exact hf grp₀ (h k grp₀ hgrp₀)

end EveryGroup

/-- Every file of the group satisfies `Q`. -/
def EveryFile (Q : FileMeta → Prop) (grp : Group) : Prop :=
  ∀ (fname : Str) (fm : FileMeta), grp.files[fname]? = some fm → Q fm

namespace EveryFile

variable {Q : FileMeta → Prop} {grp : Group}

lemma of_empty (hempty : grp.files = ∅) : EveryFile Q grp := by
  intro fname fm hfm
  simp [hempty] at hfm

/-- Where one file is written, `Q` rests on that file. -/
lemma setFile_iff (h : EveryFile Q grp) {fname : Str} {fm : FileMeta} :
    EveryFile Q { grp with files := grp.files.insert fname fm } ↔ Q fm := by
  refine ⟨fun hset => hset fname fm (by simp), fun hfm k fm' hk => ?_⟩
  rw [Std.ExtTreeMap.getElem?_insert] at hk
  split at hk
  · obtain rfl := Option.some.inj hk
    exact hfm
  · exact h k fm' hk

lemma dropSeeder (h : EveryFile Q grp) {uid : Str}
    (herase : ∀ fm, Q fm → Q { fm with seeders := fm.seeders.erase uid }) :
    EveryFile Q (TrackerState.dropSeeder uid grp) := by
  intro fname fm hfm
  rw [TrackerState.dropSeeder, Std.ExtTreeMap.getElem?_map] at hfm
  obtain ⟨fm₀, hfm₀, rfl⟩ := Option.map_eq_some_iff.mp hfm
  exact herase fm₀ (h fname fm₀ hfm₀)

end EveryFile

/-- Operations from the empty state keep `P` for every group exactly as long as
each of them meets its condition. -/
lemma throughout_everyGroup {H : Str → Str} {P : Group → Prop} {ok : TrackerState → Call → Prop}
    (hafter : ∀ {s : TrackerState}, s.WellFormed → s.EveryGroup P → ∀ c,
      ((s.after H c).EveryGroup P ↔ ok s c)) (calls : List Call) :
    Throughout (step H) (EveryGroup P) init calls ↔ Meets (step H) ok init calls := by
  refine throughout_iff_meets (J := WellFormed) (fun {s c} hs h => ?_) .init .init
  exact ⟨s.after H c, rfl, hs.after c, hafter hs h c⟩

/-! ### Only members seed -/

/-- Every seeder of a file of the group is a member. -/
def OnlyMembersSeed (grp : Group) : Prop :=
  EveryFile (fun fm => ∀ uid ∈ fm.seeders, uid ∈ grp.members) grp

/-- **The condition**: a member who leaves a group that goes on seeds none of its
files. -/
def LeavesUnseeded (s : TrackerState) : Call → Prop
  | .leaveGroup gid uid =>
      ∀ grp ∈ s.groups[gid]?, gid ≠ [] → uid ≠ [] → uid ∈ grp.members → grp.members.erase uid ≠ ∅ →
        ∀ kv ∈ grp.files.toList, uid ∉ kv.2.seeders
  | .createUser .. | .login .. | .logout .. | .createGroup .. | .joinGroup .. | .acceptRequest ..
  | .addFile .. | .stopShare .. | .updateBitfield .. => True

instance (s : TrackerState) : ∀ c, Decidable (s.LeavesUnseeded c)
  | .leaveGroup _ _ => inferInstanceAs (Decidable (∀ _ ∈ _, _))
  | .createUser .. | .login .. | .logout .. | .createGroup .. | .joinGroup .. | .acceptRequest ..
  | .addFile .. | .stopShare .. | .updateBitfield .. => .isTrue trivial

namespace OnlyMembersSeed

variable {grp : Group}

/-- A member becomes a seeder. -/
lemma insert {seeders : StrMap PeerRef} (h : ∀ uid ∈ seeders, uid ∈ grp.members) {uid : Str}
    (hmem : uid ∈ grp.members) (pr : PeerRef) : ∀ v ∈ seeders.insert uid pr, v ∈ grp.members := by
  intro v hv
  rcases Std.ExtTreeMap.mem_insert.mp hv with heq | hv
  · obtain rfl : uid = v := by simpa using heq
    exact hmem
  · exact h v hv

/-- Removing a member keeps it exactly if the member seeds nothing. -/
lemma erase_iff (h : OnlyMembersSeed grp) {uid : Str} (owner : Str) :
    OnlyMembersSeed { grp with members := grp.members.erase uid, owner := owner } ↔
      ∀ kv ∈ grp.files.toList, uid ∉ kv.2.seeders := by
  constructor
  · rintro herase ⟨fname, fm⟩ hkv huid
    have hfm : grp.files[fname]? = some fm := Std.ExtTreeMap.mem_toList_iff_getElem?_eq_some.mp hkv
    have hmem : uid ∈ grp.members.erase uid := herase fname fm hfm uid huid
    simp at hmem
  · intro hnone fname fm hfm v hv
    have hkv : (fname, fm) ∈ grp.files.toList :=
      Std.ExtTreeMap.mem_toList_iff_getElem?_eq_some.mpr hfm
    have hne : uid ≠ v := by
      rintro rfl
      exact hnone _ hkv hv
    exact Std.ExtTreeSet.mem_erase.mpr ⟨by simpa using hne, h fname fm hfm v hv⟩

end OnlyMembersSeed

variable {H : Str → Str} {s s' : TrackerState} {c : Call}

/-- **Step lemma**: a successful call keeps the seeders members exactly under the
condition. -/
lemma Ran.onlyMembersSeed_iff (hran : Ran H s c s') (hs : s.WellFormed)
    (h : s.EveryGroup OnlyMembersSeed) :
    s'.EveryGroup OnlyMembersSeed ↔ s.LeavesUnseeded c := by
  cases hran with
  | createUser | login => exact iff_of_true h trivial
  | logout =>
      exact iff_of_true (h.map (fun _ hgrp => EveryFile.dropSeeder hgrp fun _ hfm v hv =>
        hfm v (Std.ExtTreeMap.mem_of_mem_erase hv)) _) trivial
  | createGroup => exact iff_of_true (h.setGroup_iff.mpr (EveryFile.of_empty rfl)) trivial
  | joinGroup _ _ hg =>
      have hgrp := h _ _ hg
      exact iff_of_true (h.setGroup_iff.mpr hgrp) trivial
  | acceptRequest _ _ _ hg =>
      refine iff_of_true (h.setGroup_iff.mpr fun fname fm hfm v hv => ?_) trivial
      exact Std.ExtTreeSet.mem_insert.mpr (.inr (h _ _ hg fname fm hfm v hv))
  | dissolve _ _ hg _ _ hlast =>
      -- the files go with the group, so there is no seeder of it left
      refine iff_of_true (h.erase _) fun grp hgrp _ _ _ hne => ?_
      obtain rfl := Option.some.inj (hg.symm.trans hgrp)
      exact absurd (Std.ExtTreeSet.min?_eq_none_iff.mp hlast) hne
  | handoff hgid huid hg hmem _ hmin =>
      -- whoever leaves must not be a seeder, as the files stay
      rw [h.setGroup_iff, (h _ _ hg).erase_iff _]
      refine ⟨fun hnone grp hgrp _ _ _ _ => ?_, fun hok => hok _ hg hgid huid hmem fun hempty => ?_⟩
      · obtain rfl := Option.some.inj (hg.symm.trans hgrp)
        exact hnone
      · rw [hempty] at hmin
        simp at hmin
  | @leave gid uid grp hgid huid hg hmem howner =>
      -- the owner is still there, so the group stays
      have hstays : grp.owner ∈ grp.members.erase uid :=
        Std.ExtTreeSet.mem_erase.mpr ⟨by simpa using howner, (hs.group _ _ hg).owner⟩
      rw [h.setGroup_iff, (h _ _ hg).erase_iff grp.owner]
      refine ⟨fun hnone grp' hgrp _ _ _ _ => ?_,
        fun hok => hok _ hg hgid huid hmem fun hempty => ?_⟩
      · obtain rfl := Option.some.inj (hg.symm.trans hgrp)
        exact hnone
      · rw [hempty] at hstays
        simp at hstays
  | addSeeder _ _ _ hg hmem hf =>
      have hgrp := h _ _ hg
      exact iff_of_true (h.setGroup_iff.mpr
        ((EveryFile.setFile_iff hgrp).mpr (OnlyMembersSeed.insert (hgrp _ _ hf) hmem _))) trivial
  | @addFile gid uid ip port fmeta grp _ _ _ hg hmem =>
      have hnone : ∀ v ∈ (∅ : StrMap PeerRef), v ∈ grp.members := fun v hv => by simp at hv
      exact iff_of_true (h.setGroup_iff.mpr
        ((EveryFile.setFile_iff (h _ _ hg)).mpr (OnlyMembersSeed.insert hnone hmem _))) trivial
  | stopShare _ _ _ hg hf =>
      have hgrp := h _ _ hg
      refine iff_of_true (h.setGroup_iff.mpr ((EveryFile.setFile_iff hgrp).mpr fun v hv => ?_))
        trivial
      exact hgrp _ _ hf v (Std.ExtTreeMap.mem_of_mem_erase hv)
  | updateBitfield _ _ _ hg hmem hf =>
      have hgrp := h _ _ hg
      exact iff_of_true (h.setGroup_iff.mpr
        ((EveryFile.setFile_iff hgrp).mpr (OnlyMembersSeed.insert (hgrp _ _ hf) hmem _))) trivial

/-- A member who asks to leave leaves. -/
lemma leaveGroup_ok {gid uid : Str} {grp : Group} (hg : s.groups[gid]? = some grp) (hgid : gid ≠ [])
    (huid : uid ≠ []) (hmem : uid ∈ grp.members) : (s.exec H (.leaveGroup gid uid)).1 = .ok := by
  by_cases howner : uid = grp.owner
  · cases hmin : (grp.members.erase uid).min? with
    | none => rw [(Ran.dissolve hgid huid hg hmem howner hmin).exec_eq]
    | some m => rw [(Ran.handoff hgid huid hg hmem howner hmin).exec_eq]
  · rw [(Ran.leave hgid huid hg hmem howner).exec_eq]

/-- The same for a call with any answer. -/
lemma onlyMembersSeed_after_iff (hs : s.WellFormed) (h : s.EveryGroup OnlyMembersSeed) (c : Call) :
    (s.after H c).EveryGroup OnlyMembersSeed ↔ s.LeavesUnseeded c := by
  by_cases hok : (s.exec H c).1 = .ok
  · exact (exec_eq_ok_iff.mp (Prod.ext hok rfl)).onlyMembersSeed_iff hs h
  · rw [exec_refused hok]
    refine iff_of_true h ?_
    cases c with
    | leaveGroup gid uid =>
        intro grp hg hgid huid hmem
        exact absurd (leaveGroup_ok hg hgid huid hmem) hok
    | _ => trivial

/-! ### Bitfields -/

/-- The length of a bitfield for the pieces of this file. -/
def bitfieldLength (fm : FileMeta) : ℕ := (fm.pieceHashes.length + 7) / 8

/-- Every bitfield recorded for the file has this length. -/
def Fitted (fm : FileMeta) : Prop :=
  ∀ (uid : Str) (pr : PeerRef), fm.seeders[uid]? = some pr → pr.bitfield.length = bitfieldLength fm

/-- Every file of the group is `Fitted`. -/
def BitfieldsFit (grp : Group) : Prop := EveryFile Fitted grp

/-- **The condition**: a file that is uploaded again has the stored number of
pieces, up to the bytes of a bitfield, and an announced bitfield is that long. -/
def WritesFitted (s : TrackerState) : Call → Prop
  | .addFile gid uid _ _ fmeta =>
      ∀ grp ∈ s.groups[gid]?, gid ≠ [] → uid ≠ [] → fmeta.name ≠ [] → uid ∈ grp.members →
        ∀ fm ∈ grp.files[fmeta.name]?, fm.fileHash = fmeta.fileHash →
          bitfieldLength fmeta = bitfieldLength fm
  | .updateBitfield gid uid _ _ fname bits =>
      ∀ grp ∈ s.groups[gid]?, gid ≠ [] → uid ≠ [] → fname ≠ [] → uid ∈ grp.members →
        ∀ fm ∈ grp.files[fname]?, bits.length = bitfieldLength fm
  | .createUser .. | .login .. | .logout .. | .createGroup .. | .joinGroup .. | .leaveGroup ..
  | .acceptRequest .. | .stopShare .. => True

instance (s : TrackerState) : ∀ c, Decidable (s.WritesFitted c)
  | .addFile .. | .updateBitfield .. => inferInstanceAs (Decidable (∀ _ ∈ _, _))
  | .createUser .. | .login .. | .logout .. | .createGroup .. | .joinGroup .. | .leaveGroup ..
  | .acceptRequest .. | .stopShare .. => .isTrue trivial

namespace Fitted

variable {fm : FileMeta}

/-- Where one entry is written, the lengths rest on that entry. -/
lemma insert_iff (h : Fitted fm) {uid : Str} {pr : PeerRef} :
    Fitted { fm with seeders := fm.seeders.insert uid pr } ↔
      pr.bitfield.length = bitfieldLength fm := by
  refine ⟨fun hins => hins uid pr (by simp), fun hpr v pr' hk => ?_⟩
  rw [Std.ExtTreeMap.getElem?_insert] at hk
  split at hk
  · obtain rfl := Option.some.inj hk
    exact hpr
  · exact h v pr' hk

lemma erase (h : Fitted fm) (uid : Str) :
    Fitted { fm with seeders := fm.seeders.erase uid } := by
  intro v pr hk
  rw [Std.ExtTreeMap.getElem?_erase] at hk
  split at hk
  · cases hk
  · exact h v pr hk

end Fitted

lemma length_fullPeer (uid ip : Str) (port : UInt16) (fmeta : FileMeta) :
    (fullPeer uid ip port fmeta).bitfield.length = bitfieldLength fmeta := by
  rw [fullPeer, List.length_replicate, bitfieldLength]

/-- **Step lemma**: a successful call keeps the lengths exactly under the
condition. -/
lemma Ran.bitfieldsFit_iff (hran : Ran H s c s') (h : s.EveryGroup BitfieldsFit) :
    s'.EveryGroup BitfieldsFit ↔ s.WritesFitted c := by
  cases hran with
  | createUser | login => exact iff_of_true h trivial
  | logout =>
      exact iff_of_true (h.map (fun _ hgrp => EveryFile.dropSeeder hgrp fun _ hfm =>
        hfm.erase _) _) trivial
  | createGroup => exact iff_of_true (h.setGroup_iff.mpr (EveryFile.of_empty rfl)) trivial
  | joinGroup _ _ hg | acceptRequest _ _ _ hg | handoff _ _ hg | leave _ _ hg =>
      have hgrp := h _ _ hg
      exact iff_of_true (h.setGroup_iff.mpr hgrp) trivial
  | dissolve => exact iff_of_true (h.erase _) trivial
  | stopShare _ _ _ hg hf =>
      have hgrp := h _ _ hg
      exact iff_of_true (h.setGroup_iff.mpr ((EveryFile.setFile_iff hgrp).mpr
        ((hgrp _ _ hf).erase _))) trivial
  | addSeeder hgid huid hname hg hmem hf hhash =>
      have hgrp := h _ _ hg
      -- the bitfield is made for the metadata of this upload, the file has those of the first
      rw [TrackerState.setFile, h.setGroup_iff, BitfieldsFit, EveryFile.setFile_iff hgrp,
        (hgrp _ _ hf).insert_iff, length_fullPeer]
      refine ⟨fun hlen grp' hg' _ _ _ _ fm' hf' _ => ?_,
        fun hok => hok _ hg hgid huid hname hmem _ hf hhash⟩
      obtain rfl := Option.some.inj (hg.symm.trans hg')
      obtain rfl := Option.some.inj (hf.symm.trans hf')
      exact hlen
  | @addFile gid uid ip port fmeta grp _ _ _ hg _ hf =>
      -- a new file has one seeder, with a bitfield made for it
      have hempty : Fitted { fmeta with seeders := ∅ } := fun v pr hpr => by simp at hpr
      have hnew : Fitted
          { fmeta with seeders := (∅ : StrMap PeerRef).insert uid (fullPeer uid ip port fmeta) } :=
        hempty.insert_iff.mpr (length_fullPeer uid ip port fmeta)
      refine iff_of_true (h.setGroup_iff.mpr ((EveryFile.setFile_iff (h _ _ hg)).mpr hnew)) ?_
      intro grp' hg' _ _ _ _ fm' hf'
      obtain rfl := Option.some.inj (hg.symm.trans hg')
      cases hf.symm.trans hf'
  | updateBitfield hgid huid hname hg hmem hf =>
      have hgrp := h _ _ hg
      rw [TrackerState.setFile, h.setGroup_iff, BitfieldsFit, EveryFile.setFile_iff hgrp,
        (hgrp _ _ hf).insert_iff]
      refine ⟨fun hlen grp' hg' _ _ _ _ fm' hf' => ?_,
        fun hok => hok _ hg hgid huid hname hmem _ hf⟩
      obtain rfl := Option.some.inj (hg.symm.trans hg')
      obtain rfl := Option.some.inj (hf.symm.trans hf')
      exact hlen

/-- The same for a call with any answer. -/
lemma bitfieldsFit_after_iff (h : s.EveryGroup BitfieldsFit) (c : Call) :
    (s.after H c).EveryGroup BitfieldsFit ↔ s.WritesFitted c := by
  by_cases hok : (s.exec H c).1 = .ok
  · exact (exec_eq_ok_iff.mp (Prod.ext hok rfl)).bitfieldsFit_iff h
  · rw [exec_refused hok]
    refine iff_of_true h ?_
    cases c with
    | addFile gid uid ip port fmeta =>
        intro grp hg hgid huid hname hmem fm hf hhash
        have hran : Ran H s (.addFile gid uid ip port fmeta) _ :=
          .addSeeder hgid huid hname hg hmem hf hhash
        exact absurd (by rw [hran.exec_eq]) hok
    | updateBitfield gid uid ip port fname bits =>
        intro grp hg hgid huid hname hmem fm hf
        have hran : Ran H s (.updateBitfield gid uid ip port fname bits) _ :=
          .updateBitfield hgid huid hname hg hmem hf
        exact absurd (by rw [hran.exec_eq]) hok
    | _ => trivial

/-! ### One user -/

/-- The user seeds no file. -/
def Unshared (uid : Str) (s : TrackerState) : Prop :=
  s.EveryGroup (EveryFile fun fm => uid ∉ fm.seeders)

lemma unshared_iff {uid : Str} :
    s.Unshared uid ↔ ∀ gid fname : Str, ∀ grp ∈ s.groups[gid]?, ∀ fm ∈ grp.files[fname]?,
      uid ∉ fm.seeders :=
  ⟨fun h gid fname grp hgrp fm hfm => h gid grp hgrp fname fm hfm,
    fun h gid grp hgrp fname fm hfm => h gid fname grp hgrp fm hfm⟩

/-- The metadata that a member gets is that of a stored file. -/
lemma getFile_eq_ok {gid uid fname : Str} {fm : FileMeta}
    (h : s.getFile gid uid fname = (.ok, some fm)) :
    ∃ grp ∈ s.groups[gid]?, fm ∈ grp.files[fname]? := by
  rw [getFile] at h
  split at h
  · simp at h
  · split at h
    · simp at h
    · next grp hgrp =>
        split at h
        · simp at h
        · split at h
          · simp at h
          · next fm' hfm =>
              obtain rfl : fm' = fm := by simpa using h
              exact ⟨grp, hgrp, hfm⟩

/-- A logout takes the user out of every seeder map. -/
lemma unshared_logout {uid : Str} (huid : uid ∈ s.users) :
    (s.after H (.logout uid)).Unshared uid := by
  obtain ⟨u, hu⟩ := Option.isSome_iff_exists.mp (Std.ExtTreeMap.mem_iff_isSome_getElem?.mp huid)
  rw [after, (Ran.logout (H := H) hu).exec_eq]
  intro gid grp hgrp fname fm hfm
  rw [Std.ExtTreeMap.getElem?_map] at hgrp
  obtain ⟨grp₀, -, rfl⟩ := Option.map_eq_some_iff.mp hgrp
  rw [dropSeeder, Std.ExtTreeMap.getElem?_map] at hfm
  obtain ⟨fm₀, -, rfl⟩ := Option.map_eq_some_iff.mp hfm
  simp

/-- Only the user's own uploads and announcements make the user a seeder. -/
lemma Ran.unshared (hran : Ran H s c s') {uid : Str} (hc : c.sharer ≠ some uid)
    (h : s.Unshared uid) : s'.Unshared uid := by
  have hins : ∀ {v : Str} {pr : PeerRef} {seeders : StrMap PeerRef}, some v ≠ some uid →
      uid ∉ seeders → uid ∉ seeders.insert v pr := by
    intro v pr seeders hv hnot hmem
    rcases Std.ExtTreeMap.mem_insert.mp hmem with heq | hmem
    · exact hv (congrArg some (by simpa using heq))
    · exact hnot hmem
  have herase : ∀ {v : Str} {seeders : StrMap PeerRef}, uid ∉ seeders → uid ∉ seeders.erase v :=
    fun hnot hmem => hnot (Std.ExtTreeMap.mem_of_mem_erase hmem)
  cases hran with
  | createUser | login => exact h
  | logout => exact h.map (fun _ hgrp => EveryFile.dropSeeder hgrp fun _ hfm => herase hfm) _
  | createGroup => exact h.setGroup_iff.mpr (EveryFile.of_empty rfl)
  | joinGroup _ _ hg | acceptRequest _ _ _ hg | handoff _ _ hg | leave _ _ hg =>
      have hgrp := h _ _ hg
      exact h.setGroup_iff.mpr hgrp
  | dissolve => exact h.erase _
  | stopShare _ _ _ hg hf =>
      have hgrp := h _ _ hg
      exact h.setGroup_iff.mpr ((EveryFile.setFile_iff hgrp).mpr (herase (hgrp _ _ hf)))
  | addSeeder _ _ _ hg _ hf | updateBitfield _ _ _ hg _ hf =>
      have hgrp := h _ _ hg
      exact h.setGroup_iff.mpr ((EveryFile.setFile_iff hgrp).mpr (hins hc (hgrp _ _ hf)))
  | addFile _ _ _ hg =>
      have hgrp := h _ _ hg
      exact h.setGroup_iff.mpr ((EveryFile.setFile_iff hgrp).mpr (hins hc (by simp)))

end TrackerState

/-! ### One share -/

/-- A file and a user who may seed it. -/
structure Share where
  group : Str
  file : Str
  user : Str

/-- The call, carried out, makes the user a seeder of the file. -/
def Call.Announces (sh : Share) : Call → Prop
  | addFile gid uid _ _ fmeta => gid = sh.group ∧ uid = sh.user ∧ fmeta.name = sh.file
  | updateBitfield gid uid _ _ fname _ => gid = sh.group ∧ uid = sh.user ∧ fname = sh.file
  | createUser .. | login .. | logout .. | createGroup .. | joinGroup .. | leaveGroup ..
  | acceptRequest .. | stopShare .. => False

instance (sh : Share) : ∀ c : Call, Decidable (c.Announces sh)
  | .addFile .. | .updateBitfield .. => inferInstanceAs (Decidable (_ ∧ _ ∧ _))
  | .createUser .. | .login .. | .logout .. | .createGroup .. | .joinGroup .. | .leaveGroup ..
  | .acceptRequest .. | .stopShare .. => .isFalse id

namespace TrackerState

variable {H : Str → Str} {s s' : TrackerState} {c : Call} {sh : Share}

/-- The user is among the seeders of the file. -/
def Seeds (s : TrackerState) (sh : Share) : Prop :=
  ∃ grp ∈ s.groups[sh.group]?, ∃ fm ∈ grp.files[sh.file]?, sh.user ∈ fm.seeders

instance (s : TrackerState) (sh : Share) : Decidable (s.Seeds sh) :=
  inferInstanceAs (Decidable (∃ grp ∈ s.groups[sh.group]?, ∃ fm ∈ grp.files[sh.file]?, _))

/-- The call, carried out, takes the user out of the seeders of the file: a logout,
the end of sharing it, or the leave of the last member, which ends the group. -/
def Evicts (s : TrackerState) (sh : Share) : Call → Prop
  | .logout uid => uid = sh.user
  | .stopShare gid uid fname => gid = sh.group ∧ uid = sh.user ∧ fname = sh.file
  | .leaveGroup gid uid => gid = sh.group ∧ ∃ grp ∈ s.groups[gid]?,
      uid = grp.owner ∧ grp.members.erase uid = ∅
  | .createUser .. | .login .. | .createGroup .. | .joinGroup .. | .acceptRequest ..
  | .addFile .. | .updateBitfield .. => False

instance (s : TrackerState) (sh : Share) : ∀ c, Decidable (s.Evicts sh c)
  | .logout _ => inferInstanceAs (Decidable (_ = _))
  | .stopShare .. => inferInstanceAs (Decidable (_ ∧ _ ∧ _))
  | .leaveGroup gid _ => inferInstanceAs (Decidable (_ ∧ ∃ grp ∈ s.groups[gid]?, _))
  | .createUser .. | .login .. | .createGroup .. | .joinGroup .. | .acceptRequest ..
  | .addFile .. | .updateBitfield .. => .isFalse id

/-- Where one group is written. -/
lemma seeds_setGroup {gid : Str} {grp : Group} :
    (s.setGroup gid grp).Seeds sh ↔
      if gid = sh.group then ∃ fm ∈ grp.files[sh.file]?, sh.user ∈ fm.seeders else s.Seeds sh := by
  by_cases hgid : gid = sh.group
  · simp [Seeds, TrackerState.setGroup, hgid]
  · simp [Seeds, TrackerState.setGroup, Std.ExtTreeMap.getElem?_insert, hgid]

/-- The same for a group whose files stay. -/
lemma seeds_sameFiles {gid : Str} {grp grp' : Group} (hg : s.groups[gid]? = some grp)
    (hfiles : grp'.files = grp.files) : (s.setGroup gid grp').Seeds sh ↔ s.Seeds sh := by
  rw [seeds_setGroup, hfiles]
  split
  · next heq =>
      subst heq
      simp [Seeds, hg]
  · rfl

/-- Where one file of a group is written. -/
lemma seeds_setFile {gid fname : Str} {grp : Group} {fm : FileMeta}
    (hg : s.groups[gid]? = some grp) :
    (s.setFile gid grp fname fm).Seeds sh ↔
      if gid = sh.group ∧ fname = sh.file then sh.user ∈ fm.seeders else s.Seeds sh := by
  rw [TrackerState.setFile, seeds_setGroup]
  by_cases hgid : gid = sh.group
  · subst hgid
    by_cases hname : fname = sh.file
    · simp [hname]
    · simp [hname, Seeds, hg, Std.ExtTreeMap.getElem?_insert]
  · simp [hgid]

/-- Where a user is taken out of every file. -/
lemma seeds_dropSeeder {uid : Str} {users : StrMap User} :
    Seeds ⟨users, s.groups.map fun _ grp => dropSeeder uid grp⟩ sh ↔
      s.Seeds sh ∧ ¬ uid = sh.user := by
  constructor
  · rintro ⟨grp, hgrp, fm, hfm, hmem⟩
    obtain ⟨grp₀, hgrp₀, rfl⟩ := Option.map_eq_some_iff.mp
      (Std.ExtTreeMap.getElem?_map.symm.trans hgrp)
    obtain ⟨fm₀, hfm₀, rfl⟩ := Option.map_eq_some_iff.mp
      (Std.ExtTreeMap.getElem?_map.symm.trans hfm)
    obtain ⟨hne, hmem⟩ := Std.ExtTreeMap.mem_erase.mp hmem
    exact ⟨⟨grp₀, hgrp₀, fm₀, hfm₀, hmem⟩, by simpa using hne⟩
  · rintro ⟨⟨grp, hgrp, fm, hfm, hmem⟩, hne⟩
    refine ⟨dropSeeder uid grp, ?_, { fm with seeders := fm.seeders.erase uid }, ?_, ?_⟩
    · exact Std.ExtTreeMap.getElem?_map.trans (Option.map_eq_some_iff.mpr ⟨grp, hgrp, rfl⟩)
    · exact Std.ExtTreeMap.getElem?_map.trans (Option.map_eq_some_iff.mpr ⟨fm, hfm, rfl⟩)
    · exact Std.ExtTreeMap.mem_erase.mpr ⟨by simpa using hne, hmem⟩

/-- Where a user is put among the seeders of a stored file or of a new one. -/
lemma seeds_insert {gid fname uid : Str} {grp : Group} {pr : PeerRef} {seeders : StrMap PeerRef}
    (hg : s.groups[gid]? = some grp)
    (hold : (∃ fm, grp.files[fname]? = some fm ∧ fm.seeders = seeders) ∨
      grp.files[fname]? = none ∧ seeders = ∅) :
    (if gid = sh.group ∧ fname = sh.file then sh.user ∈ seeders.insert uid pr else s.Seeds sh) ↔
      (gid = sh.group ∧ uid = sh.user ∧ fname = sh.file) ∨ s.Seeds sh ∧ ¬ False := by
  by_cases hkey : gid = sh.group ∧ fname = sh.file
  · obtain ⟨rfl, rfl⟩ := hkey
    have hseeds : s.Seeds sh ↔ sh.user ∈ seeders := by
      rcases hold with ⟨fm, hf, rfl⟩ | ⟨hf, rfl⟩
      · simp [Seeds, hg, hf]
      · simp [Seeds, hg, hf]
    simp [hseeds, Std.ExtTreeMap.mem_insert]
  · rw [if_neg hkey, not_false_eq_true, and_true]
    exact ⟨.inr, fun h => h.resolve_left fun hann => hkey ⟨hann.1, hann.2.2⟩⟩

/-- **Step lemma**: what a successful call does to one share. -/
lemma Ran.seeds_iff (hran : Ran H s c s') :
    s'.Seeds sh ↔ c.Announces sh ∨ s.Seeds sh ∧ ¬ s.Evicts sh c := by
  have hsame : ∀ {p : Prop}, (p ↔ s.Seeds sh) → (p ↔ False ∨ s.Seeds sh ∧ ¬ False) := by simp
  cases hran with
  | createUser | login => exact hsame Iff.rfl
  | @logout uid u hu =>
      rw [show Call.Announces sh (.logout uid) = False from rfl, false_or,
        show s.Evicts sh (.logout uid) = (uid = sh.user) from rfl]
      exact seeds_dropSeeder
  | @createGroup gid owner hgid howner huser hnew =>
      refine hsame ?_
      rw [seeds_setGroup]
      split
      · next heq =>
          subst heq
          have hnone : s.groups[sh.group]? = none := Std.ExtTreeMap.getElem?_eq_none hnew
          simp [Seeds, hnone]
      · rfl
  | joinGroup _ _ hg | acceptRequest _ _ _ hg => exact hsame (seeds_sameFiles hg rfl)
  | @handoff gid uid m grp _ _ hg _ _ hmin =>
      -- the owner goes, and the group stays with its files
      have hstays : ¬ s.Evicts sh (.leaveGroup gid uid) := by
        rintro ⟨-, grp', hg', -, hempty⟩
        obtain rfl := Option.some.inj (hg.symm.trans hg')
        rw [hempty] at hmin
        simp at hmin
      simp [seeds_sameFiles hg, Call.Announces, hstays]
  | @leave gid uid grp _ _ hg _ howner =>
      -- somebody else goes
      have hstays : ¬ s.Evicts sh (.leaveGroup gid uid) := by
        rintro ⟨-, grp', hg', hown, -⟩
        obtain rfl := Option.some.inj (hg.symm.trans hg')
        exact howner hown
      simp [seeds_sameFiles hg, Call.Announces, hstays]
  | @dissolve gid uid grp _ _ hg _ howner hlast =>
      have hends : s.Evicts sh (.leaveGroup gid uid) ↔ gid = sh.group :=
        ⟨fun h => h.1, fun heq => ⟨heq, grp, hg, howner, Std.ExtTreeSet.min?_eq_none_iff.mp hlast⟩⟩
      rw [hends, show Call.Announces sh (.leaveGroup gid uid) = False from rfl, false_or]
      by_cases heq : gid = sh.group
      · simp [Seeds, heq]
      · simp [Seeds, heq, Std.ExtTreeMap.getElem?_erase]
  | @addSeeder gid uid ip port fmeta grp fm _ _ _ hg _ hf =>
      rw [seeds_setFile hg, Call.Announces]
      exact seeds_insert hg (.inl ⟨fm, hf, rfl⟩)
  | @addFile gid uid ip port fmeta grp _ _ _ hg _ hf =>
      rw [seeds_setFile hg, Call.Announces]
      exact seeds_insert hg (.inr ⟨hf, rfl⟩)
  | @stopShare gid uid fname grp fm _ _ _ hg hf _ =>
      rw [seeds_setFile hg, show Call.Announces sh (.stopShare gid uid fname) = False from rfl,
        false_or, Evicts]
      -- the entry of this share, or one of another file
      by_cases hkey : gid = sh.group ∧ fname = sh.file
      · obtain ⟨rfl, rfl⟩ := hkey
        have hseeds : s.Seeds sh ↔ sh.user ∈ fm.seeders := by simp [Seeds, hg, hf]
        simp [hseeds, Std.ExtTreeMap.mem_erase, and_comm]
      · rw [if_neg hkey]
        exact ⟨fun h => ⟨h, fun hev => hkey ⟨hev.1, hev.2.2⟩⟩, fun h => h.1⟩
  | @updateBitfield gid uid ip port fname bits grp fm _ _ _ hg _ hf =>
      rw [seeds_setFile hg, Call.Announces]
      exact seeds_insert hg (.inl ⟨fm, hf, rfl⟩)

/-- **What any call does to one share.** -/
lemma seeds_after_iff (H : Str → Str) (s : TrackerState) (c : Call) (sh : Share) :
    (s.after H c).Seeds sh ↔
      (c.Announces sh ∧ (s.exec H c).1 = .ok) ∨
        s.Seeds sh ∧ ¬ (s.Evicts sh c ∧ (s.exec H c).1 = .ok) := by
  by_cases hok : (s.exec H c).1 = .ok
  · have hran : Ran H s c (s.after H c) := exec_eq_ok_iff.mp (Prod.ext hok rfl)
    simp [hran.seeds_iff, hok]
  · simp [exec_refused hok, hok]

end TrackerState

/-! ### Runs -/

/-- **Only members seed** after every operation exactly if nobody leaves a group
that goes on and in which they seed. -/
theorem members_seed (H : Str → Str) (calls : List Call) :
    Throughout (TrackerState.step H) (TrackerState.EveryGroup TrackerState.OnlyMembersSeed) .init
        calls ↔
      Meets (TrackerState.step H) TrackerState.LeavesUnseeded .init calls :=
  TrackerState.throughout_everyGroup TrackerState.onlyMembersSeed_after_iff calls

/-- A file shared in a group of two. -/
def sharedBy (uid : Str) : List Call :=
  [.createUser [1] [2], .createUser [3] [2], .createGroup [5] [1], .joinGroup [5] [3],
    .acceptRequest [5] [1] [3], .addFile [5] uid [4] 9 ⟨[6], 8, [7], [[7]], ∅⟩]

/-- **A member who leaves goes on as a seeder.** -/
theorem leaver_seeds :
    ∃ s : TrackerState, Run (TrackerState.step id) (fun _ _ => True) .init s ∧
      ∃ grp ∈ s.groups[([5] : Str)]?, ∃ fm ∈ grp.files[([6] : Str)]?,
        [3] ∈ fm.seeders ∧ [3] ∉ grp.members := by
  let calls := sharedBy [3] ++ [.leaveGroup [5] [3]]
  let s := (exec (TrackerState.step id) .init calls).get (by decide +kernel)
  have hrun : Run (TrackerState.step id) (fun _ _ => True) .init s :=
    Run.of_exec (meets_of_forall (fun _ _ => trivial) _) (Option.some_get _).symm
  exact ⟨s, hrun, by decide +kernel⟩

/-- **Every recorded bitfield fits its file** after every operation exactly if the
bitfields that are written over a stored file have its length. -/
theorem bitfields_fit (H : Str → Str) (calls : List Call) :
    Throughout (TrackerState.step H) (TrackerState.EveryGroup TrackerState.BitfieldsFit) .init
        calls ↔
      Meets (TrackerState.step H) TrackerState.WritesFitted .init calls :=
  TrackerState.throughout_everyGroup (fun _ => TrackerState.bitfieldsFit_after_iff) calls

/-- **An upload of the same content in more pieces**: the bitfield of the uploader
has two bytes, and the stored file one piece. -/
theorem bitfield_grows :
    ∃ s : TrackerState, Run (TrackerState.step id) (fun _ _ => True) .init s ∧
      ∃ grp ∈ s.groups[([5] : Str)]?, ∃ fm ∈ grp.files[([6] : Str)]?,
        ∃ pr ∈ fm.seeders[([1] : Str)]?,
          pr.bitfield.length = 2 ∧ (fm.pieceHashes.length + 7) / 8 = 1 := by
  let calls := sharedBy [3] ++ [.addFile [5] [1] [4] 9 ⟨[6], 8, [7], List.replicate 9 [7], ∅⟩]
  let s := (exec (TrackerState.step id) .init calls).get (by decide +kernel)
  have hrun : Run (TrackerState.step id) (fun _ _ => True) .init s :=
    Run.of_exec (meets_of_forall (fun _ _ => trivial) _) (Option.some_get _).symm
  exact ⟨s, hrun, by decide +kernel⟩

end P2PShare
