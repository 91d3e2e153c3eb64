import P2PShare.Tracker.Invariant

/-!
The directory of a tracker: what two trackers must agree on. It leaves out the
login fields of the users and the seeders of the files.

* `TrackerState.directory`: the view.
* `DirOp`, `Directory.act`: what an operation does to a directory, a change of
  one user or of one group that depends on nothing else but the user ids.
* `directory_after` (**refinement**): a call acts on the directory as its
  `DirOp`, whether it succeeds or not.
-/

namespace P2PShare

/-- The published metadata of a file. -/
structure FileInfo where
  size : UInt64
  fileHash : Str
  pieceHashes : List Str
deriving DecidableEq

/-- A group without its seeders. -/
structure GroupInfo where
  owner : Str
  members : StrSet
  pending : StrSet
  files : StrMap FileInfo
deriving DecidableEq

/-- The password hashes by user id and the groups by group id. -/
@[ext]
structure Directory where
  users : StrMap Str
  groups : StrMap GroupInfo
deriving DecidableEq

/-! ### The view -/

/-- The metadata of a file without its seeders. -/
def FileMeta.info (fm : FileMeta) : FileInfo := ⟨fm.size, fm.fileHash, fm.pieceHashes⟩

/-- A group without its seeders. -/
def Group.info (grp : Group) : GroupInfo :=
  ⟨grp.owner, grp.members, grp.pending, grp.files.map fun _ => FileMeta.info⟩

namespace TrackerState

/-- The directory of a tracker. -/
def directory (s : TrackerState) : Directory :=
  ⟨s.users.map fun _ => User.password, s.groups.map fun _ => Group.info⟩

variable {s : TrackerState}

@[simp] lemma mem_directory_users {uid : Str} : uid ∈ s.directory.users ↔ uid ∈ s.users := by
  simp [directory]

lemma isEmpty_eq_false {uid : Str} (h : uid ∈ s.users) : s.isEmpty = false := by
  have hne : s.users.isEmpty = false := by
    rw [Std.ExtTreeMap.isEmpty_eq_false_iff]
    intro hempty
    simp [hempty] at h
  rw [isEmpty, hne]
  rfl

lemma getElem?_directory_users (uid : Str) :
    s.directory.users[uid]? = s.users[uid]?.map User.password := by
  rw [directory, Std.ExtTreeMap.getElem?_map]

lemma getElem?_directory_groups (gid : Str) :
    s.directory.groups[gid]? = s.groups[gid]?.map Group.info := by
  rw [directory, Std.ExtTreeMap.getElem?_map]

lemma directory_setUser (uid : Str) (u : User) :
    directory { s with users := s.users.insert uid u }
      = { s.directory with users := s.directory.users.insert uid u.password } := by
  rw [directory, Std.ExtTreeMap.map_insert]
  rfl

lemma directory_setGroup (gid : Str) (grp : Group) :
    (s.setGroup gid grp).directory
      = { s.directory with groups := s.directory.groups.insert gid grp.info } := by
  rw [setGroup, directory, Std.ExtTreeMap.map_insert]
  rfl

lemma directory_eraseGroup (gid : Str) :
    directory { s with groups := s.groups.erase gid }
      = { s.directory with groups := s.directory.groups.erase gid } := by
  rw [directory, Std.ExtTreeMap.map_erase]
  rfl

/-- Seeders are not part of the directory. -/
lemma info_dropSeeder (uid : Str) (grp : Group) : (dropSeeder uid grp).info = grp.info := by
  rw [Group.info, dropSeeder, Std.ExtTreeMap.map_map]
  rfl

lemma directory_dropSeeders (uid : Str) :
    directory { s with groups := s.groups.map fun _ grp => dropSeeder uid grp } = s.directory := by
  simp only [directory, Std.ExtTreeMap.map_map, info_dropSeeder]

end TrackerState

lemma Group.info_setFile (grp : Group) (fname : Str) (fm : FileMeta) :
    Group.info { grp with files := grp.files.insert fname fm }
      = { grp.info with files := grp.info.files.insert fname fm.info } := by
  rw [Group.info, Std.ExtTreeMap.map_insert]
  rfl

lemma Group.getElem?_info_files (grp : Group) (fname : Str) :
    grp.info.files[fname]? = grp.files[fname]?.map FileMeta.info := by
  rw [Group.info, Std.ExtTreeMap.getElem?_map]

/-! ### Operations on directories -/

/-- An operation on one group. -/
inductive GroupOp
  | create (owner : Str)
  | join (uid : Str)
  | leave (uid : Str)
  | accept (owner uid : Str)
  | addFile (uid fname : Str) (info : FileInfo)
deriving DecidableEq

/-- An operation on a directory. -/
inductive DirOp
  | nop
  | addUser (uid hash : Str)
  | group (gid : Str) (op : GroupOp)
deriving DecidableEq

namespace GroupInfo

/-- A new group. -/
def create (owner : Str) : GroupInfo := ⟨owner, (∅ : StrSet).insert owner, ∅, ∅⟩

/-- A group that a user asks to join. -/
def join (grp : GroupInfo) (uid : Str) : GroupInfo :=
  if uid ∉ grp.members ∧ uid ∉ grp.pending then { grp with pending := grp.pending.insert uid }
  else grp

/-- What becomes of a group that a user leaves. -/
def leave (grp : GroupInfo) (uid : Str) : Option GroupInfo :=
  if uid ∉ grp.members then some grp
  else if uid = grp.owner then
    (grp.members.erase uid).min?.map fun m =>
      { grp with members := grp.members.erase uid, owner := m }
  else some { grp with members := grp.members.erase uid }

/-- A group whose owner accepts a user. -/
def accept (grp : GroupInfo) (uid : Str) : GroupInfo :=
  if uid ∈ grp.pending then
    { grp with pending := grp.pending.erase uid, members := grp.members.insert uid }
  else grp

/-- A group in which a file is published. -/
def addFile (grp : GroupInfo) (fname : Str) (info : FileInfo) : GroupInfo :=
  if fname ∉ grp.files then { grp with files := grp.files.insert fname info } else grp

end GroupInfo

/-- What an operation makes of a group, given the users: the checks on the acting
user, then the change. -/
def GroupOp.act (users : StrMap Str) : GroupOp → Option GroupInfo → Option GroupInfo
  | create owner, none => if owner ∈ users then some (.create owner) else none
  | create _, some grp => some grp
  | _, none => none
  | join uid, some grp => if uid ∈ users then some (grp.join uid) else some grp
  | leave uid, some grp => grp.leave uid
  | accept owner uid, some grp => if grp.owner = owner then some (grp.accept uid) else some grp
  | addFile uid fname info, some grp =>
      if uid ∈ grp.members then some (grp.addFile fname info) else some grp

/-- What an operation makes of a directory. -/
def Directory.act (d : Directory) : DirOp → Directory
  | .nop => d
  | .addUser uid hash => if uid ∈ d.users then d else { d with users := d.users.insert uid hash }
  | .group gid op => { d with groups := d.groups.alter gid (op.act d.users) }

/-- The operation on the directory that a call performs; a call with an empty
id or name performs none. -/
def Call.dirOp (H : Str → Str) : Call → DirOp
  | createUser uid pwd => if uid = [] ∨ pwd = [] then .nop else .addUser uid (H pwd)
  | createGroup gid owner => if gid = [] ∨ owner = [] then .nop else .group gid (.create owner)
  | joinGroup gid uid => if gid = [] ∨ uid = [] then .nop else .group gid (.join uid)
  | leaveGroup gid uid => if gid = [] ∨ uid = [] then .nop else .group gid (.leave uid)
  | acceptRequest gid owner uid =>
      if gid = [] ∨ owner = [] ∨ uid = [] then .nop else .group gid (.accept owner uid)
  | addFile gid uid _ _ fmeta =>
      if gid = [] ∨ uid = [] ∨ fmeta.name = [] then .nop
      else .group gid (.addFile uid fmeta.name fmeta.info)
  | login .. | logout .. | stopShare .. | updateBitfield .. => .nop

/-! ### Refinement -/

namespace TrackerState

variable {s : TrackerState} {gid : Str} {op : GroupOp}

/-- An operation that leaves its group alone. -/
lemma act_group_self
    (h : op.act s.directory.users (s.groups[gid]?.map Group.info) = s.groups[gid]?.map Group.info) :
    s.directory.act (.group gid op) = s.directory := by
  rw [← getElem?_directory_groups] at h
  rw [Directory.act, Std.ExtTreeMap.alter_eq_self _ h]

/-- An operation that leaves a group. -/
lemma act_group_set {grp : Group}
    (h : op.act s.directory.users (s.groups[gid]?.map Group.info) = some grp.info) :
    s.directory.act (.group gid op) = (s.setGroup gid grp).directory := by
  rw [← getElem?_directory_groups] at h
  rw [Directory.act, Std.ExtTreeMap.alter_eq_insert _ h, directory_setGroup]

/-- An operation that dissolves a group. -/
lemma act_group_erase
    (h : op.act s.directory.users (s.groups[gid]?.map Group.info) = none) :
    s.directory.act (.group gid op) = directory { s with groups := s.groups.erase gid } := by
  rw [← getElem?_directory_groups] at h
  rw [Directory.act, Std.ExtTreeMap.alter_eq_erase _ h, directory_eraseGroup]

/-- Writing a user entry with the same password. -/
lemma directory_setUser_self {uid : Str} {u u' : User} (hu : s.users[uid]? = some u)
    (hpwd : u'.password = u.password) :
    directory { s with users := s.users.insert uid u' } = s.directory := by
  rw [directory_setUser]
  refine Directory.ext (Std.ExtTreeMap.ext_getElem? fun k => ?_) rfl
  rw [Std.ExtTreeMap.getElem?_insert]
  split
  · next hk =>
      rw [← Std.LawfulEqCmp.eq_of_compare hk, getElem?_directory_users, hu, hpwd]
      rfl
  · rfl

/-- Writing a file entry with the same metadata. -/
lemma directory_setFile_self {fname : Str} {grp : Group} {fm fm' : FileMeta}
    (hg : s.groups[gid]? = some grp) (hf : grp.files[fname]? = some fm)
    (hinfo : fm'.info = fm.info) : (s.setFile gid grp fname fm').directory = s.directory := by
  have hgrp : Group.info { grp with files := grp.files.insert fname fm' } = grp.info := by
    rw [Group.info_setFile]
    have hfiles : grp.info.files.insert fname fm'.info = grp.info.files := by
      refine Std.ExtTreeMap.ext_getElem? fun k => ?_
      rw [Std.ExtTreeMap.getElem?_insert]
      split
      · next hk =>
          rw [← Std.LawfulEqCmp.eq_of_compare hk, Group.getElem?_info_files, hf, hinfo]
          rfl
      · rfl
    rw [hfiles]
  rw [setFile, directory_setGroup, hgrp]
  refine Directory.ext rfl (Std.ExtTreeMap.ext_getElem? fun k => ?_)
  rw [Std.ExtTreeMap.getElem?_insert]
  split
  · next hk =>
      rw [← Std.LawfulEqCmp.eq_of_compare hk, getElem?_directory_groups, hg]
      rfl
  · rfl

lemma directory_createUser (H : Str → Str) (uid pwd : Str) :
    (s.createUser H uid pwd).2.directory = s.directory.act ((Call.createUser uid pwd).dirOp H) := by
  rw [createUser, Call.dirOp]
  split
  · rfl
  · rw [Directory.act]
    by_cases huid : uid ∈ s.users
    · simp [huid]
    · simp [huid, directory_setUser]

lemma directory_createGroup (H : Str → Str) (gid owner : Str) :
    (s.createGroup gid owner).2.directory
      = s.directory.act ((Call.createGroup gid owner).dirOp H) := by
  rw [createGroup, Call.dirOp]
  split
  · rfl
  · by_cases howner : owner ∈ s.users
    · cases hg : s.groups[gid]? with
      | none =>
          have hnew : gid ∉ s.groups := by simpa using hg
          simp only [howner, hnew, not_true_eq_false, if_false]
          refine (act_group_set ?_).symm
          simp [hg, GroupOp.act, GroupInfo.create, howner, Group.info]
      | some grp =>
          have hold : gid ∈ s.groups := by
            rw [Std.ExtTreeMap.mem_iff_isSome_getElem?, hg]
            rfl
          simp only [howner, hold, not_true_eq_false, if_false, if_true]
          refine (act_group_self ?_).symm
          simp [hg, GroupOp.act]
    · simp only [howner, not_false_eq_true, if_true]
      refine (act_group_self ?_).symm
      cases s.groups[gid]? with
      | none => simp [GroupOp.act, howner]
      | some grp => simp [GroupOp.act]

lemma directory_joinGroup (H : Str → Str) (gid uid : Str) :
    (s.joinGroup gid uid).2.directory = s.directory.act ((Call.joinGroup gid uid).dirOp H) := by
  rw [joinGroup, Call.dirOp]
  split
  · rfl
  · cases hg : s.groups[gid]? with
    | none => exact (act_group_self (by simp [hg, GroupOp.act])).symm
    | some grp =>
        by_cases huser : uid ∈ s.users
        · by_cases hin : uid ∈ grp.members ∨ uid ∈ grp.pending
          · have hno : ¬ (uid ∉ grp.members ∧ uid ∉ grp.pending) := by tauto
            simp only [huser, hin, not_true_eq_false, if_false, if_true]
            refine (act_group_self ?_).symm
            simp [hg, GroupOp.act, GroupInfo.join, Group.info, hno]
          · rw [not_or] at hin
            simp only [huser, hin, not_true_eq_false, or_self, if_false]
            refine (act_group_set ?_).symm
            simp [hg, GroupOp.act, GroupInfo.join, Group.info, huser, hin]
        · simp only [huser, not_false_eq_true, if_true]
          refine (act_group_self ?_).symm
          simp [hg, GroupOp.act, huser]

lemma directory_leaveGroup (H : Str → Str) (gid uid : Str) :
    (s.leaveGroup gid uid).2.directory = s.directory.act ((Call.leaveGroup gid uid).dirOp H) := by
  rw [leaveGroup, Call.dirOp]
  split
  · rfl
  · cases hg : s.groups[gid]? with
    | none => exact (act_group_self (by simp [hg, GroupOp.act])).symm
    | some grp =>
        have hact : (GroupOp.leave uid).act s.directory.users (s.groups[gid]?.map Group.info)
            = grp.info.leave uid := by
          rw [hg]
          rfl
        dsimp only
        split
        · next hmem =>
            refine (act_group_self (hact.trans ?_)).symm
            simp [hg, GroupInfo.leave, Group.info, hmem]
        · next hmem =>
            have hmem' : ¬ uid ∉ grp.info.members := hmem
            split
            · next howner =>
                have howner' : uid = grp.info.owner := howner
                split
                · next hmin =>
                    refine (act_group_erase (hact.trans ?_)).symm
                    rw [GroupInfo.leave, if_neg hmem', if_pos howner']
                    simp [Group.info, hmin]
                · next m hmin =>
                    refine (act_group_set (hact.trans ?_)).symm
                    rw [GroupInfo.leave, if_neg hmem', if_pos howner']
                    simp [Group.info, hmin]
            · next howner =>
                refine (act_group_set (hact.trans ?_)).symm
                have howner' : uid ≠ grp.info.owner := howner
                rw [GroupInfo.leave, if_neg hmem', if_neg howner']
                rfl

lemma directory_acceptRequest (H : Str → Str) (gid owner uid : Str) :
    (s.acceptRequest gid owner uid).2.directory
      = s.directory.act ((Call.acceptRequest gid owner uid).dirOp H) := by
  rw [TrackerState.acceptRequest, Call.dirOp]
  split
  · rfl
  · cases hg : s.groups[gid]? with
    | none => exact (act_group_self (by simp [hg, GroupOp.act])).symm
    | some grp =>
        dsimp only
        split
        · next howner =>
            refine (act_group_self ?_).symm
            simp [hg, GroupOp.act, Group.info, howner]
        · next howner =>
            split
            · next hpend =>
                refine (act_group_self ?_).symm
                simp [hg, GroupOp.act, GroupInfo.accept, Group.info, hpend]
            · next hpend =>
                rw [not_not] at howner hpend
                refine (act_group_set ?_).symm
                simp [hg, GroupOp.act, GroupInfo.accept, Group.info, howner, hpend]

lemma directory_addFile (H : Str → Str) (gid uid ip : Str) (port : UInt16) (fmeta : FileMeta) :
    (s.addFile gid uid ip port fmeta).2.directory
      = s.directory.act ((Call.addFile gid uid ip port fmeta).dirOp H) := by
  rw [TrackerState.addFile, Call.dirOp]
  split
  · rfl
  · cases hg : s.groups[gid]? with
    | none => exact (act_group_self (by simp [hg, GroupOp.act])).symm
    | some grp =>
        dsimp only
        split
        · next hmem =>
            refine (act_group_self ?_).symm
            simp [hg, GroupOp.act, Group.info, hmem]
        · next hmem =>
            rw [not_not] at hmem
            cases hf : grp.files[fmeta.name]? with
            | some fm =>
                have hold : fmeta.name ∈ grp.info.files := by
                  rw [Std.ExtTreeMap.mem_iff_isSome_getElem?, Group.getElem?_info_files, hf]
                  rfl
                have hself : s.directory.act (.group gid (.addFile uid fmeta.name fmeta.info))
                    = s.directory :=
                  act_group_self (by simp [hg, GroupOp.act, GroupInfo.addFile, hold])
                dsimp only
                rw [hself]
                split
                · rfl
                · exact directory_setFile_self hg hf rfl
            | none =>
                have hnew : fmeta.name ∉ grp.info.files := by
                  rw [Std.ExtTreeMap.mem_iff_isSome_getElem?, Group.getElem?_info_files, hf]
                  simp
                refine (act_group_set ?_).symm
                have hmem' : uid ∈ grp.info.members := hmem
                rw [Group.info_setFile, hg]
                simp [GroupOp.act, GroupInfo.addFile, hnew, hmem', FileMeta.info]

/-- **Refinement**: a call acts on the directory as its operation does, whether
it succeeds or not. -/
theorem directory_after (H : Str → Str) (s : TrackerState) (c : Call) :
    (s.after H c).directory = s.directory.act (c.dirOp H) := by
  cases c with
  | createUser uid pwd => exact directory_createUser H uid pwd
  | createGroup gid owner => exact directory_createGroup H gid owner
  | joinGroup gid uid => exact directory_joinGroup H gid uid
  | leaveGroup gid uid => exact directory_leaveGroup H gid uid
  | acceptRequest gid owner uid => exact directory_acceptRequest H gid owner uid
  | addFile gid uid ip port fmeta => exact directory_addFile H gid uid ip port fmeta
  | login uid pwd ip port =>
      rcases after_cases H s (.login uid pwd ip port) with hran | heq
      · generalize s.after H _ = s' at hran
        cases hran with
        | login hu hpwd => exact directory_setUser_self hu rfl
      · rw [heq]
        rfl
  | logout uid =>
      rcases after_cases H s (.logout uid) with hran | heq
      · generalize s.after H _ = s' at hran
        cases hran with
        | @logout _ u hu =>
            have hset : directory { s with users := s.users.insert uid { u with online := false } }
                = s.directory := directory_setUser_self hu rfl
            exact (directory_dropSeeders uid).trans hset
      · rw [heq]
        rfl
  | stopShare gid uid fname =>
      rcases after_cases H s (.stopShare gid uid fname) with hran | heq
      · generalize s.after H _ = s' at hran
        cases hran with
        | stopShare _ _ _ hg hf => exact directory_setFile_self hg hf rfl
      · rw [heq]
        rfl
  | updateBitfield gid uid ip port fname bits =>
      rcases after_cases H s (.updateBitfield gid uid ip port fname bits) with hran | heq
      · generalize s.after H _ = s' at hran
        cases hran with
        | updateBitfield _ _ _ hg _ hf => exact directory_setFile_self hg hf rfl
      · rw [heq]
        rfl

lemma Ran.directory_eq {H : Str → Str} {s' : TrackerState} {c : Call} (hran : Ran H s c s') :
    s'.directory = s.directory.act (c.dirOp H) := by
  rw [← directory_after, after, hran.exec_eq]

end TrackerState

end P2PShare
