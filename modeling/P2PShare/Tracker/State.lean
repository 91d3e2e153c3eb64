import P2PShare.Common.Protocol

/-!
`tracker/tracker_state.hpp` and `tracker/tracker_state.cpp`: the tracker's
in-memory metadata and its operations.

`std::map<std::string, T>` and `std::set<std::string>` are the extensional tree
maps and sets over `Str`, which iterate in the order of `std::string`. Every
public method holds the one mutex, so it is a function of the whole state; the
mutating ones return their status and the new state. `hash_password` is the
parameter `H`.

* `TrackerState.createUser`, …, `TrackerState.updateBitfield`: the ten
  operations that write; `isOnline`, `isEmpty` and the lists: the reads.
* `Call`, `TrackerState.exec`: an operation together with its arguments, and
  running it. `exec_refused` says that a refused call changes nothing.
-/

namespace P2PShare

/-- `std::map<std::string, β>`. -/
abbrev StrMap (β : Type) := Std.ExtTreeMap Str β

/-- `std::set<std::string>`. -/
abbrev StrSet := Std.ExtTreeSet Str

/-- `PeerRef`: where a seeder of a file is reached and which pieces it holds. -/
structure PeerRef where
  userId : Str
  ip : Str
  port : UInt16
  bitfield : List UInt8
deriving DecidableEq

/-- `FileMeta`: the published metadata of a file and its seeders by user id. -/
structure FileMeta where
  name : Str
  size : UInt64
  fileHash : Str
  pieceHashes : List Str
  seeders : StrMap PeerRef
deriving DecidableEq

/-- `Group`: its owner, its members, the join requests awaiting the owner and
its files by name. -/
structure Group where
  id : Str
  owner : Str
  members : StrSet
  pending : StrSet
  files : StrMap FileMeta
deriving DecidableEq

/-- `User`: the password is a hash; `ip` and `port` are those of the client's
own seeder. -/
structure User where
  id : Str
  password : Str
  online : Bool
  ip : Str
  port : UInt16
deriving DecidableEq

/-- `TrackerState`: `__Users` and `__Groups`. -/
@[ext]
structure TrackerState where
  users : StrMap User
  groups : StrMap Group
deriving DecidableEq

namespace TrackerState

/-- The state of a tracker that has just started. -/
def init : TrackerState := ⟨∅, ∅⟩

/-- Assigning through a reference to the group stored under `gid`. -/
def setGroup (s : TrackerState) (gid : Str) (grp : Group) : TrackerState :=
  { s with groups := s.groups.insert gid grp }

/-- Assigning through a reference to the file stored under `fname` in the group
stored under `gid`. -/
def setFile (s : TrackerState) (gid : Str) (grp : Group) (fname : Str) (fm : FileMeta) :
    TrackerState :=
  s.setGroup gid { grp with files := grp.files.insert fname fm }

/-! ### Users -/

/-- `create_user`. -/
def createUser (H : Str → Str) (s : TrackerState) (uid pwd : Str) : Status × TrackerState :=
  if uid = [] ∨ pwd = [] then (.malformed, s)
  else if uid ∈ s.users then (.alreadyExists, s)
  else
    let u : User := { id := uid, password := H pwd, online := false, ip := [], port := 0 }
    (.ok, { s with users := s.users.insert uid u })

/-- `login`. -/
def login (H : Str → Str) (s : TrackerState) (uid pwd ip : Str) (port : UInt16) :
    Status × TrackerState :=
  match s.users[uid]? with
  | none => (.notFound, s)
  | some u =>
      if u.password ≠ H pwd then (.badCredentials, s)
      else
        let u' : User := { u with online := true, ip := ip, port := port }
        (.ok, { s with users := s.users.insert uid u' })

/-- A group in which `uid` seeds nothing. -/
def dropSeeder (uid : Str) (grp : Group) : Group :=
  { grp with files := grp.files.map fun _ fm => { fm with seeders := fm.seeders.erase uid } }

/-- `logout`: the user stops seeding in every group. -/
def logout (s : TrackerState) (uid : Str) : Status × TrackerState :=
  match s.users[uid]? with
  | none => (.notFound, s)
  | some u =>
      (.ok, { users := s.users.insert uid { u with online := false }
              groups := s.groups.map fun _ grp => dropSeeder uid grp })

/-- `is_online`. -/
def isOnline (s : TrackerState) (uid : Str) : Bool :=
  match s.users[uid]? with
  | none => false
  | some u => u.online

/-- `empty`. -/
def isEmpty (s : TrackerState) : Bool := s.users.isEmpty && s.groups.isEmpty

/-! ### Groups -/

/-- `list_groups`. -/
def listGroups (s : TrackerState) : List Str := s.groups.keys

/-- `create_group`: the creator is owner and first member. -/
def createGroup (s : TrackerState) (gid owner : Str) : Status × TrackerState :=
  if gid = [] ∨ owner = [] then (.malformed, s)
  else if owner ∉ s.users then (.notFound, s)
  else if gid ∈ s.groups then (.alreadyExists, s)
  else
    let grp : Group :=
      { id := gid, owner := owner, members := (∅ : StrSet).insert owner, pending := ∅, files := ∅ }
    (.ok, s.setGroup gid grp)

/-- `join_group`. -/
def joinGroup (s : TrackerState) (gid uid : Str) : Status × TrackerState :=
  if gid = [] ∨ uid = [] then (.malformed, s)
  else match s.groups[gid]? with
    | none => (.notFound, s)
    | some grp =>
        if uid ∉ s.users then (.notFound, s)
        else if uid ∈ grp.members ∨ uid ∈ grp.pending then (.alreadyExists, s)
        else (.ok, s.setGroup gid { grp with pending := grp.pending.insert uid })

/-- `leave_group`: if the owner leaves, the smallest remaining member becomes
the owner, and without one the group is dissolved. -/
def leaveGroup (s : TrackerState) (gid uid : Str) : Status × TrackerState :=
  if gid = [] ∨ uid = [] then (.malformed, s)
  else match s.groups[gid]? with
    | none => (.notFound, s)
    | some grp =>
        if uid ∉ grp.members then (.notMember, s)
        else if uid = grp.owner then
          match (grp.members.erase uid).min? with
          | none => (.ok, { s with groups := s.groups.erase gid })
          | some m =>
              (.ok, s.setGroup gid { grp with members := grp.members.erase uid, owner := m })
        else (.ok, s.setGroup gid { grp with members := grp.members.erase uid })

/-- `accept_request`: the owner moves a user from pending to member. -/
def acceptRequest (s : TrackerState) (gid owner uid : Str) : Status × TrackerState :=
  if gid = [] ∨ owner = [] ∨ uid = [] then (.malformed, s)
  else match s.groups[gid]? with
    | none => (.notFound, s)
    | some grp =>
        if grp.owner ≠ owner then (.notOwner, s)
        else if uid ∉ grp.pending then (.notFound, s)
        else
          (.ok, s.setGroup gid
            { grp with pending := grp.pending.erase uid, members := grp.members.insert uid })

/-- `list_requests`: the status, and the pending ids when it is `ST_OK`. -/
def listRequests (s : TrackerState) (gid owner : Str) : Status × List Str :=
  if gid = [] ∨ owner = [] then (.malformed, [])
  else match s.groups[gid]? with
    | none => (.notFound, [])
    | some grp => if grp.owner ≠ owner then (.notOwner, []) else (.ok, grp.pending.toList)

/-! ### Files -/

/-- The seeder entry of an uploader, which holds every piece of `fmeta`. -/
def fullPeer (uid ip : Str) (port : UInt16) (fmeta : FileMeta) : PeerRef :=
  { userId := uid, ip := ip, port := port,
    bitfield := List.replicate ((fmeta.pieceHashes.length + 7) / 8) 0xFF }

/-- `add_file`: the uploader holds every piece; uploading the same content again
only registers the seeder. -/
def addFile (s : TrackerState) (gid uid ip : Str) (port : UInt16) (fmeta : FileMeta) :
    Status × TrackerState :=
  if gid = [] ∨ uid = [] ∨ fmeta.name = [] then (.malformed, s)
  else match s.groups[gid]? with
    | none => (.notFound, s)
    | some grp =>
        if uid ∉ grp.members then (.notMember, s)
        else
          let pr := fullPeer uid ip port fmeta
          match grp.files[fmeta.name]? with
          | some fm =>
              if fm.fileHash ≠ fmeta.fileHash then (.alreadyExists, s)
              else
                (.ok, s.setFile gid grp fmeta.name
                  { fm with seeders := fm.seeders.insert uid pr })
          | none =>
              (.ok, s.setFile gid grp fmeta.name
                { fmeta with seeders := (∅ : StrMap PeerRef).insert uid pr })

/-- `list_files`: the status, and the file names when it is `ST_OK`. -/
def listFiles (s : TrackerState) (gid uid : Str) : Status × List Str :=
  if gid = [] ∨ uid = [] then (.malformed, [])
  else match s.groups[gid]? with
    | none => (.notFound, [])
    | some grp => if uid ∉ grp.members then (.notMember, []) else (.ok, grp.files.keys)

/-- `get_file`: every recorded seeder is handed out, online or not. -/
def getFile (s : TrackerState) (gid uid fname : Str) : Status × Option FileMeta :=
  if gid = [] ∨ uid = [] ∨ fname = [] then (.malformed, none)
  else match s.groups[gid]? with
    | none => (.notFound, none)
    | some grp =>
        if uid ∉ grp.members then (.notMember, none)
        else match grp.files[fname]? with
          | none => (.notFound, none)
          | some fm => (.ok, some fm)

/-- `stop_share`: the seeder goes, the metadata stays. -/
def stopShare (s : TrackerState) (gid uid fname : Str) : Status × TrackerState :=
  if gid = [] ∨ uid = [] ∨ fname = [] then (.malformed, s)
  else match s.groups[gid]? with
    | none => (.notFound, s)
    | some grp =>
        match grp.files[fname]? with
        | none => (.notFound, s)
        | some fm =>
            if uid ∉ fm.seeders then (.notFound, s)
            else (.ok, s.setFile gid grp fname { fm with seeders := fm.seeders.erase uid })

/-- `update_bitfield`: a partial downloader becomes a seeder when it announces
its first piece. -/
def updateBitfield (s : TrackerState) (gid uid ip : Str) (port : UInt16) (fname : Str)
    (bits : List UInt8) : Status × TrackerState :=
  if gid = [] ∨ uid = [] ∨ fname = [] then (.malformed, s)
  else match s.groups[gid]? with
    | none => (.notFound, s)
    | some grp =>
        if uid ∉ grp.members then (.notMember, s)
        else match grp.files[fname]? with
          | none => (.notFound, s)
          | some fm =>
              let pr : PeerRef := { userId := uid, ip := ip, port := port, bitfield := bits }
              (.ok, s.setFile gid grp fname { fm with seeders := fm.seeders.insert uid pr })

end TrackerState

/-! ### Calls -/

/-- A mutating `TrackerState` operation with its arguments. -/
inductive Call
  | createUser (uid pwd : Str)
  | login (uid pwd ip : Str) (port : UInt16)
  | logout (uid : Str)
  | createGroup (gid owner : Str)
  | joinGroup (gid uid : Str)
  | leaveGroup (gid uid : Str)
  | acceptRequest (gid owner uid : Str)
  | addFile (gid uid ip : Str) (port : UInt16) (fmeta : FileMeta)
  | stopShare (gid uid fname : Str)
  | updateBitfield (gid uid ip : Str) (port : UInt16) (fname : Str) (bits : List UInt8)
deriving DecidableEq

namespace TrackerState

/-- Run a call. -/
def exec (H : Str → Str) (s : TrackerState) : Call → Status × TrackerState
  | .createUser uid pwd => s.createUser H uid pwd
  | .login uid pwd ip port => s.login H uid pwd ip port
  | .logout uid => s.logout uid
  | .createGroup gid owner => s.createGroup gid owner
  | .joinGroup gid uid => s.joinGroup gid uid
  | .leaveGroup gid uid => s.leaveGroup gid uid
  | .acceptRequest gid owner uid => s.acceptRequest gid owner uid
  | .addFile gid uid ip port fmeta => s.addFile gid uid ip port fmeta
  | .stopShare gid uid fname => s.stopShare gid uid fname
  | .updateBitfield gid uid ip port fname bits => s.updateBitfield gid uid ip port fname bits

/-- The state after a call. -/
def after (H : Str → Str) (s : TrackerState) (c : Call) : TrackerState := (s.exec H c).2

/-- **What a successful call does**: the checks it passed and the state it
leaves, one constructor for each way an operation ends in `ST_OK`. -/
inductive Ran (H : Str → Str) (s : TrackerState) : Call → TrackerState → Prop
  | createUser {uid pwd : Str} (huid : uid ≠ []) (hpwd : pwd ≠ []) (hnew : uid ∉ s.users) :
      Ran H s (.createUser uid pwd)
        { s with users := s.users.insert uid ⟨uid, H pwd, false, [], 0⟩ }
  | login {uid pwd ip : Str} {port : UInt16} {u : User} (hu : s.users[uid]? = some u)
      (hpwd : u.password = H pwd) :
      Ran H s (.login uid pwd ip port)
        { s with users := s.users.insert uid ⟨u.id, u.password, true, ip, port⟩ }
  | logout {uid : Str} {u : User} (hu : s.users[uid]? = some u) :
      Ran H s (.logout uid)
        ⟨s.users.insert uid { u with online := false },
          s.groups.map fun _ grp => dropSeeder uid grp⟩
  | createGroup {gid owner : Str} (hgid : gid ≠ []) (howner : owner ≠ [])
      (huser : owner ∈ s.users) (hnew : gid ∉ s.groups) :
      Ran H s (.createGroup gid owner)
        (s.setGroup gid ⟨gid, owner, (∅ : StrSet).insert owner, ∅, ∅⟩)
  | joinGroup {gid uid : Str} {grp : Group} (hgid : gid ≠ []) (huid : uid ≠ [])
      (hg : s.groups[gid]? = some grp) (huser : uid ∈ s.users) (hmem : uid ∉ grp.members)
      (hpend : uid ∉ grp.pending) :
      Ran H s (.joinGroup gid uid) (s.setGroup gid { grp with pending := grp.pending.insert uid })
  | dissolve {gid uid : Str} {grp : Group} (hgid : gid ≠ []) (huid : uid ≠ [])
      (hg : s.groups[gid]? = some grp) (hmem : uid ∈ grp.members) (howner : uid = grp.owner)
      (hlast : (grp.members.erase uid).min? = none) :
      Ran H s (.leaveGroup gid uid) { s with groups := s.groups.erase gid }
  | handoff {gid uid m : Str} {grp : Group} (hgid : gid ≠ []) (huid : uid ≠ [])
      (hg : s.groups[gid]? = some grp) (hmem : uid ∈ grp.members) (howner : uid = grp.owner)
      (hmin : (grp.members.erase uid).min? = some m) :
      Ran H s (.leaveGroup gid uid)
        (s.setGroup gid { grp with members := grp.members.erase uid, owner := m })
  | leave {gid uid : Str} {grp : Group} (hgid : gid ≠ []) (huid : uid ≠ [])
      (hg : s.groups[gid]? = some grp) (hmem : uid ∈ grp.members) (howner : uid ≠ grp.owner) :
      Ran H s (.leaveGroup gid uid)
        (s.setGroup gid { grp with members := grp.members.erase uid })
  | acceptRequest {gid owner uid : Str} {grp : Group} (hgid : gid ≠ []) (hown : owner ≠ [])
      (huid : uid ≠ []) (hg : s.groups[gid]? = some grp) (howner : grp.owner = owner)
      (hpend : uid ∈ grp.pending) :
      Ran H s (.acceptRequest gid owner uid)
        (s.setGroup gid
          { grp with pending := grp.pending.erase uid, members := grp.members.insert uid })
  | addSeeder {gid uid ip : Str} {port : UInt16} {fmeta : FileMeta} {grp : Group} {fm : FileMeta}
      (hgid : gid ≠ []) (huid : uid ≠ []) (hname : fmeta.name ≠ [])
      (hg : s.groups[gid]? = some grp) (hmem : uid ∈ grp.members)
      (hf : grp.files[fmeta.name]? = some fm) (hhash : fm.fileHash = fmeta.fileHash) :
      Ran H s (.addFile gid uid ip port fmeta)
        (s.setFile gid grp fmeta.name
          { fm with seeders := fm.seeders.insert uid (fullPeer uid ip port fmeta) })
  | addFile {gid uid ip : Str} {port : UInt16} {fmeta : FileMeta} {grp : Group}
      (hgid : gid ≠ []) (huid : uid ≠ []) (hname : fmeta.name ≠ [])
      (hg : s.groups[gid]? = some grp) (hmem : uid ∈ grp.members)
      (hf : grp.files[fmeta.name]? = none) :
      Ran H s (.addFile gid uid ip port fmeta)
        (s.setFile gid grp fmeta.name
          { fmeta with seeders := (∅ : StrMap PeerRef).insert uid (fullPeer uid ip port fmeta) })
  | stopShare {gid uid fname : Str} {grp : Group} {fm : FileMeta} (hgid : gid ≠ [])
      (huid : uid ≠ []) (hname : fname ≠ []) (hg : s.groups[gid]? = some grp)
      (hf : grp.files[fname]? = some fm) (hseed : uid ∈ fm.seeders) :
      Ran H s (.stopShare gid uid fname)
        (s.setFile gid grp fname { fm with seeders := fm.seeders.erase uid })
  | updateBitfield {gid uid ip : Str} {port : UInt16} {fname : Str} {bits : List UInt8}
      {grp : Group} {fm : FileMeta} (hgid : gid ≠ []) (huid : uid ≠ []) (hname : fname ≠ [])
      (hg : s.groups[gid]? = some grp) (hmem : uid ∈ grp.members)
      (hf : grp.files[fname]? = some fm) :
      Ran H s (.updateBitfield gid uid ip port fname bits)
        (s.setFile gid grp fname
          { fm with seeders := fm.seeders.insert uid ⟨uid, ip, port, bits⟩ })

variable {H : Str → Str} {s s' : TrackerState} {c : Call}

/-- The two ways a call ends: it succeeds as `Ran` says, or it is refused and changes nothing. -/
def Outcome (H : Str → Str) (s : TrackerState) (c : Call) (r : Status × TrackerState) : Prop :=
  (r.1 = .ok ∧ Ran H s c r.2) ∨ (r.1 ≠ .ok ∧ r.2 = s)

namespace Outcome

lemma refused {st : Status} (hne : st ≠ .ok) : Outcome H s c (st, s) := .inr ⟨hne, rfl⟩

lemma ran (hran : Ran H s c s') : Outcome H s c (.ok, s') := .inl ⟨rfl, hran⟩

end Outcome

lemma createUser_outcome (uid pwd : Str) :
    Outcome H s (.createUser uid pwd) (s.createUser H uid pwd) := by
  rw [createUser]
  split
  · exact .refused (by decide)
  · next h1 =>
      rw [not_or] at h1
      split
      · exact .refused (by decide)
      · next h2 => exact .ran (.createUser h1.1 h1.2 h2)

lemma login_outcome (uid pwd ip : Str) (port : UInt16) :
    Outcome H s (.login uid pwd ip port) (s.login H uid pwd ip port) := by
  rw [login]
  split
  · exact .refused (by decide)
  · next u hu =>
      split
      · exact .refused (by decide)
      · next hp => exact .ran (.login hu (not_not.mp hp))

lemma logout_outcome (uid : Str) : Outcome H s (.logout uid) (s.logout uid) := by
  rw [logout]
  split
  · exact .refused (by decide)
  · next u hu => exact .ran (.logout hu)

lemma createGroup_outcome (gid owner : Str) :
    Outcome H s (.createGroup gid owner) (s.createGroup gid owner) := by
  rw [createGroup]
  split
  · exact .refused (by decide)
  · next h1 =>
      rw [not_or] at h1
      split
      · exact .refused (by decide)
      · next h2 =>
          split
          · exact .refused (by decide)
          · next h3 => exact .ran (.createGroup h1.1 h1.2 (not_not.mp h2) h3)

lemma joinGroup_outcome (gid uid : Str) :
    Outcome H s (.joinGroup gid uid) (s.joinGroup gid uid) := by
  rw [joinGroup]
  split
  · exact .refused (by decide)
  · next h1 =>
      rw [not_or] at h1
      split
      · exact .refused (by decide)
      · next grp hg =>
          split
          · exact .refused (by decide)
          · next h2 =>
              split
              · exact .refused (by decide)
              · next h3 =>
                  rw [not_or] at h3
                  exact .ran (.joinGroup h1.1 h1.2 hg (not_not.mp h2) h3.1 h3.2)

lemma leaveGroup_outcome (gid uid : Str) :
    Outcome H s (.leaveGroup gid uid) (s.leaveGroup gid uid) := by
  rw [leaveGroup]
  split
  · exact .refused (by decide)
  · next h1 =>
      rw [not_or] at h1
      split
      · exact .refused (by decide)
      · next grp hg =>
          split
          · exact .refused (by decide)
          · next h2 =>
              split
              · next h3 =>
                  split
                  · next hmin => exact .ran (.dissolve h1.1 h1.2 hg (not_not.mp h2) h3 hmin)
                  · next m hmin => exact .ran (.handoff h1.1 h1.2 hg (not_not.mp h2) h3 hmin)
              · next h3 => exact .ran (.leave h1.1 h1.2 hg (not_not.mp h2) h3)

lemma acceptRequest_outcome (gid owner uid : Str) :
    Outcome H s (.acceptRequest gid owner uid) (s.acceptRequest gid owner uid) := by
  rw [acceptRequest]
  split
  · exact .refused (by decide)
  · next h1 =>
      rw [not_or, not_or] at h1
      split
      · exact .refused (by decide)
      · next grp hg =>
          split
          · exact .refused (by decide)
          · next h2 =>
              split
              · exact .refused (by decide)
              · next h3 =>
                  exact .ran (.acceptRequest h1.1 h1.2.1 h1.2.2 hg (not_not.mp h2)
                    (not_not.mp h3))

lemma addFile_outcome (gid uid ip : Str) (port : UInt16) (fmeta : FileMeta) :
    Outcome H s (.addFile gid uid ip port fmeta) (s.addFile gid uid ip port fmeta) := by
  rw [addFile]
  split
  · exact .refused (by decide)
  · next h1 =>
      rw [not_or, not_or] at h1
      split
      · exact .refused (by decide)
      · next grp hg =>
          split
          · exact .refused (by decide)
          · next h2 =>
              dsimp only
              split
              · next fm hf =>
                  split
                  · exact .refused (by decide)
                  · next h3 =>
                      exact .ran (.addSeeder h1.1 h1.2.1 h1.2.2 hg (not_not.mp h2) hf
                        (not_not.mp h3))
              · next hf => exact .ran (.addFile h1.1 h1.2.1 h1.2.2 hg (not_not.mp h2) hf)

lemma stopShare_outcome (gid uid fname : Str) :
    Outcome H s (.stopShare gid uid fname) (s.stopShare gid uid fname) := by
  rw [stopShare]
  split
  · exact .refused (by decide)
  · next h1 =>
      rw [not_or, not_or] at h1
      split
      · exact .refused (by decide)
      · next grp hg =>
          split
          · exact .refused (by decide)
          · next fm hf =>
              split
              · exact .refused (by decide)
              · next h2 => exact .ran (.stopShare h1.1 h1.2.1 h1.2.2 hg hf (not_not.mp h2))

lemma updateBitfield_outcome (gid uid ip : Str) (port : UInt16) (fname : Str) (bits : List UInt8) :
    Outcome H s (.updateBitfield gid uid ip port fname bits)
      (s.updateBitfield gid uid ip port fname bits) := by
  rw [updateBitfield]
  split
  · exact .refused (by decide)
  · next h1 =>
      rw [not_or, not_or] at h1
      split
      · exact .refused (by decide)
      · next grp hg =>
          split
          · exact .refused (by decide)
          · next h2 =>
              split
              · exact .refused (by decide)
              · next fm hf =>
                  exact .ran (.updateBitfield h1.1 h1.2.1 h1.2.2 hg (not_not.mp h2) hf)

/-- **How a call ends.** -/
lemma exec_outcome (H : Str → Str) (s : TrackerState) (c : Call) : Outcome H s c (s.exec H c) := by
  cases c with
  | createUser uid pwd => exact createUser_outcome uid pwd
  | login uid pwd ip port => exact login_outcome uid pwd ip port
  | logout uid => exact logout_outcome uid
  | createGroup gid owner => exact createGroup_outcome gid owner
  | joinGroup gid uid => exact joinGroup_outcome gid uid
  | leaveGroup gid uid => exact leaveGroup_outcome gid uid
  | acceptRequest gid owner uid => exact acceptRequest_outcome gid owner uid
  | addFile gid uid ip port fmeta => exact addFile_outcome gid uid ip port fmeta
  | stopShare gid uid fname => exact stopShare_outcome gid uid fname
  | updateBitfield gid uid ip port fname bits =>
      exact updateBitfield_outcome gid uid ip port fname bits

lemma exec_cases {st : Status} (h : s.exec H c = (st, s')) :
    (st = .ok ∧ Ran H s c s') ∨ (st ≠ .ok ∧ s' = s) := by
  have hcases := exec_outcome H s c
  rwa [h] at hcases

/-- Each case of `Ran` is a successful call. -/
lemma Ran.exec_eq (h : Ran H s c s') : s.exec H c = (.ok, s') := by
  cases h with
  | createUser huid hpwd hnew => simp [exec, TrackerState.createUser, huid, hpwd, hnew]
  | login hu hpwd => simp [exec, TrackerState.login, hu, hpwd]
  | logout hu => simp [exec, TrackerState.logout, hu]
  | createGroup hgid howner huser hnew =>
      simp [exec, TrackerState.createGroup, hgid, howner, huser, hnew]
  | joinGroup hgid huid hg huser hmem hpend =>
      simp [exec, TrackerState.joinGroup, hgid, huid, hg, huser, hmem, hpend]
  | dissolve hgid huid hg hmem howner hlast =>
      subst howner
      simp [exec, TrackerState.leaveGroup, hgid, huid, hg, hmem, hlast]
  | handoff hgid huid hg hmem howner hmin =>
      subst howner
      simp [exec, TrackerState.leaveGroup, hgid, huid, hg, hmem, hmin]
  | leave hgid huid hg hmem howner =>
      simp [exec, TrackerState.leaveGroup, hgid, huid, hg, hmem, howner]
  | acceptRequest hgid hown huid hg howner hpend =>
      simp [exec, TrackerState.acceptRequest, hgid, hown, huid, hg, howner, hpend]
  | addSeeder hgid huid hname hg hmem hf hhash =>
      simp [exec, TrackerState.addFile, hgid, huid, hname, hg, hmem, hf, hhash]
  | addFile hgid huid hname hg hmem hf =>
      simp [exec, TrackerState.addFile, hgid, huid, hname, hg, hmem, hf]
  | stopShare hgid huid hname hg hf hseed =>
      simp [exec, TrackerState.stopShare, hgid, huid, hname, hg, hf, hseed]
  | updateBitfield hgid huid hname hg hmem hf =>
      simp [exec, TrackerState.updateBitfield, hgid, huid, hname, hg, hmem, hf]

/-- A call succeeds exactly as `Ran` says. -/
theorem exec_eq_ok_iff : s.exec H c = (.ok, s') ↔ Ran H s c s' := by
  refine ⟨fun h => ?_, Ran.exec_eq⟩
  rcases exec_cases h with ⟨-, hran⟩ | ⟨hne, -⟩
  · exact hran
  · exact absurd rfl hne

/-- **A refused call changes nothing.** -/
theorem exec_refused (h : (s.exec H c).1 ≠ .ok) : s.after H c = s := by
  rcases exec_cases (rfl : s.exec H c = ((s.exec H c).1, (s.exec H c).2)) with ⟨hok, -⟩ | ⟨-, hs⟩
  · exact absurd hok h
  · exact hs

/-- A call either runs or leaves the state. -/
lemma after_cases (H : Str → Str) (s : TrackerState) (c : Call) :
    Ran H s c (s.after H c) ∨ s.after H c = s := by
  rcases exec_cases (rfl : s.exec H c = ((s.exec H c).1, (s.exec H c).2)) with ⟨-, hran⟩ | ⟨-, hs⟩
  · exact .inl hran
  · exact .inr hs

end TrackerState

end P2PShare
