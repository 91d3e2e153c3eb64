import P2PShare.Tracker.Server
import P2PShare.Tracker.Invariant

/-!
What a user outside a group learns about its files: nothing.

* `TrackerState.blind`: a state without the files of one group; two states that
  are identical except for them have the same blind state.
* `Outside`: a user who is not a member of the group and seeds none of its files.
* `exec_blind`, `Session.dispatch_blind`: what an outsider asks for is answered
  in the blind state as in the state itself.
* `Outside.dispatch` (**the step lemma**): the requests of an outsider leave the
  outsider outside; `outsider_learns_nothing` follows by induction on them.
-/

namespace P2PShare

open Cursor Reader

/-! ### States without the files of a group -/

/-- A group, without its files if it is the group `g`. -/
def Group.blind (g gid : Str) (grp : Group) : Group :=
  if gid = g then { grp with files := ∅ } else grp

namespace Group

variable {g gid : Str} {grp : Group}

@[simp] lemma blind_members : (grp.blind g gid).members = grp.members := by
  rw [blind]
  split <;> rfl

@[simp] lemma blind_pending : (grp.blind g gid).pending = grp.pending := by
  rw [blind]
  split <;> rfl

@[simp] lemma blind_owner : (grp.blind g gid).owner = grp.owner := by
  rw [blind]
  split <;> rfl

lemma blind_of_ne (h : gid ≠ g) (grp : Group) : grp.blind g gid = grp := if_neg h

lemma blind_self (grp : Group) : grp.blind g g = { grp with files := ∅ } := if_pos rfl

lemma blind_empty (g gid : Str) (grp : Group) (h : grp.files = ∅) : grp.blind g gid = grp := by
  rw [blind, ← h]
  split <;> rfl

/-- Members, requests and the owner change in the blind group as in the group. -/
lemma blind_with (grp : Group) (owner : Str) (members pending : StrSet) :
    Group.blind g gid { grp with owner := owner, members := members, pending := pending } =
      { grp.blind g gid with owner := owner, members := members, pending := pending } := by
  rw [blind, blind]
  split <;> rfl

end Group

namespace TrackerState

/-- The state without the files of the group `g`. -/
def blind (g : Str) (s : TrackerState) : TrackerState :=
  { s with groups := s.groups.map fun gid grp => grp.blind g gid }

/-- The user is not a member of the group and seeds none of its files. -/
def Outside (g u : Str) (s : TrackerState) : Prop :=
  ∃ grp, s.groups[g]? = some grp ∧ u ∉ grp.members ∧
    ∀ (fname : Str) (fm : FileMeta), grp.files[fname]? = some fm → u ∉ fm.seeders

variable {H : Str → Str} {g u : Str} {s s' : TrackerState} {c : Call}

@[simp] lemma users_blind : (s.blind g).users = s.users := rfl

/-- A group that an outsider is a member of is another one. -/
lemma Outside.ne (hout : s.Outside g u) {gid : Str} {grp : Group}
    (hgrp : s.groups[gid]? = some grp) (hmem : u ∈ grp.members) : gid ≠ g := by
  rintro rfl
  obtain ⟨grp₀, hg₀, hmem₀, -⟩ := hout
  obtain rfl : grp₀ = grp := by simpa [hg₀] using hgrp
  exact hmem₀ hmem

lemma getElem?_blind (gid : Str) :
    (s.blind g).groups[gid]? = s.groups[gid]?.map (Group.blind g gid) := by
  rw [blind, Std.ExtTreeMap.getElem?_map]

lemma mem_blind (gid : Str) : gid ∈ (s.blind g).groups ↔ gid ∈ s.groups := by
  rw [blind, Std.ExtTreeMap.mem_map]

lemma listGroups_blind : (s.blind g).listGroups = s.listGroups :=
  Std.ExtTreeMap.keys_map

lemma blind_setGroup (gid : Str) (grp : Group) :
    (s.setGroup gid grp).blind g = (s.blind g).setGroup gid (grp.blind g gid) := by
  refine TrackerState.ext rfl (Std.ExtTreeMap.ext_getElem? fun k => ?_)
  show ((s.groups.insert gid grp).map _)[k]? = ((s.groups.map _).insert gid _)[k]?
  rw [Std.ExtTreeMap.getElem?_map, Std.ExtTreeMap.getElem?_insert, Std.ExtTreeMap.getElem?_insert,
    Std.ExtTreeMap.getElem?_map]
  by_cases hk : gid = k
  · simp [hk]
  · simp [hk]

lemma blind_eraseGroup (gid : Str) :
    blind g { s with groups := s.groups.erase gid } =
      { s.blind g with groups := (s.blind g).groups.erase gid } := by
  refine TrackerState.ext rfl (Std.ExtTreeMap.ext_getElem? fun k => ?_)
  show ((s.groups.erase gid).map _)[k]? = ((s.groups.map _).erase gid)[k]?
  rw [Std.ExtTreeMap.getElem?_map, Std.ExtTreeMap.getElem?_erase, Std.ExtTreeMap.getElem?_erase,
    Std.ExtTreeMap.getElem?_map]
  by_cases hk : gid = k
  · simp [hk]
  · simp [hk]

/-- Dropping a seeder everywhere looks the same with and without the files. -/
lemma blind_dropSeeders (uid : Str) (users : StrMap User) :
    blind g ⟨users, s.groups.map fun _ grp => dropSeeder uid grp⟩ =
      ⟨users, (s.blind g).groups.map fun _ grp => dropSeeder uid grp⟩ := by
  refine TrackerState.ext rfl (Std.ExtTreeMap.ext_getElem? fun k => ?_)
  show ((s.groups.map _).map _)[k]? = ((s.groups.map _).map _)[k]?
  simp only [Std.ExtTreeMap.getElem?_map, Option.map_map]
  congr 1
  funext grp
  by_cases hk : k = g
  · subst hk
    have hempty : (∅ : StrMap FileMeta).map
        (fun _ fm => { fm with seeders := fm.seeders.erase uid }) = ∅ :=
      Std.ExtTreeMap.map_eq_empty_iff.mpr rfl
    simp [Group.blind_self, dropSeeder, hempty]
  · simp [Group.blind_of_ne hk]

end TrackerState

/-! ### Calls -/

/-- The call is one that a session of `u` makes, apart from a registration and a
login. -/
def Call.By (u : Str) : Call → Prop
  | createUser .. | login .. => True
  | logout uid => uid = u
  | createGroup _ owner => owner = u
  | joinGroup _ uid => uid = u
  | leaveGroup _ uid => uid = u
  | acceptRequest _ owner _ => owner = u
  | addFile _ uid _ _ _ => uid = u
  | stopShare _ uid _ => uid = u
  | updateBitfield _ uid _ _ _ _ => uid = u

namespace TrackerState

variable {H : Str → Str} {g u : Str} {s s' : TrackerState} {c : Call}

lemma createUser_blind (uid pwd : Str) :
    (s.blind g).createUser H uid pwd = (s.createUser H uid pwd).map id (blind g) := by
  by_cases h₁ : uid = [] ∨ pwd = []
  · simp [createUser, h₁]
  · by_cases h₂ : uid ∈ s.users
    · simp [createUser, h₁, h₂]
    · simp [createUser, h₁, h₂, blind]

lemma login_blind (uid pwd ip : Str) (port : UInt16) :
    (s.blind g).login H uid pwd ip port = (s.login H uid pwd ip port).map id (blind g) := by
  cases hu : s.users[uid]? with
  | none => simp [login, hu]
  | some v =>
      by_cases hpwd : v.password = H pwd
      · simp [login, hu, hpwd, blind]
      · simp [login, hu, hpwd]

lemma logout_blind (uid : Str) :
    (s.blind g).logout uid = (s.logout uid).map id (blind g) := by
  cases hu : s.users[uid]? with
  | none => simp [logout, hu]
  | some v => simp [logout, hu, blind_dropSeeders]

lemma createGroup_blind (gid owner : Str) :
    (s.blind g).createGroup gid owner = (s.createGroup gid owner).map id (blind g) := by
  by_cases h₁ : gid = [] ∨ owner = []
  · simp [createGroup, h₁]
  · by_cases h₂ : owner ∈ s.users
    · by_cases h₃ : gid ∈ s.groups
      · simp [createGroup, h₁, h₂, h₃, mem_blind]
      · have hfiles := Group.blind_empty g gid ⟨gid, owner, (∅ : StrSet).insert owner, ∅, ∅⟩ rfl
        simp [createGroup, h₁, h₂, h₃, mem_blind, blind_setGroup, hfiles]
    · simp [createGroup, h₁, h₂]

lemma joinGroup_blind (gid uid : Str) :
    (s.blind g).joinGroup gid uid = (s.joinGroup gid uid).map id (blind g) := by
  by_cases h₁ : gid = [] ∨ uid = []
  · simp [joinGroup, h₁]
  · cases hg : s.groups[gid]? with
    | none => simp [joinGroup, h₁, getElem?_blind, hg]
    | some grp =>
        by_cases h₂ : uid ∈ s.users
        · by_cases h₃ : uid ∈ grp.members ∨ uid ∈ grp.pending
          · simp [joinGroup, h₁, getElem?_blind, hg, h₂, h₃]
          · simp [joinGroup, h₁, getElem?_blind, hg, h₂, h₃, blind_setGroup, Group.blind_with]
        · simp [joinGroup, h₁, getElem?_blind, hg, h₂]

lemma leaveGroup_blind (gid uid : Str) :
    (s.blind g).leaveGroup gid uid = (s.leaveGroup gid uid).map id (blind g) := by
  by_cases h₁ : gid = [] ∨ uid = []
  · simp [leaveGroup, h₁]
  · cases hg : s.groups[gid]? with
    | none => simp [leaveGroup, h₁, getElem?_blind, hg]
    | some grp =>
        by_cases h₂ : uid ∈ grp.members
        · by_cases h₃ : uid = grp.owner
          · cases hmin : (grp.members.erase uid).min? with
            | none =>
                simp [leaveGroup, h₁, getElem?_blind, hg, h₂, h₃.symm, hmin, blind_eraseGroup]
            | some m =>
                simp [leaveGroup, h₁, getElem?_blind, hg, h₂, h₃.symm, hmin,
                  blind_setGroup, Group.blind_with]
          · simp [leaveGroup, h₁, getElem?_blind, hg, h₂, h₃, blind_setGroup, Group.blind_with]
        · simp [leaveGroup, h₁, getElem?_blind, hg, h₂]

lemma acceptRequest_blind (gid owner uid : Str) :
    (s.blind g).acceptRequest gid owner uid = (s.acceptRequest gid owner uid).map id (blind g) := by
  by_cases h₁ : gid = [] ∨ owner = [] ∨ uid = []
  · simp [acceptRequest, h₁]
  · cases hg : s.groups[gid]? with
    | none => simp [acceptRequest, h₁, getElem?_blind, hg]
    | some grp =>
        by_cases h₂ : grp.owner = owner
        · by_cases h₃ : uid ∈ grp.pending
          · simp [acceptRequest, h₁, getElem?_blind, hg, h₂, h₃, blind_setGroup, Group.blind_with]
          · simp [acceptRequest, h₁, getElem?_blind, hg, h₂, h₃]
        · simp [acceptRequest, h₁, getElem?_blind, hg, h₂]

lemma addFile_blind {uid : Str} (hout : s.Outside g uid) (gid ip : Str) (port : UInt16)
    (fmeta : FileMeta) :
    (s.blind g).addFile gid uid ip port fmeta =
      (s.addFile gid uid ip port fmeta).map id (blind g) := by
  by_cases h₁ : gid = [] ∨ uid = [] ∨ fmeta.name = []
  · simp [addFile, h₁]
  · cases hg : s.groups[gid]? with
    | none => simp [addFile, h₁, getElem?_blind, hg]
    | some grp =>
        by_cases h₂ : uid ∈ grp.members
        · have hne := hout.ne hg h₂
          cases hf : grp.files[fmeta.name]? with
          | none =>
              simp [addFile, h₁, getElem?_blind, hg, h₂, Group.blind_of_ne hne, hf,
                setFile, blind_setGroup]
          | some fm =>
              by_cases h₃ : fm.fileHash = fmeta.fileHash
              · simp [addFile, h₁, getElem?_blind, hg, h₂, Group.blind_of_ne hne, hf, h₃,
                  setFile, blind_setGroup]
              · simp [addFile, h₁, getElem?_blind, hg, h₂, Group.blind_of_ne hne, hf, h₃]
        · simp [addFile, h₁, getElem?_blind, hg, h₂]

lemma stopShare_blind {uid : Str} (hout : s.Outside g uid) (gid fname : Str) :
    (s.blind g).stopShare gid uid fname = (s.stopShare gid uid fname).map id (blind g) := by
  obtain ⟨grp₀, hg₀, -, hseed₀⟩ := hout
  by_cases h₁ : gid = [] ∨ uid = [] ∨ fname = []
  · simp [stopShare, h₁]
  · cases hg : s.groups[gid]? with
    | none => simp [stopShare, h₁, getElem?_blind, hg]
    | some grp =>
        by_cases hgid : gid = g
        · -- the file is there or not, the user is not one of its seeders
          subst hgid
          obtain rfl : grp₀ = grp := by simpa [hg₀] using hg
          cases hf : grp₀.files[fname]? with
          | none => simp [stopShare, h₁, getElem?_blind, hg, hf, Group.blind_self]
          | some fm =>
              have h₂ := hseed₀ fname fm hf
              simp [stopShare, h₁, getElem?_blind, hg, hf, Group.blind_self, h₂]
        · cases hf : grp.files[fname]? with
          | none => simp [stopShare, h₁, getElem?_blind, hg, Group.blind_of_ne hgid, hf]
          | some fm =>
              by_cases h₂ : uid ∈ fm.seeders
              · simp [stopShare, h₁, getElem?_blind, hg, Group.blind_of_ne hgid, hf, h₂,
                  setFile, blind_setGroup]
              · simp [stopShare, h₁, getElem?_blind, hg, Group.blind_of_ne hgid, hf, h₂]

lemma updateBitfield_blind {uid : Str} (hout : s.Outside g uid) (gid ip : Str) (port : UInt16)
    (fname : Str) (bits : List UInt8) :
    (s.blind g).updateBitfield gid uid ip port fname bits =
      (s.updateBitfield gid uid ip port fname bits).map id (blind g) := by
  by_cases h₁ : gid = [] ∨ uid = [] ∨ fname = []
  · simp [updateBitfield, h₁]
  · cases hg : s.groups[gid]? with
    | none => simp [updateBitfield, h₁, getElem?_blind, hg]
    | some grp =>
        by_cases h₂ : uid ∈ grp.members
        · have hne := hout.ne hg h₂
          cases hf : grp.files[fname]? with
          | none =>
              simp [updateBitfield, h₁, getElem?_blind, hg, h₂, Group.blind_of_ne hne, hf]
          | some fm =>
              simp [updateBitfield, h₁, getElem?_blind, hg, h₂, Group.blind_of_ne hne, hf,
                setFile, blind_setGroup]
        · simp [updateBitfield, h₁, getElem?_blind, hg, h₂]

/-- **What an outsider asks for is done in the blind state as in the state.** -/
lemma exec_blind (hout : s.Outside g u) (hby : c.By u) :
    (s.blind g).exec H c = ((s.exec H c).1, (s.exec H c).2.blind g) := by
  cases c with
  | createUser uid pwd => exact createUser_blind uid pwd
  | login uid pwd ip port => exact login_blind uid pwd ip port
  | logout uid => exact logout_blind uid
  | createGroup gid owner => exact createGroup_blind gid owner
  | joinGroup gid uid => exact joinGroup_blind gid uid
  | leaveGroup gid uid => exact leaveGroup_blind gid uid
  | acceptRequest gid owner uid => exact acceptRequest_blind gid owner uid
  | addFile gid uid ip port fmeta =>
      obtain rfl : uid = u := hby
      exact addFile_blind hout gid ip port fmeta
  | stopShare gid uid fname =>
      obtain rfl : uid = u := hby
      exact stopShare_blind hout gid fname
  | updateBitfield gid uid ip port fname bits =>
      obtain rfl : uid = u := hby
      exact updateBitfield_blind hout gid ip port fname bits

/-! ### The lists -/

lemma listRequests_blind (gid owner : Str) :
    (s.blind g).listRequests gid owner = s.listRequests gid owner := by
  rw [listRequests, listRequests, getElem?_blind]
  cases s.groups[gid]? with
  | none => rfl
  | some grp => simp

lemma listFiles_blind (hout : s.Outside g u) (gid : Str) :
    (s.blind g).listFiles gid u = s.listFiles gid u := by
  rw [listFiles, listFiles, getElem?_blind]
  cases hgrp : s.groups[gid]? with
  | none => rfl
  | some grp =>
      by_cases hmem : u ∈ grp.members
      · simp [Group.blind_of_ne (hout.ne hgrp hmem)]
      · simp [hmem]

lemma getFile_blind (hout : s.Outside g u) (gid fname : Str) :
    (s.blind g).getFile gid u fname = s.getFile gid u fname := by
  rw [getFile, getFile, getElem?_blind]
  cases hgrp : s.groups[gid]? with
  | none => rfl
  | some grp =>
      by_cases hmem : u ∈ grp.members
      · simp [Group.blind_of_ne (hout.ne hgrp hmem)]
      · simp [hmem]

/-- **What an outsider does leaves the outsider outside.** -/
lemma Ran.outside (hran : Ran H s c s') (hs : s.WellFormed) (hout : s.Outside g u)
    (hby : c.By u) : s'.Outside g u := by
  obtain ⟨grp₀, hg₀, hmem₀, hseed₀⟩ := id hout
  -- a call on another group leaves `g` as it is
  have hkept : ∀ {gid : Str} {grp : Group}, gid ≠ g → (s.setGroup gid grp).Outside g u := by
    intro gid grp hne
    refine ⟨grp₀, ?_, hmem₀, hseed₀⟩
    show (s.groups.insert gid grp)[g]? = some grp₀
    simpa [Std.ExtTreeMap.getElem?_insert, hne] using hg₀
  cases hran with
  | createUser | login => exact ⟨grp₀, hg₀, hmem₀, hseed₀⟩
  | @logout uid =>
      refine ⟨dropSeeder uid grp₀, ?_, hmem₀, fun fname fm hfm => ?_⟩
      · rw [Std.ExtTreeMap.getElem?_map, hg₀]
        rfl
      · rw [dropSeeder, Std.ExtTreeMap.getElem?_map] at hfm
        obtain ⟨fm₀, hfm₀, rfl⟩ := Option.map_eq_some_iff.mp hfm
        exact fun hu => hseed₀ fname fm₀ hfm₀ (Std.ExtTreeMap.mem_of_mem_erase hu)
  | @createGroup gid owner _ _ _ hnew =>
      refine hkept fun heq => hnew ?_
      rw [heq]
      exact Std.ExtTreeMap.mem_iff_isSome_getElem?.mpr (by simp [hg₀])
  | @joinGroup gid uid grp _ _ hg =>
      by_cases hgid : gid = g
      -- a pending request makes nobody a member
      · subst hgid
        obtain rfl : grp₀ = grp := by simpa [hg₀] using hg
        exact ⟨_, Std.ExtTreeMap.getElem?_insert_self, hmem₀, hseed₀⟩
      · exact hkept hgid
  | @dissolve gid uid grp _ _ hg hmem =>
      obtain rfl : uid = u := hby
      refine ⟨grp₀, ?_, hmem₀, hseed₀⟩
      have hne := hout.ne hg hmem
      simpa [Std.ExtTreeMap.getElem?_erase, hne] using hg₀
  | handoff _ _ hg hmem =>
      cases hby
      exact hkept (hout.ne hg hmem)
  | leave _ _ hg hmem =>
      cases hby
      exact hkept (hout.ne hg hmem)
  | acceptRequest _ _ _ hg howner =>
      -- only the owner accepts, and the owner is a member
      cases hby
      exact hkept (hout.ne hg (howner ▸ (hs.group _ _ hg).owner))
  | addSeeder _ _ _ hg hmem =>
      cases hby
      exact hkept (hout.ne hg hmem)
  | addFile _ _ _ hg hmem =>
      cases hby
      exact hkept (hout.ne hg hmem)
  | @stopShare gid uid fname grp fm _ _ _ hg hf hseed =>
      obtain rfl : uid = u := hby
      refine hkept fun heq => ?_
      subst heq
      obtain rfl : grp₀ = grp := by simpa [hg₀] using hg
      exact hseed₀ fname fm hf hseed
  | updateBitfield _ _ _ hg hmem =>
      cases hby
      exact hkept (hout.ne hg hmem)

end TrackerState

/-! ### Requests -/

/-- The outcome without the files of the group `g`. -/
def Outcome.blind (g : Str) (o : Outcome) : Outcome := { o with state := o.state.blind g }

namespace Session

variable {H : Str → Str} {g u : Str} {s : TrackerState} {σ : Session} {payload : Str}

/-- A registration is a call of anyone. -/
lemma by_of_reqCreateUser {c : Call} {rep : Str} (u : Str)
    (hdec : decode (reqCreateUser payload) payload = some (c, rep)) : c.By u := by
  obtain ⟨c', hread⟩ := decode_eq_some.mp hdec
  simp only [reqCreateUser, reads_bind, reads_pure] at hread
  obtain ⟨_, _, -, _, _, -, heq, -⟩ := hread
  cases heq
  exact trivial

/-- A replicated request asks for a call of the session's own user. -/
lemma by_of_reqOf {t : MsgType} {f : Get (Call × Str)} {c : Call} {rep : Str}
    (hreq : reqOf σ payload t = some f) (hdec : decode f payload = some (c, rep)) :
    c.By σ.user := by
  have hbuilt : ∀ {α : Type} {get : Get α} {k : α → Call × Str},
      decode (do let a ← get; return k a) payload = some (c, rep) → (∀ a, (k a).1.By σ.user) →
        c.By σ.user := by
    intro α get k h hk
    obtain ⟨a, -, heq⟩ := decode_bind_pure h
    rw [show c = (k a).1 from congrArg Prod.fst heq]
    exact hk a
  cases t <;> cases hreq
  case createUser => exact by_of_reqCreateUser σ.user hdec
  case acceptRequest =>
    obtain ⟨c', hread⟩ := decode_eq_some.mp hdec
    simp only [reqAcceptRequest, reads_bind, reads_pure] at hread
    obtain ⟨_, _, -, _, _, -, heq, -⟩ := hread
    cases heq
    exact rfl
  all_goals exact hbuilt hdec fun _ => rfl

/-- A replicated request of an outsider. -/
lemma mutate_blind (hout : s.Outside g u) {t : MsgType} {f : Get (Call × Str)}
    (hby : ∀ (c : Call) (rep : Str), decode f payload = some (c, rep) → c.By u) :
    mutate H (s.blind g) σ t payload f = (mutate H s σ t payload f).blind g := by
  rw [mutate, mutate, parsed, parsed]
  cases hdec : decode f payload with
  | none => rfl
  | some r =>
      dsimp only
      rw [TrackerState.exec_blind hout (hby r.1 r.2 hdec)]
      rfl

lemma parsed_blind {α : Type} {f : Get α} {k k' : α → Outcome}
    (h : ∀ a, k' a = (k a).blind g) :
    parsed (s.blind g) σ f payload k' = (parsed s σ f payload k).blind g := by
  rw [parsed, parsed]
  cases decode f payload with
  | none => rfl
  | some a => exact h a

lemma loggedIn_blind {o o' : Outcome} (h : σ.user ≠ [] → o' = o.blind g) :
    Session.loggedIn (s.blind g) σ o' = (Session.loggedIn s σ o).blind g := by
  rw [Session.loggedIn, Session.loggedIn]
  split
  · rfl
  · next huser => exact h huser

lemma login_blind (hout : s.Outside g u) :
    login H (s.blind g) σ payload = (login H s σ payload).blind g := by
  rw [login, login]
  split
  · rfl
  · next uid pwd port hdec =>
      have hlogin : (s.blind g).login H uid pwd σ.peerIp port =
          ((s.login H uid pwd σ.peerIp port).1, (s.login H uid pwd σ.peerIp port).2.blind g) :=
        TrackerState.exec_blind (c := .login uid pwd σ.peerIp port) hout trivial
      rw [hlogin]
      rfl

/-- **A request of an outsider is answered in the blind state as in the state.** -/
theorem dispatch_blind (hout : s.Outside g u) (huser : σ.user = u ∨ σ.user = [])
    (type : UInt16) (payload : Str) :
    dispatch H (s.blind g) σ type payload = (dispatch H s σ type payload).blind g := by
  have hown : σ.user ≠ [] → σ.user = u := fun hne => huser.resolve_right hne
  -- what a mutation reads of the state is not in the files of `g`
  have hmutate : ∀ {t : MsgType} {f : Get (Call × Str)}, reqOf σ payload t = some f →
      Session.loggedIn (s.blind g) σ (mutate H (s.blind g) σ t payload f) =
        (Session.loggedIn s σ (mutate H s σ t payload f)).blind g := by
    intro t f hreq
    refine loggedIn_blind fun hne => mutate_blind hout fun c rep hdec => ?_
    rw [← hown hne]
    exact by_of_reqOf hreq hdec
  rw [dispatch, dispatch]
  cases MsgType.ofCode type with
  | none => rfl
  | some t =>
      cases t with
      | createUser => exact mutate_blind hout fun c rep hdec => by_of_reqCreateUser u hdec
      | login => exact login_blind hout
      | logout =>
          refine loggedIn_blind fun hne => ?_
          have hlogout : (s.blind g).logout σ.user =
              ((s.logout σ.user).1, (s.logout σ.user).2.blind g) :=
            TrackerState.exec_blind (H := H) (c := .logout σ.user) hout (hown hne)
          rw [logout, logout, hlogout]
          rfl
      | listGroups =>
          refine loggedIn_blind fun _ => ?_
          rw [TrackerState.listGroups_blind]
          rfl
      | createGroup => exact hmutate rfl
      | joinGroup => exact hmutate rfl
      | leaveGroup => exact hmutate rfl
      | acceptRequest => exact hmutate rfl
      | uploadFile => exact hmutate rfl
      | stopShare => exact hmutate rfl
      | havePieces => exact hmutate rfl
      | listRequests =>
          refine loggedIn_blind fun _ => parsed_blind fun gid => ?_
          rw [TrackerState.listRequests_blind]
          split <;> rfl
      | listFiles =>
          refine loggedIn_blind fun hne => parsed_blind fun gid => ?_
          rw [hown hne, TrackerState.listFiles_blind hout]
          split <;> rfl
      | getFileMeta =>
          refine loggedIn_blind fun hne => parsed_blind fun p => ?_
          obtain ⟨gid, fname⟩ := p
          dsimp only
          rw [hown hne, TrackerState.getFile_blind hout]
          split <;> rfl
      | _ => rfl

/-- **The step lemma**: the requests of an outsider leave the outsider outside. -/
lemma outside_dispatch (hs : s.WellFormed) (hout : s.Outside g u)
    (huser : σ.user = u ∨ σ.user = []) (type : UInt16) (payload : Str) :
    (dispatch H s σ type payload).state.WellFormed ∧
      (dispatch H s σ type payload).state.Outside g u := by
  have hran : ∀ {c : Call} {s' : TrackerState}, TrackerState.Ran H s c s' → c.By u →
      s'.WellFormed ∧ s'.Outside g u :=
    fun hran hby => ⟨hran.wellFormed hs, hran.outside hs hout hby⟩
  have hserved := dispatch_served H s σ type payload
  generalize dispatch H s σ type payload = o at hserved
  cases hserved with
  | answered => exact ⟨hs, hout⟩
  | loggedIn hlen hlogin => exact hran hlogin trivial
  | loggedOut htype hne hlogout => exact hran hlogout (huser.resolve_right hne)
  | gone => exact ⟨hs, hout⟩
  | @mutated t f c rep s' htype hreq hmay hdec hcall =>
      refine hran hcall ?_
      rcases hmay with rfl | hne
      · cases hreq
        exact by_of_reqCreateUser u hdec
      · rw [← huser.resolve_right hne]
        exact by_of_reqOf hreq hdec

/-! ### Runs -/

/-- The requests of a session, one after the other: what each of them leads to,
and the state at the end. -/
def serveAll (H : Str → Str) : TrackerState → Session → List (UInt16 × Str) →
    List Outcome × TrackerState
  | s, _, [] => ([], s)
  | s, σ, (type, payload) :: reqs =>
      let o := σ.dispatch H s type payload
      let r := serveAll H o.state o.session reqs
      (o :: r.1, r.2)

end Session

/-- What shows of a request: the status and the payload of its reply, and the op
that is recorded, without its number and its time. -/
def Outcome.seen (o : Outcome) : Status × Str × Option (UInt16 × Str) :=
  (o.status, o.payload, o.record)

namespace Session

/-- **An outsider learns nothing about the files of a group**: from two states
that differ in them only, every sequence of requests shows the same, and leads to
states that again differ in them only. -/
theorem outsider_learns_nothing (H : Str → Str) {g u : Str} {s₁ s₂ : TrackerState}
    (h₁ : TrackerState.Reachable H s₁) (h₂ : TrackerState.Reachable H s₂)
    (hsame : s₁.blind g = s₂.blind g) (hout₁ : s₁.Outside g u) (hout₂ : s₂.Outside g u)
    {σ : Session} (hσ : σ.user = u) (reqs : List (UInt16 × Str))
    (honly : ∀ o ∈ (serveAll H s₁ σ reqs).1, o.session.user = u ∨ o.session.user = []) :
    (serveAll H s₁ σ reqs).1.map Outcome.seen = (serveAll H s₂ σ reqs).1.map Outcome.seen ∧
      (serveAll H s₁ σ reqs).2.blind g = (serveAll H s₂ σ reqs).2.blind g ∧
      (serveAll H s₁ σ reqs).2.Outside g u ∧ (serveAll H s₂ σ reqs).2.Outside g u := by
  have hwf₁ := TrackerState.reachable_wellFormed h₁
  have hwf₂ := TrackerState.reachable_wellFormed h₂
  have huser : σ.user = u ∨ σ.user = [] := .inl hσ
  clear hσ h₁ h₂
  induction reqs generalizing s₁ s₂ σ with
  | nil => exact ⟨rfl, hsame, hout₁, hout₂⟩
  | cons req reqs ih =>
      obtain ⟨type, payload⟩ := req
      have hblind :
          (σ.dispatch H s₁ type payload).blind g = (σ.dispatch H s₂ type payload).blind g :=
        calc (σ.dispatch H s₁ type payload).blind g
            = σ.dispatch H (s₁.blind g) type payload :=
              (dispatch_blind hout₁ huser type payload).symm
          _ = σ.dispatch H (s₂.blind g) type payload := by rw [hsame]
          _ = (σ.dispatch H s₂ type payload).blind g := dispatch_blind hout₂ huser type payload
      have hstep₁ := outside_dispatch (H := H) hwf₁ hout₁ huser type payload
      have hstep₂ := outside_dispatch (H := H) hwf₂ hout₂ huser type payload
      have hsession : (σ.dispatch H s₁ type payload).session =
          (σ.dispatch H s₂ type payload).session := by
        simpa only [Outcome.blind] using congrArg Outcome.session hblind
      have hseen : (σ.dispatch H s₁ type payload).seen = (σ.dispatch H s₂ type payload).seen := by
        simpa only [Outcome.blind, Outcome.seen] using congrArg Outcome.seen hblind
      simp only [serveAll, List.mem_cons, forall_eq_or_imp] at honly
      have hrest := ih (congrArg Outcome.state hblind) hstep₁.2 hstep₂.2 honly.2 hstep₁.1 hstep₂.1
        honly.1
      rw [hsession] at hrest
      refine ⟨?_, ?_⟩
      · simp only [serveAll, List.map_cons]
        rw [hseen, hsession, hrest.1]
      · simp only [serveAll]
        rw [hsession]
        exact hrest.2

/-- A state with the group `[5]` of `[1]`, who has uploaded the file `[7]` to it,
and the user `[2]`. -/
def withFile : TrackerState :=
  [.createUser [1] [4], .createUser [2] [4], .createGroup [5] [1],
    .addFile [5] [1] [6] 80 ⟨[7], 1, [3], [[3]], ∅⟩].foldl (TrackerState.after id) .init

/-- The same without the file. -/
def withoutFile : TrackerState :=
  [.createUser [1] [4], .createUser [2] [4], .createGroup [5] [1]].foldl
    (TrackerState.after id) .init

/-- The user `[2]` asks for the file, and for its removal, and for membership. -/
def curious : List (UInt16 × Str) :=
  [(MsgType.listFiles.code, putStr [5]), (MsgType.getFileMeta.code, putShare [5] [7]),
    (MsgType.stopShare.code, putShare [5] [7]), (MsgType.joinGroup.code, putStr [5]),
    (MsgType.logout.code, [])]

theorem outsider_learns_nothing_curious :
    let σ : Session := ⟨[2], [6], 80, by decide, by decide⟩
    (serveAll id withFile σ curious).1.map Outcome.seen =
      (serveAll id withoutFile σ curious).1.map Outcome.seen := by
  intro σ
  have hwith : TrackerState.Reachable id withFile := .call (.call (.call (.call .init _) _) _) _
  have hwithout : TrackerState.Reachable id withoutFile := .call (.call (.call .init _) _) _
  have hfile : withFile.groups[([5] : Str)]? = some ⟨[5], [1], (∅ : StrSet).insert [1], ∅,
      (∅ : StrMap FileMeta).insert [7]
        ⟨[7], 1, [3], [[3]], (∅ : StrMap PeerRef).insert [1] ⟨[1], [6], 80, [255]⟩⟩⟩ := by
    decide +kernel
  have hnone : withoutFile.groups[([5] : Str)]? =
      some ⟨[5], [1], (∅ : StrSet).insert [1], ∅, ∅⟩ := by
    decide +kernel
  have hout : withFile.Outside [5] [2] := by
    refine ⟨_, hfile, by decide +kernel, fun fname fm hfm => ?_⟩
    rw [Std.ExtTreeMap.getElem?_insert] at hfm
    split at hfm
    · obtain rfl := Option.some.inj hfm
      decide +kernel
    · simp at hfm
  have hout' : withoutFile.Outside [5] [2] :=
    ⟨_, hnone, by decide +kernel, fun fname fm hfm => by simp at hfm⟩
  exact (outsider_learns_nothing id hwith hwithout (by decide +kernel) hout hout' rfl curious
    (by decide +kernel)).1

end Session

end P2PShare
