import P2PShare.Tracker.Snapshot

/-!
The group table invariant of a `TrackerState`.

* `Group.Ok`: the owner is a member, no member has a pending request, members
  and requesters are users, and the keys of the files and seeders match.
* `TrackerState.WellFormed`: the keys of the users and groups match and every
  group is `Ok`.
* `Ran.wellFormed` is the step lemma, one case for each way an operation
  succeeds; `reachable_wellFormed` (**the invariant**) follows by induction on
  the run, a restore being one of its steps.
-/

namespace P2PShare

/-! ### One group -/

/-- What holds of a group in a tracker with these users. -/
structure Group.Ok (users : StrMap User) (grp : Group) : Prop where
  owner : grp.owner ∈ grp.members
  disjoint : ∀ uid ∈ grp.members, uid ∉ grp.pending
  member : ∀ uid ∈ grp.members, uid ∈ users
  request : ∀ uid ∈ grp.pending, uid ∈ users
  keys : grp.KeysMatch

namespace Group.Ok

variable {users : StrMap User} {grp : Group}

/-- More users do no harm. -/
lemma mono {users' : StrMap User} (h : grp.Ok users) (hsub : ∀ uid ∈ users, uid ∈ users') :
    grp.Ok users' :=
  { h with
    member := fun uid hu => hsub uid (h.member uid hu)
    request := fun uid hu => hsub uid (h.request uid hu) }

/-- A user who is not a member asks to join. -/
lemma join (h : grp.Ok users) {uid : Str} (huser : uid ∈ users) (hmem : uid ∉ grp.members) :
    Group.Ok users { grp with pending := grp.pending.insert uid } where
  owner := h.owner
  disjoint := by
    intro v hv hp
    rcases Std.ExtTreeSet.mem_insert.mp hp with heq | hp
    · obtain rfl : uid = v := by simpa using heq
      exact hmem hv
    · exact h.disjoint v hv hp
  member := h.member
  request := by
    intro v hp
    rcases Std.ExtTreeSet.mem_insert.mp hp with heq | hp
    · obtain rfl : uid = v := by simpa using heq
      exact huser
    · exact h.request v hp
  keys := ⟨h.keys.files, h.keys.seeders⟩

/-- A member leaves, and one who stays owns the group. -/
lemma leave (h : grp.Ok users) {uid owner : Str} (howner : owner ∈ grp.members.erase uid) :
    Group.Ok users { grp with members := grp.members.erase uid, owner := owner } where
  owner := howner
  disjoint v hv := h.disjoint v (Std.ExtTreeSet.mem_of_mem_erase hv)
  member v hv := h.member v (Std.ExtTreeSet.mem_of_mem_erase hv)
  request := h.request
  keys := ⟨h.keys.files, h.keys.seeders⟩

/-- A pending user becomes a member. -/
lemma accept (h : grp.Ok users) {uid : Str} (hpend : uid ∈ grp.pending) :
    Group.Ok users
      { grp with pending := grp.pending.erase uid, members := grp.members.insert uid } where
  owner := Std.ExtTreeSet.mem_insert.mpr (.inr h.owner)
  disjoint := by
    intro v hv hp
    obtain ⟨hne, hp⟩ := Std.ExtTreeSet.mem_erase.mp hp
    rcases Std.ExtTreeSet.mem_insert.mp hv with heq | hv
    · exact hne heq
    · exact h.disjoint v hv hp
  member := by
    intro v hv
    rcases Std.ExtTreeSet.mem_insert.mp hv with heq | hv
    · obtain rfl : uid = v := by simpa using heq
      exact h.request uid hpend
    · exact h.member v hv
  request v hp := h.request v (Std.ExtTreeSet.mem_of_mem_erase hp)
  keys := ⟨h.keys.files, h.keys.seeders⟩

/-- Files whose keys match replace the files. -/
lemma setFiles (h : grp.Ok users) {files : StrMap FileMeta}
    (hfiles : Group.KeysMatch { grp with files := files }) :
    Group.Ok users { grp with files := files } :=
  ⟨h.owner, h.disjoint, h.member, h.request, hfiles⟩

end Group.Ok

/-- A file with matching seeders is stored under its name. -/
lemma Group.KeysMatch.setFile {grp : Group} (h : grp.KeysMatch) {fname : Str} {fm : FileMeta}
    (hname : fm.name = fname) (hseed : Keyed PeerRef.userId fm.seeders) :
    Group.KeysMatch { grp with files := grp.files.insert fname fm } where
  files := h.files.insert hname
  seeders := by
    intro k fm' hfm'
    rw [Std.ExtTreeMap.getElem?_insert] at hfm'
    by_cases hk : fname = k
    · obtain rfl : fm = fm' := by simpa [hk] using hfm'
      exact hseed
    · exact h.seeders k fm' (by simpa [hk] using hfm')

/-- Removing one user's seeder entries keeps the keys. -/
lemma Group.KeysMatch.dropSeeder {grp : Group} (h : grp.KeysMatch) (uid : Str) :
    (TrackerState.dropSeeder uid grp).KeysMatch where
  files := h.files.map fun _ _ => rfl
  seeders := by
    intro k fm hfm
    rw [TrackerState.dropSeeder, Std.ExtTreeMap.getElem?_map] at hfm
    obtain ⟨fm₀, hfm₀, rfl⟩ := Option.map_eq_some_iff.mp hfm
    exact (h.seeders k fm₀ hfm₀).erase uid

namespace TrackerState

/-! ### The state -/

/-- **The group table invariant.** -/
structure WellFormed (s : TrackerState) : Prop where
  users : Keyed User.id s.users
  groups : Keyed Group.id s.groups
  group : ∀ (gid : Str) (grp : Group), s.groups[gid]? = some grp → grp.Ok s.users

namespace WellFormed

variable {s : TrackerState}

lemma init : WellFormed init where
  users := keyed_empty _
  groups := keyed_empty _
  group gid grp hgrp := by simp [TrackerState.init] at hgrp

lemma keysMatch (hs : s.WellFormed) : s.KeysMatch :=
  ⟨hs.users, hs.groups, fun gid grp hgrp => (hs.group gid grp hgrp).keys⟩

/-- A user entry is written under its own id. -/
lemma setUser (hs : s.WellFormed) {uid : Str} {u : User} (hu : u.id = uid) :
    WellFormed { s with users := s.users.insert uid u } where
  users := hs.users.insert hu
  groups := hs.groups
  group gid grp hgrp := (hs.group gid grp hgrp).mono fun _ hv =>
    Std.ExtTreeMap.mem_insert.mpr (.inr hv)

/-- A group that is `Ok` is written under its own id. -/
lemma setGroup (hs : s.WellFormed) {gid : Str} {grp : Group} (hid : grp.id = gid)
    (hgrp : grp.Ok s.users) : (s.setGroup gid grp).WellFormed where
  users := hs.users
  groups := hs.groups.insert hid
  group k grp' hgrp' := by
    rw [TrackerState.setGroup, Std.ExtTreeMap.getElem?_insert] at hgrp'
    by_cases hk : gid = k
    · obtain rfl : grp = grp' := by simpa [hk] using hgrp'
      exact hgrp
    · exact hs.group k grp' (by simpa [hk] using hgrp')

/-- A group disappears. -/
lemma eraseGroup (hs : s.WellFormed) (gid : Str) :
    WellFormed { s with groups := s.groups.erase gid } where
  users := hs.users
  groups := hs.groups.erase gid
  group k grp hgrp := by
    rw [Std.ExtTreeMap.getElem?_erase] at hgrp
    by_cases hk : gid = k
    · simp [hk] at hgrp
    · exact hs.group k grp (by simpa [hk] using hgrp)

/-- A file with matching keys is written under its name. -/
lemma setFile (hs : s.WellFormed) {gid fname : Str} {grp : Group} {fm : FileMeta}
    (hgrp : s.groups[gid]? = some grp) (hname : fm.name = fname)
    (hseed : Keyed PeerRef.userId fm.seeders) : (s.setFile gid grp fname fm).WellFormed := by
  have hok := hs.group gid grp hgrp
  exact hs.setGroup (hs.groups gid grp hgrp) (hok.setFiles (hok.keys.setFile hname hseed))

/-- A user stops seeding everywhere. -/
lemma dropSeeders (hs : s.WellFormed) (uid : Str) :
    WellFormed { s with groups := s.groups.map fun _ grp => dropSeeder uid grp } where
  users := hs.users
  groups := hs.groups.map fun _ _ => rfl
  group k grp hgrp := by
    rw [Std.ExtTreeMap.getElem?_map] at hgrp
    obtain ⟨grp₀, hgrp₀, rfl⟩ := Option.map_eq_some_iff.mp hgrp
    have hok := hs.group k grp₀ hgrp₀
    exact hok.setFiles (hok.keys.dropSeeder uid)

end WellFormed

/-- A tracker that is not empty has a user: the owner of a group is one. -/
lemma WellFormed.exists_user {s : TrackerState} (hs : s.WellFormed) (hfull : s.isEmpty = false) :
    ∃ uid, uid ∈ s.users := by
  by_contra hnone
  have husers : s.users = ∅ :=
    Std.ExtTreeMap.eq_empty_iff_forall_not_mem.mpr fun uid huid => hnone ⟨uid, huid⟩
  have hgroups : s.groups = ∅ := by
    refine Std.ExtTreeMap.eq_empty_iff_forall_not_mem.mpr fun gid hgid => ?_
    have hgrp := hs.group gid _ (Std.ExtTreeMap.getElem?_eq_some_getElem hgid)
    exact hnone ⟨_, hgrp.member _ hgrp.owner⟩
  rw [isEmpty, husers, hgroups] at hfull
  simp at hfull

/-! ### Steps and runs -/

variable {H : Str → Str} {s s' : TrackerState} {c : Call}

/-- **Step lemma**: a successful call keeps the invariant. -/
theorem Ran.wellFormed (hran : Ran H s c s') (hs : s.WellFormed) : s'.WellFormed := by
  cases hran with
  | createUser => exact hs.setUser rfl
  | login hu =>
      have hid := hs.users _ _ hu
      exact hs.setUser hid
  | @logout uid u hu =>
      have hid := hs.users _ _ hu
      have hset : WellFormed { s with users := s.users.insert uid { u with online := false } } :=
        hs.setUser hid
      exact hset.dropSeeders uid
  | createGroup _ _ huser =>
      -- the owner is the only member of a new group, and an account
      refine hs.setGroup rfl ⟨?_, ?_, ?_, ?_, keyed_empty _, ?_⟩
      · exact Std.ExtTreeSet.mem_insert_self
      · intro v _ hp
        simp at hp
      · intro v hv
        rcases Std.ExtTreeSet.mem_insert.mp hv with heq | hv
        · rwa [← Std.LawfulEqCmp.eq_of_compare heq]
        · simp at hv
      · intro v hp
        simp at hp
      · intro k fm hfm
        simp at hfm
  | joinGroup _ _ hg huser hmem =>
      have hid := hs.groups _ _ hg
      exact hs.setGroup hid ((hs.group _ _ hg).join huser hmem)
  | dissolve => exact hs.eraseGroup _
  | handoff _ _ hg _ _ hmin =>
      have hid := hs.groups _ _ hg
      -- the heir is one of those who stay
      have hmem := (Std.ExtTreeSet.min?_eq_some_iff_mem_and_forall.mp hmin).1
      exact hs.setGroup hid ((hs.group _ _ hg).leave hmem)
  | leave _ _ hg _ howner =>
      have hid := hs.groups _ _ hg
      have hok := hs.group _ _ hg
      have hmem := Std.ExtTreeSet.mem_erase.mpr ⟨by simpa using howner, hok.owner⟩
      exact hs.setGroup hid (hok.leave hmem)
  | acceptRequest _ _ _ hg _ hpend =>
      have hid := hs.groups _ _ hg
      exact hs.setGroup hid ((hs.group _ _ hg).accept hpend)
  | addSeeder _ _ _ hg _ hf =>
      have hkeys := (hs.group _ _ hg).keys
      have hname := hkeys.files _ _ hf
      exact hs.setFile hg hname ((hkeys.seeders _ _ hf).insert rfl)
  | addFile _ _ _ hg => exact hs.setFile hg rfl ((keyed_empty _).insert rfl)
  | stopShare _ _ _ hg hf =>
      have hkeys := (hs.group _ _ hg).keys
      have hname := hkeys.files _ _ hf
      exact hs.setFile hg hname ((hkeys.seeders _ _ hf).erase _)
  | updateBitfield _ _ _ hg _ hf =>
      have hkeys := (hs.group _ _ hg).keys
      have hname := hkeys.files _ _ hf
      exact hs.setFile hg hname ((hkeys.seeders _ _ hf).insert rfl)

/-- Any call keeps the invariant, whatever it answers. -/
lemma WellFormed.after (hs : s.WellFormed) (c : Call) : (s.after H c).WellFormed := by
  rcases after_cases H s c with hran | heq
  · exact hran.wellFormed hs
  · rw [heq]
    exact hs

/-- The states of a tracker: it starts empty, runs calls in any order, and
loads snapshots of such states. -/
inductive Reachable (H : Str → Str) : TrackerState → Prop
  | init : Reachable H init
  | call {s : TrackerState} (hs : Reachable H s) (c : Call) : Reachable H (s.after H c)
  | restore {s t : TrackerState} (ht : Reachable H t) (hs : Reachable H s) (hfits : s.Fits) :
      Reachable H (t.restore s.snapshot).2

/-- **The group table invariant holds in every reachable state.** -/
theorem reachable_wellFormed (hs : Reachable H s) : s.WellFormed := by
  induction hs with
  | init => exact .init
  | call _ c ih => exact ih.after c
  | restore _ _ hfits _ ih =>
      rw [TrackerState.restore, decode_snapshot ih.keysMatch hfits]
      exact ih

/-- A state with a group of two members, loaded from its snapshot by another
tracker, and the owner leaving there. -/
theorem reachable_wellFormed_restored :
    let calls : List Call := [.createUser [1] [2], .createUser [3] [4], .createGroup [5] [1],
      .joinGroup [5] [3], .acceptRequest [5] [1] [3]]
    let s := calls.foldl (TrackerState.after id) TrackerState.init
    TrackerState.WellFormed
      ((TrackerState.init.restore s.snapshot).2.after id (.leaveGroup [5] [1])) :=
  reachable_wellFormed (.call
    (.restore .init (.call (.call (.call (.call (.call .init _) _) _) _) _)
    (fits_of_length_snapshot (by decide))) _)

end TrackerState

end P2PShare
