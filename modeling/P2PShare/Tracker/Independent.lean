import P2PShare.Lib.Footprint
import P2PShare.Tracker.Sync

/-!
Which ops the trackers may apply in any order.

* `Cell`: the places of a tracker state, its users and its groups.
* `Call.writes` and `Call.looksUp`: the places that a call changes, and the users that it
  looks up besides; `footprint_exec` says that these are all.
* `Call.Apart`: two ops that address different groups, different registrations, or a
  registration and an op that does not look the new user up.
* `apart_comm`: ops that are apart commute, whatever the state and whether they succeed.
-/

namespace P2PShare

/-- A place of the state. -/
inductive Cell
  | user (uid : Str)
  | group (gid : Str)
deriving DecidableEq

/-- What is in a place. -/
def Cell.Value : Cell → Type
  | user _ => Option User
  | group _ => Option Group

/-- The cell of a state. -/
def TrackerState.cell : (k : Cell) → TrackerState → k.Value
  | .user uid, s => s.users[uid]?
  | .group gid, s => s.groups[gid]?

namespace Call

/-- The places that a call may change. A user who logs out stops seeding everywhere. -/
def writes : Call → Set Cell
  | createUser uid _ | login uid _ _ _ => {.user uid}
  | logout uid => {k | k = .user uid ∨ ∃ gid, k = .group gid}
  | createGroup gid _ | joinGroup gid _ | leaveGroup gid _ | acceptRequest gid _ _
  | addFile gid _ _ _ _ | stopShare gid _ _ | updateBitfield gid _ _ _ _ _ => {.group gid}

/-- The users that it only looks up. -/
def looksUp : Call → Set Cell
  | createGroup _ uid | joinGroup _ uid => {.user uid}
  | _ => ∅

end Call

namespace TrackerState

variable {H : Str → Str} {s t : TrackerState} {c : Call}

/-- The cells are all there is. -/
lemma ext_cell (h : ∀ k, cell k s = cell k t) : s = t := by
  refine TrackerState.ext ?_ ?_
  · exact Std.ExtTreeMap.ext_getElem? fun uid => h (.user uid)
  · exact Std.ExtTreeMap.ext_getElem? fun gid => h (.group gid)

variable {k : Cell} {uid gid fname : Str}

lemma cell_setUser (u : User) (hk : k ≠ .user uid) :
    cell k { s with users := s.users.insert uid u } = cell k s := by
  cases k with
  | group g => rfl
  | user v =>
      have hne : ¬ uid = v := fun h => hk (by rw [h])
      show (s.users.insert uid u)[v]? = s.users[v]?
      simp [Std.ExtTreeMap.getElem?_insert, hne]

lemma cell_setGroup (grp : Group) (hk : k ≠ .group gid) :
    cell k (s.setGroup gid grp) = cell k s := by
  cases k with
  | user v => rfl
  | group g =>
      have hne : ¬ gid = g := fun h => hk (by rw [h])
      show (s.groups.insert gid grp)[g]? = s.groups[g]?
      simp [Std.ExtTreeMap.getElem?_insert, hne]

lemma cell_eraseGroup (hk : k ≠ .group gid) :
    cell k { s with groups := s.groups.erase gid } = cell k s := by
  cases k with
  | user v => rfl
  | group g =>
      have hne : ¬ gid = g := fun h => hk (by rw [h])
      show (s.groups.erase gid)[g]? = s.groups[g]?
      simp [Std.ExtTreeMap.getElem?_erase, hne]

/-- **A call leaves the other places as they are.** -/
lemma Ran.frame (h : Ran H s c t) : ∀ k ∉ c.writes, cell k t = cell k s := by
  intro k hk
  cases h with
  | createUser | login => exact cell_setUser _ hk
  | logout =>
      cases k with
      | user v => exact cell_setUser _ fun heq => hk (.inl heq)
      | group g => exact absurd (.inr ⟨g, rfl⟩) hk
  | dissolve => exact cell_eraseGroup hk
  | createGroup | joinGroup | handoff | leave | acceptRequest => exact cell_setGroup _ hk
  | addSeeder | addFile | stopShare | updateBitfield => exact cell_setGroup _ hk

lemma frame_exec : ∀ k ∉ c.writes, cell k (s.exec H c).2 = cell k s := by
  intro k hk
  rcases after_cases H s c with hran | hsame
  · exact hran.frame k hk
  · exact congrArg (cell k) hsame

/-- Two answers are the same, and so is what they leave in these places. -/
def Alike (W : Set Cell) (r r' : Status × TrackerState) : Prop :=
  r.1 = r'.1 ∧ ∀ k ∈ W, cell k r.2 = cell k r'.2

namespace Alike

variable {W : Set Cell} {r₁ r₂ r₁' r₂' : Status × TrackerState} {st : Status}

lemma refused (h : ∀ k ∈ W, cell k s = cell k t) : Alike W (st, s) (st, t) := ⟨rfl, h⟩

lemma setGroup (grp : Group) :
    Alike {.group gid} (st, s.setGroup gid grp) (st, t.setGroup gid grp) := by
  refine ⟨rfl, ?_⟩
  rintro _ rfl
  show (s.groups.insert gid grp)[gid]? = (t.groups.insert gid grp)[gid]?
  simp

lemma eraseGroup : Alike {.group gid} (st, { s with groups := s.groups.erase gid })
    (st, { t with groups := t.groups.erase gid }) := by
  refine ⟨rfl, ?_⟩
  rintro _ rfl
  show (s.groups.erase gid)[gid]? = (t.groups.erase gid)[gid]?
  simp

lemma setUser (u : User) : Alike {.user uid} (st, { s with users := s.users.insert uid u })
    (st, { t with users := t.users.insert uid u }) := by
  refine ⟨rfl, ?_⟩
  rintro _ rfl
  show (s.users.insert uid u)[uid]? = (t.users.insert uid u)[uid]?
  simp

/-- Both sides make the same check. -/
lemma ite {p q : Prop} [Decidable p] [Decidable q] (hpq : p ↔ q) (h₁ : Alike W r₁ r₁')
    (h₂ : Alike W r₂ r₂') : Alike W (if p then r₁ else r₂) (if q then r₁' else r₂') := by
  by_cases hp : p
  · rwa [if_pos hp, if_pos (hpq.mp hp)]
  · rwa [if_neg hp, if_neg fun hq => hp (hpq.mpr hq)]

end Alike

lemma mem_users_congr (h : s.users[uid]? = t.users[uid]?) : uid ∈ s.users ↔ uid ∈ t.users := by
  rw [Std.ExtTreeMap.mem_iff_isSome_getElem?, Std.ExtTreeMap.mem_iff_isSome_getElem?, h]

lemma mem_groups_congr (h : s.groups[gid]? = t.groups[gid]?) : gid ∈ s.groups ↔ gid ∈ t.groups := by
  rw [Std.ExtTreeMap.mem_iff_isSome_getElem?, Std.ExtTreeMap.mem_iff_isSome_getElem?, h]

/-- **The answer of a call and what it makes of its place** are determined by what is
there and by the users that it looks up. -/
lemma alike_exec (h : ∀ k ∈ c.writes ∪ c.looksUp, cell k s = cell k t) :
    Alike c.writes (s.exec H c) (t.exec H c) := by
  have hw : ∀ k ∈ c.writes, cell k s = cell k t := fun k hk => h k (.inl hk)
  cases c with
  | createUser uid pwd =>
      have hu : s.users[uid]? = t.users[uid]? := hw (.user uid) rfl
      exact .ite .rfl (.refused hw) (.ite (mem_users_congr hu) (.refused hw) (.setUser _))
  | login uid pwd ip port =>
      have hu : s.users[uid]? = t.users[uid]? := hw (.user uid) rfl
      rw [exec, exec, login, login, ← hu]
      cases s.users[uid]? with
      | none => exact .refused hw
      | some u => exact .ite .rfl (.refused hw) (.setUser _)
  | logout uid =>
      have hu : s.users[uid]? = t.users[uid]? := hw (.user uid) (.inl rfl)
      rw [exec, exec, logout, logout, ← hu]
      cases s.users[uid]? with
      | none => exact .refused hw
      | some u =>
          refine ⟨rfl, ?_⟩
          -- the account itself, and every group, which may lose an entry of the user
          rintro _ (rfl | ⟨gid, rfl⟩)
          · show (s.users.insert uid _)[uid]? = (t.users.insert uid _)[uid]?
            simp
          · have hg : s.groups[gid]? = t.groups[gid]? := hw (.group gid) (.inr ⟨gid, rfl⟩)
            show (s.groups.map fun _ grp => dropSeeder uid grp)[gid]? =
              (t.groups.map fun _ grp => dropSeeder uid grp)[gid]?
            rw [Std.ExtTreeMap.getElem?_map, Std.ExtTreeMap.getElem?_map, hg]
  | createGroup gid owner =>
      have hg : s.groups[gid]? = t.groups[gid]? := hw (.group gid) rfl
      have hu : s.users[owner]? = t.users[owner]? := h (.user owner) (.inr rfl)
      refine .ite .rfl (.refused hw) (.ite (not_congr (mem_users_congr hu)) (.refused hw) ?_)
      exact .ite (mem_groups_congr hg) (.refused hw) (.setGroup _)
  | joinGroup gid uid =>
      have hg : s.groups[gid]? = t.groups[gid]? := hw (.group gid) rfl
      have hu : s.users[uid]? = t.users[uid]? := h (.user uid) (.inr rfl)
      rw [exec, exec, joinGroup, joinGroup, ← hg]
      refine .ite .rfl (.refused hw) ?_
      cases s.groups[gid]? with
      | none => exact .refused hw
      | some grp =>
          refine .ite (not_congr (mem_users_congr hu)) (.refused hw) ?_
          exact .ite .rfl (.refused hw) (.setGroup _)
  | leaveGroup gid uid =>
      have hg : s.groups[gid]? = t.groups[gid]? := hw (.group gid) rfl
      rw [exec, exec, leaveGroup, leaveGroup, ← hg]
      refine .ite .rfl (.refused hw) ?_
      cases s.groups[gid]? with
      | none => exact .refused hw
      | some grp =>
          refine .ite .rfl (.refused hw) (.ite .rfl ?_ (.setGroup _))
          -- the owner leaves: the group goes, or its least member takes over
          cases (grp.members.erase uid).min? with
          | none => exact .eraseGroup
          | some m => exact .setGroup _
  | acceptRequest gid owner uid =>
      have hg : s.groups[gid]? = t.groups[gid]? := hw (.group gid) rfl
      rw [exec, exec, acceptRequest, acceptRequest, ← hg]
      refine .ite .rfl (.refused hw) ?_
      cases s.groups[gid]? with
      | none => exact .refused hw
      | some grp => exact .ite .rfl (.refused hw) (.ite .rfl (.refused hw) (.setGroup _))
  | addFile gid uid ip port fmeta =>
      have hg : s.groups[gid]? = t.groups[gid]? := hw (.group gid) rfl
      rw [exec, exec, addFile, addFile, ← hg]
      refine .ite .rfl (.refused hw) ?_
      cases s.groups[gid]? with
      | none => exact .refused hw
      | some grp =>
          refine .ite .rfl (.refused hw) ?_
          dsimp only
          -- the first upload under this name, or another one
          cases grp.files[fmeta.name]? with
          | none => exact .setGroup _
          | some fm => exact .ite .rfl (.refused hw) (.setGroup _)
  | stopShare gid uid fname =>
      have hg : s.groups[gid]? = t.groups[gid]? := hw (.group gid) rfl
      rw [exec, exec, stopShare, stopShare, ← hg]
      refine .ite .rfl (.refused hw) ?_
      cases s.groups[gid]? with
      | none => exact .refused hw
      | some grp =>
          dsimp only
          cases grp.files[fname]? with
          | none => exact .refused hw
          | some fm => exact .ite .rfl (.refused hw) (.setGroup _)
  | updateBitfield gid uid ip port fname bits =>
      have hg : s.groups[gid]? = t.groups[gid]? := hw (.group gid) rfl
      rw [exec, exec, updateBitfield, updateBitfield, ← hg]
      refine .ite .rfl (.refused hw) ?_
      cases s.groups[gid]? with
      | none => exact .refused hw
      | some grp =>
          refine .ite .rfl (.refused hw) ?_
          dsimp only
          cases grp.files[fname]? with
          | none => exact .refused hw
          | some fm => exact .setGroup _

/-- **The footprint of a call.** -/
lemma footprint_exec (H : Str → Str) (c : Call) :
    Footprint cell (fun s => s.exec H c) c.writes c.looksUp where
  frame _ := frame_exec
  reply _ _ h := (alike_exec h).1
  result _ _ h := (alike_exec h).2

end TrackerState

/-! ### Ops that are apart -/

/-- The group that a call addresses. -/
def Call.group : Call → Option Str
  | createUser .. | login .. | logout .. => none
  | createGroup gid _ | joinGroup gid _ | leaveGroup gid _ | acceptRequest gid _ _
  | addFile gid _ _ _ _ | stopShare gid _ _ | updateBitfield gid _ _ _ _ _ => some gid

/-- The call needs `uid` to be registered: `uid` creates or joins a group. -/
def Call.NeedsUser (uid : Str) : Call → Prop
  | createGroup _ owner => owner = uid
  | joinGroup _ u => u = uid
  | _ => False

/-- **Ops that are apart**: they address different groups, or register different users, or
one registers a user whom the other does not need. -/
inductive Call.Apart : Call → Call → Prop
  | groups {c d : Call} {g g' : Str} (hc : c.group = some g) (hd : d.group = some g')
      (hne : g ≠ g') : Apart c d
  | users {u v p q : Str} (hne : u ≠ v) : Apart (.createUser u p) (.createUser v q)
  | userGroup {u p g : Str} {d : Call} (hd : d.group = some g) (hneed : ¬ d.NeedsUser u) :
      Apart (.createUser u p) d
  | groupUser {u p g : Str} {c : Call} (hc : c.group = some g) (hneed : ¬ c.NeedsUser u) :
      Apart c (.createUser u p)

namespace TrackerState

variable {H : Str → Str} {s : TrackerState} {c d : Call}

lemma writes_of_group {g : Str} (h : c.group = some g) : c.writes = {.group g} := by
  cases c <;> simp_all [Call.group, Call.writes]

lemma needsUser_of_mem {k : Cell} (h : k ∈ c.looksUp) :
    ∃ uid, k = .user uid ∧ c.NeedsUser uid := by
  cases c with
  | createGroup _ owner => exact ⟨owner, h, rfl⟩
  | joinGroup _ uid => exact ⟨uid, h, rfl⟩
  | _ => cases h

/-- A call that addresses a group looks up users only. -/
lemma eq_group_of_mem {g : Str} (h : c.group = some g) {k : Cell} (hk : k ∈ c.writes ∪ c.looksUp) :
    k = .group g ∨ ∃ uid, k = .user uid ∧ c.NeedsUser uid := by
  rcases hk with hk | hk
  · rw [writes_of_group h] at hk
    exact .inl hk
  · exact .inr (needsUser_of_mem hk)

/-- **No op changes what one that is apart from it looks at.** -/
lemma disjoint_of_apart (h : c.Apart d) : Disjoint c.writes (d.writes ∪ d.looksUp) := by
  rw [Set.disjoint_left]
  intro k hk hk'
  cases h with
  | groups hc hd hne =>
      rw [writes_of_group hc] at hk
      obtain rfl : k = .group _ := hk
      rcases eq_group_of_mem hd hk' with heq | ⟨uid, heq, -⟩
      · exact hne (Cell.group.inj heq)
      · cases heq
  | users hne =>
      obtain rfl : k = .user _ := hk
      rcases hk' with heq | hlook
      · exact hne (Cell.user.inj heq)
      · cases hlook
  | userGroup hd hneed =>
      obtain rfl : k = .user _ := hk
      rcases eq_group_of_mem hd hk' with heq | ⟨uid, heq, hneeds⟩
      · cases heq
      · rw [← Cell.user.inj heq] at hneeds
        exact hneed hneeds
  | groupUser hc _ =>
      rw [writes_of_group hc] at hk
      obtain rfl : k = .group _ := hk
      rcases hk' with heq | hlook
      · cases heq
      · cases hlook

end TrackerState

lemma Call.Apart.symm {c d : Call} (h : c.Apart d) : d.Apart c := by
  cases h with
  | groups hc hd hne => exact .groups hd hc hne.symm
  | users hne => exact .users hne.symm
  | userGroup hd hneed => exact .groupUser hd hneed
  | groupUser hc hneed => exact .userGroup hc hneed

open TrackerState

variable {H : Str → Str} {s : TrackerState} {c d : Call}

/-- Calls that are apart commute, and each is answered as if it came first. -/
lemma apart_comm (H : Str → Str) (s : TrackerState) (h : c.Apart d) :
    ((s.after H c).exec H d).1 = (s.exec H d).1 ∧ ((s.after H d).exec H c).1 = (s.exec H c).1 ∧
      (s.after H c).after H d = (s.after H d).after H c :=
  Footprint.comm (fun _ _ => ext_cell) (footprint_exec H c) (footprint_exec H d)
    (disjoint_of_apart h) (disjoint_of_apart h.symm) s

lemma applyRemote_of_opCall {op : Op} (hc : opCall op.type op.payload = some c) (s : TrackerState) :
    applyRemote H s op = (decide ((s.exec H c).1 ∈ accepts c), s.after H c) := by
  rw [applyRemote, hc]

/-- **Ops on different groups commute**, and so do registrations with the registration of
other users and with whatever does not need the new user: in both orders the state is the
same, and each op meets the same status and counts as applied alike. -/
theorem ops_comm (H : Str → Str) (s : TrackerState) {o p : Op}
    (hc : opCall o.type o.payload = some c) (hd : opCall p.type p.payload = some d)
    (h : c.Apart d) :
    (applyRemote H (applyRemote H s o).2 p).2 = (applyRemote H (applyRemote H s p).2 o).2 ∧
      ((applyRemote H s o).2.exec H d).1 = (s.exec H d).1 ∧
      ((applyRemote H s p).2.exec H c).1 = (s.exec H c).1 ∧
      (applyRemote H (applyRemote H s o).2 p).1 = (applyRemote H s p).1 ∧
      (applyRemote H (applyRemote H s p).2 o).1 = (applyRemote H s o).1 := by
  obtain ⟨hstd, hstc, hstate⟩ := apart_comm H s h
  simp only [applyRemote_of_opCall hc, applyRemote_of_opCall hd]
  exact ⟨hstate, hstd, hstc, by rw [hstd], by rw [hstc]⟩

/-- Two groups are created. -/
theorem ops_comm_twoGroups :
    let s := TrackerState.init.after id (.createUser [1] [2])
    let o : Op := ⟨1, MsgType.createGroup.code, putStr [5] ++ putStr [1], 0⟩
    let p : Op := ⟨2, MsgType.createGroup.code, putStr [6] ++ putStr [1], 0⟩
    (applyRemote id (applyRemote id s o).2 p).2 = (applyRemote id (applyRemote id s p).2 o).2 := by
  intro s o p
  have hc : opCall o.type o.payload = some (.createGroup [5] [1]) := by decide +kernel
  have hd : opCall p.type p.payload = some (.createGroup [6] [1]) := by decide +kernel
  exact (ops_comm id s hc hd (.groups rfl rfl (by decide))).1

end P2PShare
