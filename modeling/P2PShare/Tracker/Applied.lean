import P2PShare.Tracker.Payload

/-!
What it means that `apply_remote` has succeeded.

* `Tolerated`: what each refusal that counts as success says of the state;
  `applied_cases` says that there are no others.
* `Effect`: what an op is for; `Unopposed` is the condition under which no other change
  stands against it.
* `effect_iff_unopposed`: an op that was applied has its effect exactly when it was
  unopposed.
* `reapplied_iff`: an op that was applied can be applied again, and then changes nothing,
  exactly when it did not dissolve its group.
-/

namespace P2PShare

namespace TrackerState

variable {H : Str → Str} {s s' : TrackerState} {c : Call}

/-! ### Accepted refusals -/

/-- **What a refusal that counts as success says of the state**, one constructor for each
op that has one. -/
inductive Tolerated (s : TrackerState) : Call → Prop
  | createUser {uid pwd : Str} (huid : uid ≠ []) (hpwd : pwd ≠ []) (hold : uid ∈ s.users) :
      Tolerated s (.createUser uid pwd)
  | createGroup {gid owner : Str} (hgid : gid ≠ []) (howner : owner ≠ [])
      (huser : owner ∈ s.users) (hold : gid ∈ s.groups) : Tolerated s (.createGroup gid owner)
  | joinGroup {gid uid : Str} {grp : Group} (hgid : gid ≠ []) (huid : uid ≠ [])
      (hg : s.groups[gid]? = some grp) (huser : uid ∈ s.users)
      (hold : uid ∈ grp.members ∨ uid ∈ grp.pending) : Tolerated s (.joinGroup gid uid)
  | leaveGroup {gid uid : Str} {grp : Group} (hgid : gid ≠ []) (huid : uid ≠ [])
      (hg : s.groups[gid]? = some grp) (hout : uid ∉ grp.members) :
      Tolerated s (.leaveGroup gid uid)
  | acceptRequest {gid owner uid : Str} (hgid : gid ≠ []) (hown : owner ≠ []) (huid : uid ≠ [])
      (hgone : ∀ grp, s.groups[gid]? = some grp → grp.owner = owner ∧ uid ∉ grp.pending) :
      Tolerated s (.acceptRequest gid owner uid)
  | addFile {gid uid ip : Str} {port : UInt16} {fmeta : FileMeta} {grp : Group} {fm : FileMeta}
      (hgid : gid ≠ []) (huid : uid ≠ []) (hname : fmeta.name ≠ [])
      (hg : s.groups[gid]? = some grp) (hmem : uid ∈ grp.members)
      (hf : grp.files[fmeta.name]? = some fm) (hhash : fm.fileHash ≠ fmeta.fileHash) :
      Tolerated s (.addFile gid uid ip port fmeta)
  | stopShare {gid uid fname : Str} (hgid : gid ≠ []) (huid : uid ≠ []) (hname : fname ≠ [])
      (hgone : ∀ grp fm, s.groups[gid]? = some grp → grp.files[fname]? = some fm →
        uid ∉ fm.seeders) :
      Tolerated s (.stopShare gid uid fname)

/-- Each case of `Tolerated` is a refusal that counts as success. -/
lemma Tolerated.status (h : Tolerated s c) :
    (s.exec H c).1 ∈ accepts c ∧ (s.exec H c).1 ≠ .ok := by
  cases h with
  | createUser huid hpwd hold => simp [exec, TrackerState.createUser, accepts, huid, hpwd, hold]
  | createGroup hgid howner huser hold =>
      simp [exec, TrackerState.createGroup, accepts, hgid, howner, huser, hold]
  | joinGroup hgid huid hg huser hold =>
      simp [exec, TrackerState.joinGroup, accepts, hgid, huid, hg, huser, hold]
  | leaveGroup hgid huid hg hout =>
      simp [exec, TrackerState.leaveGroup, accepts, hgid, huid, hg, hout]
  | @acceptRequest gid owner uid hgid hown huid hgone =>
      cases hg : s.groups[gid]? with
      | none => simp [exec, TrackerState.acceptRequest, accepts, hgid, hown, huid, hg]
      | some grp =>
          obtain ⟨howner, hpend⟩ := hgone grp hg
          simp [exec, TrackerState.acceptRequest, accepts, hgid, hown, huid, hg, howner, hpend]
  | addFile hgid huid hname hg hmem hf hhash =>
      simp [exec, TrackerState.addFile, accepts, hgid, huid, hname, hg, hmem, hf, hhash]
  | @stopShare gid uid fname hgid huid hname hgone =>
      cases hg : s.groups[gid]? with
      | none => simp [exec, TrackerState.stopShare, accepts, hgid, huid, hname, hg]
      | some grp =>
          cases hf : grp.files[fname]? with
          | none => simp [exec, TrackerState.stopShare, accepts, hgid, huid, hname, hg, hf]
          | some fm =>
              have hseed := hgone grp fm hg hf
              simp [exec, TrackerState.stopShare, accepts, hgid, huid, hname, hg, hf, hseed]

/-- A status that counts as success is that of a call that was carried out, or of one that is
tolerated. -/
def Excused (s : TrackerState) (c : Call) (st : Status) : Prop :=
  st ∈ accepts c → st ≠ .ok → Tolerated s c

lemma Excused.ok : Excused s c .ok := fun _ hne => absurd rfl hne

lemma Excused.of_not_mem {st : Status} (h : st ∉ accepts c) : Excused s c st :=
  fun hacc => absurd hacc h

lemma createUser_excused (uid pwd : Str) :
    Excused s (.createUser uid pwd) (s.createUser H uid pwd).1 := by
  rw [createUser]
  split
  · exact .of_not_mem (by simp [accepts])
  · next h1 =>
      rw [not_or] at h1
      split
      · next hold => exact fun _ _ => .createUser h1.1 h1.2 hold
      · exact .ok

lemma createGroup_excused (gid owner : Str) :
    Excused s (.createGroup gid owner) (s.createGroup gid owner).1 := by
  rw [createGroup]
  split
  · exact .of_not_mem (by simp [accepts])
  · next h1 =>
      rw [not_or] at h1
      split
      · exact .of_not_mem (by simp [accepts])
      · next huser =>
          split
          · next hold => exact fun _ _ => .createGroup h1.1 h1.2 (not_not.mp huser) hold
          · exact .ok

lemma joinGroup_excused (gid uid : Str) :
    Excused s (.joinGroup gid uid) (s.joinGroup gid uid).1 := by
  rw [joinGroup]
  split
  · exact .of_not_mem (by simp [accepts])
  · next h1 =>
      rw [not_or] at h1
      split
      · exact .of_not_mem (by simp [accepts])
      · next grp hg =>
          split
          · exact .of_not_mem (by simp [accepts])
          · next huser =>
              split
              · next hold => exact fun _ _ => .joinGroup h1.1 h1.2 hg (not_not.mp huser) hold
              · exact .ok

lemma leaveGroup_excused (gid uid : Str) :
    Excused s (.leaveGroup gid uid) (s.leaveGroup gid uid).1 := by
  rw [leaveGroup]
  split
  · exact .of_not_mem (by simp [accepts])
  · next h1 =>
      rw [not_or] at h1
      split
      · exact .of_not_mem (by simp [accepts])
      · next grp hg =>
          split
          · next hout => exact fun _ _ => .leaveGroup h1.1 h1.2 hg hout
          · split
            · split
              · exact .ok
              · exact .ok
            · exact .ok

lemma acceptRequest_excused (gid owner uid : Str) :
    Excused s (.acceptRequest gid owner uid) (s.acceptRequest gid owner uid).1 := by
  rw [acceptRequest]
  split
  · exact .of_not_mem (by simp [accepts])
  · next h1 =>
      rw [not_or, not_or] at h1
      split
      · next hg =>
          refine fun _ _ => .acceptRequest h1.1 h1.2.1 h1.2.2 fun grp hgrp => ?_
          rw [hg] at hgrp
          cases hgrp
      · next grp hg =>
          split
          · exact .of_not_mem (by simp [accepts])
          · next howner =>
              split
              · next hpend =>
                  refine fun _ _ => .acceptRequest h1.1 h1.2.1 h1.2.2 fun grp' hgrp => ?_
                  obtain rfl := Option.some.inj (hg.symm.trans hgrp)
                  exact ⟨not_not.mp howner, hpend⟩
              · exact .ok

lemma addFile_excused (gid uid ip : Str) (port : UInt16) (fmeta : FileMeta) :
    Excused s (.addFile gid uid ip port fmeta) (s.addFile gid uid ip port fmeta).1 := by
  rw [addFile]
  split
  · exact .of_not_mem (by simp [accepts])
  · next h1 =>
      rw [not_or, not_or] at h1
      split
      · exact .of_not_mem (by simp [accepts])
      · next grp hg =>
          split
          · exact .of_not_mem (by simp [accepts])
          · next hmem =>
              dsimp only
              split
              · next fm hf =>
                  split
                  · next hhash =>
                      exact fun _ _ => .addFile h1.1 h1.2.1 h1.2.2 hg (not_not.mp hmem) hf hhash
                  · exact .ok
              · exact .ok

lemma stopShare_excused (gid uid fname : Str) :
    Excused s (.stopShare gid uid fname) (s.stopShare gid uid fname).1 := by
  rw [stopShare]
  split
  · exact .of_not_mem (by simp [accepts])
  · next h1 =>
      rw [not_or, not_or] at h1
      split
      · next hg =>
          refine fun _ _ => .stopShare h1.1 h1.2.1 h1.2.2 fun grp fm hgrp => ?_
          rw [hg] at hgrp
          cases hgrp
      · next grp hg =>
          split
          · next hf =>
              refine fun _ _ => .stopShare h1.1 h1.2.1 h1.2.2 fun grp' fm hgrp hfm => ?_
              obtain rfl := Option.some.inj (hg.symm.trans hgrp)
              rw [hf] at hfm
              cases hfm
          · next fm hf =>
              split
              · next hseed =>
                  refine fun _ _ => .stopShare h1.1 h1.2.1 h1.2.2 fun grp' fm' hgrp hfm => ?_
                  obtain rfl := Option.some.inj (hg.symm.trans hgrp)
                  obtain rfl := Option.some.inj (hf.symm.trans hfm)
                  exact hseed
              · exact .ok

/-- **The refusals that count as success** are those of `Tolerated`. -/
lemma exec_excused (H : Str → Str) (s : TrackerState) (c : Call) :
    Excused s c (s.exec H c).1 := by
  cases c with
  | createUser uid pwd => exact createUser_excused uid pwd
  | createGroup gid owner => exact createGroup_excused gid owner
  | joinGroup gid uid => exact joinGroup_excused gid uid
  | leaveGroup gid uid => exact leaveGroup_excused gid uid
  | acceptRequest gid owner uid => exact acceptRequest_excused gid owner uid
  | addFile gid uid ip port fmeta => exact addFile_excused gid uid ip port fmeta
  | stopShare gid uid fname => exact stopShare_excused gid uid fname
  | updateBitfield | login | logout => exact fun hacc hne => absurd hacc (by simp [accepts, hne])

/-- **The two ways an op is applied**: it is carried out, or a refusal counts as success
and changes nothing. -/
lemma applied_cases (h : (s.exec H c).1 ∈ accepts c) :
    Ran H s c (s.after H c) ∨ Tolerated s c ∧ s.after H c = s := by
  rcases exec_cases (rfl : s.exec H c = ((s.exec H c).1, (s.exec H c).2)) with
    ⟨-, hran⟩ | ⟨hne, hs⟩
  · exact .inl hran
  · exact .inr ⟨exec_excused H s c h hne, hs⟩

lemma Ran.applied (h : Ran H s c s') (hacc : Status.ok ∈ accepts c) :
    (s.exec H c).1 ∈ accepts c ∧ s.after H c = s' := by
  rw [after, h.exec_eq]
  exact ⟨hacc, rfl⟩

/-! ### The effect of an op -/

/-- **What an op is for**, in the state after it. -/
def Effect (H : Str → Str) (s : TrackerState) : Call → Prop
  | .createUser uid pwd => ∃ u ∈ s.users[uid]?, u.password = H pwd
  | .createGroup gid _ => gid ∈ s.groups
  | .joinGroup gid uid => ∃ grp ∈ s.groups[gid]?, uid ∈ grp.pending ∨ uid ∈ grp.members
  | .leaveGroup gid uid => ∀ grp ∈ s.groups[gid]?, uid ∉ grp.members
  | .acceptRequest gid _ uid => ∃ grp ∈ s.groups[gid]?, uid ∈ grp.members
  | .addFile gid uid _ _ fmeta =>
      ∃ grp ∈ s.groups[gid]?, ∃ fm ∈ grp.files[fmeta.name]?,
        fm.fileHash = fmeta.fileHash ∧ uid ∈ fm.seeders
  | .stopShare gid uid fname =>
      ∀ grp ∈ s.groups[gid]?, ∀ fm ∈ grp.files[fname]?, uid ∉ fm.seeders
  | .updateBitfield gid uid _ _ fname bits =>
      ∃ grp ∈ s.groups[gid]?, ∃ fm ∈ grp.files[fname]?, ∃ pr ∈ fm.seeders[uid]?, pr.bitfield = bits
  | .login .. | .logout .. => True

instance decidableEffect : ∀ c, Decidable (Effect H s c)
  | .createUser uid pwd => inferInstanceAs (Decidable (∃ u ∈ s.users[uid]?, u.password = H pwd))
  | .createGroup gid _ => inferInstanceAs (Decidable (gid ∈ s.groups))
  | .joinGroup gid uid =>
      inferInstanceAs (Decidable (∃ grp ∈ s.groups[gid]?, uid ∈ grp.pending ∨ uid ∈ grp.members))
  | .leaveGroup gid uid => inferInstanceAs (Decidable (∀ grp ∈ s.groups[gid]?, uid ∉ grp.members))
  | .acceptRequest gid _ uid =>
      inferInstanceAs (Decidable (∃ grp ∈ s.groups[gid]?, uid ∈ grp.members))
  | .addFile gid uid _ _ fmeta =>
      inferInstanceAs (Decidable (∃ grp ∈ s.groups[gid]?, ∃ fm ∈ grp.files[fmeta.name]?,
        fm.fileHash = fmeta.fileHash ∧ uid ∈ fm.seeders))
  | .stopShare gid uid fname =>
      inferInstanceAs (Decidable (∀ grp ∈ s.groups[gid]?, ∀ fm ∈ grp.files[fname]?,
        uid ∉ fm.seeders))
  | .updateBitfield gid uid _ _ fname bits =>
      inferInstanceAs (Decidable (∃ grp ∈ s.groups[gid]?, ∃ fm ∈ grp.files[fname]?,
        ∃ pr ∈ fm.seeders[uid]?, pr.bitfield = bits))
  | .login .. | .logout .. => .isTrue trivial

@[simp] lemma getElem?_setGroup_self (gid : Str) (grp : Group) :
    (s.setGroup gid grp).groups[gid]? = some grp := by
  simp [setGroup]

@[simp] lemma getElem?_setFile_self (gid fname : Str) (grp : Group) (fm : FileMeta) :
    (s.setFile gid grp fname fm).groups[gid]? =
      some { grp with files := grp.files.insert fname fm } :=
  getElem?_setGroup_self gid _

/-- An op that is carried out has its effect. -/
lemma Ran.effect (h : Ran H s c s') : Effect H s' c := by
  cases h with
  | createUser => simp [Effect]
  | login | logout => trivial
  | createGroup => simp [Effect, setGroup]
  | addSeeder _ _ _ _ _ _ hhash => simp [Effect, hhash]
  | joinGroup | dissolve | handoff | leave | acceptRequest => simp [Effect]
  | addFile | stopShare | updateBitfield => simp [Effect]

/-- **Nothing stands against the op**: an account of the user has this password, the
request is there or has been accepted, a file of this name is the same file. -/
def Unopposed (H : Str → Str) (s : TrackerState) : Call → Prop
  | .createUser uid pwd => ∀ u ∈ s.users[uid]?, u.password = H pwd
  | .acceptRequest gid _ uid => ∃ grp ∈ s.groups[gid]?, uid ∈ grp.pending ∨ uid ∈ grp.members
  | .addFile gid _ _ _ fmeta =>
      ∀ grp ∈ s.groups[gid]?, ∀ fm ∈ grp.files[fmeta.name]?, fm.fileHash = fmeta.fileHash
  | _ => True

/-- An op that is carried out was unopposed. -/
lemma Ran.unopposed (h : Ran H s c s') : Unopposed H s c := by
  cases h with
  | createUser _ _ hnew => simp [Unopposed, Std.ExtTreeMap.getElem?_eq_none hnew]
  | acceptRequest _ _ _ hg _ hpend => exact ⟨_, hg, .inl hpend⟩
  | addSeeder _ _ _ hg _ hf hhash => simp [Unopposed, hg, hf, hhash]
  | addFile _ _ _ hg _ hf => simp [Unopposed, hg, hf]
  | _ => trivial

/-- After a refusal that counts as success it depends on who else changed the state. -/
lemma Tolerated.effect_iff (h : Tolerated s c) : Effect H s c ↔ Unopposed H s c := by
  cases h with
  | createUser _ _ hold =>
      obtain ⟨u, hu⟩ := Option.isSome_iff_exists.mp (Std.ExtTreeMap.mem_iff_isSome_getElem?.mp hold)
      simp [Effect, Unopposed, hu]
  | createGroup _ _ _ hold => exact iff_of_true hold trivial
  | joinGroup _ _ hg _ hold => exact iff_of_true ⟨_, hg, hold.symm⟩ trivial
  | leaveGroup _ _ hg hout => exact iff_of_true (by simpa [Effect, hg] using hout) trivial
  | acceptRequest _ _ _ hgone =>
      refine exists_congr fun grp => and_congr_right fun hg => ?_
      simp [(hgone grp hg).2]
  | addFile _ _ _ hg _ hf hhash => simp [Effect, Unopposed, hg, hf, hhash]
  | stopShare _ _ _ hgone =>
      exact iff_of_true (fun grp hg fm hf => hgone grp fm hg hf) trivial

end TrackerState

open TrackerState

variable {H : Str → Str} {s : TrackerState} {op : Op}

/-- What `apply_remote` does when it succeeds. -/
lemma of_applyRemote (h : (applyRemote H s op).1 = true) :
    ∃ c, opCall op.type op.payload = some c ∧ (s.exec H c).1 ∈ accepts c ∧
      (applyRemote H s op).2 = s.after H c := by
  rw [applyRemote] at h ⊢
  split at h
  · cases h
  · next c hc => exact ⟨c, hc, of_decide_eq_true h, rfl⟩

/-- **An op that was applied has its effect exactly if it was unopposed** in the state
before. -/
theorem effect_iff_unopposed (H : Str → Str) (s : TrackerState) (op : Op)
    (h : (applyRemote H s op).1 = true) :
    ∃ c, opCall op.type op.payload = some c ∧
      (Effect H (applyRemote H s op).2 c ↔ Unopposed H s c) := by
  obtain ⟨c, hc, hacc, hafter⟩ := of_applyRemote h
  refine ⟨c, hc, ?_⟩
  rw [hafter]
  rcases applied_cases hacc with hran | ⟨htol, hsame⟩
  · exact iff_of_true hran.effect hran.unopposed
  · rw [hsame]
    exact htol.effect_iff

theorem effect_iff_unopposed_again :
    let s := TrackerState.init.after id (.createUser [1] [2])
    let op : Op := ⟨1, MsgType.createUser.code, putStr [1] ++ putStr [2], 0⟩
    ∃ c, opCall op.type op.payload = some c ∧
      (Effect id (applyRemote id s op).2 c ↔ Unopposed id s c) := by
  intro s op
  exact effect_iff_unopposed id s op (by decide +kernel)

/-- **Applied without an effect**: user `[1]` has another password here, nobody has asked
to join the group `[6]`, and the file `[7]` of group `[5]` has another hash. -/
theorem applied_without_effect :
    let fm : FileMeta := ⟨[7], 1, [9], [[9]], ∅⟩
    let calls : List Call :=
      [.createUser [1] [2], .createGroup [5] [1], .addFile [5] [1] [4] 6 fm]
    let s := calls.foldl (TrackerState.after id) TrackerState.init
    let opposed : List Call :=
      [.createUser [1] [3], .acceptRequest [6] [1] [4],
        .addFile [5] [1] [4] 6 { fm with fileHash := [8] }]
    ∀ c ∈ opposed, opCall c.type.code (putCall c) = some c ∧
      (applyRemote id s ⟨1, c.type.code, putCall c, 0⟩).1 = true ∧
      ¬ Effect id (applyRemote id s ⟨1, c.type.code, putCall c, 0⟩).2 c := by
  decide +kernel

/-! ### Applied again -/

namespace TrackerState

variable {c : Call} {s' : TrackerState}

/-- The call leaves somebody in the group if it takes the owner out of it. -/
def LeavesBehind (s : TrackerState) : Call → Prop
  | .leaveGroup gid uid =>
      ∀ grp ∈ s.groups[gid]?, uid ∈ grp.members → uid = grp.owner → ∃ v ∈ grp.members, v ≠ uid
  | _ => True

/-- A file that is assigned to itself. -/
lemma setFile_eq_self {gid fname : Str} {grp : Group} {fm : FileMeta}
    (hg : s.groups[gid]? = some grp) (hf : grp.files[fname]? = some fm) :
    s.setFile gid grp fname fm = s := by
  have hfiles : grp.files.insert fname fm = grp.files := grp.files.insert_eq_self hf
  rw [setFile, setGroup, hfiles, s.groups.insert_eq_self hg]

/-- A seeder that is registered once more. -/
lemma setFile_seeder_eq_self {gid fname uid : Str} {grp : Group} {fm : FileMeta} {pr : PeerRef}
    (hg : s.groups[gid]? = some grp) (hf : grp.files[fname]? = some fm)
    (hseed : fm.seeders[uid]? = some pr) :
    s.setFile gid grp fname { fm with seeders := fm.seeders.insert uid pr } = s := by
  rw [fm.seeders.insert_eq_self hseed]
  exact setFile_eq_self hg hf

/-- Uploading what has just been uploaded. -/
lemma Ran.addFile_again {gid uid ip : Str} {port : UInt16} {fmeta fm : FileMeta} {grp : Group}
    (hgid : gid ≠ []) (huid : uid ≠ []) (hname : fmeta.name ≠ []) (hmem : uid ∈ grp.members)
    (hhash : fm.fileHash = fmeta.fileHash)
    (hseed : fm.seeders[uid]? = some (fullPeer uid ip port fmeta)) :
    Ran H (s.setFile gid grp fmeta.name fm) (.addFile gid uid ip port fmeta)
      (s.setFile gid grp fmeta.name fm) := by
  have hg := getElem?_setFile_self (s := s) gid fmeta.name grp fm
  have hf : (grp.files.insert fmeta.name fm)[fmeta.name]? = some fm := by simp
  have hran : Ran H _ (.addFile gid uid ip port fmeta) _ :=
    .addSeeder hgid huid hname hg hmem hf hhash
  rwa [setFile_seeder_eq_self hg hf hseed] at hran

/-- **The second time** an op is refused, which counts as success, or it is carried out
and changes nothing. -/
lemma Ran.again (h : Ran H s c s') (hrep : Status.ok ∈ accepts c) (hleft : LeavesBehind s c) :
    Tolerated s' c ∨ Ran H s' c s' := by
  cases h with
  | createUser huid hpwd => exact .inl (.createUser huid hpwd (by simp))
  | login | logout => simp [accepts] at hrep
  | createGroup hgid howner huser =>
      exact .inl (.createGroup hgid howner huser (by simp [setGroup]))
  | joinGroup hgid huid hg huser =>
      exact .inl (.joinGroup hgid huid (getElem?_setGroup_self _ _) huser (.inr (by simp)))
  | @dissolve gid uid grp hgid huid hg hmem howner hlast =>
      obtain ⟨v, hv, hne⟩ := hleft grp hg hmem howner
      rw [Std.ExtTreeSet.min?_eq_none_iff] at hlast
      have hstays : v ∈ grp.members.erase uid :=
        Std.ExtTreeSet.mem_erase.mpr ⟨by simpa using hne.symm, hv⟩
      rw [hlast] at hstays
      simp at hstays
  | handoff hgid huid | leave hgid huid =>
      exact .inl (.leaveGroup hgid huid (getElem?_setGroup_self _ _) (by simp))
  | acceptRequest hgid hown huid hg howner =>
      refine .inl (.acceptRequest hgid hown huid fun grp' hgrp => ?_)
      obtain rfl : _ = grp' := by simpa using hgrp
      exact ⟨howner, by simp⟩
  | addSeeder hgid huid hname hg hmem hf hhash =>
      exact .inr (.addFile_again hgid huid hname hmem hhash (by simp))
  | addFile hgid huid hname hg hmem hf =>
      exact .inr (.addFile_again hgid huid hname hmem rfl (by simp))
  | stopShare hgid huid hname hg hf =>
      refine .inl (.stopShare hgid huid hname fun grp' fm' hgrp hfm => ?_)
      obtain rfl : _ = grp' := by simpa using hgrp
      obtain rfl : _ = fm' := by simpa using hfm
      simp
  | @updateBitfield gid uid ip port fname bits grp fm hgid huid hname hg hmem hf =>
      set fm' : FileMeta := { fm with seeders := fm.seeders.insert uid ⟨uid, ip, port, bits⟩ }
      have hg' := getElem?_setFile_self (s := s) gid fname grp fm'
      have hf' : (grp.files.insert fname fm')[fname]? = some fm' := by simp
      have hran : Ran H _ (.updateBitfield gid uid ip port fname bits) _ :=
        .updateBitfield hgid huid hname hg' hmem hf'
      rw [setFile_seeder_eq_self hg' hf' (by simp [fm'])] at hran
      exact .inr hran

/-- Who was the last to leave is told that there is no such group. -/
lemma Ran.leavesBehind (h : Ran H s c s') (hacc : (s'.exec H c).1 ∈ accepts c) :
    LeavesBehind s c := by
  cases h with
  | dissolve hgid huid hg hmem howner hlast =>
      simp [exec, leaveGroup, hgid, huid, accepts] at hacc
  | @handoff gid uid m grp hgid huid hg hmem howner hmin =>
      intro grp' hgrp _ _
      obtain rfl := Option.some.inj (hg.symm.trans hgrp)
      obtain ⟨hne, hm⟩ := Std.ExtTreeSet.mem_erase.mp
        (Std.ExtTreeSet.min?_eq_some_iff_mem_and_forall.mp hmin).1
      refine ⟨m, hm, ?_⟩
      rintro rfl
      simp at hne
  | leave hgid huid hg hmem howner =>
      intro grp' hgrp _ howner'
      obtain rfl := Option.some.inj (hg.symm.trans hgrp)
      exact absurd howner' howner
  | _ => trivial

/-- Who is refused to leave does not own the members. -/
lemma Tolerated.leavesBehind (h : Tolerated s c) : LeavesBehind s c := by
  cases h with
  | leaveGroup _ _ hg hout =>
      intro grp' hgrp hmem _
      obtain rfl := Option.some.inj (hg.symm.trans hgrp)
      exact absurd hmem hout
  | _ => trivial

end TrackerState

/-- **An op that was applied is applied again, without a change,** exactly if it left
somebody behind in its group. -/
theorem reapplied_iff (H : Str → Str) (s : TrackerState) (op : Op)
    (h : (applyRemote H s op).1 = true) :
    ∃ c, opCall op.type op.payload = some c ∧
      (applyRemote H (applyRemote H s op).2 op = (true, (applyRemote H s op).2) ↔
        LeavesBehind s c) := by
  obtain ⟨c, hc, hacc, hafter⟩ := of_applyRemote h
  refine ⟨c, hc, ?_⟩
  have hagain : ∀ t, applyRemote H t op = (decide ((t.exec H c).1 ∈ accepts c), t.after H c) := by
    intro t
    rw [applyRemote, hc]
  rw [hafter, hagain, Prod.mk.injEq, decide_eq_true_eq]
  rcases applied_cases hacc with hran | ⟨htol, hsame⟩
  · refine ⟨fun hsecond => hran.leavesBehind hsecond.1, fun hleft => ?_⟩
    have hrep : Status.ok ∈ accepts c := by rwa [hran.exec_eq] at hacc
    rcases hran.again hrep hleft with htol | hran
    · exact ⟨htol.status.1, exec_refused htol.status.2⟩
    · exact hran.applied hrep
  · rw [hsame]
    exact iff_of_true ⟨hacc, hsame⟩ htol.leavesBehind

theorem reapplied_iff_createGroup :
    let s := TrackerState.init.after id (.createUser [1] [2])
    let op : Op := ⟨1, MsgType.createGroup.code, putStr [5] ++ putStr [1], 0⟩
    ∃ c, opCall op.type op.payload = some c ∧
      (applyRemote id (applyRemote id s op).2 op = (true, (applyRemote id s op).2) ↔
        LeavesBehind s c) := by
  intro s op
  exact reapplied_iff id s op (by decide +kernel)

/-- **Applied once only**: the last member leaves, and leaving again is refused with
`ST_NOT_FOUND`. -/
theorem leave_applied_once :
    let s := (TrackerState.init.after id (.createUser [1] [2])).after id (.createGroup [5] [1])
    let op : Op := ⟨1, MsgType.leaveGroup.code, putStr [5] ++ putStr [1], 0⟩
    (applyRemote id s op).1 = true ∧ (applyRemote id (applyRemote id s op).2 op).1 = false := by
  intro s op
  have hc : opCall op.type op.payload = some (.leaveGroup [5] [1]) := by decide +kernel
  have hg : s.groups[([5] : Str)]? = some ⟨[5], [1], (∅ : StrSet).insert [1], ∅, ∅⟩ := by
    decide +kernel
  have hlast : (((∅ : StrSet).insert [1]).erase [1]).min? = none := by
    rw [Std.ExtTreeSet.min?_eq_none_iff]
    decide +kernel
  have hran : Ran id s (.leaveGroup [5] [1]) { s with groups := s.groups.erase [5] } :=
    .dissolve (by decide) (by decide) hg (by simp) rfl hlast
  have hfirst : applyRemote id s op = (true, { s with groups := s.groups.erase [5] }) := by
    rw [applyRemote, hc]
    dsimp only
    rw [after, hran.exec_eq]
    rfl
  rw [hfirst]
  refine ⟨rfl, ?_⟩
  rw [applyRemote, hc]
  simp [TrackerState.exec, TrackerState.leaveGroup, accepts]

end P2PShare
