import P2PShare.Tracker.Echo
import P2PShare.Tracker.Replay

/-!
Ops that a replica applies a second time.

* `Repeatable`: the condition on an op that is applied again, from the state in
  which it was first applied, the state now and the state at the end.
* `Echoing` (**the invariant of the second delivery**) and `Echoing.step`: each op
  that meets the condition keeps it.
* `redelivery_harmless`: a block of such ops leads the replica back to the state
  it was in. `share_lost` is a block with another one.
-/

namespace P2PShare

namespace TrackerState

variable {H : Str → Str}

/-! ### Both deliveries -/

/-- **What an op that is carried out again relies on**, with `X`, `Y` and `Z` the
group before its first delivery, now, and at the end. Joining and stopping a share
rely on nothing. -/
def Consistent (x y z : TrackerState) : Call → Prop
  | .createGroup gid owner =>
      ∀ gy ∈ y.groups[gid]?, gy.standing owner = .out → standingOf z.groups[gid]? owner = .out
  | .leaveGroup gid uid =>
      ∀ gx ∈ x.groups[gid]?, ∀ gy ∈ y.groups[gid]?,
        (uid = gy.owner → gy.heir uid = gx.heir uid ∨ gy.heir uid = ownerOf z.groups[gid]?) ∧
        (gx.heir uid = none →
          uid ∈ gy.members ∧ gy.heir uid = none ∨ gy.Remains z.groups[gid]?)
  | .acceptRequest gid owner uid =>
      ∀ gy ∈ y.groups[gid]?, uid ∈ gy.pending →
        gy.owner = owner ∨ standingOf z.groups[gid]? uid = .pending
  | .addFile gid uid ip port fmeta =>
      ∀ gy ∈ y.groups[gid]?,
        if gy.Takes uid fmeta then
          gy.fileInfo fmeta.name = none → ∀ i ∈ infoOf x.groups[gid]? fmeta.name, i = fmeta.info
        else
          (gy.fileInfo fmeta.name = none → infoOf z.groups[gid]? fmeta.name = none) ∧
          (gy.entry fmeta.name uid = some (fullPeer uid ip port fmeta) ∨
            gy.entry fmeta.name uid = entryOf z.groups[gid]? fmeta.name uid)
  | .updateBitfield gid uid ip port fname bits =>
      ∀ gy ∈ y.groups[gid]?,
        uid ∈ gy.members ∧ gy.fileInfo fname ≠ none ∨
          gy.entry fname uid = some ⟨uid, ip, port, bits⟩ ∨
          gy.entry fname uid = entryOf z.groups[gid]? fname uid
  | .joinGroup .. | .stopShare .. | .createUser .. | .login .. | .logout .. => True

instance (x y z : TrackerState) : ∀ c, Decidable (x.Consistent y z c)
  | .createGroup .. | .acceptRequest .. | .updateBitfield .. | .addFile .. =>
      inferInstanceAs (Decidable (∀ _ ∈ _, _))
  | .leaveGroup .. => inferInstanceAs (Decidable (∀ _ ∈ _, ∀ _ ∈ _, _))
  | .joinGroup .. | .stopShare .. | .createUser .. | .login .. | .logout .. => .isTrue trivial

/-- **The condition**: an op that was carried out at first is `Consistent`, and one
that was refused is refused again. -/
def Repeatable (H : Str → Str) (z : TrackerState) (x : TrackerState × TrackerState) (op : Op) :
    Prop :=
  ∀ c ∈ opCall op.type op.payload,
    if (x.1.exec H c).1 = .ok then x.1.Consistent x.2 z c else (x.2.exec H c).1 ≠ .ok

instance (H : Str → Str) (z : TrackerState) (x : TrackerState × TrackerState) (op : Op) :
    Decidable (Repeatable H z x op) :=
  inferInstanceAs (Decidable (∀ _ ∈ _, _))

/-- Whoever leaves is a member. -/
lemma Ran.leaver {x x' : TrackerState} {gid uid : Str} (hran : Ran H x (.leaveGroup gid uid) x') :
    gid ≠ [] ∧ uid ≠ [] ∧ ∃ gx, x.groups[gid]? = some gx ∧ uid ∈ gx.members := by
  cases hran with
  | dissolve hgid huid hg hmem => exact ⟨hgid, huid, _, hg, hmem⟩
  | handoff hgid huid hg hmem => exact ⟨hgid, huid, _, hg, hmem⟩
  | leave hgid huid hg hmem => exact ⟨hgid, huid, _, hg, hmem⟩

/-- Whoever uploads has the upload taken. -/
lemma Ran.takes {x x' : TrackerState} {gid uid ip : Str} {port : UInt16} {fmeta : FileMeta}
    (hran : Ran H x (.addFile gid uid ip port fmeta) x') :
    gid ≠ [] ∧ uid ≠ [] ∧ fmeta.name ≠ [] ∧
      ∃ gx, x.groups[gid]? = some gx ∧ gx.Takes uid fmeta := by
  cases hran with
  | addSeeder hgid huid hname hg hmem hf hhash =>
      refine ⟨hgid, huid, hname, _, hg, hmem, fun i hi => ?_⟩
      rw [Group.fileInfo, hf] at hi
      rw [← Option.some.inj hi]
      exact hhash
  | addFile hgid huid hname hg hmem hf =>
      refine ⟨hgid, huid, hname, _, hg, hmem, fun i hi => ?_⟩
      rw [Group.fileInfo, hf] at hi
      cases hi

/-- **The invariant of the second delivery**: everything recorded in `y` is what it
is in `x` or in `z`. -/
structure Echoing (z x y : TrackerState) : Prop where
  first : x.WellFormed
  second : y.WellFormed
  users : y.users = z.users
  groups : ∀ gid : Str, GroupEchoes x.groups[gid]? y.groups[gid]? z.groups[gid]?

namespace Echoing

variable {x y z x' y' : TrackerState} {c : Call}

/-- At the end of the block everything is as at the end. -/
lemma eq_last (h : Echoing z z y) : y = z := by
  refine TrackerState.ext h.users (Std.ExtTreeMap.ext_getElem? fun gid => ?_)
  have hg := h.groups gid
  have hself : ∀ {α : Type} {a b : α}, Echoes a b a → b = a := fun hab => hab.elim id id
  cases hz : z.groups[gid]? with
  | none =>
      rw [hz] at hg
      cases hy : y.groups[gid]? with
      | none => rfl
      | some gy =>
          have howner := hself hg.owner
          simp [hy, ownerOf] at howner
  | some gz =>
      rw [hz] at hg
      cases hy : y.groups[gid]? with
      | none =>
          have howner := hself hg.owner
          simp [hy, ownerOf] at howner
      | some gy =>
          rw [hy] at hg
          have hid := (h.second.groups gid gy hy).trans (h.first.groups gid gz hz).symm
          exact congrArg some (group_ext (h.second.group gid gy hy)
            (h.users ▸ h.first.group gid gz hz) hid (Option.some.inj (hself hg.owner))
            (fun uid => hself (hg.standing uid)) (fun fname => hself (hg.info fname))
            fun fname uid => hself (hg.entry fname uid))

/-- An op that changes one group. -/
lemma touch (h : Echoing z x y) {gid : Str} {F : Option Group → Option Group}
    (hx : Touches gid F x (x.after H c)) (hy : Touches gid F y (y.after H c))
    (hg : GroupEchoes (F x.groups[gid]?) (F y.groups[gid]?) z.groups[gid]?) :
    Echoing z (x.after H c) (y.after H c) := by
  refine ⟨h.first.after c, h.second.after c, hy.1.trans h.users, fun k => ?_⟩
  rw [hx.2 k, hy.2 k]
  by_cases hk : gid = k
  · subst hk
    rwa [if_pos rfl, if_pos rfl]
  · rw [if_neg hk, if_neg hk]
    exact h.groups k

/-- A registration that succeeds in the first delivery is refused now. -/
lemma createUser (h : Echoing z x y) {uid pwd : Str}
    (husers : ∀ v ∈ (x.after H (.createUser uid pwd)).users, v ∈ z.users)
    (hran : Ran H x (.createUser uid pwd) x') :
    Echoing z (x.after H (.createUser uid pwd)) (y.after H (.createUser uid pwd)) := by
  have hafter : x.after H (.createUser uid pwd) = x' := by rw [after, hran.exec_eq]
  rw [hafter] at husers ⊢
  cases hran with
  | createUser huid hpwd hnew =>
      have hknown : uid ∈ y.users := by
        rw [h.users]
        exact husers uid Std.ExtTreeMap.mem_insert_self
      have hsame : y.after H (.createUser uid pwd) = y := by
        simp [after, exec, TrackerState.createUser, huid, hpwd, hknown]
      rw [hsame]
      exact ⟨h.first.setUser rfl, h.second, h.users, h.groups⟩

/-- **The step lemma**: an op that is carried out at first. The users of the state
after it are users at the end. -/
lemma step (h : Echoing z x y) (hfits : c.Fits)
    (husers : ∀ v ∈ (x.after H c).users, v ∈ z.users) (hran : Ran H x c x')
    (hok : x.Consistent y z c) : Echoing z (x.after H c) (y.after H c) := by
  -- whoever has an account on the one tracker has one on the other
  have hknown : ∀ uid ∈ x.users, uid ∈ y.users := by
    intro uid huid
    rw [h.users]
    refine husers uid ?_
    rcases after_cases H x c with hran | heq
    · rw [← mem_directory_users, hran.directory_eq]
      exact Directory.mem_users_act (mem_directory_users.mpr huid) _
    · rwa [heq]
  cases c with
  | createUser uid pwd => exact h.createUser husers hran
  | login | logout => exact hfits.elim
  | createGroup gid owner =>
      cases hran with
      | createGroup hgid howner huser hnew =>
          refine h.touch (touches_createGroup hgid howner huser)
            (touches_createGroup hgid howner (hknown owner huser)) ?_
          have hg := h.groups gid
          rw [Std.ExtTreeMap.getElem?_eq_none hnew] at hg ⊢
          exact hg.create hok
  | joinGroup gid uid =>
      cases hran with
      | joinGroup hgid huid hg huser hmem hpend =>
          refine h.touch (touches_joinGroup hgid huid huser)
            (touches_joinGroup hgid huid (hknown uid huser)) ?_
          have hgroups := h.groups gid
          rw [hg] at hgroups ⊢
          refine hgroups.map fun gy hgy => ?_
          exact (hgy ▸ hgroups).join (Group.standing_eq_out.mpr ⟨hmem, hpend⟩)
  | leaveGroup gid uid =>
      obtain ⟨hgid, huid, gx, hg, hmem⟩ := hran.leaver
      refine h.touch (touches_leaveGroup hgid huid) (touches_leaveGroup hgid huid) ?_
      have hgroups := h.groups gid
      rw [hg] at hgroups ⊢
      -- on the second tracker the group may be gone already
      cases hgy : y.groups[gid]? with
      | none =>
          rw [hgroups.eq_none (by simp) hgy]
          exact .last _ none
      | some gy =>
          rw [hgy] at hgroups
          obtain ⟨hheir, hrest⟩ := hok gx hg gy hgy
          exact hgroups.leave (h.first.group gid gx hg) (h.second.group gid gy hgy) hmem hheir hrest
  | acceptRequest gid owner uid =>
      cases hran with
      | acceptRequest hgid hown huid hg howner hpend =>
          refine h.touch (touches_acceptRequest hgid hown huid)
            (touches_acceptRequest hgid hown huid) ?_
          have hgroups := h.groups gid
          rw [hg] at hgroups ⊢
          refine hgroups.map fun gy hgy => ?_
          exact (hgy ▸ hgroups).accept ((h.first.group gid _ hg).disjoint uid)
            ((h.second.group gid gy hgy).disjoint uid) howner hpend (hok gy hgy)
  | addFile gid uid ip port fmeta =>
      obtain ⟨hgid, huid, hname, gx, hg, htakes⟩ := hran.takes
      refine h.touch (touches_addFile hgid huid hname) (touches_addFile hgid huid hname) ?_
      have hgroups := h.groups gid
      rw [Consistent, hg] at hok
      rw [hg] at hgroups ⊢
      refine hgroups.map fun gy hgy => ?_
      have hgyok := hok gy hgy
      -- the condition differs with whether the second tracker takes the file
      refine (hgy ▸ hgroups).upload htakes (fun ht => ?_) fun ht => ?_
      · rwa [if_pos ht] at hgyok
      · rwa [if_neg ht] at hgyok
  | stopShare gid uid fname =>
      cases hran with
      | stopShare hgid huid hname hg =>
          refine h.touch (touches_stopShare hgid huid hname) (touches_stopShare hgid huid hname) ?_
          have hgroups := h.groups gid
          rw [hg] at hgroups ⊢
          exact hgroups.map fun gy hgy => (hgy ▸ hgroups).stop
  | updateBitfield gid uid ip port fname bits =>
      cases hran with
      | updateBitfield hgid huid hname hg hmem hf =>
          refine h.touch (touches_updateBitfield hgid huid hname)
            (touches_updateBitfield hgid huid hname) ?_
          have hgroups := h.groups gid
          rw [hg] at hgroups ⊢
          refine hgroups.map fun gy hgy => ?_
          exact (hgy ▸ hgroups).announce hmem (by simp [Group.fileInfo, hf]) (hok gy hgy)

end Echoing

end TrackerState

variable {H : Str → Str}

/-- A call that is read from an op fits its payload. -/
lemma fits_of_opCall {type : UInt16} {payload : Str} {c : Call}
    (h : opCall type payload = some c) : c.Fits := by
  rw [opCall] at h
  obtain ⟨t, -, h⟩ := Option.bind_eq_some_iff.mp h
  obtain ⟨g, hg, hdec⟩ := Option.bind_eq_some_iff.mp h
  exact ((decode_eq_some_iff (codec_op hg)).mp hdec).1.2

/-- The state after an op of the peer. -/
def applied (H : Str → Str) (s : TrackerState) (op : Op) : TrackerState := (applyRemote H s op).2

lemma replay_eq_foldl (s : TrackerState) (ops : List Op) :
    (replay H s ops).2 = ops.foldl (applied H) s := by
  induction ops generalizing s with
  | nil => rfl
  | cons op ops ih => exact ih _

/-- Users stay while ops are applied. -/
lemma mem_users_foldl {s : TrackerState} {uid : Str} (huid : uid ∈ s.users) (ops : List Op) :
    uid ∈ (ops.foldl (applied H) s).users := by
  induction ops generalizing s with
  | nil => exact huid
  | cons op ops ih =>
      refine ih ?_
      rw [applied, ← TrackerState.mem_directory_users, directory_applyRemote]
      exact Directory.mem_users_act (TrackerState.mem_directory_users.mpr huid) _

lemma wellFormed_replay {s : TrackerState} (hs : s.WellFormed) (ops : List Op) :
    (replay H s ops).2.WellFormed := by
  induction ops generalizing s with
  | nil => exact hs
  | cons op ops ih => exact ih (hs.applyRemote op)

lemma applied_eq {s : TrackerState} {op : Op} {c : Call} (h : opCall op.type op.payload = some c) :
    applied H s op = s.after H c := by
  rw [applied, applyRemote, h]

/-- An op in both deliveries, with the rest of the block leading to `z`. -/
lemma TrackerState.Echoing.applied {z x y : TrackerState} (h : Echoing z x y) {op : Op}
    {rest : List Op} (hok : Repeatable H z (x, y) op)
    (hrest : rest.foldl (applied H) (applied H x op) = z) :
    Echoing z (P2PShare.applied H x op) (P2PShare.applied H y op) := by
  cases hc : opCall op.type op.payload with
  | none =>
      rw [P2PShare.applied, P2PShare.applied, applyRemote, applyRemote, hc]
      exact h
  | some c =>
      have hcond := hok c hc
      rw [applied_eq hc] at hrest
      rw [applied_eq hc, applied_eq hc]
      by_cases hfirst : (x.exec H c).1 = .ok
      · rw [if_pos hfirst] at hcond
        refine h.step (fits_of_opCall hc) (fun v hv => ?_)
          (exec_eq_ok_iff.mp (Prod.ext hfirst rfl)) hcond
        rw [← hrest]
        exact mem_users_foldl hv rest
      · rw [if_neg hfirst] at hcond
        rw [exec_refused hfirst, exec_refused hcond]
        exact h

/-- A block that leads from `x` to `z` leads from `z` back to `z`. -/
lemma replay_again {x z : TrackerState} (hx : x.WellFormed) (hz : z.WellFormed) {block : List Op}
    (hfirst : (replay H x block).2 = z)
    (hmeets : Meets (again (applied H)) (TrackerState.Repeatable H z) (x, z) block) :
    (replay H z block).2 = z := by
  rw [replay_eq_foldl] at hfirst ⊢
  have hstart : TrackerState.Echoing z x z := ⟨hx, hz, rfl, fun gid => .last _ _⟩
  have hstep : ∀ {x y : TrackerState} {op : Op} {rest : List Op}, TrackerState.Echoing z x y →
      TrackerState.Repeatable H z (x, y) op → rest.foldl (applied H) (applied H x op) = z →
      TrackerState.Echoing z (applied H x op) (applied H y op) :=
    fun h hok hrest => h.applied hok hrest
  have hend : ∀ {y : TrackerState}, TrackerState.Echoing z z y → y = z := fun h => h.eq_last
  exact again_eq hstep hend hfirst hstart hmeets

namespace Server

/-- Two users share the group `[5]`. -/
def sharing : List ClientEvent :=
  [.connect 7 [4] peerIp_fits, .connect 8 [4] peerIp_fits,
    .request 7 MsgType.createUser.code (putStr [1] ++ putStr [2]) 0,
    .request 7 MsgType.login.code (putStr [1] ++ putStr [2] ++ putU16 6) 0,
    .request 8 MsgType.createUser.code (putStr [3] ++ putStr [2]) 0,
    .request 8 MsgType.login.code (putStr [3] ++ putStr [2] ++ putU16 6) 0,
    .request 7 MsgType.createGroup.code (putStr [5]) 0,
    .request 8 MsgType.joinGroup.code (putStr [5]) 0,
    .request 7 MsgType.acceptRequest.code (putStr [5] ++ putStr [3]) 0]

/-- The second user uploads a file, leaves the group and is back. -/
def returning : List ClientEvent :=
  [.request 8 MsgType.uploadFile.code (putUpload [5] ⟨[7], 1, [9], [[8]], ∅⟩) 0,
    .request 8 MsgType.leaveGroup.code (putStr [5]) 0,
    .request 8 MsgType.joinGroup.code (putStr [5]) 0,
    .request 7 MsgType.acceptRequest.code (putStr [5] ++ putStr [3]) 0]

/-- The second user uploads a file, stops sharing it, uploads it again and leaves. -/
def reuploading : List ClientEvent :=
  let upload : ClientEvent :=
    .request 8 MsgType.uploadFile.code (putUpload [5] ⟨[7], 1, [9], [[8]], ∅⟩) 0
  [upload, .request 8 MsgType.stopShare.code (putStr [5] ++ putStr [7]) 0, upload,
    .request 8 MsgType.leaveGroup.code (putStr [5]) 0]

end Server

end P2PShare
