import P2PShare.Lib.TwoReplica
import P2PShare.Tracker.Directory

/-!
Which operations on a directory depend on their order.

* `GroupOp.Enabled`: what two trackers both know of an operation that one of
  them has carried out and the other has yet to see.
* `DirOp.Clash`: the pairs that depend on their order: registrations of one id
  with different passwords, a group created twice with different owners, a group
  created while others join it or its owner leaves it, a user leaving while
  joining, being accepted, accepting or uploading, and two different files of
  one name.
* `directory_confluent` (**everything else commutes**).
-/

namespace P2PShare

/-! ### Changes of one group -/

namespace GroupInfo

variable {grp grp' : GroupInfo}

/-- Leaving a group whose owner is a member, in one formula. -/
lemma leave_eq (h : grp.owner ∈ grp.members) (uid : Str) :
    grp.leave uid = (grp.members.erase uid).min?.map fun m =>
      { grp with
        members := grp.members.erase uid
        owner := if uid = grp.owner then m else grp.owner } := by
  rw [leave]
  by_cases howner : uid = grp.owner
  · simp [howner, h]
  · have hstay : grp.owner ∈ grp.members.erase uid :=
      Std.ExtTreeSet.mem_erase.mpr ⟨by simpa using howner, h⟩
    obtain ⟨m, hm⟩ := Std.ExtTreeSet.exists_min? _ hstay
    by_cases hmem : uid ∈ grp.members
    · simp [howner, hmem, hm]
    · rw [Std.ExtTreeSet.erase_eq_self _ hmem] at hm ⊢
      simp [howner, hmem, hm]

/-- Someone other than the owner leaves. -/
lemma leave_of_ne {uid : Str} (h : uid ≠ grp.owner) :
    grp.leave uid = some { grp with members := grp.members.erase uid } := by
  rw [leave, if_neg h]
  by_cases hmem : uid ∈ grp.members
  · rw [if_neg (not_not.mpr hmem)]
  · rw [if_pos hmem, Std.ExtTreeSet.erase_eq_self _ hmem]

/-- What is left after someone has left. -/
lemma leave_cases {uid : Str} (h : grp.owner ∈ grp.members) (hleave : grp.leave uid = some grp') :
    grp'.owner ∈ grp'.members ∧ grp'.members = grp.members.erase uid ∧
      grp'.pending = grp.pending ∧ grp'.files = grp.files ∧
      (uid ≠ grp.owner → grp'.owner = grp.owner) := by
  rw [leave_eq h, Option.map_eq_some_iff] at hleave
  obtain ⟨m, hm, rfl⟩ := hleave
  refine ⟨?_, rfl, rfl, rfl, fun hne => if_neg hne⟩
  by_cases howner : uid = grp.owner
  · simpa [howner] using (Std.ExtTreeSet.min?_eq_some_iff_mem_and_forall.mp hm).1
  · simpa [howner] using h

/-- A group with another member is not dissolved. -/
lemma exists_leave {uid v : Str} (h : grp.owner ∈ grp.members) (hv : v ∈ grp.members)
    (hne : uid ≠ v) : ∃ grp', grp.leave uid = some grp' := by
  have hstay : v ∈ grp.members.erase uid := Std.ExtTreeSet.mem_erase.mpr ⟨by simpa using hne, hv⟩
  obtain ⟨m, hm⟩ := Std.ExtTreeSet.exists_min? _ hstay
  rw [leave_eq h, hm]
  exact ⟨_, rfl⟩

@[simp] lemma owner_join (u : Str) : (grp.join u).owner = grp.owner := by
  rw [join]
  split <;> rfl

@[simp] lemma members_join (u : Str) : (grp.join u).members = grp.members := by
  rw [join]
  split <;> rfl

@[simp] lemma owner_accept (w : Str) : (grp.accept w).owner = grp.owner := by
  rw [accept]
  split <;> rfl

@[simp] lemma owner_addFile (n : Str) (i : FileInfo) : (grp.addFile n i).owner = grp.owner := by
  rw [addFile]
  split <;> rfl

@[simp] lemma members_addFile (n : Str) (i : FileInfo) :
    (grp.addFile n i).members = grp.members := by
  rw [addFile]
  split <;> rfl

@[simp] lemma pending_addFile (n : Str) (i : FileInfo) :
    (grp.addFile n i).pending = grp.pending := by
  rw [addFile]
  split <;> rfl

/-- Who has asked to join or is in stays so when others ask. -/
lemma mem_join {x : Str} (u : Str) (h : x ∈ grp.pending ∨ x ∈ grp.members) :
    x ∈ (grp.join u).pending ∨ x ∈ (grp.join u).members := by
  rw [members_join, join]
  split
  · exact h.imp_left fun hx => Std.ExtTreeSet.mem_insert.mpr (.inr hx)
  · exact h

/-- Members stay members when others are accepted. -/
lemma mem_members_accept {x : Str} (w : Str) (h : x ∈ grp.members) :
    x ∈ (grp.accept w).members := by
  rw [accept]
  split
  · exact Std.ExtTreeSet.mem_insert.mpr (.inr h)
  · exact h

/-- Who has asked to join or is in stays so when someone is accepted. -/
lemma mem_accept {x : Str} (w : Str) (h : x ∈ grp.pending ∨ x ∈ grp.members) :
    x ∈ (grp.accept w).pending ∨ x ∈ (grp.accept w).members := by
  rcases h with hx | hx
  · rw [accept]
    split
    · by_cases hw : w = x
      · exact .inr (Std.ExtTreeSet.mem_insert.mpr (.inl (by simpa using hw)))
      · exact .inl (Std.ExtTreeSet.mem_erase.mpr ⟨by simpa using hw, hx⟩)
    · exact .inl hx
  · exact .inr (mem_members_accept w hx)

lemma join_join (u v : Str) : (grp.join u).join v = (grp.join v).join u := by
  by_cases huv : u = v
  · rw [huv]
  · by_cases hu : u ∉ grp.members ∧ u ∉ grp.pending
    · by_cases hv : v ∉ grp.members ∧ v ∉ grp.pending
      · simp [join, hu, hv, huv, Ne.symm huv, Std.ExtTreeSet.insert_comm _ u v]
      · simp [join, hu, hv, huv]
    · by_cases hv : v ∉ grp.members ∧ v ∉ grp.pending
      · simp [join, hu, hv, Ne.symm huv]
      · simp [join, hu, hv]

lemma join_leave {u v : Str} (h : grp.owner ∈ grp.members) (huv : u ≠ v) :
    (grp.join u).leave v = (grp.leave v).map fun g => g.join u := by
  have hmem : u ∈ grp.members.erase v ↔ u ∈ grp.members := by simp [Ne.symm huv]
  rw [leave_eq h, leave_eq (by simpa using h), Option.map_map, members_join, owner_join]
  refine Option.map_congr fun m _ => ?_
  by_cases hu : u ∉ grp.members ∧ u ∉ grp.pending
  · simp [join, hu, hmem]
  · simp [join, hu, hmem]

lemma join_accept (u w : Str) (hw : w ∈ grp.pending ∨ w ∈ grp.members) :
    (grp.join u).accept w = (grp.accept w).join u := by
  by_cases huw : u = w
  · subst huw
    have hold : ¬ (u ∉ grp.members ∧ u ∉ grp.pending) := by tauto
    by_cases hp : u ∈ grp.pending
    · simp [join, accept, hp]
    · have hm : u ∈ grp.members := by tauto
      simp [join, accept, hp, hm]
  · by_cases hu : u ∉ grp.members ∧ u ∉ grp.pending
    · by_cases hp : w ∈ grp.pending
      · simp [join, accept, hu, hp, huw, Ne.symm huw, Std.ExtTreeSet.insert_erase_comm _ huw]
      · simp [join, accept, hu, hp, huw]
    · by_cases hp : w ∈ grp.pending
      · simp [join, accept, hu, hp, Ne.symm huw]
      · simp [join, accept, hu, hp]

lemma join_addFile (u n : Str) (i : FileInfo) :
    (grp.join u).addFile n i = (grp.addFile n i).join u := by
  by_cases hu : u ∉ grp.members ∧ u ∉ grp.pending
  · by_cases hn : n ∈ grp.files
    · simp [join, addFile, hu, hn]
    · simp [join, addFile, hu, hn]
  · by_cases hn : n ∈ grp.files
    · simp [join, addFile, hu, hn]
    · simp [join, addFile, hu, hn]

/-- The owner and someone else leave: whoever goes first, the least of the
others owns the group. -/
lemma leave_owner_leave (h : grp.owner ∈ grp.members) {v : Str} (hv : v ≠ grp.owner) :
    ((grp.leave grp.owner).bind fun g => g.leave v)
      = (grp.leave v).bind fun g => g.leave grp.owner := by
  have hstay : grp.owner ∈ grp.members.erase v :=
    Std.ExtTreeSet.mem_erase.mpr ⟨by simpa using hv, h⟩
  have hright : ((grp.leave v).bind fun g => g.leave grp.owner)
      = ((grp.members.erase grp.owner).erase v).min?.map fun m =>
        { grp with members := (grp.members.erase grp.owner).erase v, owner := m } := by
    rw [leave_of_ne hv, Option.bind_some,
      @leave_eq { grp with members := grp.members.erase v } hstay]
    simp [Std.ExtTreeSet.erase_comm _ v grp.owner]
  rw [hright, leave_eq h]
  cases hmin : (grp.members.erase grp.owner).min? with
  | none =>
      rw [Std.ExtTreeSet.min?_eq_none_iff] at hmin
      simp [hmin]
  | some m =>
      have hm := (Std.ExtTreeSet.min?_eq_some_iff_mem_and_forall.mp hmin).1
      rw [Option.map_some, Option.bind_some, leave_eq (by simpa using hm)]
      refine Option.map_congr fun m₂ hm₂ => ?_
      by_cases hvm : v = m
      · simp [hvm]
      · have hsame := Std.ExtTreeSet.min?_erase_of_ne _ hmin hvm
        obtain rfl : m = m₂ := Option.some.inj (hsame.symm.trans hm₂)
        simp [hvm]

lemma leave_leave (h : grp.owner ∈ grp.members) (u v : Str) :
    ((grp.leave u).bind fun g => g.leave v) = (grp.leave v).bind fun g => g.leave u := by
  by_cases hu : u = grp.owner
  · by_cases hv : v = grp.owner
    · rw [hu, hv]
    · rw [hu]
      exact leave_owner_leave h hv
  · by_cases hv : v = grp.owner
    · rw [hv]
      exact (leave_owner_leave h hu).symm
    · rw [leave_of_ne hu, leave_of_ne hv, Option.bind_some, Option.bind_some,
        @leave_of_ne { grp with members := grp.members.erase u } v hv,
        @leave_of_ne { grp with members := grp.members.erase v } u hu,
        Std.ExtTreeSet.erase_comm]

lemma accept_accept (u w : Str) : (grp.accept u).accept w = (grp.accept w).accept u := by
  by_cases huw : u = w
  · rw [huw]
  · by_cases hu : u ∈ grp.pending
    · by_cases hw : w ∈ grp.pending
      · simp [accept, hu, hw, huw, Ne.symm huw, Std.ExtTreeSet.insert_comm _ u w,
          Std.ExtTreeSet.erase_comm _ u w]
      · simp [accept, hu, hw, huw]
    · by_cases hw : w ∈ grp.pending
      · simp [accept, hu, hw, Ne.symm huw]
      · simp [accept, hu, hw]

lemma accept_leave {u w : Str} (hu : u ≠ grp.owner) (huw : u ≠ w) :
    (grp.accept w).leave u = (grp.leave u).map fun g => g.accept w := by
  rw [leave_of_ne hu, leave_of_ne (by simpa using hu)]
  by_cases hw : w ∈ grp.pending
  · simp [accept, hw, Std.ExtTreeSet.insert_erase_comm _ (Ne.symm huw)]
  · simp [accept, hw]

lemma accept_addFile (w n : Str) (i : FileInfo) :
    (grp.accept w).addFile n i = (grp.addFile n i).accept w := by
  by_cases hw : w ∈ grp.pending
  · by_cases hn : n ∈ grp.files
    · simp [accept, addFile, hw, hn]
    · simp [accept, addFile, hw, hn]
  · by_cases hn : n ∈ grp.files
    · simp [accept, addFile, hw, hn]
    · simp [accept, addFile, hw, hn]

lemma addFile_leave (h : grp.owner ∈ grp.members) (u n : Str) (i : FileInfo) :
    (grp.addFile n i).leave u = (grp.leave u).map fun g => g.addFile n i := by
  by_cases hn : n ∈ grp.files
  · have hself : grp.addFile n i = grp := by simp [addFile, hn]
    rw [hself, leave_eq h, Option.map_map]
    refine Option.map_congr fun m _ => ?_
    simp [addFile, hn]
  · have hset : grp.addFile n i = { grp with files := grp.files.insert n i } := by
      simp [addFile, hn]
    rw [hset, leave_eq h, @leave_eq { grp with files := grp.files.insert n i } h u, Option.map_map]
    refine Option.map_congr fun m _ => ?_
    simp [addFile, hn]

lemma addFile_addFile {n n' : Str} {i i' : FileInfo} (h : n = n' → i = i') :
    (grp.addFile n i).addFile n' i' = (grp.addFile n' i').addFile n i := by
  by_cases hnn : n = n'
  · rw [hnn, h hnn]
  · by_cases hn : n ∈ grp.files
    · by_cases hn' : n' ∈ grp.files
      · simp [addFile, hn, hn']
      · simp [addFile, hn, hn']
    · by_cases hn' : n' ∈ grp.files
      · simp [addFile, hn, hn']
      · simp [addFile, hn, hn', hnn, Ne.symm hnn, Std.ExtTreeMap.insert_comm _ hnn]

end GroupInfo

/-! ### Operations on one group -/

namespace GroupOp

/-- What is known of an operation that succeeded on the other tracker: its user
exists, and where it needs a member, an owner or a request, there is one. -/
def Enabled (users : StrMap Str) (g : Option GroupInfo) : GroupOp → Prop
  | create owner => owner ∈ users ∧ ∀ grp, g = some grp → owner ∈ grp.members
  | join uid => uid ∈ users
  | leave _ => True
  | accept owner uid =>
      ∃ grp, g = some grp ∧ grp.owner = owner ∧ (uid ∈ grp.pending ∨ uid ∈ grp.members)
  | addFile uid _ _ => ∃ grp, g = some grp ∧ uid ∈ grp.members

/-- The pairs that depend on their order, in one direction. -/
def ClashWith : GroupOp → GroupOp → Prop
  | create o, create o' => o ≠ o'
  | create o, join u => u ≠ o
  | create o, leave u => u = o
  | join u, leave v => u = v
  | leave u, accept o w => u = o ∨ u = w
  | leave u, addFile v _ _ => u = v
  | addFile _ n i, addFile _ n' i' => n = n' ∧ i ≠ i'
  | _, _ => False

/-- The two operations depend on their order. -/
def Clash (a b : GroupOp) : Prop := a.ClashWith b ∨ b.ClashWith a

/-- What an enabled operation does: the checks on the acting user pass. -/
def effect : GroupOp → Option GroupInfo → Option GroupInfo
  | create owner, g => some (g.getD (.create owner))
  | join uid, g => g.map fun grp => grp.join uid
  | leave uid, g => g.bind fun grp => grp.leave uid
  | accept _ uid, g => g.map fun grp => grp.accept uid
  | addFile _ fname info, g => g.map fun grp => grp.addFile fname info

variable {users : StrMap Str} {g : Option GroupInfo} {a b : GroupOp}

lemma act_eq_effect (h : a.Enabled users g) : a.act users g = a.effect g := by
  cases a with
  | create owner =>
      obtain ⟨huser, -⟩ := h
      cases g with
      | none => exact if_pos huser
      | some grp => rfl
  | join uid =>
      cases g with
      | none => rfl
      | some grp => exact if_pos h
  | leave uid => cases g <;> rfl
  | accept owner uid =>
      obtain ⟨grp, rfl, howner, -⟩ := h
      exact if_pos howner
  | addFile uid fname info =>
      obtain ⟨grp, rfl, hmem⟩ := h
      exact if_pos hmem

/-- The owner of every group is a member. -/
def Owned (g : Option GroupInfo) : Prop := ∀ grp, g = some grp → grp.owner ∈ grp.members

/-- An operation takes effect or leaves the group alone. -/
lemma act_cases (users : StrMap Str) (a : GroupOp) (g : Option GroupInfo) :
    a.act users g = g ∨ a.act users g = a.effect g := by
  cases a <;> cases g <;> simp only [act, effect] <;> first | (split <;> simp) | simp

lemma owned_effect (h : Owned g) : Owned (a.effect g) := by
  intro grp' heff
  cases a with
  | create owner =>
      cases g with
      | none =>
          obtain rfl : GroupInfo.create owner = grp' := Option.some.inj heff
          exact Std.ExtTreeSet.mem_insert_self
      | some grp => exact h grp' heff
  | join uid =>
      obtain ⟨grp, rfl, rfl⟩ := Option.map_eq_some_iff.mp heff
      simpa using h grp rfl
  | leave uid =>
      obtain ⟨grp, rfl, hleave⟩ := Option.bind_eq_some_iff.mp heff
      exact (GroupInfo.leave_cases (h grp rfl) hleave).1
  | accept owner uid =>
      obtain ⟨grp, rfl, rfl⟩ := Option.map_eq_some_iff.mp heff
      rw [GroupInfo.owner_accept]
      exact GroupInfo.mem_members_accept uid (h grp rfl)
  | addFile uid fname info =>
      obtain ⟨grp, rfl, rfl⟩ := Option.map_eq_some_iff.mp heff
      simpa using h grp rfl

lemma owned_act (h : Owned g) : Owned (a.act users g) := by
  rcases act_cases users a g with heq | heq
  · rw [heq]
    exact h
  · rw [heq]
    exact owned_effect h

/-- A member who does not leave stays. -/
lemma mem_effect {v : Str} {grp : GroupInfo} (hg : Owned (some grp)) (hv : v ∈ grp.members)
    (hleave : ∀ u, a = leave u → u ≠ v) : ∃ grp', a.effect (some grp) = some grp' ∧
      v ∈ grp'.members := by
  cases a with
  | create owner => exact ⟨grp, rfl, hv⟩
  | join uid => exact ⟨grp.join uid, rfl, by simpa using hv⟩
  | leave uid =>
      have hne := hleave uid rfl
      obtain ⟨grp', hgrp'⟩ := GroupInfo.exists_leave (hg grp rfl) hv hne
      have hmem := (GroupInfo.leave_cases (hg grp rfl) hgrp').2.1
      exact ⟨grp', hgrp', by rw [hmem]; exact Std.ExtTreeSet.mem_erase.mpr ⟨by simpa using hne, hv⟩⟩
  | accept owner uid => exact ⟨grp.accept uid, rfl, GroupInfo.mem_members_accept uid hv⟩
  | addFile uid fname info => exact ⟨grp.addFile fname info, rfl, by simpa using hv⟩

/-- An enabled operation stays enabled when another one that it does not clash
with comes first. -/
lemma stable (hg : Owned g) (ha : a.Enabled users g) (hb : b.Enabled users g)
    (hc : ¬ a.Clash b) : a.Enabled users (b.act users g) := by
  rw [act_eq_effect hb]
  cases a with
  | create owner =>
      obtain ⟨huser, hmem⟩ := ha
      refine ⟨huser, fun grp' heff => ?_⟩
      cases g with
      | some grp =>
          -- the owner does not leave, or the two would clash
          have hstay : ∀ u, b = leave u → u ≠ owner := fun u hu huo =>
            hc (.inl (by rw [hu]; exact huo))
          obtain ⟨grp₁, heq, hin⟩ := mem_effect hg (hmem grp rfl) hstay
          obtain rfl : grp₁ = grp' := Option.some.inj (heq.symm.trans heff)
          exact hin
      | none =>
          cases b with
          | create owner' =>
              obtain rfl : owner = owner' := by
                by_contra hne
                exact hc (.inl hne)
              obtain rfl : GroupInfo.create owner = grp' := Option.some.inj heff
              exact Std.ExtTreeSet.mem_insert_self
          | join uid => cases heff
          | leave uid => cases heff
          | accept owner' uid => cases heff
          | addFile uid fname info => cases heff
  | join uid => exact ha
  | leave uid => trivial
  | accept owner uid =>
      obtain ⟨grp, rfl, howner, huid⟩ := ha
      cases b with
      | create owner' => exact ⟨grp, rfl, howner, huid⟩
      | join u => exact ⟨grp.join u, rfl, by simpa using howner, GroupInfo.mem_join u huid⟩
      | leave u =>
          -- neither of the two whom the acceptance is about leaves
          have huo : u ≠ owner := fun h => hc (.inr (.inl h))
          have huw : u ≠ uid := fun h => hc (.inr (.inr h))
          refine ⟨_, GroupInfo.leave_of_ne (howner ▸ huo), howner, huid.imp_right fun hin => ?_⟩
          exact Std.ExtTreeSet.mem_erase.mpr ⟨by simpa using huw, hin⟩
      | accept owner' w =>
          exact ⟨grp.accept w, rfl, by simpa using howner, GroupInfo.mem_accept w huid⟩
      | addFile u fname info =>
          exact ⟨grp.addFile fname info, rfl, by simpa using howner, by simpa using huid⟩
  | addFile uid fname info =>
      obtain ⟨grp, rfl, hmem⟩ := ha
      have hstay : ∀ u, b = leave u → u ≠ uid := fun u hu huv => hc (.inr (by rw [hu]; exact huv))
      exact mem_effect hg hmem hstay

/-! ### Commutation -/

lemma create_comm {owner : Str} (hg : Owned g) (ha : (create owner).Enabled users g)
    (hb : b.Enabled users g) (hc : ¬ (create owner).Clash b) :
    b.effect ((create owner).effect g) = (create owner).effect (b.effect g) := by
  cases b with
  | create owner' =>
      obtain rfl : owner = owner' := by
        by_contra hne
        exact hc (.inl hne)
      rfl
  | join uid =>
      cases g with
      | some grp => rfl
      | none =>
          obtain rfl : uid = owner := by
            by_contra hne
            exact hc (.inl hne)
          simp [effect, GroupInfo.create, GroupInfo.join]
  | leave uid =>
      have hne : uid ≠ owner := fun h => hc (.inl h)
      cases g with
      | some grp =>
          obtain ⟨grp', hgrp'⟩ := GroupInfo.exists_leave (hg grp rfl) (ha.2 grp rfl) hne
          simp [effect, hgrp']
      | none =>
          have hout : uid ∉ (GroupInfo.create owner).members := by
            simpa [GroupInfo.create] using Ne.symm hne
          simp [effect, GroupInfo.leave, hout]
  | accept owner' uid =>
      obtain ⟨grp, rfl, -⟩ := hb
      rfl
  | addFile uid fname info =>
      obtain ⟨grp, rfl, -⟩ := hb
      rfl

lemma join_comm {uid : Str} (hg : Owned g) (ha : (join uid).Enabled users g)
    (hb : b.Enabled users g) (hc : ¬ (join uid).Clash b) :
    b.effect ((join uid).effect g) = (join uid).effect (b.effect g) := by
  cases b with
  | create owner => exact (create_comm hg hb ha fun h => hc h.symm).symm
  | join v =>
      cases g with
      | none => rfl
      | some grp => exact congrArg some (GroupInfo.join_join uid v)
  | leave v =>
      cases g with
      | none => rfl
      | some grp => exact GroupInfo.join_leave (hg grp rfl) fun h => hc (.inl h)
  | accept owner w =>
      obtain ⟨grp, rfl, -, hw⟩ := hb
      exact congrArg some (GroupInfo.join_accept uid w hw)
  | addFile v fname info =>
      cases g with
      | none => rfl
      | some grp => exact congrArg some (GroupInfo.join_addFile uid fname info)

lemma leave_comm {uid : Str} (hg : Owned g) (ha : (leave uid).Enabled users g)
    (hb : b.Enabled users g) (hc : ¬ (leave uid).Clash b) :
    b.effect ((leave uid).effect g) = (leave uid).effect (b.effect g) := by
  cases b with
  | create owner => exact (create_comm hg hb ha fun h => hc h.symm).symm
  | join v => exact (join_comm hg hb ha fun h => hc h.symm).symm
  | leave v =>
      cases g with
      | none => rfl
      | some grp => exact GroupInfo.leave_leave (hg grp rfl) uid v
  | accept owner w =>
      obtain ⟨grp, rfl, rfl, -⟩ := hb
      have hleave : (grp.accept w).leave uid = (grp.leave uid).map fun g => g.accept w :=
        GroupInfo.accept_leave (fun h => hc (.inl (.inl h))) fun h => hc (.inl (.inr h))
      exact hleave.symm
  | addFile v fname info =>
      cases g with
      | none => rfl
      | some grp => exact (GroupInfo.addFile_leave (hg grp rfl) uid fname info).symm

lemma accept_comm {owner uid : Str} (hg : Owned g) (ha : (accept owner uid).Enabled users g)
    (hb : b.Enabled users g) (hc : ¬ (accept owner uid).Clash b) :
    b.effect ((accept owner uid).effect g) = (accept owner uid).effect (b.effect g) := by
  cases b with
  | create owner' => exact (create_comm hg hb ha fun h => hc h.symm).symm
  | join v => exact (join_comm hg hb ha fun h => hc h.symm).symm
  | leave v => exact (leave_comm hg hb ha fun h => hc h.symm).symm
  | accept owner' w =>
      obtain ⟨grp, rfl, -⟩ := hb
      exact congrArg some (GroupInfo.accept_accept uid w)
  | addFile v fname info =>
      obtain ⟨grp, rfl, -⟩ := hb
      exact congrArg some (GroupInfo.accept_addFile uid fname info)

lemma addFile_comm {uid fname : Str} {info : FileInfo} (hg : Owned g)
    (ha : (addFile uid fname info).Enabled users g) (hb : b.Enabled users g)
    (hc : ¬ (addFile uid fname info).Clash b) :
    b.effect ((addFile uid fname info).effect g) =
      (addFile uid fname info).effect (b.effect g) := by
  cases b with
  | create owner' => exact (create_comm hg hb ha fun h => hc h.symm).symm
  | join v => exact (join_comm hg hb ha fun h => hc h.symm).symm
  | leave v => exact (leave_comm hg hb ha fun h => hc h.symm).symm
  | accept owner w => exact (accept_comm hg hb ha fun h => hc h.symm).symm
  | addFile v fname' info' =>
      obtain ⟨grp, rfl, -⟩ := hb
      refine congrArg some (GroupInfo.addFile_addFile fun hname => ?_)
      by_contra hne
      exact hc (.inl ⟨hname, hne⟩)

/-- **Enabled operations on one group commute unless they clash.** -/
lemma effect_comm (hg : Owned g) (ha : a.Enabled users g) (hb : b.Enabled users g)
    (hc : ¬ a.Clash b) : b.effect (a.effect g) = a.effect (b.effect g) := by
  cases a with
  | create owner => exact create_comm hg ha hb hc
  | join uid => exact join_comm hg ha hb hc
  | leave uid => exact leave_comm hg ha hb hc
  | accept owner uid => exact accept_comm hg ha hb hc
  | addFile uid fname info => exact addFile_comm hg ha hb hc

end GroupOp

/-! ### Operations on a directory -/

namespace DirOp

/-- What is known of an operation that succeeded on the other tracker. -/
def Enabled (d : Directory) : DirOp → Prop
  | group gid op => op.Enabled d.users d.groups[gid]?
  | nop | addUser .. => True

/-- **The clashes**: two registrations of one id with different passwords, or
two operations on one group that depend on their order. -/
def Clash : DirOp → DirOp → Prop
  | addUser uid hash, addUser uid' hash' => uid = uid' ∧ hash ≠ hash'
  | group gid op, group gid' op' => gid = gid' ∧ op.Clash op'
  | _, _ => False

lemma Clash.symm {a b : DirOp} (h : a.Clash b) : b.Clash a := by
  cases a <;> cases b <;> try exact h
  case addUser.addUser => exact ⟨h.1.symm, Ne.symm h.2⟩
  case group.group => exact ⟨h.1.symm, Or.symm h.2⟩

end DirOp

namespace Directory

/-- The owner of every group is a member. -/
def Owned (d : Directory) : Prop := ∀ gid : Str, GroupOp.Owned d.groups[gid]?

variable {d : Directory} {a b : DirOp}

/-- Users are never removed. -/
lemma mem_users_act {uid : Str} (h : uid ∈ d.users) (a : DirOp) : uid ∈ (d.act a).users := by
  cases a with
  | nop => exact h
  | addUser uid' hash =>
      rw [act]
      split
      · exact h
      · exact Std.ExtTreeMap.mem_insert.mpr (.inr h)
  | group gid op => exact h

lemma getElem?_act_group (d : Directory) (gid gid' : Str) (op : GroupOp) :
    (d.act (.group gid op)).groups[gid']? =
      if gid = gid' then op.act d.users d.groups[gid]? else d.groups[gid']? := by
  rw [act, Std.ExtTreeMap.getElem?_alter]
  simp

lemma groups_act_addUser (d : Directory) (uid hash : Str) :
    (d.act (.addUser uid hash)).groups = d.groups := by
  rw [act]
  split <;> rfl

lemma Owned.act (h : d.Owned) (a : DirOp) : (d.act a).Owned := by
  intro gid
  cases a with
  | nop => exact h gid
  | addUser uid hash =>
      rw [groups_act_addUser]
      exact h gid
  | group gid' op =>
      rw [getElem?_act_group]
      split
      · exact GroupOp.owned_act (h gid')
      · exact h gid

end Directory

/-- An operation that is enabled stays so when users are added. -/
lemma GroupOp.Enabled.mono {users users' : StrMap Str} {g : Option GroupInfo} {a : GroupOp}
    (h : a.Enabled users g) (hsub : ∀ uid ∈ users, uid ∈ users') : a.Enabled users' g := by
  cases a with
  | create owner => exact ⟨hsub owner h.1, h.2⟩
  | join uid => exact hsub uid h
  | leave uid => trivial
  | accept owner uid => exact h
  | addFile uid fname info => exact h

namespace Directory

variable {d : Directory} {a b : DirOp}

lemma enabled_act (hd : d.Owned) (ha : a.Enabled d) (hb : b.Enabled d) (hc : ¬ a.Clash b) :
    a.Enabled (d.act b) := by
  cases a with
  | nop => trivial
  | addUser uid hash => trivial
  | group gid op =>
      have hmono : ∀ uid ∈ d.users, uid ∈ (d.act b).users := fun uid h => mem_users_act h b
      cases b with
      | nop => exact ha
      | addUser uid hash =>
          rw [DirOp.Enabled, groups_act_addUser]
          exact GroupOp.Enabled.mono ha hmono
      | group gid' op' =>
          rw [DirOp.Enabled, getElem?_act_group]
          split
          · next heq =>
              subst heq
              exact GroupOp.stable (hd _) ha hb fun h => hc ⟨rfl, h⟩
          · exact ha

lemma act_addUser_of_mem {uid : Str} (h : uid ∈ d.users) (hash : Str) :
    d.act (.addUser uid hash) = d := if_pos h

lemma act_addUser_of_notMem {uid : Str} (h : uid ∉ d.users) (hash : Str) :
    d.act (.addUser uid hash) = { d with users := d.users.insert uid hash } := if_neg h

/-- A registration and a group operation: the registration does not matter to an
operation whose user exists. -/
lemma act_addUser_group {gid uid hash : Str} {op : GroupOp}
    (ha : op.Enabled d.users d.groups[gid]?) :
    (d.act (.addUser uid hash)).act (.group gid op)
      = (d.act (.group gid op)).act (.addUser uid hash) := by
  by_cases hu : uid ∈ d.users
  · rw [act_addUser_of_mem hu, act_addUser_of_mem (d := d.act (.group gid op)) hu]
  · rw [act_addUser_of_notMem hu, act_addUser_of_notMem (d := d.act (.group gid op)) hu]
    have hmono : ∀ v ∈ d.users, v ∈ d.users.insert uid hash := fun v h =>
      Std.ExtTreeMap.mem_insert.mpr (.inr h)
    refine Directory.ext rfl (Std.ExtTreeMap.alter_congr _ ?_)
    rw [GroupOp.act_eq_effect ha, GroupOp.act_eq_effect (ha.mono hmono)]

/-- Registrations that do not clash commute. -/
lemma act_addUser_addUser {uid uid' hash hash' : Str} (h : uid = uid' → hash = hash') :
    (d.act (.addUser uid hash)).act (.addUser uid' hash')
      = (d.act (.addUser uid' hash')).act (.addUser uid hash) := by
  by_cases huu : uid = uid'
  · rw [huu, h huu]
  · by_cases hu : uid ∈ d.users
    · rw [act_addUser_of_mem hu, act_addUser_of_mem (mem_users_act hu _)]
    · by_cases hu' : uid' ∈ d.users
      · rw [act_addUser_of_mem hu', act_addUser_of_mem (mem_users_act hu' _)]
      · rw [act_addUser_of_notMem hu, act_addUser_of_notMem hu',
          act_addUser_of_notMem (by simp [huu, hu']),
          act_addUser_of_notMem (by simp [Ne.symm huu, hu]),
          Std.ExtTreeMap.insert_comm _ huu]

lemma act_comm (hd : d.Owned) (ha : a.Enabled d) (hb : b.Enabled d) (hc : ¬ a.Clash b) :
    (d.act a).act b = (d.act b).act a := by
  cases a with
  | nop => rfl
  | addUser uid hash =>
      cases b with
      | nop => rfl
      | addUser uid' hash' =>
          refine act_addUser_addUser fun huid => ?_
          by_contra hne
          exact hc ⟨huid, hne⟩
      | group gid op => exact act_addUser_group hb
  | group gid op =>
      cases b with
      | nop => rfl
      | addUser uid hash => exact (act_addUser_group ha).symm
      | group gid' op' =>
          by_cases hg : gid = gid'
          · subst hg
            have hop : ¬ op.Clash op' := fun h => hc ⟨rfl, h⟩
            simp only [act, Std.ExtTreeMap.alter_alter]
            refine Directory.ext rfl (Std.ExtTreeMap.alter_congr _ ?_)
            have hb' := GroupOp.stable (hd gid) hb ha fun h => hop h.symm
            have ha' := GroupOp.stable (hd gid) ha hb hop
            show op'.act d.users (op.act d.users d.groups[gid]?)
              = op.act d.users (op'.act d.users d.groups[gid]?)
            rw [GroupOp.act_eq_effect hb', GroupOp.act_eq_effect ha', GroupOp.act_eq_effect ha,
              GroupOp.act_eq_effect hb]
            exact GroupOp.effect_comm (hd gid) ha hb hop
          · simp only [act, Std.ExtTreeMap.alter_comm _ hg]

end Directory

/-- **Operations on directories are confluent**: those that are enabled together
and do not clash can be applied in either order. -/
theorem directory_confluent :
    Confluent Directory.act Directory.Owned (fun d a => a.Enabled d) DirOp.Clash where
  inv_act a h := h.act a
  symm h := h.symm
  stable hd ha hb hc := Directory.enabled_act hd ha hb hc
  comm hd ha hb hc := Directory.act_comm hd ha hb hc

/-! ### What a tracker sends -/

namespace TrackerState

variable {H : Str → Str} {s s' : TrackerState} {c : Call}

lemma WellFormed.owned (hs : s.WellFormed) : s.directory.Owned := by
  intro gid info hinfo
  rw [getElem?_directory_groups] at hinfo
  obtain ⟨grp, hgrp, rfl⟩ := Option.map_eq_some_iff.mp hinfo
  exact (hs.group gid grp hgrp).owner

/-- The view of a group that is there. -/
lemma directory_group {gid : Str} {grp : Group} (hgrp : s.groups[gid]? = some grp) :
    s.directory.groups[gid]? = some grp.info := by
  rw [getElem?_directory_groups, hgrp]
  rfl

/-- **A call that succeeds is enabled.** -/
theorem Ran.enabled (hran : Ran H s c s') : (c.dirOp H).Enabled s.directory := by
  cases hran with
  | createUser huid hpwd => simp [Call.dirOp, huid, hpwd, DirOp.Enabled]
  | login | logout | stopShare | updateBitfield => trivial
  | @createGroup gid owner hgid howner huser hnew =>
      have hnone : s.directory.groups[gid]? = none := by
        rw [getElem?_directory_groups, Std.ExtTreeMap.getElem?_eq_none hnew]
        rfl
      simp [Call.dirOp, hgid, howner, DirOp.Enabled, GroupOp.Enabled, huser, hnone]
  | joinGroup hgid huid hg huser =>
      simp [Call.dirOp, hgid, huid, DirOp.Enabled, GroupOp.Enabled, huser]
  | dissolve hgid huid | handoff hgid huid | leave hgid huid =>
      simp [Call.dirOp, hgid, huid, DirOp.Enabled, GroupOp.Enabled]
  | @acceptRequest gid owner uid grp hgid hown huid hg howner hpend =>
      simp only [Call.dirOp, hgid, hown, huid, or_self, if_false]
      exact ⟨grp.info, directory_group hg, howner, .inl hpend⟩
  | @addSeeder gid uid ip port fmeta grp fm hgid huid hname hg hmem =>
      simp only [Call.dirOp, hgid, huid, hname, or_self, if_false]
      exact ⟨grp.info, directory_group hg, hmem⟩
  | @addFile gid uid ip port fmeta grp hgid huid hname hg hmem =>
      simp only [Call.dirOp, hgid, huid, hname, or_self, if_false]
      exact ⟨grp.info, directory_group hg, hmem⟩

end TrackerState

end P2PShare
