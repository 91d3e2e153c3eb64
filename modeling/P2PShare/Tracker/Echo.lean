import P2PShare.Lib.Redelivery
import P2PShare.Tracker.Directory

/-!
One group in two deliveries of the same ops.

* `standingOf`, `ownerOf`, `infoOf`, `entryOf`: what is recorded of a group, one
  value at a time; together they determine it, as `group_ext` says.
* `Group.join`, …, `Group.announce`: what each op makes of a group, whatever it
  answers; `touches_joinGroup`, …, `touches_updateBitfield` say so of the
  operations of the tracker.
* `GroupEchoes X Y Z`: every value of `Y` is the one of `X` or the one of `Z`, with
  one lemma for each op about what keeps it so.
-/

namespace P2PShare

/-! ### What is recorded of a group -/

/-- What a user is to a group. -/
inductive Standing
  | out
  | pending
  | member
deriving DecidableEq

namespace Group

/-- What a user is to the group. -/
def standing (grp : Group) (uid : Str) : Standing :=
  if uid ∈ grp.members then .member else if uid ∈ grp.pending then .pending else .out

/-- The metadata of a file. -/
def fileInfo (grp : Group) (fname : Str) : Option FileInfo := grp.files[fname]?.map FileMeta.info

/-- The seeder entry of a user for a file. -/
def entry (grp : Group) (fname uid : Str) : Option PeerRef :=
  grp.files[fname]?.bind fun fm => fm.seeders[uid]?

/-- Who owns the group when `uid` has left it. -/
def heir (grp : Group) (uid : Str) : Option Str :=
  if uid = grp.owner then (grp.members.erase uid).min? else some grp.owner

variable {grp : Group} {uid : Str}

lemma standing_eq_member : grp.standing uid = .member ↔ uid ∈ grp.members := by
  rw [standing]
  split
  · next h => exact iff_of_true rfl h
  · next h =>
      refine iff_of_false ?_ h
      split <;> simp

lemma standing_eq_out : grp.standing uid = .out ↔ uid ∉ grp.members ∧ uid ∉ grp.pending := by
  rw [standing]
  split
  · next h => simp [h]
  · next h =>
      split
      · next hp => simp [hp]
      · next hp => simp [h, hp]

lemma standing_eq_pending (hdis : uid ∈ grp.members → uid ∉ grp.pending) :
    grp.standing uid = .pending ↔ uid ∈ grp.pending := by
  rw [standing]
  split
  · next h => simp [hdis h]
  · next h =>
      split
      · next hp => simp [hp]
      · next hp => simp [hp]

end Group

section

variable (o : Option Group) (fname uid : Str)

/-- The owner, if there is a group. -/
def ownerOf : Option Str := o.map Group.owner

/-- What a user is to a group that may not exist. -/
def standingOf : Standing := o.elim .out fun grp => grp.standing uid

/-- The metadata of a file of a group that may not exist. -/
def infoOf : Option FileInfo := o.bind fun grp => grp.fileInfo fname

/-- The seeder entry in a group that may not exist. -/
def entryOf : Option PeerRef := o.bind fun grp => grp.entry fname uid

end

/-- These values determine a file. -/
lemma file_ext {fm fm' : FileMeta} (hname : fm.name = fm'.name) (hinfo : fm.info = fm'.info)
    (hseed : ∀ uid : Str, fm.seeders[uid]? = fm'.seeders[uid]?) : fm = fm' := by
  obtain ⟨name, size, fileHash, pieceHashes, seeders⟩ := fm
  obtain ⟨name', size', fileHash', pieceHashes', seeders'⟩ := fm'
  obtain rfl : seeders = seeders' := Std.ExtTreeMap.ext_getElem? fun uid => hseed uid
  cases hname
  cases hinfo
  rfl

/-- **These values determine a group** that is well formed. -/
lemma group_ext {users : StrMap User} {grp grp' : Group} (h : grp.Ok users) (h' : grp'.Ok users)
    (hid : grp.id = grp'.id) (howner : grp.owner = grp'.owner)
    (hstanding : ∀ uid, grp.standing uid = grp'.standing uid)
    (hinfo : ∀ fname, grp.fileInfo fname = grp'.fileInfo fname)
    (hentry : ∀ fname uid, grp.entry fname uid = grp'.entry fname uid) : grp = grp' := by
  have hmembers : grp.members = grp'.members := by
    refine Std.ExtTreeSet.ext_mem fun uid => ?_
    rw [← Group.standing_eq_member, hstanding, Group.standing_eq_member]
  have hpending : grp.pending = grp'.pending := by
    refine Std.ExtTreeSet.ext_mem fun uid => ?_
    rw [← Group.standing_eq_pending (h.disjoint uid), hstanding,
      Group.standing_eq_pending (h'.disjoint uid)]
  have hfiles : grp.files = grp'.files := by
    refine Std.ExtTreeMap.ext_getElem? fun fname => ?_
    have hi := hinfo fname
    have he := hentry fname
    have hk := h.keys.files fname
    have hk' := h'.keys.files fname
    rw [Group.fileInfo, Group.fileInfo] at hi
    simp only [Group.entry] at he
    cases hfm : grp.files[fname]? with
    | none => simpa [hfm, eq_comm] using hi
    | some fm =>
        cases hfm' : grp'.files[fname]? with
        | none => simp [hfm, hfm'] at hi
        | some fm' =>
            rw [hfm, hfm'] at hi he
            exact congrArg some (file_ext ((hk fm hfm).trans (hk' fm' hfm').symm)
              (Option.some.inj hi) he)
  obtain ⟨id, owner, members, pending, files⟩ := grp
  obtain ⟨id', owner', members', pending', files'⟩ := grp'
  cases hid
  cases howner
  cases hmembers
  cases hpending
  cases hfiles
  rfl

/-! ### Groups that echo -/

/-- Every value recorded of the group in the second delivery `Y` is the one of the
first delivery `X` or the one at the end `Z`. -/
structure GroupEchoes (X Y Z : Option Group) : Prop where
  owner : Echoes (ownerOf X) (ownerOf Y) (ownerOf Z)
  standing : ∀ uid, Echoes (standingOf X uid) (standingOf Y uid) (standingOf Z uid)
  info : ∀ fname, Echoes (infoOf X fname) (infoOf Y fname) (infoOf Z fname)
  entry : ∀ fname uid, Echoes (entryOf X fname uid) (entryOf Y fname uid) (entryOf Z fname uid)

namespace GroupEchoes

variable {X Y Z : Option Group}

lemma same (X Z : Option Group) : GroupEchoes X X Z :=
  ⟨.same _ _, fun _ => .same _ _, fun _ => .same _ _, fun _ _ => .same _ _⟩

lemma last (X Z : Option Group) : GroupEchoes X Z Z :=
  ⟨.last _ _, fun _ => .last _ _, fun _ => .last _ _, fun _ _ => .last _ _⟩

/-- A group that is gone although it was there is gone at the end. -/
lemma eq_none (h : GroupEchoes X Y Z) (hX : X ≠ none) (hY : Y = none) : Z = none := by
  subst hY
  have hne : ownerOf none ≠ ownerOf X := by
    cases X with
    | none => exact absurd rfl hX
    | some grp => simp [ownerOf]
  have hlast := h.owner.eq_last hne
  cases Z with
  | none => rfl
  | some grp => simp [ownerOf] at hlast

end GroupEchoes

/-! ### What the ops make of a group -/

namespace Group

/-- `create_group`, for an owner who is a user. -/
def create (gid owner : Str) : Option Group → Option Group
  | none => some ⟨gid, owner, (∅ : StrSet).insert owner, ∅, ∅⟩
  | some grp => some grp

/-- `join_group`, for somebody who is a user. -/
def join (uid : Str) (grp : Group) : Group :=
  if uid ∈ grp.members ∨ uid ∈ grp.pending then grp
  else { grp with pending := grp.pending.insert uid }

/-- `leave_group`. -/
def leave (uid : Str) (grp : Group) : Option Group :=
  if uid ∉ grp.members then some grp
  else (grp.heir uid).map fun m => { grp with members := grp.members.erase uid, owner := m }

/-- `accept_request`. -/
def accept (owner uid : Str) (grp : Group) : Group :=
  if grp.owner ≠ owner ∨ uid ∉ grp.pending then grp
  else { grp with pending := grp.pending.erase uid, members := grp.members.insert uid }

/-- `add_file`, for an uploader with this entry. -/
def upload (uid : Str) (pr : PeerRef) (fmeta : FileMeta) (grp : Group) : Group :=
  if uid ∉ grp.members then grp
  else match grp.files[fmeta.name]? with
    | none =>
        { grp with
          files := grp.files.insert fmeta.name
            { fmeta with seeders := (∅ : StrMap PeerRef).insert uid pr } }
    | some fm =>
        if fm.fileHash ≠ fmeta.fileHash then grp
        else
          { grp with
            files := grp.files.insert fmeta.name { fm with seeders := fm.seeders.insert uid pr } }

/-- `stop_share`. -/
def stop (uid fname : Str) (grp : Group) : Group :=
  match grp.files[fname]? with
  | none => grp
  | some fm =>
      if uid ∉ fm.seeders then grp
      else
        { grp with files := grp.files.insert fname { fm with seeders := fm.seeders.erase uid } }

/-- `update_bitfield`, with this entry. -/
def announce (uid : Str) (pr : PeerRef) (fname : Str) (grp : Group) : Group :=
  if uid ∉ grp.members then grp
  else match grp.files[fname]? with
    | none => grp
    | some fm =>
        { grp with files := grp.files.insert fname { fm with seeders := fm.seeders.insert uid pr } }

end Group

/-! ### The values after an op -/

namespace Group

variable {grp : Group} {uid owner fname : Str} {pr : PeerRef} {fmeta : FileMeta}

/-- The group takes the upload: its user is a member, and a file of this name has
the same content. -/
def Takes (grp : Group) (uid : Str) (fmeta : FileMeta) : Prop :=
  uid ∈ grp.members ∧ ∀ i ∈ grp.fileInfo fmeta.name, i.fileHash = fmeta.fileHash

instance : Decidable (grp.Takes uid fmeta) := inferInstanceAs (Decidable (_ ∧ _))

@[simp] lemma owner_join : (grp.join uid).owner = grp.owner := by
  rw [join]
  split <;> rfl

@[simp] lemma files_join : (grp.join uid).files = grp.files := by
  rw [join]
  split <;> rfl

lemma standing_join (v : Str) :
    (grp.join uid).standing v =
      if uid = v ∧ grp.standing uid = .out then .pending else grp.standing v := by
  rw [join]
  split
  · next h =>
      have hne : ¬ (uid = v ∧ grp.standing uid = .out) := fun hv => by
        have hout := standing_eq_out.mp hv.2
        exact h.elim hout.1 hout.2
      rw [if_neg hne]
  · next h =>
      have hout : grp.standing uid = .out := standing_eq_out.mpr (not_or.mp h)
      rw [not_or] at h
      by_cases hv : uid = v
      · subst hv
        simp [standing, h.1]
      · simp [standing, hv]

@[simp] lemma owner_accept : (grp.accept owner uid).owner = grp.owner := by
  rw [accept]
  split <;> rfl

@[simp] lemma files_accept : (grp.accept owner uid).files = grp.files := by
  rw [accept]
  split <;> rfl

lemma standing_accept (v : Str) :
    (grp.accept owner uid).standing v =
      if uid = v ∧ grp.owner = owner ∧ uid ∈ grp.pending then .member else grp.standing v := by
  rw [accept]
  split
  · next h =>
      rw [if_neg fun hv => h.elim (fun hne => hne hv.2.1) fun hp => hp hv.2.2]
  · next h =>
      rw [not_or, not_not, not_not] at h
      by_cases hv : uid = v
      · subst hv
        simp [standing, h]
      · simp [standing, hv]

lemma heir_of_ne (hne : uid ≠ grp.owner) : grp.heir uid = some grp.owner := if_neg hne

/-- Who leaves no heir was the owner, and nobody else was a member. -/
lemma alone_of_heir (hnone : grp.heir uid = none) :
    uid = grp.owner ∧ ∀ v, uid ≠ v → grp.standing v ≠ .member := by
  have heq : uid = grp.owner := by
    by_contra hne
    cases (heir_of_ne hne).symm.trans hnone
  refine ⟨heq, fun v hv hmember => ?_⟩
  rw [heir, if_pos heq, Std.ExtTreeSet.min?_eq_none_iff] at hnone
  have hstays : v ∈ grp.members.erase uid :=
    Std.ExtTreeSet.mem_erase.mpr ⟨by simpa using hv, standing_eq_member.mp hmember⟩
  rw [hnone] at hstays
  simp at hstays

/-- A group that a member has left. -/
lemma standing_erase (grp : Group) (hdis : uid ∉ grp.pending) (m v : Str) :
    standing { grp with members := grp.members.erase uid, owner := m } v =
      if uid = v then .out else grp.standing v := by
  by_cases hv : uid = v
  · subst hv
    simp [standing, hdis]
  · simp [standing, hv]

lemma fileInfo_setFile (fm : FileMeta) (f : Str) :
    fileInfo { grp with files := grp.files.insert fname fm } f =
      if fname = f then some fm.info else grp.fileInfo f := by
  rw [fileInfo, fileInfo, Std.ExtTreeMap.getElem?_insert]
  by_cases hf : fname = f <;> simp [hf]

lemma entry_setFile (fm : FileMeta) (f v : Str) :
    entry { grp with files := grp.files.insert fname fm } f v =
      if fname = f then fm.seeders[v]? else grp.entry f v := by
  rw [entry, entry, Std.ExtTreeMap.getElem?_insert]
  by_cases hf : fname = f <;> simp [hf]

@[simp] lemma owner_upload : (grp.upload uid pr fmeta).owner = grp.owner := by
  unfold upload
  split
  · rfl
  · split
    · rfl
    · split <;> rfl

@[simp] lemma standing_upload (v : Str) :
    (grp.upload uid pr fmeta).standing v = grp.standing v := by
  unfold upload
  split
  · rfl
  · split
    · rfl
    · split <;> rfl

lemma fileInfo_upload (f : Str) :
    (grp.upload uid pr fmeta).fileInfo f =
      if fmeta.name = f ∧ uid ∈ grp.members ∧ grp.fileInfo fmeta.name = none then some fmeta.info
      else grp.fileInfo f := by
  unfold upload
  split
  · next h => simp [h]
  · next h =>
      rw [not_not] at h
      split
      · next hf =>
          rw [fileInfo_setFile]
          by_cases hname : fmeta.name = f
          · subst hname
            simp [h, fileInfo, hf, FileMeta.info]
          · simp [hname]
      · next fm hf =>
          split
          · simp [fileInfo, hf]
          · rw [fileInfo_setFile]
            by_cases hname : fmeta.name = f
            · simp [fileInfo, ← hname, hf, FileMeta.info]
            · simp [hname]

lemma entry_upload (f v : Str) :
    (grp.upload uid pr fmeta).entry f v =
      if fmeta.name = f ∧ uid = v ∧ grp.Takes uid fmeta then some pr else grp.entry f v := by
  unfold upload
  split
  · next h => simp [Takes, h]
  · next h =>
      rw [not_not] at h
      split
      · next hf =>
          rw [entry_setFile]
          by_cases hname : fmeta.name = f
          · subst hname
            by_cases hv : uid = v
            · subst hv
              simp [Takes, h, fileInfo, hf]
            · simp [entry, hf, hv]
          · simp [hname]
      · next fm hf =>
          split
          · next hh => simp [Takes, fileInfo, hf, FileMeta.info, hh]
          · next hh =>
              rw [entry_setFile]
              by_cases hname : fmeta.name = f
              · subst hname
                rw [not_not] at hh
                by_cases hv : uid = v
                · subst hv
                  simp [Takes, h, fileInfo, hf, FileMeta.info, hh]
                · simp [entry, hf, hv, Std.ExtTreeMap.getElem?_insert]
              · simp [hname]

@[simp] lemma owner_stop : (grp.stop uid fname).owner = grp.owner := by
  unfold stop
  split
  · rfl
  · split <;> rfl

@[simp] lemma standing_stop (v : Str) : (grp.stop uid fname).standing v = grp.standing v := by
  unfold stop
  split
  · rfl
  · split <;> rfl

lemma fileInfo_stop (f : Str) : (grp.stop uid fname).fileInfo f = grp.fileInfo f := by
  unfold stop
  split
  · rfl
  · next fm hf =>
      split
      · rfl
      · rw [fileInfo_setFile]
        by_cases hname : fname = f
        · simp [fileInfo, ← hname, hf, FileMeta.info]
        · simp [hname]

lemma entry_stop (f v : Str) :
    (grp.stop uid fname).entry f v = if fname = f ∧ uid = v then none else grp.entry f v := by
  unfold stop
  split
  · next hf =>
      split
      · next h => simp [entry, ← h.1, hf]
      · rfl
  · next fm hf =>
      split
      · next hs =>
          split
          · next h => simp [entry, ← h.1, hf, ← h.2, Std.ExtTreeMap.getElem?_eq_none hs]
          · rfl
      · rw [entry_setFile]
        by_cases hname : fname = f
        · subst hname
          by_cases hv : uid = v <;> simp [entry, hf, hv, Std.ExtTreeMap.getElem?_erase]
        · simp [hname]

@[simp] lemma owner_announce : (grp.announce uid pr fname).owner = grp.owner := by
  unfold announce
  split
  · rfl
  · split <;> rfl

@[simp] lemma standing_announce (v : Str) :
    (grp.announce uid pr fname).standing v = grp.standing v := by
  unfold announce
  split
  · rfl
  · split <;> rfl

lemma fileInfo_announce (f : Str) : (grp.announce uid pr fname).fileInfo f = grp.fileInfo f := by
  unfold announce
  split
  · rfl
  · split
    · rfl
    · next fm hf =>
        rw [fileInfo_setFile]
        by_cases hname : fname = f
        · simp [fileInfo, ← hname, hf, FileMeta.info]
        · simp [hname]

lemma entry_announce (f v : Str) :
    (grp.announce uid pr fname).entry f v =
      if fname = f ∧ uid = v ∧ uid ∈ grp.members ∧ grp.fileInfo fname ≠ none then some pr
      else grp.entry f v := by
  unfold announce
  split
  · next h => simp [h]
  · next h =>
      rw [not_not] at h
      split
      · next hf => simp [fileInfo, hf]
      · next fm hf =>
          rw [entry_setFile]
          by_cases hname : fname = f
          · subst hname
            by_cases hv : uid = v
            · subst hv
              simp [fileInfo, h, hf]
            · simp [entry, hf, hv, Std.ExtTreeMap.getElem?_insert]
          · simp [hname]

end Group

/-! ### One op in both deliveries -/

/-- The requests and the files of the group are at the end as they are here. -/
def Group.Remains (grp : Group) (Z : Option Group) : Prop :=
  (∀ uid ∈ grp.pending.toList, standingOf Z uid = .pending) ∧
  ∀ file ∈ grp.files.toList, infoOf Z file.1 = some file.2.info ∧
    ∀ seeder ∈ file.2.seeders.toList, entryOf Z file.1 seeder.1 = some seeder.2

instance (grp : Group) (Z : Option Group) : Decidable (grp.Remains Z) :=
  inferInstanceAs (Decidable (_ ∧ _))

namespace Group.Remains

variable {grp : Group} {Z : Option Group} (h : grp.Remains Z)

include h

lemma standing {uid : Str} (hne : grp.standing uid ≠ .member) :
    Echoes .out (grp.standing uid) (standingOf Z uid) := by
  rw [Ne, Group.standing_eq_member] at hne
  by_cases hp : uid ∈ grp.pending
  · have hpending : grp.standing uid = .pending := by simp [Group.standing, hne, hp]
    rw [hpending, h.1 uid (Std.ExtTreeSet.mem_toList.mpr hp)]
    exact .last _ _
  · rw [Group.standing_eq_out.mpr ⟨hne, hp⟩]
    exact .same _ _

lemma info (fname : Str) : Echoes none (grp.fileInfo fname) (infoOf Z fname) := by
  cases hf : grp.files[fname]? with
  | none => exact .inl (by rw [Group.fileInfo, hf]; rfl)
  | some fm =>
      have hfile := h.2 (fname, fm) (Std.ExtTreeMap.mem_toList_iff_getElem?_eq_some.mpr hf)
      exact .inr (by rw [Group.fileInfo, hf, hfile.1]; rfl)

lemma entry (fname uid : Str) : Echoes none (grp.entry fname uid) (entryOf Z fname uid) := by
  cases hf : grp.files[fname]? with
  | none => exact .inl (by rw [Group.entry, hf]; rfl)
  | some fm =>
      have hfile := h.2 (fname, fm) (Std.ExtTreeMap.mem_toList_iff_getElem?_eq_some.mpr hf)
      have hentry : grp.entry fname uid = fm.seeders[uid]? := by rw [Group.entry, hf]; rfl
      rw [hentry]
      cases hs : fm.seeders[uid]? with
      | none => exact .same _ _
      | some pr =>
          have hseeder := hfile.2 (uid, pr) (Std.ExtTreeMap.mem_toList_iff_getElem?_eq_some.mpr hs)
          exact .inr hseeder.symm

end Group.Remains

namespace GroupEchoes

variable {X Y Z : Option Group} {gx gy : Group} {uid owner fname : Str} {pr : PeerRef}
  {fmeta : FileMeta}

/-- A change of a group that is there in the first delivery. -/
lemma map (h : GroupEchoes (some gx) Y Z) {G : Group → Group}
    (hsome : ∀ gy, Y = some gy → GroupEchoes (some (G gx)) (some (G gy)) Z) :
    GroupEchoes (some (G gx)) (Y.map G) Z := by
  cases Y with
  | none =>
      obtain rfl := h.eq_none (by simp) rfl
      exact .last _ none
  | some gy => exact hsome gy rfl

/-- The group is created. If it is there now, its creator counts as at the end. -/
lemma create {gid : Str} (h : GroupEchoes none Y Z)
    (howner : ∀ gy ∈ Y, gy.standing owner = .out → standingOf Z owner = .out) :
    GroupEchoes (Group.create gid owner none) (Group.create gid owner Y) Z := by
  cases Y with
  | none => exact .same _ _
  | some gy =>
      refine ⟨.inr (h.owner.eq_last (by simp [ownerOf])), fun v => ?_, h.info, h.entry⟩
      have hfresh : standingOf (Group.create gid owner none) v =
          if owner = v then .member else .out := by
        by_cases hv : owner = v <;> simp [standingOf, Group.create, Group.standing, hv]
      rw [hfresh]
      by_cases hv : owner = v
      · subst hv
        refine .inr ?_
        by_cases hout : gy.standing owner = .out
        · rw [howner gy rfl hout]
          exact hout
        · exact (h.standing owner).eq_last hout
      · rw [if_neg hv]
        exact h.standing v

/-- A user asks to join. -/
lemma join (h : GroupEchoes (some gx) (some gy) Z) (hout : gx.standing uid = .out) :
    GroupEchoes (some (gx.join uid)) (some (gy.join uid)) Z := by
  refine ⟨?_, fun v => ?_, fun f => ?_, fun f v => ?_⟩
  · simpa [ownerOf] using h.owner
  · have hv : Echoes (gx.standing v) (gy.standing v) _ := h.standing v
    show Echoes ((gx.join uid).standing v) ((gy.join uid).standing v) _
    rw [Group.standing_join, Group.standing_join]
    by_cases huv : uid = v
    · subst huv
      by_cases hy : gy.standing uid = .out
      · rw [if_pos ⟨rfl, hout⟩, if_pos ⟨rfl, hy⟩]
        exact .same _ _
      · have hlast := hv.eq_last (by rwa [hout])
        rw [if_pos ⟨rfl, hout⟩, if_neg fun hall => hy hall.2]
        exact .inr hlast
    · simpa [huv] using hv
  · simpa [infoOf, Group.fileInfo] using h.info f
  · simpa [entryOf, Group.entry] using h.entry f v

/-- A request is accepted. Where it is still open, the same owner accepts it, or it
is open at the end. -/
lemma accept (h : GroupEchoes (some gx) (some gy) Z) (hxdis : uid ∈ gx.members → uid ∉ gx.pending)
    (hydis : uid ∈ gy.members → uid ∉ gy.pending) (howner : gx.owner = owner)
    (hpend : uid ∈ gx.pending)
    (hok : uid ∈ gy.pending → gy.owner = owner ∨ standingOf Z uid = .pending) :
    GroupEchoes (some (gx.accept owner uid)) (some (gy.accept owner uid)) Z := by
  refine ⟨?_, fun v => ?_, fun f => ?_, fun f v => ?_⟩
  · simpa [ownerOf] using h.owner
  · have hv : Echoes (gx.standing v) (gy.standing v) _ := h.standing v
    show Echoes ((gx.accept owner uid).standing v) ((gy.accept owner uid).standing v) _
    rw [Group.standing_accept, Group.standing_accept]
    by_cases huv : uid = v
    · subst huv
      have hx := (Group.standing_eq_pending hxdis).mpr hpend
      rw [if_pos ⟨rfl, howner, hpend⟩]
      by_cases hy : uid ∈ gy.pending
      · by_cases hown : gy.owner = owner
        · rw [if_pos ⟨rfl, hown, hy⟩]
          exact .same _ _
        · rw [if_neg fun hall => hown hall.2.1, (Group.standing_eq_pending hydis).mpr hy,
            (hok hy).resolve_left hown]
          exact .last _ _
      · rw [if_neg fun hall => hy hall.2.2]
        exact .inr (hv.eq_last (by rwa [hx, Ne, Group.standing_eq_pending hydis]))
    · simpa [huv] using hv
  · simpa [infoOf, Group.fileInfo] using h.info f
  · simpa [entryOf, Group.entry] using h.entry f v

/-- Somebody leaves a group that their leaving dissolved at first, and that goes on
now as `gy'`, with the files of `gy`. -/
lemma leave_dissolved (h : GroupEchoes (some gx) (some gy) Z) {gy' : Group}
    (hlast : ∀ v, uid ≠ v → gx.standing v ≠ .member) (hrest : gy.Remains Z)
    (hfiles : gy'.files = gy.files) (howner : some gy'.owner = ownerOf Z)
    (huid : Echoes .out (gy'.standing uid) (standingOf Z uid))
    (hother : ∀ v, uid ≠ v → gy'.standing v = gy.standing v) :
    GroupEchoes none (some gy') Z := by
  refine ⟨.inr howner, fun v => ?_, fun f => ?_, fun f v => ?_⟩
  · by_cases hv : uid = v
    · subst hv
      exact huid
    · show Echoes .out (gy'.standing v) _
      rw [hother v hv]
      by_cases hmem : gy.standing v = .member
      · refine .inr ((h.standing v).eq_last fun heq => hlast v hv ?_)
        exact heq.symm.trans hmem
      · exact hrest.standing hmem
  · have hinfo := hrest.info f
    rwa [Group.fileInfo, ← hfiles] at hinfo
  · have hentry := hrest.entry f v
    rwa [Group.entry, ← hfiles] at hentry

/-- Somebody leaves a group that went on at first as `gx'`, and goes on now as
`gy'`. -/
lemma leave_kept (h : GroupEchoes (some gx) (some gy) Z) (uid : Str) {gx' gy' : Group}
    (hxfiles : gx'.files = gx.files) (hyfiles : gy'.files = gy.files)
    (howner : Echoes (some gx'.owner) (some gy'.owner) (ownerOf Z))
    (huid : Echoes (gx'.standing uid) (gy'.standing uid) (standingOf Z uid))
    (hxother : ∀ v, uid ≠ v → gx'.standing v = gx.standing v)
    (hyother : ∀ v, uid ≠ v → gy'.standing v = gy.standing v) :
    GroupEchoes (some gx') (some gy') Z := by
  refine ⟨howner, fun v => ?_, fun f => ?_, fun f v => ?_⟩
  · by_cases hv : uid = v
    · subst hv
      exact huid
    · show Echoes (gx'.standing v) (gy'.standing v) _
      rw [hxother v hv, hyother v hv]
      exact h.standing v
  · have hinfo : Echoes (gx.fileInfo f) (gy.fileInfo f) _ := h.info f
    rwa [Group.fileInfo, Group.fileInfo, ← hxfiles, ← hyfiles] at hinfo
  · have hentry : Echoes (gx.entry f v) (gy.entry f v) _ := h.entry f v
    rwa [Group.entry, Group.entry, ← hxfiles, ← hyfiles] at hentry

/-- A member leaves. An owner who leaves now is followed by the heir of the first
delivery or the owner at the end, and what remains of a group that was dissolved
at first is there at the end. -/
lemma leave {ux uy : StrMap User} (h : GroupEchoes (some gx) (some gy) Z) (hx : gx.Ok ux)
    (hy : gy.Ok uy) (hmem : uid ∈ gx.members)
    (hheir : uid = gy.owner → gy.heir uid = gx.heir uid ∨ gy.heir uid = ownerOf Z)
    (hrest : gx.heir uid = none → uid ∈ gy.members ∧ gy.heir uid = none ∨ gy.Remains Z) :
    GroupEchoes (gx.leave uid) (gy.leave uid) Z := by
  have hxerase := Group.standing_erase gx (hx.disjoint uid hmem)
  have howner : Echoes (some gx.owner) (some gy.owner) (ownerOf Z) := h.owner
  have hstands : Echoes (gx.standing uid) (gy.standing uid) (standingOf Z uid) := h.standing uid
  have hxmem : gx.standing uid = .member := Group.standing_eq_member.mpr hmem
  -- an owner who is no member of the group any more owns it at the end either
  have hnotmem : uid ∉ gy.members → gy.standing uid = standingOf Z uid := fun hout =>
    hstands.eq_last (by rwa [hxmem, Ne, Group.standing_eq_member])
  have hlost : uid ∉ gy.members → uid = gx.owner → some gy.owner = ownerOf Z := by
    intro hout heq
    refine howner.eq_last fun hsame => hout ?_
    rw [heq, ← Option.some.inj hsame]
    exact hy.owner
  -- a member on both trackers, or no longer one on the second
  by_cases hymem : uid ∈ gy.members
  · have hyerase := Group.standing_erase gy (hy.disjoint uid hymem)
    rw [Group.leave, Group.leave, if_neg (not_not.mpr hmem), if_neg (not_not.mpr hymem)]
    have hheirs : Echoes (gx.heir uid) (gy.heir uid) (ownerOf Z) := by
      by_cases heq : uid = gy.owner
      · exact hheir heq
      · rw [Group.heir_of_ne heq]
        refine howner.imp (fun hsame => ?_) id
        rw [hsame, Group.heir_of_ne]
        rwa [← Option.some.inj hsame]
    cases hmy : gy.heir uid with
    | none =>
        -- no heir on the second: none on the first, or the group is gone at the end
        rcases hheirs with hsame | hend
        · rw [← hsame, hmy]
          exact .same _ _
        · have hZ : Z = none := by
            rw [hmy] at hend
            cases Z with
            | none => rfl
            | some gz => cases hend
          rw [hZ]
          exact .last _ none
    | some my =>
        rw [hmy] at hheirs
        cases hmx : gx.heir uid with
        | none =>
            obtain ⟨-, hothers⟩ := Group.alone_of_heir hmx
            have hremains := (hrest hmx).resolve_left fun hgone => by
              rw [hmy] at hgone
              cases hgone.2
            refine h.leave_dissolved hothers hremains rfl ?_ ?_ fun v hv => ?_
            · rw [hmx] at hheirs
              exact hheirs.eq_last (by simp)
            · exact .inl (by simp [hyerase])
            · simp [hyerase, hv]
        | some mx =>
            rw [hmx] at hheirs
            refine h.leave_kept uid rfl rfl hheirs (.inl ?_) (fun v hv => ?_) fun v hv => ?_
            · simp [hxerase, hyerase]
            · simp [hxerase, hv]
            · simp [hyerase, hv]
  · rw [Group.leave, Group.leave, if_neg (not_not.mpr hmem), if_pos hymem]
    cases hmx : gx.heir uid with
    | none =>
        obtain ⟨heq, hothers⟩ := Group.alone_of_heir hmx
        have hremains := (hrest hmx).resolve_left fun hgone => hymem hgone.1
        exact h.leave_dissolved hothers hremains rfl (hlost hymem heq) (.inr (hnotmem hymem))
          fun _ _ => rfl
    | some mx =>
        refine h.leave_kept uid rfl rfl ?_ (.inr (hnotmem hymem)) (fun v hv => ?_)
          fun _ _ => rfl
        · by_cases heq : uid = gx.owner
          · exact .inr (hlost hymem heq)
          · rw [Group.heir_of_ne heq] at hmx
            obtain rfl := Option.some.inj hmx
            exact howner
        · simp [hxerase, hv]

/-- A file is uploaded. A group that takes it now and does not have it had the
same metadata before, if any; one that does not take it has the entry and, if it
lacks the file, lacks it at the end. -/
lemma upload (h : GroupEchoes (some gx) (some gy) Z) (htakes : gx.Takes uid fmeta)
    (hnew : gy.Takes uid fmeta → gy.fileInfo fmeta.name = none →
      ∀ i ∈ gx.fileInfo fmeta.name, i = fmeta.info)
    (hrefused : ¬ gy.Takes uid fmeta →
      (gy.fileInfo fmeta.name = none → infoOf Z fmeta.name = none) ∧
      (gy.entry fmeta.name uid = some pr ∨ gy.entry fmeta.name uid = entryOf Z fmeta.name uid)) :
    GroupEchoes (some (gx.upload uid pr fmeta)) (some (gy.upload uid pr fmeta)) Z := by
  refine ⟨?_, fun v => ?_, fun f => ?_, fun f v => ?_⟩
  · simpa [ownerOf] using h.owner
  · simpa [standingOf] using h.standing v
  -- the metadata of each file
  · have hf : Echoes (gx.fileInfo f) (gy.fileInfo f) _ := h.info f
    show Echoes ((gx.upload uid pr fmeta).fileInfo f) ((gy.upload uid pr fmeta).fileInfo f) _
    rw [Group.fileInfo_upload, Group.fileInfo_upload]
    by_cases hname : fmeta.name = f
    · subst hname
      cases hxi : gx.fileInfo fmeta.name with
      | none =>
          rw [hxi] at hf
          cases hyi : gy.fileInfo fmeta.name with
          | none =>
              by_cases hymem : uid ∈ gy.members
              · simpa [htakes.1, hymem] using Echoes.same _ _
              -- the second has lost the uploader as a member, and the file is not there at the end
              · have hend := (hrefused fun ht => hymem ht.1).1 hyi
                simpa [htakes.1, hymem, hend] using Echoes.last _ none
          | some j =>
              rw [hyi] at hf
              have hend := hf.eq_last (by simp)
              simpa [htakes.1, ← hend] using Echoes.last _ (some j)
      | some i =>
          rw [hxi] at hf
          cases hyi : gy.fileInfo fmeta.name with
          | none =>
              rw [hyi] at hf
              have hend := hf.eq_last (by simp)
              by_cases hymem : uid ∈ gy.members
              · have hytakes : gy.Takes uid fmeta :=
                  ⟨hymem, fun k hk => by cases hyi.symm.trans hk⟩
                simpa [hymem, hnew hytakes hyi i hxi] using Echoes.same _ _
              · simpa [hymem, ← hend] using Echoes.last _ none
          | some j =>
              rw [hyi] at hf
              simpa using hf
    · simpa [hname] using hf
  -- the entry of each seeder
  · have hf : Echoes (gx.entry f v) (gy.entry f v) _ := h.entry f v
    show Echoes ((gx.upload uid pr fmeta).entry f v) ((gy.upload uid pr fmeta).entry f v) _
    rw [Group.entry_upload, Group.entry_upload]
    by_cases hfv : fmeta.name = f ∧ uid = v
    · obtain ⟨rfl, rfl⟩ := hfv
      rw [if_pos ⟨rfl, rfl, htakes⟩]
      by_cases hy : gy.Takes uid fmeta
      · rw [if_pos ⟨rfl, rfl, hy⟩]
        exact .same _ _
      · rw [if_neg fun hall => hy hall.2.2]
        exact (hrefused hy).2
    · rw [if_neg fun hall => hfv ⟨hall.1, hall.2.1⟩, if_neg fun hall => hfv ⟨hall.1, hall.2.1⟩]
      exact hf

/-- A seeder stops. -/
lemma stop (h : GroupEchoes (some gx) (some gy) Z) :
    GroupEchoes (some (gx.stop uid fname)) (some (gy.stop uid fname)) Z := by
  refine ⟨?_, fun v => ?_, fun f => ?_, fun f v => ?_⟩
  · simpa [ownerOf] using h.owner
  · simpa [standingOf] using h.standing v
  · simpa [infoOf, Group.fileInfo_stop] using h.info f
  · have hf : Echoes (gx.entry f v) (gy.entry f v) _ := h.entry f v
    show Echoes ((gx.stop uid fname).entry f v) ((gy.stop uid fname).entry f v) _
    rw [Group.entry_stop, Group.entry_stop]
    split
    · exact .same _ _
    · exact hf

/-- A seeder announces pieces. A group that does not take the announcement now has
the entry. -/
lemma announce (h : GroupEchoes (some gx) (some gy) Z) (hxmem : uid ∈ gx.members)
    (hxfile : gx.fileInfo fname ≠ none)
    (hok : (uid ∈ gy.members ∧ gy.fileInfo fname ≠ none) ∨ gy.entry fname uid = some pr ∨
      gy.entry fname uid = entryOf Z fname uid) :
    GroupEchoes (some (gx.announce uid pr fname)) (some (gy.announce uid pr fname)) Z := by
  refine ⟨?_, fun v => ?_, fun f => ?_, fun f v => ?_⟩
  · simpa [ownerOf] using h.owner
  · simpa [standingOf] using h.standing v
  · simpa [infoOf, Group.fileInfo_announce] using h.info f
  · have hf : Echoes (gx.entry f v) (gy.entry f v) _ := h.entry f v
    show Echoes ((gx.announce uid pr fname).entry f v) ((gy.announce uid pr fname).entry f v) _
    rw [Group.entry_announce, Group.entry_announce]
    by_cases hfv : fname = f ∧ uid = v
    · obtain ⟨rfl, rfl⟩ := hfv
      rw [if_pos ⟨rfl, rfl, hxmem, hxfile⟩]
      by_cases hy : uid ∈ gy.members ∧ gy.fileInfo fname ≠ none
      · rw [if_pos ⟨rfl, rfl, hy⟩]
        exact .same _ _
      · rw [if_neg fun hall => hy hall.2.2]
        exact hok.resolve_left hy
    · rw [if_neg fun hall => hfv ⟨hall.1, hall.2.1⟩, if_neg fun hall => hfv ⟨hall.1, hall.2.1⟩]
      exact hf

end GroupEchoes

namespace TrackerState

/-- The group `gid` is changed by `F`, and nothing else. -/
def Touches (gid : Str) (F : Option Group → Option Group) (s s' : TrackerState) : Prop :=
  s'.users = s.users ∧ ∀ k, s'.groups[k]? = if gid = k then F s.groups[gid]? else s.groups[k]?

variable {H : Str → Str} {s : TrackerState} {gid uid fname : Str}

lemma touches_self {F : Option Group → Option Group} (h : F s.groups[gid]? = s.groups[gid]?) :
    Touches gid F s s := by
  refine ⟨rfl, fun k => ?_⟩
  split
  · next hk => rw [h, hk]
  · rfl

lemma touches_setGroup {F : Option Group → Option Group} {grp : Group}
    (h : F s.groups[gid]? = some grp) : Touches gid F s (s.setGroup gid grp) := by
  refine ⟨rfl, fun k => ?_⟩
  rw [setGroup, Std.ExtTreeMap.getElem?_insert, h]
  simp

lemma touches_erase {F : Option Group → Option Group} (h : F s.groups[gid]? = none) :
    Touches gid F s { s with groups := s.groups.erase gid } := by
  refine ⟨rfl, fun k => ?_⟩
  rw [Std.ExtTreeMap.getElem?_erase, h]
  simp

lemma touches_createGroup {owner : Str} (hgid : gid ≠ []) (howner : owner ≠ [])
    (huser : owner ∈ s.users) :
    Touches gid (Group.create gid owner) s (s.after H (.createGroup gid owner)) := by
  rw [after, exec, createGroup, if_neg (by simp [hgid, howner]), if_neg (by simpa using huser)]
  split
  · next hmem =>
      obtain ⟨grp, hgrp⟩ :=
        Option.isSome_iff_exists.mp (Std.ExtTreeMap.mem_iff_isSome_getElem?.mp hmem)
      exact touches_self (by rw [hgrp, Group.create])
  · next hmem =>
      exact touches_setGroup (by rw [Std.ExtTreeMap.getElem?_eq_none hmem, Group.create])

lemma touches_joinGroup (hgid : gid ≠ []) (huid : uid ≠ []) (huser : uid ∈ s.users) :
    Touches gid (·.map (Group.join uid)) s (s.after H (.joinGroup gid uid)) := by
  rw [after, exec, joinGroup, if_neg (by simp [hgid, huid])]
  cases hg : s.groups[gid]? with
  | none => exact touches_self (by rw [hg]; rfl)
  | some grp =>
      dsimp only
      rw [if_neg (by simpa using huser)]
      split
      · next h => exact touches_self (by simp [hg, Group.join, h])
      · next h => exact touches_setGroup (by simp [hg, Group.join, h])

lemma touches_leaveGroup (hgid : gid ≠ []) (huid : uid ≠ []) :
    Touches gid (·.bind (Group.leave uid)) s (s.after H (.leaveGroup gid uid)) := by
  rw [after, exec, leaveGroup, if_neg (by simp [hgid, huid])]
  cases hg : s.groups[gid]? with
  | none => exact touches_self (by rw [hg]; rfl)
  | some grp =>
      dsimp only
      split
      · next h => exact touches_self (by simp [hg, Group.leave, h])
      · next h =>
          split
          · next howner =>
              subst howner
              split
              · next hmin => exact touches_erase (by simp [hg, Group.leave, h, Group.heir, hmin])
              · next hmin => exact touches_setGroup (by simp [hg, Group.leave, h, Group.heir, hmin])
          · next howner =>
              exact touches_setGroup (by simp [hg, Group.leave, h, Group.heir, howner])

lemma touches_acceptRequest {owner : Str} (hgid : gid ≠ []) (hown : owner ≠ []) (huid : uid ≠ []) :
    Touches gid (·.map (Group.accept owner uid)) s (s.after H (.acceptRequest gid owner uid)) := by
  rw [after, exec, acceptRequest, if_neg (by simp [hgid, hown, huid])]
  cases hg : s.groups[gid]? with
  | none => exact touches_self (by rw [hg]; rfl)
  | some grp =>
      dsimp only
      split
      · next h => exact touches_self (by simp [hg, Group.accept, h])
      · next h =>
          split
          · next hp => exact touches_self (by simp [hg, Group.accept, hp])
          · next hp => exact touches_setGroup (by simp [hg, Group.accept, h, hp])

lemma touches_addFile {ip : Str} {port : UInt16} {fmeta : FileMeta} (hgid : gid ≠ [])
    (huid : uid ≠ []) (hname : fmeta.name ≠ []) :
    Touches gid (·.map (Group.upload uid (fullPeer uid ip port fmeta) fmeta)) s
      (s.after H (.addFile gid uid ip port fmeta)) := by
  rw [after, exec, addFile, if_neg (by simp [hgid, huid, hname])]
  cases hg : s.groups[gid]? with
  | none => exact touches_self (by rw [hg]; rfl)
  | some grp =>
      dsimp only
      split
      · next h => exact touches_self (by simp [hg, Group.upload, h])
      · next h =>
          split
          · next fm hf =>
              split
              · next hh => exact touches_self (by simp [hg, Group.upload, h, hf, hh])
              · next hh => exact touches_setGroup (by simp [hg, Group.upload, h, hf, hh])
          · next hf => exact touches_setGroup (by simp [hg, Group.upload, h, hf])

lemma touches_stopShare (hgid : gid ≠ []) (huid : uid ≠ []) (hname : fname ≠ []) :
    Touches gid (·.map (Group.stop uid fname)) s (s.after H (.stopShare gid uid fname)) := by
  rw [after, exec, stopShare, if_neg (by simp [hgid, huid, hname])]
  cases hg : s.groups[gid]? with
  | none => exact touches_self (by rw [hg]; rfl)
  | some grp =>
      dsimp only
      split
      · next hf => exact touches_self (by simp [hg, Group.stop, hf])
      · next fm hf =>
          split
          · next h => exact touches_self (by simp [hg, Group.stop, hf, h])
          · next h => exact touches_setGroup (by simp [hg, Group.stop, hf, h])

lemma touches_updateBitfield {ip : Str} {port : UInt16} {bits : List UInt8} (hgid : gid ≠ [])
    (huid : uid ≠ []) (hname : fname ≠ []) :
    Touches gid (·.map (Group.announce uid ⟨uid, ip, port, bits⟩ fname)) s
      (s.after H (.updateBitfield gid uid ip port fname bits)) := by
  rw [after, exec, updateBitfield, if_neg (by simp [hgid, huid, hname])]
  cases hg : s.groups[gid]? with
  | none => exact touches_self (by rw [hg]; rfl)
  | some grp =>
      dsimp only
      split
      · next h => exact touches_self (by simp [hg, Group.announce, h])
      · next h =>
          split
          · next hf => exact touches_self (by simp [hg, Group.announce, h, hf])
          · next fm hf => exact touches_setGroup (by simp [hg, Group.announce, h, hf])

end TrackerState

end P2PShare
