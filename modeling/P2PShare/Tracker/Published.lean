import P2PShare.Lib.TreeMap
import P2PShare.Tracker.State

/-!
The published metadata of a file, over whole runs of a tracker's operations.

* `TrackerState.file`: the file of this name in this group; `FileMeta.published` is
  all of it but its seeders.
* `Dissolves`: a `leave_group` that ends the group; `Kept` says that none of these calls
  does.
* `published_ran` (**the step lemma**): a call leaves the metadata of a file as it is,
  dissolves the group, or is the upload of a file that was not there.
* `published_for_good`: what the first upload stores stays until the group is dissolved.
-/

namespace P2PShare

/-- A file without its seeders. -/
def FileMeta.published (fm : FileMeta) : FileMeta := { fm with seeders := ∅ }

/-- The call asks to leave this group. -/
def Call.Leaves (gid : Str) : Call → Prop
  | leaveGroup g _ => g = gid
  | createUser .. | login .. | logout _ | createGroup .. | joinGroup .. | acceptRequest ..
  | addFile .. | stopShare .. | updateBitfield .. => False

instance (gid : Str) : ∀ c : Call, Decidable (c.Leaves gid)
  | .leaveGroup g _ => inferInstanceAs (Decidable (g = gid))
  | .createUser .. | .login .. | .logout _ | .createGroup .. | .joinGroup ..
  | .acceptRequest .. | .addFile .. | .stopShare .. | .updateBitfield .. => .isFalse id

namespace TrackerState

variable {H : Str → Str} {s s' : TrackerState} {gid fname : Str}

/-- The file of this name in the group, if both are there. -/
def file (s : TrackerState) (gid fname : Str) : Option FileMeta :=
  s.groups[gid]?.bind fun grp => grp.files[fname]?

/-- The state after these calls, each of which may be refused. -/
def afterAll (H : Str → Str) (s : TrackerState) (cs : List Call) : TrackerState :=
  cs.foldl (after H) s

/-- The call is a `leave_group` that dissolves the group. -/
def Dissolves (H : Str → Str) (s : TrackerState) (gid : Str) (c : Call) : Prop :=
  c.Leaves gid ∧ gid ∈ s.groups ∧ gid ∉ (s.after H c).groups

instance (H : Str → Str) (s : TrackerState) (gid : Str) (c : Call) :
    Decidable (s.Dissolves H gid c) := inferInstanceAs (Decidable (_ ∧ _ ∧ _))

/-- None of these calls dissolves the group when its turn comes. -/
def Kept (H : Str → Str) (gid : Str) : TrackerState → List Call → Prop
  | _, [] => True
  | s, c :: cs => ¬ s.Dissolves H gid c ∧ Kept H gid (s.after H c) cs

instance decidableKept (H : Str → Str) (gid : Str) :
    ∀ (s : TrackerState) (cs : List Call), Decidable (s.Kept H gid cs)
  | _, [] => .isTrue trivial
  | s, c :: cs =>
      have : Decidable (Kept H gid (s.after H c) cs) := decidableKept H gid (s.after H c) cs
      inferInstanceAs (Decidable (¬ s.Dissolves H gid c ∧ Kept H gid (s.after H c) cs))

lemma afterAll_append (H : Str → Str) (s : TrackerState) (cs cs' : List Call) :
    s.afterAll H (cs ++ cs') = (s.afterAll H cs).afterAll H cs' := List.foldl_append

lemma afterAll_concat (H : Str → Str) (s : TrackerState) (cs : List Call) (c : Call) :
    s.afterAll H (cs ++ [c]) = (s.afterAll H cs).after H c := afterAll_append H s cs [c]

lemma kept_concat (cs : List Call) (c : Call) :
    s.Kept H gid (cs ++ [c]) ↔ s.Kept H gid cs ∧ ¬ (s.afterAll H cs).Dissolves H gid c := by
  induction cs generalizing s with
  | nil => exact and_comm
  | cons c' cs ih =>
      rw [List.cons_append, Kept, ih, Kept, and_assoc]
      rfl

/-! ### One call -/

/-- A file is where its group is. -/
lemma mem_groups_of_file {fm : FileMeta} (h : s.file gid fname = some fm) : gid ∈ s.groups := by
  obtain ⟨grp, hg, -⟩ := Option.bind_eq_some_iff.mp h
  rw [Std.ExtTreeMap.mem_iff_isSome_getElem?, hg]
  rfl

/-- A group whose files are those of `grp`, written under `g`. -/
lemma file_setGroup {g : Str} {grp : Group} {o : Option Group} (hg : s.groups[g]? = o)
    (hfiles : grp.files[fname]? = o.bind fun grp₀ => grp₀.files[fname]?) :
    (s.setGroup g grp).file gid fname = s.file gid fname := by
  rw [file, file, setGroup, Std.ExtTreeMap.getElem?_insert]
  split
  · next heq =>
      obtain rfl := Std.LawfulEqCmp.eq_of_compare heq
      rw [hg, ← hfiles]
      rfl
  · rfl

/-- A file entry that is written under `f` in the group `g`. -/
lemma file_setFile {g f : Str} {grp : Group} (hg : s.groups[g]? = some grp) (fm : FileMeta) :
    (s.setFile g grp f fm).file gid fname =
      if g = gid ∧ f = fname then some fm else s.file gid fname := by
  rw [file, file, setFile, setGroup, Std.ExtTreeMap.getElem?_insert]
  by_cases hgid : g = gid
  · subst hgid
    rw [if_pos Std.ReflCmp.compare_self, Option.bind_some, Std.ExtTreeMap.getElem?_insert, hg]
    by_cases hf : f = fname
    · simp [hf]
    · simp [hf]
  · simp [hgid]

/-- Writing an entry that differs in its seeders leaves the metadata. -/
lemma published_setFile {g f : Str} {grp : Group} {fm fm' : FileMeta}
    (hg : s.groups[g]? = some grp) (hf : grp.files[f]? = some fm)
    (hsame : fm'.published = fm.published) :
    ((s.setFile g grp f fm').file gid fname).map FileMeta.published =
      (s.file gid fname).map FileMeta.published := by
  rw [file_setFile hg]
  split
  · next h =>
      obtain ⟨rfl, rfl⟩ := h
      rw [file, hg, Option.bind_some, hf, Option.map_some, Option.map_some, hsame]
  · rfl

/-- The call uploads this file, which was not there, and this is what it stores. -/
def Uploads (s : TrackerState) (gid fname : Str) (c : Call) (fm : FileMeta) : Prop :=
  ∃ (uid ip : Str) (port : UInt16) (fmeta : FileMeta), c = .addFile gid uid ip port fmeta ∧
    fmeta.name = fname ∧ fm.published = fmeta.published ∧ s.file gid fname = none

/-- **The step lemma**: what a successful call does to the metadata of a file. -/
lemma published_ran (gid fname : Str) {c : Call} (hran : Ran H s c s') :
    (s'.file gid fname).map FileMeta.published = (s.file gid fname).map FileMeta.published ∨
      s.Dissolves H gid c ∨
      ∃ fm, s'.file gid fname = some fm ∧ s.Uploads gid fname c fm := by
  have hafter : s.after H c = s' := by rw [after, hran.exec_eq]
  cases hran with
  | createUser | login => exact .inl rfl
  | @logout uid u hu =>
      left
      rw [file, file, Std.ExtTreeMap.getElem?_map]
      cases s.groups[gid]? with
      | none => rfl
      | some grp =>
          rw [Option.map_some, Option.bind_some, Option.bind_some, dropSeeder,
            Std.ExtTreeMap.getElem?_map, Option.map_map]
          rfl
  | @createGroup g owner hgid howner huser hnew =>
      left
      rw [file_setGroup (o := none) (by simpa using hnew) (by simp)]
  | joinGroup _ _ hg => exact .inl (congrArg _ (file_setGroup hg rfl))
  | @dissolve g uid grp hgid huid hg hmem howner hlast =>
      by_cases hsame : g = gid
      · subst hsame
        -- the group is dissolved, and its files go with it
        refine .inr (.inl ⟨rfl, ?_, ?_⟩)
        · rw [Std.ExtTreeMap.mem_iff_isSome_getElem?, hg]
          rfl
        · rw [hafter]
          simp
      · left
        rw [file, file, Std.ExtTreeMap.getElem?_erase]
        simp [hsame]
  | handoff _ _ hg => exact .inl (congrArg _ (file_setGroup hg rfl))
  | leave _ _ hg => exact .inl (congrArg _ (file_setGroup hg rfl))
  | acceptRequest _ _ _ hg => exact .inl (congrArg _ (file_setGroup hg rfl))
  | addSeeder _ _ _ hg _ hf => exact .inl (published_setFile hg hf rfl)
  | @addFile g uid ip port fmeta grp _ _ _ hg _ hf =>
      by_cases hsame : g = gid ∧ fmeta.name = fname
      · obtain ⟨rfl, rfl⟩ := hsame
        -- the first upload of this file
        refine .inr (.inr ⟨_, (file_setFile hg _).trans (if_pos ⟨rfl, rfl⟩), uid, ip, port, fmeta,
          rfl, rfl, rfl, ?_⟩)
        rw [file, hg, Option.bind_some, hf]
      · left
        rw [file_setFile hg, if_neg hsame]
  | stopShare _ _ _ hg hf => exact .inl (published_setFile hg hf rfl)
  | updateBitfield _ _ _ hg _ hf => exact .inl (published_setFile hg hf rfl)

/-- What a call, refused or not, does to a file that is there. -/
lemma published_after {c : Call} {fm : FileMeta} (hf : s.file gid fname = some fm)
    (hkeep : ¬ s.Dissolves H gid c) :
    ∃ fm', (s.after H c).file gid fname = some fm' ∧ fm'.published = fm.published := by
  rcases after_cases H s c with hran | hsame
  · rcases published_ran gid fname hran with heq | hdis | ⟨_, -, hup⟩
    · rw [hf, Option.map_some] at heq
      obtain ⟨fm', hfm', hpub⟩ := Option.map_eq_some_iff.mp heq
      exact ⟨fm', hfm', hpub⟩
    · exact absurd hdis hkeep
    · obtain ⟨-, -, -, -, -, -, -, hnone⟩ := hup
      cases hf.symm.trans hnone
  · rw [hsame]
    exact ⟨fm, hf, rfl⟩

/-! ### Whole runs -/

/-- **The run lemma**: a file stays with its metadata while its group does. -/
lemma published_afterAll {cs : List Call} {fm : FileMeta} (hf : s.file gid fname = some fm)
    (hkept : s.Kept H gid cs) :
    ∃ fm', (s.afterAll H cs).file gid fname = some fm' ∧ fm'.published = fm.published := by
  induction cs generalizing s fm with
  | nil => exact ⟨fm, hf, rfl⟩
  | cons c cs ih =>
      obtain ⟨hkeep, hkept⟩ := hkept
      obtain ⟨fm₁, hf₁, hpub₁⟩ := published_after hf hkeep
      obtain ⟨fm', hf', hpub'⟩ := ih hf₁ hkept
      exact ⟨fm', hf', hpub'.trans hpub₁⟩

/-- One of these calls from the start has uploaded the file, and behind it the group has not been
dissolved. -/
def Uploaded (H : Str → Str) (cs : List Call) (gid fname : Str) (fm : FileMeta) : Prop :=
  ∃ (before : List Call) (c : Call) (rest : List Call), cs = before ++ c :: rest ∧
    (init.afterAll H before).Uploads gid fname c fm ∧
    ((init.afterAll H before).exec H c).1 = .ok ∧
    (init.afterAll H (before ++ [c])).Kept H gid rest

/-- A call that leaves the metadata of the file as it is. -/
lemma Uploaded.concat {cs : List Call} {c : Call} {fm₀ fm : FileMeta}
    (h : Uploaded H cs gid fname fm₀)
    (hf : ((init.afterAll H cs).after H c).file gid fname = some fm)
    (hpub : fm.published = fm₀.published) : Uploaded H (cs ++ [c]) gid fname fm := by
  obtain ⟨before, c', rest, rfl, ⟨uid, ip, port, fmeta, hc', hname, hpub₀, hnone⟩, hok, hkept⟩ := h
  refine ⟨before, c', rest ++ [c], by simp,
    ⟨uid, ip, port, fmeta, hc', hname, hpub.trans hpub₀, hnone⟩, hok, ?_⟩
  rw [kept_concat]
  refine ⟨hkept, fun hdis => hdis.2.2 ?_⟩
  rw [← afterAll_append, List.append_assoc, List.singleton_append]
  exact mem_groups_of_file hf

/-- A file that is there has been uploaded. -/
lemma uploaded_of_file {cs : List Call} {fm : FileMeta}
    (hf : (init.afterAll H cs).file gid fname = some fm) : Uploaded H cs gid fname fm := by
  induction cs using List.reverseRecOn generalizing fm with
  | nil => simp [afterAll, file, init] at hf
  | append_singleton cs c ih =>
      rw [afterAll_concat] at hf
      rcases after_cases H (init.afterAll H cs) c with hran | hsame
      · rcases published_ran gid fname hran with heq | hdis | ⟨fm₁, hf₁, hup⟩
        · rw [hf, Option.map_some, eq_comm] at heq
          obtain ⟨fm₀, hf₀, hpub⟩ := Option.map_eq_some_iff.mp heq
          exact (ih hf₀).concat hf hpub.symm
        · exact absurd (mem_groups_of_file hf) hdis.2.2
        · obtain rfl : fm₁ = fm := Option.some.inj (hf₁.symm.trans hf)
          refine ⟨cs, c, [], rfl, hup, ?_, trivial⟩
          rw [hran.exec_eq]
      · have hold := hf
        rw [hsame] at hold
        exact (ih hold).concat hf rfl

/-- **Published metadata never changes**: whatever calls come, a file that is there was
stored by a successful upload that found none of its name, and until the group is dissolved
it stays with what that upload stored; only its seeders change. -/
theorem published_for_good (H : Str → Str) (cs rest : List Call) {gid fname : Str} {fm : FileMeta}
    (hf : (init.afterAll H cs).file gid fname = some fm)
    (hkept : (init.afterAll H cs).Kept H gid rest) :
    (∃ fm', (init.afterAll H (cs ++ rest)).file gid fname = some fm' ∧
      fm'.published = fm.published) ∧
    ∃ (before : List Call) (uid ip : Str) (port : UInt16) (fmeta : FileMeta) (later : List Call),
      cs = before ++ .addFile gid uid ip port fmeta :: later ∧
      (init.afterAll H before).file gid fname = none ∧
      ((init.afterAll H before).exec H (.addFile gid uid ip port fmeta)).1 = .ok ∧
      (init.afterAll H (before ++ [.addFile gid uid ip port fmeta])).Kept H gid later ∧
      fmeta.name = fname ∧ fm.published = fmeta.published := by
  refine ⟨?_, ?_⟩
  · obtain ⟨fm', hf', hpub⟩ := published_afterAll hf hkept
    exact ⟨fm', afterAll_append H init cs rest ▸ hf', hpub⟩
  · obtain ⟨before, c, later, hcs, ⟨uid, ip, port, fmeta, rfl, hname, hpub, hnone⟩, hok, hlater⟩ :=
      uploaded_of_file hf
    exact ⟨before, uid, ip, port, fmeta, later, hcs, hnone, hok, hlater, hname, hpub⟩

/-- A user uploads a file in a new group. -/
def uploading : List Call :=
  [.createUser [1] [2], .createGroup [5] [1], .addFile [5] [1] [6] 80 ⟨[7], 1, [3], [[8]], ∅⟩]

/-- The uploader stops sharing and logs out, and another upload of the name is refused. -/
def afterwards : List Call :=
  [.stopShare [5] [1] [7], .addFile [5] [1] [6] 80 ⟨[7], 2, [4], [], ∅⟩, .logout [1]]

theorem published_for_good_afterwards :
    ∃ fm', (init.afterAll id (uploading ++ afterwards)).file [5] [7] = some fm' ∧
      fm'.published = ⟨[7], 1, [3], [[8]], ∅⟩ := by
  have hf : (init.afterAll id uploading).file [5] [7] =
      some (((init.afterAll id uploading).file [5] [7]).get (by decide +kernel)) :=
    (Option.some_get (by decide +kernel)).symm
  obtain ⟨fm', hf', hpub⟩ := (published_for_good id uploading afterwards hf (by decide +kernel)).1
  exact ⟨fm', hf', hpub.trans (by decide +kernel)⟩

end TrackerState

end P2PShare
