import P2PShare.Tracker.Directory
import P2PShare.Tracker.Server

/-!
Replaying the ops of one tracker on another.

* `SeederRel`: a relation between the seeders of a file on two trackers that
  the replicated operations keep, such as equality and inclusion.
* `Mirrors R a b`: `b` has the users, groups and files of `a`, the seeders of
  each file being related by `R`.
* `Ran.mirrors` (**the simulation step**): a replicated call that succeeds on
  `a` succeeds on `b` and keeps the relation; `Ran.mirrors_login` and
  `Ran.mirrors_logout` are the steps that only `a` makes.
* `replay_run` (**the log is a complete description**): the ops that a tracker
  records lead an empty one to a mirror of it.
-/

namespace P2PShare

/-! ### Mirrors -/

/-- A relation between seeder maps that the replicated operations keep. -/
structure SeederRel (R : StrMap PeerRef → StrMap PeerRef → Prop) : Prop where
  empty : R ∅ ∅
  insert : ∀ {x y} (uid : Str) (pr : PeerRef), R x y → R (x.insert uid pr) (y.insert uid pr)
  erase : ∀ {x y} (uid : Str), R x y → R (x.erase uid) (y.erase uid)
  mem : ∀ {x y} (uid : Str), R x y → uid ∈ x → uid ∈ y

/-- The seeders are the same. -/
lemma seederRel_eq : SeederRel (· = ·) where
  empty := rfl
  insert := by rintro x _ uid pr rfl; rfl
  erase := by rintro x _ uid rfl; rfl
  mem := by rintro x _ uid rfl h; exact h

/-- Every seeder of the first map is one of the second, with the same entry. -/
def SeedersWithin (x y : StrMap PeerRef) : Prop :=
  ∀ (uid : Str) (pr : PeerRef), x[uid]? = some pr → y[uid]? = some pr

lemma seederRel_within : SeederRel SeedersWithin where
  empty := fun _ _ h => h
  insert := by
    intro x y uid pr h uid' pr' h'
    rw [Std.ExtTreeMap.getElem?_insert] at h' ⊢
    split at h'
    · next hk => rw [if_pos hk, h']
    · next hk => rw [if_neg hk, h _ _ h']
  erase := by
    intro x y uid h uid' pr' h'
    rw [Std.ExtTreeMap.getElem?_erase] at h' ⊢
    split at h'
    · simp at h'
    · next hk => rw [if_neg hk, h _ _ h']
  mem := by
    intro x y uid h huid
    rw [Std.ExtTreeMap.mem_iff_isSome_getElem?, Option.isSome_iff_exists] at huid ⊢
    obtain ⟨pr, hpr⟩ := huid
    exact ⟨pr, h _ _ hpr⟩

/-- Removing a seeder from the first map only. -/
lemma SeedersWithin.erase_left {x y : StrMap PeerRef} (h : SeedersWithin x y) (uid : Str) :
    SeedersWithin (x.erase uid) y := by
  intro uid' pr' h'
  rw [Std.ExtTreeMap.getElem?_erase] at h'
  split at h'
  · simp at h'
  · exact h _ _ h'

/-- The same file, up to its seeders. -/
structure FileMeta.Mirrors (R : StrMap PeerRef → StrMap PeerRef → Prop) (x y : FileMeta) :
    Prop where
  info : x.info = y.info
  seeders : R x.seeders y.seeders

/-- The same group, up to the seeders of its files. -/
structure Group.Mirrors (R : StrMap PeerRef → StrMap PeerRef → Prop) (x y : Group) : Prop where
  owner : x.owner = y.owner
  members : x.members = y.members
  pending : x.pending = y.pending
  files : ∀ fname : Str, Option.Rel (FileMeta.Mirrors R) x.files[fname]? y.files[fname]?

/-- The same users with the same passwords and the same groups, up to seeders. -/
structure TrackerState.Mirrors (R : StrMap PeerRef → StrMap PeerRef → Prop)
    (a b : TrackerState) : Prop where
  users : ∀ uid : Str, a.users[uid]?.map User.password = b.users[uid]?.map User.password
  groups : ∀ gid : Str, Option.Rel (Group.Mirrors R) a.groups[gid]? b.groups[gid]?

section

variable {β : Type} {S : β → β → Prop} {x y : StrMap β}

/-- Related maps have related entries. -/
lemma exists_rel (h : ∀ k : Str, Option.Rel S x[k]? y[k]?) {k : Str} {v : β}
    (hv : x[k]? = some v) : ∃ w, y[k]? = some w ∧ S v w := by
  have hk := h k
  rw [hv] at hk
  generalize y[k]? = o at hk
  cases hk with
  | some hvw => exact ⟨_, rfl, hvw⟩

/-- Related maps have the same keys. -/
lemma rel_none (h : ∀ k : Str, Option.Rel S x[k]? y[k]?) {k : Str} (hv : x[k]? = none) :
    y[k]? = none := by
  have hk := h k
  rw [hv] at hk
  generalize y[k]? = o at hk
  cases hk with
  | none => rfl

lemma rel_insert (h : ∀ k : Str, Option.Rel S x[k]? y[k]?) (k₀ : Str) {v w : β} (hvw : S v w)
    (k : Str) : Option.Rel S (x.insert k₀ v)[k]? (y.insert k₀ w)[k]? := by
  rw [Std.ExtTreeMap.getElem?_insert, Std.ExtTreeMap.getElem?_insert]
  split
  · exact .some hvw
  · exact h k

lemma rel_erase (h : ∀ k : Str, Option.Rel S x[k]? y[k]?) (k₀ k : Str) :
    Option.Rel S (x.erase k₀)[k]? (y.erase k₀)[k]? := by
  rw [Std.ExtTreeMap.getElem?_erase, Std.ExtTreeMap.getElem?_erase]
  split
  · exact .none
  · exact h k

lemma rel_map_left (h : ∀ k : Str, Option.Rel S x[k]? y[k]?) {f : β → β}
    (hf : ∀ v w, S v w → S (f v) w) (k : Str) :
    Option.Rel S (x.map fun _ => f)[k]? y[k]? := by
  rw [Std.ExtTreeMap.getElem?_map]
  have hk := h k
  generalize x[k]? = o, y[k]? = p at hk
  cases hk with
  | some hvw => exact .some (hf _ _ hvw)
  | none => exact .none

end

namespace TrackerState

variable {R : StrMap PeerRef → StrMap PeerRef → Prop} {a b a' : TrackerState} {H : Str → Str}
  {c : Call}

/-- Mirrors have the same directory. -/
lemma Mirrors.directory_eq (h : Mirrors R a b) : a.directory = b.directory := by
  have hfiles : ∀ {x y : Group}, Group.Mirrors R x y → x.info = y.info := by
    intro x y hxy
    have hf : x.info.files = y.info.files := by
      refine Std.ExtTreeMap.ext_getElem? fun k => ?_
      rw [Group.getElem?_info_files, Group.getElem?_info_files]
      have hk := hxy.files k
      generalize x.files[k]? = o, y.files[k]? = p at hk
      cases hk with
      | some hvw => simp [hvw.info]
      | none => rfl
    show GroupInfo.mk x.owner x.members x.pending x.info.files = y.info
    rw [hxy.owner, hxy.members, hxy.pending, hf]
    rfl
  refine Directory.ext (Std.ExtTreeMap.ext_getElem? fun k => ?_)
    (Std.ExtTreeMap.ext_getElem? fun k => ?_)
  · rw [getElem?_directory_users, getElem?_directory_users, h.users k]
  · rw [getElem?_directory_groups, getElem?_directory_groups]
    have hk := h.groups k
    generalize a.groups[k]? = o, b.groups[k]? = p at hk
    cases hk with
    | some hvw => simp [hfiles hvw]
    | none => rfl

/-- Mirrors have the same users. -/
lemma Mirrors.mem_users (h : Mirrors R a b) {uid : Str} (huid : uid ∈ a.users) :
    uid ∈ b.users := by
  rw [← mem_directory_users, ← h.directory_eq, mem_directory_users]
  exact huid

lemma Mirrors.setUser (h : Mirrors R a b) (uid : Str) {u v : User}
    (huv : u.password = v.password) :
    Mirrors R { a with users := a.users.insert uid u }
      { b with users := b.users.insert uid v } where
  users k := by
    rw [Std.ExtTreeMap.getElem?_insert, Std.ExtTreeMap.getElem?_insert]
    split
    · simp [huv]
    · exact h.users k
  groups := h.groups

lemma Mirrors.setGroup (h : Mirrors R a b) (gid : Str) {x y : Group} (hxy : x.Mirrors R y) :
    Mirrors R (a.setGroup gid x) (b.setGroup gid y) :=
  ⟨h.users, rel_insert h.groups gid hxy⟩

lemma Mirrors.setFile (h : Mirrors R a b) (gid fname : Str) {x y : Group} {v w : FileMeta}
    (hxy : x.Mirrors R y) (hvw : v.Mirrors R w) :
    Mirrors R (a.setFile gid x fname v) (b.setFile gid y fname w) :=
  h.setGroup gid { hxy with files := rel_insert hxy.files fname hvw }

/-- A change of login fields on one side. -/
lemma Mirrors.login_left (h : Mirrors R a b) {uid : Str} {u u' : User}
    (hu : a.users[uid]? = some u) (hpwd : u'.password = u.password) :
    Mirrors R { a with users := a.users.insert uid u' } b where
  users k := by
    rw [Std.ExtTreeMap.getElem?_insert, ← h.users k]
    split
    · next hk => simp [← Std.LawfulEqCmp.eq_of_compare hk, hu, hpwd]
    · rfl
  groups := h.groups

/-- **The simulation step**: a replicated call that succeeds on one tracker
succeeds on its mirror and leads to a mirror. -/
theorem Ran.mirrors (hR : SeederRel R) (h : Mirrors R a b) (hran : Ran H a c a')
    (hfits : c.Fits) : ∃ b', Ran H b c b' ∧ Mirrors R a' b' := by
  cases hran with
  | @createUser uid pwd huid hpwd hnew =>
      have hnew' : uid ∉ b.users := fun hmem => hnew <| by
        rwa [← mem_directory_users, h.directory_eq, mem_directory_users]
      exact ⟨_, .createUser huid hpwd hnew', h.setUser _ rfl⟩
  | login | logout => exact hfits.elim
  | @createGroup gid owner hgid howner huser hnew =>
      have hnone := rel_none h.groups (Std.ExtTreeMap.getElem?_eq_none hnew)
      have hnew' : gid ∉ b.groups := by simpa using hnone
      -- a group that is new has no files, so there is nothing to relate
      refine ⟨_, .createGroup hgid howner (h.mem_users huser) hnew',
        h.setGroup _ ⟨rfl, rfl, rfl, ?_⟩⟩
      exact fun _ => .none
  | joinGroup hgid huid hg huser hmem hpend =>
      obtain ⟨y, hg', hxy⟩ := exists_rel h.groups hg
      rw [hxy.members] at hmem
      rw [hxy.pending] at hpend
      exact ⟨_, .joinGroup hgid huid hg' (h.mem_users huser) hmem hpend,
        h.setGroup _ { hxy with pending := by rw [hxy.pending] }⟩
  | dissolve hgid huid hg hmem howner hlast =>
      obtain ⟨y, hg', hxy⟩ := exists_rel h.groups hg
      rw [hxy.members] at hmem hlast
      exact ⟨_, .dissolve hgid huid hg' hmem (howner.trans hxy.owner) hlast, h.users,
        rel_erase h.groups _⟩
  | handoff hgid huid hg hmem howner hmin =>
      obtain ⟨y, hg', hxy⟩ := exists_rel h.groups hg
      rw [hxy.members] at hmem hmin
      exact ⟨_, .handoff hgid huid hg' hmem (howner.trans hxy.owner) hmin,
        h.setGroup _ { hxy with owner := rfl, members := by rw [hxy.members] }⟩
  | leave hgid huid hg hmem howner =>
      obtain ⟨y, hg', hxy⟩ := exists_rel h.groups hg
      rw [hxy.members] at hmem
      rw [hxy.owner] at howner
      exact ⟨_, .leave hgid huid hg' hmem howner,
        h.setGroup _ { hxy with members := by rw [hxy.members] }⟩
  | acceptRequest hgid hown huid hg howner hpend =>
      obtain ⟨y, hg', hxy⟩ := exists_rel h.groups hg
      rw [hxy.pending] at hpend
      rw [hxy.owner] at howner
      exact ⟨_, .acceptRequest hgid hown huid hg' howner hpend, h.setGroup _
        { hxy with members := by rw [hxy.members], pending := by rw [hxy.pending] }⟩
  | addSeeder hgid huid hname hg hmem hf hhash =>
      obtain ⟨y, hg', hxy⟩ := exists_rel h.groups hg
      obtain ⟨w, hf', hvw⟩ := exists_rel hxy.files hf
      rw [hxy.members] at hmem
      -- the hash is part of the metadata, which both have
      have hhash' := (congrArg FileInfo.fileHash hvw.info).symm.trans hhash
      exact ⟨_, .addSeeder hgid huid hname hg' hmem hf' hhash',
        h.setFile _ _ hxy ⟨hvw.info, hR.insert _ _ hvw.seeders⟩⟩
  | addFile hgid huid hname hg hmem hf =>
      obtain ⟨y, hg', hxy⟩ := exists_rel h.groups hg
      rw [hxy.members] at hmem
      exact ⟨_, .addFile hgid huid hname hg' hmem (rel_none hxy.files hf),
        h.setFile _ _ hxy ⟨rfl, hR.insert _ _ hR.empty⟩⟩
  | stopShare hgid huid hname hg hf hseed =>
      obtain ⟨y, hg', hxy⟩ := exists_rel h.groups hg
      obtain ⟨w, hf', hvw⟩ := exists_rel hxy.files hf
      exact ⟨_, .stopShare hgid huid hname hg' hf' (hR.mem _ hvw.seeders hseed),
        h.setFile _ _ hxy ⟨hvw.info, hR.erase _ hvw.seeders⟩⟩
  | updateBitfield hgid huid hname hg hmem hf =>
      obtain ⟨y, hg', hxy⟩ := exists_rel h.groups hg
      obtain ⟨w, hf', hvw⟩ := exists_rel hxy.files hf
      rw [hxy.members] at hmem
      exact ⟨_, .updateBitfield hgid huid hname hg' hmem hf',
        h.setFile _ _ hxy ⟨hvw.info, hR.insert _ _ hvw.seeders⟩⟩

/-- A login on one tracker is not seen by its mirror. -/
lemma Ran.mirrors_login {uid pwd ip : Str} {port : UInt16} (h : Mirrors R a b)
    (hran : Ran H a (.login uid pwd ip port) a') : Mirrors R a' b := by
  cases hran with
  | login hu => exact h.login_left hu rfl

/-- A logout on one tracker removes seeders there that its mirror keeps. -/
lemma Ran.mirrors_logout {uid : Str} (h : Mirrors SeedersWithin a b)
    (hran : Ran H a (.logout uid) a') : Mirrors SeedersWithin a' b := by
  cases hran with
  | @logout _ u hu =>
      have hset : Mirrors SeedersWithin
          { a with users := a.users.insert uid { u with online := false } } b :=
        h.login_left hu rfl
      refine ⟨hset.users, rel_map_left hset.groups fun x y hxy => ?_⟩
      exact { hxy with files := rel_map_left hxy.files fun v w hvw =>
        ⟨hvw.info, hvw.seeders.erase_left uid⟩ }

end TrackerState

/-! ### Replaying the log -/

/-- Apply ops in order with `apply_remote`: whether it returned true each time,
and the state it leaves. -/
def replay (H : Str → Str) (s : TrackerState) : List Op → Bool × TrackerState
  | [] => (true, s)
  | op :: ops =>
      let r := applyRemote H s op
      let rest := replay H r.2 ops
      (r.1 && rest.1, rest.2)

/-- The seeder entry of a user for a file. -/
def TrackerState.seeder (s : TrackerState) (gid fname uid : Str) : Option PeerRef := do
  let grp ← s.groups[gid]?
  let fm ← grp.files[fname]?
  fm.seeders[uid]?

namespace Server

variable {R : StrMap PeerRef → StrMap PeerRef → Prop} {H : Str → Str}

/-- An op whose call succeeded at its origin is applied by a mirror. -/
lemma applyRemote_mirrors (hR : SeederRel R) {a a' b : TrackerState} {c : Call} {op : Op}
    (h : TrackerState.Mirrors R a b) (hran : TrackerState.Ran H a c a') (hfits : c.Fits)
    (hcall : opCall op.type op.payload = some c) :
    (applyRemote H b op).1 = true ∧ TrackerState.Mirrors R a' (applyRemote H b op).2 := by
  obtain ⟨b', hran', hmir⟩ := hran.mirrors hR h hfits
  have hok : Status.ok ∈ accepts c := by
    cases c <;> first | exact hfits.elim | exact List.mem_cons_self
  rw [applyRemote, hcall]
  simp [TrackerState.after, hran'.exec_eq, hok, hmir]

/-- The relation survives a logout on the recording side alone. -/
def LogoutSafe (R : StrMap PeerRef → StrMap PeerRef → Prop) (H : Str → Str) : Prop :=
  ∀ {a a' b : TrackerState} {uid : Str}, TrackerState.Mirrors R a b →
    TrackerState.Ran H a (.logout uid) a' → TrackerState.Mirrors R a' b

lemma logoutSafe_within : LogoutSafe SeedersWithin H := fun h hran => hran.mirrors_logout h

/-- One client event against a replica of the tracker: the op that is recorded
is applied, and the replica stays a mirror. -/
lemma serve_mirrors (hR : SeederRel R) {sv : Server} {ev : ClientEvent} {b : TrackerState}
    (hev : ev.NoTrailing) (hends : ev.EndsSession → LogoutSafe R H)
    (h : TrackerState.Mirrors R sv.tracker.state b) :
    (replay H b (sv.serve H ev).1.toList).1 = true ∧
      TrackerState.Mirrors R (sv.serve H ev).2.tracker.state
        (replay H b (sv.serve H ev).1.toList).2 := by
  have hdid := serve_did H sv ev
  generalize (sv.serve H ev).1 = o, (sv.serve H ev).2.tracker = t' at hdid ⊢
  cases hdid with
  | nothing => exact ⟨rfl, h⟩
  | login hran => exact ⟨rfl, hran.mirrors_login h⟩
  | logout hend hran => exact ⟨rfl, hends hend h hran⟩
  | mutated _ hran _ _ hfits hpeer =>
      obtain ⟨hok, hmir⟩ := applyRemote_mirrors hR h hran hfits (hpeer (hev.faithful sv))
      exact ⟨by simpa [replay] using hok, hmir⟩

lemma replay_append (s : TrackerState) (ops ops' : List Op) :
    replay H s (ops ++ ops') =
      ((replay H s ops).1 && (replay H (replay H s ops).2 ops').1,
        (replay H (replay H s ops).2 ops').2) := by
  induction ops generalizing s with
  | nil => simp [replay]
  | cons op ops ih => simp [replay, ih, Bool.and_assoc]

/-- A run against a replica, by induction on its events. -/
lemma run_mirrors (hR : SeederRel R) (evs : List ClientEvent) :
    ∀ (sv : Server) (b : TrackerState), (∀ ev ∈ evs, ev.NoTrailing) →
      (∀ ev ∈ evs, ev.EndsSession → LogoutSafe R H) →
      TrackerState.Mirrors R sv.tracker.state b →
      (replay H b (sv.run H evs).1).1 = true ∧
        TrackerState.Mirrors R (sv.run H evs).2.tracker.state (replay H b (sv.run H evs).1).2 := by
  induction evs with
  | nil => exact fun sv b _ _ h => ⟨rfl, h⟩
  | cons ev evs ih =>
      intro sv b hclean hends h
      obtain ⟨hok, hmir⟩ := serve_mirrors hR (hclean ev List.mem_cons_self)
        (hends ev List.mem_cons_self) h
      obtain ⟨hok', hmir'⟩ := ih (sv.serve H ev).2 _
        (fun e he => hclean e (List.mem_cons_of_mem _ he))
        (fun e he => hends e (List.mem_cons_of_mem _ he)) hmir
      rw [run, replay_append]
      exact ⟨by rw [hok, hok']; rfl, hmir'⟩

/-- Recorded ops carry consecutive sequence numbers. -/
lemma seq_run (evs : List ClientEvent) :
    ∀ sv : Server, (sv.run H evs).1.map Op.seq
      = List.range' sv.tracker.nextSeq (sv.run H evs).1.length := by
  induction evs with
  | nil => exact fun sv => rfl
  | cons ev evs ih =>
      intro sv
      have hdid := serve_did H sv ev
      have hrest := ih (sv.serve H ev).2
      rw [run, List.map_append, hrest, List.length_append]
      generalize (sv.serve H ev).1 = o, (sv.serve H ev).2.tracker = t' at hdid ⊢
      cases hdid with
      | mutated _ hran hseq => simp [hseq, Tracker.record, Nat.add_comm 1, List.range'_succ]
      | _ => simp

/-- A seeder of a file is one on a mirror that may only have more. -/
lemma seeder_within {a b : TrackerState} (h : TrackerState.Mirrors SeedersWithin a b)
    {gid fname uid : Str} {pr : PeerRef} (hpr : a.seeder gid fname uid = some pr) :
    b.seeder gid fname uid = some pr := by
  simp only [TrackerState.seeder, Option.bind_eq_bind, Option.bind_eq_some_iff] at hpr ⊢
  obtain ⟨x, hx, v, hv, hseed⟩ := hpr
  obtain ⟨y, hy, hxy⟩ := exists_rel h.groups hx
  obtain ⟨w, hw, hvw⟩ := exists_rel hxy.files hv
  exact ⟨y, hy, w, hw, hvw.seeders _ _ hseed⟩

/-- The seeders of a file on a mirror that has the same. -/
lemma seeder_eq {a b : TrackerState} (h : TrackerState.Mirrors (· = ·) a b) (gid fname uid : Str) :
    b.seeder gid fname uid = a.seeder gid fname uid := by
  rw [TrackerState.seeder, TrackerState.seeder]
  have hg := h.groups gid
  generalize a.groups[gid]? = o, b.groups[gid]? = p at hg
  cases hg with
  | none => rfl
  | @some x y hxy =>
      have hf := hxy.files fname
      show (y.files[fname]?.bind fun fm => fm.seeders[uid]?)
        = x.files[fname]?.bind fun fm => fm.seeders[uid]?
      generalize x.files[fname]? = o, y.files[fname]? = p at hf
      cases hf with
      | none => rfl
      | some hvw => simp [hvw.seeders]

/-- Without ACKs the log keeps every recorded op. -/
lemma log_run (evs : List ClientEvent) :
    ∀ sv : Server, (sv.run H evs).2.tracker.log = sv.tracker.log ++ (sv.run H evs).1 := by
  induction evs with
  | nil => exact fun sv => (List.append_nil _).symm
  | cons ev evs ih =>
      intro sv
      have hdid := serve_did H sv ev
      have hrest := ih (sv.serve H ev).2
      rw [run, hrest]
      generalize (sv.serve H ev).1 = o, (sv.serve H ev).2.tracker = t' at hdid ⊢
      cases hdid with
      | mutated => simp [Tracker.record]
      | _ => simp

/-- **The log is a complete description**: a second tracker that starts empty and
applies the whole log in sequence order accepts every op and has the same
directory. Every seeder is one there as well, and conversely unless a session
has ended. -/
theorem replay_log (H : Str → Str) (evs : List ClientEvent) (hclean : ∀ ev ∈ evs, ev.NoTrailing) :
    let a := (start.run H evs).2.tracker
    let r := replay H .init a.log
    a.log.map Op.seq = List.range' 1 a.log.length ∧ r.1 = true ∧
      r.2.directory = a.state.directory ∧
      (∀ gid fname uid pr, a.state.seeder gid fname uid = some pr →
        r.2.seeder gid fname uid = some pr) ∧
      ((∀ ev ∈ evs, ¬ ev.EndsSession) →
        ∀ gid fname uid, r.2.seeder gid fname uid = a.state.seeder gid fname uid) := by
  intro a r
  have hlog : a.log = (start.run H evs).1 := log_run evs start
  have hinit : ∀ {R}, TrackerState.Mirrors R TrackerState.init TrackerState.init := fun {R} =>
    ⟨fun uid => rfl, fun gid => by simp [TrackerState.init]⟩
  obtain ⟨hok, hmir⟩ := run_mirrors (H := H) seederRel_within evs start .init hclean
    (fun _ _ _ => logoutSafe_within) hinit
  rw [← hlog] at hok hmir
  refine ⟨?_, hok, hmir.directory_eq.symm, fun gid fname uid pr => ?_,
    fun hlive gid fname uid => ?_⟩
  · rw [hlog]
    exact seq_run evs start
  · exact seeder_within hmir
  · obtain ⟨-, hsame⟩ := run_mirrors (H := H) seederRel_eq evs start .init hclean
      (fun ev hev hend => absurd hend (hlive ev hev)) hinit
    rw [← hlog] at hsame
    exact seeder_eq hsame gid fname uid

/-- A user registers, logs in, creates a group, uploads a file and logs out. -/
def publishing : List ClientEvent :=
  [.connect 7 [4] peerIp_fits,
    .request 7 MsgType.createUser.code (putStr [1] ++ putStr [2]) 0,
    .request 7 MsgType.login.code (putStr [1] ++ putStr [2] ++ putU16 6) 0,
    .request 7 MsgType.createGroup.code (putStr [5]) 0,
    .request 7 MsgType.uploadFile.code (putUpload [5] ⟨[7], 1, [9], [[8]], ∅⟩) 0,
    .request 7 MsgType.logout.code [] 0]

theorem replay_log_publishing :
    (replay id .init (start.run id publishing).2.tracker.log).1 = true := by
  refine (replay_log id publishing fun ev hev => ?_).2.1
  simp only [publishing, List.mem_cons, List.not_mem_nil, or_false] at hev
  rcases hev with rfl | rfl | rfl | rfl | rfl | rfl
  · trivial
  all_goals exact ClientEvent.noTrailing_request (by decide) 7 0

end Server

end P2PShare
