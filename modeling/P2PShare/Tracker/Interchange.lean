import P2PShare.Tracker.Directory
import P2PShare.Tracker.Server

/-!
Trackers with one directory are interchangeable for their clients.

* `exec_status`: the status of a call depends on the directory only, unless it is
  that of `stop_share`, which looks for a seeder.
* `Outcome.Alike`: what two trackers with one directory may make of one request;
  they differ at most in the seeders of a file and in the status of `stop_share`.
* `dispatch_alike` (**the step lemma**) and `interchangeable`: whatever clients
  do, and however many of them, the two trackers stay alike.
-/

namespace P2PShare

open Cursor Reader

/-- Options with the same view are absent together. -/
lemma cases_of_map_eq {α β : Type} {f : α → β} {x y : Option α} (h : x.map f = y.map f) :
    (x = none ∧ y = none) ∨ ∃ a b, x = some a ∧ y = some b ∧ f a = f b := by
  cases x with
  | none => exact .inl ⟨rfl, Option.map_eq_none_iff.mp h.symm⟩
  | some a =>
      obtain ⟨b, hb, hab⟩ := Option.map_eq_some_iff.mp h.symm
      exact .inr ⟨a, b, rfl, hb, hab.symm⟩

namespace Group

variable {grp grp' : Group}

/-- Groups with one view have the same files, up to their seeders. -/
lemma file_cases (h : grp.info = grp'.info) (fname : Str) :
    (grp.files[fname]? = none ∧ grp'.files[fname]? = none) ∨
    ∃ fm fm', grp.files[fname]? = some fm ∧ grp'.files[fname]? = some fm' ∧ fm.info = fm'.info := by
  refine cases_of_map_eq ?_
  rw [← getElem?_info_files, ← getElem?_info_files, h]

lemma keys_of_info (h : grp.info = grp'.info) : grp.files.keys = grp'.files.keys := by
  have hview : ∀ grp : Group, grp.info.files.keys = grp.files.keys := by
    intro grp
    exact Std.ExtTreeMap.keys_map
  rw [← hview, h, hview]

end Group

namespace TrackerState

variable {H : Str → Str} {s t : TrackerState}

/-! ### Calls -/

lemma mem_users_iff (hdir : s.directory = t.directory) (uid : Str) :
    uid ∈ s.users ↔ uid ∈ t.users := by
  rw [← mem_directory_users, hdir, mem_directory_users]

/-- Users under one id have the same password. -/
lemma user_cases (hdir : s.directory = t.directory) (uid : Str) :
    (s.users[uid]? = none ∧ t.users[uid]? = none) ∨
    ∃ u v, s.users[uid]? = some u ∧ t.users[uid]? = some v ∧ u.password = v.password := by
  refine cases_of_map_eq ?_
  rw [← getElem?_directory_users, ← getElem?_directory_users, hdir]

/-- Groups under one id have the same view. -/
lemma group_cases (hdir : s.directory = t.directory) (gid : Str) :
    (s.groups[gid]? = none ∧ t.groups[gid]? = none) ∨
    ∃ grp grp', s.groups[gid]? = some grp ∧ t.groups[gid]? = some grp' ∧
      grp.info = grp'.info := by
  refine cases_of_map_eq ?_
  rw [← getElem?_directory_groups, ← getElem?_directory_groups, hdir]

lemma mem_groups_iff (hdir : s.directory = t.directory) (gid : Str) :
    gid ∈ s.groups ↔ gid ∈ t.groups := by
  rw [Std.ExtTreeMap.mem_iff_isSome_getElem?, Std.ExtTreeMap.mem_iff_isSome_getElem?]
  rcases group_cases hdir gid with ⟨hg, hg'⟩ | ⟨grp, grp', hg, hg', -⟩
  · rw [hg, hg']
  · simp [hg, hg']

lemma status_login (hdir : s.directory = t.directory) (uid pwd ip : Str) (port : UInt16) :
    (s.login H uid pwd ip port).1 = (t.login H uid pwd ip port).1 := by
  rcases user_cases hdir uid with ⟨hu, hv⟩ | ⟨u, v, hu, hv, hpwd⟩
  · simp only [login, hu, hv]
  · simp only [login, hu, hv, hpwd, apply_ite Prod.fst]

lemma status_logout (hdir : s.directory = t.directory) (uid : Str) :
    (s.logout uid).1 = (t.logout uid).1 := by
  rcases user_cases hdir uid with ⟨hu, hv⟩ | ⟨u, v, hu, hv, -⟩
  · simp only [logout, hu, hv]
  · simp only [logout, hu, hv]

lemma status_createGroup (hdir : s.directory = t.directory) (gid owner : Str) :
    (s.createGroup gid owner).1 = (t.createGroup gid owner).1 := by
  simp only [createGroup, apply_ite Prod.fst, mem_users_iff hdir, mem_groups_iff hdir]

lemma status_joinGroup (hdir : s.directory = t.directory) (gid uid : Str) :
    (s.joinGroup gid uid).1 = (t.joinGroup gid uid).1 := by
  rcases group_cases hdir gid with ⟨hg, hg'⟩ | ⟨grp, grp', hg, hg', hinfo⟩
  · simp only [joinGroup, hg, hg', apply_ite Prod.fst]
  · have hmem : grp.members = grp'.members := congrArg GroupInfo.members hinfo
    have hpend : grp.pending = grp'.pending := congrArg GroupInfo.pending hinfo
    simp only [joinGroup, hg, hg', apply_ite Prod.fst, mem_users_iff hdir, hmem, hpend]

lemma status_leaveGroup (hdir : s.directory = t.directory) (gid uid : Str) :
    (s.leaveGroup gid uid).1 = (t.leaveGroup gid uid).1 := by
  rcases group_cases hdir gid with ⟨hg, hg'⟩ | ⟨grp, grp', hg, hg', hinfo⟩
  · simp only [leaveGroup, hg, hg', apply_ite Prod.fst]
  · have hmem : grp.members = grp'.members := congrArg GroupInfo.members hinfo
    have howner : grp.owner = grp'.owner := congrArg GroupInfo.owner hinfo
    simp only [leaveGroup, hg, hg', apply_ite Prod.fst, hmem, howner]
    cases (grp'.members.erase uid).min? with
    | none => rfl
    | some m => rfl

lemma status_acceptRequest (hdir : s.directory = t.directory) (gid owner uid : Str) :
    (s.acceptRequest gid owner uid).1 = (t.acceptRequest gid owner uid).1 := by
  rcases group_cases hdir gid with ⟨hg, hg'⟩ | ⟨grp, grp', hg, hg', hinfo⟩
  · simp only [acceptRequest, hg, hg', apply_ite Prod.fst]
  · have hpend : grp.pending = grp'.pending := congrArg GroupInfo.pending hinfo
    have howner : grp.owner = grp'.owner := congrArg GroupInfo.owner hinfo
    simp only [acceptRequest, hg, hg', apply_ite Prod.fst, hpend, howner]

lemma status_addFile (hdir : s.directory = t.directory) (gid uid ip : Str) (port : UInt16)
    (fmeta : FileMeta) :
    (s.addFile gid uid ip port fmeta).1 = (t.addFile gid uid ip port fmeta).1 := by
  rcases group_cases hdir gid with ⟨hg, hg'⟩ | ⟨grp, grp', hg, hg', hinfo⟩
  · simp only [addFile, hg, hg', apply_ite Prod.fst]
  · have hmem : grp.members = grp'.members := congrArg GroupInfo.members hinfo
    rcases Group.file_cases hinfo fmeta.name with ⟨hf, hf'⟩ | ⟨fm, fm', hf, hf', hfm⟩
    · simp only [addFile, hg, hg', hf, hf', apply_ite Prod.fst, hmem]
    · have hhash : fm.fileHash = fm'.fileHash := congrArg FileInfo.fileHash hfm
      simp only [addFile, hg, hg', hf, hf', apply_ite Prod.fst, hmem, hhash]

lemma status_updateBitfield (hdir : s.directory = t.directory) (gid uid ip : Str) (port : UInt16)
    (fname : Str) (bits : List UInt8) :
    (s.updateBitfield gid uid ip port fname bits).1 =
      (t.updateBitfield gid uid ip port fname bits).1 := by
  rcases group_cases hdir gid with ⟨hg, hg'⟩ | ⟨grp, grp', hg, hg', hinfo⟩
  · simp only [updateBitfield, hg, hg', apply_ite Prod.fst]
  · have hmem : grp.members = grp'.members := congrArg GroupInfo.members hinfo
    rcases Group.file_cases hinfo fname with ⟨hf, hf'⟩ | ⟨fm, fm', hf, hf', -⟩
    · simp only [updateBitfield, hg, hg', hf, hf', apply_ite Prod.fst, hmem]
    · simp only [updateBitfield, hg, hg', hf, hf', apply_ite Prod.fst, hmem]

/-- **What a call is answered with** depends on the directory only, unless it is
that of `stop_share`. -/
lemma exec_status (hdir : s.directory = t.directory) {c : Call} (hc : c.type ≠ .stopShare) :
    (s.exec H c).1 = (t.exec H c).1 := by
  cases c with
  | createUser uid pwd =>
      simp only [exec, createUser, apply_ite Prod.fst, mem_users_iff hdir]
  | login uid pwd ip port => exact status_login hdir uid pwd ip port
  | logout uid => exact status_logout hdir uid
  | createGroup gid owner => exact status_createGroup hdir gid owner
  | joinGroup gid uid => exact status_joinGroup hdir gid uid
  | leaveGroup gid uid => exact status_leaveGroup hdir gid uid
  | acceptRequest gid owner uid => exact status_acceptRequest hdir gid owner uid
  | addFile gid uid ip port fmeta => exact status_addFile hdir gid uid ip port fmeta
  | stopShare gid uid fname => exact absurd rfl hc
  | updateBitfield gid uid ip port fname bits =>
      exact status_updateBitfield hdir gid uid ip port fname bits

lemma exec_directory (hdir : s.directory = t.directory) (c : Call) :
    (s.exec H c).2.directory = (t.exec H c).2.directory := by
  have hafter : ∀ s : TrackerState, (s.exec H c).2.directory = s.directory.act (c.dirOp H) :=
    fun s => directory_after H s c
  rw [hafter, hafter, hdir]

/-! ### The lists -/

lemma listGroups_eq (hdir : s.directory = t.directory) : s.listGroups = t.listGroups := by
  have hview : ∀ s : TrackerState, s.directory.groups.keys = s.listGroups := by
    intro s
    exact Std.ExtTreeMap.keys_map
  rw [← hview, hdir, hview]

lemma listRequests_eq (hdir : s.directory = t.directory) (gid owner : Str) :
    s.listRequests gid owner = t.listRequests gid owner := by
  rcases group_cases hdir gid with ⟨hg, hg'⟩ | ⟨grp, grp', hg, hg', hinfo⟩
  · simp only [listRequests, hg, hg']
  · have hpend : grp.pending = grp'.pending := congrArg GroupInfo.pending hinfo
    have howner : grp.owner = grp'.owner := congrArg GroupInfo.owner hinfo
    simp only [listRequests, hg, hg', hpend, howner]

lemma listFiles_eq (hdir : s.directory = t.directory) (gid uid : Str) :
    s.listFiles gid uid = t.listFiles gid uid := by
  rcases group_cases hdir gid with ⟨hg, hg'⟩ | ⟨grp, grp', hg, hg', hinfo⟩
  · simp only [listFiles, hg, hg']
  · have hmem : grp.members = grp'.members := congrArg GroupInfo.members hinfo
    simp only [listFiles, hg, hg', hmem, Group.keys_of_info hinfo]

/-- The metadata of a file is refused in the same way, or is the same. -/
lemma getFile_cases (hdir : s.directory = t.directory) (gid uid fname : Str) :
    (∃ st, s.getFile gid uid fname = (st, none) ∧ t.getFile gid uid fname = (st, none)) ∨
    ∃ fm fm', s.getFile gid uid fname = (.ok, some fm) ∧
      t.getFile gid uid fname = (.ok, some fm') ∧ fm.info = fm'.info := by
  by_cases h₁ : gid = [] ∨ uid = [] ∨ fname = []
  · exact .inl ⟨.malformed, by simp only [getFile, if_pos h₁], by simp only [getFile, if_pos h₁]⟩
  · rcases group_cases hdir gid with ⟨hg, hg'⟩ | ⟨grp, grp', hg, hg', hinfo⟩
    · refine .inl ⟨.notFound, ?_, ?_⟩
      · simp only [getFile, if_neg h₁, hg]
      · simp only [getFile, if_neg h₁, hg']
    · have hmem : grp.members = grp'.members := congrArg GroupInfo.members hinfo
      by_cases h₂ : uid ∉ grp'.members
      · refine .inl ⟨.notMember, ?_, ?_⟩
        · simp only [getFile, if_neg h₁, hg, hmem, if_pos h₂]
        · simp only [getFile, if_neg h₁, hg', if_pos h₂]
      · rcases Group.file_cases hinfo fname with ⟨hf, hf'⟩ | ⟨fm, fm', hf, hf', hfm⟩
        · refine .inl ⟨.notFound, ?_, ?_⟩
          · simp only [getFile, if_neg h₁, hg, hmem, if_neg h₂, hf]
          · simp only [getFile, if_neg h₁, hg', if_neg h₂, hf']
        · refine .inr ⟨fm, fm', ?_, ?_, hfm⟩
          · simp only [getFile, if_neg h₁, hg, hmem, if_neg h₂, hf]
          · simp only [getFile, if_neg h₁, hg', if_neg h₂, hf']

end TrackerState

/-! ### Requests -/

/-- **What two trackers with one directory may make of a request** of this type:
the same, up to the seeders of a file and to whether a seeder is there to go. -/
structure Outcome.Alike (type : UInt16) (o o' : Outcome) : Prop where
  directory : o.state.directory = o'.state.directory
  session : o.session = o'.session
  status : type ≠ MsgType.stopShare.code → o.status = o'.status
  record : type ≠ MsgType.stopShare.code → o.record = o'.record
  payload : o.payload = o'.payload ∨ type = MsgType.getFileMeta.code ∧
    ∃ fm fm' : FileMeta, o.payload = Session.putMeta fm ∧ o'.payload = Session.putMeta fm' ∧
      fm.info = fm'.info

namespace Session

variable {H : Str → Str} {s t : TrackerState} {σ : Session} {type : UInt16} {payload : Str}

lemma alike_answer (hdir : s.directory = t.directory) (st : Status) (out : Str) :
    (answer s σ st out).Alike type (answer t σ st out) :=
  ⟨hdir, rfl, fun _ => rfl, fun _ => rfl, .inl rfl⟩

lemma alike_loggedIn (hdir : s.directory = t.directory) {o o' : Outcome} (h : o.Alike type o') :
    (Session.loggedIn s σ o).Alike type (Session.loggedIn t σ o') := by
  rw [Session.loggedIn, Session.loggedIn]
  split
  · exact alike_answer hdir _ _
  · exact h

lemma alike_parsed (hdir : s.directory = t.directory) {α : Type} {g : Get α}
    {k k' : α → Outcome} (h : ∀ a, (k a).Alike type (k' a)) :
    (parsed s σ g payload k).Alike type (parsed t σ g payload k') := by
  rw [parsed, parsed]
  cases decode g payload with
  | none => exact alike_answer hdir _ _
  | some a => exact h a

lemma alike_mutate (hdir : s.directory = t.directory) {m : MsgType} {g : Get (Call × Str)}
    (htype : type = m.code) (hreq : reqOf σ payload m = some g) :
    (mutate H s σ m payload g).Alike type (mutate H t σ m payload g) := by
  rw [mutate, mutate, parsed, parsed]
  cases hdec : decode g payload with
  | none => exact alike_answer hdir _ _
  | some r =>
      obtain ⟨c, rep⟩ := r
      obtain ⟨hc, -⟩ := recorded_payload hreq hdec
      have hstatus : type ≠ MsgType.stopShare.code → (s.exec H c).1 = (t.exec H c).1 := by
        rintro hne
        refine TrackerState.exec_status hdir fun hstop => hne ?_
        rw [htype, ← hc, hstop]
      refine ⟨TrackerState.exec_directory hdir c, rfl, hstatus, fun hne => ?_, .inl rfl⟩
      dsimp only
      rw [hstatus hne]

lemma alike_login (hdir : s.directory = t.directory) :
    (login H s σ payload).Alike type (login H t σ payload) := by
  rw [login, login]
  split
  · exact alike_answer hdir _ _
  · next uid pwd port hdec =>
      have hstatus := TrackerState.status_login (H := H) hdir uid pwd σ.peerIp port
      refine ⟨TrackerState.exec_directory (H := H) hdir (.login uid pwd σ.peerIp port), ?_,
        fun _ => hstatus, fun _ => rfl, .inl rfl⟩
      dsimp only
      rw [hstatus]

lemma alike_logout (hdir : s.directory = t.directory) :
    (logout s σ).Alike type (logout t σ) :=
  ⟨TrackerState.exec_directory (H := id) hdir (.logout σ.user), rfl,
    fun _ => TrackerState.status_logout hdir σ.user, fun _ => rfl, .inl rfl⟩

/-- **The step lemma**: what two trackers with one directory make of a request is alike. -/
theorem dispatch_alike (hdir : s.directory = t.directory) (σ : Session) (type : UInt16)
    (payload : Str) :
    (dispatch H s σ type payload).Alike type (dispatch H t σ type payload) := by
  -- the mutations have their answer from the directory alone
  have hmutate : ∀ {m : MsgType} {g : Get (Call × Str)}, MsgType.ofCode type = some m →
      reqOf σ payload m = some g →
      (Session.loggedIn s σ (mutate H s σ m payload g)).Alike type
        (Session.loggedIn t σ (mutate H t σ m payload g)) :=
    fun hm hreq => alike_loggedIn hdir (alike_mutate hdir (MsgType.eq_code hm) hreq)
  rw [dispatch, dispatch]
  cases hm : MsgType.ofCode type with
  | none => exact alike_answer hdir _ _
  | some m =>
      cases m with
      | createUser => exact alike_mutate hdir (MsgType.eq_code hm) rfl
      | login => exact alike_login hdir
      | logout => exact alike_loggedIn hdir (alike_logout hdir)
      | listGroups =>
          refine alike_loggedIn hdir ?_
          rw [TrackerState.listGroups_eq hdir]
          exact alike_answer hdir _ _
      | createGroup => exact hmutate hm rfl
      | joinGroup => exact hmutate hm rfl
      | leaveGroup => exact hmutate hm rfl
      | acceptRequest => exact hmutate hm rfl
      | uploadFile => exact hmutate hm rfl
      | stopShare => exact hmutate hm rfl
      | havePieces => exact hmutate hm rfl
      | listRequests =>
          refine alike_loggedIn hdir (alike_parsed hdir fun gid => ?_)
          rw [TrackerState.listRequests_eq hdir]
          split
          · exact alike_answer hdir _ _
          · exact alike_answer hdir _ _
      | listFiles =>
          refine alike_loggedIn hdir (alike_parsed hdir fun gid => ?_)
          rw [TrackerState.listFiles_eq hdir]
          split
          · exact alike_answer hdir _ _
          · exact alike_answer hdir _ _
      | getFileMeta =>
          refine alike_loggedIn hdir (alike_parsed hdir fun p => ?_)
          obtain ⟨gid, fname⟩ := p
          -- the seeders may differ here, and nothing else
          rcases TrackerState.getFile_cases hdir gid σ.user fname with
            ⟨st, hget, hget'⟩ | ⟨fm, fm', hget, hget', hinfo⟩
          · simp only [hget, hget']
            cases st <;> exact alike_answer hdir _ _
          · simp only [hget, hget']
            exact ⟨hdir, rfl, fun _ => rfl, fun _ => rfl,
              .inr ⟨MsgType.eq_code hm, fm, fm', rfl, rfl, hinfo⟩⟩
      | _ => exact alike_answer hdir _ _

lemma finish_directory (hdir : s.directory = t.directory) (σ : Session) :
    (σ.finish s).directory = (σ.finish t).directory := by
  rw [finish, finish]
  split
  · exact hdir
  · exact TrackerState.exec_directory (H := id) hdir (.logout σ.user)

end Session

/-! ### Runs -/

/-- The event is on one of these descriptors. -/
def ClientEvent.On (F : Set ℕ) : ClientEvent → Prop
  | connect fd _ _ | request fd _ _ _ | disconnect fd => fd ∈ F

namespace Server

variable {H : Str → Str} {F : Set ℕ} {a b : Server}

/-- Two trackers with one directory, and the same sessions on the descriptors `F`. -/
structure Alike (F : Set ℕ) (a b : Server) : Prop where
  directory : a.tracker.state.directory = b.tracker.state.directory
  sessions : ∀ fd ∈ F, a.sessions fd = b.sessions fd

/-- What a request leads to, with its opcode. -/
def outcome (H : Str → Str) (sv : Server) : ClientEvent → Option (UInt16 × Outcome)
  | .request fd type payload _ => (sv.sessions fd).map fun σ =>
      (type, Session.dispatch H sv.tracker.state σ type payload)
  | .connect .. | .disconnect _ => none

/-- What the requests of a run lead to, in order. -/
def outcomes (H : Str → Str) (sv : Server) : List ClientEvent → List (UInt16 × Outcome)
  | [] => []
  | ev :: evs => (sv.outcome H ev).toList ++ outcomes H (sv.serve H ev).2 evs

/-- The ops that are not those of `stop_share`, without their numbers and times. -/
def changes (ops : List Op) : List (UInt16 × Str) :=
  (ops.map fun op => (op.type, op.payload)).filter fun c => c.1 ≠ MsgType.stopShare.code

lemma changes_append (ops ops' : List Op) :
    changes (ops ++ ops') = changes ops ++ changes ops' := by
  rw [changes, List.map_append, List.filter_append]
  rfl

/-- A session of the descriptors `F` is replaced. -/
lemma Alike.set (h : Alike F a b) {a' b' : Server} {fd : ℕ} {x : Option Session}
    (hdir : a'.tracker.state.directory = b'.tracker.state.directory)
    (ha : a'.sessions = a.setSession fd x) (hb : b'.sessions = b.setSession fd x) :
    Alike F a' b' := by
  refine ⟨hdir, fun k hk => ?_⟩
  rw [ha, hb, setSession, setSession]
  by_cases hfd : k = fd
  · subst hfd
    rw [Function.update_self, Function.update_self]
  · rw [Function.update_of_ne hfd, Function.update_of_ne hfd]
    exact h.sessions k hk

/-- The op that a request records. -/
lemma changes_request {fd : ℕ} {σ : Session} (hσ : a.sessions fd = some σ) (type : UInt16)
    (payload : Str) (now : UInt64) :
    changes (a.serve H (.request fd type payload now)).1.toList =
      (σ.dispatch H a.tracker.state type payload).record.toList.filter
        fun c => c.1 ≠ MsgType.stopShare.code := by
  rw [serve, apply, hσ]
  dsimp only
  cases (σ.dispatch H a.tracker.state type payload).record with
  | none => rfl
  | some rep => rfl

lemma type_of_record {s : TrackerState} {σ : Session} {type : UInt16} {payload : Str}
    {rep : UInt16 × Str} (h : (σ.dispatch H s type payload).record = some rep) : rep.1 = type := by
  have hserved := Session.dispatch_served H s σ type payload
  generalize σ.dispatch H s type payload = o at h hserved
  cases hserved with
  | answered | loggedIn | loggedOut | gone => cases h
  | mutated => cases h; rfl

/-- Alike outcomes record the same, up to the ops of `stop_share`. -/
lemma changes_eq {fd : ℕ} {σ : Session} (ha : a.sessions fd = some σ) (hb : b.sessions fd = some σ)
    {type : UInt16} {payload : Str} (now : UInt64)
    (halike : (σ.dispatch H a.tracker.state type payload).Alike type
      (σ.dispatch H b.tracker.state type payload)) :
    changes (a.serve H (.request fd type payload now)).1.toList =
      changes (b.serve H (.request fd type payload now)).1.toList := by
  rw [changes_request ha, changes_request hb]
  by_cases htype : type = MsgType.stopShare.code
  · -- whatever a `stop_share` records is left out
    have hnone : ∀ o : Option (UInt16 × Str), (∀ rep, o = some rep → rep.1 = type) →
        o.toList.filter (fun c => c.1 ≠ MsgType.stopShare.code) = [] := by
      intro o ho
      cases o with
      | none => rfl
      | some rep => simp [ho rep rfl, htype]
    rw [hnone _ fun rep => type_of_record, hnone _ fun rep => type_of_record]
  · rw [halike.record htype]

/-- **One event** on one of the descriptors. -/
lemma Alike.serve (h : Alike F a b) {ev : ClientEvent} (hev : ev.On F) :
    Alike F (a.serve H ev).2 (b.serve H ev).2 ∧
      List.Forall₂ (fun x y => x.1 = y.1 ∧ x.2.Alike x.1 y.2) (a.outcome H ev).toList
        (b.outcome H ev).toList ∧
      changes (a.serve H ev).1.toList = changes (b.serve H ev).1.toList := by
  cases ev with
  | connect fd ip hip =>
      have hfd := h.sessions fd hev
      cases hσ : a.sessions fd with
      | none =>
          have hσ' : b.sessions fd = none := hfd.symm.trans hσ
          have hopen : ∀ sv : Server, sv.sessions fd = none → sv.serve H (.connect fd ip hip) =
              (none, ⟨sv.tracker, sv.setSession fd (some (.start ip hip))⟩) := by
            intro sv hsv
            rw [Server.serve, apply, hsv]
          rw [hopen a hσ, hopen b hσ']
          exact ⟨h.set h.directory rfl rfl, .nil, rfl⟩
      | some σ =>
          have hσ' : b.sessions fd = some σ := hfd.symm.trans hσ
          have hkept : ∀ sv : Server, sv.sessions fd = some σ →
              sv.serve H (.connect fd ip hip) = (none, sv) := by
            intro sv hsv
            rw [Server.serve, apply, hsv]
          rw [hkept a hσ, hkept b hσ']
          exact ⟨h, .nil, rfl⟩
  | request fd type payload now =>
      have hfd := h.sessions fd hev
      cases hσ : a.sessions fd with
      | none =>
          have hσ' : b.sessions fd = none := hfd.symm.trans hσ
          rw [serve_absent_eq hσ (.inl ⟨type, payload, now, rfl⟩),
            serve_absent_eq hσ' (.inl ⟨type, payload, now, rfl⟩), outcome, outcome, hσ, hσ']
          exact ⟨h, .nil, rfl⟩
      | some σ =>
          have hσ' : b.sessions fd = some σ := hfd.symm.trans hσ
          -- both dispatch alike: the sessions are the same, and so are the directories
          have halike := Session.dispatch_alike (H := H) h.directory σ type payload
          obtain ⟨ha, hsa⟩ := serve_request (H := H) hσ type payload now
          obtain ⟨hb, hsb⟩ := serve_request (H := H) hσ' type payload now
          refine ⟨h.set ?_ hsa ?_, ?_, changes_eq hσ hσ' now halike⟩
          · rw [ha, hb]
            exact halike.directory
          · rw [hsb, halike.session]
          · rw [outcome, outcome, hσ, hσ']
            exact .cons ⟨rfl, halike⟩ .nil
  | disconnect fd =>
      have hfd := h.sessions fd hev
      cases hσ : a.sessions fd with
      | none =>
          have hσ' : b.sessions fd = none := hfd.symm.trans hσ
          rw [serve_absent_eq hσ (.inr rfl), serve_absent_eq hσ' (.inr rfl)]
          exact ⟨h, .nil, rfl⟩
      | some σ =>
          have hσ' : b.sessions fd = some σ := hfd.symm.trans hσ
          have hquiet : ∀ sv : Server, sv.sessions fd = some σ →
              (sv.serve H (.disconnect fd)).1 = none := by
            intro sv hsv
            rw [Server.serve, apply, hsv]
          obtain ⟨ha, hsa⟩ := serve_disconnect (H := H) hσ
          obtain ⟨hb, hsb⟩ := serve_disconnect (H := H) hσ'
          refine ⟨h.set ?_ hsa hsb, .nil, by rw [hquiet a hσ, hquiet b hσ']⟩
          rw [ha, hb]
          exact Session.finish_directory h.directory σ

/-- **Trackers with one directory are interchangeable**: whatever any number of clients
do on the descriptors `F`, both answer alike, pass on the same changes to their peers, and
have one directory in the end. -/
theorem interchangeable (H : Str → Str) (h : Alike F a b) {evs : List ClientEvent}
    (hevs : ∀ ev ∈ evs, ev.On F) :
    List.Forall₂ (fun x y => x.1 = y.1 ∧ x.2.Alike x.1 y.2) (a.outcomes H evs)
        (b.outcomes H evs) ∧
      changes (a.run H evs).1 = changes (b.run H evs).1 ∧
      Alike F (a.run H evs).2 (b.run H evs).2 := by
  induction evs generalizing a b with
  | nil => exact ⟨.nil, rfl, h⟩
  | cons ev evs ih =>
      obtain ⟨hnext, hout, hchange⟩ := h.serve (H := H) (hevs ev List.mem_cons_self)
      obtain ⟨houts, hchanges, hend⟩ := ih hnext fun ev' hev' =>
        hevs ev' (List.mem_cons_of_mem ev hev')
      refine ⟨List.rel_append hout houts, ?_, hend⟩
      rw [run, run, changes_append, changes_append]
      exact congrArg₂ (· ++ ·) hchange hchanges

/-- A tracker on which `[1]`, who is logged in on the connection 7, has uploaded the
file `[7]` to the group `[3]`. -/
def withUpload : Server :=
  ⟨{ Tracker.start with
      state := [.createUser [1] [2], .createGroup [3] [1],
        .addFile [3] [1] [4] 5 ⟨[7], 1, [1], [[6]], ∅⟩].foldl (TrackerState.after id) .init },
    fun fd => if fd = 7 then some ⟨[1], [4], 5, user_fits, peerIp_fits⟩ else none⟩

/-- The connection has ended, and with it the seeder. -/
def withoutSeeder : Server := (withUpload.serve id (.disconnect 7)).2

/-- `[1]` connects, logs in, asks for the file and stops sharing it. -/
def comingBack : List ClientEvent :=
  [.connect 6 [4] peerIp_fits,
    .request 6 MsgType.login.code (putStr [1] ++ putStr [2] ++ putU16 5) 0,
    .request 6 MsgType.getFileMeta.code (putStr [3] ++ putStr [7]) 0,
    .request 6 MsgType.stopShare.code (putStr [3] ++ putStr [7]) 0]

theorem interchangeable_returning :
    List.Forall₂ (fun x y => x.1 = y.1 ∧ x.2.Alike x.1 y.2) (withUpload.outcomes id comingBack)
        (withoutSeeder.outcomes id comingBack) ∧
      changes (withUpload.run id comingBack).1 = changes (withoutSeeder.run id comingBack).1 ∧
      Alike {6} (withUpload.run id comingBack).2 (withoutSeeder.run id comingBack).2 := by
  have halike : Alike {6} withUpload withoutSeeder := by
    constructor
    · -- the end of a connection changes the seeders only
      rcases (serve_did id withUpload (.disconnect 7)).directory_cases with
        ⟨-, hdir⟩ | ⟨call, op, -, hacc, -⟩
      · exact hdir.symm
      · cases hacc.1
    · rintro fd rfl
      rfl
  have hon : ∀ ev ∈ comingBack, ev.On {6} := by
    intro ev hev
    simp only [comingBack, List.mem_cons, List.not_mem_nil, or_false] at hev
    rcases hev with rfl | rfl | rfl | rfl <;> rfl
  exact interchangeable id halike hon

end Server

end P2PShare
