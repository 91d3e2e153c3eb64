import P2PShare.Tracker.Echo
import P2PShare.Tracker.Online
import P2PShare.Tracker.Outsider

/-!
What the clients of a tracker can do to a user whose password they do not know:
nothing.

* `Spares v X Y`: what is left to the user `v` of one group; `Untouched v s s'`:
  of all groups, and of the user's own record.
* `Ran.untouched` (**the step lemma**): a successful call of another user, with
  one lemma for each kind of change to a group.
* `KeepsOut` (**the condition**): a login as `v` is tried with wrong passwords only.
* `nothing_without_password`: as long as it is met, nobody becomes `v` and
  everything that is recorded of `v` stays.
-/

namespace P2PShare

open Cursor Reader

/-! ### One group -/

/-- Of a group, `v` keeps the membership, the ownership, the files with their
metadata and the seeder entries. A standing that `v` has not asked for does not
appear, and neither does an entry. -/
structure Spares (v : Str) (X Y : Option Group) : Prop where
  asked : standingOf Y v = .pending → standingOf X v = .pending
  joined : standingOf Y v = .member → standingOf X v ≠ .out
  stays : standingOf X v = .member → standingOf Y v = .member
  owns : ownerOf X = some v → ownerOf Y = some v
  info : standingOf X v = .member → ∀ fname fi, infoOf X fname = some fi → infoOf Y fname = some fi
  seeds : standingOf X v = .member → ∀ fname, entryOf Y fname v = entryOf X fname v
  entry : ∀ fname pr, entryOf Y fname v = some pr → entryOf X fname v = some pr

namespace Spares

variable {v : Str} {X Y Z : Option Group} {grp grp' : Group}

lemma refl (v : Str) (X : Option Group) : Spares v X X where
  asked h := h
  joined h := by rw [h]; decide
  stays h := h
  owns h := h
  info _ _ _ h := h
  seeds _ _ := rfl
  entry _ _ h := h

lemma trans (h : Spares v X Y) (h' : Spares v Y Z) : Spares v X Z where
  asked hZ := h.asked (h'.asked hZ)
  joined hZ := by
    cases hY : standingOf Y v with
    | out => exact absurd hY (h'.joined hZ)
    | pending => rw [h.asked hY]; decide
    | member => exact h.joined hY
  stays hX := h'.stays (h.stays hX)
  owns hX := h'.owns (h.owns hX)
  info hX fname fi hfi := h'.info (h.stays hX) fname fi (h.info hX fname fi hfi)
  seeds hX fname := (h'.seeds (h.stays hX) fname).trans (h.seeds hX fname)
  entry fname pr hpr := h.entry fname pr (h'.entry fname pr hpr)

/-- A group in which `v` stands as before and seeds as before. -/
lemma of_files (hstanding : grp'.standing v = grp.standing v)
    (howner : grp.owner = v → grp'.owner = v)
    (hinfo : ∀ f fi, grp.fileInfo f = some fi → grp'.fileInfo f = some fi)
    (hentry : ∀ f, grp'.entry f v = grp.entry f v) : Spares v (some grp) (some grp') where
  asked h := hstanding.symm.trans h
  joined h := by
    show grp.standing v ≠ .out
    rw [← hstanding, show grp'.standing v = .member from h]
    decide
  stays h := hstanding.trans h
  owns h := congrArg some (howner (Option.some.inj h))
  info _ := hinfo
  seeds _ := hentry
  entry f pr h := (hentry f).symm.trans h

/-- Members and requests change, for other users than `v`. -/
lemma of_members {owner : Str} {members pending : StrSet}
    (hmembers : v ∈ members ↔ v ∈ grp.members) (hpending : v ∈ pending ↔ v ∈ grp.pending)
    (howner : grp.owner = v → owner = v) :
    Spares v (some grp)
      (some { grp with owner := owner, members := members, pending := pending }) := by
  refine of_files ?_ howner (fun _ _ h => h) fun _ => rfl
  simp only [Group.standing, hmembers, hpending]

/-- The entry of a file is written, with the metadata it had, if it was there, and
with the entry that `v` had. -/
lemma of_file {fname : Str} {fm : FileMeta}
    (hinfo : ∀ fi, grp.fileInfo fname = some fi → fm.info = fi)
    (hseed : fm.seeders[v]? = grp.entry fname v) :
    Spares v (some grp) (some { grp with files := grp.files.insert fname fm }) := by
  refine of_files rfl id (fun f fi hfi => ?_) fun f => ?_
  · rw [Group.fileInfo_setFile]
    split
    · next hf =>
        subst hf
        rw [hinfo fi hfi]
    · exact hfi
  · rw [Group.entry_setFile]
    split
    · next hf =>
        subst hf
        exact hseed
    · rfl

/-- A file that is there gets an entry of another user, or loses one. -/
lemma of_seeders {fname : Str} {fm : FileMeta} (hf : grp.files[fname]? = some fm)
    {seeders : StrMap PeerRef} (hseed : seeders[v]? = fm.seeders[v]?) :
    Spares v (some grp)
      (some { grp with files := grp.files.insert fname { fm with seeders := seeders } }) := by
  refine of_file (fun fi hfi => ?_) ?_
  · rw [Group.fileInfo, hf] at hfi
    exact Option.some.inj hfi
  · rw [Group.entry, hf]
    exact hseed

/-- The owner accepts a request, which may be that of `v`. -/
lemma accept {uid : Str} (hpend : uid ∈ grp.pending) :
    Spares v (some grp) (some
      { grp with pending := grp.pending.erase uid, members := grp.members.insert uid }) := by
  by_cases hv : uid = v
  · subst hv
    have hmember : Group.standing
        { grp with pending := grp.pending.erase uid, members := grp.members.insert uid } uid =
          .member := Group.standing_eq_member.mpr Std.ExtTreeSet.mem_insert_self
    refine ⟨fun h => ?_, fun _ hout => ?_, fun _ => hmember, id, fun _ _ _ h => h, fun _ _ => rfl,
      fun _ _ h => h⟩
    · cases hmember.symm.trans h
    · exact (Group.standing_eq_out.mp hout).2 hpend
  · refine of_members ?_ ?_ id
    · simp [Std.ExtTreeSet.mem_insert, hv]
    · simp [Std.ExtTreeSet.mem_erase, hv]

/-- A group that only another user is a member of goes. -/
lemma dissolved (hstanding : grp.standing v ≠ .member) (howner : grp.owner ≠ v) :
    Spares v (some grp) none where
  asked h := by cases h
  joined h := by cases h
  stays h := absurd h hstanding
  owns h := absurd (Option.some.inj h) howner
  info h := absurd h hstanding
  seeds h := absurd h hstanding
  entry _ _ h := by cases h

/-- Another user creates a group. -/
lemma created {gid owner : Str} (howner : owner ≠ v) :
    Spares v none (some ⟨gid, owner, (∅ : StrSet).insert owner, ∅, ∅⟩) := by
  have hout : Group.standing ⟨gid, owner, (∅ : StrSet).insert owner, ∅, ∅⟩ v = .out :=
    Group.standing_eq_out.mpr ⟨by simp [Std.ExtTreeSet.mem_insert, howner], by simp⟩
  refine ⟨fun h => ?_, fun h => ?_, fun h => ?_, fun h => ?_, fun h => ?_, fun h => ?_,
    fun _ _ h => ?_⟩
  · cases hout.symm.trans h
  · cases hout.symm.trans h
  · cases h
  · cases h
  · cases h
  · cases h
  · simp [entryOf, Group.entry] at h

/-- Another user stops seeding everywhere. -/
lemma dropSeeder {uid : Str} (hne : uid ≠ v) (X : Option Group) :
    Spares v X (X.map (TrackerState.dropSeeder uid)) := by
  cases X with
  | none => exact refl v none
  | some grp =>
      refine of_files rfl id (fun f fi hfi => ?_) fun f => ?_
      · rw [Group.fileInfo] at hfi ⊢
        rw [TrackerState.dropSeeder, Std.ExtTreeMap.getElem?_map, Option.map_map]
        exact hfi
      · rw [Group.entry, Group.entry, TrackerState.dropSeeder, Std.ExtTreeMap.getElem?_map]
        cases grp.files[f]? with
        | none => rfl
        | some fm => simp [Std.ExtTreeMap.getElem?_erase, hne]

end Spares

/-! ### The tracker -/

/-- The user on whose behalf the call is made. -/
def Call.actor : Call → Str
  | createUser uid _ | login uid _ _ _ | logout uid => uid
  | createGroup _ owner | acceptRequest _ owner _ => owner
  | joinGroup _ uid | leaveGroup _ uid | addFile _ uid _ _ _ | stopShare _ uid _
  | updateBitfield _ uid _ _ _ _ => uid

namespace TrackerState

/-- The record of `v` is the same, and every group spares `v`. -/
def Untouched (v : Str) (s s' : TrackerState) : Prop :=
  s'.users[v]? = s.users[v]? ∧ ∀ gid : Str, Spares v s.groups[gid]? s'.groups[gid]?

variable {H : Str → Str} {v : Str} {s s' s'' : TrackerState} {c : Call}

lemma Untouched.refl (v : Str) (s : TrackerState) : s.Untouched v s :=
  ⟨rfl, fun gid => Spares.refl v s.groups[gid]?⟩

lemma Untouched.trans (h : s.Untouched v s') (h' : s'.Untouched v s'') : s.Untouched v s'' :=
  ⟨h'.1.trans h.1, fun gid => (h.2 gid).trans (h'.2 gid)⟩

lemma untouched_setUser {uid : Str} (hne : uid ≠ v) (u : User) :
    s.Untouched v { s with users := s.users.insert uid u } :=
  ⟨by simp [Std.ExtTreeMap.getElem?_insert, hne], fun gid => Spares.refl v s.groups[gid]?⟩

lemma untouched_setGroup {gid : Str} {X : Option Group} {grp : Group} (hg : s.groups[gid]? = X)
    (h : Spares v X (some grp)) : s.Untouched v (s.setGroup gid grp) := by
  refine ⟨rfl, fun k => ?_⟩
  rw [setGroup, Std.ExtTreeMap.getElem?_insert]
  split
  · next heq =>
      obtain rfl := Std.LawfulEqCmp.eq_of_compare heq
      rw [hg]
      exact h
  · exact Spares.refl v s.groups[k]?

/-- **The step lemma**: a successful call of another user. -/
lemma Ran.untouched (hran : Ran H s c s') (hne : c.actor ≠ v) : s.Untouched v s' := by
  have hother : ∀ {m : StrSet}, v ∈ m.erase c.actor ↔ v ∈ m := by
    intro m
    simp [Std.ExtTreeSet.mem_erase, hne]
  cases hran with
  | createUser => exact untouched_setUser hne _
  | login => exact untouched_setUser hne _
  | @logout uid u =>
      have hne' : uid ≠ v := hne
      refine ⟨by simp [Std.ExtTreeMap.getElem?_insert, hne'], fun gid => ?_⟩
      rw [Std.ExtTreeMap.getElem?_map]
      exact Spares.dropSeeder hne s.groups[gid]?
  | createGroup _ _ _ hnew =>
      exact untouched_setGroup (Std.ExtTreeMap.getElem?_eq_none hnew) (Spares.created hne)
  | @joinGroup gid uid grp _ _ hg =>
      have hne' : uid ≠ v := hne
      refine untouched_setGroup hg (Spares.of_members Iff.rfl ?_ id)
      simp [Std.ExtTreeSet.mem_insert, hne']
  | @dissolve gid uid grp _ _ hg hmem howner hlast =>
      -- the group goes with its last member, and that is not `v`
      have hheir : grp.heir uid = none := by rw [Group.heir, if_pos howner, hlast]
      have halone := Group.alone_of_heir hheir
      refine ⟨rfl, fun k => ?_⟩
      rw [Std.ExtTreeMap.getElem?_erase]
      split
      · next heq =>
          obtain rfl := Std.LawfulEqCmp.eq_of_compare heq
          rw [hg]
          exact Spares.dissolved (halone.2 v hne) (howner ▸ hne)
      · exact Spares.refl v s.groups[k]?
  | handoff _ _ hg _ howner =>
      refine untouched_setGroup hg (Spares.of_members hother Iff.rfl fun hv => ?_)
      -- the group changes its owner, who was not `v`
      exact absurd (howner.trans hv) hne
  | leave _ _ hg => exact untouched_setGroup hg (Spares.of_members hother Iff.rfl id)
  | acceptRequest _ _ _ hg _ hpend => exact untouched_setGroup hg (Spares.accept hpend)
  | @addSeeder gid uid ip port fmeta grp fm _ _ _ hg _ hf =>
      have hne' : uid ≠ v := hne
      refine untouched_setGroup hg (Spares.of_seeders hf ?_)
      simp [Std.ExtTreeMap.getElem?_insert, hne']
  | @addFile gid uid ip port fmeta grp _ _ _ hg _ hf =>
      have hne' : uid ≠ v := hne
      refine untouched_setGroup hg (Spares.of_file (fun fi hfi => ?_) ?_)
      · rw [Group.fileInfo, hf] at hfi
        cases hfi
      · rw [Group.entry, hf]
        simp [hne']
  | @stopShare gid uid fname grp fm _ _ _ hg hf =>
      have hne' : uid ≠ v := hne
      refine untouched_setGroup hg (Spares.of_seeders hf ?_)
      simp [Std.ExtTreeMap.getElem?_erase, hne']
  | @updateBitfield gid uid ip port fname bits grp fm _ _ _ hg _ hf =>
      have hne' : uid ≠ v := hne
      refine untouched_setGroup hg (Spares.of_seeders hf ?_)
      simp [Std.ExtTreeMap.getElem?_insert, hne']

end TrackerState

/-! ### The sessions -/

/-- A registration apart, what a session asks for it asks for its own user. -/
lemma Call.actor_of_by {u : Str} {c : Call} (hby : c.By u) (hcreate : c.type ≠ .createUser)
    (hlogin : c.type ≠ .login) : c.actor = u := by
  cases c with
  | createUser => exact absurd rfl hcreate
  | login => exact absurd rfl hlogin
  | logout | createGroup | joinGroup | leaveGroup | acceptRequest | addFile | stopShare
  | updateBitfield => exact hby

/-- A login as `v` is tried only with passwords that do not have this hash. -/
def ClientEvent.KeepsOut (H : Str → Str) (v hash : Str) : ClientEvent → Prop
  | .request _ type payload _ => type = MsgType.login.code →
      ∀ login ∈ decode getLogin payload, login.1 = v → H login.2.1 ≠ hash
  | .connect .. | .disconnect .. => True

instance (H : Str → Str) (v hash : Str) : DecidablePred (ClientEvent.KeepsOut H v hash)
  | .request _ type payload _ => inferInstanceAs (Decidable (type = MsgType.login.code →
      ∀ login ∈ decode getLogin payload, login.1 = v → H login.2.1 ≠ hash))
  | .connect .. | .disconnect .. => .isTrue trivial

namespace Session

variable {H : Str → Str} {s : TrackerState} {σ : Session} {type : UInt16} {payload : Str}

/-- **The call of a request** is one of the session's own user, a registration or a
login. -/
lemma by_of_stateCall {c : Call} (h : σ.stateCall type payload = some c) : c.By σ.user := by
  obtain ⟨htype, -, hlocal⟩ := type_of_stateCall h
  by_cases hlogin : c.type = .login
  · cases c with
    | login => trivial
    | _ => cases hlogin
  · by_cases hlogout : c.type = .logout
    · rw [htype, hlogout, stateCall, MsgType.ofCode_code] at h
      by_cases huser : σ.user = []
      · simp [huser] at h
      · obtain rfl : Call.logout σ.user = c := by simpa [huser] using h
        rfl
    · obtain ⟨f, hreq, hmap⟩ := Option.bind_eq_some_iff.mp (hlocal hlogin hlogout)
      obtain ⟨⟨c', rep⟩, hdec, rfl⟩ := Option.map_eq_some_iff.mp hmap
      exact by_of_reqOf hreq hdec

/-- A session becomes that of a user by a login with the password only. -/
lemma user_dispatch_ne {v : Str} {u : User} (hv : v ≠ []) (hu : s.users[v]? = some u)
    (hσ : σ.user ≠ v)
    (hkeep : type = MsgType.login.code →
      ∀ login ∈ decode getLogin payload, login.1 = v → H login.2.1 ≠ u.password) :
    (dispatch H s σ type payload).session.user ≠ v := by
  by_cases hlogin : type = MsgType.login.code
  · subst hlogin
    have hdispatch : σ.dispatch H s MsgType.login.code payload = σ.login H s payload := by
      rw [dispatch, MsgType.ofCode_code]
    rw [hdispatch]
    rcases login_cases H s σ payload with
      ⟨-, hsame⟩ | ⟨uid, pwd, port, u', hdec, hu', hpwd, huser, -⟩
    · rw [hsame]
      exact hσ
    · rw [huser]
      rintro rfl
      obtain rfl := Option.some.inj (hu.symm.trans hu')
      exact hkeep rfl _ hdec rfl hpwd.symm
  · by_cases hlogout : type = MsgType.logout.code
    · subst hlogout
      have hdispatch : σ.dispatch H s MsgType.logout.code payload = σ.loggedIn s (σ.logout s) := by
        rw [dispatch, MsgType.ofCode_code]
      rw [hdispatch, Session.loggedIn]
      split
      · exact hσ
      · exact Ne.symm hv
    · rw [session_dispatch hlogin hlogout]
      exact hσ

/-- What a call of a session of somebody else does to `v`. -/
lemma untouched_call {v : Str} {u : User} (hu : s.users[v]? = some u) {c : Call}
    (hby : c.By σ.user) (hσ : σ.user ≠ v)
    (hkeep : ∀ pwd ip port, c = .login v pwd ip port → H pwd ≠ u.password) :
    s.Untouched v (s.after H c) := by
  rcases TrackerState.after_cases H s c with hran | heq
  · generalize s.after H c = s' at hran ⊢
    refine hran.untouched ?_
    rintro rfl
    by_cases hcreate : c.type = .createUser
    · -- the name is taken
      cases hran with
      | createUser _ _ hnew => exact hnew (Std.ExtTreeMap.mem_iff_isSome_getElem?.mpr
          (Option.isSome_of_eq_some hu))
      | _ => cases hcreate
    · by_cases hlogin : c.type = .login
      · cases hran with
        | login hu' hpwd =>
            obtain rfl := Option.some.inj (hu.symm.trans hu')
            exact hkeep _ _ _ rfl hpwd.symm
        | _ => cases hlogin
      · exact hσ (Call.actor_of_by hby hcreate hlogin).symm
  · rw [heq]
    exact TrackerState.Untouched.refl v s

end Session

/-! ### Runs -/

namespace Server

variable {H : Str → Str} {sv sv' : Server} {v : Str}

/-- **One event** of clients that are not logged in as `v`. -/
lemma untouched_serve {u : User} (hv : v ≠ []) (hu : sv.tracker.state.users[v]? = some u)
    (hout : ¬ sv.LoggedIn v) {ev : ClientEvent} (hkeep : ev.KeepsOut H v u.password) :
    sv.tracker.state.Untouched v (sv.serve H ev).2.tracker.state ∧
      ¬ (sv.serve H ev).2.LoggedIn v := by
  have hsession : ∀ {fd : ℕ} {σ : Session}, sv.sessions fd = some σ → σ.user ≠ v :=
    fun hσ huser => hout ⟨_, _, hσ, huser⟩
  -- the sessions stay those of others, as long as the new one is
  have hset : ∀ {fd : ℕ} {x : Option Session} {sv' : Server}, sv'.sessions = sv.setSession fd x →
      (∀ σ ∈ x, σ.user ≠ v) → ¬ sv'.LoggedIn v := by
    intro fd x sv' h hx
    rw [loggedIn_set h]
    rintro (⟨σ, hσ, huser⟩ | ⟨fd', -, σ, hσ, huser⟩)
    · exact hx σ hσ huser
    · exact hsession hσ huser
  cases ev with
  | connect fd ip hip =>
      obtain ⟨hstate, hsame | ⟨-, hnew⟩⟩ := @serve_connect H sv fd ip hip
      · rw [hstate, LoggedIn, hsame]
        exact ⟨TrackerState.Untouched.refl v _, hout⟩
      · rw [hstate]
        refine ⟨TrackerState.Untouched.refl v _, hset hnew fun σ hσ => ?_⟩
        obtain rfl := Option.some.inj hσ
        exact Ne.symm hv
  | request fd type payload now =>
      cases hσ : sv.sessions fd with
      | none =>
          rw [serve_absent hσ (.inl ⟨type, payload, now, rfl⟩)]
          exact ⟨TrackerState.Untouched.refl v _, hout⟩
      | some σ =>
          obtain ⟨hstate, hnew⟩ := serve_request (H := H) hσ type payload now
          rw [hstate]
          refine ⟨?_, hset hnew fun σ' hσ' => ?_⟩
          · rw [Session.state_dispatch]
            cases hcall : σ.stateCall type payload with
            | none => exact TrackerState.Untouched.refl v _
            | some c =>
                refine Session.untouched_call hu (Session.by_of_stateCall hcall) (hsession hσ) ?_
                -- a login as `v` is tried with a wrong password
                rintro pwd ip port rfl
                obtain ⟨htype, -⟩ := Session.type_of_stateCall hcall
                rw [htype, Session.stateCall, MsgType.ofCode_code] at hcall
                obtain ⟨⟨uid, pwd', port'⟩, hdec, heq⟩ := Option.map_eq_some_iff.mp hcall
                cases heq
                exact hkeep htype _ hdec rfl
          · obtain rfl := Option.some.inj hσ'
            exact Session.user_dispatch_ne hv hu (hsession hσ) hkeep
  | disconnect fd =>
      cases hσ : sv.sessions fd with
      | none =>
          rw [serve_absent hσ (.inr rfl)]
          exact ⟨TrackerState.Untouched.refl v _, hout⟩
      | some σ =>
          obtain ⟨hstate, hnew⟩ := serve_disconnect (H := H) hσ
          rw [hstate, Session.state_finish H]
          refine ⟨?_, hset hnew fun σ' hσ' => by cases hσ'⟩
          by_cases huser : σ.user = []
          · rw [if_pos huser]
            exact TrackerState.Untouched.refl v _
          · rw [if_neg huser]
            exact Session.untouched_call (c := .logout σ.user) hu rfl (hsession hσ)
              fun _ _ _ heq => by cases heq

/-- A tracker with the user `[1]`, who owns the group `[5]` and seeds the file `[7]`
of it, and two clients. -/
def withOwner : Server :=
  ⟨{ Tracker.start with
      state := [.createUser [1] [4], .createGroup [5] [1],
        .addFile [5] [1] [6] 80 ⟨[7], 1, [3], [[3]], ∅⟩].foldl (TrackerState.after id) .init },
    fun fd => if fd = 8 then some (.start [4] peerIp_fits) else none⟩

/-- A client tries a wrong password, registers, logs in, asks for membership and for
the end of the share. -/
def intruding : List ClientEvent :=
  [.request 8 MsgType.login.code (putStr [1] ++ putStr [9] ++ putU16 5) 0,
    .request 8 MsgType.createUser.code (putStr [2] ++ putStr [4]) 0,
    .request 8 MsgType.login.code (putStr [2] ++ putStr [4] ++ putU16 5) 0,
    .request 8 MsgType.joinGroup.code (putStr [5]) 0,
    .request 8 MsgType.stopShare.code (putShare [5] [7]) 0, .disconnect 8]

end Server

end P2PShare
