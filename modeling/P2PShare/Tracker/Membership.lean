import P2PShare.Tracker.Server

/-!
How a user becomes a member of a group on a tracker that only clients change.

* `Answered`, `Server.history`: the requests of a run with the user whose session
  sent them, the state they met and the status they were answered with.
* `Ran.group_cases`: what a call does to the members and the requests of a group.
* `Granted`: the creation of the group, or a request to join and the owner's
  acceptance after it.
* `Traced` (**the invariant**) and `membership_granted`: every member of a group
  is granted by the history since the group was last created.
-/

namespace P2PShare

open Cursor Reader

/-- A request that has been answered: whom the session was logged in as, the
request, the state before it and the status of the reply. -/
structure Answered where
  user : Str
  type : UInt16
  payload : Str
  before : TrackerState
  status : Status

/-- The fields of `MSG_ACCEPT_REQUEST`. -/
def getAccept : Get (Str × Str) := do
  let gid ← getStr
  let uid ← getStr
  return (gid, uid)

namespace Answered

/-- A session of `uid` has created the group. -/
def Created (a : Answered) (gid uid : Str) : Prop :=
  a.type = MsgType.createGroup.code ∧ decode getStr a.payload = some gid ∧ a.user = uid ∧
    a.status = .ok

/-- A session of `uid` has asked to join the group. -/
def Joined (a : Answered) (gid uid : Str) : Prop :=
  a.type = MsgType.joinGroup.code ∧ decode getStr a.payload = some gid ∧ a.user = uid ∧
    a.status = .ok

/-- A session of the user who owned the group has accepted `uid`. -/
def Accepted (a : Answered) (gid uid : Str) : Prop :=
  a.type = MsgType.acceptRequest.code ∧ decode getAccept a.payload = some (gid, uid) ∧
    (∃ grp, a.before.groups[gid]? = some grp ∧ a.user = grp.owner) ∧ a.status = .ok

end Answered

/-- Since the group was created by `a` and the requests after it: `uid` is its
creator, or has asked to join it and has been accepted later. -/
def MemberBy (gid uid : Str) (a : Answered) (later : List Answered) : Prop :=
  a.Created gid uid ∨ ∃ l₁ join l₂ accept l₃, later = l₁ ++ join :: l₂ ++ accept :: l₃ ∧
    join.Joined gid uid ∧ accept.Accepted gid uid

/-- **What a membership rests on**: the latest creation of the group in the
history, and what came later. -/
def Granted (hist : List Answered) (gid uid : Str) : Prop :=
  ∃ earlier a later, hist = earlier ++ a :: later ∧ (∃ owner, a.Created gid owner) ∧
    (∀ b ∈ later, ∀ owner, ¬ b.Created gid owner) ∧ MemberBy gid uid a later

namespace Server

/-- The request of an event, if it is one. -/
def answered (H : Str → Str) (sv : Server) : ClientEvent → Option Answered
  | .request fd type payload _ => (sv.sessions fd).map fun σ =>
      ⟨σ.user, type, payload, sv.tracker.state,
        (σ.dispatch H sv.tracker.state type payload).status⟩
  | .connect .. | .disconnect _ => none

/-- The requests of a run, in order. -/
def history (H : Str → Str) (sv : Server) : List ClientEvent → List Answered
  | [] => []
  | ev :: evs => (sv.answered H ev).toList ++ history H (sv.serve H ev).2 evs

end Server

namespace TrackerState

variable {H : Str → Str} {s s' : TrackerState} {c : Call}

/-- **What a call does to a group**: only an acceptance adds a member, only a
request to join adds one to the requests, and only a creation makes a group. -/
lemma Ran.group_cases (hran : Ran H s c s') {gid : Str} {grp' : Group}
    (hgrp' : s'.groups[gid]? = some grp') :
    (∃ grp, s.groups[gid]? = some grp ∧
      (∀ m ∈ grp'.members, m ∈ grp.members ∨
        m ∈ grp.pending ∧ c = .acceptRequest gid grp.owner m) ∧
      ∀ m ∈ grp'.pending, m ∈ grp.pending ∨ c = .joinGroup gid m) ∨
    ∃ owner, c = .createGroup gid owner ∧ (∀ m ∈ grp'.members, m = owner) ∧ grp'.pending = ∅ := by
  -- one group is put in place of another, with no member from elsewhere
  have hkept : ∀ {groups : StrMap Group} {k : Str} {x y : Group}, groups = s.groups.insert k x →
      groups[gid]? = some grp' → s.groups[k]? = some y →
      (∀ m ∈ x.members, m ∈ y.members ∨ m ∈ y.pending ∧ c = .acceptRequest k y.owner m) →
      (∀ m ∈ x.pending, m ∈ y.pending ∨ c = .joinGroup k m) →
      ∃ grp, s.groups[gid]? = some grp ∧
        (∀ m ∈ grp'.members, m ∈ grp.members ∨
          m ∈ grp.pending ∧ c = .acceptRequest gid grp.owner m) ∧
        ∀ m ∈ grp'.pending, m ∈ grp.pending ∨ c = .joinGroup gid m := by
    rintro groups k x y rfl hget hy hmem hpend
    rw [Std.ExtTreeMap.getElem?_insert] at hget
    by_cases hk : k = gid
    · subst hk
      obtain rfl : x = grp' := by simpa using hget
      exact ⟨y, hy, hmem, hpend⟩
    · exact ⟨grp', by simpa [hk] using hget, fun m hm => .inl hm, fun m hm => .inl hm⟩
  cases hran with
  | createUser | login => exact .inl ⟨grp', hgrp', fun m hm => .inl hm, fun m hm => .inl hm⟩
  | logout =>
      rw [Std.ExtTreeMap.getElem?_map] at hgrp'
      obtain ⟨grp, hgrp, rfl⟩ := Option.map_eq_some_iff.mp hgrp'
      exact .inl ⟨grp, hgrp, fun m hm => .inl hm, fun m hm => .inl hm⟩
  | @createGroup k owner _ _ _ hnew =>
      change (s.groups.insert k _)[gid]? = some grp' at hgrp'
      rw [Std.ExtTreeMap.getElem?_insert] at hgrp'
      by_cases hk : k = gid
      · subst hk
        obtain rfl := by simpa using hgrp'
        refine .inr ⟨owner, rfl, fun m hm => ?_, rfl⟩
        rcases Std.ExtTreeSet.mem_insert.mp hm with heq | hm
        · simpa using Eq.symm (Std.LawfulEqCmp.eq_of_compare heq)
        · simp at hm
      · exact .inl ⟨grp', by simpa [hk] using hgrp', fun m hm => .inl hm, fun m hm => .inl hm⟩
  | joinGroup _ _ hg =>
      refine .inl (hkept rfl hgrp' hg (fun m hm => .inl hm) fun m hm => ?_)
      rcases Std.ExtTreeSet.mem_insert.mp hm with heq | hm
      · exact .inr (by rw [Std.LawfulEqCmp.eq_of_compare heq])
      · exact .inl hm
  | @dissolve k uid =>
      rw [Std.ExtTreeMap.getElem?_erase] at hgrp'
      -- the group that is dissolved is not the one we have found afterwards
      have hk : k ≠ gid := fun hk => by simp [hk] at hgrp'
      exact .inl ⟨grp', by simpa [hk] using hgrp', fun m hm => .inl hm, fun m hm => .inl hm⟩
  | handoff _ _ hg | leave _ _ hg =>
      exact .inl (hkept rfl hgrp' hg (fun m hm => .inl (Std.ExtTreeSet.mem_of_mem_erase hm))
        fun m hm => .inl hm)
  | acceptRequest _ _ _ hg howner hpend =>
      refine .inl (hkept rfl hgrp' hg (fun m hm => ?_) fun m hm =>
        .inl (Std.ExtTreeSet.mem_of_mem_erase hm))
      rcases Std.ExtTreeSet.mem_insert.mp hm with heq | hm
      · obtain rfl := Std.LawfulEqCmp.eq_of_compare heq
        exact .inr ⟨hpend, by rw [howner]⟩
      · exact .inl hm
  | addSeeder _ _ _ hg | addFile _ _ _ hg | stopShare _ _ _ hg | updateBitfield _ _ _ hg =>
      exact .inl (hkept rfl hgrp' hg (fun m hm => .inl hm) fun m hm => .inl hm)

end TrackerState

namespace Session

variable (σ : Session) (payload : Str)

/-! ### Which call a request asks for -/

lemma localCall_createGroup :
    σ.localCall .createGroup payload =
      (decode getStr payload).map fun gid => .createGroup gid σ.user := by
  show (decode (reqCreateGroup σ) payload).map Prod.fst = _
  rw [reqCreateGroup, decode_map, Option.map_map]
  rfl

lemma localCall_joinGroup :
    σ.localCall .joinGroup payload =
      (decode getStr payload).map fun gid => .joinGroup gid σ.user := by
  show (decode (reqJoinGroup σ) payload).map Prod.fst = _
  rw [reqJoinGroup, decode_map, Option.map_map]
  rfl

lemma localCall_acceptRequest :
    σ.localCall .acceptRequest payload =
      (decode getAccept payload).map fun (gid, uid) => .acceptRequest gid σ.user uid := by
  have hreq : reqAcceptRequest σ = do
      let p ← getAccept
      return (Call.acceptRequest p.1 σ.user p.2, putStr p.1 ++ putStr σ.user ++ putStr p.2) := by
    simp [reqAcceptRequest, getAccept]
  show (decode (reqAcceptRequest σ) payload).map Prod.fst = _
  rw [hreq, decode_map, Option.map_map]
  rfl

end Session

/-! ### The invariant -/

/-- **The invariant**: every member of a group is granted since its latest
creation, and every pending user has asked to join since. -/
def Traced (hist : List Answered) (s : TrackerState) : Prop :=
  ∀ gid grp, s.groups[gid]? = some grp → ∃ earlier a later, hist = earlier ++ a :: later ∧
    (∃ owner, a.Created gid owner) ∧ (∀ b ∈ later, ∀ owner, ¬ b.Created gid owner) ∧
    (∀ m ∈ grp.members, MemberBy gid m a later) ∧ ∀ m ∈ grp.pending, ∃ b ∈ later, b.Joined gid m

/-- What rests on some requests still does after more. -/
lemma MemberBy.append {gid uid : Str} {a : Answered} {later : List Answered}
    (h : MemberBy gid uid a later) (more : List Answered) : MemberBy gid uid a (later ++ more) := by
  rcases h with hcreated | ⟨l₁, b, l₂, c, l₃, rfl, hb, hc⟩
  · exact .inl hcreated
  · exact .inr ⟨l₁, b, l₂, c, l₃ ++ more, by simp, hb, hc⟩

/-- A user who has asked to join is accepted. -/
lemma memberBy_of_accepted {gid uid : Str} {a b c : Answered} {later : List Answered}
    (hb : b ∈ later) (hjoined : b.Joined gid uid) (hc : c.Accepted gid uid) :
    MemberBy gid uid a (later ++ [c]) := by
  obtain ⟨l₁, l₂, rfl⟩ := List.append_of_mem hb
  exact .inr ⟨l₁, b, l₂, c, [], by simp, hjoined, hc⟩

/-- **The step lemma**: a request that adds a member is an acceptance, one that
adds a pending user asks to join, and one that makes a group creates it. -/
lemma Traced.step {hist : List Answered} {s s' : TrackerState} (h : Traced hist s)
    {x : Option Answered}
    (hnew : ∀ a ∈ x, ∀ gid owner, a.Created gid owner → s.groups[gid]? = none)
    (hcases : ∀ gid grp', s'.groups[gid]? = some grp' →
      (∃ grp, s.groups[gid]? = some grp ∧
        (∀ m ∈ grp'.members, m ∈ grp.members ∨ m ∈ grp.pending ∧ ∃ a ∈ x, a.Accepted gid m) ∧
        ∀ m ∈ grp'.pending, m ∈ grp.pending ∨ ∃ a ∈ x, a.Joined gid m) ∨
      ∃ a ∈ x, ∃ owner, a.Created gid owner ∧ (∀ m ∈ grp'.members, m = owner) ∧
        grp'.pending = ∅) :
    Traced (hist ++ x.toList) s' := by
  intro gid grp' hgrp'
  rcases hcases gid grp' hgrp' with
    ⟨grp, hgrp, hmem, hpend⟩ | ⟨a, rfl, owner, hcreated, hmem, hpend⟩
  · obtain ⟨earlier, a, later, rfl, hcreated, hlatest, hby, hasked⟩ := h gid grp hgrp
    refine ⟨earlier, a, later ++ x.toList, by simp, hcreated, fun b hb owner hb' => ?_,
      fun m hm => ?_, fun m hm => ?_⟩
    · rcases List.mem_append.mp hb with hb | hb
      · exact hlatest b hb owner hb'
      · have hnone := hnew b (by simpa using hb) gid owner hb'
        rw [hgrp] at hnone
        cases hnone
    · rcases hmem m hm with hold | ⟨hold, c, rfl, hc⟩
      · exact (hby m hold).append _
      · obtain ⟨b, hb, hjoined⟩ := hasked m hold
        exact memberBy_of_accepted hb hjoined hc
    · rcases hpend m hm with hold | ⟨b, rfl, hb⟩
      · obtain ⟨b, hb, hjoined⟩ := hasked m hold
        exact ⟨b, List.mem_append_left _ hb, hjoined⟩
      · exact ⟨b, List.mem_append_right _ List.mem_cons_self, hb⟩
  · refine ⟨hist, a, [], rfl, ⟨owner, hcreated⟩, fun b hb => (by cases hb), fun m hm => .inl ?_,
      fun m hm => ?_⟩
    · rw [hmem m hm]
      exact hcreated
    · rw [hpend] at hm
      simp at hm

namespace Server

variable {H : Str → Str} {sv : Server} {hist : List Answered}

/-- A request that creates a group finds none of that id. -/
lemma created_new {fd : ℕ} {type : UInt16} {payload : Str} {now : UInt64} {a : Answered}
    (ha : sv.answered H (.request fd type payload now) = some a) {gid owner : Str}
    (hcreated : a.Created gid owner) : sv.tracker.state.groups[gid]? = none := by
  obtain ⟨σ, -, rfl⟩ := Option.map_eq_some_iff.mp ha
  obtain ⟨htype, hdec, huser, hstatus⟩ := hcreated
  dsimp only at htype hdec huser hstatus
  subst htype
  have hne : σ.user ≠ [] := by
    intro hnil
    rw [Session.dispatch, MsgType.ofCode_code] at hstatus
    dsimp only at hstatus
    rw [Session.loggedIn, if_pos hnil] at hstatus
    cases hstatus
  have hlocal : σ.localCall .createGroup payload = some (.createGroup gid σ.user) := by
    rw [Session.localCall_createGroup, hdec]
    rfl
  have hcall := Session.stateCall_of_localCall (.inr hne) hlocal
  rw [Session.status_dispatch hcall] at hstatus
  rcases hexec : sv.tracker.state.exec H (.createGroup gid σ.user) with ⟨st, s'⟩
  rw [hexec] at hstatus
  rcases TrackerState.exec_cases hexec with ⟨-, hran⟩ | ⟨hno, -⟩
  · cases hran with
    | createGroup _ _ _ hgone => simpa using hgone
  · exact absurd hstatus hno

/-- A request that has made a call says so. -/
lemma answered_call {fd : ℕ} {type : UInt16} {payload : Str} {now : UInt64} {a : Answered}
    {σ : Session} {c : Call} (hσ : sv.sessions fd = some σ)
    (ha : sv.answered H (.request fd type payload now) = some a)
    (hcall : σ.stateCall type payload = some c) (hok : (sv.tracker.state.exec H c).1 = .ok) :
    (∀ gid owner, c = .createGroup gid owner → a.Created gid owner) ∧
    (∀ gid uid, c = .joinGroup gid uid → a.Joined gid uid) ∧
    ∀ gid owner uid grp, c = .acceptRequest gid owner uid →
      sv.tracker.state.groups[gid]? = some grp → grp.owner = owner → a.Accepted gid uid := by
  rw [answered, hσ] at ha
  obtain rfl := Option.some.inj ha
  have hstatus := (Session.status_dispatch (H := H) (s := sv.tracker.state) hcall).trans hok
  obtain ⟨htype, -, hlocal⟩ := Session.type_of_stateCall hcall
  refine ⟨?_, ?_, ?_⟩
  · rintro gid owner rfl
    have hlocal : σ.localCall .createGroup payload = some (.createGroup gid owner) :=
      hlocal (by simp [Call.type]) (by simp [Call.type])
    rw [Session.localCall_createGroup] at hlocal
    obtain ⟨gid', hdec, heq⟩ := Option.map_eq_some_iff.mp hlocal
    cases heq
    exact ⟨htype, hdec, rfl, hstatus⟩
  · rintro gid uid rfl
    have hlocal : σ.localCall .joinGroup payload = some (.joinGroup gid uid) :=
      hlocal (by simp [Call.type]) (by simp [Call.type])
    rw [Session.localCall_joinGroup] at hlocal
    obtain ⟨gid', hdec, heq⟩ := Option.map_eq_some_iff.mp hlocal
    cases heq
    exact ⟨htype, hdec, rfl, hstatus⟩
  · rintro gid owner uid grp rfl hgrp howner
    have hlocal : σ.localCall .acceptRequest payload = some (.acceptRequest gid owner uid) :=
      hlocal (by simp [Call.type]) (by simp [Call.type])
    rw [Session.localCall_acceptRequest] at hlocal
    obtain ⟨⟨gid', uid'⟩, hdec, heq⟩ := Option.map_eq_some_iff.mp hlocal
    cases heq
    exact ⟨htype, hdec, ⟨grp, hgrp, howner.symm⟩, hstatus⟩

/-- A step that leaves the groups, or only what is not their members and
requests. -/
lemma traced_of_groups {s s' : TrackerState} (h : Traced hist s) {x : Option Answered}
    (hnew : ∀ a ∈ x, ∀ gid owner, a.Created gid owner → s.groups[gid]? = none)
    (hgroups : ∀ (gid : Str) (grp' : Group), s'.groups[gid]? = some grp' →
      ∃ grp, s.groups[gid]? = some grp ∧
      (∀ m ∈ grp'.members, m ∈ grp.members) ∧ ∀ m ∈ grp'.pending, m ∈ grp.pending) :
    Traced (hist ++ x.toList) s' := by
  refine h.step hnew fun gid grp' hgrp' => .inl ?_
  obtain ⟨grp, hgrp, hmem, hpend⟩ := hgroups gid grp' hgrp'
  exact ⟨grp, hgrp, fun m hm => .inl (hmem m hm), fun m hm => .inl (hpend m hm)⟩

/-- A client event keeps the invariant. -/
lemma traced_serve (h : Traced hist sv.tracker.state) (ev : ClientEvent) :
    Traced (hist ++ (sv.answered H ev).toList) (sv.serve H ev).2.tracker.state := by
  have hsame : ∀ (gid : Str) (grp' : Group), sv.tracker.state.groups[gid]? = some grp' →
      ∃ grp, sv.tracker.state.groups[gid]? = some grp ∧ (∀ m ∈ grp'.members, m ∈ grp.members) ∧
        ∀ m ∈ grp'.pending, m ∈ grp.pending :=
    fun gid grp' hgrp' => ⟨grp', hgrp', fun m hm => hm, fun m hm => hm⟩
  have hnone : ∀ a ∈ (none : Option Answered), ∀ gid owner, a.Created gid owner →
      sv.tracker.state.groups[gid]? = none := fun a ha => (by cases ha)
  cases ev with
  | connect fd ip hip =>
      rw [(serve_connect ip hip).1]
      exact traced_of_groups h hnone hsame
  | disconnect fd =>
      cases hσ : sv.sessions fd with
      | none =>
          rw [serve_absent hσ (.inr rfl)]
          exact traced_of_groups h hnone hsame
      | some σ =>
          rw [(serve_disconnect hσ).1]
          -- the logout at the end of a session lets nobody in
          rcases Session.finish_cases H sv.tracker.state σ with hran | heq
          · refine traced_of_groups h hnone fun gid grp' hgrp' => ?_
            rcases hran.group_cases hgrp' with ⟨grp, hgrp, hmem, hpend⟩ | ⟨owner, hc, -⟩
            · exact ⟨grp, hgrp, fun m hm => (hmem m hm).resolve_right (by simp),
                fun m hm => (hpend m hm).resolve_right (by simp)⟩
            · cases hc
          · rw [heq]
            exact traced_of_groups h hnone hsame
  | request fd type payload now =>
      have hnew : ∀ a ∈ sv.answered H (.request fd type payload now), ∀ gid owner,
          a.Created gid owner → sv.tracker.state.groups[gid]? = none :=
        fun a ha gid owner hcreated => created_new ha hcreated
      cases hσ : sv.sessions fd with
      | none =>
          rw [serve_absent hσ (.inl ⟨type, payload, now, rfl⟩)]
          exact traced_of_groups h hnew hsame
      | some σ =>
          obtain ⟨a, ha⟩ : ∃ a, sv.answered H (.request fd type payload now) = some a := by
            rw [answered, hσ]
            exact ⟨_, rfl⟩
          rw [(serve_request hσ type payload now).1, Session.state_dispatch]
          cases hcall : σ.stateCall type payload with
          | none => exact traced_of_groups h hnew hsame
          | some c =>
              rcases hexec : sv.tracker.state.exec H c with ⟨st, s'⟩
              have hafter : Session.afterCall H sv.tracker.state (some c) = s' :=
                congrArg Prod.snd hexec
              rw [hafter]
              -- an accepted call is the request that accounts for what has changed
              rcases TrackerState.exec_cases hexec with ⟨rfl, hran⟩ | ⟨-, rfl⟩
              · obtain ⟨hcreate, hjoin, haccept⟩ :=
                  answered_call hσ ha hcall (congrArg Prod.fst hexec)
                refine h.step hnew fun gid grp' hgrp' => ?_
                rcases hran.group_cases hgrp' with
                  ⟨grp, hgrp, hmem, hpend⟩ | ⟨owner, hc, hmem, hpend⟩
                · refine .inl ⟨grp, hgrp, fun m hm => (hmem m hm).imp_right ?_,
                    fun m hm => (hpend m hm).imp_right fun hc => ⟨a, ha, hjoin gid m hc⟩⟩
                  rintro ⟨hp, hc⟩
                  exact ⟨hp, a, ha, haccept gid grp.owner m grp hc hgrp rfl⟩
                · exact .inr ⟨a, ha, owner, hcreate gid owner hc, hmem, hpend⟩
              · exact traced_of_groups h hnew hsame

lemma traced_run (evs : List ClientEvent) (h : Traced hist sv.tracker.state) :
    Traced (hist ++ history H sv evs) (run H sv evs).2.tracker.state := by
  induction evs generalizing sv hist with
  | nil => simpa [history, run] using h
  | cons ev evs ih =>
      have hstep := ih (traced_serve (H := H) h ev)
      rw [List.append_assoc] at hstep
      exact hstep

/-- **Membership is granted**: in every run from the empty state, every member of
a group has created it, or has asked to join it and has been accepted by its owner
after that, since the group was last created. -/
theorem membership_granted (H : Str → Str) (evs : List ClientEvent) {gid uid : Str} {grp : Group}
    (hgrp : (run H start evs).2.tracker.state.groups[gid]? = some grp) (huid : uid ∈ grp.members) :
    Granted (history H start evs) gid uid := by
  have hstart : Traced [] start.tracker.state := by
    intro gid grp hgrp
    simp [start, Tracker.start, TrackerState.init] at hgrp
  have htraced := traced_run (H := H) evs hstart
  obtain ⟨earlier, a, later, heq, hcreated, hlatest, hmem, -⟩ := htraced gid grp hgrp
  exact ⟨earlier, a, later, heq, hcreated, hlatest, hmem uid huid⟩

/-- `[8]` creates the group `[3]`, `[9]` asks to join it and `[8]` accepts. -/
def lettingIn : List ClientEvent :=
  [.connect 7 [4] peerIp_fits,
    .request 7 MsgType.createUser.code (putStr [8] ++ putStr [2]) 0,
    .request 7 MsgType.login.code (putStr [8] ++ putStr [2] ++ putU16 5) 0,
    .request 7 MsgType.createGroup.code (putStr [3]) 0,
    .connect 6 [4] peerIp_fits,
    .request 6 MsgType.createUser.code (putStr [9] ++ putStr [2]) 0,
    .request 6 MsgType.login.code (putStr [9] ++ putStr [2] ++ putU16 5) 0,
    .request 6 MsgType.joinGroup.code (putStr [3]) 0,
    .request 7 MsgType.acceptRequest.code (putStr [3] ++ putStr [9]) 0]

theorem membership_granted_lettingIn : Granted (history id start lettingIn) [3] [9] := by
  have hgrp := Option.some_get (x := (run id start lettingIn).2.tracker.state.groups[([3] : Str)]?)
    (by decide +kernel)
  exact membership_granted id lettingIn hgrp.symm (by decide +kernel)

end Server

end P2PShare
