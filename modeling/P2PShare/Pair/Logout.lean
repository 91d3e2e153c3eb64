import P2PShare.Pair.Convergence
import P2PShare.Tracker.Outsider
import P2PShare.Tracker.Seeders

/-!
Users who have logged out, on the tracker that they use.

* `KeepsHome`: every user logs in on one tracker only, and the peer reads each
  request as it was made. Logins and logouts are not replicated.
* `Settled` (**the invariant**): the sessions of a tracker are those of its own
  users, and the ops on their way to it make only users of the peer seeders.
* `logged_out_unshared`: after a session of theirs has ended a user is offered by
  the tracker they use only if they upload or announce pieces again.
  `still_offered` is a run in which the other tracker goes on offering them.
-/

namespace P2PShare

open Cursor Reader

/-! ### Sessions and users -/

namespace ClientEvent

/-- The event ends a session of this user: a logout or the end of a connection. -/
def Ends (sv : Server) (uid : Str) (ev : ClientEvent) : Prop :=
  ∃ fd σ, sv.sessions fd = some σ ∧ σ.user = uid ∧ uid ≠ [] ∧
    (ev = .disconnect fd ∨ ∃ payload now, ev = .request fd MsgType.logout.code payload now)

/-- It makes the tracker log the user out. -/
lemma Ends.stateCall {sv : Server} {uid : Str} {ev : ClientEvent} (h : ev.Ends sv uid) :
    ev.stateCall sv = some (.logout uid) := by
  obtain ⟨fd, σ, hσ, rfl, hne, rfl | ⟨payload, now, rfl⟩⟩ := h
  · simp [ClientEvent.stateCall, hσ, hne]
  · simp [ClientEvent.stateCall, hσ, Session.stateCall, hne]

/-- The user whom an accepted request records as a seeder is the session's. -/
lemma Accepted.sharer {H : Str → Str} {sv : Server} {ev : ClientEvent} {c : Call} {uid : Str}
    (h : ev.Accepted H sv c) (hc : c.sharer = some uid) :
    ∃ fd σ, sv.sessions fd = some σ ∧ σ.user = uid ∧ uid ≠ [] := by
  obtain ⟨hcall, hok⟩ := h
  have hne : uid ≠ [] := by
    have hran := TrackerState.exec_eq_ok_iff.mp (Prod.ext hok rfl :
      sv.tracker.state.exec H c = (.ok, (sv.tracker.state.exec H c).2))
    generalize (sv.tracker.state.exec H c).2 = s' at hran
    cases hran with
    | addSeeder _ huid | addFile _ huid | updateBitfield _ huid =>
        rw [← Option.some.inj hc]
        exact huid
    | createUser | login | logout | createGroup | joinGroup | dissolve | handoff | leave
    | acceptRequest | stopShare => cases hc
  cases ev with
  | connect | disconnect => cases hcall
  | request fd type payload now =>
      obtain ⟨σ, hσ, hcall⟩ := Option.bind_eq_some_iff.mp hcall
      obtain ⟨t, -, hcall⟩ := Option.bind_eq_some_iff.mp hcall
      obtain ⟨g, hg, hcall⟩ := Option.bind_eq_some_iff.mp hcall
      obtain ⟨⟨c', rep⟩, hdec, rfl⟩ := Option.map_eq_some_iff.mp hcall
      have hby : c'.By σ.user := Session.by_of_reqOf hg hdec
      refine ⟨fd, σ, hσ, ?_, hne⟩
      cases c' with
      | addFile | updateBitfield => exact (hby : _ = _).symm.trans (Option.some.inj hc)
      | _ => cases hc

end ClientEvent

namespace Server

variable {H : Str → Str} {sv : Server}

/-- A session table with one entry replaced. -/
lemma setSession_cases {fd fd₀ : ℕ} {x : Option Session} {σ : Session}
    (h : sv.setSession fd₀ x fd = some σ) : fd = fd₀ ∧ x = some σ ∨ sv.sessions fd = some σ := by
  by_cases hfd : fd = fd₀
  · subst hfd
    exact .inl ⟨rfl, by simpa [setSession] using h⟩
  · exact .inr (by simpa [setSession, hfd] using h)

/-- **Whose session it is** after an event: the same user's, nobody's, or that of a
user who has just logged in. -/
lemma session_cases {ev : ClientEvent} {fd : ℕ} {σ' : Session}
    (h : (sv.serve H ev).2.sessions fd = some σ') (hne : σ'.user ≠ []) :
    (∃ σ, sv.sessions fd = some σ ∧ σ.user = σ'.user) ∨
      ∃ payload now a, ev = .request fd MsgType.login.code payload now ∧
        decode getLogin payload = some a ∧ a.1 = σ'.user ∧ σ'.user ∈ sv.tracker.state.users := by
  cases ev with
  | connect fd₀ ip hip =>
      rcases (serve_connect ip hip).2 with hsame | ⟨-, hset⟩
      · exact .inl ⟨σ', hsame ▸ h, rfl⟩
      · rw [hset] at h
        rcases setSession_cases h with ⟨-, hx⟩ | hold
        · rw [← Option.some.inj hx] at hne
          exact absurd rfl hne
        · exact .inl ⟨σ', hold, rfl⟩
  | disconnect fd₀ =>
      cases hσ₀ : sv.sessions fd₀ with
      | none => exact .inl ⟨σ', serve_absent hσ₀ (.inr rfl) ▸ h, rfl⟩
      | some σ₀ =>
          rw [(serve_disconnect hσ₀).2] at h
          rcases setSession_cases h with ⟨-, hx⟩ | hold
          · cases hx
          · exact .inl ⟨σ', hold, rfl⟩
  | request fd₀ type payload now =>
      cases hσ₀ : sv.sessions fd₀ with
      | none => exact .inl ⟨σ', serve_absent hσ₀ (.inl ⟨_, _, _, rfl⟩) ▸ h, rfl⟩
      | some σ₀ =>
          rw [(serve_request hσ₀ type payload now).2] at h
          rcases setSession_cases h with ⟨rfl, hx⟩ | hold
          · have hsession := Option.some.inj hx
            -- only a login or a logout changes who the session belongs to
            by_cases hlogin : type = MsgType.login.code
            · subst hlogin
              rcases Session.login_cases H sv.tracker.state σ₀ payload with
                ⟨-, hsame⟩ | ⟨uid, pwd, port, u, hdec, hu, -, huser, -⟩
              · exact .inl ⟨σ₀, hσ₀, congrArg Session.user (hsame.symm.trans hsession)⟩
              · have huid : uid = σ'.user := huser.symm.trans (congrArg Session.user hsession)
                refine .inr ⟨payload, now, _, rfl, hdec, huid, ?_⟩
                rw [← huid, Std.ExtTreeMap.mem_iff_isSome_getElem?, hu]
                rfl
            · by_cases hlogout : type = MsgType.logout.code
              · subst hlogout
                have hguard : (Session.loggedIn sv.tracker.state σ₀
                    (Session.logout sv.tracker.state σ₀)).session = σ' := hsession
                rw [Session.loggedIn] at hguard
                split at hguard
                · exact .inl ⟨σ₀, hσ₀, congrArg Session.user hguard⟩
                · rw [← hguard] at hne
                  exact absurd rfl hne
              · rw [Session.session_dispatch hlogin hlogout] at hsession
                exact .inl ⟨σ₀, hσ₀, congrArg Session.user hsession⟩
          · exact .inl ⟨σ', hold, rfl⟩

end Server

namespace Pair

variable {H : Str → Str} {home : Str → Role} {c c' : Pair} {r : Role} {uid : Str}

/-- **The condition**: users log in on their own tracker, and the peer reads each
accepted request as it was made. -/
def KeepsHome (H : Str → Str) (home : Str → Role) (c : Pair) : Event → Prop
  | .client r ev =>
      (∀ fd payload now, ev = .request fd MsgType.login.code payload now →
        ∀ a ∈ decode getLogin payload, home a.1 = r) ∧
      ∀ call, ev.Accepted H (c r).server call → ev.Faithful (c r).server
  | .dial | .advance _ | .deliver _ | .drop | .restart _ => True

/-- No request is accepted that makes this user a seeder. -/
def NotShared (H : Str → Str) (uid : Str) (c : Pair) : Event → Prop
  | .client r ev => ∀ call, ev.Accepted H (c r).server call → call.sharer ≠ some uid
  | .dial | .advance _ | .deliver _ | .drop | .restart _ => True

/-- **The invariant**: the link is up with ops and ACKs on it, sessions are those of
known users of the tracker, and the ops make only users of the peer seeders. -/
structure Settled (home : Str → Role) (c : Pair) : Prop where
  up : ∀ r, (c r).phase = .up
  traffic : ∀ r, ∀ m ∈ (c r).inbox, m.type = .syncOp ∨ m.type = .syncAck
  sessions : ∀ r fd σ, (c r).server.sessions fd = some σ → σ.user ≠ [] →
    home σ.user = r ∧ σ.user ∈ (c r).state.users
  ops : ∀ r, ∀ op ∈ opsIn (c r).inbox, ∀ call ∈ opCall op.type op.payload, ∀ uid ∈ call.sharer,
    home uid = r.peer

namespace Settled

lemma fresh : Settled home fresh where
  up _ := rfl
  traffic r m hm := by simp [Pair.fresh, Side.start] at hm
  sessions r fd σ hσ := by simp [Pair.fresh, Side.start, Server.start] at hσ
  ops r op hop := by simp [Pair.fresh, Side.start] at hop

/-- **A client event** keeps the invariant. -/
lemma client (h : Settled home c) {ev : ClientEvent} (hok : c.KeepsHome H home (.client r ev)) :
    Settled home (c.client H r ev) := by
  have hdid := Server.serve_did H (c r).server ev
  have hself := c.client_self H r ev
  have hpeer := c.client_peer H r ev
  rw [h.up r] at hpeer
  have hinbox : (c.client H r ev r).inbox = (c r).inbox := by rw [hself]
  have hpushed : (c.client H r ev r.peer).inbox =
      (c r.peer).inbox ++ ((c r).server.serve H ev).1.toList.map .op := by
    rw [hpeer]
    rfl
  refine ⟨Role.forall_of_peer r ?_ ?_, Role.forall_of_peer r ?_ ?_, Role.forall_of_peer r ?_ ?_,
    Role.forall_of_peer r ?_ ?_⟩
  · rw [hself]
    exact h.up r
  · rw [hpeer]
    exact h.up r.peer
  · rw [hinbox]
    exact h.traffic r
  · rw [hpushed]
    intro m hm
    rcases List.mem_append.mp hm with hm | hm
    · exact h.traffic r.peer m hm
    · obtain ⟨op, -, rfl⟩ := List.mem_map.mp hm
      exact .inl rfl
  · rw [hself]
    intro fd σ' hσ' hne
    have hstays : ∀ {v}, v ∈ (c r).state.users →
        v ∈ ((c r).server.serve H ev).2.tracker.state.users := hdid.mem_users
    rcases Server.session_cases hσ' hne with ⟨σ, hσ, huser⟩ | ⟨payload, now, a, rfl, hdec, ha, hmem⟩
    · obtain ⟨hhome, hmem⟩ := h.sessions r fd σ hσ (huser ▸ hne)
      rw [huser] at hhome hmem
      exact ⟨hhome, hstays hmem⟩
    · exact ⟨ha ▸ hok.1 fd payload now rfl a hdec, hstays hmem⟩
  · rw [hpeer]
    exact h.sessions r.peer
  · rw [hinbox]
    exact h.ops r
  · rw [hpushed, opsIn_append, opsIn_map]
    intro op hop call hcall v hv
    rcases List.mem_append.mp hop with hop | hop
    · exact h.ops r.peer op hop call hcall v hv
    -- what is recorded is a call of a session, and its user has the home here
    · generalize ((c r).server.serve H ev).1 = o,
        ((c r).server.serve H ev).2.tracker = t' at hdid hop
      cases hdid with
      | mutated hacc _ _ _ _ hread =>
          obtain rfl := List.mem_singleton.mp hop
          obtain rfl := Option.some.inj ((hread (hok.2 _ hacc)).symm.trans hcall)
          obtain ⟨fd, σ, hσ, rfl, hne⟩ := hacc.sharer hv
          rw [Role.peer_peer]
          exact (h.sessions r fd σ hσ hne).1
      | nothing | login | logout => cases hop

/-- **A delivery** keeps the invariant. -/
lemma deliver (h : Settled home c) (hstep : c.deliver H r = some c') : Settled home c' := by
  obtain ⟨m, rest, hinbox, -, hcase⟩ := deliver_cases hstep
  simp only [h.up r, true_and, reduceCtorEq, false_and, and_false, or_false] at hcase
  have hself := c.process_self H r m rest
  have hpeer := c.process_peer H r m rest
  rw [← hcase] at hself hpeer
  have htype := h.traffic r m (by simp [hinbox])
  have hacks := (Converging.process_traffic (H := H) (c r).server.tracker htype).1
  have hrest : ∀ m' ∈ rest, m' ∈ (c r).inbox := fun m' hm' => hinbox ▸ List.mem_cons_of_mem m hm'
  have hstays : ∀ {v}, v ∈ (c r).state.users → v ∈ (c' r).state.users := by
    intro v hv
    rw [hself]
    refine mem_users_process (fun blob hblob => ?_) hv
    subst hblob
    simp [SyncMsg.type] at htype
  refine ⟨Role.forall_of_peer r ?_ ?_, Role.forall_of_peer r ?_ ?_, Role.forall_of_peer r ?_ ?_,
    Role.forall_of_peer r ?_ ?_⟩
  · rw [hself]
    exact h.up r
  · rw [hpeer]
    exact h.up r.peer
  · rw [hself]
    exact fun m' hm' => h.traffic r m' (hrest m' hm')
  · rw [hpeer]
    intro m' hm'
    rcases List.mem_append.mp hm' with hm' | hm'
    · exact h.traffic r.peer m' hm'
    · exact .inr (hacks m' hm')
  · intro fd σ hσ hne
    have hold : (c r).server.sessions fd = some σ := by simpa [hself] using hσ
    exact ⟨(h.sessions r fd σ hold hne).1, hstays (h.sessions r fd σ hold hne).2⟩
  · rw [hpeer]
    exact h.sessions r.peer
  · rw [hself]
    exact fun op hop => h.ops r op (mem_opsIn.mpr (hrest _ (mem_opsIn.mp hop)))
  · rw [hpeer]
    intro op hop
    rcases List.mem_append.mp (mem_opsIn.mp hop) with hop | hop
    · exact h.ops r.peer op (mem_opsIn.mpr hop)
    · exact absurd (hacks _ hop) (by simp [SyncMsg.type])

/-- **Every step** keeps the invariant. -/
lemma step (h : Settled home c) {e : Event} (hok : e.Steady ∧ KeepsHome H home c e)
    (hstep : c.step H e = some c') : Settled home c' := by
  obtain ⟨hsteady, hok⟩ := hok
  cases e with
  | client r ev =>
      obtain rfl : c.client H r ev = c' := Option.some.inj hstep
      exact h.client hok
  | deliver r => exact h.deliver hstep
  | dial | advance r | drop | restart r => exact hsteady.elim

end Settled

/-! ### Users who seed nothing -/

/-- A client event shares a user's files only if the user asks for it. -/
lemma unshared_client {ev : ClientEvent} (hok : c.NotShared H uid (.client r ev)) {r' : Role}
    (hun : (c r').state.Unshared uid) : (c.client H r ev r').state.Unshared uid := by
  rcases Role.eq_or_eq_peer r r' with rfl | rfl
  · have hdid := Server.serve_did H (c r').server ev
    rw [client_self]
    show ((c r').server.serve H ev).2.tracker.state.Unshared uid
    generalize ((c r').server.serve H ev).1 = o, ((c r').server.serve H ev).2.tracker = t' at hdid
    cases hdid with
    | nothing => exact hun
    | login hran => exact hran.unshared (by simp [Call.sharer]) hun
    | logout _ hran => exact hran.unshared (by simp [Call.sharer]) hun
    | mutated hacc hran => exact hran.unshared (hok _ hacc) hun
  · rw [client_peer]
    exact hun

/-- The ops of the peer share no files of a tracker's own users. -/
lemma Settled.unshared_deliver (h : Settled home c) {r₀ : Role} (hstep : c.deliver H r₀ = some c')
    (hun : (c (home uid)).state.Unshared uid) : (c' (home uid)).state.Unshared uid := by
  obtain ⟨m, rest, hinbox, -, hcase⟩ := deliver_cases hstep
  simp only [h.up r₀, true_and, reduceCtorEq, false_and, and_false, or_false] at hcase
  have htype := h.traffic r₀ m (by simp [hinbox])
  subst hcase
  rcases Role.eq_or_eq_peer r₀ (home uid) with hr | hr
  · rw [hr, process_self]
    rw [hr] at hun
    cases m with
    | op op =>
        rcases applyRemote_cases H (c r₀).state op with heq | ⟨call, hcall, heq⟩
        · show (applyRemote H (c r₀).state op).2.Unshared uid
          rw [heq]
          exact hun
        · have hother : call.sharer ≠ some uid := by
            intro hshare
            have hin : op ∈ opsIn (c r₀).inbox := mem_opsIn.mpr (by simp [hinbox])
            have hhome : home uid = r₀.peer := h.ops r₀ op hin call hcall uid hshare
            exact absurd (hr.symm.trans hhome) (Role.ne_peer r₀)
          show (applyRemote H (c r₀).state op).2.Unshared uid
          rw [heq]
          rcases TrackerState.after_cases H (c r₀).state call with hran | hsame
          · exact hran.unshared hother hun
          · rw [hsame]
            exact hun
    | ack n => exact hun
    | hello | catchup | snapshotRequest | snapshotData => simp [SyncMsg.type] at htype
  · rw [hr, process_peer]
    rw [hr] at hun
    exact hun

/-- The end of a session logs a user of the tracker out of every seeder map. -/
lemma Settled.unshared_ends (h : Settled home c) {ev : ClientEvent}
    (hends : ev.Ends (c r).server uid) : (c.client H r ev r).state.Unshared uid := by
  have hstate : (c.client H r ev r).state = (c r).state.after H (.logout uid) := by
    rw [client_self]
    show ((c r).server.serve H ev).2.tracker.state = _
    rw [(Server.serve_eq_apply H (c r).server ev).1, Server.state_apply, hends.stateCall]
    rfl
  obtain ⟨fd, σ, hσ, rfl, hne, -⟩ := hends
  rw [hstate]
  exact TrackerState.unshared_logout (h.sessions r fd σ hσ hne).2

/-- Nothing about the end of a session is replicated. -/
lemma keepsHome_ends {ev : ClientEvent} (hends : ev.Ends (c r).server uid) :
    c.KeepsHome H home (.client r ev) := by
  obtain ⟨fd, σ, hσ, -, -, rfl | ⟨payload, now, rfl⟩⟩ := hends
  · refine ⟨fun fd' payload' now' heq => ?_, fun call hacc => ?_⟩
    · cases heq
    · cases hacc.1
  · refine ⟨fun fd' payload' now' heq => ?_, fun call hacc => ?_⟩
    · injection heq with _ htype
      exact absurd (MsgType.code_injective htype) (by decide)
    · have hnone : ClientEvent.call (c r).server (.request fd MsgType.logout.code payload now)
          = none := by
        simp [ClientEvent.call, hσ, MsgType.ofCode_code, Session.localCall, reqOf]
      exact absurd (hnone.symm.trans hacc.1) (by simp)

/-- **After a session of theirs has ended, users are not offered by the tracker
that they use**, until they upload or announce pieces again. -/
theorem logged_out_unshared {c₀ : Pair} {ev : ClientEvent}
    (hrun : Run (step H) (fun c e => e.Steady ∧ c.KeepsHome H home e) fresh c₀)
    (hends : ev.Ends (c₀ r).server uid)
    (hrest : Run (step H) (fun c e => e.Steady ∧ c.KeepsHome H home e ∧ c.NotShared H uid e)
      (c₀.client H r ev) c) :
    (c r).state.Unshared uid ∧
      ∀ gid by' fname fm, (c r).state.getFile gid by' fname = (.ok, some fm) →
        uid ∉ fm.seeders := by
  have hset₀ : Settled home c₀ := hrun.invariant .fresh fun h hok hstep => h.step hok hstep
  obtain rfl : home uid = r := by
    obtain ⟨fd, σ, hσ, rfl, hne, -⟩ := hends
    exact (hset₀.sessions r fd σ hσ hne).1
  have hstart : Settled home (c₀.client H (home uid) ev) ∧
      (c₀.client H (home uid) ev (home uid)).state.Unshared uid :=
    ⟨hset₀.client (keepsHome_ends hends), hset₀.unshared_ends hends⟩
  have hinv : Settled home c ∧ (c (home uid)).state.Unshared uid := by
    refine hrest.invariant (I := fun c => Settled home c ∧ (c (home uid)).state.Unshared uid)
      hstart ?_
    rintro c c' e ⟨hset, hun⟩ ⟨hsteady, hhome, hshare⟩ hstep
    refine ⟨hset.step ⟨hsteady, hhome⟩ hstep, ?_⟩
    cases e with
    | client r' ev' =>
        obtain rfl : c.client H r' ev' = c' := Option.some.inj hstep
        exact unshared_client hshare hun
    | deliver r' => exact hset.unshared_deliver hstep hun
    | dial | advance | drop | restart => exact hsteady.elim
  refine ⟨hinv.2, fun gid by' fname fm hfile => ?_⟩
  obtain ⟨grp, hgrp, hfm⟩ := TrackerState.getFile_eq_ok hfile
  exact TrackerState.unshared_iff.mp hinv.2 gid fname grp hgrp fm hfm

/-! ### A user who shares a file and logs out -/

/-- A user of tracker 0 registers, shares a file with a group and logs out. -/
def sharing : List ClientEvent :=
  [.connect 7 [4] peerIp_fits,
    .request 7 MsgType.createUser.code (putStr [1] ++ putStr [2]) 0,
    .request 7 MsgType.login.code (putStr [1] ++ putStr [2] ++ putU16 6) 0,
    .request 7 MsgType.createGroup.code (putStr [5]) 0,
    .request 7 MsgType.uploadFile.code (putUpload [5] ⟨[7], 1, [9], [[8]], ∅⟩) 0]

/-- They are requests without trailing bytes. -/
lemma noTrailing_sharing : ∀ ev ∈ sharing, ev.NoTrailing := by
  intro ev hev
  simp only [sharing, List.mem_cons, List.not_mem_nil, or_false] at hev
  rcases hev with rfl | rfl | rfl | rfl | rfl
  · trivial
  · exact ClientEvent.noTrailing_request (by decide) 7 0
  · exact ClientEvent.noTrailing_request (by decide) 7 0
  · exact ClientEvent.noTrailing_request (by decide) 7 0
  · exact ClientEvent.noTrailing_request (by decide +kernel) 7 0

/-- Where everybody uses one tracker, a request without trailing bytes keeps to
the condition. -/
lemma keepsHome_noTrailing {ev : ClientEvent} (h : ev.NoTrailing) (c : Pair) :
    c.KeepsHome H (fun _ => r) (.client r ev) :=
  ⟨fun _ _ _ _ _ _ => rfl, fun _ _ => h.faithful _⟩

/-- The pair when the file is shared. -/
def shared : Pair := (exec (step id) fresh (sharing.map (.client .dialer))).get (by decide +kernel)

/-- The last request of the user. -/
def loggingOut : ClientEvent := .request 7 MsgType.logout.code [] 0

/-- The pair once the three ops and their ACKs have arrived. -/
def drained : Pair :=
  (exec (step id) (shared.client id .dialer loggingOut)
    (List.replicate 3 (.deliver .acceptor) ++ List.replicate 3 (.deliver .dialer))).get
      (by decide +kernel)

lemma run_shared :
    Run (step id) (fun c e => e.Steady ∧ c.KeepsHome id (fun _ => .dialer) e) fresh shared := by
  refine Run.of_exec (meets_of_always (fun e he c => ?_) fresh) (Option.some_get _).symm
  obtain ⟨ev, hev, rfl⟩ := List.mem_map.mp he
  exact ⟨trivial, keepsHome_noTrailing (noTrailing_sharing ev hev) c⟩

lemma ends_loggingOut : loggingOut.Ends (shared .dialer).server [1] :=
  ⟨7, ⟨[1], [4], 6, by decide, by decide⟩, by decide +kernel, rfl, by decide, .inr ⟨[], 0, rfl⟩⟩

lemma run_drained :
    Run (step id) (fun c e => e.Steady ∧ c.KeepsHome id (fun _ => .dialer) e ∧ c.NotShared id [1] e)
      (shared.client id .dialer loggingOut) drained := by
  refine Run.of_exec (meets_of_always (fun e he c => ?_) _) (Option.some_get _).symm
  rcases List.mem_append.mp he with he | he
  · obtain rfl := List.eq_of_mem_replicate he
    exact ⟨trivial, trivial, trivial⟩
  · obtain rfl := List.eq_of_mem_replicate he
    exact ⟨trivial, trivial, trivial⟩

theorem logged_out_unshared_drained : (drained .dialer).state.Unshared [1] :=
  (logged_out_unshared run_shared ends_loggingOut run_drained).1

/-- **The other tracker goes on offering a user who has logged out**, with nothing
in flight. -/
theorem still_offered :
    ∃ (home : Str → Role) (c₀ c : Pair) (r : Role) (ev : ClientEvent) (uid : Str),
      Run (step id) (fun c e => e.Steady ∧ c.KeepsHome id home e) fresh c₀ ∧
      ev.Ends (c₀ r).server uid ∧
      Run (step id) (fun c e => e.Steady ∧ c.KeepsHome id home e ∧ c.NotShared id uid e)
        (c₀.client id r ev) c ∧
      (∀ r, (c r).inbox = []) ∧
      ∃ fm, (c r.peer).state.getFile [5] [1] [7] = (.ok, some fm) ∧ uid ∈ fm.seeders := by
  refine ⟨fun _ => .dialer, shared, drained, .dialer, loggingOut, [1], run_shared, ends_loggingOut,
    run_drained, by decide +kernel, ?_⟩
  let fm := ((drained .acceptor).state.getFile [5] [1] [7]).2.get (by decide +kernel)
  exact ⟨fm, by decide +kernel, by decide +kernel⟩

end Pair

end P2PShare
