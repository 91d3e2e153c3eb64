import P2PShare.Lib.Runs
import P2PShare.Tracker.Server

/-!
`User::online` and the live sessions of one tracker.

* `LastOut` (**the condition**): a user whose session ends, or is taken over by
  another user's login, is left with a session exactly if the flag says so.
* `Online` (**the invariant**): the flag of a user is set exactly while a session
  is logged in as that user. `online_iff_session` says so of every run that meets
  the condition; `second_session_ends` is a run that does not.
-/

namespace P2PShare

open Cursor Reader

namespace Server

variable {H : Str → Str} {sv : Server}

/-- One client event, as a step. -/
def step (H : Str → Str) (sv : Server) (ev : ClientEvent) : Option Server := some (sv.serve H ev).2

/-- A replicated call leaves the users or adds one that is offline. -/
lemma users_of_ran {s s' : TrackerState} {c : Call} (hran : TrackerState.Ran H s c s')
    (hlogin : c.type ≠ .login) (hlogout : c.type ≠ .logout) :
    s'.users = s.users ∨ ∃ uid u, uid ∉ s.users ∧ uid ≠ [] ∧ u.online = false ∧
      s'.users = s.users.insert uid u := by
  cases hran with
  | createUser huid hpwd hnew => exact .inr ⟨_, _, hnew, huid, rfl, rfl⟩
  | login => exact absurd rfl hlogin
  | logout => exact absurd rfl hlogout
  | createGroup | joinGroup | dissolve | handoff | leave | acceptRequest | addSeeder | addFile
  | stopShare | updateBitfield => exact .inl rfl

/-! ### Sessions and flags -/

/-- Some live session is logged in as this user. -/
def LoggedIn (sv : Server) (uid : Str) : Prop := ∃ fd, ∃ σ ∈ sv.sessions fd, σ.user = uid

/-- Another session is logged in as this user. -/
def Elsewhere (sv : Server) (fd : ℕ) (uid : Str) : Prop :=
  ∃ fd' ≠ fd, ∃ σ ∈ sv.sessions fd', σ.user = uid

lemma loggedIn_iff (sv : Server) (fd : ℕ) (uid : Str) :
    sv.LoggedIn uid ↔ (∃ σ ∈ sv.sessions fd, σ.user = uid) ∨ sv.Elsewhere fd uid := by
  constructor
  · rintro ⟨fd', σ, hσ, huser⟩
    by_cases hfd : fd' = fd
    · exact .inl ⟨σ, hfd ▸ hσ, huser⟩
    · exact .inr ⟨fd', hfd, σ, hσ, huser⟩
  · rintro (⟨σ, hσ, huser⟩ | ⟨fd', -, σ, hσ, huser⟩)
    · exact ⟨fd, σ, hσ, huser⟩
    · exact ⟨fd', σ, hσ, huser⟩

/-- Replacing one session leaves the others. -/
lemma loggedIn_set {sv' : Server} {fd : ℕ} {x : Option Session}
    (hset : sv'.sessions = sv.setSession fd x) (uid : Str) :
    sv'.LoggedIn uid ↔ (∃ σ ∈ x, σ.user = uid) ∨ sv.Elsewhere fd uid := by
  have hself : sv'.sessions fd = x := by simp [hset, setSession]
  have hother : ∀ {fd'}, fd' ≠ fd → sv'.sessions fd' = sv.sessions fd' := by
    intro fd' hne
    simp [hset, setSession, hne]
  rw [loggedIn_iff sv' fd, hself, Elsewhere, Elsewhere]
  refine or_congr Iff.rfl ⟨?_, ?_⟩
  · rintro ⟨fd', hne, h⟩
    exact ⟨fd', hne, hother hne ▸ h⟩
  · rintro ⟨fd', hne, h⟩
    exact ⟨fd', hne, (hother hne).symm ▸ h⟩

/-- **The condition**: when a session of a user ends, by a logout or with its
connection, it is the user's last one, and when another user logs in on it, it is
not. -/
def LastOut (H : Str → Str) (sv : Server) : ClientEvent → Prop
  | .connect .. => True
  | .disconnect fd => ∀ σ ∈ sv.sessions fd, σ.user ≠ [] → ¬ sv.Elsewhere fd σ.user
  | .request fd type payload _ => ∀ σ ∈ sv.sessions fd, σ.user ≠ [] →
      (type = MsgType.logout.code → ¬ sv.Elsewhere fd σ.user) ∧
      ∀ uid pwd port u, type = MsgType.login.code →
        decode getLogin payload = some (uid, pwd, port) →
        sv.tracker.state.users[uid]? = some u → u.password = H pwd → uid ≠ σ.user →
        sv.Elsewhere fd σ.user

/-- **The invariant**: a user is online exactly while a session is logged in as
that user, and every session is that of a user or of nobody. -/
structure Online (sv : Server) : Prop where
  flag : ∀ uid u, sv.tracker.state.users[uid]? = some u → (u.online = true ↔ sv.LoggedIn uid)
  known : ∀ uid, sv.LoggedIn uid → uid ≠ [] → uid ∈ sv.tracker.state.users
  named : [] ∉ sv.tracker.state.users

namespace Online

variable {sv' : Server}

/-- A user has a name. -/
lemma ne_nil (h : sv.Online) {uid : Str} {u : User}
    (hu : sv.tracker.state.users[uid]? = some u) : uid ≠ [] := fun hnil =>
  h.named (hnil ▸ Std.ExtTreeMap.mem_iff_isSome_getElem?.mpr (by rw [hu]; rfl))

/-- Neither the users nor who is logged in have changed. -/
lemma of_eq (h : sv.Online) (husers : sv'.tracker.state.users = sv.tracker.state.users)
    (hin : ∀ uid ≠ [], sv'.LoggedIn uid ↔ sv.LoggedIn uid) : sv'.Online where
  flag uid u hu := by
    rw [husers] at hu
    rw [hin uid (h.ne_nil hu)]
    exact h.flag uid u hu
  known uid hlog hne := by
    rw [husers]
    exact h.known uid ((hin uid hne).mp hlog) hne
  named := by
    rw [husers]
    exact h.named

/-- A user registers. -/
lemma register (h : sv.Online) {uid : Str} {u : User} (hnew : uid ∉ sv.tracker.state.users)
    (hne : uid ≠ []) (hoff : u.online = false)
    (husers : sv'.tracker.state.users = sv.tracker.state.users.insert uid u)
    (hin : ∀ v ≠ [], sv'.LoggedIn v ↔ sv.LoggedIn v) : sv'.Online where
  flag v w hw := by
    rw [husers, Std.ExtTreeMap.getElem?_insert] at hw
    by_cases hv : uid = v
    · obtain rfl : u = w := by simpa [hv] using hw
      subst hv
      rw [hoff, hin uid hne]
      exact iff_of_false (by simp) fun hlog => hnew (h.known uid hlog hne)
    · have hw' : sv.tracker.state.users[v]? = some w := by simpa [hv] using hw
      rw [hin v (h.ne_nil hw')]
      exact h.flag v w hw'
  known v hlog hvne := by
    rw [husers]
    exact Std.ExtTreeMap.mem_insert.mpr (.inr (h.known v ((hin v hvne).mp hlog) hvne))
  named := by
    rw [husers]
    intro hmem
    rcases Std.ExtTreeMap.mem_insert.mp hmem with heq | hmem
    · exact hne (by simpa using heq)
    · exact h.named hmem

/-- The entry of one user is written, and nobody else's sessions change. -/
lemma setUser (h : sv.Online) {uid : Str} {u : User} (hmem : uid ∈ sv.tracker.state.users)
    (husers : sv'.tracker.state.users = sv.tracker.state.users.insert uid u)
    (hself : u.online = true ↔ sv'.LoggedIn uid)
    (hin : ∀ v ≠ [], v ≠ uid → (sv'.LoggedIn v ↔ sv.LoggedIn v)) : sv'.Online where
  flag v w hw := by
    rw [husers, Std.ExtTreeMap.getElem?_insert] at hw
    by_cases hv : uid = v
    · obtain rfl : u = w := by simpa [hv] using hw
      exact hv ▸ hself
    · have hw' : sv.tracker.state.users[v]? = some w := by simpa [hv] using hw
      rw [hin v (h.ne_nil hw') (Ne.symm hv)]
      exact h.flag v w hw'
  known v hlog hvne := by
    rw [husers, Std.ExtTreeMap.mem_insert]
    by_cases hv : v = uid
    · exact .inr (hv ▸ hmem)
    · exact .inr (h.known v ((hin v hvne hv).mp hlog) hvne)
  named := by
    rw [husers]
    intro hin'
    rcases Std.ExtTreeMap.mem_insert.mp hin' with heq | hin'
    · obtain rfl : uid = [] := by simpa using heq
      exact h.named hmem
    · exact h.named hin'

/-- The session of a user is gone, and it was the last one. -/
lemma logout (h : sv.Online) {fd : ℕ} {σ : Session} (hσ : sv.sessions fd = some σ)
    (huser : σ.user ≠ []) (hlast : ¬ sv.Elsewhere fd σ.user) {x : Option Session}
    (hx : ∀ σ' ∈ x, σ'.user = []) (hset : sv'.sessions = sv.setSession fd x)
    (hstate : sv'.tracker.state = (sv.tracker.state.logout σ.user).2) : sv'.Online := by
  have hmem : σ.user ∈ sv.tracker.state.users := h.known σ.user ⟨fd, σ, hσ, rfl⟩ huser
  obtain ⟨u, hu⟩ : ∃ u, sv.tracker.state.users[σ.user]? = some u :=
    ⟨_, Std.ExtTreeMap.getElem?_eq_some_getElem hmem⟩
  have hnone : ∀ v ≠ [], ¬ ∃ σ' ∈ x, σ'.user = v := by
    rintro v hv ⟨σ', hσ', rfl⟩
    exact hv (hx σ' hσ')
  refine h.setUser (u := { u with online := false }) hmem ?_ ?_ fun v hv hne => ?_
  · rw [hstate, TrackerState.logout, hu]
  · rw [loggedIn_set hset]
    exact iff_of_false (by simp) fun hin => hin.elim (hnone _ huser) hlast
  · rw [loggedIn_set hset, loggedIn_iff sv fd, hσ]
    refine or_congr_left (iff_of_false (hnone v hv) ?_)
    rintro ⟨σ', hσ', rfl⟩
    obtain rfl := Option.some.inj hσ'
    exact hne rfl

/-- A user logs in. Whoever had the session before has another one. -/
lemma login (h : sv.Online) {fd : ℕ} {σ σ' : Session} (hσ : sv.sessions fd = some σ) {u u' : User}
    (hu : sv.tracker.state.users[σ'.user]? = some u) (hon : u'.online = true)
    (hother : σ.user ≠ [] → σ'.user ≠ σ.user → sv.Elsewhere fd σ.user)
    (hset : sv'.sessions = sv.setSession fd (some σ'))
    (husers : sv'.tracker.state.users = sv.tracker.state.users.insert σ'.user u') : sv'.Online := by
  have hmem : σ'.user ∈ sv.tracker.state.users :=
    Std.ExtTreeMap.mem_iff_isSome_getElem?.mpr (by rw [hu]; rfl)
  refine h.setUser hmem husers ?_ fun v hv hne => ?_
  · rw [loggedIn_set hset]
    exact iff_of_true hon (.inl ⟨σ', rfl, rfl⟩)
  · rw [loggedIn_set hset, loggedIn_iff sv fd, hσ]
    constructor
    · rintro (⟨σ'', hσ'', rfl⟩ | helse)
      · obtain rfl := Option.some.inj hσ''
        exact absurd rfl hne
      · exact .inr helse
    · rintro (⟨σ'', hσ'', rfl⟩ | helse)
      · obtain rfl := Option.some.inj hσ''
        exact .inr (hother hv (Ne.symm hne))
      · exact .inr helse

/-- Any other request. -/
lemma other (h : sv.Online) {fd : ℕ} {σ : Session} (hσ : sv.sessions fd = some σ) {type : UInt16}
    {payload : Str} {now : UInt64} (hlogin : type ≠ MsgType.login.code)
    (hlogout : type ≠ MsgType.logout.code) :
    (sv.serve H (.request fd type payload now)).2.Online := by
  obtain ⟨hstate, hset⟩ := serve_request (H := H) hσ type payload now
  rw [Session.session_dispatch hlogin hlogout] at hset
  rw [Session.state_dispatch] at hstate
  have hin : ∀ v ≠ [],
      (sv.serve H (.request fd type payload now)).2.LoggedIn v ↔ sv.LoggedIn v := by
    intro v _
    rw [loggedIn_set hset, loggedIn_iff sv fd, hσ]
  cases hcall : σ.stateCall type payload with
  | none =>
      rw [hcall] at hstate
      exact h.of_eq (by rw [hstate]; rfl) hin
  | some c =>
      rw [hcall] at hstate
      change _ = sv.tracker.state.after H c at hstate
      obtain ⟨rfl, -⟩ := Session.type_of_stateCall hcall
      have hlogin' : c.type ≠ .login := fun heq => hlogin (congrArg MsgType.code heq)
      have hlogout' : c.type ≠ .logout := fun heq => hlogout (congrArg MsgType.code heq)
      rcases TrackerState.after_cases H sv.tracker.state c with hran | heq
      · rcases users_of_ran hran hlogin' hlogout' with husers | ⟨uid, u, hnew, hne, hoff, husers⟩
        · exact h.of_eq (by rw [hstate, husers]) hin
        · exact h.register hnew hne hoff (by rw [hstate, husers]) hin
      · exact h.of_eq (by rw [hstate, heq]) hin

/-- A request. -/
lemma request (h : sv.Online) {fd : ℕ} {σ : Session} (hσ : sv.sessions fd = some σ) {type : UInt16}
    {payload : Str} {now : UInt64} (hok : sv.LastOut H (.request fd type payload now)) :
    (sv.serve H (.request fd type payload now)).2.Online := by
  by_cases hlogout : type = MsgType.logout.code
  · subst hlogout
    obtain ⟨hstate, hset⟩ := serve_request (H := H) hσ MsgType.logout.code payload now
    have hdispatch : σ.dispatch H sv.tracker.state MsgType.logout.code payload
        = σ.loggedIn sv.tracker.state (σ.logout sv.tracker.state) := by
      rw [Session.dispatch, MsgType.ofCode_code]
    rw [hdispatch, Session.loggedIn] at hstate hset
    by_cases huser : σ.user = []
    · rw [if_pos huser] at hstate hset
      refine h.of_eq (by rw [hstate]; rfl) fun v _ => ?_
      rw [loggedIn_set hset, loggedIn_iff sv fd, hσ]
      rfl
    · rw [if_neg huser] at hstate hset
      refine h.logout hσ huser ((hok σ hσ huser).1 rfl) (fun σ' hσ' => ?_) hset hstate
      obtain rfl := Option.some.inj hσ'
      rfl
  · by_cases hlogin : type = MsgType.login.code
    · subst hlogin
      obtain ⟨hstate, hset⟩ := serve_request (H := H) hσ MsgType.login.code payload now
      have hdispatch : σ.dispatch H sv.tracker.state MsgType.login.code payload
          = σ.login H sv.tracker.state payload := by
        rw [Session.dispatch, MsgType.ofCode_code]
      rw [hdispatch] at hstate hset
      rcases Session.login_cases H sv.tracker.state σ payload with
        ⟨hs, hsame⟩ | ⟨uid, pwd, port, u, hdec, hu, hpwd, huser, hs⟩
      · rw [hsame] at hset
        refine h.of_eq (by rw [hstate, hs]) fun v _ => ?_
        rw [loggedIn_set hset, loggedIn_iff sv fd, hσ]
      · subst huser
        refine h.login hσ hu rfl (fun hne hother => ?_) hset (by rw [hstate, hs])
        exact (hok σ hσ hne).2 _ pwd port u rfl hdec hu hpwd hother
    · exact h.other hσ hlogin hlogout

/-- **The step lemma.** -/
theorem step (h : sv.Online) {ev : ClientEvent} (hok : sv.LastOut H ev) :
    (sv.serve H ev).2.Online := by
  cases ev with
  | connect fd ip hip =>
      obtain ⟨hstate, hset | ⟨hfd, hset⟩⟩ := @serve_connect H sv fd ip hip
      · refine h.of_eq (by rw [hstate]) fun v _ => ?_
        rw [LoggedIn, hset]
        rfl
      · refine h.of_eq (by rw [hstate]) fun v hv => ?_
        rw [loggedIn_set hset, loggedIn_iff sv fd, hfd]
        -- the session of the descriptor has no user, before and after
        refine or_congr_left (iff_of_false ?_ ?_)
        · rintro ⟨σ, hσ, rfl⟩
          obtain rfl := Option.some.inj hσ
          exact hv rfl
        · rintro ⟨σ, hσ, -⟩
          cases hσ
  | request fd type payload now =>
      cases hσ : sv.sessions fd with
      | none =>
          rw [serve_absent hσ (.inl ⟨type, payload, now, rfl⟩)]
          exact h
      | some σ => exact h.request hσ hok
  | disconnect fd =>
      cases hσ : sv.sessions fd with
      | none =>
          rw [serve_absent hσ (.inr rfl)]
          exact h
      | some σ =>
          obtain ⟨hstate, hset⟩ := serve_disconnect (H := H) hσ
          rw [Session.finish] at hstate
          by_cases huser : σ.user = []
          · rw [if_pos huser] at hstate
            refine h.of_eq (by rw [hstate]) fun v hv => ?_
            rw [loggedIn_set hset, loggedIn_iff sv fd, hσ]
            refine or_congr_left (iff_of_false ?_ ?_)
            · rintro ⟨σ', hσ', -⟩
              cases hσ'
            · rintro ⟨σ', hσ', rfl⟩
              obtain rfl := Option.some.inj hσ'
              exact hv huser
          · rw [if_neg huser] at hstate
            -- the last session of the user, by the condition
            exact h.logout hσ huser (hok σ hσ huser) (fun σ' hσ' => by cases hσ') hset hstate

end Online

/-- **A user is online exactly while a session is logged in as that user**, in
runs in which the last session of a user is the one that ends. -/
theorem online_iff_session (hrun : Run (step H) (LastOut H) start sv) {uid : Str} {u : User}
    (hu : sv.tracker.state.users[uid]? = some u) :
    u.online = true ↔ ∃ fd, ∃ σ ∈ sv.sessions fd, σ.user = uid := by
  have hstart : start.Online := by
    refine ⟨fun v w hw => ?_, fun v hlog => ?_, fun hmem => ?_⟩
    · simp [start, Tracker.start, TrackerState.init] at hw
    · obtain ⟨fd, σ, hσ, -⟩ := hlog
      cases hσ
    · simp [start, Tracker.start, TrackerState.init] at hmem
  have hkeep : ∀ {sv sv' : Server} {ev : ClientEvent}, sv.Online → sv.LastOut H ev →
      step H sv ev = some sv' → sv'.Online := by
    intro sv sv' ev hI hok hstep
    obtain rfl := Option.some.inj hstep
    exact hI.step hok
  exact (hrun.invariant hstart hkeep).flag uid u hu

/-- Registering a user. -/
def registering (fd : ℕ) : ClientEvent :=
  .request fd MsgType.createUser.code (putStr [8] ++ putStr [2]) 0

/-- Logging in as that user. -/
def loggingIn (fd : ℕ) : ClientEvent :=
  .request fd MsgType.login.code (putStr [8] ++ putStr [2] ++ putU16 5) 0

theorem online_iff_session_login :
    let sv := (exec (step id) start [.connect 7 [4] (by decide), registering 7, loggingIn 7]).get
      (by decide +kernel)
    ∃ u, sv.tracker.state.users[([8] : Str)]? = some u ∧
      (u.online = true ↔ ∃ fd, ∃ σ ∈ sv.sessions fd, σ.user = [8]) := by
  have hmeets : Meets (step id) (LastOut id) start
      [.connect 7 [4] (by decide), registering 7, loggingIn 7] := by
    refine ⟨trivial, fun sv₁ h₁ => ⟨?_, fun sv₂ h₂ => ⟨?_, fun _ _ => trivial⟩⟩⟩
    · obtain rfl := Option.some.inj h₁
      intro σ hσ huser
      obtain rfl := Option.some.inj hσ
      exact absurd rfl huser
    · obtain rfl := Option.some.inj h₁
      obtain rfl := Option.some.inj h₂
      intro σ hσ huser
      have hnobody : ∀ σ ∈ ((((start.serve id (.connect 7 [4] (by decide))).2).serve id
          (registering 7)).2).sessions 7, σ.user = [] := by
        decide +kernel
      exact absurd (hnobody σ hσ) huser
  have hrun := Run.of_exec hmeets (Option.some_get (by decide +kernel)).symm
  let u : User := ⟨[8], [2], true, [4], 5⟩
  exact ⟨u, by decide +kernel, online_iff_session hrun (by decide +kernel)⟩

/-- **A second session of the user ends**: the user is shown as offline although
the first one goes on. -/
theorem second_session_ends :
    ∃ sv : Server, Run (step id) (fun _ _ => True) start sv ∧
      ∃ u, sv.tracker.state.users[([8] : Str)]? = some u ∧ u.online = false ∧
        ∃ σ ∈ sv.sessions 7, σ.user = [8] := by
  refine ⟨(exec (step id) start [.connect 7 [4] (by decide), registering 7, loggingIn 7,
    .connect 6 [4] (by decide), loggingIn 6, .disconnect 6]).get (by decide +kernel), ?_,
    ⟨[8], [2], false, [4], 5⟩, by decide +kernel⟩
  exact Run.of_exec (meets_of_forall (p := fun _ => True) (fun _ _ => trivial) start)
    (Option.some_get _).symm

end Server

end P2PShare
