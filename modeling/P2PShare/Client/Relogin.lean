import P2PShare.Client.Request
import P2PShare.Tracker.Seeders
import P2PShare.Tracker.Payload

/-!
What becomes of a client's shares when its connection is lost and the login is
replayed on another one.

* `Failover.stateCall`: the call that a step makes on the state of a tracker: a
  request that is dispatched, or the logout at the end of a session.
* `Failover.Announces`, `Failover.Evicts`: the steps that make the user a seeder of
  the file, and those that end it.
* `shared_iff`: the user is a seeder exactly if no step since the last upload or
  announcement has ended it. `relogged_unshared` is a run in which the end of the
  lost session does.
-/

namespace P2PShare

open Cursor Reader

/-- The event is one of the client, of its connections or of their sessions. -/
def FailoverEvent.Own : FailoverEvent → Prop
  | .others _ => False
  | .call .. | .connect .. | .unreachable | .send | .serve .. | .receive | .giveUp | .cut ..
  | .finish _ | .noteLogin .. | .clearLogin => True

instance : ∀ e : FailoverEvent, Decidable e.Own
  | .others _ => .isFalse id
  | .call .. | .connect .. | .unreachable | .send | .serve .. | .receive | .giveUp | .cut ..
  | .finish _ | .noteLogin .. | .clearLogin => .isTrue trivial

namespace Failover

variable {H : Str → Str} {c c' : Failover} {r : Role} {sh : Share} {e : FailoverEvent}

/-- What a session of the client does on this tracker in a step: it dispatches the
next request, or comes to its end. -/
def sessionEvent (c : Failover) (r : Role) : FailoverEvent → Option ClientEvent
  | .serve w now => do
      let x ← c.wires w
      let q ← x.requests.head?
      if x.tracker = r then some (.request x.fd q.type q.payload now) else none
  | .finish w => do
      let x ← c.wires w
      if x.tracker = r then some (.disconnect x.fd) else none
  | .call .. | .connect .. | .unreachable | .send | .receive | .giveUp | .cut .. | .noteLogin ..
  | .clearLogin | .others _ => none

/-- The call that it makes on the state. -/
def stateCall (c : Failover) (r : Role) (e : FailoverEvent) : Option Call :=
  (c.sessionEvent r e).bind fun ev => ev.stateCall (c.trackers r).server

/-- What a client event at one tracker does to the states of both. -/
lemma state_client (trackers : Pair) (r r' : Role) (ev : ClientEvent) :
    (trackers.client H r' ev r).state = Session.afterCall H (trackers r).state
      (if r' = r then ev.stateCall (trackers r).server else none) := by
  rcases Role.eq_or_eq_peer r' r with rfl | rfl
  · rw [if_pos rfl, Pair.client_self]
    show (Server.serve H (trackers r).server ev).2.tracker.state = _
    rw [(Server.serve_eq_apply H _ ev).1, Server.state_apply]
    rfl
  · rw [if_neg (Role.ne_peer r'), Pair.client_peer]
    rfl

lemma trackers_receive (h : c.receive = some c') : c'.trackers = c.trackers := by
  simp only [receive, Option.bind_eq_bind, Option.bind_eq_some_iff] at h
  obtain ⟨w, -, x, -, h⟩ := h
  cases hm : x.answers with
  | nil => simp [hm] at h
  | cons m rest =>
      rw [hm] at h
      cases hg : c.client.stage with
      | loginSent | sent =>
          obtain rfl : _ = c' := by simpa [hg] using h
          rfl
      | idle | connect | login | send | returned | failed => simp [hg] at h

/-- **What a step does to the state of a tracker**: the call of the session. -/
lemma state_step (hown : e.Own) (hstep : c.step H e = some c') :
    (c'.trackers r).state = Session.afterCall H (c.trackers r).state (c.stateCall r e) := by
  cases e with
  | connect i fd ip hip =>
      simp only [step, connect, Option.bind_eq_bind, Option.bind_eq_some_iff,
        Option.ite_none_right_eq_some, Option.some.injEq] at hstep
      obtain ⟨r', -, stage, -, -, rfl⟩ := hstep
      show (c.trackers.client H r' (.connect fd ip hip) r).state = _
      rw [state_client]
      split <;> rfl
  | serve w now =>
      simp only [step, serve, Option.bind_eq_bind, Option.bind_eq_some_iff] at hstep
      obtain ⟨x, hx, σ, -, hstep⟩ := hstep
      cases hreq : x.requests with
      | nil => simp [hreq] at hstep
      | cons q rest =>
          rw [hreq] at hstep
          obtain ⟨-, rfl⟩ : _ ∧ _ = c' := by simpa using hstep
          show (c.trackers.client H x.tracker (.request x.fd q.type q.payload now) r).state = _
          rw [state_client]
          by_cases hr : x.tracker = r
          · simp [stateCall, sessionEvent, hx, hreq, hr]
          · simp [stateCall, sessionEvent, hx, hreq, hr]
  | finish w =>
      simp only [step, Option.bind_eq_bind, Option.bind_eq_some_iff, Option.ite_none_right_eq_some,
        Option.some.injEq] at hstep
      obtain ⟨x, hx, -, rfl⟩ := hstep
      show (c.trackers.client H x.tracker (.disconnect x.fd) r).state = _
      rw [state_client]
      by_cases hr : x.tracker = r
      · simp [stateCall, sessionEvent, hx, hr]
      · simp [stateCall, sessionEvent, hx, hr]
  | call | noteLogin | clearLogin =>
      simp only [step, Option.ite_none_right_eq_some, Option.some.injEq] at hstep
      obtain ⟨-, rfl⟩ := hstep
      rfl
  | unreachable =>
      cases hg : c.client.stage with
      | connect a =>
          obtain rfl : _ = c' := by simpa [step, hg] using hstep
          rfl
      | idle | login | loginSent | send | sent | returned | failed => simp [step, hg] at hstep
  | send =>
      simp only [step, send, Option.bind_eq_bind, Option.bind_eq_some_iff,
        Option.some.injEq] at hstep
      obtain ⟨⟨q, stage⟩, -, w, -, x, -, rfl⟩ := hstep
      rfl
  | receive => rw [show c'.trackers = c.trackers from trackers_receive hstep]; rfl
  | giveUp =>
      simp only [step, Option.bind_eq_bind, Option.bind_eq_some_iff, Option.ite_none_right_eq_some,
        Option.some.injEq] at hstep
      obtain ⟨w, -, x, -, -, rfl⟩ := hstep
      rfl
  | cut =>
      obtain ⟨x, -, rfl⟩ := Option.map_eq_some_iff.mp hstep
      rfl
  | others => exact hown.elim

/-- The tracker carries out an upload or an announcement of the file by the user. -/
def Announces (H : Str → Str) (r : Role) (sh : Share) (c : Failover) (e : FailoverEvent) : Prop :=
  ∃ call ∈ c.stateCall r e, call.Announces sh ∧ ((c.trackers r).state.exec H call).1 = .ok

/-- The tracker takes the user out of the seeders of the file: it carries out a
logout of the user, at the end of a session or for an old request, an old request to
stop sharing, or the leave that ends the group. -/
def Evicts (H : Str → Str) (r : Role) (sh : Share) (c : Failover) (e : FailoverEvent) : Prop :=
  ∃ call ∈ c.stateCall r e, (c.trackers r).state.Evicts sh call ∧
    ((c.trackers r).state.exec H call).1 = .ok

instance (H : Str → Str) (r : Role) (sh : Share) (c : Failover) (e : FailoverEvent) :
    Decidable (Announces H r sh c e) := inferInstanceAs (Decidable (∃ call ∈ c.stateCall r e, _))

instance (H : Str → Str) (r : Role) (sh : Share) (c : Failover) (e : FailoverEvent) :
    Decidable (Evicts H r sh c e) := inferInstanceAs (Decidable (∃ call ∈ c.stateCall r e, _))

/-- **Step lemma**: what a step does to one share. -/
lemma seeds_step_iff (hown : e.Own) (hstep : c.step H e = some c') :
    (c'.trackers r).state.Seeds sh ↔
      Announces H r sh c e ∨ (c.trackers r).state.Seeds sh ∧ ¬ Evicts H r sh c e := by
  rw [state_step hown hstep, Announces, Evicts]
  cases hcall : c.stateCall r e with
  | none => simp [Session.afterCall]
  | some call =>
      have hafter := TrackerState.seeds_after_iff H (c.trackers r).state call sh
      simpa [Session.afterCall] using hafter

/-- **Run lemma**: while nothing announces the share again, it stays exactly if
nothing ends it. -/
lemma seeds_run_iff {es : List FailoverEvent} (hexec : exec (step H) c es = some c')
    (hown : ∀ e ∈ es, e.Own) (hlast : Meets (step H) (fun c e => ¬ Announces H r sh c e) c es) :
    (c'.trackers r).state.Seeds sh ↔
      (c.trackers r).state.Seeds sh ∧ Meets (step H) (fun c e => ¬ Evicts H r sh c e) c es := by
  induction es generalizing c with
  | nil =>
      obtain rfl : c = c' := Option.some.inj hexec
      simp [Meets]
  | cons e es ih =>
      obtain ⟨c₁, hstep, hrest⟩ := Option.bind_eq_some_iff.mp hexec
      obtain ⟨hquiet, hlast⟩ := hlast
      have hfirst : (c₁.trackers r).state.Seeds sh ↔
          Announces H r sh c e ∨ (c.trackers r).state.Seeds sh ∧ ¬ Evicts H r sh c e :=
        seeds_step_iff (hown e List.mem_cons_self) hstep
      rw [ih hrest (fun e' he' => hown e' (List.mem_cons_of_mem e he')) (hlast c₁ hstep), hfirst]
      constructor
      · rintro ⟨hann | ⟨hseeds, hkept⟩, hmeets⟩
        · exact absurd hann hquiet
        · refine ⟨hseeds, hkept, fun c₂ hc₂ => ?_⟩
          obtain rfl := Option.some.inj (hstep.symm.trans hc₂)
          exact hmeets
      · rintro ⟨hseeds, hkept, hmeets⟩
        exact ⟨.inr ⟨hseeds, hkept⟩, hmeets c₁ hstep⟩

/-- **When a share is kept**: from the last time that the tracker carries out an
upload or announcement of the file by the user, in every state exactly if no step
since then has taken the user out of the seeders. -/
theorem shared_iff {c₀ c₁ : Failover} {es : List FailoverEvent} (hshare : Announces H r sh c₀ e)
    (hown : ∀ e' ∈ e :: es, e'.Own) (hstep : c₀.step H e = some c₁)
    (hexec : exec (step H) c₁ es = some c)
    (hlast : Meets (step H) (fun c e => ¬ Announces H r sh c e) c₁ es) :
    (c.trackers r).state.Seeds sh ↔ Meets (step H) (fun c e => ¬ Evicts H r sh c e) c₁ es := by
  have hseeds : (c₁.trackers r).state.Seeds sh :=
    (seeds_step_iff (hown e List.mem_cons_self) hstep).mpr (.inl hshare)
  rw [seeds_run_iff hexec (fun e' he' => hown e' (List.mem_cons_of_mem e he')) hlast]
  exact and_iff_right hseeds

/-- A client registers, creates a group and is about to have an upload carried out. -/
def publishing : List FailoverEvent :=
  [FailoverEvent.connect 0 7 [4] peerIp_fits] ++
    exchange 0 .createUser (putStr [1] ++ putStr [2]) ++
    exchange 0 .login (putLogin ([1], [2], 6)) ++ [FailoverEvent.noteLogin [1] [2] 6] ++
    exchange 0 .createGroup (putStr [5]) ++
    [FailoverEvent.call MsgType.uploadFile.code (putUpload [5] ⟨[7], 1, [9], [[8]], ∅⟩), .send]

/-- The list of groups is asked for when the connection has been lost. The login is
replayed on another one. -/
def relisting : List FailoverEvent :=
  [.call MsgType.listGroups.code [], .giveUp, .connect 0 8 [4] peerIp_fits, .send, .serve 1 0,
    .receive, .send, .serve 1 0, .receive]

theorem shared_iff_relisting :
    let c₀ := (exec (step id) (start (fun _ => .start) [.dialer]) publishing).get
      (by decide +kernel)
    let c₁ := (c₀.step id (.serve 0 0)).get (by decide +kernel)
    let c := (exec (step id) c₁ ([.receive, .cut 0 0 0] ++ relisting)).get (by decide +kernel)
    (c.trackers .dialer).state.Seeds ⟨[5], [7], [1]⟩ :=
  (shared_iff (e := .serve 0 0) (by decide +kernel) (by decide) (Option.some_get _).symm
    (Option.some_get _).symm (by decide +kernel)).mpr (by decide +kernel)

/-- The client asks neither to stop sharing nor to log out. -/
def Staying : FailoverEvent → Prop
  | .call type _ => type ≠ MsgType.stopShare.code ∧ type ≠ MsgType.logout.code
  | .connect .. | .unreachable | .send | .serve .. | .receive | .giveUp | .cut .. | .finish _
  | .noteLogin .. | .clearLogin | .others _ => True

instance : ∀ e, Decidable (Staying e)
  | .call .. => inferInstanceAs (Decidable (_ ∧ _))
  | .connect .. | .unreachable | .send | .serve .. | .receive | .giveUp | .cut .. | .finish _
  | .noteLogin .. | .clearLogin | .others _ => .isTrue trivial

/-- **The end of the lost session ends the sharing.** The upload was answered with
`ST_OK`, and so are the login that is replayed and the request after it. -/
theorem relogged_unshared :
    ∃ c₁ c : Failover, ∃ resp : Str,
      Run (step id) (fun _ e => e.Own) (start (fun _ => .start) [.dialer]) c₁ ∧
      c₁.client.type = MsgType.uploadFile.code ∧
      c₁.client.payload = putUpload [5] ⟨[7], 1, [9], [[8]], ∅⟩ ∧
      c₁.client.stage = .returned .ok [] ∧
      Run (step id) (fun _ e => e.Own ∧ Staying e) c₁ c ∧
      c.client.relogin = some .ok ∧ c.client.stage = .returned .ok resp ∧
      ¬ (c.trackers .dialer).state.Seeds ⟨[5], [7], [1]⟩ := by
  let uploading := publishing ++ [.serve 0 0, .receive]
  let losing := [.cut 0 0 0, .finish 0] ++ relisting
  let c₁ := (exec (step id) (start (fun _ => .start) [.dialer]) uploading).get (by decide +kernel)
  let c := (exec (step id) c₁ losing).get (by decide +kernel)
  have hbefore : Run (step id) (fun _ e => e.Own) (start (fun _ => .start) [.dialer]) c₁ :=
    Run.of_exec (meets_of_forall (by decide +kernel) _) (Option.some_get _).symm
  have hafter : Run (step id) (fun _ e => e.Own ∧ Staying e) c₁ c :=
    Run.of_exec (meets_of_forall (by decide +kernel) _) (Option.some_get _).symm
  exact ⟨c₁, c, putCounted putStr [[5]], hbefore, by decide +kernel, by decide +kernel,
    by decide +kernel, hafter, by decide +kernel, by decide +kernel, by decide +kernel⟩

end Failover

end P2PShare
