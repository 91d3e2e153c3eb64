import P2PShare.Client.Request
import P2PShare.Pair.Convergence

/-!
What the answer of `TrackerClient::request` says about the effect of the request.

* `Stepped` (**what a step does**) to the connections, the client and the requests
  that have been dispatched.
* `InTurn` (**the invariant**): at most one frame or answer is on a connection, and
  what the client waits for is the answer to what it has sent.
* `AsAnswered`: a failed answer means no effect, and a successful one that exactly
  one session has carried out the request.
* `answered_iff`: it holds exactly if no attempt whose answer was lost has been
  carried out. `stopped_twice` is a run in which one has.
-/

namespace P2PShare

namespace Wire

variable {x : Wire} {p : Option ℕ}

lemma mem_load : p ∈ x.load ↔ (∃ q ∈ x.requests, q.call = p) ∨ ∃ m ∈ x.answers, m.call = p := by
  simp [load]

/-- Where there is one thing on a connection, nothing comes after a request. -/
lemma rest_of_request {q : Query} {rest : List Query} (hone : x.load.length ≤ 1)
    (hreq : x.requests = q :: rest) : rest = [] ∧ x.answers = [] := by
  simp only [load, hreq, List.map_cons, List.length_append, List.length_cons,
    List.length_map] at hone
  exact ⟨List.eq_nil_of_length_eq_zero (by omega), List.eq_nil_of_length_eq_zero (by omega)⟩

/-- And nothing besides an answer. -/
lemma rest_of_answer {m : Answer} {rest : List Answer} (hone : x.load.length ≤ 1)
    (hm : x.answers = m :: rest) : x.requests = [] ∧ rest = [] := by
  simp only [load, hm, List.map_cons, List.length_append, List.length_cons,
    List.length_map] at hone
  exact ⟨List.eq_nil_of_length_eq_zero (by omega), List.eq_nil_of_length_eq_zero (by omega)⟩

/-- A request on an idle connection is the only thing on it. -/
lemma push_of_idle (hidle : x.load = []) (q : Query) :
    (x.push q).answers = [] ∧ (∀ q' ∈ (x.push q).requests, q' = q) ∧
      (∀ p ∈ (x.push q).load, p = q.call) ∧ (x.push q).load.length ≤ 1 := by
  obtain ⟨hreq, hans⟩ : x.requests = [] ∧ x.answers = [] := by simpa [load] using hidle
  rw [push]
  split
  · simp [load, hreq, hans]
  · simp [load, hreq, hans]

/-- So is the answer to the only request. -/
lemma reply_of_idle (hans : x.answers = []) (m : Answer) :
    (∀ m' ∈ (x.reply m []).answers, m' = m) ∧ (∀ p ∈ (x.reply m []).load, p = m.call) ∧
      (x.reply m []).load.length ≤ 1 := by
  rw [reply, hans]
  split
  · simp [load]
  · simp [load]

/-- What is left of a connection. -/
structure Less (x' x : Wire) : Prop where
  requests : x'.requests.Sublist x.requests
  answers : x'.answers.Sublist x.answers

lemma Less.refl (x : Wire) : Less x x := ⟨List.Sublist.refl _, List.Sublist.refl _⟩

lemma Less.load {x' : Wire} (h : Less x' x) : x'.load.Sublist x.load :=
  (h.requests.map _).append (h.answers.map _)

lemma less_cut (x : Wire) (i j : ℕ) : Less (x.cut i j) x :=
  ⟨List.take_sublist i _, List.take_sublist j _⟩

end Wire

namespace TrackerClient

/-- The call whose answer the client waits for; that to the login belongs to none. -/
def awaits (k : TrackerClient) : Option (Option ℕ) :=
  match k.stage with
  | .loginSent _ => some none
  | .sent _ => some (some k.call)
  | .idle | .connect _ | .login _ | .send _ | .returned .. | .failed => none

lemma awaits_of_over {k : TrackerClient} (h : k.stage.Over) : k.awaits = none := by
  rw [awaits]
  cases hg : k.stage with
  | idle | connect | login | send | returned | failed => rfl
  | loginSent | sent =>
      rw [hg] at h
      exact h.elim

/-- The request has not been sent in this attempt. -/
def Unsent (k : TrackerClient) : Prop :=
  match k.stage with
  | .connect _ | .login _ | .loginSent _ | .send _ => True
  | .idle | .sent _ | .returned .. | .failed => False

lemma not_unsent_of_awaits {k : TrackerClient} {n : ℕ} (h : k.awaits = some (some n)) :
    ¬ k.Unsent := by
  rw [awaits] at h
  rw [Unsent]
  cases hg : k.stage with
  | sent => exact id
  | idle | connect | login | loginSent | send | returned | failed => simp [hg] at h

end TrackerClient

namespace Service

/-- What the session makes of the request in the state in which it arrives. -/
def outcome (H : Str → Str) (s : Service) : Outcome :=
  s.session.dispatch H s.before.state s.type s.payload

/-- There is nothing for it to do there: the state stays as it is, and no op is recorded. -/
def Idle (H : Str → Str) (s : Service) : Prop :=
  (s.outcome H).state = s.before.state ∧ (s.outcome H).record = none

instance (H : Str → Str) (s : Service) : Decidable (s.Idle H) :=
  inferInstanceAs (Decidable (_ ∧ _))

/-- The answer and the effect are those of the dispatch. -/
def Dispatched (H : Str → Str) (s : Service) : Prop :=
  s.status = (s.outcome H).status ∧ (s.after = s.before ↔ s.Idle H)

end Service

namespace Failover

variable {H : Str → Str} {c c' : Failover}

/-- **What a step does.** -/
inductive Stepped (H : Str → Str) (c : Failover) : Failover → Prop
  | called {k : TrackerClient} (hfd : k.fd = c.client.fd) (hcall : k.call = c.client.call + 1)
      (hawaits : c.client.awaits = none) (hunsent : k.Unsent) : Stepped H c (c.setClient k)
  | noted {k : TrackerClient} (hfd : k.fd = c.client.fd) (hcall : k.call = c.client.call)
      (hawaits : c.client.awaits = none) (hstage : k.stage = c.client.stage ∨ k.stage = .failed) :
      Stepped H c (c.setClient k)
  | gaveUp {k : TrackerClient} (hfd : k.fd = none) (hcall : k.call = c.client.call)
      (hstage : ∀ st resp, k.stage ≠ .returned st resp) : Stepped H c (c.setClient k)
  | connected {r : Role} {fd : ℕ} {trackers : Pair} {k : TrackerClient} (hfd : k.fd = some c.opened)
      (hcall : k.call = c.client.call) (hnot : ∀ st resp, k.stage ≠ .returned st resp) :
      Stepped H c
        { c with
          trackers := trackers
          wires := Function.update c.wires c.opened (some ⟨r, fd, [], [], true, true⟩)
          opened := c.opened + 1
          client := k }
  | sent {q : Query} {stage : CallStage} {w : ℕ} {x : Wire}
      (hsend : toSend c.client = some (q, stage))
      (hfd : c.client.fd = some w) (hx : c.wires w = some x) :
      Stepped H c ((c.setWire w (x.push q)).setClient { c.client with stage := stage })
  | served {w : ℕ} {x : Wire} {q : Query} {rest : List Query} {m : Answer} {trackers : Pair}
      {σ : Session} {before after : Tracker} (hx : c.wires w = some x)
      (hreq : x.requests = q :: rest) (hm : m.call = q.call)
      (hkept : m.status ≠ .ok → after = before)
      (hdispatched : ∀ n,
        Service.Dispatched H ⟨n, w, σ, q.type, q.payload, m.status, before, after⟩) :
      Stepped H c
        { c.setWire w (x.reply m rest) with
          trackers := trackers
          served := c.served ++ q.call.toList.map fun n =>
            ⟨n, w, σ, q.type, q.payload, m.status, before, after⟩ }
  | relogged {w : ℕ} {x : Wire} {m : Answer} {rest : List Answer} {a : ℕ} {k : TrackerClient}
      (hfd : c.client.fd = some w) (hx : c.wires w = some x) (hm : x.answers = m :: rest)
      (hstage : c.client.stage = .loginSent a)
      (hk : k = { c.client with relogin := some m.status, stage := .send a }) :
      Stepped H c ((c.setWire w { x with answers := rest }).setClient k)
  | answered {w : ℕ} {x : Wire} {m : Answer} {rest : List Answer} {a : ℕ} {k : TrackerClient}
      (hfd : c.client.fd = some w) (hx : c.wires w = some x) (hm : x.answers = m :: rest)
      (hstage : c.client.stage = .sent a)
      (hk : k = { c.client with stage := .returned m.status m.payload }) :
      Stepped H c ((c.setWire w { x with answers := rest }).setClient k)
  | lost {trackers : Pair} {wires : ℕ → Option Wire}
      (hless : ∀ w x', wires w = some x' → ∃ x, c.wires w = some x ∧ x'.Less x) :
      Stepped H c { c with trackers := trackers, wires := wires }

/-- A connection that has lost something, among the others. -/
lemma less_update {w : ℕ} {x x' : Wire} (hx : c.wires w = some x) (hless : x'.Less x) :
    ∀ w' y', Function.update c.wires w (some x') w' = some y' →
      ∃ y, c.wires w' = some y ∧ y'.Less y := by
  intro w' y' hy'
  by_cases hw : w' = w
  · subst hw
    obtain rfl : x' = y' := by simpa using hy'
    exact ⟨x, hx, hless⟩
  · rw [Function.update_of_ne hw] at hy'
    exact ⟨y', hy', .refl y'⟩

lemma less_survivors (c : Failover) (e : Event) :
    ∀ w x', c.survivors e w = some x' → ∃ x, c.wires w = some x ∧ x'.Less x := by
  intro w x' hx'
  cases e with
  | restart r =>
      obtain ⟨x, hx, rfl⟩ := Option.map_eq_some_iff.mp hx'
      refine ⟨x, hx, ?_⟩
      split
      · have hless := x.less_cut 0 x.answers.length
        exact ⟨hless.requests, hless.answers⟩
      · exact .refl x
  | client | dial | advance | deliver | drop => exact ⟨x', hx', .refl x'⟩

lemma connect_stepped {i fd : ℕ} {ip : Str} {hip : ip.length < 2 ^ 32}
    (h : c.connect H i fd ip hip = some c') : Stepped H c c' := by
  simp only [connect, Option.bind_eq_bind, Option.bind_eq_some_iff, Option.ite_none_right_eq_some,
    Option.some.injEq] at h
  obtain ⟨r, -, stage, hstage, -, rfl⟩ := h
  refine .connected rfl rfl fun st resp hret => ?_
  obtain rfl : stage = .returned st resp := hret
  rw [TrackerClient.connected] at hstage
  cases hg : c.client.stage with
  | idle => simp [hg] at hstage
  | connect a =>
      rw [hg] at hstage
      have hnot := Option.some.inj hstage
      split at hnot <;> cases hnot
  | login | loginSent | send | sent | returned | failed => simp [hg] at hstage

lemma serve_stepped {w : ℕ} {now : UInt64} (h : c.serve H w now = some c') : Stepped H c c' := by
  simp only [serve, Option.bind_eq_bind, Option.bind_eq_some_iff] at h
  obtain ⟨x, hx, σ, hσ, h⟩ := h
  cases hreq : x.requests with
  | nil => simp [hreq] at h
  | cons q rest =>
      rw [hreq] at h
      obtain ⟨-, rfl⟩ : _ ∧ _ = c' := by simpa using h
      exact .served hx hreq rfl (fun hne => Server.serve_request_refused hσ hne now)
        fun _ => ⟨rfl, Server.serve_request_idle hσ now⟩

lemma receive_stepped (h : c.receive = some c') : Stepped H c c' := by
  simp only [receive, Option.bind_eq_bind, Option.bind_eq_some_iff] at h
  obtain ⟨w, hw, x, hx, h⟩ := h
  cases hm : x.answers with
  | nil => simp [hm] at h
  | cons m rest =>
      rw [hm] at h
      cases hg : c.client.stage with
      | loginSent a =>
          obtain rfl : _ = c' := by simpa [hg] using h
          exact .relogged hw hx hm hg rfl
      | sent a =>
          obtain rfl : _ = c' := by simpa [hg] using h
          exact .answered hw hx hm hg rfl
      | idle | connect | login | send | returned | failed => simp [hg] at h

lemma step_stepped {e : FailoverEvent} (h : c.step H e = some c') : Stepped H c c' := by
  cases e with
  | call type payload =>
      obtain ⟨hover, rfl⟩ : c.client.stage.Over ∧ _ = c' := by simpa [step] using h
      refine .called rfl rfl (TrackerClient.awaits_of_over hover) ?_
      cases c.client.fd with
      | none => trivial
      | some w => trivial
  | connect i fd ip hip => exact connect_stepped h
  | unreachable =>
      cases hg : c.client.stage with
      | connect a =>
          obtain rfl : _ = c' := by simpa [step, hg] using h
          exact .noted rfl rfl (by rw [TrackerClient.awaits, hg]) (.inr rfl)
      | idle | login | loginSent | send | sent | returned | failed => simp [step, hg] at h
  | send =>
      simp only [step, send, Option.bind_eq_bind, Option.bind_eq_some_iff, Option.some.injEq] at h
      obtain ⟨⟨q, stage⟩, hsend, w, hfd, x, hx, rfl⟩ := h
      exact .sent hsend hfd hx
  | serve w now => exact serve_stepped h
  | receive => exact receive_stepped h
  | giveUp =>
      simp only [step, Option.bind_eq_bind, Option.bind_eq_some_iff, Option.ite_none_right_eq_some,
        Option.some.injEq] at h
      obtain ⟨w, -, x, -, -, rfl⟩ := h
      refine .gaveUp rfl rfl fun st resp hret => ?_
      have hretry : c.client.retry = .returned st resp := hret
      rw [TrackerClient.retry] at hretry
      split at hretry <;> cases hretry
  | cut w requests answers =>
      obtain ⟨x, hx, rfl⟩ := Option.map_eq_some_iff.mp h
      exact .lost (less_update hx (x.less_cut requests answers))
  | finish w =>
      simp only [step, Option.bind_eq_bind, Option.bind_eq_some_iff, Option.ite_none_right_eq_some,
        Option.some.injEq] at h
      obtain ⟨x, hx, -, rfl⟩ := h
      exact .lost (less_update hx ⟨List.Sublist.refl _, List.Sublist.refl _⟩)
  | noteLogin uid pwd port =>
      obtain ⟨hover, rfl⟩ : c.client.stage.Over ∧ _ = c' := by simpa [step] using h
      exact .noted rfl rfl (TrackerClient.awaits_of_over hover) (.inl rfl)
  | clearLogin =>
      obtain ⟨hover, rfl⟩ : c.client.stage.Over ∧ _ = c' := by simpa [step] using h
      exact .noted rfl rfl (TrackerClient.awaits_of_over hover) (.inl rfl)
  | others e =>
      simp only [step, Option.ite_none_right_eq_some, Option.map_eq_some_iff] at h
      obtain ⟨-, trackers, -, rfl⟩ := h
      exact .lost (c.less_survivors e)

/-! ### One thing at a time -/

/-- What is on a connection of the client. -/
structure WireInTurn (c : Failover) (w : ℕ) (x : Wire) : Prop where
  opened : w < c.opened
  one : x.load.length ≤ 1
  calls : ∀ n, some n ∈ x.load → n ≤ c.client.call
  unserved : ∀ q ∈ x.requests, ∀ s ∈ c.served, q.call = some s.call → s.wire ≠ w
  served : ∀ m ∈ x.answers, ∀ n, m.call = some n →
    ∃ s ∈ c.served, s.call = n ∧ s.wire = w ∧ s.status = m.status
  awaited : c.client.fd = some w → ∀ p ∈ x.load, c.client.awaits = some p

/-- **The invariant.** -/
structure InTurn (c : Failover) : Prop where
  wires : ∀ w x, c.wires w = some x → c.WireInTurn w x
  opened : ∀ s ∈ c.served, s.wire < c.opened
  calls : ∀ s ∈ c.served, s.call ≤ c.client.call
  refused : ∀ s ∈ c.served, s.status ≠ .ok → s.after = s.before
  once : ∀ s ∈ c.served, ∀ s' ∈ c.served, s.call = s'.call → s.wire = s'.wire → s.status = s'.status
  unsent : c.client.Unsent → ∀ s ∈ c.served, s.call = c.client.call → c.client.fd ≠ some s.wire
  returned : ∀ st resp, c.client.stage = .returned st resp →
    ∃ s ∈ c.served, s.call = c.client.call ∧ c.client.fd = some s.wire ∧ s.status = st

lemma WireInTurn.less {w : ℕ} {x x' : Wire} (h : c.WireInTurn w x) (hless : x'.Less x) :
    c.WireInTurn w x' where
  opened := h.opened
  one := hless.load.length_le.trans h.one
  calls n hn := h.calls n (hless.load.subset hn)
  unserved q hq := h.unserved q (hless.requests.subset hq)
  served m hm := h.served m (hless.answers.subset hm)
  awaited hfd p hp := h.awaited hfd p (hless.load.subset hp)

namespace InTurn

lemma start (trackers : Pair) (eps : List Role) : (start trackers eps).InTurn where
  wires w x hx := by cases hx
  opened s hs := by cases hs
  calls s hs := by cases hs
  refused s hs := by cases hs
  once s hs := by cases hs
  unsent hunsent := hunsent.elim
  returned st resp hret := by cases hret

/-- The client moves on and has nothing under way on its connection. -/
lemma setClient (h : c.InTurn) {k : TrackerClient} (hcall : c.client.call ≤ k.call)
    (hfd : k.fd = none ∨ k.fd = c.client.fd ∧ c.client.awaits = none)
    (hunsent : k.Unsent → c.client.call < k.call ∨ k.fd = none ∨ c.client.Unsent)
    (hret : ∀ st resp, k.stage = .returned st resp →
      k.call = c.client.call ∧ k.fd = c.client.fd ∧ c.client.stage = .returned st resp) :
    (c.setClient k).InTurn where
  wires w x hx := by
    have hw := h.wires w x hx
    refine ⟨hw.opened, hw.one, fun n hn => (hw.calls n hn).trans hcall, hw.unserved, hw.served, ?_⟩
    intro hkfd p hp
    rcases hfd with hnone | ⟨hsame, hawaits⟩
    · cases hnone.symm.trans hkfd
    · have hp' := hw.awaited (hsame.symm.trans hkfd) p hp
      cases hawaits.symm.trans hp'
  opened := h.opened
  calls s hs := (h.calls s hs).trans hcall
  refused := h.refused
  once := h.once
  unsent hk s hs hsame := by
    have hle : s.call ≤ c.client.call := h.calls s hs
    have hk_eq : s.call = k.call := hsame
    rcases hunsent hk with hlt | hnone | hold
    · omega
    · intro hkfd
      cases hnone.symm.trans hkfd
    · rcases hfd with hnone | ⟨hfd, -⟩
      · intro hkfd
        cases hnone.symm.trans hkfd
      · have hcall' : s.call = c.client.call := by omega
        intro hkfd
        exact h.unsent hold s hs hcall' (hfd.symm.trans hkfd)
  returned st resp hk := by
    obtain ⟨hcall', hfd', hstage⟩ := hret st resp hk
    obtain ⟨s, hs, hscall, hsfd, hst⟩ := h.returned st resp hstage
    exact ⟨s, hs, hscall.trans hcall'.symm, hfd'.trans hsfd, hst⟩

/-- What `WireInTurn` rests on, apart from the connection itself. -/
lemma wireInTurn (h : c.InTurn) {w : ℕ} {x : Wire} (hx : c.wires w = some x)
    (hopened : c.opened ≤ c'.opened) (hcall : c'.client.call = c.client.call)
    (hserved : ∃ new, c'.served = c.served ++ new ∧ ∀ s ∈ new, s.wire ≠ w)
    (hawaited : c'.client.fd = some w → ∀ p ∈ x.load, c'.client.awaits = some p) :
    c'.WireInTurn w x := by
  have hw := h.wires w x hx
  obtain ⟨new, hserved, hnew⟩ := hserved
  refine ⟨hw.opened.trans_le hopened, hw.one, hcall ▸ hw.calls, ?_, ?_, hawaited⟩
  · intro q hq s hs
    rw [hserved] at hs
    rcases List.mem_append.mp hs with hs | hs
    · exact hw.unserved q hq s hs
    · exact fun _ => hnew s hs
  · intro m hm n hn
    obtain ⟨s, hs, hrest⟩ := hw.served m hm n hn
    exact ⟨s, hserved ▸ List.mem_append_left new hs, hrest⟩

/-- A new connection. -/
lemma connected (h : c.InTurn) {r : Role} {fd : ℕ} {trackers : Pair} {k : TrackerClient}
    (hfd : k.fd = some c.opened) (hcall : k.call = c.client.call)
    (hnot : ∀ st resp, k.stage ≠ .returned st resp) :
    InTurn
      { c with
        trackers := trackers
        wires := Function.update c.wires c.opened (some ⟨r, fd, [], [], true, true⟩)
        opened := c.opened + 1
        client := k } where
  wires w x hx := by
    by_cases hw : w = c.opened
    · subst hw
      obtain rfl : _ = x := by simpa using hx
      refine ⟨Nat.lt_succ_self _, by simp [Wire.load], ?_, ?_, ?_, ?_⟩
      · intro n hn
        cases hn
      · intro q hq
        cases hq
      · intro m hm
        cases hm
      · intro _ p hp
        cases hp
    · have hold : c.wires w = some x := by simpa [Function.update_of_ne hw] using hx
      refine h.wireInTurn hold (Nat.le_succ _) hcall ⟨[], (List.append_nil _).symm, nofun⟩ ?_
      intro hkfd
      exact absurd (Option.some.inj (hkfd.symm.trans hfd)) hw
  opened s hs := (h.opened s hs).trans (Nat.lt_succ_self _)
  calls s hs := hcall ▸ h.calls s hs
  refused := h.refused
  once := h.once
  unsent _ s hs _ hkfd := by
    have heq : c.opened = s.wire := Option.some.inj (hfd.symm.trans hkfd)
    exact absurd (h.opened s hs) (by omega)
  returned st resp hret := absurd hret (hnot st resp)

/-- What is sent is put on a connection with nothing on it. -/
lemma load_sent (h : c.InTurn) {q : Query} {stage : CallStage} {w : ℕ} {x : Wire}
    (hsend : toSend c.client = some (q, stage)) (hfd : c.client.fd = some w)
    (hx : c.wires w = some x) : x.load = [] := by
  refine List.eq_nil_iff_forall_not_mem.mpr fun p hp => ?_
  have hawaits := (h.wires w x hx).awaited hfd p hp
  rw [TrackerClient.awaits] at hawaits
  rw [toSend] at hsend
  cases hg : c.client.stage with
  | loginSent | sent => simp [hg] at hsend
  | idle | connect | login | send | returned | failed => simp [hg] at hawaits

lemma toSend_spec {k : TrackerClient} {q : Query} {stage : CallStage}
    (h : toSend k = some (q, stage)) :
    TrackerClient.awaits { k with stage := stage } = some q.call ∧ k.Unsent ∧
      (∀ n, q.call = some n → n = k.call) ∧ ∀ st resp, stage ≠ .returned st resp := by
  rw [toSend] at h
  rw [TrackerClient.Unsent]
  cases hg : k.stage with
  | login a =>
      rw [hg] at h
      obtain ⟨p, -, heq⟩ := Option.map_eq_some_iff.mp h
      obtain ⟨rfl, rfl⟩ := Prod.mk.inj heq
      exact ⟨rfl, trivial, nofun, fun _ _ => nofun⟩
  | send a =>
      rw [hg] at h
      obtain ⟨rfl, rfl⟩ := Prod.mk.inj (Option.some.inj h)
      exact ⟨rfl, trivial, fun n hn => (Option.some.inj hn).symm, fun _ _ => nofun⟩
  | idle | connect | loginSent | sent | returned | failed => simp [hg] at h

/-- **A frame is sent.** -/
lemma sent (h : c.InTurn) {q : Query} {stage : CallStage} {w : ℕ} {x : Wire}
    (hsend : toSend c.client = some (q, stage)) (hfd : c.client.fd = some w)
    (hx : c.wires w = some x) :
    ((c.setWire w (x.push q)).setClient { c.client with stage := stage }).InTurn := by
  obtain ⟨hawaits, hunsent, hcall, hnot⟩ := toSend_spec hsend
  obtain ⟨hanswers, hrequests, hload, hone⟩ := Wire.push_of_idle (h.load_sent hsend hfd hx) q
  refine ⟨fun w' x' hx' => ?_, h.opened, h.calls, h.refused, h.once, fun _ => h.unsent hunsent,
    fun st resp hret => absurd hret (hnot st resp)⟩
  by_cases hw : w' = w
  · subst hw
    obtain rfl : x.push q = x' := by simpa [Failover.setClient, setWire] using hx'
    refine ⟨(h.wires w' x hx).opened, hone, ?_, ?_, ?_, ?_⟩
    · intro n hn
      exact (hcall n (hload _ hn).symm).le
    · intro q' hq' s hs hqs heq
      rw [hrequests q' hq'] at hqs
      exact h.unsent hunsent s hs (hcall _ hqs) (heq ▸ hfd)
    · intro m hm
      rw [hanswers] at hm
      cases hm
    · intro _ p hp
      rw [hload p hp]
      exact hawaits
  · have hold : c.wires w' = some x' := by
      simpa [Failover.setClient, setWire, Function.update_of_ne hw] using hx'
    refine h.wireInTurn hold le_rfl rfl ⟨[], (List.append_nil _).symm, nofun⟩ fun hfd' => ?_
    exact absurd (Option.some.inj (hfd'.symm.trans hfd)) hw

/-- A call is dispatched once on a connection if what is new is. -/
lemma once_append {old new : List Service}
    (hold : ∀ s ∈ old, ∀ s' ∈ old, s.call = s'.call → s.wire = s'.wire → s.status = s'.status)
    (hclash : ∀ s ∈ old, ∀ s' ∈ new, s.call = s'.call → s.wire ≠ s'.wire)
    (hnew : ∀ s ∈ new, ∀ s' ∈ new, s.status = s'.status) :
    ∀ s ∈ old ++ new, ∀ s' ∈ old ++ new,
      s.call = s'.call → s.wire = s'.wire → s.status = s'.status := by
  intro s hs s' hs' hcall hwire
  rcases List.mem_append.mp hs with hs | hs
  · rcases List.mem_append.mp hs' with hs' | hs'
    · exact hold s hs s' hs' hcall hwire
    · exact absurd hwire (hclash s hs s' hs' hcall)
  · rcases List.mem_append.mp hs' with hs' | hs'
    · exact absurd hwire.symm (hclash s' hs' s hs hcall.symm)
    · exact hnew s hs s' hs'

/-- **A request is dispatched.** -/
lemma served (h : c.InTurn) {w : ℕ} {x : Wire} {q : Query} {rest : List Query} {m : Answer}
    {trackers : Pair} {σ : Session} {before after : Tracker} (hx : c.wires w = some x)
    (hreq : x.requests = q :: rest) (hm : m.call = q.call)
    (hkept : m.status ≠ .ok → after = before) :
    InTurn
      { c.setWire w (x.reply m rest) with
        trackers := trackers
        served := c.served ++ q.call.toList.map fun n =>
          ⟨n, w, σ, q.type, q.payload, m.status, before, after⟩ } := by
  have hw := h.wires w x hx
  have hq : q ∈ x.requests := by simp [hreq]
  have hqload : q.call ∈ x.load := Wire.mem_load.mpr (.inl ⟨q, hq, rfl⟩)
  obtain ⟨rfl, hans⟩ := Wire.rest_of_request hw.one hreq
  obtain ⟨hanswers, hload, hone⟩ := Wire.reply_of_idle hans m
  rw [hm] at hload
  -- what is new among the requests that have been dispatched
  have hnew : ∀ s ∈ q.call.toList.map fun n =>
        (⟨n, w, σ, q.type, q.payload, m.status, before, after⟩ : Service),
      q.call = some s.call ∧ s.wire = w ∧ s.status = m.status ∧
        (s.status ≠ .ok → s.after = s.before) := by
    intro s hs
    obtain ⟨n, hn, rfl⟩ := List.mem_map.mp hs
    exact ⟨Option.mem_toList.mp hn, rfl, rfl, hkept⟩
  generalize hmap : (q.call.toList.map fun n =>
    (⟨n, w, σ, q.type, q.payload, m.status, before, after⟩ : Service)) = new at hnew
  refine ⟨fun w' x' hx' => ?_, ?_, ?_, ?_, ?_, ?_, ?_⟩
  · by_cases hne : w' = w
    · subst hne
      obtain rfl : x.reply m [] = x' := by simpa [setWire] using hx'
      refine ⟨hw.opened, hone, ?_, ?_, ?_, ?_⟩
      · intro n hn
        exact hw.calls n (hload _ hn ▸ hqload)
      · intro q' hq'
        cases hq'
      · intro m' hm' n hn
        obtain rfl := hanswers m' hm'
        have hqn : q.call = some n := hm.symm.trans hn
        refine ⟨⟨n, w', σ, q.type, q.payload, m'.status, before, after⟩,
          List.mem_append_right _ ?_, rfl, rfl, rfl⟩
        rw [← hmap, hqn]
        exact List.mem_singleton.mpr rfl
      · intro hfd p hp
        rw [hload p hp]
        exact hw.awaited hfd _ hqload
    · have hold : c.wires w' = some x' := by simpa [setWire, Function.update_of_ne hne] using hx'
      refine h.wireInTurn hold le_rfl rfl ⟨new, rfl, fun s hs heq => ?_⟩
        (h.wires w' x' hold).awaited
      exact hne (heq.symm.trans (hnew s hs).2.1)
  · intro s hs
    rcases List.mem_append.mp hs with hs | hs
    · exact h.opened s hs
    · exact (hnew s hs).2.1 ▸ hw.opened
  · intro s hs
    rcases List.mem_append.mp hs with hs | hs
    · exact h.calls s hs
    · exact hw.calls s.call ((hnew s hs).1 ▸ hqload)
  · intro s hs
    rcases List.mem_append.mp hs with hs | hs
    · exact h.refused s hs
    · exact (hnew s hs).2.2.2
  -- no call is served twice on one connection
  · have hclash : ∀ s ∈ c.served, ∀ s' ∈ new, s.call = s'.call → s.wire ≠ s'.wire := by
      intro s hs s' hs' hcall hwire
      refine hw.unserved q hq s hs ?_ (hwire.trans (hnew s' hs').2.1)
      rw [(hnew s' hs').1, hcall]
    exact once_append h.once hclash fun s hs s' hs' =>
      (hnew s hs).2.2.1.trans (hnew s' hs').2.2.1.symm
  · intro hunsent s hs hcall
    rcases List.mem_append.mp hs with hs | hs
    · exact h.unsent hunsent s hs hcall
    · intro hfd
      have hawaits : c.client.awaits = some q.call :=
        hw.awaited (by rw [← (hnew s hs).2.1]; exact hfd) _ hqload
      rw [(hnew s hs).1] at hawaits
      exact TrackerClient.not_unsent_of_awaits hawaits hunsent
  · intro st resp hret
    obtain ⟨s, hs, hrest⟩ := h.returned st resp hret
    exact ⟨s, List.mem_append_left _ hs, hrest⟩

/-- **An answer is read.** Nothing is left on the connection. -/
lemma received (h : c.InTurn) {w : ℕ} {x : Wire} {m : Answer} {rest : List Answer}
    {k : TrackerClient} (hfd : c.client.fd = some w) (hx : c.wires w = some x)
    (hm : x.answers = m :: rest) (hkfd : k.fd = c.client.fd) (hcall : k.call = c.client.call)
    (hunsent : k.Unsent → c.client.Unsent)
    (hret : ∀ st resp, k.stage = .returned st resp → st = m.status ∧ m.call = some c.client.call) :
    ((c.setWire w { x with answers := rest }).setClient k).InTurn := by
  have hw := h.wires w x hx
  have hmem : m ∈ x.answers := by simp [hm]
  obtain ⟨hreq, rfl⟩ := Wire.rest_of_answer hw.one hm
  refine ⟨fun w' x' hx' => ?_, h.opened, hcall ▸ h.calls, h.refused, h.once, ?_, ?_⟩
  · by_cases hne : w' = w
    · subst hne
      obtain rfl : { x with answers := [] } = x' := by
        simpa [Failover.setClient, setWire] using hx'
      have hload : Wire.load { x with answers := [] } = [] := by simp [Wire.load, hreq]
      refine ⟨hw.opened, by simp [hload], by simp [hload], ?_, nofun, by simp [hload]⟩
      intro q hq
      rw [show _ = x.requests from rfl, hreq] at hq
      cases hq
    · have hold : c.wires w' = some x' := by
        simpa [Failover.setClient, setWire, Function.update_of_ne hne] using hx'
      refine h.wireInTurn hold le_rfl hcall ⟨[], (List.append_nil _).symm, nofun⟩ fun hfd' => ?_
      have hboth : k.fd = some w := hkfd.trans hfd
      exact absurd (Option.some.inj (hfd'.symm.trans hboth)) hne
  · intro hk s hs hscall
    have hsame : k.fd ≠ some s.wire := by
      rw [hkfd]
      exact h.unsent (hunsent hk) s hs (hscall.trans hcall)
    exact hsame
  · intro st resp hstage
    obtain ⟨rfl, hmcall⟩ := hret st resp hstage
    obtain ⟨s, hs, hscall, hswire, hst⟩ := hw.served m hmem c.client.call hmcall
    exact ⟨s, hs, hscall.trans hcall.symm, (hkfd.trans hfd).trans (congrArg some hswire.symm), hst⟩

/-- **Every step keeps the invariant.** -/
lemma step (h : c.InTurn) {e : FailoverEvent} (hstep : c.step H e = some c') : c'.InTurn := by
  cases step_stepped hstep with
  | @called k hfd hcall hawaits hunsent =>
      refine h.setClient (by omega) (.inr ⟨hfd, hawaits⟩) (fun _ => .inl (by omega)) ?_
      intro st resp hstage
      rw [TrackerClient.Unsent, hstage] at hunsent
      exact hunsent.elim
  | @noted k hfd hcall hawaits hstage =>
      refine h.setClient hcall.ge (.inr ⟨hfd, hawaits⟩) ?_ ?_
      · intro hk
        rcases hstage with hsame | hfailed
        · rw [TrackerClient.Unsent, hsame] at hk
          exact .inr (.inr hk)
        · rw [TrackerClient.Unsent, hfailed] at hk
          exact hk.elim
      · intro st resp hk
        rcases hstage with hsame | hfailed
        · exact ⟨hcall, hfd, hsame.symm.trans hk⟩
        · cases hfailed.symm.trans hk
  | gaveUp hfd hcall hstage =>
      exact h.setClient hcall.ge (.inl hfd) (fun _ => .inr (.inl hfd))
        fun st resp hk => absurd hk (hstage st resp)
  | connected hfd hcall hnot => exact h.connected hfd hcall hnot
  | sent hsend hfd hx => exact h.sent hsend hfd hx
  | served hx hreq hm hkept => exact h.served hx hreq hm hkept
  | relogged hfd hx hm hstage hk =>
      subst hk
      refine h.received hfd hx hm rfl rfl (fun _ => ?_) fun st resp hret => by cases hret
      rw [TrackerClient.Unsent, hstage]
      trivial
  | @answered w x m rest a k hfd hx hm hstage hk =>
      subst hk
      refine h.received hfd hx hm rfl rfl (fun hk => hk.elim) fun st resp hret => ?_
      obtain ⟨hst, -⟩ := CallStage.returned.inj hret
      have hload : m.call ∈ x.load := Wire.mem_load.mpr (.inr ⟨m, by simp [hm], rfl⟩)
      have hawaits := (h.wires w x hx).awaited hfd _ hload
      rw [TrackerClient.awaits, hstage] at hawaits
      exact ⟨hst.symm, (Option.some.inj hawaits).symm⟩
  | lost hless =>
      refine ⟨fun w x' hx' => ?_, h.opened, h.calls, h.refused, h.once, h.unsent, h.returned⟩
      obtain ⟨x, hx, hlost⟩ := hless w x' hx'
      have hw := (h.wires w x hx).less hlost
      exact ⟨hw.opened, hw.one, hw.calls, hw.unserved, hw.served, hw.awaited⟩

end InTurn

/-! ### What the answer says -/

/-- **A failed answer means no effect**, and after a successful one exactly one
session has carried out the request. -/
def AsAnswered (c : Failover) (st : Status) : Prop :=
  (st ≠ .ok → ∀ s ∈ c.served, s.call = c.client.call → s.after = s.before) ∧
    (st = .ok → ∃! w, ∃ s ∈ c.served, s.call = c.client.call ∧ s.wire = w ∧ s.status = .ok)

/-- **The condition**: an attempt whose answer was lost came to a tracker that refused it, or
it had nothing to do there and the other one came to a tracker that refused it. -/
def LostUnused (H : Str → Str) (c : Failover) : Prop :=
  ∀ s ∈ c.served, s.call = c.client.call → c.client.fd ≠ some s.wire →
    (s.outcome H).status = .ok → s.Idle H ∧
      ∀ s' ∈ c.served, s'.call = c.client.call → c.client.fd = some s'.wire →
        (s'.outcome H).status ≠ .ok

instance (H : Str → Str) (c : Failover) : Decidable (c.LostUnused H) :=
  inferInstanceAs (Decidable (∀ s ∈ c.served, _))

/-- **Every step** records requests as they are dispatched. -/
lemma dispatched_step (h : ∀ s ∈ c.served, s.Dispatched H) {e : FailoverEvent}
    (hstep : c.step H e = some c') : ∀ s ∈ c'.served, s.Dispatched H := by
  cases step_stepped hstep with
  | served hx hreq hm hkept hdispatched =>
      intro s hs
      rcases List.mem_append.mp hs with hold | hnew
      · exact h s hold
      · obtain ⟨n, -, rfl⟩ := List.mem_map.mp hnew
        exact hdispatched n
  | called | noted | gaveUp | connected | sent | relogged | answered | lost => exact h

/-- **When an answer says what the request did**: in every run, exactly if no
attempt whose answer was lost came to a tracker that carried it out. -/
theorem answered_iff {trackers : Pair} {eps : List Role}
    (hrun : Run (step H) (fun _ _ => True) (start trackers eps) c) {st : Status} {resp : Str}
    (hret : c.client.stage = .returned st resp) : c.AsAnswered st ↔ c.LostUnused H := by
  have h : c.InTurn := hrun.invariant (.start trackers eps) fun hI _ hstep => hI.step hstep
  have hdispatched : ∀ s ∈ c.served, s.Dispatched H :=
    hrun.invariant (I := fun c => ∀ s ∈ c.served, s.Dispatched H) (fun s hs => by cases hs)
      fun hI _ hstep => dispatched_step hI hstep
  obtain ⟨s₀, hs₀, hcall₀, hfd₀, hst₀⟩ := h.returned st resp hret
  -- on the connection of the answer the request has been dispatched with its status
  have hanswered : ∀ s ∈ c.served, s.call = c.client.call → c.client.fd = some s.wire →
      s.status = st := by
    intro s hs hcall hfd
    have hwire : s₀.wire = s.wire := Option.some.inj (hfd₀.symm.trans hfd)
    exact (h.once s₀ hs₀ s hs (hcall₀.trans hcall.symm) hwire).symm.trans hst₀
  constructor
  · rintro ⟨hfailed, hdone⟩ s hs hcall hlost hok
    have hstatus : s.status = .ok := (hdispatched s hs).1.trans hok
    have hne : st ≠ .ok := by
      intro hst
      obtain ⟨w, -, hunique⟩ := hdone hst
      have hthis : s.wire = w := hunique s.wire ⟨s, hs, hcall, rfl, hstatus⟩
      have hthat : s₀.wire = w := hunique s₀.wire ⟨s₀, hs₀, hcall₀, rfl, hst₀.trans hst⟩
      exact hlost (hfd₀.trans (congrArg some (hthat.trans hthis.symm)))
    refine ⟨(hdispatched s hs).2.mp (hfailed hne s hs hcall), fun s' hs' hcall' hfd' => ?_⟩
    rw [← (hdispatched s' hs').1, hanswered s' hs' hcall' hfd']
    exact hne
  · intro hunused
    refine ⟨fun hne s hs hcall => ?_,
      fun hst => ⟨s₀.wire, ⟨s₀, hs₀, hcall₀, rfl, hst₀.trans hst⟩, ?_⟩⟩
    · by_cases hok : s.status = .ok
      · have hlost : c.client.fd ≠ some s.wire := fun hfd =>
          hne ((hanswered s hs hcall hfd).symm.trans hok)
        have hidle := (hunused s hs hcall hlost ((hdispatched s hs).1.symm.trans hok)).1
        exact (hdispatched s hs).2.mpr hidle
      · exact h.refused s hs hok
    · rintro w ⟨s, hs, hcall, rfl, hok⟩
      by_contra hne
      have hlost : c.client.fd ≠ some s.wire := fun hfd =>
        hne (Option.some.inj (hfd.symm.trans hfd₀))
      have hrefused := (hunused s hs hcall hlost ((hdispatched s hs).1.symm.trans hok)).2
      refine hrefused s₀ hs₀ hcall₀ hfd₀ ?_
      rw [← (hdispatched s₀ hs₀).1, hst₀, hst]

/-- A registration is sent on a connection that is lost before it arrives, and is
answered by the other tracker. -/
def reconnecting : List FailoverEvent :=
  [.connect 0 7 [4] peerIp_fits, .call MsgType.createUser.code (putStr [1] ++ putStr [2]), .send,
    .cut 0 0 0, .giveUp, .connect 1 7 [4] peerIp_fits, .send, .serve 1 0, .receive]

theorem answered_iff_reconnecting :
    let c := (exec (step id) (start Pair.fresh [.dialer, .acceptor]) reconnecting).get
      (by decide +kernel)
    c.AsAnswered .ok := by
  intro c
  have hrun : Run (step id) (fun _ _ => True) (start Pair.fresh [.dialer, .acceptor]) c :=
    Run.of_exec (meets_of_forall (fun _ _ => trivial) _) (Option.some_get _).symm
  have hret : c.client.stage = .returned .ok [] := by decide +kernel
  exact (answered_iff hrun hret).mpr (by decide +kernel)

/-- A client registers, shares a file and stops sharing it. The connection is lost
when the tracker has carried that out, and the other tracker, which has got the op,
answers the second attempt. -/
def stopping : List FailoverEvent :=
  [FailoverEvent.connect 0 7 [4] peerIp_fits] ++
    exchange 0 .createUser (putStr [1] ++ putStr [2]) ++
    exchange 0 .login (putLogin ([1], [2], 6)) ++ [FailoverEvent.noteLogin [1] [2] 6] ++
    exchange 0 .createGroup (putStr [5]) ++
    exchange 0 .uploadFile (putUpload [5] ⟨[7], 1, [9], [[8]], ∅⟩) ++
    [FailoverEvent.call MsgType.stopShare.code (putStr [5] ++ putStr [7]), .send, .serve 0 0,
      .cut 0 0 0, .giveUp] ++
    List.replicate 4 (FailoverEvent.others (.deliver .acceptor)) ++
    [FailoverEvent.connect 1 7 [4] peerIp_fits, .send, .serve 1 0, .receive, .send, .serve 1 0,
      .receive]

/-- **A failed answer to a request that has been carried out**: the client is told
that it does not share the file. -/
theorem stopped_twice :
    ∃ c : Failover, Run (step id) (fun _ _ => True) (start Pair.fresh [.dialer, .acceptor]) c ∧
      c.client.stage = .returned .notFound [] ∧ ¬ c.AsAnswered .notFound := by
  let c := (exec (step id) (start Pair.fresh [.dialer, .acceptor]) stopping).get (by decide +kernel)
  have hrun : Run (step id) (fun _ _ => True) (start Pair.fresh [.dialer, .acceptor]) c :=
    Run.of_exec (meets_of_forall (fun _ _ => trivial) _) (Option.some_get _).symm
  have hchanged : ∃ s ∈ c.served, s.call = c.client.call ∧ s.after ≠ s.before := by decide +kernel
  refine ⟨c, hrun, by decide +kernel, fun h => ?_⟩
  obtain ⟨s, hs, hcall, hne⟩ := hchanged
  exact hne (h.1 (by decide) s hs hcall)

end Failover

end P2PShare
